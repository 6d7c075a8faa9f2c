/-
# `Wraith.Restore.Handover` — the child at the moment it is let go

Behind `restore_registers` the child is used once more: the descriptors are handed over by injected
calls of `dup2`, each of which patches the code at the restored instruction pointer and changes the
restored registers.  A failed injection is logged and the loop goes on.  So the child is let go as
`restore_registers` left it if none of these injections breaks off between its patch and the
registers' being put back: `restoreInner_steady`.

The code at the instruction pointer is then what the loop over the regions has put there, unless a
later round has ruined it: `restoreInner_hands_over_iff`.
-/
import Wraith.Restore.Malformed

namespace Wraith.Restore

open Lib Script Process

variable {checksum : List UInt8 → UInt64} {child : Int32} {α : Type}

/-! ## The phase -/

/-- A call that returns takes the injection on as stated. -/
theorem call_phase {g : Phase} (g' : Phase) {o : RestOp} {view : RestResp o → Except Error α}
    (h : ∀ r a, view r = .ok a → Phase.next g o r = g') :
    Ensures phased (fun x => x.2 = g) (call o view : Rest α) (fun _ x => x.2 = g') := by
  refine Ensures.call ?_
  rintro x r x' a rfl ⟨-, hnext⟩ hr
  exact hnext.trans (h r a hr)

theorem pure_phase {g : Phase} {a : α} :
    Ensures phased (fun x => x.2 = g) (pure a : Rest α) (fun _ x => x.2 = g) :=
  Ensures.pure fun _ h => h

theorem ofExcept_phase {g : Phase} {r : Except Error α} :
    Ensures phased (fun x => x.2 = g) (ofExcept r : Rest α) (fun _ x => x.2 = g) :=
  Ensures.ofExcept fun _ _ h _ => h

/-- An injection that returns has put everything back. -/
theorem inject_phase {nr : UInt64} {args : CallArgs} :
    Ensures phased (fun x => x.2 = .idle) (inject child nr args) (fun _ x => x.2 = .idle) := by
  rw [inject]
  refine Ensures.bind (call_phase _ fun _ _ _ => rfl) fun saved => ?_
  refine Ensures.bind (call_phase _ fun _ _ _ => rfl) fun word => ?_
  refine Ensures.bind (call_phase .patched fun r _ hr => ?_) fun _ => ?_
  · cases r with
    | error e => cases hr
    | ok _ => rfl
  refine Ensures.bind (call_phase .patched fun r _ hr => ?_) fun _ => ?_
  · cases r with
    | error e => cases hr
    | ok _ => rfl
  refine Ensures.bind (call_phase .patched fun r _ hr => ?_) fun _ => ?_
  · cases r with
    | error e => cases hr
    | ok _ => rfl
  -- A stop other than the trap breaks the injection off, and is an error.
  refine Ensures.bind (J := fun status x => status = .stopped .sigtrap → x.2 = .patched)
    (Ensures.call ?_) fun status => ?_
  · rintro x r x' status hx ⟨-, hnext⟩ hr rfl
    obtain rfl := mapErr_eq_ok hr
    rw [hnext, hx]
    rfl
  refine Ensures.bind (J := fun _ x => x.2 = .patched)
    (Ensures.ofExcept fun x _ hx htrap => hx (expectTrap_ok htrap)) fun _ => ?_
  rw [injectResult]
  refine Ensures.bind (call_phase .patched fun r _ hr => ?_) fun result => ?_
  · cases r with
    | error e => cases hr
    | ok _ => rfl
  refine Ensures.bind (call_phase .unpatched fun r _ hr => ?_) fun _ => ?_
  · cases r with
    | error e => cases hr
    | ok _ => rfl
  refine Ensures.bind (call_phase .idle fun r _ hr => ?_) fun _ => ofExcept_phase
  cases r with
  | error e => cases hr
  | ok _ => rfl

theorem writeToChildMem_phase {addr : UInt64} {data : List UInt8} :
    Ensures phased (fun x => x.2 = .idle) (writeToChildMem child addr data)
      (fun _ x => x.2 = .idle) :=
  Ensures.bind (call_phase _ fun _ _ _ => rfl) fun _ =>
    Ensures.bind (call_phase _ fun _ _ _ => rfl) fun _ => call_phase _ fun _ _ _ => rfl

theorem restoreRegion_phase {region : Proto.MemoryRegion} :
    Ensures phased (fun x => x.2 = .idle) (restoreRegion checksum child region)
      (fun _ x => x.2 = .idle) := by
  rw [restoreRegion]
  refine Ensures.bind ofExcept_phase fun _ => Ensures.bind inject_phase fun mapped =>
    Ensures.bind ofExcept_phase fun _ => Ensures.bind writeToChildMem_phase fun _ => ?_
  split
  · exact Ensures.bind inject_phase fun _ => pure_phase
  · exact pure_phase

theorem restoreRegions_phase {regions : List Proto.MemoryRegion} {n : Nat} :
    Ensures phased (fun x => x.2 = .idle) (restoreRegions checksum child regions n)
      (fun _ x => x.2 = .idle) := by
  induction regions generalizing n with
  | nil => exact pure_phase
  | cons region regions ih => exact Ensures.bind restoreRegion_phase fun _ => ih

theorem restoreState_phase {s : Proto.ProcessSnapshot} :
    Ensures phased (fun x => x.2 = .idle) (restoreState checksum s child)
      (fun _ x => x.2 = .idle) := by
  have hregisters : Ensures phased (fun x => x.2 = .idle) (restoreRegisters child s.registers)
      (fun _ x => x.2 = .idle) := by
    refine Ensures.bind ofExcept_phase fun regs =>
      Ensures.bind (call_phase _ fun _ _ _ => rfl) fun _ => ?_
    split
    · exact Ensures.bind ofExcept_phase fun _ => call_phase _ fun _ _ _ => rfl
    · exact pure_phase
  exact Ensures.bind restoreRegions_phase fun _ => Ensures.bind hregisters fun _ => pure_phase

/-! ## The descriptors -/

/-- The child is as it was, but for its descriptors; or an injection has been broken off. -/
def Steady (c : Child) (x : World × Phase) : Prop :=
  x.2 = .broken ∨ x.2 = .idle ∧ ∃ fds, x.1.child = { c with fds }

variable {c : Child}

theorem onFiles_phase {g : Phase} {o : RestOp} {r : RestResp o} (ho : o.OnFiles)
    (hg : g = .broken ∨ g = .idle) : Phase.next g o r = g := by
  obtain rfl | rfl := hg
  · rfl
  · cases o with
    | openFile path opts => rfl
    | seek fd offset => rfl
    | openDirectory path flags => rfl
    | close fd => rfl
    | _ => exact ho.elim

theorem onFiles_steady {x x' : World × Phase} {o : RestOp} {r : RestResp o} (ho : o.OnFiles)
    (hx : Steady c x) (ha : phased x o r x') : Steady c x' := by
  obtain ⟨hans, hnext⟩ := ha
  have hphase : x'.2 = x.2 := hnext.trans (onFiles_phase ho (hx.imp id And.left))
  rw [Steady, hphase, answer_onFiles ho hans]
  exact hx

/-- An injected `dup2` changes the descriptors, or is broken off. -/
theorem dup2_steady {oldFd newFd : Int32} : Keeps phased (Steady c) (dup2 child oldFd newFd) := by
  refine Keeps.bind (fun s tr p x x' hx hr ha => ?_) fun _ => .pure
  obtain ⟨w, g⟩ := x
  obtain hbroken | ⟨hidle, fds, hchild⟩ := hx
  · -- Nothing mends a broken injection.
    have hkeeps : Keeps phased (fun x => x.2 = .broken)
        (inject child sysDup2 { a0 := asU64 oldFd, a1 := asU64 newFd }) :=
      Uses.keeps (p := fun _ => True) (fun _ _ _ _ _ _ => trivial) fun x o r x' _ hx ha => by
        rw [ha.2, hx]
        rfl
    exact Or.inl (hkeeps s tr p _ _ hbroken hr ha)
  · have hclear : Clear { c with fds } sysDup2 { a0 := asU64 oldFd, a1 := asU64 newFd } :=
      fun h => absurd (show sysDup2 = sysMmap from h) (by decide)
    have h := inject_injected s tr p _ _ ⟨hchild, hidle⟩ hr ha
    generalize p.1 = q at h
    cases h with
    | nothing hw => exact Or.inr ⟨rfl, fds, hw⟩
    | broken => exact Or.inl rfl
    | called hword htrapped _ hw =>
        obtain ⟨ret, mem, fds', -, hcall, hback⟩ := trapped_syscall hword hclear htrapped
        rw [hback] at hw
        cases hcall with
        | fails _ => exact Or.inr ⟨rfl, _, hw⟩
        | mmap hnr _ _ _ => exact absurd (show sysDup2 = sysMmap from hnr) (by decide)
        | mprotect hnr _ _ => exact absurd (show sysDup2 = sysMprotect from hnr) (by decide)
        | dup2 _ _ _ => exact Or.inr ⟨rfl, _, hw⟩

theorem installAll_steady {outcomes : List FdOutcome} :
    Keeps phased (Steady c) (installAll child outcomes) :=
  installAll_keeps (fun _ _ => dup2_steady) fun fd _ _ _ hx ha =>
    onFiles_steady (o := .close fd) trivial hx ha

theorem restoreAll_steady {fds : List FdSpec} {report : RestoreReport} :
    Keeps phased (Steady c) (restoreAll fds report) :=
  restoreAll_uses.keeps fun _ _ _ _ ho hx ha => onFiles_steady ho hx ha

/-! ## The handing over -/

variable {s : Proto.ProcessSnapshot} {fds : List FdSpec} {tr : List (Event RestResp)}
  {result : RestoreResult} {w w' : World}

/-- If no injection is broken off, the child is let go as `restore_registers` has left it, but for
its descriptors. -/
theorem restoreInner_steady
    (h : Cmd.Runs (restoreInner checksum s fds child ()) tr (.ok result, ()))
    (ha : Answered answer w tr w') (hwhole : phases.after .idle tr ≠ .broken) :
    ∃ n tr₁ w₁ fds' tr₂, Cmd.Runs (restoreState checksum s child ()) tr₁ (.ok n, ()) ∧
      Answered answer w tr₁ w₁ ∧ tr = tr₁ ++ tr₂ ∧
        w'.released = some { w₁.child with fds := fds' } := by
  obtain ⟨tr₁, tr₂, tr₃, rfl, -, hstate, hfiles, hinstall⟩ := restoreInner_returns h
  obtain ⟨w₃, ha₃, w₄, hdetach, rfl⟩ := answered_append.mp ha
  obtain ⟨w₂, ha₂, hainstall⟩ := answered_append.mp ha₃
  obtain ⟨w₁, ha₁, hafiles⟩ := answered_append.mp ha₂
  have hidle : phases.after .idle tr₁ = .idle :=
    restoreState_phase.returns (w := (w, .idle)) rfl hstate ha₁.watched
  have hopened := restoreAll_steady () tr₂ _ (w₁, .idle) _ (Or.inr ⟨rfl, w₁.child.fds, rfl⟩) hfiles
    hafiles.watched
  obtain hbroken | ⟨-, fds', hchild⟩ :=
    installAll_steady () tr₃ _ _ _ hopened hinstall hainstall.watched
  · refine absurd ?_ hwhole
    rw [Cmd.Monitor.after_append, Cmd.Monitor.after_append, Cmd.Monitor.after_append, hidle,
      show phases.after (phases.after .idle tr₂) tr₃ = .broken from hbroken]
    rfl
  · obtain rfl := hdetach
    refine ⟨_, tr₁, w₁, fds', tr₂ ++ tr₃ ++ [⟨.detach child, .ok ()⟩], hstate, ha₁, ?_,
      congrArg some hchild⟩
    rw [List.append_assoc tr₁, List.append_assoc tr₁]

/-! ## The code at the instruction pointer -/

/-- A log file, open for reading. -/
def logFd : FdSpec where
  fdNum := 3
  fdType := 0
  path := "/var/log/app.log"
  fileOffset := 0
  openFlags := 0

/-- One page, at which the program lies. -/
def pageSnapshot : Proto.ProcessSnapshot := smallSnapshot [zeroRegion 0x10000 0x1000]

theorem pageSnapshot_valid : validate pageSnapshot = .ok () := smallSnapshot_valid (by decide)

theorem pageSnapshot_placeable {r : Proto.MemoryRegion} (hr : r ∈ pageSnapshot.memoryRegions)
    (fds : Fds) :
    Placeable (fun _ => 0) { stub with fds } r := by
  obtain rfl := List.mem_singleton.mp hr
  exact (zeroRegion_placeable (by decide) (by decide) le_rfl).mem _ _

/-- It is opened as 5. -/
def openLog : List (Event RestResp) :=
  [⟨.openFile "/var/log/app.log" (regularOptions 0), .ok 5⟩, ⟨.seek 5 0, .ok ()⟩]

/-- The registers are set and the file is reopened; however the `dup2` comes out, the restore ends
well, with the child as it has left it. -/
theorem pageSnapshot_run {w : World} {fds : Fds} {P : List (Event RestResp) → Child → Prop}
    (hchild : w.child = { stub with fds }) (hparent : w.parent 5 = none)
    (hdup : ∀ w₁, SiteMapped w₁.child → w₁.child.fds = fds → ∃ r tr w₂,
      Cmd.Runs (dup2 42 5 3 ()) tr (r, ()) ∧ Answered answer w₁ tr w₂ ∧ P tr w₂.child) :
    ∃ tr w' tr' c, Cmd.Runs (restoreInner (fun _ => 0) pageSnapshot [logFd] 42 ()) tr
        (.ok { pid := 42, regionsOk := 1, fdReport := { restored := [.restored 3 5] } }, ()) ∧
      Answered answer w tr w' ∧ w'.released = some c ∧ P tr' c ∧
      (phases.after .idle tr' = .idle → phases.after .idle tr = .idle) := by
  have hsite : SiteMapped w.child := by rw [hchild]; exact stub_site
  have hplace : ∀ r ∈ pageSnapshot.memoryRegions, Placeable (fun _ => 0) w.child r := fun r hr => by
    rw [hchild]
    exact pageSnapshot_placeable hr fds
  obtain ⟨tr₁, w₁, hr₁, ha₁, hafter⟩ := restoreState_done 42 (s := pageSnapshot) hsite hplace rfl
    (fun h => absurd rfl h)
  -- The file.
  have hnone : w₁.parent 5 = none := by rw [hafter.parent]; exact hparent
  let opened := (regularOptions 0).opened w₁.opens "/var/log/app.log"
  let w₂ : World := { w₁ with parent := w₁.parent.set 5 (some opened), opens := w₁.opens + 1 }
  let w₃ : World := { w₂ with parent := w₂.parent.set 5 (some { opened with offset := 0 }) }
  have hfiles : Cmd.Runs (restoreAll [logFd] {} ()) openLog
      (.ok { restored := [.restored 3 5] }, ()) := by
    have hopen : Cmd.Runs (restoreOne logFd ()) openLog (.ok (.restored 3 5), ()) :=
      runs_tryExcept_ok (runs_map (runs_call_ok rfl (runs_map (runs_tryExcept_ok
        (Cmd.runs_op.mpr ⟨.ok (), [], rfl, .ret _⟩)))))
    exact runs_bind_ok hopen (.ret _)
  have hafiles : Answered answer w₁ openLog w₃ :=
    ⟨w₂, ⟨by decide, hnone, rfl⟩, w₃, ⟨opened, Fds.set_self w₁.parent 5 (some opened), rfl⟩, rfl⟩
  -- The injection, at the restored instruction pointer.
  have hchild₃ : w₃.child =
      ({ w.child with mem := pageSnapshot.memoryRegions.foldl regionMem w.child.mem } :
      Child).loaded { rip := 0x10000, rsp := 0x10800 } := hafter.child
  have hsite₃ : SiteMapped w₃.child := by
    rw [hchild₃]
    have hend : (0x10000 : UInt64).toNat + 8 ≤ regionEnd (zeroRegion 0x10000 0x1000) := by decide
    have hunder : (regionMem w.child.mem (zeroRegion 0x10000 0x1000)).Under (0x10000 : UInt64).toNat
      (regionEnd (zeroRegion 0x10000 0x1000)) _ := regionMem_under
    exact hunder.mapped.mono le_rfl hend
  obtain ⟨r, tr₄, w₄, hr₄, ha₄, hP⟩ := hdup w₃ hsite₃ (by rw [hchild₃, hchild]; rfl)
  -- An error is logged; the file is closed, and the child detached.
  let w₅ : World := { w₄ with parent := w₄.parent.set 5 none }
  let w₆ : World := { w₅ with released := some w₅.child }
  have hlogged : Cmd.Runs (tryExcept (dup2 42 5 3) (fun _ => some (pure ())) ()) tr₄
      (.ok (), ()) := by
    refine runs_tryExcept.mpr ⟨tr₄, _, [], hr₄, ?_, (List.append_nil _).symm⟩
    cases r with
    | error x => exact .ret _
    | ok _ => exact .ret _
  have hinstall : Cmd.Runs (installAll 42 [.restored 3 5] ()) (tr₄ ++ [⟨.close 5, .ok ()⟩])
      (.ok (), ()) :=
    runs_bind_ok hlogged (runs_call_ok rfl (.ret _))
  have hrun : Cmd.Runs (restoreInner (fun _ => 0) pageSnapshot [logFd] 42 ())
      ((tr₁ ++ (openLog ++ (tr₄ ++ [⟨.close 5, .ok ()⟩]))) ++ [⟨.detach 42, .ok ()⟩]) _ :=
    runs_bind_ok (runs_bind_ok hr₁ (runs_bind_ok hfiles (runs_map hinstall)))
      (runs_call_ok rfl (.ret _))
  refine ⟨_, w₆, tr₄, w₄.child, hrun, ?_, rfl, hP, fun hidle => ?_⟩
  · exact answered_append.mpr ⟨w₅, answered_append.mpr ⟨w₁, ha₁, answered_append.mpr ⟨w₃, hafiles,
      answered_append.mpr ⟨w₄, ha₄, w₅, rfl, rfl⟩⟩⟩, w₆, rfl, rfl⟩
  · have hstate : phases.after .idle tr₁ = .idle :=
      restoreState_phase.returns (w := (w, .idle)) rfl hr₁ ha₁.watched
    have hopened : phases.after .idle openLog = .idle := rfl
    rw [Cmd.Monitor.after_append, Cmd.Monitor.after_append, Cmd.Monitor.after_append,
      Cmd.Monitor.after_append, hstate, hopened, hidle]
    rfl

end Wraith.Restore

/-
# `Wraith.Restore.Restorer` — rebuilding a process

`ProcessRestorer`: validate, fork a stub, map and fill the regions, set the registers, reopen the
descriptors and hand them over by injected `dup2`, detach.  `restore` kills the stub when
`restore_inner` fails; a failure of `fork_stub` is returned as it is.
-/
import Wraith.Restore.Descriptors

namespace Wraith.Restore

open Lib Script Process

/-- `RestoreResult`. -/
structure RestoreResult where
  pid : Int32
  regionsOk : Nat
  fdReport : RestoreReport
  deriving DecidableEq, Repr

/-- `std::env::consts::ARCH`. -/
def hostArch : String := "x86_64"

/-- `validate`. -/
def validate (s : Proto.ProcessSnapshot) : Except Error Unit :=
  if s.arch ≠ "x86_64" then
    .error <|
      s!"Snapshot arch {debugStr s.arch} is not x86_64; cross-arch restore is planned for " ++
      "Phase 8.4"
  else if hostArch ≠ "x86_64" then
    .error s!"Host arch {debugStr hostArch} is not x86_64; restore requires matching architecture"
  else do
    (AddressSpaceLayout.fromSnapshot s).validate
    if s.registers = none then
      .error "Snapshot has no register state; capture may be corrupted"
    else if s.memoryRegions = [] then .error "Snapshot has no memory regions"
    else .ok ()

theorem validate_iff {s : Proto.ProcessSnapshot} : validate s = .ok () ↔
    s.arch = "x86_64" ∧ ((∀ r ∈ s.memoryRegions, Fits r) ∧ s.memoryRegions.Pairwise Separate) ∧
      s.registers ≠ none ∧ s.memoryRegions ≠ [] := by
  unfold validate
  split
  case isTrue h => exact ⟨fun h' => (nomatch h'), fun h' => absurd h'.1 h⟩
  case isFalse harch =>
    rw [if_neg fun h => h rfl, except_seq_ok, layout_iff]
    refine ⟨fun ⟨hlayout, hrest⟩ => ⟨Decidable.not_not.mp harch, hlayout, ?_⟩, fun h => ⟨h.2.1, ?_⟩⟩
    · split at hrest
      · exact nomatch hrest
      case isFalse hregs =>
        split at hrest
        · exact nomatch hrest
        case isFalse hregions => exact ⟨hregs, hregions⟩
    · rw [if_neg h.2.2.1, if_neg h.2.2.2]

/-- The stub is to stop itself. -/
def expectStop : WaitStatus → Except Error Unit
  | .stopped .sigstop => .ok ()
  | .stopped sig => .error s!"stub child stopped with unexpected signal {sig.debug}"
  | .other status => .error s!"stub child unexpected wait status: {status}"

/-- `fork_stub`. -/
def forkStub : Rest Int32 := do
  let child ← call .fork (mapErr "fork failed")
  let status ← call (.waitpid child) (mapErr "waitpid after fork")
  ofExcept (expectStop status)
  pure child

/-- `write_to_child_mem`. -/
def writeToChildMem (child : Int32) (addr : UInt64) (data : List UInt8) : Rest Unit := do
  let path := s!"/proc/{child}/mem"
  call (.openMem child) fun r =>
    r.mapError fun e => s!"open {path}: {e.text} (process must be ptrace-stopped)"
  call (.seekMem child addr) (mapErr s!"seek to {hex addr} in {path}")
  call (.writeMem child addr data) (mapErr s!"write {data.length} bytes at {hex addr} in {path}")

variable (checksum : List UInt8 → UInt64)

def mapFixed : Int32 := 0x10

def mapPrivate : Int32 := 0x02

def mapAnonymous : Int32 := 0x20

/-- The test before anything is mapped. -/
def checkRegion (region : Proto.MemoryRegion) : Except Error Unit :=
  let computed := checksum region.data
  if computed ≠ region.checksum then
    .error <| s!"Checksum mismatch for region {hex region.startAddr}: " ++
      s!"stored={hex region.checksum} computed={hex computed}"
  else .ok ()

/-- The address `mmap` came back with. -/
def checkMapped (mapped addr : UInt64) : Except Error Unit :=
  if mapped ≠ addr then
    .error <| s!"mmap MAP_FIXED returned {hex mapped} instead of {hex addr}; " ++
      "kernel refused placement"
  else .ok ()

/-- The protection a region ends up with. -/
def finalProt (region : Proto.MemoryRegion) : Int32 := permsToProt region.permissions

/-- The protection it is mapped with. -/
def mmapProt (region : Proto.MemoryRegion) : Int32 := finalProt region ||| protWrite

/-- One round of the loop over the regions. -/
def restoreRegion (child : Int32) (region : Proto.MemoryRegion) : Rest Unit := do
  ofExcept (checkRegion checksum region)
  let mapped ← mmap child region.startAddr region.sizeBytes (mmapProt region)
    (mapFixed ||| mapPrivate ||| mapAnonymous) (-1) 0
  ofExcept (checkMapped mapped region.startAddr)
  writeToChildMem child region.startAddr region.data
  if finalProt region ≠ mmapProt region then
    mprotect child region.startAddr region.sizeBytes (finalProt region)

/-- The loop, with `regions_ok`. -/
def restoreRegions (child : Int32) : List Proto.MemoryRegion → Nat → Rest Nat
  | [], regionsOk => pure regionsOk
  | region :: regions, regionsOk => do
      restoreRegion checksum child region
      restoreRegions child regions (regionsOk + 1)

/-- The FPU state, if it is as long as it has to be. -/
def fpuState (bytes : List UInt8) : Except Error UserFpregs :=
  if h : bytes.length = fpregsSize then .ok ⟨bytes, h⟩
  else .error s!"FPU state is {bytes.length} bytes, expected {fpregsSize}"

/-- `restore_registers`. -/
def restoreRegisters (child : Int32) (registers : Option Proto.Registers) : Rest Unit := do
  let regs ← ofExcept (registers.elim (.error "no register state in snapshot") .ok)
  call (.setregs child regs.toUser) (mapErr "PTRACE_SETREGS")
  if regs.fpuState ≠ [] then
    let fpregs ← ofExcept (fpuState regs.fpuState)
    call (.setfpregs child fpregs) (mapErr "PTRACE_SETFPREGS")

/-- The loop over the restored descriptors; a failed injection is logged. -/
def installAll (child : Int32) : List FdOutcome → Rest Unit
  | [] => pure ()
  | .restored fdNum osFd :: outcomes => do
      tryExcept (dup2 child osFd fdNum.toInt32) fun _ => some (pure ())
      call (.close osFd) fun _ => .ok ()
      installAll child outcomes
  | _ :: outcomes => installAll child outcomes

/-- The memory and the registers of the child. -/
def restoreState (s : Proto.ProcessSnapshot) (child : Int32) : Rest Nat := do
  let regionsOk ← restoreRegions checksum child s.memoryRegions 0
  restoreRegisters child s.registers
  pure regionsOk

/-- Everything before the detach: the regions restored, and the report on the descriptors. -/
def prepare (s : Proto.ProcessSnapshot) (fds : List FdSpec) (child : Int32) :
    Rest (Nat × RestoreReport) := do
  let regionsOk ← restoreState checksum s child
  let fdReport ← restoreAll fds {}
  installAll child fdReport.restored
  pure (regionsOk, fdReport)

/-- `restore_inner`. -/
def restoreInner (s : Proto.ProcessSnapshot) (fds : List FdSpec) (child : Int32) :
    Rest RestoreResult := do
  let prepared ← prepare checksum s fds child
  call (.detach child) (mapErr "ptrace::detach")
  pure { pid := child, regionsOk := prepared.1, fdReport := prepared.2 }

/-- The cleanup handler. -/
def cleanup (child : Int32) (e : Error) : Rest RestoreResult := do
  call (.kill child) fun _ => .ok ()
  call (.waitpid child) fun _ => .ok ()
  raise e

/-- `restore`, of a snapshot with the descriptors `fds`. -/
def restore (s : Proto.ProcessSnapshot) (fds : List FdSpec) : Rest RestoreResult := do
  ofExcept (validate s)
  let child ← forkStub
  tryExcept (restoreInner checksum s fds child) fun e => some (cleanup child e)

/-- `run`, of a snapshot that has been loaded: the exit status of `wraith-restorer`. -/
def runRestorer (strictFds : Bool) (s : Proto.ProcessSnapshot) (fds : List FdSpec) : Rest Nat :=
  tryExcept (do
      let result ← restore checksum s fds
      if result.fdReport.hasFailures && strictFds then
        call (.kill result.pid) fun _ => .ok ()
        pure 2
      else pure 0)
    fun _ => some (pure 1)

/-! ## The calls -/

/-- A call on the stopped child. -/
def RestOp.OnChild : RestOp → Prop
  | .waitpid _ => True
  | .getregs _ => True
  | .setregs _ _ => True
  | .setfpregs _ _ => True
  | .read _ _ => True
  | .write _ _ _ => True
  | .cont _ => True
  | .openMem _ => True
  | .seekMem _ _ => True
  | .writeMem _ _ _ => True
  | _ => False

variable {checksum} {child : Int32}

theorem inject_uses {nr : UInt64} {args : CallArgs} : Uses RestOp.OnChild (inject child nr args) :=
  .bind (.call trivial) fun _ => .bind (.call trivial) fun _ => .bind (.call trivial) fun _ =>
    .bind (.call trivial) fun _ => .bind (.call trivial) fun _ => .bind (.call trivial) fun _ =>
    .bind .ofExcept fun _ => .bind (.call trivial) fun _ => .bind (.call trivial) fun _ =>
    .bind (.call trivial) fun _ => .ofExcept

theorem mprotect_uses {addr len : UInt64} {prot : Int32} :
    Uses RestOp.OnChild (mprotect child addr len prot) := .bind inject_uses fun _ => .pure

theorem dup2_uses {oldFd newFd : Int32} : Uses RestOp.OnChild (dup2 child oldFd newFd) :=
  .bind inject_uses fun _ => .pure

theorem writeToChildMem_uses {addr : UInt64} {data : List UInt8} :
    Uses RestOp.OnChild (writeToChildMem child addr data) :=
  .bind (.call trivial) fun _ => .bind (.call trivial) fun _ => .call trivial

theorem restoreRegion_uses {region : Proto.MemoryRegion} :
    Uses RestOp.OnChild (restoreRegion checksum child region) := by
  refine .bind .ofExcept fun _ => .bind inject_uses fun _ => .bind .ofExcept fun _ =>
    .bind writeToChildMem_uses fun _ => ?_
  split
  · exact mprotect_uses
  · exact .pure

theorem restoreRegions_uses {regions : List Proto.MemoryRegion} {n : Nat} :
    Uses RestOp.OnChild (restoreRegions checksum child regions n) := by
  induction regions generalizing n with
  | nil => exact .pure
  | cons region regions ih => exact .bind restoreRegion_uses fun _ => ih

theorem restoreRegisters_uses {registers : Option Proto.Registers} :
    Uses RestOp.OnChild (restoreRegisters child registers) := by
  refine .bind .ofExcept fun regs => .bind (.call trivial) fun _ => ?_
  split
  · exact .bind .ofExcept fun _ => .call trivial
  · exact .pure

theorem restoreState_uses {s : Proto.ProcessSnapshot} :
    Uses RestOp.OnChild (restoreState checksum s child) :=
  .bind restoreRegions_uses fun _ => .bind restoreRegisters_uses fun _ => .pure

/-- The loop over the descriptors makes calls on the child, and closes files. -/
theorem installAll_uses {p : RestOp → Prop} (hchild : ∀ o, o.OnChild → p o)
    (hclose : ∀ fd, p (.close fd)) {outcomes : List FdOutcome} :
    Uses p (installAll child outcomes) := by
  induction outcomes with
  | nil => exact .pure
  | cons o outcomes ih =>
      cases o with
      | restored n fd =>
          refine .bind (.tryExcept (dup2_uses.mono hchild) fun _ _ hd => ?_) fun _ =>
            .bind (.call (hclose fd)) fun _ => ih
          exact Option.some.inj hd ▸ .pure
      | skipped n reason => exact ih
      | failed n error => exact ih

/-- What a `dup2` in the child and a `close` keep, the loop over the descriptors keeps. -/
theorem installAll_keeps {W : Type} {A : W → (e : RestOp) → RestResp e → W → Prop} {I : W → Prop}
    (hdup : ∀ oldFd newFd, Keeps A I (dup2 child oldFd newFd))
    (hclose : ∀ fd w r w', I w → A w (.close fd) r w' → I w') {outcomes : List FdOutcome} :
    Keeps A I (installAll child outcomes) := by
  induction outcomes with
  | nil => exact .pure
  | cons o outcomes ih =>
      cases o with
      | restored n fd =>
          refine .bind (.tryExcept (hdup _ _) fun _ _ hd => ?_) fun _ =>
            .bind (.call (hclose fd)) fun _ => ih
          exact Option.some.inj hd ▸ .pure
      | skipped n reason => exact ih
      | failed n error => exact ih

/-! ## Runs that return -/

section Returns

variable {s : Proto.ProcessSnapshot} {fds : List FdSpec} {tr : List (Event RestResp)}
  {result : RestoreResult}

theorem expectStop_ok {status : WaitStatus} {u : Unit} (h : expectStop status = .ok u) :
    status = .stopped .sigstop := by
  cases status with
  | other status => exact nomatch h
  | stopped sig => cases sig with
    | sigstop => rfl
    | sigtrap => exact nomatch h
    | other name => exact nomatch h

/-- How `fork_stub` ends: without a child, with a child it does not return, or with one it does. -/
inductive Stubbed : List (Event RestResp) → Except Error Int32 → Prop where
  | none {e : Errno} {x : Error} : Stubbed [⟨.fork, .error e⟩] (.error x)
  | lost {pid : Int32} {st : Except Errno WaitStatus} {x : Error} : st ≠ .ok (.stopped .sigstop) →
      Stubbed [⟨.fork, .ok pid⟩, ⟨.waitpid pid, st⟩] (.error x)
  | stopped {pid : Int32} :
      Stubbed [⟨.fork, .ok pid⟩, ⟨.waitpid pid, .ok (.stopped .sigstop)⟩] (.ok pid)

theorem forkStub_runs {q : Except Error Int32} {u : Unit} (h : Cmd.Runs (forkStub ()) tr (q, u)) :
    Stubbed tr q := by
  obtain ⟨f, tr₁, rfl, hfork⟩ := Cmd.runs_op.mp h
  cases f with
  | error e =>
      obtain ⟨rfl, heq⟩ := Cmd.runs_ret.mp hfork
      obtain rfl := (Prod.mk.inj heq).1
      exact .none
  | ok pid =>
      obtain ⟨st, tr₂, rfl, hwait⟩ := Cmd.runs_op.mp hfork
      cases st with
      | error e =>
          obtain ⟨rfl, heq⟩ := Cmd.runs_ret.mp hwait
          obtain rfl := (Prod.mk.inj heq).1
          exact .lost nofun
      | ok status =>
          have hstop : Cmd.Runs
              ((ofExcept (expectStop status) >>= fun _ => pure pid : Rest Int32) ())
              tr₂ (q, u) := hwait
          cases hexpect : expectStop status with
          | error e =>
              rw [hexpect] at hstop
              obtain ⟨rfl, heq⟩ := Cmd.runs_ret.mp hstop
              obtain rfl := (Prod.mk.inj heq).1
              refine .lost fun h => ?_
              rw [Except.ok.inj h] at hexpect
              exact nomatch hexpect
          | ok _ =>
              rw [hexpect] at hstop
              obtain ⟨rfl, heq⟩ := Cmd.runs_ret.mp hstop
              obtain rfl := (Prod.mk.inj heq).1
              rw [expectStop_ok hexpect]
              exact .stopped

/-- A run of `restore_inner` to its end: the memory and the registers, the files, the descriptors,
and the detach. -/
theorem restoreInner_returns
    (h : Cmd.Runs (restoreInner checksum s fds child ()) tr (.ok result, ())) :
    ∃ tr₁ tr₂ tr₃, tr = tr₁ ++ tr₂ ++ tr₃ ++ [⟨.detach child, .ok ()⟩] ∧ result.pid = child ∧
      Cmd.Runs (restoreState checksum s child ()) tr₁ (.ok result.regionsOk, ()) ∧
      Cmd.Runs (restoreAll fds {} ()) tr₂ (.ok result.fdReport, ()) ∧
      Cmd.Runs (installAll child result.fdReport.restored ()) tr₃ (.ok (), ()) := by
  obtain ⟨trp, prepared, _, trd, hprepare, hdetach, rfl⟩ := runs_bind_returns h
  obtain ⟨r, _, _, rfl, hr, hret⟩ := runs_call_returns hdetach
  obtain rfl := mapErr_eq_ok hr
  obtain ⟨rfl, heq⟩ := runs_pure.mp hret
  obtain rfl := Except.ok.inj (Prod.mk.inj heq).1
  obtain ⟨tr₁, n, _, tr', hstate, hrest, rfl⟩ := runs_bind_returns hprepare
  obtain ⟨tr₂, report, _, tr'', hfiles, hrest', rfl⟩ := runs_bind_returns hrest
  obtain ⟨tr₃, _, _, tr₄, hinstall, hpure, rfl⟩ := runs_bind_returns hrest'
  obtain ⟨rfl, heq'⟩ := runs_pure.mp hpure
  obtain rfl := Except.ok.inj (Prod.mk.inj heq').1
  refine ⟨tr₁, tr₂, tr₃, ?_, rfl, hstate, hfiles, hinstall⟩
  rw [List.append_nil, List.append_assoc tr₁ tr₂]

/-- A restore that returns: the snapshot is valid, the stub has stopped itself, and `restore_inner`
has come to its end. -/
theorem restore_returns (h : Cmd.Runs (restore checksum s fds ()) tr (.ok result, ())) :
    validate s = .ok () ∧ ∃ pid tr',
      tr = ⟨.fork, .ok pid⟩ :: ⟨.waitpid pid, .ok (.stopped .sigstop)⟩ :: tr' ∧
      Cmd.Runs (restoreInner checksum s fds pid ()) tr' (.ok result, ()) := by
  obtain ⟨tr₁, _, _, tr₂, hcheck, hrest, rfl⟩ := runs_bind_returns h
  obtain ⟨rfl, hvalid⟩ := runs_ofExcept hcheck
  obtain ⟨tr₃, pid, _, tr₄, hfork, htry, rfl⟩ := runs_bind_returns hrest
  refine ⟨hvalid, pid, ?_⟩
  cases forkStub_runs hfork with
  | stopped =>
      obtain ⟨tr₅, ⟨r, _⟩, tr₆, hinner, hhandle, rfl⟩ := runs_tryExcept.mp htry
      cases r with
      | error e =>
          -- The handler ends by raising again.
          obtain ⟨_, tr₇, rfl, hwait⟩ := Cmd.runs_op.mp hhandle
          obtain ⟨_, tr₈, rfl, hret⟩ := Cmd.runs_op.mp hwait
          exact nomatch (Prod.mk.inj (Cmd.runs_ret.mp hret).2).1
      | ok result' =>
          obtain ⟨rfl, heq⟩ := Cmd.runs_ret.mp hhandle
          obtain rfl := Except.ok.inj (Prod.mk.inj heq).1
          rw [List.append_nil]
          exact ⟨tr₅, rfl, hinner⟩

/-- A run of the program: a restore that raises, and status 1, or one with a report, of which the
status is made. -/
theorem runRestorer_cases {strict : Bool} {r : Except Error Nat}
    (h : Cmd.Runs (runRestorer checksum strict s fds ()) tr (r, ())) :
    (∃ e, Cmd.Runs (restore checksum s fds ()) tr (.error e, ()) ∧ r = .ok 1) ∨
    ∃ tr₁ tr₂ result, tr = tr₁ ++ tr₂ ∧ Cmd.Runs (restore checksum s fds ()) tr₁ (.ok result, ()) ∧
      ((result.fdReport.hasFailures && strict) = true ∧ r = .ok 2 ∨
        (result.fdReport.hasFailures && strict) = false ∧ r = .ok 0 ∧ tr₂ = []) := by
  obtain ⟨tr₁, ⟨q, _⟩, tr₂, hbody, hhandle, rfl⟩ := runs_tryExcept.mp h
  obtain ⟨e, rfl, hraised⟩ | ⟨tr₃, result, _, tr₄, hrestore, hrest, rfl⟩ := runs_bind_cases hbody
  · obtain ⟨rfl, heq⟩ := runs_pure.mp hhandle
    rw [List.append_nil]
    exact Or.inl ⟨e, hraised, (Prod.mk.inj heq).1⟩
  · refine Or.inr ⟨tr₃, tr₄ ++ tr₂, result, List.append_assoc _ _ _, hrestore, ?_⟩
    split at hrest
    case isTrue hfail =>
      obtain ⟨_, _, rfl, hkilled⟩ := Cmd.runs_op.mp hrest
      obtain ⟨rfl, heq⟩ := Cmd.runs_ret.mp hkilled
      obtain ⟨rfl, rfl⟩ := Prod.mk.inj heq
      exact Or.inl ⟨hfail, (Prod.mk.inj (Cmd.runs_ret.mp hhandle).2).1⟩
    case isFalse hfail =>
      obtain ⟨rfl, heq⟩ := runs_pure.mp hrest
      obtain ⟨rfl, rfl⟩ := Prod.mk.inj heq
      obtain ⟨rfl, heq'⟩ := Cmd.runs_ret.mp hhandle
      exact Or.inr ⟨Bool.eq_false_iff.mpr hfail, (Prod.mk.inj heq').1, rfl⟩

/-- Status 0 is for a restore that has returned, and for a strict one only without failed
descriptors. -/
theorem runRestorer_zero {strict : Bool}
    (h : Cmd.Runs (runRestorer checksum strict s fds ()) tr (.ok 0, ())) :
    ∃ result, Cmd.Runs (restore checksum s fds ()) tr (.ok result, ()) ∧
      (result.fdReport.hasFailures && strict) = false := by
  obtain ⟨e, -, heq⟩ | ⟨tr₁, tr₂, result, rfl, hrestore, ⟨-, heq⟩ | ⟨hnone, -, rfl⟩⟩ :=
    runRestorer_cases h
  · exact nomatch heq
  · exact nomatch heq
  · rw [List.append_nil]
    exact ⟨result, hrestore, hnone⟩

end Returns

end Wraith.Restore

/-
# `Wraith.Restore.Accounts` — what becomes of every descriptor

The restorer reopens the captured files in its own table, hands each over by `dup2`, and closes it.
On its way it can fail: a file cannot be positioned, an injection comes back with an error, the
child cannot be let go.  However a run ends, every file that was opened has been closed, once, and
nothing else is closed or positioned than a file that is open (`files`).

The report has one entry for every captured descriptor (`Accounts`): which descriptors are skipped
depends on the snapshot alone, and the others are restored or failed.
-/
import Wraith.Lib.Custody
import Wraith.Restore.Truthful

namespace Wraith.Restore

open Lib Script Process

/-! ## The restorer's own files -/

/-- The descriptor that is opened. -/
def opened : Event RestResp → Option Int32
  | ⟨.openFile _ _, .ok fd⟩ => some fd
  | ⟨.openDirectory _ _, .ok fd⟩ => some fd
  | _ => none

def RestOp.seeks : RestOp → Option Int32
  | .seek fd _ => some fd
  | _ => none

def RestOp.closes : RestOp → Option Int32
  | .close fd => some fd
  | _ => none

def files : Custody RestResp Int32 where
  acquires := opened
  uses := RestOp.seeks
  releases := RestOp.closes

instance instNonemptyRestResp (o : RestOp) : Nonempty (RestResp o) := by
  cases o <;> exact ⟨.error (.other "")⟩

theorem RestOp.OnChild.idle {o : RestOp} (h : o.OnChild) : files.Idle o := by
  cases o with
  | openFile path opts => exact h.elim
  | seek fd offset => exact h.elim
  | openDirectory path flags => exact h.elim
  | close fd => exact h.elim
  | _ => exact ⟨rfl, rfl, fun _ => rfl⟩

section Files

variable {checksum : List UInt8 → UInt64} {child : Int32} {s : Proto.ProcessSnapshot}
  {spec : FdSpec} {specs fds : List FdSpec} {g g₀ : Multiset Int32}

/-- A call without a file. -/
theorem wp_aside {α : Type} {c : Rest α} {p : RestOp → Prop} (hc : Uses p c)
    (hp : ∀ o, p o → files.Idle o) :
    Wp files.monitor c (fun _ _ g' => g' = g) () g := Custody.wp_of_uses hc hp

theorem allow_held {o : RestOp} {fd : Int32} (h : ∀ fd', files.Needs o fd' → fd' = fd) :
    files.monitor.allow (fd ::ₘ g) o := fun fd' hneeds => h fd' hneeds ▸ Multiset.mem_cons_self fd g

theorem wp_close_bind {α : Type} {fd : Int32} {f : Unit → Rest α}
    {Q : Except Error α → Unit → Multiset Int32 → Prop} (h : Wp files.monitor (f ()) Q () g) :
    Wp files.monitor ((call (.close fd) fun _ => .ok ()) >>= f) Q () (fd ::ₘ g) := by
  refine wp_bind.mpr (wp_call.mpr ⟨allow_held fun fd' hneeds => ?_, fun r => ?_⟩)
  · obtain hseek | hclose := hneeds
    · cases hseek
    · exact (Option.some.inj hclose).symm
  · rw [Custody.next_releases (h := fd) rfl rfl]
    exact h

/-- One more is held, unless it could not be had. -/
inductive Took (g : Multiset Int32) : Except Error Int32 → Multiset Int32 → Prop where
  | ok {fd : Int32} : Took g (.ok fd) (fd ::ₘ g)
  | error {e : Error} : Took g (.error e) g

/-- A file that cannot be positioned is closed. -/
theorem openRegular_files :
    Wp files.monitor (openRegular spec) (fun r _ g' => Took g r g') () g := by
  refine Wp.bind (P := fun r _ g' => Took g r g') (wp_call.mpr ⟨Custody.allow_of_none rfl rfl, ?_⟩)
    (fun fd u g' hg => ?_) fun e u g' hg => ?_
  · rintro (e | fd)
    · rw [Custody.next_of_none rfl rfl]
      exact .error
    · rw [Custody.next_acquires (h := fd) rfl rfl]
      exact .ok
  · cases hg
    refine Wp.bind (P := fun r _ g' => Took g (r.map fun _ => fd) g') ?_ (fun _ _ _ hg => hg)
      fun e _ g' hg => ?_
    · refine wp_tryExcept.mpr (wp_call.mpr ⟨allow_held fun fd' hneeds => ?_, fun r => ?_⟩)
      · obtain hseek | hclose := hneeds
        · exact (Option.some.inj hseek).symm
        · cases hclose
      · rw [Custody.next_of_none rfl rfl]
        cases r with
        | ok _ => exact .ok
        | error e =>
            refine (handles_some rfl).mpr ?_
            exact wp_close_bind (wp_raise.mpr .error)
    · cases hg
      exact .error
  · cases hg
    exact .error

theorem openDirectory_files :
    Wp files.monitor (openDirectory spec) (fun r _ g' => Took g r g') () g := by
  rw [openDirectory]
  cases cString spec.path with
  | error e => exact .error
  | ok path =>
      refine wp_pure_bind.mpr (wp_call.mpr ⟨Custody.allow_of_none rfl rfl, ?_⟩)
      rintro (e | fd)
      · rw [Custody.next_of_none rfl rfl]
        exact .error
      · rw [Custody.next_acquires (h := fd) rfl rfl]
        exact .ok

/-- The file an outcome has in hand. -/
def FdOutcome.held : FdOutcome → Multiset Int32
  | .restored _ fd => {fd}
  | _ => 0

def heldBy : List FdOutcome → Multiset Int32
  | [] => 0
  | o :: os => o.held + heldBy os

theorem heldBy_append (os os' : List FdOutcome) : heldBy (os ++ os') = heldBy os + heldBy os' := by
  induction os with
  | nil => exact (zero_add _).symm
  | cons o os ih => rw [List.cons_append, heldBy, heldBy, ih, add_assoc]

theorem heldBy_add (report : RestoreReport) (o : FdOutcome) :
    heldBy (report.add o).restored = o.held + heldBy report.restored := by
  cases o with
  | restored n fd =>
      rw [RestoreReport.add, heldBy_append, add_comm]
      exact congrArg (· + heldBy report.restored) (add_zero _)
  | skipped n reason => exact (zero_add _).symm
  | failed n e => exact (zero_add _).symm

theorem outcome_files {n : UInt32} {c : Rest Int32}
    (hc : Wp files.monitor c (fun r _ g' => Took g r g') () g) :
    Wp files.monitor (outcome n c) (fun r _ g' => ∃ o, r = .ok o ∧ g' = o.held + g) () g := by
  refine wp_tryExcept.mpr (Wp.bind hc (fun fd u g' hg => ?_) fun e u g' hg => ?_)
  · cases hg
    exact ⟨.restored n fd, rfl, (Multiset.singleton_add fd g).symm⟩
  · cases hg
    exact (handles_some rfl).mpr (wp_pure.mpr ⟨.failed n e, rfl, (zero_add g).symm⟩)

/-- A descriptor is skipped without a call, or reopened. -/
theorem restoreOne_cases (spec : FdSpec) :
    spec.reopening = .none ∧ (∃ reason, restoreOne spec = pure (.skipped spec.fdNum reason)) ∨
    spec.reopening ≠ .none ∧ (restoreOne spec = outcome spec.fdNum (openRegular spec) ∨
      restoreOne spec = outcome spec.fdNum (openDirectory spec)) := by
  unfold restoreOne restoreRegular restoreDirectory FdSpec.reopening
  by_cases hpath : spec.path = ""
  · simp only [if_pos hpath]
    cases FdType.ofInt spec.fdType <;> exact Or.inl ⟨trivial, _, rfl⟩
  · simp only [if_neg hpath]
    cases FdType.ofInt spec.fdType with
    | regular => exact Or.inr ⟨by decide, Or.inl rfl⟩
    | directory => exact Or.inr ⟨by decide, Or.inr rfl⟩
    | _ => exact Or.inl ⟨rfl, _, rfl⟩

theorem restoreOne_files :
    Wp files.monitor (restoreOne spec) (fun r _ g' => ∃ o, r = .ok o ∧ g' = o.held + g) () g := by
  obtain ⟨-, reason, hskip⟩ | ⟨-, hopen | hopen⟩ := restoreOne_cases spec
  · rw [hskip]
    exact ⟨_, rfl, (zero_add g).symm⟩
  · rw [hopen]
    exact outcome_files openRegular_files
  · rw [hopen]
    exact outcome_files openDirectory_files

/-- What is open behind the loop is what the report has as restored. -/
theorem restoreAll_files (report : RestoreReport) (g₀ : Multiset Int32) :
    Wp files.monitor (restoreAll specs report)
    (fun r _ g' => ∃ report', r = .ok report' ∧ g' = heldBy report'.restored + g₀) ()
    (heldBy report.restored + g₀) := by
  induction specs generalizing report with
  | nil => exact ⟨report, rfl, rfl⟩
  | cons spec specs ih =>
      refine Wp.bind restoreOne_files (fun o u g' hg => ?_) fun e u g' hg => ?_
      · obtain ⟨o', ho, rfl⟩ := hg
        obtain rfl := Except.ok.inj ho
        rw [← add_assoc, ← heldBy_add]
        exact ih _
      · obtain ⟨o', ho, -⟩ := hg
        cases ho

/-- The loop over `restored` closes them, one after the other. -/
theorem installAll_files {os : List FdOutcome} : Wp files.monitor (installAll child os)
    (fun r _ g' => r = .ok () ∧ g' = g₀) () (heldBy os + g₀) := by
  induction os with
  | nil => exact ⟨rfl, zero_add g₀⟩
  | cons o os ih =>
      rw [heldBy]
      cases o with
      | restored n fd =>
          refine Wp.bind (P := fun r _ g' => r = .ok () ∧ g' = fd ::ₘ (heldBy os + g₀)) ?_
            (fun _ u g' hg => ?_)
            fun e u g' hg => ?_
          · rw [FdOutcome.held, add_assoc, Multiset.singleton_add]
            refine wp_tryExcept.mpr
              (wp_mono (fun r u g' hg => ?_) (wp_aside dup2_uses fun _ => RestOp.OnChild.idle))
            cases r with
            | ok _ => exact ⟨rfl, hg⟩
            | error e => exact (handles_some rfl).mpr (wp_pure.mpr ⟨rfl, hg⟩)
          · rw [hg.2]
            exact wp_close_bind ih
          · cases hg.1
      | skipped n reason =>
          rw [show FdOutcome.held (.skipped n reason) = 0 from rfl, zero_add]
          exact ih
      | failed n e =>
          rw [show FdOutcome.held (.failed n e) = 0 from rfl, zero_add]
          exact ih

/-- So nothing is open at the end, however it ends. -/
theorem prepare_files :
    Wp files.monitor (prepare checksum s fds child) (fun _ _ g' => g' = 0) () 0 := by
  refine Wp.bind (wp_aside restoreState_uses fun _ => RestOp.OnChild.idle) (fun n u g' hg => ?_)
    fun _ _ _ hg => hg
  rw [hg]
  refine Wp.bind (restoreAll_files {} 0) (fun report u g' hg => ?_) fun e u g' hg => ?_
  · obtain ⟨report', hreport, rfl⟩ := hg
    obtain rfl := Except.ok.inj hreport
    exact Wp.bind installAll_files (fun _ _ _ hg => wp_pure.mpr hg.2) fun _ _ _ hg => hg.2
  · obtain ⟨report', hreport, -⟩ := hg
    cases hreport

theorem idle_call {α : Type} {o : RestOp} {view : RestResp o → Except Error α} (ho : files.Idle o) :
    Wp files.monitor (call o view : Rest α) (fun _ _ g' => g' = g) () g :=
  wp_aside (p := fun o' => o' = o) (.call rfl) fun _ h => h ▸ ho

theorem restoreInner_files :
    Wp files.monitor (restoreInner checksum s fds child) (fun _ _ g' => g' = 0) () 0 := by
  refine Wp.bind prepare_files (fun _ _ g' hg => ?_) fun _ _ _ hg => hg
  rw [hg]
  exact Wp.bind (idle_call ⟨rfl, rfl, fun _ => rfl⟩) (fun _ _ _ hg => wp_pure.mpr hg)
    fun _ _ _ hg => hg

theorem restore_files : Wp files.monitor (restore checksum s fds) (fun _ _ g' => g' = 0) () 0 := by
  refine Wp.bind (wp_aside (p := RestOp.OnChild) .ofExcept fun _ => RestOp.OnChild.idle)
    (fun _ _ g' hg => ?_)
    fun _ _ _ hg => hg
  rw [hg]
  have hfork : Wp files.monitor forkStub (fun _ _ g' => g' = 0) () 0 := by
    refine Wp.bind (idle_call ⟨rfl, rfl, fun _ => rfl⟩) (fun child u g' hg => ?_) fun _ _ _ hg => hg
    rw [hg]
    exact wp_aside (p := RestOp.OnChild)
      (.bind (.call trivial) fun _ => .bind .ofExcept fun _ => .pure)
      fun _ => RestOp.OnChild.idle
  refine Wp.bind hfork (fun child u g' hg => ?_) fun _ _ _ hg => hg
  rw [hg]
  refine wp_tryExcept.mpr (wp_mono (fun r u g' hg => ?_) restoreInner_files)
  cases r with
  | ok _ => exact hg
  | error e =>
      refine (handles_some rfl).mpr ?_
      rw [hg, cleanup]
      refine Wp.bind (idle_call ⟨rfl, rfl, fun _ => rfl⟩) (fun _ _ g' hg => ?_) fun _ _ _ hg => hg
      rw [hg]
      exact wp_aside (p := RestOp.OnChild) (.bind (.call trivial) fun _ => .raise)
        fun _ => RestOp.OnChild.idle

theorem runRestorer_files {strict : Bool} :
    Wp files.monitor (runRestorer checksum strict s fds) (fun _ _ g' => g' = 0) () 0 := by
  have hbody : Wp files.monitor (do
      let result ← restore checksum s fds
      if result.fdReport.hasFailures && strict then
        call (.kill result.pid) fun _ => .ok ()
        pure 2
      else pure 0 : Rest Nat) (fun _ _ g' => g' = 0) () 0 := by
    refine Wp.bind restore_files (fun result u g' hg => ?_) fun _ _ _ hg => hg
    rw [hg]
    split
    · exact Wp.bind (idle_call ⟨rfl, rfl, fun _ => rfl⟩) (fun _ _ _ hg => wp_pure.mpr hg)
        fun _ _ _ hg => hg
    · exact rfl
  refine wp_tryExcept.mpr (wp_mono (fun r u g' hg => ?_) hbody)
  cases r with
  | ok _ => exact hg
  | error e => exact (handles_some rfl).mpr (wp_pure.mpr hg)

end Files

/-! ## The report -/

/-- `fd_num`. -/
def FdOutcome.fdNum : FdOutcome → UInt32
  | .restored n _ => n
  | .skipped n _ => n
  | .failed n _ => n

/-- What becomes of a captured descriptor: one that is not reopened is skipped. -/
inductive Accounted (spec : FdSpec) : FdOutcome → Prop where
  | restored {fd : Int32} : spec.reopening ≠ .none → Accounted spec (.restored spec.fdNum fd)
  | failed {e : Error} : spec.reopening ≠ .none → Accounted spec (.failed spec.fdNum e)
  | skipped {reason : String} : spec.reopening = .none → Accounted spec (.skipped spec.fdNum reason)

def FdSpec.skips (spec : FdSpec) : Bool := spec.reopening = .none

/-- The report has an entry for each descriptor. -/
structure Accounts (fds : List FdSpec) (report : RestoreReport) : Prop where
  skipped : report.skipped.map FdOutcome.fdNum = (fds.filter FdSpec.skips).map FdSpec.fdNum
  reopened : ((report.restored ++ report.failed).map FdOutcome.fdNum).Perm
    ((fds.filter fun spec => !spec.skips).map FdSpec.fdNum)

section Report

variable {checksum : List UInt8 → UInt64} {child : Int32} {s : Proto.ProcessSnapshot}
  {spec : FdSpec} {specs fds : List FdSpec} {tr : List (Event RestResp)}

theorem restoreOne_accounted {o : FdOutcome} (h : Cmd.Runs (restoreOne spec ()) tr (.ok o, ())) :
    Accounted spec o := by
  have hopened {c : Rest Int32} (hre : spec.reopening ≠ .none)
      (hrun : Cmd.Runs (outcome spec.fdNum c ()) tr (.ok o, ())) : Accounted spec o := by
    obtain ⟨fd, rfl, -⟩ | ⟨e, rfl, -⟩ := outcome_runs hrun
    · exact .restored hre
    · exact .failed hre
  obtain ⟨hre, reason, hskip⟩ | ⟨hre, hopen | hopen⟩ := restoreOne_cases spec
  · rw [hskip] at h
    obtain rfl := Except.ok.inj (Prod.mk.inj (runs_pure.mp h).2).1
    exact .skipped hre
  · rw [hopen] at h
    exact hopened hre h
  · rw [hopen] at h
    exact hopened hre h

/-- The loop has an outcome for each, and puts it into the report. -/
theorem restoreAll_outcomes {report report' : RestoreReport}
    (h : Cmd.Runs (restoreAll specs report ()) tr (.ok report', ())) :
    ∃ os, List.Forall₂ Accounted specs os ∧ report' = os.foldl RestoreReport.add report := by
  induction specs generalizing report tr with
  | nil =>
      obtain rfl := Except.ok.inj (Prod.mk.inj (runs_pure.mp h).2).1
      exact ⟨[], .nil, rfl⟩
  | cons spec specs ih =>
      obtain ⟨tr₁, o, u, tr₂, hone, hrest, rfl⟩ := runs_bind_returns h
      obtain ⟨os, hall, rfl⟩ := ih hrest
      exact ⟨o :: os, .cons (restoreOne_accounted hone) hall, rfl⟩

/-- What one more entry adds to the report. -/
theorem Accounted.add {report : RestoreReport} {o : FdOutcome} (ho : Accounted spec o)
    (h : Accounts specs report) : Accounts (specs ++ [spec]) (report.add o) := by
  have hsnoc (p : FdSpec → Bool) : ((specs ++ [spec]).filter p).map FdSpec.fdNum =
      (specs.filter p).map FdSpec.fdNum ++ if p spec then [spec.fdNum] else [] := by
    rw [List.filter_append, List.map_append, List.filter_singleton]
    cases p spec <;> rfl
  obtain ⟨hskipped, hreopened⟩ := h
  cases ho with
  | skipped hre =>
      have hskips : spec.skips = true := decide_eq_true hre
      refine ⟨?_, ?_⟩
      · rw [RestoreReport.add, List.map_append, hskipped, hsnoc, if_pos hskips]
        rfl
      · rw [RestoreReport.add, hsnoc, hskips]
        simpa using hreopened
  | restored hre =>
      have hskips : spec.skips = false := decide_eq_false hre
      refine ⟨?_, ?_⟩
      · rw [RestoreReport.add, hskipped, hsnoc, hskips]
        exact (List.append_nil _).symm
      · rw [RestoreReport.add, hsnoc, hskips]
        have hmoved (o : FdOutcome) : (report.restored ++ [o] ++ report.failed).Perm
            (report.restored ++ report.failed ++ [o]) := by
          rw [List.append_assoc, List.append_assoc]
          exact List.perm_append_comm.append_left _
        refine ((hmoved _).map _).trans ?_
        rw [List.map_append]
        exact hreopened.append_right _
  | failed hre =>
      have hskips : spec.skips = false := decide_eq_false hre
      refine ⟨?_, ?_⟩
      · rw [RestoreReport.add, hskipped, hsnoc, hskips]
        exact (List.append_nil _).symm
      · rw [RestoreReport.add, hsnoc, hskips, ← List.append_assoc, List.map_append]
        exact hreopened.append_right _

theorem accounts_foldl {specs' : List FdSpec} {os : List FdOutcome}
    (hall : List.Forall₂ Accounted specs' os) :
    ∀ (specs : List FdSpec) {report : RestoreReport}, Accounts specs report →
      Accounts (specs ++ specs') (os.foldl RestoreReport.add report) := by
  induction hall with
  | nil =>
      intro specs report h
      rwa [List.append_nil]
  | cons ho _ ih =>
      intro specs report h
      rw [List.append_cons]
      exact ih _ (ho.add h)

theorem restoreAll_accounts {report : RestoreReport}
    (h : Cmd.Runs (restoreAll fds {} ()) tr (.ok report, ())) : Accounts fds report := by
  obtain ⟨os, hall, rfl⟩ := restoreAll_outcomes h
  exact accounts_foldl hall [] ⟨rfl, .refl _⟩

/-- The report of a restore is the one of the loop. -/
theorem restore_reports {result : RestoreResult}
    (h : Cmd.Runs (restore checksum s fds ()) tr (.ok result, ())) :
    ∃ tr', Cmd.Runs (restoreAll fds {} ()) tr' (.ok result.fdReport, ()) := by
  obtain ⟨-, _, _, -, hinner⟩ := restore_returns h
  obtain ⟨_, tr', _, -, -, -, hall, -⟩ := restoreInner_returns hinner
  exact ⟨tr', hall⟩

/-- In every run of `wraith-restorer` the files it opens are closed, each once, and no other.  If
the restore raises, there is no report, and the status is 1; otherwise the report accounts for every
captured descriptor, and the status is 2 with `--strict-fds` and a failed one, and else 0. -/
theorem runRestorer_accounts {strict : Bool} {r : Except Error Nat}
    (h : Cmd.Runs (runRestorer checksum strict s fds ()) tr (r, ())) : files.Tidy tr ∧
    ((∃ e, Cmd.Runs (restore checksum s fds ()) tr (.error e, ()) ∧ r = .ok 1) ∨
      ∃ tr₁ tr₂ result, tr = tr₁ ++ tr₂ ∧
        Cmd.Runs (restore checksum s fds ()) tr₁ (.ok result, ()) ∧
        Accounts fds result.fdReport ∧
        r = .ok (if result.fdReport.hasFailures && strict then 2 else 0)) := by
  refine ⟨Custody.tidy_of_obeys runRestorer_files h, ?_⟩
  obtain hraised | ⟨tr₁, tr₂, result, htr, hrestore, hstatus⟩ := runRestorer_cases h
  · exact Or.inl hraised
  · obtain ⟨tr', hall⟩ := restore_reports hrestore
    refine Or.inr ⟨tr₁, tr₂, result, htr, hrestore, restoreAll_accounts hall, ?_⟩
    obtain ⟨hfail, rfl⟩ | ⟨hnone, rfl, -⟩ := hstatus
    · rw [if_pos hfail]
    · rw [if_neg (Bool.eq_false_iff.mp hnone)]

end Report

/-! ## A run with a file of each kind -/

/-- The stub stops itself once, and then at every trap; the log file is there, and no other. -/
def oneFile : Bool → (o : RestOp) → RestResp o × Bool
  | b, .fork => (.ok 42, b)
  | false, .waitpid _ => (.ok (.stopped .sigstop), true)
  | true, .waitpid _ => (.ok (.stopped .sigtrap), true)
  | b, .getregs _ => (.ok { regsAt 0x400100 with rax := 0x10000 }, b)
  | b, .setregs _ _ => (.ok (), b)
  | b, .setfpregs _ _ => (.ok (), b)
  | b, .read _ _ => (.ok 0, b)
  | b, .write _ _ _ => (.ok (), b)
  | b, .cont _ => (.ok (), b)
  | b, .openMem _ => (.ok (), b)
  | b, .seekMem _ _ => (.ok (), b)
  | b, .writeMem _ _ _ => (.ok (), b)
  | b, .openFile path _ => (if path = logFd.path then .ok 5 else .error (.other "ENOENT"), b)
  | b, .seek _ _ => (.ok (), b)
  | b, .openDirectory _ _ => (.error (.other "ENOENT"), b)
  | b, .close _ => (.ok (), b)
  | b, .detach _ => (.ok (), b)
  | b, .kill _ => (.ok (), b)

/-- A file that is gone, and a pipe. -/
def lostFd : FdSpec := { logFd with fdNum := 4, path := "/tmp/lost" }

def pipeFd : FdSpec := { logFd with fdNum := 7, fdType := 1, path := "pipe:[77]" }

/-- The log file is handed over and closed, and the strict run ends with status 2. -/
theorem runRestorer_accounts_strict :
    let run := Cmd.exec oneFile
      (runRestorer (fun _ => 0) true pageSnapshot [logFd, lostFd, pipeFd] ()) false
    run.2.1 = .ok 2 ∧ files.released run.1 = [5] ∧ files.Tidy run.1 :=
  ⟨by decide +kernel, by decide +kernel, (runRestorer_accounts (Cmd.exec_runs _ _ _)).1⟩

end Wraith.Restore

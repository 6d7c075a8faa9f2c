/-
# `Wraith.Restore.Truthful` — the report on the descriptors, and the descriptors

Files are opened by the restorer, after it has forked; `dup2` is injected into the child, whose
table is the one the restorer had at the fork.  A descriptor that is opened is none the restorer had
then, so the child has none of that number, and every `dup2` fails with EBADF: the child is let go
with the table of the fork (`restore_fds`).  The failures are logged, and neither the report nor
`--strict-fds` knows of them.

So the report is true exactly where the restorer already had the file, under the number of the
captured descriptor, at its fork: `restore_truthful_iff`.
-/
import Wraith.Restore.Handover

namespace Wraith.Restore

open Lib Script Process

/-! ## What the report should mean -/

/-- The access mode among the flags of a descriptor; 3 is none. -/
def capturedAccess (openFlags : Int32) : Option Access :=
  if openFlags &&& oAccmode = oRdonly then some .readOnly
  else if openFlags &&& oAccmode = oWronly then some .writeOnly
  else if openFlags &&& oAccmode = oRdwr then some .readWrite
  else none

/-- The open description is the captured one: the path and the offset, and for a regular file the
access mode and `O_APPEND`. -/
structure OpenFile.Matches (file : OpenFile) (spec : FdSpec) : Prop where
  path : file.path = spec.path
  offset : file.offset = spec.fileOffset
  access : FdType.ofInt spec.fdType = .regular →
    ∀ a, capturedAccess spec.openFlags = some a → file.access = a
  append : FdType.ofInt spec.fdType = .regular →
    file.append = decide (spec.openFlags &&& oAppend ≠ 0)

/-- The descriptor is in the table. -/
def InPlace (t : Fds) (spec : FdSpec) : Prop :=
  ∃ file, t spec.fdNum.toInt32 = some file ∧ file.Matches spec

/-- How a descriptor is reopened. -/
inductive Reopening where
  | file
  | directory
  | none
  deriving DecidableEq, Repr

/-- A regular file or a directory with a path. -/
def FdSpec.reopening (spec : FdSpec) : Reopening :=
  if spec.path = "" then .none
  else match FdType.ofInt spec.fdType with
    | .regular => .file
    | .directory => .directory
    | _ => .none

/-- The outcome of an `open` or a `seek`. -/
def opening : Event RestResp → Option Bool
  | ⟨.openFile _ _, .ok _⟩ => some true
  | ⟨.openFile _ _, .error _⟩ => some false
  | ⟨.seek _ _, .ok _⟩ => some true
  | ⟨.seek _ _, .error _⟩ => some false
  | ⟨.openDirectory _ _, .ok _⟩ => some true
  | ⟨.openDirectory _ _, .error _⟩ => some false
  | _ => none

/-- The outcomes of a run. -/
def openings (tr : List (Event RestResp)) : List Bool := tr.filterMap opening

/-- The descriptors that are opened, and for a file positioned, given the outcomes in their order.
A path with a NUL is never handed to `open(2)`. -/
def reopened : List FdSpec → List Bool → List FdSpec
  | [], _ => []
  | spec :: specs, outcomes => match spec.reopening, outcomes with
    | .file, true :: true :: outcomes => spec :: reopened specs outcomes
    | .file, true :: false :: outcomes => reopened specs outcomes
    | .file, false :: outcomes => reopened specs outcomes
    | .directory, outcomes => match cString spec.path, outcomes with
      | .ok _, true :: outcomes => spec :: reopened specs outcomes
      | .ok _, false :: outcomes => reopened specs outcomes
      | _, outcomes => reopened specs outcomes
    | _, outcomes => reopened specs outcomes

/-- An entry of `restored`, and the captured descriptor it stands for. -/
def Reports (o : FdOutcome) (spec : FdSpec) : Prop := ∃ osFd, o = .restored spec.fdNum osFd

/-- A run is true to the child it lets go: the descriptors it reopens, which are those it lists as
restored, are in place, and if it is a strict run that ends with status 0, so is every file and
directory with a path. -/
def Truthful (checksum : List UInt8 → UInt64) (s : Proto.ProcessSnapshot) (fds : List FdSpec)
    (tr : List (Event RestResp)) (w : World) : Prop :=
  ∃ c, w.released = some c ∧ (∀ spec ∈ reopened fds (openings tr), InPlace c.fds spec) ∧
    (Cmd.Runs (runRestorer checksum true s fds ()) tr (.ok 0, ()) →
      ∀ spec ∈ fds, spec.reopening ≠ .none → InPlace c.fds spec)

variable {checksum : List UInt8 → UInt64} {child : Int32} {t : Fds} {spec : FdSpec}
  {specs : List FdSpec} {tr : List (Event RestResp)}

/-! ## The report -/

theorem openings_append (tr tr' : List (Event RestResp)) :
    openings (tr ++ tr') = openings tr ++ openings tr' := List.filterMap_append

/-- How `restore_one` ends, and what it has taken of the outcomes. -/
inductive Restores (spec : FdSpec) : List Bool → FdOutcome → Prop where
  | restored {fd : Int32} {bs : List Bool} :
      (∀ specs rest, reopened (spec :: specs) (bs ++ rest) = spec :: reopened specs rest) →
      Restores spec bs (.restored spec.fdNum fd)
  | failed {e : Error} {bs : List Bool} :
      (∀ specs rest, reopened (spec :: specs) (bs ++ rest) = reopened specs rest) →
      Restores spec bs (.failed spec.fdNum e)
  | skipped {reason : String} : spec.reopening = .none →
      Restores spec [] (.skipped spec.fdNum reason)

theorem openRegular_openings {q : Except Error Int32}
    (h : Cmd.Runs (openRegular spec ()) tr (q, ())) :
    (∃ fd, q = .ok fd ∧ openings tr = [true, true]) ∨
      ∃ e, q = .error e ∧ (openings tr = [false] ∨ openings tr = [true, false]) := by
  obtain ⟨r, tr₁, rfl, hopen⟩ := Cmd.runs_op.mp h
  cases r with
  | error e =>
      obtain ⟨rfl, heq⟩ := Cmd.runs_ret.mp hopen
      exact Or.inr ⟨_, (Prod.mk.inj heq).1, Or.inl rfl⟩
  | ok fd =>
      obtain ⟨r, tr₂, rfl, hseek⟩ := Cmd.runs_op.mp hopen
      cases r with
      | error e =>
          obtain ⟨k, tr₃, rfl, hclose⟩ := Cmd.runs_op.mp hseek
          obtain ⟨rfl, heq⟩ := Cmd.runs_ret.mp hclose
          exact Or.inr ⟨_, (Prod.mk.inj heq).1, Or.inr rfl⟩
      | ok _ =>
          obtain ⟨rfl, heq⟩ := Cmd.runs_ret.mp hseek
          exact Or.inl ⟨fd, (Prod.mk.inj heq).1, rfl⟩

theorem openDirectory_openings {q : Except Error Int32}
    (h : Cmd.Runs (openDirectory spec ()) tr (q, ())) :
    (∃ x e, cString spec.path = .error x ∧ q = .error e ∧ openings tr = []) ∨
      ∃ path, cString spec.path = .ok path ∧
        ((∃ fd, q = .ok fd ∧ openings tr = [true]) ∨ ∃ e, q = .error e ∧
          openings tr = [false]) := by
  rw [openDirectory] at h
  cases hpath : cString spec.path with
  | error x =>
      rw [hpath] at h
      obtain ⟨rfl, heq⟩ := Cmd.runs_ret.mp h
      exact Or.inl ⟨x, x, rfl, (Prod.mk.inj heq).1, rfl⟩
  | ok path =>
      rw [hpath] at h
      obtain ⟨r, tr₁, rfl, hret⟩ := Cmd.runs_op.mp (runs_pure_bind.mp h)
      obtain ⟨rfl, heq⟩ := Cmd.runs_ret.mp hret
      refine Or.inr ⟨path, rfl, ?_⟩
      cases r with
      | error e => exact Or.inr ⟨_, (Prod.mk.inj heq).1, rfl⟩
      | ok fd => exact Or.inl ⟨fd, (Prod.mk.inj heq).1, rfl⟩

theorem outcome_runs {n : UInt32} {c : Rest Int32} {o : FdOutcome}
    (h : Cmd.Runs (outcome n c ()) tr (.ok o, ())) :
    (∃ fd, o = .restored n fd ∧ Cmd.Runs (c ()) tr (.ok fd, ())) ∨
      ∃ e, o = .failed n e ∧ Cmd.Runs (c ()) tr (.error e, ()) := by
  obtain ⟨tr₁, ⟨q, u⟩, tr₂, hbody, hhandle, rfl⟩ := runs_tryExcept.mp h
  obtain ⟨x, rfl, hc⟩ | ⟨tr₃, fd, u', tr₄, hc, hret, rfl⟩ := runs_bind_cases hbody
  · obtain ⟨rfl, heq⟩ := Cmd.runs_ret.mp hhandle
    rw [List.append_nil]
    exact Or.inr ⟨x, Except.ok.inj (Prod.mk.inj heq).1, hc⟩
  · obtain ⟨rfl, heq⟩ := Cmd.runs_ret.mp hret
    obtain rfl := (Prod.mk.inj heq).1
    obtain ⟨rfl, heq'⟩ := Cmd.runs_ret.mp hhandle
    rw [List.append_nil, List.append_nil]
    exact Or.inl ⟨fd, Except.ok.inj (Prod.mk.inj heq').1, hc⟩

theorem reopened_file (h : spec.reopening = .file) (bs : List Bool) :
    reopened (spec :: specs) (true :: true :: bs) = spec :: reopened specs bs ∧
      reopened (spec :: specs) (true :: false :: bs) = reopened specs bs ∧
      reopened (spec :: specs) (false :: bs) = reopened specs bs := by
  simp only [reopened, h, and_self]

theorem reopened_directory (h : spec.reopening = .directory) (bs : List Bool) :
    (∀ path, cString spec.path = .ok path →
      reopened (spec :: specs) (true :: bs) = spec :: reopened specs bs ∧
      reopened (spec :: specs) (false :: bs) = reopened specs bs) ∧
    ∀ x, cString spec.path = .error x → reopened (spec :: specs) bs = reopened specs bs := by
  refine ⟨fun path hpath => ?_, fun x hpath => ?_⟩
  · simp only [reopened, h, hpath, and_self]
  · simp only [reopened, h, hpath]

theorem reopened_none (h : spec.reopening = .none) (bs : List Bool) :
    reopened (spec :: specs) bs = reopened specs bs := by
  simp only [reopened, h]

theorem reopened_sublist (specs : List FdSpec) (bs : List Bool) :
    (reopened specs bs).Sublist specs := by
  fun_induction reopened specs bs with
  | case1 bs => exact .slnil
  | case2 specs spec bs hfile ih => exact .cons_cons _ ih
  | case3 specs spec bs hfile ih => exact .cons _ ih
  | case4 specs spec bs hfile ih => exact .cons _ ih
  | case5 specs spec hdir path hpath bs ih => exact .cons_cons _ ih
  | case6 specs spec hdir path hpath bs ih => exact .cons _ ih
  | case7 specs spec bs hdir hother hother' ih => exact .cons _ ih
  | case8 specs spec bs h₁ h₂ h₃ h₄ ih => exact .cons _ ih

theorem restoreRegular_restores (htype : FdType.ofInt spec.fdType = .regular) {o : FdOutcome}
    (h : Cmd.Runs (restoreRegular spec ()) tr (.ok o, ())) : Restores spec (openings tr) o := by
  rw [restoreRegular] at h
  split at h
  case isTrue hpath =>
    obtain ⟨rfl, heq⟩ := Cmd.runs_ret.mp h
    rw [Except.ok.inj (Prod.mk.inj heq).1]
    exact .skipped (if_pos hpath)
  case isFalse hpath =>
    have hfile : spec.reopening = .file := by
      rw [FdSpec.reopening, if_neg hpath, htype]
    obtain ⟨fd, rfl, hopen⟩ | ⟨e, rfl, hopen⟩ := outcome_runs h
    · obtain ⟨fd', -, hbs⟩ | ⟨e, heq, -⟩ := openRegular_openings hopen
      · rw [hbs]
        exact .restored fun specs rest => (reopened_file hfile rest).1
      · exact nomatch heq
    · obtain ⟨fd', heq, -⟩ | ⟨e', -, hbs | hbs⟩ := openRegular_openings hopen
      · exact nomatch heq
      · rw [hbs]
        exact .failed fun specs rest => (reopened_file hfile rest).2.2
      · rw [hbs]
        exact .failed fun specs rest => (reopened_file hfile rest).2.1

theorem restoreDirectory_restores (htype : FdType.ofInt spec.fdType = .directory) {o : FdOutcome}
    (h : Cmd.Runs (restoreDirectory spec ()) tr (.ok o, ())) : Restores spec (openings tr) o := by
  rw [restoreDirectory] at h
  split at h
  case isTrue hpath =>
    obtain ⟨rfl, heq⟩ := Cmd.runs_ret.mp h
    rw [Except.ok.inj (Prod.mk.inj heq).1]
    exact .skipped (if_pos hpath)
  case isFalse hpath =>
    have hdir : spec.reopening = .directory := by
      rw [FdSpec.reopening, if_neg hpath, htype]
    obtain ⟨fd, rfl, hopen⟩ | ⟨e, rfl, hopen⟩ := outcome_runs h
    · obtain ⟨x, e, -, heq, -⟩ | ⟨path, hpath, ⟨fd', -, hbs⟩ | ⟨e, heq, -⟩⟩ :=
        openDirectory_openings hopen
      · exact nomatch heq
      · rw [hbs]
        exact .restored fun specs rest => ((reopened_directory hdir rest).1 path hpath).1
      · exact nomatch heq
    · obtain ⟨x, e', hnul, -, hbs⟩ | ⟨path, hpath, ⟨fd', heq, -⟩ | ⟨e', -, hbs⟩⟩ :=
        openDirectory_openings hopen
      · rw [hbs]
        exact .failed fun specs rest => (reopened_directory hdir rest).2 x hnul
      · exact nomatch heq
      · rw [hbs]
        exact .failed fun specs rest => ((reopened_directory hdir rest).1 path hpath).2

theorem restoreOne_restores {o : FdOutcome} (h : Cmd.Runs (restoreOne spec ()) tr (.ok o, ())) :
    Restores spec (openings tr) o := by
  have hskip : ∀ {reason : String}, Cmd.Runs
      ((pure (.skipped spec.fdNum reason) : Rest FdOutcome) ()) tr
      (.ok o, ()) → spec.reopening = .none → Restores spec (openings tr) o := by
    intro reason hret hreopening
    obtain ⟨rfl, heq⟩ := Cmd.runs_ret.mp hret
    rw [Except.ok.inj (Prod.mk.inj heq).1]
    exact .skipped hreopening
  have hnone : spec.reopening = if spec.path = "" then .none else
      match FdType.ofInt spec.fdType with
        | .regular => .file
        | .directory => .directory
        | _ => .none := rfl
  unfold restoreOne at h
  cases htype : FdType.ofInt spec.fdType with
  | regular =>
      rw [htype] at h
      exact restoreRegular_restores htype h
  | directory =>
      rw [htype] at h
      exact restoreDirectory_restores htype h
  | pipe =>
      rw [htype] at h hnone
      exact hskip h (hnone.trans (ite_self _))
  | socket =>
      rw [htype] at h hnone
      exact hskip h (hnone.trans (ite_self _))
  | device =>
      rw [htype] at h hnone
      exact hskip h (hnone.trans (ite_self _))
  | other =>
      rw [htype] at h hnone
      exact hskip h (hnone.trans (ite_self _))

/-- The entries of `restored`, in the order of the captured descriptors; a report without failures
has one for every file and directory. -/
theorem restoreAll_reports {report report' : RestoreReport}
    (h : Cmd.Runs (restoreAll specs report ()) tr (.ok report', ())) :
    ∃ os, report'.restored = report.restored ++ os ∧
      List.Forall₂ Reports os (reopened specs (openings tr)) ∧
      (report'.failed = [] → report.failed = [] ∧
        ∀ spec ∈ specs, spec.reopening ≠ .none → spec ∈ reopened specs (openings tr)) := by
  induction specs generalizing report tr with
  | nil =>
      obtain ⟨rfl, heq⟩ := Cmd.runs_ret.mp h
      obtain rfl := Except.ok.inj (Prod.mk.inj heq).1
      exact ⟨[], (List.append_nil _).symm, .nil, fun hf => ⟨hf, fun _ hm => nomatch hm⟩⟩
  | cons spec specs ih =>
      obtain ⟨tr₁, o, u, tr₂, hone, hrest, rfl⟩ := runs_bind_returns h
      obtain ⟨os, hos, hall, hfailed⟩ := ih hrest
      rw [openings_append]
      have hkind := restoreOne_restores hone
      generalize openings tr₁ = bs at hkind ⊢
      cases hkind with
      | @restored fd _ hre =>
          rw [hre]
          refine ⟨.restored spec.fdNum fd :: os, ?_, .cons ⟨fd, rfl⟩ hall, fun hf => ?_⟩
          · rw [hos, RestoreReport.add, List.append_assoc]
            rfl
          · obtain ⟨hnone, hwanted⟩ := hfailed hf
            refine ⟨hnone, fun spec' hm hne => ?_⟩
            obtain rfl | hm := List.mem_cons.mp hm
            · exact .head _
            · exact .tail _ (hwanted spec' hm hne)
      | @failed e _ hre =>
          rw [hre]
          refine ⟨os, hos, hall, fun hf => ?_⟩
          have hnone := (hfailed hf).1
          rw [RestoreReport.add] at hnone
          exact absurd hnone (List.append_ne_nil_of_right_ne_nil _ nofun)
      | @skipped reason hre =>
          rw [List.nil_append, reopened_none hre]
          refine ⟨os, hos, hall, fun hf => ?_⟩
          obtain ⟨hnone, hwanted⟩ := hfailed hf
          refine ⟨hnone, fun spec' hm hne => ?_⟩
          obtain rfl | hm := List.mem_cons.mp hm
          · exact absurd hre hne
          · exact hwanted spec' hm hne

/-! ## The table of the child -/

theorem call_fds {α : Type} {o : RestOp} {view : RestResp o → Except Error α} (ho : o.Rests) :
    Keeps answer (fun w => w.child.fds = t) (call o view : Rest α) :=
  .call fun _ _ _ hw ha => (answer_rests ho ha).fds.trans hw

/-- A system call that finds no old descriptor leaves the table alone. -/
theorem syscall_fds {c : Child} {ret : UInt64} {mem : Memory UInt64} {fds : Fds}
    (h : c.regs.rax = sysDup2 → c.fds (fdArg c.regs.rdi) = none) (hcall : Syscall c ret mem fds) :
    fds = c.fds := by
  cases hcall with
  | fails _ => rfl
  | mmap _ _ _ _ => rfl
  | mprotect _ _ _ => rfl
  | dup2 hnr hfile _ => exact nomatch (h hnr).symm.trans hfile

theorem resumes_fds {c c' : Child} {status : WaitStatus}
    (h : c.regs.rax = sysDup2 → c.fds (fdArg c.regs.rdi) = none) (hres : Resumes c status c') :
    c'.fds = c.fds := by
  cases hres with
  | traps _ hcall _ => exact syscall_fds h hcall
  | strays _ hfds =>
      obtain hfds | ⟨ret, mem, hcall⟩ := hfds
      · exact hfds
      · exact syscall_fds h hcall

theorem setregs_fds {regs : UserRegs} {context : String} :
    Keeps answer (fun w => w.child.fds = t)
      (call (.setregs child regs) (mapErr context) : Rest Unit) :=
  .call fun _ _ _ hw ha => (answer_setregs ha).1.trans hw

theorem ending_fds {nr word : UInt64} {saved : UserRegs} :
    Keeps answer (fun w => w.child.fds = t)
      (call (.waitpid child) (mapErr "inject: waitpid") >>= fun status =>
        ofExcept (expectTrap status) >>= fun _ => injectResult child nr saved word) :=
  .bind (call_fds trivial) fun _ => .bind .ofExcept fun _ => .bind (call_fds trivial) fun _ =>
    .bind (call_fds trivial) fun _ => .bind setregs_fds fun _ => .ofExcept

/-- So does an injection, however it ends. -/
theorem inject_fds {nr : UInt64} {args : CallArgs} (h : nr = sysDup2 → t (fdArg args.a0) = none) :
    Keeps answer (fun w => w.child.fds = t) (inject child nr args) := by
  rw [inject]
  refine .bind (call_fds trivial) fun saved => .bind (call_fds trivial) fun word =>
    .bind (call_fds trivial) fun _ => ?_
  refine Triple.call_bind (J := fun _ w => w.child.regs = callRegs saved nr args ∧ w.child.fds = t)
    (fun w r w' _ hw ha hr => ?_) (fun w r w' _ hw ha _ => ?_) fun _ => ?_
  · cases r with
    | error e => cases hr
    | ok u => exact ⟨(answer_setregs ha).2.2 u rfl, (answer_setregs ha).1.trans hw⟩
  · exact (answer_setregs ha).1.trans hw
  refine Triple.call_bind (J := fun _ w => w.child.fds = t) (fun w r w' _ hw ha hr => ?_)
    (fun w r w' _ hw ha hr => ?_) fun _ => ?_
  · cases r with
    | error e => cases hr
    | ok _ =>
        obtain ⟨status, c', hres, rfl⟩ := ha
        obtain ⟨hregs, rfl⟩ := hw
        refine resumes_fds (fun hrax => ?_) hres
        rw [hregs] at hrax ⊢
        exact h hrax
  · cases r with
    | ok _ => cases hr
    | error e =>
        obtain rfl := ha
        exact hw.2
  · exact ending_fds

theorem restoreRegions_fds {regions : List Proto.MemoryRegion} {n : Nat} :
    Keeps answer (fun w => w.child.fds = t) (restoreRegions checksum child regions n) := by
  induction regions generalizing n with
  | nil => exact .pure
  | cons region regions ih =>
      refine .bind ?_ fun _ => ih
      refine .bind .ofExcept fun _ =>
        .bind (inject_fds fun h => absurd (show sysMmap = sysDup2 from h) (by decide)) fun mapped =>
        .bind .ofExcept fun _ => .bind ?_ fun _ => ?_
      · exact .bind (call_fds trivial) fun _ => .bind (call_fds trivial) fun _ => call_fds trivial
      · split
        · exact .bind (inject_fds fun h => absurd (show sysMprotect = sysDup2 from h) (by decide))
            fun _ => .pure
        · exact .pure

theorem restoreState_fds {s : Proto.ProcessSnapshot} :
    Keeps answer (fun w => w.child.fds = t) (restoreState checksum s child) := by
  refine .bind restoreRegions_fds fun _ =>
    .bind (.bind .ofExcept fun regs => .bind setregs_fds fun _ => ?_)
    fun _ => .pure
  split
  · exact .bind .ofExcept fun _ => call_fds trivial
  · exact .pure

/-! ## The table of the restorer -/

/-- The child has the table `t`, and the restorer still has every descriptor of it. -/
def Forked (t : Fds) (w : World) : Prop := w.child.fds = t ∧ ∀ fd, w.parent fd = none → t fd = none

theorem Forked.set {w : World} (h : Forked t w) (fd : Int32) (file : OpenFile) :
    Forked t { w with parent := w.parent.set fd (some file) } := by
  refine ⟨h.1, fun fd' hnone => h.2 fd' ?_⟩
  simp only [Fds.set] at hnone
  split at hnone
  · exact nomatch hnone
  · exact hnone

/-- A descriptor that the fork did not have can be closed. -/
theorem Forked.unset {w : World} (h : Forked t w) {fd : Int32} (hfd : t fd = none) :
    Forked t { w with parent := w.parent.set fd none } := by
  refine ⟨h.1, fun fd' hnone => ?_⟩
  by_cases heq : fd' = fd
  · rw [heq]
    exact hfd
  · exact h.2 fd' ((Fds.set_ne w.parent none heq).symm.trans hnone)

/-- What is opened is a descriptor that the fork did not have. -/
def Fresh (t : Fds) (r : Except Error Int32) (w : World) : Prop :=
  Forked t w ∧ ∀ fd, r = .ok fd → t fd = none

theorem openRegular_fresh : Triple answer (Forked t) (openRegular spec) (Fresh t) := by
  refine Triple.call_bind (J := fun fd w => Forked t w ∧ t fd = none) (fun w r w' fd hw ha hr => ?_)
    (fun w r w' x hw ha hr => ?_) fun fd => ?_
  · obtain rfl := mapErr_eq_ok hr
    obtain ⟨-, hnone, rfl⟩ := ha
    exact ⟨hw.set _ _, hw.2 fd hnone⟩
  · cases r with
    | ok _ => exact nomatch hr
    | error e =>
        obtain rfl := ha
        exact ⟨hw, nofun⟩
  refine Triple.bind (J := fun r w => Forked t w ∧ t fd = none) ?_
    (fun _ => Triple.pure fun w hw => ?_)
    fun x w hw => ⟨hw.1, nofun⟩
  · refine Triple.tryExcept (J := fun _ w => Forked t w ∧ t fd = none)
      (Triple.call fun w r w' hw ha => ?_)
      (fun _ _ h => h) (fun _ _ h _ => nomatch h) fun x d hd => ?_
    · cases r with
      | error e =>
          obtain rfl := ha
          exact hw
      | ok _ =>
          obtain ⟨file, -, rfl⟩ := ha
          exact ⟨hw.1.set _ _, hw.2⟩
    · rw [← Option.some.inj hd]
      refine Triple.bind (J := fun _ w => Forked t w ∧ t fd = none)
        (Triple.call fun w r w' hw ha => ?_) (fun _ => Triple.raise fun _ h => h) fun _ _ h => h
      obtain rfl := ha
      exact ⟨hw.1.unset hw.2, hw.2⟩
  · refine ⟨hw.1, fun fd' hfd' => ?_⟩
    rw [← Except.ok.inj hfd']
    exact hw.2

theorem openDirectory_fresh : Triple answer (Forked t) (openDirectory spec) (Fresh t) := by
  refine Triple.ofExcept_bind (fun w x hw _ => ⟨hw, nofun⟩) fun path _ =>
    Triple.call fun w r w' hw ha => ?_
  cases r with
  | error e =>
      obtain rfl := ha
      exact ⟨hw, nofun⟩
  | ok fd =>
      obtain ⟨-, hnone, rfl⟩ := ha
      refine ⟨hw.set _ _, fun fd' hfd' => ?_⟩
      rw [← Except.ok.inj hfd']
      exact hw.2 fd hnone

/-- The entries of `restored` are new descriptors. -/
def AllFresh (t : Fds) (report : RestoreReport) : Prop :=
  ∀ n fd, .restored n fd ∈ report.restored → t fd = none

theorem outcome_fresh {n : UInt32} {c : Rest Int32} {report : RestoreReport}
    (hreport : AllFresh t report)
    (h : Triple answer (Forked t) c (Fresh t)) : Triple answer (Forked t) (outcome n c)
      (fun r w => Forked t w ∧ ∀ o, r = .ok o → AllFresh t (report.add o)) := by
  refine Triple.tryExcept (J := fun r w => Forked t w ∧ ∀ o, r = .ok o → AllFresh t (report.add o))
    (Triple.bind h (fun fd => Triple.pure fun w hw => ⟨hw.1, ?_⟩) fun x w hw => ⟨hw.1, nofun⟩)
    (fun _ _ hw => hw) (fun _ _ hd _ => nomatch hd) fun x d hd => ?_
  · rintro o ho n' fd' hmem
    rw [← Except.ok.inj ho] at hmem
    obtain hmem | hmem := List.mem_append.mp hmem
    · exact hreport n' fd' hmem
    · obtain ⟨-, rfl⟩ := FdOutcome.restored.inj (List.mem_singleton.mp hmem)
      exact hw.2 fd' rfl
  · rw [← Option.some.inj hd]
    refine Triple.pure fun w hw => ⟨hw.1, fun o ho => ?_⟩
    rw [← Except.ok.inj ho]
    exact hreport

theorem restoreOne_fresh {report : RestoreReport} (hreport : AllFresh t report) :
    Triple answer (Forked t) (restoreOne spec)
      (fun r w => Forked t w ∧ ∀ o, r = .ok o → AllFresh t (report.add o)) := by
  have hskip : ∀ {n : UInt32} {reason : String}, Triple answer (Forked t)
      (pure (.skipped n reason) : Rest FdOutcome)
      (fun r w => Forked t w ∧ ∀ o, r = .ok o → AllFresh t (report.add o)) := by
    refine Triple.pure fun w hw => ⟨hw, fun o ho => ?_⟩
    rw [← Except.ok.inj ho]
    exact hreport
  unfold restoreOne restoreRegular restoreDirectory
  split
  · split
    · exact hskip
    · exact outcome_fresh hreport openRegular_fresh
  · exact hskip
  · exact hskip
  · exact hskip
  · split
    · exact hskip
    · exact outcome_fresh hreport openDirectory_fresh
  · exact hskip

theorem restoreAll_fresh {report : RestoreReport} (hreport : AllFresh t report) :
    Triple answer (Forked t) (restoreAll specs report)
      (fun r w => Forked t w ∧ ∀ report', r = .ok report' → AllFresh t report') := by
  induction specs generalizing report with
  | nil =>
      refine Triple.pure fun w hw => ⟨hw, fun report' hr => ?_⟩
      rw [← Except.ok.inj hr]
      exact hreport
  | cons spec specs ih =>
      refine Triple.bind (restoreOne_fresh hreport) (fun o => ?_) fun x w hw => ⟨hw.1, nofun⟩
      exact (Triple.fact fun h => ih (h o rfl)).mono (fun w hw => ⟨hw.2, hw.1⟩) fun _ _ h => h

/-! ## The result -/

theorem dup2_fds {oldFd newFd : Int32} (h : t oldFd = none) :
    Keeps answer (fun w => w.child.fds = t) (dup2 child oldFd newFd) :=
  .bind (inject_fds fun _ => by rw [fdArg_asU64]; exact h) fun _ => .pure

theorem installAll_fds {os : List FdOutcome} (h : ∀ n fd, .restored n fd ∈ os → t fd = none) :
    Keeps answer (fun w => w.child.fds = t) (installAll child os) := by
  induction os with
  | nil => exact .pure
  | cons o os ih =>
      have hrest := ih fun n fd hmem => h n fd (.tail _ hmem)
      cases o with
      | restored n fd =>
          refine .bind (.tryExcept (dup2_fds (h n fd (.head _))) fun _ _ hd => ?_) fun _ =>
            .bind (call_fds trivial) fun _ => hrest
          exact Option.some.inj hd ▸ .pure
      | skipped n reason => exact hrest
      | failed n error => exact hrest

theorem restoreState_forked {s : Proto.ProcessSnapshot} :
    Keeps answer (Forked t) (restoreState checksum s child) := by
  have hparent : ∀ {p : Fds}, Keeps answer (fun w => w.parent = p)
      (restoreState checksum s child) := fun {p} =>
    restoreState_uses.keeps fun w o r w' ho hw ha => (answer_onChild ho ha).trans hw
  intro st tr q w w' hw hr ha
  refine ⟨restoreState_fds st tr q w w' hw.1 hr ha, ?_⟩
  rw [hparent st tr q w w' rfl hr ha]
  exact hw.2

/-- The child is let go with the table of the fork. -/
theorem restoreInner_fds {s : Proto.ProcessSnapshot} {fds : List FdSpec} :
    Ensures answer (Forked t) (restoreInner checksum s fds child)
      (fun _ w => ∃ c, w.released = some c ∧ c.fds = t) := by
  have hprepare : Ensures answer (Forked t) (prepare checksum s fds child)
      (fun _ w => w.child.fds = t) := by
    refine Ensures.bind (J := fun _ => Forked t) (Triple.mono restoreState_forked (fun _ h => h)
      fun _ _ h _ _ => h) fun n => ?_
    refine Ensures.bind (J := fun report w => AllFresh t report ∧ w.child.fds = t)
      (Triple.mono (restoreAll_fresh fun _ _ h => nomatch h) (fun _ h => h)
        fun _ _ h _ hr => ⟨h.2 _ hr, h.1.1⟩) fun report => Ensures.fact fun hfresh => ?_
    refine Ensures.bind (J := fun _ w => w.child.fds = t) (Triple.mono (installAll_fds hfresh)
      (fun _ h => h) fun _ _ h _ _ => h) fun _ => Ensures.pure fun _ h => h
  refine Ensures.bind hprepare fun prepared =>
    Ensures.bind (J := fun _ w => ∃ c, w.released = some c ∧ c.fds = t)
    (Ensures.call fun w r w' _ hw ha hr => ?_) fun _ => Ensures.pure fun _ h => h
  cases r with
  | error e => exact nomatch hr
  | ok _ =>
      obtain rfl := ha
      exact ⟨w.child, rfl, hw⟩

variable {s : Proto.ProcessSnapshot} {fds : List FdSpec} {result : RestoreResult} {w w' : World}

/-- Calls that open nothing. -/
def Unopening (o : RestOp) : Prop := ∀ r, opening ⟨o, r⟩ = none

theorem openings_eq_nil (h : ∀ ev ∈ tr, Unopening ev.1) : openings tr = [] :=
  List.filterMap_eq_nil_iff.mpr fun ev hev => h ev hev ev.2

theorem RestOp.OnChild.unopening {o : RestOp} (h : o.OnChild) : Unopening o := by
  intro r
  cases o with
  | fork => exact h.elim
  | openFile path opts => exact h.elim
  | seek fd offset => exact h.elim
  | openDirectory path flags => exact h.elim
  | close fd => exact h.elim
  | detach pid => exact h.elim
  | kill pid => exact h.elim
  | _ => rfl

/-- What the report of a run lists. -/
theorem restoreInner_reports
    (h : Cmd.Runs (restoreInner checksum s fds child ()) tr (.ok result, ())) :
    List.Forall₂ Reports result.fdReport.restored (reopened fds (openings tr)) ∧
      (result.fdReport.hasFailures = false →
        ∀ spec ∈ fds, spec.reopening ≠ .none → spec ∈ reopened fds (openings tr)) := by
  obtain ⟨tr₁, tr₂, tr₃, rfl, -, hstate, hfiles, hinstall⟩ := restoreInner_returns h
  have hopenings : openings (tr₁ ++ tr₂ ++ tr₃ ++ [⟨.detach child, .ok ()⟩]) = openings tr₂ := by
    have hstate' : openings tr₁ = [] := openings_eq_nil fun ev hev =>
      (restoreState_uses _ _ _ hstate ev hev).unopening
    have hinstall' : openings tr₃ = [] := openings_eq_nil
      (installAll_uses (fun _ => RestOp.OnChild.unopening) (fun _ _ => rfl) _ _ _ hinstall)
    have hdetach : openings [⟨.detach child, .ok ()⟩] = [] := rfl
    simp only [openings_append, hstate', hinstall', hdetach, List.append_nil, List.nil_append]
  rw [hopenings]
  obtain ⟨os, hos, hall, hfailed⟩ := restoreAll_reports hfiles
  have hrestored : result.fdReport.restored = os := hos
  refine ⟨by rw [hrestored]; exact hall, fun hnone => (hfailed ?_).2⟩
  rw [RestoreReport.hasFailures, Bool.not_eq_false'] at hnone
  exact List.isEmpty_iff.mp hnone

/-- A restore that ends well: the fork, and a run of `restore_inner` from there. -/
theorem restore_forks (h : Cmd.Runs (restore checksum s fds ()) tr (.ok result, ()))
    (ha : Answered answer w tr w') : ∃ pid status tr₂ w₁,
      tr = ⟨.fork, .ok pid⟩ :: ⟨.waitpid pid, .ok status⟩ :: tr₂ ∧
      Cmd.Runs (restoreInner checksum s fds pid ()) tr₂ (.ok result, ()) ∧
      Forked w.parent w₁ ∧ Answered answer w₁ tr₂ w' := by
  obtain ⟨-, pid, tr₂, rfl, hinner⟩ := restore_returns h
  obtain ⟨w₁, ⟨c, st, hfds, rfl⟩, w₂, ⟨-, rfl⟩, harest⟩ := ha
  exact ⟨pid, _, tr₂, { w with child := c, pending := none }, rfl, hinner,
    ⟨hfds, fun _ h => h⟩, harest⟩

/-- The entries of the report stand for the descriptors that were reopened, and the report is true
of the child that is let go if and only if each of these was open in the restorer at the fork, under
its number and as it was captured. -/
theorem restore_truthful_iff (h : Cmd.Runs (restore checksum s fds ()) tr (.ok result, ()))
    (ha : Answered answer w tr w') :
    List.Forall₂ Reports result.fdReport.restored (reopened fds (openings tr)) ∧
    (Truthful checksum s fds tr w' ↔
      ∀ spec ∈ reopened fds (openings tr), InPlace w.parent spec) := by
  obtain ⟨pid, status, tr₂, w₁, rfl, hinner, hforked, harest⟩ := restore_forks h ha
  obtain ⟨c, hreleased, hfds⟩ := restoreInner_fds.returns hforked hinner harest
  obtain ⟨hlisted, hall⟩ := restoreInner_reports hinner
  have hopenings : openings (⟨.fork, .ok pid⟩ :: ⟨.waitpid pid, .ok status⟩ :: tr₂) =
      openings tr₂ := rfl
  rw [Truthful, hopenings]
  refine ⟨hlisted, fun htrue => ?_, fun hplace => ?_⟩
  · obtain ⟨c', hc', hin, -⟩ := htrue
    obtain rfl := Option.some.inj (hreleased.symm.trans hc')
    rw [hfds] at hin
    exact hin
  · rw [← hfds] at hplace
    refine ⟨c, hreleased, hplace, fun hstrict spec hspec hne => ?_⟩
    obtain ⟨result', hrestore, hnone⟩ := runRestorer_zero hstrict
    obtain rfl := Except.ok.inj (Prod.mk.inj (h.functional hrestore)).1
    rw [Bool.and_true] at hnone
    exact hplace spec (hall hnone spec hspec hne)

/-! ## A file that is not handed over -/

/-- The log file is listed as restored. -/
def logResult : RestoreResult where
  pid := 42
  regionsOk := 1
  fdReport := { restored := [.restored 3 5] }

/-- The log file is reopened, `dup2` comes back with EBADF, and the restore is a success. -/
theorem refused_run {w : World} (hparent : w.parent 5 = none) :
    ∃ tr w', Cmd.Runs (restore (fun _ => 0) pageSnapshot [logFd] ()) tr (.ok logResult, ()) ∧
      Answered answer w tr w' ∧ reopened [logFd] (openings tr) = [logFd] ∧
      ∃ c, w'.released = some c ∧ c.fds = w.parent := by
  obtain ⟨tr₁, hr₁, ha₁⟩ := forkStub_done (w := w) 42 stub
  obtain ⟨tr, w', _, c, hr, ha, hreleased, hfds, -⟩ := pageSnapshot_run (w := w.forked stub)
    (P := fun _ c => c.fds = w.parent) rfl hparent fun w₁ hsite hfds => by
      obtain ⟨x, tr, w₂, hr, ha, hsame⟩ :=
        inject_refused 42 sysDup2 { a0 := asU64 5, a1 := asU64 3 }
        hsite (fun h => absurd (show sysDup2 = sysMmap from h) (by decide))
        (by decide : isErrno (-9 : Int64).toUInt64 = true)
      exact ⟨.error x, tr, w₂, runs_bind_error hr, ha, by rw [hsame]; exact hfds⟩
  have hrun : Cmd.Runs (restore (fun _ => 0) pageSnapshot [logFd] ()) (tr₁ ++ tr)
      (.ok logResult, ()) := by
    rw [restore, pageSnapshot_valid]
    exact runs_pure_bind.mpr (runs_bind_ok hr₁ (runs_tryExcept_ok hr))
  have harun := answered_append.mpr ⟨_, ha₁, ha⟩
  refine ⟨tr₁ ++ tr, w', hrun, harun, ?_, c, hreleased, hfds⟩
  obtain ⟨pid, status, tr₂, w₁, heq, hinner, -, -⟩ := restore_forks hrun harun
  have hopenings : openings (⟨.fork, .ok pid⟩ :: ⟨.waitpid pid, .ok status⟩ :: tr₂) =
      openings tr₂ := rfl
  rw [heq, hopenings]
  have hsub := reopened_sublist [logFd] (openings tr₂)
  have hlisted := (restoreInner_reports hinner).1
  exact hsub.eq_of_length hlisted.length_eq.symm

/-- What the report lists is not there. -/
theorem report_untrue : ∃ s fds tr result w, validate s = .ok () ∧
    Cmd.Runs (restore (fun _ => 0) s fds ()) tr (.ok result, ()) ∧ Answered answer quietWorld tr w ∧
    ¬ Truthful (fun _ => 0) s fds tr w := by
  obtain ⟨tr, w, hr, ha, hlisted, c, hreleased, hfds⟩ := refused_run (w := quietWorld) rfl
  refine ⟨pageSnapshot, [logFd], tr, logResult, w, pageSnapshot_valid, hr, ha, ?_⟩
  rintro ⟨c', hc', hin, -⟩
  obtain rfl := Option.some.inj (hreleased.symm.trans hc')
  obtain ⟨file, hfile, -⟩ := hin logFd (by rw [hlisted]; exact .head _)
  rw [hfds] at hfile
  exact nomatch hfile

/-- A restorer that has the log file open itself. -/
def loggingWorld : World :=
  { quietWorld with
    parent := quietWorld.parent.set 3 (some ⟨0, "/var/log/app.log", 0, .readOnly, false, false⟩)
    opens := 1 }

theorem restore_truthful_iff_logging : ∃ tr w,
    Cmd.Runs (restore (fun _ => 0) pageSnapshot [logFd] ()) tr (.ok logResult, ()) ∧
    Answered answer loggingWorld tr w ∧ Truthful (fun _ => 0) pageSnapshot [logFd] tr w := by
  obtain ⟨tr, w, hr, ha, hlisted, -⟩ := refused_run (w := loggingWorld) rfl
  refine ⟨tr, w, hr, ha, (restore_truthful_iff hr ha).2.mpr fun spec hspec => ?_⟩
  rw [hlisted] at hspec
  obtain rfl := List.mem_singleton.mp hspec
  exact ⟨_, Fds.set_self quietWorld.parent 3 _, rfl, rfl, fun _ a h => Option.some.inj h,
    fun _ => rfl⟩

end Wraith.Restore

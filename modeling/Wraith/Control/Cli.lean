/-
# `Wraith.Control.Cli` — what the user is told

`wraith migrate` of `cli.py`: it runs `Teleporter.migrate`, and tells from the class of what comes
out whether the source was left alone, was unfrozen, or is still frozen, with an exit code for each.
The class alone carries this: nothing of the teleporter's state is looked at.

`migrateCommand_truthful` says that in every run what is told is what has happened, or nothing is
told because an exception of no class of `exceptions.py` goes past all handlers.  What the parts of
a run do at most (`Within`) gives the frame, the ledger what became of `resume`.
-/
import Wraith.Lib.Effects
import Wraith.Control.CommandLine
import Wraith.Control.Rollback

namespace Wraith.Control

open Lib Script

/-! ## The command -/

/-- How `migrate` of `cli.py` ends: by the `try` body, or by one of its `except` clauses, each of
which prints a message of its own. -/
inductive Verdict where
  | successful (result : MigrationResult)
  | preflightFailed (e : PyExc)
  | critical (e : PyExc)
  | unfrozen (e : PyExc)

/-- The argument of `sys.exit`, or the end of the command. -/
def Verdict.exitCode : Verdict → Nat
  | .successful _ => 0
  | .preflightFailed _ => 1
  | .critical _ => 3
  | .unfrozen _ => 1

/-- The `except` clauses, in their order. -/
def onCommandError (e : PyExc) : Option (Py Verdict) :=
  if e.isA .preflightError then some (pure (.preflightFailed e))
  else if e.isA .rollbackError then some (pure (.critical e))
  else if e.isA .wraithError then some (pure (.unfrozen e))
  else none

/-- `migrate` of `cli.py`, from the `try` statement on. -/
def migrateCommand (verifyOnly : Bool) : Py Verdict :=
  tryExcept (do
    let result ← migrate verifyOnly
    pure (.successful result))
    onCommandError

/-! ## What is told -/

def isKill : PyOp → Bool
  | .kill _ _ => true
  | _ => false

def isResume : PyOp → Bool
  | .subprocessRun .resume _ _ => true
  | _ => false

/-- An operation on the source process. -/
def touches : PyOp → Bool
  | .subprocessRun .capture _ _ => true
  | .subprocessRun .resume _ _ => true
  | .kill _ _ => true
  | _ => false

def Untouched (tr : List (Event PyResp)) : Prop := ∀ ev ∈ tr, touches ev.1 = false

def Unsignalled (tr : List (Event PyResp)) : Prop := ∀ ev ∈ tr, isKill ev.1 = false

/-- What a verdict says of the run behind it, from `t` to `t'`. -/
def Verdict.Truthful (verifyOnly : Bool) (t : Teleporter) (tr : List (Event PyResp))
    (t' : Teleporter) : Verdict → Prop
  | .successful result =>
      t'.state = .complete ∧ InOrder milestones tr ∧ resumeResults tr = [] ∧
        result.sourcePid = t.pid ∧ result.destinationHost = t.cfg.destination.hostname ∧
        if verifyOnly then Unsignalled tr else ∃ ev ∈ tr, ev.1 = .kill t.pid .term
  | .preflightFailed _ => t'.state = .rolledBack ∧ Untouched tr
  | .critical _ =>
      t'.state = .failed ∧ Unsignalled tr ∧ ∃ r, resumeResults tr = [r] ∧
        Completed.exited0 r = false
  | .unfrozen _ => Unsignalled tr ∧
      ((∃ r, resumeResults tr = [r] ∧ Completed.exited0 r = true) ∧ t'.state = .rolledBack ∨
        connects tr = false ∧ Untouched tr ∧ t'.state = t.state)

variable {v : Bool} {t : Teleporter} {tr : List (Event PyResp)}

theorem Untouched.unsignalled (h : Untouched tr) : Unsignalled tr := by
  rintro ⟨o, r⟩ hmem
  cases o with
  | kill pid sig => exact nomatch h _ hmem
  | _ => rfl

theorem resumeResults_append (tr tr' : List (Event PyResp)) :
    resumeResults (tr ++ tr') = resumeResults tr ++ resumeResults tr' := by
  have h := resumes_run (v := true) {} (tr ++ tr')
  rw [Cmd.Monitor.after_append, resumes_run, resumes_run] at h
  exact h.symm

theorem resumeResults_eq_nil (h : ∀ ev ∈ tr, isResume ev.1 = false) : resumeResults tr = [] := by
  induction tr with
  | nil => rfl
  | cons ev tr ih =>
      have hrest := ih fun ev' hmem => h ev' (.tail _ hmem)
      have hev := h ev (.head _)
      obtain ⟨o, r⟩ := ev
      cases o with
      | subprocessRun proc argv n =>
          cases proc with
          | resume => exact nomatch hev
          | _ => exact hrest
      | _ => exact hrest

theorem InOrder.prepend {ps : List (Event PyResp → Prop)} (h : InOrder ps tr)
    (pre : List (Event PyResp)) : InOrder ps (pre ++ tr) := by
  induction pre with
  | nil => exact h
  | cons _ _ ih => exact .cons_right ih

theorem InOrder.append {ps : List (Event PyResp → Prop)} (h : InOrder ps tr)
    (tr' : List (Event PyResp)) : InOrder ps (tr ++ tr') := by
  induction tr' generalizing tr with
  | nil => rwa [List.append_nil]
  | cons ev tr' ih =>
      rw [List.append_cons]
      exact ih h.later

/-! ## What the parts of a run do at most -/

/-- The same migration. -/
structure Teleporter.Same (t t' : Teleporter) : Prop where
  pid : t'.pid = t.pid
  cfg : t'.cfg = t.cfg
  migrationId : t'.migrationId = t.migrationId

instance instReflSame : Std.Refl Teleporter.Same := ⟨fun _ => ⟨rfl, rfl, rfl⟩⟩

instance instTransSame : IsTrans Teleporter Teleporter.Same :=
  ⟨fun _ _ _ h h' => ⟨h'.pid.trans h.pid, h'.cfg.trans h.cfg, h'.migrationId.trans h.migrationId⟩⟩

/-- An exception of Python's, which goes past all handlers. -/
def IsBuiltin (x : PyExc) : Prop := ∃ b, x = .builtin b

/-- An exception of a phase. -/
structure Plain (x : PyExc) : Prop where
  notPreflight : x.isA .preflightError = false
  notRollback : x.isA .rollbackError = false

theorem IsBuiltin.plain {x : PyExc} (h : IsBuiltin x) : Plain x := by
  obtain ⟨b, rfl⟩ := h
  exact ⟨rfl, rfl⟩

/-- An operation that does something: here, on the destination, or to the process. -/
def acts : PyOp → Bool
  | .mkstemp _ _ => true
  | .subprocessRun _ _ _ => true
  | .execBackground _ => true
  | .execCommand _ _ _ => true
  | .kill _ _ => true
  | _ => false

/-- An operation that does nothing but look, connect and tidy up. -/
def Aside (o : PyOp) : Prop := acts o = false

/-- The transmitter is called with the arguments for some session. -/
def Addressed (o : PyOp) : Prop := ∀ argv n, o = .subprocessRun .transmit argv n →
  ∃ t path, argv.tail = transmitArgs t path (toString t.cfg.timeoutS)

/-- An operation of a phase. -/
structure Forward (o : PyOp) : Prop where
  notKill : isKill o = false
  notResume : isResume o = false
  addressed : Addressed o

theorem Aside.forward {o : PyOp} (h : Aside o) : Forward o := by
  refine ⟨?_, ?_, ?_⟩
  · cases o with
    | kill pid sig => exact nomatch h
    | _ => rfl
  · cases o with
    | subprocessRun proc argv n => exact nomatch h
    | _ => rfl
  · rintro argv n rfl
    exact nomatch h

/-- An operation of the commit. -/
structure Committing (o : PyOp) : Prop where
  notResume : isResume o = false
  addressed : Addressed o

/-- An operation of the rollback. -/
structure Undoing (o : PyOp) : Prop where
  notKill : isKill o = false
  addressed : Addressed o

theorem Aside.notTouches {o : PyOp} (h : Aside o) : touches o = false := by
  cases o with
  | subprocessRun proc argv n => exact nomatch h
  | kill pid sig => exact nomatch h
  | _ => rfl

theorem untouched_of_aside {tr : List (Event PyResp)} (h : ∀ ev ∈ tr, Aside ev.1) : Untouched tr :=
  fun ev hmem => (h ev hmem).notTouches

variable {α : Type} {p : PyOp → Prop} {q : PyExc → Prop}

/-- Only operations in `p`, exceptions in `q`, and the same migration. -/
abbrev Bounded (p : PyOp → Prop) (q : PyExc → Prop) (c : Py α) : Prop :=
  Within p q Teleporter.Same c

theorem bounded_transition {state : MigrationState} : Bounded p q (transition state) :=
  .modify fun _ => ⟨rfl, rfl, rfl⟩

theorem bounded_attempt {o : PyOp} {view : PyResp o → Except Builtin α} (ho : p o)
    (hq : ∀ b, q (.builtin b)) : Bounded p q (attempt o view) := by
  refine .call ho fun r x hx => ?_
  cases h : view r with
  | ok a =>
      rw [h] at hx
      cases hx
  | error b =>
      rw [h] at hx
      cases hx
      exact hq b

theorem bounded_pyAssert {o : Option α} (hq : ∀ b, q (.builtin b)) : Bounded p q (pyAssert o) := by
  cases o with
  | none => exact .raise (hq _)
  | some a => exact .pure

/-- An `except` clause that ignores what it catches. -/
theorem bounded_ignore {c : Py Unit} {h : PyExc → Option (Py Unit)} (hc : Bounded p q c)
    (hh : ∀ x d, h x = some d → d = pure ()) : Bounded p q (tryExcept c h) := by
  refine .tryExcept hc fun x d hd => ?_
  rw [hh x d hd]
  exact .pure

theorem bounded_suppress {c : Py Unit} (hc : Bounded p q c) : Bounded p q (suppress c) := by
  refine bounded_ignore hc fun x d hd => ?_
  split at hd
  · exact (Option.some.inj hd).symm
  · cases hd

theorem ignoreOSError_eq {x : PyExc} {d : Py Unit} (h : ignoreOSError x = some d) :
    d = pure () := by
  unfold ignoreOSError at h
  split at h
  · exact (Option.some.inj h).symm
  · cases h

theorem ignoreLookup_eq {x : PyExc} {d : Py Unit} (h : ignoreLookup x = some d) : d = pure () := by
  unfold ignoreLookup at h
  split at h
  · exact (Option.some.inj h).symm
  · cases h

/-- `except Exception as e: raise f(e)`. -/
theorem bounded_orRaise {c : Py α} {f : PyExc → PyExc} (hc : Bounded p q c) (hf : ∀ x, q (f x)) :
    Bounded p q (orRaise c f) := by
  refine .tryExcept hc fun x d hd => ?_
  split at hd
  · obtain rfl := Option.some.inj hd
    exact .raise (hf x)
  · cases hd

theorem bounded_launch {proc : Proc} {argv : List String} {n : Int} {timedOut notFound : PyExc}
    {exited : Completed → PyExc} (ho : p (.subprocessRun proc argv n)) (htimedOut : Plain timedOut)
    (hnotFound : Plain notFound) (hexited : ∀ c, Plain (exited c)) :
    Bounded p Plain (launch proc argv n timedOut notFound exited) := by
  refine .bind (.tryExcept (bounded_attempt ho fun _ => ⟨rfl, rfl⟩) fun x d hd => ?_)
    fun c => ?_
  · unfold onLaunchError at hd
    split at hd
    · obtain rfl := Option.some.inj hd
      exact .raise htimedOut
    · obtain rfl := Option.some.inj hd
      exact .raise hnotFound
    · cases hd
  · split
    · exact .pure
    · exact .raise (hexited c)

theorem bounded_exec {remote : Remote} {cmd : String} {timeout : Option Int} {check : Bool} :
    Bounded Forward Plain (exec remote cmd timeout check) := by
  refine .bind (.bind .get fun t => ?_) fun _ => .bind .get fun t =>
    .bind (bounded_attempt ⟨rfl, rfl, by rintro _ _ ⟨⟩⟩ fun _ => ⟨rfl, rfl⟩) ?_
  · split
    · exact .pure
    · exact .raise ⟨rfl, rfl⟩
  · rintro ⟨out, err, code⟩
    dsimp only
    split
    · exact .raise ⟨rfl, rfl⟩
    · exact .pure

/-! ### Before and after the phases -/

theorem bounded_connect : Bounded Aside Plain connect := by
  refine .bind .get fun t => ?_
  split
  · exact .pure
  · refine .bind (.call rfl ?_) fun _ => .modify fun _ => ⟨rfl, rfl, rfl⟩
    rintro (e | _) x hx
    · obtain rfl := Except.error.inj hx
      cases e <;> exact ⟨rfl, rfl⟩
    · cases hx

theorem bounded_enter : Bounded Aside Plain enter := by
  refine .bind (.call rfl ?_) fun now => .bind (.modify fun _ => ⟨rfl, rfl, rfl⟩)
    fun _ => bounded_connect
  rintro r x ⟨⟩

/-- An exception of the preflight. -/
structure Early (x : PyExc) : Prop where
  wraith : x.isA .wraithError = x.isA .preflightError
  notRollback : x.isA .rollbackError = false

theorem preflightFailure_early (pid : Int) (results : List CheckResult) :
    Early (preflightFailure pid results) := by
  unfold preflightFailure
  split <;> exact ⟨rfl, rfl⟩

theorem bounded_runPreflight : Bounded Aside Early runPreflight := by
  refine .bind bounded_transition fun _ => .bind .get fun t =>
    .bind (bounded_attempt rfl fun _ => ⟨rfl, rfl⟩) fun results => ?_
  split
  · exact .pure
  · exact .raise (preflightFailure_early _ _)

theorem bounded_existingSnapshot : Bounded Aside IsBuiltin existingSnapshot := by
  refine .bind .get fun t => ?_
  cases t.snapshotPath with
  | none => exact .pure
  | some path =>
      dsimp only
      split
      · exact .pure
      · exact .bind (bounded_attempt rfl fun b => ⟨b, rfl⟩) fun _ => .pure

theorem bounded_buildResult : Bounded Aside IsBuiltin buildResult := by
  refine .bind .get fun t => .bind (bounded_pyAssert fun b => ⟨b, rfl⟩) fun pid =>
    .bind (.call rfl ?_) fun now =>
    .bind (.bind bounded_existingSnapshot ?_) fun _ => .pure
  · rintro r x ⟨⟩
  · rintro (_ | path)
    · exact .pure
    · exact bounded_attempt rfl fun b => ⟨b, rfl⟩

theorem bounded_cleanupSnapshot : Bounded Aside IsBuiltin cleanupSnapshot := by
  refine .bind bounded_existingSnapshot ?_
  rintro (_ | path)
  · exact .pure
  · exact bounded_ignore (bounded_attempt rfl fun b => ⟨b, rfl⟩) fun _ _ => ignoreOSError_eq

theorem bounded_closeSession : Bounded Aside IsBuiltin closeSession := by
  refine .bind .get fun t => ?_
  split
  · exact .bind (bounded_suppress (bounded_attempt rfl fun b => ⟨b, rfl⟩)) fun _ =>
      .modify fun _ => ⟨rfl, rfl, rfl⟩
  · exact .pure

/-! ### The phases -/

theorem bounded_runCapture : Bounded Forward Plain runCapture := by
  refine .bind bounded_transition fun _ => .bind .get fun t =>
    .bind (bounded_attempt ⟨rfl, rfl, by rintro _ _ ⟨⟩⟩ fun _ => ⟨rfl, rfl⟩) ?_
  rintro ⟨fd, path⟩
  refine .bind (bounded_attempt (Aside.forward rfl) fun _ => ⟨rfl, rfl⟩) fun _ =>
    .bind (.modify fun _ => ⟨rfl, rfl, rfl⟩) fun _ => .bind ?_ fun _ =>
    .bind (bounded_attempt (Aside.forward rfl) fun _ => ⟨rfl, rfl⟩) fun _ => .pure
  exact bounded_launch ⟨rfl, rfl, by rintro _ _ ⟨⟩⟩ ⟨rfl, rfl⟩ ⟨rfl, rfl⟩ fun _ => ⟨rfl, rfl⟩

theorem bounded_startReceiver {t : Teleporter} : Bounded Forward Plain (startReceiver t) := by
  refine bounded_orRaise (.bind (.bind .get fun t => ?_) fun _ => ?_) fun _ => ⟨rfl, rfl⟩
  · split
    · exact .pure
    · exact .raise ⟨rfl, rfl⟩
  · exact bounded_attempt ⟨rfl, rfl, by rintro _ _ ⟨⟩⟩ fun _ => ⟨rfl, rfl⟩

theorem bounded_runTransfer : Bounded Forward Plain runTransfer := by
  refine .bind bounded_transition fun _ => .bind .get fun t =>
    .bind (bounded_pyAssert fun _ => ⟨rfl, rfl⟩) fun path =>
    .bind (.modify fun _ => ⟨rfl, rfl, rfl⟩) fun _ =>
    .bind bounded_startReceiver fun _ =>
    .bind (bounded_attempt (Aside.forward rfl) fun _ => ⟨rfl, rfl⟩) fun _ => ?_
  refine bounded_launch ⟨rfl, rfl, fun argv n h => ?_⟩ ⟨rfl, rfl⟩ ⟨rfl, rfl⟩ fun _ => ⟨rfl, rfl⟩
  obtain ⟨-, rfl, -⟩ := PyOp.subprocessRun.inj h
  exact ⟨t, path, rfl⟩

theorem bounded_checkRestorer {t : Teleporter} {err : String} {code : Int} :
    Bounded p Plain (checkRestorer t err code) := by
  unfold checkRestorer
  split
  · exact .raise ⟨rfl, rfl⟩
  · split
    · exact .raise ⟨rfl, rfl⟩
    · exact .pure

theorem bounded_runRestore : Bounded Forward Plain runRestore := by
  refine .bind bounded_transition fun _ => .bind .get fun t =>
    .bind (bounded_pyAssert fun _ => ⟨rfl, rfl⟩) fun path =>
    .bind (bounded_orRaise bounded_exec fun _ => ⟨rfl, rfl⟩) ?_
  rintro ⟨out, err, code⟩
  refine .bind bounded_checkRestorer fun _ => .bind (.modify fun _ => ⟨rfl, rfl, rfl⟩) fun _ => ?_
  split
  · exact bounded_suppress (.bind bounded_exec fun _ => .pure)
  · exact .pure

theorem bounded_phases : Bounded Forward Plain phases :=
  .bind bounded_runCapture fun _ => .bind bounded_runTransfer fun _ => bounded_runRestore

/-! ### The commit and the rollback -/

theorem bounded_terminateSource : Bounded Committing IsBuiltin terminateSource := by
  refine .bind .get fun t => bounded_ignore
    (.bind (bounded_attempt ⟨rfl, by rintro _ _ ⟨⟩⟩ fun b => ⟨b, rfl⟩) fun _ =>
      .bind (bounded_attempt ⟨rfl, by rintro _ _ ⟨⟩⟩ fun b => ⟨b, rfl⟩) fun _ => ?_)
    fun _ _ => ignoreLookup_eq
  exact bounded_ignore (bounded_attempt ⟨rfl, by rintro _ _ ⟨⟩⟩ fun b => ⟨b, rfl⟩)
    fun _ _ => ignoreLookup_eq

theorem bounded_complete : Bounded Aside IsBuiltin (do transition .complete; buildResult) :=
  .bind bounded_transition fun _ => bounded_buildResult

theorem bounded_commit : Bounded Committing IsBuiltin (commit v) := by
  have hdone := bounded_complete.mono (p := Committing)
    (fun _ h => ⟨h.forward.notResume, h.forward.addressed⟩) fun _ h => h
  cases v with
  | true => exact hdone
  | false => exact .bind bounded_terminateSource fun _ => hdone

theorem bounded_rollback {text : String} :
    Bounded Undoing (fun _ => True) (rollback text) := by
  refine .bind bounded_transition fun _ => .bind .get fun t => .tryExcept
    (.bind (bounded_attempt ⟨rfl, by rintro _ _ ⟨⟩⟩ fun _ => trivial) fun c => ?_) fun x d hd => ?_
  · unfold afterResume
    split
    · exact bounded_transition
    · exact .bind bounded_transition fun _ => .raise trivial
  · unfold onResumeError at hd
    split at hd
    · obtain rfl := Option.some.inj hd
      exact .bind bounded_transition fun _ => .raise trivial
    · split at hd
      · obtain rfl := Option.some.inj hd
        exact .raise trivial
      · split at hd
        · obtain rfl := Option.some.inj hd
          exact .bind bounded_transition fun _ => .raise trivial
        · cases hd

/-! ## How a run ends -/

theorem isBuiltin_of_notWraith {x : PyExc} (h : x.isA .wraithError = false) : IsBuiltin x := by
  cases x with
  | wraith c m hint => exact absurd h (by simp)
  | builtin b => exact ⟨b, rfl⟩

/-- What comes out of `_rollback`, by what came of `resume`. -/
inductive RolledBack (res : Except Builtin Completed) : Except PyExc Unit → MigrationState → Prop
  | done : Completed.exited0 res = true → RolledBack res (.ok ()) .rolledBack
  | failed {original cause : String} :
      Completed.exited0 res = false → RolledBack res (.error (rollbackError original cause)) .failed
  | stopped {b : Builtin} {state : MigrationState} : RolledBack res (.error (.builtin b)) state

theorem rollback_cases {text : String} {r : Except PyExc Unit} {t' : Teleporter}
    (h : Cmd.Runs (rollback text t) tr (r, t')) :
    ∃ res, resumeResults tr = [res] ∧ RolledBack res r t'.state := by
  obtain ⟨tr₁, q, tr₂, hbody, hhandle, rfl⟩ := runs_tryExcept.mp h
  obtain ⟨res, tr', rfl, hrest⟩ := Cmd.runs_op.mp hbody
  cases res with
  | error b =>
      obtain ⟨rfl, rfl⟩ := Cmd.runs_ret.mp hrest
      cases b with
      | base name text' =>
          obtain ⟨rfl, heq⟩ := Cmd.runs_ret.mp hhandle
          obtain ⟨rfl, rfl⟩ := Prod.mk.inj heq
          exact ⟨_, rfl, .stopped⟩
      | _ =>
          obtain ⟨rfl, heq⟩ := Cmd.runs_ret.mp hhandle
          obtain ⟨rfl, rfl⟩ := Prod.mk.inj heq
          exact ⟨_, rfl, .failed rfl⟩
  | ok c =>
      have hrun : Cmd.Runs (afterResume text c { t with state := .rollingBack }) tr' q := hrest
      by_cases hc : c.returncode = 0
      · rw [afterResume, if_pos hc] at hrun
        obtain ⟨rfl, rfl⟩ := Cmd.runs_ret.mp hrun
        obtain ⟨rfl, heq⟩ := Cmd.runs_ret.mp hhandle
        obtain ⟨rfl, rfl⟩ := Prod.mk.inj heq
        exact ⟨_, rfl, .done (decide_eq_true hc)⟩
      · rw [afterResume, if_neg hc] at hrun
        obtain ⟨rfl, rfl⟩ := Cmd.runs_ret.mp hrun
        -- the second `except` clause raises it again
        obtain ⟨rfl, heq⟩ := Cmd.runs_ret.mp hhandle
        obtain ⟨rfl, rfl⟩ := Prod.mk.inj heq
        exact ⟨_, rfl, .failed (decide_eq_false hc)⟩

/-- The `finally` clauses raise what no handler knows. -/
theorem finish_cases {r : Except PyExc α} {u w : Except PyExc Unit} {x : PyExc}
    (hu : ∀ y, u = .error y → IsBuiltin y) (hw : ∀ y, w = .error y → IsBuiltin y)
    (h : finish (finish r u) w = .error x) : IsBuiltin x ∨ r = .error x := by
  cases w with
  | error y => exact Or.inl (Except.error.inj h ▸ hw y rfl)
  | ok _ =>
      cases u with
      | error y => exact Or.inl (Except.error.inj h ▸ hu y rfl)
      | ok _ => exact Or.inr h

theorem finish_returns {r : Except PyExc α} {u w : Except PyExc Unit} {a : α}
    (h : finish (finish r u) w = .ok a) : r = .ok a := by
  cases w with
  | error y => exact nomatch h
  | ok _ =>
      cases u with
      | error y => exact nomatch h
      | ok _ => exact h

/-- What a run of `migrate` that raises `x` has done, once it has connected. -/
inductive Ended (x : PyExc) (tr : List (Event PyResp)) (state : MigrationState) : Prop
  | passed : IsBuiltin x → Ended x tr state
  | preflight : x.isA .preflightError = true → Untouched tr → state = .rolledBack → Ended x tr state
  | resumed {res : Except Builtin Completed} : Plain x → Unsignalled tr → resumeResults tr = [res] →
      Completed.exited0 res = true → state = .rolledBack → Ended x tr state
  | frozen {res : Except Builtin Completed} : x.isA .preflightError = false →
      x.isA .rollbackError = true → Unsignalled tr → resumeResults tr = [res] →
      Completed.exited0 res = false → state = .failed → Ended x tr state

theorem untouched_nil : Untouched [] := fun _ h => nomatch h

theorem Untouched.append {tr' : List (Event PyResp)} (h : Untouched tr) (h' : Untouched tr') :
    Untouched (tr ++ tr') :=
  fun ev hmem => (List.mem_append.mp hmem).elim (h ev) (h' ev)

theorem Unsignalled.append {tr' : List (Event PyResp)} (h : Unsignalled tr) (h' : Unsignalled tr') :
    Unsignalled (tr ++ tr') :=
  fun ev hmem => (List.mem_append.mp hmem).elim (h ev) (h' ev)

theorem Untouched.resumes (h : Untouched tr) : resumeResults tr = [] := by
  refine resumeResults_eq_nil fun ev hmem => ?_
  obtain ⟨o, r⟩ := ev
  cases o with
  | subprocessRun proc argv n =>
      cases proc with
      | resume => exact nomatch h _ hmem
      | _ => rfl
  | _ => rfl

/-- What is done aside changes nothing of it. -/
theorem Ended.aside {x : PyExc} {state : MigrationState} {pre post : List (Event PyResp)}
    (h : Ended x tr state) (hpre : Untouched pre) (hpost : Untouched post) :
    Ended x (pre ++ (tr ++ post)) state := by
  have hresumes : resumeResults (pre ++ (tr ++ post)) = resumeResults tr := by
    rw [resumeResults_append, resumeResults_append, hpre.resumes, hpost.resumes, List.nil_append,
      List.append_nil]
  have hsilent (hno : Unsignalled tr) : Unsignalled (pre ++ (tr ++ post)) :=
    hpre.unsignalled.append (hno.append hpost.unsignalled)
  cases h with
  | passed hx => exact .passed hx
  | preflight hx hno hs => exact .preflight hx (hpre.append (hno.append hpost)) hs
  | resumed hx hno hres h0 hs => exact .resumed hx (hsilent hno) (hresumes.trans hres) h0 hs
  | frozen hx hr hno hres h0 hs => exact .frozen hx hr (hsilent hno) (hresumes.trans hres) h0 hs

/-- A phase has raised, and the handlers have run. -/
theorem ended_phases {x y : PyExc} {t₁ t' : Teleporter} {tr₂ : List (Event PyResp)}
    (hphases : Cmd.Runs (phases t) tr (.error x, t₁))
    (hhandle : Cmd.Runs (handle onMigrateError (.error x, t₁)) tr₂ (.error y, t')) :
    Ended y (tr ++ tr₂) t'.state := by
  have hx : Plain x := bounded_phases.raises _ _ _ _ hphases
  have huses := bounded_phases.uses _ _ _ hphases
  have hno : resumeResults tr = [] := resumeResults_eq_nil fun ev hmem => (huses ev hmem).notResume
  have hsilent : Unsignalled tr := fun ev hmem => (huses ev hmem).notKill
  simp only [handle, onMigrateError, hx.notPreflight, Bool.false_eq_true, if_false] at hhandle
  by_cases hw : x.isA .wraithError = true
  · rw [if_pos hw] at hhandle
    obtain ⟨z, hz, hroll⟩ | ⟨tr₃, _, t₂, tr₄, hroll, hraise, rfl⟩ := runs_bind_cases hhandle
    · -- `_rollback` raises itself
      obtain rfl := Except.error.inj hz
      obtain ⟨res, hres, hend⟩ := rollback_cases hroll
      generalize t'.state = state at hend ⊢
      cases hend with
      | failed h0 =>
          refine .frozen rfl rfl (hsilent.append fun ev hmem =>
            (bounded_rollback.uses _ _ _ hroll ev hmem).notKill) ?_ h0 rfl
          rw [resumeResults_append, hno, hres, List.nil_append]
      | stopped => exact .passed ⟨_, rfl⟩
    · obtain ⟨rfl, heq⟩ := runs_raise.mp hraise
      obtain ⟨hxy, rfl⟩ := Prod.mk.inj heq
      obtain rfl := Except.error.inj hxy
      obtain ⟨res, hres, hend⟩ := rollback_cases hroll
      generalize hstate : t'.state = state at hend ⊢
      cases hend with
      | done h0 =>
          rw [List.append_nil]
          refine .resumed hx (hsilent.append fun ev hmem =>
            (bounded_rollback.uses _ _ _ hroll ev hmem).notKill) ?_ h0 rfl
          rw [resumeResults_append, hno, hres, List.nil_append]
  · rw [if_neg hw] at hhandle
    obtain ⟨-, heq⟩ := Cmd.runs_ret.mp hhandle
    obtain rfl := Except.error.inj (Prod.mk.inj heq).1
    exact .passed (isBuiltin_of_notWraith ((Bool.not_eq_true _).mp hw))

/-- The handlers pass an exception of the preflight on. -/
theorem handle_early {x : PyExc} {r : Except PyExc MigrationResult} {t₁ t' : Teleporter}
    (hx : Early x) (h : Cmd.Runs (handle onMigrateError (.error x, t₁)) tr (r, t')) :
    tr = [] ∧ r = .error x ∧ (x.isA .preflightError = true → t'.state = .rolledBack) := by
  simp only [handle, onMigrateError, hx.wraith] at h
  by_cases hp : x.isA .preflightError = true
  · rw [if_pos hp] at h
    obtain ⟨rfl, heq⟩ := Cmd.runs_ret.mp h
    obtain ⟨rfl, rfl⟩ := Prod.mk.inj heq
    exact ⟨rfl, rfl, fun _ => rfl⟩
  · rw [if_neg hp, if_neg hp] at h
    obtain ⟨rfl, heq⟩ := Cmd.runs_ret.mp h
    obtain ⟨rfl, rfl⟩ := Prod.mk.inj heq
    exact ⟨rfl, rfl, fun hp' => absurd hp' hp⟩

/-- The preflight has raised. -/
theorem ended_preflight {x y : PyExc} {t₁ t' : Teleporter} {tr₂ : List (Event PyResp)}
    (hpreflight : Cmd.Runs (runPreflight t) tr (.error x, t₁))
    (hhandle : Cmd.Runs (handle onMigrateError (.error x, t₁)) tr₂ (.error y, t')) :
    Ended y (tr ++ tr₂) t'.state := by
  have hx : Early x := bounded_runPreflight.raises _ _ _ _ hpreflight
  have huses : Untouched tr := untouched_of_aside (bounded_runPreflight.uses _ _ _ hpreflight)
  obtain ⟨rfl, hxy, hstate⟩ := handle_early hx hhandle
  obtain rfl := Except.error.inj hxy
  by_cases hp : y.isA .preflightError = true
  · rw [List.append_nil]
    exact .preflight hp huses (hstate hp)
  · exact .passed (isBuiltin_of_notWraith (hx.wraith.trans ((Bool.not_eq_true _).mp hp)))

/-- The commit lets no exception of the hierarchy out. -/
theorem ended_commit {r : Except PyExc MigrationResult} {y : PyExc} {t₁ t' : Teleporter}
    {tr₂ : List (Event PyResp)} (hcommit : Cmd.Runs (commit v t) tr (r, t₁))
    (hhandle : Cmd.Runs (handle onMigrateError (r, t₁)) tr₂ (.error y, t')) : IsBuiltin y := by
  cases r with
  | ok a => cases (Cmd.runs_ret.mp hhandle).2
  | error x =>
      obtain ⟨b, rfl⟩ := bounded_commit.raises _ _ _ _ hcommit
      obtain ⟨-, heq⟩ := Cmd.runs_ret.mp hhandle
      obtain rfl := Except.error.inj (Prod.mk.inj heq).1
      exact ⟨b, rfl⟩

theorem guarded_ended {x : PyExc} {t' : Teleporter} (hc : t.connected = true)
    (h : Cmd.Runs (guarded v t) tr (.error x, t')) : Ended x tr t'.state := by
  obtain ⟨tr₁, q, tr₂, ⟨r, t₂⟩, tr₃, t₃, u, tr₄, w, hbody, hhandle, hclean, hclose, hp, rfl⟩ :=
    runs_guarded h
  have hafter : Untouched (tr₃ ++ tr₄) :=
    (untouched_of_aside (bounded_cleanupSnapshot.uses _ _ _ hclean)).append
      (untouched_of_aside (bounded_closeSession.uses _ _ _ hclose))
  obtain ⟨hst, -, -⟩ := guarded_kept (v := v) (g := {}) hclean hclose hp
  obtain hx | rfl := finish_cases (fun y hy => bounded_cleanupSnapshot.raises _ _ _ _ (hy ▸ hclean))
    (fun y hy => bounded_closeSession.raises _ _ _ _ (hy ▸ hclose)) hp.symm
  · exact .passed hx
  rw [hst]
  suffices hend : Ended x (tr₁ ++ tr₂) t₂.state by
    rw [← List.append_assoc]
    exact hend.aside untouched_nil hafter
  obtain ⟨y, hq, hrun⟩ | ⟨pre, t₁, tr', hpre, rfl, hrest⟩ := runs_migrateBody hc hbody
  · obtain ⟨_, tq⟩ := q
    obtain rfl := hq
    exact ended_preflight hrun hhandle
  have hpre' : Untouched pre := untouched_of_aside (bounded_runPreflight.uses _ _ _ hpre)
  obtain ⟨y, hq, hrun⟩ | ⟨mid, tm, post, hmid, hpost, rfl⟩ := hrest
  · obtain ⟨_, tq⟩ := q
    obtain rfl := hq
    have hend := (ended_phases hrun hhandle).aside hpre' untouched_nil
    rwa [List.append_nil, ← List.append_assoc] at hend
  · exact .passed (ended_commit hpost hhandle)

/-! ## What is told is what has happened -/

theorem migrate_raised {x : PyExc} {t' : Teleporter}
    (h : Cmd.Runs (migrate v t) tr (.error x, t')) :
    Ended x tr t'.state ∨
      Plain x ∧ Untouched tr ∧ connects tr = false ∧ t'.state = t.state := by
  rw [migrate_eq] at h
  obtain ⟨y, hy, henter⟩ | ⟨pre, _, t₁, rest, henter, hrest, rfl⟩ := runs_bind_cases h
  · obtain rfl := Except.error.inj hy
    obtain ⟨hst, -, ⟨-, hno⟩ | ⟨habs, -⟩⟩ := runs_enter (v := v) henter
    · exact Or.inr ⟨bounded_enter.raises _ _ _ _ henter,
        untouched_of_aside (bounded_enter.uses _ _ _ henter), hno, hst⟩
    · exact nomatch habs
  · obtain ⟨-, -, ⟨⟨_, habs⟩, -⟩ | ⟨-, hc, -⟩⟩ := runs_enter (v := v) henter
    · exact nomatch habs
    · have hend := (guarded_ended hc hrest).aside
        (untouched_of_aside (bounded_enter.uses _ _ _ henter)) untouched_nil
      rw [List.append_nil] at hend
      exact Or.inl hend

theorem terminateSource_signals {p : Except PyExc Unit × Teleporter}
    (h : Cmd.Runs (terminateSource t) tr p) : ∃ ev ∈ tr, ev.1 = .kill t.pid .term := by
  obtain ⟨tr₁, q, tr₂, hbody, -, rfl⟩ := runs_tryExcept.mp h
  obtain ⟨r, tr', rfl, -⟩ := Cmd.runs_op.mp hbody
  exact ⟨_, .head _, rfl⟩

theorem buildResult_returns {result : MigrationResult} {t' : Teleporter}
    (h : Cmd.Runs (buildResult t) tr (.ok result, t')) :
    result.sourcePid = t.pid ∧ result.destinationHost = t.cfg.destination.hostname := by
  obtain ⟨tr₁, pid, t₁, tr₂, -, h₁, -⟩ := runs_bind_returns
    (show Cmd.Runs ((pyAssert t.destinationPid >>= _) t) tr (.ok result, t') from h)
  obtain ⟨tr₃, now, t₂, tr₄, -, h₂, -⟩ := runs_bind_returns h₁
  obtain ⟨tr₅, size, t₃, tr₆, -, h₃, -⟩ := runs_bind_returns h₂
  obtain rfl := Except.ok.inj (Prod.mk.inj (Cmd.runs_ret.mp h₃).2).1
  exact ⟨rfl, rfl⟩

theorem commit_returns {result : MigrationResult} {t' : Teleporter}
    (h : Cmd.Runs (commit v t) tr (.ok result, t')) :
    result.sourcePid = t.pid ∧ result.destinationHost = t.cfg.destination.hostname ∧
      (v = false → ∃ ev ∈ tr, ev.1 = .kill t.pid .term) := by
  cases v with
  | true =>
      obtain ⟨hpid, hhost⟩ := buildResult_returns (t := { t with state := .complete }) h
      exact ⟨hpid, hhost, fun hv => absurd hv (by decide)⟩
  | false =>
      obtain ⟨tr₁, _, t₁, tr₂, hsig, hdone, rfl⟩ := runs_bind_returns
        (show Cmd.Runs
          ((terminateSource >>= fun _ => do transition .complete; buildResult) t) tr _ from h)
      obtain ⟨hpid, hhost⟩ := buildResult_returns (t := { t₁ with state := .complete }) hdone
      have hsame := bounded_terminateSource.alters _ _ _ _ hsig
      obtain ⟨ev, hmem, hev⟩ := terminateSource_signals hsig
      exact ⟨hpid.trans hsame.pid, hhost.trans (by rw [hsame.cfg]),
        fun _ => ⟨ev, List.mem_append_left _ hmem, hev⟩⟩

/-- The handlers never return. -/
theorem handle_returns {r : Except PyExc MigrationResult} {result : MigrationResult}
    {t₁ t' : Teleporter} (h : Cmd.Runs (handle onMigrateError (r, t₁)) tr (.ok result, t')) :
    r = .ok result ∧ tr = [] := by
  cases r with
  | ok a =>
      obtain ⟨rfl, heq⟩ := Cmd.runs_ret.mp h
      exact ⟨congrArg Except.ok (Except.ok.inj (Prod.mk.inj heq).1).symm, rfl⟩
  | error x =>
      rw [handle, onMigrateError] at h
      split at h
      · cases (Cmd.runs_ret.mp h).2
      · rename_i c hc
        suffices hraise : ∃ d : Py Unit, c = (do d; raise x) by
          obtain ⟨d, rfl⟩ := hraise
          obtain ⟨_, _, _, _, -, hrun, -⟩ := runs_bind_returns h
          cases (runs_raise.mp hrun).2
        split at hc
        · exact ⟨_, (Option.some.inj hc).symm⟩
        · split at hc
          · exact ⟨_, (Option.some.inj hc).symm⟩
          · cases hc

/-- The phases have returned: all milestones are reached. -/
theorem phases_milestones {t₁ t₂ : Teleporter} {pre mid : List (Event PyResp)}
    (hc : t.connected = true) (hpre : Cmd.Runs (runPreflight t) pre (.ok (), t₁))
    (hmid : Cmd.Runs (phases t₁) mid (.ok (), t₂)) : InOrder milestones (pre ++ mid) := by
  obtain ⟨hg, hc₁⟩ : PreflightPost t {} (.ok ()) t₁ ((ledger false).after {} pre) :=
    (runPreflight_wp ⟨rfl, rfl, rfl, rfl, rfl, rfl⟩).after hpre
  have hpost : PhasesPost t₁ (.ok ()) t₂ ((ledger false).after { preflight := true } mid) :=
    (phases_wp ⟨rfl, rfl, rfl, rfl, rfl, rfl⟩ rfl (hc₁.trans hc)).after hmid
  refine (records_of_run (v := false) (pre ++ mid)).restored ?_
  rw [Cmd.Monitor.after_append, hg]
  exact hpost.1.restored

theorem migrate_returned {result : MigrationResult} {t' : Teleporter}
    (h : Cmd.Runs (migrate v t) tr (.ok result, t')) :
    (Verdict.successful result).Truthful v t tr t' := by
  have hlast := migrate_commits_last h
  have hsilent : v = true → Unsignalled tr := by
    rintro rfl ⟨o, r⟩ hmem
    cases o with
    | kill pid sig =>
        obtain ⟨pre, post, rfl⟩ := List.append_of_mem hmem
        exact absurd (hlast.signal rfl).1 (by decide)
    | _ => rfl
  rw [migrate_eq] at h
  obtain ⟨tr₀, _, t₁, rest, henter, hrest, rfl⟩ := runs_bind_returns h
  obtain ⟨-, -, ⟨⟨_, habs⟩, -⟩ | ⟨-, hc, -⟩⟩ := runs_enter (v := v) henter
  · exact nomatch habs
  obtain ⟨tr₁, ⟨r, tq⟩, tr₂, ⟨r', t₃⟩, tr₃, t₄, u, tr₄, w, hbody, hhandle, hclean, hclose,
    hp, rfl⟩ :=
    runs_guarded hrest
  obtain rfl := finish_returns hp.symm
  obtain ⟨rfl, rfl⟩ := handle_returns hhandle
  obtain ⟨x, hx, -⟩ | ⟨pre, t₂, tr', hpre, rfl, ⟨x, hx, -⟩ | ⟨mid, t₅, post, hmid, hpost, rfl⟩⟩ :=
    runs_migrateBody hc hbody
  · cases hx
  · cases hx
  have hsame₁ := bounded_enter.alters _ _ _ _ henter
  have hsame₂ := bounded_runPreflight.alters _ _ _ _ hpre
  have hsame₅ := bounded_phases.alters _ _ _ _ hmid
  have hsame : t.Same t₅ := IsTrans.trans _ _ _ hsame₁ (IsTrans.trans _ _ _ hsame₂ hsame₅)
  obtain ⟨hpid, hhost, hterm⟩ := commit_returns hpost
  refine ⟨hlast.complete result rfl, ?_, resumeResults_eq_nil ?_, hpid.trans hsame.pid,
    hhost.trans (by rw [hsame.cfg]), ?_⟩
  · have hreached := ((phases_milestones hc hpre hmid).append (post ++ (tr₃ ++ tr₄))).prepend tr₀
    simpa only [List.append_assoc, List.nil_append] using hreached
  · intro ev hmem
    simp only [List.mem_append, List.not_mem_nil, false_or] at hmem
    obtain hev | (hev | hev | hev) | hev | hev := hmem
    · exact (Aside.forward (bounded_enter.uses _ _ _ henter _ hev)).notResume
    · exact (Aside.forward (bounded_runPreflight.uses _ _ _ hpre _ hev)).notResume
    · exact (bounded_phases.uses _ _ _ hmid _ hev).notResume
    · exact (bounded_commit.uses _ _ _ hpost _ hev).notResume
    · exact (Aside.forward (bounded_cleanupSnapshot.uses _ _ _ hclean _ hev)).notResume
    · exact (Aside.forward (bounded_closeSession.uses _ _ _ hclose _ hev)).notResume
  · cases v with
    | true => exact hsilent rfl
    | false =>
        obtain ⟨ev, hmem, hev⟩ := hterm rfl
        exact ⟨ev, by simp only [List.mem_append, hmem, true_or, or_true], by rw [hev, hsame.pid]⟩

theorem onCommandError_plain {x : PyExc} (h : Plain x) :
    IsBuiltin x ∧ onCommandError x = none ∨ onCommandError x = some (pure (.unfrozen x)) := by
  cases hw : x.isA .wraithError with
  | false =>
      obtain ⟨b, rfl⟩ := isBuiltin_of_notWraith hw
      exact Or.inl ⟨⟨b, rfl⟩, rfl⟩
  | true =>
      right
      simp only [onCommandError, h.notPreflight, h.notRollback, hw, Bool.false_eq_true, if_false,
        if_true]

/-- The clause that catches an exception of a run tells what the run has done. -/
theorem onCommandError_truthful {x : PyExc} {t' : Teleporter}
    (h : Cmd.Runs (migrate v t) tr (.error x, t')) :
    IsBuiltin x ∧ onCommandError x = none ∨
      ∃ verdict, onCommandError x = some (pure verdict) ∧ verdict.Truthful v t tr t' := by
  obtain hend | ⟨hx, hno, hconn, hst⟩ := migrate_raised h
  · generalize hs : t'.state = state at hend
    cases hend with
    | passed hx =>
        obtain ⟨b, rfl⟩ := hx
        exact Or.inl ⟨⟨b, rfl⟩, rfl⟩
    | preflight hx hno hst =>
        exact Or.inr ⟨.preflightFailed x, by rw [onCommandError, if_pos hx], hs.trans hst, hno⟩
    | frozen hx hr hno hres h0 hst =>
        refine Or.inr ⟨.critical x, ?_, hs.trans hst, hno, _, hres, h0⟩
        rw [onCommandError, hx, if_neg Bool.false_ne_true, if_pos hr]
    | resumed hx hno hres h0 hst =>
        exact (onCommandError_plain hx).imp_right fun hcaught =>
          ⟨.unfrozen x, hcaught, hno, Or.inl ⟨⟨_, hres, h0⟩, hs.trans hst⟩⟩
  · exact (onCommandError_plain hx).imp_right fun hcaught =>
      ⟨.unfrozen x, hcaught, hno.unsignalled, Or.inr ⟨hconn, hno, hst⟩⟩

/-- The guarantees of a run of the command that has ended in `p`. -/
structure TellsTruth (verifyOnly : Bool) (t : Teleporter) (tr : List (Event PyResp))
    (p : Except PyExc Verdict × Teleporter) : Prop where
  told : ∀ verdict, p.1 = .ok verdict → verdict.Truthful verifyOnly t tr p.2
  untold : ∀ x, p.1 = .error x → IsBuiltin x

/-- What the command tells is what has happened; otherwise an exception that is no `WraithError` has
gone past it. -/
theorem migrateCommand_truthful {p : Except PyExc Verdict × Teleporter}
    (h : Cmd.Runs (migrateCommand v t) tr p) : TellsTruth v t tr p := by
  obtain ⟨tr₁, ⟨q, t₁⟩, tr₂, hbody, hhandle, rfl⟩ := runs_tryExcept.mp h
  cases q with
  | ok verdict =>
      obtain ⟨rfl, rfl⟩ := Cmd.runs_ret.mp hhandle
      obtain ⟨tr₃, result, t₂, tr₄, hrun, hpure, rfl⟩ := runs_bind_returns hbody
      obtain ⟨rfl, heq⟩ := runs_pure.mp hpure
      obtain ⟨hv, rfl⟩ := Prod.mk.inj heq
      obtain rfl := Except.ok.inj hv
      refine ⟨fun verdict hverdict => ?_, by rintro _ ⟨⟩⟩
      obtain rfl := Except.ok.inj hverdict
      simpa only [List.append_nil] using migrate_returned hrun
  | error x =>
      obtain ⟨y, hy, hrun⟩ | ⟨tr₃, result, t₂, tr₄, -, hpure, -⟩ := runs_bind_cases hbody
      · obtain rfl := Except.error.inj hy
        obtain ⟨hx, hnone⟩ | ⟨verdict, hcaught, htrue⟩ := onCommandError_truthful hrun
        · rw [handle, hnone] at hhandle
          obtain ⟨rfl, rfl⟩ := Cmd.runs_ret.mp hhandle
          refine ⟨by rintro _ ⟨⟩, fun y hy => ?_⟩
          obtain rfl := Except.error.inj hy
          exact hx
        · rw [handle, hcaught] at hhandle
          obtain ⟨rfl, rfl⟩ := runs_pure.mp hhandle
          refine ⟨fun verdict' hverdict => ?_, by rintro _ ⟨⟩⟩
          obtain rfl := Except.ok.inj hverdict
          simpa only [List.append_nil] using htrue
      · cases (runs_pure.mp hpure).2

/-- The capturer fails, and so does `resume`. -/
def resumeFails : (o : PyOp) → PyResp o
  | .subprocessRun .resume _ _ => .ok { returncode := 1, stderr := "No such process" }
  | o => captureFails o

/-- The command says so, and exits 3. -/
theorem migrateCommand_critical :
    let run := Cmd.exec (fun (_ : Unit) o =>
      (resumeFails o, ())) (migrateCommand false example42) ()
    (∃ e, run.2.1 = .ok (.critical e) ∧ (Verdict.critical e).exitCode = 3) ∧
      TellsTruth false example42 run.1 run.2 :=
  ⟨⟨_, rfl, rfl⟩, migrateCommand_truthful (Cmd.exec_runs _ _ _)⟩

end Wraith.Control

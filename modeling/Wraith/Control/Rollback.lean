/-
# `Wraith.Control.Rollback` — what happens when a phase raises

The rollback rests on `except WraithError`: an exception of any other type that comes out of a phase
passes it by.  `migrate_rolls_back_iff` says for which runs the rollback is done as documented:
those in which every operation up to the first look at the local snapshot comes to something
provided for (`Control.handled`), where a teleporter that an earlier run has left in a phase must
also get as far as connecting.

`PhaseRaises` is about runs of the three phases, not about the trace of `migrate` alone.  Since the
responses determine a run (`Cmd.Runs.unique`), the run of the phases inside a run of `migrate` is
the one `PhaseRaises` speaks of.
-/
import Wraith.Control.Commit

namespace Wraith.Control

open Lib Script

/-! ## The claim -/

/-- What precedes the `try` statement. -/
def enter : Py Unit := do
  let now : Float ← call .monotonic fun r => .ok r
  modify fun t => { t with startTime := now, connected := false }
  connect

/-- What precedes the phases. -/
def untilPhases : Py Unit := do
  enter
  connect
  runPreflight

/-- In this run the capture, transfer or restore phase has raised `x`. -/
def PhaseRaises (t : Teleporter) (tr : List (Event PyResp)) (x : PyExc) : Prop :=
  ∃ pre t₁ mid t₂ post, Cmd.Runs (untilPhases t) pre (.ok (), t₁) ∧
    Cmd.Runs (phases t₁) mid (.error x, t₂) ∧ tr = pre ++ (mid ++ post)

/-- What came of `wraith-capturer resume`, each time it was run. -/
def resumeResults : List (Event PyResp) → List (Except Builtin Completed)
  | [] => []
  | ⟨.subprocessRun .resume _ _, r⟩ :: tr => r :: resumeResults tr
  | _ :: tr => resumeResults tr

/-- A phase that raises is rolled back, once; and no phase is left under way. -/
structure RollsBack (t : Teleporter) (tr : List (Event PyResp))
    (p : Except PyExc MigrationResult × Teleporter) : Prop where
  resumed : ∀ x, PhaseRaises t tr x → (∃ y, p.1 = .error y) ∧ ∃ r, resumeResults tr = [r] ∧
    p.2.state = if Completed.exited0 r then .rolledBack else .failed
  settled : (∃ y, p.1 = .error y) → p.2.state.inFlight = false

def isPathExists : PyOp → Bool
  | .pathExists _ => true
  | _ => false

/-- Up to result building or cleanup, every operation comes to something provided for. -/
def allHandled (tr : List (Event PyResp)) : Bool :=
  (tr.takeWhile fun ev => !isPathExists ev.1).all fun ev => handled ev.1 ev.2

/-- The SSH connection is made. -/
def connects (tr : List (Event PyResp)) : Bool :=
  tr.any fun ev => match ev with
    | ⟨.sshConnect _, .ok _⟩ => true
    | _ => false

/-! ## The ledger over a run -/

variable {v : Bool} {t : Teleporter} {tr : List (Event PyResp)}

theorem resumes_run (g : Ledger) (tr : List (Event PyResp)) :
    ((ledger v).after g tr).resumes = g.resumes ++ resumeResults tr := by
  induction tr generalizing g with
  | nil => exact (List.append_nil _).symm
  | cons ev tr ih =>
      rw [Cmd.Monitor.after_cons, ih, ledger_next]
      obtain ⟨o, r⟩ := ev
      cases o with
      | runAll pid => cases r <;> rfl
      | subprocessRun proc argv n =>
          cases proc with
          | resume => exact List.append_assoc _ [r] _
          | _ => rfl
      | execCommand remote cmd n => cases remote <;> rfl
      | _ => rfl

theorem after_past (g : Ledger) (o : PyOp) (r : PyResp o) :
    (g.after o r).past = (g.past || isPathExists o) := by
  cases o with
  | runAll pid => cases r <;> exact (Bool.or_false _).symm
  | subprocessRun proc argv n => cases proc <;> exact (Bool.or_false _).symm
  | execCommand remote cmd n => cases remote <;> exact (Bool.or_false _).symm
  | pathExists path => exact (Bool.or_true _).symm
  | _ => exact (Bool.or_false _).symm

theorem after_handled (g : Ledger) (o : PyOp) (r : PyResp o) :
    (g.after o r).handled = (g.handled && (g.past || Control.handled o r)) := by
  cases o with
  | runAll pid => cases r <;> rfl
  | subprocessRun proc argv n => cases proc <;> rfl
  | execCommand remote cmd n => cases remote <;> rfl
  | pathExists path => simp only [Ledger.after, Ledger.milestone, Ledger.account, Control.handled,
      Bool.or_true]
  | _ => rfl

theorem handled_run_of_past {g : Ledger} (hg : g.past = true) (tr : List (Event PyResp)) :
    ((ledger v).after g tr).handled = g.handled := by
  induction tr generalizing g with
  | nil => rfl
  | cons ev tr ih =>
      have hpast : (g.after ev.1 ev.2).past = true := by rw [after_past, hg, Bool.true_or]
      rw [Cmd.Monitor.after_cons, ledger_next, ih hpast, after_handled, hg, Bool.true_or,
        Bool.and_true]

theorem handled_run {g : Ledger} (hg : g.past = false) (tr : List (Event PyResp)) :
    ((ledger v).after g tr).handled = (g.handled && allHandled tr) := by
  induction tr generalizing g with
  | nil => exact (Bool.and_true _).symm
  | cons ev tr ih =>
      have hpast := after_past g ev.1 ev.2
      have hhandled := after_handled g ev.1 ev.2
      rw [hg, Bool.false_or] at hpast hhandled
      rw [Cmd.Monitor.after_cons, ledger_next, allHandled, List.takeWhile_cons]
      cases hev : isPathExists ev.1 with
      | true =>
          rw [handled_run_of_past (hpast.trans hev), hhandled]
          obtain ⟨o, r⟩ := ev
          cases o with
          | pathExists path => rfl
          | _ => exact nomatch hev
      | false =>
          rw [ih (hpast.trans hev), hhandled, Bool.and_assoc]
          rfl

/-! ## The run in parts -/

/-- The `try` statement. -/
def guarded (v : Bool) : Py MigrationResult :=
  tryFinally
    (tryFinally (tryExcept (migrateBody v) onMigrateError) cleanupSnapshot)
    closeSession

theorem migrate_eq (v : Bool) : migrate v = (do enter; guarded v) := rfl

theorem connect_connected (hc : t.connected = true) : connect t = .ret (.ok (), t) := by
  show (if t.connected then pure () else connectClient t.cfg.destination : Py Unit) t = _
  rw [if_pos hc]
  rfl

theorem runs_enter {p : Except PyExc Unit × Teleporter} (h : Cmd.Runs (enter t) tr p) :
    p.2.state = t.state ∧ (ledger v).after {} tr = {} ∧
      ((∃ x, p.1 = .error x) ∧ connects tr = false ∨
        p.1 = .ok () ∧ p.2.connected = true ∧ connects tr = true) := by
  obtain ⟨now, tr', rfl, h₁⟩ := Cmd.runs_op.mp h
  obtain ⟨r, tr'', rfl, h₂⟩ := Cmd.runs_op.mp h₁
  cases r with
  | error e =>
      obtain ⟨rfl, rfl⟩ := Cmd.runs_ret.mp h₂
      exact ⟨rfl, rfl, Or.inl ⟨⟨_, rfl⟩, rfl⟩⟩
  | ok _ =>
      obtain ⟨rfl, rfl⟩ := Cmd.runs_ret.mp h₂
      exact ⟨rfl, rfl, Or.inr ⟨rfl, rfl, rfl⟩⟩

/-- Where a run of the body has stopped: in the preflight, in a phase, or at or past the commit
point. -/
theorem runs_migrateBody {q : Except PyExc MigrationResult × Teleporter} (hc : t.connected = true)
    (h : Cmd.Runs (migrateBody v t) tr q) :
    (∃ x, q.1 = .error x ∧ Cmd.Runs (runPreflight t) tr (.error x, q.2)) ∨
    ∃ pre t₁ tr', Cmd.Runs (runPreflight t) pre (.ok (), t₁) ∧ tr = pre ++ tr' ∧
      ((∃ x, q.1 = .error x ∧ Cmd.Runs (phases t₁) tr' (.error x, q.2)) ∨
      ∃ mid t₂ post, Cmd.Runs (phases t₁) mid (.ok (), t₂) ∧ Cmd.Runs (commit v t₂) post q ∧
        tr' = mid ++ post) := by
  have hconn : Cmd.Runs (connect t) [] (.ok (), t) := by
    rw [connect_connected hc]
    exact .ret _
  have hrest := Cmd.Runs.rest (show Cmd.Runs (migrateBody v t) ([] ++ tr) q from h) hconn
  obtain ⟨x, hq, hx⟩ | ⟨pre, _, t₁, tr', hpre, hrest', rfl⟩ := runs_bind_cases hrest
  · exact Or.inl ⟨x, hq, hx⟩
  refine Or.inr ⟨pre, t₁, tr', hpre, rfl, ?_⟩
  obtain ⟨x, hq, hx⟩ | ⟨mid, _, t₂, post, hmid, hpost, rfl⟩ := runs_bind_cases hrest'
  · exact Or.inl ⟨x, hq, hx⟩
  · exact Or.inr ⟨mid, t₂, post, hmid, hpost, rfl⟩

/-- Where a run of `migrate` has stopped, for `PhaseRaises`. -/
theorem runs_untilPhases {pre₁ pre₂ : List (Event PyResp)} {t₁ : Teleporter}
    {p : Except PyExc Unit × Teleporter} (h₁ : Cmd.Runs (enter t) pre₁ (.ok (), t₁))
    (hc : t₁.connected = true) (h₂ : Cmd.Runs (runPreflight t₁) pre₂ p) :
    Cmd.Runs (untilPhases t) (pre₁ ++ pre₂) p := by
  have hconn : Cmd.Runs (connect t₁) [] (.ok (), t₁) := by
    rw [connect_connected hc]
    exact .ret _
  exact runs_bind_ok h₁ (runs_bind_ok hconn h₂)

theorem not_phaseRaises_of_error {x y : PyExc} {t' : Teleporter} {rest : List (Event PyResp)}
    (h : Cmd.Runs (untilPhases t) tr (.error y, t')) : ¬ PhaseRaises t (tr ++ rest) x := by
  rintro ⟨pre, t₁, mid, t₂, post, hpre, -, htr⟩
  exact nomatch (h.unique hpre htr).2.1

theorem not_phaseRaises_of_ok {x : PyExc} {t₁ t₂ : Teleporter} {mid rest : List (Event PyResp)}
    (h : Cmd.Runs (untilPhases t) tr (.ok (), t₁)) (hmid : Cmd.Runs (phases t₁) mid (.ok (), t₂)) :
    ¬ PhaseRaises t (tr ++ (mid ++ rest)) x := by
  rintro ⟨pre, t₁', mid', t₂', post, hpre, hmid', htr⟩
  obtain ⟨-, ht, hrest⟩ := h.unique hpre htr
  obtain rfl := (Prod.mk.inj ht).2
  exact nomatch (hmid.unique hmid' hrest).2.1

/-- The `finally` clauses have run: an exception stays one. -/
theorem runs_guarded {p : Except PyExc MigrationResult × Teleporter}
    (h : Cmd.Runs (guarded v t) tr p) : ∃ tr₁ q tr₂ q' tr₃ t₃ u tr₄ w,
      Cmd.Runs (migrateBody v t) tr₁ q ∧ Cmd.Runs (handle onMigrateError q) tr₂ q' ∧
      Cmd.Runs (cleanupSnapshot q'.2) tr₃ (u, t₃) ∧ Cmd.Runs (closeSession t₃) tr₄ (w, p.2) ∧
      p.1 = finish (finish q'.1 u) w ∧ tr = tr₁ ++ (tr₂ ++ (tr₃ ++ tr₄)) := by
  obtain ⟨tr', r, t₃, tr₄, w, h', hclose, hp, rfl⟩ := runs_tryFinally.mp h
  obtain ⟨tr'', r', t₂, tr₃, u, h'', hclean, hr, rfl⟩ := runs_tryFinally.mp h'
  obtain ⟨tr₁, q, tr₂, hbody, hhandle, rfl⟩ := runs_tryExcept.mp h''
  refine ⟨tr₁, q, tr₂, (r', t₂), tr₃, t₃, u, tr₄, w, hbody, hhandle, hclean, hclose, ?_, ?_⟩
  · rw [hp]
    exact congrArg (finish · w) hr
  · simp only [List.append_assoc]

/-! ## When it is done -/

/-- What is kept by the `finally` clauses: the state, the failures, and that there was an
exception. -/
theorem guarded_kept {p : Except PyExc MigrationResult × Teleporter}
    {q : Except PyExc MigrationResult} {t₃ : Teleporter} {u w : Except PyExc Unit} {g : Ledger}
    {tr₃ tr₄ : List (Event PyResp)} (hclean : Cmd.Runs (cleanupSnapshot t) tr₃ (u, t₃))
    (hclose : Cmd.Runs (closeSession t₃) tr₄ (w, p.2)) (hp : p.1 = finish (finish q u) w) :
    p.2.state = t.state ∧ g.Kept ((ledger v).after ((ledger v).after g tr₃) tr₄) ∧
      ((∃ y, q = .error y) → ∃ y, p.1 = .error y) := by
  obtain ⟨hs, hk, -⟩ := cleanupSnapshot_wp.after hclean (M := ledger v) (g := g)
  obtain ⟨hs', hk', -⟩ := closeSession_wp.after hclose (M := ledger v)
  refine ⟨hs'.trans hs, hk.trans hk', ?_⟩
  rintro ⟨y, rfl⟩
  rw [hp]
  cases u with
  | ok _ =>
      cases w with
      | ok _ => exact ⟨y, rfl⟩
      | error z => exact ⟨z, rfl⟩
  | error z =>
      cases w with
      | ok _ => exact ⟨z, rfl⟩
      | error z' => exact ⟨z', rfl⟩

/-- The preflight has raised. -/
structure PreflightRaised (t : Teleporter) (tr : List (Event PyResp)) (t' : Teleporter)
    (g : Ledger) :
    Prop where
  run : ∃ pre x t₁ post, Cmd.Runs (runPreflight t) pre (.error x, t₁) ∧ tr = pre ++ post
  handled : g.handled = true
  settled : t'.state.inFlight = false

/-- A phase has raised. -/
structure PhaseUnwound (t : Teleporter) (tr : List (Event PyResp))
    (p : Except PyExc MigrationResult × Teleporter) (g : Ledger) : Prop where
  run : ∃ pre t₁ mid x t₂ post, Cmd.Runs (runPreflight t) pre (.ok (), t₁) ∧
    Cmd.Runs (phases t₁) mid (.error x, t₂) ∧ tr = pre ++ (mid ++ post)
  raised : ∃ y, p.1 = .error y
  resumed : g.Resumed p.2.state

/-- All phases have returned. -/
structure Committed (t : Teleporter) (tr : List (Event PyResp))
    (p : Except PyExc MigrationResult × Teleporter) (g : Ledger) : Prop where
  run : ∃ pre t₁ mid t₂ post, Cmd.Runs (runPreflight t) pre (.ok (), t₁) ∧
    Cmd.Runs (phases t₁) mid (.ok (), t₂) ∧ tr = pre ++ (mid ++ post)
  state : p.2.state = if g.handled then .complete else .restoring
  raised : g.handled = false → ∃ y, p.1 = .error y

theorem CommitPost.state {r : Except PyExc MigrationResult} {g : Ledger} (h : CommitPost r t g) :
    t.state = if g.handled then .complete else .restoring := by
  cases r with
  | ok a => rw [h.1, h.2.2, if_pos rfl]
  | error x => exact h.2.2.2

theorem CommitPost.raised {r : Except PyExc MigrationResult} {g : Ledger} (h : CommitPost r t g)
    (hg : g.handled = false) : ∃ y, r = .error y := by
  cases r with
  | ok a => exact absurd (h.2.2.symm.trans hg) (by decide)
  | error x => exact ⟨x, rfl⟩

theorem guarded_cases {p : Except PyExc MigrationResult × Teleporter} (hc : t.connected = true)
    (h : Cmd.Runs (guarded v t) tr p) :
    PreflightRaised t tr p.2 ((ledger v).after {} tr) ∨
      PhaseUnwound t tr p ((ledger v).after {} tr) ∨
      Committed t tr p ((ledger v).after {} tr) := by
  obtain ⟨tr₁, ⟨r, tq⟩, tr₂, q', tr₃, t₃, u, tr₄, w, hbody, hhandle, hclean, hclose, hp, rfl⟩ :=
    runs_guarded h
  have hearly : ({} : Ledger).Early := ⟨rfl, rfl, rfl, rfl, rfl, rfl⟩
  obtain ⟨hst, hkept, hraise⟩ :=
    guarded_kept (v := v) (g := (ledger v).after ((ledger v).after {} tr₁) tr₂) hclean hclose hp
  simp only [← Cmd.Monitor.after_append] at hkept
  rw [List.append_assoc, List.append_assoc, Cmd.Monitor.after_append _ tr₁ tr₂] at hkept
  generalize (ledger v).after {} (tr₁ ++ (tr₂ ++ (tr₃ ++ tr₄))) = g at hkept ⊢
  obtain ⟨x, rfl, hx⟩ | ⟨pre, t₁, tr', hpre, rfl, hrest⟩ := runs_migrateBody hc hbody
  · -- the preflight raised
    obtain ⟨hg₁, hs₁, hx₁⟩ : PreflightPost t {} (.error x) tq ((ledger v).after {} tr₁) :=
      (runPreflight_wp hearly).after hx
    obtain ⟨-, hg₂, hs₂⟩ := (preflight_handles hs₁ hx₁).after hhandle (M := ledger v)
    refine Or.inl ⟨⟨tr₁, x, tq, _, hx, rfl⟩, ?_, by rw [hst]; exact hs₂⟩
    rw [hkept.handled, hg₂, hg₁.handled]
  obtain ⟨hg₁, hc₁⟩ : PreflightPost t {} (.ok ()) t₁ ((ledger v).after {} pre) :=
    (runPreflight_wp hearly).after hpre
  have hearly₁ : ({ preflight := true } : Ledger).Early := ⟨rfl, rfl, rfl, rfl, rfl, rfl⟩
  rw [Cmd.Monitor.after_append, hg₁] at hkept
  obtain ⟨x, rfl, hx⟩ | ⟨mid, t₂, post, hmid, hpost, rfl⟩ := hrest
  · -- a phase raised
    obtain ⟨hs₂, hx₂⟩ : PhasesPost t₁ (.error x) tq ((ledger v).after { preflight := true } tr') :=
      (phases_wp hearly₁ rfl (hc₁.trans hc)).after hx
    obtain ⟨herr, hun⟩ := (unwind_wp hx₂ hs₂).after hhandle (M := ledger v)
    refine Or.inr (Or.inl ⟨⟨pre, t₁, tr', x, tq, _, hpre, hx, List.append_assoc _ _ _⟩,
      hraise herr, ?_⟩)
    rw [hst]
    exact hun.resumed.kept hkept
  · -- the commit has begun
    obtain ⟨hrest, hs₂, -, pid, hpid⟩ :
        PhasesPost t₁ (.ok ()) t₂ ((ledger v).after { preflight := true } mid) :=
      (phases_wp hearly₁ rfl (hc₁.trans hc)).after hmid
    rw [Cmd.Monitor.after_append] at hkept
    have hcommit := ((commit_wp hrest hs₂ hpid).after hpost).handles.after hhandle (M := ledger v)
    refine Or.inr (Or.inr ⟨⟨pre, t₁, mid, t₂, post ++ (tr₂ ++ (tr₃ ++ tr₄)), hpre, hmid,
      by simp only [List.append_assoc]⟩, ?_, fun hlost => hraise ?_⟩)
    · rw [hst, hkept.handled]
      exact hcommit.state
    · exact hcommit.raised (hkept.handled.symm.trans hlost)

theorem rollsBack_of_settled {p : Except PyExc MigrationResult × Teleporter}
    (hno : ∀ x, ¬ PhaseRaises t tr x) :
    RollsBack t tr p ↔ ((∃ y, p.1 = .error y) → p.2.state.inFlight = false) :=
  ⟨fun h => h.settled, fun h => ⟨fun x hx => absurd hx (hno x), h⟩⟩

/-- `resume`, for a phase that was handled: as documented, unless it is stopped from outside. -/
theorem rollsBack_of_resumed {p : Except PyExc MigrationResult × Teleporter} {g : Ledger}
    {x : PyExc} (hraise : PhaseRaises t tr x) (herr : ∃ y, p.1 = .error y)
    (hres : g.Resumed p.2.state)
    (hg : g.resumes = resumeResults tr) : RollsBack t tr p ↔ g.handled = true := by
  obtain ⟨hlost, hfl⟩ | ⟨r, hr, hhandled, hst⟩ := hres
  · rw [hlost]
    exact ⟨fun h => absurd (h.settled herr)
      (by rw [hfl]; decide), fun h => absurd h Bool.false_ne_true⟩
  rw [hhandled]
  constructor
  · intro h
    obtain ⟨r', hr', hst'⟩ := (h.resumed x hraise).2
    obtain rfl := List.singleton_inj.mp (hr.symm.trans (hg.trans hr'))
    by_contra hr
    rw [hst, stateAfterResume, if_neg hr] at hst'
    split at hst' <;> cases hst'
  · intro hok
    rw [stateAfterResume, if_pos hok] at hst
    refine ⟨fun _ _ => ⟨herr, r, hg.symm.trans hr, hst⟩, fun _ => ?_⟩
    rw [hst]
    split <;> rfl

/-- A run of `migrate` rolls back as documented exactly if all of its operations before the cleanup
come to something provided for. -/
theorem migrate_rolls_back_iff {p : Except PyExc MigrationResult × Teleporter}
    (h : Cmd.Runs (migrate v t) tr p) :
    RollsBack t tr p ↔
      allHandled tr = true ∧ (t.state.inFlight = true → connects tr = true) := by
  rw [migrate_eq] at h
  have hhandled : ((ledger v).after {} tr).handled = allHandled tr := handled_run rfl tr
  have hresumes : ((ledger v).after {} tr).resumes = resumeResults tr := resumes_run {} tr
  obtain ⟨x, hp, hx⟩ | ⟨pre, _, t₁, rest, hpre, hrest, rfl⟩ := runs_bind_cases h
  · -- not connected
    obtain ⟨hst, hled, ⟨-, hno⟩ | ⟨habs, -⟩⟩ := runs_enter (v := v) hx
    · have hnone : ∀ y, ¬ PhaseRaises t tr y := fun y => by
        have hrun : Cmd.Runs (untilPhases t) tr (.error x, p.2) := runs_bind_error hx
        rw [← List.append_nil tr]
        exact not_phaseRaises_of_error hrun
      rw [rollsBack_of_settled hnone, ← hhandled, hled, hno, hst]
      exact ⟨fun h => ⟨rfl, fun hfl => absurd (h ⟨x, hp⟩) (by rw [hfl]; decide)⟩,
        fun h _ => (Bool.not_eq_true _).mp fun hfl => nomatch h.2 hfl⟩
    · exact nomatch habs
  obtain ⟨-, hled, ⟨⟨_, habs⟩, -⟩ | ⟨-, hc, hyes⟩⟩ := runs_enter (v := v) hpre
  · exact nomatch habs
  have hconn : t.state.inFlight = true → connects (pre ++ rest) = true := fun _ => by
    rw [connects, List.any_append]
    exact (Bool.or_eq_true _ _).mpr (Or.inl hyes)
  rw [and_iff_left hconn, ← hhandled]
  rw [Cmd.Monitor.after_append, hled] at hhandled hresumes ⊢
  obtain hend | hend | hend := guarded_cases (v := v) hc hrest
  · obtain ⟨pre', x, t₂, post, hx, rfl⟩ := hend.run
    have hnone : ∀ y, ¬ PhaseRaises t (pre ++ (pre' ++ post)) y := fun y => by
      rw [← List.append_assoc]
      exact not_phaseRaises_of_error (runs_untilPhases hpre hc hx)
    rw [rollsBack_of_settled hnone]
    exact ⟨fun _ => hend.handled, fun _ _ => hend.settled⟩
  · obtain ⟨pre', t₂, mid, x, t₃, post, hpre', hx, rfl⟩ := hend.run
    have hraise : PhaseRaises t (pre ++ (pre' ++ (mid ++ post))) x :=
      ⟨pre ++ pre', t₂, mid, t₃, post, runs_untilPhases hpre hc hpre', hx,
        (List.append_assoc _ _ _).symm⟩
    exact rollsBack_of_resumed hraise hend.raised hend.resumed hresumes
  · obtain ⟨pre', t₂, mid, t₃, post, hpre', hmid, rfl⟩ := hend.run
    have hnone : ∀ y, ¬ PhaseRaises t (pre ++ (pre' ++ (mid ++ post))) y := fun y => by
      rw [← List.append_assoc]
      exact not_phaseRaises_of_ok (runs_untilPhases hpre hc hpre') hmid
    rw [rollsBack_of_settled hnone, hend.state]
    constructor
    · intro hset
      by_contra hlost
      have hfl := hset (hend.raised ((Bool.not_eq_true _).mp hlost))
      rw [if_neg hlost] at hfl
      exact nomatch hfl
    · intro hok _
      rw [if_pos hok]
      rfl

/-- The capturer exits 1. -/
def captureFails : (o : PyOp) → PyResp o
  | .subprocessRun .capture _ _ => .ok { returncode := 1, stderr := "Not a ptrace stop" }
  | o => succeeds o

theorem migrate_rolls_back_capture :
    let run := Cmd.exec (fun (_ : Unit) o => (captureFails o, ())) (migrate false example42) ()
    RollsBack example42 run.1 run.2 :=
  (migrate_rolls_back_iff (Cmd.exec_runs _ _ _)).mpr ⟨by decide +kernel, nofun⟩

/-- The capturer exits 0, and the snapshot cannot be looked at. -/
def snapshotUnreadable : (o : PyOp) → PyResp o
  | .getsize path => .error (.os .fileNotFound s!"[Errno 2] No such file or directory: '{path}'")
  | o => succeeds o

/-- The source is not resumed, and the state is still `CAPTURING`. -/
theorem capture_not_rolled_back : ∃ tr p, Cmd.Runs (migrate false example42) tr p ∧
    (∃ x, p.1 = .error x) ∧ resumeResults tr = [] ∧ p.2.state = .capturing ∧
    ¬ RollsBack example42 tr p :=
  ⟨_, _, Cmd.exec_runs (fun (_ : Unit) o => (snapshotUnreadable o, ()))
   (migrate false example42) (),
    ⟨_, rfl⟩, rfl, rfl, fun h => nomatch h.settled ⟨_, rfl⟩⟩

end Wraith.Control

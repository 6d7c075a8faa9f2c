/-
# `Wraith.Control.Unfrozen` — rolling back what was never frozen

`_rollback` runs `wraith-capturer resume` whatever has happened before: its docstring calls that a
no-op for a source that was never frozen, but `cmd_resume` attaches in order to detach, and fails
where the capture has failed.  `migrate_harmless_iff` says for which runs whose capturer never
attached the rollback is harmless.

A monitor, `course`, keeps account of two things: whether everything so far was `expected`, that is,
of the kinds of outcome that the handlers turn into a rolled back migration, and whether a capturer
has exited 0.
-/
import Wraith.Capture.Commands
import Wraith.Control.Rollback

namespace Wraith.Control

open Lib Script

/-! ## Processes -/

/-- What `subprocess.run` gets to see of a process that runs `c`, and its calls: it could not be
started, it has come to its end, or it was stopped on its way, by a signal or at the timeout. -/
inductive Ran (c : Capture.Cap Unit) :
    Except Builtin Completed → List (Event Capture.CapResp) → Prop where
  | notStarted (b : Builtin) : Ran c (.error b) []
  | returned (stderr : String) {tr : List (Event Capture.CapResp)} :
      Cmd.Runs (c ()) tr (.ok (), ()) → Ran c (.ok ⟨0, stderr⟩) tr
  | failed (stderr : String) {tr : List (Event Capture.CapResp)} {e : Process.Error} :
      Cmd.Runs (c ()) tr (.error e, ()) → Ran c (.ok ⟨1, stderr⟩) tr
  | stopped {r : Except Builtin Completed} {tr rest : List (Event Capture.CapResp)}
      {p : Except Process.Error Unit × Unit} : Completed.exited0 r = false →
      Cmd.Runs (c ()) (tr ++ rest) p → Ran c r tr

theorem Ran.exited0 {c : Capture.Cap Unit} {r : Except Builtin Completed}
    {tr : List (Event Capture.CapResp)} (h : Ran c r tr) (hr : Completed.exited0 r = true) :
    Cmd.Runs (c ()) tr (.ok (), ()) := by
  cases h with
  | notStarted b => exact nomatch hr
  | returned stderr h => exact h
  | failed stderr h => exact absurd hr (by simp [Completed.exited0])
  | stopped hcode _ => exact absurd (hcode.symm.trans hr) Bool.false_ne_true

/-- No capturer of this run has attached to anything. -/
def NeverAttached (checksum : List UInt8 → UInt64) (t : Teleporter) (tr : List (Event PyResp)) :
    Prop :=
  ∀ argv n r, ⟨.subprocessRun .capture argv n, r⟩ ∈ tr → ∃ saved calls,
    Ran (Capture.cmdCapture checksum saved (Int32.ofInt t.pid)) r calls ∧ Capture.Unattached calls

/-! ## The claim -/

/-- `migrate` without its handlers. -/
def unguarded (v : Bool) : Py MigrationResult := do
  enter
  migrateBody v

/-- What the run has raised first, before any handler. -/
def Original (v : Bool) (t : Teleporter) (tr : List (Event PyResp)) (x : PyExc) : Prop :=
  ∃ tr₁ t₁ rest, Cmd.Runs (unguarded v t) tr₁ (.error x, t₁) ∧ tr = tr₁ ++ rest

/-- The run ends with the `WraithError` it began with, rolled back. -/
def Harmless (v : Bool) (t : Teleporter) (tr : List (Event PyResp))
    (p : Except PyExc MigrationResult × Teleporter) : Prop :=
  ∃ x, Original v t tr x ∧ x.isA .wraithError = true ∧ x.isA .rollbackError = false ∧
    p.1 = .error x ∧ p.2.state = .rolledBack

/-- An outcome that leads to a rolled back migration, or keeps it one: the exceptions are those that
are caught where they are raised, and `resume` exits 0. -/
def expected : (o : PyOp) → PyResp o → Bool
  | .sshConnect _, .error (.other _) => false
  | .runAll _, r => okOr (fun _ => false) r
  | .mkstemp _ _, r => okOr (fun _ => false) r
  | .close _, r => okOr (fun _ => false) r
  | .subprocessRun .capture _ _, r => okOr Builtin.isLaunchError r
  | .subprocessRun .resume _ _, r => Completed.exited0 r
  | .pathExists _, r => okOr (fun _ => false) r
  | .unlink _, r => okOr Builtin.isOSError r
  | .sshClose, r => okOr Builtin.isException r
  | _, _ => true

/-- A capturer has exited 0. -/
def captures : (o : PyOp) → PyResp o → Bool
  | .subprocessRun .capture _ _, r => Completed.exited0 r
  | _, _ => false

structure Course where
  expected : Bool := true
  captured : Bool := false

/-- After one more operation. -/
def Course.next (g : Course) (o : PyOp) (r : PyResp o) : Course where
  expected := g.expected && Control.expected o r
  captured := g.captured || captures o r

def course : Cmd.Monitor PyResp Course where
  allow _ _ := True
  next := Course.next

variable {v : Bool} {t : Teleporter} {g : Course} {tr : List (Event PyResp)}

@[simp] theorem course_next (o : PyOp) (r : PyResp o) : course.next g o r = g.next o r := rfl

theorem course_expected (tr : List (Event PyResp)) (g : Course) :
    (course.after g tr).expected = (g.expected && tr.all fun ev => expected ev.1 ev.2) :=
  course.after_all (fun _ _ => rfl) tr g

theorem course_captured (tr : List (Event PyResp)) (g : Course) :
    (course.after g tr).captured = (g.captured || tr.any fun ev => captures ev.1 ev.2) :=
  course.after_any (fun _ _ => rfl) tr g

/-- Where no capturer attaches none exits 0. -/
theorem NeverAttached.captured {checksum : List UInt8 → UInt64} (h : NeverAttached checksum t tr) :
    (course.after {} tr).captured = false := by
  rw [course_captured, Bool.false_or, List.any_eq_false]
  rintro ⟨o, r⟩ hev hcap
  cases o with
  | subprocessRun proc argv n =>
      cases proc with
      | capture =>
          obtain ⟨saved, calls, hran, hnone⟩ := h argv n r hev
          exact Capture.cmdCapture_attaches (hran.exited0 hcap) hnone
      | transmit => exact nomatch hcap
      | resume => exact nomatch hcap
  | _ => exact nomatch hcap

/-- Once a capturer has exited 0 that stays so. -/
theorem captured_stays {α : Type} {c : Py α} (hg : g.captured = true) :
    Wp course c (fun _ _ g' => g'.captured = true) t g :=
  Cmd.obeys_of_runs (fun _ _ => trivial) fun tr _ _ => by
    show (course.after g tr).captured = true
    rw [course_captured, hg, Bool.true_or]

theorem Course.next_eq {o : PyOp} {r : PyResp o} (hc : captures o r = false) :
    g.next o r = { g with expected := g.expected && Control.expected o r } := by
  rw [Course.next, hc, Bool.or_false]

theorem Course.next_same {o : PyOp} {r : PyResp o} (hc : captures o r = false)
    (he : Control.expected o r = true) : g.next o r = g := by
  rw [Course.next_eq hc, he, Bool.and_true]

/-! ## What is raised before any handler -/

/-- `x` is raised: that was expected exactly if it is a `WraithError`. -/
structure Raised (x : PyExc) (g g' : Course) : Prop where
  notRollback : x.isA .rollbackError = false
  course : g' = { g with expected := g.expected && x.isA .wraithError }

theorem raised_next {o : PyOp} {r : PyResp o} {x : PyExc} (hx : x.isA .rollbackError = false)
    (hc : captures o r = false) (he : expected o r = x.isA .wraithError) :
    Raised x g (g.next o r) :=
  ⟨hx, by rw [Course.next_eq hc, he]⟩

theorem sshFailure_raised {d : DestinationConfig} {addr : String} {e : SshFailure} :
    Raised (e.toExc d) g (g.next (.sshConnect addr) (.error e)) := by
  cases e with
  | other b => exact raised_next rfl rfl rfl
  | _ => exact raised_next rfl rfl rfl

theorem enter_course : Wp course enter (fun r _ g' => match r with
    | .ok _ => g' = g
    | .error x => Raised x g g') t g := by
  rw [enter, wp_bind, wp_call]
  refine ⟨trivial, fun now => ?_⟩
  simp only [Continues, course_next]
  rw [Course.next_same rfl rfl, wp_modify_bind]
  rw [connect, wp_get_bind]
  simp only [Bool.false_eq_true, if_false]
  rw [connectClient, wp_bind, wp_call]
  refine ⟨trivial, ?_⟩
  rintro (e | _)
  · exact sshFailure_raised
  · exact Course.next_same rfl rfl

/-- A preflight that has not passed has a blocking failure. -/
theorem blockingFailures_ne_nil {results : List CheckResult} (h : ¬ allPassed results = true) :
    blockingFailures results ≠ [] := by
  intro hnil
  refine h (List.all_eq_true.mpr fun r hr => ?_)
  have hnot := List.filter_eq_nil_iff.mp hnil r hr
  cases hb : r.blocking with
  | false => rfl
  | true =>
      rw [hb, Bool.and_true, Bool.not_eq_true', Bool.not_eq_false] at hnot
      exact hnot

theorem preflightFailure_eq (pid : Int) {results : List CheckResult}
    (h : ¬ allPassed results = true) :
    ∃ m hint, preflightFailure pid results = .wraith .preflightError m hint := by
  unfold preflightFailure
  split
  case h_1 hnil => exact absurd hnil (blockingFailures_ne_nil h)
  case h_2 => exact ⟨_, _, rfl⟩

theorem runPreflight_course : Wp course runPreflight (fun r _ g' => match r with
    | .ok _ => g' = g
    | .error x => Raised x g g') t g := by
  rw [runPreflight, wp_transition_bind, wp_get_bind]
  refine wp_attempt_bind trivial (fun r results hr => ?_) (fun r b hr => ?_)
  · obtain rfl : r = .ok results := hr
    have hsame : course.next g (.runAll t.pid) (.ok results) = g := Course.next_same rfl rfl
    rw [hsame]
    by_cases hpass : allPassed results = true
    · rw [if_pos hpass]
      rfl
    · rw [if_neg hpass]
      obtain ⟨m, hint, hx⟩ := preflightFailure_eq t.pid hpass
      rw [wp_raise, hx]
      exact ⟨rfl, by rw [isA_wraithError_wraith, Bool.and_true]⟩
  · obtain rfl : r = .error b := hr
    exact raised_next rfl rfl rfl

/-- A capturer that does not exit 0 is the end of its phase. -/
def CapturePhase {α : Type} (g : Course) : Except PyExc α → Teleporter → Course → Prop
  | .ok _, _, g' => g'.captured = true
  | .error x, _, g' => g'.captured = true ∨ Raised x g g'

theorem CapturePhase.stays {α : Type} {c : Py α} {g₀ : Course} (hg : g.captured = true) :
    Wp course c (CapturePhase g₀) t g := by
  refine wp_mono (fun r t' g' h => ?_) (captured_stays hg)
  cases r with
  | ok a => exact h
  | error x => exact Or.inl h

theorem launchError_raised {argv : List String} {n : Int} {x y : PyExc} {b : Builtin}
    (hx : PhaseError x) (hy : PhaseError y) (hx' : x.isA .rollbackError = false)
    (hy' : y.isA .rollbackError = false) (hb : b.isLaunchError = true) :
    Raised (launchError x y b) g (g.next (.subprocessRun .capture argv n) (.error b)) := by
  refine raised_next ?_ rfl (hb.trans (hx.launchError hy b).wraith.symm)
  cases b with
  | timeoutExpired text => exact hx'
  | _ => exact hy'

theorem runCapture_course : Wp course runCapture (CapturePhase g) t g := by
  rw [runCapture, wp_transition_bind, wp_get_bind]
  refine wp_attempt_bind trivial (fun r file hr => ?_) (fun r b hr => ?_)
  · obtain rfl : r = .ok file := hr
    rw [course_next, Course.next_same rfl rfl]
    refine wp_attempt_bind trivial (fun r u hr => ?_) (fun r b hr => ?_)
    · obtain rfl : r = .ok u := hr
      rw [course_next, Course.next_same rfl rfl, wp_modify_bind]
      rw [wp_bind]
      refine wp_launch trivial (fun c hc => ?_) (fun c hc => ?_) (fun b hb => ?_) (fun b hb => ?_)
      · refine CapturePhase.stays ?_
        simp only [course_next, Course.next, captures, Completed.exited0, hc, decide_true,
          Bool.or_true]
      · exact Or.inr (raised_next rfl (decide_eq_false hc) rfl)
      · exact Or.inr (launchError_raised (captureError_phaseError _ _) (captureError_phaseError _ _)
          rfl rfl hb)
      · exact Or.inr (raised_next rfl rfl hb)
    · obtain rfl : r = .error b := hr
      exact Or.inr (raised_next rfl rfl rfl)
  · obtain rfl : r = .error b := hr
    exact Or.inr (raised_next rfl rfl rfl)

theorem migrateBody_course (hc : t.connected = true) :
    Wp course (migrateBody v) (CapturePhase g) t g := by
  rw [migrateBody, wp_bind, wp_connect_again hc]
  simp only [Continues]
  refine runPreflight_course.bind ?_ fun x t' g' h => Or.inr h
  rintro _ t₁ _ rfl
  rw [wp_bind, phases]
  refine runCapture_course.bind (fun _ t₂ g₂ h => ?_) ?_
  · refine wp_mono (fun r t₃ g₃ h => ?_) (captured_stays h)
    cases r with
    | ok a => exact CapturePhase.stays h
    | error x => exact Or.inl h
  · rintro x t₂ g₂ h
    exact h

/-! ## The handlers -/

/-- `x` has been handled: it goes on, and the migration is rolled back; or something unexpected has
happened, and one of the two is not so. -/
def Handled {α : Type} (x : PyExc) (g : Course) (r : Except PyExc α) (t : Teleporter) : Prop :=
  r = .error x ∧ x.isA .wraithError = true ∧ t.state = .rolledBack ∧ g.expected = true ∨
    g.expected = false ∧ (x.isA .wraithError = false ∨ t.state ≠ .rolledBack)

theorem rollback_course {x : PyExc} {text : String} (hg : g.expected = true)
    (hx : x.isA .wraithError = true) :
    Wp course (do rollback text; raise (α := MigrationResult) x) (fun r t' g' => Handled x g' r t')
      t g := by
  rw [wp_bind, rollback, wp_transition_bind, wp_get_bind]
  rw [wp_tryExcept, wp_bind, wp_attempt]
  refine ⟨trivial, ?_⟩
  have hnext : ∀ argv n r,
      (g.next (.subprocessRun .resume argv n) r).expected = Completed.exited0 r :=
    fun argv n r => by
      rw [Course.next_eq rfl, hg]
      rfl
  rintro (b | c)
  · simp only [id, Except.mapError, Continues, course_next]
    cases b with
    | base name text' => exact Or.inr ⟨hnext _ _ _, Or.inr (by rintro ⟨⟩)⟩
    | _ => exact Or.inr ⟨hnext _ _ _, Or.inr (by rintro ⟨⟩)⟩
  · simp only [id, Except.mapError, Continues, course_next, afterResume]
    by_cases hc : c.returncode = 0
    · rw [if_pos hc]
      exact Or.inl ⟨rfl, hx, rfl, (hnext _ _ _).trans (decide_eq_true hc)⟩
    · rw [if_neg hc]
      exact Or.inr ⟨(hnext _ _ _).trans (decide_eq_false hc), Or.inr (by rintro ⟨⟩)⟩

theorem onMigrateError_course {x : PyExc} {g₀ : Course} (hg₀ : g₀.expected = true)
    (hx : Raised x g₀ g) :
    Handles course onMigrateError (fun r t' g' => Handled x g' r t') (.error x) t g := by
  have hexpected : g.expected = x.isA .wraithError := by rw [hx.course, hg₀, Bool.true_and]
  by_cases hpre : x.isA .preflightError = true
  · have hwraith : x.isA .wraithError = true := by
      cases x with
      | wraith c m hint => exact isA_wraithError_wraith c m hint
      | builtin b => exact nomatch hpre
    refine (handles_some (c := do transition .rolledBack; raise x) ?_).mpr ?_
    · simp only [onMigrateError, hpre, if_true]
    · exact Or.inl ⟨rfl, hwraith, rfl, hexpected.trans hwraith⟩
  by_cases hwraith : x.isA .wraithError = true
  · refine (handles_some (c := do rollback x.str; raise x) ?_).mpr
      (rollback_course (hexpected.trans hwraith) hwraith)
    simp only [onMigrateError, hpre, hwraith, if_true, Bool.false_eq_true, if_false]
  · have hnot := (Bool.not_eq_true _).mp hwraith
    refine (handles_none ?_).mpr (Or.inr ⟨hexpected.trans hnot, Or.inl hnot⟩)
    simp only [onMigrateError, hpre, hwraith, Bool.false_eq_true, if_false]

/-! ## The `finally` clauses -/

/-- Tidied up; or something else is raised. -/
def Tidied (t : Teleporter) (g : Course) {α : Type} (r : Except PyExc α) (t' : Teleporter)
    (g' : Course) : Prop :=
  t'.state = t.state ∧ match r with
    | .ok _ => g' = g
    | .error y => y.isA .wraithError = false ∧ g'.expected = false

theorem unexpected_next {o : PyOp} {r : PyResp o} (hc : captures o r = false)
    (he : expected o r = false) : (g.next o r).expected = false := by
  rw [Course.next_eq hc, he, Bool.and_false]

theorem existingSnapshot_course : Wp course existingSnapshot (Tidied t g) t g := by
  rw [existingSnapshot, wp_get_bind]
  split
  · exact ⟨rfl, rfl⟩
  · split
    · exact ⟨rfl, rfl⟩
    · refine wp_attempt_bind trivial (fun r found hr => ?_) (fun r b hr => ?_)
      · obtain rfl : r = .ok found := hr
        exact ⟨rfl, Course.next_same rfl rfl⟩
      · obtain rfl : r = .error b := hr
        exact ⟨rfl, rfl, unexpected_next rfl rfl⟩

theorem cleanupSnapshot_course : Wp course cleanupSnapshot (Tidied t g) t g := by
  rw [cleanupSnapshot]
  refine existingSnapshot_course.bind ?_ fun x t' g' h => h
  rintro (_ | path) t₁ g₁ ⟨hst, rfl⟩
  · exact ⟨hst, rfl⟩
  · refine wp_ignore ignoreOSError_builtin trivial (fun r hr => ⟨hst, Course.next_same rfl hr⟩)
      (fun r b hr hb => ?_)
    obtain rfl : r = .error b := hr
    exact ⟨hst, rfl, unexpected_next (o := .unlink path) (r := .error b) rfl hb⟩

theorem closeSession_course : Wp course closeSession (Tidied t g) t g := by
  rw [closeSession, wp_get_bind]
  split
  · rw [closeClient, wp_bind]
    refine wp_suppress ?_
    rw [wp_attempt]
    refine ⟨trivial, ?_⟩
    rintro (b | _)
    · simp only [id, Except.mapError]
      by_cases hb : (PyExc.builtin b).isException = true
      · rw [if_pos hb]
        exact ⟨rfl, Course.next_same rfl hb⟩
      · rw [if_neg hb]
        exact ⟨rfl, rfl, unexpected_next (o := .sshClose) (r := .error b) rfl
          ((Bool.not_eq_true _).mp hb)⟩
    · exact ⟨rfl, Course.next_same rfl rfl⟩
  · exact ⟨rfl, rfl⟩
/-- What the `finally` clauses make of a migration that was handled. -/
theorem Handled.finished {x : PyExc} {g₁ g₂ : Course} {q r : Except PyExc MigrationResult}
    {u w : Except PyExc Unit} {t₁ t₂ : Teleporter} (h : Handled x g q t) (hu : Tidied t g u t₁ g₁)
    (hw : Tidied t₁ g₁ w t₂ g₂) (hr : r = finish (finish q u) w) :
    (r = .error x ∧ x.isA .wraithError = true ∧ t₂.state = .rolledBack) ↔ g₂.expected = true := by
  obtain ⟨hstate₁, hu⟩ := hu
  obtain ⟨hstate₂, hw⟩ := hw
  subst hr
  cases w with
  | error y =>
      -- Closing the session has raised.
      refine ⟨fun ⟨hx, hwraith, _⟩ => ?_, fun he => absurd (hw.2.symm.trans he) Bool.false_ne_true⟩
      obtain rfl := Except.error.inj hx
      exact absurd (hw.1.symm.trans hwraith) Bool.false_ne_true
  | ok _ =>
      obtain rfl := hw
      cases u with
      | error y =>
          refine ⟨fun ⟨hx, hwraith, _⟩ => ?_, fun he =>
            absurd (hu.2.symm.trans he) Bool.false_ne_true⟩
          obtain rfl := Except.error.inj hx
          exact absurd (hu.1.symm.trans hwraith) Bool.false_ne_true
      | ok _ =>
          obtain rfl := hu
          rw [hstate₂, hstate₁]
          obtain ⟨hq, hwraith, hstate, hexpected⟩ | ⟨hexpected, hnot⟩ := h
          · exact ⟨fun _ => hexpected, fun _ => ⟨hq, hwraith, hstate⟩⟩
          · refine ⟨fun ⟨_, hwraith, hstate⟩ => ?_, fun he =>
              absurd (hexpected.symm.trans he) Bool.false_ne_true⟩
            obtain hnot | hnot := hnot
            · exact absurd (hnot.symm.trans hwraith) Bool.false_ne_true
            · exact absurd hstate hnot

/-! ## When it is harmless -/

theorem original_iff {x y : PyExc} {tr₁ rest : List (Event PyResp)} {t₁ : Teleporter}
    (h : Cmd.Runs (unguarded v t) tr₁ (.error x, t₁)) : Original v t (tr₁ ++ rest) y ↔ y = x := by
  constructor
  · rintro ⟨tr₂, t₂, rest', h', heq⟩
    obtain ⟨-, hp, -⟩ := h'.unique h heq.symm
    exact Except.error.inj (Prod.mk.inj hp).1
  · rintro rfl
    exact ⟨tr₁, t₁, rest, h, rfl⟩

theorem harmless_iff {x : PyExc} {tr₁ rest : List (Event PyResp)} {t₁ : Teleporter}
    {p : Except PyExc MigrationResult × Teleporter}
    (h : Cmd.Runs (unguarded v t) tr₁ (.error x, t₁))
    (hx : x.isA .rollbackError = false) : Harmless v t (tr₁ ++ rest) p ↔
      p.1 = .error x ∧ x.isA .wraithError = true ∧ p.2.state = .rolledBack := by
  constructor
  · rintro ⟨y, hy, hwraith, -, hp, hstate⟩
    obtain rfl := (original_iff h).mp hy
    exact ⟨hp, hwraith, hstate⟩
  · rintro ⟨hp, hwraith, hstate⟩
    exact ⟨x, (original_iff h).mpr rfl, hwraith, hx, hp, hstate⟩

/-- When no capturer has attached, the migration ends with its first error, rolled back, exactly if
all outcomes were expected, `resume`'s among them, and the session was connected. -/
theorem migrate_harmless_iff {checksum : List UInt8 → UInt64}
    {p : Except PyExc MigrationResult × Teleporter} (h : Cmd.Runs (migrate v t) tr p)
    (hnever : NeverAttached checksum t tr) :
    Harmless v t tr p ↔ (tr.all fun ev => expected ev.1 ev.2) = true ∧
      (connects tr = true ∨ t.state = .rolledBack) := by
  have hcaptured := hnever.captured
  have hexpected : (course.after {} tr).expected = tr.all fun ev => expected ev.1 ev.2 :=
    course_expected tr {}
  rw [← hexpected]
  rw [migrate_eq] at h
  obtain ⟨x, hp, hx⟩ | ⟨pre, _, t₁, rest, hpre, hrest, rfl⟩ := runs_bind_cases h
  · -- not connected
    obtain ⟨hraise, hcourse⟩ : Raised x {} (course.after {} tr) := enter_course.after hx
    obtain ⟨hstate, -, ⟨-, hno⟩ | ⟨habs, -⟩⟩ := runs_enter (v := v) hx
    · have hiff : Harmless v t (tr ++ []) p ↔ _ := harmless_iff (runs_bind_error hx) hraise
      rw [List.append_nil] at hiff
      rw [hiff, hcourse, hno, show p.2.state = t.state from hstate]
      exact ⟨fun h => ⟨h.2.1, Or.inr h.2.2⟩, fun h =>
        ⟨hp, h.1, h.2.resolve_left Bool.false_ne_true⟩⟩
    · exact nomatch habs
  obtain ⟨-, -, ⟨⟨_, habs⟩, -⟩ | ⟨-, hc, hyes⟩⟩ := runs_enter (v := v) hpre
  · exact nomatch habs
  have hconn : connects (pre ++ rest) = true ∨ t.state = .rolledBack := by
    rw [connects, List.any_append]
    exact Or.inl ((Bool.or_eq_true _ _).mpr (Or.inl hyes))
  rw [and_iff_left hconn]
  have henter : course.after {} pre = {} := enter_course.after hpre
  obtain ⟨tr₁, ⟨q, t₂⟩, tr₂, q', tr₃, t₃, u, tr₄, w, hbody, hhandle, hclean, hclose, hp, rfl⟩ :=
    runs_guarded hrest
  have hnot : (course.after {} tr₁).captured = false := by
    rw [course_captured, Bool.false_or, List.any_append, List.any_append, Bool.or_eq_false_iff,
      Bool.or_eq_false_iff] at hcaptured
    rw [course_captured, Bool.false_or]
    exact hcaptured.2.1
  have hphase : CapturePhase {} q t₂ (course.after {} tr₁) := (migrateBody_course hc).after hbody
  cases q with
  | ok result => exact absurd (hnot.symm.trans hphase) Bool.false_ne_true
  | error x =>
      obtain habs | hraised := hphase
      · exact absurd (hnot.symm.trans habs) Bool.false_ne_true
      have hun : Cmd.Runs (unguarded v t) (pre ++ tr₁) (.error x, t₂) := runs_bind_ok hpre hbody
      have hhandled := (onMigrateError_course rfl hraised).after hhandle
      rw [← List.append_assoc, harmless_iff hun hraised.notRollback,
        hhandled.finished (cleanupSnapshot_course.after hclean)
          (closeSession_course.after hclose) hp]
      simp only [Cmd.Monitor.after_append, henter]

/-! ## An attach that is refused -/

def refusal : String := "error: " ++ Capture.errPermission "ptrace attach" 42

/-- The capturer may not attach; what `resume` comes to is left open. -/
def attachRefused (resumed : Completed) : (o : PyOp) → PyResp o
  | .subprocessRun .capture _ _ => .ok { returncode := 1, stderr := refusal }
  | .subprocessRun .resume _ _ => .ok resumed
  | o => succeeds o

def refusedRun (resumed : Completed) :
    List (Event PyResp) × (Except PyExc MigrationResult × Teleporter) :=
  Cmd.exec (fun (_ : Unit) o => (attachRefused resumed o, ())) (migrate false example42) ()

theorem refusedRun_runs (resumed : Completed) :
    Cmd.Runs (migrate false example42) (refusedRun resumed).1 (refusedRun resumed).2 :=
  Cmd.exec_runs _ _ _

/-- The capturer finds the process, and its PTRACE_ATTACH fails. -/
theorem refusedRun_neverAttached (resumed : Completed) :
    NeverAttached (fun _ => 0) example42 (refusedRun resumed).1 := by
  intro argv n r hev
  obtain rfl : r = .ok { returncode := 1, stderr := refusal } :=
    Cmd.exec_answers (attachRefused resumed) _ _ hev
  refine ⟨.ok (), [⟨.readMaps 42, .ok []⟩, ⟨.pidExists 42, true⟩, ⟨.attach 42, .error .eperm⟩],
    .failed refusal (.op _ (.op _ (.op _ (.ret _)))), fun pid hmem => ?_⟩
  simp at hmem

/-- `resume` is refused as the capture was: RollbackError, and the state is FAILED. -/
theorem refused_rollback_fails : ∃ tr p, Cmd.Runs (migrate false example42) tr p ∧
    NeverAttached (fun _ => 0) example42 tr ∧
    (∀ argv n r, ⟨.subprocessRun .resume argv n, r⟩ ∈ tr → ∃ calls,
      Ran (Capture.cmdResume 42) r calls ∧ Capture.Unattached calls) ∧
    (∃ m hint, p.1 = .error (.wraith .rollbackError m hint)) ∧ p.2.state = .failed ∧
    ¬ Harmless false example42 tr p := by
  refine ⟨_, _, refusedRun_runs ⟨1, refusal⟩, refusedRun_neverAttached _, fun argv n r hev => ?_,
    ⟨_, _, rfl⟩, rfl, fun ⟨x, _, _, _, _, hstate⟩ => nomatch hstate⟩
  obtain rfl : r = .ok ⟨1, refusal⟩ := Cmd.exec_answers (attachRefused ⟨1, refusal⟩) _ _ hev
  refine ⟨[⟨.pidExists 42, true⟩, ⟨.pidExists 42, true⟩, ⟨.attach 42, .error .eperm⟩],
    .failed refusal (.op _ (.op _ (.op _ (.ret _)))), fun pid hmem => ?_⟩
  simp at hmem

/-- Had it exited 0, the migration would have ended as it should. -/
theorem migrate_harmless_iff_refused :
    Harmless false example42 (refusedRun ⟨0, ""⟩).1 (refusedRun ⟨0, ""⟩).2 :=
  (migrate_harmless_iff (refusedRun_runs ⟨0, ""⟩) (refusedRun_neverAttached _)).mpr
    ⟨by decide +kernel, Or.inl (by decide +kernel)⟩

end Wraith.Control

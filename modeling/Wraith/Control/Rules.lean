/-
# `Wraith.Control.Rules` — one rule for each step of `migrate`

What the statements inside the phases can come to, for an arbitrary monitor: each rule takes one
premise for each way out, and says nothing about how the function goes about it.  The phases are
verified with these.
-/
import Wraith.Control.Teleporter

namespace Wraith.Control

open Lib Script

/-! ## Which exceptions are caught -/

/-- Returned, or raised something in `p`. -/
def okOr (p : Builtin → Bool) {α : Type} : Except Builtin α → Bool
  | .ok _ => true
  | .error b => p b

@[simp] theorem okOr_ok (p : Builtin → Bool) {α : Type} (a : α) : okOr p (.ok a) = true := rfl

@[simp] theorem okOr_error (p : Builtin → Bool) {α : Type} (b : Builtin) :
    okOr p (.error b : Except Builtin α) = p b := rfl

/-- What the `except` clauses around a local process catch. -/
def Builtin.isLaunchError : Builtin → Bool
  | .timeoutExpired _ => true
  | .os .fileNotFound _ => true
  | _ => false

def Builtin.isLookup : Builtin → Bool
  | .os .processLookup _ => true
  | _ => false

def Builtin.isOSError : Builtin → Bool
  | .os _ _ => true
  | _ => false

variable {G : Type} {M : Cmd.Monitor PyResp G} {t : Teleporter} {g : G}

/-! ## Elementary steps -/

theorem wp_transition_bind {α : Type} {f : Unit → Py α} {Q : Except PyExc α → Teleporter → G → Prop}
    {state : MigrationState} :
    Wp M (transition state >>= f) Q t g ↔ Wp M (f ()) Q { t with state } g := Iff.rfl

theorem wp_attempt {α : Type} {o : PyOp} {view : PyResp o → Except Builtin α}
    {Q : Except PyExc α → Teleporter → G → Prop} :
    Wp M (attempt o view) Q t g ↔
      M.allow g o ∧ ∀ r, Q ((view r).mapError .builtin) t (M.next g o r) := Iff.rfl

/-- An operation followed by more. -/
theorem wp_attempt_bind {α β : Type} {o : PyOp} {view : PyResp o → Except Builtin α} {f : α → Py β}
    {Q : Except PyExc β → Teleporter → G → Prop} (hallow : M.allow g o)
    (hok : ∀ r a, view r = .ok a → Wp M (f a) Q t (M.next g o r))
    (herr : ∀ r b, view r = .error b → Q (.error (.builtin b)) t (M.next g o r)) :
    Wp M (attempt o view >>= f) Q t g := by
  rw [wp_bind, wp_attempt]
  refine ⟨hallow, fun r => ?_⟩
  cases h : view r with
  | ok a => exact hok r a h
  | error b => exact herr r b h

/-- An operation with an `except` clause around it that ignores what is in `p`. -/
theorem wp_ignore {o : PyOp} {view : PyResp o → Except Builtin Unit} {p : Builtin → Bool}
    {h : PyExc → Option (Py Unit)} {Q : Except PyExc Unit → Teleporter → G → Prop}
    (hh : ∀ b, h (.builtin b) = if p b then some (pure ()) else none) (hallow : M.allow g o)
    (hok : ∀ r, okOr p (view r) = true → Q (.ok ()) t (M.next g o r))
    (herr : ∀ r b, view r = .error b → p b = false → Q (.error (.builtin b)) t (M.next g o r)) :
    Wp M (tryExcept (attempt o view) h) Q t g := by
  rw [wp_tryExcept, wp_attempt]
  refine ⟨hallow, fun r => ?_⟩
  cases hr : view r with
  | ok a => exact hok r (by rw [hr]; rfl)
  | error b =>
      cases hb : p b with
      | true =>
          exact (handles_some (c := pure ()) (by rw [hh, hb]; rfl)).mpr
            (hok r (by rw [hr]; exact hb))
      | false => exact (handles_none (by rw [hh, hb]; rfl)).mpr (herr r b hr hb)

theorem ignoreLookup_builtin (b : Builtin) :
    ignoreLookup (.builtin b) = if b.isLookup then some (pure ()) else none := by
  cases b with
  | os kind text => cases kind <;> rfl
  | _ => rfl

theorem ignoreOSError_builtin (b : Builtin) :
    ignoreOSError (.builtin b) = if b.isOSError then some (pure ()) else none := by
  cases b <;> rfl

theorem wp_ensureConnected {Q : Except PyExc Unit → Teleporter → G → Prop}
    (hc : t.connected = true) : Wp M ensureConnected Q t g ↔ Q (.ok ()) t g := by
  rw [ensureConnected, wp_get_bind]
  simp only [hc, if_true, wp_pure]

/-- A second `connect` does nothing. -/
theorem wp_connect_again {Q : Except PyExc Unit → Teleporter → G → Prop}
    (hc : t.connected = true) : Wp M connect Q t g ↔ Q (.ok ()) t g := by
  rw [connect, wp_get_bind]
  simp only [hc, if_true, wp_pure]

/-! ## Local processes -/

/-- The exception raised in place of a launch error. -/
def launchError (timedOut notFound : PyExc) : Builtin → PyExc
  | .timeoutExpired _ => timedOut
  | _ => notFound

theorem onLaunchError_builtin {α : Type} (timedOut notFound : PyExc) (b : Builtin) :
    onLaunchError (α := α) timedOut notFound (.builtin b) =
      if b.isLaunchError then some (raise (launchError timedOut notFound b)) else none := by
  cases b with
  | os kind text => cases kind <;> rfl
  | _ => rfl

theorem wp_launch {proc : Proc} {argv : List String} {timeout : Int} {timedOut notFound : PyExc}
    {exited : Completed → PyExc} {Q : Except PyExc Unit → Teleporter → G → Prop}
    (hallow : M.allow g (.subprocessRun proc argv timeout))
    (hok : ∀ c : Completed, c.returncode = 0 →
      Q (.ok ()) t (M.next g (.subprocessRun proc argv timeout) (.ok c)))
    (hexit : ∀ c : Completed, c.returncode ≠ 0 →
      Q (.error (exited c)) t (M.next g (.subprocessRun proc argv timeout) (.ok c)))
    (hcaught : ∀ b, b.isLaunchError = true → Q (.error (launchError timedOut notFound b)) t
      (M.next g (.subprocessRun proc argv timeout) (.error b)))
    (huncaught : ∀ b, b.isLaunchError = false →
      Q (.error (.builtin b)) t (M.next g (.subprocessRun proc argv timeout) (.error b))) :
    Wp M (launch proc argv timeout timedOut notFound exited) Q t g := by
  rw [launch, wp_bind, wp_tryExcept, wp_attempt]
  refine ⟨hallow, ?_⟩
  rintro (b | c)
  · cases hb : b.isLaunchError with
    | true =>
        refine (handles_some (c := raise (launchError timedOut notFound b)) ?_).mpr (hcaught b hb)
        rw [onLaunchError_builtin, hb]
        rfl
    | false =>
        exact (handles_none (by rw [onLaunchError_builtin, hb]; rfl)).mpr (huncaught b hb)
  · simp only [id, Except.mapError, Handles, Continues]
    by_cases hc : c.returncode = 0
    · rw [if_pos hc]
      exact hok c hc
    · rw [if_neg hc]
      exact hexit c hc

/-! ## Remote commands -/

/-- `except Exception as e: raise f(e)` around a command. -/
theorem wp_orRaise {α : Type} {c : Py α} {f : PyExc → PyExc}
    {Q : Except PyExc α → Teleporter → G → Prop}
    (h : Wp M c (fun r t' g' => match r with
      | .ok a => Q (.ok a) t' g'
      | .error x => if x.isException then Q (.error (f x)) t' g' else Q (.error x) t' g') t g) :
    Wp M (orRaise c f) Q t g := by
  rw [orRaise, wp_tryExcept]
  refine wp_mono (fun r t' g' hr => ?_) h
  cases r with
  | ok a => exact hr
  | error x =>
      cases hx : x.isException with
      | true =>
          simp only [hx, if_true] at hr
          exact (handles_some (c := raise (f x)) (by rw [hx]; rfl)).mpr hr
      | false =>
          simp only [hx] at hr
          exact (handles_none (by rw [hx]; rfl)).mpr hr

/-- `except Exception: pass`. -/
theorem wp_suppress {c : Py Unit} {Q : Except PyExc Unit → Teleporter → G → Prop}
    (h : Wp M c (fun r t' g' => match r with
      | .ok _ => Q (.ok ()) t' g'
      | .error x => if x.isException then Q (.ok ()) t' g' else Q (.error x) t' g') t g) :
    Wp M (suppress c) Q t g := by
  rw [suppress, wp_tryExcept]
  refine wp_mono (fun r t' g' hr => ?_) h
  cases r with
  | ok a => exact hr
  | error x =>
      cases hx : x.isException with
      | true =>
          simp only [hx, if_true] at hr
          exact (handles_some (c := pure ()) (by rw [hx]; rfl)).mpr hr
      | false =>
          simp only [hx] at hr
          exact (handles_none (by rw [hx]; rfl)).mpr hr

theorem wp_startReceiver {Q : Except PyExc Unit → Teleporter → G → Prop} (hc : t.connected = true)
    {cmd : String} {f : PyExc → PyExc} (hallow : M.allow g (.execBackground cmd))
    (hok : Q (.ok ()) t (M.next g (.execBackground cmd) (.ok ())))
    (hcaught : ∀ b, b.isException = true → Q (.error (f (.builtin b))) t
      (M.next g (.execBackground cmd) (.error b)))
    (huncaught : ∀ b, b.isException = false → Q (.error (.builtin b)) t
      (M.next g (.execBackground cmd) (.error b))) :
    Wp M (orRaise (execBackground cmd) f) Q t g := by
  refine wp_orRaise ?_
  rw [execBackground, wp_bind, wp_ensureConnected hc]
  simp only [Continues]
  rw [wp_attempt]
  refine ⟨hallow, ?_⟩
  rintro (b | _)
  · simp only [id, Except.mapError]
    by_cases hb : (PyExc.builtin b).isException = true
    · rw [if_pos hb]
      exact hcaught b hb
    · rw [if_neg hb]
      exact huncaught b ((Bool.not_eq_true _).mp hb)
  · exact hok

/-- What `exec` makes of what came back. -/
def execOutcome (cmd : String) (check : Bool) (r : Executed) :
    Except PyExc (String × String × Int) :=
  match r.result with
  | .error b => .error (.builtin b)
  | .ok (out, err, code) =>
      if check = true ∧ code ≠ 0 then .error (commandError cmd code err) else .ok (out, err, code)

theorem wp_exec {remote : Remote} {cmd : String} {timeout : Option Int} {check : Bool}
    {Q : Except PyExc (String × String × Int) → Teleporter → G → Prop} (hc : t.connected = true)
    (hallow : ∀ n, M.allow g (.execCommand remote cmd n))
    (hout : ∀ n r, Q (execOutcome cmd check r) t (M.next g (.execCommand remote cmd n) r)) :
    Wp M (exec remote cmd timeout check) Q t g := by
  rw [exec, wp_bind, wp_ensureConnected hc]
  refine wp_attempt_bind (hallow _) (fun r a hr => ?_) (fun r b hr => ?_)
  · obtain ⟨out, err, code⟩ := a
    have h := hout (effectiveTimeout t.cfg.destination timeout) r
    simp only [execOutcome, hr] at h
    by_cases hcode : check = true ∧ code ≠ 0
    · rw [if_pos hcode] at h
      simp only [if_pos hcode]
      exact h
    · rw [if_neg hcode] at h
      simp only [if_neg hcode]
      exact h
  · have h := hout (effectiveTimeout t.cfg.destination timeout) r
    simp only [execOutcome, hr] at h
    exact h

end Wraith.Control

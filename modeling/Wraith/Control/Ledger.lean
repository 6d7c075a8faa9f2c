/-
# `Wraith.Control.Ledger` — what the phases of a migration come to

A monitor over the operations of `migrate`, and the specifications of its phases.  The `Ledger`
records the milestones in their order, whether a restored process was left running and whether every
step since went well, whether every failure so far was one the code handles, and what became of
`resume`.  Its `allow` is the safety rule: no capture before the preflight, no signal before the
destination has confirmed, no resume after a signal.

A specification says what its function adds to the ledger on each way out.  A phase that returns
adds its milestone (`phases_wp`); one that raises leaves `PhaseFailed`.
-/
import Wraith.Control.Rules

namespace Wraith.Control

open Lib Script

/-! ## Which failures are provided for -/

/-- The outcome is one the phases, the commit and the rollback provide for: a return, or an
exception of a type caught there.  In the commit's pause of half a second that is only
`ProcessLookupError`, and in the one before the transfer none. -/
def handled : (o : PyOp) → PyResp o → Bool
  | .mkstemp _ _, r => okOr (fun _ => false) r
  | .close _, r => okOr (fun _ => false) r
  | .getsize _, r => okOr (fun _ => false) r
  | .subprocessRun .resume _ _, r => okOr Builtin.isException r
  | .subprocessRun _ _ _, r => okOr Builtin.isLaunchError r
  | .execBackground _, r => okOr Builtin.isException r
  | .execCommand _ _ _, (r : Executed) => okOr Builtin.isException r.result
  | .sleep ms, r => okOr (fun b => ms = 500 && b.isLookup) r
  | .kill _ _, r => okOr Builtin.isLookup r
  | _, _ => true

/-- A restored process is left running on the destination. -/
def leaves : (o : PyOp) → PyResp o → Bool
  | .execCommand .restorer _ _, (r : Executed) => r.left
  | _, _ => false

/-- The restorer was seen to exit 0. -/
def Executed.exited0 (r : Executed) : Bool :=
  match r.result with
  | .ok (_, _, code) => code = 0
  | .error _ => false

/-- The outcome does not keep `migrate` from returning, once the restorer has run. -/
def benign : (o : PyOp) → PyResp o → Bool
  | .execCommand .restorer _ _, (r : Executed) => r.exited0
  | .execCommand .cleanup _ _, (r : Executed) => okOr Builtin.isException r.result
  | .kill _ _, r => okOr Builtin.isLookup r
  | .sleep _, r => okOr Builtin.isLookup r
  | .getsize _, r => okOr (fun _ => false) r
  | .pathExists _, r => okOr (fun _ => false) r
  | .unlink _, r => okOr Builtin.isOSError r
  | .sshClose, r => okOr Builtin.isException r
  | _, _ => true

/-! ## The ledger -/

structure Ledger where
  /-- the preflight has passed; the capturer, the transmitter, the restorer has exited 0 since -/
  preflight : Bool := false
  captured : Bool := false
  transmitted : Bool := false
  restored : Bool := false
  /-- a signal was sent to the source -/
  signalled : Bool := false
  /-- a restored process was left running, and everything since was benign -/
  left : Bool := false
  clean : Bool := true
  /-- everything was handled, as far as the phases, the commit and the rollback go -/
  handled : Bool := true
  /-- result building or cleanup has begun -/
  past : Bool := false
  /-- what came of `resume`, each time it was run -/
  resumes : List (Except Builtin Completed) := []

def Completed.exited0 (r : Except Builtin Completed) : Bool :=
  match r with
  | .ok c => c.returncode = 0
  | .error _ => false

/-- The milestones after an operation; each counts only when the one before it was reached. -/
def Ledger.milestone (g : Ledger) : (o : PyOp) → PyResp o → Ledger
  | .runAll _, (r : Except Builtin (List CheckResult)) => match r with
    | .ok results => { g with preflight := allPassed results }
    | .error _ => g
  | .subprocessRun .capture _ _, r => { g with captured := g.preflight && Completed.exited0 r }
  | .subprocessRun .transmit _ _, r => { g with transmitted := g.captured && Completed.exited0 r }
  | .subprocessRun .resume _ _, r => { g with resumes := g.resumes ++ [r] }
  | .execCommand .restorer _ _, (r : Executed) =>
      { g with restored := g.transmitted && r.exited0 }
  | .kill _ _, _ => { g with signalled := true }
  | .pathExists _, _ => { g with past := true }
  | _, _ => g

/-- The running conjunctions after an operation. -/
def Ledger.account (g : Ledger) (o : PyOp) (r : PyResp o) : Ledger :=
  { g with
    left := g.left || leaves o r
    clean := if g.left || leaves o r then g.clean && benign o r else g.clean
    handled := g.handled && (g.past || Control.handled o r) }

/-- The safety rule. -/
def Ledger.allow (verifyOnly : Bool) (g : Ledger) : PyOp → Prop
  | .subprocessRun .capture _ _ => g.preflight = true
  | .subprocessRun .resume _ _ => g.signalled = false
  | .kill _ _ => verifyOnly = false ∧ g.restored = true
  | _ => True

/-- The ledger after an operation. -/
def Ledger.after (g : Ledger) (o : PyOp) (r : PyResp o) : Ledger := (g.milestone o r).account o r

def ledger (verifyOnly : Bool) : Cmd.Monitor PyResp Ledger where
  allow := Ledger.allow verifyOnly
  next := Ledger.after

/-- A milestone is no entry about the restored process or about failures. -/
theorem Ledger.milestone_eq (g : Ledger) (o : PyOp) (r : PyResp o) :
    (g.milestone o r).left = g.left ∧ (g.milestone o r).clean = g.clean ∧
      (g.milestone o r).handled = g.handled := by
  cases o with
  | runAll pid => cases r <;> exact ⟨rfl, rfl, rfl⟩
  | subprocessRun proc argv n => cases proc <;> exact ⟨rfl, rfl, rfl⟩
  | execCommand remote cmd n => cases remote <;> exact ⟨rfl, rfl, rfl⟩
  | _ => exact ⟨rfl, rfl, rfl⟩

theorem Ledger.after_left (g : Ledger) (o : PyOp) (r : PyResp o) :
    (g.after o r).left = (g.left || leaves o r) := by
  rw [← (g.milestone_eq o r).1]
  rfl

theorem Ledger.after_clean (g : Ledger) (o : PyOp) (r : PyResp o) :
    (g.after o r).clean = if g.left || leaves o r then g.clean && benign o r else g.clean := by
  obtain ⟨hl, hc, -⟩ := g.milestone_eq o r
  rw [← hl, ← hc]
  rfl

/-! ## The phases -/

/-- Nothing was committed or rolled back, and nothing is running on the destination. -/
structure Ledger.Early (g : Ledger) : Prop where
  signalled : g.signalled = false
  left : g.left = false
  clean : g.clean = true
  handled : g.handled = true
  past : g.past = false
  resumes : g.resumes = []

/-- A phase has raised `x`.  What was handled has become a `WraithError` other than a preflight one;
what was not is still no `WraithError` at all. -/
structure PhaseFailed (x : PyExc) (g : Ledger) : Prop where
  signalled : g.signalled = false
  past : g.past = false
  resumes : g.resumes = []
  clean : g.left = true → g.clean = false
  notPreflight : x.isA .preflightError = false
  handled : g.handled = x.isA .wraithError

variable {v : Bool} {t : Teleporter} {g : Ledger}

@[simp] theorem ledger_allow (o : PyOp) : (ledger v).allow g o = Ledger.allow v g o := rfl

@[simp] theorem ledger_next (o : PyOp) (r : PyResp o) : (ledger v).next g o r = g.after o r := rfl

/-- An operation that went well leaves only its milestone. -/
theorem Ledger.account_eq {o : PyOp} {r : PyResp o} (hl : leaves o r = false)
    (hb : benign o r = true) (hh : Control.handled o r = true) : g.account o r = g := by
  simp only [Ledger.account, hl, hb, hh, Bool.or_false, Bool.and_true, Bool.or_true, ite_self]

/-- While nothing is running on the destination, it need only have been handled. -/
theorem Ledger.Early.account_eq {o : PyOp} {r : PyResp o} (hg : g.Early) (hl : leaves o r = false)
    (hh : Control.handled o r = true) : g.account o r = g := by
  have hleft : (g.left || leaves o r) = g.left := by rw [hl, Bool.or_false]
  have hhandled : (g.handled && (g.past || Control.handled o r)) = g.handled := by
    rw [hh, Bool.or_true, Bool.and_true]
  rw [Ledger.account, hleft, hhandled, hg.left]
  simp only [Bool.false_eq_true, if_false]
  rw [← hg.left]

/-- One that raises fails its phase. -/
theorem Ledger.Early.phaseFailed {o : PyOp} {r : PyResp o} {x : PyExc} (hg : g.Early)
    (hl : leaves o r = false) (hp : x.isA .preflightError = false)
    (hh : Control.handled o r = x.isA .wraithError) : PhaseFailed x (g.account o r) where
  signalled := hg.signalled
  past := hg.past
  resumes := hg.resumes
  clean hleft := by
    simp only [Ledger.account, hg.left, hl, Bool.or_false, Bool.false_eq_true] at hleft
  notPreflight := hp
  handled := by simp only [Ledger.account, hg.handled, hg.past, hh, Bool.true_and, Bool.false_or]

/-- A milestone before the restorer's leaves an early ledger early. -/
theorem Ledger.Early.capture {argv : List String} {n : Int} {r : Except Builtin Completed}
    (hg : g.Early) : (g.milestone (.subprocessRun .capture argv n) r).Early := { hg with }

theorem milestone_capture {argv : List String} {n : Int} {c : Completed} (hg : g.preflight = true)
    (hc : c.returncode = 0) :
    g.milestone (.subprocessRun .capture argv n) (.ok c) = { g with captured := true } := by
  simp only [Ledger.milestone, Completed.exited0, hg, hc, decide_true, Bool.and_self]

theorem milestone_transmit {argv : List String} {n : Int} {c : Completed} (hg : g.captured = true)
    (hc : c.returncode = 0) :
    g.milestone (.subprocessRun .transmit argv n) (.ok c) = { g with transmitted := true } := by
  simp only [Ledger.milestone, Completed.exited0, hg, hc, decide_true, Bool.and_self]

theorem Ledger.Early.transmit {argv : List String} {n : Int} {r : Except Builtin Completed}
    (hg : g.Early) : (g.milestone (.subprocessRun .transmit argv n) r).Early := { hg with }

/-- A `WraithError` other than a preflight one. -/
structure PhaseError (x : PyExc) : Prop where
  wraith : x.isA .wraithError = true
  notPreflight : x.isA .preflightError = false

theorem PhaseError.launchError {x y : PyExc} (hx : PhaseError x) (hy : PhaseError y) (b : Builtin) :
    PhaseError (launchError x y b) := by
  cases b with
  | timeoutExpired _ => exact hx
  | _ => exact hy

/-- A local process that counts for a milestone. -/
theorem launch_wp {proc : Proc} {argv : List String} {timeout : Int} {timedOut notFound : PyExc}
    {exited : Completed → PyExc} {Q : Except PyExc Unit → Teleporter → Ledger → Prop}
    (hproc : proc ≠ .resume) (hallow : Ledger.allow v g (.subprocessRun proc argv timeout))
    (hearly : ∀ r, (g.milestone (.subprocessRun proc argv timeout) r).Early)
    (htimedOut : PhaseError timedOut) (hnotFound : PhaseError notFound)
    (hexited : ∀ c, PhaseError (exited c))
    (hok : ∀ c : Completed, c.returncode = 0 →
      Q (.ok ()) t (g.milestone (.subprocessRun proc argv timeout) (.ok c)))
    (herr : ∀ x g', PhaseFailed x g' → Q (.error x) t g') :
    Wp (ledger v) (launch proc argv timeout timedOut notFound exited) Q t g := by
  have hleaves : ∀ r, leaves (.subprocessRun proc argv timeout) r = false := fun r => by
    cases proc <;> rfl
  have hhandled : ∀ r : Except Builtin Completed,
      handled (.subprocessRun proc argv timeout) r = okOr Builtin.isLaunchError r := fun r => by
    cases proc with
    | resume => exact absurd rfl hproc
    | _ => rfl
  refine wp_launch hallow (fun c hc => ?_) (fun c hc => ?_) (fun b hb => ?_) (fun b hb => ?_)
  · rw [ledger_next, show g.after _ _ = _ from (hearly _).account_eq (hleaves _) (hhandled _)]
    exact hok c hc
  · exact herr _ _ ((hearly _).phaseFailed (hleaves _) (hexited c).notPreflight
      ((hhandled _).trans (hexited c).wraith.symm))
  · have hx := htimedOut.launchError hnotFound b
    exact herr _ _ ((hearly _).phaseFailed (hleaves _) hx.notPreflight
      ((hhandled _).trans (hb.trans hx.wraith.symm)))
  · exact herr _ _ ((hearly _).phaseFailed (hleaves _) rfl ((hhandled _).trans hb))

theorem captureError_phaseError (m : String) (h : Option String) : PhaseError (captureError m h) :=
  ⟨rfl, rfl⟩

theorem transferError_phaseError (m : String) (h : Option String) :
    PhaseError (transferError m h) := ⟨rfl, rfl⟩

def CapturePost (t : Teleporter) (g : Ledger) : Except PyExc Unit → Teleporter → Ledger → Prop
  | .ok (), t', g' => g' = { g with captured := true } ∧
      t'.connected = t.connected ∧ ∃ path, t'.snapshotPath = some path
  | .error x, t', g' => t'.state = .capturing ∧ PhaseFailed x g'

theorem runCapture_wp (hg : g.Early) (hpre : g.preflight = true) :
    Wp (ledger v) runCapture (CapturePost t g) t g := by
  rw [runCapture, wp_transition_bind, wp_get_bind]
  rw [wp_bind, wp_attempt]
  refine ⟨trivial, ?_⟩
  rintro (b | ⟨fd, path⟩)
  · exact ⟨rfl, hg.phaseFailed rfl rfl rfl⟩
  simp only [id, Except.mapError, Continues, ledger_next]
  rw [show g.after (.mkstemp _ _) (.ok (fd, path)) = g from hg.account_eq rfl rfl, wp_bind,
    wp_attempt]
  refine ⟨trivial, ?_⟩
  rintro (b | _)
  · exact ⟨rfl, hg.phaseFailed rfl rfl rfl⟩
  simp only [id, Except.mapError, Continues, ledger_next]
  rw [show g.after (.close fd) (.ok ()) = g from hg.account_eq rfl rfl, wp_modify_bind]
  rw [wp_bind]
  refine launch_wp (by decide) hpre (fun r => hg.capture) (captureError_phaseError _ _)
    (captureError_phaseError _ _) (fun _ => captureError_phaseError _ _) (fun c hc => ?_)
    (fun x g' hx => ⟨rfl, hx⟩)
  simp only [Continues]
  rw [milestone_capture hpre hc, wp_bind, wp_attempt]
  refine ⟨trivial, ?_⟩
  rintro (b | size)
  · exact ⟨rfl, Ledger.Early.phaseFailed { hg with } rfl rfl rfl⟩
  · exact ⟨Ledger.Early.account_eq { hg with } rfl rfl, rfl, path, rfl⟩

def TransferPost (t : Teleporter) (g : Ledger) : Except PyExc Unit → Teleporter → Ledger → Prop
  | .ok (), t', g' => g' = { g with transmitted := true } ∧
      t'.connected = t.connected ∧ ∃ path, t'.remoteSnapshotPath = some path
  | .error x, t', g' => t'.state = .transferring ∧ PhaseFailed x g'

theorem runTransfer_wp {path : String} (hg : g.Early) (hcap : g.captured = true)
    (hpath : t.snapshotPath = some path) (hconn : t.connected = true) :
    Wp (ledger v) runTransfer (TransferPost t g) t g := by
  rw [runTransfer, wp_transition_bind, wp_get_bind]
  simp only [hpath, pyAssert]
  rw [wp_pure_bind, wp_modify_bind]
  rw [wp_bind, startReceiver]
  refine wp_startReceiver ?_ ?_ ?_ (fun b hb => ?_) (fun b hb => ?_)
  · exact hconn
  · trivial
  · simp only [Continues, ledger_next]
    rw [show g.after (.execBackground _) (.ok ()) = g from hg.account_eq rfl rfl, wp_bind,
      wp_attempt]
    refine ⟨trivial, ?_⟩
    rintro (b | _)
    · exact ⟨rfl, hg.phaseFailed rfl rfl rfl⟩
    simp only [id, Except.mapError, Continues, ledger_next]
    rw [show g.after (.sleep 1500) (.ok ()) = g from hg.account_eq rfl rfl]
    refine launch_wp (by decide) trivial (fun r => hg.transmit) (transferError_phaseError _ _)
      (transferError_phaseError _ _) (fun _ => transferError_phaseError _ _) (fun c hc => ?_)
      (fun x g' hx => ⟨rfl, hx⟩)
    exact ⟨milestone_transmit hcap hc, rfl, _, rfl⟩
  · exact ⟨rfl, hg.phaseFailed rfl rfl hb⟩
  · exact ⟨rfl, hg.phaseFailed rfl rfl hb⟩

/-- The restorer has been seen to exit 0, and all is well since. -/
structure Ledger.Restored (g : Ledger) : Prop where
  restored : g.restored = true
  signalled : g.signalled = false
  clean : g.clean = true
  handled : g.handled = true
  past : g.past = false
  resumes : g.resumes = []

def RestorePost (t : Teleporter) : Except PyExc Unit → Teleporter → Ledger → Prop
  | .ok (), t', g' => g'.Restored ∧ t'.state = .restoring ∧ t'.connected = t.connected ∧
      ∃ pid, t'.destinationPid = some pid
  | .error x, t', g' => t'.state = .restoring ∧ PhaseFailed x g'

/-- The restorer's outcome, on an early ledger. -/
theorem Ledger.Early.restorer {cmd : String} {n : Int} {r : Executed} (hg : g.Early)
    (htrans : g.transmitted = true) (h0 : r.exited0 = true) :
    (g.after (.execCommand .restorer cmd n) r).Restored := by
  obtain ⟨h1, h2, h3, h4, h5, h6⟩ := hg
  have hok : okOr Builtin.isException r.result = true := by
    unfold Executed.exited0 at h0
    split at h0
    · rename_i h
      rw [h]
      rfl
    · exact nomatch h0
  constructor
  · simp only [Ledger.after, Ledger.milestone, Ledger.account, htrans, h0, Bool.and_self]
  · exact h1
  · simp only [Ledger.after, Ledger.milestone, Ledger.account, benign, h0, h3, Bool.and_self,
      ite_self]
  · simp only [Ledger.after, Ledger.milestone, Ledger.account, Control.handled, hok, h4,
      Bool.or_true, Bool.and_self]
  · exact h5
  · exact h6

theorem Ledger.Early.restorer_failed {cmd : String} {n : Int} {r : Executed} {x : PyExc}
    (hg : g.Early) (h0 : r.exited0 = false) (hp : x.isA .preflightError = false)
    (hh : okOr Builtin.isException r.result = x.isA .wraithError) :
    PhaseFailed x (g.after (.execCommand .restorer cmd n) r) := by
  obtain ⟨h1, h2, h3, h4, h5, h6⟩ := hg
  refine ⟨h1, h5, h6, fun hleft => ?_, hp, ?_⟩
  · simp only [Ledger.after, Ledger.milestone, Ledger.account, h2, Bool.false_or] at hleft
    simp only [Ledger.after, Ledger.milestone, Ledger.account, h2, Bool.false_or, hleft, if_true,
      benign, h0, Bool.and_false]
  · simp only [Ledger.after, Ledger.milestone, Ledger.account, Control.handled, hh, h4, h5,
      Bool.false_or, Bool.true_and]

/-- The restorer's result, with what it makes of the ledger: an exit code, or a `RestoreError`, or
an exception nobody provides for. -/
def RestorerPost (t : Teleporter) :
    Except PyExc (String × String × Int) → Teleporter → Ledger → Prop
  | .ok (_, _, code), t', g' => t' = t ∧
      if code = 0 then g'.Restored else ∀ x, PhaseError x → PhaseFailed x g'
  | .error x, t', g' => t' = t ∧ PhaseFailed x g'

theorem runRestorer_wp {path : String} (hg : g.Early) (htrans : g.transmitted = true)
    (hconn : t.connected = true) :
    Wp (ledger v) (runRestorer t path) (RestorerPost t) t g := by
  rw [runRestorer]
  refine wp_orRaise (wp_exec hconn (fun _ => trivial) fun n r => ?_)
  rw [ledger_next]
  cases hr : r.result with
  | ok p =>
      obtain ⟨out, err, code⟩ := p
      simp only [execOutcome, hr, Bool.false_eq_true, false_and, if_false]
      refine ⟨rfl, ?_⟩
      split
      · rename_i hcode
        exact hg.restorer htrans (by simp only [Executed.exited0, hr, hcode, decide_true])
      · rename_i hcode
        intro x hx
        refine hg.restorer_failed ?_ hx.notPreflight ?_
        · simp only [Executed.exited0, hr, hcode, decide_false]
        · rw [hr, okOr_ok, hx.wraith]
  | error b =>
      have h0 : r.exited0 = false := by simp only [Executed.exited0, hr]
      simp only [execOutcome, hr]
      by_cases hb : (PyExc.builtin b).isException = true
      · rw [if_pos hb]
        exact ⟨rfl, hg.restorer_failed h0 rfl (by rw [hr]; exact hb)⟩
      · rw [if_neg hb]
        exact ⟨rfl, hg.restorer_failed h0 rfl (by rw [hr]; exact (Bool.not_eq_true _).mp hb)⟩

/-- Of an operation that nobody provides for. -/
theorem Ledger.account_failed {o : PyOp} {r : PyResp o} (hl : leaves o r = false)
    (hb : benign o r = false) (hh : Control.handled o r = false) (hp : g.past = false) :
    ((g.account o r).left = true → (g.account o r).clean = false) ∧
      (g.account o r).handled = false := by
  simp only [Ledger.account, hl, hb, hh, hp, Bool.or_false, Bool.and_false]
  exact ⟨fun hleft => if_pos hleft, trivial⟩

/-- Removing the remote snapshot changes nothing, or raises what nobody provides for. -/
theorem removeRemote_wp {path : String} (hg : g.Restored) (hconn : t.connected = true) :
    Wp (ledger v) (removeRemote path) (fun r t' g' => t' = t ∧ match r with
      | .ok () => g'.Restored
      | .error x => PhaseFailed x g') t g := by
  rw [removeRemote]
  refine wp_suppress ?_
  rw [wp_bind]
  refine wp_exec hconn (fun _ => trivial) fun n r => ?_
  rw [ledger_next]
  cases hr : okOr Builtin.isException r.result with
  | true =>
      rw [show g.after (.execCommand .cleanup _ n) r = g from Ledger.account_eq rfl hr hr]
      cases hres : r.result with
      | ok p =>
          obtain ⟨out, err, code⟩ := p
          simp only [execOutcome, hres]
          by_cases hcode : code ≠ 0
          · simp only [true_and, if_pos hcode, Continues, commandError, PyExc.isException, if_true]
            exact hg
          · simp only [true_and, if_neg hcode]
            exact ⟨rfl, hg⟩
      | error b =>
          rw [hres] at hr
          have hb : (PyExc.builtin b).isException = true := hr
          simp only [execOutcome, hres, Continues, if_pos hb]
          exact ⟨trivial, hg⟩
  | false =>
      cases hres : r.result with
      | ok p => rw [hres] at hr; cases hr
      | error b =>
          have hb : ¬ (PyExc.builtin b).isException = true := by
            rw [hres] at hr
            exact (Bool.not_eq_true _).mpr hr
          simp only [execOutcome, hres, Continues, if_neg hb]
          obtain ⟨hclean, hhandled⟩ := Ledger.account_failed (g := g)
            (o := .execCommand .cleanup s!"rm -f {path}" n) (r := r) rfl hr hr hg.past
          exact ⟨trivial, hg.signalled, hg.past, hg.resumes, hclean, rfl, hhandled⟩

theorem restoreError_phaseError (m : String) (h : Option String) : PhaseError (restoreError m h) :=
  ⟨rfl, rfl⟩

/-- A non-zero exit code is a `RestoreError`. -/
theorem wp_checkRestorer {err : String} {code : Int}
    {Q : Except PyExc Unit → Teleporter → Ledger → Prop} {cfg : Teleporter}
    (hok : code = 0 → Q (.ok ()) t g)
    (herr : code ≠ 0 → ∀ x, PhaseError x → Q (.error x) t g) :
    Wp (ledger v) (checkRestorer cfg err code) Q t g := by
  unfold checkRestorer
  split
  · rename_i h
    exact herr (by rw [h.1]; decide) _ (restoreError_phaseError _ _)
  · split
    · rename_i h
      exact herr h _ (restoreError_phaseError _ _)
    · rename_i h
      exact hok (not_not.mp h)

theorem runRestore_wp {path : String} (hg : g.Early) (htrans : g.transmitted = true)
    (hpath : t.remoteSnapshotPath = some path) (hconn : t.connected = true) :
    Wp (ledger v) runRestore (RestorePost t) t g := by
  rw [runRestore, wp_transition_bind, wp_get_bind]
  simp only [hpath, pyAssert]
  rw [wp_pure_bind]
  refine Wp.bind (runRestorer_wp hg htrans hconn) ?_ ?_
  · rintro ⟨out, err, code⟩ t' g' ⟨rfl, hcode⟩
    rw [wp_bind]
    refine wp_checkRestorer (fun h0 => ?_) (fun h0 x hx => ?_)
    · rw [if_pos h0] at hcode
      simp only [Continues]
      rw [wp_modify_bind]
      split
      · refine wp_mono ?_ (removeRemote_wp hcode hconn)
        rintro (x | _) t'' g'' ⟨rfl, hpost⟩
        · exact ⟨rfl, hpost⟩
        · exact ⟨hpost, rfl, rfl, _, rfl⟩
      · exact ⟨hcode, rfl, rfl, _, rfl⟩
    · rw [if_neg h0] at hcode
      exact ⟨rfl, hcode x hx⟩
  · rintro x t' g' ⟨rfl, hx⟩
    exact ⟨rfl, hx⟩

/-! ## The phases together -/

/-- A phase is under way. -/
def MigrationState.inFlight : MigrationState → Bool
  | .capturing | .transferring | .restoring => true
  | _ => false

def PhasesPost (t : Teleporter) : Except PyExc Unit → Teleporter → Ledger → Prop
  | .ok (), t', g' => g'.Restored ∧ t'.state = .restoring ∧ t'.connected = t.connected ∧
      ∃ pid, t'.destinationPid = some pid
  | .error x, t', g' => t'.state.inFlight = true ∧ PhaseFailed x g'

theorem phases_wp (hg : g.Early) (hpre : g.preflight = true) (hconn : t.connected = true) :
    Wp (ledger v) phases (PhasesPost t) t g := by
  rw [phases]
  refine (runCapture_wp hg hpre).bind ?_ ?_
  · rintro _ t₁ _ ⟨rfl, hc₁, path, hpath⟩
    have he₁ : ({ g with captured := true } : Ledger).Early := { hg with }
    refine (runTransfer_wp he₁ rfl hpath (hc₁.trans hconn)).bind ?_ ?_
    · rintro _ t₂ _ ⟨rfl, hc₂, path', hpath'⟩
      have he₂ : ({ g with captured := true, transmitted := true } : Ledger).Early := { hg with }
      refine wp_mono ?_ (runRestore_wp he₂ rfl hpath' (hc₂.trans (hc₁.trans hconn)))
      rintro (x | _) t₃ g₃ hpost
      · exact ⟨by rw [hpost.1]; rfl, hpost.2⟩
      · exact ⟨hpost.1, hpost.2.1, hpost.2.2.1.trans (hc₂.trans hc₁), hpost.2.2.2⟩
    · rintro x t₂ g₂ ⟨hs, hx⟩
      exact ⟨by rw [hs]; rfl, hx⟩
  · rintro x t₁ g₁ ⟨hs, hx⟩
    exact ⟨by rw [hs]; rfl, hx⟩

end Wraith.Control

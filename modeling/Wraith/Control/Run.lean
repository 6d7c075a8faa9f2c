/-
# `Wraith.Control.Run` — what a run of `migrate` comes to

The specifications of what surrounds the phases: the preflight before them, the commit after them,
the rollback when one of them raises, and the cleanup in any case.  They end in `migrate_wp`, which
the modules on single guarantees read their theorems off.
-/
import Wraith.Control.Ledger

namespace Wraith.Control

open Lib Script

variable {v : Bool} {t : Teleporter} {g : Ledger}

/-! ## The commit -/

/-- All is well, before results are built. -/
structure Ledger.Going (g : Ledger) : Prop where
  restored : g.restored = true
  clean : g.clean = true
  handled : g.handled = true
  past : g.past = false
  resumes : g.resumes = []

/-- Something happened that nobody provides for. -/
structure Ledger.Lost (g : Ledger) : Prop where
  clean : g.left = true → g.clean = false
  handled : g.handled = false
  resumes : g.resumes = []

theorem Ledger.Restored.going (hg : g.Restored) : g.Going := { hg with }

/-- An operation of the commit keeps all well, or loses it. -/
theorem Ledger.Going.after {o : PyOp} {r : PyResp o} (hm : (g.milestone o r).Going)
    (hl : leaves o r = false) (heq : benign o r = Control.handled o r) :
    if Control.handled o r then (g.after o r).Going else (g.after o r).Lost := by
  rw [Ledger.after]
  cases hh : Control.handled o r with
  | true =>
      rw [Ledger.account_eq hl (heq.trans hh) hh]
      exact hm
  | false =>
      obtain ⟨hclean, hhandled⟩ := Ledger.account_failed hl (heq.trans hh) hh hm.past
      exact ⟨hclean, hhandled, hm.resumes⟩

/-- What the `except ProcessLookupError` around the signals gets to see. -/
def SignalPost (t : Teleporter) : Except PyExc Unit → Teleporter → Ledger → Prop
  | .ok (), t', g' => t' = t ∧ g'.Going
  | .error x, t', g' => t' = t ∧ ∃ b, x = .builtin b ∧ if b.isLookup then g'.Going else g'.Lost

theorem signalSource_wp {pid : Int} (hg : g.Going) :
    Wp (ledger false) (signalSource pid) (SignalPost t) t g := by
  rw [signalSource, wp_bind, wp_attempt]
  refine ⟨⟨rfl, hg.restored⟩, fun r => ?_⟩
  have hterm := Ledger.Going.after (g := g) (o := .kill pid .term) (r := r) { hg with } rfl rfl
  rcases r with b | _
  · exact ⟨rfl, b, rfl, hterm⟩
  simp only [id, Except.mapError, Continues, ledger_next]
  have hg₁ : (g.after (.kill pid .term) (.ok ())).Going := hterm
  generalize g.after (.kill pid .term) (.ok ()) = g₁ at hg₁ ⊢
  rw [wp_bind, wp_attempt]
  refine ⟨trivial, fun r => ?_⟩
  have hsleep := Ledger.Going.after (g := g₁) (o := .sleep 500) (r := r) hg₁ rfl
    (by cases r <;> simp [benign, handled])
  rcases r with b | _
  · exact ⟨rfl, b, rfl, by simpa [handled] using hsleep⟩
  simp only [id, Except.mapError, Continues, ledger_next]
  have hg₂ : (g₁.after (.sleep 500) (.ok ())).Going := hsleep
  generalize g₁.after (.sleep 500) (.ok ()) = g₂ at hg₂ ⊢
  refine wp_ignore ignoreLookup_builtin ⟨rfl, hg₂.restored⟩ (fun r hr => ?_) (fun r b hr hb => ?_)
  · have hkill := Ledger.Going.after (g := g₂) (o := .kill pid .kill) (r := r) { hg₂ with } rfl rfl
    exact ⟨rfl, by rwa [show handled (.kill pid .kill) r = true from hr, if_pos rfl] at hkill⟩
  · have hkill := Ledger.Going.after (g := g₂) (o := .kill pid .kill) (r := r) { hg₂ with } rfl rfl
    have hh : handled (.kill pid .kill) r = false := by
      rw [show r = .error b from hr]
      exact hb
    rw [hh] at hkill
    refine ⟨rfl, b, rfl, ?_⟩
    rw [hb]
    exact hkill

theorem terminateSource_wp (hg : g.Going) :
    Wp (ledger false) terminateSource (fun r t' g' => t' = t ∧ match r with
      | .ok () => g'.Going
      | .error x => x.isA .wraithError = false ∧ g'.Lost) t g := by
  rw [terminateSource, wp_get_bind]
  rw [wp_tryExcept]
  refine wp_mono ?_ (signalSource_wp hg)
  rintro (x | _) t' g' hpost
  · obtain ⟨rfl, b, rfl, hb⟩ := hpost
    cases hlook : b.isLookup with
    | true =>
        rw [hlook, if_pos rfl] at hb
        exact (handles_some (c := pure ()) (by rw [ignoreLookup_builtin, hlook]; rfl)).mpr ⟨rfl, hb⟩
    | false =>
        rw [hlook] at hb
        exact (handles_none (by rw [ignoreLookup_builtin, hlook]; rfl)).mpr ⟨rfl, rfl, hb⟩
  · exact hpost

/-! ## Results and cleanup -/

/-- What building the result and cleaning up leave as it was. -/
structure Ledger.Kept (g g' : Ledger) : Prop where
  left : g'.left = g.left
  handled : g'.handled = g.handled
  resumes : g'.resumes = g.resumes

theorem Ledger.Kept.refl (g : Ledger) : g.Kept g := ⟨rfl, rfl, rfl⟩

theorem Ledger.Kept.trans {g g' g'' : Ledger} (h : g.Kept g') (h' : g'.Kept g'') : g.Kept g'' :=
  ⟨h'.left.trans h.left, h'.handled.trans h.handled, h'.resumes.trans h.resumes⟩

/-- Done: all as it was.  Or raised: then a process left running is one too many. -/
def TailPost (t : Teleporter) (g : Ledger) {α : Type} (r : Except PyExc α) (t' : Teleporter)
    (g' : Ledger) : Prop :=
  t'.state = t.state ∧ g.Kept g' ∧ match r with
    | .ok _ => g'.clean = g.clean
    | .error x => x.isA .wraithError = false ∧ (g.left = true → g'.clean = false)

/-- One operation of this part. -/
theorem Ledger.account_kept {o : PyOp} {r : PyResp o} (hl : leaves o r = false)
    (hh : (g.past || Control.handled o r) = true) :
    g.Kept (g.account o r) ∧ if benign o r then (g.account o r).clean = g.clean
      else g.left = true → (g.account o r).clean = false := by
  refine ⟨⟨?_, ?_, rfl⟩, ?_⟩
  · simp only [Ledger.account, hl, Bool.or_false]
  · simp only [Ledger.account, hh, Bool.and_true]
  · cases hb : benign o r with
    | true => simp only [if_true, Ledger.account, hb, Bool.and_true, ite_self]
    | false =>
        intro hleft
        simp only [Ledger.account, hb, hleft, Bool.true_or, if_true, Bool.and_false]

theorem existingSnapshot_wp : Wp (ledger v) existingSnapshot (fun r t' g' => TailPost t g r t' g' ∧
    match r with
      | .ok (some _) => g'.past = true
      | _ => True) t g := by
  rw [existingSnapshot, wp_get_bind]
  split
  · exact ⟨⟨rfl, .refl g, rfl⟩, trivial⟩
  · rename_i path _
    split
    · exact ⟨⟨rfl, .refl g, rfl⟩, trivial⟩
    · refine wp_attempt_bind trivial (fun r found hr => ?_) (fun r b hr => ?_)
      · obtain ⟨hkept, hclean⟩ := Ledger.account_kept (g := { g with past := true })
          (o := .pathExists path) (r := r) rfl rfl
        rw [show benign (.pathExists path) r = true by
          rw [show r = .ok found from hr]; rfl] at hclean
        refine ⟨⟨rfl, ⟨hkept.left, hkept.handled, hkept.resumes⟩, hclean⟩, ?_⟩
        cases found with
        | true => rfl
        | false => trivial
      · obtain ⟨hkept, hclean⟩ := Ledger.account_kept (g := { g with past := true })
          (o := .pathExists path) (r := r) rfl rfl
        rw [show benign (.pathExists path) r = false by
          rw [show r = .error b from hr]; rfl] at hclean
        exact ⟨⟨rfl, ⟨hkept.left, hkept.handled, hkept.resumes⟩, rfl, hclean⟩, trivial⟩

theorem TailPost.trans {α β : Type} {r : Except PyExc α} {r' : Except PyExc β} {a : α}
    {t' t'' : Teleporter} {g' g'' : Ledger} (h : TailPost t g r t' g') (hr : r = .ok a)
    (h' : TailPost t' g' r' t'' g'') : TailPost t g r' t'' g'' := by
  subst hr
  obtain ⟨hs, hk, hc⟩ := h
  obtain ⟨hs', hk', hc'⟩ := h'
  refine ⟨hs'.trans hs, hk.trans hk', ?_⟩
  cases r' with
  | ok b => exact hc'.trans hc
  | error x => exact ⟨hc'.1, fun hleft => hc'.2 (hk.left.trans hleft)⟩

theorem cleanupSnapshot_wp : Wp (ledger v) cleanupSnapshot (TailPost t g) t g := by
  rw [cleanupSnapshot]
  refine existingSnapshot_wp.bind ?_ ?_
  · rintro (_ | path) t₁ g₁ ⟨htail, hpast⟩
    · exact htail
    · refine wp_ignore ignoreOSError_builtin trivial (fun r hr => ?_) (fun r b hr hb => ?_)
      · obtain ⟨hkept, hclean⟩ := Ledger.account_kept (g := g₁) (o := .unlink path) (r := r) rfl
          (Bool.or_true _)
        rw [show benign (.unlink path) r = true from hr] at hclean
        exact htail.trans rfl ⟨rfl, hkept, hclean⟩
      · obtain ⟨hkept, hclean⟩ := Ledger.account_kept (g := g₁) (o := .unlink path) (r := r) rfl
          (Bool.or_true _)
        rw [show benign (.unlink path) r = false by
          rw [show r = .error b from hr]; exact hb] at hclean
        exact htail.trans rfl ⟨rfl, hkept, rfl, hclean⟩
  · rintro x t₁ g₁ ⟨htail, -⟩
    exact htail

theorem snapshotSize_wp : Wp (ledger v) snapshotSize (TailPost t g) t g := by
  rw [snapshotSize]
  refine existingSnapshot_wp.bind ?_ ?_
  · rintro (_ | path) t₁ g₁ ⟨htail, hpast⟩
    · exact htail
    · show Wp (ledger v) (attempt (.getsize path) id) _ _ _
      rw [wp_attempt]
      refine ⟨trivial, ?_⟩
      rintro (b | size)
      · obtain ⟨hkept, hclean⟩ := Ledger.account_kept (g := g₁) (o := .getsize path) (r := .error b)
          rfl (by rw [show g₁.past = true from hpast, Bool.true_or])
        exact htail.trans rfl ⟨rfl, hkept, rfl, hclean⟩
      · obtain ⟨hkept, hclean⟩ := Ledger.account_kept (g := g₁) (o := .getsize path) (r := .ok size)
          rfl (by rw [show g₁.past = true from hpast, Bool.true_or])
        exact htail.trans rfl ⟨rfl, hkept, hclean⟩
  · rintro x t₁ g₁ ⟨htail, -⟩
    exact htail

theorem closeSession_wp : Wp (ledger v) closeSession (TailPost t g) t g := by
  rw [closeSession, wp_get_bind]
  split
  · rw [closeClient, wp_bind]
    refine wp_suppress ?_
    rw [wp_attempt]
    refine ⟨trivial, fun r => ?_⟩
    obtain ⟨hkept, hclean⟩ := Ledger.account_kept (g := g) (o := .sshClose) (r := r) rfl
      (Bool.or_true _)
    rcases r with b | _
    · simp only [id, Except.mapError]
      by_cases hb : (PyExc.builtin b).isException = true
      · rw [if_pos hb]
        rw [show benign .sshClose (.error b) = true from hb] at hclean
        exact ⟨rfl, hkept, hclean⟩
      · rw [if_neg hb]
        rw [show benign .sshClose (.error b) = false from (Bool.not_eq_true _).mp hb] at hclean
        exact ⟨rfl, hkept, rfl, hclean⟩
    · exact ⟨rfl, hkept, hclean⟩
  · exact ⟨rfl, .refl g, rfl⟩

theorem buildResult_wp {pid : Int} (hpid : t.destinationPid = some pid) :
    Wp (ledger v) buildResult (TailPost t g) t g := by
  rw [buildResult, wp_get_bind]
  simp only [hpid, pyAssert]
  rw [wp_pure_bind]
  rw [wp_bind, wp_call]
  refine ⟨trivial, fun now => ?_⟩
  simp only [Continues, ledger_next]
  rw [show g.after .monotonic now = g from Ledger.account_eq rfl rfl rfl]
  refine snapshotSize_wp.bind (fun size t' g' h => ?_) (fun x t' g' h => h)
  exact h

/-- From the commit point on no exception is a `WraithError`, so none leads to a rollback. -/
def CommitPost : Except PyExc MigrationResult → Teleporter → Ledger → Prop
  | .ok _, t', g' => t'.state = .complete ∧ g'.clean = true ∧ g'.handled = true
  | .error x, t', g' => x.isA .wraithError = false ∧ (g'.left = true → g'.clean = false) ∧
      g'.resumes = [] ∧ t'.state = if g'.handled then .complete else .restoring

theorem complete_wp {pid : Int} (hg : g.Going) (hpid : t.destinationPid = some pid) :
    Wp (ledger v) (do transition .complete; buildResult) CommitPost t g := by
  rw [wp_transition_bind]
  refine wp_mono ?_ (buildResult_wp hpid)
  rintro (x | a) t' g' ⟨hst, hkept, hpost⟩
  · refine ⟨hpost.1, fun hleft => hpost.2 (hkept.left.symm.trans hleft),
      hkept.resumes.trans hg.resumes, ?_⟩
    rw [hkept.handled, hg.handled, if_pos rfl]
    exact hst
  · exact ⟨hst, hpost.trans hg.clean, hkept.handled.trans hg.handled⟩

theorem commit_wp {pid : Int} (hg : g.Restored) (hs : t.state = .restoring)
    (hpid : t.destinationPid = some pid) : Wp (ledger v) (commit v) CommitPost t g := by
  cases v with
  | true => exact complete_wp hg.going hpid
  | false =>
      refine (terminateSource_wp hg.going).bind ?_ ?_
      · rintro _ t₁ g₁ ⟨rfl, hgo⟩
        exact complete_wp hgo hpid
      · rintro x t₁ g₁ ⟨rfl, hx, hlost⟩
        refine ⟨hx, hlost.clean, hlost.resumes, ?_⟩
        rw [hlost.handled]
        exact hs

/-! ## Rolling back -/

/-- The state `_rollback` leaves. -/
def stateAfterResume (r : Except Builtin Completed) : MigrationState :=
  if okOr Builtin.isException r then
    if Completed.exited0 r then .rolledBack else .failed
  else .rollingBack

/-- Not rolled back, for want of a handler; or rolled back, as `resume` would have it. -/
def Ledger.Resumed (g : Ledger) (state : MigrationState) : Prop :=
  (g.handled = false ∧ state.inFlight = true) ∨
    ∃ r, g.resumes = [r] ∧ g.handled = okOr Builtin.isException r ∧ state = stateAfterResume r

/-- What has become of a migration that one of the phases has failed. -/
structure Unwound (t : Teleporter) (g : Ledger) : Prop where
  clean : g.left = true → g.clean = false
  resumed : g.Resumed t.state

theorem Ledger.Resumed.kept {g g' : Ledger} {state : MigrationState} (h : g.Resumed state)
    (hk : g.Kept g') : g'.Resumed state := by
  rw [Ledger.Resumed, hk.handled, hk.resumes]
  exact h

/-- The ledger after `resume`, in a phase's wake. -/
theorem PhaseFailed.resume {x : PyExc} {argv : List String} {n : Int}
    {r : Except Builtin Completed} (hg : PhaseFailed x g) (hx : x.isA .wraithError = true)
    (ht : t.state = stateAfterResume r) :
    Unwound t (g.after (.subprocessRun .resume argv n) r) where
  clean hleft := by
    simp only [Ledger.after, Ledger.milestone, Ledger.account, leaves, Bool.or_false] at hleft
    simp only [Ledger.after, Ledger.milestone, Ledger.account, leaves, benign, Bool.or_false, hleft,
      if_true, Bool.and_true]
    exact hg.clean hleft
  resumed := by
    refine Or.inr ⟨r, ?_, ?_, ht⟩
    · simp only [Ledger.after, Ledger.milestone, Ledger.account, hg.resumes, List.nil_append]
    · simp only [Ledger.after, Ledger.milestone, Ledger.account, Control.handled, hg.past,
        hg.handled, hx, Bool.true_and, Bool.false_or]

theorem rollback_wp {x : PyExc} {text : String} (hg : PhaseFailed x g)
    (hx : x.isA .wraithError = true) :
    Wp (ledger v) (rollback text) (fun _ t' g' => Unwound t' g') t g := by
  rw [rollback, wp_transition_bind, wp_get_bind]
  rw [wp_tryExcept, wp_bind, wp_attempt]
  refine ⟨hg.signalled, ?_⟩
  rintro (b | c)
  · simp only [id, Except.mapError, Continues, ledger_next]
    -- `TimeoutExpired`, another exception, or one that is not an `Exception`
    cases b with
    | timeoutExpired text' => exact hg.resume hx rfl
    | os kind text' => exact hg.resume hx rfl
    | exception name text' => exact hg.resume hx rfl
    | base name text' => exact hg.resume hx rfl
  · simp only [id, Except.mapError, Continues, ledger_next, afterResume]
    by_cases hc : c.returncode = 0
    · rw [if_pos hc]
      exact hg.resume hx (by simp [stateAfterResume, Completed.exited0, hc])
    · rw [if_neg hc]
      refine hg.resume hx ?_
      simp [stateAfterResume, Completed.exited0, hc]

/-- The handlers of `migrate`, given what a phase has raised: the exception goes on, or another. -/
theorem unwind_wp {x : PyExc} (hg : PhaseFailed x g) (ht : t.state.inFlight = true) :
    Handles (ledger v) onMigrateError (fun r t' g' => (∃ y, r = .error y) ∧ Unwound t' g')
      (.error x) t g := by
  by_cases hx : x.isA .wraithError = true
  · refine (handles_some (c := do rollback x.str; raise x) ?_).mpr ?_
    · simp only [onMigrateError, hg.notPreflight, hx, if_true, Bool.false_eq_true, if_false]
    · exact (rollback_wp hg hx).bind (fun _ t' g' h => ⟨⟨_, rfl⟩, h⟩) fun y t' g' h => ⟨⟨_, rfl⟩, h⟩
  · refine (handles_none ?_).mpr ⟨⟨x, rfl⟩, hg.clean, Or.inl ⟨?_, ht⟩⟩
    · simp only [onMigrateError, hg.notPreflight, hx, Bool.false_eq_true, if_false]
    · rw [hg.handled]
      exact (Bool.not_eq_true _).mp hx

/-! ## The run as a whole -/

/-- Nothing has happened yet but connecting. -/
theorem connect_wp :
    Wp (ledger v) connect (fun r t' g' => t'.state = t.state ∧ g' = g ∧ match r with
    | .ok () => t'.connected = true
    | .error _ => True) t g := by
  rw [connect, wp_get_bind]
  by_cases hc : t.connected = true
  · rw [if_pos hc]
    exact ⟨rfl, rfl, hc⟩
  · rw [if_neg hc, connectClient, wp_bind, wp_call]
    refine ⟨trivial, fun r => ?_⟩
    rw [ledger_next, show g.after (.sshConnect _) r = g from Ledger.account_eq rfl rfl rfl]
    rcases r with e | _
    · exact ⟨rfl, rfl, trivial⟩
    · exact ⟨rfl, rfl, rfl⟩

/-- What `_run_preflight` raises: a `PreflightError`, or no `WraithError` at all. -/
def PreflightPost (t : Teleporter) (g : Ledger) : Except PyExc Unit → Teleporter → Ledger → Prop
  | .ok (), t', g' => g' = { g with preflight := true } ∧ t'.connected = t.connected
  | .error x, t', g' => g'.Early ∧ t'.state.inFlight = false ∧
      x.isA .wraithError = x.isA .preflightError

theorem preflightFailure_isA (pid : Int) (results : List CheckResult) :
    (preflightFailure pid results).isA .wraithError =
      (preflightFailure pid results).isA .preflightError := by
  unfold preflightFailure
  split <;> rfl

theorem runPreflight_wp (hg : g.Early) : Wp (ledger v) runPreflight (PreflightPost t g) t g := by
  rw [runPreflight, wp_transition_bind, wp_get_bind]
  rw [wp_bind, wp_attempt]
  refine ⟨trivial, ?_⟩
  rintro (b | results)
  · have hgb : g.after (.runAll t.pid) (.error b) = g := Ledger.account_eq rfl rfl rfl
    simp only [id, Except.mapError, Continues, ledger_next]
    rw [hgb]
    exact ⟨hg, rfl, rfl⟩
  · have hgr : g.after (.runAll t.pid) (.ok results) = { g with preflight := allPassed results } :=
      Ledger.account_eq rfl rfl rfl
    simp only [id, Except.mapError, Continues, ledger_next]
    rw [hgr]
    by_cases hpass : allPassed results = true
    · rw [if_pos hpass, hpass]
      exact ⟨rfl, rfl⟩
    · rw [if_neg hpass]
      exact ⟨{ hg with }, rfl, preflightFailure_isA _ _⟩

/-- What a run of `migrate` leaves. -/
def MigratePost : Except PyExc MigrationResult → Teleporter → Ledger → Prop
  | .ok _, t', g' => t'.state = .complete ∧ g'.clean = true
  | .error _, _, g' => g'.left = true → g'.clean = false

theorem CommitPost.migratePost {r : Except PyExc MigrationResult} (h : CommitPost r t g) :
    MigratePost r t g := by
  cases r with
  | ok a => exact ⟨h.1, h.2.1⟩
  | error x => exact h.2.1

/-- The handlers let what the commit raises pass. -/
theorem CommitPost.handles {r : Except PyExc MigrationResult} (h : CommitPost r t g) :
    Handles (ledger v) onMigrateError CommitPost r t g := by
  cases r with
  | ok a => exact h
  | error x =>
      have hx := h.1
      have hp : x.isA .preflightError = false := by
        cases x with
        | wraith c m hint => exact absurd hx (by simp)
        | builtin b => rfl
      refine (handles_none ?_).mpr h
      simp only [onMigrateError, hp, hx, Bool.false_eq_true, if_false]

/-- What the preflight raises leads to no rollback. -/
theorem preflight_handles {x : PyExc} (ht : t.state.inFlight = false)
    (hx : x.isA .wraithError = x.isA .preflightError) :
    Handles (ledger v) onMigrateError (fun r t' g' => (∃ y, r = .error y) ∧ g' = g ∧
      t'.state.inFlight = false) (.error x) t g := by
  by_cases hp : x.isA .preflightError = true
  · refine (handles_some (c := do transition .rolledBack; raise x) ?_).mpr ⟨⟨x, rfl⟩, rfl, rfl⟩
    simp only [onMigrateError, hp, if_true]
  · refine (handles_none ?_).mpr ⟨⟨x, rfl⟩, rfl, ht⟩
    simp only [onMigrateError, hx, hp, Bool.false_eq_true, if_false]

theorem migrateBody_wp (hg : g.Early) (hconn : t.connected = true) :
    Wp (ledger v) (migrateBody v) (Handles (ledger v) onMigrateError MigratePost) t g := by
  rw [migrateBody, wp_bind, wp_connect_again hconn]
  simp only [Continues]
  refine (runPreflight_wp hg).bind ?_ ?_
  · rintro _ t₁ _ ⟨rfl, hc₁⟩
    have hg₁ : ({ g with preflight := true } : Ledger).Early := { hg with }
    refine (phases_wp hg₁ rfl (hc₁.trans hconn)).bind ?_ ?_
    · rintro _ t₂ g₂ ⟨hrest, hs, -, pid, hpid⟩
      exact wp_mono (fun _ _ _ h => handles_mono (fun _ _ _ h => h.migratePost) h.handles)
        (commit_wp hrest hs hpid)
    · rintro x t₂ g₂ ⟨hs, hx⟩
      refine handles_mono ?_ (unwind_wp hx hs)
      rintro _ t' g' ⟨⟨y, rfl⟩, hun⟩
      exact hun.clean
  · rintro x t₁ g₁ ⟨hg₁, hs, hx⟩
    refine handles_mono ?_ (preflight_handles hs hx)
    rintro _ t' _ ⟨⟨y, rfl⟩, rfl, -⟩ hleft
    rw [hg₁.left] at hleft
    cases hleft

/-- `finally` neither saves a failed migration nor fails one that is clean. -/
theorem MigratePost.closes {r : Except PyExc MigrationResult} (h : MigratePost r t g)
    {u : Except PyExc Unit} {t' : Teleporter} {g' : Ledger} (htail : TailPost t g u t' g') :
    Closes r MigratePost u t' g' := by
  obtain ⟨hst, hkept, hpost⟩ := htail
  cases u with
  | error x => exact fun hleft => hpost.2 (hkept.left.symm.trans hleft)
  | ok _ =>
      cases r with
      | ok a => exact ⟨hst.trans h.1, hpost.trans h.2⟩
      | error x => exact fun hleft => hpost.trans (h (hkept.left.symm.trans hleft))

theorem migrate_wp : Wp (ledger v) (migrate v) MigratePost t {} := by
  have hg : ({} : Ledger).Early := ⟨rfl, rfl, rfl, rfl, rfl, rfl⟩
  rw [migrate, wp_bind, wp_call]
  refine ⟨trivial, fun now => ?_⟩
  simp only [Continues, ledger_next]
  rw [show Ledger.after {} .monotonic now = {} from Ledger.account_eq rfl rfl rfl, wp_modify_bind]
  refine connect_wp.bind ?_ ?_
  · rintro _ t₁ _ ⟨-, rfl, hconn⟩
    rw [wp_tryFinally, wp_tryFinally, wp_tryExcept]
    refine wp_mono (fun r t' g' h => ?_) (migrateBody_wp hg hconn)
    refine handles_mono (fun r t' g' hr => ?_) h
    refine wp_mono (fun u t₂ g₂ hu => ?_) cleanupSnapshot_wp
    refine closes_mono (fun r t₃ g₃ hr => ?_) (hr.closes hu)
    exact wp_mono (fun u t₄ g₄ hu => hr.closes hu) closeSession_wp
  · rintro x t₁ _ ⟨-, rfl, -⟩ hleft
    cases hleft

end Wraith.Control

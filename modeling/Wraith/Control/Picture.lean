/-
# `Wraith.Control.Picture` — when the preflight suite gives the full picture

`run_all` is to return with one result for each check, whatever the probes raise.  The `try`
statements of the checks catch every `Exception`, but for the one around the opening of
`/proc/<pid>/mem`, which catches a `PermissionError` and a `FileNotFoundError`: any other exception
there leaves `run_all`, and the checks after it are not made.

Three predicates on scripts, from the inside out, each with the rules that build it:

    Probes   the body of a `try`: what it raises is what the last probe has raised, or is caught
    Guarded  the `try` statement: it returns if every exception is caught, and fails if there was
    one Records  a check: one result, under the check's name

`Appends` puts the checks of a suite together.
-/
import Mathlib.Data.List.Forall2
import Wraith.Control.Checks

namespace Wraith.Control

open Lib Script

variable {α β : Type}

/-! ## Exceptions of probes -/

/-- The exception a probe has raised. -/
def raised (ev : Event ChkResp) : Option PyExc :=
  match ev.1.view ev.2 with
  | .ok _ => none
  | .error e => some e

/-- `PermissionError` or `FileNotFoundError`. -/
def catchesOpen : PyExc → Bool
  | .builtin (.os .permission _) => true
  | .builtin (.os .fileNotFound _) => true
  | _ => false

/-- The exceptions caught where the probe is made. -/
def ChkOp.catches : ChkOp → PyExc → Bool
  | .openMem _ => catchesOpen
  | .closeMem _ => catchesOpen
  | _ => PyExc.isException

/-- What the probe has raised, if anything, is caught. -/
def Caught (ev : Event ChkResp) : Prop := ∀ e, raised ev = some e → ev.1.catches e = true

/-! ## The full picture -/

/-- A result is the check's, and if a probe of the check has raised, it failed and blocks. -/
def Recorded (tr : List (Event ChkResp)) (k : Check) (result : CheckResult) : Prop :=
  result.name = k.name ∧ ∀ ev ∈ tr, ev.1.check = k → (raised ev).isSome = true →
    result.passed = false ∧ result.blocking = true

/-- The suite returns, with a result for each check in order, and the verdict is that of the
blocking failures. -/
def FullPicture (earlier : List CheckResult) (tr : List (Event ChkResp)) (r : Except PyExc Bool)
    (results : List CheckResult) : Prop :=
  ∃ passed new, r = .ok passed ∧ results = earlier ++ new ∧ List.Forall₂ (Recorded tr) suite new ∧
    (passed = true ↔ blockingFailures results = [])

theorem allPassed_iff {results : List CheckResult} :
    allPassed results = true ↔ blockingFailures results = [] := by
  rw [allPassed, blockingFailures, List.all_eq_true, List.filter_eq_nil_iff]
  refine forall₂_congr fun r _ => ?_
  cases r.passed <;> cases r.blocking <;> decide

/-! ## Bodies -/

variable {k : Check} {catches : PyExc → Bool} {s s' : List CheckResult} {tr : List (Event ChkResp)}

/-- A run of the body of a `try`. -/
structure Probed (k : Check) (catches : PyExc → Bool) (s : List CheckResult)
    (tr : List (Event ChkResp)) (r : Except PyExc α)
    (s' : List CheckResult) : Prop where
  same : s' = s
  tagged : ∀ ev ∈ tr, ev.1.check = k
  quiet : ∀ a, r = .ok a → ∀ ev ∈ tr, raised ev = none
  escapes : ∀ e, r = .error e → ((∀ ev ∈ tr, Caught ev) ↔ catches e = true)

/-- The body leaves the results alone, makes probes for the check `k` only, returns only if none of
them has raised, and otherwise raises something caught if all that was raised is. -/
def Probes (k : Check) (catches : PyExc → Bool) (c : Chk α) : Prop :=
  ∀ s tr r s', Cmd.Runs (c s) tr (r, s') → Probed k catches s tr r s'

theorem Caught.of_none {ev : Event ChkResp} (h : raised ev = none) : Caught ev := fun e he => by
  rw [h] at he
  exact nomatch he

theorem raised_ok {o : ChkOp} {r : ChkResp o} {a : ChkValue o} (h : o.view r = .ok a) :
    raised ⟨o, r⟩ = none := by
  rw [raised, h]

theorem raised_error {o : ChkOp} {r : ChkResp o} {e : PyExc} (h : o.view r = .error e) :
    raised ⟨o, r⟩ = some e := by
  rw [raised, h]

theorem Probes.ofExcept {r : Except PyExc α} (h : ∀ e, r = .error e → catches e = true) :
    Probes k catches (ofExcept r : Chk α) := by
  have hnil : ∀ s, Probed k catches s [] r s := fun s =>
    ⟨rfl, List.forall_mem_nil _, fun _ _ => List.forall_mem_nil _,
      fun e he => ⟨fun _ => h e he, fun _ => List.forall_mem_nil _⟩⟩
  intro s tr q s' hr
  cases r with
  | ok a =>
      obtain ⟨rfl, heq⟩ := runs_pure.mp hr
      obtain ⟨rfl, rfl⟩ := Prod.mk.inj heq
      exact hnil _
  | error e =>
      obtain ⟨rfl, heq⟩ := runs_raise.mp hr
      obtain ⟨rfl, rfl⟩ := Prod.mk.inj heq
      exact hnil _

theorem Probes.pure {a : α} : Probes k catches (pure a : Chk α) :=
  Probes.ofExcept (r := .ok a) nofun

theorem Probes.probe {o : ChkOp} (hk : o.check = k) (hcatches : o.catches = catches) :
    Probes k catches (probe o) := by
  intro s tr q s' hr
  obtain ⟨r, tr', rfl, hret⟩ := Cmd.runs_op.mp hr
  obtain ⟨rfl, heq⟩ := Cmd.runs_ret.mp hret
  obtain ⟨rfl, rfl⟩ := Prod.mk.inj heq
  refine ⟨rfl, fun ev hev => ?_, fun a ha ev hev => ?_, fun e he => ?_⟩
  · obtain rfl := List.mem_singleton.mp hev
    exact hk
  · obtain rfl := List.mem_singleton.mp hev
    exact raised_ok ha
  · have hraised := raised_error he
    rw [List.forall_mem_singleton, ← hcatches]
    refine ⟨fun hcaught => hcaught e hraised, fun hcatch e' he' => ?_⟩
    obtain rfl := Option.some.inj (hraised.symm.trans he')
    exact hcatch

theorem Probes.bind {c : Chk α} {f : α → Chk β} (hc : Probes k catches c)
    (hf : ∀ a, Probes k catches (f a)) : Probes k catches (c >>= f) := by
  intro s tr q s' hr
  obtain ⟨x, hx, hrun⟩ | ⟨tr₁, a, s₁, tr₂, hrun, hrest, rfl⟩ := runs_bind_cases hr
  · obtain rfl := hx
    obtain ⟨hsame, htagged, -, hescapes⟩ := hc _ _ _ _ hrun
    exact ⟨hsame, htagged, nofun, fun e he =>
      hescapes e (congrArg Except.error (Except.error.inj he))⟩
  · obtain ⟨rfl, htagged, hquiet, -⟩ := hc _ _ _ _ hrun
    obtain ⟨rfl, htagged', hquiet', hescapes'⟩ := hf a _ _ _ _ hrest
    have hfirst := hquiet a rfl
    refine ⟨rfl, List.forall_mem_append.mpr ⟨htagged, htagged'⟩,
      fun b hb => List.forall_mem_append.mpr ⟨hfirst, hquiet' b hb⟩, fun e he => ?_⟩
    rw [List.forall_mem_append, ← hescapes' e he]
    exact and_iff_right fun ev hev => .of_none (hfirst ev hev)

/-! ## `try` statements -/

/-- Behind a script that raises if something is not caught: if it has returned, all is caught. -/
theorem caught_of_returns {r : Except PyExc α} {a : α}
    (hescapes : (¬ ∀ ev ∈ tr, Caught ev) → ∃ e, r = .error e) (hr : r = .ok a) :
    ∀ ev ∈ tr, Caught ev := by
  by_contra hnot
  obtain ⟨e, he⟩ := hescapes hnot
  cases hr.symm.trans he

/-- A run of a `try` statement; `fails` is what its value is to show of an exception. -/
structure Contained (k : Check) (fails : α → Prop) (s : List CheckResult)
    (tr : List (Event ChkResp)) (r : Except PyExc α)
    (s' : List CheckResult) : Prop where
  same : s' = s
  tagged : ∀ ev ∈ tr, ev.1.check = k
  returns : (∀ ev ∈ tr, Caught ev) →
    ∃ a, r = .ok a ∧ ((∃ ev ∈ tr, (raised ev).isSome = true) → fails a)
  escapes : (¬ ∀ ev ∈ tr, Caught ev) → ∃ e, r = .error e

def Guarded (k : Check) (fails : α → Prop) (c : Chk α) : Prop :=
  ∀ s tr r s', Cmd.Runs (c s) tr (r, s') → Contained k fails s tr r s'

variable {fails : α → Prop}

theorem not_raised (h : ∀ ev ∈ tr, raised ev = none) : ¬ ∃ ev ∈ tr, (raised ev).isSome = true := by
  rintro ⟨ev, hev, hsome⟩
  rw [h ev hev] at hsome
  exact nomatch hsome

theorem Guarded.tryExcept {body : Chk α} {handler : PyExc → Option (Chk α)}
    (hbody : Probes k catches body)
    (hcatch : ∀ e, catches e = true → ∃ a, handler e = some (pure a) ∧ fails a)
    (hpass : ∀ e, catches e = false → handler e = none) :
    Guarded k fails (tryExcept body handler) := by
  intro s tr q s' hr
  obtain ⟨tr₁, ⟨r, s₁⟩, tr₂, hrun, hhandle, rfl⟩ := runs_tryExcept.mp hr
  obtain ⟨rfl, htagged, hquiet, hescapes⟩ := hbody _ _ _ _ hrun
  cases r with
  | ok a =>
      obtain ⟨rfl, heq⟩ := Cmd.runs_ret.mp hhandle
      obtain ⟨rfl, rfl⟩ := Prod.mk.inj heq
      rw [List.append_nil]
      have hnone := hquiet a rfl
      exact ⟨rfl, htagged, fun _ => ⟨a, rfl, fun h => absurd h (not_raised hnone)⟩,
        fun h => absurd (fun ev hev => .of_none (hnone ev hev)) h⟩
  | error e =>
      have hiff := hescapes e rfl
      by_cases hcatches : catches e = true
      · obtain ⟨a, hhandler, hfails⟩ := hcatch e hcatches
        rw [handle, hhandler] at hhandle
        obtain ⟨rfl, heq⟩ := runs_pure.mp hhandle
        obtain ⟨rfl, rfl⟩ := Prod.mk.inj heq
        rw [List.append_nil]
        exact ⟨rfl, htagged, fun _ => ⟨a, rfl, fun _ => hfails⟩, fun h =>
          absurd (hiff.mpr hcatches) h⟩
      · rw [handle, hpass e (Bool.eq_false_iff.mpr hcatches)] at hhandle
        obtain ⟨rfl, heq⟩ := Cmd.runs_ret.mp hhandle
        obtain ⟨rfl, rfl⟩ := Prod.mk.inj heq
        rw [List.append_nil]
        exact ⟨rfl, htagged, fun h => absurd (hiff.mp h) hcatches, fun _ => ⟨e, rfl⟩⟩

/-- What cannot raise needs no `try`. -/
theorem Guarded.of_probes {c : Chk α} (hc : Probes k catches c)
    (hok : ∀ s tr e s', ¬ Cmd.Runs (c s) tr (.error e, s')) : Guarded k fails c := by
  intro s tr q s' hr
  obtain ⟨hsame, htagged, hquiet, -⟩ := hc _ _ _ _ hr
  cases q with
  | error e => exact absurd hr (hok _ _ _ _)
  | ok a =>
      have hnone := hquiet a rfl
      exact ⟨hsame, htagged, fun _ => ⟨a, rfl, fun h => absurd h (not_raised hnone)⟩,
        fun h => absurd (fun ev hev => .of_none (hnone ev hev)) h⟩

theorem Guarded.pure {a : α} : Guarded k fails (pure a : Chk α) :=
  .of_probes (.pure : Probes k PyExc.isException _) fun _ _ _ _ h =>
    nomatch (Prod.mk.inj (runs_pure.mp h).2).1

theorem Guarded.probe {o : ChkOp} {fails : ChkValue o → Prop} (hk : o.check = k)
    (hok : ∀ r e, o.view r ≠ .error e) : Guarded k fails (probe o) :=
  .of_probes (.probe hk rfl) fun s tr e s' h => by
    obtain ⟨r, tr', -, hret⟩ := Cmd.runs_op.mp h
    exact hok r e (Prod.mk.inj (Cmd.runs_ret.mp hret).2).1.symm

/-- One `try` statement after another: what fails in the first is to fail in the end. -/
theorem Guarded.bind {c : Chk α} {f : α → Chk β} {fails' : β → Prop} (hc : Guarded k fails c)
    (hf : ∀ a, Guarded k fails' (f a))
    (hfails : ∀ a, fails a → ∀ s tr b s', Cmd.Runs (f a s) tr (.ok b, s') → fails' b) :
    Guarded k fails' (c >>= f) := by
  intro s tr q s' hr
  obtain ⟨x, hx, hrun⟩ | ⟨tr₁, a, s₁, tr₂, hrun, hrest, rfl⟩ := runs_bind_cases hr
  · obtain rfl := hx
    obtain ⟨hsame, htagged, hreturns, hescapes⟩ := hc _ _ _ _ hrun
    refine ⟨hsame, htagged, fun h => ?_, fun _ => ⟨x, rfl⟩⟩
    obtain ⟨a, ha, -⟩ := hreturns h
    exact nomatch ha
  · obtain ⟨rfl, htagged, hreturns, hescapes⟩ := hc _ _ _ _ hrun
    obtain ⟨rfl, htagged', hreturns', hescapes'⟩ := hf a _ _ _ _ hrest
    have hcaught := caught_of_returns hescapes rfl
    refine ⟨rfl, List.forall_mem_append.mpr ⟨htagged, htagged'⟩, fun h => ?_, fun h => ?_⟩
    · obtain ⟨b, rfl, hb⟩ := hreturns' (List.forall_mem_append.mp h).2
      refine ⟨b, rfl, fun hraised => ?_⟩
      obtain ⟨ev, hev, hsome⟩ := hraised
      obtain hev | hev := List.mem_append.mp hev
      · obtain ⟨a', ha, hfail⟩ := hreturns hcaught
        obtain rfl := Except.ok.inj ha
        exact hfails a (hfail ⟨ev, hev, hsome⟩) _ _ b _ hrest
      · exact hb ⟨ev, hev, hsome⟩
    · exact hescapes' fun h' => h (List.forall_mem_append.mpr ⟨hcaught, h'⟩)

/-! ## Checks -/

/-- A run of a check: one result, which fails and blocks if a probe has raised. -/
structure Records (k : Check) (s : List CheckResult) (tr : List (Event ChkResp))
    (r : Except PyExc CheckResult) (s' : List CheckResult) : Prop where
  tagged : ∀ ev ∈ tr, ev.1.check = k
  returns : (∀ ev ∈ tr, Caught ev) → ∃ result, s' = s ++ [result] ∧ r = .ok result ∧
    result.name = k.name ∧ ((∃ ev ∈ tr, (raised ev).isSome = true) →
      result.passed = false ∧ result.blocking = true)
  escapes : (¬ ∀ ev ∈ tr, Caught ev) → ∃ e, r = .error e

/-- The check for `k`. -/
def Checks (k : Check) (c : Chk CheckResult) : Prop :=
  ∀ s tr r s', Cmd.Runs (c s) tr (r, s') → Records k s tr r s'

theorem runs_record {result : CheckResult} {p : Except PyExc CheckResult × List CheckResult}
    (h : Cmd.Runs (record result s) tr p) : tr = [] ∧ p = (.ok result, s ++ [result]) := by
  exact Cmd.runs_ret.mp h

theorem Checks.of_guarded (fails : α → Prop) {c : Chk α} {f : α → Chk CheckResult}
    (hc : Guarded k fails c)
    (hf : ∀ a, ∃ result, f a = record result ∧ result.name = k.name ∧
      (fails a → result.passed = false ∧ result.blocking = true)) : Checks k (c >>= f) := by
  intro s tr q s' hr
  obtain ⟨x, hx, hrun⟩ | ⟨tr₁, a, s₁, tr₂, hrun, hrest, rfl⟩ := runs_bind_cases hr
  · obtain rfl := hx
    obtain ⟨hsame, htagged, hreturns, hescapes⟩ := hc _ _ _ _ hrun
    refine ⟨htagged, fun h => ?_, fun _ => ⟨x, rfl⟩⟩
    obtain ⟨a, ha, -⟩ := hreturns h
    exact nomatch ha
  · obtain ⟨rfl, htagged, hreturns, hescapes⟩ := hc _ _ _ _ hrun
    obtain ⟨result, hresult, hname, hfails⟩ := hf a
    rw [hresult] at hrest
    obtain ⟨rfl, heq⟩ := runs_record hrest
    obtain ⟨rfl, rfl⟩ := Prod.mk.inj heq
    rw [List.append_nil]
    refine ⟨htagged, fun h => ⟨result, rfl, rfl, hname, fun hraised => ?_⟩, fun h => ?_⟩
    · obtain ⟨a', ha, hfail⟩ := hreturns h
      obtain rfl := Except.ok.inj ha
      exact hfails (hfail hraised)
    · exact absurd (caught_of_returns hescapes rfl) h

/-- A check behind a probe that cannot raise. -/
theorem Checks.probe_bind {o : ChkOp} {f : ChkValue o → Chk CheckResult} (hk : o.check = k)
    (hok : ∀ r, ∃ a, o.view r = .ok a) (hf : ∀ a, Checks k (f a)) : Checks k (probe o >>= f) := by
  intro s tr q s' hr
  obtain ⟨r, tr', rfl, hrest⟩ := Cmd.runs_op.mp hr
  obtain ⟨a, ha⟩ := hok r
  change Cmd.Runs (continue_ f (o.view r, s)) tr' (q, s') at hrest
  rw [ha] at hrest
  obtain ⟨htagged, hreturns, hescapes⟩ := hf a _ _ _ _ hrest
  have hnone : raised ⟨o, r⟩ = none := raised_ok ha
  have hcaught : (∀ ev ∈ ⟨o, r⟩ :: tr', Caught ev) ↔ ∀ ev ∈ tr', Caught ev := by
    rw [List.forall_mem_cons]
    exact and_iff_right (.of_none hnone)
  refine ⟨List.forall_mem_cons.mpr ⟨hk, htagged⟩, fun h => ?_, fun h => hescapes (mt hcaught.mpr h)⟩
  obtain ⟨result, happend, hresult, hname, hfails⟩ := hreturns (hcaught.mp h)
  refine ⟨result, happend, hresult, hname, fun ⟨ev, hev, hsome⟩ => ?_⟩
  obtain rfl | hev := List.mem_cons.mp hev
  · rw [hnone] at hsome
    exact nomatch hsome
  · exact hfails ⟨ev, hev, hsome⟩

variable (c : PreflightChecker)

theorem checkSourceProcessExists_checks :
    Checks .sourceProcessExists (checkSourceProcessExists c) :=
  .of_guarded (fun _ => False) (.probe rfl nofun) fun _ => ⟨_, rfl, rfl, False.elim⟩

theorem onOpenError_some {e : PyExc} (h : catchesOpen e = true) :
    ∃ a, onOpenError c e = some (pure a) ∧ a.1 = false := by
  unfold catchesOpen at h
  split at h
  · exact ⟨_, rfl, rfl⟩
  · exact ⟨_, rfl, rfl⟩
  · exact nomatch h

theorem onOpenError_none {e : PyExc} (h : catchesOpen e = false) : onOpenError c e = none := by
  unfold onOpenError
  split
  · exact nomatch h
  · exact nomatch h
  · rfl

theorem openMem_probes : Probes .sourceProcessPermissions catchesOpen (openMem c) :=
  .bind (.probe rfl rfl) fun _ => .bind (.probe rfl rfl) fun _ => .pure

theorem checkSourceProcessPermissions_checks :
    Checks .sourceProcessPermissions (checkSourceProcessPermissions c) :=
  .of_guarded (fun a : Bool × String => a.1 = false)
    (.tryExcept (openMem_probes c) (fun _ h => onOpenError_some c h) fun _ h =>
      onOpenError_none c h)
    fun _ => ⟨_, rfl, rfl, fun h => ⟨h, rfl⟩⟩

/-! ## Exceptions of parsing -/

/-- Whatever is raised is an `Exception`. -/
def Ordinary (r : Except Builtin α) : Prop := ∀ b, r = .error b → b.isException = true

theorem Ordinary.ok {a : α} : Ordinary (.ok a) := nofun

theorem Ordinary.exception {name text : String} :
    Ordinary (.error (.exception name text) : Except Builtin α) := fun b hb => by
  obtain rfl := Except.error.inj hb
  rfl

theorem Ordinary.bind {r : Except Builtin α} {f : α → Except Builtin β} (hr : Ordinary r)
    (hf : ∀ a, Ordinary (f a)) : Ordinary (r >>= f) := by
  cases r with
  | ok a => exact hf a
  | error b => exact fun b' hb' => hr b' (congrArg Except.error (Except.error.inj hb'))

theorem Ordinary.mapError {r : Except Builtin α} (h : Ordinary r) :
    ∀ e, r.mapError PyExc.builtin = .error e → e.isException = true := by
  intro e he
  cases r with
  | ok a => exact nomatch he
  | error b =>
      obtain rfl := Except.error.inj he
      exact h b rfl

theorem kbToGb_ordinary (kb : Int) : Ordinary (kbToGb kb) := by
  unfold kbToGb
  dsimp only
  split
  · exact .exception
  · exact .ok

theorem timesOneAndHalf_ordinary (kb : Int) : Ordinary (timesOneAndHalf kb) := by
  unfold timesOneAndHalf
  dsimp only
  split
  · exact .exception
  · split
    · exact .exception
    · exact .ok

theorem intOf_ordinary (s : String) : Ordinary (intOf s) := by
  unfold intOf
  split
  · exact .ok
  · unfold intError
    dsimp only
    split
    · exact .exception
    · exact .exception

theorem item_ordinary (parts : List String) (i : Nat) : Ordinary (item parts i) := by
  unfold item
  split
  · exact .ok
  · exact .exception

theorem freeAvailable_ordinary (output : String) :
    ∀ lines : List String, Ordinary (freeAvailable output lines)
  | [] => .exception
  | line :: lines => by
      unfold freeAvailable
      dsimp only
      split
      · exact freeAvailable_ordinary output lines
      · split
        · exact .bind (item_ordinary _ _) intOf_ordinary
        · split
          · exact .bind (item_ordinary _ _) intOf_ordinary
          · exact freeAvailable_ordinary output lines

/-! ## The checks behind `except Exception` -/

theorem Guarded.onException {body : Chk α} {f : PyExc → α} (hbody : Probes k PyExc.isException body)
    (hf : ∀ e, fails (f e)) : Guarded k fails (Script.tryExcept body (Control.onException f)) :=
  .tryExcept hbody (fun e he => ⟨f e, if_pos he, hf e⟩) fun e he =>
    if_neg (by rw [he]; exact Bool.false_ne_true)

theorem sessionExec_probes {session : RemoteSession} {cmd : String} {timeout : Option Int}
    {check : Bool} :
    Probes k PyExc.isException (sessionExec k session cmd timeout check) :=
  .bind (.probe rfl rfl) fun _ => .probe rfl rfl

variable (c : PreflightChecker) {session : RemoteSession}

theorem measureSize_probes : Probes .sourceProcessSize PyExc.isException (measureSize c) :=
  .bind (.probe rfl rfl) fun _ => .bind (.ofExcept (kbToGb_ordinary _).mapError) fun _ => .pure

theorem checkSourceProcessSize_checks : Checks .sourceProcessSize (checkSourceProcessSize c) :=
  .of_guarded (fun a : Bool × String => a.1 = false)
    (.onException (measureSize_probes c) fun _ => rfl)
    fun a => ⟨_, rfl, rfl, fun h => ⟨h, by rw [h]; rfl⟩⟩

theorem checkSourceArch_checks : Checks .sourceArch checkSourceArch :=
  .of_guarded (fun _ => False) (.probe rfl nofun) fun _ => ⟨_, rfl, rfl, False.elim⟩

theorem checkDestinationReachable_checks (h : c.session = some session) :
    Checks .destinationReachable (checkDestinationReachable c) := by
  rw [checkDestinationReachable, assertSession, h]
  exact .of_guarded (fun a : Bool × String => a.1 = false)
    (.onException (.bind sessionExec_probes fun _ => .pure) fun _ => rfl)
    fun _ => ⟨_, rfl, rfl, fun h => ⟨h, rfl⟩⟩

theorem checkDestinationArch_checks (h : c.session = some session) :
    Checks .architectureMatch (checkDestinationArch c) := by
  rw [checkDestinationArch, assertSession, h]
  refine .probe_bind rfl (fun r => ⟨r, rfl⟩) fun srcArch => ?_
  exact .of_guarded (fun a : Bool × String => a.1 = false)
    (.onException (.bind sessionExec_probes fun _ => .pure) fun _ => rfl)
    fun _ => ⟨_, rfl, rfl, fun h => ⟨h, rfl⟩⟩

theorem compareResources_probes :
    Probes .destinationResources PyExc.isException (compareResources c session) :=
  .bind (.probe rfl rfl) fun _ => .bind (.ofExcept (timesOneAndHalf_ordinary _).mapError) fun _ =>
    .bind sessionExec_probes fun _ =>
      .bind (.ofExcept (Ordinary.mapError (freeAvailable_ordinary _ _))) fun _ => .pure

theorem checkDestinationResources_checks (h : c.session = some session) :
    Checks .destinationResources (checkDestinationResources c) := by
  rw [checkDestinationResources, assertSession, h]
  exact .of_guarded (fun a : Bool × String => a.1 = false)
    (.onException (compareResources_probes c) fun _ => rfl)
    fun _ => ⟨_, rfl, rfl, fun h => ⟨h, rfl⟩⟩

/-- What is missing stays missing. -/
theorem findMissing_keeps {paths missing missing' : List String}
    (h : Cmd.Runs (findMissing session paths missing s) tr (.ok missing', s'))
    (hne : missing ≠ []) :
    missing' ≠ [] := by
  induction paths generalizing missing s tr with
  | nil =>
      obtain ⟨-, heq⟩ := runs_pure.mp h
      obtain rfl := Except.ok.inj (Prod.mk.inj heq).1
      exact hne
  | cons path paths ih =>
      obtain ⟨tr₁, absent, s₁, tr₂, -, hrest, rfl⟩ := runs_bind_returns h
      refine ih hrest ?_
      split
      · exact fun hnil => hne (List.append_eq_nil_iff.mp hnil).1
      · exact hne

theorem findMissing_guarded {paths missing : List String} :
    Guarded .binariesPresent (fun missing => missing ≠ []) (findMissing session paths missing) := by
  induction paths generalizing missing with
  | nil => exact .pure
  | cons path paths ih =>
      have hlook : Guarded .binariesPresent (fun absent => absent = true)
          (tryExcept (lookFor session path) (onException fun _ => true)) :=
        .onException (.bind sessionExec_probes fun _ => .pure) fun _ => rfl
      refine .bind hlook (fun absent => ih) ?_
      rintro absent rfl s tr missing' s' hr
      exact findMissing_keeps hr fun hnil => List.cons_ne_nil _ _ (List.append_eq_nil_iff.mp hnil).2

theorem checkBinariesPresent_checks (h : c.session = some session) :
    Checks .binariesPresent (checkBinariesPresent c) := by
  rw [checkBinariesPresent, assertSession, h]
  exact .of_guarded (fun missing => missing ≠ []) findMissing_guarded fun missing =>
    ⟨_, rfl, rfl, fun hne =>
     ⟨Bool.eq_false_iff.mpr fun hempty => hne (List.isEmpty_iff.mp hempty), rfl⟩⟩

/-! ## The suite -/

/-- A run of several checks. -/
structure Appended (ks : List Check) (s : List CheckResult) (tr : List (Event ChkResp))
    (r : Except PyExc α) (s' : List CheckResult) : Prop where
  tagged : ∀ ev ∈ tr, ev.1.check ∈ ks
  returns : (∀ ev ∈ tr, Caught ev) →
    ∃ new a, s' = s ++ new ∧ r = .ok a ∧ List.Forall₂ (Recorded tr) ks new
  escapes : (¬ ∀ ev ∈ tr, Caught ev) → ∃ e, r = .error e

def Appends (ks : List Check) (c : Chk α) : Prop :=
  ∀ s tr r s', Cmd.Runs (c s) tr (r, s') → Appended ks s tr r s'

theorem Appends.nil {a : α} : Appends [] (pure a : Chk α) := by
  intro s tr r s' hr
  obtain ⟨rfl, heq⟩ := runs_pure.mp hr
  obtain ⟨rfl, rfl⟩ := Prod.mk.inj heq
  exact ⟨List.forall_mem_nil _, fun _ => ⟨[], a, (List.append_nil _).symm, rfl, .nil⟩,
    fun h => absurd (List.forall_mem_nil _) h⟩

theorem Appends.one {c : Chk CheckResult} (hc : Checks k c) : Appends [k] c := by
  intro s tr r s' hr
  obtain ⟨htagged, hreturns, hescapes⟩ := hc _ _ _ _ hr
  refine ⟨fun ev hev => List.mem_singleton.mpr (htagged ev hev), fun h => ?_, hescapes⟩
  obtain ⟨result, happend, hresult, hname, hfails⟩ := hreturns h
  exact ⟨[result], result, happend, hresult,
    .cons ⟨hname, fun ev hev _ hsome => hfails ⟨ev, hev, hsome⟩⟩ .nil⟩

/-- Probes of other checks do not matter to a result. -/
theorem Recorded.of_tagged {tr₁ tr₂ : List (Event ChkResp)} {result : CheckResult}
    (h : Recorded tr₁ k result) (htr : ∀ ev ∈ tr₂, ev.1.check = k → ev ∈ tr₁) :
    Recorded tr₂ k result :=
  ⟨h.1, fun ev hev hk => h.2 ev (htr ev hev hk) hk⟩

/-- A result of each of `ks`, along a trace in which the probes for `ks` are those of `tr₁`. -/
theorem recorded_of_tagged {ks : List Check} {new : List CheckResult}
    {tr₁ tr₂ : List (Event ChkResp)} (h : List.Forall₂ (Recorded tr₁) ks new)
    (htr : ∀ ev ∈ tr₂, ev.1.check ∈ ks → ev ∈ tr₁) :
    List.Forall₂ (Recorded tr₂) ks new := by
  induction h with
  | nil => exact .nil
  | cons hone _ ih =>
      exact .cons (hone.of_tagged fun ev hev hk => htr ev hev (hk ▸ .head _))
        (ih fun ev hev hmem => htr ev hev (.tail _ hmem))

theorem Appends.append {ks ks' : List Check} {c : Chk α} {d : Chk β} (hks : ∀ k ∈ ks, k ∉ ks')
    (hc : Appends ks c) (hd : Appends ks' d) : Appends (ks ++ ks') (c >>= fun _ => d) := by
  intro s tr q s' hr
  obtain ⟨x, hx, hrun⟩ | ⟨tr₁, a, s₁, tr₂, hrun, hrest, rfl⟩ := runs_bind_cases hr
  · obtain rfl := hx
    obtain ⟨htagged, hreturns, hescapes⟩ := hc _ _ _ _ hrun
    refine ⟨fun ev hev => List.mem_append_left _ (htagged ev hev), fun h => ?_, fun _ => ⟨x, rfl⟩⟩
    obtain ⟨_, _, -, ha, -⟩ := hreturns h
    exact nomatch ha
  · obtain ⟨htagged, hreturns, hescapes⟩ := hc _ _ _ _ hrun
    obtain ⟨htagged', hreturns', hescapes'⟩ := hd _ _ _ _ hrest
    have hcaught := caught_of_returns hescapes rfl
    obtain ⟨new, _, rfl, -, hnew⟩ := hreturns hcaught
    refine ⟨fun ev hev => ?_, fun h => ?_, fun h => ?_⟩
    · obtain hev | hev := List.mem_append.mp hev
      · exact List.mem_append_left _ (htagged ev hev)
      · exact List.mem_append_right _ (htagged' ev hev)
    · obtain ⟨new', b, rfl, rfl, hnew'⟩ := hreturns' (List.forall_mem_append.mp h).2
      refine ⟨new ++ new', b, List.append_assoc _ _ _, rfl, List.rel_append ?_ ?_⟩
      · refine recorded_of_tagged hnew fun ev hev hmem => ?_
        obtain hev | hev := List.mem_append.mp hev
        · exact hev
        · exact absurd (htagged' ev hev) (hks _ hmem)
      · refine recorded_of_tagged hnew' fun ev hev hmem => ?_
        obtain hev | hev := List.mem_append.mp hev
        · exact absurd hmem (hks _ (htagged ev hev))
        · exact hev
    · exact hescapes' fun h' => h (List.forall_mem_append.mpr ⟨hcaught, h'⟩)

theorem localChecks_appends : Appends
    [.sourceProcessExists, .sourceProcessPermissions, .sourceProcessSize, .sourceArch]
    (localChecks c) :=
  .append (by decide) (.one (checkSourceProcessExists_checks c)) <|
    .append (by decide) (.one (checkSourceProcessPermissions_checks c)) <|
    .append (by decide) (.one (checkSourceProcessSize_checks c)) <|
    .append (by decide) (.one checkSourceArch_checks) .nil

theorem remoteChecks_appends (h : c.session = some session) : Appends
    [.destinationReachable, .architectureMatch, .destinationResources, .binariesPresent]
    (remoteChecks c) :=
  .append (by decide) (.one (checkDestinationReachable_checks c h)) <|
    .append (by decide) (.one (checkDestinationArch_checks c h)) <|
    .append (by decide) (.one (checkDestinationResources_checks c h)) <|
    .append (by decide) (.one (checkBinariesPresent_checks c h)) .nil

/-- The end of `run_all`. -/
theorem verdict_appends :
    Appends [] (get >>= fun results => pure (allPassed results) : Chk Bool) := by
  intro s tr r s' hr
  obtain ⟨rfl, heq⟩ := runs_pure.mp hr
  obtain ⟨rfl, rfl⟩ := Prod.mk.inj heq
  exact ⟨List.forall_mem_nil _, fun _ => ⟨[], _, (List.append_nil _).symm, rfl, .nil⟩,
    fun h => absurd (List.forall_mem_nil _) h⟩

theorem runAll_eq (h : c.session = some session) : runAll c = (localChecks c >>= fun _ =>
    remoteChecks c >>= fun _ => get >>= fun results => pure (allPassed results)) := by
  rw [runAll, h]
  rfl

theorem runAll_verdict (h : c.session = some session) {passed : Bool}
    (hr : Cmd.Runs (runAll c s) tr (.ok passed, s')) : passed = allPassed s' := by
  rw [runAll_eq c h] at hr
  obtain ⟨_, _, _, _, -, hremote, -⟩ := runs_bind_returns hr
  obtain ⟨_, _, _, _, -, hverdict, -⟩ := runs_bind_returns hremote
  obtain ⟨-, heq⟩ := runs_pure.mp hverdict
  obtain ⟨hpassed, rfl⟩ := Prod.mk.inj heq
  exact Except.ok.inj hpassed

/-- With a session, the suite gives the full picture if and only if every exception is caught where
its probe is made. -/
theorem runAll_fullPicture_iff (h : c.session = some session) {earlier results : List CheckResult}
    {tr : List (Event ChkResp)} {r : Except PyExc Bool}
    (hr : Cmd.Runs (runAll c earlier) tr (r, results)) :
    FullPicture earlier tr r results ↔ ∀ ev ∈ tr, Caught ev := by
  have happends : Appends suite (runAll c) := by
    rw [runAll_eq c h]
    exact .append (by decide) (localChecks_appends c)
      (.append (by decide) (remoteChecks_appends c h) verdict_appends)
  obtain ⟨-, hreturns, hescapes⟩ := happends _ _ _ _ hr
  constructor
  · rintro ⟨passed, new, rfl, -⟩
    exact caught_of_returns hescapes rfl
  · intro hcaught
    obtain ⟨new, passed, rfl, rfl, hnew⟩ := hreturns hcaught
    refine ⟨passed, new, rfl, rfl, hnew, ?_⟩
    rw [runAll_verdict c h hr]
    exact allPassed_iff

/-! ## A process that is gone -/

/-- A checker of process 42. -/
def checker42 : PreflightChecker where
  pid := 42
  destination := worker2
  session := some ⟨worker2⟩
  maxMemoryGb_pos := rfl

/-- Answers of a machine on which all is well. -/
def wellAnswers : (o : ChkOp) → ChkResp o
  | .isdir _ => true
  | .openMem _ => .ok 3
  | .closeMem _ => .ok ()
  | .readStatus _ _ _ => .ok ["VmRSS:\t2048 kB\n"]
  | .machine _ => "x86_64"
  | .client _ => true
  | .execCommand _ cmd _ _ => .ok (
      if cmd = "uname -m" then "x86_64\n"
      else if cmd = "free -k" then "Mem: 16000000 4000000 8000000 0 0 12000000\n"
      else "wraith-ping\n", "", 0)

/-- An answer to each probe has a run. -/
theorem runAll_runs (answers : (o : ChkOp) → ChkResp o) (earlier : List CheckResult) :
    ∃ tr r results, Cmd.Runs (runAll c earlier) tr (r, results) := by
  have hruns := Cmd.exec_runs (fun (_ : Unit) o => (answers o, ())) (runAll c earlier) ()
  generalize Cmd.exec (fun (_ : Unit) o => (answers o, ())) (runAll c earlier) () = run at hruns
  obtain ⟨tr, r, results⟩ := run
  exact ⟨tr, r, results, hruns⟩

theorem runAll_fullPicture_iff_well :
    ∃ tr r results, Cmd.Runs (runAll checker42 []) tr (r, results) ∧
    (FullPicture [] tr r results ↔ ∀ ev ∈ tr, Caught ev) := by
  obtain ⟨tr, r, results, hr⟩ := runAll_runs checker42 wellAnswers []
  exact ⟨tr, r, results, hr, runAll_fullPicture_iff checker42 rfl hr⟩

/-- What the opening of `mem` raises and the check does not catch leaves the suite. -/
theorem runAll_escapes (h : c.session = some session) {b : Builtin}
    (hb : catchesOpen (.builtin b) = false) (earlier : List CheckResult) :
    ∃ results, Cmd.Runs (runAll c earlier)
      [⟨.isdir s!"/proc/{c.pid}", true⟩, ⟨.openMem s!"/proc/{c.pid}/mem", .error b⟩]
      (.error (.builtin b), results) := by
  obtain ⟨result, results, hfound⟩ : ∃ result results, Cmd.Runs (checkSourceProcessExists c earlier)
      [⟨.isdir s!"/proc/{c.pid}", true⟩] (.ok result, results) := ⟨_, _, runs_call_ok rfl (.ret _)⟩
  have hopen : Cmd.Runs (openMem c results) [⟨.openMem s!"/proc/{c.pid}/mem", .error b⟩]
      (.error (.builtin b), results) := runs_bind_error (.op _ (.ret _))
  have hcheck : Cmd.Runs (checkSourceProcessPermissions c results)
      [⟨.openMem s!"/proc/{c.pid}/mem", .error b⟩] (.error (.builtin b), results) := by
    refine runs_bind_error (runs_tryExcept.mpr ⟨_, _, [], hopen, ?_, rfl⟩)
    rw [handle, onOpenError_none c hb]
    exact .ret _
  have hlocal : Cmd.Runs (localChecks c earlier)
      [⟨.isdir s!"/proc/{c.pid}", true⟩, ⟨.openMem s!"/proc/{c.pid}/mem", .error b⟩]
      (.error (.builtin b), results) := runs_bind_ok hfound (runs_bind_error hcheck)
  rw [runAll_eq c h]
  exact ⟨results, runs_bind_error hlocal⟩

/-- The process exits between the two first checks, and the opening of its memory finds no process:
an `OSError`, but neither of the two that are caught. -/
theorem runAll_not_full : ∃ tr r results, Cmd.Runs (runAll checker42 []) tr (r, results) ∧
    (∀ ev ∈ tr, ∀ e, raised ev = some e → ∃ text, e = .builtin (.os .processLookup text)) ∧
    ¬ FullPicture [] tr r results := by
  obtain ⟨results, hr⟩ := runAll_escapes checker42 rfl
    (b := .os .processLookup "[Errno 3] No such process: '/proc/42/mem'") rfl []
  refine ⟨_, _, results, hr, fun ev hev e he => ?_, fun ⟨_, _, hreturns, _⟩ => nomatch hreturns⟩
  simp only [List.mem_cons, List.not_mem_nil, or_false] at hev
  obtain rfl | rfl := hev
  · exact nomatch he
  · exact ⟨_, (Option.some.inj he).symm⟩

end Wraith.Control

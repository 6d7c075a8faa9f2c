/-
# `Wraith.Control.Preflight` — what a migration waits for

`run_all` passes exactly when the probes of each check come to what passes it (`Passing`): the two
halves, that a verdict is not better and not worse than the probes, are one equivalence for each
check.  `runAll_assessed` puts them together along the suite.

`migrate_prechecked` carries this to a migration.  Before the suite has passed, nothing is done to
the process, on this machine or on the destination; and if it does not pass, the error is that of
the first check whose probes do not.
-/
import Wraith.Control.Cli
import Wraith.Control.Picture

namespace Wraith.Control

open Lib Script

/-! ## What passes a check -/

/-- The probes of an `exec`, with what the command has come to. -/
def executed (k : Check) (session : RemoteSession) (cmd : String) (timeout : Option Int)
    (check : Bool) (res : String × String × Int) : List (Event ChkResp) :=
  [⟨.client k, true⟩, ⟨.execCommand k cmd (effectiveTimeout session.dest timeout) check, .ok res⟩]

/-- How a binary is looked for. -/
def lookCommand (binaryPath : String) : String :=
  s!"command -v {binaryPath} || test -x {binaryPath}"

/-- Each of the binaries is found. -/
inductive Found (session : RemoteSession) : List String → List (Event ChkResp) → Prop
  | nil : Found session [] []
  | cons {path : String} {paths : List String} {out err : String} {tr : List (Event ChkResp)} :
      Found session paths tr → Found session (path :: paths)
        (executed .binariesPresent session (lookCommand path) none false (out, err, 0) ++ tr)

/-- The probes of a check that passes. -/
inductive Passing (c : PreflightChecker) (session : RemoteSession) :
    Check → List (Event ChkResp) → Prop
  | sourceProcessExists : Passing c session .sourceProcessExists [⟨.isdir s!"/proc/{c.pid}", true⟩]
  | sourceProcessPermissions {fd : Int} : Passing c session .sourceProcessPermissions
      [⟨.openMem s!"/proc/{c.pid}/mem", .ok fd⟩, ⟨.closeMem fd, .ok ()⟩]
  | sourceProcessSize {lines : List String} {rssKb : Int} {rssGb : PyFloat} :
      statusKb "VmRSS" c.pid lines = .ok rssKb → kbToGb rssKb = .ok rssGb →
      rssGb.le c.maxMemoryGb = true → Passing c session .sourceProcessSize
        [⟨.readStatus .sourceProcessSize c.pid "VmRSS", .ok lines⟩]
  | sourceArch : Passing c session .sourceArch [⟨.machine .sourceArch, "x86_64"⟩]
  | destinationReachable {out err : String} : contains out "wraith-ping" = true →
      Passing c session .destinationReachable
        (executed .destinationReachable session "echo wraith-ping" (some 5) true (out, err, 0))
  | architectureMatch {out err : String} : Passing c session .architectureMatch
      (⟨.machine .architectureMatch, pyStrip out⟩ ::
        executed .architectureMatch session "uname -m" (some 5) true (out, err, 0))
  | destinationResources {lines : List String} {rssKb neededKb availKb : Int} {out err : String} :
      statusKb "VmRSS" c.pid lines = .ok rssKb → timesOneAndHalf rssKb = .ok neededKb →
      parseFreeAvailable out = .ok availKb → neededKb ≤ availKb →
      Passing c session .destinationResources
        (⟨.readStatus .destinationResources c.pid "VmRSS", .ok lines⟩ ::
        executed .destinationResources session "free -k" (some 5) true (out, err, 0))
  | binariesPresent {tr : List (Event ChkResp)} :
      Found session [c.destination.wraithRestorerPath, c.destination.wraithReceiverPath] tr →
      Passing c session .binariesPresent tr

/-- The probes of one check. -/
def probesOf (k : Check) (tr : List (Event ChkResp)) : List (Event ChkResp) :=
  tr.filter fun ev => ev.1.check = k

/-- The probes of every check pass it. -/
def Ready (c : PreflightChecker) (session : RemoteSession) (tr : List (Event ChkResp)) : Prop :=
  ∀ k ∈ suite, Passing c session k (probesOf k tr)

/-- A result does not stand in the way. -/
def CheckResult.clears (r : CheckResult) : Bool := !r.blocking || r.passed

/-! ## One check -/

section Checks

variable {α β : Type} {k : Check} {s s' : List CheckResult} {tr : List (Event ChkResp)}
  {c : PreflightChecker} {session : RemoteSession} {P : List (Event ChkResp) → Prop}

/-- The check passes exactly along the traces in `P`. -/
def Judges (P : List (Event ChkResp) → Prop) (chk : Chk CheckResult) : Prop :=
  ∀ s tr r s', Cmd.Runs (chk s) tr (r, s') →
    ((∃ result, r = .ok result ∧ result.clears = true) ↔ P tr)

theorem view_readStatus {pid : Int} {field : String} {r : Except Builtin (List String)} {kb : Int} :
    (ChkOp.readStatus k pid field).view r = .ok kb ↔
    ∃ lines, r = .ok lines ∧ statusKb field pid lines = .ok kb := by
  show (r >>= statusKb field pid).mapError PyExc.builtin = .ok kb ↔ _
  rw [mapError_eq_ok]
  cases r with
  | error b =>
      constructor
      · intro h
        cases h
      · rintro ⟨lines, hlines, -⟩
        cases hlines
  | ok lines =>
      constructor
      · intro h
        exact ⟨lines, rfl, h⟩
      · rintro ⟨lines', hlines, h⟩
        obtain rfl := Except.ok.inj hlines
        exact h

theorem view_execCommand {cmd : String} {timeout : Int} {check : Bool}
    {r : Except Builtin (String × String × Int)} {res : String × String × Int} :
    (ChkOp.execCommand k cmd timeout check).view r = .ok res ↔
      r = .ok res ∧ (check = true → res.2.2 = 0) := by
  cases r with
  | error b =>
      constructor
      · intro h
        cases h
      · rintro ⟨h, -⟩
        cases h
  | ok res' =>
      obtain ⟨out, err, code⟩ := res'
      change exitChecked cmd check (out, err, code) = .ok res ↔ _
      rw [exitChecked]
      split
      · rename_i hexit
        constructor
        · intro h
          cases h
        · rintro ⟨h, hcode⟩
          obtain rfl := Except.ok.inj h
          exact absurd (hcode hexit.1) hexit.2
      · rename_i hexit
        constructor
        · intro h
          obtain rfl := Except.ok.inj h
          exact ⟨rfl, fun hcheck => Decidable.byContradiction fun hne => hexit ⟨hcheck, hne⟩⟩
        · rintro ⟨h, -⟩
          exact congrArg Except.ok (Except.ok.inj h)

theorem returns_sessionExec {cmd : String} {timeout : Option Int} {check : Bool}
    {res : String × String × Int} :
    Cmd.Runs (sessionExec k session cmd timeout check s) tr (.ok res, s') ↔
      (check = true → res.2.2 = 0) ∧ tr = executed k session cmd timeout check res ∧ s' = s := by
  constructor
  · intro h
    obtain ⟨r, _, tr', hclient, hexec, rfl⟩ := returns_call_bind.mp h
    obtain ⟨r', tr'', rfl, hret⟩ := Cmd.runs_op.mp hexec
    obtain ⟨rfl, heq⟩ := Cmd.runs_ret.mp hret
    obtain ⟨hview, rfl⟩ := Prod.mk.inj heq
    obtain ⟨rfl, hcode⟩ := view_execCommand.mp hview.symm
    obtain rfl : r = true := by
      cases r with
      | true => rfl
      | false => cases hclient
    exact ⟨hcode, rfl, rfl⟩
  · rintro ⟨hcode, rfl, rfl⟩
    refine returns_call_bind.mpr ⟨true, (), _, rfl, .op (.ok res) ?_, rfl⟩
    rw [view_execCommand.mpr ⟨rfl, hcode⟩]
    exact .ret _

theorem returns_sessionExec_bind {cmd : String} {timeout : Option Int} {check : Bool}
    {f : String × String × Int → Chk α} {b : α} :
    Cmd.Runs ((sessionExec k session cmd timeout check >>= f) s) tr (.ok b, s') ↔
      ∃ res tr', (check = true → res.2.2 = 0) ∧ Cmd.Runs (f res s) tr' (.ok b, s') ∧
        tr = executed k session cmd timeout check res ++ tr' := by
  constructor
  · intro h
    obtain ⟨tr₁, res, s₁, tr₂, hexec, hf, rfl⟩ := runs_bind_returns h
    obtain ⟨hcode, rfl, rfl⟩ := returns_sessionExec.mp hexec
    exact ⟨res, tr₂, hcode, hf, rfl⟩
  · rintro ⟨res, tr', hcode, hf, rfl⟩
    exact runs_bind_ok (returns_sessionExec.mpr ⟨hcode, rfl, rfl⟩) hf

theorem returns_probe {o : ChkOp} {a : ChkValue o} :
    Cmd.Runs (probe o s) tr (.ok a, s') ↔ ∃ r, o.view r = .ok a ∧ tr = [⟨o, r⟩] ∧ s' = s := by
  constructor
  · intro h
    obtain ⟨r, tr', rfl, hret⟩ := Cmd.runs_op.mp h
    obtain ⟨rfl, heq⟩ := Cmd.runs_ret.mp hret
    obtain ⟨hview, rfl⟩ := Prod.mk.inj heq
    exact ⟨r, hview.symm, rfl, rfl⟩
  · rintro ⟨r, hview, rfl, rfl⟩
    refine .op r ?_
    rw [hview]
    exact .ret _

/-! ### Rules -/

theorem Judges.record {Q : α → Prop} {b : Chk α} {f : α → Chk CheckResult}
    (hb : ∀ s tr, (∃ a s', Cmd.Runs (b s) tr (.ok a, s') ∧ Q a) ↔ P tr)
    (hf : ∀ a, ∃ result, f a = Control.record result ∧ (result.clears = true ↔ Q a)) :
    Judges P (b >>= f) := by
  intro s tr r s' hr
  rw [← hb s tr]
  constructor
  · rintro ⟨result, rfl, hclears⟩
    obtain ⟨tr₁, a, s₁, tr₂, hrun, hrest, rfl⟩ := runs_bind_returns hr
    obtain ⟨result', hrecord, hgood⟩ := hf a
    rw [hrecord] at hrest
    obtain ⟨rfl, heq⟩ := runs_record hrest
    obtain rfl := Except.ok.inj (Prod.mk.inj heq).1
    exact ⟨a, s₁, by rwa [List.append_nil], hgood.mp hclears⟩
  · rintro ⟨a, s₁, hrun, ha⟩
    obtain ⟨result, hrecord, hgood⟩ := hf a
    have hrun' : Cmd.Runs ((b >>= f) s) (tr ++ []) (.ok result, s₁ ++ [result]) := by
      refine runs_bind_ok hrun ?_
      rw [hrecord]
      exact .ret _
    rw [List.append_nil] at hrun'
    exact ⟨result, (Prod.mk.inj (hr.functional hrun')).1, hgood.mpr ha⟩

/-- A test in a `try` statement. -/
theorem Judges.test {body : Chk (Bool × String)} {h : PyExc → Option (Chk (Bool × String))}
    {f : Bool × String → Chk CheckResult}
    (hbody : ∀ s tr, (∃ a s', Cmd.Runs (body s) tr (.ok a, s') ∧ a.1 = true) ↔ P tr)
    (hh : ∀ x d, h x = some d → ∃ a : Bool × String, d = pure a ∧ ¬ a.1 = true)
    (hf : ∀ a : Bool × String, ∃ result, f a = Control.record result ∧
      (result.clears = true ↔ a.1 = true)) :
    Judges P (tryExcept body h >>= f) :=
  .record (fun s tr => (returns_tryExcept hh).trans (hbody s tr)) hf

/-- Behind the name of the architecture here. -/
theorem Judges.machine_bind {f : String → Chk CheckResult}
    (hf : ∀ arch, Judges (fun tr => P (⟨.machine k, arch⟩ :: tr)) (f arch)) :
    Judges P (probe (.machine k) >>= f) := by
  intro s tr r s' hr
  obtain ⟨arch, tr', rfl, hrest⟩ := Cmd.runs_op.mp hr
  exact hf arch s tr' r s' hrest

theorem onException_bad {f : PyExc → α} {Q : α → Prop} (hf : ∀ e, ¬ Q (f e)) (x : PyExc) (d : Chk α)
    (h : onException f x = some d) : ∃ a, d = pure a ∧ ¬ Q a := by
  rw [onException] at h
  split at h
  · exact ⟨f x, (Option.some.inj h).symm, hf x⟩
  · cases h

theorem onException_fails {f : PyExc → Bool × String} (hf : ∀ e, (f e).1 = false) (x : PyExc)
    (d : Chk (Bool × String)) (h : onException f x = some d) : ∃ a, d = pure a ∧ ¬ a.1 = true :=
  onException_bad (Q := fun a => a.1 = true) (fun e => by rw [hf e]; exact Bool.false_ne_true) x d h

theorem onOpenError_fails (x : PyExc) (d : Chk (Bool × String)) (h : onOpenError c x = some d) :
    ∃ a, d = pure a ∧ ¬ a.1 = true := by
  unfold onOpenError at h
  split at h
  · exact ⟨_, (Option.some.inj h).symm, Bool.false_ne_true⟩
  · exact ⟨_, (Option.some.inj h).symm, Bool.false_ne_true⟩
  · cases h

/-! ### On the source -/

theorem checkSourceProcessExists_judges :
    Judges (Passing c session .sourceProcessExists) (checkSourceProcessExists c) := by
  refine .record (Q := fun found => found = true) (fun s tr => ?_) fun found => ⟨_, rfl, Iff.rfl⟩
  constructor
  · rintro ⟨found, s', hr, rfl⟩
    obtain ⟨r, hview, rfl, -⟩ := returns_probe.mp hr
    obtain rfl := Except.ok.inj hview
    exact .sourceProcessExists
  · rintro ⟨⟩
    exact ⟨true, s, returns_probe.mpr ⟨true, rfl, rfl, rfl⟩, rfl⟩

theorem openMem_passes (s : List CheckResult) (tr : List (Event ChkResp)) :
    (∃ a s', Cmd.Runs (openMem c s) tr (.ok a, s') ∧ a.1 = true) ↔
      Passing c session .sourceProcessPermissions tr := by
  constructor
  · rintro ⟨a, s', hr, ha⟩
    obtain ⟨r, fd, _, hfd, hr₁, rfl⟩ := returns_call_bind.mp hr
    obtain ⟨r', _, _, hclose, hr₂, rfl⟩ := returns_call_bind.mp hr₁
    obtain ⟨rfl, -, -⟩ := returns_pure.mp hr₂
    obtain rfl := mapError_eq_ok.mp hfd
    obtain rfl := mapError_eq_ok.mp hclose
    exact .sourceProcessPermissions
  · intro h
    cases h with
    | @sourceProcessPermissions fd =>
        exact ⟨_, s, returns_call_bind.mpr
          ⟨.ok fd, fd, _, rfl, returns_call_bind.mpr ⟨.ok (), (), [], rfl,
          returns_pure.mpr ⟨rfl, rfl, rfl⟩, rfl⟩, rfl⟩, rfl⟩

theorem checkSourceProcessPermissions_judges :
    Judges (Passing c session .sourceProcessPermissions) (checkSourceProcessPermissions c) :=
  .test openMem_passes onOpenError_fails fun _ => ⟨_, rfl, Iff.rfl⟩

theorem measureSize_passes (s : List CheckResult) (tr : List (Event ChkResp)) :
    (∃ a s', Cmd.Runs (measureSize c s) tr (.ok a, s') ∧ a.1 = true) ↔
      Passing c session .sourceProcessSize tr := by
  constructor
  · rintro ⟨a, s', hr, ha⟩
    obtain ⟨r, rssKb, _, hread, hr₁, rfl⟩ := returns_call_bind.mp hr
    obtain ⟨rssGb, hgb, hr₂⟩ := returns_ofExcept_bind.mp hr₁
    obtain ⟨rfl, rfl, -⟩ := returns_pure.mp hr₂
    obtain ⟨lines, rfl, hlines⟩ := view_readStatus.mp hread
    exact .sourceProcessSize hlines (mapError_eq_ok.mp hgb) ha
  · intro h
    cases h with
    | @sourceProcessSize lines rssKb rssGb hlines hgb hle =>
        exact ⟨_, s, returns_call_bind.mpr
          ⟨.ok lines, rssKb, [], view_readStatus.mpr ⟨lines, rfl, hlines⟩, returns_ofExcept_bind.mpr
            ⟨rssGb, mapError_eq_ok.mpr hgb, returns_pure.mpr ⟨rfl, rfl, rfl⟩⟩, rfl⟩, hle⟩

theorem checkSourceProcessSize_judges :
    Judges (Passing c session .sourceProcessSize) (checkSourceProcessSize c) := by
  refine .test measureSize_passes (onException_fails fun _ => rfl) ?_
  rintro ⟨passed, message⟩
  refine ⟨_, rfl, ?_⟩
  cases passed <;> exact Iff.rfl

theorem checkSourceArch_judges : Judges (Passing c session .sourceArch) checkSourceArch := by
  refine .record (Q := fun arch => arch = "x86_64") (fun s tr => ?_) fun arch =>
    ⟨_, rfl, decide_eq_true_iff⟩
  constructor
  · rintro ⟨arch, s', hr, rfl⟩
    obtain ⟨r, hview, rfl, -⟩ := returns_probe.mp hr
    obtain rfl := Except.ok.inj hview
    exact .sourceArch
  · rintro ⟨⟩
    exact ⟨"x86_64", s, returns_probe.mpr ⟨"x86_64", rfl, rfl, rfl⟩, rfl⟩

/-! ### On the destination -/

theorem pingDestination_passes (s : List CheckResult) (tr : List (Event ChkResp)) :
    (∃ a s', Cmd.Runs (pingDestination c session s) tr (.ok a, s') ∧ a.1 = true) ↔
      Passing c session .destinationReachable tr := by
  constructor
  · rintro ⟨a, s', hr, ha⟩
    obtain ⟨⟨out, err, code⟩, _, hcode, hr₁, rfl⟩ := returns_sessionExec_bind.mp hr
    obtain ⟨rfl, rfl, -⟩ := returns_pure.mp hr₁
    obtain rfl := hcode rfl
    exact .destinationReachable ha
  · intro h
    cases h with
    | @destinationReachable out err hping =>
        exact ⟨_, s, returns_sessionExec_bind.mpr
          ⟨(out, err, 0), [], fun _ => rfl, returns_pure.mpr ⟨rfl, rfl, rfl⟩, rfl⟩, hping⟩

theorem checkDestinationReachable_judges (h : c.session = some session) :
    Judges (Passing c session .destinationReachable) (checkDestinationReachable c) := by
  rw [checkDestinationReachable, assertSession, h]
  exact .test pingDestination_passes (onException_fails fun _ => rfl) fun _ => ⟨_, rfl, Iff.rfl⟩

theorem compareArch_passes {srcArch : String} (s : List CheckResult) (tr : List (Event ChkResp)) :
    (∃ a s', Cmd.Runs (compareArch session srcArch s) tr (.ok a, s') ∧ a.1 = true) ↔
      Passing c session .architectureMatch (⟨.machine .architectureMatch, srcArch⟩ :: tr) := by
  constructor
  · rintro ⟨a, s', hr, ha⟩
    obtain ⟨⟨out, err, code⟩, _, hcode, hr₁, rfl⟩ := returns_sessionExec_bind.mp hr
    obtain ⟨rfl, rfl, -⟩ := returns_pure.mp hr₁
    obtain rfl := hcode rfl
    obtain rfl : srcArch = pyStrip out := of_decide_eq_true ha
    exact .architectureMatch
  · intro h
    cases h with
    | @architectureMatch out err =>
        exact ⟨_, s, returns_sessionExec_bind.mpr
          ⟨(out, err, 0), [], fun _ => rfl, returns_pure.mpr ⟨rfl, rfl, rfl⟩, rfl⟩,
          decide_eq_true rfl⟩

theorem checkDestinationArch_judges (h : c.session = some session) :
    Judges (Passing c session .architectureMatch) (checkDestinationArch c) := by
  rw [checkDestinationArch, assertSession, h]
  exact .machine_bind fun arch =>
    .test compareArch_passes (onException_fails fun _ => rfl) fun _ => ⟨_, rfl, Iff.rfl⟩

theorem compareResources_passes (s : List CheckResult) (tr : List (Event ChkResp)) :
    (∃ a s', Cmd.Runs (compareResources c session s) tr (.ok a, s') ∧ a.1 = true) ↔
      Passing c session .destinationResources tr := by
  constructor
  · rintro ⟨a, s', hr, ha⟩
    obtain ⟨r, rssKb, _, hread, hr₁, rfl⟩ := returns_call_bind.mp hr
    obtain ⟨neededKb, hneeded, hr₂⟩ := returns_ofExcept_bind.mp hr₁
    obtain ⟨⟨out, err, code⟩, _, hcode, hr₃, rfl⟩ := returns_sessionExec_bind.mp hr₂
    obtain ⟨availKb, havail, hr₄⟩ := returns_ofExcept_bind.mp hr₃
    obtain ⟨rfl, rfl, -⟩ := returns_pure.mp hr₄
    obtain ⟨lines, rfl, hlines⟩ := view_readStatus.mp hread
    obtain rfl := hcode rfl
    exact .destinationResources hlines (mapError_eq_ok.mp hneeded) (mapError_eq_ok.mp havail)
      (of_decide_eq_true ha)
  · intro h
    cases h with
    | @destinationResources lines rssKb neededKb availKb out err hlines hneeded havail hle =>
        exact ⟨_, s, returns_call_bind.mpr
          ⟨.ok lines, rssKb, _, view_readStatus.mpr ⟨lines, rfl, hlines⟩, returns_ofExcept_bind.mpr
            ⟨neededKb, mapError_eq_ok.mpr hneeded, returns_sessionExec_bind.mpr
              ⟨(out, err, 0), [], fun _ => rfl, returns_ofExcept_bind.mpr
                ⟨availKb, mapError_eq_ok.mpr havail, returns_pure.mpr ⟨rfl, rfl, rfl⟩⟩, rfl⟩⟩, rfl⟩,
          decide_eq_true hle⟩

theorem checkDestinationResources_judges (h : c.session = some session) :
    Judges (Passing c session .destinationResources) (checkDestinationResources c) := by
  rw [checkDestinationResources, assertSession, h]
  exact .test compareResources_passes (onException_fails fun _ => rfl) fun _ => ⟨_, rfl, Iff.rfl⟩

theorem lookFor_finds {path : String} :
    (∃ a s', Cmd.Runs (lookFor session path s) tr (.ok a, s') ∧ a = false) ↔
      ∃ out err, tr =
        executed .binariesPresent session (lookCommand path) none false (out, err, 0) := by
  constructor
  · rintro ⟨a, s', hr, rfl⟩
    obtain ⟨⟨out, err, code⟩, _, -, hr₁, rfl⟩ := returns_sessionExec_bind.mp hr
    obtain ⟨rfl, hcode, -⟩ := returns_pure.mp hr₁
    obtain rfl : code = 0 := by simpa using hcode
    exact ⟨out, err, List.append_nil _⟩
  · rintro ⟨out, err, rfl⟩
    refine ⟨false, s, returns_sessionExec_bind.mpr
      ⟨(out, err, 0), [], by rintro ⟨⟩, ?_, (List.append_nil _).symm⟩, rfl⟩
    exact returns_pure.mpr ⟨rfl, rfl, rfl⟩

theorem findMissing_finds {paths missing : List String} :
    (∃ a s', Cmd.Runs (findMissing session paths missing s) tr (.ok a, s') ∧ a = []) ↔
      missing = [] ∧ Found session paths tr := by
  induction paths generalizing missing s tr with
  | nil =>
      constructor
      · rintro ⟨a, s', hr, rfl⟩
        obtain ⟨rfl, rfl, -⟩ := returns_pure.mp hr
        exact ⟨rfl, .nil⟩
      · rintro ⟨rfl, ⟨⟩⟩
        exact ⟨[], s, returns_pure.mpr ⟨rfl, rfl, rfl⟩, rfl⟩
  | cons path paths ih =>
      have hlook : ∀ s tr,
          (∃ a s', Cmd.Runs (tryExcept (lookFor session path) (onException fun _ => true) s) tr
              (.ok a, s') ∧ a = false) ↔
            ∃ out err, tr =
              executed .binariesPresent session (lookCommand path) none false (out, err, 0) :=
        fun s tr => (returns_tryExcept
          (onException_bad (Q := fun a => a = false) fun _ => by decide)).trans
          lookFor_finds
      constructor
      · rintro ⟨a, s', hr, ha⟩
        obtain ⟨tr₁, absent, s₁, tr₂, hrun, hrest, rfl⟩ := runs_bind_returns hr
        obtain ⟨hmissing, hfound⟩ := ih.mp ⟨a, s', hrest, ha⟩
        cases absent with
        | true => cases (List.append_eq_nil_iff.mp hmissing).2
        | false =>
            obtain ⟨out, err, rfl⟩ := (hlook s tr₁).mp ⟨false, s₁, hrun, rfl⟩
            exact ⟨hmissing, .cons hfound⟩
      · rintro ⟨rfl, hfound⟩
        cases hfound with
        | @cons _ _ out err tr₂ hfound =>
            obtain ⟨_, s₁, hrun, rfl⟩ := (hlook s _).mpr ⟨out, err, rfl⟩
            obtain ⟨a, s', hrest, ha⟩ := (ih (s := s₁)).mpr ⟨rfl, hfound⟩
            exact ⟨a, s', runs_bind_ok hrun hrest, ha⟩

theorem checkBinariesPresent_judges (h : c.session = some session) :
    Judges (Passing c session .binariesPresent) (checkBinariesPresent c) := by
  rw [checkBinariesPresent, assertSession, h]
  refine .record (Q := fun missing => missing = []) (fun s tr => findMissing_finds.trans ?_)
    fun missing => ⟨_, rfl, List.isEmpty_iff⟩
  constructor
  · exact fun hfound => .binariesPresent hfound.2
  · rintro ⟨⟩
    exact ⟨rfl, ‹_›⟩

/-! ## The suite -/

theorem probesOf_eq_self (h : ∀ ev ∈ tr, ev.1.check = k) : probesOf k tr = tr :=
  List.filter_eq_self.mpr fun ev hmem => decide_eq_true (h ev hmem)

theorem probesOf_eq_nil {ks : List Check} (h : ∀ ev ∈ tr, ev.1.check ∈ ks) (hk : k ∉ ks) :
    probesOf k tr = [] :=
  List.filter_eq_nil_iff.mpr fun ev hmem heq => hk (of_decide_eq_true heq ▸ h ev hmem)

theorem probesOf_append (tr tr' : List (Event ChkResp)) :
    probesOf k (tr ++ tr') = probesOf k tr ++ probesOf k tr' := List.filter_append ..

/-- The result is the check's, and in the way exactly if the probes of the check do not pass it. -/
def Assessed (c : PreflightChecker) (session : RemoteSession) (tr : List (Event ChkResp))
    (k : Check) (result : CheckResult) : Prop :=
  result.name = k.name ∧ (result.clears = true ↔ Passing c session k (probesOf k tr))

/-- A run of several checks. -/
structure Assessment (c : PreflightChecker) (session : RemoteSession) (ks : List Check)
    (s : List CheckResult) (tr : List (Event ChkResp)) (r : Except PyExc α)
    (s' : List CheckResult) :
    Prop where
  tagged : ∀ ev ∈ tr, ev.1.check ∈ ks
  returns : ∀ a, r = .ok a → ∃ new, s' = s ++ new ∧ List.Forall₂ (Assessed c session tr) ks new
  raises : ∀ e, r = .error e → ¬ ∀ k ∈ ks, Passing c session k (probesOf k tr)

def Assesses (c : PreflightChecker) (session : RemoteSession) (ks : List Check) (d : Chk α) :
    Prop :=
  ∀ s tr r s', Cmd.Runs (d s) tr (r, s') → Assessment c session ks s tr r s'

/-- No check. -/
theorem Assesses.nil {d : Chk α} {a : List CheckResult → α} (hd : ∀ s, d s = .ret (.ok (a s), s)) :
    Assesses c session [] d := by
  intro s tr r s' hr
  rw [hd s] at hr
  obtain ⟨rfl, heq⟩ := Cmd.runs_ret.mp hr
  obtain ⟨rfl, rfl⟩ := Prod.mk.inj heq
  exact ⟨List.forall_mem_nil _, fun _ _ => ⟨[], (List.append_nil _).symm, .nil⟩, by rintro _ ⟨⟩⟩

theorem Assesses.one {chk : Chk CheckResult} (hc : Checks k chk)
    (hj : Judges (Passing c session k) chk) : Assesses c session [k] chk := by
  intro s tr r s' hr
  obtain ⟨htagged, hreturns, hescapes⟩ := hc _ _ _ _ hr
  have hself := probesOf_eq_self htagged
  have hiff := hj _ _ _ _ hr
  refine ⟨fun ev hmem => List.mem_singleton.mpr (htagged ev hmem), ?_, ?_⟩
  · rintro result rfl
    obtain ⟨result', rfl, heq, hname, -⟩ := hreturns (caught_of_returns hescapes rfl)
    obtain rfl := Except.ok.inj heq
    refine ⟨[result], rfl, .cons ⟨hname, ?_⟩ .nil⟩
    rw [hself, ← hiff]
    exact ⟨fun h => ⟨result, rfl, h⟩, fun ⟨_, heq, h⟩ => Except.ok.inj heq ▸ h⟩
  · rintro e rfl hall
    have hpass := hall k (.head _)
    rw [hself, ← hiff] at hpass
    obtain ⟨_, heq, -⟩ := hpass
    cases heq

/-- Probes of other checks do not matter to a result. -/
theorem assessed_of_probesOf {ks : List Check} {new : List CheckResult}
    {tr tr' : List (Event ChkResp)} (h : List.Forall₂ (Assessed c session tr) ks new)
    (htr : ∀ k ∈ ks, probesOf k tr' = probesOf k tr) :
    List.Forall₂ (Assessed c session tr') ks new := by
  refine ((List.forall₂_and_left _ _).mpr ⟨htr, h⟩).imp fun k result hk => ⟨hk.2.1, ?_⟩
  rw [hk.1]
  exact hk.2.2

theorem Assesses.append {ks ks' : List Check} {d : Chk α} {d' : Chk β} (hks : ∀ k ∈ ks, k ∉ ks')
    (hd : Assesses c session ks d) (hd' : Assesses c session ks' d') :
    Assesses c session (ks ++ ks') (d >>= fun _ => d') := by
  intro s tr r s' hr
  obtain ⟨x, hx, hrun⟩ | ⟨tr₁, a, s₁, tr₂, hrun, hrest, rfl⟩ := runs_bind_cases hr
  · obtain rfl := hx
    obtain ⟨htagged, -, hraises⟩ := hd _ _ _ _ hrun
    exact ⟨fun ev hmem => List.mem_append_left _ (htagged ev hmem), by rintro _ ⟨⟩,
      fun _ _ hall => hraises x rfl fun k hk => hall k (List.mem_append_left _ hk)⟩
  obtain ⟨htagged, hreturns, -⟩ := hd _ _ _ _ hrun
  obtain ⟨htagged', hreturns', hraises'⟩ := hd' _ _ _ _ hrest
  have hfirst : ∀ k ∈ ks, probesOf k (tr₁ ++ tr₂) = probesOf k tr₁ := fun k hk => by
    rw [probesOf_append, probesOf_eq_nil htagged' (hks k hk), List.append_nil]
  have hsecond : ∀ k ∈ ks', probesOf k (tr₁ ++ tr₂) = probesOf k tr₂ := fun k hk => by
    rw [probesOf_append, probesOf_eq_nil htagged fun hk' => hks k hk' hk, List.nil_append]
  refine ⟨fun ev hmem => ?_, fun b hb => ?_, fun e he hall => ?_⟩
  · exact List.mem_append.mpr ((List.mem_append.mp hmem).imp (htagged ev) (htagged' ev))
  · obtain ⟨new, rfl, hnew⟩ := hreturns a rfl
    obtain ⟨new', rfl, hnew'⟩ := hreturns' b hb
    exact ⟨new ++ new', List.append_assoc _ _ _,
      List.rel_append (assessed_of_probesOf hnew hfirst) (assessed_of_probesOf hnew' hsecond)⟩
  · refine hraises' e he fun k hk => ?_
    rw [← hsecond k hk]
    exact hall k (List.mem_append_right _ hk)

theorem localChecks_assesses : Assesses c session
    [.sourceProcessExists, .sourceProcessPermissions, .sourceProcessSize, .sourceArch]
    (localChecks c) :=
  .append (by decide) (.one (checkSourceProcessExists_checks c) checkSourceProcessExists_judges) <|
    .append (by decide)
      (.one (checkSourceProcessPermissions_checks c) checkSourceProcessPermissions_judges) <|
    .append (by decide) (.one (checkSourceProcessSize_checks c) checkSourceProcessSize_judges) <|
    .append (by decide) (.one checkSourceArch_checks checkSourceArch_judges) (.nil fun _ => rfl)

theorem remoteChecks_assesses (h : c.session = some session) : Assesses c session
    [.destinationReachable, .architectureMatch, .destinationResources, .binariesPresent]
    (remoteChecks c) :=
  .append (by decide)
    (.one (checkDestinationReachable_checks c h) (checkDestinationReachable_judges h)) <|
    .append (by decide) (.one (checkDestinationArch_checks c h) (checkDestinationArch_judges h)) <|
    .append (by decide)
      (.one (checkDestinationResources_checks c h) (checkDestinationResources_judges h)) <|
    .append (by decide) (.one (checkBinariesPresent_checks c h) (checkBinariesPresent_judges h))
      (.nil fun _ => rfl)

theorem runAll_assesses (h : c.session = some session) : Assesses c session suite (runAll c) := by
  rw [runAll_eq c h]
  exact .append (by decide) localChecks_assesses
    (.append (by decide) (remoteChecks_assesses h) (.nil fun _ => rfl))

/-- The verdict on assessed results. -/
theorem allPassed_of_assessed {ks : List Check} {new : List CheckResult}
    (h : List.Forall₂ (Assessed c session tr) ks new) :
    allPassed new = true ↔ ∀ k ∈ ks, Passing c session k (probesOf k tr) := by
  induction h with
  | nil => exact ⟨fun _ => List.forall_mem_nil _, fun _ => rfl⟩
  | @cons k result ks new hone _ ih =>
      rw [List.forall_mem_cons, ← ih, ← hone.2]
      exact Bool.and_eq_true_iff

/-- The first failure is that of the first check that is not passed. -/
theorem first_of_assessed {ks : List Check} {new rest : List CheckResult} {first : CheckResult}
    (h : List.Forall₂ (Assessed c session tr) ks new)
    (hfirst : blockingFailures new = first :: rest) :
    ∃ before k after, ks = before ++ k :: after ∧ first.name = k.name ∧
      (∀ k' ∈ before, Passing c session k' (probesOf k' tr)) ∧
      ¬ Passing c session k (probesOf k tr) := by
  induction h with
  | nil => cases hfirst
  | @cons k result ks new hone _ ih =>
      rw [blockingFailures, List.filter_cons] at hfirst
      cases hclears : result.clears with
      | true =>
          have hpasses : (!result.passed && result.blocking) = false := by
            revert hclears
            rw [CheckResult.clears]
            cases result.passed <;> cases result.blocking <;> decide
          rw [if_neg (by rw [hpasses]; exact Bool.false_ne_true)] at hfirst
          obtain ⟨before, k', after, rfl, hname, hbefore, hk'⟩ := ih hfirst
          exact ⟨k :: before, k', after, rfl, hname,
            List.forall_mem_cons.mpr ⟨hone.2.mp hclears, hbefore⟩, hk'⟩
      | false =>
          have hfails : (!result.passed && result.blocking) = true := by
            revert hclears
            rw [CheckResult.clears]
            cases result.passed <;> cases result.blocking <;> decide
          rw [if_pos hfails] at hfirst
          obtain ⟨rfl, -⟩ := List.cons.inj hfirst
          refine ⟨[], k, ks, rfl, hone.1, List.forall_mem_nil _, fun hpass => ?_⟩
          rw [hone.2.mpr hpass] at hclears
          cases hclears

/-- **The suite passes exactly when everything is ready.** -/
theorem runAll_ready_iff (h : c.session = some session) {r : Except PyExc Bool}
    {results : List CheckResult}
    (hr : Cmd.Runs (runAll c []) tr (r, results)) : r = .ok true ↔ Ready c session tr := by
  obtain ⟨-, hreturns, hraises⟩ := runAll_assesses h _ _ _ _ hr
  cases r with
  | error e =>
      constructor
      · intro he
        cases he
      · exact fun hready => absurd hready (hraises e rfl)
  | ok passed =>
      obtain ⟨new, rfl, hnew⟩ := hreturns passed rfl
      rw [Except.ok.injEq, runAll_verdict c h hr]
      exact allPassed_of_assessed hnew

end Checks

/-! ## Before a migration -/

/-- The `PreflightChecker` of a migration. -/
def Teleporter.checker (t : Teleporter) (limit : PyFloat) (h : limit.le (.finite 0) = false) :
    PreflightChecker :=
  { pid := t.pid
    destination := t.cfg.destination
    maxMemoryGb := limit
    session := some ⟨t.cfg.destination⟩
    maxMemoryGb_pos := h }

/-- What the suite comes to, as the answer to one operation. -/
inductive SuiteAnswer (c : PreflightChecker) (tr : List (Event ChkResp)) :
    Except Builtin (List CheckResult) → Prop
  | returned {passed : Bool} {results : List CheckResult} :
      Cmd.Runs (runAll c []) tr (.ok passed, results) → SuiteAnswer c tr (.ok results)
  | raised {b : Builtin} {results : List CheckResult} :
      Cmd.Runs (runAll c []) tr (.error (.builtin b), results) → SuiteAnswer c tr (.error b)

section Migrate

variable {v : Bool} {t t' : Teleporter} {tr : List (Event PyResp)}

/-- How the preflight of a migration ends. -/
inductive PreflightEnd (t : Teleporter) :
    Except Builtin (List CheckResult) → Except PyExc Unit → Prop
  | passed {results : List CheckResult} : allPassed results = true →
      PreflightEnd t (.ok results) (.ok ())
  | failed {results : List CheckResult} : allPassed results = false →
      PreflightEnd t (.ok results) (.error (preflightFailure t.pid results))
  | raised {b : Builtin} : PreflightEnd t (.error b) (.error (.builtin b))

theorem runs_runPreflight {r : Except PyExc Unit} (h : Cmd.Runs (runPreflight t) tr (r, t')) :
    ∃ res, tr = [⟨.runAll t.pid, res⟩] ∧ PreflightEnd t res r := by
  obtain ⟨res, tr', rfl, hrest⟩ := Cmd.runs_op.mp (show Cmd.Runs (.op _ _) tr _ from h)
  refine ⟨res, ?_⟩
  cases res with
  | error b =>
      obtain ⟨rfl, heq⟩ := Cmd.runs_ret.mp hrest
      obtain ⟨rfl, -⟩ := Prod.mk.inj heq
      exact ⟨rfl, .raised⟩
  | ok results =>
      have hverdict : Cmd.Runs ((if allPassed results then pure () else
          raise (preflightFailure t.pid results) : Py Unit) { t with state := .preflight }) tr'
            (r, t') := hrest
      cases hpassed : allPassed results with
      | true =>
          rw [if_pos hpassed] at hverdict
          obtain ⟨rfl, heq⟩ := runs_pure.mp hverdict
          obtain ⟨rfl, -⟩ := Prod.mk.inj heq
          exact ⟨rfl, .passed hpassed⟩
      | false =>
          rw [if_neg (by rw [hpassed]; exact Bool.false_ne_true)] at hverdict
          obtain ⟨rfl, heq⟩ := runs_raise.mp hverdict
          obtain ⟨rfl, -⟩ := Prod.mk.inj heq
          exact ⟨rfl, .failed hpassed⟩

/-- Behind a phase or the commit no `PreflightError` comes out of the handlers. -/
theorem handle_late {x y : PyExc} {t₁ : Teleporter} (hx : x.isA .preflightError = false)
    (h : Cmd.Runs (handle onMigrateError ((.error x : Except PyExc MigrationResult), t₁)) tr
      (.error y, t')) :
    y.isA .preflightError = false := by
  simp only [handle, onMigrateError, hx, Bool.false_eq_true, if_false] at h
  by_cases hw : x.isA .wraithError = true
  · rw [if_pos hw] at h
    obtain ⟨z, hz, hroll⟩ | ⟨tr₁, _, t₂, tr₂, -, hraise, rfl⟩ := runs_bind_cases h
    · obtain rfl := Except.error.inj hz
      obtain ⟨res, -, hend⟩ := rollback_cases hroll
      generalize t'.state = state at hend
      cases hend with
      | failed _ => rfl
      | stopped => rfl
    · obtain rfl := Except.error.inj (Prod.mk.inj (runs_raise.mp hraise).2).1
      exact hx
  · rw [if_neg hw] at h
    obtain rfl := Except.error.inj (Prod.mk.inj (Cmd.runs_ret.mp h).2).1
    exact hx

/-- A run, by what has come of the suite: it was not reached or has raised, it has not passed, or it
has. -/
inductive SuiteEnd (t : Teleporter) (tr : List (Event PyResp)) (r : Except PyExc MigrationResult)
    (state : MigrationState) : Prop
  | missed {x : PyExc} : (∀ ev ∈ tr, Aside ev.1) → r = .error x → x.isA .preflightError = false →
      SuiteEnd t tr r state
  | failed {results : List CheckResult} (pre rest : List (Event PyResp)) : (∀ ev ∈ tr, Aside ev.1) →
      tr = pre ++ ⟨.runAll t.pid, .ok results⟩ :: rest → allPassed results = false →
      r = .error (preflightFailure t.pid results) → state = .rolledBack → SuiteEnd t tr r state
  | passed {results : List CheckResult}
      (pre rest : List (Event PyResp)) : (∀ ev ∈ pre, Aside ev.1) →
      tr = pre ++ ⟨.runAll t.pid, .ok results⟩ :: rest → allPassed results = true →
      (∀ x, r = .error x → x.isA .preflightError = false) → SuiteEnd t tr r state

theorem IsBuiltin.notPreflight {x : PyExc} (h : IsBuiltin x) : x.isA .preflightError = false :=
  h.plain.notPreflight

/-- The `finally` clauses make no `PreflightError`. -/
theorem finish_notPreflight {r : Except PyExc MigrationResult} {u w : Except PyExc Unit}
    (hr : ∀ x, r = .error x → x.isA .preflightError = false) (hu : ∀ y, u = .error y → IsBuiltin y)
    (hw : ∀ y, w = .error y → IsBuiltin y) (x : PyExc) (h : finish (finish r u) w = .error x) :
    x.isA .preflightError = false :=
  (finish_cases hu hw h).elim IsBuiltin.notPreflight (hr x)

theorem guarded_suiteEnd {p : Except PyExc MigrationResult × Teleporter} (hc : t.connected = true)
    (h : Cmd.Runs (guarded v t) tr p) : SuiteEnd t tr p.1 p.2.state := by
  obtain ⟨tr₁, ⟨q, t₁⟩, tr₂, ⟨r, t₂⟩, tr₃, t₃, u, tr₄, w, hbody, hhandle, hclean, hclose,
    hp, rfl⟩ :=
    runs_guarded h
  have hu : ∀ y, u = .error y → IsBuiltin y :=
    fun y hy => bounded_cleanupSnapshot.raises _ _ _ _ (hy ▸ hclean)
  have hw : ∀ y, w = .error y → IsBuiltin y :=
    fun y hy => bounded_closeSession.raises _ _ _ _ (hy ▸ hclose)
  obtain ⟨hst, -, hraised⟩ := guarded_kept (v := v) (g := {}) hclean hclose hp
  obtain ⟨x, hq, hrun⟩ | ⟨pre, t₄, tr', hpre, rfl, hrest⟩ := runs_migrateBody hc hbody
  · obtain rfl := hq
    have hx : Early x := bounded_runPreflight.raises _ _ _ _ hrun
    obtain ⟨rfl, rfl, hstate⟩ := handle_early hx hhandle
    obtain ⟨y, hy⟩ := hraised ⟨x, rfl⟩
    obtain ⟨res, rfl, hend⟩ := runs_runPreflight hrun
    have haside : ∀ ev ∈ [⟨.runAll t.pid, res⟩] ++ ([] ++ (tr₃ ++ tr₄)), Aside ev.1 := by
      intro ev hmem
      simp only [List.mem_append, List.not_mem_nil, false_or] at hmem
      obtain hev | hev | hev := hmem
      · exact bounded_runPreflight.uses _ _ _ hrun _ hev
      · exact bounded_cleanupSnapshot.uses _ _ _ hclean _ hev
      · exact bounded_closeSession.uses _ _ _ hclose _ hev
    by_cases hpre : y.isA .preflightError = true
    · obtain hbuiltin | hxy := finish_cases hu hw (hp.symm.trans hy)
      · rw [hbuiltin.notPreflight] at hpre
        cases hpre
      · obtain rfl := Except.error.inj hxy
        cases hend with
        | failed hpassed => exact .failed [] _ haside rfl hpassed hy (hst.trans (hstate hpre))
        | raised => cases hpre
    · exact .missed haside hy ((Bool.not_eq_true _).mp hpre)
  · obtain ⟨res, rfl, hend⟩ := runs_runPreflight hpre
    cases hend with
    | passed hpassed =>
        refine .passed [] _ (List.forall_mem_nil _) rfl hpassed fun x hx => ?_
        refine finish_notPreflight (r := r) (fun y hy => ?_) hu hw x (hp.symm.trans hx)
        obtain rfl := hy
        obtain ⟨z, hq, hphases⟩ | ⟨mid, t₅, post, -, hcommit, rfl⟩ := hrest
        · obtain rfl := hq
          exact handle_late (bounded_phases.raises _ _ _ _ hphases).notPreflight hhandle
        · exact (ended_commit hcommit hhandle).notPreflight

theorem migrate_suiteEnd {p : Except PyExc MigrationResult × Teleporter}
    (h : Cmd.Runs (migrate v t) tr p) :
    SuiteEnd t tr p.1 p.2.state := by
  rw [migrate_eq] at h
  obtain ⟨x, hx, henter⟩ | ⟨tr₀, _, t₁, rest, henter, hrest, rfl⟩ := runs_bind_cases h
  · exact .missed (bounded_enter.uses _ _ _ henter) hx
      (bounded_enter.raises _ _ _ _ henter).notPreflight
  obtain ⟨-, -, ⟨⟨_, habs⟩, -⟩ | ⟨-, hc, -⟩⟩ := runs_enter (v := v) henter
  · cases habs
  have hpid : t₁.pid = t.pid := (bounded_enter.alters _ _ _ _ henter).pid
  have hidle := bounded_enter.uses _ _ _ henter
  have hend := guarded_suiteEnd hc hrest
  generalize p.2.state = state at hend ⊢
  cases hend with
  | missed hall hx hno =>
      exact .missed (fun ev hmem => (List.mem_append.mp hmem).elim (hidle ev) (hall ev)) hx hno
  | failed pre rest' hall htr hpassed hx hstate =>
      rw [hpid] at htr hx
      refine .failed (tr₀ ++ pre) rest'
        (fun ev hmem => (List.mem_append.mp hmem).elim (hidle ev) (hall ev)) ?_
        hpassed hx hstate
      rw [htr, List.append_assoc]
  | passed pre rest' hall htr hpassed hno =>
      rw [hpid] at htr
      refine .passed (tr₀ ++ pre) rest'
        (fun ev hmem => (List.mem_append.mp hmem).elim (hidle ev) (hall ev)) ?_
        hpassed hno
      rw [htr, List.append_assoc]

/-- What has held of a run of `migrate` whose suite made the probes `ptr`. -/
structure Prechecked (c : PreflightChecker) (session : RemoteSession) (ptr : List (Event ChkResp))
    (t : Teleporter) (tr : List (Event PyResp)) (r : Except PyExc MigrationResult)
    (state : MigrationState) :
    Prop where
  gated : ∀ pre ev post, tr = pre ++ ev :: post → acts ev.1 = true →
    Ready c session ptr ∧ ∃ results, ⟨.runAll t.pid, .ok results⟩ ∈ pre
  named : ∀ x, r = .error x → x.isA .preflightError = true → state = .rolledBack ∧
    ∃ before k after message hint, suite = before ++ k :: after ∧
      x = preflightError k.name message hint ∧
      (∀ k' ∈ before, Passing c session k' (probesOf k' ptr)) ∧
      ¬ Passing c session k (probesOf k ptr)
  returned : ∀ result, r = .ok result → Ready c session ptr

theorem SuiteAnswer.assessed {c : PreflightChecker} {session : RemoteSession}
    {ptr : List (Event ChkResp)} {results : List CheckResult} (hc : c.session = some session)
    (h : SuiteAnswer c ptr (.ok results)) :
    List.Forall₂ (Assessed c session ptr) suite results := by
  cases h with
  | returned hrun =>
      obtain ⟨new, rfl, hnew⟩ := (runAll_assesses hc _ _ _ _ hrun).returns _ rfl
      exact hnew

/-- Where the first event that is `g` stands, nothing before it being in `p`: before all that is. -/
theorem mem_before_of_first {ε : Type} {p : ε → Prop} {g x : ε} {a b pre post : List ε}
    (h : a ++ g :: b = pre ++ x :: post) (ha : ∀ y ∈ a, ¬ p y) (hg : ¬ p g) (hx : p x) :
    g ∈ pre := by
  induction a generalizing pre with
  | nil =>
      cases pre with
      | nil => exact absurd hx ((List.cons.inj h).1 ▸ hg)
      | cons y pre => exact (List.cons.inj h).1 ▸ .head _
  | cons y a ih =>
      cases pre with
      | nil => exact absurd hx ((List.cons.inj h).1 ▸ ha y (.head _))
      | cons z pre => exact .tail _ (ih (List.cons.inj h).2 fun w hw => ha w (.tail _ hw))

theorem not_acts_of_aside {ev : Event PyResp} (h : Aside ev.1) : ¬ acts ev.1 = true := by
  rw [h]
  exact Bool.false_ne_true

section Answered

variable {limit : PyFloat} {hpos : limit.le (.finite 0) = false} {ptr : List (Event ChkResp)}
  {p : Except PyExc MigrationResult × Teleporter} (h : Cmd.Runs (migrate v t) tr p)
  (hsuite : ∀ res, ⟨.runAll t.pid, res⟩ ∈ tr → SuiteAnswer (t.checker limit hpos) ptr res)

include hsuite

/-- The suite, where it has answered. -/
theorem assessed_of_mem {results : List CheckResult} {pre rest : List (Event PyResp)}
    (htr : tr = pre ++ ⟨.runAll t.pid, .ok results⟩ :: rest) :
    List.Forall₂ (Assessed (t.checker limit hpos) ⟨t.cfg.destination⟩ ptr) suite results :=
  (hsuite _ (htr ▸ List.mem_append_right _ (.head _))).assessed rfl

include h

/-- What acts is behind the suite, and the suite has passed. -/
theorem ready_of_acts {pre post : List (Event PyResp)} {ev : Event PyResp}
    (heq : tr = pre ++ ev :: post) (hacts : acts ev.1 = true) :
    Ready (t.checker limit hpos) ⟨t.cfg.destination⟩ ptr ∧
      ∃ results, ⟨.runAll t.pid, .ok results⟩ ∈ pre := by
  have hmem : ev ∈ tr := heq ▸ List.mem_append_right _ (.head _)
  cases migrate_suiteEnd h with
  | missed hall => exact absurd hacts (not_acts_of_aside (hall ev hmem))
  | failed _ _ hall => exact absurd hacts (not_acts_of_aside (hall ev hmem))
  | @passed results _ _ hall htr hpassed =>
      refine ⟨(allPassed_of_assessed (assessed_of_mem hsuite htr)).mp hpassed, results, ?_⟩
      exact mem_before_of_first (p := fun ev => acts ev.1 = true) (htr.symm.trans heq)
        (fun ev' hmem' => not_acts_of_aside (hall ev' hmem'))
        (show ¬ acts (.runAll t.pid) = true from Bool.false_ne_true) hacts

/-- A `PreflightError` is that of the first check that is not passed. -/
theorem first_of_preflightError {x : PyExc} (hx : p.1 = .error x)
    (hpre : x.isA .preflightError = true) :
    p.2.state = .rolledBack ∧ ∃ before k after message hint, suite = before ++ k :: after ∧
      x = preflightError k.name message hint ∧
      (∀ k' ∈ before, Passing (t.checker limit hpos) ⟨t.cfg.destination⟩ k' (probesOf k' ptr)) ∧
      ¬ Passing (t.checker limit hpos) ⟨t.cfg.destination⟩ k (probesOf k ptr) := by
  cases migrate_suiteEnd h with
  | missed _ hy hno =>
      obtain rfl := Except.error.inj (hy.symm.trans hx)
      rw [hno] at hpre
      cases hpre
  | passed _ _ _ _ _ hno =>
      rw [hno x hx] at hpre
      cases hpre
  | failed _ _ _ htr hpassed hy hstate =>
      obtain rfl := Except.error.inj (hy.symm.trans hx)
      refine ⟨hstate, ?_⟩
      unfold preflightFailure at hpre ⊢
      split
      · rename_i hnone
        rw [hnone] at hpre
        cases hpre
      · rename_i first others hfirst
        obtain ⟨before, k, after, hks, hname, hbefore, hk⟩ :=
          first_of_assessed (assessed_of_mem hsuite htr) hfirst
        exact ⟨before, k, after, _, _, hks, by rw [hname], hbefore, hk⟩

theorem ready_of_returns {result : MigrationResult} (hr : p.1 = .ok result) :
    Ready (t.checker limit hpos) ⟨t.cfg.destination⟩ ptr := by
  cases migrate_suiteEnd h with
  | missed _ hx => cases hx.symm.trans hr
  | failed _ _ _ _ _ hx => cases hx.symm.trans hr
  | passed _ _ _ htr hpassed =>
      exact (allPassed_of_assessed (assessed_of_mem hsuite htr)).mp hpassed

end Answered

/-- **Nothing is done before the suite has passed**: the process is not touched, no file is made,
nothing is started here or on the destination.  A `PreflightError` names the first check whose
probes do not pass it. -/
theorem migrate_prechecked {limit : PyFloat} {hpos : limit.le (.finite 0) = false}
    {p : Except PyExc MigrationResult × Teleporter} {ptr : List (Event ChkResp)}
    (h : Cmd.Runs (migrate v t) tr p)
    (hsuite : ∀ res, ⟨.runAll t.pid, res⟩ ∈ tr → SuiteAnswer (t.checker limit hpos) ptr res) :
    Prechecked (t.checker limit hpos) ⟨t.cfg.destination⟩ ptr t tr p.1 p.2.state where
  gated _ _ _ heq hacts := ready_of_acts h hsuite heq hacts
  named _ hx hpre := first_of_preflightError h hsuite hx hpre
  returned _ hr := ready_of_returns h hsuite hr

end Migrate

/-! ## A process of two megabytes -/

section Example

variable (answers : (o : ChkOp) → ChkResp o)

/-- The suite for `example42`. -/
def suiteRun : List (Event ChkResp) × Except PyExc Bool × List CheckResult :=
  Cmd.exec (fun (_ : Unit) o => (answers o, ())) (runAll checker42 []) ()

/-- A migration in which everything succeeds behind it. -/
def succeedsChecked : (o : PyOp) → PyResp o
  | .runAll _ => .ok (suiteRun answers).2.2
  | o => succeeds o

def checkedRun : List (Event PyResp) × Except PyExc MigrationResult × Teleporter :=
  Cmd.exec (fun (_ : Unit) o => (succeedsChecked answers o, ())) (migrate false example42) ()

variable {answers}

theorem suiteRun_runs (h : (suiteRun answers).2.1 = .ok true) :
    Cmd.Runs (runAll checker42 []) (suiteRun answers).1 (.ok true, (suiteRun answers).2.2) := by
  have hrun := Cmd.exec_runs (fun (_ : Unit) o => (answers o, ())) (runAll checker42 []) ()
  unfold suiteRun at h ⊢
  generalize Cmd.exec (fun (_ : Unit) o => (answers o, ())) (runAll checker42 [])
    () = run at hrun h ⊢
  obtain ⟨tr, r, results⟩ := run
  obtain rfl : r = .ok true := h
  exact hrun

theorem checkedRun_runs :
    Cmd.Runs (migrate false example42) (checkedRun answers).1 (checkedRun answers).2 :=
  Cmd.exec_runs (fun (_ : Unit) o => (succeedsChecked answers o, ())) (migrate false example42) ()

theorem checker42_eq : example42.checker (.finite 64) checker42.maxMemoryGb_pos = checker42 := rfl

theorem checkedRun_suite (h : (suiteRun answers).2.1 = .ok true)
    (res : Except Builtin (List CheckResult))
    (hmem : ⟨.runAll example42.pid, res⟩ ∈ (checkedRun answers).1) :
    SuiteAnswer (example42.checker (.finite 64) checker42.maxMemoryGb_pos) (suiteRun answers).1
      res := by
  have hanswers := Cmd.exec_answers (succeedsChecked answers) (migrate false example42)
  have hres : res = .ok (suiteRun answers).2.2 := hanswers _ hmem
  rw [hres, checker42_eq]
  exact .returned (suiteRun_runs h)

end Example

theorem wellAnswers_pass : (suiteRun wellAnswers).2.1 = .ok true := by decide +kernel

theorem migrate_prechecked_well : (checkedRun wellAnswers).1.any (fun ev => acts ev.1) = true ∧
    Prechecked checker42 ⟨worker2⟩ (suiteRun wellAnswers).1 example42 (checkedRun wellAnswers).1
      (checkedRun wellAnswers).2.1 (checkedRun wellAnswers).2.2.state :=
  ⟨by decide +kernel, migrate_prechecked checkedRun_runs (checkedRun_suite wellAnswers_pass)⟩

end Wraith.Control

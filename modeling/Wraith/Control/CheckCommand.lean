/-
# `Wraith.Control.CheckCommand` — the suite on its own

`wraith check` of `cli.py` connects, runs the suite, closes the connection, and prints a row for
each result.  A row is marked by two flags of the result, `PASS`, `FAIL` or `WARN`, and the exit
code is the verdict of `run_all`: that they agree, and with the probes, hangs on what each check
records.

`checkCommand_told`: in every run that is reported on, a row says `PASS` exactly if the probes of
its check pass it and `FAIL` otherwise, the number of failures is that of the latter, and the exit
code is 0 if there are none.  The connection is closed whatever the suite comes to.
-/
import Wraith.Control.Preflight

namespace Wraith.Control

open Lib Script

/-! ## The command -/

/-- `connect` and `close` of the session. -/
inductive SessionOp where
  | connect (addr : String)
  | close
  deriving DecidableEq, Repr

@[reducible] def SessionResp : SessionOp → Type
  | .connect _ => Except SshFailure Unit
  | .close => Except Builtin Unit

/-- A command: the session's calls and the probes, over the results of the checker. -/
abbrev Tool (α : Type) : Type := Script (Sum.elim SessionResp ChkResp) (List CheckResult) PyExc α

/-- The suite among the operations of the command. -/
def Chk.tool {α : Type} (d : Chk α) : Tool α := fun results => (d results).right

/-- `symbol`. -/
def CheckResult.symbol (r : CheckResult) : String :=
  if r.passed then "PASS" else if r.blocking then "FAIL" else "WARN"

/-- What `check` has to print. -/
structure CheckReport where
  results : List CheckResult
  passed : Bool
  deriving DecidableEq, Repr

def CheckReport.exitCode (report : CheckReport) : Nat := if report.passed then 0 else 1

/-- `failures`. -/
def CheckReport.failures (report : CheckReport) : Nat := (blockingFailures report.results).length

/-- `connect`, with a session that has no client yet. -/
def openSession (d : DestinationConfig) : Tool Unit :=
  call (.inl (.connect d.sshAddr)) fun r => Except.mapError (SshFailure.toExc d) r

/-- `except Exception: pass`. -/
def onCloseError (e : PyExc) : Option (Tool Unit) := if e.isException then some (pure ()) else none

/-- `close`, with one that has. -/
def endSession : Tool Unit :=
  tryExcept (call (.inl .close) fun r => Except.mapError .builtin r) onCloseError

/-- `check` of `cli.py`, with its checker. -/
def checkCommand (c : PreflightChecker) : Tool CheckReport := do
  openSession c.destination
  let passed ← tryFinally (runAll c).tool endSession
  let results ← get
  pure { results, passed }

/-! ## What a check records -/

/-- A result that is not passed is in the way. -/
def CheckResult.Blocks (r : CheckResult) : Prop := r.passed = false → r.blocking = true

/-- Nothing is recorded that is not. -/
def Firm (s s' : List CheckResult) : Prop := (∀ r ∈ s, r.Blocks) → ∀ r ∈ s', r.Blocks

section Firm

variable {α β : Type} {d : Chk α} {f : α → Chk β} {c : PreflightChecker} {session : RemoteSession}

theorem firm_refl (s : List CheckResult) : Firm s s := id

theorem firm_trans (s s' s'' : List CheckResult) (h : Firm s s') (h' : Firm s' s'') : Firm s s'' :=
  fun hs => h' (h hs)

theorem firm_bind (hd : Alters Firm d) (hf : ∀ a, Alters Firm (f a)) : Alters Firm (d >>= f) :=
  .bind firm_trans hd hf

theorem firm_pure {a : α} : Alters Firm (pure a : Chk α) := .pure firm_refl

theorem firm_probe {o : ChkOp} : Alters Firm (probe o) := .call firm_refl

theorem firm_ofExcept {r : Except PyExc α} : Alters Firm (ofExcept r : Chk α) := by
  cases r with
  | ok a => exact .pure firm_refl
  | error e => exact .raise firm_refl

theorem firm_exec {k : Check} {cmd : String} {timeout : Option Int} {check : Bool} :
    Alters Firm (sessionExec k session cmd timeout check) :=
  firm_bind firm_probe fun _ => firm_probe

theorem firm_record {result : CheckResult} (h : result.Blocks) : Alters Firm (record result) := by
  refine firm_bind (.modify fun s hs r hr => ?_) fun _ => firm_pure
  obtain hr | hr := List.mem_append.mp hr
  · exact hs r hr
  · exact List.mem_singleton.mp hr ▸ h

/-- A `try` statement whose clauses only choose a value. -/
theorem firm_onException {g : PyExc → α} (hd : Alters Firm d) :
    Alters Firm (tryExcept d (onException g)) := by
  refine .tryExcept firm_trans hd fun x d' hd' => ?_
  unfold onException at hd'
  split at hd'
  · exact Option.some.inj hd' ▸ firm_pure
  · cases hd'

theorem firm_assertSession : Alters Firm (assertSession c) := by
  unfold assertSession
  split
  · exact firm_pure
  · exact .raise firm_refl

/-- With `blocking=True`. -/
theorem blocks_true {name message : String} {passed : Bool} :
    CheckResult.Blocks { name, passed, message, blocking := true } := fun _ => rfl

theorem localChecks_firm : Alters Firm (localChecks c) := by
  have hopen : Alters Firm (tryExcept (openMem c) (onOpenError c)) := by
    refine .tryExcept firm_trans
      (firm_bind firm_probe fun _ => firm_bind firm_probe fun _ => firm_pure)
      fun x d' hd' => ?_
    unfold onOpenError at hd'
    split at hd'
    · exact Option.some.inj hd' ▸ firm_pure
    · exact Option.some.inj hd' ▸ firm_pure
    · cases hd'
  have hsize : Alters Firm (measureSize c) :=
    firm_bind firm_probe fun _ => firm_bind firm_ofExcept fun _ => firm_pure
  refine firm_bind (firm_bind firm_probe fun _ => firm_record blocks_true) fun _ =>
    firm_bind (firm_bind hopen fun _ => firm_record blocks_true) fun _ =>
    firm_bind (firm_bind (firm_onException hsize) fun result => firm_record fun h => ?_) fun _ =>
    firm_bind (firm_bind firm_probe fun _ => firm_record blocks_true) fun _ => firm_pure
  -- The size check blocks exactly if it is not passed.
  show (!result.1) = true
  rw [show result.1 = false from h]
  rfl

theorem findMissing_firm {paths missing : List String} :
    Alters Firm (findMissing session paths missing) := by
  induction paths generalizing missing with
  | nil => exact firm_pure
  | cons path rest ih =>
      exact firm_bind (firm_onException (firm_bind firm_exec fun _ => firm_pure)) fun _ => ih

theorem remoteChecks_firm : Alters Firm (remoteChecks c) := by
  have hresources {session : RemoteSession} : Alters Firm (compareResources c session) :=
    firm_bind firm_probe fun _ => firm_bind firm_ofExcept fun _ => firm_bind firm_exec fun _ =>
      firm_bind firm_ofExcept fun _ => firm_pure
  exact firm_bind (firm_bind firm_assertSession fun _ =>
      firm_bind (firm_onException (firm_bind firm_exec fun _ => firm_pure)) fun _ =>
        firm_record blocks_true) fun _ =>
    firm_bind (firm_bind firm_assertSession fun _ => firm_bind firm_probe fun _ =>
      firm_bind (firm_onException (firm_bind firm_exec fun _ => firm_pure)) fun _ =>
        firm_record blocks_true) fun _ =>
    firm_bind (firm_bind firm_assertSession fun _ =>
      firm_bind (firm_onException hresources) fun _ => firm_record blocks_true) fun _ =>
    firm_bind (firm_bind firm_assertSession fun _ => firm_bind findMissing_firm fun _ =>
      firm_record blocks_true)
      fun _ => firm_pure

theorem runAll_firm (h : c.session = some session) : Alters Firm (runAll c) := by
  rw [runAll_eq c h]
  exact firm_bind localChecks_firm fun _ => firm_bind remoteChecks_firm fun _ =>
    firm_bind (.get firm_refl) fun _ => firm_pure

end Firm

/-! ## What is told -/

section Told

variable {c : PreflightChecker} {session : RemoteSession} {ptr : List (Event ChkResp)}
  {results s' : List CheckResult} {w : Except Builtin Unit}
  {tr : List (Event (Sum.elim SessionResp ChkResp))}

/-- The row is the one of the check, and tells whether its probes pass it. -/
def Shown (c : PreflightChecker) (session : RemoteSession) (ptr : List (Event ChkResp)) (k : Check)
    (r : CheckResult) : Prop :=
  r.name = k.name ∧ (r.symbol = "PASS" ∧ Passing c session k (probesOf k ptr) ∨
    r.symbol = "FAIL" ∧ ¬ Passing c session k (probesOf k ptr))

/-- What the report says of the probes. -/
structure Told (c : PreflightChecker) (session : RemoteSession) (ptr : List (Event ChkResp))
    (report : CheckReport) : Prop where
  rows : List.Forall₂ (Shown c session ptr) suite report.results
  failures : report.failures = (report.results.filter fun r => r.symbol = "FAIL").length
  exitCode : report.exitCode = 0 ↔ Ready c session ptr

/-- The operations of a command that gets to the suite. -/
def inside (c : PreflightChecker) (ptr : List (Event ChkResp)) (w : Except Builtin Unit) :
    List (Event (Sum.elim SessionResp ChkResp)) :=
  ⟨.inl (.connect c.destination.sshAddr), .ok ()⟩ :: (ptr.map Cmd.ofRight ++ [⟨.inl .close, w⟩])

/-- A run of `check`: without a connection, with a report, or with an exception from the suite or
from the closing of the connection. -/
inductive Checked (c : PreflightChecker) (session : RemoteSession) :
    List (Event (Sum.elim SessionResp ChkResp)) → Except PyExc CheckReport → Prop where
  | unconnected {f : SshFailure} : Checked c session
      [⟨.inl (.connect c.destination.sshAddr), .error f⟩] (.error (f.toExc c.destination))
  | reported {ptr : List (Event ChkResp)} {w : Except Builtin Unit} {report : CheckReport} :
      Told c session ptr report → Checked c session (inside c ptr w) (.ok report)
  | raised {ptr : List (Event ChkResp)} {w : Except Builtin Unit} {e : PyExc} :
      ¬ Ready c session ptr → Checked c session (inside c ptr w) (.error e)
  | interrupted {ptr : List (Event ChkResp)} {b : Builtin} :
      b.isException = false → Checked c session (inside c ptr (.error b)) (.error (.builtin b))

/-- A result that blocks if it is not passed is marked by whether it clears. -/
theorem symbol_of_blocks {r : CheckResult} (h : r.Blocks) :
    r.symbol = if r.clears then "PASS" else "FAIL" := by
  unfold CheckResult.symbol CheckResult.clears
  cases hpassed : r.passed with
  | true =>
      rw [Bool.or_true]
      rfl
  | false =>
      rw [h hpassed]
      rfl

theorem shown_of_assessed {k : Check} {r : CheckResult} (h : Assessed c session ptr k r)
    (hr : r.Blocks) :
    Shown c session ptr k r := by
  refine ⟨h.1, ?_⟩
  rw [symbol_of_blocks hr, ← h.2]
  cases r.clears with
  | true => exact Or.inl ⟨rfl, rfl⟩
  | false => exact Or.inr ⟨rfl, Bool.false_ne_true⟩

theorem shown_of_assessments {ks : List Check}
    (h : List.Forall₂ (Assessed c session ptr) ks results)
    (hr : ∀ r ∈ results, r.Blocks) : List.Forall₂ (Shown c session ptr) ks results := by
  induction h with
  | nil => exact .nil
  | cons hone _ ih =>
      obtain ⟨hfirst, hrest⟩ := List.forall_mem_cons.mp hr
      exact .cons (shown_of_assessed hone hfirst) (ih hrest)

/-- What stands in the way is what is marked so. -/
theorem blockingFailures_eq (h : ∀ r ∈ results, r.Blocks) :
    blockingFailures results = results.filter fun r => r.symbol = "FAIL" := by
  refine List.filter_congr fun r hr => ?_
  rw [symbol_of_blocks (h r hr), CheckResult.clears]
  cases r.passed <;> cases r.blocking <;> decide

theorem runAll_told (h : c.session = some session) {passed : Bool}
    (hr : Cmd.Runs (runAll c []) ptr (.ok passed, results)) :
    Told c session ptr { results, passed } := by
  obtain ⟨-, hreturns, -⟩ := runAll_assesses h _ _ _ _ hr
  obtain ⟨new, rfl, hnew⟩ := hreturns passed rfl
  have hblocks : ∀ r ∈ results, r.Blocks := runAll_firm h _ _ _ _ hr (List.forall_mem_nil _)
  refine ⟨?_, congrArg List.length (blockingFailures_eq hblocks), ?_⟩
  · exact shown_of_assessments hnew hblocks
  · rw [← runAll_ready_iff h hr, Except.ok.injEq]
    exact ite_eq_left_iff.trans
      ⟨fun hzero => by_contra fun hnot => absurd (hzero hnot) Nat.one_ne_zero,
      fun hpassed hnot => absurd hpassed hnot⟩

/-- How the connection is closed. -/
theorem runs_endSession {u : Except PyExc Unit} (h : Cmd.Runs (endSession results) tr (u, s')) :
    ∃ w, tr = [⟨.inl .close, w⟩] ∧ s' = results ∧
      (u = .ok () ∨ ∃ b, w = .error b ∧ b.isException = false ∧ u = .error (.builtin b)) := by
  obtain ⟨tr₁, ⟨q, s₁⟩, tr₂, hcall, hhandle, rfl⟩ := runs_tryExcept.mp h
  obtain ⟨w, tr', rfl, hret⟩ := Cmd.runs_op.mp hcall
  obtain ⟨rfl, heq⟩ := Cmd.runs_ret.mp hret
  obtain ⟨rfl, rfl⟩ := Prod.mk.inj heq
  cases w with
  | ok _ =>
      obtain ⟨rfl, heq⟩ := Cmd.runs_ret.mp hhandle
      obtain ⟨rfl, rfl⟩ := Prod.mk.inj heq
      exact ⟨.ok (), rfl, rfl, Or.inl rfl⟩
  | error b =>
      change Cmd.Runs (handle onCloseError (.error (.builtin b), _)) _ _ at hhandle
      rw [handle, onCloseError] at hhandle
      cases hb : (PyExc.builtin b).isException with
      | true =>
          rw [hb] at hhandle
          obtain ⟨rfl, heq⟩ := runs_pure.mp hhandle
          obtain ⟨rfl, rfl⟩ := Prod.mk.inj heq
          exact ⟨.error b, rfl, rfl, Or.inl rfl⟩
      | false =>
          rw [hb] at hhandle
          obtain ⟨rfl, heq⟩ := Cmd.runs_ret.mp hhandle
          obtain ⟨rfl, rfl⟩ := Prod.mk.inj heq
          exact ⟨.error b, rfl, rfl, Or.inr ⟨b, rfl, hb, rfl⟩⟩

/-- **The report is true.**  In every run of `check`: without a connection nothing is probed;
otherwise it is closed, whatever the suite has come to.  A report has a row for every check of the
suite, marked `PASS` if its probes pass it and `FAIL` if not; the failures counted are the rows
marked `FAIL`, and the exit code is 0 exactly if every check is passed. -/
theorem checkCommand_told {p : Except PyExc CheckReport × List CheckResult}
    (h : c.session = some session)
    (hr : Cmd.Runs (checkCommand c []) tr p) : Checked c session tr p.1 := by
  obtain ⟨r, s'⟩ := p
  obtain ⟨conn, tr₀, rfl, hrest⟩ := Cmd.runs_op.mp (show Cmd.Runs (.op _ _) tr _ from hr)
  cases conn with
  | error f =>
      obtain ⟨rfl, heq⟩ := Cmd.runs_ret.mp hrest
      obtain ⟨rfl, rfl⟩ := Prod.mk.inj heq
      exact .unconnected
  | ok _ =>
      have hbody : Cmd.Runs ((tryFinally (runAll c).tool endSession >>= fun passed =>
          get >>= fun results => pure { results, passed }) []) tr₀ (r, s') := hrest
      -- The suite and the closing, and what of the report is made behind them.
      have hsplit : ∃ q s₁, Cmd.Runs (tryFinally (runAll c).tool endSession []) tr₀ (q, s₁) ∧
          r = q.map fun passed => { results := s₁, passed } := by
        obtain ⟨x, rfl, hrun⟩ | ⟨tr₁, passed, s₁, tr₂, hrun, hpure, rfl⟩ := runs_bind_cases hbody
        · exact ⟨_, _, hrun, rfl⟩
        · obtain ⟨rfl, heq⟩ := Cmd.runs_ret.mp hpure
          obtain ⟨rfl, -⟩ := Prod.mk.inj heq
          rw [List.append_nil]
          exact ⟨_, _, hrun, rfl⟩
      obtain ⟨q, s₁, hfinally, rfl⟩ := hsplit
      obtain ⟨tr₁, q', s₂, tr₂, u, hsuite, hclose, hq, rfl⟩ := runs_tryFinally.mp hfinally
      obtain ⟨ptr, hrun, rfl⟩ := Cmd.runs_right.mp hsuite
      obtain ⟨w, rfl, hs, rfl | ⟨b, rfl, hb, rfl⟩⟩ := runs_endSession hclose
      · obtain rfl : q = q' := hq
        obtain rfl : s₁ = s₂ := hs
        cases q with
        | ok passed => exact .reported (runAll_told h hrun)
        | error e =>
            refine .raised ?_
            rw [← runAll_ready_iff h hrun]
            rintro ⟨⟩
      · obtain rfl : q = .error (.builtin b) := hq
        exact .interrupted hb

end Told

/-- The connection is made and closed, and the probes are answered by `answers`. -/
def connected (answers : (o : ChkOp) → ChkResp o) :
    (o : SessionOp ⊕ ChkOp) → Sum.elim SessionResp ChkResp o
  | .inl (.connect _) => .ok ()
  | .inl .close => .ok ()
  | .inr o => answers o

theorem checkCommand_told_well :
    let run := Cmd.exec (fun (_ : Unit) o =>
      (connected wellAnswers o, ())) (checkCommand checker42 []) ()
    run.2.1.toOption.map CheckReport.exitCode = some 0 ∧
      Checked checker42 ⟨worker2⟩ run.1 run.2.1 :=
  ⟨by decide +kernel, checkCommand_told rfl (Cmd.exec_runs _ _ _)⟩

end Wraith.Control

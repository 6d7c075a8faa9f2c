/-
# `Wraith.Control.Commit` — the commit point

What the order of the phases guarantees, whatever the operations come to: the source is signalled
only after the preflight has passed and the capturer, the transmitter and the restorer have exited
0, in this order, and never in a verifying run; it is not captured before the preflight; after a
signal there is no rollback; and a run that returns has completed.

The safety rule of the ledger (`Ledger.allow`) says this of the ledger's entries.  `Ledger.Records`
is what the entries mean for the trace so far.
-/
import Mathlib.Data.List.Forall2
import Wraith.Control.Run

namespace Wraith.Control

open Lib Script

/-! ## Milestones in a trace -/

/-- `run_all` returned `True`. -/
def PreflightPassed (ev : Event PyResp) : Prop :=
  ∃ pid results, ev = ⟨.runAll pid, .ok results⟩ ∧ allPassed results = true

/-- A local process exited 0. -/
def ExitedZero (proc : Proc) (ev : Event PyResp) : Prop :=
  ∃ argv timeout c, ev = ⟨.subprocessRun proc argv timeout, .ok c⟩ ∧ c.returncode = 0

/-- `wraith-restorer` was seen to exit 0. -/
def RestorerExitedZero (ev : Event PyResp) : Prop :=
  ∃ cmd timeout r, ev = ⟨.execCommand .restorer cmd timeout, r⟩ ∧ r.exited0 = true

/-- What comes before a signal, in this order. -/
def milestones : List (Event PyResp → Prop) :=
  [PreflightPassed, ExitedZero .capture, ExitedZero .transmit, RestorerExitedZero]

/-- Some events of the trace satisfy `ps`, one after the other. -/
abbrev InOrder (ps : List (Event PyResp → Prop)) (tr : List (Event PyResp)) : Prop :=
  List.SublistForall₂ (fun p ev => p ev) ps tr

variable {ps : List (Event PyResp → Prop)} {tr : List (Event PyResp)} {ev : Event PyResp}

theorem InOrder.snoc {p : Event PyResp → Prop} (h : InOrder ps tr) (hp : p ev) :
    InOrder (ps ++ [p]) (tr ++ [ev]) := by
  induction h with
  | @nil tr =>
      induction tr with
      | nil => exact .cons hp .nil
      | cons _ _ ih => exact .cons_right ih
  | cons hq _ ih => exact .cons hq ih
  | cons_right _ ih => exact .cons_right ih

theorem InOrder.later (h : InOrder ps tr) : InOrder ps (tr ++ [ev]) := by
  induction h with
  | nil => exact .nil
  | cons hq _ ih => exact .cons hq ih
  | cons_right _ ih => exact .cons_right ih

/-! ## What the entries mean -/

variable {g : Ledger} {o : PyOp} {r : PyResp o}

theorem after_preflight (h : (g.after o r).preflight = true) :
    g.preflight = true ∨ PreflightPassed ⟨o, r⟩ := by
  cases o with
  | runAll pid =>
      cases r with
      | ok results => exact Or.inr ⟨pid, results, rfl, h⟩
      | error b => exact Or.inl h
  | subprocessRun proc argv n => cases proc <;> exact Or.inl h
  | execCommand remote cmd n => cases remote <;> exact Or.inl h
  | _ => exact Or.inl h

theorem exitedZero_of_exited0 {proc : Proc} {argv : List String} {n : Int}
    {r : Except Builtin Completed} (h : Completed.exited0 r = true) :
    ExitedZero proc ⟨.subprocessRun proc argv n, r⟩ := by
  cases r with
  | ok c => exact ⟨argv, n, c, rfl, of_decide_eq_true h⟩
  | error b => exact nomatch h

theorem after_captured (h : (g.after o r).captured = true) :
    g.captured = true ∨ g.preflight = true ∧ ExitedZero .capture ⟨o, r⟩ := by
  cases o with
  | runAll pid => cases r <;> exact Or.inl h
  | subprocessRun proc argv n =>
      cases proc with
      | capture =>
          obtain ⟨hpre, hexit⟩ := (Bool.and_eq_true _ _).mp h
          exact Or.inr ⟨hpre, exitedZero_of_exited0 hexit⟩
      | _ => exact Or.inl h
  | execCommand remote cmd n => cases remote <;> exact Or.inl h
  | _ => exact Or.inl h

theorem after_transmitted (h : (g.after o r).transmitted = true) :
    g.transmitted = true ∨ g.captured = true ∧ ExitedZero .transmit ⟨o, r⟩ := by
  cases o with
  | runAll pid => cases r <;> exact Or.inl h
  | subprocessRun proc argv n =>
      cases proc with
      | transmit =>
          obtain ⟨hcap, hexit⟩ := (Bool.and_eq_true _ _).mp h
          exact Or.inr ⟨hcap, exitedZero_of_exited0 hexit⟩
      | _ => exact Or.inl h
  | execCommand remote cmd n => cases remote <;> exact Or.inl h
  | _ => exact Or.inl h

theorem after_restored (h : (g.after o r).restored = true) :
    g.restored = true ∨ g.transmitted = true ∧ RestorerExitedZero ⟨o, r⟩ := by
  cases o with
  | runAll pid => cases r <;> exact Or.inl h
  | subprocessRun proc argv n => cases proc <;> exact Or.inl h
  | execCommand remote cmd n =>
      cases remote with
      | restorer =>
          obtain ⟨htrans, hexit⟩ := (Bool.and_eq_true _ _).mp h
          exact Or.inr ⟨htrans, cmd, n, r, rfl, hexit⟩
      | cleanup => exact Or.inl h
  | _ => exact Or.inl h

theorem after_signalled (h : g.signalled = true) : (g.after o r).signalled = true := by
  cases o with
  | runAll pid => cases r <;> exact h
  | subprocessRun proc argv n => cases proc <;> exact h
  | execCommand remote cmd n => cases remote <;> exact h
  | kill pid sig => rfl
  | _ => exact h

/-- The milestones a ledger has entered are in the trace. -/
structure Ledger.Records (g : Ledger) (tr : List (Event PyResp)) : Prop where
  preflight : g.preflight = true → InOrder (milestones.take 1) tr
  captured : g.captured = true → InOrder (milestones.take 2) tr
  transmitted : g.transmitted = true → InOrder (milestones.take 3) tr
  restored : g.restored = true → InOrder milestones tr

theorem Ledger.Records.after (h : g.Records tr) : (g.after o r).Records (tr ++ [⟨o, r⟩]) where
  preflight hg := (after_preflight hg).elim (fun hg => (h.preflight hg).later)
    fun hp => @InOrder.snoc [] _ _ _ .nil hp
  captured hg := (after_captured hg).elim (fun hg => (h.captured hg).later)
    fun hp => (h.preflight hp.1).snoc hp.2
  transmitted hg := (after_transmitted hg).elim (fun hg => (h.transmitted hg).later)
    fun hp => (h.captured hp.1).snoc hp.2
  restored hg := (after_restored hg).elim (fun hg => (h.restored hg).later)
    fun hp => (h.transmitted hp.1).snoc hp.2

variable {v : Bool}

theorem Ledger.Records.run : ∀ {g : Ledger} {tr : List (Event PyResp)} (tr' : List (Event PyResp)),
    g.Records tr → ((ledger v).after g tr').Records (tr ++ tr')
  | g, tr, [], h => by rwa [List.append_nil]
  | g, tr, ev :: tr', h => by
      rw [List.append_cons]
      exact (h.after (o := ev.1) (r := ev.2)).run tr'

theorem records_of_run (tr : List (Event PyResp)) : ((ledger v).after {} tr).Records tr :=
  @Ledger.Records.run v {} [] tr ⟨nofun, nofun, nofun, nofun⟩

/-- A signal stays on record. -/
theorem signalled_run : ∀ {g : Ledger} (tr : List (Event PyResp)), g.signalled = true →
    ((ledger v).after g tr).signalled = true
  | _, [], h => h
  | _, _ :: tr, h => signalled_run tr (after_signalled h)

/-! ## The commit point -/

/-- The guarantees of a run of `migrate` that has ended in `p`. -/
structure CommitsLast (verifyOnly : Bool) (tr : List (Event PyResp))
    (p : Except PyExc MigrationResult × Teleporter) : Prop where
  /-- a signal only after all four milestones, and only to commit -/
  signal : ∀ {pre pid sig r post}, tr = pre ++ ⟨.kill pid sig, r⟩ :: post →
    verifyOnly = false ∧ InOrder milestones pre
  /-- no capture before the preflight has passed -/
  capture : ∀ {pre argv timeout r post},
    tr = pre ++ ⟨.subprocessRun .capture argv timeout, r⟩ :: post → ∃ ev ∈ pre, PreflightPassed ev
  /-- no rollback after a signal -/
  rollback : ∀ {pre pid sig r post}, tr = pre ++ ⟨.kill pid sig, r⟩ :: post →
    ∀ argv timeout r', ⟨.subprocessRun .resume argv timeout, r'⟩ ∉ post
  complete : ∀ result, p.1 = .ok result → p.2.state = .complete

theorem InOrder.mem {p : Event PyResp → Prop} (h : InOrder [p] tr) : ∃ ev ∈ tr, p ev := by
  induction tr with
  | nil => exact nomatch h
  | cons ev tr ih =>
      cases h with
      | cons hp _ => exact ⟨ev, List.mem_cons_self, hp⟩
      | cons_right h =>
          obtain ⟨ev', hmem, hp⟩ := ih h
          exact ⟨ev', List.mem_cons_of_mem _ hmem, hp⟩

theorem migrate_commits_last {t : Teleporter} {p : Except PyExc MigrationResult × Teleporter}
    (h : Cmd.Runs (migrate v t) tr p) : CommitsLast v tr p where
  signal {pre pid sig r post} htr := by
    obtain ⟨hv, hrestored⟩ := migrate_wp.allowed h pre _ post htr
    exact ⟨hv, (records_of_run pre).restored hrestored⟩
  capture {pre argv n r post} htr :=
    ((records_of_run pre).preflight (migrate_wp.allowed h pre _ post htr)).mem
  rollback {pre pid sig r post} htr argv n r' hmem := by
    obtain ⟨mid, post', rfl⟩ := List.append_of_mem hmem
    have hno : ((ledger v).after {} (pre ++ ⟨.kill pid sig, r⟩ :: mid)).signalled = false :=
      migrate_wp.allowed h _ ⟨.subprocessRun .resume argv n, r'⟩ post'
        (by rw [htr, List.append_assoc, List.cons_append])
    rw [Cmd.Monitor.after_append, Cmd.Monitor.after_cons, ledger_next, signalled_run] at hno
    · exact nomatch hno
    · rfl
  complete result hok := by
    have hpost : MigratePost p.1 p.2 _ := migrate_wp.after h
    rw [hok] at hpost
    exact hpost.1

/-- Every operation succeeds; the restored process is running. -/
def succeeds : (o : PyOp) → PyResp o
  | .monotonic => 0
  | .sshConnect _ => .ok ()
  | .sshClose => .ok ()
  | .runAll _ => .ok [⟨"process_exists", true, "PID 42 exists", true⟩]
  | .mkstemp _ _ => .ok (3, "/tmp/wraith_0_x.pb")
  | .close _ => .ok ()
  | .subprocessRun _ _ _ => .ok { returncode := 0, stderr := "" }
  | .getsize _ => .ok 4096
  | .pathExists _ => .ok true
  | .unlink _ => .ok ()
  | .execBackground _ => .ok ()
  | .sleep _ => .ok ()
  | .execCommand .restorer _ _ =>
      { left := true, result := .ok ("Process 4242 is now running\n", "", 0) }
  | .execCommand .cleanup _ _ => { left := false, result := .ok ("", "", 0) }
  | .kill _ _ => .ok ()

/-- The restorer exits 1, and leaves nothing running. -/
def restorerFails : (o : PyOp) → PyResp o
  | .execCommand .restorer _ _ =>
      { left := false, result := .ok ("", "error: PTRACE_SETREGS: EIO: I/O error", 1) }
  | o => succeeds o

/-- A migration of the process 42 to a host. -/
def example42 : Teleporter :=
  { pid := 42, cfg := toWorker2, migrationId := "0f8fad5b-d9cb-469f-a165-70867728950e" }

/-- The run in which everything succeeds sends the two signals. -/
theorem migrate_commits_last_succeeds :
    let run := Cmd.exec (fun (_ : Unit) o => (succeeds o, ())) (migrate false example42) ()
    run.1.countP (fun ev => ev.1 = .kill 42 .term || ev.1 = .kill 42 .kill) = 2 ∧
      CommitsLast false run.1 run.2 :=
  ⟨by decide +kernel, migrate_commits_last (Cmd.exec_runs _ _ _)⟩

end Wraith.Control

/-
# `Wraith.Control.Duplicates` — source and copy both running

What the restorer does on the destination and what the caller gets to see of it are two things: the
SSH call may time out, or an exit code be lost, with the restored process running.  Nothing in
`migrate` stops that process again, and a run that raises leaves the source running too.

`migrate_no_duplicate_iff` says which runs are free of this: those in which, from the command that
left a process running on, every operation returns or raises something that is ignored (`endsWell`).
That command is the first of these operations, and it has to be seen to exit 0.
-/
import Wraith.Control.Commit

namespace Wraith.Control

open Lib Script

/-- A process restored in this run is left running on the destination. -/
def leftRunning (tr : List (Event PyResp)) : Bool := tr.any fun ev => leaves ev.1 ev.2

/-- Once a process is left running, no operation comes to anything that makes `migrate` raise. -/
def endsWell : List (Event PyResp) → Bool
  | [] => true
  | ev :: tr =>
    if leaves ev.1 ev.2 then (ev :: tr).all fun ev => benign ev.1 ev.2 else endsWell tr

variable {v : Bool}

theorem left_run (g : Ledger) (tr : List (Event PyResp)) :
    ((ledger v).after g tr).left = (g.left || leftRunning tr) :=
  (ledger v).after_any (fun g ev => g.after_left ev.1 ev.2) tr g

/-- With a process left running, the ledger is clean as long as everything is benign. -/
theorem clean_run_of_left {g : Ledger} (hg : g.left = true) (tr : List (Event PyResp)) :
    ((ledger v).after g tr).clean = (g.clean && tr.all fun ev => benign ev.1 ev.2) := by
  induction tr generalizing g with
  | nil => exact (Bool.and_true _).symm
  | cons ev tr ih =>
      have hleft : (g.after ev.1 ev.2).left = true := by rw [g.after_left, hg, Bool.true_or]
      rw [Cmd.Monitor.after_cons, ledger_next, ih hleft, g.after_clean, hg, Bool.true_or,
        if_pos rfl, Bool.and_assoc, List.all_cons]

/-- Before, it waits for that. -/
theorem clean_run {g : Ledger} (hg : g.left = false) (hc : g.clean = true)
    (tr : List (Event PyResp)) : ((ledger v).after g tr).clean = endsWell tr := by
  induction tr generalizing g with
  | nil => exact hc
  | cons ev tr ih =>
      have hleft : (g.after ev.1 ev.2).left = leaves ev.1 ev.2 := by
        rw [g.after_left, hg, Bool.false_or]
      have hclean := g.after_clean ev.1 ev.2
      rw [hg, hc, Bool.false_or, Bool.true_and] at hclean
      rw [Cmd.Monitor.after_cons, ledger_next, endsWell]
      by_cases hl : leaves ev.1 ev.2 = true
      · rw [if_pos hl] at hclean ⊢
        rw [clean_run_of_left (hleft.trans hl), hclean, List.all_cons]
      · rw [if_neg hl] at hclean ⊢
        exact ih (hleft.trans ((Bool.not_eq_true _).mp hl)) hclean

theorem endsWell_of_leftRunning_false : ∀ {tr : List (Event PyResp)}, leftRunning tr = false →
    endsWell tr = true
  | [], _ => rfl
  | ev :: tr, h => by
      obtain ⟨hev, htr⟩ := (Bool.or_eq_false_iff).mp h
      rw [endsWell, show leaves ev.1 ev.2 = false from hev]
      exact endsWell_of_leftRunning_false htr

/-- A run that raises leaves no process running exactly if it is one that ends well. -/
theorem migrate_no_duplicate_iff {t : Teleporter} {tr : List (Event PyResp)}
    {p : Except PyExc MigrationResult × Teleporter} (h : Cmd.Runs (migrate v t) tr p) :
    ((∃ x, p.1 = .error x) → leftRunning tr = false) ↔ endsWell tr = true := by
  have hpost : MigratePost p.1 p.2 ((ledger v).after {} tr) := migrate_wp.after h
  have hleft : ((ledger v).after {} tr).left = leftRunning tr := left_run _ _
  have hclean : ((ledger v).after {} tr).clean = endsWell tr := clean_run rfl rfl tr
  rw [← hleft, ← hclean]
  obtain ⟨r, t'⟩ := p
  cases r with
  | ok result => exact ⟨fun _ => hpost.2, fun _ hx => nomatch hx⟩
  | error x =>
      refine ⟨fun hno => ?_, fun hc hx => ?_⟩
      · rw [hclean]
        exact endsWell_of_leftRunning_false (hleft.symm.trans (hno ⟨x, rfl⟩))
      · cases hl : ((ledger v).after {} tr).left with
        | false => rfl
        | true => exact absurd hc (by rw [hpost hl]; decide)

/-- The run in which the restorer fails raises, and there is no copy. -/
theorem migrate_no_duplicate_iff_fails :
    let run := Cmd.exec (fun (_ : Unit) o => (restorerFails o, ())) (migrate false example42) ()
    (∃ x, run.2.1 = .error x) ∧ leftRunning run.1 = false := by
  have hraised : ∃ x, (Cmd.exec (fun (_ : Unit) o => (restorerFails o, ()))
      (migrate false example42) ()).2.1 = .error x := ⟨_, rfl⟩
  exact ⟨hraised, (migrate_no_duplicate_iff (Cmd.exec_runs _ _ _)).mpr (by decide +kernel) hraised⟩

/-- The restorer has started the process; the SSH call times out before its exit code is in. -/
def restorerTimesOut : (o : PyOp) → PyResp o
  | .execCommand .restorer _ _ =>
      { left := true, result := .error (.exception "TimeoutError" "timed out") }
  | o => succeeds o

/-- The rollback resumes the source, and the copy runs on. -/
theorem duplicate_after_timeout : ∃ tr p, Cmd.Runs (migrate false example42) tr p ∧
    (∃ x, p.1 = .error x) ∧ p.2.state = .rolledBack ∧ leftRunning tr = true :=
  ⟨_, _, Cmd.exec_runs (fun (_ : Unit) o => (restorerTimesOut o, ())) (migrate false example42) (),
    ⟨_, rfl⟩, rfl, by decide +kernel⟩

end Wraith.Control

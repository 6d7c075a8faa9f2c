/-
# `Wraith.Control.Shipped` — the migration with the transmitter of this repository

The orchestrator's theorems leave open what a local process comes to.  Here the transmitter is
`cmd/transmitter`: it reads its flags before anything else, and exits 2 on those `_run_transfer`
gives it (`transmitterMain_refuses`).  So no migration gets past the transfer, whatever all other
operations come to: none succeeds, and none sends a signal (`migrate_never_succeeds`).
-/
import Wraith.Control.Cli

namespace Wraith.Control

open Lib Script Transport

variable {v : Bool} {t : Teleporter} {tr : List (Event PyResp)}

/-- The exit code of `main` of `cmd/transmitter`; `rest` is what comes of it behind the flags. -/
def transmitterMain (args : List String) (rest : TransmitterFlags → Int) : Int :=
  match parseFlags {} args with
  | .error .help => 0
  | .error _ => 2
  | .ok flags => if flags.snapshot = "" then 1 else rest flags

theorem transmitArgs_invalid (t : Teleporter) (path : String) : ∃ value name err,
    parseFlags {} (transmitArgs t path (toString t.cfg.timeoutS)) =
      .error (.invalidValue value name err) := by
  rw [parseFlags_transmitArgs]
  cases hnum : parseInt (toString t.cfg.retryCount).toList with
  | error err =>
      rw [parseFlags_invalid "retries" (by decide) (by decide) (by rw [setFlag_retries, hnum]; rfl)]
      exact ⟨_, _, _, rfl⟩
  | ok n =>
      rw [parseFlags_flag "retries" (by decide) (by decide) (by rw [setFlag_retries, hnum]; rfl),
        timeout_invalid]
      exact ⟨_, _, _, rfl⟩

theorem transmitterMain_refuses (t : Teleporter) (path : String) (rest : TransmitterFlags → Int) :
    transmitterMain (transmitArgs t path (toString t.cfg.timeoutS)) rest = 2 := by
  obtain ⟨value, name, err, hparse⟩ := transmitArgs_invalid t path
  rw [transmitterMain, hparse]

/-! ## In a run -/

/-- The transmitters of the run are the one of this repository. -/
def TransmitterShipped (tr : List (Event PyResp)) : Prop :=
  ∀ argv n c, ⟨.subprocessRun .transmit argv n, .ok c⟩ ∈ tr →
    ∃ rest, c.returncode = transmitterMain argv.tail rest

theorem migrate_addressed : Uses Addressed (migrate v) := by
  have hpass {o : PyOp} (h : Aside o) : Addressed o := h.forward.addressed
  have hhandler : ∀ x d, onMigrateError x = some d → Uses Addressed d := fun x d hd => by
    rw [onMigrateError] at hd
    split at hd
    · obtain rfl := Option.some.inj hd
      exact .bind .modify fun _ => .raise
    · split at hd
      · obtain rfl := Option.some.inj hd
        exact .bind (bounded_rollback.uses.mono fun _ h => h.addressed) fun _ => .raise
      · cases hd
  have hbody : Uses Addressed (migrateBody v) :=
    .bind (bounded_connect.uses.mono fun _ => hpass) fun _ =>
      .bind (bounded_runPreflight.uses.mono fun _ => hpass) fun _ =>
      .bind (bounded_phases.uses.mono fun _ h => h.addressed) fun _ =>
      bounded_commit.uses.mono fun _ h => h.addressed
  rw [migrate_eq]
  exact .bind (bounded_enter.uses.mono fun _ => hpass) fun _ =>
    .tryFinally (.tryFinally (.tryExcept hbody hhandler)
      (bounded_cleanupSnapshot.uses.mono fun _ => hpass))
      (bounded_closeSession.uses.mono fun _ => hpass)

theorem InOrder.exists_mem {ps : List (Event PyResp → Prop)} {p : Event PyResp → Prop}
    (h : InOrder ps tr) (hp : p ∈ ps) : ∃ ev ∈ tr, p ev := by
  induction h with
  | nil => exact nomatch hp
  | cons hq _ ih =>
      obtain rfl | hp := List.mem_cons.mp hp
      · exact ⟨_, .head _, hq⟩
      · obtain ⟨ev, hmem, hev⟩ := ih hp
        exact ⟨ev, .tail _ hmem, hev⟩
  | cons_right _ ih =>
      obtain ⟨ev, hmem, hev⟩ := ih hp
      exact ⟨ev, .tail _ hmem, hev⟩

/-- No run gets past the transfer. -/
theorem not_inOrder_milestones {p : Except PyExc MigrationResult × Teleporter}
    (h : Cmd.Runs (migrate v t) tr p) (hshipped : TransmitterShipped tr) :
    ¬ InOrder milestones tr := by
  intro hreached
  obtain ⟨ev, hmem, argv, n, c, rfl, h0⟩ := hreached.exists_mem (p := ExitedZero .transmit)
    (.tail _ (.tail _ (.head _)))
  obtain ⟨t', path, hargv⟩ := migrate_addressed _ _ _ h _ hmem argv n rfl
  obtain ⟨rest, hcode⟩ := hshipped argv n c hmem
  rw [hargv, transmitterMain_refuses, h0] at hcode
  exact absurd hcode (by decide)

/-- **No migration succeeds.**  Whatever everything else comes to, `migrate` raises, and the source
is not signalled. -/
theorem migrate_never_succeeds {p : Except PyExc MigrationResult × Teleporter}
    (h : Cmd.Runs (migrate v t) tr p) (hshipped : TransmitterShipped tr) :
    (∃ x, p.1 = .error x) ∧ Unsignalled tr := by
  have hno := not_inOrder_milestones h hshipped
  constructor
  · obtain ⟨r, t'⟩ := p
    cases r with
    | error x => exact ⟨x, rfl⟩
    | ok result => exact absurd (migrate_returned h).2.1 hno
  · rintro ⟨o, r⟩ hmem
    cases o with
    | kill pid sig =>
        obtain ⟨pre, post, rfl⟩ := List.append_of_mem hmem
        exact absurd (((migrate_commits_last h).signal rfl).2.append _) hno
    | _ => rfl

/-- The transmitter exits as it does; all else succeeds. -/
def transmitterRefuses : (o : PyOp) → PyResp o
  | .subprocessRun .transmit _ _ =>
      .ok { returncode := 2, stderr := "invalid value \"300\" for flag -timeout: parse error" }
  | o => succeeds o

theorem transmitterRefuses_shipped :
    TransmitterShipped (Cmd.exec (fun (_ : Unit) o => (transmitterRefuses o, ()))
      (migrate v t) ()).1 := by
  intro argv n c hmem
  have hanswer := Cmd.exec_answers transmitterRefuses _ _ hmem
  obtain rfl := Except.ok.inj hanswer
  obtain ⟨t', path, hargv⟩ := migrate_addressed _ _ _ (Cmd.exec_runs _ _ _) _ hmem argv n rfl
  exact ⟨fun _ => 0, by rw [hargv, transmitterMain_refuses]⟩

/-- Process 42 is captured, and resumed when the transmitter has refused. -/
theorem migrate_never_succeeds_refused :
    let run := Cmd.exec (fun (_ : Unit) o =>
      (transmitterRefuses o, ())) (migrate false example42) ()
    resumeResults run.1 = [.ok { returncode := 0, stderr := "" }] ∧
      (∃ x, run.2.1 = .error x) ∧ Unsignalled run.1 :=
  ⟨rfl, migrate_never_succeeds (Cmd.exec_runs _ _ _) transmitterRefuses_shipped⟩

end Wraith.Control

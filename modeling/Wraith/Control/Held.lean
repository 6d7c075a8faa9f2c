/-
# `Wraith.Control.Held` — is the source held until the commit?

`migrate` over a source that runs whenever it is not stopped: in between the operations of
`migrate`, and among the calls of the capturers it starts (`host`).  The source is to stay as it was
captured until it is killed, or resumed by the rollback (`Held`).

Nobody holds it: a capturer detaches before it exits, and with it the last tracer is gone.  So
`migrate_holds_iff`: the source is held exactly if it could not have moved anyway, that is, if no
state it can be captured in allows it a step.
-/
import Wraith.Capture.Tracked
import Wraith.Control.Unfrozen

namespace Wraith.Control

open Lib Script
open Capture (Target Source Cap CapResp Capturable)

/-! ## The source's machine -/

/-- What becomes of the source while a process runs `c`, and what `subprocess.run` gets to see of
the process: it could not be started, it has come to its end, or it was stopped on its way. -/
inductive Serves (own : Target → Target → Prop) (c : Cap Unit) (s : Source) :
    Except Builtin Completed → Source → Prop where
  | notStarted (b : Builtin) : Serves own c s (.error b) s
  | returned (stderr : String) {tr : List (Event CapResp)} {s' : Source} :
      (Capture.tracked own).Reaches (c ()) s ⟨.ret (.ok (), ()), tr, s'⟩ →
      Serves own c s (.ok ⟨0, stderr⟩) s'
  | failed (stderr : String) {tr : List (Event CapResp)} {s' : Source} {e : Process.Error} :
      (Capture.tracked own).Reaches (c ()) s ⟨.ret (.error e, ()), tr, s'⟩ →
      Serves own c s (.ok ⟨1, stderr⟩) s'
  | stopped {r : Except Builtin Completed}
      {σ : Env.State CapResp Source (Except Process.Error Unit × Unit)} :
      Completed.exited0 r = false → (Capture.tracked own).Reaches (c ()) s σ →
      Serves own c s r σ.world

inductive Fate where
  | resumed
  | killed
  deriving DecidableEq, Repr

/-- The source between two operations of `migrate`, with no tracer; and the instant it was captured
at, with the steps it had taken. -/
structure Host where
  target : Target
  steps : Nat := 0
  captured : Option (Nat × Target) := none
  fate : Option Fate := none

/-- As a capturer finds it. -/
def Host.source (h : Host) : Source := .fresh h.target h.steps

/-- A process has ended; the kernel lets go of what it was attached to. -/
def Host.after (h : Host) (s : Source) : Host :=
  { h with target := s.world.target, steps := s.steps }

/-- The instant of the stop. -/
def stopInstant (s : Source) : Option (Nat × Target) := s.world.frozen.map fun T => (s.since, T)

/-- It runs, unless it is dead. -/
inductive Host.Own (own : Target → Target → Prop) : Host → Host → Prop where
  | runs {h : Host} {t : Target} : h.fate ≠ some .killed → own h.target t →
      Host.Own own h { h with target := t, steps := h.steps + 1 }

/-- What the operations do to the source.  It may have a handler for SIGTERM. -/
def hostAnswer (own : Target → Target → Prop) (checksum : List UInt8 → UInt64) (pid : Int32)
    (h : Host) : (o : PyOp) → PyResp o → Host → Prop
  | .subprocessRun .capture _ _, r, h' => ∃ saved s,
      Serves own (Capture.cmdCapture checksum saved pid) h.source r s ∧
      h' = { h.after s with captured := if Completed.exited0 r then stopInstant s else h.captured }
  | .subprocessRun .resume _ _, r, h' => ∃ s, Serves own (Capture.cmdResume pid) h.source r s ∧
      h' = { h.after s with fate := if Completed.exited0 r then some .resumed else h.fate }
  | .kill _ .kill, .ok _, h' => h' = { h with fate := some .killed }
  | .kill _ .term, .ok _, h' => h' = h ∨ h' = { h with fate := some .killed }
  | _, _, h' => h' = h

/-- The machine of a source whose steps are `own`. -/
def host (own : Target → Target → Prop) (checksum : List UInt8 → UInt64) (pid : Int32) :
    Env PyResp Host where
  answer := hostAnswer own checksum pid
  step := Host.Own own

/-- Captured and not resumed, the source is where it was, and has not taken a step; a source that
was killed is then what was captured of it. -/
def Held (h : Host) : Prop := ∀ n T, h.captured = some (n, T) → h.fate ≠ some .resumed →
  h.steps = n ∧ h.target = T

variable {own : Target → Target → Prop} {checksum : List UInt8 → UInt64} {pid : Int32}
  {t₀ : Target} {h : Host} {c : Cap Unit} {r : Except Builtin Completed} {s : Source}

/-! ## A source that is held -/

/-- Every process leaves the source in a state it comes to by itself. -/
theorem Serves.comes (hs : Serves own c h.source r s) :
    Capture.Comes own h.target s ∧ Capture.Rests own h.steps h.target s := by
  have hstart : Capture.Comes own h.target h.source :=
    ⟨.refl, fun T (hT : none = some T) => nomatch hT⟩
  cases hs with
  | notStarted b => exact ⟨hstart, Or.inl ⟨rfl, rfl⟩⟩
  | returned stderr hr => exact ⟨Capture.comes hr, Capture.rests hr⟩
  | failed stderr hr => exact ⟨Capture.comes hr, Capture.rests hr⟩
  | stopped _ hr => exact ⟨Capture.comes hr, Capture.rests hr⟩

/-- One that has captured the source has done so in such a state. -/
theorem Serves.instant {saved : Except Process.Error Unit} {n : Nat} {T : Target}
    (hs : Serves own (Capture.cmdCapture checksum saved pid) h.source r s)
    (hr : Completed.exited0 r = true) (hT : stopInstant s = some (n, T)) :
    Capturable T ∧ Reach own h.target T ∧ Capture.Rests own n T s := by
  obtain ⟨T', hfrozen, heq⟩ := Option.map_eq_some_iff.mp hT
  obtain ⟨rfl, rfl⟩ := Prod.mk.inj heq
  obtain ⟨hreach, hrests⟩ := hs.comes.1.frozen T' hfrozen
  cases hs with
  | notStarted b => exact nomatch hr
  | returned stderr hrun =>
      obtain ⟨T, hfrozen', hcap⟩ := Capture.cmdCapture_instant (Capture.tracked_kernel hrun)
      obtain rfl := Option.some.inj (hfrozen.symm.trans hfrozen')
      exact ⟨hcap, hreach, hrests⟩
  | failed stderr hrun => exact absurd hr (by simp [Completed.exited0])
  | stopped hcode _ => exact absurd (hcode.symm.trans hr) Bool.false_ne_true

/-- Once captured it has not moved, and never will. -/
structure Stuck (own : Target → Target → Prop) (t₀ : Target) (h : Host) : Prop where
  target : Reach own t₀ h.target
  captured : ∀ n T, h.captured = some (n, T) → (h.steps = n ∧ h.target = T) ∧ ∀ t, ¬ own T t

theorem Stuck.after (hI : Stuck own t₀ h) (hs : Serves own c h.source r s) :
    Stuck own t₀ (h.after s) where
  target := hI.target.trans hs.comes.1.target
  captured n T hT := by
    obtain ⟨⟨rfl, rfl⟩, hno⟩ := hI.captured n T hT
    exact ⟨hs.comes.2.resolve_right fun ⟨t, hown⟩ => hno t hown, hno⟩

theorem stuck_answer (hstuck : ∀ T, Reach own t₀ T → Capturable T → ∀ t, ¬ own T t) {o : PyOp}
    {r : PyResp o} {h' : Host} (hI : Stuck own t₀ h) (ha : hostAnswer own checksum pid h o r h') :
    Stuck own t₀ h' := by
  cases o with
  | subprocessRun proc argv n =>
      cases proc with
      | capture =>
          obtain ⟨saved, s, hs, rfl⟩ := ha
          refine ⟨(hI.after hs).target, fun n T hT => ?_⟩
          by_cases hr : Completed.exited0 r = true
          · obtain ⟨hcap, hreach, hrests⟩ := hs.instant hr ((if_pos hr).symm.trans hT)
            have hno := hstuck T (hI.target.trans hreach) hcap
            exact ⟨hrests.resolve_right fun ⟨t, hown⟩ => hno t hown, hno⟩
          · exact (hI.after hs).captured n T ((if_neg hr).symm.trans hT)
      | resume =>
          obtain ⟨s, hs, rfl⟩ := ha
          exact ⟨(hI.after hs).target, (hI.after hs).captured⟩
      | transmit => exact (show h' = h from ha) ▸ hI
  | kill p sig =>
      cases sig with
      | kill =>
          cases r with
          | ok _ =>
              exact (show h' = { h with fate := some .killed } from ha) ▸ ⟨hI.target, hI.captured⟩
          | error b => exact (show h' = h from ha) ▸ hI
      | term =>
          cases r with
          | ok _ =>
              obtain rfl | rfl := (show h' = h ∨ h' = { h with fate := some .killed } from ha)
              · exact hI
              · exact ⟨hI.target, hI.captured⟩
          | error b => exact (show h' = h from ha) ▸ hI
  | _ => exact (show h' = h from ha) ▸ hI

theorem stuck_step {α : Type} (hstuck : ∀ T, Reach own t₀ T → Capturable T → ∀ t, ¬ own T t)
    (σ σ' : Env.State PyResp Host α) (hI : Stuck own t₀ σ.world)
    (hs : (host own checksum pid).Step σ σ') : Stuck own t₀ σ'.world := by
  cases hs with
  | own hs =>
      cases hs with
      | runs _ hown =>
          refine ⟨hI.target.tail hown, fun n T hT => ?_⟩
          obtain ⟨⟨-, rfl⟩, hno⟩ := hI.captured n T hT
          exact absurd hown (hno _)
  | perform ha => exact stuck_answer hstuck hI ha

/-! ## A source that is not -/

variable {α : Type} {rest : Cmd PyResp α} {tr : List (Event PyResp)}

/-- The source may run before it is captured. -/
theorem host_runs {T : Target} (hT : Reach own t₀ T) : ∃ n, Reach (host own checksum pid).Step
    ⟨rest, tr, { target := t₀ }⟩ ⟨rest, tr, { target := T, steps := n }⟩ := by
  induction hT with
  | refl => exact ⟨0, .refl⟩
  | tail _ hown ih =>
      obtain ⟨n, hreach⟩ := ih
      exact ⟨n + 1, hreach.tail (.own (.runs nofun hown))⟩

/-- A capturer captures the source where it is. -/
theorem host_captures {T : Target} (hT : Capturable T) (n : Nat) {argv : List String} {i : Int}
    (k : Except Builtin Completed → Cmd PyResp α) : Reach (host own checksum pid).Step
      ⟨.op (.subprocessRun .capture argv i) k, tr, { target := T, steps := n }⟩
      ⟨k (.ok ⟨0, ""⟩), tr ++ [⟨.subprocessRun .capture argv i, .ok ⟨0, ""⟩⟩],
        { target := T, steps := n, captured := some (n, T) }⟩ := by
  obtain ⟨calls, hrun⟩ : ∃ calls, (Capture.tracked own).Reaches
      (Capture.cmdCapture checksum (.ok ()) pid ()) (.fresh T n)
      ⟨.ret (.ok (), ()), calls, ⟨{ target := T, frozen := some T }, n, n⟩⟩ :=
    Capture.captureAt_reaches hT n
  have ha : (host own checksum pid).answer { target := T, steps := n }
      (.subprocessRun .capture argv i) (.ok ⟨0, ""⟩)
      { target := T, steps := n, captured := some (n, T) } := ⟨.ok (), _, .returned "" hrun, rfl⟩
  exact .single (.perform ha)

/-- An operation that does nothing to the source. -/
theorem host_quiet {h : Host} {o : PyOp} {k : PyResp o → Cmd PyResp α} (r : PyResp o)
    {σ : Env.State PyResp Host α} (ha : hostAnswer own checksum pid h o r h)
    (hrest : Reach (host own checksum pid).Step ⟨k r, tr ++ [⟨o, r⟩], h⟩ σ) :
    Reach (host own checksum pid).Step ⟨.op o k, tr, h⟩ σ :=
  .head (.perform (M := host own checksum pid) ha) hrest

/-- `migrate` can come as far as a capturer that has exited. -/
theorem migrate_captures {T : Target} (hT : Capturable T) (n : Nat) (t : Teleporter) :
    ∃ rest tr, (host own checksum pid).Reaches (migrate false t) { target := T, steps := n }
      ⟨rest, tr, { target := T, steps := n, captured := some (n, T) }⟩ :=
  ⟨_, _, host_quiet (o := .monotonic) (0 : Float) rfl <|
    host_quiet (o := .sshConnect t.cfg.destination.sshAddr) (.ok ()) rfl <|
    host_quiet (o := .runAll t.pid) (.ok []) rfl <|
    host_quiet (o := .mkstemp _ _) (.ok (3, "")) rfl <|
    host_quiet (o := .close _) (.ok ()) rfl <|
    host_captures hT n _⟩

/-- The source is held in every run exactly if it can take no step from a state in which it can be
captured. -/
theorem migrate_holds_iff {t : Teleporter} :
    (∀ σ, (host own checksum pid).Reaches (migrate false t) { target := t₀ } σ → Held σ.world) ↔
      ∀ T, Reach own t₀ T → Capturable T → ∀ t', ¬ own T t' := by
  constructor
  · intro hheld T hT hcap t' hown
    obtain ⟨n, hruns⟩ : ∃ n, (host own checksum pid).Reaches (migrate false t) { target := t₀ }
        ⟨migrate false t, [], { target := T, steps := n }⟩ := host_runs hT
    obtain ⟨rest, tr, hcaptured⟩ : ∃ rest tr, (host own checksum pid).Reaches (migrate false t)
        { target := T, steps := n }
        ⟨rest, tr, { target := T, steps := n, captured := some (n, T) }⟩ :=
      migrate_captures hcap n t
    have hgone := (hruns.trans hcaptured).tail (.own (.runs nofun hown))
    obtain ⟨hsteps, -⟩ := hheld _ hgone n T rfl nofun
    exact absurd hsteps (Nat.succ_ne_self n)
  · intro hstuck σ hσ n T hT _
    have hI : Stuck own t₀ σ.world :=
      invariant (I := fun σ => Stuck own t₀ σ.world) (stuck_step hstuck)
        ⟨.refl, fun n T (h : none = some (n, T)) => nomatch h⟩ hσ
    exact (hI.captured n T hT).1

/-! ## Work that is lost -/

theorem worker_capturable : Capturable Capture.worker := Capture.textLog_valid.registers

/-- Everything goes well.  Behind the capture the source asks for a heap, and it is killed with it.
-/
theorem kill_loses_work : ∃ result t tr h,
    (host Capture.Grows (fun _ => 0) 42).Reaches (migrate false example42)
      { target := Capture.worker } ⟨.ret (.ok result, t), tr, h⟩ ∧
    t.state = .complete ∧ h.fate = some .killed ∧ h.captured = some (0, Capture.worker) ∧
    h.target.maps ≠ Capture.worker.maps ∧ ¬ Held h := by
  refine ⟨_, _, _, _, host_quiet (o := .monotonic) (0 : Float) rfl <|
    host_quiet (o := .sshConnect _) (.ok ()) rfl <|
    host_quiet (o := .runAll _) (.ok []) rfl <|
    host_quiet (o := .mkstemp _ _) (.ok (3, "/tmp/wraith_0f8fad5b_x.pb")) rfl <|
    host_quiet (o := .close _) (.ok ()) rfl <|
    (host_captures worker_capturable 0 _).trans <|
    .head (.own (M := host Capture.Grows (fun _ => 0) 42) (.runs nofun ⟨rfl, rfl⟩)) <|
    host_quiet (o := .getsize _) (.ok 4096) rfl <|
    host_quiet (o := .execBackground _) (.ok ()) rfl <|
    host_quiet (o := .sleep _) (.ok ()) rfl <|
    host_quiet (o := .subprocessRun .transmit _ _) (.ok ⟨0, ""⟩) rfl <|
    host_quiet (o := .execCommand .restorer _ _)
      ⟨true, .ok ("Process 4242 is now running\n", "", 0)⟩ rfl <|
    host_quiet (o := .execCommand .cleanup _ _) ⟨false, .ok ("", "", 0)⟩ rfl <|
    host_quiet (o := .kill _ .term) (.ok ()) (Or.inl rfl) <|
    host_quiet (o := .sleep _) (.ok ()) rfl <|
    .head (.perform (M := host Capture.Grows (fun _ => 0) 42) (e := .kill _ .kill)
      (r := .ok ()) rfl) <|
    host_quiet (o := .monotonic) (0 : Float) rfl <|
    host_quiet (o := .pathExists _) (.ok true) rfl <|
    host_quiet (o := .getsize _) (.ok 4096) rfl <|
    host_quiet (o := .pathExists _) (.ok true) rfl <|
    host_quiet (o := .unlink _) (.ok ()) rfl <|
    host_quiet (o := .sshClose) (.ok ()) rfl .refl, rfl, rfl, rfl, by decide, ?_⟩
  intro hheld
  exact absurd (hheld 0 Capture.worker rfl nofun).1 (by decide)

end Wraith.Control

/-
# `Wraith.Capture.Tracked` — a target whose steps are counted

The world of `Wraith.Capture.Instant` again, with two numbers beside it: how many steps of its own
the target has taken, and how many it had taken when it stopped for its tracer.  A state may recur;
the count tells whether the target has moved on from the instant of its stop.

A target can move on from there exactly if it can take a step: the detach at the end of `capture`
lets it go.  `captureAt` is a capture of any target whose registers are valid.
-/
import Wraith.Capture.Commands
import Wraith.Capture.Instant

namespace Wraith.Capture

open Lib Script Process

/-- The target with its tracer and the number of its steps; `since` is that number at the stop. -/
structure Source where
  world : World
  steps : Nat
  since : Nat

/-- What happens by itself. -/
inductive Moves (own : Target → Target → Prop) : Source → Source → Prop where
  | runs {s : Source} {t : Target} : s.world.stopped = false → own s.world.target t →
      Moves own s { s with world := { s.world with target := t }, steps := s.steps + 1 }
  | stops {s : Source} : s.world.attached = true → s.world.stopped = false →
      Moves own s { s with
        world := { s.world with stopped := true, frozen := some s.world.target }, since := s.steps }

/-- The kernel, counting. -/
def tracked (own : Target → Target → Prop) : Env CapResp Source where
  answer s o r s' := answer s.world o r s'.world ∧ s'.steps = s.steps ∧ s'.since = s.since
  step := Moves own

variable {own : Target → Target → Prop} {checksum : List UInt8 → UInt64} {saved : Except Error Unit}
  {pid : Int32} {α : Type} {c : Cmd CapResp α} {s : Source} {σ : Env.State CapResp Source α}

/-- Without the numbers it is the world as before. -/
theorem tracked_kernel (h : (tracked own).Reaches c s σ) :
    (kernel own).Reaches c s.world ⟨σ.rest, σ.trace, σ.world.world⟩ :=
  Env.Reaches.map (M := tracked own) (N := kernel own) (fun _ _ _ _ ha => ha.1) (fun _ _ hs => by
    cases hs with
    | runs hrunning hown => exact .runs hrunning hown
    | stops hattached hrunning => exact .stops hattached hrunning) h

/-! ## From one state of the target to another -/

/-- The target has not moved from `T`, with `n` steps taken; or it could. -/
def Rests (own : Target → Target → Prop) (n : Nat) (T : Target) (s : Source) : Prop :=
  s.steps = n ∧ s.world.target = T ∨ ∃ t, own T t

theorem rests_step {n : Nat} {T : Target} (s s' : Env.State CapResp Source α)
    (h : Rests own n T s.world) (hs : (tracked own).Step s s') : Rests own n T s'.world := by
  obtain ⟨hn, hT⟩ | hown := h
  · cases hs with
    | own hs =>
        cases hs with
        | runs _ hown => exact Or.inr ⟨_, hT ▸ hown⟩
        | stops _ _ => exact Or.inl ⟨hn, hT⟩
    | perform ha =>
        obtain ⟨htarget, -⟩ := answer_target ha.1
        exact Or.inl ⟨ha.2.1.trans hn, htarget.trans hT⟩
  · exact Or.inr hown

theorem rests (h : (tracked own).Reaches c s σ) : Rests own s.steps s.world.target σ.world :=
  invariant rests_step (Or.inl ⟨rfl, rfl⟩) h

/-- Where the target is and where it stopped are states it comes to by itself. -/
structure Comes (own : Target → Target → Prop) (t : Target) (s : Source) : Prop where
  target : Reach own t s.world.target
  frozen : ∀ T, s.world.frozen = some T → Reach own t T ∧ Rests own s.since T s

theorem comes_step {t : Target} (s s' : Env.State CapResp Source α)
    (h : Comes own t s.world) (hs : (tracked own).Step s s') : Comes own t s'.world := by
  cases hs with
  | own hs =>
      cases hs with
      | runs hrunning hown =>
          refine ⟨h.target.tail hown, fun T hT => ⟨(h.frozen T hT).1, ?_⟩⟩
          obtain ⟨-, rfl⟩ | hcan := (h.frozen T hT).2
          · exact Or.inr ⟨_, hown⟩
          · exact Or.inr hcan
      | stops _ _ =>
          refine ⟨h.target, fun T hT => ?_⟩
          obtain rfl := Option.some.inj hT
          exact ⟨h.target, Or.inl ⟨rfl, rfl⟩⟩
  | perform ha =>
      obtain ⟨htarget, hfrozen⟩ := answer_target ha.1
      refine ⟨htarget ▸ h.target, fun T hT => ?_⟩
      obtain ⟨hreach, hrests⟩ := h.frozen T (hfrozen ▸ hT)
      refine ⟨hreach, hrests.imp (fun ⟨hn, heq⟩ => ⟨?_, htarget.trans heq⟩) id⟩
      exact ha.2.1.trans (hn.trans ha.2.2.symm)

/-- A process that nobody has attached to. -/
def Source.fresh (t : Target) (n : Nat) : Source := ⟨.fresh t, n, n⟩

theorem comes {t : Target} {n : Nat} (h : (tracked own).Reaches c (.fresh t n) σ) :
    Comes own t σ.world :=
  invariant comes_step ⟨.refl, fun T (h : none = some T) => nomatch h⟩ h

/-! ## What can be captured -/

/-- The registers pass `validate`. -/
def Capturable (T : Target) : Prop := (Registers.ofPtrace T.regs T.fpregs).validate = .ok ()

theorem cmdCapture_order : Wp order (cmdCapture checksum saved pid)
    (fun r _ g => r = .ok () → g = .after) () .before := by
  rw [cmdCapture]
  refine capture_order.bind (fun snapshot _ g h => ?_) fun x _ g _ habs => nomatch habs
  obtain rfl := h snapshot rfl
  cases saved with
  | ok _ => exact fun _ => rfl
  | error e => exact fun _ => rfl

/-- What was captured is a target that can be. -/
theorem cmdCapture_instant {t : Target} {w : World} {tr : List (Event CapResp)}
    (h : (kernel own).Reaches (cmdCapture checksum saved pid ()) (.fresh t)
      ⟨.ret (.ok (), ()), tr, w⟩) : ∃ T, w.frozen = some T ∧ Capturable T := by
  have hstart : Inv .before [] (.fresh t) := ⟨rfl, rfl, fun _ _ hmem => nomatch hmem⟩
  obtain ⟨g, hg, hI⟩ :=
    (Env.always_of_obeys inv_stable inv_answer cmdCapture_order hstart).ended h
  obtain rfl := hg rfl
  obtain ⟨-, T, hfrozen, hT⟩ := hI
  obtain ⟨tr₁, _, u, tr₂, hcapture, -, rfl⟩ := runs_bind_returns (Env.Reaches.runs_ended h)
  obtain ⟨l, hvalid, rfl, -⟩ := capture_ok hcapture
  have hgp : l.gp = T.regs := hT ⟨.getregs pid, .ok l.gp⟩
    (by simp only [Log.trace, List.mem_append, List.mem_cons, true_or, or_true])
  have hfp : l.fp = T.fpregs := hT ⟨.getfpregs pid, .ok l.fp⟩
    (by simp only [Log.trace, List.mem_append, List.mem_cons, true_or, or_true])
  refine ⟨T, hfrozen, ?_⟩
  rw [Capturable, ← hgp, ← hfp]
  exact hvalid.registers

/-! ## A capture of any such target -/

/-- No region can be read. -/
def failedDumps (pid : Int32) (regions : List MemoryRegion) : List (Event CapResp) :=
  (regions.filter fun region => !shouldSkip region).map fun region =>
    ⟨.readMem pid region.start region.size, .error ""⟩

theorem failedDumps_dumps : ∀ regions : List MemoryRegion,
    Dumps checksum pid regions (failedDumps pid regions) regions
  | [] => .nil
  | region :: regions => by
      cases hskip : shouldSkip region with
      | true =>
          rw [failedDumps, List.filter_cons_of_neg (by rw [hskip]; decide)]
          exact .skip hskip (failedDumps_dumps regions)
      | false =>
          rw [failedDumps, List.filter_cons_of_pos (by rw [hskip]; rfl), List.map_cons]
          exact .dump (.error "") hskip (failedDumps_dumps regions)

/-- An answer takes no step. -/
theorem tracked_path {w w' : World} {n m : Nat} {o : CapOp} {r : CapResp o}
    {tr : List (Event CapResp)} (ha : answer w o r w') (h : (tracked own).Path ⟨w', n, m⟩ tr s) :
    (tracked own).Path ⟨w, n, m⟩ (⟨o, r⟩ :: tr) s := by
  have hans : (tracked own).answer ⟨w, n, m⟩ o r ⟨w', n, m⟩ := ⟨ha, rfl, rfl⟩
  exact .answer hans h

/-- The target is captured as it is, without its memory. -/
def captureAt (T : Target) (pid : Int32) : Log where
  entries := T.maps
  status := .stopped .sigstop
  gp := T.regs
  fp := T.fpregs
  dumps := failedDumps pid (T.maps.map MapsEntry.region)
  regions := T.maps.map MapsEntry.region
  fds := []
  detached := .ok ()
  description := ⟨"", "", "", 0, 0, 0, 0, 0⟩

theorem captureAt_valid {T : Target} (h : Capturable T) : (captureAt T pid).Valid checksum pid :=
  ⟨h, failedDumps_dumps _⟩

theorem captureAt_path (T : Target) (n : Nat) : (tracked own).Path (.fresh T n)
    ((captureAt T pid).trace pid) ⟨{ target := T, frozen := some T }, n, n⟩ := by
  have hquiet : ∀ ev ∈ failedDumps pid (T.maps.map MapsEntry.region) ++
      [⟨.enumerateFds pid, .ok []⟩], (tracked own).answer
        ⟨{ target := T, attached := true, stopped := true, frozen := some T }, n, n⟩ ev.1 ev.2
        ⟨{ target := T, attached := true, stopped := true, frozen := some T }, n, n⟩ := by
    intro ev hev
    obtain hev | hev := List.mem_append.mp hev
    · obtain ⟨region, -, rfl⟩ := List.mem_map.mp hev
      exact ⟨⟨rfl, nofun⟩, rfl, rfl⟩
    · cases List.mem_singleton.mp hev
      exact ⟨rfl, rfl, rfl⟩
  refine tracked_path ⟨rfl, fun _ h => (Except.ok.inj h).symm⟩ <|
    tracked_path rfl <|
    tracked_path rfl <|
    .own (.stops rfl rfl) <|
    tracked_path ⟨rfl, fun _ _ => rfl⟩ <|
    tracked_path ⟨rfl, fun _ h => (Except.ok.inj h).symm⟩ <|
    tracked_path ⟨rfl, fun _ h => (Except.ok.inj h).symm⟩ ?_
  have hrest : (captureAt T pid).dumps ++ [⟨.enumerateFds pid, .ok []⟩, ⟨.detach pid, .ok ()⟩,
      ⟨.describe pid, (captureAt T pid).description⟩] =
      (failedDumps pid (T.maps.map MapsEntry.region) ++ [⟨.enumerateFds pid, .ok []⟩]) ++
        [⟨.detach pid, .ok ()⟩, ⟨.describe pid, (captureAt T pid).description⟩] := by
    rw [List.append_assoc]
    rfl
  show (tracked own).Path _ ((captureAt T pid).dumps ++ [⟨.enumerateFds pid, .ok []⟩,
    ⟨.detach pid, .ok ()⟩, ⟨.describe pid, (captureAt T pid).description⟩]) _
  rw [hrest]
  exact (Env.Path.still hquiet).append (tracked_path rfl (tracked_path rfl .nil))

/-- A process whose registers are valid can be captured where it is. -/
theorem captureAt_reaches {T : Target} (h : Capturable T) (n : Nat) : ∃ tr,
    (tracked own).Reaches (cmdCapture checksum (.ok ()) pid ()) (.fresh T n)
      ⟨.ret (.ok (), ()), tr, ⟨{ target := T, frozen := some T }, n, n⟩⟩ :=
  ⟨_, (captureAt_path T n).reaches (runs_map (f := fun _ => ()) (captureAt_valid h).runs)⟩

end Wraith.Capture

/-
# `Wraith.Lib.Pool` — programs that share a world

A family of programs, one for each index, over one world: a step is an operation of one of them, or
something the world does by itself.  Nothing else is known of the order.

`invariant_of_obeys` is the induction rule: where each program keeps to a monitor, an assertion
about the world and all ghost states holds throughout if every allowed answer and every step of the
world keeps it.  `turn` lets one program take its next step along a run it has.
-/
import Mathlib.Logic.Function.Basic
import Wraith.Lib.Cmd
import Wraith.Lib.System

namespace Wraith.Lib

variable {E : Type} {R : E → Type} {I W α : Type} [DecidableEq I]

/-- A world that answers several programs. -/
structure Pool (R : E → Type) (I W : Type) where
  answer : I → W → (e : E) → R e → W → Prop
  step : W → W → Prop

namespace Pool

/-- The rest of each program, and the world. -/
structure State (R : E → Type) (I W α : Type) where
  programs : I → Cmd R α
  world : W

variable (M : Pool R I W)

inductive Step : State R I W α → State R I W α → Prop where
  | own {c : I → Cmd R α} {w w' : W} : M.step w w' → Step ⟨c, w⟩ ⟨c, w'⟩
  | perform {c : I → Cmd R α} {w w' : W} {i : I} {e : E} {k : R e → Cmd R α} {r : R e} :
      c i = .op e k → M.answer i w e r w' → Step ⟨c, w⟩ ⟨Function.update c i (k r), w'⟩

variable {M} {c : I → Cmd R α} {w : W} {σ : State R I W α}

/-- The next step of the program `i`, along one of its runs. -/
theorem turn {i : I} {e : E} {r : R e} {tr : List (Event R)} {a : α} {w' : W}
    (h : Cmd.Runs (c i) (⟨e, r⟩ :: tr) a) (ha : M.answer i w e r w') :
    ∃ c' : I → Cmd R α, M.Step ⟨c, w⟩ ⟨c', w'⟩ ∧ Cmd.Runs (c' i) tr a ∧ ∀ j ≠ i, c' j = c j := by
  generalize hci : c i = p at h
  cases h with
  | op _ hk =>
      refine ⟨_, .perform hci ha, ?_, fun j hj => Function.update_of_ne hj _ _⟩
      rw [Function.update_self]
      exact hk

/-- What every allowed answer and every step of the world keeps. -/
theorem invariant_of_obeys {G : Type} {N : Cmd.Monitor R G} {Q : α → G → Prop}
    {J : (I → G) → W → Prop} (hstep : ∀ γ w w', J γ w → M.step w w' → J γ w')
    (hans : ∀ γ w i e r w', J γ w → N.allow (γ i) e → M.answer i w e r w' →
      J (Function.update γ i (N.next (γ i) e r)) w')
    {γ : I → G} (hc : ∀ i, (c i).Obeys N Q (γ i)) (hJ : J γ w) (h : Reach M.Step ⟨c, w⟩ σ) :
    ∃ γ, (∀ i, (σ.programs i).Obeys N Q (γ i)) ∧ J γ σ.world := by
  refine invariant (I := fun σ => ∃ γ, (∀ i, (σ.programs i).Obeys N Q (γ i)) ∧ J γ σ.world) ?_
    ⟨γ, hc, hJ⟩ h
  rintro s s' ⟨γ, hc, hJ⟩ hs
  cases hs with
  | own hs => exact ⟨γ, hc, hstep _ _ _ hJ hs⟩
  | @perform c _ _ i e k r hci ha =>
      have hop : (Cmd.op e k).Obeys N Q (γ i) := hci ▸ hc i
      refine ⟨_, fun j => ?_, hans _ _ _ _ _ _ hJ hop.1 ha⟩
      by_cases hj : j = i
      · subst hj
        simp only [Function.update_self]
        exact hop.2 r
      · simp only [Function.update_of_ne hj]
        exact hc j

/-- A world that answers and moves in more ways has more runs. -/
theorem reach_mono {M' : Pool R I W}
    (hans : ∀ i w e r w', M.answer i w e r w' → M'.answer i w e r w')
    (hstep : ∀ w w', M.step w w' → M'.step w w') {s : State R I W α} (h : Reach M.Step s σ) :
    Reach M'.Step s σ := by
  refine Relation.ReflTransGen.mono (fun s s' hs => ?_) _ _ h
  cases hs with
  | own hs => exact .own (hstep _ _ hs)
  | perform hci ha => exact .perform hci (hans _ _ _ _ _ ha)

end Pool
end Wraith.Lib

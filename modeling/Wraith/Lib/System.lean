/-
# `Wraith.Lib.System` — invariants and termination of transition systems

The two induction rules the systems of this development are verified with, over an arbitrary step
relation and Mathlib's `Relation.ReflTransGen` for its runs.  `invariant` carries a property along a
run.  `ranked` carries a property with a rank that every step lowers; no run can then go on for
ever (`Ranked.no_infinite_run`), and every one can be brought to an end (`Ranked.exists_stuck`).
-/
import Mathlib.Logic.Relation

namespace Wraith.Lib

variable {S : Type*} {step : S → S → Prop}

/-- The states a system can come to. -/
abbrev Reach (step : S → S → Prop) (s₀ s : S) : Prop := Relation.ReflTransGen step s₀ s

/-- What holds initially and is kept by every step holds in every state reached. -/
theorem invariant {I : S → Prop} (hstep : ∀ s s', I s → step s s' → I s') {s₀ s : S} (h₀ : I s₀)
    (h : Reach step s₀ s) : I s := by
  induction h with
  | refl => exact h₀
  | tail _ hs ih => exact hstep _ _ ih hs

/-- `I s n` holds with some rank `n`, and every step goes to a smaller one. -/
def Ranked (step : S → S → Prop) (I : S → Nat → Prop) : Prop :=
  ∀ s s' n, I s n → step s s' → ∃ n', n' < n ∧ I s' n'

theorem Ranked.reach {I : S → Nat → Prop} (hr : Ranked step I) {s₀ s : S} {n : Nat} (h₀ : I s₀ n)
    (h : Reach step s₀ s) : ∃ m, I s m :=
  invariant (I := fun s => ∃ m, I s m) (fun s s' hs hst => by
    obtain ⟨m, hm⟩ := hs
    obtain ⟨m', -, hm'⟩ := hr s s' m hm hst
    exact ⟨m', hm'⟩) ⟨n, h₀⟩ h

theorem Ranked.no_infinite_run {I : S → Nat → Prop} (hr : Ranked step I) :
    ∀ (n : Nat) (run : Nat → S), I (run 0) n → ¬ ∀ t, step (run t) (run (t + 1)) := by
  intro n
  induction n using Nat.strongRecOn with
  | ind n ih =>
      intro run h₀ hrun
      obtain ⟨m, hlt, hm⟩ := hr _ _ n h₀ (hrun 0)
      exact ih m hlt (fun t => run (t + 1)) hm fun t => hrun (t + 1)

/-- Wherever it is, the system can come to an end. -/
theorem Ranked.exists_stuck {I : S → Nat → Prop} (hr : Ranked step I) :
    ∀ (n : Nat) (s : S), I s n → ∃ s', Reach step s s' ∧ ∀ s'', ¬ step s' s'' := by
  intro n
  induction n using Nat.strongRecOn with
  | ind n ih =>
      intro s hs
      by_cases hstuck : ∃ s', step s s'
      · obtain ⟨s', hstep⟩ := hstuck
        obtain ⟨m, hlt, hm⟩ := hr _ _ n hs hstep
        obtain ⟨s'', hreach, hend⟩ := ih m hlt s' hm
        exact ⟨s'', .head hstep hreach, hend⟩
      · exact ⟨s, .refl, fun s' h => hstuck ⟨s', h⟩⟩

end Wraith.Lib

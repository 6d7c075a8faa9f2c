/-
# `Wraith.Lib.Assign` — assignments one after the other, and all at once

A list of moves `(target, source)` over a table.  `assignAll` makes them in order, each from the
table as the ones before have left it; `Simultaneous` is what they were meant to do, every target
with what its source held in the beginning.  For distinct targets the two are the same exactly when
no move spoils the source of a later one (`assignAll_simultaneous_iff`).
-/
import Mathlib.Data.List.Nodup
import Mathlib.Logic.Function.Basic

namespace Wraith.Lib

variable {K V : Type} [DecidableEq K]

/-- The moves, first to last. -/
def assignAll : List (K × K) → (K → V) → K → V
  | [], t => t
  | m :: moves, t => assignAll moves (Function.update t m.1 (t m.2))

@[simp] theorem assignAll_nil (t : K → V) : assignAll [] t = t := rfl

@[simp] theorem assignAll_cons (m : K × K) (moves : List (K × K)) (t : K → V) :
    assignAll (m :: moves) t = assignAll moves (Function.update t m.1 (t m.2)) := rfl

/-- `t'` has under every target what `t` has under its source. -/
def Simultaneous (moves : List (K × K)) (t t' : K → V) : Prop := ∀ m ∈ moves, t' m.1 = t m.2

/-- The first move leaves the source of the second as it is. -/
def Spares (t : K → V) (m m' : K × K) : Prop := m.1 = m'.2 → t m.2 = t m'.2

variable {moves : List (K × K)} {t : K → V}

/-- What is no target stays. -/
theorem assignAll_other {k : K} (h : k ∉ moves.map Prod.fst) : assignAll moves t k = t k := by
  induction moves generalizing t with
  | nil => rfl
  | cons m moves ih =>
      obtain ⟨hne, hrest⟩ := not_or.mp (List.mem_cons.not.mp h)
      rw [assignAll_cons, ih hrest, Function.update_of_ne hne]

/-- A source that is no target arrives. -/
theorem assignAll_untouched {m : K × K} (hnodup : (moves.map Prod.fst).Nodup) (hm : m ∈ moves)
    (hsource : m.2 ∉ moves.map Prod.fst) : assignAll moves t m.1 = t m.2 := by
  induction moves generalizing t with
  | nil => exact absurd hm List.not_mem_nil
  | cons m' moves ih =>
      obtain ⟨hhead, htail⟩ := List.nodup_cons.mp hnodup
      obtain ⟨hne, hrest⟩ := not_or.mp (List.mem_cons.not.mp hsource)
      rw [assignAll_cons]
      obtain rfl | hm := List.mem_cons.mp hm
      · rw [assignAll_other hhead, Function.update_self]
      · rw [ih htail hm hrest, Function.update_of_ne hne]

/-- Behind a move that spares all the later ones, these find what they would have found before it.
-/
theorem update_source {m m' : K × K} (h : Spares t m m') :
    Function.update t m.1 (t m.2) m'.2 = t m'.2 := by
  by_cases heq : m.1 = m'.2
  · rw [← heq, Function.update_self, h heq, heq]
  · exact Function.update_of_ne (Ne.symm heq) _ _

theorem pairwise_spares_update {m : K × K} (h : ∀ m' ∈ moves, Spares t m m') :
    moves.Pairwise (Spares (Function.update t m.1 (t m.2))) ↔ moves.Pairwise (Spares t) := by
  refine List.Pairwise.iff_of_mem fun {a b} ha hb => ?_
  rw [Spares, Spares, update_source (h a ha), update_source (h b hb)]

/-- Moves with distinct targets come to a simultaneous assignment exactly when each spares the
later ones. -/
theorem assignAll_simultaneous_iff (hnodup : (moves.map Prod.fst).Nodup) :
    Simultaneous moves t (assignAll moves t) ↔ moves.Pairwise (Spares t) := by
  induction moves generalizing t with
  | nil => exact ⟨fun _ => .nil, fun _ _ hm => absurd hm List.not_mem_nil⟩
  | cons m moves ih =>
      obtain ⟨hhead, htail⟩ := List.nodup_cons.mp hnodup
      have hfirst : assignAll (m :: moves) t m.1 = t m.2 := by
        rw [assignAll_cons, assignAll_other hhead, Function.update_self]
      rw [List.pairwise_cons]
      constructor
      · intro h
        -- A later move whose source has been overwritten passes on what was written there.
        have hspares : ∀ m' ∈ moves, Spares t m m' := fun m' hm' heq => by
          have hmoved := h m' (.tail _ hm')
          rw [assignAll_cons, assignAll_untouched htail hm' (heq ▸ hhead), ← heq,
            Function.update_self] at hmoved
          rw [hmoved, heq]
        refine ⟨hspares, (pairwise_spares_update hspares).mp ((ih htail).mp fun m' hm' => ?_)⟩
        rw [update_source (hspares m' hm')]
        exact h m' (.tail _ hm')
      · rintro ⟨hspares, hrest⟩ m' hm'
        obtain rfl | hm' := List.mem_cons.mp hm'
        · exact hfirst
        · have hmoved := (ih htail).mpr ((pairwise_spares_update hspares).mpr hrest) m' hm'
          rwa [update_source (hspares m' hm')] at hmoved

end Wraith.Lib

/-
# `Wraith.Lib.Patch` — writing ranges into a list

A buffer filled by writes that arrive in any order, with gaps and overlaps: `overwrite` is one
write, `writeAll` a sequence of them.  Positions are followed individually.  A position that some
write covers ends up holding the byte of *one* of the writes covering it (`writeAll_covered`, the
last one, but which one is rarely needed), and a position no write covers keeps what it had
(`writeAll_uncovered`).  If all writes are excerpts of one list and between them cover it, the
order and the overlaps do not matter (`writeAll_eq_of_excerpts`).  A write repeated later on, with
only consistent ones in between, makes no difference (`writeAll_again`).
-/
import Mathlib.Data.List.Basic

namespace Wraith.Lib

variable {α : Type}

/-- `data` written over `buf` from position `off` on. -/
def overwrite (buf : List α) (off : Nat) (data : List α) : List α :=
  buf.take off ++ data ++ buf.drop (off + data.length)

/-- The write `w` touches position `i`. -/
def Touches (w : Nat × List α) (i : Nat) : Prop := w.1 ≤ i ∧ i < w.1 + w.2.length

instance (w : Nat × List α) (i : Nat) : Decidable (Touches w i) :=
  inferInstanceAs (Decidable (_ ∧ _))

theorem overwrite_length {buf : List α} {off : Nat} {data : List α}
    (h : off + data.length ≤ buf.length) : (overwrite buf off data).length = buf.length := by
  simp only [overwrite, List.length_append, List.length_take, List.length_drop]
  omega

theorem overwrite_get {buf : List α} {off : Nat} {data : List α}
    (h : off + data.length ≤ buf.length) (i : Nat) :
    (overwrite buf off data)[i]? =
      if Touches (off, data) i then data[i - off]? else buf[i]? := by
  have htake : (buf.take off).length = off := by rw [List.length_take]; omega
  by_cases hin : Touches (off, data) i
  · rw [if_pos hin]
    obtain ⟨hle, hlt⟩ := hin
    simp only at hle hlt
    rw [overwrite, List.append_assoc, List.getElem?_append_right (by omega), htake,
      List.getElem?_append_left (by omega)]
  · rw [if_neg hin]
    by_cases hlt : i < off
    · rw [overwrite, List.append_assoc, List.getElem?_append_left (by omega),
        List.getElem?_take_of_lt hlt]
    · have hge : off + data.length ≤ i := by
        simp only [Touches, not_and_or] at hin
        omega
      rw [overwrite, List.getElem?_append_right (by
        simp only [List.length_append, htake]; omega), List.getElem?_drop]
      simp only [List.length_append, htake]
      congr 1
      omega

/-- A sequence of writes, first to last. -/
def writeAll : List α → List (Nat × List α) → List α
  | buf, [] => buf
  | buf, w :: ws => writeAll (overwrite buf w.1 w.2) ws

@[simp] theorem writeAll_nil (buf : List α) : writeAll buf [] = buf := rfl

@[simp] theorem writeAll_cons (buf : List α) (w : Nat × List α) (ws : List (Nat × List α)) :
    writeAll buf (w :: ws) = writeAll (overwrite buf w.1 w.2) ws := rfl

/-- Every write stays inside a buffer of length `n`. -/
def Within (n : Nat) (ws : List (Nat × List α)) : Prop := ∀ w ∈ ws, w.1 + w.2.length ≤ n

theorem Within.head {n : Nat} {w : Nat × List α} {ws : List (Nat × List α)}
    (h : Within n (w :: ws)) : w.1 + w.2.length ≤ n := h w List.mem_cons_self

theorem Within.tail {n : Nat} {w : Nat × List α} {ws : List (Nat × List α)}
    (h : Within n (w :: ws)) : Within n ws := fun v hv => h v (List.mem_cons_of_mem _ hv)

theorem writeAll_length : ∀ {ws : List (Nat × List α)} {buf : List α},
    Within buf.length ws → (writeAll buf ws).length = buf.length
  | [], _, _ => rfl
  | w :: ws, buf, h => by
      have hlen := overwrite_length h.head
      rw [writeAll_cons, writeAll_length (hlen.symm ▸ h.tail), hlen]

theorem writeAll_uncovered {i : Nat} : ∀ {ws : List (Nat × List α)} {buf : List α},
    Within buf.length ws → (∀ w ∈ ws, ¬ Touches w i) → (writeAll buf ws)[i]? = buf[i]?
  | [], _, _, _ => rfl
  | w :: ws, buf, h, hno => by
      have hlen := overwrite_length h.head
      rw [writeAll_cons, writeAll_uncovered (hlen.symm ▸ h.tail)
        fun v hv => hno v (List.mem_cons_of_mem _ hv), overwrite_get h.head,
        if_neg (hno w List.mem_cons_self)]

/-- A covered position holds the byte of one of the writes that cover it. -/
theorem writeAll_covered {i : Nat} : ∀ {ws : List (Nat × List α)} {buf : List α},
    Within buf.length ws → (∃ w ∈ ws, Touches w i) →
      ∃ w ∈ ws, Touches w i ∧ (writeAll buf ws)[i]? = w.2[i - w.1]?
  | [], _, _, hw => by obtain ⟨w, hw, -⟩ := hw; exact absurd hw List.not_mem_nil
  | w :: ws, buf, h, hw => by
      have hlen := overwrite_length h.head
      by_cases hlater : ∃ v ∈ ws, Touches v i
      · obtain ⟨v, hv, htv, hget⟩ := writeAll_covered (hlen.symm ▸ h.tail) hlater
        exact ⟨v, List.mem_cons_of_mem _ hv, htv, hget⟩
      · -- The first write is then the last one to touch `i`.
        have hno : ∀ v ∈ ws, ¬ Touches v i := fun v hv htv => hlater ⟨v, hv, htv⟩
        obtain ⟨v, hv, htv⟩ := hw
        rcases List.mem_cons.mp hv with rfl | hv
        · refine ⟨v, List.mem_cons_self, htv, ?_⟩
          rw [writeAll_cons, writeAll_uncovered (hlen.symm ▸ h.tail) hno, overwrite_get h.head,
            if_pos htv]
        · exact absurd htv (hno v hv)

/-- Excerpts of one list that cover it rebuild it, in any order and with any overlaps. -/
theorem writeAll_eq_of_excerpts {data buf : List α} {ws : List (Nat × List α)}
    (hlen : buf.length = data.length) (hwithin : Within data.length ws)
    (hexcerpt : ∀ w ∈ ws, ∀ i, Touches w i → w.2[i - w.1]? = data[i]?)
    (hcover : ∀ i, i < data.length → ∃ w ∈ ws, Touches w i) : writeAll buf ws = data := by
  have hw : Within buf.length ws := hlen ▸ hwithin
  apply List.ext_getElem?
  intro i
  by_cases hi : i < data.length
  · obtain ⟨w, hmem, htouch, hget⟩ := writeAll_covered (i := i) hw (hcover i hi)
    rw [hget, hexcerpt w hmem i htouch]
  · have hlenAll := writeAll_length hw
    rw [List.getElem?_eq_none (by omega), List.getElem?_eq_none (by omega)]

/-! ## Writing the same again -/

/-- Two writes put the same where both of them write. -/
def Consistent (v w : Nat × List α) : Prop :=
  ∀ i, Touches v i → Touches w i → v.2[i - v.1]? = w.2[i - w.1]?

/-- The buffer holds what `w` writes. -/
def HoldsWrite (buf : List α) (w : Nat × List α) : Prop :=
  ∀ i, Touches w i → buf[i]? = w.2[i - w.1]?

theorem overwrite_holds {buf : List α} {w : Nat × List α} (h : w.1 + w.2.length ≤ buf.length) :
    HoldsWrite (overwrite buf w.1 w.2) w := fun i hi => by
  rw [overwrite_get h, if_pos hi]

/-- Consistent writes leave it there. -/
theorem HoldsWrite.after_writes {w : Nat × List α} : ∀ {ws : List (Nat × List α)} {buf : List α},
    HoldsWrite buf w → Within buf.length ws → (∀ v ∈ ws, Consistent v w) →
      HoldsWrite (writeAll buf ws) w
  | [], _, h, _, _ => h
  | v :: ws, buf, h, hwithin, hcons => by
      have hlen := overwrite_length hwithin.head
      rw [writeAll_cons]
      refine HoldsWrite.after_writes (fun i hi => ?_) (hlen.symm ▸ hwithin.tail)
        fun u hu => hcons u (List.mem_cons_of_mem _ hu)
      rw [overwrite_get hwithin.head]
      split
      · rename_i hv
        exact hcons v List.mem_cons_self i hv hi
      · exact h i hi

/-- Writing what is there changes nothing. -/
theorem HoldsWrite.overwrite_eq {buf : List α} {w : Nat × List α} (h : HoldsWrite buf w)
    (hwithin : w.1 + w.2.length ≤ buf.length) : overwrite buf w.1 w.2 = buf := by
  apply List.ext_getElem?
  intro i
  rw [overwrite_get hwithin]
  split
  · rename_i hi
    exact (h i hi).symm
  · rfl

theorem writeAll_append : ∀ (ws ws' : List (Nat × List α)) (buf : List α),
    writeAll buf (ws ++ ws') = writeAll (writeAll buf ws) ws'
  | [], _, _ => rfl
  | _ :: ws, ws', _ => writeAll_append ws ws' _

/-- A write that is repeated after consistent ones makes no difference. -/
theorem writeAll_again {buf : List α} {w : Nat × List α} {mid : List (Nat × List α)}
    (hw : w.1 + w.2.length ≤ buf.length) (hmid : Within buf.length mid)
    (hcons : ∀ v ∈ mid, Consistent v w) :
    writeAll buf (w :: mid ++ [w]) = writeAll buf (w :: mid) := by
  have hlen := overwrite_length hw
  have hmid' := hlen.symm ▸ hmid
  have hholds := (overwrite_holds hw).after_writes hmid' hcons
  rw [writeAll_append, writeAll_cons, writeAll_cons, writeAll_nil, hholds.overwrite_eq]
  rw [writeAll_length hmid', hlen]
  exact hw

end Wraith.Lib

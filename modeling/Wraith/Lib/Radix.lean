/-
# `Wraith.Lib.Radix` — reading numerals of a bounded type

The rule for whatever reads a numeral from the left, digit by digit, in whatever base:
`read_toDigits`.  And integers as `from_str_radix` of Rust reads them, in a base of at most ten: an
optional sign, then digits only, and nothing that does not fit.  `readDigits` is told the bound; the
rest is about signs.
-/
import Wraith.Lib.Text

namespace Wraith.Lib.Radix

variable {b bound n : Nat}

/-! ## Reading from the left -/

/-- A function that takes the digits of a number one by one, as long as what it has of it is no more
than the number, comes behind its numeral to the number. -/
theorem read_toDigits {β : Type} (hb : 1 < b) (f : Nat → List Char → β)
    (hstep : ∀ v d cs, d < b → v * b + d ≤ n → f v (d.digitChar :: cs) = f (v * b + d) cs)
    (cs : List Char) : f 0 (Nat.toDigits b n ++ cs) = f n cs := by
  refine Text.toDigits_induct (P := fun m ds => m ≤ n → ∀ cs, f 0 (ds ++ cs) = f m cs) hb
    (fun d hd hle cs => ?_) (fun m d ds _ hd ih hle cs => ?_) n (Nat.le_refl n) cs
  · have hfirst := hstep 0 d cs hd (by omega)
    rwa [Nat.zero_mul, Nat.zero_add] at hfirst
  · have hm : m ≤ m * b := Nat.le_mul_of_pos_right m (by omega)
    rw [List.append_assoc, ih (by omega) ([d.digitChar] ++ cs)]
    exact hstep m d cs hd hle

/-! ## Rust's integers -/

/-- `char::to_digit`, for a base of at most ten. -/
def digit (b : Nat) (c : Char) : Option Nat :=
  if 48 ≤ c.toNat ∧ c.toNat < 48 + b then some (c.toNat - 48) else none

/-- The digits behind `value`, unless the number reaches `bound`. -/
def readDigits (b bound : Nat) : (value : Nat) → List Char → Option Nat
  | value, [] => some value
  | value, c :: cs => match digit b c with
    | none => none
    | some d =>
        if bound ≤ value * b + d then none else readDigits b bound (value * b + d) cs

/-- A numeral of an unsigned type. -/
def readUnsigned (b bound : Nat) : List Char → Option Nat
  | [] => none
  | ['+'] => none
  | '+' :: cs => readDigits b bound 0 cs
  | cs => readDigits b bound 0 cs

/-- A numeral of a signed type, which reaches one further below zero. -/
def readSigned (b bound : Nat) : List Char → Option Int
  | [] => none
  | ['+'] => none
  | ['-'] => none
  | '+' :: cs => (readDigits b bound 0 cs).map Int.ofNat
  | '-' :: cs => (readDigits b (bound + 1) 0 cs).map fun n => -(n : Int)
  | cs => (readDigits b bound 0 cs).map Int.ofNat

theorem digit_digitChar (hb : b ≤ 10) {d : Nat} (hd : d < b) : digit b d.digitChar = some d := by
  have hchar : ∀ d < 10, d.digitChar.toNat = 48 + d := by decide
  rw [digit, hchar d (by omega), if_pos ⟨by omega, by omega⟩, Nat.add_sub_cancel_left]

/-- A numeral reads as its number, if that is below the bound. -/
theorem readDigits_toDigits (hb : 1 < b) (hb' : b ≤ 10) (hn : n < bound) :
    readDigits b bound 0 (Nat.toDigits b n) = some n := by
  have hread := read_toDigits (n := n) hb (readDigits b bound) (fun v d cs hd hle => by
    simp only [readDigits, digit_digitChar hb' hd,
      if_neg (Nat.not_le_of_lt (Nat.lt_of_le_of_lt hle hn))]) []
  rwa [List.append_nil] at hread

/-- A zero in front of it changes nothing. -/
theorem readDigits_zero (hb : 0 < b) (hbound : 0 < bound) {cs : List Char} :
    readDigits b bound 0 ('0' :: cs) = readDigits b bound 0 cs := by
  have hzero : digit b '0' = some 0 := if_pos ⟨by decide, by show 48 < 48 + b; omega⟩
  rw [readDigits, hzero]
  simp only [Nat.zero_mul, Nat.zero_add, if_neg (Nat.not_le_of_lt hbound)]

/-- What does not begin with a sign. -/
def Unsigned (cs : List Char) : Prop := ∀ c, cs.head? = some c → c ≠ '+' ∧ c ≠ '-'

theorem readUnsigned_eq {cs : List Char} (hne : cs ≠ []) (h : Unsigned cs) :
    readUnsigned b bound cs = readDigits b bound 0 cs := by
  unfold readUnsigned
  split
  · exact absurd rfl hne
  · exact absurd rfl (h _ rfl).1
  · exact absurd rfl (h _ rfl).1
  · rfl

theorem readSigned_eq {cs : List Char} (hne : cs ≠ []) (h : Unsigned cs) :
    readSigned b bound cs = (readDigits b bound 0 cs).map Int.ofNat := by
  unfold readSigned
  split
  · exact absurd rfl hne
  · exact absurd rfl (h _ rfl).1
  · exact absurd rfl (h _ rfl).2
  · exact absurd rfl (h _ rfl).1
  · exact absurd rfl (h _ rfl).2
  · rfl

theorem digitChar_ne_sign : ∀ d < 10, d.digitChar ≠ '+' ∧ d.digitChar ≠ '-' := by decide

theorem toDigits_unsigned (hb : 1 < b) (hb' : b ≤ 10) : Unsigned (Nat.toDigits b n) := fun c hc =>
  Text.mem_toDigits (p := fun c => c ≠ '+' ∧ c ≠ '-') hb
    (fun d hd => digitChar_ne_sign d (by omega)) c
    (List.mem_of_mem_head? hc)

theorem readUnsigned_toDigits (hb : 1 < b) (hb' : b ≤ 10) (hn : n < bound) :
    readUnsigned b bound (Nat.toDigits b n) = some n := by
  rw [readUnsigned_eq Nat.toDigits_ne_nil (toDigits_unsigned hb hb'), readDigits_toDigits hb hb' hn]

/-- A positive number behind a zero, as octal numbers are written. -/
theorem readSigned_zero_toDigits (hb : 1 < b) (hb' : b ≤ 10) (hn : n < bound) :
    readSigned b bound ('0' :: Nat.toDigits b n) = some (n : Int) := by
  have hsign : Unsigned ('0' :: Nat.toDigits b n) := fun c hc => by
    obtain rfl := Option.some.inj hc
    exact ⟨by decide, by decide⟩
  rw [readSigned_eq (List.cons_ne_nil _ _) hsign, readDigits_zero (by omega) (by omega),
    readDigits_toDigits hb hb' hn]
  rfl

end Wraith.Lib.Radix

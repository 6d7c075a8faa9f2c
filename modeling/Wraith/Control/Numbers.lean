/-
# `Wraith.Control.Numbers` — the floats of the preflight checks

A memory size is read as an integer and compared and printed as a float.  The floats that come up
are integers over a power of two, so rounding to the 53 bits of a double is rounding of integers
(`round53`), half to even; printing rounds in the same way, to a number of decimals.  Below 2^53 kB
nothing is rounded.
-/
import Mathlib.Algebra.GroupWithZero.Nat
import Mathlib.Data.Rat.Defs
import Wraith.Control.Exceptions

namespace Wraith.Control

/-! ## Rounding -/

/-- `num / den`, to the nearest integer, halves to even. -/
def halfEven (num den : Nat) : Nat :=
  let quot := num / den
  let rem := num % den
  if den < 2 * rem ∨ (den = 2 * rem ∧ quot % 2 = 1) then quot + 1 else quot

/-- The nearest integer with 53 significant bits. -/
def round53 (n : Nat) : Nat :=
  let unit := 2 ^ (n.log2 - 52)
  halfEven n unit * unit

theorem halfEven_one (n : Nat) : halfEven n 1 = n := by
  rw [halfEven, Nat.div_one, Nat.mod_one]
  exact if_neg (by omega)

theorem log2_of_lt {n : Nat} (h : n < 2 ^ 53) : n.log2 ≤ 52 := by
  by_cases hn : n = 0
  · rw [hn]
    exact Nat.zero_le 52
  · exact Nat.le_of_lt_succ ((Nat.log2_lt hn).mpr h)

theorem round53_of_lt {n : Nat} (h : n < 2 ^ 53) : round53 n = n := by
  rw [round53, Nat.sub_eq_zero_of_le (log2_of_lt h), Nat.pow_zero, halfEven_one, Nat.mul_one]

/-! ## Floats -/

/-- A float, but for negative infinity. -/
inductive PyFloat where
  | finite (q : ℚ)
  | inf
  | nan
  deriving DecidableEq, Repr

/-- `x <= y`. -/
def PyFloat.le : PyFloat → PyFloat → Bool
  | .finite q, .finite q' => q ≤ q'
  | .finite _, .inf => true
  | .inf, .inf => true
  | _, _ => false

/-- `digits` decimals of a number, of which `whole` is 10^digits times the absolute value. -/
def decimals (digits whole : Nat) : String :=
  let cs := Nat.toDigits 10 whole
  let padded := List.replicate (digits + 1 - cs.length) '0' ++ cs
  let point := padded.length - digits
  if digits = 0 then String.ofList padded
  else String.ofList (padded.take point ++ '.' :: padded.drop point)

/-- `f"{x:.<digits>f}"`. -/
def PyFloat.fixed (digits : Nat) : PyFloat → String
  | .finite q => (if q < 0 then "-" else "") ++
      decimals digits (halfEven (q.num.natAbs * 10 ^ digits) q.den)
  | .inf => "inf"
  | .nan => "nan"

def overflowError (text : String) : Builtin := .exception "OverflowError" text

/-- `kb / (1024 * 1024)`. -/
def kbToGb (kb : Int) : Except Builtin PyFloat :=
  let rounded := round53 kb.natAbs
  if 1044 ≤ rounded.log2 then .error (overflowError "integer division result too large for a float")
  else .ok (.finite (kb.sign * rounded / 2 ^ 20))

/-- `int(kb * 1.5)`: twice the product is an integer too, and is rounded in its place. -/
def timesOneAndHalf (kb : Int) : Except Builtin Int :=
  let rounded := round53 kb.natAbs
  let twice := round53 (3 * rounded)
  if 1024 ≤ rounded.log2 then .error (overflowError "int too large to convert to float")
  else if 1025 ≤ twice.log2 then .error (overflowError "cannot convert float infinity to integer")
  else .ok (kb.sign * (twice / 2 : Nat))

/-- Of a size that a machine can have, half as much again is exact but for half a kilobyte. -/
theorem timesOneAndHalf_exact {kb : Nat} (h : kb < 2 ^ 51) :
    timesOneAndHalf kb = .ok ((3 * kb / 2 : Nat) : Int) := by
  have hkb : round53 kb = kb := round53_of_lt (Nat.lt_trans h (by decide))
  have htwice : round53 (3 * kb) = 3 * kb := round53_of_lt (by omega)
  have hlog : kb.log2 ≤ 52 := log2_of_lt (Nat.lt_trans h (by decide))
  have hlog' : (3 * kb).log2 ≤ 52 := log2_of_lt (by omega)
  have hsign : (kb : Int).sign * ((3 * kb / 2 : Nat) : Int) = ((3 * kb / 2 : Nat) : Int) := by
    obtain rfl | hpos := Nat.eq_zero_or_pos kb
    · rfl
    · rw [Int.sign_eq_one_of_pos (Int.natCast_pos.mpr hpos), Int.one_mul]
  rw [timesOneAndHalf, Int.natAbs_natCast, hkb, htwice, if_neg (by omega), if_neg (by omega), hsign]

end Wraith.Control

/-
# `Wraith.Lib.BigEndian` — fixed-width unsigned integers as big-endian bytes

`beBytes w n` are the `w` bytes of `n`, most significant first, with the high part of `n`
dropped when it does not fit; `beNat` reads a byte list back.  The two are inverse in the only
two senses that hold:

    beNat (beBytes w n) = n % 256 ^ w          (`beNat_beBytes`)
    beBytes bs.length (beNat bs) = bs          (`beBytes_beNat`)

so a word narrower than its field survives and every byte string of the field's width is the
encoding of exactly one number.
-/
import Mathlib.Algebra.GroupWithZero.Nat

namespace Wraith.Lib

/-- The low `w` bytes of `n`, most significant first. -/
def beBytes : Nat → Nat → List UInt8
  | 0, _ => []
  | w + 1, n => UInt8.ofNat (n / 256 ^ w) :: beBytes w n

/-- The number a big-endian byte string stands for. -/
def beNat : List UInt8 → Nat
  | [] => 0
  | b :: bs => b.toNat * 256 ^ bs.length + beNat bs

@[simp] theorem beBytes_length : ∀ w n, (beBytes w n).length = w
  | 0, _ => rfl
  | w + 1, n => by simp [beBytes, beBytes_length w n]

theorem beNat_lt : ∀ bs : List UInt8, beNat bs < 256 ^ bs.length
  | [] => by simp [beNat]
  | b :: bs => by
      have hb : b.toNat < 256 := b.toNat_lt
      have htail := beNat_lt bs
      have hstep : (b.toNat + 1) * 256 ^ bs.length ≤ 256 * 256 ^ bs.length :=
        Nat.mul_le_mul_right _ hb
      simp only [beNat, List.length_cons, Nat.pow_succ]
      rw [Nat.add_mul] at hstep
      omega

/-- Encoding truncates to the field's width and nothing else is lost. -/
theorem beNat_beBytes : ∀ w n, beNat (beBytes w n) = n % 256 ^ w
  | 0, n => by simp [beBytes, beNat, Nat.mod_one]
  | w + 1, n => by
      have hbyte : (UInt8.ofNat (n / 256 ^ w)).toNat = n / 256 ^ w % 256 := by simp
      simp only [beBytes, beNat, beBytes_length, hbyte, beNat_beBytes w n]
      rw [Nat.pow_succ, Nat.mod_mul]
      rw [Nat.mul_comm (n / 256 ^ w % 256), Nat.add_comm]

theorem beNat_beBytes_of_lt {w n : Nat} (h : n < 256 ^ w) : beNat (beBytes w n) = n := by
  rw [beNat_beBytes, Nat.mod_eq_of_lt h]

/-- The head byte of an encoding does not depend on multiples of the field's modulus. -/
theorem beBytes_add_mul : ∀ w n k, beBytes w (k * 256 ^ w + n) = beBytes w n
  | 0, _, _ => rfl
  | w + 1, n, k => by
      have hpos : 0 < 256 ^ w := Nat.pow_pos (by decide)
      have hsplit : k * 256 ^ (w + 1) + n = 256 ^ w * (k * 256) + n := by
        rw [Nat.pow_succ, Nat.mul_comm (256 ^ w) 256, ← Nat.mul_assoc, Nat.mul_comm (256 ^ w)]
      have hhead : UInt8.ofNat ((k * 256 ^ (w + 1) + n) / 256 ^ w)
          = UInt8.ofNat (n / 256 ^ w) := by
        apply UInt8.toNat_inj.mp
        rw [hsplit, Nat.mul_add_div hpos]
        simp
      have htail : beBytes w (k * 256 ^ (w + 1) + n) = beBytes w n := by
        rw [hsplit, Nat.mul_comm (256 ^ w)]
        exact beBytes_add_mul w n (k * 256)
      simp only [beBytes, hhead, htail]

/-- Every byte string is the encoding, at its own width, of the number it stands for. -/
theorem beBytes_beNat : ∀ bs : List UInt8, beBytes bs.length (beNat bs) = bs
  | [] => rfl
  | b :: bs => by
      have hpos : 0 < 256 ^ bs.length := Nat.pow_pos (by decide)
      have hquot : (b.toNat * 256 ^ bs.length + beNat bs) / 256 ^ bs.length = b.toNat := by
        rw [Nat.mul_comm, Nat.mul_add_div hpos, Nat.div_eq_of_lt (beNat_lt bs), Nat.add_zero]
      simp only [List.length_cons, beBytes, beNat, hquot, beBytes_add_mul, beBytes_beNat bs]
      simp

theorem beBytes_beNat_of_length {w : Nat} {bs : List UInt8} (h : bs.length = w) :
    beBytes w (beNat bs) = bs := by
  subst h; exact beBytes_beNat bs

end Wraith.Lib

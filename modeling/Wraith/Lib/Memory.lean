/-
# `Wraith.Lib.Memory` — an address space

Memory as a partial map from addresses to cells, a cell being a byte with the protection of its
page.  Mapping fills a range with zeros, protecting and writing leave everything unmapped as it is.
Addresses are natural numbers, so ranges do not wrap.

Each operation has a lemma for the range it is about and a frame lemma for the rest; `Holds m a bs`
says that the bytes `bs` lie at `a`, and is what programs about memory are specified with.  The
last section is about pages: ranges that start on a page boundary stay disjoint when they are
rounded up.
-/
import Mathlib.Algebra.GroupWithZero.Nat
import Mathlib.Data.Nat.Basic
import Mathlib.Tactic.Common

namespace Wraith.Lib

/-- A byte and the protection it is under. -/
structure Cell (P : Type) where
  byte : UInt8
  prot : P
  deriving DecidableEq, Repr

/-- An address space. -/
abbrev Memory (P : Type) : Type := Nat → Option (Cell P)

namespace Memory

variable {P : Type} {m m' : Memory P} {lo hi a n : Nat} {bs : List UInt8} {p : P}

/-- The address lies in the range. -/
abbrev In (lo hi a : Nat) : Prop := lo ≤ a ∧ a < hi

/-- Fill a range with zeros, in place of what was there. -/
def map (m : Memory P) (lo hi : Nat) (p : P) : Memory P :=
  fun a => if In lo hi a then some ⟨0, p⟩ else m a

/-- Change the protection of a range. -/
def protect (m : Memory P) (lo hi : Nat) (p : P) : Memory P :=
  fun a => if In lo hi a then (m a).map fun c => { c with prot := p } else m a

/-- Write bytes where there is memory for them. -/
def write (m : Memory P) (lo : Nat) (bs : List UInt8) : Memory P :=
  fun a => if In lo (lo + bs.length) a then
    (m a).map fun c => { c with byte := bs.getD (a - lo) 0 } else m a

/-- Every address of the range is mapped. -/
def Mapped (m : Memory P) (lo hi : Nat) : Prop := ∀ a, In lo hi a → (m a).isSome

/-- The byte at an address. -/
def byte (m : Memory P) (a : Nat) : Option UInt8 := (m a).map Cell.byte

/-- The bytes `bs` lie at `a`. -/
def Holds (m : Memory P) (a : Nat) (bs : List UInt8) : Prop :=
  ∀ i (h : i < bs.length), m.byte (a + i) = some bs[i]

/-- The range is under protection `p`. -/
def Under (m : Memory P) (lo hi : Nat) (p : P) : Prop :=
  ∀ a, In lo hi a → (m a).map Cell.prot = some p

/-- Two address spaces agree on a range. -/
def Agree (m m' : Memory P) (lo hi : Nat) : Prop := ∀ a, In lo hi a → m a = m' a

/-- Two ranges have no address in common. -/
def Apart (lo hi lo' hi' : Nat) : Prop := hi ≤ lo' ∨ hi' ≤ lo

theorem Apart.symm {lo' hi' : Nat} (h : Apart lo hi lo' hi') : Apart lo' hi' lo hi := Or.symm h

theorem Apart.not_in {lo' hi' : Nat} (h : Apart lo hi lo' hi') (ha : In lo hi a) :
    ¬ In lo' hi' a := fun ha' => by
  obtain h | h := h
  · omega
  · omega

/-- Ranges between two addresses that come one behind the other are no longer together than what
lies between the two. -/
theorem sum_lengths_le {α : Type} {start stop : α → Nat} (base limit : Nat) : ∀ {rs : List α},
    base ≤ limit → (∀ r ∈ rs, base ≤ start r ∧ start r ≤ stop r ∧ stop r ≤ limit) →
      rs.Pairwise (fun r r' => stop r ≤ start r') →
      base + (rs.map fun r => stop r - start r).sum ≤ limit
  | [], hle, _, _ => hle
  | r :: rs, _, hbounds, hpair => by
      obtain ⟨hnext, hrest⟩ := List.pairwise_cons.mp hpair
      obtain ⟨hbase, horder, hstop⟩ := hbounds r (.head _)
      -- The rest lies between the end of the first range and the limit.
      have ih := sum_lengths_le (stop r) limit hstop
        (fun r' hr' => ⟨hnext r' hr', (hbounds r' (.tail _ hr')).2⟩) hrest
      rw [List.map_cons, List.sum_cons]
      omega

/-! ## Agreement -/

theorem Agree.refl : Agree m m lo hi := fun _ _ => rfl

theorem Agree.symm (h : Agree m m' lo hi) : Agree m' m lo hi := fun a ha => (h a ha).symm

theorem Agree.trans {m'' : Memory P} (h : Agree m m' lo hi) (h' : Agree m' m'' lo hi) :
    Agree m m'' lo hi := fun a ha => (h a ha).trans (h' a ha)

theorem Mapped.of_agree (h : Mapped m lo hi) (hm : Agree m m' lo hi) : Mapped m' lo hi :=
  fun a ha => by
    rw [← hm a ha]
    exact h a ha

theorem Holds.of_agree (h : Holds m a bs) (hm : Agree m m' a (a + bs.length)) : Holds m' a bs :=
  fun i hi => by
    rw [byte, ← hm (a + i) ⟨Nat.le_add_right _ _, by omega⟩]
    exact h i hi

theorem Under.of_agree (h : Under m lo hi p) (hm : Agree m m' lo hi) : Under m' lo hi p :=
  fun a ha => by
    rw [← hm a ha]
    exact h a ha

/-! ## Mapping -/

theorem map_agree {lo' hi' : Nat} (h : Apart lo hi lo' hi') : Agree m (m.map lo' hi' p) lo hi :=
  fun _ ha => (if_neg (h.not_in ha)).symm

theorem map_mapped : Mapped (m.map lo hi p) lo hi := fun a ha => by
  rw [map, if_pos ha]
  rfl

theorem map_under : Under (m.map lo hi p) lo hi p := fun a ha => by
  rw [map, if_pos ha]
  rfl

theorem Mapped.mono {lo' hi' : Nat} (h : Mapped m lo hi) (hlo : lo ≤ lo') (hhi : hi' ≤ hi) :
    Mapped m lo' hi' := fun a ha => h a ⟨Nat.le_trans hlo ha.1, Nat.lt_of_lt_of_le ha.2 hhi⟩

theorem Under.mono {lo' hi' : Nat} (h : Under m lo hi p) (hlo : lo ≤ lo') (hhi : hi' ≤ hi) :
    Under m lo' hi' p := fun a ha => h a ⟨Nat.le_trans hlo ha.1, Nat.lt_of_lt_of_le ha.2 hhi⟩

theorem Under.mapped (h : Under m lo hi p) : Mapped m lo hi := fun a ha => by
  obtain ⟨c, hc, -⟩ := Option.map_eq_some_iff.mp (h a ha)
  rw [hc]
  rfl

/-! ## Protection -/

theorem protect_agree {lo' hi' : Nat} (h : Apart lo hi lo' hi') :
    Agree m (m.protect lo' hi' p) lo hi := fun _ ha => (if_neg (h.not_in ha)).symm

theorem protect_byte : (m.protect lo hi p).byte a = m.byte a := by
  unfold byte protect
  split
  · rw [Option.map_map]
    rfl
  · rfl

theorem isSome_protect {b : Nat} : ((m.protect lo hi p) b).isSome = (m b).isSome := by
  unfold protect
  split
  · exact Option.isSome_map
  · rfl

theorem Holds.protect (h : Holds m a bs) : Holds (m.protect lo hi p) a bs := fun i hi => by
  rw [protect_byte]
  exact h i hi

theorem protect_under (h : Mapped m lo hi) : Under (m.protect lo hi p) lo hi p := fun a ha => by
  obtain ⟨c, hc⟩ := Option.isSome_iff_exists.mp (h a ha)
  rw [Memory.protect, if_pos ha, hc]
  rfl

/-! ## Writing -/

theorem write_agree (h : Apart lo hi a (a + bs.length)) : Agree m (m.write a bs) lo hi :=
  fun _ ha => (if_neg (h.not_in ha)).symm

theorem write_prot (b : Nat) : ((m.write a bs) b).map Cell.prot = (m b).map Cell.prot := by
  unfold write
  split
  · rw [Option.map_map]
    rfl
  · rfl

/-- Writing maps nothing and unmaps nothing. -/
theorem isSome_write {b : Nat} : ((m.write a bs) b).isSome = (m b).isSome := by
  rw [← Option.isSome_map (f := Cell.prot), write_prot, Option.isSome_map]

theorem mapped_write : Mapped (m.write a bs) lo hi ↔ Mapped m lo hi :=
  forall₂_congr fun _ _ => by rw [isSome_write]

/-- Beside the bytes that are written nothing changes. -/
theorem write_other {b : Nat} (h : ¬ In a (a + bs.length) b) : (m.write a bs) b = m b := if_neg h

theorem Under.write (h : Under m lo hi p) : Under (m.write a bs) lo hi p := fun b hb => by
  rw [write_prot]
  exact h b hb

theorem write_holds (h : Mapped m a (a + bs.length)) : Holds (m.write a bs) a bs := fun i hi => by
  have hin : In a (a + bs.length) (a + i) := ⟨Nat.le_add_right _ _, by omega⟩
  obtain ⟨c, hc⟩ := Option.isSome_iff_exists.mp (h _ hin)
  rw [byte, Memory.write, if_pos hin, hc]
  simp only [Option.map_some, Nat.add_sub_cancel_left, List.getD_eq_getElem?_getD,
    List.getElem?_eq_getElem hi, Option.getD_some]

/-- What a write does at an address depends on that address alone. -/
theorem write_congr {b : Nat} (h : m b = m' b) : (m.write a bs) b = (m'.write a bs) b := by
  rw [write, write, h]

/-- The bytes at an address are what they are. -/
theorem Holds.unique {bs' : List UInt8} (h : Holds m a bs) (h' : Holds m a bs')
    (hlen : bs.length = bs'.length) : bs = bs' :=
  List.ext_getElem hlen fun i hi hi' => Option.some.inj ((h i hi).symm.trans (h' i hi'))

/-- Address spaces that hold the same bytes are the same there. -/
theorem Holds.byte_eq {b : Nat} (h : Holds m a bs) (h' : Holds m' a bs)
    (hb : In a (a + bs.length) b) :
    m.byte b = m'.byte b := by
  have hlt : b - a < bs.length := by omega
  rw [← Nat.add_sub_cancel' hb.1, h _ hlt, h' _ hlt]

/-- Writing what is there changes nothing. -/
theorem write_same (h : Holds m a bs) : m.write a bs = m := by
  funext b
  unfold write
  split
  case isTrue hin =>
    have hb := h (b - a) (by omega)
    rw [Nat.add_sub_cancel' hin.1, byte] at hb
    obtain ⟨c, hc, hbyte⟩ := Option.map_eq_some_iff.mp hb
    rw [hc, Option.map_some, List.getD_eq_getElem?_getD, List.getElem?_eq_getElem (by omega),
      Option.getD_some, ← hbyte]
  case isFalse => rfl

/-- Of two writes of one length at one place the second stays. -/
theorem write_write {bs' : List UInt8} (h : bs.length = bs'.length) :
    (m.write a bs).write a bs' = m.write a bs' := by
  funext b
  unfold write
  rw [h]
  split
  · rw [Option.map_map]
    rfl
  · rfl

/-- Writing back what was there undoes a write. -/
theorem write_back {bs' : List UInt8} (h : Holds m a bs) (hlen : bs'.length = bs.length) :
    (m.write a bs').write a bs = m := by
  rw [write_write hlen, write_same h]

theorem Holds.mapped (h : Holds m a bs) : Mapped m a (a + bs.length) := fun b hb => by
  have hbyte := h (b - a) (by omega)
  rw [Nat.add_sub_cancel' hb.1, byte] at hbyte
  obtain ⟨c, hc, -⟩ := Option.map_eq_some_iff.mp hbyte
  rw [hc]
  rfl

/-- Whatever is mapped holds some bytes. -/
theorem Mapped.holds : ∀ {n : Nat}, Mapped m a (a + n) → ∃ bs, bs.length = n ∧ Holds m a bs := by
  intro n h
  refine ⟨(List.range n).map fun i => (m.byte (a + i)).getD 0, by simp, fun i hi => ?_⟩
  have hlt : i < n := by simpa using hi
  obtain ⟨c, hc⟩ := Option.isSome_iff_exists.mp (h (a + i) ⟨Nat.le_add_right _ _, by omega⟩)
  simp only [List.getElem_map, List.getElem_range, byte, hc, Option.map_some, Option.getD_some]

/-! ## Two operations -/

/-- A write and a mapping elsewhere can change places. -/
theorem map_write (h : Apart a (a + bs.length) lo hi) :
    (m.write a bs).map lo hi p = (m.map lo hi p).write a bs := by
  funext b
  by_cases hb : In lo hi b
  · rw [map, if_pos hb, write, if_neg (h.symm.not_in hb), map, if_pos hb]
  · rw [map, if_neg hb, write, write, map, if_neg hb]

/-- What a mapping elsewhere leaves in place. -/
theorem Holds.map (hm : Holds m a bs) (h : Apart a (a + bs.length) lo hi) :
    Holds (m.map lo hi p) a bs := hm.of_agree (map_agree h)

/-- A write and a change of protection can change places. -/
theorem protect_write : (m.write a bs).protect lo hi p = (m.protect lo hi p).write a bs := by
  funext b
  unfold Memory.protect write
  by_cases hb : In lo hi b
  · by_cases hb' : In a (a + bs.length) b
    · simp only [if_pos hb, if_pos hb', Option.map_map]
      rfl
    · simp only [if_pos hb, if_neg hb']
  · simp only [if_neg hb]

/-! ## Pages -/

/-- The boundary at or before an address. -/
def pageDown (page a : Nat) : Nat := a / page * page

/-- The boundary at or behind it. -/
def pageUp (page a : Nat) : Nat := (a + page - 1) / page * page

variable {page : Nat}

theorem le_pageUp (hp : 0 < page) : a ≤ pageUp page a := by
  have h := Nat.div_add_mod (a + page - 1) page
  have hlt := Nat.mod_lt (a + page - 1) hp
  rw [Nat.mul_comm] at h
  unfold pageUp
  omega

theorem pageUp_le {b : Nat} (hp : 0 < page) (hb : page ∣ b) (h : a ≤ b) : pageUp page a ≤ b := by
  obtain ⟨k, rfl⟩ := hb
  have hlt : (a + page - 1) / page < k + 1 := by
    rw [Nat.div_lt_iff_lt_mul hp, Nat.succ_mul, Nat.mul_comm k]
    omega
  rw [pageUp, Nat.mul_comm page]
  exact Nat.mul_le_mul_right page (Nat.le_of_lt_succ hlt)

theorem pageUp_of_dvd (hp : 0 < page) (h : page ∣ a) : pageUp page a = a :=
  Nat.le_antisymm (pageUp_le hp h le_rfl) (le_pageUp hp)

theorem dvd_pageUp : page ∣ pageUp page a := ⟨_, Nat.mul_comm _ _⟩

theorem pageUp_lt (hp : 0 < page) : pageUp page a < a + page := by
  have h := Nat.div_mul_le_self (a + page - 1) page
  unfold pageUp
  omega

/-- Ranges that start on a page boundary and are apart stay so when their ends are rounded up. -/
theorem Apart.pageUp {lo' hi' : Nat} (hp : 0 < page) (hlo : page ∣ lo) (hlo' : page ∣ lo')
    (h : Apart lo hi lo' hi') : Apart lo (Memory.pageUp page hi) lo' (Memory.pageUp page hi') := by
  obtain h | h := h
  · exact Or.inl (pageUp_le hp hlo' h)
  · exact Or.inr (pageUp_le hp hlo h)

end Memory
end Wraith.Lib

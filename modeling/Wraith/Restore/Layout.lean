/-
# `Wraith.Restore.Layout` — which address spaces can be rebuilt

`aslr.rs` as far as the restorer uses it: the ranges of a snapshot's regions, sorted by start, and
the checks on them.  The end of a range is a sum of 64-bit numbers that may wrap; a range whose end
has wrapped is of size zero for the checks, so what passes them has not (`layout_iff`).
-/
import Mathlib.Data.List.Sort
import Wraith.Lib.Memory
import Wraith.Process.Ptrace

namespace Wraith.Restore

open Lib Process

/-- `AddrRange`, from `start` up to `end_`. -/
structure AddrRange where
  start : UInt64
  end_ : UInt64
  deriving DecidableEq, Repr

/-- `size`, with `saturating_sub`. -/
def AddrRange.size (r : AddrRange) : UInt64 := if r.start ≤ r.end_ then r.end_ - r.start else 0

/-- `overlaps`. -/
def AddrRange.overlaps (r other : AddrRange) : Bool :=
  decide (r.start < other.end_) && decide (other.start < r.end_)

/-- `AddressSpaceLayout`. -/
structure AddressSpaceLayout where
  ranges : List AddrRange
  deriving DecidableEq, Repr

def regionRange (r : Proto.MemoryRegion) : AddrRange := ⟨r.startAddr, r.startAddr + r.sizeBytes⟩

/-- `from_snapshot`. -/
def AddressSpaceLayout.fromSnapshot (s : Proto.ProcessSnapshot) : AddressSpaceLayout :=
  ⟨(s.memoryRegions.map regionRange).insertionSort fun r r' => r.start ≤ r'.start⟩

/-- `USER_SPACE_LIMIT`. -/
def userSpaceLimit : UInt64 := 140737488355328

example : userSpaceLimit = (1 : UInt64) <<< 47 := by decide

def checkRange (r : AddrRange) : Except Error Unit :=
  if r.start ≥ userSpaceLimit then
    .error <|
      s!"Region at {hex r.start}–{hex r.end_} starts above the 47-bit user-space boundary; " ++
      "cannot restore"
  else if r.end_ > userSpaceLimit then
    .error s!"Region {hex r.start}–{hex r.end_} crosses the 47-bit user-space boundary"
  else if r.size = 0 then .error s!"Zero-size region at {hex r.start} in snapshot"
  else .ok ()

def checkRanges : List AddrRange → Except Error Unit
  | [] => .ok ()
  | r :: rs => do
      checkRange r
      checkRanges rs

/-- The pass over `windows(2)`. -/
def checkOverlaps : List AddrRange → Except Error Unit
  | r :: next :: rs =>
      if r.overlaps next then
        .error <| s!"Overlapping regions in snapshot: [{hex r.start},{hex r.end_}) and " ++
          s!"[{hex next.start},{hex next.end_})"
      else checkOverlaps (next :: rs)
  | _ => .ok ()

/-- `AddressSpaceLayout::validate`. -/
def AddressSpaceLayout.validate (layout : AddressSpaceLayout) : Except Error Unit := do
  checkRanges layout.ranges
  checkOverlaps layout.ranges

/-! ## What passes -/

/-- A range of user space, not empty. -/
def AddrRange.Usable (r : AddrRange) : Prop :=
  r.start.toNat < r.end_.toNat ∧ r.end_.toNat ≤ userSpaceLimit.toNat

/-- Ranges without a common address. -/
def AddrRange.Apart (r r' : AddrRange) : Prop :=
  Memory.Apart r.start.toNat r.end_.toNat r'.start.toNat r'.end_.toNat

theorem AddrRange.size_eq_zero {r : AddrRange} : r.size = 0 ↔ r.end_.toNat ≤ r.start.toNat := by
  unfold AddrRange.size
  split
  case isTrue h =>
    rw [← UInt64.toNat_inj, UInt64.toNat_sub_of_le _ _ h, UInt64.toNat_zero]
    rw [UInt64.le_iff_toNat_le] at h
    omega
  case isFalse h =>
    rw [UInt64.le_iff_toNat_le] at h
    simp only [true_iff]
    omega

theorem checkRange_iff {r : AddrRange} : checkRange r = .ok () ↔ r.Usable := by
  have hstart : r.start ≥ userSpaceLimit ↔ userSpaceLimit.toNat ≤ r.start.toNat :=
    UInt64.le_iff_toNat_le
  have hend : r.end_ > userSpaceLimit ↔ userSpaceLimit.toNat < r.end_.toNat :=
    UInt64.lt_iff_toNat_lt
  have hsize := AddrRange.size_eq_zero (r := r)
  unfold checkRange AddrRange.Usable
  split
  case isTrue h => exact ⟨fun h' => (nomatch h'), fun h' => absurd (hstart.mp h) (by omega)⟩
  case isFalse h =>
    split
    case isTrue h' => exact ⟨fun h => (nomatch h), fun h => absurd (hend.mp h') (by omega)⟩
    case isFalse h' =>
      split
      case isTrue h'' => exact ⟨fun h => (nomatch h), fun h => absurd (hsize.mp h'') (by omega)⟩
      case isFalse h'' =>
        rw [hend] at h'
        rw [hsize] at h''
        exact ⟨fun _ => by omega, fun _ => rfl⟩

theorem except_seq_ok {α : Type} {e : Except Error Unit} {e' : Except Error α} {a : α} :
    (e >>= fun _ => e') = .ok a ↔ e = .ok () ∧ e' = .ok a := by
  cases e with
  | error x => exact ⟨fun h => (nomatch h), fun h => (nomatch h.1)⟩
  | ok _ => exact ⟨fun h => ⟨rfl, h⟩, fun h => h.2⟩

theorem checkRanges_iff : ∀ {rs : List AddrRange}, checkRanges rs = .ok () ↔ ∀ r ∈ rs, r.Usable
  | [] => ⟨fun _ _ h => (nomatch h), fun _ => rfl⟩
  | r :: rs => by
      rw [checkRanges, except_seq_ok, checkRange_iff, checkRanges_iff, List.forall_mem_cons]

/-- Sorted ranges overlap if two neighbours do. -/
theorem checkOverlaps_iff : ∀ {rs : List AddrRange}, (∀ r ∈ rs, r.Usable) →
    rs.Pairwise (fun r r' => r.start ≤ r'.start) →
      (checkOverlaps rs = .ok () ↔ rs.Pairwise fun r r' => r.end_.toNat ≤ r'.start.toNat)
  | [], _, _ => ⟨fun _ => .nil, fun _ => rfl⟩
  | [r], _, _ => ⟨fun _ => List.pairwise_singleton _ r, fun _ => rfl⟩
  | r :: r' :: rs, husable, hsorted => by
      obtain ⟨hr, hsorted'⟩ := List.pairwise_cons.mp hsorted
      have hle : r.start.toNat ≤ r'.start.toNat := UInt64.le_iff_toNat_le.mp (hr r' (.head _))
      have hr' : r'.Usable := husable r' (.tail _ (.head _))
      have ih := checkOverlaps_iff (fun x hx => husable x (.tail _ hx)) hsorted'
      have hover : r.overlaps r' = true ↔ ¬ r.end_.toNat ≤ r'.start.toNat := by
        rw [AddrRange.overlaps, Bool.and_eq_true, decide_eq_true_iff, decide_eq_true_iff,
          UInt64.lt_iff_toNat_lt, UInt64.lt_iff_toNat_lt]
        have := hr'.1
        omega
      rw [checkOverlaps, List.pairwise_cons]
      split
      case isTrue h =>
        exact ⟨fun h' => (nomatch h'), fun h' => absurd (h'.1 r' (.head _)) (hover.mp h)⟩
      case isFalse h =>
        rw [ih]
        refine ⟨fun hp => ⟨fun x hx => ?_, hp⟩, fun hp => hp.2⟩
        have hend : r.end_.toNat ≤ r'.start.toNat := Decidable.not_not.mp fun hn => h (hover.mpr hn)
        obtain rfl | hx := List.mem_cons.mp hx
        · exact hend
        · have := (List.pairwise_cons.mp hp).1 x hx
          have := hr'.1
          omega

/-! ## In terms of the regions -/

/-- A region that lies in user space and is not empty. -/
def Fits (r : Proto.MemoryRegion) : Prop :=
  0 < r.sizeBytes.toNat ∧ r.startAddr.toNat + r.sizeBytes.toNat ≤ userSpaceLimit.toNat

instance (r : Proto.MemoryRegion) : Decidable (Fits r) := inferInstanceAs (Decidable (_ ∧ _))

/-- Regions without a common address. -/
def Separate (r r' : Proto.MemoryRegion) : Prop :=
  Memory.Apart r.startAddr.toNat (r.startAddr.toNat + r.sizeBytes.toNat) r'.startAddr.toNat
    (r'.startAddr.toNat + r'.sizeBytes.toNat)

theorem regionRange_end {r : Proto.MemoryRegion} (h : Fits r) :
    (regionRange r).end_.toNat = r.startAddr.toNat + r.sizeBytes.toNat := by
  have hlimit : userSpaceLimit.toNat = 140737488355328 := rfl
  obtain ⟨-, h⟩ := h
  rw [regionRange, UInt64.toNat_add, Nat.mod_eq_of_lt (by omega)]

theorem regionRange_usable {r : Proto.MemoryRegion} : (regionRange r).Usable ↔ Fits r := by
  constructor
  · rintro ⟨hlt, hle⟩
    have hlimit : userSpaceLimit.toNat = 140737488355328 := rfl
    have hsize := r.sizeBytes.toNat_lt
    have hstart : (regionRange r).start.toNat = r.startAddr.toNat := rfl
    have hend : (regionRange r).end_.toNat =
        (r.startAddr.toNat + r.sizeBytes.toNat) % 2 ^ 64 := UInt64.toNat_add _ _
    unfold Fits
    omega
  · intro h
    rw [AddrRange.Usable, regionRange_end h]
    exact ⟨Nat.lt_add_of_pos_right h.1, h.2⟩

/-- `from_snapshot` and `validate` accept the snapshots whose regions lie in user space, are not
empty, and have no address in common. -/
theorem layout_iff {s : Proto.ProcessSnapshot} :
    (AddressSpaceLayout.fromSnapshot s).validate = .ok () ↔
    (∀ r ∈ s.memoryRegions, Fits r) ∧ s.memoryRegions.Pairwise Separate := by
  have hperm := List.perm_insertionSort (fun r r' : AddrRange => r.start ≤ r'.start)
    (s.memoryRegions.map regionRange)
  have hsorted := List.pairwise_insertionSort (fun r r' : AddrRange => r.start ≤ r'.start)
    (s.memoryRegions.map regionRange)
  rw [AddressSpaceLayout.validate, except_seq_ok, checkRanges_iff]
  have husable : (∀ r ∈ (AddressSpaceLayout.fromSnapshot s).ranges, r.Usable) ↔
      ∀ r ∈ s.memoryRegions, Fits r := by
    rw [AddressSpaceLayout.fromSnapshot]
    simp only [hperm.mem_iff, List.forall_mem_map, regionRange_usable]
  rw [husable]
  refine and_congr_right fun hfits => ?_
  rw [checkOverlaps_iff (husable.mpr hfits) hsorted]
  -- Between sorted ranges, being apart is coming one before the other.
  have hneighbours : (AddressSpaceLayout.fromSnapshot s).ranges.Pairwise
        (fun r r' => r.end_.toNat ≤ r'.start.toNat) ↔
      (AddressSpaceLayout.fromSnapshot s).ranges.Pairwise AddrRange.Apart := by
    constructor
    · exact List.Pairwise.imp fun h => Or.inl h
    · intro h
      refine (h.and hsorted).imp_of_mem fun {r r'} _ hr' ⟨hapart, hle⟩ => hapart.resolve_right ?_
      have := (husable.mpr hfits r' hr').1
      have := UInt64.le_iff_toNat_le.mp hle
      omega
  have hsymm : ∀ {r r' : AddrRange}, r.Apart r' → r'.Apart r := Memory.Apart.symm
  rw [hneighbours, AddressSpaceLayout.fromSnapshot, hperm.pairwise_iff hsymm, List.pairwise_map]
  refine List.Pairwise.iff_of_mem fun {r r'} hr hr' => ?_
  rw [AddrRange.Apart, regionRange_end (hfits r hr), regionRange_end (hfits r' hr')]
  rfl

/-- The addresses of a region. -/
def Occupies (r : Proto.MemoryRegion) (a : Nat) : Prop :=
  Memory.In r.startAddr.toNat (r.startAddr.toNat + r.sizeBytes.toNat) a

/-- For regions that are not empty, being separate is having no address in common. -/
theorem separate_iff {r r' : Proto.MemoryRegion} (h : 0 < r.sizeBytes.toNat)
    (h' : 0 < r'.sizeBytes.toNat) : Separate r r' ↔ ∀ a, ¬ (Occupies r a ∧ Occupies r' a) := by
  constructor
  · intro hsep a ⟨ha, ha'⟩
    exact Memory.Apart.not_in hsep ha ha'
  · intro hno
    -- Of two ranges that meet, the later start lies in both.
    have hmax := hno (max r.startAddr.toNat r'.startAddr.toNat)
    unfold Separate Memory.Apart
    unfold Occupies Memory.In at hmax
    omega

/-- **Layout validation is exact.**  Whatever the order of the regions, it accepts them exactly when
none is empty, none reaches beyond `2 ^ 47`, and no two of them, neighbours or not, meet. -/
theorem layout_exact (s : Proto.ProcessSnapshot) :
    (AddressSpaceLayout.fromSnapshot s).validate = .ok () ↔
      (∀ r ∈ s.memoryRegions, 0 < r.sizeBytes.toNat) ∧
      (∀ r ∈ s.memoryRegions, r.startAddr.toNat + r.sizeBytes.toNat ≤ 2 ^ 47) ∧
      ∀ (i j : Nat) (r r' : Proto.MemoryRegion), i ≠ j → s.memoryRegions[i]? = some r →
        s.memoryRegions[j]? = some r' → ∀ a, ¬ (Occupies r a ∧ Occupies r' a) := by
  have hlimit : userSpaceLimit.toNat = 2 ^ 47 := rfl
  rw [layout_iff, List.pairwise_iff_getElem]
  constructor
  · rintro ⟨hfits, hpair⟩
    refine ⟨fun r hr => (hfits r hr).1, fun r hr => hlimit ▸ (hfits r hr).2, ?_⟩
    intro i j r r' hne hr hr'
    obtain ⟨hi, rfl⟩ := List.getElem?_eq_some_iff.mp hr
    obtain ⟨hj, rfl⟩ := List.getElem?_eq_some_iff.mp hr'
    have hpos := (hfits _ (List.getElem_mem hi)).1
    have hpos' := (hfits _ (List.getElem_mem hj)).1
    refine (separate_iff hpos hpos').mp ?_
    rcases Nat.lt_or_gt_of_ne hne with hlt | hgt
    · exact hpair i j hi hj hlt
    · exact Memory.Apart.symm (hpair j i hj hi hgt)
  · rintro ⟨hpos, hle, hno⟩
    refine ⟨fun r hr => ⟨hpos r hr, hlimit ▸ hle r hr⟩, fun i j hi hj hlt => ?_⟩
    refine (separate_iff (hpos _ (List.getElem_mem hi)) (hpos _ (List.getElem_mem hj))).mpr ?_
    exact hno i j _ _ (Nat.ne_of_lt hlt) (List.getElem?_eq_getElem hi) (List.getElem?_eq_getElem hj)

/-! ## Permissions -/

def protNone : Int32 := 0

def protRead : Int32 := 1

def protWrite : Int32 := 2

def protExec : Int32 := 4

/-- `as_bytes`. -/
def bytesOf (s : String) : List UInt8 := s.toList.flatMap String.utf8EncodeChar

/-- `perms_to_prot`. -/
def permsToProt (perms : String) : Int32 :=
  let bytes := bytesOf perms
  let prot := protNone
  let prot := if bytes[0]? = some 'r'.toUInt8 then prot ||| protRead else prot
  let prot := if bytes[1]? = some 'w'.toUInt8 then prot ||| protWrite else prot
  if bytes[2]? = some 'x'.toUInt8 then prot ||| protExec else prot

/-- The permissions of a mapping, as the kernel writes them. -/
def mapsPerms (r w x p : Bool) : String :=
  String.ofList [if r then 'r' else '-', if w then 'w' else '-', if x then 'x' else '-',
    if p then 'p' else 's']

/-- The bits of a protection. -/
def protBits (r w x : Bool) : Int32 :=
  (if r then protRead else 0) ||| (if w then protWrite else 0) ||| (if x then protExec else 0)

/-- A letter stands at a place of the permissions. -/
def letterAt (perms : String) (i : Nat) (c : Char) : Bool :=
  decide ((bytesOf perms)[i]? = some c.toUInt8)

/-- A protection has the bits whose letters the permissions have, each at its place, and no others;
if they are the kernel's, these are the bits it means. -/
structure Protects (perms : String) (prot : Int32) : Prop where
  letters : prot = protBits (letterAt perms 0 'r') (letterAt perms 1 'w') (letterAt perms 2 'x')
  maps : ∀ r w x p, perms = mapsPerms r w x p → prot = protBits r w x

theorem permsToProt_mapsPerms (r w x p : Bool) :
    permsToProt (mapsPerms r w x p) = protBits r w x := by
  cases r <;> cases w <;> cases x <;> cases p <;> decide

theorem permsToProt_protects (perms : String) : Protects perms (permsToProt perms) := by
  refine ⟨?_, fun r w x p h => h ▸ permsToProt_mapsPerms r w x p⟩
  simp only [permsToProt, protBits, letterAt, decide_eq_true_eq]
  split <;> split <;> split <;> rfl

end Wraith.Restore

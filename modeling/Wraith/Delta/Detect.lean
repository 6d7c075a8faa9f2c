/-
# `Wraith.Delta.Detect` — dirty detection over runs of any length

`DirtyOffsets` and `Analyze` with `int` as it is, 64 bits and signed.  The sums with the page size
may leave that range, for page sizes near its end: then the capacity of the manifest is negative, or
a slice expression has its bounds the wrong way round, and the call panics.  `buildManifest64_eq`
says when (`Sized`); on all other arguments the code computes what `buildManifest` does in unbounded
numbers.

From there on the invariant is that the detector holds the manifest of the last snapshot, and one
call compares two snapshots page by page (`mem_dirtyIn`).  `detector_exact_iff` is the statement
about a whole run.
-/
import Mathlib.Tactic.Common
import Wraith.Delta
import Wraith.Lib.Patch

namespace Wraith.Delta

open Lib

/-! ## The code on `int`s -/

/-- A sum of nonnegative `int`s, wrapped if need be. -/
theorem toInt_add_cases {a b : Int64} (ha : 0 ≤ a.toInt) (hb : 0 ≤ b.toInt) :
    (a + b).toInt = if a.toInt + b.toInt < 2 ^ 63 then a.toInt + b.toInt
      else a.toInt + b.toInt - 2 ^ 64 := by
  have hlt := Int64.toInt_lt a
  have hlt' := Int64.toInt_lt b
  rw [Int64.toInt_add]
  split
  · exact Int.bmod_eq_of_le (by omega) (by omega)
  · rw [← Int.sub_bmod_right]
    exact Int.bmod_eq_of_le (by omega) (by omega)

/-- `end`, cut off at the length of the data. -/
def pageEnd (n : Nat) (next : Int64) : Int := if next.toInt > n then n else next.toInt

/-- Behind a slice expression that does not panic, the offset has gone up. -/
theorem next_lt {n : Nat} {offset pageSize : Int64} (hp : 0 < pageSize.toInt)
    (h0 : 0 ≤ offset.toInt) (hend : offset.toInt ≤ pageEnd n (offset + pageSize)) :
    offset.toInt < (offset + pageSize).toInt := by
  have hnext := toInt_add_cases h0 (Int.le_of_lt hp)
  have hlt := Int64.toInt_lt offset
  have hlt' := Int64.toInt_lt pageSize
  unfold pageEnd at hend
  split at hend <;> split at hnext <;> omega

section Code

variable (sum64 : List UInt8 → UInt64) (data : List UInt8) (pageSize : Int64)

/-- The loop of `buildManifest`: the manifest, or the text of a panic.  With a page size of zero the
division in front of the loop has stopped the goroutine. -/
def manifestLoop (offset : Int64) : Except String (List PageHash) :=
  if offset.toInt < data.length ∧ 0 < pageSize.toInt then
    if 0 ≤ offset.toInt ∧ offset.toInt ≤ pageEnd data.length (offset + pageSize) then
      let page := (data.take (pageEnd data.length (offset + pageSize)).toNat).drop
        offset.toInt.toNat
      match manifestLoop (offset + pageSize) with
      | .ok m => .ok (⟨UInt64.ofNat offset.toInt.toNat, sum64 page⟩ :: m)
      | .error e => .error e
    else .error "slice bounds out of range"
  else .ok []
termination_by (data.length - offset.toInt).toNat
decreasing_by
  rename_i hloop hslice
  have := next_lt hloop.2 hslice.1 hslice.2
  omega

/-- `numPages`. -/
def capacity : Int64 := (Int64.ofNat data.length + pageSize - 1) / pageSize

/-- `buildManifest`. -/
def buildManifest64 : Except String (List PageHash) :=
  if pageSize = 0 then .error "integer divide by zero"
  else if capacity data pageSize < 0 then .error "makeslice: cap out of range"
  else manifestLoop sum64 data pageSize 0

/-- The loop of `DirtyOffsets` over the new manifest. -/
def dirtyIn (prev : Option (List PageHash)) (curr : List PageHash) : List Nat :=
  (curr.zipIdx.filter fun x => isDirty prev x.2 x.1).map fun x => x.1.offset.toNat

/-- `DirtyOffsets`, with the detector it leaves behind. -/
def Detector.dirtyOffsets64 (d : Detector) : Except String (List Nat × Detector) :=
  match buildManifest64 sum64 data pageSize with
  | .ok curr => .ok (dirtyIn d.prev curr, ⟨some curr⟩)
  | .error e => .error e

/-- `ChangeStats`. -/
structure ChangeStats where
  totalPages : Nat
  dirtyPages : Nat
  cleanPages : Nat
  reduction : Float
  deriving Repr

/-- The report of `Analyze`, from the two manifests. -/
def changeStats (pm cm : List PageHash) : ChangeStats :=
  let dirty := (cm.zipIdx.filter fun x => isDirty (some pm) x.2 x.1).length
  { totalPages := cm.length, dirtyPages := dirty, cleanPages := cm.length - dirty,
    reduction := if 0 < cm.length then 1.0 - Float.ofNat dirty / Float.ofNat cm.length else 0.0 }

/-- `Analyze`. -/
def analyze (prev curr : List UInt8) : Except String ChangeStats :=
  match buildManifest64 sum64 prev pageSize with
  | .error e => .error e
  | .ok pm =>
      match buildManifest64 sum64 curr pageSize with
      | .error e => .error e
      | .ok cm => .ok (changeStats pm cm)

/-- The calls of `DirtyOffsets` on one detector, up to a panic. -/
def Detector.run (d : Detector) : List (List UInt8) → Except String (List (List Nat))
  | [] => .ok []
  | data :: rest =>
      match d.dirtyOffsets64 sum64 data pageSize with
      | .error e => .error e
      | .ok (dirty, d') =>
          match d'.run rest with
          | .error e => .error e
          | .ok outs => .ok (dirty :: outs)

end Code

/-! ## When the sums stay in range -/

variable {sum64 : List UInt8 → UInt64} {data : List UInt8} {pageSize : Int64}

/-- The capacity of the manifest does not come out negative, and the end of the last page is an
`int`. -/
def Sized (pageSize : Int64) (data : List UInt8) : Prop :=
  ¬ (2 ^ 63 ≤ data.length + pageSize.toInt - 1 ∧ 2 * pageSize.toInt + data.length ≤ 2 ^ 64 + 1) ∧
    numPages data pageSize.toInt.toNat * pageSize.toInt.toNat < 2 ^ 63

theorem capacity_neg_iff (hp : 0 < pageSize.toInt) (hlen : data.length < 2 ^ 63) :
    capacity data pageSize < 0 ↔
      2 ^ 63 ≤ data.length + pageSize.toInt - 1 ∧
        2 * pageSize.toInt + data.length ≤ 2 ^ 64 + 1 := by
  have hlt := Int64.toInt_lt pageSize
  have hne : pageSize ≠ -1 := fun h => by rw [h] at hp; exact absurd hp (by decide)
  have hone : (1 : Int64).toInt = 1 := by decide
  have hsum : (Int64.ofNat data.length + pageSize - 1).toInt =
      (data.length + pageSize.toInt - 1).bmod (2 ^ 64) := by
    rw [Int64.toInt_sub, Int64.toInt_add, Int64.toInt_ofNat_of_lt hlen, Int.bmod_sub_bmod, hone]
  rw [capacity, Int64.lt_iff_toInt_lt, Int64.toInt_div_of_ne_right _ _ hne, hsum,
    show (0 : Int64).toInt = 0 by decide]
  by_cases hbig : (2 : Int) ^ 63 ≤ data.length + pageSize.toInt - 1
  · -- The sum has wrapped: the quotient is negative unless it is cut off to zero.
    have hwrap : ((data.length : Int) + pageSize.toInt - 1).bmod (2 ^ 64) =
        -(2 ^ 64 - (data.length + pageSize.toInt - 1)) := by
      rw [← Int.sub_bmod_right, Int.bmod_eq_of_le (by omega) (by omega)]
      omega
    rw [hwrap, Int.neg_tdiv, Int.tdiv_eq_ediv_of_nonneg (by omega), Int.neg_lt_zero_iff,
      and_iff_right hbig, ← Int.add_one_le_iff, Int.le_ediv_iff_mul_le hp]
    omega
  · rw [Int.bmod_eq_of_le (by omega) (by omega), Int.tdiv_eq_ediv_of_nonneg (by omega)]
    have := Int.ediv_nonneg (a := data.length + pageSize.toInt - 1) (b := pageSize.toInt)
      (by omega) (by omega)
    omega

section Loop

variable (sum64) {size start : Nat} {offset : Int64}

/-- A round whose end is in range: the page at its start, and the pages behind it. -/
theorem manifestLoop_step (hp : 0 < pageSize.toInt) (hsize : pageSize.toInt = size)
    (hoff : offset.toInt = start) (hlt : start < data.length) (hfits : start + size < 2 ^ 63) :
    (offset + pageSize).toInt = (start + size : Nat) ∧
      manifestLoop sum64 data pageSize offset =
        (manifestLoop sum64 data pageSize (offset + pageSize)).map
          (⟨UInt64.ofNat start, sum64 (pageAt data size start)⟩ :: ·) := by
  have hnext := toInt_add_cases (a := offset) (b := pageSize) (by omega) (by omega)
  rw [if_pos (by omega)] at hnext
  have hslice : 0 ≤ offset.toInt ∧ offset.toInt ≤ pageEnd data.length (offset + pageSize) := by
    unfold pageEnd
    split <;> omega
  have hend : (pageEnd data.length (offset + pageSize)).toNat = min (start + size) data.length := by
    unfold pageEnd
    split <;> omega
  have hpage : (data.take (pageEnd data.length (offset + pageSize)).toNat).drop start
      = pageAt data size start := by
    rw [pageAt, hend]
  refine ⟨by omega, ?_⟩
  rw [manifestLoop, if_pos ⟨by omega, hp⟩, if_pos hslice]
  simp only [hoff, Int.toNat_natCast, hpage]
  cases manifestLoop sum64 data pageSize (offset + pageSize) with
  | ok m => rfl
  | error e => rfl

/-- A round whose end is out of range. -/
theorem manifestLoop_overflow (hp : 0 < pageSize.toInt) (hsize : pageSize.toInt = size)
    (hoff : offset.toInt = start) (hlt : start < data.length) (hover : 2 ^ 63 ≤ start + size) :
    manifestLoop sum64 data pageSize offset = .error "slice bounds out of range" := by
  have hnext := toInt_add_cases (a := offset) (b := pageSize) (by omega) (by omega)
  rw [if_neg (by omega)] at hnext
  have hslice : ¬ (0 ≤ offset.toInt ∧ offset.toInt ≤
      pageEnd data.length (offset + pageSize)) := by
    have hlt' := Int64.toInt_lt pageSize
    unfold pageEnd
    split <;> omega
  rw [manifestLoop, if_pos ⟨by omega, hp⟩, if_neg hslice]

/-- The loop, from the start of a page on, by induction on the pages left: what it computes is what
the loop in unbounded numbers does, unless the end of the last page is out of range. -/
theorem manifestLoop_eq (hp : 0 < pageSize.toInt) (hlen : data.length < 2 ^ 63)
    (hsize : pageSize.toInt = size) : ∀ (n k : Nat) (offset : Int64),
      k + n = numPages data size → offset.toInt = (k * size : Nat) →
        (numPages data size * size < 2 ^ 63 →
          manifestLoop sum64 data pageSize offset = .ok (manifestFrom sum64 data size (k * size))) ∧
        (2 ^ 63 ≤ numPages data size * size → 0 < n →
          manifestLoop sum64 data pageSize offset = .error "slice bounds out of range")
  | 0, k, offset, hk, hoff => by
      have hpos : 0 < size := by omega
      have hge : ¬ k * size < data.length := fun h => by
        have := (lt_numPages_iff hpos).mpr h
        omega
      refine ⟨fun _ => ?_, fun _ h => absurd h (Nat.lt_irrefl 0)⟩
      rw [manifestLoop, if_neg (fun h => hge (by omega)), manifestFrom, if_neg (fun h => hge h.1)]
  | n + 1, k, offset, hk, hoff => by
      have hpos : 0 < size := by omega
      have hlt : k * size < data.length := (lt_numPages_iff hpos).mp (by omega)
      have hmul : (k + 1) * size = k * size + size := Nat.succ_mul k size
      have hlast : n = 0 → numPages data size * size = (k + 1) * size := fun h => by
        rw [← hk, h]
      have hmore : 0 < n → (k + 1) * size < data.length := fun h =>
        (lt_numPages_iff hpos).mp (by omega)
      by_cases hfits : k * size + size < 2 ^ 63
      · obtain ⟨hnext, hstep⟩ := manifestLoop_step sum64 hp hsize hoff hlt hfits
        obtain ⟨hok, herr⟩ := manifestLoop_eq hp hlen hsize n (k + 1) (offset + pageSize) (by omega)
          (by omega)
        rw [hstep]
        refine ⟨fun hall => ?_, fun hall _ => ?_⟩
        · have hfrom : manifestFrom sum64 data size (k * size) =
              ⟨UInt64.ofNat (k * size), sum64 (pageAt data size (k * size))⟩ ::
                manifestFrom sum64 data size ((k + 1) * size) := by
            rw [manifestFrom, if_pos ⟨hlt, hpos⟩, hmul]
          rw [hok hall, hfrom]
          rfl
        · rw [herr hall (Nat.pos_of_ne_zero fun h => by have := hlast h; omega)]
          rfl
      · -- This is the last page.
        have hzero : n = 0 := Nat.eq_zero_of_not_pos fun h => by have := hmore h; omega
        have := hlast hzero
        exact ⟨fun hall => by omega,
          fun _ _ => manifestLoop_overflow sum64 hp hsize hoff hlt (by omega)⟩

end Loop

/-- `buildManifest` computes what it should, on arguments that are `Sized`, and on no others. -/
theorem buildManifest64_eq (hp : 0 < pageSize.toInt) (hlen : data.length < 2 ^ 63) :
    (Sized pageSize data → buildManifest64 sum64 data pageSize =
      .ok (buildManifest sum64 data pageSize.toInt.toNat)) ∧
    (¬ Sized pageSize data → ∃ e, buildManifest64 sum64 data pageSize = .error e) := by
  have hsize : pageSize.toInt = pageSize.toInt.toNat := (Int.toNat_of_nonneg (by omega)).symm
  have hne : pageSize ≠ 0 := fun h => by rw [h] at hp; exact absurd hp (by decide)
  obtain ⟨hok, herr⟩ := manifestLoop_eq sum64 hp hlen hsize _ 0 0 (Nat.zero_add _)
    (by rw [Nat.zero_mul]; decide)
  rw [Nat.zero_mul] at hok
  rw [buildManifest64, if_neg hne]
  by_cases hcap : capacity data pageSize < 0
  · rw [if_pos hcap]
    exact ⟨fun h => absurd ((capacity_neg_iff hp hlen).mp hcap) h.1, fun _ => ⟨_, rfl⟩⟩
  · rw [if_neg hcap]
    have hcap' := (capacity_neg_iff hp hlen).not.mp hcap
    refine ⟨fun h => hok h.2, fun h => ⟨_, herr (by_contra fun hlt => h ⟨hcap', by omega⟩) ?_⟩⟩
    -- Without pages there is nothing to go wrong.
    refine Nat.pos_of_ne_zero fun hzero => h ⟨hcap', ?_⟩
    rw [hzero, Nat.zero_mul]
    decide

/-- Then `DirtyOffsets` is the one in unbounded numbers. -/
theorem Detector.dirtyOffsets64_eq (d : Detector) (hp : 0 < pageSize.toInt)
    (hlen : data.length < 2 ^ 63) (h : Sized pageSize data) :
    d.dirtyOffsets64 sum64 data pageSize =
      .ok (d.dirtyOffsets sum64 data pageSize.toInt.toNat) := by
  rw [dirtyOffsets64, (buildManifest64_eq hp hlen).1 h]
  rfl

/-! ## One call -/

/-- The page at `offset` was not there before, or it was another. -/
def Changed (size : Nat) (prev : Option (List UInt8)) (data : List UInt8) (offset : Nat) : Prop :=
  ∀ old, prev = some old → old.length ≤ offset ∨ pageAt old size offset ≠ pageAt data size offset

/-- The hash tells the pages of these snapshots apart. -/
def Distinguishes (sum64 : List UInt8 → UInt64) (size : Nat) (snapshots : List (List UInt8)) :
    Prop :=
  ∀ D ∈ snapshots, ∀ D' ∈ snapshots, ∀ k k', k * size < D.length → k' * size < D'.length →
    sum64 (pageAt D size (k * size)) = sum64 (pageAt D' size (k' * size)) →
      pageAt D size (k * size) = pageAt D' size (k' * size)

/-- Data cut off or filled up with zeros to length `n`. -/
def resize (data : List UInt8) (n : Nat) : List UInt8 :=
  data.take n ++ List.replicate (n - data.length) 0

/-- What is asked of one call: the offsets of the changed pages in order, enough to rebuild the
snapshot from the one before, and as many as `Analyze` counts. -/
structure CallExact (sum64 : List UInt8 → UInt64) (pageSize : Int64) (prev : Option (List UInt8))
    (data : List UInt8) (dirty : List Nat) : Prop where
  increasing : dirty.Pairwise (· < ·)
  changed : ∀ offset, offset ∈ dirty ↔ pageSize.toInt.toNat ∣ offset ∧ offset < data.length ∧
    Changed pageSize.toInt.toNat prev data offset
  rebuilds : ∀ old, prev = some old → writeAll (resize old data.length)
    (dirty.map fun offset => (offset, pageAt data pageSize.toInt.toNat offset)) = data
  counted : ∀ old, prev = some old → ∃ stats, analyze sum64 pageSize old data = .ok stats ∧
    stats.totalPages = numPages data pageSize.toInt.toNat ∧ stats.dirtyPages = dirty.length ∧
    stats.cleanPages + dirty.length = stats.totalPages

variable {size : Nat} {prev : Option (List UInt8)}

theorem resize_length (old : List UInt8) (n : Nat) : (resize old n).length = n := by
  rw [resize, List.length_append, List.length_take, List.length_replicate]
  omega

theorem resize_get {old : List UInt8} {n i : Nat} (hi : i < n) (hold : i < old.length) :
    (resize old n)[i]? = old[i]? := by
  rw [resize, List.getElem?_append_left (by rw [List.length_take]; omega),
    List.getElem?_take_of_lt hi]

/-- The manifest of the snapshot before. -/
def manifestOf (sum64 : List UInt8 → UInt64) (size : Nat) (prev : Option (List UInt8)) :
    Option (List PageHash) := prev.map fun old => buildManifest sum64 old size

/-- The entry of page `k`. -/
def entryAt (sum64 : List UInt8 → UInt64) (data : List UInt8) (size k : Nat) : PageHash :=
  ⟨UInt64.ofNat (k * size), sum64 (pageAt data size (k * size))⟩

theorem zipIdx_map_range {α : Type} (f : Nat → α) (n : Nat) :
    ((List.range n).map f).zipIdx = (List.range n).map fun k => (f k, k) := by
  apply List.ext_getElem?
  intro i
  simp only [List.getElem?_zipIdx, List.getElem?_map]
  by_cases hi : i < n
  · simp [hi]
  · simp [hi]

/-- The dirty pages, by their numbers. -/
theorem dirty_eq (hp : 0 < size) (m : Option (List PageHash)) :
    (buildManifest sum64 data size).zipIdx.filter (fun x => isDirty m x.2 x.1) =
      ((List.range (numPages data size)).filter fun k =>
        isDirty m k (entryAt sum64 data size k)).map
        fun k => (entryAt sum64 data size k, k) := by
  rw [buildManifest_eq hp, zipIdx_map_range, List.filter_map]
  rfl

theorem dirtyIn_eq (hp : 0 < size) (hlen : data.length < 2 ^ 64) (m : Option (List PageHash)) :
    dirtyIn m (buildManifest sum64 data size) =
      ((List.range (numPages data size)).filter fun k =>
        isDirty m k (entryAt sum64 data size k)).map (· * size) := by
  rw [dirtyIn, dirty_eq hp, List.map_map]
  refine List.map_congr_left fun k hk => ?_
  have hlt := (lt_numPages_iff hp).mp (List.mem_range.mp (List.mem_filter.mp hk).1)
  simp only [Function.comp_apply, entryAt]
  rw [UInt64.toNat_ofNat', Nat.mod_eq_of_lt (by omega)]

/-- A page is called dirty if it has changed. -/
theorem isDirty_iff (hp : 0 < size) (hsum : Distinguishes sum64 size (prev.toList ++ [data]))
    {k : Nat} (hk : k * size < data.length) :
    isDirty (manifestOf sum64 size prev) k (entryAt sum64 data size k) = true ↔
      Changed size prev data (k * size) := by
  cases prev with
  | none => exact ⟨fun _ old h => (nomatch h), fun _ => rfl⟩
  | some old =>
      have hentry : (buildManifest sum64 old size)[k]? =
          if k * size < old.length then some (entryAt sum64 old size k) else none := by
        rw [buildManifest_eq hp, List.getElem?_map]
        by_cases hlt : k < numPages old size
        · rw [List.getElem?_range hlt, if_pos ((lt_numPages_iff hp).mp hlt)]
          rfl
        · rw [List.getElem?_eq_none (by rw [List.length_range]; omega),
            if_neg ((lt_numPages_iff hp).not.mp hlt)]
          rfl
      have hchanged : Changed size (some old) data (k * size) ↔ old.length ≤ k * size ∨
          pageAt old size (k * size) ≠ pageAt data size (k * size) :=
        ⟨fun h => h old rfl, fun h o ho => Option.some.inj ho ▸ h⟩
      rw [hchanged, manifestOf, Option.map_some, isDirty, hentry]
      by_cases hold : k * size < old.length
      · have hsame := hsum data (by simp) old (by simp) k k hk hold
        simp only [if_pos hold, bne_iff_ne, ne_eq, entryAt]
        refine ⟨fun h => Or.inr fun heq => h (by rw [heq]), fun h heq => ?_⟩
        exact h.resolve_left (by omega) (hsame heq).symm
      · simp only [if_neg hold, true_iff]
        exact Or.inl (by omega)

/-- The numbers of the changed pages. -/
theorem mem_dirtyIn (hp : 0 < size) (hlen : data.length < 2 ^ 64)
    (hsum : Distinguishes sum64 size (prev.toList ++ [data])) {offset : Nat} :
    offset ∈ dirtyIn (manifestOf sum64 size prev) (buildManifest sum64 data size) ↔
      size ∣ offset ∧ offset < data.length ∧ Changed size prev data offset := by
  rw [dirtyIn_eq hp hlen, List.mem_map]
  constructor
  · rintro ⟨k, hk, rfl⟩
    obtain ⟨hrange, hdirty⟩ := List.mem_filter.mp hk
    have hlt := (lt_numPages_iff hp).mp (List.mem_range.mp hrange)
    exact ⟨Nat.dvd_mul_left _ _, hlt, (isDirty_iff hp hsum hlt).mp hdirty⟩
  · rintro ⟨⟨k, rfl⟩, hlt, hchanged⟩
    rw [Nat.mul_comm] at hlt hchanged ⊢
    refine ⟨k, List.mem_filter.mpr ⟨?_, (isDirty_iff hp hsum hlt).mpr hchanged⟩, rfl⟩
    exact List.mem_range.mpr ((lt_numPages_iff hp).mpr hlt)

theorem dirtyIn_increasing (hp : 0 < size) (hlen : data.length < 2 ^ 64)
    (m : Option (List PageHash)) :
    (dirtyIn m (buildManifest sum64 data size)).Pairwise (· < ·) := by
  rw [dirtyIn_eq hp hlen, List.pairwise_map]
  refine (List.pairwise_lt_range.filter _).imp fun hlt => ?_
  exact Nat.mul_lt_mul_of_pos_right hlt hp

/-- Overwriting the changed pages in the old snapshot gives the new one. -/
theorem rebuild (hp : 0 < size) {old : List UInt8} {dirty : List Nat}
    (hdirty : ∀ offset, offset ∈ dirty ↔
      size ∣ offset ∧ offset < data.length ∧ Changed size (some old) data offset) :
    writeAll (resize old data.length) (dirty.map fun offset => (offset, pageAt data size offset))
      = data := by
  have hlen := resize_length old data.length
  have hwithin : Within (resize old data.length).length
      (dirty.map fun offset => (offset, pageAt data size offset)) := by
    intro w hw
    obtain ⟨offset, hoff, rfl⟩ := List.mem_map.mp hw
    have hlt := ((hdirty offset).mp hoff).2.1
    rw [hlen, pageAt_length]
    omega
  apply List.ext_getElem?
  intro i
  by_cases hi : i < data.length
  · by_cases hcovered : ∃ w ∈ dirty.map (fun offset => (offset, pageAt data size offset)),
      Touches w i
    · obtain ⟨w, hw, ⟨hle, hlt⟩, hget⟩ := writeAll_covered hwithin hcovered
      obtain ⟨offset, -, rfl⟩ := List.mem_map.mp hw
      simp only [pageAt_length] at hle hlt
      rw [hget, pageAt_get hle (by omega)]
    · -- The page of `i` has not changed.
      obtain ⟨k, -, hle, hlt⟩ := exists_page hp hi
      have hstart : k * size < data.length := by omega
      have hsame : ¬ Changed size (some old) data (k * size) := fun h => hcovered
        ⟨_, List.mem_map_of_mem ((hdirty _).mpr ⟨Nat.dvd_mul_left _ _, hstart, h⟩), hle, hlt⟩
      have hpage : k * size < old.length ∧ pageAt old size (k * size) = pageAt data size
          (k * size) := by
        by_contra hno
        refine hsame fun o ho => ?_
        obtain rfl := Option.some.inj ho
        by_cases hold : k * size < old.length
        · exact Or.inr fun heq => hno ⟨hold, heq⟩
        · exact Or.inl (Nat.le_of_not_lt hold)
      rw [pageAt_length] at hlt
      have hget : old[i]? = data[i]? := by
        rw [← pageAt_get hle (by omega : i < k * size + size), hpage.2, pageAt_get hle (by omega)]
      have hold : i < old.length := by
        by_contra hge
        rw [List.getElem?_eq_none (Nat.le_of_not_lt hge), List.getElem?_eq_getElem hi] at hget
        exact nomatch hget
      rw [writeAll_uncovered hwithin fun w hw htouch => hcovered ⟨w, hw, htouch⟩,
        resize_get hi hold, hget]
  · have := writeAll_length hwithin
    rw [List.getElem?_eq_none (by omega), List.getElem?_eq_none (by omega)]

/-- One call on a snapshot whose predecessor is known. -/
theorem callExact (hp : 0 < pageSize.toInt) (hlen : data.length < 2 ^ 63)
    (hsized : Sized pageSize data)
    (hprev : ∀ old, prev = some old → old.length < 2 ^ 63 ∧ Sized pageSize old)
    (hsum : Distinguishes sum64 pageSize.toInt.toNat (prev.toList ++ [data])) :
    CallExact sum64 pageSize prev data
      (dirtyIn (manifestOf sum64 pageSize.toInt.toNat prev)
        (buildManifest sum64 data pageSize.toInt.toNat)) := by
  have hpos : 0 < pageSize.toInt.toNat := by omega
  have hmem : ∀ offset, offset ∈ dirtyIn _ (buildManifest sum64 data pageSize.toInt.toNat) ↔ _ :=
    fun _ => mem_dirtyIn hpos (by omega) hsum
  refine ⟨dirtyIn_increasing hpos (by omega) _, hmem, ?_, ?_⟩
  · rintro old rfl
    exact rebuild hpos hmem
  · rintro old rfl
    obtain ⟨hold, hsized'⟩ := hprev old rfl
    refine ⟨_, by rw [analyze, (buildManifest64_eq hp hold).1 hsized',
      (buildManifest64_eq hp hlen).1 hsized], ?_, ?_, ?_⟩
    · rw [changeStats, buildManifest_eq hpos, List.length_map, List.length_range]
    · rw [dirtyIn, List.length_map]
      rfl
    · rw [dirtyIn, List.length_map]
      have hle := List.length_filter_le (fun x => isDirty (manifestOf sum64 pageSize.toInt.toNat
        (some old)) x.2 x.1) (buildManifest sum64 data pageSize.toInt.toNat).zipIdx
      rw [List.length_zipIdx] at hle
      exact Nat.sub_add_cancel hle

/-! ## Runs -/

/-- Every call of a run is exact. -/
def RunExact (sum64 : List UInt8 → UInt64) (pageSize : Int64) :
    Option (List UInt8) → List (List UInt8) → List (List Nat) → Prop
  | _, [], [] => True
  | prev, data :: rest, dirty :: outs =>
      CallExact sum64 pageSize prev data dirty ∧ RunExact sum64 pageSize (some data) rest outs
  | _, _, _ => False

/-- From a detector that holds the manifest of the snapshot before, by induction on the snapshots.
-/
theorem run_exact (hp : 0 < pageSize.toInt) : ∀ (snapshots : List (List UInt8))
    (prev : Option (List UInt8)), (∀ D ∈ prev.toList ++ snapshots, D.length < 2 ^ 63) →
      (∀ D ∈ prev.toList ++ snapshots, Sized pageSize D) →
      Distinguishes sum64 pageSize.toInt.toNat (prev.toList ++ snapshots) →
        ∃ outs, Detector.run sum64 pageSize ⟨manifestOf sum64 pageSize.toInt.toNat prev⟩ snapshots
          = .ok outs ∧ RunExact sum64 pageSize prev snapshots outs
  | [], prev, _, _, _ => ⟨[], rfl, trivial⟩
  | data :: rest, prev, hlen, hsized, hsum => by
      have hmem : ∀ D, D ∈ prev.toList ++ [data] → D ∈ prev.toList ++ data :: rest := fun D hD => by
        simp only [List.mem_append, List.mem_cons, List.not_mem_nil, or_false] at hD ⊢
        exact hD.imp_right Or.inl
      have hmem' : ∀ D, D ∈ (some data).toList ++ rest → D ∈ prev.toList ++ data :: rest :=
        fun D hD => by
          simp only [Option.toList_some, List.mem_append, List.mem_cons, List.not_mem_nil,
            or_false] at hD ⊢
          exact Or.inr hD
      have hdata : data ∈ prev.toList ++ data :: rest := by simp
      obtain ⟨outs, hrun, hexact⟩ := run_exact hp rest (some data) (fun D hD => hlen D (hmem' D hD))
        (fun D hD => hsized D (hmem' D hD))
        fun D hD D' hD' => hsum D (hmem' D hD) D' (hmem' D' hD')
      have hcall := callExact hp (hlen data hdata) (hsized data hdata)
        (fun old hold => ⟨hlen old (by simp [hold]), hsized old (by simp [hold])⟩)
        fun D hD D' hD' => hsum D (hmem D hD) D' (hmem D' hD')
      refine ⟨_ :: outs, ?_, hcall, hexact⟩
      rw [Detector.run, Detector.dirtyOffsets64_eq _ hp (hlen data hdata) (hsized data hdata)]
      rw [manifestOf, Option.map_some] at hrun
      simp only [Detector.dirtyOffsets, hrun]
      rfl

/-- A call that does not panic has sums that stay in range. -/
theorem run_sized (hp : 0 < pageSize.toInt) : ∀ {snapshots : List (List UInt8)} {d : Detector}
    {outs : List (List Nat)}, (∀ D ∈ snapshots, D.length < 2 ^ 63) →
      d.run sum64 pageSize snapshots = .ok outs → ∀ D ∈ snapshots, Sized pageSize D
  | [], _, _, _, _ => fun _ hD => absurd hD List.not_mem_nil
  | data :: rest, d, outs, hlen, h => by
      have hdata := hlen data List.mem_cons_self
      rw [Detector.run] at h
      have hsized : Sized pageSize data := by
        by_contra hno
        obtain ⟨e, herr⟩ : ∃ e, buildManifest64 sum64 data pageSize = .error e :=
          (buildManifest64_eq hp hdata).2 hno
        rw [Detector.dirtyOffsets64, herr] at h
        cases h
      rw [Detector.dirtyOffsets64_eq d hp hdata hsized] at h
      simp only [Detector.dirtyOffsets] at h
      split at h
      · cases h
      · rename_i outs' hrest
        have hrest' := run_sized hp (fun D hD => hlen D (List.mem_cons_of_mem _ hD)) hrest
        exact List.forall_mem_cons.mpr ⟨hsized, hrest'⟩

/-- **Dirty detection.**  On a new detector, over any snapshots whose pages the hash tells apart:
every call is exact if and only if the sums with the page size stay in range on each of them. -/
theorem detector_exact_iff {snapshots : List (List UInt8)} (hp : 0 < pageSize.toInt)
    (hlen : ∀ D ∈ snapshots, D.length < 2 ^ 63)
    (hsum : Distinguishes sum64 pageSize.toInt.toNat snapshots) :
    (∃ outs, newDetector.run sum64 pageSize snapshots = .ok outs ∧
      RunExact sum64 pageSize none snapshots outs) ↔ ∀ D ∈ snapshots, Sized pageSize D := by
  constructor
  · rintro ⟨outs, hrun, -⟩
    exact run_sized hp hlen hrun
  · intro hsized
    exact run_exact hp snapshots none hlen hsized hsum

/-- The largest page size there is, and two bytes: the rounded-up page count is -1. -/
theorem largest_page_panics :
    Distinguishes (fun _ => 0) (Int64.maxValue).toInt.toNat [[0, 0]] ∧
      newDetector.run (fun _ => 0) Int64.maxValue [[0, 0]] = .error "makeslice: cap out of range" ∧
      ¬ ∃ outs, newDetector.run (fun _ => 0) Int64.maxValue [[0, 0]] = .ok outs ∧
        RunExact (fun _ => 0) Int64.maxValue none [[0, 0]] outs := by
  have hpanic : newDetector.run (fun _ => 0) Int64.maxValue [[0, 0]] =
      .error "makeslice: cap out of range" := by
    rw [Detector.run, Detector.dirtyOffsets64, buildManifest64,
      if_neg (by decide), if_pos (by decide)]
  refine ⟨?_, hpanic, fun ⟨outs, hok, _⟩ => by rw [hpanic] at hok; exact nomatch hok⟩
  intro D hD D' hD' k k' hk hk' _
  obtain rfl := List.mem_singleton.mp hD
  obtain rfl := List.mem_singleton.mp hD'
  have hsize : (Int64.maxValue).toInt.toNat = 9223372036854775807 := by decide
  rw [hsize, List.length_cons, List.length_singleton] at hk hk'
  obtain rfl : k = 0 := by omega
  obtain rfl : k' = 0 := by omega
  rfl

/-- The first byte is the hash. -/
def headHash (page : List UInt8) : UInt64 := (page.headD 0).toUInt64

theorem detector_exact_iff_bytes :
    (∃ outs, newDetector.run headHash 1 [[1], [2]] = .ok outs ∧
      RunExact headHash 1 none [[1], [2]] outs) ↔ ∀ D ∈ [[1], [2]], Sized 1 D := by
  refine detector_exact_iff (by decide) (by decide) fun D hD D' hD' k k' hk hk' => ?_
  have hsize : (1 : Int64).toInt.toNat = 1 := by decide
  have hone : ∀ E ∈ [[(1 : UInt8)], [2]], E.length = 1 := by decide
  rw [hsize] at hk hk' ⊢
  have h1 := hone D hD
  have h1' := hone D' hD'
  obtain rfl : k = 0 := by omega
  obtain rfl : k' = 0 := by omega
  revert D D'
  decide

end Wraith.Delta

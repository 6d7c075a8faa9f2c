/-
# `Wraith.Delta` — page manifests and dirty offsets

`pkg/delta/delta.go`: data is cut into pages, each page is hashed, and a page is dirty when its hash
differs from the one at the same position of the previous call.  The hash is a parameter.

`buildManifest_eq` solves the offset loop: page `k` starts at `k * pageSize`, for each `k` below the
rounded-up page count.  `dirtyOffsets_first` says that a fresh detector calls every page dirty.
-/
import Mathlib.Data.List.Range
import Mathlib.Tactic.Linarith

namespace Wraith.Delta

/-- The hash of one page at its offset. -/
structure PageHash where
  offset : UInt64
  hash : UInt64
  deriving DecidableEq, Repr

/-- The previous call's manifest; `none` is the nil slice of a new detector. -/
structure Detector where
  prev : Option (List PageHash)
  deriving DecidableEq, Repr

def newDetector : Detector := ⟨none⟩

variable (sum64 : List UInt8 → UInt64) (data : List UInt8) (pageSize : Nat)

/-- `data[offset:end]` with `end` cut off at the length of the data. -/
def pageAt (offset : Nat) : List UInt8 :=
  (data.take (min (offset + pageSize) data.length)).drop offset

/-- The loop of `buildManifest`.  It runs on a positive page size: with zero the division in front
of it has stopped the goroutine. -/
def manifestFrom (offset : Nat) : List PageHash :=
  if offset < data.length ∧ 0 < pageSize then
    ⟨UInt64.ofNat offset, sum64 (pageAt data pageSize offset)⟩ :: manifestFrom (offset + pageSize)
  else []
termination_by data.length - offset

/-- `buildManifest`. -/
def buildManifest : List PageHash := manifestFrom sum64 data pageSize 0

/-- The test of `DirtyOffsets` on page `i`. -/
def isDirty (prev : Option (List PageHash)) (i : Nat) (p : PageHash) : Bool :=
  match prev with
  | none => true
  | some m => match m[i]? with
    | none => true
    | some q => p.hash != q.hash

/-- `DirtyOffsets`, with the detector it leaves behind. -/
def Detector.dirtyOffsets (d : Detector) : List Nat × Detector :=
  let curr := buildManifest sum64 data pageSize
  ((curr.zipIdx.filter fun x => isDirty d.prev x.2 x.1).map fun x => x.1.offset.toNat, ⟨some curr⟩)

/-! ## The offset loop, solved -/

/-- The number of pages, rounded up. -/
def numPages : Nat := (data.length + pageSize - 1) / pageSize

variable {sum64} {data} {pageSize}

theorem lt_numPages_iff (hp : 0 < pageSize) {k : Nat} :
    k < numPages data pageSize ↔ k * pageSize < data.length := by
  rw [numPages, Nat.lt_iff_add_one_le, Nat.le_div_iff_mul_le hp, Nat.add_mul, Nat.one_mul]
  omega

theorem manifestFrom_eq (hp : 0 < pageSize) : ∀ (n k : Nat), k + n = numPages data pageSize →
    manifestFrom sum64 data pageSize (k * pageSize) = (List.range' k n).map fun k =>
      ⟨UInt64.ofNat (k * pageSize), sum64 (pageAt data pageSize (k * pageSize))⟩
  | 0, k, hk => by
      have hge : ¬ k * pageSize < data.length := fun h => by
        have := (lt_numPages_iff hp).mpr h
        omega
      rw [manifestFrom, if_neg (fun h => hge h.1)]
      rfl
  | n + 1, k, hk => by
      have hlt : k * pageSize < data.length := (lt_numPages_iff hp).mp (by omega)
      have ih := manifestFrom_eq hp n (k + 1) (by omega)
      rw [manifestFrom, if_pos ⟨hlt, hp⟩, ← Nat.succ_mul, ih]
      rfl

theorem buildManifest_eq (hp : 0 < pageSize) :
    buildManifest sum64 data pageSize = (List.range (numPages data pageSize)).map fun k =>
      ⟨UInt64.ofNat (k * pageSize), sum64 (pageAt data pageSize (k * pageSize))⟩ := by
  rw [buildManifest, ← Nat.zero_mul pageSize, manifestFrom_eq hp _ 0 (Nat.zero_add _),
    List.range_eq_range']

/-- Every page of a first call is dirty. -/
theorem dirtyOffsets_first (hp : 0 < pageSize) (hlen : data.length < 2 ^ 64) :
    (newDetector.dirtyOffsets sum64 data pageSize).1
      = (List.range (numPages data pageSize)).map (· * pageSize) := by
  have hall : ∀ l : List (PageHash × Nat),
      l.filter (fun x => isDirty newDetector.prev x.2 x.1) = l := fun l =>
    List.filter_eq_self.mpr fun _ _ => rfl
  have hcomp : ∀ l : List PageHash, l.zipIdx.map (fun x => x.1.offset.toNat)
      = l.map fun p => p.offset.toNat := fun l => by
    conv_rhs => rw [← List.zipIdx_map_fst 0 l, List.map_map]
    rfl
  simp only [Detector.dirtyOffsets, hall]
  rw [hcomp, buildManifest_eq hp, List.map_map]
  apply List.map_congr_left
  intro k hk
  have hlt := (lt_numPages_iff hp).mp (List.mem_range.mp hk)
  simp only [Function.comp_apply]
  rw [UInt64.toNat_ofNat', Nat.mod_eq_of_lt (by omega)]

/-! ## Pages -/

theorem pageAt_length (offset : Nat) :
    (pageAt data pageSize offset).length = min (offset + pageSize) data.length - offset := by
  rw [pageAt, List.length_drop, List.length_take, Nat.min_assoc, Nat.min_self]

theorem pageAt_get {offset i : Nat} (hle : offset ≤ i) (hlt : i < offset + pageSize) :
    (pageAt data pageSize offset)[i - offset]? = data[i]? := by
  rw [pageAt, List.getElem?_drop, Nat.add_sub_cancel' hle, List.getElem?_take]
  split
  · rfl
  · rw [List.getElem?_eq_none (by omega)]

/-- Each position lies on one of the pages. -/
theorem exists_page (hp : 0 < pageSize) {i : Nat} (hi : i < data.length) :
    ∃ k, k < numPages data pageSize ∧ k * pageSize ≤ i ∧
      i < k * pageSize + (pageAt data pageSize (k * pageSize)).length := by
  have hdiv : i / pageSize * pageSize ≤ i := Nat.div_mul_le_self i pageSize
  have hlt : i < i / pageSize * pageSize + pageSize := by
    have := Nat.lt_div_mul_add hp (a := i)
    omega
  refine ⟨i / pageSize, (lt_numPages_iff hp).mpr (by omega), hdiv, ?_⟩
  rw [pageAt_length]
  omega

/-- The pages' lengths add up to the data's. -/
theorem sum_pageAt_length (hp : 0 < pageSize) :
    ((List.range (numPages data pageSize)).map fun k =>
      (pageAt data pageSize (k * pageSize)).length).sum = data.length := by
  -- The first `n` pages hold the first `n * pageSize` bytes, as far as there are any.
  have hpart : ∀ n, ((List.range n).map fun k =>
      (pageAt data pageSize (k * pageSize)).length).sum = min (n * pageSize) data.length := by
    intro n
    induction n with
    | zero => simp
    | succ n ih =>
        rw [List.range_succ, List.map_append, List.sum_append, ih, List.map_singleton,
          List.sum_singleton, pageAt_length, Nat.succ_mul]
        omega
  have hge : ¬ numPages data pageSize * pageSize < data.length := fun h =>
    absurd ((lt_numPages_iff hp).mpr h) (Nat.lt_irrefl _)
  rw [hpart]
  omega

end Wraith.Delta

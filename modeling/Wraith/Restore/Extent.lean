/-
# `Wraith.Restore.Extent` — how far a layout reaches, and how much it holds

The rest of `aslr.rs`: the first page above every region, the test of a range against the regions,
and the total size, which `wraith-restorer` computes a second time for its log.  All of it is 64-bit
arithmetic that would wrap, a sum of sizes or a rounding near `2 ^ 64`.  What keeps it exact is
what `validate` has established: ranges that lie in user space, one behind the other.
-/
import Wraith.Restore.Layout

namespace Wraith.Restore

open Lib Process

/-! ## The functions -/

/-- `PAGE`. -/
def page : UInt64 := 4096

/-- The greatest end of a range, or one page when there is none. -/
def AddressSpaceLayout.maxEnd (layout : AddressSpaceLayout) : UInt64 :=
  (layout.ranges.map AddrRange.end_).max?.getD page

/-- `find_safe_base`. -/
def AddressSpaceLayout.findSafeBase (layout : AddressSpaceLayout) : UInt64 :=
  (layout.maxEnd + page - 1) &&& ~~~(page - 1)

/-- `conflicts_with`. -/
def AddressSpaceLayout.conflictsWith (layout : AddressSpaceLayout) (candidate : AddrRange) : Bool :=
  layout.ranges.any fun r => r.overlaps candidate

/-- A sum of `u64`s, as it wraps without overflow checks. -/
def sumU64 (ns : List UInt64) : UInt64 := ns.foldl (· + ·) 0

/-- The same with overflow checks, which panic. -/
def sumChecked (ns : List UInt64) : Option UInt64 :=
  ns.foldlM (fun total n => if total.toNat + n.toNat < 2 ^ 64 then some (total + n) else none) 0

/-- `total_bytes`. -/
def AddressSpaceLayout.totalBytes (layout : AddressSpaceLayout) : UInt64 :=
  sumU64 (layout.ranges.map AddrRange.size)

/-- The sum behind `total_mb`. -/
def regionBytes (s : Proto.ProcessSnapshot) : UInt64 :=
  sumU64 (s.memoryRegions.map Proto.MemoryRegion.sizeBytes)

/-! ## Rounding up to a page -/

theorem mask_bits : ∀ i < 64, (~~~(page - 1)).toBitVec.getLsbD i = decide (12 ≤ i) := by decide

/-- Clearing the low twelve bits is rounding down to a page. -/
theorem clear_low (n : UInt64) : (n &&& ~~~(page - 1)).toNat = n.toNat / 4096 * 4096 := by
  have hshift : n &&& ~~~(page - 1) = (n >>> 12) <<< 12 := by
    apply UInt64.eq_of_toBitVec_eq
    refine BitVec.eq_of_getLsbD_eq fun i hi => ?_
    rw [UInt64.toBitVec_and, BitVec.getLsbD_and, mask_bits i hi]
    by_cases h : i < 12
    · simp [h]
    · simp [h, hi, Nat.le_of_not_lt h, show 12 + (i - 12) = i by omega]
  have hlt := n.toNat_lt
  rw [hshift, UInt64.toNat_shiftLeft, UInt64.toNat_shiftRight, Nat.shiftLeft_eq,
    Nat.shiftRight_eq_div_pow]
  simp only [UInt64.reduceToNat, Nat.reduceMod, Nat.reducePow]
  omega

/-- Below the last page of the 64-bit range, nothing wraps. -/
theorem round_page {n : UInt64} (h : n.toNat + 4096 < 2 ^ 64) :
    ((n + page - 1) &&& ~~~(page - 1)).toNat = Memory.pageUp 4096 n.toNat := by
  have hadd : (n + page).toNat = n.toNat + 4096 := by
    rw [UInt64.toNat_add, show page.toNat = 4096 from rfl, Nat.mod_eq_of_lt h]
  have hone : (1 : UInt64) ≤ n + page := by
    rw [UInt64.le_iff_toNat_le, hadd, UInt64.toNat_one]
    omega
  rw [clear_low, UInt64.toNat_sub_of_le _ _ hone, hadd, UInt64.toNat_one]
  rfl

/-! ## The safe base -/

instance lawfulOrderMaxUInt64 : Std.LawfulOrderMax UInt64 where
  max_eq_or a b := by
    show (if a ≤ b then b else a) = a ∨ (if a ≤ b then b else a) = b
    split
    · exact Or.inr rfl
    · exact Or.inl rfl
  max_le_iff a b c := by
    show (if a ≤ b then b else a) ≤ c ↔ a ≤ c ∧ b ≤ c
    simp only [UInt64.le_iff_toNat_le]
    split <;> omega

/-- `maxEnd` is an end, and none is beyond it. -/
theorem maxEnd_cases (layout : AddressSpaceLayout) :
    layout.ranges = [] ∧ layout.maxEnd = page ∨
    ∃ r ∈ layout.ranges, r.end_ = layout.maxEnd ∧
      ∀ r' ∈ layout.ranges, r'.end_ ≤ layout.maxEnd := by
  unfold AddressSpaceLayout.maxEnd
  cases hmax : (layout.ranges.map AddrRange.end_).max? with
  | none =>
      exact Or.inl ⟨List.map_eq_nil_iff.mp (List.max?_eq_none_iff.mp hmax), rfl⟩
  | some m =>
      obtain ⟨hmem, hle⟩ := List.max?_eq_some_iff.mp hmax
      obtain ⟨r, hr, hend⟩ := List.mem_map.mp hmem
      exact Or.inr ⟨r, hr, hend, fun r' hr' => hle _ (List.mem_map_of_mem hr')⟩

/-- Nothing that starts behind every range conflicts. -/
theorem not_conflicts {layout : AddressSpaceLayout} {candidate : AddrRange}
    (h : ∀ r ∈ layout.ranges, r.end_.toNat ≤ candidate.start.toNat) :
    layout.conflictsWith candidate = false := by
  refine List.any_eq_false.mpr fun r hr hover => ?_
  rw [AddrRange.overlaps, Bool.and_eq_true, decide_eq_true_iff, decide_eq_true_iff] at hover
  have hlt := UInt64.lt_iff_toNat_lt.mp hover.2
  exact Nat.not_lt_of_le (h r hr) hlt

/-- A layout that passes has its ranges in user space. -/
theorem usable_of_validate {layout : AddressSpaceLayout} (h : layout.validate = .ok ()) :
    ∀ r ∈ layout.ranges, r.Usable :=
  checkRanges_iff.mp (except_seq_ok.mp h).1

/-- So the rounding is exact. -/
theorem findSafeBase_eq {layout : AddressSpaceLayout} (h : layout.validate = .ok ()) :
    layout.findSafeBase.toNat = Memory.pageUp 4096 layout.maxEnd.toNat := by
  have hlimit : userSpaceLimit.toNat = 140737488355328 := rfl
  refine round_page ?_
  obtain ⟨-, hnone⟩ | ⟨r, hr, hend, -⟩ := maxEnd_cases layout
  · rw [hnone]
    decide
  · have hle := (usable_of_validate h r hr).2
    rw [← hend]
    omega

/-- **The safe base is above everything, and by less than a page.**  For a snapshot whose layout
passes it is a multiple of the page size, at or behind the end of every range, less than a page
behind the greatest of them, and no range that starts there conflicts with the layout. -/
theorem findSafeBase_tight (s : Proto.ProcessSnapshot)
    (h : (AddressSpaceLayout.fromSnapshot s).validate = .ok ()) :
    4096 ∣ (AddressSpaceLayout.fromSnapshot s).findSafeBase.toNat ∧
    (∀ r ∈ (AddressSpaceLayout.fromSnapshot s).ranges,
      r.end_.toNat ≤ (AddressSpaceLayout.fromSnapshot s).findSafeBase.toNat) ∧
    (((AddressSpaceLayout.fromSnapshot s).ranges = [] ∧
        (AddressSpaceLayout.fromSnapshot s).findSafeBase = 4096) ∨
      ∃ r ∈ (AddressSpaceLayout.fromSnapshot s).ranges,
        (∀ r' ∈ (AddressSpaceLayout.fromSnapshot s).ranges, r'.end_ ≤ r.end_) ∧
        (AddressSpaceLayout.fromSnapshot s).findSafeBase.toNat < r.end_.toNat + 4096) ∧
    ∀ stop, (AddressSpaceLayout.fromSnapshot s).conflictsWith
      ⟨(AddressSpaceLayout.fromSnapshot s).findSafeBase, stop⟩ = false := by
  have hbase := findSafeBase_eq h
  have hcases := maxEnd_cases (AddressSpaceLayout.fromSnapshot s)
  generalize AddressSpaceLayout.fromSnapshot s = layout at *
  have habove : ∀ r ∈ layout.ranges, r.end_.toNat ≤ layout.findSafeBase.toNat := by
    intro r hr
    obtain ⟨hnil, -⟩ | ⟨-, -, -, hle⟩ := hcases
    · rw [hnil] at hr
      exact absurd hr List.not_mem_nil
    · rw [hbase]
      exact Nat.le_trans (UInt64.le_iff_toNat_le.mp (hle r hr)) (Memory.le_pageUp (by decide))
  refine ⟨hbase ▸ Memory.dvd_pageUp, habove, ?_, fun stop => not_conflicts habove⟩
  obtain ⟨hnil, hnone⟩ | ⟨r, hr, hend, hle⟩ := hcases
  · refine Or.inl ⟨hnil, UInt64.toNat_inj.mp ?_⟩
    rw [hbase, hnone]
    decide
  · refine Or.inr ⟨r, hr, fun r' hr' => hend ▸ hle r' hr', ?_⟩
    rw [hbase, hend]
    exact Memory.pageUp_lt (by decide)

/-- Two regions, the higher one first. -/
def scattered : Proto.ProcessSnapshot where
  memoryRegions := [{ startAddr := 0x3000, sizeBytes := 0x1001 },
    { startAddr := 0x1000, sizeBytes := 0x1000 }]

theorem findSafeBase_tight_scattered :
    (AddressSpaceLayout.fromSnapshot scattered).findSafeBase = 0x5000 ∧
    ∀ stop, (AddressSpaceLayout.fromSnapshot scattered).conflictsWith
      ⟨(AddressSpaceLayout.fromSnapshot scattered).findSafeBase, stop⟩ = false :=
  ⟨by decide, (findSafeBase_tight scattered (by decide)).2.2.2⟩

/-! ## Totals -/

theorem foldl_add {ns : List UInt64} : ∀ {total : UInt64},
    total.toNat + (ns.map UInt64.toNat).sum < 2 ^ 64 →
      (ns.foldl (· + ·) total).toNat = total.toNat + (ns.map UInt64.toNat).sum ∧
      ns.foldlM (fun total n => if total.toNat + n.toNat < 2 ^ 64 then some (total + n) else none)
        total = some (ns.foldl (· + ·) total) := by
  induction ns with
  | nil => exact fun _ => ⟨rfl, rfl⟩
  | cons n ns ih =>
      intro total h
      rw [List.map_cons, List.sum_cons] at h ⊢
      have hadd : (total + n).toNat = total.toNat + n.toNat := by
        rw [UInt64.toNat_add, Nat.mod_eq_of_lt (by omega)]
      obtain ⟨hsum, hchecked⟩ := @ih (total + n) (by omega)
      rw [List.foldl_cons, List.foldlM_cons, if_pos (by omega), hsum, hadd]
      exact ⟨Nat.add_assoc _ _ _, hchecked⟩

/-- A sum that fits is exact, and no addition on the way to it overflows. -/
theorem sumU64_eq {ns : List UInt64} (h : (ns.map UInt64.toNat).sum < 2 ^ 64) :
    (sumU64 ns).toNat = (ns.map UInt64.toNat).sum ∧ sumChecked ns = some (sumU64 ns) := by
  obtain ⟨hsum, hchecked⟩ := @foldl_add ns 0 (by simpa using h)
  rw [UInt64.toNat_zero, Nat.zero_add] at hsum
  exact ⟨hsum, hchecked⟩

/-- The ranges of a layout that passes come one behind the other. -/
theorem ordered_of_validate {s : Proto.ProcessSnapshot}
    (h : (AddressSpaceLayout.fromSnapshot s).validate = .ok ()) :
    (AddressSpaceLayout.fromSnapshot s).ranges.Pairwise fun r r' =>
      r.end_.toNat ≤ r'.start.toNat :=
  (checkOverlaps_iff (usable_of_validate h) (List.pairwise_insertionSort _ _)).mp
    (except_seq_ok.mp h).2

theorem size_toNat {r : AddrRange} (h : r.Usable) :
    r.size.toNat = r.end_.toNat - r.start.toNat := by
  have hle : r.start ≤ r.end_ := UInt64.le_iff_toNat_le.mpr (Nat.le_of_lt h.1)
  rw [AddrRange.size, if_pos hle, UInt64.toNat_sub_of_le _ _ hle]

/-- The sizes of the ranges are the sizes of the regions, in another order. -/
theorem sizes_perm {s : Proto.ProcessSnapshot}
    (h : (AddressSpaceLayout.fromSnapshot s).validate = .ok ()) :
    ((AddressSpaceLayout.fromSnapshot s).ranges.map fun r => r.end_.toNat - r.start.toNat).Perm
      (s.memoryRegions.map fun r => r.sizeBytes.toNat) := by
  have hperm := (List.perm_insertionSort (fun r r' : AddrRange => r.start ≤ r'.start)
    (s.memoryRegions.map regionRange)).map fun r => r.end_.toNat - r.start.toNat
  have hmap : ((s.memoryRegions.map regionRange).map fun r => r.end_.toNat - r.start.toNat) =
      s.memoryRegions.map fun r => r.sizeBytes.toNat := by
    rw [List.map_map]
    refine List.map_congr_left fun r hr => ?_
    rw [Function.comp_apply, regionRange_end ((layout_iff.mp h).1 r hr)]
    exact Nat.add_sub_cancel_left _ _
  rwa [hmap] at hperm

/-- However many regions there are, they are disjoint in user space. -/
theorem sum_sizes_le {s : Proto.ProcessSnapshot}
    (h : (AddressSpaceLayout.fromSnapshot s).validate = .ok ()) :
    (s.memoryRegions.map fun r => r.sizeBytes.toNat).sum ≤ 2 ^ 47 := by
  have husable := usable_of_validate h
  have hsum := Memory.sum_lengths_le 0 (2 ^ 47) (Nat.zero_le _)
    (fun r hr => ⟨Nat.zero_le _, Nat.le_of_lt (husable r hr).1, (husable r hr).2⟩)
    (ordered_of_validate h)
  rwa [Nat.zero_add, (sizes_perm h).sum_nat] at hsum

theorem totalBytes_eq {s : Proto.ProcessSnapshot}
    (h : (AddressSpaceLayout.fromSnapshot s).validate = .ok ()) :
    (AddressSpaceLayout.fromSnapshot s).totalBytes.toNat =
      (s.memoryRegions.map fun r => r.sizeBytes.toNat).sum ∧
    sumChecked ((AddressSpaceLayout.fromSnapshot s).ranges.map AddrRange.size) =
      some (AddressSpaceLayout.fromSnapshot s).totalBytes := by
  have hsizes : (((AddressSpaceLayout.fromSnapshot s).ranges.map AddrRange.size).map
      UInt64.toNat).sum = (s.memoryRegions.map fun r => r.sizeBytes.toNat).sum := by
    rw [List.map_map, ← (sizes_perm h).sum_nat]
    exact congrArg List.sum (List.map_congr_left fun r hr => size_toNat (usable_of_validate h r hr))
  rw [← hsizes]
  exact sumU64_eq (Nat.lt_of_le_of_lt (hsizes ▸ sum_sizes_le h) (by decide))

theorem regionBytes_eq {s : Proto.ProcessSnapshot}
    (h : (AddressSpaceLayout.fromSnapshot s).validate = .ok ()) :
    (regionBytes s).toNat = (s.memoryRegions.map fun r => r.sizeBytes.toNat).sum ∧
    sumChecked (s.memoryRegions.map Proto.MemoryRegion.sizeBytes) = some (regionBytes s) := by
  have hsizes : ((s.memoryRegions.map Proto.MemoryRegion.sizeBytes).map UInt64.toNat).sum =
      (s.memoryRegions.map fun r => r.sizeBytes.toNat).sum := by
    rw [List.map_map]
    rfl
  rw [← hsizes]
  exact sumU64_eq (Nat.lt_of_le_of_lt (hsizes ▸ sum_sizes_le h) (by decide))

/-- **Totals do not overflow.**  The regions of a snapshot whose layout passes are together no
larger than user space, however many there are and in whatever order, and both ways of adding up
their sizes in 64 bits come to the true total without wrapping on the way. -/
theorem totals_exact (s : Proto.ProcessSnapshot)
    (h : (AddressSpaceLayout.fromSnapshot s).validate = .ok ()) :
    (s.memoryRegions.map fun r => r.sizeBytes.toNat).sum ≤ 2 ^ 47 ∧
    (AddressSpaceLayout.fromSnapshot s).totalBytes.toNat =
      (s.memoryRegions.map fun r => r.sizeBytes.toNat).sum ∧
    (regionBytes s).toNat = (s.memoryRegions.map fun r => r.sizeBytes.toNat).sum ∧
    sumChecked ((AddressSpaceLayout.fromSnapshot s).ranges.map AddrRange.size) =
      some (AddressSpaceLayout.fromSnapshot s).totalBytes ∧
    sumChecked (s.memoryRegions.map Proto.MemoryRegion.sizeBytes) = some (regionBytes s) := by
  obtain ⟨htotal, htotal'⟩ := totalBytes_eq h
  obtain ⟨hregion, hregion'⟩ := regionBytes_eq h
  exact ⟨sum_sizes_le h, htotal, hregion, htotal', hregion'⟩

theorem totals_exact_scattered :
    (AddressSpaceLayout.fromSnapshot scattered).totalBytes.toNat = 0x2001 ∧
    sumChecked (scattered.memoryRegions.map Proto.MemoryRegion.sizeBytes) =
      some (regionBytes scattered) :=
  ⟨(totals_exact scattered (by decide)).2.1, (totals_exact scattered (by decide)).2.2.2.2⟩

end Wraith.Restore

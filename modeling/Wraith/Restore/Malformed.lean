/-
# `Wraith.Restore.Malformed` — regions whose bytes are not as many as they say

`end_addr`, `size_bytes` and `data.len()` each say how long a region is.  `validate` and `mmap` go
by `size_bytes`, the write by `data.len()`, and nothing compares them.  And a region that covers the
stub's `int3` may take with it whatever has been put in place before, except in the word that is put
back.  Nothing else can go wrong in a loop that comes to its end: `regions_intact_iff`.
-/
import Wraith.Restore.Rounds

namespace Wraith.Restore

open Lib Script Process

variable {checksum : List UInt8 → UInt64} {child : Int32} {c c' : Child} {w : World}
  {s : Proto.ProcessSnapshot}

/-- No region is malformed, and each is in place: it has as many bytes as it says, these bytes are
the child's, and writing them has touched no other region. -/
structure Intact (regions : List Proto.MemoryRegion) (mem : Memory UInt64) : Prop where
  sized : ∀ r ∈ regions, Sized r
  bytes : ∀ r ∈ regions, mem.Holds r.startAddr.toNat r.data
  apart : regions.Pairwise fun r r' =>
    Memory.Apart r.startAddr.toNat (r.startAddr.toNat + r.data.length) r'.startAddr.toNat
      (r'.startAddr.toNat + r'.sizeBytes.toNat) ∧
    Memory.Apart r.startAddr.toNat (r.startAddr.toNat + r.sizeBytes.toNat) r'.startAddr.toNat
      (r'.startAddr.toNat + r'.data.length)

/-- The data lie within the injected word. -/
def WithinWord (c : Child) (region : Proto.MemoryRegion) : Prop := ∀ a, InData region a → InWord c a

/-! ## Regions that are apart -/

/-- Regions of a valid snapshot that have been gone through have no page in common. -/
theorem pagesApart_of_passed (hvalid : validate s = .ok ())
    (hpassed : ∀ r ∈ s.memoryRegions, Passed checksum r) : s.memoryRegions.Pairwise PagesApart :=
  (validate_iff.mp hvalid).2.1.2.imp_of_mem fun hr hr' h =>
    h.pagesApart (hpassed _ hr).aligned (hpassed _ hr').aligned

/-- Data of the right length lie in the region's pages. -/
theorem Sized.inPages {region : Proto.MemoryRegion} {a : Nat} (h : Sized region)
    (ha : InData region a) :
    InPages region a := ⟨ha.1, Nat.lt_of_lt_of_le ha.2 h.contained⟩

/-- A later region touches the data of an earlier one only by leading the child astray. -/
theorem touches_apart {r r' : Proto.MemoryRegion} {a : Nat} (hapart : PagesApart r r')
    (hsized : Sized r) (hsized' : Sized r') (ha : InData r a)
    (htouch : Touches c r' a) :
    ¬ InWord c a ∧ CoversTrap c r' := by
  have hpages : ¬ InPages r' a := Memory.Apart.not_in hapart (hsized.inPages ha)
  obtain hdata | ⟨hword, hin | hcovers⟩ := htouch
  · exact absurd (hsized'.inPages hdata) hpages
  · exact absurd hin hpages
  · exact ⟨hword, hcovers⟩

/-! ## Regions that are in place -/

theorem Rounds.intact (hvalid : validate s = .ok ()) (h : Rounds checksum c s.memoryRegions c')
    (hsized : ∀ r ∈ s.memoryRegions, Sized r)
    (hspared : s.memoryRegions.Pairwise fun r r' => CoversTrap c r' → WithinWord c r) :
    Intact s.memoryRegions c'.mem := by
  have hseparate := (validate_iff.mp hvalid).2.1.2
  have hapart := pagesApart_of_passed hvalid h.passed
  refine ⟨hsized, fun r hr i hi => ?_, hseparate.imp_of_mem fun {r r'} hr hr' h => ?_⟩
  · obtain ⟨pre, post, heq⟩ := List.append_of_mem hr
    rw [heq] at h hapart hspared
    refine h.places hi fun r' hr' htouch => ?_
    have hin : InData r (r.startAddr.toNat + i) := ⟨Nat.le_add_right _ _, by omega⟩
    have hpair := List.rel_of_pairwise_cons (List.pairwise_append.mp hapart).2.1 hr'
    have hwithin := List.rel_of_pairwise_cons (List.pairwise_append.mp hspared).2.1 hr'
    have hmem : r' ∈ s.memoryRegions := by
      rw [heq]
      exact List.mem_append_right _ (.tail _ hr')
    obtain ⟨hword, hcovers⟩ := touches_apart hpair (hsized r hr) (hsized r' hmem) hin htouch
    exact hword (hwithin hcovers _ hin)
  · rw [hsized r hr, hsized r' hr']
    exact ⟨h, h⟩

/-! ## A byte that is lost -/

/-- To be pairwise related is to be related wherever the list is split twice. -/
theorem pairwise_of_splits {α : Type} {R : α → α → Prop} : ∀ {l : List α},
    (∀ pre a mid b post, l = pre ++ a :: (mid ++ b :: post) → R a b) → l.Pairwise R
  | [], _ => .nil
  | a :: l, h => .cons
      (fun b hb => by
        obtain ⟨mid, post, rfl⟩ := List.append_of_mem hb
        exact h [] a mid b post rfl)
      (pairwise_of_splits fun pre a' mid b post heq => h (a :: pre) a' mid b post (congrArg _ heq))

/-- A byte outside of the injected word is lost in some run, if a later region covers the `int3`: it
lies in no pages but those of its own region, and no two regions cover the `int3`. -/
theorem restoreRegions_uncovers (hvalid : validate s = .ok ())
    (hcompletes : Completes checksum w.child s.memoryRegions)
    (hsized : ∀ r ∈ s.memoryRegions, Sized r) {pre mid post : List Proto.MemoryRegion}
    {r r' : Proto.MemoryRegion}
    (heq : s.memoryRegions = pre ++ r :: (mid ++ r' :: post)) (hcovers : CoversTrap w.child r')
    {a : Nat} (ha : InData r a)
    (hword : ¬ InWord w.child a) :
    ∃ tr n w', Cmd.Runs (restoreRegions checksum child s.memoryRegions 0 ()) tr (.ok n, ()) ∧
      Answered answer w tr w' ∧ ¬ w'.child.mem.Holds r.startAddr.toNat r.data := by
  obtain ⟨-, ⟨hfits, -⟩, -⟩ := validate_iff.mp hvalid
  have hsplit : s.memoryRegions = (pre ++ r :: mid) ++ r' :: post := by
    rw [heq, List.append_assoc, List.cons_append]
  have hapart := pagesApart_of_passed hvalid hcompletes.passed
  have hapart' : (r' :: post).Pairwise PagesApart := by
    rw [hsplit] at hapart
    exact (List.pairwise_append.mp hapart).2.1
  have hr : Sized r := hsized r (heq ▸ List.mem_append_right _ (.head _))
  have hlater : ∀ x ∈ r' :: post, Sized x ∧ PagesApart r x := fun x hx => by
    have hx' : x ∈ mid ++ r' :: post := List.mem_append_right _ hx
    rw [heq] at hapart hsized
    exact ⟨hsized x (List.mem_append_right _ (.tail _ hx')),
      List.rel_of_pairwise_cons (List.pairwise_append.mp hapart).2.1 hx'⟩
  have hdata : ¬ InData r' a := fun hin => by
    obtain ⟨hr', hpair⟩ := hlater r' (.head _)
    exact Memory.Apart.not_in hpair (hr.inPages ha) (hr'.inPages hin)
  have hother : ∀ x ∈ post, ¬ Touches w.child x a := fun x hx htouch => by
    obtain ⟨hx', hpair⟩ := hlater x (.tail _ hx)
    obtain ⟨-, hcovers'⟩ := touches_apart hpair hr hx' ha htouch
    exact Memory.Apart.not_in (List.rel_of_pairwise_cons hapart' hx) hcovers hcovers'
  obtain ⟨hle, hlt⟩ := ha
  have hi : a - r.startAddr.toNat < r.data.length := by omega
  obtain ⟨tr, n, w', hrun, hans, hbyte⟩ := restoreRegions_ruins child hsplit hcompletes hfits
    (b := r.data[a - r.startAddr.toNat]) (Or.inr ⟨hdata, hword, Or.inl hcovers⟩) hother
  refine ⟨tr, n, w', hrun, hans, fun hholds => hbyte ?_⟩
  have hat := hholds _ hi
  rwa [Nat.add_sub_cancel' hle] at hat

/-! ## The result -/

/-- Whenever the loop comes to its end, every region has as many bytes as it says and is in place,
if and only if: each of the regions that it can come to the end of has as many bytes as it says, and
those before one that covers the `int3` lie within the injected word. -/
theorem regions_intact_iff (hvalid : validate s = .ok ()) :
    (∀ tr n w', Cmd.Runs (restoreRegions checksum child s.memoryRegions 0 ()) tr (.ok n, ()) →
      Answered answer w tr w' → Intact s.memoryRegions w'.child.mem) ↔
    (Completes checksum w.child s.memoryRegions → (∀ r ∈ s.memoryRegions, Sized r) ∧
      s.memoryRegions.Pairwise fun r r' => CoversTrap w.child r' → WithinWord w.child r) := by
  obtain ⟨-, ⟨hfits, -⟩, -, hsome⟩ := validate_iff.mp hvalid
  constructor
  · intro h hcompletes
    have hsized : ∀ r ∈ s.memoryRegions, Sized r := by
      obtain ⟨tr, w', hr, ha, -⟩ := restoreRegions_completes child hcompletes hfits 0
      exact (h tr _ w' hr ha).sized
    refine ⟨hsized, pairwise_of_splits fun pre r mid r' post heq hcovers a ha => ?_⟩
    by_contra hword
    obtain ⟨tr, n, w', hr, hans, hlost⟩ :=
      restoreRegions_uncovers hvalid hcompletes hsized heq hcovers ha hword
    exact hlost ((h tr n w' hr hans).bytes r (heq ▸ List.mem_append_right _ (.head _)))
  · intro h tr n w' hr ha
    have hrounds : Rounds checksum w.child s.memoryRegions w'.child :=
      restoreRegions_rounds.returns rfl hr ha
    obtain ⟨hsized, hspared⟩ := h (hrounds.completes (hrounds.site fun hnil => absurd hnil hsome))
    exact hrounds.intact hvalid hsized hspared

/-! ## One byte of a page, and two pages -/

theorem zeroRegions_placeable {n : Nat} (hn : n ≤ 0x1000) :
    ∀ r ∈ [zeroRegion 0x10000 n], Placeable (fun _ => 0) quietWorld.child r := by
  intro r hr
  obtain rfl := List.mem_singleton.mp hr
  exact zeroRegion_placeable (by decide) (by decide) hn

theorem short_region_accepted : ∃ s tr n w, validate s = .ok () ∧
    Cmd.Runs (restoreRegions (fun _ => 0) 42 s.memoryRegions 0 ()) tr (.ok n, ()) ∧
    Answered answer quietWorld tr w ∧ ¬ Intact s.memoryRegions w.child.mem := by
  obtain ⟨tr, w, hr, ha, -⟩ := restoreRegions_done (w := quietWorld) 42 stub_site
    (zeroRegions_placeable (n := 1) (by decide)) 0
  refine ⟨smallSnapshot [zeroRegion 0x10000 1], tr, _, w,
    smallSnapshot_valid (by decide), hr, ha, fun h => ?_⟩
  have hsized : (1 : Nat) = 4096 := h.sized _ (.head _)
  exact absurd hsized (by decide)

/-- Two pages, one behind the other. -/
def neighbours : Proto.ProcessSnapshot :=
  smallSnapshot [zeroRegion 0x10000 0x1000, zeroRegion 0x11000 0x1000]

theorem neighbours_valid : validate neighbours = .ok () :=
  pair_valid (show Fits (zeroRegion 0x10000 0) by decide)
    (show Fits (zeroRegion 0x11000 0) by decide)
    (Or.inl (show 0x10000 + 0x1000 ≤ 0x11000 by decide))

theorem neighbours_placeable : ∀ r ∈ neighbours.memoryRegions, Placeable (fun _ => 0) stub r :=
  forall_mem_pair (zeroRegion_placeable (by decide) (by decide) le_rfl)
    (zeroRegion_placeable (by decide) (by decide) le_rfl)

theorem regions_intact_iff_neighbours : ∃ tr n w,
    Cmd.Runs (restoreRegions (fun _ => 0) 42 neighbours.memoryRegions 0 ()) tr (.ok n, ()) ∧
    Answered answer quietWorld tr w ∧ Intact neighbours.memoryRegions w.child.mem := by
  obtain ⟨tr, w, hr, ha, -⟩ := restoreRegions_done (w := quietWorld) 42 stub_site
    neighbours_placeable 0
  have hsized : ∀ r ∈ neighbours.memoryRegions, Sized r :=
    forall_mem_pair List.length_replicate List.length_replicate
  have hspared : neighbours.memoryRegions.Pairwise fun r r' => CoversTrap stub r' →
      WithinWord stub r :=
    List.pairwise_pair.mpr fun hcovers =>
      absurd hcovers (neighbours_placeable _ (.tail _ (.head _))).spares.not_covers
  exact ⟨tr, _, w, hr, ha, (regions_intact_iff neighbours_valid).mpr
    (fun _ => ⟨hsized, hspared⟩) tr _ w hr ha⟩

end Wraith.Restore

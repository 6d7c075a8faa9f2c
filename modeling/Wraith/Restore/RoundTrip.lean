/-
# `Wraith.Restore.RoundTrip` — a process, captured and restored

The two halves put together.  A target that keeps its mappings while it is captured gives a snapshot
that shows the instant of its stop, whose regions are page-aligned, apart and of their size.  Such a
snapshot passes everything the restorer tests, and behind the loop over its regions and
`restore_registers` the child has the memory and the registers of that instant:
`restore_undoes_capture`.
-/
import Wraith.Capture.Instant
import Wraith.Process.Wire
import Wraith.Restore.Undisturbed

namespace Wraith.Restore

open Lib Script Process

variable {checksum : List UInt8 → UInt64} {T : Capture.Target} {es : List MapsEntry}
  {ctr : List (Event Capture.CapResp)} {regions : List Proto.MemoryRegion}

/-! ## The regions of a capture -/

/-- A mapping of whole pages; but for vsyscall it lies in user space. -/
structure Paged (e : MapsEntry) : Prop where
  start : pageSize ∣ e.start.toNat
  end_ : pageSize ∣ e.end_.toNat
  user : e.pathname ≠ "[vsyscall]" → e.end_.toNat ≤ userSpaceLimit.toNat

/-- The region `r` is of the mapping `e`, with the bytes the target has there. -/
structure ImageOf (checksum : List UInt8 → UInt64) (T : Capture.Target) (e : MapsEntry)
    (r : Proto.MemoryRegion) : Prop where
  start : r.startAddr = e.start
  size : r.sizeBytes = e.end_ - e.start
  perms : r.permissions = e.perms
  sized : Sized r
  bytes : T.mem.Holds r.startAddr.toNat r.data
  sum : checksum r.data = r.checksum

theorem imageOf {e : MapsEntry} {r : Proto.MemoryRegion}
    (h : Capture.Image checksum T (regionToProto e.region) r) : ImageOf checksum T e r := by
  obtain ⟨hregion, hlen, hbytes, hsum⟩ := h
  exact ⟨(congrArg Proto.MemoryRegion.startAddr hregion).symm,
    (congrArg Proto.MemoryRegion.sizeBytes hregion).symm,
    (congrArg Proto.MemoryRegion.permissions hregion).symm, hlen, hbytes, hsum.symm⟩

/-- A mapping that is captured: of whole pages, in user space, and not empty. -/
structure Captured (e : MapsEntry) : Prop extends Paged e where
  nonempty : e.start.toNat < e.end_.toNat
  below : e.end_.toNat ≤ userSpaceLimit.toNat

theorem shouldSkip_vsyscall {e : MapsEntry} (h : e.pathname = "[vsyscall]") :
    shouldSkip e.region = true := by
  unfold shouldSkip
  split
  · rfl
  split
  · rfl
  have htype : e.region.regionType = "vsyscall" := by
    show classifyRegion e.pathname = "vsyscall"
    rw [h]
    decide
  rw [htype]
  decide

theorem captured {e : MapsEntry} (hpaged : Paged e) (hne : e.start < e.end_)
    (hskip : shouldSkip e.region = false) : Captured e where
  toPaged := hpaged
  nonempty := UInt64.lt_iff_toNat_lt.mp hne
  below := hpaged.user fun h => absurd (hskip.symm.trans (shouldSkip_vsyscall h)) Bool.false_ne_true

theorem not_skipped {e : MapsEntry} (hne : e.start < e.end_) (hread : e.region.isReadable = true)
    (htype : e.region.regionType ≠ "vsyscall" ∧ e.region.regionType ≠ "vvar") :
    shouldSkip e.region = false := by
  have hsize : ¬ e.region.size = 0 := fun h => by
    have hle := UInt64.le_iff_toNat_le.mpr (Nat.le_of_lt (UInt64.lt_iff_toNat_lt.mp hne))
    have hsub : (e.end_ - e.start).toNat = e.end_.toNat - e.start.toNat :=
      UInt64.toNat_sub_of_le _ _ hle
    rw [show e.end_ - e.start = 0 from h, UInt64.toNat_zero] at hsub
    have := UInt64.lt_iff_toNat_lt.mp hne
    omega
  rw [shouldSkip, if_neg hsize, if_neg (by rw [hread]; decide),
    decide_eq_false htype.1, decide_eq_false htype.2, Bool.or_self]

namespace ImageOf

variable {e e' : MapsEntry} {r r' : Proto.MemoryRegion}

theorem end_ (h : ImageOf checksum T e r) (he : Captured e) :
    r.startAddr.toNat + r.sizeBytes.toNat = e.end_.toNat := by
  have hlt := he.nonempty
  have hsub : (e.end_ - e.start).toNat = e.end_.toNat - e.start.toNat :=
    UInt64.toNat_sub_of_le _ _ (UInt64.le_iff_toNat_le.mpr (Nat.le_of_lt hlt))
  rw [h.start, h.size, hsub]
  omega

theorem regionEnd_eq (h : ImageOf checksum T e r) (he : Captured e) :
    regionEnd r = e.end_.toNat := by
  rw [regionEnd, pagesEnd, h.end_ he]
  exact Memory.pageUp_of_dvd (by decide) he.toPaged.end_

theorem fits (h : ImageOf checksum T e r) (he : Captured e) : Fits r := by
  have hend := h.end_ he
  have hstart := congrArg UInt64.toNat h.start
  have hlt := he.nonempty
  have hbelow := he.below
  exact ⟨by omega, by omega⟩

theorem aligned (h : ImageOf checksum T e r) (he : Captured e) : pageSize ∣ r.startAddr.toNat := by
  rw [h.start]
  exact he.start

theorem separate (h : ImageOf checksum T e r) (he : Captured e) (h' : ImageOf checksum T e' r')
    (he' : Captured e') (hapart : e.end_ ≤ e'.start ∨ e'.end_ ≤ e.start) : Separate r r' := by
  rw [Separate, h.end_ he, h'.end_ he', h.start, h'.start]
  exact hapart.imp UInt64.le_iff_toNat_le.mp UInt64.le_iff_toNat_le.mp

end ImageOf

/-! ## The snapshot of a capture -/

/-- The mappings of a list that are captured. -/
def dumpedMaps (ctr : List (Event Capture.CapResp)) (es : List MapsEntry) : List MapsEntry :=
  es.filter fun e => !shouldSkip e.region && !Capture.dumpFailed ctr e

theorem mem_dumpedMaps {e : MapsEntry} : e ∈ dumpedMaps ctr es ↔
    e ∈ es ∧ shouldSkip e.region = false ∧ Capture.dumpFailed ctr e = false := by
  rw [dumpedMaps, List.mem_filter, Bool.and_eq_true, Bool.not_eq_true', Bool.not_eq_true']

/-- Two lists in step: what is paired in one order is in the other. -/
theorem forall₂_members {α β : Type} {R : α → β → Prop} {as : List α} {bs : List β}
    (h : List.Forall₂ R as bs) : (∀ a ∈ as, ∃ b ∈ bs, R a b) ∧ ∀ b ∈ bs, ∃ a ∈ as, R a b := by
  induction h with
  | nil => exact ⟨fun a h => (nomatch h), fun b h => (nomatch h)⟩
  | cons hab _ ih =>
      refine ⟨List.forall_mem_cons.mpr ⟨⟨_, .head _, hab⟩, fun a ha => ?_⟩,
        List.forall_mem_cons.mpr ⟨⟨_, .head _, hab⟩, fun b hb => ?_⟩⟩
      · obtain ⟨b, hb, h⟩ := ih.1 a ha
        exact ⟨b, .tail _ hb, h⟩
      · obtain ⟨a, ha, h⟩ := ih.2 b hb
        exact ⟨a, .tail _ ha, h⟩

theorem forall₂_pairwise {α β : Type} {R : α → β → Prop} {S : α → α → Prop} {S' : β → β → Prop}
    (hS : ∀ a b a' b', R a b → R a' b' → S a a' → S' b b') {as : List α} {bs : List β}
    (h : List.Forall₂ R as bs) (hp : as.Pairwise S) : bs.Pairwise S' := by
  induction h with
  | nil => exact .nil
  | cons hab hrest ih =>
      obtain ⟨hhead, htail⟩ := List.pairwise_cons.mp hp
      refine List.pairwise_cons.mpr ⟨fun b hb => ?_, ih htail⟩
      obtain ⟨a, ha, hR⟩ := (forall₂_members hrest).2 b hb
      exact hS _ _ _ _ hab hR (hhead a ha)

/-- What a capture makes of the mappings of its target. -/
structure Snapped (checksum : List UInt8 → UInt64) (T : Capture.Target)
    (ctr : List (Event Capture.CapResp)) (s : Proto.ProcessSnapshot) : Prop where
  arch : s.arch = "x86_64"
  registers : s.registers = some (regsToProto (.ofPtrace T.regs T.fpregs))
  paged : ∀ e ∈ T.maps, Paged e
  images : List.Forall₂ (ImageOf checksum T) (dumpedMaps ctr T.maps) s.memoryRegions

namespace Snapped

variable {s : Proto.ProcessSnapshot}

theorem captured {e : MapsEntry} (h : Snapped checksum T ctr s) (he : e ∈ dumpedMaps ctr T.maps) :
    Captured e := by
  obtain ⟨hmem, hskip, -⟩ := mem_dumpedMaps.mp he
  exact Restore.captured (h.paged e hmem) (T.nonempty e hmem) hskip

/-- Every region is of a mapping. -/
theorem region (h : Snapped checksum T ctr s) {r : Proto.MemoryRegion} (hr : r ∈ s.memoryRegions) :
    ∃ e, Captured e ∧ ImageOf checksum T e r := by
  obtain ⟨e, he, himage⟩ := (forall₂_members h.images).2 r hr
  exact ⟨e, h.captured he, himage⟩

theorem separate (h : Snapped checksum T ctr s) : s.memoryRegions.Pairwise Separate := by
  have himages : List.Forall₂ (fun e r => Captured e ∧ ImageOf checksum T e r)
      (dumpedMaps ctr T.maps) s.memoryRegions :=
    (List.forall₂_and_left _ _).mpr ⟨fun e he => h.captured he, h.images⟩
  refine forall₂_pairwise (fun e r e' r' hr hr' hapart => ?_) himages (T.disjoint.filter _)
  exact hr.2.separate hr.1 hr'.2 hr'.1 hapart

/-- It passes `validate` as soon as there is a region. -/
theorem valid (h : Snapped checksum T ctr s) (hsome : s.memoryRegions ≠ []) :
    validate s = .ok () := by
  refine validate_iff.mpr ⟨h.arch, ⟨fun r hr => ?_, h.separate⟩, ?_, hsome⟩
  · obtain ⟨e, he, himage⟩ := h.region hr
    exact himage.fits he
  · rw [h.registers]
    exact Option.some_ne_none _

theorem checked (h : Snapped checksum T ctr s) {r : Proto.MemoryRegion} (hr : r ∈ s.memoryRegions) :
    checkRegion checksum r = .ok () := by
  obtain ⟨e, -, himage⟩ := h.region hr
  exact if_neg fun hne => hne himage.sum

/-- Every region can be placed in a child whose injection site it spares. -/
theorem placeable (h : Snapped checksum T ctr s) {c : Child} {r : Proto.MemoryRegion}
    (hr : r ∈ s.memoryRegions) (hsite : SparesSite c r) : Placeable checksum c r := by
  obtain ⟨e, he, himage⟩ := h.region hr
  exact ⟨⟨himage.sum, himage.aligned he⟩, himage.fits he, himage.sized.contained, hsite⟩

theorem pagesApart (h : Snapped checksum T ctr s) : s.memoryRegions.Pairwise PagesApart := by
  refine h.separate.imp_of_mem fun hr hr' hseparate => ?_
  obtain ⟨e, he, himage⟩ := h.region hr
  obtain ⟨e', he', himage'⟩ := h.region hr'
  exact hseparate.pagesApart (himage.aligned he) (himage'.aligned he')

end Snapped

/-! ## The child -/

/-- The child is as the target was: of every mapping that is readable, neither vsyscall nor vvar,
and whose dump has not failed, it has the bytes, under the mapping's permissions; and it has the
registers but for `orig_rax`. -/
structure Rebuilt (T : Capture.Target) (ctr : List (Event Capture.CapResp)) (c : Child) : Prop where
  memory : ∀ e ∈ T.maps, e.region.isReadable = true →
    e.region.regionType ≠ "vsyscall" ∧ e.region.regionType ≠ "vvar" →
    Capture.dumpFailed ctr e = false → ∀ a, Memory.In e.start.toNat e.end_.toNat a →
      ∃ b prot, T.mem a = some ⟨b, ()⟩ ∧ c.mem a = some ⟨b, asU64 prot⟩ ∧ Protects e.perms prot
  regs : c.regs = { T.regs with origRax := 0xffffffffffffffff }
  fpregs : c.fpregs = T.fpregs

theorem cell_of {P : Type} {m : Memory P} {a : Nat} {b : UInt8} {p : P} (hbyte : m.byte a = some b)
    (hprot : (m a).map Cell.prot = some p) : m a = some ⟨b, p⟩ := by
  obtain ⟨⟨b', p'⟩, hcell, rfl⟩ := Option.map_eq_some_iff.mp hbyte
  rw [hcell] at hprot ⊢
  obtain rfl := Option.some.inj hprot
  rfl

/-- A region in place is the mapping it is of. -/
theorem placed_cell {e : MapsEntry} {r : Proto.MemoryRegion} {m : Memory UInt64} {a : Nat}
    (h : ImageOf checksum T e r) (he : Captured e) (hholds : m.Holds r.startAddr.toNat r.data)
    (hunder : m.Under r.startAddr.toNat (regionEnd r) (asU64 (finalProt r)))
    (ha : Memory.In e.start.toNat e.end_.toNat a) :
    ∃ b prot, T.mem a = some ⟨b, ()⟩ ∧ m a = some ⟨b, asU64 prot⟩ ∧ Protects e.perms prot := by
  have hstart : r.startAddr.toNat = e.start.toNat := congrArg UInt64.toNat h.start
  have hend := h.end_ he
  have hsized : r.data.length = r.sizeBytes.toNat := h.sized
  have hi : a - r.startAddr.toNat < r.data.length := by
    have := ha.1
    have := ha.2
    omega
  have hat : r.startAddr.toNat + (a - r.startAddr.toNat) = a := by
    have := ha.1
    omega
  have htarget := h.bytes _ hi
  have hchild := hholds _ hi
  have hprot := hunder a ⟨hstart ▸ ha.1, by rw [h.regionEnd_eq he]; exact ha.2⟩
  rw [hat] at htarget hchild
  rw [finalProt, h.perms] at hprot
  obtain ⟨⟨b, u⟩, hcell, hb⟩ := Option.map_eq_some_iff.mp htarget
  exact ⟨_, _, by rw [hcell, ← hb], cell_of hchild hprot, permsToProt_protects _⟩

/-- The region loop and `restore_registers`, run to their end on the snapshot of a capture, rebuild
the target. -/
theorem restoreState_rebuilds {s : Proto.ProcessSnapshot} (h : Snapped checksum T ctr s)
    {child : Int32} {w w' : World} {tr : List (Event RestResp)} {n : Nat}
    (hsite : ∀ r ∈ s.memoryRegions, SparesSite w.child r)
    (hr : Cmd.Runs (restoreState checksum s child ()) tr (.ok n, ()))
    (ha : Answered answer w tr w') :
    Rebuilt T ctr w'.child := by
  obtain ⟨-, regs, hregs, -, hchild⟩ := (restoreState_ensures hsite).returns rfl hr ha
  obtain rfl := Option.some.inj (h.registers.symm.trans hregs)
  have hcontained : ∀ r ∈ s.memoryRegions, Contained r := fun r hr => by
    obtain ⟨e, -, himage⟩ := h.region hr
    exact himage.sized.contained
  have hplaced := foldl_placed (m := w.child.mem) hcontained h.pagesApart
  rw [hchild]
  refine ⟨fun e he hread htype hfailed a hin => ?_, restored_eq T.regs T.fpregs, ?_⟩
  · have hmem : e ∈ dumpedMaps ctr T.maps :=
      mem_dumpedMaps.mpr ⟨he, not_skipped (T.nonempty e he) hread htype, hfailed⟩
    obtain ⟨r, hrmem, himage⟩ := (forall₂_members h.images).1 e hmem
    obtain ⟨hholds, hunder⟩ := hplaced r hrmem
    exact placed_cell himage (h.captured hmem) hholds hunder hin
  · exact dif_pos T.fpregs.property

/-! ## The round trip -/

/-- The snapshot of a target that keeps its mappings. -/
theorem capture_snapped {own : Capture.Target → Capture.Target → Prop} {t : Capture.Target}
    (hown : ∀ t t', own t t' → t'.maps = t.maps) (hpaged : ∀ e ∈ t.maps, Paged e) {pid : Int32}
    {s : Proto.ProcessSnapshot} {w : Capture.World}
    (h : (Capture.kernel own).Reaches (Capture.capture checksum pid ()) (.fresh t)
      ⟨.ret (.ok s, ()), ctr, w⟩) :
    ∃ T, w.frozen = some T ∧ T.maps = t.maps ∧ Snapped checksum T ctr s := by
  obtain ⟨T, maps, hfrozen, hread, harch, hregs, himages⟩ := Capture.capture_images h
  have hstays := Capture.stays hown h
  have hT : T.maps = t.maps := hstays.frozen T hfrozen
  have hmaps : maps = T.maps := (hstays.read _ _ hread).trans hT.symm
  refine ⟨T, hfrozen, hT, harch, hregs, fun e he => hpaged e (hT ▸ he), ?_⟩
  rw [hmaps, Capture.capturable] at himages
  exact (List.forall₂_map_left_iff.mp himages).imp fun e r => imageOf

/-- What is captured of a target that keeps its mappings, all of whole pages, is saved and loaded as
it is, passes everything the restorer tests, and is rebuilt by every restore of it that runs to its
end, in any child whose injection site it spares. -/
theorem restore_undoes_capture {own : Capture.Target → Capture.Target → Prop} {t : Capture.Target}
    (hown : ∀ t t', own t t' → t'.maps = t.maps) (hpaged : ∀ e ∈ t.maps, Paged e) {pid : Int32}
    {s : Proto.ProcessSnapshot} {w : Capture.World}
    (h : (Capture.kernel own).Reaches (Capture.capture checksum pid ()) (.fresh t)
      ⟨.ret (.ok s, ()), ctr, w⟩)
    (hsome : s.memoryRegions ≠ []) (hlen : (Wire.save s).length < 2 ^ 63) (path : String) :
    ∃ T, w.frozen = some T ∧ Wire.load path (Wire.save s) = .ok s ∧ validate s = .ok () ∧
      (∀ r ∈ s.memoryRegions, checkRegion checksum r = .ok ()) ∧
      (∃ regs, s.registers = some regs ∧ fpuState regs.fpuState = .ok T.fpregs) ∧
      ∀ (child : Int32) (w₁ w₂ : World) (tr : List (Event RestResp)) (n : Nat),
        (∀ r ∈ s.memoryRegions, SparesSite w₁.child r) →
        Cmd.Runs (restoreState checksum s child ()) tr (.ok n, ()) → Answered answer w₁ tr w₂ →
        Rebuilt T ctr w₂.child := by
  obtain ⟨T, hfrozen, -, hsnapped⟩ := capture_snapped hown hpaged h
  refine ⟨T, hfrozen, Wire.load_save (by omega), hsnapped.valid hsome, fun r => hsnapped.checked,
    ⟨_, hsnapped.registers, dif_pos T.fpregs.property⟩, fun child w₁ w₂ tr n hsite hr ha => ?_⟩
  exact restoreState_rebuilds hsnapped hsite hr ha

/-! ## A page of text -/

/-- Nothing happens between the calls. -/
theorem worker_reaches :
    (Capture.kernel fun _ _ => False).Reaches (Capture.capture (fun _ => 0) 42 ())
    (.fresh Capture.worker) ⟨.ret (.ok (Capture.textLog.snapshot 42), ()), Capture.textLog.trace 42,
      { target := Capture.worker, frozen := some Capture.worker }⟩ :=
  Env.Path.reaches
    (.answer ⟨rfl, fun _ h => (Except.ok.inj h).symm⟩ <|
      .answer rfl <|
      .answer rfl <|
      .own (.stops rfl rfl) <|
      .answer ⟨rfl, fun _ _ => rfl⟩ <|
      .answer ⟨rfl, fun _ h => (Except.ok.inj h).symm⟩ <|
      .answer ⟨rfl, fun _ h => (Except.ok.inj h).symm⟩ <|
      .answer ⟨rfl, fun _ h => Except.ok.inj h ▸ Capture.zeroPage_holds _⟩ <|
      .answer rfl <|
      .answer rfl <|
      .answer rfl .nil)
    Capture.textLog_valid.runs

theorem worker_paged : ∀ e ∈ Capture.worker.maps, Paged e := by
  intro e he
  obtain rfl := List.mem_singleton.mp he
  exact ⟨by decide, by decide, fun _ => by decide⟩

theorem restore_undoes_capture_worker : ∃ tr n w,
    Cmd.Runs (restoreState (fun _ => 0) (Capture.textLog.snapshot 42) 43 ()) tr (.ok n, ()) ∧
      Answered answer quietWorld tr w ∧
        Rebuilt Capture.worker (Capture.textLog.trace 42) w.child := by
  obtain ⟨T, hT, -, -, -, -, hrebuilt⟩ := restore_undoes_capture (fun _ _ h => h.elim)
    worker_paged worker_reaches (List.cons_ne_nil _ _) (by decide +kernel) "snapshot.pb"
  obtain rfl : Capture.worker = T := Option.some.inj hT
  obtain ⟨T', hT', -, hsnapped⟩ := capture_snapped (fun _ _ h => h.elim) worker_paged worker_reaches
  have hsite : ∀ r ∈ (Capture.textLog.snapshot 42).memoryRegions,
      SparesSite quietWorld.child r := by
    intro r hr
    obtain rfl := List.mem_singleton.mp hr
    exact Or.inr (by decide)
  obtain ⟨tr, w, hr, ha, -⟩ := restoreState_done (w := quietWorld) 43 stub_site
    (fun r hr => hsnapped.placeable hr (hsite r hr)) hsnapped.registers fun _ => T'.fpregs.property
  exact ⟨tr, _, w, hr, ha, hrebuilt 43 quietWorld w tr _ hsite hr ha⟩

end Wraith.Restore

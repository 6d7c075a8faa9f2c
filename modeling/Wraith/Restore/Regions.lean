/-
# `Wraith.Restore.Regions` — what the loop over the regions does to memory

As long as no region covers the word of the stub at which system calls are injected, the loop is a
function of memory: `regionMem` for each region, in turn (`restoreRegions_ensures`).  Regions whose
pages are apart, and whose bytes lie within their pages, are in place behind it (`foldl_placed`).
-/
import Wraith.Restore.Injection

namespace Wraith.Restore

open Lib Script Process

variable {checksum : List UInt8 → UInt64} {child : Int32} {c : Child} {region : Proto.MemoryRegion}
  {regions : List Proto.MemoryRegion} {m : Memory UInt64}

/-! ## One call -/

theorem mmap_ensures {addr len : UInt64} {prot : Int32}
    (happart : Memory.Apart c.regs.rip.toNat (c.regs.rip.toNat + 8) addr.toNat
      (pagesEnd addr len)) :
    Ensures answer (fun w => w.child = c)
      (mmap child addr len prot (mapFixed ||| mapPrivate ||| mapAnonymous) (-1) 0)
      (fun _ w => pageSize ∣ addr.toNat ∧
        w.child = { c with mem := c.mem.map addr.toNat (pagesEnd addr len) (asU64 prot) }) := by
  refine (inject_ensures fun _ => happart).mono (fun _ h => h) ?_
  rintro ret w ⟨hret, mem, fds, hcall, hw⟩
  cases hcall with
  | fails herrno => exact absurd (hret.symm.trans herrno) (by decide)
  | mmap _ _ hpage _ => exact ⟨hpage, hw⟩
  | mprotect hnr _ _ => exact absurd (show sysMmap = sysMprotect from hnr) (by decide)
  | dup2 hnr _ _ => exact absurd (show sysMmap = sysDup2 from hnr) (by decide)

theorem mprotect_ensures {addr len : UInt64} {prot : Int32} :
    Ensures answer (fun w => w.child = c) (mprotect child addr len prot)
      (fun _ w => w.child =
        { c with mem := c.mem.protect addr.toNat (pagesEnd addr len) (asU64 prot) }) := by
  rw [mprotect]
  refine Ensures.bind (inject_ensures fun h => absurd h (by decide)) fun ret => Ensures.pure ?_
  rintro w ⟨hret, mem, fds, hcall, hw⟩
  cases hcall with
  | fails herrno => exact absurd (hret.symm.trans herrno) (by decide)
  | mmap hnr _ _ _ => exact absurd (show sysMprotect = sysMmap from hnr) (by decide)
  | mprotect _ _ _ => exact hw
  | dup2 hnr _ _ => exact absurd (show sysMprotect = sysDup2 from hnr) (by decide)

theorem writeToChildMem_ensures {addr : UInt64} {data : List UInt8} :
    Ensures answer (fun w => w.child = c) (writeToChildMem child addr data) (fun _ w =>
      c.mem.Mapped addr.toNat (addr.toNat + data.length) ∧
        w.child = { c with mem := c.mem.write addr.toNat data }) := by
  rw [writeToChildMem]
  refine Ensures.bind (J := fun _ w => w.child = c) (Ensures.call ?_) fun _ =>
    Ensures.bind (J := fun _ w => w.child = c) (Ensures.call ?_) fun _ => Ensures.call ?_
  · rintro w r w' _ hw rfl _
    exact hw
  · rintro w r w' _ hw rfl _
    exact hw
  · rintro w r w' _ rfl ha hr
    cases r with
    | error e => exact nomatch hr
    | ok _ =>
        obtain ⟨hmapped, rfl⟩ := ha
        exact ⟨hmapped, rfl⟩

/-! ## The loop -/

/-- The range a region is mapped at. -/
def regionEnd (region : Proto.MemoryRegion) : Nat := pagesEnd region.startAddr region.sizeBytes

/-- What is mapped and written for a region. -/
def regionFilled (m : Memory UInt64) (region : Proto.MemoryRegion) : Memory UInt64 :=
  (m.map region.startAddr.toNat (regionEnd region) (asU64 (mmapProt region))).write
    region.startAddr.toNat region.data

/-- What the rest of a round makes of memory in which the region has been mapped. -/
def regionFinished (m : Memory UInt64) (region : Proto.MemoryRegion) : Memory UInt64 :=
  if finalProt region ≠ mmapProt region then
    (m.write region.startAddr.toNat region.data).protect region.startAddr.toNat (regionEnd region)
      (asU64 (finalProt region))
  else m.write region.startAddr.toNat region.data

/-- What a round of the loop makes of memory. -/
def regionMem (m : Memory UInt64) (region : Proto.MemoryRegion) : Memory UInt64 :=
  if finalProt region ≠ mmapProt region then
    (regionFilled m region).protect region.startAddr.toNat (regionEnd region)
      (asU64 (finalProt region))
  else regionFilled m region

/-- The word at which system calls are injected. -/
def InWord (c : Child) (a : Nat) : Prop := Memory.In c.regs.rip.toNat (c.regs.rip.toNat + 8) a

/-- An address of the region's pages. -/
def InPages (region : Proto.MemoryRegion) (a : Nat) : Prop :=
  Memory.In region.startAddr.toNat (regionEnd region) a

/-- An address at which a byte of the region's data is written. -/
def InData (region : Proto.MemoryRegion) (a : Nat) : Prop :=
  Memory.In region.startAddr.toNat (region.startAddr.toNat + region.data.length) a

/-- The region does not cover the word at which system calls are injected. -/
def SparesSite (c : Child) (region : Proto.MemoryRegion) : Prop :=
  Memory.Apart c.regs.rip.toNat (c.regs.rip.toNat + 8) region.startAddr.toNat (regionEnd region)

/-- The region covers the `int3` of an injection. -/
def CoversTrap (c : Child) (region : Proto.MemoryRegion) : Prop :=
  InPages region (c.regs.rip.toNat + 2)

theorem SparesSite.not_covers (h : SparesSite c region) : ¬ CoversTrap c region :=
  Memory.Apart.not_in h ⟨Nat.le_add_right _ _, by omega⟩

/-- What is known of a region that a round has gone through. -/
structure Passed (checksum : List UInt8 → UInt64) (region : Proto.MemoryRegion) : Prop where
  sum : checksum region.data = region.checksum
  aligned : pageSize ∣ region.startAddr.toNat

theorem checkRegion_ok {u : Unit} (h : checkRegion checksum region = .ok u) :
    checksum region.data = region.checksum := by
  unfold checkRegion at h
  simp only at h
  split at h
  · exact nomatch h
  case isFalse hsum => exact Decidable.not_not.mp hsum

theorem restoreRegion_ensures (hsite : SparesSite c region) :
    Ensures answer (fun w => w.child = c) (restoreRegion checksum child region) (fun _ w =>
      Passed checksum region ∧ w.child = { c with mem := regionMem c.mem region }) := by
  rw [restoreRegion]
  refine Ensures.bind (J := fun _ w => checksum region.data = region.checksum ∧ w.child = c)
    (Ensures.ofExcept fun w _ hw hsum => ⟨checkRegion_ok hsum, hw⟩) fun _ =>
    Ensures.fact fun hsum => ?_
  refine Ensures.bind (mmap_ensures hsite) fun mapped => Ensures.fact fun haligned => ?_
  refine Ensures.bind (Ensures.ofExcept fun w _ hw _ => hw) fun _ => ?_
  refine Ensures.bind writeToChildMem_ensures fun _ => Ensures.fact fun _ => ?_
  have hpassed : Passed checksum region := ⟨hsum, haligned⟩
  rw [regionMem]
  split
  case isTrue hprot => exact mprotect_ensures.mono (fun _ h => h) fun _ _ h => ⟨hpassed, h⟩
  case isFalse hprot => exact Ensures.pure fun w hw => ⟨hpassed, hw⟩

theorem restoreRegions_ensures {n : Nat} (hsite : ∀ r ∈ regions, SparesSite c r) :
    Ensures answer (fun w => w.child = c) (restoreRegions checksum child regions n) (fun _ w =>
      (∀ r ∈ regions, Passed checksum r) ∧
        w.child = { c with mem := regions.foldl regionMem c.mem }) := by
  induction regions generalizing c n with
  | nil => exact Ensures.pure fun w hw => ⟨fun _ h => (nomatch h), hw⟩
  | cons region regions ih =>
      rw [restoreRegions]
      refine Ensures.bind (restoreRegion_ensures (hsite region (.head _))) fun _ =>
        Ensures.fact fun hpassed => ?_
      refine (ih (c := { c with mem := regionMem c.mem region }) fun r hr =>
        hsite r (.tail _ hr)).mono (fun _ h => h) ?_
      rintro _ w ⟨hrest, hw⟩
      exact ⟨List.forall_mem_cons.mpr ⟨hpassed, hrest⟩, hw⟩

/-! ## Regions in memory -/

/-- A region with as many bytes as it says. -/
def Sized (region : Proto.MemoryRegion) : Prop := region.data.length = region.sizeBytes.toNat

/-- A region whose bytes do not reach behind its pages. -/
def Contained (region : Proto.MemoryRegion) : Prop :=
  region.startAddr.toNat + region.data.length ≤ regionEnd region

theorem regionEnd_le (region : Proto.MemoryRegion) :
    region.startAddr.toNat + region.sizeBytes.toNat ≤ regionEnd region :=
  Memory.le_pageUp (by decide)

theorem Sized.contained (h : Sized region) : Contained region := by
  rw [Contained, h]
  exact regionEnd_le region

/-- What is filled is mapped. -/
theorem filled_mapped (h : Contained region) :
    (m.map region.startAddr.toNat (regionEnd region) (asU64 (mmapProt region))).Mapped
      region.startAddr.toNat (region.startAddr.toNat + region.data.length) :=
  Memory.map_mapped.mono le_rfl h

theorem regionFilled_holds (h : Contained region) :
    (regionFilled m region).Holds region.startAddr.toNat region.data :=
  Memory.write_holds (filled_mapped h)

theorem regionFilled_under :
    (regionFilled m region).Under region.startAddr.toNat (regionEnd region)
      (asU64 (mmapProt region)) := Memory.map_under.write

/-- A round puts the region's bytes in place. -/
theorem regionMem_holds (h : Contained region) :
    (regionMem m region).Holds region.startAddr.toNat region.data := by
  unfold regionMem
  split
  · exact (regionFilled_holds h).protect
  · exact regionFilled_holds h

/-- And under the protection it asks for. -/
theorem regionMem_under : (regionMem m region).Under region.startAddr.toNat (regionEnd region)
    (asU64 (finalProt region)) := by
  unfold regionMem
  split
  · exact Memory.protect_under regionFilled_under.mapped
  case isFalse hprot =>
    rw [Decidable.not_not.mp hprot]
    exact regionFilled_under

/-- Elsewhere nothing changes. -/
theorem regionFilled_agree {lo hi : Nat} (hcontained : Contained region)
    (h : Memory.Apart lo hi region.startAddr.toNat (regionEnd region)) :
    m.Agree (regionFilled m region) lo hi := by
  have hwrite : Memory.Apart lo hi region.startAddr.toNat
      (region.startAddr.toNat + region.data.length) :=
    h.imp id fun h => Nat.le_trans hcontained h
  exact (Memory.map_agree h).trans (Memory.write_agree hwrite)

theorem regionMem_agree {lo hi : Nat} (hcontained : Contained region)
    (h : Memory.Apart lo hi region.startAddr.toNat (regionEnd region)) :
    m.Agree (regionMem m region) lo hi := by
  unfold regionMem
  split
  · exact (regionFilled_agree hcontained h).trans (Memory.protect_agree h)
  · exact regionFilled_agree hcontained h

/-- Regions whose pages are apart. -/
def PagesApart (r r' : Proto.MemoryRegion) : Prop :=
  Memory.Apart r.startAddr.toNat (regionEnd r) r'.startAddr.toNat (regionEnd r')

theorem Separate.pagesApart {r r' : Proto.MemoryRegion} (h : Separate r r')
    (hr : pageSize ∣ r.startAddr.toNat) (hr' : pageSize ∣ r'.startAddr.toNat) : PagesApart r r' :=
  Memory.Apart.pageUp (by decide) hr hr' h

/-- The loop leaves the pages it does not map as they are. -/
theorem foldl_agree {lo hi : Nat} (hcontained : ∀ r ∈ regions, Contained r)
    (h : ∀ r ∈ regions, Memory.Apart lo hi r.startAddr.toNat (regionEnd r)) :
    m.Agree (regions.foldl regionMem m) lo hi := by
  induction regions generalizing m with
  | nil => exact .refl
  | cons region regions ih =>
      exact (regionMem_agree (hcontained _ (.head _)) (h _ (.head _))).trans
        (ih (fun r hr => hcontained r (.tail _ hr)) fun r hr => h r (.tail _ hr))

/-- Behind the loop every region is in place: its bytes, and its protection.  A region is put there
in its round, and the later rounds are elsewhere. -/
theorem foldl_placed (hcontained : ∀ r ∈ regions, Contained r)
    (hapart : regions.Pairwise PagesApart) :
    ∀ r ∈ regions, (regions.foldl regionMem m).Holds r.startAddr.toNat r.data ∧
      (regions.foldl regionMem m).Under r.startAddr.toNat (regionEnd r) (asU64 (finalProt r)) := by
  induction regions generalizing m with
  | nil => exact fun _ h => (nomatch h)
  | cons region regions ih =>
      obtain ⟨hhead, htail⟩ := List.pairwise_cons.mp hapart
      have hrest : ∀ r ∈ regions, Contained r := fun r hr => hcontained r (.tail _ hr)
      intro r hr
      obtain rfl | hr := List.mem_cons.mp hr
      · have hself := hcontained r (.head _)
        have hagree := foldl_agree (m := regionMem m r) hrest hhead
        exact ⟨(regionMem_holds hself).of_agree fun a ha =>
          hagree a ⟨ha.1, Nat.lt_of_lt_of_le ha.2 hself⟩, regionMem_under.of_agree hagree⟩
      · exact ih hrest htail r hr

/-! ## Registers -/

/-- A child with the registers of a snapshot; without FPU state it keeps its own. -/
def Child.loaded (c : Child) (regs : Proto.Registers) : Child :=
  { c with
    regs := regs.toUser
    fpregs := if h : regs.fpuState.length = fpregsSize then ⟨regs.fpuState, h⟩ else c.fpregs }

/-- The FPU state of a snapshot that has one is as long as it has to be. -/
def FpuSized (regs : Proto.Registers) : Prop :=
  regs.fpuState ≠ [] → regs.fpuState.length = fpregsSize

theorem restoreRegisters_ensures {registers : Option Proto.Registers} :
    Ensures answer (fun w => w.child = c) (restoreRegisters child registers) (fun _ w =>
      ∃ regs, registers = some regs ∧ FpuSized regs ∧ w.child = c.loaded regs) := by
  rw [restoreRegisters]
  refine Ensures.bind (J := fun regs w => registers = some regs ∧ w.child = c)
    (Ensures.ofExcept fun w regs hw hr => ?_) fun regs => Ensures.fact fun hregs => ?_
  · cases registers with
    | none => exact nomatch hr
    | some regs' => exact ⟨congrArg some (Except.ok.inj hr), hw⟩
  refine Ensures.bind (J := fun _ w => w.child = { c with regs := regs.toUser })
    (Ensures.call ?_) fun _ => ?_
  · rintro w r w' _ rfl ha hr
    cases r with
    | error e => exact nomatch hr
    | ok _ =>
        obtain rfl := ha
        rfl
  split
  case isTrue hfpu =>
    refine Ensures.bind (J := fun fpregs w => fpuState regs.fpuState = .ok fpregs ∧
      w.child = { c with regs := regs.toUser })
      (Ensures.ofExcept fun w fpregs hw hr => ⟨hr, hw⟩) fun fpregs => Ensures.fact fun hfpregs => ?_
    unfold fpuState at hfpregs
    split at hfpregs
    case isFalse h => exact nomatch hfpregs
    case isTrue hlen =>
      obtain rfl := Except.ok.inj hfpregs
      refine Ensures.call ?_
      rintro w r w' _ hw ha hr
      cases r with
      | error e => exact nomatch hr
      | ok _ =>
          obtain rfl := ha
          refine ⟨regs, hregs, fun _ => hlen, ?_⟩
          simp only [Child.loaded, dif_pos hlen, hw]
  case isFalse hfpu =>
    have hnil := Decidable.not_not.mp hfpu
    refine Ensures.pure fun w hw => ⟨regs, hregs, fun h => absurd hnil h, ?_⟩
    have hlen : ¬ regs.fpuState.length = fpregsSize := by
      rw [hnil]
      decide
    simp only [Child.loaded, dif_neg hlen, hw]

/-- Memory and registers of the child, before the descriptors. -/
theorem restoreState_ensures {s : Proto.ProcessSnapshot}
    (hsite : ∀ r ∈ s.memoryRegions, SparesSite c r) :
    Ensures answer (fun w => w.child = c) (restoreState checksum s child) (fun _ w =>
      (∀ r ∈ s.memoryRegions, Passed checksum r) ∧ ∃ regs, s.registers = some regs ∧
        FpuSized regs ∧ w.child =
          ({ c with mem := s.memoryRegions.foldl regionMem c.mem } : Child).loaded regs) := by
  rw [restoreState]
  refine Ensures.bind (restoreRegions_ensures hsite) fun n => Ensures.fact fun hpassed => ?_
  refine Ensures.bind restoreRegisters_ensures fun _ => Ensures.pure fun w hw => ⟨hpassed, hw⟩

end Wraith.Restore

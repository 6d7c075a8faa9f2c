/-
# `Wraith.Restore.Rounds` — the loop over the regions, wherever they lie

What a round of the loop has done when it returns, nothing being known of its region (`Round`): the
data are in place, and elsewhere a byte has changed only if the round `Touches` it.  `Rounds` puts
them one behind the other, so that a byte is in place behind the loop if no later round touches it.

And which regions the loop gets through, which is the other half: `Completes` says it of the stub
and of the regions.  `Rounds.completes` shows that nothing else is gone through,
`restoreRegions_completes` that there is a run for everything it admits.

A region that covers the `int3` leaves the child to itself.  It may stop at a trap all the same,
with any memory; what is certain then is the word, which is put back.
-/
import Wraith.Restore.Undisturbed

namespace Wraith.Restore

open Lib Script Process

variable {checksum : List UInt8 → UInt64} {child : Int32} {c c' c₁ : Child}
  {region : Proto.MemoryRegion} {regions : List Proto.MemoryRegion}

/-! ## Beside a region -/

theorem word_other {m : Memory UInt64} {word : UInt64} {a : Nat} (h : ¬ InWord c a) :
    (m.write c.regs.rip.toNat (wordBytes word)) a = m a := Memory.write_other h

theorem data_other {m : Memory UInt64} {a : Nat} (h : ¬ InData region a) :
    (m.write region.startAddr.toNat region.data) a = m a := Memory.write_other h

theorem pages_other {m : Memory UInt64} {prot : UInt64} {a : Nat} (h : ¬ InPages region a) :
    (m.map region.startAddr.toNat (regionEnd region) prot) a = m a := if_neg h

theorem pages_fresh {m : Memory UInt64} {prot : UInt64} {a : Nat} (h : InPages region a) :
    (m.map region.startAddr.toNat (regionEnd region) prot) a = some ⟨0, prot⟩ := if_pos h

/-! ## A round -/

/-- A round may change the byte: data are written there, or, outside of the injected word, the pages
of the region lie there or the child goes astray. -/
def Touches (c : Child) (region : Proto.MemoryRegion) (a : Nat) : Prop :=
  InData region a ∨ ¬ InWord c a ∧ (InPages region a ∨ CoversTrap c region)

/-- What an injected `mmap` that has returned has made of `c`. -/
structure MapsRegion (c : Child) (prot : Int32) (region : Proto.MemoryRegion) (c' : Child) :
    Prop where
  aligned : pageSize ∣ region.startAddr.toNat
  site : SiteMapped c
  stays : SiteMapped c'
  regs : c'.regs = c.regs
  word : ∀ a, InWord c a → c'.mem.byte a = c.mem.byte a
  rest : ¬ CoversTrap c region → ∀ a, ¬ InWord c a →
    c'.mem a = (c.mem.map region.startAddr.toNat (regionEnd region) (asU64 prot)) a

/-- What a round that has returned has made of `c`. -/
structure Round (checksum : List UInt8 → UInt64) (c : Child) (region : Proto.MemoryRegion)
    (c' : Child) : Prop where
  passed : Passed checksum region
  site : SiteMapped c
  stays : SiteMapped c'
  regs : c'.regs = c.regs
  bytes : c'.mem.Holds region.startAddr.toNat region.data
  frame : ∀ a, ¬ Touches c region a → c'.mem.byte a = c.mem.byte a
  fresh : ¬ CoversTrap c region → ∀ a, InPages region a → ¬ InWord c a → ¬ InData region a →
    c'.mem.byte a = some 0
  grows : ∀ a, (c'.mem a).isSome → (c.mem a).isSome ∨ InPages region a ∨ CoversTrap c region

/-- A child stopped at a trap is behind the system call, or the call has taken the `int3` away. -/
theorem Trapped.syscall {nr word : UInt64} {args : CallArgs} {stopped : Child}
    (hword : c.mem.Holds c.regs.rip.toNat (wordBytes word)) (h : Trapped c nr args word stopped) :
    ∃ ret mem fds, Syscall ((c.patched word).calling nr args) ret mem fds ∧
      (stopped.regs.rax = ret ∧ stopped.mem = mem ∨ ¬ Traps c mem) := by
  cases h with
  | traps _ hcall _ => exact ⟨_, _, _, hcall, Or.inl ⟨rfl, rfl⟩⟩
  | strays hstray _ =>
      obtain ⟨ret, mem, fds, hcall, hgone⟩ := hstray (patched_trapCode hword) rfl
      exact ⟨ret, mem, fds, hcall, Or.inr hgone⟩

theorem mmap_maps {prot : Int32} :
    Ensures answer (fun w => w.child = c)
      (mmap child region.startAddr region.sizeBytes prot
        (mapFixed ||| mapPrivate ||| mapAnonymous) (-1) 0)
      (fun _ w => MapsRegion c prot region w.child) := by
  refine inject_returns.mono (fun _ h => h) ?_
  rintro ret w ⟨word, stopped, hword, htrapped, hmapped, hchild, hvalue, herrno⟩
  have hpatch := patched_holds hword
  have htraps : Traps c (c.patched word).mem := traps_of_holds hpatch
  have hmem : w.child.mem = stopped.mem.write c.regs.rip.toNat (wordBytes word) := by
    rw [hchild]; rfl
  -- The call was made, and beside the `int3` memory is as it has left it.
  have hcalled : pageSize ∣ region.startAddr.toNat ∧ (¬ CoversTrap c region → stopped.mem =
      (c.patched word).mem.map region.startAddr.toNat (regionEnd region) (asU64 prot)) := by
    obtain ⟨ret', mem, fds, hcall, hend⟩ := Trapped.syscall hword htrapped
    cases hcall with
    | fails herr =>
        obtain ⟨hret, -⟩ | hgone := hend
        · rw [hvalue, hret, herr] at herrno
          exact nomatch herrno
        · exact absurd htraps hgone
    | mmap _ _ hpage _ =>
        refine ⟨hpage, fun hcovers => ?_⟩
        obtain ⟨-, hsame⟩ | hgone := hend
        · exact hsame
        · refine absurd ?_ hgone
          exact (congrArg (Option.map Cell.byte) (pages_other hcovers)).trans htraps
    | mprotect hnr _ _ => exact absurd (show sysMmap = sysMprotect from hnr) (by decide)
    | dup2 hnr _ _ => exact absurd (show sysMmap = sysDup2 from hnr) (by decide)
  have hregs : w.child.regs = c.regs := by rw [hchild]; rfl
  refine ⟨hcalled.1, hword.mapped, ?_, hregs, fun a ha => ?_, fun hcovers a ha => ?_⟩
  · rw [SiteMapped, hregs, hmem]
    exact Memory.mapped_write.mpr hmapped
  · rw [hmem]
    exact (Memory.write_holds hmapped).byte_eq hword ha
  · have houtside : (c.patched word).mem a = c.mem a := word_other ha
    rw [hmem, word_other ha, hcalled.2 hcovers, Memory.map, Memory.map, houtside]

/-- With the data written and the protection set, the round is over. -/
theorem MapsRegion.round {prot : Int32} {mem : Memory UInt64} (h : MapsRegion c prot region c₁)
    (hsum : checksum region.data = region.checksum)
    (hroom : c₁.mem.Mapped region.startAddr.toNat (region.startAddr.toNat + region.data.length))
    (hbytes : ∀ a, mem.byte a = (c₁.mem.write region.startAddr.toNat region.data).byte a) :
    Round checksum c region { c₁ with mem } := by
  have hsome : ∀ a, (mem a).isSome = (c₁.mem a).isSome := fun a => by
    have hbyte := congrArg Option.isSome (hbytes a)
    rw [Memory.byte, Memory.byte, Option.isSome_map, Option.isSome_map,
      Memory.isSome_write] at hbyte
    exact hbyte
  refine ⟨⟨hsum, h.aligned⟩, h.site, fun a ha => ?_, h.regs, fun i hi => ?_, fun a ha => ?_,
    fun hcovers a hpages hword hdata => ?_, fun a ha => ?_⟩
  · rw [hsome]
    exact h.stays a ha
  · rw [hbytes]
    exact Memory.write_holds hroom i hi
  · obtain ⟨hdata, helse⟩ := not_or.mp ha
    rw [hbytes, Memory.byte, data_other hdata]
    by_cases hword : InWord c a
    · exact h.word a hword
    · obtain ⟨hpages, hcovers⟩ := not_or.mp fun hor => helse ⟨hword, hor⟩
      rw [h.rest hcovers a hword, pages_other hpages]
      rfl
  · rw [hbytes, Memory.byte, data_other hdata, h.rest hcovers a hword, pages_fresh hpages]
    rfl
  · rw [hsome] at ha
    by_cases hcovers : CoversTrap c region
    · exact Or.inr (Or.inr hcovers)
    by_cases hword : InWord c a
    · exact Or.inl (h.site a hword)
    rw [h.rest hcovers a hword, Memory.map] at ha
    split at ha
    case isTrue hpages => exact Or.inr (Or.inl hpages)
    case isFalse => exact Or.inl ha

theorem restoreRegion_round :
    Ensures answer (fun w => w.child = c) (restoreRegion checksum child region)
    (fun _ w => Round checksum c region w.child) := by
  rw [restoreRegion]
  refine Ensures.bind (J := fun _ w => checksum region.data = region.checksum ∧ w.child = c)
    (Ensures.ofExcept fun w _ hw hsum => ⟨checkRegion_ok hsum, hw⟩) fun _ =>
    Ensures.fact fun hsum => ?_
  refine Ensures.bind (J := fun _ w => ∃ c₁, MapsRegion c (mmapProt region) region c₁ ∧
    w.child = c₁)
    (mmap_maps.mono (fun _ h => h) fun _ w h => ⟨w.child, h, rfl⟩) fun mapped =>
    Triple.exists fun c₁ => Triple.fact fun hmaps => ?_
  refine Ensures.bind (J := fun _ w => w.child = c₁) (Ensures.ofExcept fun w _ hw _ => hw)
    fun _ => ?_
  refine Ensures.bind writeToChildMem_ensures fun _ => Ensures.fact fun hroom => ?_
  split
  · refine mprotect_ensures.mono (fun _ h => h) fun _ w hw => ?_
    rw [hw]
    exact hmaps.round hsum hroom fun a => Memory.protect_byte
  · refine Ensures.pure fun w hw => ?_
    rw [hw]
    exact hmaps.round hsum hroom fun _ => rfl

/-! ## The loop -/

/-- Rounds, one behind the other. -/
inductive Rounds (checksum : List UInt8 → UInt64) : Child → List Proto.MemoryRegion → Child → Prop
  | nil {c : Child} : Rounds checksum c [] c
  | cons {c c₁ c' : Child} {region : Proto.MemoryRegion} {regions : List Proto.MemoryRegion} :
      Round checksum c region c₁ → Rounds checksum c₁ regions c' →
        Rounds checksum c (region :: regions) c'

theorem restoreRegions_rounds {n : Nat} : Ensures answer (fun w => w.child = c)
    (restoreRegions checksum child regions n) (fun _ w => Rounds checksum c regions w.child) := by
  induction regions generalizing c n with
  | nil => exact Ensures.pure fun w hw => hw ▸ .nil
  | cons region regions ih =>
      rw [restoreRegions]
      refine Ensures.bind (J := fun _ w => ∃ c₁, Round checksum c region c₁ ∧ w.child = c₁)
        (restoreRegion_round.mono (fun _ h => h) fun _ w h => ⟨w.child, h, rfl⟩) fun _ =>
        Triple.exists fun c₁ => Triple.fact fun hround => ?_
      exact ih.mono (fun _ h => h) fun _ _ h => .cons hround h

theorem Rounds.split {pre post : List Proto.MemoryRegion}
    (h : Rounds checksum c (pre ++ region :: post) c') :
    ∃ c₁ c₂, Rounds checksum c pre c₁ ∧ Round checksum c₁ region c₂ ∧
      Rounds checksum c₂ post c' := by
  induction pre generalizing c with
  | nil => cases h with
    | cons hround hrest => exact ⟨_, _, .nil, hround, hrest⟩
  | cons _ pre ih => cases h with
    | cons hround hrest =>
        obtain ⟨c₁, c₂, hpre, hmid, hpost⟩ := ih hrest
        exact ⟨c₁, c₂, .cons hround hpre, hmid, hpost⟩

theorem Rounds.regs (h : Rounds checksum c regions c') : c'.regs = c.regs := by
  induction h with
  | nil => rfl
  | cons hround _ ih => exact ih.trans hround.regs

theorem Rounds.passed (h : Rounds checksum c regions c') : ∀ r ∈ regions, Passed checksum r := by
  induction h with
  | nil => exact fun _ hr => nomatch hr
  | cons hround _ ih => exact List.forall_mem_cons.mpr ⟨hround.passed, ih⟩

theorem touches_congr (h : c'.regs = c.regs) {a : Nat} :
    Touches c' region a ↔ Touches c region a := by
  rw [Touches, Touches, InWord, InWord, CoversTrap, CoversTrap, h]

/-- What no round touches is left as it is. -/
theorem Rounds.frame (h : Rounds checksum c regions c') {a : Nat}
    (ha : ∀ r ∈ regions, ¬ Touches c r a) : c'.mem.byte a = c.mem.byte a := by
  induction h with
  | nil => rfl
  | cons hround _ ih =>
      obtain ⟨hhead, htail⟩ := List.forall_mem_cons.mp ha
      rw [ih fun r hr => (touches_congr hround.regs).not.mpr (htail r hr), hround.frame a hhead]

/-- A byte of a region is in place behind the loop, if no later round touches it. -/
theorem Rounds.places {pre post : List Proto.MemoryRegion}
    (h : Rounds checksum c (pre ++ region :: post) c') {i : Nat} (hi : i < region.data.length)
    (hpost : ∀ r ∈ post, ¬ Touches c r (region.startAddr.toNat + i)) :
    c'.mem.byte (region.startAddr.toNat + i) = some region.data[i] := by
  obtain ⟨c₁, c₂, hpre, hround, hrest⟩ := h.split
  have hregs : c₂.regs = c.regs := hround.regs.trans hpre.regs
  rw [hrest.frame fun r hr => (touches_congr hregs).not.mpr (hpost r hr)]
  exact hround.bytes i hi

/-! ## What is lost behind a round -/

/-- A round may leave another byte than `b` at the address. -/
def Ruins (c : Child) (region : Proto.MemoryRegion) (a : Nat) (b : UInt8) : Prop :=
  InData region a ∧ region.data[a - region.startAddr.toNat]? ≠ some b ∨
  ¬ InData region a ∧ ¬ InWord c a ∧ (CoversTrap c region ∨ InPages region a ∧ b ≠ 0)

theorem ruins_congr (h : c'.regs = c.regs) {a : Nat} {b : UInt8} :
    Ruins c' region a b ↔ Ruins c region a b := by
  rw [Ruins, Ruins, InWord, InWord, CoversTrap, CoversTrap, h]

theorem Ruins.touches {a : Nat} {b : UInt8} (h : Ruins c region a b) : Touches c region a := by
  obtain ⟨hdata, -⟩ | ⟨-, hword, hlost⟩ := h
  · exact Or.inl hdata
  · exact Or.inr ⟨hword, (hlost.imp_right And.left).symm⟩

/-- Data that are written are there. -/
theorem Round.data (h : Round checksum c region c') {a : Nat} (ha : InData region a) :
    c'.mem.byte a = region.data[a - region.startAddr.toNat]? := by
  obtain ⟨hle, hlt⟩ := ha
  have hi : a - region.startAddr.toNat < region.data.length := by omega
  have hbyte := h.bytes _ hi
  rw [Nat.add_sub_cancel' hle] at hbyte
  rw [hbyte, List.getElem?_eq_getElem hi]

/-- A byte that was there, or that the round is about, is there behind it. -/
theorem Round.keeps (h : Round checksum c region c') {a : Nat} {b : UInt8}
    (hb : c.mem.byte a = some b ∨ Touches c region a) (hruins : ¬ Ruins c region a b) :
    c'.mem.byte a = some b := by
  obtain ⟨hdata, helse⟩ := not_or.mp hruins
  by_cases hin : InData region a
  · rw [h.data hin]
    exact Decidable.not_not.mp fun hne => hdata ⟨hin, hne⟩
  by_cases htouch : Touches c region a
  · obtain hin' | ⟨hword, -⟩ := id htouch
    · exact absurd hin' hin
    obtain ⟨hcovers, hpages⟩ := not_or.mp fun hor => helse ⟨hin, hword, hor⟩
    obtain hin' | ⟨-, hpage | hcovers'⟩ := htouch
    · exact absurd hin' hin
    · rw [h.fresh hcovers a hpage hword hin]
      exact congrArg some (Decidable.not_not.mp fun hne => hpages ⟨hpage, Ne.symm hne⟩)
    · exact absurd hcovers' hcovers
  · rw [h.frame a htouch]
    exact hb.resolve_right htouch

/-- So it is behind the loop, if every round that may ruin it has a later one that touches it. -/
theorem Rounds.keeps (h : Rounds checksum c regions c') {a : Nat} {b : UInt8}
    (hb : c.mem.byte a = some b ∨ ∃ r ∈ regions, Touches c r a)
    (hmended : ∀ mid r post, regions = mid ++ r :: post → Ruins c r a b →
      ∃ x ∈ post, Touches c x a) :
    c'.mem.byte a = some b := by
  induction h with
  | nil => exact hb.resolve_right fun ⟨_, hr, _⟩ => nomatch hr
  | @cons c c₁ c' region regions hround _ ih =>
      refine ih ?_ fun mid r post heq hruins => ?_
      · by_cases hlater : ∃ r ∈ regions, Touches c₁ r a
        · exact Or.inr hlater
        have hnone : ¬ ∃ r ∈ regions, Touches c r a := fun ⟨r, hr, htouch⟩ =>
          hlater ⟨r, hr, (touches_congr hround.regs).mpr htouch⟩
        refine Or.inl (hround.keeps (hb.imp_right fun ⟨r, hr, htouch⟩ => ?_) fun hruins =>
          hnone (hmended [] region regions rfl hruins))
        obtain rfl | hr := List.mem_cons.mp hr
        · exact htouch
        · exact absurd ⟨r, hr, htouch⟩ hnone
      · obtain ⟨x, hx, htouch⟩ := hmended (region :: mid) r post (congrArg _ heq)
          ((ruins_congr hround.regs).mp hruins)
        exact ⟨x, hx, (touches_congr hround.regs).mpr htouch⟩

/-- A loop that goes through the regions of a list goes on with the next. -/
theorem restoreRegions_append {pre : List Proto.MemoryRegion} {n m : Nat}
    {tr₁ tr₂ : List (Event RestResp)} {p : Except Error Nat × Unit}
    (hpre : Cmd.Runs (restoreRegions checksum child pre n ()) tr₁ (.ok m, ()))
    (hrest : Cmd.Runs (restoreRegions checksum child regions m ()) tr₂ p) :
    Cmd.Runs (restoreRegions checksum child (pre ++ regions) n ()) (tr₁ ++ tr₂) p := by
  induction pre generalizing n tr₁ with
  | nil =>
      obtain ⟨rfl, heq⟩ := runs_pure.mp hpre
      obtain rfl := Except.ok.inj (Prod.mk.inj heq).1
      exact hrest
  | cons region pre ih =>
      rw [restoreRegions] at hpre
      obtain ⟨tr₃, a, s, tr₄, hfirst, hlater, rfl⟩ := runs_bind_returns hpre
      rw [List.cons_append, restoreRegions, List.append_assoc]
      exact runs_bind_ok hfirst (ih hlater)

/-! ## What the loop gets through -/

/-- Where there may be memory behind the rounds for `regions`. -/
def Available (c : Child) (regions : List Proto.MemoryRegion) (a : Nat) : Prop :=
  (c.mem a).isSome ∨ ∃ r ∈ regions, InPages r a ∨ CoversTrap c r

/-- The loop can get through the regions: the word at which calls are injected is there, checksums
and alignments are right, and data are written only where there is memory by then. -/
structure Completes (checksum : List UInt8 → UInt64) (c : Child)
    (regions : List Proto.MemoryRegion) :
    Prop where
  site : SiteMapped c
  passed : ∀ r ∈ regions, Passed checksum r
  room : ∀ pre r post, regions = pre ++ r :: post → ∀ a, InData r a → Available c (pre ++ [r]) a

theorem Completes.nil (h : SiteMapped c) : Completes checksum c [] where
  site := h
  passed _ hr := nomatch hr
  room _ _ _ h := absurd h (by simp)

/-- What is available behind a round was available before it. -/
theorem Round.available (h : Round checksum c region c₁) {a : Nat} (ha : Available c₁ regions a) :
    Available c (region :: regions) a := by
  obtain hsome | ⟨r, hr, hin⟩ := ha
  · exact (h.grows a hsome).imp_right fun hin => ⟨region, .head _, hin⟩
  · rw [CoversTrap, h.regs] at hin
    exact Or.inr ⟨r, .tail _ hr, hin⟩

theorem Completes.cons (hround : Round checksum c region c₁) (h : Completes checksum c₁ regions) :
    Completes checksum c (region :: regions) where
  site := hround.site
  passed := List.forall_mem_cons.mpr ⟨hround.passed, h.passed⟩
  room pre r post heq a ha := by
    cases pre with
    | nil =>
        obtain ⟨rfl, -⟩ := List.cons.inj heq
        have hthere : Available c₁ [] a := Or.inl (hround.bytes.mapped a ha)
        exact hround.available hthere
    | cons _ pre =>
        obtain ⟨rfl, hrest⟩ := List.cons.inj heq
        exact hround.available (h.room pre r post hrest a ha)

/-- What the loop has gone through, it could. -/
theorem Rounds.completes (h : Rounds checksum c regions c') (hsite : SiteMapped c) :
    Completes checksum c regions := by
  induction h with
  | nil => exact .nil hsite
  | cons hround _ ih => exact .cons hround (ih hround.stays)

/-- The word is there from the beginning. -/
theorem Rounds.site (h : Rounds checksum c regions c') (hend : regions = [] → SiteMapped c') :
    SiteMapped c := by
  cases h with
  | nil => exact hend rfl
  | cons hround _ => exact hround.site

/-! ## And gets through -/

variable (child) {w w' : World}

/-- A child behind rounds over regions that lie as `c` has it. -/
structure Through (w : World) (regions : List Proto.MemoryRegion) (w' : World) : Prop where
  regs : w'.child.regs = w.child.regs
  mappings : w'.mappings = w.mappings ++ regions.map (siteMapping w.child)
  available : ∀ a, Available w.child regions a → (w'.child.mem a).isSome

theorem Through.site (h : Through w regions w') (hsite : SiteMapped w.child) :
    SiteMapped w'.child := by
  intro a ha
  rw [h.regs] at ha
  exact h.available a (Or.inl (hsite a ha))

theorem isSome_regionFinished {m : Memory UInt64} {a : Nat} :
    ((regionFinished m region) a).isSome = (m a).isSome := by
  unfold regionFinished
  split
  · rw [Memory.isSome_protect, Memory.isSome_write]
  · exact Memory.isSome_write

/-- A round that covers the `int3` may leave memory everywhere, with any byte at a place that is not
written. -/
theorem restoreRegion_strays (hsite : SiteMapped w.child) (hpassed : Passed checksum region)
    (hfits : Fits region) (hcovers : CoversTrap w.child region) {a : Nat} (b : UInt8)
    (hword : ¬ InWord w.child a) (hdata : ¬ InData region a) :
    ∃ tr w', Cmd.Runs (restoreRegion checksum child region ()) tr (.ok (), ()) ∧
      Answered answer w tr w' ∧ Through w [region] w' ∧ (∀ a, (w'.child.mem a).isSome) ∧
      w'.child.mem.byte a = some b := by
  obtain ⟨word, hholds⟩ := Mapped.word hsite
  let mem : Memory UInt64 := fun _ => some ⟨b, 0⟩
  have hall : ∀ lo hi, mem.Mapped lo hi := fun _ _ _ _ => rfl
  have hmem : Remapped w.child word (mmapProt region) region mem := Or.inr hcovers
  obtain ⟨tr, w', hr, ha, hafter⟩ :=
    restoreRegion_made child hholds hpassed hfits hmem (hall _ _) (hall _ _)
    (hall _ _)
  have hsome : ∀ a, (w'.child.mem a).isSome := fun a => by
    rw [hafter.child]
    exact isSome_regionFinished.trans Memory.isSome_write
  refine ⟨tr, w', hr, ha, ⟨by rw [hafter.child], hafter.mappings, fun a _ => hsome a⟩, hsome, ?_⟩
  rw [hafter.child]
  show (regionFinished _ _).byte a = some b
  unfold regionFinished
  split
  · rw [Memory.protect_byte, Memory.byte, data_other hdata, word_other hword]
    rfl
  · rw [Memory.byte, data_other hdata, word_other hword]
    rfl

/-- A round goes through where there is memory for its data. -/
theorem restoreRegion_completes (hsite : SiteMapped w.child) (hpassed : Passed checksum region)
    (hfits : Fits region) (hroom : ∀ a, InData region a → Available w.child [region] a) :
    ∃ tr w', Cmd.Runs (restoreRegion checksum child region ()) tr (.ok (), ()) ∧
      Answered answer w tr w' ∧ Through w [region] w' := by
  obtain ⟨word, hword⟩ := Mapped.word hsite
  -- Astray, it may be given all the memory there is.
  obtain ⟨mem, hmem, hall⟩ : ∃ mem, Remapped w.child word (mmapProt region) region mem ∧
      ∀ a, Available w.child [region] a → (mem a).isSome := by
    by_cases hcovers : CoversTrap w.child region
    · exact ⟨fun _ => some ⟨0, 0⟩, Or.inr hcovers, fun _ _ => rfl⟩
    refine ⟨_, Or.inl rfl, fun a ha => ?_⟩
    by_cases hpages : InPages region a
    · exact Memory.map_mapped a hpages
    rw [pages_other hpages]
    obtain hsome | ⟨r, hr, hin⟩ := ha
    · exact Memory.isSome_write.trans hsome
    · obtain rfl := List.mem_singleton.mp hr
      obtain hin | hin := hin
      · exact absurd hin hpages
      · exact absurd hin hcovers
  obtain ⟨tr, w', hr, ha, hafter⟩ := restoreRegion_made child hword hpassed hfits hmem
    (fun a ha => hall a (Or.inl (hsite a ha)))
    (fun a ha => hall a (Or.inr ⟨region, .head _, Or.inl ha⟩))
    fun a ha => hall a (hroom a ha)
  refine ⟨tr, w', hr, ha, by rw [hafter.child], hafter.mappings, fun a ha => ?_⟩
  rw [hafter.child]
  exact (isSome_regionFinished.trans Memory.isSome_write).trans (hall a ha)

theorem Through.refl : Through w [] w :=
  ⟨rfl, (List.append_nil _).symm, fun _ ha => ha.elim id fun ⟨_, hr, _⟩ => nomatch hr⟩

theorem Through.trans {w₁ : World} {regions' : List Proto.MemoryRegion} (h : Through w regions w₁)
    (h' : Through w₁ regions' w') : Through w (regions ++ regions') w' where
  regs := h'.regs.trans h.regs
  mappings := by
    have hsame : siteMapping w₁.child = siteMapping w.child := by
      funext r
      rw [siteMapping, siteMapping, h.regs]
    rw [h'.mappings, h.mappings, hsame, List.map_append, List.append_assoc]
  available a ha := by
    refine h'.available a ?_
    obtain hsome | ⟨r, hr, hin⟩ := ha
    · exact Or.inl (h.available a (Or.inl hsome))
    · obtain hr | hr := List.mem_append.mp hr
      · exact Or.inl (h.available a (Or.inr ⟨r, hr, hin⟩))
      · refine Or.inr ⟨r, hr, ?_⟩
        rw [CoversTrap, h.regs]
        exact hin

/-- What the loop completes behind the first round. -/
theorem Completes.tail (h : Completes checksum w.child (region :: regions))
    (hthrough : Through w [region] w') :
    Completes checksum w'.child regions where
  site := hthrough.site h.site
  passed r hr := h.passed r (.tail _ hr)
  room pre r post heq a ha := by
    obtain hsome | ⟨r', hr', hin⟩ := h.room (region :: pre) r post (congrArg _ heq) a ha
    · exact Or.inl (hthrough.available a (Or.inl hsome))
    · obtain rfl | hr' := List.mem_cons.mp hr'
      · exact Or.inl (hthrough.available a (Or.inr ⟨_, .head _, hin⟩))
      · refine Or.inr ⟨r', hr', ?_⟩
        rw [CoversTrap, hthrough.regs]
        exact hin

/-- There is a run over all that can be completed. -/
theorem restoreRegions_completes (h : Completes checksum w.child regions)
    (hfits : ∀ r ∈ regions, Fits r)
    (n : Nat) : ∃ tr w', Cmd.Runs (restoreRegions checksum child regions n ()) tr
      (.ok (n + regions.length), ()) ∧ Answered answer w tr w' ∧ Through w regions w' := by
  induction regions generalizing w n with
  | nil => exact ⟨[], w, .ret _, rfl, .refl⟩
  | cons region regions ih =>
      obtain ⟨hpassed, -⟩ := List.forall_mem_cons.mp h.passed
      obtain ⟨hfirst, hrest⟩ := List.forall_mem_cons.mp hfits
      obtain ⟨tr₁, w₁, hr₁, ha₁, hthrough₁⟩ := restoreRegion_completes child h.site hpassed hfirst
        (h.room [] region regions rfl)
      obtain ⟨tr₂, w₂, hr₂, ha₂, hthrough₂⟩ := ih (h.tail hthrough₁) hrest (n + 1)
      refine ⟨tr₁ ++ tr₂, w₂, ?_, answered_append.mpr ⟨w₁, ha₁, ha₂⟩, hthrough₁.trans hthrough₂⟩
      rw [restoreRegions, List.length_cons, Nat.add_comm regions.length, ← Nat.add_assoc]
      exact runs_bind_ok hr₁ hr₂

theorem Completes.left {pre post : List Proto.MemoryRegion}
    (h : Completes checksum c (pre ++ post)) :
    Completes checksum c pre where
  site := h.site
  passed r hr := h.passed r (List.mem_append_left _ hr)
  room pre' r post' heq :=
    h.room pre' r (post' ++ post) (by rw [heq, List.append_assoc, List.cons_append])

/-- Behind a region that covers the `int3`, a byte may be anything that no later round writes. -/
theorem restoreRegions_loses {pre post : List Proto.MemoryRegion}
    (hcompletes : Completes checksum w.child (pre ++ region :: post))
    (hfits : ∀ r ∈ pre ++ region :: post, Fits r) (hcovers : CoversTrap w.child region) {a : Nat}
    (b : UInt8) (hword : ¬ InWord w.child a) (hdata : ¬ InData region a)
    (hpost : ∀ r ∈ post, ¬ Touches w.child r a) :
    ∃ tr n w', Cmd.Runs (restoreRegions checksum child (pre ++ region :: post) 0 ())
      tr (.ok n, ()) ∧
      Answered answer w tr w' ∧ w'.child.mem.byte a = some b := by
  have hmem : region ∈ pre ++ region :: post := List.mem_append_right _ (.head _)
  obtain ⟨tr₁, w₁, hr₁, ha₁, hthrough₁⟩ := restoreRegions_completes child hcompletes.left
    (fun r hr => hfits r (List.mem_append_left _ hr)) 0
  obtain ⟨tr₂, w₂, hr₂, ha₂, hthrough₂, hall, hbyte⟩ :=
    restoreRegion_strays child (w := w₁) (a := a)
    (hthrough₁.site hcompletes.site) (hcompletes.passed region hmem) (hfits region hmem)
    (by rw [CoversTrap, hthrough₁.regs]; exact hcovers) b
    (by rw [InWord, hthrough₁.regs]; exact hword) hdata
  have hregs : w₂.child.regs = w.child.regs := hthrough₂.regs.trans hthrough₁.regs
  have hrest : Completes checksum w₂.child post :=
    ⟨fun a _ => hall a, fun r hr => hcompletes.passed r (List.mem_append_right _ (.tail _ hr)),
      fun _ _ _ _ a _ => Or.inl (hall a)⟩
  obtain ⟨tr₃, w₃, hr₃, ha₃, -⟩ := restoreRegions_completes child hrest
    (fun r hr => hfits r (List.mem_append_right _ (.tail _ hr))) (0 + pre.length + 1)
  have hrounds := restoreRegions_rounds.returns rfl hr₃ ha₃
  refine ⟨_, _, w₃, restoreRegions_append hr₁ (runs_bind_ok hr₂ hr₃),
    answered_append.mpr ⟨w₁, ha₁, answered_append.mpr ⟨w₂, ha₂, ha₃⟩⟩, ?_⟩
  rw [hrounds.frame fun r hr => (touches_congr hregs).not.mpr (hpost r hr)]
  exact hbyte

/-- What a round may ruin and no later one touches, is lost in some run. -/
theorem restoreRegions_ruins {pre post : List Proto.MemoryRegion}
    (heq : regions = pre ++ region :: post) (hcompletes : Completes checksum w.child regions)
    (hfits : ∀ r ∈ regions, Fits r) {a : Nat} {b : UInt8}
    (hruins : Ruins w.child region a b) (hpost : ∀ r ∈ post, ¬ Touches w.child r a) :
    ∃ tr n w', Cmd.Runs (restoreRegions checksum child regions 0 ()) tr (.ok n, ()) ∧
      Answered answer w tr w' ∧ w'.child.mem.byte a ≠ some b := by
  subst heq
  -- What is certain behind any run that gets through.
  have hcertain : ∀ {x : Option UInt8}, x ≠ some b →
      (∀ c₁ c₂, c₁.regs = w.child.regs → Round checksum c₁ region c₂ → c₂.mem.byte a = x) →
      ∃ tr n w', Cmd.Runs (restoreRegions checksum child (pre ++ region :: post) 0 ()) tr
        (.ok n, ()) ∧
        Answered answer w tr w' ∧ w'.child.mem.byte a ≠ some b := fun hne hbyte => by
    obtain ⟨tr, w', hr, ha, -⟩ := restoreRegions_completes child hcompletes hfits 0
    have hrounds : Rounds checksum w.child (pre ++ region :: post) w'.child :=
      restoreRegions_rounds.returns rfl hr ha
    obtain ⟨c₁, c₂, hpre, hround, hrest⟩ := hrounds.split
    refine ⟨tr, _, w', hr, ha, ?_⟩
    rw [hrest.frame fun r hr => (touches_congr (hround.regs.trans hpre.regs)).not.mpr (hpost r hr),
      hbyte c₁ c₂ hpre.regs hround]
    exact hne
  obtain ⟨hdata, hne⟩ | ⟨hdata, hword, hlost⟩ := hruins
  · exact hcertain hne fun c₁ c₂ _ hround => hround.data hdata
  by_cases hcovers : CoversTrap w.child region
  · obtain ⟨tr, n, w', hr, ha, hbyte⟩ :=
      restoreRegions_loses child hcompletes hfits hcovers (b + 1) hword
      hdata hpost
    refine ⟨tr, n, w', hr, ha, fun h => ?_⟩
    rw [hbyte] at h
    exact absurd (Option.some.inj h) (by simp)
  · obtain ⟨hpages, hne⟩ := hlost.resolve_left hcovers
    refine hcertain (x := some 0) (fun h => hne (Option.some.inj h).symm)
      fun c₁ c₂ hregs hround => ?_
    have hcovers₁ : ¬ CoversTrap c₁ region := by
      rw [CoversTrap, hregs]
      exact hcovers
    have hword₁ : ¬ InWord c₁ a := by
      rw [InWord, hregs]
      exact hword
    exact hround.fresh hcovers₁ a hpages hword₁ hdata

end Wraith.Restore

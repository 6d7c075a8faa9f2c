/-
# `Wraith.Restore.Site` — where the regions are mapped, and where the stub lies

A stub runs injected system calls at its own instruction pointer, on its own stack.  The header of
the restorer knows that a region may cover them, and says that an error is returned.  Nothing looks:
a mapping is asked for for every region the loop comes to, wherever it is.

Which mappings are asked for is settled by what the loop can come to: it asks for the regions in
turn, at the instruction pointer that each round leaves as it was (`restoreRegions_kept`), and after
the loop there are no more (`restoreInner_kept`).  What it can come to, it does come to
(`restoreInner_maps`), so that the condition in `restoreInner_spares_iff` is exact.
-/
import Wraith.Restore.Rounds

namespace Wraith.Restore

open Lib Script Process

/-! ## What is to be spared -/

/-- The pages of `syscall; int3` at an instruction pointer. -/
def sitePages (rip : UInt64) : Nat × Nat :=
  (Memory.pageDown pageSize rip.toNat, Memory.pageUp pageSize (rip.toNat + trapCode.length))

/-- A mapping, in whole pages, has no address in a range. -/
def Mapping.Avoids (m : Mapping) (range : Nat × Nat) : Prop :=
  Memory.Apart range.1 range.2 m.addr.toNat (pagesEnd m.addr m.len)

/-- It covers neither the code that asks for it nor the stack. -/
structure Mapping.Spares (stack : Nat × Nat) (m : Mapping) : Prop where
  site : m.Avoids (sitePages m.rip)
  stack : m.Avoids stack

variable {checksum : List UInt8 → UInt64} {child : Int32} {c : Child} {M : Mapping → Prop}
  {α : Type}

/-- The checksum test. -/
def passes (checksum : List UInt8 → UInt64) (region : Proto.MemoryRegion) : Bool :=
  checksum region.data = region.checksum

/-! ## What the loop can come to -/

/-- The loop can come to the `mmap` of a region: it gets through those before it, and the checksum
of the region is right. -/
structure Reaches (checksum : List UInt8 → UInt64) (c : Child) (pre : List Proto.MemoryRegion)
    (region : Proto.MemoryRegion) : Prop where
  before : Completes checksum c pre
  sum : passes checksum region = true

theorem Reaches.cons {pre : List Proto.MemoryRegion} {region r : Proto.MemoryRegion} {c₁ : Child}
    (hround : Round checksum c r c₁) (h : Reaches checksum c₁ pre region) :
    Reaches checksum c (r :: pre) region := ⟨h.before.cons hround, h.sum⟩

/-- Whatever has been gone through has been reached. -/
theorem Rounds.reaches {pre post : List Proto.MemoryRegion} {region : Proto.MemoryRegion}
    {c' : Child}
    (h : Rounds checksum c (pre ++ region :: post) c') : Reaches checksum c pre region := by
  obtain ⟨c₁, c₂, hpre, hround, -⟩ := h.split
  exact ⟨hpre.completes (hpre.site fun _ => hround.site), decide_eq_true hround.passed.sum⟩

/-! ## The mappings of a run -/

/-- Every mapping so far is in `M`. -/
def Kept (M : Mapping → Prop) (w : World) : Prop := ∀ m ∈ w.mappings, M m

/-- And the child is `c`. -/
def Aimed (c : Child) (M : Mapping → Prop) (w : World) : Prop := w.child = c ∧ Kept M w

theorem call_kept {o : RestOp} {view : RestResp o → Except Error α} (ho : o.Rests) :
    Keeps answer (Kept M) (call o view : Rest α) := by
  refine Keeps.call fun w r w' hw ha => ?_
  rw [Kept, (answer_rests ho ha).mappings]
  exact hw

theorem setregs_kept {regs : UserRegs} {context : String} :
    Keeps answer (Kept M) (call (.setregs child regs) (mapErr context) : Rest Unit) :=
  .call fun w r w' hw ha => by
    rw [Kept, (answer_setregs ha).2.1]
    exact hw

/-- Behind the system call nothing is asked for. -/
theorem ending_kept {nr word : UInt64} {saved : UserRegs} :
    Keeps answer (Kept M) (call (.waitpid child) (mapErr "inject: waitpid") >>= fun status =>
      ofExcept (expectTrap status) >>= fun _ => injectResult child nr saved word) :=
  .bind (call_kept trivial) fun _ => .bind .ofExcept fun _ => .bind (call_kept trivial) fun _ =>
    .bind (call_kept trivial) fun _ => .bind setregs_kept fun _ => .ofExcept

/-- An injected call runs at the instruction pointer of the child, where there is a word, and if it
is `mmap` it asks for a mapping. -/
theorem inject_kept {nr : UInt64} {args : CallArgs}
    (hM : nr = sysMmap → SiteMapped c → M ⟨c.regs.rip, args.a0, args.a1⟩) :
    Triple answer (Aimed c M) (inject child nr args) fun _ => Kept M := by
  rw [inject]
  refine Triple.call_bind (J := fun saved w => saved = c.regs ∧ Aimed c M w)
    (fun w r w' saved hw ha hr => ?_) (fun w r w' x hw ha _ => ?_) fun saved => Triple.fact ?_
  · obtain ⟨hregs, rfl⟩ := ha
    exact ⟨(hregs saved (mapErr_eq_ok hr)).trans (by rw [hw.1]), hw⟩
  · obtain ⟨-, rfl⟩ := ha
    exact hw.2
  rintro rfl
  refine Triple.call_bind (J := fun _ w => SiteMapped c ∧ Kept M w) (fun w r w' word hw ha hr => ?_)
    (fun w r w' x hw ha _ => ?_) fun word => Triple.fact fun hsite => ?_
  · obtain ⟨hword, rfl⟩ := ha
    refine ⟨?_, hw.2⟩
    rw [← hw.1]
    have hholds := hword word (mapErr_eq_ok hr)
    rw [← hw.1] at hholds
    exact hholds.mapped
  · obtain ⟨-, rfl⟩ := ha
    exact hw.2
  refine Triple.bind (call_kept trivial) (fun _ => ?_) fun _ _ h => h
  -- The child now has the registers of the call, and is resumed with them.
  refine Triple.call_bind (J := fun _ w => w.child.regs = callRegs c.regs nr args ∧ Kept M w)
    (fun w r w' _ hw ha hr => ?_) (fun w r w' _ hw ha _ => ?_) fun _ => ?_
  · cases r with
    | error e => cases hr
    | ok _ =>
        obtain rfl := ha
        exact ⟨rfl, hw⟩
  · rw [Kept, (answer_setregs ha).2.1]
    exact hw
  refine Triple.call_bind (J := fun _ => Kept M) (fun w r w' _ hw ha hr => ?_)
    (fun w r w' _ hw ha hr => ?_) fun _ => ending_kept
  · cases r with
    | error e => cases hr
    | ok _ =>
        obtain ⟨status, c', -, rfl⟩ := ha
        obtain ⟨hregs, hkept⟩ := hw
        intro m hm
        obtain hm | hm := List.mem_append.mp hm
        · exact hkept m hm
        · rw [Child.mapping, hregs] at hm
          split at hm
          case isTrue hnr =>
            obtain rfl := List.mem_singleton.mp hm
            exact hM hnr hsite
          case isFalse => cases hm
  · cases r with
    | ok _ => cases hr
    | error e =>
        obtain rfl := ha
        exact hw.2

/-- A call other than `mmap` asks for no mapping, whatever the child is. -/
theorem inject_other {nr : UInt64} {args : CallArgs} (h : nr ≠ sysMmap) :
    Keeps answer (Kept M) (inject child nr args) :=
  fun s tr p w w' hw hr ha => inject_kept (fun hnr => absurd hnr h) s tr p w w' ⟨rfl, hw⟩ hr ha

/-! ## The loop -/

variable {region : Proto.MemoryRegion} {regions : List Proto.MemoryRegion}

theorem writeToChildMem_kept {addr : UInt64} {data : List UInt8} :
    Keeps answer (Kept M) (writeToChildMem child addr data) :=
  .bind (call_kept trivial) fun _ => .bind (call_kept trivial) fun _ => call_kept trivial

/-- A round asks for its region, if it passes the test. -/
theorem restoreRegion_kept
    (hM : SiteMapped c → passes checksum region = true → M (siteMapping c region)) :
    Triple answer (Aimed c M) (restoreRegion checksum child region) fun _ => Kept M := by
  rw [restoreRegion]
  refine Triple.ofExcept_bind (fun _ _ h _ => h.2) fun _ hcheck => ?_
  have hpass : passes checksum region = true := decide_eq_true (checkRegion_ok hcheck)
  refine Triple.bind (inject_kept fun _ hsite => hM hsite hpass) (fun mapped => ?_) fun _ _ h => h
  refine Keeps.bind .ofExcept fun _ => .bind writeToChildMem_kept fun _ => ?_
  split
  · exact .bind (inject_other (by decide)) fun _ => .pure
  · exact .pure

/-- The loop asks for the regions it can come to. -/
theorem restoreRegions_kept {n : Nat} (hM : ∀ pre r post, regions = pre ++ r :: post →
    Reaches checksum c pre r → M (siteMapping c r)) :
    Triple answer (Aimed c M) (restoreRegions checksum child regions n) fun _ => Kept M := by
  induction regions generalizing c n with
  | nil => exact Triple.pure fun _ hw => hw.2
  | cons region regions ih =>
      have hkept : Triple answer (Aimed c M) (restoreRegion checksum child region)
          fun _ => Kept M :=
        restoreRegion_kept fun hsite hpass => hM [] region regions rfl ⟨.nil hsite, hpass⟩
      rw [restoreRegions]
      refine Triple.bind
        (J := fun r w => Kept M w ∧ ∀ u, r = .ok u → Round checksum c region w.child)
        ((hkept.and restoreRegion_round).mono (fun w hw => ⟨hw, hw.1⟩) fun _ _ h => h) (fun _ => ?_)
        fun _ _ h => h.1
      refine Triple.mono (P := fun w => ∃ c₁, Round checksum c region c₁ ∧ Aimed c₁ M w)
        (Triple.exists fun c₁ => Triple.fact fun hround => ih fun pre r post heq hreaches => ?_)
        (fun w hw => ⟨w.child, hw.2 () rfl, rfl, hw.1⟩) fun _ _ h => h
      have hsame : siteMapping c₁ r = siteMapping c r := by
        rw [siteMapping, siteMapping, hround.regs]
      rw [hsame]
      exact hM (region :: pre) r post (congrArg _ heq) (hreaches.cons hround)

/-! ## What follows the loop -/

theorem restoreRegisters_kept {registers : Option Proto.Registers} :
    Keeps answer (Kept M) (restoreRegisters child registers) := by
  refine .bind .ofExcept fun regs => .bind setregs_kept fun _ => ?_
  split
  · exact .bind .ofExcept fun _ => call_kept trivial
  · exact .pure

theorem restoreAll_kept {fds : List FdSpec} {report : RestoreReport} :
    Keeps answer (Kept M) (restoreAll fds report) :=
  restoreAll_uses.keeps fun w o r w' ho hw ha => by
    rw [Kept, (answer_rests ho.rests ha).mappings]
    exact hw

theorem installAll_kept {outcomes : List FdOutcome} :
    Keeps answer (Kept M) (installAll child outcomes) :=
  installAll_keeps (fun _ _ => .bind (inject_other (by decide)) fun _ => .pure)
    fun fd w _ _ hw ha => by
      rw [Kept, (answer_rests (o := .close fd) trivial ha).mappings]
      exact hw

variable {s : Proto.ProcessSnapshot} {fds : List FdSpec}

theorem restoreInner_kept (hM : ∀ pre r post, s.memoryRegions = pre ++ r :: post →
    Reaches checksum c pre r → M (siteMapping c r)) :
    Triple answer (Aimed c M) (restoreInner checksum s fds child) fun _ => Kept M := by
  have hstate : Triple answer (Aimed c M) (restoreState checksum s child) fun _ => Kept M :=
    Triple.bind (restoreRegions_kept hM) (fun _ => Keeps.bind restoreRegisters_kept fun _ => .pure)
      fun _ _ h => h
  have hprepare : Triple answer (Aimed c M) (prepare checksum s fds child) fun _ => Kept M :=
    Triple.bind hstate (fun _ => Keeps.bind restoreAll_kept fun _ =>
      .bind installAll_kept fun _ => .pure) fun _ _ h => h
  exact Triple.bind hprepare (fun _ => Keeps.bind (call_kept trivial) fun _ => .pure) fun _ _ h => h

/-- A restore that returns has gone through all the regions. -/
theorem restoreInner_rounds :
    Ensures answer (fun w => w.child = c) (restoreInner checksum s fds child)
    (fun _ _ => ∃ c', Rounds checksum c s.memoryRegions c') := by
  have hfact : ∀ {α : Type} {e : Rest α} {φ : Prop}, Ensures answer (fun _ => φ) e fun _ _ => φ :=
    fun s tr p w w' hw _ _ _ _ => hw
  have hregions : Ensures answer (fun w => w.child = c)
      (restoreRegions checksum child s.memoryRegions 0)
      (fun _ _ => ∃ c', Rounds checksum c s.memoryRegions c') :=
    restoreRegions_rounds.mono (fun _ h => h) fun _ w h => ⟨w.child, h⟩
  have hstate : Ensures answer (fun w => w.child = c) (restoreState checksum s child)
      (fun _ _ => ∃ c', Rounds checksum c s.memoryRegions c') :=
      Ensures.bind hregions fun _ => hfact
  have hprepare : Ensures answer (fun w => w.child = c) (prepare checksum s fds child)
      (fun _ _ => ∃ c', Rounds checksum c s.memoryRegions c') := Ensures.bind hstate fun _ => hfact
  exact Ensures.bind hprepare fun _ => hfact

/-! ## A region over the stub -/

/-- The arguments with which a region is mapped. -/
def regionArgs (region : Proto.MemoryRegion) : CallArgs where
  a0 := region.startAddr
  a1 := region.sizeBytes
  a2 := asU64 (mmapProt region)
  a3 := asU64 (mapFixed ||| mapPrivate ||| mapAnonymous)
  a4 := asU64 (-1)
  a5 := (0 : Int64).toUInt64

/-- A region that the loop can come to is mapped wherever it is: there is a run in which the child
stops in the middle of it. -/
theorem restoreRegions_maps (child : Int32) {pre : List Proto.MemoryRegion} {w : World}
    (hreaches : Reaches checksum w.child pre region) (hfits : ∀ r ∈ pre, Fits r)
    (post : List Proto.MemoryRegion) :
    ∃ tr x w', Cmd.Runs (restoreRegions checksum child (pre ++ region :: post) 0 ())
      tr (.error x, ()) ∧
      Answered answer w tr w' ∧
      w'.mappings = w.mappings ++ (pre ++ [region]).map (siteMapping w.child) := by
  obtain ⟨tr₁, w₁, hr₁, ha₁, hthrough⟩ := restoreRegions_completes child hreaches.before hfits 0
  obtain ⟨word, x, tr₂, w₂, hr₂, ha₂, hfault⟩ := inject_strays child "SIGSEGV" sysMmap
    (regionArgs region) (hthrough.site hreaches.before.site)
  refine ⟨tr₁ ++ tr₂, x, w₂, restoreRegions_append hr₁ (runs_bind_error ?_),
    answered_append.mpr ⟨w₁, ha₁, ha₂⟩, ?_⟩
  · have hcheck : checkRegion checksum region = .ok () := by
      rw [checkRegion]
      exact if_neg fun h => h (of_decide_eq_true hreaches.sum)
    rw [restoreRegion, hcheck]
    exact runs_pure_bind.mpr (runs_bind_error hr₂)
  · have hmapping : (w₁.child.calling sysMmap (regionArgs region)).mapping =
        [siteMapping w.child region] := by
      rw [siteMapping, ← hthrough.regs]
      exact if_pos rfl
    rw [hfault.mappings, hmapping, hthrough.mappings, List.map_append, List.append_assoc]
    rfl

/-- What the loop raises, the restore raises. -/
theorem restoreInner_raises {tr : List (Event RestResp)} {x : Error}
    (h : Cmd.Runs (restoreRegions checksum child s.memoryRegions 0 ()) tr (.error x, ())) :
    Cmd.Runs (restoreInner checksum s fds child ()) tr (.error x, ()) :=
  runs_bind_error (runs_bind_error (runs_bind_error h))

/-- The loop raises at a region that has been damaged. -/
theorem restoreRegions_damaged (h : passes checksum region = false) (n : Nat) :
    ∃ x, Cmd.Runs (restoreRegions checksum child (region :: regions) n ()) [] (.error x, ()) := by
  have hcheck : ∃ x, checkRegion checksum region = .error x := by
    unfold checkRegion
    rw [if_pos (of_decide_eq_false h)]
    exact ⟨_, rfl⟩
  obtain ⟨x, hx⟩ := hcheck
  refine ⟨x, ?_⟩
  rw [restoreRegions, restoreRegion, hx]
  exact runs_bind_error (runs_bind_error (.ret _))

/-- A region that the loop can come to is mapped by the restore. -/
theorem restoreInner_maps (child : Int32) (hvalid : validate s = .ok ()) {w : World}
    {pre post : List Proto.MemoryRegion} (heq : s.memoryRegions = pre ++ region :: post)
    (hreaches : Reaches checksum w.child pre region) :
    ∃ tr x w', Cmd.Runs (restoreInner checksum s fds child ()) tr (.error x, ()) ∧
      Answered answer w tr w' ∧ siteMapping w.child region ∈ w'.mappings := by
  obtain ⟨-, ⟨hfits, -⟩, -⟩ := validate_iff.mp hvalid
  rw [heq] at hfits
  obtain ⟨tr, x, w', hr, ha, hmappings⟩ := restoreRegions_maps child hreaches
    (fun r hr => hfits r (List.mem_append_left _ hr)) post
  rw [← heq] at hr
  refine ⟨tr, x, w', restoreInner_raises hr, ha, ?_⟩
  rw [hmappings, List.map_append]
  exact List.mem_append_right _ (List.mem_append_right _ (.head _))

/-! ## The result -/

/-- Every mapping that is asked for spares the stub, and no snapshot with a region over the stub is
restored, if and only if every region that the loop can come to spares it. -/
theorem restoreInner_spares_iff {stack : Nat × Nat} {w : World} (hvalid : validate s = .ok ())
    (hnone : w.mappings = []) :
    (∀ tr r w', Cmd.Runs (restoreInner checksum s fds child ()) tr (r, ()) →
      Answered answer w tr w' →
      (∀ m ∈ w'.mappings, m.Spares stack) ∧
      ((∃ region ∈ s.memoryRegions, ¬ (siteMapping w.child region).Spares stack) →
        ∃ e, r = .error e)) ↔
    ∀ pre region post, s.memoryRegions = pre ++ region :: post →
      Reaches checksum w.child pre region →
      (siteMapping w.child region).Spares stack := by
  constructor
  · intro h pre region post heq hreaches
    obtain ⟨tr, x, w', hr, ha, hmem⟩ := restoreInner_maps child hvalid heq hreaches
    exact (h tr _ w' hr ha).1 _ hmem
  · intro h tr r w' hr ha
    refine ⟨?_, fun ⟨region, hmem, hcovers⟩ => ?_⟩
    · have hkept : Kept (Mapping.Spares stack) w := fun m hm => by
        rw [hnone] at hm
        exact nomatch hm
      exact restoreInner_kept h () tr _ w w' ⟨rfl, hkept⟩ hr ha
    · cases r with
      | error e => exact ⟨e, rfl⟩
      | ok result =>
          -- A restore that returns has come to all of them.
          obtain ⟨c', hrounds⟩ := restoreInner_rounds.returns rfl hr ha
          obtain ⟨pre, post, heq⟩ := List.append_of_mem hmem
          rw [heq] at hrounds
          exact absurd (h pre region post heq hrounds.reaches) hcovers

/-! ## A region over the stub -/

/-- The region lies over the page of the stub's code. -/
theorem site_mapped_over : ∃ s tr r w stack, validate s = .ok () ∧
    Cmd.Runs (restoreInner (fun _ => 0) s [] 42 ()) tr (r, ()) ∧ Answered answer quietWorld tr w ∧
    ¬ ∀ m ∈ w.mappings, m.Spares stack := by
  have hvalid : validate (smallSnapshot [zeroRegion 0x400000 0x1000]) = .ok () :=
    smallSnapshot_valid (by decide)
  have hreaches : Reaches (fun _ => 0) stub [] (zeroRegion 0x400000 0x1000) := ⟨.nil stub_site, rfl⟩
  obtain ⟨tr, x, w, hr, ha, hmem⟩ := restoreInner_maps 42 hvalid (w := quietWorld)
    (List.nil_append _).symm hreaches
  refine ⟨_, tr, _, w, (0x7ffc0000, 0x7ffd0000), hvalid, hr, ha, fun h => ?_⟩
  have hsite : 4198400 ≤ 4194304 ∨ 4198400 ≤ 4194304 := (h _ hmem).site
  exact absurd hsite (by decide)

/-- A page, and behind it one over the stub that has been damaged. -/
def shadowed : Proto.ProcessSnapshot :=
  smallSnapshot [zeroRegion 0x10000 0x1000, { zeroRegion 0x400000 0x1000 with checksum := 1 }]

theorem shadowed_valid : validate shadowed = .ok () :=
  pair_valid (show Fits (zeroRegion 0x10000 0) by decide)
    (show Fits (zeroRegion 0x400000 0) by decide)
    (Or.inl (show 0x10000 + 0x1000 ≤ 0x400000 by decide))

/-- The damaged page is not come to. -/
theorem restoreInner_spares_iff_shadowed : ∃ tr r w,
    Cmd.Runs (restoreInner (fun _ => 0) shadowed [] 42 ()) tr (r, ()) ∧
      Answered answer quietWorld tr w ∧
    (∀ m ∈ w.mappings, m.Spares (0x7ffc0000, 0x7ffd0000)) ∧ ∃ e, r = .error e := by
  have hplaceable : Placeable (fun _ => 0) stub (zeroRegion 0x10000 0x1000) :=
    zeroRegion_placeable (by decide) (by decide) le_rfl
  obtain ⟨tr, w, hr, ha, -⟩ := restoreRegions_done (w := quietWorld) 42 stub_site
    (List.forall_mem_singleton.mpr hplaceable) 0
  have hstop : passes (fun _ => 0) { zeroRegion 0x400000 0x1000 with checksum := 1 } = false := rfl
  obtain ⟨x, hdamaged⟩ : ∃ x, Cmd.Runs (restoreRegions (fun _ => 0) 42 _ (0 + 1) ()) []
    (.error x, ()) :=
    restoreRegions_damaged hstop (0 + 1)
  have hregions := restoreRegions_append hr hdamaged
  rw [List.append_nil] at hregions
  have hinner : Cmd.Runs (restoreInner (fun _ => 0) shadowed [] 42 ()) tr (.error x, ()) :=
    restoreInner_raises hregions
  have hspares : ∀ region ∈ shadowed.memoryRegions, passes (fun _ => 0) region = true →
      (siteMapping stub region).Spares (0x7ffc0000, 0x7ffd0000) :=
    forall_mem_pair (fun _ => ⟨Or.inr (by decide), Or.inr (by decide)⟩)
      fun h => absurd h (by decide)
  obtain ⟨hmappings, hover⟩ := (restoreInner_spares_iff (w := quietWorld) shadowed_valid rfl).mpr
    (fun pre region post heq hreaches => hspares region
      (heq ▸ List.mem_append_right _ (.head _)) hreaches.sum) tr _ w hinner ha
  refine ⟨tr, _, w, hinner, ha, hmappings, hover ⟨_, .tail _ (.head _), fun h => ?_⟩⟩
  have hsite : 4198400 ≤ 4194304 ∨ 4198400 ≤ 4194304 := h.site
  exact absurd hsite (by decide)

end Wraith.Restore

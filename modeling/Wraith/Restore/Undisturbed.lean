/-
# `Wraith.Restore.Undisturbed` — restores in which no call fails

The other half of the specifications: what the restorer is asked to do, it can do.  For regions that
are page-aligned, not empty, and clear of the injected word there is a run of the loop that comes to
its end (`restoreRegions_done`), and with a stub that stops as it should one of the whole restore
(`restore_done`).
-/
import Wraith.Lib.BigEndian
import Wraith.Restore.Regions

namespace Wraith.Restore

open Lib Script Process

/-! ## Words -/

theorem byte_shift (w : UInt64) (k : Nat) (hk : k < 64) :
    (w >>> UInt64.ofNat k).toUInt8 = UInt8.ofNat (w.toNat / 2 ^ k) := by
  apply UInt8.toNat_inj.mp
  rw [UInt64.toNat_toUInt8, UInt64.toNat_shiftRight,
    UInt64.toNat_ofNat_of_lt' (by show k < 2 ^ 64; omega), Nat.mod_eq_of_lt hk,
    Nat.shiftRight_eq_div_pow, UInt8.toNat_ofNat']

/-- A word lies in memory with its bytes in reverse. -/
theorem wordBytes_eq (w : UInt64) : wordBytes w = (beBytes 8 w.toNat).reverse := by
  have h0 : w.toUInt8 = UInt8.ofNat (w.toNat / 256 ^ 0) := by
    rw [pow_zero, Nat.div_one]
    rfl
  have h8 : (w >>> 8).toUInt8 = _ := byte_shift w 8 (by omega)
  have h16 : (w >>> 16).toUInt8 = _ := byte_shift w 16 (by omega)
  have h24 : (w >>> 24).toUInt8 = _ := byte_shift w 24 (by omega)
  have h32 : (w >>> 32).toUInt8 = _ := byte_shift w 32 (by omega)
  have h40 : (w >>> 40).toUInt8 = _ := byte_shift w 40 (by omega)
  have h48 : (w >>> 48).toUInt8 = _ := byte_shift w 48 (by omega)
  have h56 : (w >>> 56).toUInt8 = _ := byte_shift w 56 (by omega)
  rw [wordBytes, h0, h8, h16, h24, h32, h40, h48, h56]
  rfl

theorem exists_word {bs : List UInt8} (h : bs.length = 8) : ∃ w, wordBytes w = bs := by
  have hlen : bs.reverse.length = 8 := by rw [List.length_reverse, h]
  have hlt : beNat bs.reverse < 2 ^ 64 := by
    have := beNat_lt bs.reverse
    rw [hlen] at this
    omega
  refine ⟨UInt64.ofNat (beNat bs.reverse), ?_⟩
  rw [wordBytes_eq, UInt64.toNat_ofNat_of_lt' hlt, beBytes_beNat_of_length hlen,
    List.reverse_reverse]

/-- Where eight bytes are mapped, a word can be read. -/
theorem Mapped.word {mem : Memory UInt64} {a : Nat} (h : mem.Mapped a (a + 8)) :
    ∃ word, mem.Holds a (wordBytes word) := by
  obtain ⟨bs, hlen, hholds⟩ := h.holds
  obtain ⟨word, rfl⟩ := exists_word hlen
  exact ⟨word, hholds⟩

/-! ## Injections -/

variable {checksum : List UInt8 → UInt64} {w : World} (child : Int32)

/-- The word at which system calls are injected is there. -/
def SiteMapped (c : Child) : Prop := c.mem.Mapped c.regs.rip.toNat (c.regs.rip.toNat + 8)

/-- A world that differs from `w` by what has become of the child. -/
structure After (w : World) (c : Child) (mappings : List Mapping) (w' : World) : Prop where
  child : w'.child = c
  parent : w'.parent = w.parent
  released : w'.released = w.released
  mappings : w'.mappings = w.mappings ++ mappings

theorem checkRetval_ok {nr ret : UInt64} (h : isErrno ret = false) :
    checkRetval nr ret = .ok ret := by
  rw [checkRetval, h, if_neg Bool.false_ne_true]

/-- An injection goes through whenever the child stops at a trap with its word still mapped, and
what it comes to is the value in the child's registers. -/
theorem inject_resumed (nr : UInt64) (args : CallArgs) {word : UInt64} {stopped : Child}
    (hword : w.child.mem.Holds w.child.regs.rip.toNat (wordBytes word))
    (htrapped : Trapped w.child nr args word stopped)
    (hmapped : stopped.mem.Mapped w.child.regs.rip.toNat (w.child.regs.rip.toNat + 8)) :
    ∃ tr w', Cmd.Runs (inject child nr args ()) tr (checkRetval nr stopped.regs.rax, ()) ∧
      Answered answer w tr w' ∧
      After w (stopped.putBack w.child word) (w.child.calling nr args).mapping w' := by
  refine ⟨[⟨.getregs child, .ok w.child.regs⟩, ⟨.read child w.child.regs.rip, .ok word⟩,
    ⟨.write child w.child.regs.rip (patchWord word), .ok ()⟩,
    ⟨.setregs child (callRegs w.child.regs nr args), .ok ()⟩, ⟨.cont child, .ok ()⟩,
    ⟨.waitpid child, .ok (.stopped .sigtrap)⟩, ⟨.getregs child, .ok stopped.regs⟩,
    ⟨.write child w.child.regs.rip word, .ok ()⟩, ⟨.setregs child w.child.regs, .ok ()⟩],
    _, ?_, ⟨_, ⟨fun _ h => (Except.ok.inj h).symm, rfl⟩, _,
      ⟨fun _ h => Except.ok.inj h ▸ hword, rfl⟩,
      _, ⟨hword.mapped, rfl⟩, _, rfl, _, ⟨_, _, htrapped, rfl⟩, _,
        ⟨fun _ h => Option.some.inj h, rfl⟩,
      _, ⟨fun _ h => (Except.ok.inj h).symm, rfl⟩, _, ⟨hmapped, rfl⟩, _, rfl, rfl⟩,
    ⟨rfl, rfl, rfl, rfl⟩⟩
  rw [inject]
  refine runs_call_ok rfl (runs_call_ok rfl (runs_call_ok rfl (runs_call_ok rfl (runs_call_ok rfl
    (runs_call_ok rfl ?_)))))
  refine runs_pure_bind.mpr ?_
  rw [injectResult]
  refine runs_call_ok rfl (runs_call_ok rfl (runs_call_ok rfl ?_))
  cases checkRetval nr stopped.regs.rax with
  | ok a => exact .ret _
  | error x => exact .ret _

/-- A child behind a system call: the value it has returned, and what it has made of memory and
descriptors. -/
def Child.behind (c : Child) (ret : UInt64) (mem : Memory UInt64) (fds : Fds) : Child :=
  { c with regs := { c.regs with rax := ret }, mem, fds }

/-- The injection of a call behind which the child stops. -/
theorem inject_behind (nr : UInt64) (args : CallArgs) {ret word : UInt64} {mem : Memory UInt64}
    {fds : Fds} (hword : w.child.mem.Holds w.child.regs.rip.toNat (wordBytes word))
    (htrapped : Trapped w.child nr args word
      (((w.child.patched word).calling nr args).behind ret mem fds))
    (hmapped : mem.Mapped w.child.regs.rip.toNat (w.child.regs.rip.toNat + 8)) :
    ∃ tr w', Cmd.Runs (inject child nr args ()) tr (checkRetval nr ret, ()) ∧
      Answered answer w tr w' ∧
      After w { w.child with mem := mem.write w.child.regs.rip.toNat (wordBytes word), fds }
        (w.child.calling nr args).mapping w' := by
  have hback : (((w.child.patched word).calling nr args).behind ret mem fds).putBack w.child word =
      { w.child with mem := mem.write w.child.regs.rip.toNat (wordBytes word), fds } := rfl
  obtain ⟨tr, w', hr, ha, hafter⟩ := inject_resumed child nr args hword htrapped hmapped
  rw [hback] at hafter
  exact ⟨tr, w', hr, ha, hafter⟩

/-- Every system call that leaves the injected word alone can be injected, and its return value is
what the injection comes to. -/
theorem inject_called (nr : UInt64) (args : CallArgs) {ret word : UInt64} {mem : Memory UInt64}
    {fds : Fds} (hword : w.child.mem.Holds w.child.regs.rip.toNat (wordBytes word))
    (hclear : Clear w.child nr args)
    (hcall : Syscall ((w.child.patched word).calling nr args) ret mem fds) :
    ∃ tr w', Cmd.Runs (inject child nr args ()) tr (checkRetval nr ret, ()) ∧
      Answered answer w tr w' ∧
      After w { w.child with mem := mem.write w.child.regs.rip.toNat (wordBytes word), fds }
        (w.child.calling nr args).mapping w' := by
  obtain ⟨hpatch, -⟩ := syscall_unpatch hword hclear hcall
  have htrapped : Trapped w.child nr args word
      (((w.child.patched word).calling nr args).behind ret mem fds) :=
    .traps (patched_trapCode hword) hcall (traps_of_holds hpatch)
  exact inject_behind child nr args hword htrapped hpatch.mapped

theorem inject_done (nr : UInt64) (args : CallArgs) {ret word : UInt64} {mem : Memory UInt64}
    {fds : Fds} (hword : w.child.mem.Holds w.child.regs.rip.toNat (wordBytes word))
    (hclear : Clear w.child nr args)
    (hcall : Syscall ((w.child.patched word).calling nr args) ret mem fds)
    (hret : isErrno ret = false) :
    ∃ tr w', Cmd.Runs (inject child nr args ()) tr (.ok ret, ()) ∧ Answered answer w tr w' ∧
      After w { w.child with mem := mem.write w.child.regs.rip.toNat (wordBytes word), fds }
        (w.child.calling nr args).mapping w' := by
  rw [← show checkRetval nr ret = .ok ret from checkRetval_ok hret]
  exact inject_called child nr args hword hclear hcall

/-- The call may be refused, and then nothing has changed. -/
theorem inject_refused (nr : UInt64) (args : CallArgs) {errno : UInt64} (hsite : SiteMapped w.child)
    (hclear : Clear w.child nr args) (herrno : isErrno errno = true) :
    ∃ x tr w', Cmd.Runs (inject child nr args ()) tr (.error x, ()) ∧ Answered answer w tr w' ∧
      w'.child = w.child := by
  obtain ⟨word, hword⟩ := Mapped.word hsite
  obtain ⟨tr, w', hr, ha, hafter⟩ := inject_called child nr args hword hclear (.fails herrno)
  have hmem : (w.child.patched word).mem.write w.child.regs.rip.toNat
      (wordBytes word) = w.child.mem :=
    unpatch hword
  rw [checkRetval, if_pos herrno] at hr
  refine ⟨_, tr, w', hr, ha, ?_⟩
  rw [hafter.child]
  show ({ w.child with mem := _, fds := w.child.fds } : Child) = w.child
  rw [show ((w.child.patched word).calling nr args).mem = (w.child.patched word).mem from rfl, hmem]

/-- A signal may stop the child before the system call, and it stays as it was prepared for it. -/
theorem inject_strays (signal : String) (nr : UInt64) (args : CallArgs)
    (hsite : SiteMapped w.child) :
    ∃ word x tr w', Cmd.Runs (inject child nr args ()) tr (.error x, ()) ∧ Answered answer w tr w' ∧
      After w ((w.child.patched word).calling nr args) (w.child.calling nr args).mapping w' := by
  obtain ⟨word, hword⟩ := Mapped.word hsite
  have hres : Resumes ((w.child.patched word).calling nr args) (.stopped (.other signal))
      ((w.child.patched word).calling nr args) :=
    .strays (fun _ h => nomatch WaitStatus.stopped.inj h) (Or.inl rfl)
  refine ⟨word, s!"inject: unexpected signal {signal} after syscall",
    [⟨.getregs child, .ok w.child.regs⟩, ⟨.read child w.child.regs.rip, .ok word⟩,
    ⟨.write child w.child.regs.rip (patchWord word), .ok ()⟩,
    ⟨.setregs child (callRegs w.child.regs nr args), .ok ()⟩, ⟨.cont child, .ok ()⟩,
    ⟨.waitpid child, .ok (.stopped (.other signal))⟩], _, ?_,
    ⟨_, ⟨fun _ h => (Except.ok.inj h).symm, rfl⟩, _, ⟨fun _ h => Except.ok.inj h ▸ hword, rfl⟩,
      _, ⟨hword.mapped, rfl⟩, _, rfl, _, ⟨_, _, hres, rfl⟩, _,
        ⟨fun _ h => Option.some.inj h, rfl⟩, rfl⟩,
    ⟨rfl, rfl, rfl, rfl⟩⟩
  rw [inject]
  exact runs_call_ok rfl (runs_call_ok rfl (runs_call_ok rfl (runs_call_ok rfl (runs_call_ok rfl
    (runs_call_ok rfl (.ret _))))))

theorem isErrno_of_lt {n : UInt64} (h : n.toNat < 2 ^ 63) : isErrno n = false := by
  have hint : n.toInt64.toInt = n.toNat := by
    rw [← Int64.toInt_toBitVec]
    exact BitVec.toInt_eq_toNat_of_lt (by show 2 * n.toNat < 2 ^ 64; omega)
  have hnonneg : ¬ n.toInt64 < 0 := by
    rw [Int64.lt_iff_toInt_lt, hint]
    exact Int.not_lt.mpr (Int.natCast_nonneg _)
  rw [isErrno, decide_eq_false hnonneg, Bool.false_and]

/-! ## A region -/

/-- A region that the loop gets through. -/
structure Placeable (checksum : List UInt8 → UInt64) (c : Child) (region : Proto.MemoryRegion) :
    Prop extends Passed checksum region where
  fits : Fits region
  contained : Contained region
  spares : SparesSite c region

variable {region : Proto.MemoryRegion} {regions : List Proto.MemoryRegion}

/-- The mapping that is made for a region. -/
def siteMapping (c : Child) (region : Proto.MemoryRegion) : Mapping :=
  ⟨c.regs.rip, region.startAddr, region.sizeBytes⟩

/-- What memory can be when the `mmap` of a region has stopped: as the call has left it, or whatever
has become of it if the `int3` was mapped over. -/
def Remapped (c : Child) (word : UInt64) (prot : Int32) (region : Proto.MemoryRegion)
    (mem : Memory UInt64) : Prop :=
  mem = (c.patched word).mem.map region.startAddr.toNat (regionEnd region) (asU64 prot) ∨
    CoversTrap c region

/-- A mapping over the `int3` takes it away. -/
theorem map_covers {c : Child} {m : Memory UInt64} {prot : UInt64} (h : CoversTrap c region) :
    ¬ Traps c (m.map region.startAddr.toNat (regionEnd region) prot) := fun htrap => by
  have hin : Memory.In region.startAddr.toNat (regionEnd region) (c.regs.rip.toNat + 2) := h
  rw [Traps, Memory.byte, Memory.map, if_pos hin] at htrap
  have hzero : (0 : UInt8) = 0xcc := Option.some.inj htrap
  exact absurd hzero (by decide)

/-- A region can be mapped wherever it is. -/
theorem mmap_made (prot : Int32) {word : UInt64} {mem : Memory UInt64}
    (hword : w.child.mem.Holds w.child.regs.rip.toNat (wordBytes word))
    (haligned : pageSize ∣ region.startAddr.toNat) (hfits : Fits region)
    (hmem : Remapped w.child word prot region mem)
    (hmapped : mem.Mapped w.child.regs.rip.toNat (w.child.regs.rip.toNat + 8)) :
    ∃ tr w', Cmd.Runs (mmap child region.startAddr region.sizeBytes prot
        (mapFixed ||| mapPrivate ||| mapAnonymous) (-1) 0 ()) tr (.ok region.startAddr, ()) ∧
      Answered answer w tr w' ∧
      After w { w.child with mem := mem.write w.child.regs.rip.toNat (wordBytes word) }
        [siteMapping w.child region] w' := by
  have hlimit : userSpaceLimit.toNat = 140737488355328 := rfl
  have hlen : region.sizeBytes ≠ 0 := fun h => by
    have hpos := hfits.1
    rw [h] at hpos
    exact absurd hpos (by decide)
  have hret : isErrno region.startAddr = false := isErrno_of_lt (by have := hfits.2; omega)
  let args : CallArgs := ⟨region.startAddr, region.sizeBytes, asU64 prot,
    asU64 (mapFixed ||| mapPrivate ||| mapAnonymous), asU64 (-1), Int64.toUInt64 0⟩
  have hcall : Syscall ((w.child.patched word).calling sysMmap args) region.startAddr
      ((w.child.patched word).mem.map region.startAddr.toNat (regionEnd region) (asU64 prot))
      w.child.fds :=
    .mmap rfl rfl haligned hlen
  have htrapped : Trapped w.child sysMmap args word
      (((w.child.patched word).calling sysMmap args).behind region.startAddr mem w.child.fds) := by
    by_cases htrap : Traps ((w.child.patched word).calling sysMmap args)
        ((w.child.patched word).mem.map region.startAddr.toNat (regionEnd region) (asU64 prot))
    · obtain rfl | hcovers := hmem
      · exact .traps (patched_trapCode hword) hcall htrap
      · exact absurd htrap (map_covers (c := (w.child.patched word).calling sysMmap args) hcovers)
    · exact .strays (fun _ _ => ⟨_, _, _, hcall, htrap⟩) (Or.inl rfl)
  obtain ⟨tr, w', hr, ha, hafter⟩ := inject_behind child sysMmap args hword htrapped hmapped
  rw [checkRetval_ok hret] at hr
  exact ⟨tr, w', hr, ha, hafter⟩

theorem mprotect_done (prot : Int32) (hsite : SiteMapped w.child)
    (haligned : pageSize ∣ region.startAddr.toNat)
    (hmapped : w.child.mem.Mapped region.startAddr.toNat (regionEnd region)) :
    ∃ tr w', Cmd.Runs (mprotect child region.startAddr region.sizeBytes prot ()) tr (.ok (), ()) ∧
      Answered answer w tr w' ∧
      After w { w.child with
          mem := w.child.mem.protect region.startAddr.toNat (regionEnd region) (asU64 prot) }
        [] w' := by
  obtain ⟨word, hword⟩ := Mapped.word hsite
  obtain ⟨tr, w', hr, ha, hafter⟩ := inject_done child sysMprotect
    { a0 := region.startAddr, a1 := region.sizeBytes, a2 := asU64 prot } hword
    (fun h => absurd h (by decide))
    (.mprotect rfl haligned (Memory.mapped_write.mpr hmapped)) (by decide)
  refine ⟨tr, w', runs_map hr, ha, ?_⟩
  have hmem : ((w.child.patched word).mem.protect region.startAddr.toNat (regionEnd region)
      (asU64 prot)).write w.child.regs.rip.toNat (wordBytes word) =
      w.child.mem.protect region.startAddr.toNat (regionEnd region) (asU64 prot) := by
    rw [Child.patched, Memory.protect_write]
    exact unpatch hword.protect
  rw [← hmem]
  exact hafter

theorem writeToChildMem_done (addr : UInt64) (data : List UInt8)
    (hmapped : w.child.mem.Mapped addr.toNat (addr.toNat + data.length)) :
    ∃ tr w', Cmd.Runs (writeToChildMem child addr data ()) tr (.ok (), ()) ∧
      Answered answer w tr w' ∧
      After w { w.child with mem := w.child.mem.write addr.toNat data } [] w' :=
  ⟨[⟨.openMem child, .ok ()⟩, ⟨.seekMem child addr, .ok ()⟩, ⟨.writeMem child addr data, .ok ()⟩],
    _, runs_call_ok rfl (runs_call_ok rfl (.op _ (.ret _))),
    ⟨_, rfl, _, rfl, _, ⟨hmapped, rfl⟩, rfl⟩, ⟨rfl, rfl, rfl, (List.append_nil _).symm⟩⟩

/-- One after the other. -/
theorem After.trans {w₁ w₂ : World} {c c' : Child} {mappings mappings' : List Mapping}
    (h : After w c mappings w₁) (h' : After w₁ c' mappings' w₂) :
    After w c' (mappings ++ mappings') w₂ where
  child := h'.child
  parent := h'.parent.trans h.parent
  released := h'.released.trans h.released
  mappings := by rw [h'.mappings, h.mappings, List.append_assoc]

/-- A round goes through if there is memory for the data, and what it makes of memory is what the
`mmap` has left, with the word put back and the data in it. -/
theorem restoreRegion_made {word : UInt64} {mem : Memory UInt64}
    (hword : w.child.mem.Holds w.child.regs.rip.toNat (wordBytes word))
    (hpassed : Passed checksum region) (hfits : Fits region)
    (hmem : Remapped w.child word (mmapProt region) region mem)
    (hsite : mem.Mapped w.child.regs.rip.toNat (w.child.regs.rip.toNat + 8))
    (hpages : mem.Mapped region.startAddr.toNat (regionEnd region))
    (hroom : mem.Mapped region.startAddr.toNat (region.startAddr.toNat + region.data.length)) :
    ∃ tr w', Cmd.Runs (restoreRegion checksum child region ()) tr (.ok (), ()) ∧
      Answered answer w tr w' ∧
      After w { w.child with
        mem := regionFinished (mem.write w.child.regs.rip.toNat (wordBytes word)) region }
        [siteMapping w.child region] w' := by
  obtain ⟨tr₁, w₁, hr₁, ha₁, hmapping⟩ :=
    mmap_made child (mmapProt region) hword hpassed.aligned hfits hmem hsite
  obtain ⟨tr₂, w₂, hr₂, ha₂, hwriting⟩ := writeToChildMem_done child (w := w₁) region.startAddr
    region.data (by rw [hmapping.child]; exact Memory.mapped_write.mpr hroom)
  have hfilled := hmapping.trans hwriting
  rw [hmapping.child] at hfilled
  have hstart : ∀ {tr : List (Event RestResp)} {p : Except Error Unit × Unit},
      Cmd.Runs ((if finalProt region ≠ mmapProt region then
        mprotect child region.startAddr region.sizeBytes (finalProt region) else pure ()) ()) tr p →
      Cmd.Runs (restoreRegion checksum child region ()) (tr₁ ++ (tr₂ ++ tr)) p := by
    intro tr p hr
    rw [restoreRegion, checkRegion]
    simp only [hpassed.sum, ne_eq, not_true_eq_false, if_false]
    refine runs_pure_bind.mpr (runs_bind_ok hr₁ ?_)
    rw [checkMapped, if_neg fun h => h rfl]
    exact runs_pure_bind.mpr (runs_bind_ok hr₂ hr)
  rw [regionFinished]
  by_cases hprot : finalProt region ≠ mmapProt region
  · have hsite₂ : SiteMapped w₂.child := by
      rw [SiteMapped, hfilled.child]
      exact Memory.mapped_write.mpr (Memory.mapped_write.mpr hsite)
    have hmapped₂ : w₂.child.mem.Mapped region.startAddr.toNat (regionEnd region) := by
      rw [hfilled.child]
      exact Memory.mapped_write.mpr (Memory.mapped_write.mpr hpages)
    obtain ⟨tr₃, w₃, hr₃, ha₃, hprotecting⟩ :=
      mprotect_done child (finalProt region) hsite₂ hpassed.aligned hmapped₂
    have hdone := hfilled.trans hprotecting
    rw [hfilled.child] at hdone
    rw [if_pos hprot] at hstart ⊢
    exact ⟨_, w₃, hstart hr₃,
      answered_append.mpr ⟨w₁, ha₁, answered_append.mpr ⟨w₂, ha₂, ha₃⟩⟩, hdone⟩
  · rw [if_neg hprot] at hstart ⊢
    exact ⟨_, w₂, hstart (.ret _),
      answered_append.mpr ⟨w₁, ha₁, answered_append.mpr ⟨w₂, ha₂, rfl⟩⟩,
      hfilled⟩

/-- A round of the loop leaves the injected word where it is. -/
theorem siteMapped_regionMem (hsite : SiteMapped w.child)
    (hplace : Placeable checksum w.child region) :
    (regionMem w.child.mem region).Mapped w.child.regs.rip.toNat (w.child.regs.rip.toNat + 8) :=
  fun a ha => by
    rw [← regionMem_agree hplace.contained hplace.spares a ha]
    exact hsite a ha

theorem restoreRegion_done (hsite : SiteMapped w.child)
    (hplace : Placeable checksum w.child region) :
    ∃ tr w', Cmd.Runs (restoreRegion checksum child region ()) tr (.ok (), ()) ∧
      Answered answer w tr w' ∧ After w { w.child with mem := regionMem w.child.mem region }
        [siteMapping w.child region] w' := by
  obtain ⟨word, hword⟩ := Mapped.word hsite
  have hapart : Memory.Apart w.child.regs.rip.toNat (w.child.regs.rip.toNat + 8)
      region.startAddr.toNat (regionEnd region) := hplace.spares
  have hback : ((w.child.patched word).mem.map region.startAddr.toNat (regionEnd region)
      (asU64 (mmapProt region))).write w.child.regs.rip.toNat (wordBytes word) =
      w.child.mem.map region.startAddr.toNat (regionEnd region) (asU64 (mmapProt region)) := by
    rw [Child.patched, Memory.map_write hapart]
    exact unpatch (hword.map hapart)
  have hsite' := Memory.Mapped.of_agree (patched_holds hword).mapped (Memory.map_agree
    (p := asU64 (mmapProt region)) hapart)
  obtain ⟨tr, w', hr, ha, hafter⟩ :=
    restoreRegion_made child hword hplace.toPassed hplace.fits (Or.inl rfl)
    hsite' Memory.map_mapped (Memory.map_mapped.mono le_rfl hplace.contained)
  rw [hback] at hafter
  exact ⟨tr, w', hr, ha, hafter⟩

/-! ## A descriptor -/

/-- A descriptor goes through a register. -/
theorem fdArg_asU64 (n : Int32) : fdArg (asU64 n) = n := by
  refine Int32.toBitVec_inj.mp (BitVec.eq_of_getLsbD_eq fun i hi => ?_)
  have h : (fdArg (asU64 n)).toBitVec = BitVec.setWidth 32 (BitVec.signExtend 64 n.toBitVec) := rfl
  rw [h, BitVec.getLsbD_setWidth, BitVec.getLsbD_signExtend]
  simp [hi, Nat.lt_trans hi (by decide : 32 < 64)]

/-- The number of a descriptor is not taken for an error. -/
theorem asU64_lt {n : Int32} (h : 0 ≤ n) : (asU64 n).toNat < 2 ^ 63 := by
  have hmsb : n.toBitVec.msb = false := by
    rw [BitVec.msb_eq_toInt, decide_eq_false_iff_not, Int.not_lt]
    exact Int32.le_iff_toInt_le.mp h
  have hbits : (asU64 n).toBitVec = BitVec.setWidth 64 n.toBitVec :=
    BitVec.signExtend_eq_setWidth_of_msb_false hmsb
  have hlt := n.toBitVec.isLt
  rw [← UInt64.toNat_toBitVec, hbits, BitVec.toNat_setWidth]
  omega

/-- A `dup2` of an open descriptor. -/
theorem dup2_done {oldFd newFd : Int32} (hsite : SiteMapped w.child) {file : OpenFile}
    (hfile : w.child.fds oldFd = some file) (hnew : 0 ≤ newFd) :
    ∃ tr w', Cmd.Runs (dup2 child oldFd newFd ()) tr (.ok (), ()) ∧ Answered answer w tr w' ∧
      After w { w.child with fds := w.child.fds.set newFd (some file) } [] w' := by
  obtain ⟨word, hword⟩ := Mapped.word hsite
  have hcall : Syscall
      ((w.child.patched word).calling sysDup2 { a0 := asU64 oldFd, a1 := asU64 newFd })
      (asU64 newFd) (w.child.patched word).mem
      (w.child.fds.set (fdArg (asU64 newFd)) (some file)) :=
    .dup2 rfl ((congrArg w.child.fds (fdArg_asU64 oldFd)).trans hfile)
      ((fdArg_asU64 newFd).symm ▸ hnew)
  obtain ⟨tr, w', hr, ha, hafter⟩ :=
    inject_done child sysDup2 { a0 := asU64 oldFd, a1 := asU64 newFd }
    hword (fun h => absurd h (by decide)) hcall (isErrno_of_lt (asU64_lt hnew))
  refine ⟨tr, w', runs_map hr, ha, ?_⟩
  rw [Child.patched, unpatch hword, fdArg_asU64] at hafter
  exact hafter

/-! ## The loop, and a whole restore -/

theorem Placeable.mem {c : Child} (h : Placeable checksum c region) (mem : Memory UInt64)
    (fds : Fds) :
    Placeable checksum { c with mem, fds } region :=
  ⟨h.toPassed, h.fits, h.contained, h.spares⟩

theorem restoreRegions_done (hsite : SiteMapped w.child)
    (hplace : ∀ r ∈ regions, Placeable checksum w.child r) (n : Nat) :
    ∃ tr w', Cmd.Runs (restoreRegions checksum child regions n ())
      tr (.ok (n + regions.length), ()) ∧
      Answered answer w tr w' ∧ After w { w.child with mem := regions.foldl regionMem w.child.mem }
        (regions.map (siteMapping w.child)) w' := by
  induction regions generalizing w n with
  | nil => exact ⟨[], w, .ret _, rfl, rfl, rfl, rfl, (List.append_nil _).symm⟩
  | cons region regions ih =>
      have hself := hplace region (.head _)
      obtain ⟨tr₁, w₁, hr₁, ha₁, hfirst⟩ := restoreRegion_done child hsite hself
      have hsite₁ : SiteMapped w₁.child := by
        rw [hfirst.child]
        exact siteMapped_regionMem hsite hself
      have hplace₁ : ∀ r ∈ regions, Placeable checksum w₁.child r := fun r hr => by
        rw [hfirst.child]
        exact (hplace r (.tail _ hr)).mem _ _
      obtain ⟨tr₂, w₂, hr₂, ha₂, hrest⟩ := ih hsite₁ hplace₁ (n + 1)
      refine ⟨tr₁ ++ tr₂, w₂, ?_, answered_append.mpr ⟨w₁, ha₁, ha₂⟩, ?_⟩
      · rw [restoreRegions, List.length_cons, Nat.add_comm regions.length, ← Nat.add_assoc]
        exact runs_bind_ok hr₁ hr₂
      · have h := hfirst.trans hrest
        rw [hfirst.child] at h
        exact h

theorem restoreRegisters_done {regs : Proto.Registers} (hfpu : FpuSized regs) :
    ∃ tr w', Cmd.Runs (restoreRegisters child (some regs) ()) tr (.ok (), ()) ∧
      Answered answer w tr w' ∧ After w (w.child.loaded regs) [] w' := by
  have hstart : ∀ {tr : List (Event RestResp)} {p : Except Error Unit × Unit},
      Cmd.Runs ((if regs.fpuState ≠ [] then do
          let fpregs ← ofExcept (fpuState regs.fpuState)
          call (.setfpregs child fpregs) (mapErr "PTRACE_SETFPREGS")
        else pure () : Rest Unit) ()) tr p →
      Cmd.Runs (restoreRegisters child (some regs) ())
        (⟨.setregs child regs.toUser, .ok ()⟩ :: tr) p :=
    fun hr => runs_pure_bind.mpr (runs_call_ok rfl hr)
  by_cases hnil : regs.fpuState ≠ []
  · have hlen := hfpu hnil
    rw [if_pos hnil, fpuState, dif_pos hlen] at hstart
    refine ⟨[⟨.setregs child regs.toUser, .ok ()⟩,
      ⟨.setfpregs child ⟨regs.fpuState, hlen⟩, .ok ()⟩],
      _, hstart (runs_pure_bind.mpr (.op _ (.ret _))), ⟨_, rfl, _, rfl, rfl⟩,
      ?_, rfl, rfl, (List.append_nil _).symm⟩
    rw [Child.loaded, dif_pos hlen]
  · have hlen : ¬ regs.fpuState.length = fpregsSize := by
      rw [Decidable.not_not.mp hnil]
      decide
    rw [if_neg hnil] at hstart
    refine ⟨_, _, hstart (.ret _), ⟨_, rfl, rfl⟩, ?_, rfl, rfl, (List.append_nil _).symm⟩
    rw [Child.loaded, dif_neg hlen]

theorem restoreState_done {s : Proto.ProcessSnapshot} {regs : Proto.Registers}
    (hsite : SiteMapped w.child) (hplace : ∀ r ∈ s.memoryRegions, Placeable checksum w.child r)
    (hregs : s.registers = some regs) (hfpu : FpuSized regs) :
    ∃ tr w', Cmd.Runs (restoreState checksum s child ()) tr (.ok s.memoryRegions.length, ()) ∧
      Answered answer w tr w' ∧
      After w
        (({ w.child with mem := s.memoryRegions.foldl regionMem w.child.mem } : Child).loaded regs)
        (s.memoryRegions.map (siteMapping w.child)) w' := by
  obtain ⟨tr₁, w₁, hr₁, ha₁, hregions⟩ := restoreRegions_done child hsite hplace 0
  obtain ⟨tr₂, w₂, hr₂, ha₂, hregisters⟩ := restoreRegisters_done child (w := w₁) hfpu
  have hdone := hregions.trans hregisters
  rw [hregions.child, List.append_nil] at hdone
  refine ⟨tr₁ ++ tr₂, w₂, ?_, answered_append.mpr ⟨w₁, ha₁, ha₂⟩, hdone⟩
  rw [restoreState, hregs]
  rw [Nat.zero_add] at hr₁
  exact runs_bind_ok hr₁ (runs_map hr₂)

/-- A stub that stops itself, in the world of its parent. -/
def World.forked (w : World) (c : Child) : World :=
  { w with child := { c with fds := w.parent }, pending := none }

theorem forkStub_done (c : Child) :
    ∃ tr, Cmd.Runs (forkStub ()) tr (.ok child, ()) ∧ Answered answer w tr (w.forked c) := by
  refine ⟨[⟨.fork, .ok child⟩, ⟨.waitpid child, .ok (.stopped .sigstop)⟩], ?_,
    ⟨_, ⟨_, _, rfl, rfl⟩, _, ⟨fun _ h => Option.some.inj h, rfl⟩, rfl⟩⟩
  exact runs_call_ok rfl (runs_call_ok rfl (runs_pure_bind.mpr (.ret _)))

/-- `restore_inner` for a snapshot without descriptors whose regions can be placed. -/
theorem restoreInner_done {s : Proto.ProcessSnapshot} {regs : Proto.Registers}
    (hsite : SiteMapped w.child) (hplace : ∀ r ∈ s.memoryRegions, Placeable checksum w.child r)
    (hregs : s.registers = some regs) (hfpu : FpuSized regs) :
    ∃ tr w', Cmd.Runs (restoreInner checksum s [] child ()) tr
        (.ok { pid := child, regionsOk := s.memoryRegions.length, fdReport := {} }, ()) ∧
      Answered answer w tr w' ∧
      w'.released = some
        (({ w.child with mem := s.memoryRegions.foldl regionMem w.child.mem } : Child).loaded
          regs) ∧
      w'.mappings = w.mappings ++ s.memoryRegions.map (siteMapping w.child) := by
  obtain ⟨tr, w', hr, ha, hstate⟩ := restoreState_done child hsite hplace hregs hfpu
  have hinner : Cmd.Runs (restoreInner checksum s [] child ())
      (tr ++ [] ++ [⟨.detach child, .ok ()⟩])
      (.ok { pid := child, regionsOk := s.memoryRegions.length, fdReport := {} }, ()) :=
    runs_bind_ok (runs_bind_ok hr (runs_pure_bind.mpr (runs_pure_bind.mpr (.ret _))))
      (runs_call_ok rfl (.ret _))
  rw [List.append_nil] at hinner
  have hdetach : Answered answer w' [⟨.detach child, .ok ()⟩]
      { w' with released := some w'.child } := ⟨_, rfl, rfl⟩
  exact ⟨tr ++ [⟨.detach child, .ok ()⟩], { w' with released := some w'.child }, hinner,
    answered_append.mpr ⟨w', ha, hdetach⟩,
    congrArg some hstate.child, hstate.mappings⟩

/-- The restore of a snapshot whose regions can be placed in the stub `c`. -/
theorem restore_done (c : Child) {s : Proto.ProcessSnapshot} {regs : Proto.Registers}
    (hvalid : validate s = .ok ()) (hsite : SiteMapped c)
    (hplace : ∀ r ∈ s.memoryRegions, Placeable checksum c r)
    (hregs : s.registers = some regs) (hfpu : FpuSized regs) :
    ∃ tr w', Cmd.Runs (restore checksum s [] ()) tr
        (.ok { pid := child, regionsOk := s.memoryRegions.length, fdReport := {} }, ()) ∧
      Answered answer w tr w' ∧
      w'.released = some (({ c with
        mem := s.memoryRegions.foldl regionMem c.mem
        fds := w.parent } : Child).loaded regs) ∧
      w'.mappings = w.mappings ++ s.memoryRegions.map (siteMapping c) := by
  obtain ⟨tr₁, hr₁, ha₁⟩ := forkStub_done (w := w) child c
  obtain ⟨tr₂, w₂, hr₂, ha₂, hreleased, hmappings⟩ :=
    restoreInner_done child (w := w.forked c) hsite
    (fun r hr => (hplace r hr : Placeable checksum c r).mem _ _) hregs hfpu
  refine ⟨tr₁ ++ tr₂, w₂, ?_, answered_append.mpr ⟨_, ha₁, ha₂⟩, hreleased, hmappings⟩
  rw [restore, hvalid]
  exact runs_pure_bind.mpr (runs_bind_ok hr₁ (runs_tryExcept_ok hr₂))

/-! ## A small restore -/

/-- Registers of a program that lies at `rip`. -/
def regsAt (rip : UInt64) : UserRegs :=
  ⟨0, 0, 0, 0, 0, 0, 0, 0, 0, 0, 0, 0, 0, 0, 0, 0, rip, 0, 0, 0x7ffc0000, 0, 0, 0, 0, 0, 0, 0⟩

/-- A stub with one page of code. -/
def stub : Child where
  regs := regsAt 0x400100
  fpregs := .zero
  mem := fun a => if Memory.In 0x400000 0x401000 a then some ⟨0x90, 5⟩ else none
  fds := fun _ => none

/-- Its parent, before anything has happened. -/
def quietWorld : World where
  parent := fun _ => none
  child := stub

/-- A page at `start` with `n` zero bytes. -/
def zeroRegion (start : UInt64) (n : Nat) : Proto.MemoryRegion where
  startAddr := start
  endAddr := start + 0x1000
  sizeBytes := 0x1000
  permissions := "rw-p"
  regionType := "anon"
  data := List.replicate n 0

def smallSnapshot (regions : List Proto.MemoryRegion) : Proto.ProcessSnapshot where
  arch := "x86_64"
  registers := some { rip := 0x10000, rsp := 0x10800 }
  memoryRegions := regions

theorem smallSnapshot_valid {start : UInt64} {n : Nat} (h : Fits (zeroRegion start 0)) :
    validate (smallSnapshot [zeroRegion start n]) = .ok () := by
  rw [validate_iff]
  refine ⟨rfl, ⟨?_, List.pairwise_singleton _ _⟩, nofun, nofun⟩
  intro r hr
  obtain rfl := List.mem_singleton.mp hr
  exact h

theorem forall_mem_pair {α : Type} {P : α → Prop} {x y : α} (h : P x) (h' : P y) :
    ∀ a ∈ [x, y], P a :=
  List.forall_mem_cons.mpr ⟨h, List.forall_mem_singleton.mpr h'⟩

theorem pair_valid {r r' : Proto.MemoryRegion} (h : Fits r) (h' : Fits r')
    (hapart : Separate r r') :
    validate (smallSnapshot [r, r']) = .ok () := by
  rw [validate_iff]
  refine ⟨rfl, ⟨forall_mem_pair h h', List.pairwise_pair.mpr hapart⟩, nofun, nofun⟩

theorem stub_site : SiteMapped stub := fun a ha => by
  have hin : Memory.In 0x400000 0x401000 a := by
    have hrip : stub.regs.rip.toNat = 0x400100 := rfl
    rw [hrip] at ha
    omega
  simp only [stub, if_pos hin, Option.isSome_some]

/-- A page below the stub can be placed; the checksum of zeros is zero. -/
theorem zeroRegion_placeable {start : UInt64} {n : Nat} (haligned : pageSize ∣ start.toNat)
    (hlow : start.toNat + 0x1000 ≤ 0x400000) (hn : n ≤ 0x1000) :
    Placeable (fun _ => 0) stub (zeroRegion start n) := by
  have hend : regionEnd (zeroRegion start n) = start.toNat + 0x1000 := by
    have hdvd : pageSize ∣ start.toNat + 0x1000 := Nat.dvd_add haligned (by decide)
    exact Memory.pageUp_of_dvd (by decide) hdvd
  have hsize : (zeroRegion start n).sizeBytes.toNat = 0x1000 := rfl
  have hlimit : userSpaceLimit.toNat = 140737488355328 := rfl
  have hstart : (zeroRegion start n).startAddr.toNat = start.toNat := rfl
  have hlen : (zeroRegion start n).data.length = n := List.length_replicate
  have hrip : stub.regs.rip.toNat = 0x400100 := rfl
  refine ⟨⟨rfl, haligned⟩, ⟨by omega, by omega⟩, ?_, ?_⟩
  · rw [Contained, hend, hlen, hstart]
    omega
  · rw [SparesSite, hend, hrip, hstart]
    exact Or.inr (by omega)

end Wraith.Restore

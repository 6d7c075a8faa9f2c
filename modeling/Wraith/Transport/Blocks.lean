/-
# `Wraith.Transport.Blocks` — which blocks, in which order, how often

What the receiver makes of the blocks of one session, whatever cuts them and shuffles them.

*Order.*  Blocks cut from the data at any points and sent in any order, with frames of other types
in between, rebuild it (`receiveOne_any_order`).

*Bounds.*  The end of a block is a 64-bit sum of what the peer chose.  When it wraps to something
small the check is passed and the slice expression panics; in all other cases the check is exact
(`bounds_exact_iff`).

*Repetition.*  A block that is sent twice is written twice, to no effect, but it is counted twice,
and the count is what the buffer is cut to: `receiveOne_repeated_iff`.
-/
import Mathlib.Logic.Relation
import Wraith.Transport.Completeness

namespace Wraith.Transport

open Lib

variable {json : Json} {hashPage : List UInt8 → UInt64} {hs : Handshake} {data : List UInt8}

/-! ## Data cut into blocks -/

/-- The data from `offset` on, cut into blocks of the given lengths. -/
def cutBlocks (hashPage : List UInt8 → UInt64) (data : List UInt8) : Nat → List Nat → List DataBlock
  | _, [] => []
  | offset, n :: lens =>
      ⟨UInt64.ofNat offset, hashPage ((data.drop offset).take n), (data.drop offset).take n⟩
        :: cutBlocks hashPage data (offset + n) lens

/-- A block of the data: `n` bytes from `offset` on, with their checksum. -/
structure IsCut (hashPage : List UInt8 → UInt64) (data : List UInt8) (offset n : Nat)
    (b : DataBlock) : Prop where
  start : b.offset.toNat = offset
  bytes : b.data = (data.drop offset).take n
  inside : offset + n ≤ data.length
  checksum : hashPage b.data = b.checksum

theorem IsCut.length {offset n : Nat} {b : DataBlock} (h : IsCut hashPage data offset n b) :
    b.data.length = n := by
  have hin := h.inside
  rw [h.bytes, List.length_take, List.length_drop]
  omega

theorem IsCut.excerpt {offset n : Nat} {b : DataBlock} (h : IsCut hashPage data offset n b)
    {i : Nat} (hi : Touches b.write i) : b.data[i - b.offset.toNat]? = data[i]? := by
  obtain ⟨hle, hlt⟩ := hi
  simp only [DataBlock.write, h.length, h.start] at hle hlt
  rw [h.start, h.bytes, List.getElem?_take_of_lt (by omega), List.getElem?_drop,
    Nat.add_sub_cancel' hle]

theorem cutBlocks_isCut (hlen : data.length < 2 ^ 64) : ∀ (lens : List Nat) (offset : Nat),
    offset + lens.sum ≤ data.length → ∀ b ∈ cutBlocks hashPage data offset lens,
      ∃ o, ∃ n ∈ lens, IsCut hashPage data o n b
  | [], _, _, _, hb => absurd hb List.not_mem_nil
  | n :: lens, offset, hsum, b, hb => by
      rw [List.sum_cons] at hsum
      rcases List.mem_cons.mp hb with rfl | hb
      · refine ⟨offset, n, List.mem_cons_self, ?_, rfl, by omega, rfl⟩
        rw [UInt64.toNat_ofNat', Nat.mod_eq_of_lt (by omega)]
      · obtain ⟨o, m, hm, hcut⟩ := cutBlocks_isCut hlen lens (offset + n) (by omega) b hb
        exact ⟨o, m, List.mem_cons_of_mem _ hm, hcut⟩

/-- Between them they cover what they were cut from. -/
theorem cutBlocks_cover (hlen : data.length < 2 ^ 64) : ∀ (lens : List Nat) (offset : Nat),
    offset + lens.sum ≤ data.length → ∀ i, offset ≤ i → i < offset + lens.sum →
      ∃ b ∈ cutBlocks hashPage data offset lens, Touches b.write i
  | [], _, _, i, hle, hlt => absurd hlt (by rw [List.sum_nil]; omega)
  | n :: lens, offset, hsum, i, hle, hlt => by
      rw [List.sum_cons] at hsum hlt
      by_cases hi : i < offset + n
      · refine ⟨_, List.mem_cons_self, ?_, ?_⟩
        · rw [DataBlock.write, UInt64.toNat_ofNat', Nat.mod_eq_of_lt (by omega)]
          exact hle
        · rw [DataBlock.write, UInt64.toNat_ofNat', Nat.mod_eq_of_lt (by omega), List.length_take,
            List.length_drop]
          omega
      · obtain ⟨b, hb, htouch⟩ := cutBlocks_cover hlen lens (offset + n) (by omega) i (by omega)
          (by omega)
        exact ⟨b, List.mem_cons_of_mem _ hb, htouch⟩

theorem cutBlocks_length_sum : ∀ (lens : List Nat) (offset : Nat),
    offset + lens.sum ≤ data.length →
      ((cutBlocks hashPage data offset lens).map fun b => b.data.length).sum = lens.sum
  | [], _, _ => rfl
  | n :: lens, offset, hsum => by
      rw [List.sum_cons] at hsum ⊢
      rw [cutBlocks, List.map_cons, List.sum_cons, cutBlocks_length_sum lens _ (by omega),
        List.length_take, List.length_drop]
      omega

/-! ## Blocks in any order -/

/-- Frames that are the blocks `blocks`, with frames of other types between them, are accepted as
these blocks. -/
theorem accepts_frames (t : List UInt8) (e : Ending) : ∀ {frames : List Frame}
    {blocks : List DataBlock}, frames.filter (fun f => f.typ = msgDataBlock)
        = blocks.map DataBlock.frame →
      (∀ f ∈ frames, f.typ ≠ msgDataBlock → f.Unknown ∧ f.Fits) →
      (∀ b ∈ blocks, b.Fits ∧ Storable hashPage hs b) →
        Accepts hashPage hs blocks ⟨frames.flatMap Frame.encode ++ t, e⟩ ⟨t, e⟩
  | [], blocks, hblocks, _, _ => by
      obtain rfl := List.map_eq_nil_iff.mp hblocks.symm
      exact .nil _
  | f :: frames, blocks, hblocks, hother, hstore => by
      have hother' := fun g hg => hother g (List.mem_cons_of_mem _ hg)
      rw [List.flatMap_cons, List.append_assoc]
      by_cases htyp : f.typ = msgDataBlock
      · rw [List.filter_cons_of_pos (by simpa using htyp)] at hblocks
        obtain ⟨b, bs, rfl, rfl, hrest⟩ := List.map_eq_cons_iff.mp hblocks.symm
        obtain ⟨hfits, hb⟩ := hstore b List.mem_cons_self
        exact .block (readFrom_encode hfits.frame _ _) rfl (readBlock_payload hfits) hb
          (accepts_frames t e hrest.symm hother' fun x hx => hstore x (List.mem_cons_of_mem _ hx))
      · rw [List.filter_cons_of_neg (by simpa using htyp)] at hblocks
        obtain ⟨hunknown, hfits⟩ := hother f List.mem_cons_self htyp
        exact .skip (readFrom_encode hfits _ _) hunknown (accepts_frames t e hblocks hother' hstore)

/-- **Block order does not matter.**  The handshake, the blocks of the data in any order, however it
was cut, frames of unknown types between them, and `MsgComplete`: the data is returned. -/
theorem receiveOne_any_order (hpos : 1 ≤ data.length) (hmax : data.length ≤ 128 * 2 ^ 30)
    {lens : List Nat} (hlens : ∀ n ∈ lens, n < 2 ^ 32 - 20) (hsum : lens.sum = data.length)
    {blocks : List DataBlock} (hperm : blocks.Perm (cutBlocks hashPage data 0 lens))
    {frames : List Frame} (hblocks : frames.filter (fun f => f.typ = msgDataBlock)
      = blocks.map DataBlock.frame)
    (hother : ∀ f ∈ frames, f.typ ≠ msgDataBlock → f.Unknown ∧ f.Fits)
    {complete : Frame} (hcomplete : complete.typ = msgComplete) (hfits : complete.Fits)
    (harch : hs.arch = "x86_64") (htotal : hs.totalBytes.toNat = data.length)
    {s : Stream} {t : List UInt8} {e : Ending}
    (hgreets : Greets json s hs ⟨frames.flatMap Frame.encode ++ (complete.encode ++ t), e⟩) :
    receiveOne json hashPage none s =
      ⟨[json.ackFrame acceptAck], .returned data (some hs) none⟩ := by
  have hcut : ∀ b ∈ blocks, ∃ o, ∃ n ∈ lens, IsCut hashPage data o n b := fun b hb =>
    cutBlocks_isCut (by omega) lens 0 (by omega) b (hperm.mem_iff.mp hb)
  have hstore : ∀ b ∈ blocks, b.Fits ∧ Storable hashPage hs b := by
    intro b hb
    obtain ⟨o, n, hn, h⟩ := hcut b hb
    refine ⟨?_, ?_, h.checksum⟩
    · have := hlens n hn
      rw [DataBlock.Fits, h.length]
      omega
    · rw [h.start, h.length, htotal]
      exact h.inside
  have hreach : Reaches hashPage hs blocks
      ⟨frames.flatMap Frame.encode ++ (complete.encode ++ t), e⟩ :=
    ⟨_, _, _, accepts_frames _ _ hblocks hother hstore, readFrom_encode hfits t e, hcomplete⟩
  have hok : hs.Acceptable := Handshake.acceptable harch htotal hpos hmax
  have hbuf : (List.replicate hs.totalBytes.toNat (0 : UInt8)).length = data.length := by
    rw [List.length_replicate, htotal]
  -- The blocks rebuild the data, and their lengths add up to it.
  have hwhole : writeAll (List.replicate hs.totalBytes.toNat 0) (blocks.map DataBlock.write)
      = data := by
    refine writeAll_eq_of_excerpts hbuf (htotal ▸ hreach.within) ?_ fun i hi => ?_
    · intro w hw i hi
      obtain ⟨b, hb, rfl⟩ := List.mem_map.mp hw
      obtain ⟨o, n, -, h⟩ := hcut b hb
      exact h.excerpt hi
    · have hlt : data.length < 2 ^ 64 := by omega
      obtain ⟨b, hb, htouch⟩ := cutBlocks_cover hlt lens 0 (by omega) i (Nat.zero_le i) (by omega)
      exact ⟨b.write, List.mem_map_of_mem (hperm.mem_iff.mpr hb), htouch⟩
  have hcount : (byteCount 0 blocks).toNat = data.length := by
    rw [byteCount_eq, UInt64.zero_add, (hperm.map _).sum_nat,
      cutBlocks_length_sum lens 0 (by omega),
      hsum, UInt64.toNat_ofNat', Nat.mod_eq_of_lt (by omega)]
  rw [hgreets.receiveOne, hok.receiveBody, hreach.receiveLoop List.length_replicate, hwhole]
  congr 1
  refine finish_nil_iff.mpr ⟨by omega, ?_, rfl⟩
  rw [hcount, List.take_length]

/-- The page in two blocks, the second one first, behind a frame of an unknown type. -/
def swappedBlocks : List DataBlock :=
  (cutBlocks (fun _ => 0) (List.replicate 4096 0) 0 [4095, 1]).reverse

def swappedFrames : List Frame := ⟨9, [1]⟩ :: swappedBlocks.map DataBlock.frame

theorem receiveOne_any_order_swapped :
    receiveOne pageJson (fun _ => 0) none
        ⟨greeting ++
          (swappedFrames.flatMap Frame.encode ++ ((Frame.mk msgComplete []).encode ++ [])),
          .pending⟩ =
      ⟨[pageJson.ackFrame acceptAck],
        .returned (List.replicate 4096 0) (some pageHandshake) none⟩ := by
  have hlens : ∀ n ∈ [4095, 1], n < 2 ^ 32 - 20 := by decide
  have hblocks : swappedFrames.filter (fun f => f.typ = msgDataBlock)
      = swappedBlocks.map DataBlock.frame := by
    rw [swappedFrames, List.filter_cons_of_neg (by decide)]
    exact List.filter_eq_self.mpr fun f hf => by
      obtain ⟨b, -, rfl⟩ := List.mem_map.mp hf
      rfl
  have hother : ∀ f ∈ swappedFrames, f.typ ≠ msgDataBlock → f.Unknown ∧ f.Fits := by
    intro f hf htyp
    rcases List.mem_cons.mp hf with rfl | hf
    · exact ⟨⟨by decide, by decide, by decide⟩, by decide⟩
    · obtain ⟨b, -, rfl⟩ := List.mem_map.mp hf
      exact absurd rfl htyp
  refine receiveOne_any_order ?_ ?_ hlens ?_ (List.reverse_perm _) hblocks hother rfl (by decide)
    rfl ?_ (greets_greeting _ _)
  · rw [List.length_replicate]; decide
  · rw [List.length_replicate]; decide
  · rw [List.length_replicate]; rfl
  · rw [List.length_replicate]; rfl

/-! ## Blocks out of bounds -/

/-- The checks on a block do what they are for: it comes to the buffer write if it lies inside the
snapshot and its checksum matches, and the write stays inside the buffer. -/
structure BoundsExact (hashPage : List UInt8 → UInt64) (hs : Handshake) (buf : List UInt8)
    (b : DataBlock) : Prop where
  passes : (∀ e, copyBlock hashPage hs buf b ≠ .err e) ↔
    b.offset.toNat + b.data.length ≤ hs.totalBytes.toNat ∧ hashPage b.data = b.checksum
  safe : ∀ m, copyBlock hashPage hs buf b ≠ .panicked m
  inside : ∀ buf', copyBlock hashPage hs buf b = .ok buf' → buf'.length = buf.length ∧
    ∀ i, ¬ Touches b.write i → buf'[i]? = buf[i]?

/-- The end of the block, cut to 64 bits, is inside the snapshot, and its checksum matches. -/
def Wraps (hashPage : List UInt8 → UInt64) (hs : Handshake) (b : DataBlock) : Prop :=
  2 ^ 64 ≤ b.offset.toNat + b.data.length ∧
    b.offset.toNat + b.data.length - 2 ^ 64 ≤ hs.totalBytes.toNat ∧ hashPage b.data = b.checksum

/-- The end of a block, in unbounded numbers. -/
theorem DataBlock.end_wraps {b : DataBlock} (hlen : b.data.length < 2 ^ 32) :
    b.end.toNat = if 2 ^ 64 ≤ b.offset.toNat + b.data.length
      then b.offset.toNat + b.data.length - 2 ^ 64 else b.offset.toNat + b.data.length := by
  have hoff := b.offset.toNat_lt
  rw [DataBlock.end, UInt64.toNat_add, UInt64.toNat_ofNat',
    Nat.mod_eq_of_lt (by omega : b.data.length < 2 ^ 64)]
  split
  · rw [Nat.mod_eq_sub_mod (by omega), Nat.mod_eq_of_lt (by omega)]
  · rw [Nat.mod_eq_of_lt (by omega)]

variable {buf : List UInt8} {b : DataBlock}

/-- A block whose end has wrapped passes the check and stops the receiver. -/
theorem copyBlock_wraps (hlen : b.data.length < 2 ^ 32) (h : Wraps hashPage hs b) :
    copyBlock hashPage hs buf b = .panicked "slice bounds out of range" := by
  obtain ⟨hwrap, hsmall, hsum⟩ := h
  have hend := DataBlock.end_wraps hlen
  rw [if_pos hwrap] at hend
  have hinside : ¬ b.end > hs.totalBytes := by
    rw [gt_iff_lt, UInt64.lt_iff_toNat_lt]
    omega
  rw [copyBlock, if_neg hinside, if_neg (not_not.mpr hsum), copyInto, goSlice, if_neg (by omega)]

/-- **The bounds check.**  It is exact on every block but those whose end wraps to a position inside
the snapshot; of these the receiver dies. -/
theorem bounds_exact_iff (hlen : b.data.length < 2 ^ 32)
    (hbuf : buf.length = hs.totalBytes.toNat) :
    BoundsExact hashPage hs buf b ↔ ¬ Wraps hashPage hs b := by
  constructor
  · intro h hwraps
    exact h.safe _ (copyBlock_wraps hlen hwraps)
  · intro h
    have hend := DataBlock.end_wraps hlen
    have hcopy : ∀ {buf'}, copyBlock hashPage hs buf b = .ok buf' ↔ _ :=
      copyBlock_ok (by omega) hbuf
    -- Without a small wrapped end, what is computed decides as the unbounded sum does.
    have hexact : (b.end.toNat ≤ hs.totalBytes.toNat ∧ hashPage b.data = b.checksum) ↔
        b.offset.toNat + b.data.length ≤ hs.totalBytes.toNat ∧ hashPage b.data = b.checksum := by
      refine and_congr_left fun hsum => ?_
      have htotal := hs.totalBytes.toNat_lt
      unfold Wraps at h
      split at hend
      · rename_i hwrap
        have hbig : ¬ b.offset.toNat + b.data.length - 2 ^ 64 ≤ hs.totalBytes.toNat :=
          fun hle => h ⟨hwrap, hle, hsum⟩
        omega
      · omega
    refine ⟨copyBlock_refuses.trans hexact, fun m hm => ?_, fun buf' hok => ?_⟩
    · obtain ⟨hin, hsum⟩ :=
        hexact.mp (copyBlock_refuses.mp fun e he => by rw [hm] at he; exact nomatch he)
      have hok := hcopy.mpr ⟨⟨hin, hsum⟩, rfl⟩
      rw [hm] at hok
      exact nomatch hok
    · obtain ⟨⟨hin, -⟩, rfl⟩ := hcopy.mp hok
      refine ⟨overwrite_length (hbuf ▸ hin), fun i hi => ?_⟩
      rw [overwrite_get (hbuf ▸ hin)]
      exact if_neg hi

/-- Two bytes at the last offset there is: the sum is 1. -/
def wrapBlock : DataBlock := ⟨0xFFFFFFFFFFFFFFFF, 0, [0, 0]⟩

/-- The receiver dies of it, before it can answer. -/
theorem wrapBlock_panics :
    ¬ BoundsExact (fun _ => 0) pageHandshake (List.replicate 4096 0) wrapBlock ∧
      (receiveOne pageJson (fun _ => 0) none ⟨greeting ++ wrapBlock.frame.encode, .pending⟩).result
        = .panicked "slice bounds out of range" := by
  have hwraps : Wraps (fun _ => 0) pageHandshake wrapBlock := by
    unfold Wraps
    decide
  have hpanic : ∀ buf, copyBlock (fun _ => 0) pageHandshake buf wrapBlock
      = .panicked "slice bounds out of range" := fun buf => copyBlock_wraps (by decide) hwraps
  refine ⟨fun h => h.safe _ (hpanic _), ?_⟩
  have hread := readFrom_encode (f := wrapBlock.frame) (by decide) [] .pending
  rw [List.append_nil] at hread
  rw [(greets_greeting _ _).receiveOne, pageHandshake_acceptable.receiveBody, receiveLoop_eq, hread]
  have hblock : readBlock wrapBlock.frame.payload = .ok wrapBlock :=
    readBlock_payload (b := wrapBlock) (by unfold DataBlock.Fits; decide)
  simp only [storeBlock, hblock, hpanic]
  rfl

theorem bounds_exact_iff_page :
    BoundsExact (fun _ => 0) pageHandshake (List.replicate 4096 0) pageBlock ↔
      ¬ Wraps (fun _ => 0) pageHandshake pageBlock :=
  bounds_exact_iff (by rw [pageBlock, List.length_replicate]; decide) List.length_replicate

/-! ## Blocks sent again -/

/-- One more copy of a block behind it, and between the two no block that puts something else where
it writes. -/
inductive Repeats : List DataBlock → List DataBlock → Prop where
  | copy (before mid after : List DataBlock) (b : DataBlock) :
      (∀ c ∈ mid, Consistent c.write b.write) →
        Repeats (before ++ b :: mid ++ after) (before ++ b :: mid ++ b :: after)

/-- Further copies of blocks, one at a time. -/
def Retransmits : List DataBlock → List DataBlock → Prop := Relation.ReflTransGen Repeats

/-- The number of bytes in the blocks. -/
def byteSum (bs : List DataBlock) : Nat := (bs.map fun b => b.data.length).sum

/-- The buffer is the same after a repetition. -/
theorem Repeats.writeAll {bs bs' : List DataBlock} (h : Repeats bs bs') {buf : List UInt8}
    (hwithin : Within buf.length (bs.map DataBlock.write)) :
    Within buf.length (bs'.map DataBlock.write) ∧
      Lib.writeAll buf (bs'.map DataBlock.write) = Lib.writeAll buf (bs.map DataBlock.write) := by
  cases h with
  | copy before mid after b hcons =>
      have hmem : ∀ c, c ∈ before ++ b :: mid ++ b :: after → c ∈ before ++ b :: mid ++ after := by
        intro c hc
        simp only [List.mem_append, List.mem_cons] at hc ⊢
        tauto
      have hall : ∀ c ∈ before ++ b :: mid ++ after,
          c.offset.toNat + c.data.length ≤ buf.length := fun c hc =>
        hwithin c.write (List.mem_map_of_mem hc)
      refine ⟨fun w hw => ?_, ?_⟩
      · obtain ⟨c, hc, rfl⟩ := List.mem_map.mp hw
        exact hall c (hmem c hc)
      · have hbefore : Within buf.length (before.map DataBlock.write) := fun w hw => by
          obtain ⟨c, hc, rfl⟩ := List.mem_map.mp hw
          exact hall c (List.mem_append_left _ (List.mem_append_left _ hc))
        have hlen := writeAll_length hbefore
        have hb : b.write.1 + b.write.2.length
            ≤ (Lib.writeAll buf (before.map DataBlock.write)).length := by
          rw [hlen]
          exact hall b (by simp)
        have hmid : Within (Lib.writeAll buf (before.map DataBlock.write)).length
            (mid.map DataBlock.write) := fun w hw => by
          obtain ⟨c, hc, rfl⟩ := List.mem_map.mp hw
          rw [hlen]
          exact hall c (by simp [hc])
        have hagain := writeAll_again hb hmid fun w hw => by
          obtain ⟨c, hc, rfl⟩ := List.mem_map.mp hw
          exact hcons c hc
        rw [List.append_cons (before ++ b :: mid) b after]
        simp only [List.map_append, List.map_cons, List.map_nil, writeAll_append, writeAll_cons,
          writeAll_nil] at hagain ⊢
        rw [hagain]

theorem Retransmits.writeAll {bs bs' : List DataBlock} (h : Retransmits bs bs') {buf : List UInt8}
    (hwithin : Within buf.length (bs.map DataBlock.write)) :
    Within buf.length (bs'.map DataBlock.write) ∧
      Lib.writeAll buf (bs'.map DataBlock.write) = Lib.writeAll buf (bs.map DataBlock.write) := by
  induction h with
  | refl => exact ⟨hwithin, rfl⟩
  | tail _ hstep ih =>
      obtain ⟨hwithin', heq⟩ := ih
      obtain ⟨hwithin'', heq'⟩ := hstep.writeAll hwithin'
      exact ⟨hwithin'', heq'.trans heq⟩

theorem Retransmits.byteSum_le {bs bs' : List DataBlock} (h : Retransmits bs bs') :
    byteSum bs ≤ byteSum bs' := by
  induction h with
  | refl => exact Nat.le_refl _
  | tail _ hstep ih =>
      cases hstep with
      | copy before mid after b _ =>
          simp only [byteSum, List.map_append, List.map_cons, List.sum_append,
            List.sum_cons] at ih ⊢
          omega

/-- **Retransmission.**  A transfer that succeeds, sent again with copies of some of its blocks, has
the same result exactly if the copies add up to a multiple of `2 ^ 64` bytes: if, in practice, only
empty blocks were repeated. -/
theorem receiveOne_repeated_iff {s s' rest rest' : Stream} {bs bs' : List DataBlock}
    {out : List UInt8} (hgreets : Greets json s hs rest) (hgreets' : Greets json s' hs rest')
    (hreach : Reaches hashPage hs bs rest) (hreach' : Reaches hashPage hs bs' rest')
    (hcopies : Retransmits bs bs')
    (hok : (receiveOne json hashPage none s).result = .returned out (some hs) none) :
    (receiveOne json hashPage none s').result = .returned out (some hs) none ↔
      2 ^ 64 ∣ byteSum bs' - byteSum bs := by
  obtain ⟨-, hs₀, rest₀, hgreets₀, haccept, -⟩ := receiveOne_nil hok
  obtain ⟨rfl, rfl⟩ := hgreets.unique hgreets₀
  have hbuf : (List.replicate hs.totalBytes.toNat (0 : UInt8)).length = hs.totalBytes.toNat :=
    List.length_replicate
  have hwithin := hbuf.symm ▸ hreach.within
  have hsame := (hcopies.writeAll hwithin).2
  have hlen := (writeAll_length hwithin).trans hbuf
  -- Both runs end in the same buffer, cut to the two counts.
  rw [hgreets.receiveOne, haccept.receiveBody, hreach.receiveLoop hbuf, finish_nil_iff, hlen] at hok
  rw [hgreets'.receiveOne, haccept.receiveBody, hreach'.receiveLoop hbuf, hsame, finish_nil_iff,
    hlen]
  obtain ⟨hle, rfl, -⟩ := hok
  have hcount : ∀ bs, (byteCount 0 bs).toNat = byteSum bs % 2 ^ 64 := fun bs => by
    rw [byteCount_eq, UInt64.zero_add, UInt64.toNat_ofNat']
    rfl
  have hsum := hcopies.byteSum_le
  have hdvd : 2 ^ 64 ∣ byteSum bs' - byteSum bs ↔
      (byteCount 0 bs').toNat = (byteCount 0 bs).toNat := by
    rw [hcount, hcount]
    omega
  rw [hdvd]
  constructor
  · rintro ⟨hle', htake, -⟩
    have := congrArg List.length htake
    rw [List.length_take, List.length_take, hlen] at this
    omega
  · intro heq
    rw [heq]
    exact ⟨hle, rfl, rfl⟩

/-- The page, sent as often as said. -/
def repeatedPage (n : Nat) : Stream :=
  ⟨greeting ++ ((List.replicate n pageBlock.frame).flatMap Frame.encode
    ++ ((Frame.mk msgComplete []).encode ++ [])), .pending⟩

theorem repeatedPage_reaches (n : Nat) :
    ∃ rest, Greets pageJson (repeatedPage n) pageHandshake rest ∧
    Reaches (fun _ => 0) pageHandshake (List.replicate n pageBlock) rest := by
  have hdata : ∀ f ∈ List.replicate n pageBlock.frame, f = pageBlock.frame := fun f hf =>
    List.eq_of_mem_replicate hf
  refine ⟨_, greets_greeting _ _, _, _, _, accepts_frames _ _ ?_ ?_ ?_,
    readFrom_encode (by decide) _ _, rfl⟩
  · rw [List.map_replicate]
    exact List.filter_eq_self.mpr fun f hf => by rw [hdata f hf]; rfl
  · intro f hf htyp
    rw [hdata f hf] at htyp
    exact absurd rfl htyp
  · intro b hb
    obtain rfl := List.eq_of_mem_replicate hb
    exact ⟨pageBlock_fits, by decide +kernel, rfl⟩

theorem byteCount_repeated (n : Nat) :
    byteCount 0 (List.replicate n pageBlock) = UInt64.ofNat (n * 4096) := by
  have hbytes : pageBlock.data.length = 4096 := List.length_replicate
  rw [byteCount_eq, UInt64.zero_add, List.map_replicate, hbytes, List.sum_replicate_nat]

theorem writeAll_page {buf : List UInt8} (hbuf : buf.length = 4096) :
    writeAll buf ((List.replicate 1 pageBlock).map DataBlock.write) = pageBlock.data := by
  have hbytes : pageBlock.data.length = 4096 := List.length_replicate
  have hdrop : buf.drop (0 + pageBlock.data.length) = [] := List.drop_of_length_le (by omega)
  rw [List.replicate_one, List.map_singleton, writeAll_cons, writeAll_nil, overwrite,
    DataBlock.write, show pageBlock.offset.toNat = 0 from rfl, hdrop, List.append_nil,
    List.take_zero, List.nil_append]

theorem repeatedPage_once : (receiveOne pageJson (fun _ => 0) none (repeatedPage 1)).result
    = .returned pageBlock.data (some pageHandshake) none := by
  obtain ⟨rest, hgreets, hreach⟩ := repeatedPage_reaches 1
  have hbytes : pageBlock.data.length = 4096 := List.length_replicate
  have hlen : (List.replicate pageHandshake.totalBytes.toNat (0 : UInt8)).length = 4096 :=
    List.length_replicate
  rw [hgreets.receiveOne, pageHandshake_acceptable.receiveBody,
    hreach.receiveLoop List.length_replicate, writeAll_page hlen, byteCount_repeated]
  have hcount : (UInt64.ofNat (1 * 4096)).toNat = pageBlock.data.length := by
    rw [hbytes]
    decide
  generalize pageBlock.data = page at hcount
  rw [finish_nil_iff, hcount, List.take_length]
  exact ⟨Nat.le_refl _, rfl, rfl⟩

/-- Sent once the page arrives; sent twice it stops the receiver. -/
theorem repeatedPage_panics :
    Retransmits (List.replicate 1 pageBlock) (List.replicate 2 pageBlock) ∧
      (receiveOne pageJson (fun _ => 0) none (repeatedPage 1)).result
        = .returned pageBlock.data (some pageHandshake) none ∧
      (receiveOne pageJson (fun _ => 0) none (repeatedPage 2)).result
        = .panicked "slice bounds out of range" := by
  obtain ⟨rest, hgreets, hreach⟩ := repeatedPage_reaches 2
  have hlen : (List.replicate pageHandshake.totalBytes.toNat (0 : UInt8)).length
    = pageHandshake.totalBytes.toNat := List.length_replicate
  have htotal : pageHandshake.totalBytes.toNat = 4096 := rfl
  refine ⟨.single (.copy [] [] [] pageBlock fun _ h => absurd h List.not_mem_nil),
    repeatedPage_once, ?_⟩
  rw [hgreets.receiveOne, pageHandshake_acceptable.receiveBody, hreach.receiveLoop hlen, finish,
    goSlice, if_neg]
  rw [writeAll_length (hlen.symm ▸ hreach.within), hlen, htotal, byteCount_repeated]
  decide

theorem receiveOne_repeated_iff_page :
    (receiveOne pageJson (fun _ => 0) none (repeatedPage 2)).result
        = .returned pageBlock.data (some pageHandshake) none ↔
      2 ^ 64 ∣ byteSum (List.replicate 2 pageBlock) - byteSum (List.replicate 1 pageBlock) := by
  obtain ⟨rest, hgreets, hreach⟩ := repeatedPage_reaches 1
  obtain ⟨rest', hgreets', hreach'⟩ := repeatedPage_reaches 2
  exact receiveOne_repeated_iff hgreets hgreets' hreach hreach'
    (.single (.copy [] [] [] pageBlock fun _ h => absurd h List.not_mem_nil)) repeatedPage_once

end Wraith.Transport

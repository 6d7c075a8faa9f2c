/-
# `Wraith.Transport.Server` — the receiving side

`receiveOne` of `pkg/transport/server.go`: the handshake and its answer, then the loop that fills
the snapshot buffer from data blocks until `MsgComplete`.  The receiver is a function of the
incoming stream; it is `blocked` where it waits for bytes that have not arrived.

The loop is inverted once.  `Accepts hashPage hs bs s s'` says that the frames between `s` and `s'`
are blocks `bs`, each storable, interspersed with frames of unknown types, and
`receiveLoop_nil_iff` says that a nil error means exactly this, followed by `MsgComplete` and by a
byte count the buffer can be cut to.  What the count has to do with the buffer is another matter:
nothing here says that the blocks cover it.
-/
import Wraith.Transport.Protocol
import Wraith.Lib.Patch

namespace Wraith.Transport

open Lib

/-- How `receiveOne` stands on the bytes delivered so far. -/
inductive RxResult where
  | blocked
  | panicked (msg : String)
  | returned (buf : List UInt8) (hs : Option Handshake) (err : Option GoErr)
  deriving DecidableEq, Repr

/-- The frames written back, and how it stands. -/
structure RxRun where
  replies : List Frame
  result : RxResult
  deriving DecidableEq, Repr

/-! ## One data block -/

/-- `fmt`'s `%016x`. -/
def hex16 (v : UInt64) : String :=
  let digits := Nat.toDigits 16 v.toNat
  String.ofList (List.replicate (16 - digits.length) '0' ++ digits)

/-- `fmt`'s `%02x`. -/
def hex02 (v : UInt32) : String :=
  let digits := Nat.toDigits 16 v.toNat
  String.ofList (List.replicate (2 - digits.length) '0' ++ digits)

/-- `copy(buf[lo:hi], data)`. -/
def copyInto (buf : List UInt8) (lo hi : Nat) (data : List UInt8) : Go (List UInt8) :=
  match goSlice buf lo hi with
  | .ok dst => .ok (overwrite buf lo (data.take dst.length))
  | .err e => .err e
  | .panicked m => .panicked m

/-- `block.Offset + uint64(len(block.Data))`, which may wrap. -/
def DataBlock.end (b : DataBlock) : UInt64 := b.offset + UInt64.ofNat b.data.length

/-- The checks on a decoded block and the copy into the buffer. -/
def copyBlock (hashPage : List UInt8 → UInt64) (hs : Handshake) (buf : List UInt8)
    (block : DataBlock) : Go (List UInt8) :=
  if block.end > hs.totalBytes then
    .err (.errorf (s!"block at offset {block.offset}+{block.data.length} overflows snapshot " ++
      s!"({hs.totalBytes} bytes)"))
  else if hashPage block.data ≠ block.checksum then
    .err (.errorf (s!"checksum mismatch at offset {block.offset}: " ++
      s!"expected {hex16 block.checksum}, got {hex16 (hashPage block.data)}"))
  else copyInto buf block.offset.toNat block.end.toNat block.data

/-- The `MsgDataBlock` case of the loop: the new buffer and the new byte count. -/
def storeBlock (hashPage : List UInt8 → UInt64) (hs : Handshake) (buf : List UInt8)
    (bytesWritten : UInt64) (payload : List UInt8) : Go (List UInt8 × UInt64) :=
  match readBlock payload with
  | .panicked m => .panicked m
  | .err e => .err (.wrapf "decode block" e)
  | .ok block =>
      match copyBlock hashPage hs buf block with
      | .panicked m => .panicked m
      | .err e => .err e
      | .ok buf' => .ok (buf', bytesWritten + UInt64.ofNat block.data.length)

/-! ## The loop -/

/-- After the loop: `return buf[:bytesWritten], &hs, nil`. -/
def finish (hs : Handshake) (buf : List UInt8) (bytesWritten : UInt64) : RxResult :=
  match goSlice buf 0 bytesWritten.toNat with
  | .ok out => .returned out (some hs) none
  | .err e => .returned [] (some hs) (some e)
  | .panicked m => .panicked m

/-- The receive loop.  The `io.EOF` test comes before the other errors, as in the source. -/
def receiveLoop (json : Json) (hashPage : List UInt8 → UInt64) (hs : Handshake)
    (buf : List UInt8) (bytesWritten : UInt64) (s : Stream) : RxResult :=
  match _hread : readFrom s with
  | .blocked => .blocked
  | .err e =>
      if e = .eof then finish hs buf bytesWritten
      else .returned [] (some hs) (some (.wrapf "read data frame" e))
  | .ok frame rest =>
      if frame.typ = msgDataBlock then
        match storeBlock hashPage hs buf bytesWritten frame.payload with
        | .panicked m => .panicked m
        | .err e => .returned [] (some hs) (some e)
        | .ok (buf', bytesWritten') => receiveLoop json hashPage hs buf' bytesWritten' rest
      else if frame.typ = msgComplete then finish hs buf bytesWritten
      else if frame.typ = msgError then
        .returned [] (some hs)
          (some (.errorf s!"sender reported error: {json.unmarshalErrorMsg frame.payload}"))
      else receiveLoop json hashPage hs buf bytesWritten rest
termination_by s.bytes.length
decreasing_by all_goals exact readFrom_lt _hread

/-! ## The session -/

/-- 128 GB. -/
def maxSnapshotBytes : UInt64 := (128 : UInt64) <<< (30 : UInt64)

/-- `WriteJSON(MsgReadyAck, …)` as a frame. -/
def Json.ackFrame (json : Json) (ack : ReadyAck) : Frame := ⟨msgReadyAck, json.marshalReadyAck ack⟩

/-- What the receiver answers to a handshake it refuses. -/
def rejectArch (hs : Handshake) : ReadyAck := ⟨false, s!"unsupported arch: {hs.arch}"⟩

def rejectEmpty : ReadyAck := ⟨false, "empty snapshot"⟩

def acceptAck : ReadyAck := ⟨true, ""⟩

/-- `receiveOne` from the decoded handshake on.  `ackErr` is what `WriteJSON` returns for the
ready ack; it is ignored on the two rejections. -/
def receiveBody (json : Json) (hashPage : List UInt8 → UInt64) (ackErr : Option GoErr)
    (hs : Handshake) (s : Stream) : RxRun :=
  if hs.arch ≠ "x86_64" then
    ⟨[json.ackFrame (rejectArch hs)],
      .returned [] (some hs) (some (.errorf s!"incompatible architecture: {hs.arch}"))⟩
  else if hs.totalBytes = 0 then
    ⟨[json.ackFrame rejectEmpty],
      .returned [] (some hs) (some (.errorf "sender reported zero-byte snapshot"))⟩
  else match ackErr with
    | some e => ⟨[json.ackFrame acceptAck],
        .returned [] (some hs) (some (.wrapf "send ready ack" e))⟩
    | none =>
        if hs.totalBytes > maxSnapshotBytes then
          ⟨[json.ackFrame acceptAck], .returned [] (some hs)
            (some (.errorf s!"snapshot size {hs.totalBytes} exceeds limit {maxSnapshotBytes}"))⟩
        else ⟨[json.ackFrame acceptAck],
          receiveLoop json hashPage hs (List.replicate hs.totalBytes.toNat 0) 0 s⟩

/-- `receiveOne`. -/
def receiveOne (json : Json) (hashPage : List UInt8 → UInt64) (ackErr : Option GoErr)
    (s : Stream) : RxRun :=
  match readFrom s with
  | .blocked => ⟨[], .blocked⟩
  | .err e => ⟨[], .returned [] none (some (.wrapf "read handshake frame" e))⟩
  | .ok frame rest =>
      if frame.typ ≠ msgHandshake then
        ⟨[], .returned [] none
          (some (.errorf s!"expected MsgHandshake (0x01), got 0x{hex02 frame.typ}"))⟩
      else match json.unmarshalHandshake frame.payload with
        | .error e => ⟨[], .returned [] none (some (.wrapf "decode handshake" e))⟩
        | .ok hs => receiveBody json hashPage ackErr hs rest

/-! ## Storing one block, inverted -/

/-- A block the loop stores: it lies inside the snapshot and its checksum matches. -/
structure Storable (hashPage : List UInt8 → UInt64) (hs : Handshake) (b : DataBlock) : Prop where
  inside : b.offset.toNat + b.data.length ≤ hs.totalBytes.toNat
  checksum : hashPage b.data = b.checksum

/-- The write a stored block performs. -/
def DataBlock.write (b : DataBlock) : Nat × List UInt8 := (b.offset.toNat, b.data)

variable {json : Json} {hashPage : List UInt8 → UInt64} {hs : Handshake}

theorem goSlice_ok {α : Type} {xs out : List α} {lo hi : Nat} :
    goSlice xs lo hi = .ok out ↔ lo ≤ hi ∧ hi ≤ xs.length ∧ out = (xs.take hi).drop lo := by
  unfold goSlice
  split
  · rename_i h
    rw [Go.ok.injEq]
    exact ⟨fun ho => ⟨h.1, h.2, ho.symm⟩, fun ho => ho.2.2.symm⟩
  · rename_i h
    exact ⟨(nomatch ·), fun ho => absurd ⟨ho.1, ho.2.1⟩ h⟩

/-- Where the slice expression does not panic, `end` has not wrapped, and the other way round. -/
theorem DataBlock.end_toNat {b : DataBlock} (hlen : b.data.length < 2 ^ 64)
    (h : b.offset.toNat ≤ b.end.toNat) : b.end.toNat = b.offset.toNat + b.data.length := by
  have hoff := b.offset.toNat_lt
  have hend : b.end.toNat = (b.offset.toNat + b.data.length) % 2 ^ 64 := by
    rw [DataBlock.end, UInt64.toNat_add, UInt64.toNat_ofNat', Nat.mod_eq_of_lt hlen]
  omega

theorem DataBlock.end_of_inside {b : DataBlock} {total : UInt64}
    (h : b.offset.toNat + b.data.length ≤ total.toNat) :
    b.end.toNat = b.offset.toNat + b.data.length := by
  have hlt := total.toNat_lt
  rw [DataBlock.end, UInt64.toNat_add, UInt64.toNat_ofNat',
    Nat.mod_eq_of_lt (by omega : _ < 2 ^ 64),
    Nat.mod_eq_of_lt (by omega)]

/-- A block is copied exactly if it is storable, and then its write is the whole effect. -/
theorem copyBlock_ok {buf buf' : List UInt8} {b : DataBlock} (hlen : b.data.length < 2 ^ 64)
    (hbuf : buf.length = hs.totalBytes.toNat) :
    copyBlock hashPage hs buf b = .ok buf' ↔
      Storable hashPage hs b ∧ buf' = overwrite buf b.offset.toNat b.data := by
  constructor
  · intro h
    unfold copyBlock at h
    split at h
    · exact nomatch h
    · rename_i hend
      split at h
      · exact nomatch h
      · rename_i hsum
        unfold copyInto at h
        split at h
        · rename_i dst hdst
          obtain ⟨hlo, hhi, rfl⟩ := goSlice_ok.mp hdst
          have hnowrap := b.end_toNat hlen hlo
          obtain rfl := Go.ok.inj h
          refine ⟨⟨by omega, not_not.mp hsum⟩, ?_⟩
          rw [List.take_of_length_le]
          simp only [List.length_drop, List.length_take]
          omega
        · exact nomatch h
        · exact nomatch h
  · rintro ⟨⟨hin, hsum⟩, rfl⟩
    have hnowrap := DataBlock.end_of_inside hin
    have hend : ¬ b.end > hs.totalBytes := by
      rw [gt_iff_lt, UInt64.lt_iff_toNat_lt]; omega
    rw [copyBlock, if_neg hend, if_neg (not_not.mpr hsum), copyInto,
      goSlice_ok.mpr ⟨by omega, by omega, rfl⟩]
    simp only [Go.ok.injEq]
    rw [List.take_of_length_le]
    simp only [List.length_drop, List.length_take]
    omega

theorem copyInto_ne_err {buf d : List UInt8} {lo hi : Nat} (e : GoErr) :
    copyInto buf lo hi d ≠ .err e := by
  unfold copyInto goSlice
  split
  · exact (nomatch ·)
  · rename_i hslice
    split at hslice <;> exact nomatch hslice
  · exact (nomatch ·)

/-- A block is not refused if its end, as computed, is inside and its checksum matches. -/
theorem copyBlock_refuses {buf : List UInt8} {b : DataBlock} :
    (∀ e, copyBlock hashPage hs buf b ≠ .err e) ↔
      b.end.toNat ≤ hs.totalBytes.toNat ∧ hashPage b.data = b.checksum := by
  have hend : b.end > hs.totalBytes ↔ ¬ b.end.toNat ≤ hs.totalBytes.toNat := by
    rw [gt_iff_lt, UInt64.lt_iff_toNat_lt, Nat.not_le]
  unfold copyBlock
  split
  · rename_i h
    exact ⟨fun hne => absurd rfl (hne _), fun hp => absurd hp.1 (hend.mp h)⟩
  · rename_i h
    split
    · rename_i hsum
      exact ⟨fun hne => absurd rfl (hne _), fun hp => absurd hp.2 hsum⟩
    · rename_i hsum
      exact ⟨fun _ => ⟨not_not.mp (hend.not.mp h), not_not.mp hsum⟩, fun _ => copyInto_ne_err⟩

theorem storeBlock_ok {buf buf' : List UInt8} {written written' : UInt64} {p : List UInt8}
    (hp : p.length < 2 ^ 32) (hbuf : buf.length = hs.totalBytes.toNat) :
    storeBlock hashPage hs buf written p = .ok (buf', written') ↔
      ∃ b, readBlock p = .ok b ∧ Storable hashPage hs b ∧
        buf' = overwrite buf b.offset.toNat b.data ∧
        written' = written + UInt64.ofNat b.data.length := by
  unfold storeBlock
  cases hb : readBlock p with
  | panicked m => simp
  | err e => simp
  | ok b =>
      have hlen : b.data.length < 2 ^ 64 := by
        have := (readBlock_ok hp hb).1
        unfold DataBlock.Fits at this
        omega
      have hcopy : copyBlock hashPage hs buf b = .ok buf' ↔ _ := copyBlock_ok hlen hbuf
      simp only [Go.ok.injEq, exists_eq_left']
      rw [← and_assoc, ← hcopy]
      cases copyBlock hashPage hs buf b with
      | panicked m => simp
      | err e => simp
      | ok x => simp [eq_comm]

/-! ## The loop, one frame at a time -/

/-- A frame the loop logs and skips. -/
structure Frame.Unknown (f : Frame) : Prop where
  notData : f.typ ≠ msgDataBlock
  notComplete : f.typ ≠ msgComplete
  notError : f.typ ≠ msgError

variable {buf : List UInt8} {bytesWritten : UInt64} {s s' rest : Stream} {frame : Frame}

/-- `receiveLoop` unfolded once, without the equation its termination argument needs. -/
theorem receiveLoop_eq : receiveLoop json hashPage hs buf bytesWritten s =
    match readFrom s with
    | .blocked => .blocked
    | .err e =>
        if e = .eof then finish hs buf bytesWritten
        else .returned [] (some hs) (some (.wrapf "read data frame" e))
    | .ok frame rest =>
        if frame.typ = msgDataBlock then
          match storeBlock hashPage hs buf bytesWritten frame.payload with
          | .panicked m => .panicked m
          | .err e => .returned [] (some hs) (some e)
          | .ok (buf', bytesWritten') => receiveLoop json hashPage hs buf' bytesWritten' rest
        else if frame.typ = msgComplete then finish hs buf bytesWritten
        else if frame.typ = msgError then
          .returned [] (some hs)
            (some (.errorf s!"sender reported error: {json.unmarshalErrorMsg frame.payload}"))
        else receiveLoop json hashPage hs buf bytesWritten rest := by
  rw [receiveLoop]
  split <;> (rename_i h; rw [h])

theorem receiveLoop_skip (hread : readFrom s = .ok frame rest) (hunknown : frame.Unknown) :
    receiveLoop json hashPage hs buf bytesWritten s =
      receiveLoop json hashPage hs buf bytesWritten rest := by
  rw [receiveLoop_eq, hread]
  simp only [if_neg hunknown.notData, if_neg hunknown.notComplete, if_neg hunknown.notError]

theorem receiveLoop_complete (hread : readFrom s = .ok frame rest)
    (htyp : frame.typ = msgComplete) :
    receiveLoop json hashPage hs buf bytesWritten s = finish hs buf bytesWritten := by
  rw [receiveLoop_eq, hread]
  simp only [if_neg (show frame.typ ≠ msgDataBlock by rw [htyp]; decide), if_pos htyp]

theorem receiveLoop_block {buf' : List UInt8} {bytesWritten' : UInt64}
    (hread : readFrom s = .ok frame rest) (htyp : frame.typ = msgDataBlock)
    (hstore : storeBlock hashPage hs buf bytesWritten frame.payload = .ok (buf', bytesWritten')) :
    receiveLoop json hashPage hs buf bytesWritten s =
      receiveLoop json hashPage hs buf' bytesWritten' rest := by
  rw [receiveLoop_eq, hread]
  simp only [if_pos htyp, hstore]

theorem finish_nil_iff {out : List UInt8} {hs' : Option Handshake} :
    finish hs buf bytesWritten = .returned out hs' none ↔
      bytesWritten.toNat ≤ buf.length ∧ out = buf.take bytesWritten.toNat ∧ hs' = some hs := by
  unfold finish
  cases hslice : goSlice buf 0 bytesWritten.toNat with
  | ok x =>
      obtain ⟨-, hle, rfl⟩ := goSlice_ok.mp hslice
      simp only [RxResult.returned.injEq, List.drop_zero, and_true, hle, true_and]
      exact ⟨fun h => ⟨h.1.symm, h.2.symm⟩, fun h => ⟨h.1.symm, h.2.symm⟩⟩
  | err e => unfold goSlice at hslice; split at hslice <;> exact nomatch hslice
  | panicked m =>
      refine ⟨(nomatch ·), fun h => ?_⟩
      rw [goSlice_ok.mpr ⟨Nat.zero_le _, h.1, rfl⟩] at hslice
      exact nomatch hslice

/-! ## The loop, inverted -/

/-- From `s` to `s'` the loop stores the blocks `bs`, in this order, and skips what lies between. -/
inductive Accepts (hashPage : List UInt8 → UInt64) (hs : Handshake) :
    List DataBlock → Stream → Stream → Prop where
  | nil (s : Stream) : Accepts hashPage hs [] s s
  | skip {bs : List DataBlock} {s rest s' : Stream} {frame : Frame} :
      readFrom s = .ok frame rest → frame.Unknown → Accepts hashPage hs bs rest s' →
        Accepts hashPage hs bs s s'
  | block {bs : List DataBlock} {s rest s' : Stream} {frame : Frame} {b : DataBlock} :
      readFrom s = .ok frame rest → frame.typ = msgDataBlock → readBlock frame.payload = .ok b →
        Storable hashPage hs b → Accepts hashPage hs bs rest s' → Accepts hashPage hs (b :: bs) s s'

/-- `bytesWritten` after the blocks `bs`; a `uint64`. -/
def byteCount (bytesWritten : UInt64) (bs : List DataBlock) : UInt64 :=
  bs.foldl (fun n b => n + UInt64.ofNat b.data.length) bytesWritten

@[simp] theorem byteCount_nil (n : UInt64) : byteCount n [] = n := rfl

@[simp] theorem byteCount_cons (n : UInt64) (b : DataBlock) (bs : List DataBlock) :
    byteCount n (b :: bs) = byteCount (n + UInt64.ofNat b.data.length) bs := rfl

theorem byteCount_eq : ∀ (bs : List DataBlock) (n : UInt64),
    byteCount n bs = n + UInt64.ofNat (bs.map fun b => b.data.length).sum
  | [], n => by simp
  | b :: bs, n => by
      rw [byteCount_cons, byteCount_eq bs, List.map_cons, List.sum_cons, UInt64.ofNat_add,
        UInt64.add_assoc]

/-- The writes of the stored blocks stay inside the buffer. -/
theorem Accepts.within {bs : List DataBlock} (h : Accepts hashPage hs bs s s') :
    Within hs.totalBytes.toNat (bs.map DataBlock.write) := by
  induction h with
  | nil s => intro w hw; exact absurd hw List.not_mem_nil
  | skip _ _ _ ih => exact ih
  | block _ _ _ hstore _ ih =>
      intro w hw
      rcases List.mem_cons.mp hw with rfl | hw
      · exact hstore.inside
      · exact ih w hw

theorem Accepts.checksum {bs : List DataBlock} (h : Accepts hashPage hs bs s s') :
    ∀ b ∈ bs, hashPage b.data = b.checksum := by
  induction h with
  | nil s => intro b hb; exact absurd hb List.not_mem_nil
  | skip _ _ _ ih => exact ih
  | block _ _ _ hstore _ ih =>
      intro b hb
      rcases List.mem_cons.mp hb with rfl | hb
      · exact hstore.checksum
      · exact ih b hb

/-- The effect of the accepted frames on the loop's state. -/
theorem Accepts.receiveLoop {bs : List DataBlock} (h : Accepts hashPage hs bs s s') :
    ∀ {buf : List UInt8} {n : UInt64}, buf.length = hs.totalBytes.toNat →
      Transport.receiveLoop json hashPage hs buf n s =
        Transport.receiveLoop json hashPage hs (writeAll buf (bs.map DataBlock.write))
          (byteCount n bs) s' := by
  induction h with
  | nil s => intro buf n _; rfl
  | skip hread hunknown _ ih => intro buf n hbuf; rw [receiveLoop_skip hread hunknown, ih hbuf]
  | @block bs s rest s' frame b hread htyp hb hstore _ ih =>
      intro buf n hbuf
      have hp := (readFrom_ok hread).1
      rw [receiveLoop_block hread htyp ((storeBlock_ok hp hbuf).mpr ⟨b, hb, hstore, rfl, rfl⟩),
        ih (by rw [overwrite_length (hbuf ▸ hstore.inside), hbuf])]
      rfl

theorem Accepts.writeAll_length {bs : List DataBlock} (h : Accepts hashPage hs bs s s')
    (hbuf : buf.length = hs.totalBytes.toNat) :
    (writeAll buf (bs.map DataBlock.write)).length = hs.totalBytes.toNat := by
  rw [Lib.writeAll_length (hbuf ▸ h.within), hbuf]

/-- What comes next, if it is a frame, is neither stored nor skipped. -/
def Halts (hashPage : List UInt8 → UInt64) (hs : Handshake) (s : Stream) : Prop :=
  ∀ frame rest, readFrom s = .ok frame rest → ¬ frame.Unknown ∧
    (frame.typ = msgDataBlock → ∀ b, readBlock frame.payload = .ok b → ¬ Storable hashPage hs b)

/-- The loop stores and skips frames up to one that ends it. -/
theorem accepts_halts : ∀ s : Stream, ∃ bs s', Accepts hashPage hs bs s s' ∧ Halts hashPage hs s'
  | s => by
      match hread : readFrom s with
      | .blocked => exact ⟨[], s, .nil s, fun _ _ h => nomatch hread.symm.trans h⟩
      | .err e => exact ⟨[], s, .nil s, fun _ _ h => nomatch hread.symm.trans h⟩
      | .ok frame rest =>
          have hlt := readFrom_lt hread
          by_cases hunknown : frame.Unknown
          · obtain ⟨bs, s', hacc, hhalts⟩ := accepts_halts rest
            exact ⟨bs, s', .skip hread hunknown hacc, hhalts⟩
          by_cases hdata : frame.typ = msgDataBlock ∧
              ∃ b, readBlock frame.payload = .ok b ∧ Storable hashPage hs b
          · obtain ⟨htyp, b, hb, hstorable⟩ := hdata
            obtain ⟨bs, s', hacc, hhalts⟩ := accepts_halts rest
            exact ⟨b :: bs, s', .block hread htyp hb hstorable hacc, hhalts⟩
          refine ⟨[], s, .nil s, fun f r h => ?_⟩
          obtain ⟨rfl, rfl⟩ := ReadRes.ok.inj (hread.symm.trans h)
          exact ⟨hunknown, fun htyp b hb hstorable => hdata ⟨htyp, b, hb, hstorable⟩⟩
termination_by s => s.bytes.length

/-- A nil error is only ever returned at a `MsgComplete`: the `io.EOF` branch is dead, because
`readFrom` wraps every error. -/
theorem receiveLoop_nil {out : List UInt8} {hs' : Option Handshake} {n : UInt64}
    (hbuf : buf.length = hs.totalBytes.toNat)
    (h : receiveLoop json hashPage hs buf n s = .returned out hs' none) :
    ∃ bs s' frame rest, Accepts hashPage hs bs s s' ∧ readFrom s' = .ok frame rest ∧
      frame.typ = msgComplete := by
  obtain ⟨bs, s', hacc, hhalts⟩ : ∃ bs s', Accepts hashPage hs bs s s' ∧ Halts hashPage hs s' :=
    accepts_halts s
  rw [hacc.receiveLoop hbuf, receiveLoop_eq] at h
  match hread : readFrom s' with
  | .blocked => rw [hread] at h; exact nomatch h
  | .err e =>
      have hne : e ≠ .eof := fun heq => readFrom_ne_eof s' (heq ▸ hread)
      simp only [hread, if_neg hne] at h
      exact nomatch h
  | .ok frame rest =>
      obtain ⟨hknown, hdata⟩ := hhalts frame rest hread
      simp only [hread] at h
      split at h
      case isTrue htyp =>
        split at h
        · exact nomatch h
        · exact nomatch h
        · rename_i hstore
          obtain ⟨b, hb, hstorable, -⟩ :=
            (storeBlock_ok (readFrom_ok hread).1 (hacc.writeAll_length hbuf)).mp hstore
          exact absurd hstorable (hdata htyp b hb)
      case isFalse hnotData =>
        split at h
        case isTrue htyp => exact ⟨bs, s', frame, rest, hacc, hread, htyp⟩
        case isFalse hnotComplete =>
          split at h
          · exact nomatch h
          · rename_i hnotError
            exact absurd ⟨hnotData, hnotComplete, hnotError⟩ hknown

/-- A whole accepted transfer, up to and including `MsgComplete`. -/
structure Reaches (hashPage : List UInt8 → UInt64) (hs : Handshake) (bs : List DataBlock)
    (s : Stream) : Prop where
  accepts : ∃ s' frame rest, Accepts hashPage hs bs s s' ∧ readFrom s' = .ok frame rest ∧
    frame.typ = msgComplete

/-- What the loop does once `MsgComplete` is reached. -/
theorem Reaches.receiveLoop {bs : List DataBlock} (h : Reaches hashPage hs bs s)
    (hbuf : buf.length = hs.totalBytes.toNat) (n : UInt64) :
    Transport.receiveLoop json hashPage hs buf n s =
      finish hs (writeAll buf (bs.map DataBlock.write)) (byteCount n bs) := by
  obtain ⟨s', frame, rest, hacc, hread, htyp⟩ := h.accepts
  rw [hacc.receiveLoop hbuf, receiveLoop_complete hread htyp]

theorem Reaches.within {bs : List DataBlock} (h : Reaches hashPage hs bs s) :
    Within hs.totalBytes.toNat (bs.map DataBlock.write) := by
  obtain ⟨s', frame, rest, hacc, -⟩ := h.accepts
  exact hacc.within

/-- The loop returns a nil error exactly when it reaches `MsgComplete` and the count of the bytes
written is a length the buffer can be cut to. -/
theorem receiveLoop_nil_iff {out : List UInt8} {hs' : Option Handshake} {n : UInt64}
    (hbuf : buf.length = hs.totalBytes.toNat) :
    receiveLoop json hashPage hs buf n s = .returned out hs' none ↔
      ∃ bs, Reaches hashPage hs bs s ∧ (byteCount n bs).toNat ≤ hs.totalBytes.toNat ∧
        out = (writeAll buf (bs.map DataBlock.write)).take (byteCount n bs).toNat ∧
        hs' = some hs := by
  have hlen : ∀ {bs}, Reaches hashPage hs bs s →
      (writeAll buf (bs.map DataBlock.write)).length = hs.totalBytes.toNat := fun h => by
    rw [writeAll_length (hbuf ▸ h.within), hbuf]
  constructor
  · intro h
    obtain ⟨bs, hreach⟩ := receiveLoop_nil hbuf h
    have hreach : Reaches hashPage hs bs s := ⟨hreach⟩
    rw [hreach.receiveLoop hbuf, finish_nil_iff, hlen hreach] at h
    exact ⟨bs, hreach, h⟩
  · rintro ⟨bs, hreach, hle, hout, hhs⟩
    rw [hreach.receiveLoop hbuf, finish_nil_iff, hlen hreach]
    exact ⟨hle, hout, hhs⟩

/-! ## The session, inverted -/

/-- The handshake at the head of the stream, and what follows it. -/
structure Greets (json : Json) (s : Stream) (hs : Handshake) (rest : Stream) : Prop where
  frame : ∃ frame, readFrom s = .ok frame rest ∧ frame.typ = msgHandshake ∧
    json.unmarshalHandshake frame.payload = .ok hs

variable {ackErr : Option GoErr}

theorem Greets.receiveOne (h : Greets json s hs rest) :
    Transport.receiveOne json hashPage ackErr s = receiveBody json hashPage ackErr hs rest := by
  obtain ⟨frame, hread, htyp, hdecode⟩ := h.frame
  rw [Transport.receiveOne, hread]
  simp only [ne_eq, htyp, not_true_eq_false, if_false, hdecode]

theorem Greets.unique {hs₁ hs₂ : Handshake} {rest₁ rest₂ : Stream} (h₁ : Greets json s hs₁ rest₁)
    (h₂ : Greets json s hs₂ rest₂) : hs₁ = hs₂ ∧ rest₁ = rest₂ := by
  obtain ⟨f₁, hr₁, -, hd₁⟩ := h₁.frame
  obtain ⟨f₂, hr₂, -, hd₂⟩ := h₂.frame
  obtain ⟨rfl, rfl⟩ := ReadRes.ok.inj (hr₁.symm.trans hr₂)
  exact ⟨Except.ok.inj (hd₁.symm.trans hd₂), rfl⟩

/-- The handshake passes the receiver's checks. -/
structure Handshake.Acceptable (hs : Handshake) : Prop where
  arch : hs.arch = "x86_64"
  nonzero : hs.totalBytes ≠ 0
  size : hs.totalBytes ≤ maxSnapshotBytes

theorem Handshake.acceptable {n : Nat} (harch : hs.arch = "x86_64")
    (htotal : hs.totalBytes.toNat = n) (hpos : 0 < n)
    (hmax : n ≤ maxSnapshotBytes.toNat) : hs.Acceptable where
  arch := harch
  nonzero hzero := by
    rw [hzero, UInt64.toNat_zero] at htotal
    omega
  size := by
    rw [UInt64.le_iff_toNat_le, htotal]
    exact hmax

theorem Handshake.Acceptable.receiveBody (h : hs.Acceptable) (s : Stream) :
    Transport.receiveBody json hashPage none hs s = ⟨[json.ackFrame acceptAck],
      receiveLoop json hashPage hs (List.replicate hs.totalBytes.toNat 0) 0 s⟩ := by
  rw [Transport.receiveBody, if_neg (not_not.mpr h.arch), if_neg h.nonzero]
  simp only [gt_iff_lt, UInt64.not_lt.mpr h.size, if_false]

/-- `receiveOne` returns a nil error only after an accepted handshake, and then it is the loop that
returned it. -/
theorem receiveOne_nil {out : List UInt8} {hs' : Option Handshake}
    (h : (receiveOne json hashPage ackErr s).result = .returned out hs' none) :
    ackErr = none ∧ ∃ hs rest, Greets json s hs rest ∧ hs.Acceptable ∧
      receiveLoop json hashPage hs (List.replicate hs.totalBytes.toNat 0) 0 rest
        = .returned out hs' none := by
  unfold receiveOne at h
  split at h
  · exact nomatch h
  · exact nomatch h
  · rename_i frame rest hread
    split at h
    · exact nomatch h
    · rename_i htyp
      split at h
      · exact nomatch h
      · rename_i hs hdecode
        unfold receiveBody at h
        split at h
        · exact nomatch h
        · rename_i harch
          split at h
          · exact nomatch h
          · rename_i hzero
            split at h
            · exact nomatch h
            · split at h
              · exact nomatch h
              · rename_i hsize
                exact ⟨rfl, hs, rest, ⟨⟨frame, hread, not_not.mp htyp, hdecode⟩⟩,
                  ⟨not_not.mp harch, hzero, UInt64.not_lt.mp hsize⟩, h⟩

/-! ## More input -/

/-- Once the loop has come to an end, what arrives later does not matter. -/
theorem receiveLoop_append {e : Ending} (t : List UInt8) : ∀ {p : List UInt8} {buf : List UInt8}
    {n : UInt64}, receiveLoop json hashPage hs buf n ⟨p, .pending⟩ ≠ .blocked →
      receiveLoop json hashPage hs buf n ⟨p ++ t, e⟩
        = receiveLoop json hashPage hs buf n ⟨p, .pending⟩
  | p, buf, n, h => by
      rw [receiveLoop_eq] at h
      conv_lhs => rw [receiveLoop_eq]
      conv_rhs => rw [receiveLoop_eq]
      match hread : readFrom ⟨p, .pending⟩ with
      | .blocked => rw [hread] at h; exact absurd rfl h
      | .err _ => exact absurd hread readFrom_pending
      | .ok frame ⟨q, e'⟩ =>
          have hlt := readFrom_lt hread
          obtain rfl : e' = .pending := (readFrom_ok hread).2.2
          simp only [hread] at h
          simp only [readFrom_append hread]
          split
          · rename_i htyp
            simp only [htyp, if_true] at h
            split
            · rfl
            · rfl
            · rename_i buf' n' hstore
              simp only [hstore] at h
              exact receiveLoop_append t h
          · rename_i hdata
            split
            · rfl
            · rename_i hcomplete
              split
              · rfl
              · rename_i herror
                simp only [if_neg hdata, if_neg hcomplete, if_neg herror] at h
                exact receiveLoop_append t h
termination_by p => p.length

/-- The answer to a handshake does not depend on what follows it. -/
theorem receiveBody_replies (s s' : Stream) :
    (receiveBody json hashPage ackErr hs s).replies
      = (receiveBody json hashPage ackErr hs s').replies := by
  unfold receiveBody
  split
  · rfl
  · split
    · rfl
    · split
      · rfl
      · split <;> rfl

theorem receiveBody_append {e : Ending} (p t : List UInt8)
    (h : (receiveBody json hashPage ackErr hs ⟨p, .pending⟩).result ≠ .blocked) :
    receiveBody json hashPage ackErr hs ⟨p ++ t, e⟩
      = receiveBody json hashPage ackErr hs ⟨p, .pending⟩ := by
  unfold receiveBody at h ⊢
  split
  · rfl
  · rename_i harch
    rw [if_neg harch] at h
    split
    · rfl
    · rename_i hzero
      rw [if_neg hzero] at h
      split
      · rfl
      · split
        · rfl
        · rename_i hsize
          simp only [if_neg hsize] at h
          rw [receiveLoop_append t h]

/-- Once the session has come to an end, what arrives later does not matter. -/
theorem receiveOne_append {e : Ending} (p t : List UInt8)
    (h : (receiveOne json hashPage ackErr ⟨p, .pending⟩).result ≠ .blocked) :
    receiveOne json hashPage ackErr ⟨p ++ t, e⟩ = receiveOne json hashPage ackErr ⟨p,
      .pending⟩ := by
  unfold receiveOne at h ⊢
  match hread : readFrom ⟨p, .pending⟩ with
  | .blocked => rw [hread] at h; exact absurd rfl h
  | .err _ => exact absurd hread readFrom_pending
  | .ok frame ⟨q, e'⟩ =>
      obtain rfl : e' = .pending := (readFrom_ok hread).2.2
      simp only [hread] at h
      simp only [readFrom_append hread]
      split
      · rfl
      · rename_i htyp
        rw [if_neg htyp] at h
        split
        · rfl
        · rename_i hs hdecode
          simp only [hdecode] at h
          exact receiveBody_append q t h

/-- The replies on a part of the input are the first of those on all of it. -/
theorem receiveOne_replies_prefix {e : Ending} (p t : List UInt8) :
    (receiveOne json hashPage ackErr ⟨p, .pending⟩).replies
      <+: (receiveOne json hashPage ackErr ⟨p ++ t, e⟩).replies := by
  unfold receiveOne
  match hread : readFrom ⟨p, .pending⟩ with
  | .blocked => exact List.nil_prefix
  | .err _ => exact List.nil_prefix
  | .ok frame ⟨q, e'⟩ =>
      simp only [readFrom_append hread]
      split
      · exact List.nil_prefix
      · split
        · exact List.nil_prefix
        · exact receiveBody_replies ⟨q, e'⟩ ⟨q ++ t, e⟩ ▸ List.prefix_rfl

end Wraith.Transport

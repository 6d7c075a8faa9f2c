/-
# `Wraith.Transport.Protocol` — frames, control messages and data blocks on the wire

The wire format of `pkg/transport/protocol.go`: a frame is a 4-byte type, a 4-byte payload length
and the payload; a data block is the payload of one frame type, with an offset, a checksum and a
length of its own in front of the data.

Reading is a function of what is left of the connection's incoming byte stream and of how that
stream ends.  `Ending.pending` says that more may still arrive: a read that needs it is `blocked`.
That is the only difference between a live connection and one that is over, so the functions of
this module serve both.

What the later modules use is an equation in each direction:

    readFrom ⟨f.encode ++ t, e⟩ = ok f ⟨t, e⟩               (`readFrom_encode`)
    readFrom s = ok f s'  →  s.bytes = f.encode ++ s'.bytes   (`readFrom_ok`)

and the same two for blocks (`readBlock_payload`, `readBlock_ok`), together with the fact on which
the receiver's end-of-stream test turns: `readFrom` never fails with `io.EOF` itself, since every
error it returns is wrapped (`readFrom_ne_eof`).
-/
import Wraith.Lib.BigEndian

namespace Wraith.Transport

open Lib

/-! ## Errors and results -/

/-- An `error` value.  `errorf` and `wrapf` are `fmt.Errorf` without and with `%w`: either is a new
value, identical to no other. -/
inductive GoErr where
  | eof
  | unexpectedEOF
  | conn (msg : String)
  | json (msg : String)
  | errorf (msg : String)
  | wrapf (msg : String) (err : GoErr)
  deriving DecidableEq, Repr

/-- A function returning `(T, error)`, or stopping the goroutine in a runtime panic. -/
inductive Go (α : Type) where
  | ok (a : α)
  | err (e : GoErr)
  | panicked (msg : String)
  deriving DecidableEq, Repr

/-- The slice expression `xs[lo:hi]` on a slice whose capacity is its length. -/
def goSlice {α : Type} (xs : List α) (lo hi : Nat) : Go (List α) :=
  if lo ≤ hi ∧ hi ≤ xs.length then .ok ((xs.take hi).drop lo)
  else .panicked "slice bounds out of range"

/-! ## Byte streams -/

/-- How a stream stands once the bytes delivered so far are used up. -/
inductive Ending where
  | eof
  | failed (e : GoErr)
  | pending
  deriving DecidableEq, Repr

/-- The incoming half of a connection: the bytes not read yet, and what comes after them. -/
structure Stream where
  bytes : List UInt8
  ending : Ending
  deriving DecidableEq, Repr

/-- The outcome of a read. -/
inductive ReadRes (α : Type) where
  | ok (a : α) (rest : Stream)
  | err (e : GoErr)
  | blocked
  deriving DecidableEq, Repr

/-- Go on with what is left, unless the read failed or blocked. -/
def ReadRes.andThen {α β : Type} (r : ReadRes α) (f : α → Stream → ReadRes β) : ReadRes β :=
  match r with
  | .ok a rest => f a rest
  | .err e => .err e
  | .blocked => .blocked

-- Proved by rewriting, so that `simp` records the step instead of leaving it to defeq.
@[simp] theorem andThen_ok {α β : Type} (a : α) (s : Stream) (f : α → Stream → ReadRes β) :
    (ReadRes.ok a s).andThen f = f a s := by rw [ReadRes.andThen]

/-- `fmt.Errorf("msg: %w", err)` on the error path. -/
def ReadRes.wrap {α : Type} (msg : String) : ReadRes α → ReadRes α
  | .err e => .err (.wrapf msg e)
  | r => r

@[simp] theorem wrap_ok {α : Type} (msg : String) (a : α) (s : Stream) :
    (ReadRes.ok a s).wrap msg = .ok a s := by rw [ReadRes.wrap]; exact fun _ h => nomatch h

/-- `io.ReadFull` of `n` bytes: `io.EOF` when nothing was there, `io.ErrUnexpectedEOF` when the
stream stops part of the way. -/
def readFull (n : Nat) (s : Stream) : ReadRes (List UInt8) :=
  if n ≤ s.bytes.length then .ok (s.bytes.take n) ⟨s.bytes.drop n, s.ending⟩
  else match s.ending with
    | .pending => .blocked
    | .failed e => .err e
    | .eof => if s.bytes = [] then .err .eof else .err .unexpectedEOF

/-- `binary.Read(r, binary.BigEndian, &v)` into a `uint32`. -/
def binaryRead (s : Stream) : ReadRes UInt32 :=
  (readFull 4 s).andThen fun bs rest => .ok (UInt32.ofNat (beNat bs)) rest

/-! ## Message types -/

def msgHandshake : UInt32 := 0x01
def msgReadyAck : UInt32 := 0x02
def msgDataBlock : UInt32 := 0x03
def msgComplete : UInt32 := 0x04
def msgError : UInt32 := 0xFF

/-- The granularity of delta detection. -/
def pageSize : Nat := 4096

/-! ## Frames -/

/-- One transport message. -/
structure Frame where
  typ : UInt32
  payload : List UInt8
  deriving DecidableEq, Repr

/-- The bytes `WriteTo` emits when every write succeeds.  The length field is
`uint32(len(f.Payload))`. -/
def Frame.encode (f : Frame) : List UInt8 :=
  beBytes 4 f.typ.toNat ++ beBytes 4 (UInt32.ofNat f.payload.length).toNat ++ f.payload

/-- `ReadFrom`. -/
def readFrom (s : Stream) : ReadRes Frame :=
  ((binaryRead s).wrap "read frame type").andThen fun typ s₁ =>
  ((binaryRead s₁).wrap "read frame length").andThen fun length s₂ =>
    if length.toNat > 0 then
      ((readFull length.toNat s₂).wrap s!"read frame payload ({length} bytes)").andThen
        fun payload s₃ => .ok ⟨typ, payload⟩ s₃
    else .ok ⟨typ, []⟩ s₂

theorem Frame.encode_ne_nil (f : Frame) : f.encode ≠ [] := fun h => by
  have := congrArg List.length h
  simp only [Frame.encode, List.length_append, beBytes_length, List.length_nil] at this
  omega

/-- A frame whose length field is its payload's length. -/
def Frame.Fits (f : Frame) : Prop := f.payload.length < 2 ^ 32

instance (f : Frame) : Decidable f.Fits := inferInstanceAs (Decidable (_ < _))

/-! ## Control messages -/

/-- Sent by the transmitter before any data. -/
structure Handshake where
  sourceHostname : String
  sourcePid : UInt32
  arch : String
  totalBytes : UInt64
  pageCount : UInt32
  snapshotVersion : String
  deriving DecidableEq, Repr

/-- Sent by the receiver to accept or reject the transfer. -/
structure ReadyAck where
  accepted : Bool
  reason : String := ""
  deriving DecidableEq, Repr

/-- `encoding/json` on the control messages.  Marshalling these structs cannot fail; what an
`ErrorMsg` payload decodes to only ever reaches an error text. -/
structure Json where
  marshalHandshake : Handshake → List UInt8
  unmarshalHandshake : List UInt8 → Except GoErr Handshake
  marshalReadyAck : ReadyAck → List UInt8
  unmarshalReadyAck : List UInt8 → Except GoErr ReadyAck
  unmarshalErrorMsg : List UInt8 → String

/-- Unmarshalling undoes marshalling, on one handshake and on some acks. -/
structure Json.Inverts (j : Json) (h : Handshake) (acks : List ReadyAck) : Prop where
  handshake : j.unmarshalHandshake (j.marshalHandshake h) = .ok h
  readyAck : ∀ a ∈ acks, j.unmarshalReadyAck (j.marshalReadyAck a) = .ok a

/-- A JSON string literal, for text that needs no escaping. -/
def jsonString (s : String) : String := "\"" ++ s ++ "\""

/-- The JSON text of a handshake, up to the hostname and after it. -/
def handshakePrefix : String := "\x7b\"source_hostname\":\""

def handshakeSuffix (h : Handshake) : String :=
  "\",\"source_pid\":" ++ toString h.sourcePid ++ ",\"arch\":" ++ jsonString h.arch
    ++ ",\"total_bytes\":" ++ toString h.totalBytes ++ ",\"page_count\":" ++ toString h.pageCount
    ++ ",\"snapshot_version\":" ++ jsonString h.snapshotVersion ++ "\x7d"

def handshakeText (h : Handshake) : String :=
  handshakePrefix ++ h.sourceHostname ++ handshakeSuffix h

/-- `reason` is `omitempty`. -/
def readyAckText (a : ReadyAck) : String :=
  "\x7b\"accepted\":" ++ toString a.accepted
    ++ (if a.reason = "" then "" else ",\"reason\":" ++ jsonString a.reason) ++ "\x7d"

/-- The bytes of an ASCII string. -/
def asciiBytes (s : String) : List UInt8 := s.toList.map fun c => UInt8.ofNat c.toNat

/-- `encoding/json` on one handshake and some acks whose texts need no escaping: it writes the real
texts, and reads these back. -/
def Json.literal (h : Handshake) (acks : List ReadyAck) : Json where
  marshalHandshake h' := asciiBytes (handshakeText h')
  unmarshalHandshake bs :=
    if bs = asciiBytes (handshakeText h) then .ok h
    else .error (.json "unexpected end of JSON input")
  marshalReadyAck a := asciiBytes (readyAckText a)
  unmarshalReadyAck bs :=
    match acks.find? (fun a => asciiBytes (readyAckText a) = bs) with
    | some a => .ok a
    | none => .error (.json "unexpected end of JSON input")
  unmarshalErrorMsg _ := ""

/-- Acks of different texts are read back. -/
theorem Json.literal_inverts {h : Handshake} {acks : List ReadyAck}
    (hne : acks.Pairwise fun a b => asciiBytes (readyAckText a) ≠ asciiBytes (readyAckText b)) :
    (Json.literal h acks).Inverts h acks where
  handshake := if_pos rfl
  readyAck a ha := by
    have hfind : acks.find? (fun b => asciiBytes (readyAckText b) = asciiBytes (readyAckText a)) =
        some a := by
      induction hne with
      | nil => cases ha
      | @cons b acks hb _ ih =>
          obtain rfl | ha := List.mem_cons.mp ha
          · exact List.find?_cons_of_pos (by simp)
          · rw [List.find?_cons_of_neg (by simpa using hb a ha)]
            exact ih ha
    simp only [Json.literal, hfind]

/-! ## Data blocks -/

/-- One page of snapshot data. -/
structure DataBlock where
  offset : UInt64
  checksum : UInt64
  data : List UInt8
  deriving DecidableEq, Repr

/-- The payload `WriteBlock` builds: a 20-byte header and the data. -/
def DataBlock.payload (b : DataBlock) : List UInt8 :=
  beBytes 8 b.offset.toNat ++ beBytes 8 b.checksum.toNat
    ++ beBytes 4 (UInt32.ofNat b.data.length).toNat ++ b.data

/-- The frame `WriteBlock` writes. -/
def DataBlock.frame (b : DataBlock) : Frame := ⟨msgDataBlock, b.payload⟩

/-- `binary.BigEndian.Uint64`. -/
def bigEndianUint64 (bs : List UInt8) : UInt64 := UInt64.ofNat (beNat (bs.take 8))

/-- `binary.BigEndian.Uint32`. -/
def bigEndianUint32 (bs : List UInt8) : UInt32 := UInt32.ofNat (beNat (bs.take 4))

/-- The end of `ReadBlock`: take the `dataLen` bytes after the header.  The upper bound of the
slice expression is a `uint32` sum. -/
def takeBlock (payload : List UInt8) (offset checksum : UInt64) (dataLen : UInt32) :
    Go DataBlock :=
  if dataLen.toNat > payload.length - 20 then
    .err (.errorf
      s!"block truncated: dataLen={dataLen} but only {payload.length - 20} bytes remain")
  else match goSlice payload 20 (20 + dataLen).toNat with
    | .ok data => .ok ⟨offset, checksum, data⟩
    | .err e => .err e
    | .panicked m => .panicked m

/-- `ReadBlock`. -/
def readBlock (payload : List UInt8) : Go DataBlock :=
  if payload.length < 20 then
    .err (.errorf s!"block payload too short: {payload.length} bytes (need ≥20)")
  else takeBlock payload (bigEndianUint64 payload) (bigEndianUint64 (payload.drop 8))
    (bigEndianUint32 (payload.drop 16))

/-! ## Reading inverts writing -/

theorem readFull_append (n : Nat) (bs t : List UInt8) (e : Ending) (h : bs.length = n) :
    readFull n ⟨bs ++ t, e⟩ = .ok bs ⟨t, e⟩ := by
  subst h
  simp [readFull]

theorem readFull_ok {n : Nat} {s rest : Stream} {bs : List UInt8}
    (h : readFull n s = .ok bs rest) :
    s.bytes = bs ++ rest.bytes ∧ bs.length = n ∧ rest.ending = s.ending := by
  unfold readFull at h
  split at h
  · rename_i hn
    simp only [ReadRes.ok.injEq] at h
    obtain ⟨rfl, rfl⟩ := h
    exact ⟨(List.take_append_drop n s.bytes).symm, List.length_take_of_le hn, rfl⟩
  · split at h
    · exact nomatch h
    · exact nomatch h
    · split at h <;> exact nomatch h

theorem readFull_pending {n : Nat} {bs : List UInt8} {e : GoErr} :
    readFull n ⟨bs, .pending⟩ ≠ .err e := by
  unfold readFull
  split <;> simp

theorem andThen_eq_ok {α β : Type} {r : ReadRes α} {f : α → Stream → ReadRes β} {b : β}
    {rest : Stream} (h : r.andThen f = .ok b rest) : ∃ a s, r = .ok a s ∧ f a s = .ok b rest := by
  cases r with
  | ok a s => exact ⟨a, s, rfl, h⟩
  | err e => exact nomatch h
  | blocked => exact nomatch h

theorem andThen_eq_err {α β : Type} {r : ReadRes α} {f : α → Stream → ReadRes β} {e : GoErr}
    (h : r.andThen f = .err e) : r = .err e ∨ ∃ a s, r = .ok a s ∧ f a s = .err e := by
  cases r with
  | ok a s => exact Or.inr ⟨a, s, rfl, h⟩
  | err e' =>
      simp only [ReadRes.andThen, ReadRes.err.injEq] at h
      exact Or.inl (congrArg _ h)
  | blocked => exact nomatch h

theorem wrap_eq_ok {α : Type} {r : ReadRes α} {msg : String} {a : α} {rest : Stream} :
    r.wrap msg = .ok a rest ↔ r = .ok a rest := by
  cases r <;> simp [ReadRes.wrap]

theorem wrap_ne_eof {α : Type} {r : ReadRes α} {msg : String} : r.wrap msg ≠ .err .eof := by
  cases r <;> simp [ReadRes.wrap]

/-- A `uint32` field is four bytes, and any four bytes are one. -/
theorem binaryRead_ok {s rest : Stream} {v : UInt32} (h : binaryRead s = .ok v rest) :
    s.bytes = beBytes 4 v.toNat ++ rest.bytes ∧ rest.ending = s.ending := by
  obtain ⟨bs, s', hr, hv⟩ := andThen_eq_ok h
  obtain ⟨hbytes, hlen, hend⟩ := readFull_ok hr
  simp only [ReadRes.ok.injEq] at hv
  obtain ⟨rfl, rfl⟩ := hv
  have hlt : beNat bs < 2 ^ 32 := by have := beNat_lt bs; rw [hlen] at this; omega
  refine ⟨?_, hend⟩
  rw [UInt32.toNat_ofNat_of_lt' hlt, beBytes_beNat_of_length hlen]
  exact hbytes

theorem binaryRead_append (v : UInt32) (t : List UInt8) (e : Ending) :
    binaryRead ⟨beBytes 4 v.toNat ++ t, e⟩ = .ok v ⟨t, e⟩ := by
  have hlt : v.toNat < 256 ^ 4 := by have := v.toNat_lt; omega
  have hread := readFull_append 4 (beBytes 4 v.toNat) t e (beBytes_length _ _)
  rw [binaryRead, hread, ReadRes.andThen, beNat_beBytes_of_lt hlt, UInt32.ofNat_toNat]

/-- The length field of a frame that fits is not truncated. -/
theorem Frame.Fits.length_toNat {f : Frame} (hf : f.Fits) :
    (UInt32.ofNat f.payload.length).toNat = f.payload.length := by
  unfold Frame.Fits at hf
  rw [UInt32.toNat_ofNat', Nat.mod_eq_of_lt hf]

/-- Reading the encoding of a frame gives the frame and leaves the rest unread. -/
theorem readFrom_encode {f : Frame} (hf : f.Fits) (t : List UInt8) (e : Ending) :
    readFrom ⟨f.encode ++ t, e⟩ = .ok f ⟨t, e⟩ := by
  rw [readFrom, Frame.encode, List.append_assoc, List.append_assoc, binaryRead_append, wrap_ok,
    andThen_ok, binaryRead_append, wrap_ok, andThen_ok, hf.length_toNat]
  split
  · rw [readFull_append _ f.payload t e rfl, wrap_ok, andThen_ok]
  · rename_i hzero
    have hnil : f.payload = [] := List.eq_nil_of_length_eq_zero (by omega)
    rw [hnil, List.nil_append, ← hnil]

/-- What `ReadFrom` returns is what was at the head of the stream, byte for byte. -/
theorem readFrom_ok {s rest : Stream} {f : Frame} (h : readFrom s = .ok f rest) :
    f.Fits ∧ s.bytes = f.encode ++ rest.bytes ∧ rest.ending = s.ending := by
  obtain ⟨typ, s₁, h₁, h⟩ := andThen_eq_ok h
  obtain ⟨length, s₂, h₂, h⟩ := andThen_eq_ok h
  obtain ⟨hb₁, he₁⟩ := binaryRead_ok (wrap_eq_ok.mp h₁)
  obtain ⟨hb₂, he₂⟩ := binaryRead_ok (wrap_eq_ok.mp h₂)
  split at h
  · obtain ⟨payload, s₃, h₃, h⟩ := andThen_eq_ok h
    obtain ⟨hb₃, hlen, he₃⟩ := readFull_ok (wrap_eq_ok.mp h₃)
    simp only [ReadRes.ok.injEq] at h
    obtain ⟨rfl, rfl⟩ := h
    have hfits : payload.length < 2 ^ 32 := hlen ▸ length.toNat_lt
    refine ⟨hfits, ?_, he₃.trans (he₂.trans he₁)⟩
    have hl : UInt32.ofNat payload.length = length := by rw [hlen]; simp
    simp only [Frame.encode, hl, List.append_assoc]
    rw [hb₁, hb₂, hb₃]
  · rename_i hzero
    simp only [ReadRes.ok.injEq] at h
    obtain ⟨rfl, rfl⟩ := h
    refine ⟨by simp [Frame.Fits], ?_, he₂.trans he₁⟩
    have hl : length.toNat = 0 := by omega
    rw [hb₁, hb₂, hl]
    simp [Frame.encode]

/-- `ReadFrom` makes progress: it consumes the eight header bytes at least. -/
theorem readFrom_lt {s rest : Stream} {f : Frame} (h : readFrom s = .ok f rest) :
    rest.bytes.length < s.bytes.length := by
  obtain ⟨-, hbytes, -⟩ := readFrom_ok h
  rw [hbytes]
  simp [Frame.encode]
  omega

/-- Every error of `ReadFrom` is wrapped, so none of them is `io.EOF`. -/
theorem readFrom_ne_eof (s : Stream) : readFrom s ≠ .err .eof := by
  intro h
  rcases andThen_eq_err h with h | ⟨typ, s₁, -, h⟩
  · exact wrap_ne_eof h
  · rcases andThen_eq_err h with h | ⟨length, s₂, -, h⟩
    · exact wrap_ne_eof h
    · split at h
      · rcases andThen_eq_err h with h | ⟨payload, s₃, -, h⟩
        · exact wrap_ne_eof h
        · exact nomatch h
      · exact nomatch h

/-- A frame that is there stays there when more arrives behind it. -/
theorem readFrom_append {p : List UInt8} {e e' : Ending} {f : Frame} {rest : Stream}
    (h : readFrom ⟨p, e⟩ = .ok f rest) (t : List UInt8) :
    readFrom ⟨p ++ t, e'⟩ = .ok f ⟨rest.bytes ++ t, e'⟩ := by
  obtain ⟨hf, hp, -⟩ := readFrom_ok h
  simp only at hp
  rw [hp, List.append_assoc, readFrom_encode hf]

theorem binaryRead_pending {p : List UInt8} {e : GoErr} : binaryRead ⟨p, .pending⟩ ≠ .err e := by
  intro h
  rcases andThen_eq_err h with h | ⟨bs, s, -, h⟩
  · exact readFull_pending h
  · exact nomatch h

theorem wrap_ne_err {α : Type} {r : ReadRes α} {msg : String} (h : ∀ e, r ≠ .err e) (e : GoErr) :
    r.wrap msg ≠ .err e := by
  cases r with
  | ok a s => rw [wrap_ok]; exact (nomatch ·)
  | err e' => exact absurd rfl (h e')
  | blocked => exact (nomatch ·)

/-- While more may arrive, reading a frame does not fail. -/
theorem readFrom_pending {p : List UInt8} {e : GoErr} : readFrom ⟨p, .pending⟩ ≠ .err e := by
  intro h
  rcases andThen_eq_err h with h | ⟨typ, s₁, h₁, h⟩
  · exact wrap_ne_err (fun _ => binaryRead_pending) e h
  · have he₁ := (binaryRead_ok (wrap_eq_ok.mp h₁)).2
    obtain ⟨p₁, e₁⟩ := s₁
    obtain rfl : e₁ = .pending := he₁
    rcases andThen_eq_err h with h | ⟨length, s₂, h₂, h⟩
    · exact wrap_ne_err (fun _ => binaryRead_pending) e h
    · have he₂ := (binaryRead_ok (wrap_eq_ok.mp h₂)).2
      obtain ⟨p₂, e₂⟩ := s₂
      obtain rfl : e₂ = .pending := he₂
      split at h
      · rcases andThen_eq_err h with h | ⟨payload, s₃, -, h⟩
        · exact wrap_ne_err (fun _ => readFull_pending) e h
        · exact nomatch h
      · exact nomatch h

/-! ## Reading a block inverts writing it -/

/-- The upper bound `20 + dataLen` does not wrap when the payload is a frame's, so the end of
`ReadBlock` is the comparison of two lengths. -/
theorem takeBlock_eq {payload : List UInt8} (hp : payload.length < 2 ^ 32)
    (h20 : 20 ≤ payload.length) (offset checksum : UInt64) (dataLen : UInt32) :
    takeBlock payload offset checksum dataLen =
      if dataLen.toNat > payload.length - 20 then
        .err (.errorf
          s!"block truncated: dataLen={dataLen} but only {payload.length - 20} bytes remain")
      else .ok ⟨offset, checksum, (payload.drop 20).take dataLen.toNat⟩ := by
  unfold takeBlock
  split
  · rfl
  · rename_i hle
    have h20' : (20 : UInt32).toNat = 20 := by decide
    have hend : (20 + dataLen).toNat = 20 + dataLen.toNat := by
      rw [UInt32.toNat_add, h20', Nat.mod_eq_of_lt (by omega)]
    rw [hend, goSlice, if_pos (by omega), List.drop_take, Nat.add_sub_cancel_left]

theorem bigEndianUint64_append (v : UInt64) (t : List UInt8) :
    bigEndianUint64 (beBytes 8 v.toNat ++ t) = v := by
  have hlt : v.toNat < 256 ^ 8 := by have := v.toNat_lt; omega
  rw [bigEndianUint64, List.take_left' (beBytes_length _ _), beNat_beBytes_of_lt hlt,
    UInt64.ofNat_toNat]

theorem bigEndianUint32_append (v : UInt32) (t : List UInt8) :
    bigEndianUint32 (beBytes 4 v.toNat ++ t) = v := by
  have hlt : v.toNat < 256 ^ 4 := by have := v.toNat_lt; omega
  rw [bigEndianUint32, List.take_left' (beBytes_length _ _), beNat_beBytes_of_lt hlt,
    UInt32.ofNat_toNat]

theorem beBytes_bigEndianUint64 {bs : List UInt8} (h : 8 ≤ bs.length) :
    beBytes 8 (bigEndianUint64 bs).toNat = bs.take 8 := by
  have h8 : (bs.take 8).length = 8 := List.length_take_of_le h
  have hlt : beNat (bs.take 8) < 2 ^ 64 := by
    have := beNat_lt (bs.take 8)
    rw [h8] at this
    omega
  rw [bigEndianUint64, UInt64.toNat_ofNat', Nat.mod_eq_of_lt hlt, beBytes_beNat_of_length h8]

theorem beBytes_bigEndianUint32 {bs : List UInt8} (h : 4 ≤ bs.length) :
    beBytes 4 (bigEndianUint32 bs).toNat = bs.take 4 := by
  have h4 : (bs.take 4).length = 4 := List.length_take_of_le h
  have hlt : beNat (bs.take 4) < 2 ^ 32 := by
    have := beNat_lt (bs.take 4)
    rw [h4] at this
    omega
  rw [bigEndianUint32, UInt32.toNat_ofNat', Nat.mod_eq_of_lt hlt, beBytes_beNat_of_length h4]

/-- A block that fits one frame. -/
def DataBlock.Fits (b : DataBlock) : Prop := b.data.length + 20 < 2 ^ 32

@[simp] theorem DataBlock.payload_length (b : DataBlock) :
    b.payload.length = b.data.length + 20 := by
  simp only [DataBlock.payload, List.length_append, beBytes_length]
  omega

theorem DataBlock.Fits.frame {b : DataBlock} (h : b.Fits) : b.frame.Fits := by
  unfold DataBlock.Fits at h
  simp only [Frame.Fits, DataBlock.frame, DataBlock.payload_length]
  omega

/-- `ReadBlock` undoes `WriteBlock`. -/
theorem readBlock_payload {b : DataBlock} (hb : b.Fits) : readBlock b.payload = .ok b := by
  have hfit : b.data.length + 20 < 2 ^ 32 := hb
  have hlen := b.payload_length
  have hdata : (UInt32.ofNat b.data.length).toNat = b.data.length := by
    rw [UInt32.toNat_ofNat', Nat.mod_eq_of_lt (by omega)]
  -- The header fields, one after the other.
  have h0 : b.payload = beBytes 8 b.offset.toNat ++ (beBytes 8 b.checksum.toNat
      ++ (beBytes 4 (UInt32.ofNat b.data.length).toNat ++ b.data)) := by
    simp only [DataBlock.payload, List.append_assoc]
  have h8 : b.payload.drop 8 = beBytes 8 b.checksum.toNat
      ++ (beBytes 4 (UInt32.ofNat b.data.length).toNat ++ b.data) := by
    rw [h0, List.drop_left' (beBytes_length _ _)]
  have h16 : b.payload.drop 16 = beBytes 4 (UInt32.ofNat b.data.length).toNat ++ b.data := by
    rw [show 16 = 8 + 8 from rfl, ← List.drop_drop, h8, List.drop_left' (beBytes_length _ _)]
  have h20 : b.payload.drop 20 = b.data := by
    rw [show 20 = 16 + 4 from rfl, ← List.drop_drop, h16, List.drop_left' (beBytes_length _ _)]
  have hoff : bigEndianUint64 b.payload = b.offset := by rw [h0, bigEndianUint64_append]
  rw [readBlock, if_neg (by omega), takeBlock_eq (by omega) (by omega), hoff, h8, h16, h20,
    bigEndianUint64_append, bigEndianUint32_append, hdata, if_neg (by omega), List.take_length]

/-- What `ReadBlock` accepts from a frame's payload is a block's encoding, possibly followed by
bytes the length field does not cover. -/
theorem readBlock_ok {p : List UInt8} {b : DataBlock} (hp : p.length < 2 ^ 32)
    (h : readBlock p = .ok b) : b.Fits ∧ ∃ junk, p = b.payload ++ junk := by
  unfold readBlock at h
  split at h
  · exact nomatch h
  · rename_i h20
    rw [takeBlock_eq hp (by omega)] at h
    split at h
    · exact nomatch h
    · rename_i hle
      obtain rfl := Go.ok.inj h
      have hdata : ((p.drop 20).take (bigEndianUint32 (p.drop 16)).toNat).length
          = (bigEndianUint32 (p.drop 16)).toNat := by
        simp only [List.length_take, List.length_drop]
        omega
      refine ⟨by simp only [DataBlock.Fits, hdata]; omega,
        (p.drop 20).drop (bigEndianUint32 (p.drop 16)).toNat, ?_⟩
      simp only [DataBlock.payload, hdata, UInt32.ofNat_toNat]
      rw [beBytes_bigEndianUint64 (by omega), beBytes_bigEndianUint64 (by simp; omega),
        beBytes_bigEndianUint32 (by simp; omega), List.append_assoc, List.take_append_drop]
      have h4 : (p.drop 16).take 4 ++ p.drop 20 = p.drop 16 := by
        rw [show 20 = 16 + 4 from rfl, ← List.drop_drop, List.take_append_drop]
      have h8 : (p.drop 8).take 8 ++ p.drop 16 = p.drop 8 := by
        rw [show 16 = 8 + 8 from rfl, ← List.drop_drop, List.take_append_drop]
      rw [List.append_assoc, List.append_assoc, h4, h8, List.take_append_drop]

/-- `ReadBlock` of a frame's payload never panics. -/
theorem readBlock_ne_panicked {p : List UInt8} (hp : p.length < 2 ^ 32) (m : String) :
    readBlock p ≠ .panicked m := by
  intro h
  unfold readBlock at h
  split at h
  · exact nomatch h
  · rw [takeBlock_eq hp (by omega)] at h
    split at h <;> exact nomatch h

end Wraith.Transport

/-
# `Wraith.Transport.Completeness` — what a nil error from the receiver is worth

Two questions about `receiveOne`, over every stream a peer may send.

*Truncation.*  A nil error needs the eight header bytes of a `MsgComplete` at a frame boundary
(`receiveOne_truncated`): the loop's `io.EOF` branch would accept a cut stream, but never runs.

*Completeness.*  `AcceptSnapshot` promises the full snapshot.  The loop only counts the bytes it
writes, so a nil error says less: `receiveOne_complete_iff` is the exact condition under which what
is returned is the whole snapshot, and `early_complete_accepted` a stream on which it is not.
-/
import Wraith.Transport.Server

namespace Wraith.Transport

open Lib

variable {json : Json} {hashPage : List UInt8 → UInt64} {hs : Handshake} {s s' rest : Stream}
  {ackErr : Option GoErr}

/-! ## A one-page session -/

/-- A snapshot of one page is announced. -/
def pageHandshake : Handshake := ⟨"src", 7, "x86_64", 4096, 1, "1.0"⟩

def pageJson : Json := .literal pageHandshake [acceptAck, rejectEmpty]

def greeting : List UInt8 :=
  (Frame.mk msgHandshake (pageJson.marshalHandshake pageHandshake)).encode

theorem greets_greeting (t : List UInt8) (e : Ending) :
    Greets pageJson ⟨greeting ++ t, e⟩ pageHandshake ⟨t, e⟩ :=
  ⟨_, readFrom_encode (by decide +kernel) t e, rfl, by
    simp only [pageJson, Json.literal, if_true]⟩

def pageBlock : DataBlock := ⟨0, 0, List.replicate 4096 0⟩

theorem pageBlock_fits : pageBlock.Fits := by
  simp only [DataBlock.Fits, pageBlock, List.length_replicate]
  decide

theorem pageHandshake_acceptable : pageHandshake.Acceptable := ⟨rfl, by decide, by decide⟩

/-! ## Truncated streams -/

/-- The header of a `MsgComplete` frame has been delivered in full: it follows some whole frames. -/
def CompleteHeader (bytes : List UInt8) : Prop :=
  ∃ frames : List Frame, (∀ f ∈ frames, f.Fits) ∧ ∃ (length : UInt32) (tail : List UInt8),
    bytes = frames.flatMap Frame.encode
      ++ (beBytes 4 msgComplete.toNat ++ (beBytes 4 length.toNat ++ tail))

theorem not_completeHeader_nil : ¬ CompleteHeader [] := by
  rintro ⟨frames, -, length, tail, h⟩
  have := congrArg List.length h
  simp only [List.length_nil, List.length_append, beBytes_length] at this
  omega

/-- Behind a frame of another type the header is where it was. -/
theorem completeHeader_append {f : Frame} (hf : f.Fits) (htyp : f.typ ≠ msgComplete)
    (t : List UInt8) : CompleteHeader (f.encode ++ t) ↔ CompleteHeader t := by
  constructor
  · rintro ⟨frames, hfits, length, tail, h⟩
    cases frames with
    | nil =>
        -- The type field would have to be `MsgComplete`.
        have hread := binaryRead_append f.typ
          (beBytes 4 (UInt32.ofNat f.payload.length).toNat ++ f.payload ++ t) .eof
        have hread' := binaryRead_append msgComplete (beBytes 4 length.toNat ++ tail) .eof
        simp only [Frame.encode, List.flatMap_nil, List.nil_append, List.append_assoc] at h hread
        rw [h, hread'] at hread
        exact absurd (ReadRes.ok.inj hread).1.symm htyp
    | cons g gs =>
        have hg : g.Fits := hfits g List.mem_cons_self
        rw [List.flatMap_cons, List.append_assoc] at h
        have hread := readFrom_encode hf t .eof
        rw [h, readFrom_encode hg] at hread
        obtain ⟨-, hrest⟩ := ReadRes.ok.inj hread
        exact ⟨gs, fun x hx => hfits x (List.mem_cons_of_mem _ hx), length, tail,
          (Stream.mk.inj hrest).1.symm⟩
  · rintro ⟨frames, hfits, length, tail, rfl⟩
    refine ⟨f :: frames, fun x hx => ?_, length, tail, by
      rw [List.flatMap_cons, List.append_assoc]⟩
    rcases List.mem_cons.mp hx with rfl | hx
    · exact hf
    · exact hfits x hx

theorem completeHeader_of_read {frame : Frame} (hread : readFrom s = .ok frame rest)
    (htyp : frame.typ = msgComplete) : CompleteHeader s.bytes := by
  obtain ⟨-, hbytes, -⟩ := readFrom_ok hread
  refine ⟨[], fun _ h => absurd h List.not_mem_nil, UInt32.ofNat frame.payload.length,
    frame.payload ++ rest.bytes, ?_⟩
  rw [hbytes, Frame.encode, htyp]
  simp only [List.flatMap_nil, List.nil_append, List.append_assoc]

theorem Accepts.completeHeader {bs : List DataBlock} (h : Accepts hashPage hs bs s s') :
    CompleteHeader s'.bytes → CompleteHeader s.bytes := by
  induction h with
  | nil s => exact id
  | skip hread hunknown _ ih =>
      intro h
      obtain ⟨hfits, hbytes, -⟩ := readFrom_ok hread
      exact hbytes ▸ (completeHeader_append hfits hunknown.notComplete _).mpr (ih h)
  | block hread htyp _ _ _ ih =>
      intro h
      obtain ⟨hfits, hbytes, -⟩ := readFrom_ok hread
      exact hbytes ▸ (completeHeader_append hfits (by rw [htyp]; decide) _).mpr (ih h)

theorem Reaches.completeHeader {bs : List DataBlock} (h : Reaches hashPage hs bs s) :
    CompleteHeader s.bytes := by
  obtain ⟨s', frame, rest, hacc, hread, htyp⟩ := h.accepts
  exact hacc.completeHeader (completeHeader_of_read hread htyp)

theorem Greets.completeHeader (h : Greets json s hs rest) :
    CompleteHeader rest.bytes → CompleteHeader s.bytes := by
  obtain ⟨frame, hread, htyp, -⟩ := h.frame
  obtain ⟨hfits, hbytes, -⟩ := readFrom_ok hread
  intro hrest
  exact hbytes ▸ (completeHeader_append hfits (by rw [htyp]; decide) _).mpr hrest

/-- A stream cut before the header of its `MsgComplete` is in is never accepted, whether it then
ends, fails or stays open. -/
theorem receiveOne_truncated (bytes : List UInt8) (cut : Nat) (ending : Ending)
    (hcut : ¬ CompleteHeader (bytes.take cut)) :
    ¬ ∃ out hs', (receiveOne json hashPage ackErr ⟨bytes.take cut, ending⟩).result
      = .returned out hs' none := by
  rintro ⟨out, hs', h⟩
  obtain ⟨-, hs, rest, hgreets, -, hloop⟩ := receiveOne_nil h
  obtain ⟨bs, hreach, -⟩ := (receiveLoop_nil_iff List.length_replicate).mp hloop
  exact hcut (hgreets.completeHeader hreach.completeHeader)

/-- A whole transfer, cut after its only block. -/
theorem receiveOne_truncated_at_boundary :
    ¬ ∃ out hs', (receiveOne pageJson (fun _ => 0) none
      ⟨(greeting ++ pageBlock.frame.encode ++ (Frame.mk msgComplete []).encode).take
        (greeting ++ pageBlock.frame.encode).length, .eof⟩).result = .returned out hs' none := by
  refine receiveOne_truncated _ _ .eof fun h => ?_
  rw [List.take_left, greeting, completeHeader_append (by decide +kernel) (by decide)] at h
  rw [← List.append_nil pageBlock.frame.encode,
    completeHeader_append pageBlock_fits.frame (by decide)] at h
  exact not_completeHeader_nil h

/-! ## Complete transfers -/

/-- `b` is among the blocks sent before `MsgComplete`. -/
inductive Receives : Stream → DataBlock → Prop where
  | here {s rest : Stream} {frame : Frame} {b : DataBlock} : readFrom s = .ok frame rest →
      frame.typ = msgDataBlock → readBlock frame.payload = .ok b → Receives s b
  | later {s rest : Stream} {frame : Frame} {b : DataBlock} : readFrom s = .ok frame rest →
      frame.typ ≠ msgComplete → Receives rest b → Receives s b

theorem Accepts.receives {bs : List DataBlock} (h : Accepts hashPage hs bs s s') :
    ∀ b ∈ bs, Receives s b := by
  induction h with
  | nil s => intro b hb; exact absurd hb List.not_mem_nil
  | skip hread hunknown _ ih => intro b hb; exact .later hread hunknown.notComplete (ih b hb)
  | block hread htyp hdecode _ _ ih =>
      intro b hb
      rcases List.mem_cons.mp hb with rfl | hb
      · exact .here hread htyp hdecode
      · exact .later hread (by rw [htyp]; decide) (ih b hb)

/-- The snapshot is all there: it has the announced length, and every byte of it is the byte at its
position of some received block with a matching checksum. -/
structure Complete (hashPage : List UInt8 → UInt64) (hs : Handshake) (s : Stream)
    (out : List UInt8) : Prop where
  length : out.length = hs.totalBytes.toNat
  written : ∀ i, i < hs.totalBytes.toNat → ∃ b, Receives s b ∧ hashPage b.data = b.checksum ∧
    Touches b.write i ∧ out[i]? = b.data[i - b.offset.toNat]?

/-- The blocks cover the first `n` positions. -/
def Covers (n : Nat) (bs : List DataBlock) : Prop := ∀ i, i < n → ∃ b ∈ bs, Touches b.write i

theorem covers_iff {n i : Nat} {bs : List DataBlock} (h : Covers n bs) (hi : i < n) :
    ∃ w ∈ bs.map DataBlock.write, Touches w i := by
  obtain ⟨b, hb, ht⟩ := h i hi
  exact ⟨b.write, List.mem_map_of_mem hb, ht⟩

/-- Blocks that cover the snapshot rebuild it. -/
theorem Reaches.complete {bs : List DataBlock} {buf : List UInt8} (h : Reaches hashPage hs bs s)
    (hbuf : buf.length = hs.totalBytes.toNat) (hcovers : Covers hs.totalBytes.toNat bs) :
    Complete hashPage hs s (writeAll buf (bs.map DataBlock.write)) := by
  obtain ⟨s', frame, rest, hacc, -, -⟩ := h.accepts
  have hwithin : Within buf.length (bs.map DataBlock.write) := hbuf ▸ hacc.within
  refine ⟨by rw [writeAll_length hwithin, hbuf], fun i hi => ?_⟩
  obtain ⟨w, hw, htouch, hget⟩ := writeAll_covered hwithin (covers_iff hcovers hi)
  obtain ⟨b, hb, rfl⟩ := List.mem_map.mp hw
  exact ⟨b, hacc.receives b hb, hacc.checksum b hb, htouch, hget⟩

/-- Up to `MsgComplete` the loop stores every block there is. -/
theorem Accepts.mem_of_receives {bs : List DataBlock} {frame : Frame} {b : DataBlock}
    (h : Accepts hashPage hs bs s s') (hread : readFrom s' = .ok frame rest)
    (htyp : frame.typ = msgComplete) (hb : Receives s b) : b ∈ bs := by
  induction h with
  | nil s =>
      cases hb with
      | here hr ht _ =>
          obtain ⟨rfl, rfl⟩ := ReadRes.ok.inj (hr.symm.trans hread)
          exact absurd (ht.symm.trans htyp) (by decide)
      | later hr ht _ =>
          obtain ⟨rfl, rfl⟩ := ReadRes.ok.inj (hr.symm.trans hread)
          exact absurd htyp ht
  | skip hr' hunknown _ ih =>
      cases hb with
      | here hr ht _ =>
          obtain ⟨rfl, rfl⟩ := ReadRes.ok.inj (hr.symm.trans hr')
          exact absurd ht hunknown.notData
      | later hr _ hb =>
          obtain ⟨rfl, rfl⟩ := ReadRes.ok.inj (hr.symm.trans hr')
          exact ih hread hb
  | block hr' _ hdecode _ _ ih =>
      cases hb with
      | here hr _ hd =>
          obtain ⟨rfl, rfl⟩ := ReadRes.ok.inj (hr.symm.trans hr')
          obtain rfl := Go.ok.inj (hd.symm.trans hdecode)
          exact List.mem_cons_self
      | later hr _ hb =>
          obtain ⟨rfl, rfl⟩ := ReadRes.ok.inj (hr.symm.trans hr')
          exact List.mem_cons_of_mem _ (ih hread hb)

theorem Reaches.covers {bs : List DataBlock} {out : List UInt8} (h : Reaches hashPage hs bs s)
    (hout : Complete hashPage hs s out) : Covers hs.totalBytes.toNat bs := by
  obtain ⟨s', frame, rest, hacc, hread, htyp⟩ := h.accepts
  intro i hi
  obtain ⟨b, hb, -, htouch, -⟩ := hout.written i hi
  exact ⟨b, hacc.mem_of_receives hread htyp hb, htouch⟩

/-- The transfer is complete as sent: the byte count comes to the announced total and the blocks
cover the snapshot.  A count beyond the total is no success either: the final slice panics. -/
def SentWhole (hs : Handshake) (bs : List DataBlock) : Prop :=
  (byteCount 0 bs = hs.totalBytes ∧ Covers hs.totalBytes.toNat bs) ∨ hs.totalBytes < byteCount 0 bs

/-- **When a nil error means a complete snapshot.**  On any stream: exactly when the blocks up to
`MsgComplete`, if the receiver gets that far, add up to the announced total and cover it. -/
theorem receiveOne_complete_iff :
    (∀ out hs', (receiveOne json hashPage ackErr s).result = .returned out hs' none →
      ∃ hs rest, hs' = some hs ∧ Greets json s hs rest ∧ Complete hashPage hs rest out) ↔
    (∀ hs rest bs, ackErr = none → Greets json s hs rest → hs.Acceptable →
      Reaches hashPage hs bs rest → SentWhole hs bs) := by
  constructor
  · intro h hs rest bs hack hgreets hok hreach
    by_cases hle : (byteCount 0 bs).toNat ≤ hs.totalBytes.toNat
    · left
      have hlen : (List.replicate hs.totalBytes.toNat (0 : UInt8)).length = hs.totalBytes.toNat :=
        List.length_replicate
      have hrun : receiveLoop json hashPage hs (List.replicate hs.totalBytes.toNat 0) 0 rest
          = .returned _ (some hs) none :=
        (receiveLoop_nil_iff hlen).mpr ⟨bs, hreach, hle, rfl, rfl⟩
      obtain ⟨hs', rest', -, hgreets', hout⟩ := h _ (some hs) (by
        rw [hgreets.receiveOne, hack, hok.receiveBody, hrun])
      obtain ⟨rfl, rfl⟩ := hgreets.unique hgreets'
      refine ⟨UInt64.toNat_inj.mp ?_, hreach.covers hout⟩
      have := hout.length
      rw [List.length_take, writeAll_length (hlen.symm ▸ hreach.within), hlen] at this
      omega
    · right
      rw [UInt64.lt_iff_toNat_lt]
      omega
  · intro h out hs' hret
    obtain ⟨hack, hs, rest, hgreets, hok, hloop⟩ := receiveOne_nil hret
    obtain ⟨bs, hreach, hle, rfl, rfl⟩ := (receiveLoop_nil_iff List.length_replicate).mp hloop
    refine ⟨hs, rest, rfl, hgreets, ?_⟩
    rcases h hs rest bs hack hgreets hok hreach with ⟨hcount, hcovers⟩ | hover
    · have hwhole : Complete hashPage hs rest
          (writeAll (List.replicate hs.totalBytes.toNat 0) (bs.map DataBlock.write)) :=
        hreach.complete List.length_replicate hcovers
      rw [hcount, List.take_of_length_le (Nat.le_of_eq hwhole.length)]
      exact hwhole
    · rw [UInt64.lt_iff_toNat_lt] at hover
      omega

/-! ## A stream on which it is not -/

/-- `MsgComplete` comes straight after the handshake. -/
def earlyComplete : Stream := ⟨greeting ++ (Frame.mk msgComplete []).encode, .pending⟩

/-- Nothing was received, and the empty buffer is reported as a success. -/
theorem early_complete_accepted :
    ¬ ∀ out hs', (receiveOne pageJson (fun _ => 0) none earlyComplete).result
        = .returned out hs' none →
      ∃ hs rest, hs' = some hs ∧ Greets pageJson earlyComplete hs rest ∧
        Complete (fun _ => 0) hs rest out := by
  intro h
  have hgreets := greets_greeting (Frame.mk msgComplete []).encode .pending
  have hread := readFrom_encode (f := ⟨msgComplete, []⟩) (by decide) [] .pending
  rw [List.append_nil] at hread
  have hreach : Reaches (fun _ => 0) pageHandshake []
      ⟨(Frame.mk msgComplete []).encode, .pending⟩ :=
    ⟨_, _, _, .nil _, hread, rfl⟩
  obtain ⟨hs, rest, hhs, -, hout⟩ := h [] (some pageHandshake) (by
    rw [earlyComplete, hgreets.receiveOne, pageHandshake_acceptable.receiveBody]
    exact (receiveLoop_nil_iff List.length_replicate).mpr
      ⟨[], hreach, by decide, by simp, rfl⟩)
  obtain rfl := Option.some.inj hhs
  exact absurd hout.length (by decide)

end Wraith.Transport

/-
# `Wraith.Transport.Aborts` — which aborts the sender hears of

`AcceptSnapshot` says of a transfer that it aborts that the sender is notified.  Six checks of
`receiveOne` may fail.  Two of them, on the architecture and on an empty snapshot, are answered with
a rejection.  The size limit is checked after the handshake has been accepted, and the three checks
on a block return without writing anything: `receiveOne_announces_iff` says that the promise is kept
exactly when none of these four fails.
-/
import Mathlib.Data.UInt
import Wraith.Transport.Completeness

namespace Wraith.Transport

open Lib

/-! ## The aborts -/

/-- The errors of the checks on the handshake. -/
inductive HandshakeError (hs : Handshake) : GoErr → Prop where
  | arch : HandshakeError hs (.errorf s!"incompatible architecture: {hs.arch}")
  | empty : HandshakeError hs (.errorf "sender reported zero-byte snapshot")
  | size : HandshakeError hs
      (.errorf s!"snapshot size {hs.totalBytes} exceeds limit {maxSnapshotBytes}")

/-- The errors of the checks on a block. -/
inductive BlockError (hashPage : List UInt8 → UInt64) (hs : Handshake) : GoErr → Prop where
  | undecodable (e : GoErr) : BlockError hashPage hs (.wrapf "decode block" e)
  | outside (b : DataBlock) : BlockError hashPage hs
      (.errorf (s!"block at offset {b.offset}+{b.data.length} overflows snapshot " ++
        s!"({hs.totalBytes} bytes)"))
  | checksum (b : DataBlock) : BlockError hashPage hs
      (.errorf (s!"checksum mismatch at offset {b.offset}: " ++
        s!"expected {hex16 b.checksum}, got {hex16 (hashPage b.data)}"))

/-- The errors `receiveOne` detects itself. -/
def SelfDetected (hashPage : List UInt8 → UInt64) (hs : Handshake) (e : GoErr) : Prop :=
  HandshakeError hs e ∨ BlockError hashPage hs e

/-- A frame that tells the sender of an abort. -/
def TellsAbort (json : Json) (f : Frame) : Prop :=
  f.typ = msgError ∨
    (f.typ = msgReadyAck ∧ ∃ ack, json.unmarshalReadyAck f.payload = .ok ack ∧ ack.accepted = false)

/-- A frame that accepts the transfer. -/
def TellsAccepted (json : Json) (f : Frame) : Prop :=
  f.typ = msgReadyAck ∧ ∃ ack, json.unmarshalReadyAck f.payload = .ok ack ∧ ack.accepted = true

/-- The sender hears of an abort, and is not told otherwise before a handshake is refused. -/
structure Announces (json : Json) (hashPage : List UInt8 → UInt64) (hs : Handshake) (run : RxRun) :
    Prop where
  aborts : ∀ buf hs' e, run.result = .returned buf hs' (some e) → SelfDetected hashPage hs e →
    ∃ f ∈ run.replies, TellsAbort json f
  refusals : ∀ buf hs' e, run.result = .returned buf hs' (some e) → HandshakeError hs e →
    ∀ f ∈ run.replies, ¬ TellsAccepted json f

/-- A payload the checks on a block refuse. -/
def BadBlock (hashPage : List UInt8 → UInt64) (hs : Handshake) (payload : List UInt8) : Prop :=
  (∃ e, readBlock payload = .err e) ∨
    ∃ b, readBlock payload = .ok b ∧ (b.end > hs.totalBytes ∨ hashPage b.data ≠ b.checksum)

/-- The loop gets as far as a block it refuses. -/
def MeetsBadBlock (hashPage : List UInt8 → UInt64) (hs : Handshake) (s : Stream) : Prop :=
  ∃ bs s' frame rest, Accepts hashPage hs bs s s' ∧ readFrom s' = .ok frame rest ∧
    frame.typ = msgDataBlock ∧ BadBlock hashPage hs frame.payload

/-! ## Texts that differ -/

variable {json : Json} {hashPage : List UInt8 → UInt64} {hs : Handshake} {e : GoErr}

theorem SelfDetected.ne_read (h : SelfDetected hashPage hs e) (e' : GoErr) :
    e ≠ .wrapf "read data frame" e' := by
  rcases h with h | h
  · cases h <;> exact (nomatch ·)
  · cases h with
    | undecodable e => simp
    | _ => exact (nomatch ·)

theorem SelfDetected.ne_reported (h : SelfDetected hashPage hs e) (msg : String) :
    e ≠ .errorf s!"sender reported error: {msg}" := by
  intro heq
  -- The texts differ at the first character, at the second, or at the seventeenth.
  have hchar : ∀ {x y : String}, GoErr.errorf x = .errorf y → ∀ i : Nat,
      x.toList[i]? = y.toList[i]? := fun hxy i =>
    congrArg (fun s : String => s.toList[i]?) (GoErr.errorf.inj hxy)
  have hid : ∀ s : String, toString s = s := fun _ => rfl
  rcases h with h | h
  · cases h with
    | arch => simpa [hid] using hchar heq 0
    | empty => simpa [hid] using hchar heq 16
    | size => simpa [hid] using hchar heq 1
  · cases h with
    | undecodable e => exact nomatch heq
    | outside b => simpa [hid] using hchar heq 0
    | checksum b => simpa [hid] using hchar heq 0

/-! ## The loop -/

/-- A refused block ends the loop with the error of its check. -/
theorem MeetsBadBlock.receiveLoop {s : Stream} (h : MeetsBadBlock hashPage hs s) {buf : List UInt8}
    (hbuf : buf.length = hs.totalBytes.toNat) (n : UInt64) :
    ∃ e, BlockError hashPage hs e ∧
      Transport.receiveLoop json hashPage hs buf n s = .returned [] (some hs) (some e) := by
  obtain ⟨bs, s', frame, rest, hacc, hread, htyp, hbad⟩ := h
  rw [hacc.receiveLoop hbuf, receiveLoop_eq, hread]
  simp only [if_pos htyp]
  rcases hbad with ⟨e, herr⟩ | ⟨b, hb, hcheck⟩
  · exact ⟨_, .undecodable e, by simp only [storeBlock, herr]⟩
  · by_cases hend : b.end > hs.totalBytes
    · exact ⟨_, .outside b, by simp only [storeBlock, hb, copyBlock, if_pos hend]⟩
    · have hsum := hcheck.resolve_left hend
      exact ⟨_, .checksum b, by simp only [storeBlock, hb, copyBlock, if_neg hend, if_pos hsum]⟩

/-- An error of `storeBlock` is that of a refused block. -/
theorem storeBlock_err {buf : List UInt8} {n : UInt64} {payload : List UInt8}
    (h : storeBlock hashPage hs buf n payload = .err e) : BadBlock hashPage hs payload := by
  unfold storeBlock at h
  split at h
  · exact nomatch h
  · rename_i e' he
    exact Or.inl ⟨e', he⟩
  · rename_i b hb
    have hcopy : ∃ e', copyBlock hashPage hs buf b = .err e' := by
      split at h
      · exact nomatch h
      · rename_i e' he
        exact ⟨e', he⟩
      · exact nomatch h
    obtain ⟨e', he⟩ := hcopy
    refine Or.inr ⟨b, hb, ?_⟩
    by_contra hgood
    obtain ⟨hend, hsum⟩ := not_or.mp hgood
    rw [gt_iff_lt, UInt64.not_lt, UInt64.le_iff_toNat_le] at hend
    exact copyBlock_refuses.mpr ⟨hend, not_not.mp hsum⟩ e' he

/-- Every error of the loop comes from the connection, from the sender, or from a refused block. -/
theorem receiveLoop_err {out : List UInt8} {hs' : Option Handshake} {s : Stream} {buf : List UInt8}
    {n : UInt64} (hbuf : buf.length = hs.totalBytes.toNat)
    (h : receiveLoop json hashPage hs buf n s = .returned out hs' (some e)) :
    (∃ e', e = .wrapf "read data frame" e') ∨
      (∃ msg : String, e = .errorf s!"sender reported error: {msg}") ∨
      MeetsBadBlock hashPage hs s := by
  have hfinish : ∀ buf n, finish hs buf n ≠ .returned out hs' (some e) := by
    intro buf n
    unfold finish goSlice
    split <;> rename_i hslice <;> split at hslice <;> simp_all
  obtain ⟨bs, s', hacc, hhalts⟩ : ∃ bs s', Accepts hashPage hs bs s s' ∧ Halts hashPage hs s' :=
    accepts_halts s
  rw [hacc.receiveLoop hbuf, receiveLoop_eq] at h
  match hread : readFrom s' with
  | .blocked => rw [hread] at h; cases h
  | .err e' =>
      simp only [hread] at h
      split at h
      · exact absurd h (hfinish _ _)
      · obtain ⟨-, -, hsome⟩ := RxResult.returned.inj h
        exact Or.inl ⟨e', (Option.some.inj hsome).symm⟩
  | .ok frame rest =>
      obtain ⟨hknown, hdata⟩ := hhalts frame rest hread
      simp only [hread] at h
      split at h
      case isTrue htyp =>
        split at h
        · cases h
        · rename_i e' herr
          exact Or.inr (Or.inr ⟨bs, s', frame, rest, hacc, hread, htyp, storeBlock_err herr⟩)
        · rename_i hstore
          obtain ⟨b, hb, hstorable, -⟩ :=
            (storeBlock_ok (readFrom_ok hread).1 (hacc.writeAll_length hbuf)).mp hstore
          exact absurd hstorable (hdata htyp b hb)
      case isFalse hnotData =>
        split at h
        case isTrue htyp => exact absurd h (hfinish _ _)
        case isFalse hnotComplete =>
          split at h
          · obtain ⟨-, -, hsome⟩ := RxResult.returned.inj h
            exact Or.inr (Or.inl ⟨_, (Option.some.inj hsome).symm⟩)
          · rename_i hnotError
            exact absurd ⟨hnotData, hnotComplete, hnotError⟩ hknown

/-! ## The session -/

variable {rest s : Stream}

theorem tellsAbort_iff {ack : ReadyAck}
    (h : json.unmarshalReadyAck (json.marshalReadyAck ack) = .ok ack) :
    TellsAbort json (json.ackFrame ack) ↔ ack.accepted = false := by
  constructor
  · rintro (htyp | ⟨-, ack', hack', hno⟩)
    · exact absurd htyp (show msgReadyAck ≠ msgError by decide)
    · obtain rfl := Except.ok.inj (hack'.symm.trans h)
      exact hno
  · exact fun hno => Or.inr ⟨rfl, ack, h, hno⟩

theorem tellsAccepted_iff {ack : ReadyAck}
    (h : json.unmarshalReadyAck (json.marshalReadyAck ack) = .ok ack) :
    TellsAccepted json (json.ackFrame ack) ↔ ack.accepted = true := by
  constructor
  · rintro ⟨-, ack', hack', hyes⟩
    obtain rfl := Except.ok.inj (hack'.symm.trans h)
    exact hyes
  · exact fun hyes => ⟨rfl, ack, h, hyes⟩

/-- A run that answers with a rejection keeps the promise, whatever comes of it. -/
theorem announces_rejection {ack : ReadyAck} {result : RxResult}
    (h : json.unmarshalReadyAck (json.marshalReadyAck ack) = .ok ack) (hno : ack.accepted = false) :
    Announces json hashPage hs ⟨[json.ackFrame ack], result⟩ where
  aborts _ _ _ _ _ := ⟨_, List.mem_singleton_self _, (tellsAbort_iff h).mpr hno⟩
  refusals _ _ _ _ _ f hf hyes := by
    obtain rfl := List.mem_singleton.mp hf
    rw [(tellsAccepted_iff h).mp hyes] at hno
    exact nomatch hno

/-- A run that answers with an acceptance keeps it only if no check fails. -/
theorem announces_acceptance {result : RxResult}
    (h : json.unmarshalReadyAck (json.marshalReadyAck acceptAck) = .ok acceptAck) :
    Announces json hashPage hs ⟨[json.ackFrame acceptAck], result⟩ ↔
      ∀ buf hs' e, result = .returned buf hs' (some e) → ¬ SelfDetected hashPage hs e := by
  constructor
  · intro hann buf hs' e hres hself
    obtain ⟨f, hf, htells⟩ := hann.aborts buf hs' e hres hself
    obtain rfl := List.mem_singleton.mp hf
    exact nomatch (tellsAbort_iff h).mp htells
  · intro hnone
    exact ⟨fun buf hs' e hres hself => absurd hself (hnone buf hs' e hres),
      fun buf hs' e hres herr => absurd (Or.inl herr) (hnone buf hs' e hres)⟩

/-- **Which aborts are announced.**  All of them, if the snapshot is within the size limit and no
block that arrives is refused; otherwise the sender has been told that the transfer is accepted, and
is told nothing else. -/
theorem receiveOne_announces_iff (hgreets : Greets json s hs rest)
    (hjson : json.Inverts hs [acceptAck, rejectEmpty, rejectArch hs]) :
    Announces json hashPage hs (receiveOne json hashPage none s) ↔
      (hs.arch = "x86_64" → hs.totalBytes ≠ 0 →
        hs.totalBytes ≤ maxSnapshotBytes ∧ ¬ MeetsBadBlock hashPage hs rest) := by
  rw [hgreets.receiveOne, receiveBody]
  split
  · rename_i harch
    exact ⟨fun _ h => absurd h harch,
      fun _ => announces_rejection (hjson.readyAck _ (by simp)) rfl⟩
  · rename_i harch
    split
    · rename_i hzero
      exact ⟨fun _ _ h => absurd hzero h,
        fun _ => announces_rejection (hjson.readyAck _ (by simp)) rfl⟩
    · rename_i hzero
      rw [imp_iff_right (not_not.mp harch), imp_iff_right hzero]
      split
      · rename_i hsize
        rw [announces_acceptance (hjson.readyAck _ (by simp))]
        refine ⟨fun h => absurd (Or.inl .size) (h _ _ _ rfl), fun h => absurd h.1 ?_⟩
        exact UInt64.not_le.mpr hsize
      · rename_i hsize
        have hlen : (List.replicate hs.totalBytes.toNat (0 : UInt8)).length = hs.totalBytes.toNat :=
          List.length_replicate
        rw [announces_acceptance (hjson.readyAck _ (by simp)),
          and_iff_right (UInt64.not_lt.mp hsize)]
        constructor
        · intro h hbad
          obtain ⟨e, herr, hres⟩ := hbad.receiveLoop hlen 0
          exact h _ _ e hres (Or.inr herr)
        · intro h buf hs' e hres hself
          rcases receiveLoop_err hlen hres with ⟨e', rfl⟩ | ⟨msg, rfl⟩ | hbad
          · exact hself.ne_read e' rfl
          · exact hself.ne_reported msg rfl
          · exact h hbad

/-! ## Aborts the sender does not hear of -/

/-- A snapshot of twice the size limit. -/
def hugeHandshake : Handshake := { pageHandshake with totalBytes := 2 ^ 38 }

def hugeJson : Json := .literal hugeHandshake [acceptAck]

def hugeStream : Stream :=
  ⟨(Frame.mk msgHandshake (hugeJson.marshalHandshake hugeHandshake)).encode ++ [], .pending⟩

/-- It is accepted, and then refused without a word. -/
theorem huge_not_announced :
    Greets hugeJson hugeStream hugeHandshake ⟨[], .pending⟩ ∧
      (receiveOne hugeJson (fun _ => 0) none hugeStream).replies = [hugeJson.ackFrame acceptAck] ∧
      ¬ Announces hugeJson (fun _ => 0) hugeHandshake
        (receiveOne hugeJson (fun _ => 0) none hugeStream) := by
  have hgreets : Greets hugeJson hugeStream hugeHandshake ⟨[], .pending⟩ :=
    ⟨_, readFrom_encode (by decide +kernel) [] .pending, rfl, by
      simp only [hugeJson, Json.literal, if_true]⟩
  have hrun : receiveOne hugeJson (fun _ => 0) none hugeStream =
      ⟨[hugeJson.ackFrame acceptAck], .returned [] (some hugeHandshake) (some (.errorf
        s!"snapshot size {hugeHandshake.totalBytes} exceeds limit {maxSnapshotBytes}"))⟩ := by
    rw [hgreets.receiveOne]
    rfl
  refine ⟨hgreets, by rw [hrun], ?_⟩
  rw [hrun, announces_acceptance rfl]
  exact fun h => h _ _ _ rfl (Or.inl .size)

/-- `encoding/json` on a handshake and on every answer to it. -/
def answers (hs : Handshake) : Json := .literal hs [acceptAck, rejectEmpty, rejectArch hs]

/-- The stream of a sender that begins with a handshake. -/
def behindGreeting (hs : Handshake) (t : List UInt8) : Stream :=
  ⟨(Frame.mk msgHandshake ((answers hs).marshalHandshake hs)).encode ++ t, .pending⟩

theorem greets_behindGreeting
    (hfits : (Frame.mk msgHandshake ((answers hs).marshalHandshake hs)).Fits)
    (t : List UInt8) : Greets (answers hs) (behindGreeting hs t) hs ⟨t, .pending⟩ :=
  ⟨_, readFrom_encode hfits t .pending, rfl, by simp only [answers, Json.literal, if_true]⟩

/-- A page of a process that cannot run here. -/
def armHandshake : Handshake := { pageHandshake with arch := "aarch64" }

/-- A process that is refused is refused with an answer; a page with a wrong checksum is without
one. -/
theorem receiveOne_announces_iff_refused :
    Announces (answers armHandshake) (fun _ => 1) armHandshake
        (receiveOne (answers armHandshake) (fun _ => 1) none
          (behindGreeting armHandshake pageBlock.frame.encode)) ∧
      ¬ Announces (answers pageHandshake) (fun _ => 1) pageHandshake
        (receiveOne (answers pageHandshake) (fun _ => 1) none
          (behindGreeting pageHandshake pageBlock.frame.encode)) := by
  have harm : Greets (answers armHandshake) _ armHandshake _ :=
    greets_behindGreeting (by decide +kernel) pageBlock.frame.encode
  have hpage : Greets (answers pageHandshake) _ pageHandshake _ :=
    greets_behindGreeting (by decide +kernel) pageBlock.frame.encode
  have hread : readFrom ⟨pageBlock.frame.encode, .pending⟩ = .ok pageBlock.frame
      ⟨[], .pending⟩ := by
    have hencode := readFrom_encode pageBlock_fits.frame [] .pending
    rwa [List.append_nil] at hencode
  have hbad : BadBlock (fun _ => 1) pageHandshake pageBlock.frame.payload :=
    Or.inr ⟨pageBlock, readBlock_payload pageBlock_fits, Or.inr (by decide)⟩
  refine ⟨(receiveOne_announces_iff harm (Json.literal_inverts (by decide +kernel))).mpr
    fun harch => absurd harch (by decide), fun h => ?_⟩
  obtain ⟨-, hnone⟩ :=
    (receiveOne_announces_iff hpage (Json.literal_inverts (by decide +kernel))).mp h rfl (by decide)
  exact hnone ⟨[], _, _, _, .nil _, hread, rfl, hbad⟩

end Wraith.Transport

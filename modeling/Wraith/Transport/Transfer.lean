/-
# `Wraith.Transport.Transfer` — the end-to-end transfer

`SendSnapshot` against `receiveOne` over a reliable stream.  First the receiver on all the
transmitter sends: the page blocks are accepted one after the other, and their writes rebuild the
data (`receiveLoop_pageBlocks`).  Then the plan of a transfer, and `transfer_settles`: under every
segmentation and schedule the session ends, with the data on one side and the full statistics on the
other, or with an error on both sides when there is nothing to send.

The length field of a frame has 32 bits, so this is about handshakes whose JSON text is shorter
than that; `oversized_handshake_fails` is a session with one that is not.
-/
import Wraith.Transport.Completeness
import Wraith.Transport.Session

namespace Wraith.Transport

open Lib Cmd

variable {json : Json} {hashPage : List UInt8 → UInt64} {data : List UInt8} {opts : TransferOptions}

/-! ## The receiver on a whole snapshot -/

theorem pageBlock_fits_of (hashPage : List UInt8 → UInt64) (offset : Nat) :
    (blockAt hashPage data offset).Fits := by
  simp only [DataBlock.Fits, blockAt, Delta.pageAt_length, pageSize]
  omega

theorem handshakeFor_total (hlen : data.length < 2 ^ 40) :
    (handshakeFor data opts).totalBytes.toNat = data.length := by
  rw [handshakeFor, UInt64.toNat_ofNat', Nat.mod_eq_of_lt (by omega)]

/-- The page at an offset lies inside the data, so its block is storable. -/
theorem blockAt_storable (hlen : data.length < 2 ^ 40) {offset : Nat} (hlt : offset < data.length) :
    Storable hashPage (handshakeFor data opts) (blockAt hashPage data offset) where
  inside := by
    rw [handshakeFor_total hlen]
    simp only [blockAt, Delta.pageAt_length]
    rw [UInt64.toNat_ofNat', Nat.mod_eq_of_lt (by omega)]
    omega
  checksum := rfl

theorem pageOffset_lt {offset : Nat} (h : offset ∈ pageOffsets data) : offset < data.length := by
  obtain ⟨k, hk, rfl⟩ := List.mem_map.mp h
  exact (Delta.lt_numPages_iff (by decide)).mp (List.mem_range.mp hk)

/-- The loop accepts the page blocks one after the other. -/
theorem accepts_pageBlocks (hlen : data.length < 2 ^ 40) (t : List UInt8) (e : Ending) :
    ∀ offsets : List Nat, (∀ offset ∈ offsets, offset < data.length) →
      Accepts hashPage (handshakeFor data opts) (offsets.map (blockAt hashPage data))
        ⟨(offsets.flatMap fun o => (blockAt hashPage data o).frame.encode) ++ t, e⟩ ⟨t, e⟩
  | [], _ => .nil _
  | offset :: offsets, h => by
      rw [List.flatMap_cons, List.append_assoc, List.map_cons]
      have hfits : (blockAt hashPage data offset).Fits := pageBlock_fits_of hashPage offset
      exact .block (readFrom_encode hfits.frame _ e) rfl (readBlock_payload hfits)
        (blockAt_storable hlen (h offset List.mem_cons_self))
        (accepts_pageBlocks hlen t e offsets fun o ho => h o (List.mem_cons_of_mem _ ho))

theorem dataChunks_flatten : (dataChunks hashPage data).flatten
    = ((pageOffsets data).flatMap fun o => (blockAt hashPage data o).frame.encode)
      ++ (Frame.mk msgComplete []).encode := by
  have hflat : ∀ bs : List DataBlock, (bs.flatMap fun b => b.frame.chunks).flatten
      = bs.flatMap fun b => b.frame.encode := fun bs => by
    induction bs with
    | nil => rfl
    | cons b bs ih =>
        rw [List.flatMap_cons, List.flatten_append, Frame.chunks_flatten, ih, List.flatMap_cons]
  rw [dataChunks, List.flatten_append, Frame.chunks_flatten, hflat, pageBlocks, List.flatMap_map]

theorem reaches_pageBlocks (hlen : data.length < 2 ^ 40) (e : Ending) :
    Reaches hashPage (handshakeFor data opts) (pageBlocks hashPage data)
      ⟨(dataChunks hashPage data).flatten, e⟩ := by
  rw [dataChunks_flatten]
  have hread := readFrom_encode (f := ⟨msgComplete, []⟩) (by decide) [] e
  rw [List.append_nil] at hread
  exact ⟨_, _, _, accepts_pageBlocks hlen _ e _ fun _ => pageOffset_lt, hread, rfl⟩

theorem byteCount_pageBlocks :
    byteCount 0 (pageBlocks hashPage data) = UInt64.ofNat data.length := by
  have hsum : (_ : List Nat).sum = data.length :=
    Delta.sum_pageAt_length (show 0 < pageSize by decide)
  rw [byteCount_eq, UInt64.zero_add, pageBlocks, pageOffsets, List.map_map, List.map_map]
  exact congrArg UInt64.ofNat hsum

/-- The pages rebuild the data. -/
theorem writeAll_pageBlocks (hlen : data.length < 2 ^ 40) {buf : List UInt8}
    (hbuf : buf.length = data.length) :
    writeAll buf ((pageBlocks hashPage data).map DataBlock.write) = data := by
  have hoff : ∀ offset ∈ pageOffsets data,
      (blockAt hashPage data offset).write = (offset, Delta.pageAt data pageSize offset) := by
    intro offset hmem
    have := pageOffset_lt hmem
    rw [DataBlock.write, blockAt, UInt64.toNat_ofNat', Nat.mod_eq_of_lt (by omega)]
  have hmap : (pageBlocks hashPage data).map DataBlock.write
      = (pageOffsets data).map fun o => (o, Delta.pageAt data pageSize o) := by
    rw [pageBlocks, List.map_map]
    exact List.map_congr_left hoff
  rw [hmap]
  apply writeAll_eq_of_excerpts hbuf
  · intro w hw
    obtain ⟨o, ho, rfl⟩ := List.mem_map.mp hw
    have := pageOffset_lt ho
    simp only [Delta.pageAt_length]
    omega
  · intro w hw i htouch
    obtain ⟨o, -, rfl⟩ := List.mem_map.mp hw
    obtain ⟨hle, hlt⟩ := htouch
    simp only [Delta.pageAt_length] at hle hlt
    exact Delta.pageAt_get hle (by omega)
  · intro i hi
    obtain ⟨k, hk, hle, hlt⟩ := Delta.exists_page (show 0 < pageSize by decide) hi
    exact ⟨_, List.mem_map_of_mem (List.mem_map_of_mem (List.mem_range.mpr hk)), hle, hlt⟩

/-- `receiveOne` on all the transmitter sends returns exactly the data. -/
theorem receiveLoop_pageBlocks (hlen : data.length < 2 ^ 40) (e : Ending) :
    receiveLoop json hashPage (handshakeFor data opts)
      (List.replicate (handshakeFor data opts).totalBytes.toNat 0) 0
      ⟨(dataChunks hashPage data).flatten, e⟩
        = .returned data (some (handshakeFor data opts)) none := by
  have htotal : (handshakeFor data opts).totalBytes.toNat = data.length := handshakeFor_total hlen
  rw [(reaches_pageBlocks hlen e).receiveLoop List.length_replicate, byteCount_pageBlocks,
    writeAll_pageBlocks hlen (by rw [List.length_replicate, htotal]), finish_nil_iff,
    UInt64.toNat_ofNat', Nat.mod_eq_of_lt (by omega), List.take_length]
  exact ⟨Nat.le_refl _, rfl, rfl⟩

/-! ## The two plans -/

/-- What a transfer relies on the control messages for: they read back, and their texts fit the
length field of a frame. -/
structure Carried (json : Json) (hs : Handshake) : Prop where
  inverts : json.Inverts hs [acceptAck, rejectEmpty]
  handshake_fits : (json.handshakeFrame hs).Fits
  accept_fits : (json.ackFrame acceptAck).Fits
  reject_fits : (json.ackFrame rejectEmpty).Fits

theorem Carried.greets (h : Carried json (handshakeFor data opts)) (t : List UInt8) (e : Ending) :
    Greets json ⟨(json.handshakeFrame (handshakeFor data opts)).encode ++ t, e⟩
      (handshakeFor data opts) ⟨t, e⟩ :=
  ⟨_, readFrom_encode h.handshake_fits t e, rfl, h.inverts.handshake⟩

theorem handshakeFor_acceptable (hpos : 0 < data.length)
    (hmax : data.length ≤ maxSnapshotBytes.toNat) : (handshakeFor data opts).Acceptable := by
  have hlimit : maxSnapshotBytes.toNat < 2 ^ 40 := by decide
  exact Handshake.acceptable rfl (handshakeFor_total (Nat.lt_of_le_of_lt hmax hlimit)) hpos hmax

/-- The plan for a snapshot the receiver accepts. -/
def acceptedPlan (hc : Carried json (handshakeFor data opts)) (hpos : 0 < data.length)
    (hmax : data.length ≤ maxSnapshotBytes.toNat) (hretries : 0 ≤ opts.maxRetries) :
    Plan json hashPage where
  hello := (json.handshakeFrame (handshakeFor data opts)).chunks
  answer := json.ackFrame acceptAck
  next := afterAck json hashPage data opts
  rest := dataChunks hashPage data
  sent := (finalStats data, none)
  received := .returned data (some (handshakeFor data opts)) none
  answer_fits := hc.accept_fits
  sends := afterAck_accepted (Nat.lt_of_le_of_lt hmax (by decide)) hpos hretries
    (hc.inverts.readyAck _ (List.mem_cons_self)) rfl
  greeted := by
    have hgreets := hc.greets [] .pending
    rw [List.append_nil] at hgreets
    rw [Frame.chunks_flatten, hgreets.receiveOne, (handshakeFor_acceptable hpos hmax).receiveBody]
  whole e := by
    rw [Frame.chunks_flatten, (hc.greets _ e).receiveOne,
      (handshakeFor_acceptable hpos hmax).receiveBody,
      receiveLoop_pageBlocks (Nat.lt_of_le_of_lt hmax (by decide)) e]
  returned := (nomatch ·)

/-- An empty snapshot is refused with the handshake. -/
theorem receiveBody_empty (s : Stream) :
    receiveBody json hashPage none (handshakeFor [] opts) s = ⟨[json.ackFrame rejectEmpty],
      .returned [] (some (handshakeFor [] opts))
        (some (.errorf "sender reported zero-byte snapshot"))⟩ := by
  have harch : (handshakeFor [] opts).arch = "x86_64" := rfl
  have hzero : (handshakeFor [] opts).totalBytes = 0 := rfl
  rw [receiveBody, if_neg (not_not.mpr harch), if_pos hzero]

/-- The plan for an empty snapshot. -/
def rejectedPlan (hc : Carried json (handshakeFor [] opts)) : Plan json hashPage where
  hello := (json.handshakeFrame (handshakeFor [] opts)).chunks
  answer := json.ackFrame rejectEmpty
  next := afterAck json hashPage [] opts
  rest := []
  sent := (initialStats [], some (.errorf s!"receiver rejected transfer: {rejectEmpty.reason}"))
  received := .returned [] (some (handshakeFor [] opts))
    (some (.errorf "sender reported zero-byte snapshot"))
  answer_fits := hc.reject_fits
  sends := afterAck_rejected
    (hc.inverts.readyAck _ (List.mem_cons_of_mem _ List.mem_cons_self)) rfl
  greeted := by
    have hgreets := hc.greets [] .pending
    rw [List.append_nil] at hgreets
    rw [Frame.chunks_flatten, hgreets.receiveOne, receiveBody_empty]
  whole e := by
    rw [Frame.chunks_flatten, (hc.greets _ e).receiveOne, receiveBody_empty]
  returned := (nomatch ·)

/-! ## Transfers -/

/-- The session of one `SendSnapshot` call. -/
def transfer (json : Json) (hashPage : List UInt8 → UInt64) (data : List UInt8)
    (opts : TransferOptions) : Session := .start (sendSnapshot json hashPage data opts)

/-- Nil, and statistics that report every page and every byte. -/
def SentAll (data : List UInt8) (a : TxResult) : Prop :=
  a.2 = none ∧
  a.1.pagesSent = Delta.numPages data pageSize ∧ a.1.totalPages = Delta.numPages data pageSize ∧
  a.1.bytesSent.toNat = data.length ∧ a.1.totalBytes.toNat = data.length

/-- Nil, the data, and a handshake that announces them. -/
def ReceivedAll (data : List UInt8) (r : RxResult) : Prop :=
  ∃ hs : Handshake, r = .returned data (some hs) none ∧ hs.totalBytes.toNat = data.length ∧
    hs.pageCount.toNat = Delta.numPages data pageSize

/-- The transfer does what is asked of it: it ends with everything sent and received, or, when there
is nothing to send, with an error on both sides and nothing but the handshake sent. -/
def Transfers (json : Json) (hashPage : List UInt8 → UInt64) (data : List UInt8)
    (opts : TransferOptions) : Prop :=
  (0 < data.length →
    Settles json hashPage (transfer json hashPage data opts) (SentAll data) (ReceivedAll data)) ∧
  (data.length = 0 →
    Settles json hashPage (transfer json hashPage data opts) (fun a => a.2 ≠ none)
      (fun r => ∃ buf hs e, r = .returned buf hs (some e)) ∧
    ∀ s, Reach (Session.Step json hashPage) (transfer json hashPage data opts) s →
      s.rxIn.bytes ++ s.fwd <+: (json.handshakeFrame (handshakeFor data opts)).encode)

/-- **The end-to-end transfer.** -/
theorem transfer_settles (hc : Carried json (handshakeFor data opts))
    (hmax : data.length ≤ maxSnapshotBytes.toNat) (hretries : 0 ≤ opts.maxRetries) :
    Transfers json hashPage data opts := by
  have hlen : data.length < 2 ^ 40 := Nat.lt_of_le_of_lt hmax (by decide)
  constructor
  · intro hpos
    refine ((acceptedPlan hc hpos hmax hretries).settles sendSnapshot_asks).mono ?_ ?_
    · rintro a rfl
      obtain ⟨htp, hps, htb, hbs⟩ := finalStats_eq hlen
      exact ⟨rfl, hps, htp, hbs, htb⟩
    · rintro r rfl
      exact ⟨handshakeFor data opts, rfl, handshakeFor_total hlen, pageCount_toNat hlen⟩
  · intro hzero
    obtain rfl := List.eq_nil_of_length_eq_zero hzero
    refine ⟨((rejectedPlan hc).settles sendSnapshot_asks).mono ?_ ?_, fun s hs => ?_⟩
    · rintro a rfl
      exact (nomatch ·)
    · rintro r rfl
      exact ⟨_, _, _, rfl⟩
    · obtain ⟨-, todo, unread, hon, -⟩ :=
        (rejectedPlan hc).ranked.reach ⟨_, _, (rejectedPlan hc).start sendSnapshot_asks, rfl⟩ hs
      have hforward := hon.forward
      simp only [Plan.wire, rejectedPlan, Frame.chunks_flatten, List.flatten_nil,
        List.append_nil] at hforward
      exact ⟨_, hforward⟩

/-! ## One byte, and one byte under a long name -/

/-- `encoding/json` on the control messages of one transfer. -/
def jsonFor (data : List UInt8) (opts : TransferOptions) : Json :=
  .literal (handshakeFor data opts) [acceptAck, rejectEmpty]

theorem jsonFor_inverts (data : List UInt8) (opts : TransferOptions) :
    (jsonFor data opts).Inverts (handshakeFor data opts) [acceptAck, rejectEmpty] :=
  Json.literal_inverts (by decide +kernel)

def exampleOpts : TransferOptions := ⟨"src", 7, "1.0", 3⟩

theorem carried_one_byte : Carried (jsonFor [0] exampleOpts) (handshakeFor [0] exampleOpts) :=
  ⟨jsonFor_inverts _ _, by decide +kernel, by decide +kernel, by decide +kernel⟩

theorem transfer_settles_one_byte :
    Carried (jsonFor [0] exampleOpts) (handshakeFor [0] exampleOpts) ∧
    Transfers (jsonFor [0] exampleOpts) (fun _ => 0) [0] exampleOpts :=
  ⟨carried_one_byte, transfer_settles carried_one_byte (by decide) (by decide)⟩

/-- The bytes of a handshake's text besides the hostname. -/
def overhead : Nat :=
  (asciiBytes handshakePrefix).length
    + (asciiBytes (handshakeSuffix (handshakeFor [0] exampleOpts))).length

/-- A hostname of `n` letters. -/
def namedOpts (n : Nat) : TransferOptions :=
  { exampleOpts with hostname := String.ofList (List.replicate n 'a') }

/-- The text of the handshake under such a name. -/
def namedText (n : Nat) : List UInt8 := asciiBytes (handshakeText (handshakeFor [0] (namedOpts n)))

theorem namedText_length (n : Nat) : (namedText n).length = overhead + n := by
  have hsuffix : handshakeSuffix (handshakeFor [0] (namedOpts n))
      = handshakeSuffix (handshakeFor [0] exampleOpts) := rfl
  have hname : (handshakeFor [0] (namedOpts n)).sourceHostname.toList = List.replicate n 'a' :=
    String.toList_ofList
  rw [namedText, handshakeText, hsuffix, asciiBytes, String.toList_append, String.toList_append,
    hname]
  simp only [List.map_append, List.length_append, List.length_map, List.length_replicate, overhead,
    asciiBytes]
  omega

/-- With a text of 2^32 bytes the length field says zero, so the receiver reads an empty payload. -/
theorem namedText_read {n : Nat} (h : (namedText n).length = 2 ^ 32) :
    readFrom ⟨(Frame.mk msgHandshake (namedText n)).encode, .pending⟩
      = .ok ⟨msgHandshake, []⟩ ⟨namedText n, .pending⟩ := by
  have hread := readFrom_encode (f := ⟨msgHandshake, []⟩) (by decide) (namedText n) .pending
  have hzero : (UInt32.ofNat (namedText n).length).toNat
      = (UInt32.ofNat ([] : List UInt8).length).toNat := by
    rw [h]
    decide
  rw [← hread]
  simp only [Frame.encode, hzero, List.append_nil]

/-- And refuses to decode it. -/
theorem namedText_refused {n : Nat} (h : (namedText n).length = 2 ^ 32) :
    receiveOne (jsonFor [0] (namedOpts n)) (fun _ => 0) none
      ⟨(Frame.mk msgHandshake (namedText n)).encode, .pending⟩
        = ⟨[], .returned [] none (some (.wrapf "decode handshake"
            (.json "unexpected end of JSON input")))⟩ := by
  have hne : [] ≠ namedText n := by
    intro hnil
    rw [← hnil] at h
    exact absurd h (by decide)
  have hdecode : (jsonFor [0] (namedOpts n)).unmarshalHandshake []
      = .error (.json "unexpected end of JSON input") := if_neg hne
  rw [receiveOne, namedText_read h]
  simp only [ne_eq, not_true_eq_false, if_false, hdecode]

/-- A transmitter that asks gets its greeting into the stream. -/
theorem Asks.reach {tx : Tx TxResult} {out : List (List UInt8)}
    {next : Except GoErr Frame → Tx TxResult} (h : Asks tx out next) :
    ∀ s : Session, s.tx = tx → Reach (Session.Step json hashPage) s
      { s with tx := .op .readFrame next, fwd := s.fwd ++ out.flatten } := by
  induction h with
  | read k =>
      intro s htx
      rw [List.flatten_nil, List.append_nil, ← htx]
  | @write bs k out next _ ih =>
      intro s htx
      have hreach := ih { s with tx := k ⟨bs.length, none⟩, fwd := s.fwd ++ bs } rfl
      simp only [List.append_assoc] at hreach
      exact .head (.txWrite htx) hreach

/-- The session in which the handshake, and nothing else, has reached the receiver. -/
def greeted (json : Json) (hashPage : List UInt8 → UInt64) (data : List UInt8)
    (opts : TransferOptions) : Session :=
  { transfer json hashPage data opts with
    tx := .op .readFrame (afterAck json hashPage data opts)
    rxIn := ⟨(json.handshakeFrame (handshakeFor data opts)).encode, .pending⟩ }

theorem transfer_reach_greeted :
    Reach (Session.Step json hashPage) (transfer json hashPage data opts)
      (greeted json hashPage data opts) := by
  have hsent : Reach (Session.Step json hashPage) (transfer json hashPage data opts) _ :=
    Asks.reach sendSnapshot_asks _ rfl
  rw [Frame.chunks_flatten] at hsent
  exact hsent.tail (.toRx (Frame.encode_ne_nil _) (List.append_nil _).symm)

/-- The receiver of such a greeting returns an error. -/
theorem named_not_transfers {n : Nat} (h : (namedText n).length = 2 ^ 32) :
    ¬ Transfers (jsonFor [0] (namedOpts n)) (fun _ => 0) [0] (namedOpts n) := by
  intro htransfers
  have hrun : (greeted (jsonFor [0] (namedOpts n)) (fun _ => 0) [0] (namedOpts n)).rxRun
      (jsonFor [0] (namedOpts n)) (fun _ => 0) = _ := namedText_refused h
  have hreturned := transfer_reach_greeted.tail (.rxReturn rfl (by rw [hrun]; rfl)
    (by rw [hrun]; exact (nomatch ·)))
  obtain ⟨hs, hresult, -⟩ := ((htransfers.1 (by decide)).safe _ hreturned).2 _ rfl
  rw [hrun] at hresult
  exact nomatch hresult

/-- **A handshake that does not fit its length field.** -/
theorem oversized_handshake_fails :
    (jsonFor [0] (namedOpts (2 ^ 32 - overhead))).Inverts
      (handshakeFor [0] (namedOpts (2 ^ 32 - overhead))) [acceptAck, rejectEmpty] ∧
    ¬ Transfers (jsonFor [0] (namedOpts (2 ^ 32 - overhead))) (fun _ => 0) [0]
      (namedOpts (2 ^ 32 - overhead)) :=
  have hoverhead : overhead ≤ 2 ^ 32 := by decide +kernel
  ⟨jsonFor_inverts _ _, named_not_transfers (by rw [namedText_length]; omega)⟩

end Wraith.Transport

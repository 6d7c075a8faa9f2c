/-
# `Wraith.Transport.Delivery` — from the transmitter's return to the receiver's file

A session together with what is around it: `main` of the receiver, which writes the output file once
`AcceptSnapshot` has returned, and the orchestrator, which starts the restorer once the transmitter
has exited 0.  What is in flight may be lost or altered and connections may break, if the network is
one that does such things (`faulty`).

`SendSnapshot` does not wait for anything behind its last write; the `RestoreAck` that is to say
that the snapshot has been written is sent by nobody.  So `delivery_guaranteed_iff`: that everything
is in place when it returns nil is guaranteed only where it never returns nil, with nothing to send
and nothing lost or altered.
-/
import Wraith.Transport.Transfer

namespace Wraith.Transport

open Lib Cmd

/-! ## The system -/

/-- The receiver's output path. -/
inductive Output where
  | absent
  | writing (bs : List UInt8)
  | complete (bs : List UInt8)
  deriving DecidableEq, Repr

/-- A session with the file, and what the restorer found there when it was started. -/
structure Delivery where
  session : Session
  output : Output := .absent
  restorer : Option Output := none

variable (json : Json) (hashPage : List UInt8 → UInt64) (faulty : Bool)

inductive Delivery.Step : Delivery → Delivery → Prop where
  | session {d : Delivery} {s : Session} : Session.Step json hashPage d.session s →
      Step d { d with session := s }
  -- On the way bytes are lost, or become others.
  | spoilFwd {d : Delivery} {bs : List UInt8} :
      faulty = true → bs.length ≤ d.session.fwd.length →
        Step d { d with session := { d.session with fwd := bs } }
  | spoilBwd {d : Delivery} {bs : List UInt8} :
      faulty = true → bs.length ≤ d.session.bwd.length →
        Step d { d with session := { d.session with bwd := bs } }
  | breakRx {d : Delivery} {e : GoErr} : faulty = true → d.session.rxIn.ending = .pending →
      Step d { d with session := { d.session with rxIn := ⟨d.session.rxIn.bytes, .failed e⟩ } }
  | breakTx {d : Delivery} {e : GoErr} : faulty = true → d.session.txIn.ending = .pending →
      Step d { d with session := { d.session with txIn := ⟨d.session.txIn.bytes, .failed e⟩ } }
  | cutWrite {d : Delivery} {bs : List UInt8} {k : Written → Tx TxResult} {n : Nat} {e : GoErr} :
      faulty = true → d.session.tx = .op (.write bs) k → n ≤ bs.length →
        Step d { d with
          session := { d.session with tx := k ⟨n, some e⟩, fwd := d.session.fwd ++ bs.take n } }
  -- `os.WriteFile`, piece by piece; it may never come to its end.
  | create {d : Delivery} {out : List UInt8} {hs : Option Handshake} :
      d.session.rx = some (.returned out hs none) → d.output = .absent →
        Step d { d with output := .writing [] }
  | write {d : Delivery} {bs seg rest : List UInt8} {hs : Option Handshake} :
      d.session.rx = some (.returned (bs ++ seg ++ rest) hs none) → d.output = .writing bs →
        Step d { d with output := .writing (bs ++ seg) }
  | close {d : Delivery} {out : List UInt8} {hs : Option Handshake} :
      d.session.rx = some (.returned out hs none) → d.output = .writing out →
        Step d { d with output := .complete out }
  -- `_run_restore`, behind a `_run_transfer` that has returned.
  | restore {d : Delivery} {stats : TransferStats} :
      d.session.tx = .ret (stats, none) → d.restorer = none →
        Step d { d with restorer := some d.output }

/-- The transfer of `data`, with the output path still free. -/
def delivery (data : List UInt8) (opts : TransferOptions) : Delivery :=
  { session := transfer json hashPage data opts }

/-- When `SendSnapshot` has returned nil, the receiver has returned the data and has written them to
its file, and when the restorer is started it finds them there. -/
def Guaranteed (data : List UInt8) (opts : TransferOptions) : Prop :=
  ∀ d, Reach (Delivery.Step json hashPage faulty) (delivery json hashPage data opts) d →
    (∀ stats, d.session.tx = .ret (stats, none) →
      (∃ hs, d.session.rx = some (.returned data hs none)) ∧ d.output = .complete data) ∧
    ∀ found, d.restorer = some found → found = .complete data

variable {json} {hashPage} {faulty} {data : List UInt8} {opts : TransferOptions}

/-! ## The transmitter once it has been accepted -/

/-- A transmitter that only writes gets to its end. -/
theorem Sends.reach {tx : Tx TxResult} {out : List (List UInt8)} {a : TxResult}
    (h : Sends tx out a) :
    ∀ s : Session, s.tx = tx → Reach (Session.Step json hashPage) s
      { s with tx := .ret a, fwd := s.fwd ++ out.flatten } := by
  induction h with
  | ret a =>
      intro s htx
      rw [List.flatten_nil, List.append_nil, ← htx]
  | @write bs k out a _ ih =>
      intro s htx
      have hreach := ih { s with tx := k ⟨bs.length, none⟩, fwd := s.fwd ++ bs } rfl
      simp only [List.append_assoc] at hreach
      exact .head (.txWrite htx) hreach

/-- With a negative bound no attempt is made, and nil is returned. -/
theorem sendBlockWithRetry_nil (block : DataBlock) (maxRetries : Int) :
    ∃ out, Sends (sendBlockWithRetry block maxRetries) out none := by
  by_cases h : 0 ≤ maxRetries
  · exact ⟨_, sendBlockWithRetry_sends block h⟩
  · refine ⟨[], ?_⟩
    rw [sendBlockWithRetry, Int.toNat_of_nonpos (by omega)]
    exact .ret none

theorem sendPages_nil (maxRetries : Int) : ∀ (offsets : List Nat) (stats : TransferStats),
    ∃ out stats', Sends (sendPages hashPage data maxRetries offsets stats) out (stats', none)
  | [], stats => ⟨[], stats, .ret _⟩
  | offset :: offsets, stats => by
      obtain ⟨out, hblock⟩ := sendBlockWithRetry_nil (blockAt hashPage data offset) maxRetries
      obtain ⟨out', stats', hrest⟩ := sendPages_nil maxRetries offsets (countPage data stats offset)
      exact ⟨out ++ out', stats', hblock.bind hrest⟩

theorem sendComplete_nil (stats : TransferStats) :
    ∃ out stats', Sends (sendComplete stats) out (stats', none) := by
  by_cases h : stats.totalBytes > 0
  · exact ⟨_, _, sendComplete_sends h⟩
  · have hret : Sends (if stats.totalBytes > 0 then (return ({ stats with
        reduction := 1.0 - stats.bytesSent.toFloat / stats.totalBytes.toFloat }, none) :
        Tx (TransferStats × Option GoErr)) else return (stats, none)) [] (stats, none) := by
      rw [if_neg h]
      exact .ret _
    exact ⟨_, stats, (writeTo_sends (Frame.mk msgComplete [])).bind hret⟩

/-- Whatever there is to send: accepted, it returns nil when every write succeeds. -/
theorem afterAck_nil {answer : Frame} {ack : ReadyAck}
    (hack : json.unmarshalReadyAck answer.payload = .ok ack) (haccepted : ack.accepted = true) :
    ∃ out stats, Sends (afterAck json hashPage data opts (.ok answer)) out (stats, none) := by
  obtain ⟨out, stats, hpages⟩ : ∃ out stats, Sends (sendPages hashPage data opts.maxRetries
      (Delta.newDetector.dirtyOffsets hashPage data pageSize).1 (initialStats data)) out
      (stats, none) :=
    sendPages_nil _ _ _
  obtain ⟨out', stats', hcomplete⟩ := sendComplete_nil stats
  refine ⟨out ++ out', stats', ?_⟩
  simp only [afterAck, hack, haccepted, Bool.true_eq_false, if_false]
  exact hpages.bind hcomplete

/-! ## Nothing is in place yet -/

theorem Delivery.reach_session {d : Delivery} {s : Session}
    (h : Reach (Session.Step json hashPage) d.session s) :
    Reach (Delivery.Step json hashPage faulty) d { d with session := s } := by
  induction h with
  | refl => exact .refl
  | tail _ hs ih => exact ih.tail (.session hs)

/-- The handshake has been answered, and the answer is on its way. -/
def acked (json : Json) (hashPage : List UInt8 → UInt64) (data : List UInt8)
    (opts : TransferOptions) (ack : ReadyAck) : Session :=
  { greeted json hashPage data opts with replied := 1, bwd := (json.ackFrame ack).encode }

/-- The receiver's answer. -/
def readyAckFor (data : List UInt8) (opts : TransferOptions) : ReadyAck :=
  if (handshakeFor data opts).totalBytes = 0 then rejectEmpty else acceptAck

theorem greeted_replies (hc : Carried json (handshakeFor data opts)) :
    ((greeted json hashPage data opts).rxRun json hashPage).replies =
      [json.ackFrame (readyAckFor data opts)] := by
  have hgreets := hc.greets [] .pending
  rw [List.append_nil] at hgreets
  have hrun : (greeted json hashPage data opts).rxRun json hashPage =
      receiveBody json hashPage none (handshakeFor data opts) ⟨[], .pending⟩ := hgreets.receiveOne
  have harch : (handshakeFor data opts).arch = "x86_64" := rfl
  rw [hrun, receiveBody, if_neg (not_not.mpr harch), readyAckFor]
  by_cases hzero : (handshakeFor data opts).totalBytes = 0
  · rw [if_pos hzero, if_pos hzero]
  · rw [if_neg hzero, if_neg hzero]
    split
    · rfl
    · rfl

theorem transfer_reach_acked (hc : Carried json (handshakeFor data opts)) :
    Reach (Session.Step json hashPage) (transfer json hashPage data opts)
      (acked json hashPage data opts (readyAckFor data opts)) := by
  refine transfer_reach_greeted.tail (.reply rfl ?_)
  rw [greeted_replies hc]
  rfl

/-- Once the transmitter knows that it is accepted it can go on to its end alone. -/
theorem acked_reach_nil (hc : Carried json (handshakeFor data opts)) :
    ∃ stats s, Reach (Session.Step json hashPage) (acked json hashPage data opts acceptAck) s ∧
      s.tx = .ret (stats, none) ∧ s.rx = none := by
  obtain ⟨out, stats, hsends⟩ : ∃ out stats, Sends (afterAck json hashPage data opts
      (.ok (json.ackFrame acceptAck))) out (stats, none) :=
    afterAck_nil (hc.inverts.readyAck acceptAck List.mem_cons_self) rfl
  have hread : readFrom ⟨(json.ackFrame acceptAck).encode, .pending⟩ =
      .ok (json.ackFrame acceptAck) ⟨[], .pending⟩ := by
    have h := readFrom_encode hc.accept_fits [] .pending
    rwa [List.append_nil] at h
  have harrive : Session.Step json hashPage (acked json hashPage data opts acceptAck)
      { acked json hashPage data opts acceptAck with
        bwd := [], txIn := ⟨(json.ackFrame acceptAck).encode, .pending⟩ } :=
    .toTx (Frame.encode_ne_nil _) (List.append_nil _).symm
  exact ⟨stats, _, .head harrive (.head (.txRead rfl hread) (hsends.reach _ rfl)), rfl, rfl⟩

/-- That it is accepted it learns from the receiver; or, where there is nothing to send, from a
network that makes the one answer of the other. -/
theorem delivery_reach_acked (hc : Carried json (handshakeFor data opts))
    (hshort : (json.marshalReadyAck acceptAck).length ≤ (json.marshalReadyAck rejectEmpty).length)
    (hlen : data.length < 2 ^ 64) (h : ¬ (faulty = false ∧ data = [])) :
    Reach (Delivery.Step json hashPage faulty) (delivery json hashPage data opts)
      { session := acked json hashPage data opts acceptAck } := by
  have hreach : Reach (Delivery.Step json hashPage faulty) (delivery json hashPage data opts)
      { session := acked json hashPage data opts (readyAckFor data opts) } :=
    Delivery.reach_session (transfer_reach_acked hc)
  rw [readyAckFor] at hreach
  by_cases hzero : (handshakeFor data opts).totalBytes = 0
  · rw [if_pos hzero] at hreach
    have hnil : data = [] := by
      have htotal := congrArg UInt64.toNat hzero
      rw [handshakeFor, UInt64.toNat_ofNat', Nat.mod_eq_of_lt hlen] at htotal
      exact List.eq_nil_of_length_eq_zero htotal
    have hfaulty : faulty = true := (Bool.not_eq_false _).mp fun hf => h ⟨hf, hnil⟩
    refine hreach.tail (.spoilBwd hfaulty ?_)
    simp only [acked, Frame.encode, Json.ackFrame, List.length_append, beBytes_length]
    omega
  · rwa [if_neg hzero] at hreach

/-- The restorer can be started with nothing written, and the receiver still busy. -/
theorem delivery_unguaranteed (hc : Carried json (handshakeFor data opts))
    (hshort : (json.marshalReadyAck acceptAck).length ≤ (json.marshalReadyAck rejectEmpty).length)
    (hlen : data.length < 2 ^ 64) (h : ¬ (faulty = false ∧ data = [])) :
    ∃ d, Reach (Delivery.Step json hashPage faulty) (delivery json hashPage data opts) d ∧
      d.session.rx = none ∧ d.restorer = some .absent := by
  obtain ⟨stats, s, hreach, hret, hrx⟩ : ∃ stats s, Reach (Session.Step json hashPage)
      (acked json hashPage data opts acceptAck) s ∧ s.tx = .ret (stats, none) ∧ s.rx = none :=
    acked_reach_nil hc
  exact ⟨_, ((delivery_reach_acked hc hshort hlen h).trans
    (Delivery.reach_session hreach)).tail (.restore hret rfl), hrx, rfl⟩

/-! ## Nothing to send -/

/-- Where nothing is lost or altered, the session is one of `Session.Step`. -/
theorem delivery_session {d : Delivery}
    (h : Reach (Delivery.Step json hashPage false) (delivery json hashPage data opts) d) :
    Reach (Session.Step json hashPage) (transfer json hashPage data opts) d.session := by
  refine Relation.ReflTransGen.lift' Delivery.session ?_ _ _ h
  intro d d' hs
  cases hs with
  | session hs => exact .single hs
  | create _ _ => exact .refl
  | write _ _ => exact .refl
  | close _ _ => exact .refl
  | restore _ _ => exact .refl
  | _ hfaulty => exact nomatch hfaulty

/-- An empty snapshot is refused, and the transmitter returns that. -/
theorem delivery_refused {d : Delivery} (hc : Carried json (handshakeFor [] opts))
    (h : Reach (Delivery.Step json hashPage false) (delivery json hashPage [] opts) d)
    (stats : TransferStats) : d.session.tx ≠ .ret (stats, none) := fun htx => by
  have hsent : (stats, none) = (rejectedPlan hc).sent :=
    (((rejectedPlan hc).settles sendSnapshot_asks).safe _ (delivery_session h)).1 _ htx
  exact nomatch (Prod.mk.inj hsent).2

theorem delivery_no_restorer {d : Delivery} (hc : Carried json (handshakeFor [] opts))
    (h : Reach (Delivery.Step json hashPage false) (delivery json hashPage [] opts) d) :
    d.restorer = none := by
  induction h with
  | refl => rfl
  | tail h hs ih =>
      cases hs with
      | session _ => exact ih
      | create _ _ => exact ih
      | write _ _ => exact ih
      | close _ _ => exact ih
      | restore htx _ => exact absurd htx (delivery_refused hc h _)
      | _ hfaulty => exact nomatch hfaulty

/-! ## The result -/

/-- What a return of nil is to mean it means only where there is none. -/
theorem delivery_guaranteed_iff (hc : Carried json (handshakeFor data opts))
    (hshort : (json.marshalReadyAck acceptAck).length ≤ (json.marshalReadyAck rejectEmpty).length)
    (hlen : data.length < 2 ^ 64) :
    Guaranteed json hashPage faulty data opts ↔ faulty = false ∧ data = [] := by
  constructor
  · intro hall
    by_contra h
    obtain ⟨d, hreach, -, hfound⟩ : ∃ d, Reach (Delivery.Step json hashPage faulty)
        (delivery json hashPage data opts) d ∧ d.session.rx = none ∧ d.restorer = some .absent :=
      delivery_unguaranteed hc hshort hlen h
    exact nomatch (hall d hreach).2 _ hfound
  · rintro ⟨rfl, rfl⟩ d hreach
    refine ⟨fun stats htx => absurd htx (delivery_refused hc hreach stats), fun found hfound => ?_⟩
    exact nomatch hfound.symm.trans (delivery_no_restorer hc hreach)

/-! ## One byte -/

theorem acks_one_byte : ((jsonFor [0] exampleOpts).marshalReadyAck acceptAck).length ≤
    ((jsonFor [0] exampleOpts).marshalReadyAck rejectEmpty).length := by decide +kernel

theorem delivery_guaranteed_iff_one_byte :
    ¬ Guaranteed (jsonFor [0] exampleOpts) (fun _ => 0) false [0] exampleOpts := fun hall =>
  nomatch ((delivery_guaranteed_iff carried_one_byte acks_one_byte (by decide)).mp hall).2

/-- A byte that nobody loses or alters: the restorer is started, and finds no file. -/
theorem restorer_finds_nothing : ∃ d,
    Reach (Delivery.Step (jsonFor [0] exampleOpts) (fun _ => 0) false)
      (delivery (jsonFor [0] exampleOpts) (fun _ => 0) [0] exampleOpts) d ∧
    d.session.rx = none ∧ d.restorer = some .absent ∧
    ¬ Guaranteed (jsonFor [0] exampleOpts) (fun _ => 0) false [0] exampleOpts := by
  obtain ⟨d, hreach, hrx, hfound⟩ :=
    delivery_unguaranteed carried_one_byte acks_one_byte (by decide) fun h => nomatch h.2
  exact ⟨d, hreach, hrx, hfound, fun hall => nomatch (hall d hreach).2 _ hfound⟩

end Wraith.Transport

/-
# `Wraith.Transport.Session` — both parties and the stream between them

One connection: the transmitter's program, the bytes in flight each way, and what has reached each
side.  A step is a write, the arrival of any non-empty part of what is in flight, a read, a reply,
or a return; segmentation and relative speed are the scheduler's choice.  The receiver is not a
program of its own here: what it has come to is `receiveOne` of what has reached it, and the steps
`reply` and `rxReturn` let it act on that as late as the scheduler likes.

`Plan` is what the two sides intend, as far as bytes go: the transmitter's two phases and the
receiver's answer and result on the whole of them.  The invariant `Plan.Inv` says that every
reachable session is on plan, with a rank that every step lowers, and `On.stuck` that a session
no step can be taken in is over on both sides.  Together they are `Plan.settles`.
-/
import Wraith.Lib.System
import Wraith.Transport.Client
import Wraith.Transport.Server

namespace Wraith.Transport

open Lib Cmd

/-! ## Sessions and their steps -/

/-- What the transmitter's program returns. -/
abbrev TxResult : Type := TransferStats × Option GoErr

/-- A connection with its two parties.  `rxIn` is everything that has reached the receiver, `txIn`
what has reached the transmitter and was not read yet. -/
structure Session where
  tx : Tx TxResult
  fwd : List UInt8
  rxIn : Stream
  ackErr : Option GoErr
  replied : Nat
  rx : Option RxResult
  bwd : List UInt8
  txIn : Stream

variable (json : Json) (hashPage : List UInt8 → UInt64)

/-- The receiver on what has reached it. -/
def Session.rxRun (s : Session) : RxRun := receiveOne json hashPage s.ackErr s.rxIn

/-- A connection just made. -/
def Session.start (tx : Tx TxResult) : Session :=
  { tx, fwd := [], rxIn := ⟨[], .pending⟩, ackErr := none, replied := 0, rx := none,
    bwd := [], txIn := ⟨[], .pending⟩ }

/-- The steps of a reliable connection. -/
inductive Session.Step : Session → Session → Prop where
  | txWrite {s : Session} {bs : List UInt8} {k : Written → Tx TxResult} :
      s.tx = .op (.write bs) k →
        Step s { s with tx := k ⟨bs.length, none⟩, fwd := s.fwd ++ bs }
  | txRead {s : Session} {k : Except GoErr Frame → Tx TxResult} {f : Frame} {rest : Stream} :
      s.tx = .op .readFrame k → readFrom s.txIn = .ok f rest →
        Step s { s with tx := k (.ok f), txIn := rest }
  | txReadErr {s : Session} {k : Except GoErr Frame → Tx TxResult} {e : GoErr} :
      s.tx = .op .readFrame k → readFrom s.txIn = .err e → Step s { s with tx := k (.error e) }
  | txSleep {s : Session} {d : Int64} {k : Unit → Tx TxResult} :
      s.tx = .op (.sleep d) k → Step s { s with tx := k () }
  | toRx {s : Session} {seg rest : List UInt8} :
      seg ≠ [] → s.fwd = seg ++ rest →
        Step s { s with fwd := rest, rxIn := ⟨s.rxIn.bytes ++ seg, s.rxIn.ending⟩ }
  | toTx {s : Session} {seg rest : List UInt8} :
      seg ≠ [] → s.bwd = seg ++ rest →
        Step s { s with bwd := rest, txIn := ⟨s.txIn.bytes ++ seg, s.txIn.ending⟩ }
  | reply {s : Session} {f : Frame} :
      s.rx = none → (s.rxRun json hashPage).replies[s.replied]? = some f →
        Step s { s with replied := s.replied + 1, bwd := s.bwd ++ f.encode }
  | rxReturn {s : Session} :
      s.rx = none → s.replied = (s.rxRun json hashPage).replies.length →
        (s.rxRun json hashPage).result ≠ .blocked →
        Step s { s with rx := some (s.rxRun json hashPage).result }
  -- A party that is done closes its side; the peer sees the end behind the last byte.
  | txHangUp {s : Session} {a : TxResult} :
      s.tx = .ret a → s.fwd = [] → s.rxIn.ending = .pending →
        Step s { s with rxIn := ⟨s.rxIn.bytes, .eof⟩ }
  | rxHangUp {s : Session} {r : RxResult} :
      s.rx = some r → s.bwd = [] → s.txIn.ending = .pending →
        Step s { s with txIn := ⟨s.txIn.bytes, .eof⟩ }

/-! ## Plans -/

/-- What the parties intend. -/
structure Plan where
  /-- the chunks up to the read -/
  hello : List (List UInt8)
  /-- the receiver's answer, and how the transmitter goes on with it -/
  answer : Frame
  next : Except GoErr Frame → Tx TxResult
  /-- the chunks after it -/
  rest : List (List UInt8)
  sent : TxResult
  received : RxResult
  answer_fits : answer.Fits
  sends : Sends (next (.ok answer)) rest sent
  greeted : (receiveOne json hashPage none ⟨hello.flatten, .pending⟩).replies = [answer]
  whole : ∀ e, receiveOne json hashPage none ⟨hello.flatten ++ rest.flatten, e⟩
    = ⟨[answer], received⟩
  returned : received ≠ .blocked

variable {json} {hashPage}

namespace Plan

/-- All the transmitter sends. -/
def wire (P : Plan json hashPage) : List UInt8 := P.hello.flatten ++ P.rest.flatten

/-- Where the transmitter is: the chunks it has still to write, and whether the answer is still to
be read. -/
inductive Phase (P : Plan json hashPage) : Tx TxResult → List (List UInt8) → Bool → Prop where
  | asking {tx : Tx TxResult} {out : List (List UInt8)} :
      Asks tx out P.next → Phase P tx (out ++ P.rest) true
  | sending {tx : Tx TxResult} {out : List (List UInt8)} :
      Sends tx out P.sent → Phase P tx out false

/-- The steps a session has left, at most. -/
def rank (P : Plan json hashPage) (s : Session) (todo : List (List UInt8)) (unread : Bool) : Nat :=
  todo.length + todo.flatten.length + s.fwd.length + s.bwd.length
    + (if s.replied = 0 then P.answer.encode.length + 1 else 0)
    + (if unread then 1 else 0) + (if s.rx = none then 1 else 0)
    + (if s.rxIn.ending = .pending then 1 else 0) + (if s.txIn.ending = .pending then 1 else 0)

/-- The session is on plan, with `n` steps to go. -/
structure On (P : Plan json hashPage) (s : Session) (todo : List (List UInt8)) (unread : Bool) :
    Prop where
  phase : P.Phase s.tx todo unread
  forward : s.rxIn.bytes ++ s.fwd ++ todo.flatten = P.wire
  backward : s.txIn.bytes ++ s.bwd =
    if unread = true ∧ s.replied = 1 then P.answer.encode else []
  answered : unread = false → s.replied = 1
  replied : s.replied ≤ 1
  ackErr : s.ackErr = none
  rxEnd : s.rxIn.ending = .pending ∨ s.rxIn.bytes = P.wire
  txEnd : s.txIn.ending = .pending ∨ s.rx ≠ none ∧ s.bwd = []
  rx : s.rx = none ∨ s.rx = some P.received ∧ s.replied = 1

/-- The invariant, with its rank. -/
def Inv (P : Plan json hashPage) (s : Session) (n : Nat) : Prop :=
  ∃ todo unread, P.On s todo unread ∧ n = P.rank s todo unread

variable {P : Plan json hashPage} {s s' : Session} {todo : List (List UInt8)} {unread : Bool}

/-- As long as bytes are missing, the receiver stands where the plan has it. -/
theorem On.rxRun (h : P.On s todo unread) :
    (s.rxRun json hashPage).replies <+: [P.answer] ∧
    ((s.rxRun json hashPage).result ≠ .blocked →
      s.rxRun json hashPage = ⟨[P.answer], P.received⟩) := by
  have hwhole : s.rxIn.bytes ++ (s.fwd ++ todo.flatten) = P.wire := by
    rw [← List.append_assoc]; exact h.forward
  rw [Session.rxRun, h.ackErr]
  rcases h.rxEnd with hend | hall
  · obtain ⟨p, e⟩ : ∃ p, s.rxIn = ⟨p, .pending⟩ := ⟨s.rxIn.bytes, by rw [← hend]⟩
    rw [e] at hwhole ⊢
    constructor
    · have hpre : (receiveOne json hashPage none ⟨p, .pending⟩).replies
          <+: (receiveOne json hashPage none ⟨p ++ (s.fwd ++ todo.flatten), .pending⟩).replies :=
        receiveOne_replies_prefix _ _
      rwa [hwhole, wire, P.whole] at hpre
    · intro hdone
      rw [← receiveOne_append (e := .pending) p (s.fwd ++ todo.flatten) hdone, hwhole, wire,
        P.whole]
  · have hin : s.rxIn = ⟨P.wire, s.rxIn.ending⟩ := by rw [← hall]
    rw [hin, wire, P.whole]
    exact ⟨List.prefix_rfl, fun _ => rfl⟩

/-! ## Every step keeps to the plan -/

/-- `s'` is on plan too, with fewer steps to go. -/
def Progress (P : Plan json hashPage) (s : Session) (todo : List (List UInt8)) (unread : Bool)
    (s' : Session) : Prop :=
  ∃ todo' unread', P.On s' todo' unread' ∧ P.rank s' todo' unread' < P.rank s todo unread

theorem On.txWrite {bs : List UInt8} {k : Written → Tx TxResult} (h : P.On s todo unread)
    (htx : s.tx = .op (.write bs) k) :
    P.Progress s todo unread { s with tx := k ⟨bs.length, none⟩, fwd := s.fwd ++ bs } := by
  have hfwd := h.forward
  have hphase : ∃ todo', todo = bs :: todo' ∧ P.Phase (k ⟨bs.length, none⟩) todo' unread := by
    cases h.phase with
    | asking hasks =>
        rw [htx] at hasks
        cases hasks with
        | write hasks => exact ⟨_, rfl, .asking hasks⟩
    | sending hsends =>
        rw [htx] at hsends
        cases hsends with
        | write hsends => exact ⟨_, rfl, .sending hsends⟩
  obtain ⟨todo', rfl, hphase⟩ := hphase
  refine ⟨todo', unread, { h with phase := hphase, forward := ?_ }, ?_⟩
  · simpa only [List.flatten_cons, List.append_assoc] using hfwd
  · simp only [rank, List.length_cons, List.flatten_cons, List.length_append]
    omega

/-- A transmitter about to read has sent all of its greeting and nothing else. -/
theorem On.asking {k : Except GoErr Frame → Tx TxResult} (h : P.On s todo unread)
    (htx : s.tx = .op .readFrame k) : k = P.next ∧ todo = P.rest ∧ unread = true := by
  cases h.phase with
  | asking hasks =>
      rw [htx] at hasks
      cases hasks with
      | read k => exact ⟨rfl, rfl, rfl⟩
  | sending hsends =>
      rw [htx] at hsends
      cases hsends

/-- What it reads is the planned answer, and nothing is behind that. -/
theorem On.read_answer {f : Frame} {rest : Stream} (h : P.On s todo true)
    (hread : readFrom s.txIn = .ok f rest) :
    f = P.answer ∧ rest.bytes = [] ∧ s.bwd = [] ∧ s.replied = 1 := by
  obtain ⟨hfits, hbytes, -⟩ := readFrom_ok hread
  have hback := h.backward
  rw [hbytes, List.append_assoc] at hback
  split at hback
  · rename_i hone
    have h₁ := readFrom_encode hfits (rest.bytes ++ s.bwd) .pending
    have h₂ := readFrom_encode P.answer_fits [] .pending
    rw [hback] at h₁
    rw [List.append_nil, h₁] at h₂
    obtain ⟨rfl, hrest⟩ := ReadRes.ok.inj h₂
    obtain ⟨hr, hb⟩ := List.append_eq_nil_iff.mp (Stream.mk.inj hrest).1
    exact ⟨rfl, hr, hb, hone.2⟩
  · exact absurd (List.append_eq_nil_iff.mp hback).1 f.encode_ne_nil

theorem On.txRead {k : Except GoErr Frame → Tx TxResult} {f : Frame} {rest : Stream}
    (h : P.On s todo unread) (htx : s.tx = .op .readFrame k)
    (hread : readFrom s.txIn = .ok f rest) :
    P.Progress s todo unread { s with tx := k (.ok f), txIn := rest } := by
  obtain ⟨rfl, rfl, rfl⟩ := h.asking htx
  obtain ⟨rfl, hrest, hbwd, hone⟩ := h.read_answer hread
  have hend : rest.ending = s.txIn.ending := (readFrom_ok hread).2.2
  refine ⟨P.rest, false, { h with
    phase := .sending P.sends
    backward := by simp only [hrest, hbwd]; rfl
    answered := fun _ => hone
    txEnd := hend ▸ h.txEnd }, ?_⟩
  simp only [rank, hend, if_true, Bool.false_eq_true, if_false]
  omega

/-- The read does not fail either: by the time the receiver hangs up, the answer has arrived. -/
theorem On.not_txReadErr {k : Except GoErr Frame → Tx TxResult} {e : GoErr}
    (h : P.On s todo unread) (htx : s.tx = .op .readFrame k) : readFrom s.txIn ≠ .err e := by
  obtain ⟨rfl, rfl, rfl⟩ := h.asking htx
  intro hread
  rcases h.txEnd with hend | ⟨hrx, hbwd⟩
  · rw [show s.txIn = ⟨s.txIn.bytes, .pending⟩ by rw [← hend]] at hread
    exact readFrom_pending hread
  · have hone : s.replied = 1 := (h.rx.resolve_left hrx).2
    have hback := h.backward
    rw [if_pos ⟨rfl, hone⟩, hbwd, List.append_nil] at hback
    have hanswer := readFrom_encode P.answer_fits [] s.txIn.ending
    rw [List.append_nil, ← hback] at hanswer
    exact nomatch hread.symm.trans hanswer

theorem On.not_txSleep {d : Int64} {k : Unit → Tx TxResult} (h : P.On s todo unread) :
    s.tx ≠ .op (.sleep d) k := by
  intro htx
  cases h.phase with
  | asking hasks => rw [htx] at hasks; cases hasks
  | sending hsends => rw [htx] at hsends; cases hsends

theorem On.toRx {seg rest : List UInt8} (h : P.On s todo unread) (hseg : seg ≠ [])
    (hfwd : s.fwd = seg ++ rest) : P.Progress s todo unread
      { s with fwd := rest, rxIn := ⟨s.rxIn.bytes ++ seg, s.rxIn.ending⟩ } := by
  have hforward := h.forward
  refine ⟨todo, unread, { h with
    forward := by rw [hfwd] at hforward; simpa only [List.append_assoc] using hforward
    rxEnd := Or.inl ?_ }, ?_⟩
  · rcases h.rxEnd with hend | hall
    · exact hend
    · -- Nothing can be in flight behind the last byte.
      rw [hall, List.append_assoc, List.append_right_eq_self, hfwd] at hforward
      exact absurd (List.append_eq_nil_iff.mp (List.append_eq_nil_iff.mp hforward).1).1 hseg
  · have := List.length_pos_of_ne_nil hseg
    simp only [rank, hfwd, List.length_append]
    omega

theorem On.toTx {seg rest : List UInt8} (h : P.On s todo unread) (hseg : seg ≠ [])
    (hbwd : s.bwd = seg ++ rest) : P.Progress s todo unread
      { s with bwd := rest, txIn := ⟨s.txIn.bytes ++ seg, s.txIn.ending⟩ } := by
  have hback := h.backward
  refine ⟨todo, unread, { h with
    backward := by rw [hbwd] at hback; simpa only [List.append_assoc] using hback
    txEnd := Or.inl ?_ }, ?_⟩
  · rcases h.txEnd with hend | ⟨-, hnil⟩
    · exact hend
    · exact absurd (List.append_eq_nil_iff.mp (hbwd.symm.trans hnil)).1 hseg
  · have := List.length_pos_of_ne_nil hseg
    simp only [rank, hbwd, List.length_append]
    omega

theorem On.reply {f : Frame} (h : P.On s todo unread) (hrx : s.rx = none)
    (hf : (s.rxRun json hashPage).replies[s.replied]? = some f) :
    P.Progress s todo unread { s with replied := s.replied + 1, bwd := s.bwd ++ f.encode } := by
  -- The only reply there can be is the answer, so this is the first.
  have hf' : [P.answer][s.replied]? = some f := by
    obtain ⟨hlt, hget⟩ := List.getElem?_eq_some_iff.mp hf
    rw [List.prefix_iff_getElem?.mp h.rxRun.1 _ hlt, hget]
  obtain ⟨hzero, rfl⟩ : s.replied = 0 ∧ f = P.answer := by
    rw [List.getElem?_singleton] at hf'
    split at hf'
    · rename_i hz; exact ⟨hz, (Option.some.inj hf').symm⟩
    · exact nomatch hf'
  obtain rfl : unread = true := by
    cases unread with
    | true => rfl
    | false => have := h.answered rfl; omega
  have hback := h.backward
  rw [if_neg (fun hc => by omega)] at hback
  refine ⟨todo, true, { h with
    backward := ?_
    answered := fun hc => nomatch hc
    replied := by simp only; omega
    txEnd := Or.inl (h.txEnd.resolve_right fun hc => hc.1 hrx)
    rx := Or.inl hrx }, ?_⟩
  · simp only [hzero, ← List.append_assoc, hback, List.nil_append]
    rfl
  · simp only [rank, hzero, List.length_append, Nat.zero_add, Nat.one_ne_zero, if_true, if_false]
    omega

theorem On.rxReturn (h : P.On s todo unread) (hrx : s.rx = none)
    (hreplied : s.replied = (s.rxRun json hashPage).replies.length)
    (hdone : (s.rxRun json hashPage).result ≠ .blocked) :
    P.Progress s todo unread { s with rx := some (s.rxRun json hashPage).result } := by
  have hrun := h.rxRun.2 hdone
  rw [hrun] at hreplied ⊢
  refine ⟨todo, unread, { h with
    txEnd := Or.inl (h.txEnd.resolve_right fun hc => hc.1 hrx)
    rx := Or.inr ⟨rfl, hreplied⟩ }, ?_⟩
  simp only [rank, hrx, reduceCtorEq, if_true, if_false]
  omega

theorem On.txHangUp {a : TxResult} (h : P.On s todo unread) (htx : s.tx = .ret a)
    (hfwd : s.fwd = []) (hend : s.rxIn.ending = .pending) :
    P.Progress s todo unread { s with rxIn := ⟨s.rxIn.bytes, .eof⟩ } := by
  obtain rfl : todo = [] := by
    cases h.phase with
    | asking hasks => rw [htx] at hasks; cases hasks
    | sending hsends =>
        rw [htx] at hsends
        cases hsends with
        | ret a => rfl
  have hforward := h.forward
  rw [hfwd, List.flatten_nil, List.append_nil, List.append_nil] at hforward
  refine ⟨[], unread, { h with rxEnd := Or.inr hforward }, ?_⟩
  simp only [rank, hend, reduceCtorEq, if_true, if_false]
  omega

theorem On.rxHangUp {r : RxResult} (h : P.On s todo unread) (hrx : s.rx = some r)
    (hbwd : s.bwd = []) (hend : s.txIn.ending = .pending) :
    P.Progress s todo unread { s with txIn := ⟨s.txIn.bytes, .eof⟩ } := by
  refine ⟨todo, unread, { h with
    txEnd := Or.inr ⟨by rw [hrx]; exact (nomatch ·), hbwd⟩ }, ?_⟩
  simp only [rank, hend, reduceCtorEq, if_true, if_false]
  omega

/-- The step lemma. -/
theorem ranked (P : Plan json hashPage) : Ranked (Session.Step json hashPage) P.Inv := by
  rintro s s' n ⟨todo, unread, h, rfl⟩ hstep
  have hprogress : P.Progress s todo unread s' := by
    cases hstep with
    | txWrite htx => exact h.txWrite htx
    | txRead htx hread => exact h.txRead htx hread
    | txReadErr htx hread => exact absurd hread (h.not_txReadErr htx)
    | txSleep htx => exact absurd htx h.not_txSleep
    | toRx hseg hfwd => exact h.toRx hseg hfwd
    | toTx hseg hbwd => exact h.toTx hseg hbwd
    | reply hrx hf => exact h.reply hrx hf
    | rxReturn hrx hreplied hdone => exact h.rxReturn hrx hreplied hdone
    | txHangUp htx hfwd hend => exact h.txHangUp htx hfwd hend
    | rxHangUp hrx hbwd hend => exact h.rxHangUp hrx hbwd hend
  obtain ⟨todo', unread', hon, hlt⟩ := hprogress
  exact ⟨_, hlt, todo', unread', hon, rfl⟩

/-- A connection just made is on plan. -/
theorem start (P : Plan json hashPage) {tx : Tx TxResult} (hasks : Asks tx P.hello P.next) :
    P.On (Session.start tx) (P.hello ++ P.rest) true where
  phase := .asking hasks
  forward := by simp only [Session.start, List.nil_append, List.flatten_append, wire]
  backward := rfl
  answered := fun hc => nomatch hc
  replied := Nat.zero_le _
  ackErr := rfl
  rxEnd := Or.inl rfl
  txEnd := Or.inl rfl
  rx := Or.inl rfl

section Stuck

variable (hstuck : ∀ s', ¬ Session.Step json hashPage s s')
include hstuck

/-- Where no step can be taken the receiver has sent the answer that its run holds. -/
theorem On.stuck_replied (h : P.On s todo unread) (hrx : s.rx = none)
    (hrep : (s.rxRun json hashPage).replies = [P.answer]) : s.replied = 1 := by
  by_contra hne
  have hzero : s.replied = 0 := by have := h.replied; omega
  exact hstuck _ (.reply (f := P.answer) hrx (by rw [hrep, hzero]; rfl))

/-- And it has returned, if its run is the one that was planned. -/
theorem On.stuck_returned (h : P.On s todo unread)
    (hrun : s.rxRun json hashPage = ⟨[P.answer], P.received⟩) : s.rx = some P.received := by
  rcases h.rx with hrx | ⟨hrx, -⟩
  · refine absurd (.rxReturn hrx ?_ (by rw [hrun]; exact P.returned)) (hstuck _)
    rw [h.stuck_replied hstuck hrx (by rw [hrun]), hrun]
    rfl
  · exact hrx

/-- A session on plan in which no step can be taken is over on both sides. -/
theorem On.stuck (h : P.On s todo unread) : s.tx = .ret P.sent ∧ s.rx = some P.received := by
  have hfwd : s.fwd = [] := by
    by_contra hne
    exact hstuck _ (.toRx hne (List.append_nil _).symm)
  have hbwd : s.bwd = [] := by
    by_contra hne
    exact hstuck _ (.toTx hne (List.append_nil _).symm)
  have hforward := h.forward
  cases htx : s.tx with
  | ret a =>
      have hphase := h.phase
      rw [htx] at hphase
      cases hphase with
      | asking hasks => cases hasks
      | sending hsends =>
          cases hsends with
          | ret a =>
              rw [hfwd, List.append_nil, List.flatten_nil, List.append_nil] at hforward
              refine ⟨rfl, h.stuck_returned hstuck ?_⟩
              have hin : s.rxIn = ⟨P.wire, s.rxIn.ending⟩ := by rw [← hforward]
              rw [Session.rxRun, h.ackErr, hin, wire, P.whole]
  | op e k =>
      exfalso
      cases e with
      | write bs => exact hstuck _ (.txWrite htx)
      | sleep d => exact hstuck _ (.txSleep htx)
      | readFrame =>
          obtain ⟨rfl, rfl, rfl⟩ := h.asking htx
          rw [hfwd, List.append_nil, wire, List.append_left_inj] at hforward
          have hback := h.backward
          rw [hbwd, List.append_nil] at hback
          -- Nobody can be waiting: the answer is there to be read.
          have hone : s.replied = 1 := by
            rcases h.rx with hrx | ⟨-, hone⟩
            · refine h.stuck_replied hstuck hrx ?_
              rcases h.rxEnd with hend | hall
              · have hin : s.rxIn = ⟨P.hello.flatten, .pending⟩ := by rw [← hforward, ← hend]
                rw [Session.rxRun, h.ackErr, hin, P.greeted]
              · have hin : s.rxIn = ⟨P.wire, s.rxIn.ending⟩ := by rw [← hall]
                rw [Session.rxRun, h.ackErr, hin, wire, P.whole]
            · exact hone
          rw [if_pos ⟨rfl, hone⟩] at hback
          have hanswer := readFrom_encode P.answer_fits [] s.txIn.ending
          rw [List.append_nil, ← hback] at hanswer
          exact hstuck _ (.txRead htx hanswer)

end Stuck

/-- A transmitter that is done returns what was planned. -/
theorem On.tx_ret {a : TxResult} (h : P.On s todo unread) (htx : s.tx = .ret a) : a = P.sent := by
  have hphase := h.phase
  rw [htx] at hphase
  cases hphase with
  | asking hasks => cases hasks
  | sending hsends =>
      cases hsends with
      | ret a => rfl

end Plan

/-! ## How a session ends -/

section Settles

variable (json) (hashPage)

/-- Sender and receiver end in `sent` and `received`, whatever the schedule: no run goes on for
ever, what a party returns is never anything else, and where no step is left both have returned. -/
structure Settles (start : Session) (sent : TxResult → Prop) (received : RxResult → Prop) :
    Prop where
  finite : ∀ run : Nat → Session, run 0 = start →
    ¬ ∀ t, Session.Step json hashPage (run t) (run (t + 1))
  safe : ∀ s, Reach (Session.Step json hashPage) start s →
    (∀ a, s.tx = .ret a → sent a) ∧ (∀ r, s.rx = some r → received r)
  live : ∀ s, Reach (Session.Step json hashPage) start s →
    (∀ s', ¬ Session.Step json hashPage s s') →
      (∃ a, s.tx = .ret a) ∧ (∃ r, s.rx = some r)

variable {json} {hashPage}

theorem Plan.settles (P : Plan json hashPage) {tx : Tx TxResult} (hasks : Asks tx P.hello P.next) :
    Settles json hashPage (.start tx) (· = P.sent) (· = P.received) := by
  have hinv : P.Inv (.start tx) _ := ⟨_, _, P.start hasks, rfl⟩
  refine ⟨fun run hrun => P.ranked.no_infinite_run _ run (hrun ▸ hinv), fun s hs => ?_,
    fun s hs hstuck => ?_⟩
  · obtain ⟨-, todo, unread, hon, -⟩ := P.ranked.reach hinv hs
    refine ⟨fun a => hon.tx_ret, fun r hr => ?_⟩
    rcases hon.rx with hrx | ⟨hrx, -⟩
    · exact nomatch hr.symm.trans hrx
    · exact Option.some.inj (hr.symm.trans hrx)
  · obtain ⟨-, todo, unread, hon, -⟩ := P.ranked.reach hinv hs
    obtain ⟨htx, hrx⟩ := hon.stuck hstuck
    exact ⟨⟨_, htx⟩, ⟨_, hrx⟩⟩

/-- The end both are to come to can be reached. -/
theorem Plan.reach_end (P : Plan json hashPage) {tx : Tx TxResult}
    (hasks : Asks tx P.hello P.next) :
    ∃ s, Reach (Session.Step json hashPage) (.start tx) s ∧ s.tx = .ret P.sent ∧
      s.rx = some P.received := by
  have hinv : P.Inv (.start tx) _ := ⟨_, _, P.start hasks, rfl⟩
  obtain ⟨s, hreach, hstuck⟩ := P.ranked.exists_stuck _ _ hinv
  obtain ⟨-, todo, unread, hon, -⟩ := P.ranked.reach hinv hreach
  exact ⟨s, hreach, hon.stuck hstuck⟩

theorem Settles.mono {start : Session} {sent sent' : TxResult → Prop} {rcvd rcvd' : RxResult → Prop}
    (h : Settles json hashPage start sent rcvd) (hs : ∀ a, sent a → sent' a)
    (hr : ∀ r, rcvd r → rcvd' r) : Settles json hashPage start sent' rcvd' where
  finite := h.finite
  safe s hreach := ⟨fun a ha => hs a ((h.safe s hreach).1 a ha),
    fun r hr' => hr r ((h.safe s hreach).2 r hr')⟩
  live := h.live

end Settles

end Wraith.Transport

/-
# `Wraith.Transport.Sending` — what a run of the transmitter sends

A run of `SendSnapshot` for any peer and any failing writes, as long as a write attempt delivers its
frame whole or not at all (`Framed`).  Then the trace is a list of frames, failures, answers and
pauses, and each step of the code is a statement about the frames: one attempt (`writeTo_sent`), the
attempts for one block, the blocks, `MsgComplete`.  `sendSnapshot_transfer` says how a run can go.
-/
import Wraith.Transport.Transfer

namespace Wraith.Transport

open Lib Cmd

/-! ## Traces, frame by frame -/

/-- What happened, one frame at a time. -/
inductive Item where
  | delivered (f : Frame)
  | failed
  | received (answer : Except GoErr Frame)
  | slept

/-- The writes of a frame that goes out whole. -/
def wholeWrites (chunks : List (List UInt8)) : List (Event TxResp) :=
  chunks.map fun bs => ⟨.write bs, (⟨bs.length, none⟩ : Written)⟩

/-- Every attempt to write a frame in `tr` delivers it whole, or fails with its first write and
delivers nothing. -/
inductive Framed : List (Event TxResp) → List Item → Prop where
  | nil : Framed [] []
  | delivered {tr : List (Event TxResp)} {items : List Item} (f : Frame) :
      Framed tr items → Framed (wholeWrites f.chunks ++ tr) (.delivered f :: items)
  | failed {tr : List (Event TxResp)} {items : List Item} (typ : UInt32) (e : GoErr) :
      Framed tr items →
        Framed (⟨.write (beBytes 4 typ.toNat), (⟨0, some e⟩ : Written)⟩ :: tr) (.failed :: items)
  | received {tr : List (Event TxResp)} {items : List Item} (answer : Except GoErr Frame) :
      Framed tr items → Framed (⟨.readFrame, answer⟩ :: tr) (.received answer :: items)
  | slept {tr : List (Event TxResp)} {items : List Item} (d : Int64) :
      Framed tr items → Framed (⟨.sleep d, ()⟩ :: tr) (.slept :: items)

/-- The frames that went out. -/
def deliveredFrames : List Item → List Frame
  | [] => []
  | .delivered f :: items => f :: deliveredFrames items
  | _ :: items => deliveredFrames items

theorem deliveredFrames_append (items items' : List Item) :
    deliveredFrames (items ++ items') = deliveredFrames items ++ deliveredFrames items' := by
  induction items with
  | nil => rfl
  | cons item items ih =>
      cases item with
      | delivered f => exact congrArg (f :: ·) ih
      | _ => exact ih

/-! ## One frame -/

variable {α β : Type} {tr : List (Event TxResp)} {items : List Item} {a : α}

/-- A program that does not write next. -/
def Quiet (c : Tx α) : Prop := ∀ bs k, c ≠ .op (.write bs) k

theorem quiet_ret (a : α) : Quiet (.ret a) := fun _ _ h => nomatch h

theorem quiet_read (k : Except GoErr Frame → Tx α) : Quiet (.op .readFrame k) :=
  fun _ _ h => nomatch h

theorem Quiet.not_runs {c : Tx α} (h : Quiet c) {bs : List UInt8} {w : Written} :
    ¬ Runs c (⟨.write bs, w⟩ :: tr) a := by
  intro hr
  cases hr with
  | op r _ => exact h _ _ rfl

/-- The run delivers `fs` without reading a frame, and then goes on as `c`. -/
def Sent (fs : List Frame) (c : Tx α) (a : α) (items : List Item) : Prop :=
  ∃ pre items' tr', items = pre ++ items' ∧ (∀ answer, Item.received answer ∉ pre) ∧
    deliveredFrames pre = fs ∧ Framed tr' items' ∧ Runs c tr' a

theorem Sent.here {c : Tx α} (hframed : Framed tr items) (h : Runs c tr a) : Sent [] c a items :=
  ⟨[], items, tr, rfl, fun _ => List.not_mem_nil, rfl, hframed, h⟩

theorem Sent.after {fs fs' : List Frame} {c : Tx α} (pre : List Item) (h : Sent fs' c a items)
    (hpre : ∀ answer, Item.received answer ∉ pre) (hfs : deliveredFrames pre = fs) :
    Sent (fs ++ fs') c a (pre ++ items) := by
  obtain ⟨pre', items', tr', rfl, hpre', rfl, hframed, hr⟩ := h
  obtain rfl := hfs
  refine ⟨pre ++ pre', items', tr', (List.append_assoc ..).symm, fun answer hmem => ?_,
    deliveredFrames_append pre pre', hframed, hr⟩
  cases List.mem_append.mp hmem with
  | inl hmem => exact hpre answer hmem
  | inr hmem => exact hpre' answer hmem

/-- `f` was delivered and the program went on without an error, or it was not and the program went
on with one. -/
def Tried (f : Frame) (k : Option GoErr → Tx α) (a : α) (items : List Item) : Prop :=
  Sent [f] (k none) a items ∨ ∃ e, Sent [] (k (some e)) a items

/-- An attempt that comes after others, none of which delivered. -/
theorem Tried.after {f : Frame} {k : Option GoErr → Tx α} (pre : List Item)
    (h : Tried f k a items) (hpre : ∀ answer, Item.received answer ∉ pre)
    (hnone : deliveredFrames pre = []) : Tried f k a (pre ++ items) := by
  obtain h | ⟨e, h⟩ := h
  · exact Or.inl (h.after _ hpre hnone)
  · exact Or.inr ⟨e, h.after _ hpre hnone⟩

theorem not_mem_singleton {item : Item} (h : ∀ answer, Item.received answer ≠ item)
    (answer : Except GoErr Frame) : Item.received answer ∉ [item] :=
  fun hmem => h answer (List.mem_singleton.mp hmem)

/-- The last write of a frame, and how the attempt ends. -/
def writePayload (f : Frame) (k : Option GoErr → Tx α) : Tx α :=
  if f.payload.length > 0 then
    .op (.write f.payload) fun (w : Written) => match w.err with
      | some e => k (some (.wrapf "write frame payload" e))
      | none => k none
  else k none

theorem writeTo_bind (f : Frame) (k : Option GoErr → Tx α) : f.writeTo >>= k =
    .op (.write (beBytes 4 f.typ.toNat)) fun (w : Written) => match w.err with
      | some e => k (some (.wrapf "write frame type" e))
      | none => .op (.write (beBytes 4 (UInt32.ofNat f.payload.length).toNat))
          fun (w : Written) => match w.err with
            | some e => k (some (.wrapf "write frame length" e))
            | none => writePayload f k := by
  rw [Frame.writeTo]
  refine congrArg (Cmd.op _) (funext fun w => ?_)
  obtain ⟨n, _ | e⟩ := w
  · refine congrArg (Cmd.op _) (funext fun w => ?_)
    obtain ⟨n, _ | e⟩ := w
    · unfold writePayload
      simp only
      split
      · refine congrArg (Cmd.op _) (funext fun w => ?_)
        obtain ⟨n, _ | e⟩ := w
        · rfl
        · rfl
      · rfl
    · rfl
  · rfl

/-- What a trace starts with: a frame, a failed attempt, an answer or a pause. -/
theorem Framed.cons_cases {ev : Event TxResp} {items : List Item} (h : Framed (ev :: tr) items) :
    (∃ f items' rest, ev = ⟨.write (beBytes 4 f.typ.toNat), (⟨4, none⟩ : Written)⟩ ∧
      items = .delivered f :: items' ∧ tr = wholeWrites f.chunks.tail ++ rest ∧
        Framed rest items') ∨
    (∃ typ e items', ev = ⟨.write (beBytes 4 (UInt32.toNat typ)), (⟨0, some e⟩ : Written)⟩ ∧
      items = .failed :: items' ∧ Framed tr items') ∨
    (∃ answer items', ev = ⟨.readFrame, answer⟩ ∧ items = .received answer :: items' ∧
      Framed tr items') ∨
    ∃ d items', ev = ⟨.sleep d, ()⟩ ∧ items = .slept :: items' ∧ Framed tr items' := by
  generalize htr : ev :: tr = tr₀ at h
  cases h with
  | nil => exact nomatch htr
  | delivered f h =>
      rw [wholeWrites, Frame.chunks, List.map_cons, List.cons_append, beBytes_length] at htr
      obtain ⟨rfl, htail⟩ := List.cons.inj htr
      exact Or.inl ⟨f, _, _, rfl, rfl, htail, h⟩
  | failed typ e h =>
      obtain ⟨rfl, rfl⟩ := List.cons.inj htr
      exact Or.inr (Or.inl ⟨typ, e, _, rfl, rfl, h⟩)
  | received answer h =>
      obtain ⟨rfl, rfl⟩ := List.cons.inj htr
      exact Or.inr (Or.inr (Or.inl ⟨answer, _, rfl, rfl, h⟩))
  | slept d h =>
      obtain ⟨rfl, rfl⟩ := List.cons.inj htr
      exact Or.inr (Or.inr (Or.inr ⟨d, _, rfl, rfl, h⟩))

/-- What starts with a write is a frame, or a failed attempt. -/
theorem Framed.write_cases {bs : List UInt8} {w : Written} {items : List Item}
    (h : Framed (⟨.write bs, w⟩ :: tr) items) :
    (∃ f items' rest, bs = beBytes 4 f.typ.toNat ∧ w = ⟨4, none⟩ ∧ items = .delivered f :: items' ∧
      tr = wholeWrites f.chunks.tail ++ rest ∧ Framed rest items') ∨
    ∃ typ e items', bs = beBytes 4 (UInt32.toNat typ) ∧ w = ⟨0, some e⟩ ∧
      items = .failed :: items' ∧
      Framed tr items' := by
  obtain ⟨f, items', rest, hev, hrest⟩ | ⟨typ, e, items', hev, hrest⟩ | ⟨_, _, hev, _⟩ |
    ⟨_, _, hev, _⟩ := h.cons_cases
  · obtain ⟨hop, hw⟩ := Sigma.mk.inj hev
    exact Or.inl ⟨f, items', rest, TxOp.write.inj hop, eq_of_heq hw, hrest⟩
  · obtain ⟨hop, hw⟩ := Sigma.mk.inj hev
    exact Or.inr ⟨typ, e, items', TxOp.write.inj hop, eq_of_heq hw, hrest⟩
  · exact nomatch (Sigma.mk.inj hev).1
  · exact nomatch (Sigma.mk.inj hev).1

theorem Framed.sleep_cases {d : Int64} {items : List Item}
    (h : Framed (⟨.sleep d, ()⟩ :: tr) items) :
    ∃ items', items = .slept :: items' ∧ Framed tr items' := by
  obtain ⟨_, _, _, hev, _⟩ | ⟨_, _, _, hev, _⟩ | ⟨_, _, hev, _⟩ | ⟨_, items', _, hrest⟩ :=
    h.cons_cases
  · exact nomatch (Sigma.mk.inj hev).1
  · exact nomatch (Sigma.mk.inj hev).1
  · exact nomatch (Sigma.mk.inj hev).1
  · exact ⟨items', hrest⟩

theorem Framed.read_cases {answer : Except GoErr Frame} {items : List Item}
    (h : Framed (⟨.readFrame, answer⟩ :: tr) items) :
    ∃ items', items = .received answer :: items' ∧ Framed tr items' := by
  obtain ⟨_, _, _, hev, _⟩ | ⟨_, _, _, hev, _⟩ | ⟨_, items', hev, hrest⟩ | ⟨_, _, hev, _⟩ :=
    h.cons_cases
  · exact nomatch (Sigma.mk.inj hev).1
  · exact nomatch (Sigma.mk.inj hev).1
  · obtain rfl := eq_of_heq (Sigma.mk.inj hev).2
    exact ⟨items', hrest⟩
  · exact nomatch (Sigma.mk.inj hev).1

theorem beBytes_inj {m n : Nat} (hm : m < 2 ^ 32) (hn : n < 2 ^ 32)
    (h : beBytes 4 m = beBytes 4 n) : m = n := by
  have := congrArg beNat h
  rwa [beNat_beBytes_of_lt hm, beNat_beBytes_of_lt hn] at this

/-- A payload whose length field is 0 is no frame type. -/
theorem payload_not_type {f : Frame} {n : Nat} (hlen : (UInt32.ofNat f.payload.length).toNat = 0) :
    f.payload ≠ beBytes 4 n := by
  intro h
  rw [h, beBytes_length] at hlen
  exact absurd hlen (by decide)

/-- The payload of a frame whose type and length went out as those of `f'`. -/
theorem writePayload_sent {f f' : Frame} {k : Option GoErr → Tx α} {rest : List (Event TxResp)}
    (hf : f.payload ≠ [] ∨ Quiet (k none)) (htyp : f.typ = f'.typ)
    (hlen : UInt32.ofNat f.payload.length = UInt32.ofNat f'.payload.length)
    (h : Runs (writePayload f k)
      (wholeWrites (if f'.payload.length > 0 then [f'.payload] else []) ++ rest) a)
    (hrest : Framed rest items) : Sent [f] (k none) a (.delivered f' :: items) := by
  have hsent : Runs (k none) rest a → f = f' → Sent [f] (k none) a (.delivered f' :: items) := by
    rintro hr rfl
    exact (Sent.here hrest hr).after [.delivered f]
      (not_mem_singleton fun _ => Item.noConfusion) rfl
  have heq : f.payload = f'.payload → f = f' := fun h => by
    obtain ⟨typ, payload⟩ := f
    obtain rfl : typ = f'.typ := htyp
    obtain rfl : payload = f'.payload := h
    rfl
  unfold writePayload at h
  split at h
  case isTrue hpos =>
    obtain ⟨w, tr', htr, hr⟩ := runs_op.mp h
    split at htr
    case isTrue hpos' =>
      obtain ⟨hhead, rfl⟩ := List.cons.inj htr
      obtain ⟨hop, hw⟩ := Sigma.mk.inj hhead
      obtain rfl := eq_of_heq hw
      exact hsent hr (heq (TxOp.write.inj hop).symm)
    case isFalse hzero =>
      -- The payload would have to go out as the type of another frame.
      have hwrap : (UInt32.ofNat f.payload.length).toNat = 0 := by
        rw [hlen, List.eq_nil_of_length_eq_zero (Nat.eq_zero_of_not_pos hzero)]
        rfl
      have hnext : rest = ⟨.write f.payload, w⟩ :: tr' := htr
      rw [hnext] at hrest
      obtain ⟨f'', -, -, htyp', -⟩ | ⟨typ, -, -, htyp', -⟩ := hrest.write_cases
      · exact absurd htyp' (payload_not_type hwrap)
      · exact absurd htyp' (payload_not_type hwrap)
  case isFalse hzero =>
    have hnil : f.payload = [] := List.eq_nil_of_length_eq_zero (Nat.eq_zero_of_not_pos hzero)
    split at h
    case isTrue hpos' =>
      exact absurd h (hf.resolve_left fun hne => hne hnil).not_runs
    case isFalse hzero' =>
      refine hsent h (heq ?_)
      rw [hnil, List.eq_nil_of_length_eq_zero (Nat.eq_zero_of_not_pos hzero')]

theorem writeTo_sent {f : Frame} {k : Option GoErr → Tx α} (hf : f.payload ≠ [] ∨ Quiet (k none))
    (h : Runs (f.writeTo >>= k) tr a) (hframed : Framed tr items) :
    Tried f k a items := by
  rw [writeTo_bind] at h
  obtain ⟨w, tr₁, rfl, h₁⟩ := runs_op.mp h
  obtain ⟨f', items', rest, htyp, rfl, rfl, rfl, hrest⟩ | ⟨typ, e, items', -, rfl, rfl, hrest⟩ :=
    hframed.write_cases
  · obtain ⟨w, tr₂, htr₂, h₂⟩ := runs_op.mp h₁
    obtain ⟨hhead, rfl⟩ := List.cons.inj htr₂
    obtain ⟨hop, hw⟩ := Sigma.mk.inj hhead
    obtain rfl := eq_of_heq hw
    have hlen := beBytes_inj (UInt32.toNat_lt _) (UInt32.toNat_lt _) (TxOp.write.inj hop)
    exact Or.inl (writePayload_sent hf
      (UInt32.toNat_inj.mp (beBytes_inj (UInt32.toNat_lt _) (UInt32.toNat_lt _) htyp))
      (UInt32.toNat_inj.mp hlen).symm h₂ hrest)
  · exact Or.inr ⟨_, (Sent.here hrest h₁).after [.failed]
      (not_mem_singleton fun _ => Item.noConfusion) rfl⟩

/-! ## One block, and all of them -/

theorem DataBlock.frame_payload_ne_nil (block : DataBlock) : block.frame.payload ≠ [] := by
  intro h
  have hlen := block.payload_length
  rw [show block.payload = [] from h, List.length_nil] at hlen
  omega

/-- The attempts for one block: it is delivered once, or an error is returned. -/
theorem sendAttempts_tried (block : DataBlock) {k : Option GoErr → Tx α} :
    ∀ (left attempt : Nat) (lastErr : Option GoErr) {tr : List (Event TxResp)} {items : List Item},
      (left = 0 → lastErr ≠ none) →
      Runs (sendAttempts block attempt left lastErr >>= k) tr a → Framed tr items →
      Tried block.frame k a items
  | 0, attempt, lastErr, tr, items, hlast, h, hframed => by
      obtain ⟨e, rfl⟩ := Option.ne_none_iff_exists'.mp (hlast rfl)
      exact Or.inr ⟨e, .here hframed h⟩
  | left + 1, attempt, lastErr, tr, items, _, h, hframed => by
      rw [sendAttempts, bind_assoc] at h
      obtain hsent | ⟨e, pre, items', tr', rfl, hpre, hnone, hframed', hr⟩ :=
        writeTo_sent (Or.inl block.frame_payload_ne_nil) h hframed
      · exact Or.inl hsent
      · refine Tried.after _ ?_ hpre hnone
        have hlast : left = 0 → some e ≠ none := fun _ => Option.some_ne_none e
        by_cases hleft : 0 < left
        · simp only [hleft, if_true] at hr
          obtain ⟨⟨⟩, tr'', rfl, hagain⟩ := runs_op.mp hr
          obtain ⟨items'', rfl, hframed''⟩ := hframed'.sleep_cases
          exact (sendAttempts_tried block left (attempt + 1) (some e) hlast hagain hframed'').after
            [.slept] (not_mem_singleton fun _ => Item.noConfusion) rfl
        · simp only [hleft, if_false] at hr
          exact sendAttempts_tried block left (attempt + 1) (some e) hlast hr hframed'

variable {json : Json} {hashPage : List UInt8 → UInt64} {data : List UInt8}
  {opts : TransferOptions} {maxRetries : Int}

/-- The blocks at `offsets`, in order, up to one that could not be delivered. -/
theorem sendPages_sent (h0 : 0 ≤ maxRetries) {k : TransferStats × Option GoErr → Tx α} :
    ∀ (offsets : List Nat) (stats : TransferStats) {tr : List (Event TxResp)} {items : List Item},
      Runs (sendPages hashPage data maxRetries offsets stats >>= k) tr a → Framed tr items →
      Sent (offsets.map fun offset => (blockAt hashPage data offset).frame)
        (k (offsets.foldl (countPage data) stats, none)) a items ∨
      ∃ n e, n < offsets.length ∧
        Sent ((offsets.take n).map fun offset => (blockAt hashPage data offset).frame)
          (k ((offsets.take n).foldl (countPage data) stats, some e)) a items
  | [], stats, tr, items, h, hframed => Or.inl (.here hframed h)
  | offset :: offsets, stats, tr, items, h, hframed => by
      rw [sendPages, bind_assoc, sendBlockWithRetry] at h
      have hattempts : (maxRetries + 1).toNat = 0 → (none : Option GoErr) ≠ none := by omega
      obtain ⟨pre, items', tr', rfl, hpre, hone, hframed', hr⟩ | ⟨e, hsent⟩ :=
        sendAttempts_tried _ _ _ _ hattempts h hframed
      · obtain hsent | ⟨n, e, hn, hsent⟩ := sendPages_sent h0 offsets _ hr hframed'
        · exact Or.inl (hsent.after _ hpre hone)
        · exact Or.inr ⟨n + 1, e, Nat.succ_lt_succ hn, hsent.after _ hpre hone⟩
      · exact Or.inr ⟨0, _, Nat.succ_pos _, hsent⟩

/-- Without attempts every block passes for sent. -/
theorem sendPages_negative (h0 : maxRetries < 0) : ∀ (offsets : List Nat) (stats : TransferStats),
    sendPages hashPage data maxRetries offsets stats =
      .ret (offsets.foldl (countPage data) stats, none)
  | [], stats => rfl
  | offset :: offsets, stats => by
      rw [sendPages, sendBlockWithRetry, Int.toNat_eq_zero.mpr (by omega : maxRetries + 1 ≤ 0)]
      exact sendPages_negative h0 offsets _

/-! ## A whole transfer -/

theorem Framed.of_nil {items : List Item} (h : Framed [] items) : items = [] := by
  generalize htr : ([] : List (Event TxResp)) = tr₀ at h
  cases h with
  | nil => rfl
  | delivered f h => exact nomatch htr
  | failed typ e h => exact nomatch htr
  | received answer h => exact nomatch htr
  | slept d h => exact nomatch htr

theorem Sent.ended {fs : List Frame} {b : α} (h : Sent fs (.ret b) a items) :
    deliveredFrames items = fs ∧ (∀ answer, Item.received answer ∉ items) ∧ a = b := by
  obtain ⟨pre, items', tr', rfl, hpre, rfl, hframed, hr⟩ := h
  obtain ⟨rfl, rfl⟩ := runs_ret.mp hr
  obtain rfl := hframed.of_nil
  rw [List.append_nil]
  exact ⟨rfl, hpre, rfl⟩

def completeFrame : Frame := ⟨msgComplete, []⟩

/-- The pages that are attempted. -/
def attemptedBlocks (hashPage : List UInt8 → UInt64) (data : List UInt8) (maxRetries : Int) :
    List DataBlock :=
  if 0 ≤ maxRetries then pageBlocks hashPage data else []

/-- The stats after the first `n` pages. -/
def statsAfter (data : List UInt8) (n : Nat) : TransferStats :=
  ((pageOffsets data).take n).foldl (countPage data) (initialStats data)

/-- How the data phase can end. -/
inductive DataPhase (hashPage : List UInt8 → UInt64) (data : List UInt8) (maxRetries : Int) :
    List Frame → TransferStats → Option GoErr → Prop where
  | stopped (n : Nat) (e : GoErr) : 0 ≤ maxRetries → n < (pageBlocks hashPage data).length →
      DataPhase hashPage data maxRetries (((pageBlocks hashPage data).take n).map DataBlock.frame)
        (statsAfter data n) (some e)
  | unfinished (e : GoErr) : DataPhase hashPage data maxRetries
      ((attemptedBlocks hashPage data maxRetries).map DataBlock.frame)
      (statsAfter data (pageBlocks hashPage data).length) (some e)
  | finished (stats : TransferStats) : DataPhase hashPage data maxRetries
      ((attemptedBlocks hashPage data maxRetries).map DataBlock.frame ++ [completeFrame]) stats none

theorem sendComplete_eq (stats : TransferStats) :
    ∃ stats', sendComplete stats = completeFrame.writeTo >>= fun
      | some e => .ret (stats, some (.wrapf "send complete" e))
      | none => .ret (stats', none) := by
  unfold sendComplete
  by_cases h : stats.totalBytes > 0
  · simp only [h, if_true]
    exact ⟨_, rfl⟩
  · simp only [h, if_false]
    exact ⟨_, rfl⟩

theorem sendComplete_sent {stats stats' : TransferStats} {err : Option GoErr}
    (h : Runs (sendComplete stats) tr (stats', err)) (hframed : Framed tr items) :
    (∀ answer, Item.received answer ∉ items) ∧
      ((deliveredFrames items = [completeFrame] ∧ err = none) ∨
        deliveredFrames items = [] ∧ stats' = stats ∧ ∃ e, err = some e) := by
  obtain ⟨reported, heq⟩ := sendComplete_eq stats
  rw [heq] at h
  obtain hsent | ⟨e, hsent⟩ := writeTo_sent (by exact Or.inr (quiet_ret _)) h hframed
  · obtain ⟨hframes, hnone, heq⟩ := hsent.ended
    exact ⟨hnone, Or.inl ⟨hframes, congrArg Prod.snd heq⟩⟩
  · obtain ⟨hframes, hnone, heq⟩ := hsent.ended
    exact ⟨hnone, Or.inr ⟨hframes, congrArg Prod.fst heq, _, congrArg Prod.snd heq⟩⟩

theorem pageBlocks_map_frame :
    (pageBlocks hashPage data).map DataBlock.frame =
      (pageOffsets data).map fun offset => (blockAt hashPage data offset).frame := by
  rw [pageBlocks, List.map_map]
  rfl

theorem statsAfter_all : statsAfter data (pageBlocks hashPage data).length =
    (pageOffsets data).foldl (countPage data) (initialStats data) := by
  rw [statsAfter, pageBlocks, List.length_map, List.take_length]

/-- From an accepting answer on. -/
theorem afterAck_sent (hlen : data.length < 2 ^ 63) {reply : Frame} {ack : ReadyAck}
    (hack : json.unmarshalReadyAck reply.payload = .ok ack) (haccepted : ack.accepted = true)
    {stats : TransferStats} {err : Option GoErr}
    (h : Runs (afterAck json hashPage data opts (.ok reply)) tr (stats, err))
    (hframed : Framed tr items) : (∀ answer, Item.received answer ∉ items) ∧
      DataPhase hashPage data opts.maxRetries (deliveredFrames items) stats err := by
  have hdirty : (Delta.newDetector.dirtyOffsets hashPage data pageSize).1 = pageOffsets data :=
    Delta.dirtyOffsets_first (by decide) (by omega)
  simp only [afterAck, hack, haccepted, Bool.true_eq_false, if_false, hdirty] at h
  -- What is left once the blocks have been gone through.
  have hcomplete : ∀ pre {items' tr'}, (∀ answer, Item.received answer ∉ pre) →
      deliveredFrames pre = (attemptedBlocks hashPage data opts.maxRetries).map DataBlock.frame →
      Framed tr' items' →
        Runs (sendComplete (statsAfter data (pageBlocks hashPage data).length)) tr'
        (stats, err) → (∀ answer, Item.received answer ∉ pre ++ items') ∧
          DataPhase hashPage data opts.maxRetries (deliveredFrames (pre ++ items')) stats err := by
    intro pre items' tr' hpre hframes hframed' hr
    obtain ⟨hnone, hend⟩ := sendComplete_sent hr hframed'
    refine ⟨fun answer hmem => (List.mem_append.mp hmem).elim (hpre answer) (hnone answer), ?_⟩
    rw [deliveredFrames_append, hframes]
    obtain ⟨hone, rfl⟩ | ⟨hnil, rfl, e, rfl⟩ := hend
    · rw [hone]
      exact .finished stats
    · rw [hnil, List.append_nil]
      exact .unfinished e
  by_cases h0 : 0 ≤ opts.maxRetries
  · obtain ⟨pre, items', tr', rfl, hpre, hframes, hframed', hr⟩ | ⟨n, e, hn, hsent⟩ :=
      sendPages_sent h0 _ _ h hframed
    · refine hcomplete pre hpre ?_ hframed' ?_
      · rw [hframes, attemptedBlocks, if_pos h0, pageBlocks_map_frame]
      · rw [statsAfter_all]
        exact hr
    · obtain ⟨hframes, hnone, heq⟩ := hsent.ended
      obtain ⟨rfl, rfl⟩ := Prod.mk.inj heq
      refine ⟨hnone, ?_⟩
      rw [hframes, List.map_take, ← pageBlocks_map_frame, ← List.map_take]
      exact .stopped n e h0 (by rwa [pageBlocks, List.length_map])
  · rw [sendPages_negative (by omega)] at h
    refine hcomplete [] (fun _ => List.not_mem_nil) ?_ hframed ?_
    · rw [attemptedBlocks, if_neg h0]
      rfl
    · rw [statsAfter_all]
      exact h

/-- How a transfer can go. -/
inductive Transfer (json : Json) (hashPage : List UInt8 → UInt64) (data : List UInt8)
    (opts : TransferOptions) : List Item → TransferStats → Option GoErr → Prop where
  | unopened (items : List Item) (e : GoErr) : (∀ answer, Item.received answer ∉ items) →
      deliveredFrames items = [] → Transfer json hashPage data opts items (initialStats data)
        (some e)
  | refused (pre : List Item) (answer : Except GoErr Frame) (e : GoErr) :
      (∀ answer, Item.received answer ∉ pre) →
      deliveredFrames pre = [json.handshakeFrame (handshakeFor data opts)] →
      (∀ reply ack, answer = .ok reply → json.unmarshalReadyAck reply.payload = .ok ack →
        ack.accepted = false) →
      Transfer json hashPage data opts (pre ++ [.received answer]) (initialStats data) (some e)
  | opened (pre post : List Item) (reply : Frame) (ack : ReadyAck) (stats : TransferStats)
      (err : Option GoErr) :
      (∀ answer, Item.received answer ∉ pre) →
      deliveredFrames pre = [json.handshakeFrame (handshakeFor data opts)] →
      json.unmarshalReadyAck reply.payload = .ok ack → ack.accepted = true →
      (∀ answer, Item.received answer ∉ post) →
      DataPhase hashPage data opts.maxRetries (deliveredFrames post) stats err →
      Transfer json hashPage data opts (pre ++ .received (.ok reply) :: post) stats err

theorem sendSnapshot_transfer (hlen : data.length < 2 ^ 63) {stats : TransferStats}
    {err : Option GoErr} (h : Runs (sendSnapshot json hashPage data opts) tr (stats, err))
    (hframed : Framed tr items) : Transfer json hashPage data opts items stats err := by
  rw [sendSnapshot] at h
  obtain ⟨pre, items', tr', rfl, hpre, hone, hframed', hr⟩ | ⟨e, hsent⟩ :=
    writeTo_sent (by exact Or.inr (quiet_read _)) h hframed
  · obtain ⟨answer, tr'', rfl, hafter⟩ := runs_op.mp hr
    obtain ⟨post, rfl, hframed''⟩ := hframed'.read_cases
    -- An answer after which nothing is sent.
    have hrefused : ∀ e, Runs (afterAck json hashPage data opts answer) tr'' (stats, err) →
        afterAck json hashPage data opts answer = .ret (initialStats data, some e) →
        (∀ reply ack, answer = .ok reply → json.unmarshalReadyAck reply.payload = .ok ack →
          ack.accepted = false) →
        Transfer json hashPage data opts (pre ++ .received answer :: post) stats err := by
      intro e hr heq hans
      rw [heq] at hr
      obtain ⟨rfl, hret⟩ := runs_ret.mp hr
      obtain ⟨rfl, rfl⟩ := Prod.mk.inj hret
      rw [hframed''.of_nil]
      exact .refused pre answer e hpre hone hans
    cases answer with
    | error e => exact hrefused _ hafter rfl (by rintro _ _ ⟨⟩)
    | ok reply =>
        cases hack : json.unmarshalReadyAck reply.payload with
        | error e =>
            refine hrefused (.wrapf "decode ready ack" e) hafter
              (by simp only [afterAck, hack]; rfl) ?_
            rintro _ ack ⟨⟩ hok
            rw [hack] at hok
            cases hok
        | ok ack =>
            cases haccepted : ack.accepted with
            | false =>
                refine hrefused _ hafter (by simp only [afterAck, hack, haccepted, if_true]; rfl) ?_
                rintro _ ack' ⟨⟩ hok
                rw [hack] at hok
                rw [← Except.ok.inj hok, haccepted]
            | true =>
                obtain ⟨hnone, hphase⟩ := afterAck_sent hlen hack haccepted hafter hframed''
                exact .opened pre post reply ack stats err hpre hone hack haccepted hnone hphase
  · obtain ⟨hframes, hnone, heq⟩ := hsent.ended
    obtain ⟨rfl, rfl⟩ := Prod.mk.inj heq
    exact .unopened items _ hnone hframes

end Wraith.Transport

/-
# `Wraith.Transport.Conformance` — what the transmitter sends, and when

The order of a transfer from the sender's side: the handshake, the blocks of the pages in order,
`MsgComplete`; no block before an accepting answer, and a report that counts what was sent.

The code keeps to it but for two things.  `afterAck` takes a frame of any type for the answer, as
long as it decodes; and a negative `MaxRetries` makes no attempt at all, which `sendBlockWithRetry`
returns as success.  `sendSnapshot_conforms_iff` says exactly when neither matters.
-/
import Wraith.Transport.Sending

namespace Wraith.Transport

open Lib Cmd

variable {α : Type} {tr : List (Event TxResp)} {items : List Item} {a : α} {json : Json}
  {hashPage : List UInt8 → UInt64} {data : List UInt8} {opts : TransferOptions} {maxRetries : Int}

/-! ## The order of a transfer -/

/-- The frames of a whole transfer. -/
def transferFrames (json : Json) (hashPage : List UInt8 → UInt64) (data : List UInt8)
    (opts : TransferOptions) : List Frame :=
  json.handshakeFrame (handshakeFor data opts) ::
    (pageBlocks hashPage data).map DataBlock.frame ++ [completeFrame]

/-- The data blocks that went out. -/
def deliveredBlocks (items : List Item) : List Frame :=
  (deliveredFrames items).filter (·.typ = msgDataBlock)

/-- The order of a transfer, and the report of it. -/
structure Conforms (json : Json) (hashPage : List UInt8 → UInt64) (data : List UInt8)
    (opts : TransferOptions) (items : List Item) (stats : TransferStats) (err : Option GoErr) :
    Prop where
  order : deliveredFrames items <+: transferFrames json hashPage data opts
  accepted : ∀ pre f post, items = pre ++ .delivered f :: post → f.typ = msgDataBlock →
    ∃ reply ack, .received (.ok reply) ∈ pre ∧ reply.typ = msgReadyAck ∧
      json.unmarshalReadyAck reply.payload = .ok ack ∧ ack.accepted = true
  failed : err ≠ none → completeFrame ∉ deliveredFrames items ∧
    stats.pagesSent = (deliveredBlocks items).length ∧ stats.bytesSent.toNat =
      (((pageBlocks hashPage data).take stats.pagesSent).map (·.data.length)).sum
  done : err = none → deliveredFrames items = transferFrames json hashPage data opts

/-- The first frame received, and what happened after it. -/
def answered : List Item → Option (Except GoErr Frame × List Item)
  | [] => none
  | .received answer :: items => some (answer, items)
  | _ :: items => answered items

theorem answered_append {pre : List Item} (hpre : ∀ answer, Item.received answer ∉ pre)
    (post : List Item) : answered (pre ++ post) = answered post := by
  induction pre with
  | nil => rfl
  | cons item pre ih =>
      have hrest := ih fun answer hmem => hpre answer (List.mem_cons_of_mem _ hmem)
      cases item with
      | received answer => exact absurd List.mem_cons_self (hpre answer)
      | delivered f => exact hrest
      | failed => exact hrest
      | slept => exact hrest

theorem answered_none {items : List Item} (hnone : ∀ answer, Item.received answer ∉ items) :
    answered items = none := by
  have h := answered_append hnone []
  rwa [List.append_nil] at h

/-! ## When it conforms -/

theorem numPages_pos (h : data ≠ []) : 0 < Delta.numPages data pageSize :=
  (Delta.lt_numPages_iff (by decide)).mpr (by
    rw [Nat.zero_mul]
    exact List.length_pos_iff.mpr h)

@[simp] theorem pageOffsets_length :
    (pageOffsets data).length = Delta.numPages data pageSize := by
  rw [pageOffsets, List.length_map, List.length_range]

@[simp] theorem pageBlocks_length :
    (pageBlocks hashPage data).length = Delta.numPages data pageSize := by
  rw [pageBlocks, List.length_map, pageOffsets_length]

theorem pageBlocks_nil : pageBlocks hashPage [] = [] := rfl

theorem pageBlocks_sizes : (pageBlocks hashPage data).map (·.data.length) =
    (pageOffsets data).map fun offset => (Delta.pageAt data pageSize offset).length := by
  rw [pageBlocks, List.map_map]
  rfl

theorem statsAfter_pages {n : Nat} (hn : n ≤ Delta.numPages data pageSize) :
    (statsAfter data n).pagesSent = n := by
  rw [statsAfter, countPages_eq]
  simp only [initialStats, List.length_take, pageOffsets_length, Nat.min_eq_left hn, Nat.zero_add]

theorem statsAfter_bytes (hlen : data.length < 2 ^ 63) (n : Nat) :
    (statsAfter data n).bytesSent.toNat =
      (((pageBlocks hashPage data).take n).map (·.data.length)).sum := by
  have hsum : ((pageOffsets data).map fun offset =>
      (Delta.pageAt data pageSize offset).length).sum = data.length := by
    rw [pageOffsets, List.map_map]
    exact Delta.sum_pageAt_length (by decide)
  have hle : (((pageOffsets data).take n).map fun offset =>
      (Delta.pageAt data pageSize offset).length).sum ≤ data.length := by
    rw [← hsum, ← List.take_append_drop n (pageOffsets data), List.map_append, List.sum_append,
      List.take_append_drop]
    exact Nat.le_add_right _ _
  rw [statsAfter, countPages_eq, List.map_take (l := pageBlocks hashPage data), pageBlocks_sizes,
    ← List.map_take]
  simp only [initialStats, UInt64.zero_add]
  rw [UInt64.toNat_ofNat', Nat.mod_eq_of_lt (by omega)]

/-- A frame that was not delivered before an answer was delivered after it. -/
theorem delivered_after {answer : Except GoErr Frame} {f : Frame} :
    ∀ {pre pre' post post' : List Item},
      pre ++ .received answer :: post = pre' ++ .delivered f :: post' →
      f ∉ deliveredFrames pre → .received answer ∈ pre' ∧ f ∈ deliveredFrames post
  | [], [], _, _, h, _ => nomatch (List.cons.inj h).1
  | [], x :: pre', post, post', h, _ => by
      obtain ⟨rfl, rfl⟩ := List.cons.inj h
      refine ⟨List.mem_cons_self, ?_⟩
      show f ∈ deliveredFrames (pre' ++ .delivered f :: post')
      rw [deliveredFrames_append]
      exact List.mem_append_right _ List.mem_cons_self
  | x :: pre, [], _, _, h, hf => by
      obtain ⟨rfl, -⟩ := List.cons.inj h
      exact absurd List.mem_cons_self hf
  | x :: pre, y :: pre', post, post', h, hf => by
      obtain ⟨rfl, htail⟩ := List.cons.inj h
      have hpre : f ∉ deliveredFrames pre := fun hmem => hf (by
        rw [← List.singleton_append, deliveredFrames_append]
        exact List.mem_append_right _ hmem)
      obtain ⟨hmem, hpost⟩ := delivered_after htail hpre
      exact ⟨List.mem_cons_of_mem _ hmem, hpost⟩

/-- The first frame delivered, with what came before it. -/
theorem first_delivered {f : Frame} {fs : List Frame} : ∀ (items : List Item),
    deliveredFrames items = f :: fs →
      ∃ pre post, items = pre ++ .delivered f :: post
  | .delivered g :: items, h => by
      obtain ⟨rfl, -⟩ := List.cons.inj h
      exact ⟨[], items, rfl⟩
  | .failed :: items, h => by
      obtain ⟨pre, post, rfl⟩ := first_delivered items h
      exact ⟨.failed :: pre, post, rfl⟩
  | .received answer :: items, h => by
      obtain ⟨pre, post, rfl⟩ := first_delivered items h
      exact ⟨.received answer :: pre, post, rfl⟩
  | .slept :: items, h => by
      obtain ⟨pre, post, rfl⟩ := first_delivered items h
      exact ⟨.slept :: pre, post, rfl⟩

theorem filter_blocks (blocks : List DataBlock) :
    (blocks.map DataBlock.frame).filter (·.typ = msgDataBlock) = blocks.map DataBlock.frame := by
  refine List.filter_eq_self.mpr fun f hf => ?_
  obtain ⟨block, -, rfl⟩ := List.mem_map.mp hf
  rfl

theorem completeFrame_not_mem_blocks (blocks : List DataBlock) :
    completeFrame ∉ blocks.map DataBlock.frame := by
  intro hmem
  obtain ⟨block, -, heq⟩ := List.mem_map.mp hmem
  exact absurd (congrArg Frame.typ heq) (by decide : msgDataBlock ≠ msgComplete)

theorem block_not_mem_handshake {f : Frame} {hs : Handshake} (htyp : f.typ = msgDataBlock)
    (hframes : deliveredFrames items = [json.handshakeFrame hs]) : f ∉ deliveredFrames items := by
  rw [hframes]
  intro hmem
  obtain rfl := List.mem_singleton.mp hmem
  exact absurd (show msgHandshake = msgDataBlock from htyp) (by decide)

/-- What goes out when an answer has opened the transfer. -/
theorem deliveredFrames_opened {pre post : List Item} {f reply : Frame}
    (hframes : deliveredFrames pre = [f]) :
    deliveredFrames (pre ++ .received (.ok reply) :: post) = f :: deliveredFrames post := by
  rw [deliveredFrames_append, hframes]
  rfl

namespace DataPhase

variable {fs : List Frame} {stats : TransferStats} {err : Option GoErr}

theorem order (h : DataPhase hashPage data maxRetries fs stats err)
    (hall : attemptedBlocks hashPage data maxRetries = pageBlocks hashPage data) :
    fs <+: (pageBlocks hashPage data).map DataBlock.frame ++ [completeFrame] := by
  cases h with
  | stopped n e h0 hn =>
      rw [List.map_take]
      exact (List.take_prefix n _).trans (List.prefix_append _ _)
  | unfinished e =>
      rw [hall]
      exact List.prefix_append _ _
  | finished stats => exact hall ▸ List.prefix_rfl

theorem done (h : DataPhase hashPage data maxRetries fs stats none) :
    fs = (attemptedBlocks hashPage data maxRetries).map DataBlock.frame ++ [completeFrame] := by
  cases h with
  | finished stats => rfl

theorem failed (hlen : data.length < 2 ^ 63)
    (h : DataPhase hashPage data maxRetries fs stats err) (herr : err ≠ none)
    (hall : attemptedBlocks hashPage data maxRetries = pageBlocks hashPage data) :
    completeFrame ∉ fs ∧ stats.pagesSent = (fs.filter (·.typ = msgDataBlock)).length ∧
      stats.bytesSent.toNat =
        (((pageBlocks hashPage data).take stats.pagesSent).map (·.data.length)).sum := by
  have hcounts : ∀ n, n ≤ Delta.numPages data pageSize →
      (statsAfter data n).pagesSent =
        ((((pageBlocks hashPage data).take n).map DataBlock.frame).filter
          (·.typ = msgDataBlock)).length ∧
      (statsAfter data n).bytesSent.toNat =
        (((pageBlocks hashPage data).take (statsAfter data n).pagesSent).map
          (·.data.length)).sum := by
    intro n hn
    rw [filter_blocks, List.length_map, List.length_take, pageBlocks_length, Nat.min_eq_left hn,
      statsAfter_pages hn]
    exact ⟨rfl, statsAfter_bytes hlen n⟩
  cases h with
  | stopped n e h0 hn =>
      rw [pageBlocks_length] at hn
      exact ⟨completeFrame_not_mem_blocks _, hcounts n (by omega)⟩
  | unfinished e =>
      have h := hcounts (pageBlocks hashPage data).length (by rw [pageBlocks_length])
      rw [List.take_length] at h
      rw [hall]
      exact ⟨completeFrame_not_mem_blocks _, h⟩
  | finished stats => exact absurd rfl herr

theorem of_block {f : Frame} (h : DataPhase hashPage data maxRetries fs stats err) (hf : f ∈ fs)
    (htyp : f.typ = msgDataBlock) : data ≠ [] := by
  rintro rfl
  have hnil : attemptedBlocks hashPage [] maxRetries = [] := by
    rw [attemptedBlocks, pageBlocks_nil, ite_self]
  cases h with
  | stopped n e h0 hn => exact absurd hn (Nat.not_lt_zero n)
  | unfinished e =>
      rw [hnil] at hf
      exact absurd hf List.not_mem_nil
  | finished stats =>
      rw [hnil] at hf
      obtain rfl := List.mem_singleton.mp hf
      exact absurd htyp (by decide)

/-- What is delivered first is a block. -/
theorem head_block {f : Frame} (h : DataPhase hashPage data maxRetries (f :: fs) stats err)
    (hattempted : attemptedBlocks hashPage data maxRetries ≠ []) : f.typ = msgDataBlock := by
  have hblock : ∀ (blocks : List DataBlock) (gs : List Frame), blocks ≠ [] →
      f :: fs = blocks.map DataBlock.frame ++ gs → f.typ = msgDataBlock := by
    intro blocks gs hne heq
    obtain ⟨block, blocks, rfl⟩ := List.exists_cons_of_ne_nil hne
    rw [(List.cons.inj heq).1]
    rfl
  generalize hfs : f :: fs = gs at h
  cases h with
  | stopped n e h0 hn =>
      refine hblock _ [] (fun hnil => ?_) (hfs.trans (List.append_nil _).symm)
      rw [hnil] at hfs
      exact nomatch hfs
  | unfinished e => exact hblock _ [] hattempted (hfs.trans (List.append_nil _).symm)
  | finished stats => exact hblock _ _ hattempted hfs

end DataPhase

/-- With every page attempted, a transfer keeps to the order. -/
theorem Transfer.conforms (hlen : data.length < 2 ^ 63) {stats : TransferStats}
    {err : Option GoErr} (h : Transfer json hashPage data opts items stats err)
    (hwhen : ∀ reply post ack, answered items = some (.ok reply, post) →
      json.unmarshalReadyAck reply.payload = .ok ack → ack.accepted = true →
      data = [] ∨ (0 ≤ opts.maxRetries ∧ (reply.typ = msgReadyAck ∨ deliveredFrames post = []))) :
    Conforms json hashPage data opts items stats err := by
  cases h with
  | unopened items e hnone hframes =>
      refine ⟨?_, fun pre f post heq _ => ?_, fun _ => ?_, fun h => nomatch h⟩
      · rw [hframes]
        exact List.nil_prefix
      · rw [heq, deliveredFrames_append] at hframes
        exact absurd (List.append_eq_nil_iff.mp hframes).2 (List.cons_ne_nil _ _)
      · rw [deliveredBlocks, hframes]
        exact ⟨List.not_mem_nil, rfl, rfl⟩
  | refused pre answer e hnone hframes hans =>
      have hall : deliveredFrames (pre ++ [.received answer]) =
          [json.handshakeFrame (handshakeFor data opts)] := by
        rw [deliveredFrames_append, hframes]
        rfl
      refine ⟨?_, fun pre' f post heq htyp => ?_, fun _ => ?_, fun h => nomatch h⟩
      · rw [hall, transferFrames]
        exact List.prefix_append [json.handshakeFrame _] _
      · obtain ⟨-, hmem⟩ := delivered_after heq (block_not_mem_handshake htyp hframes)
        exact absurd hmem List.not_mem_nil
      · rw [deliveredBlocks, hall]
        exact ⟨fun hmem => absurd (congrArg Frame.typ (List.mem_singleton.mp hmem)) (by decide :
          msgComplete ≠ msgHandshake), rfl, rfl⟩
  | opened pre post reply ack stats err hnone hframes hack haccepted hpost hphase =>
      have hanswered : answered
          (pre ++ .received (.ok reply) :: post) = some (.ok reply, post) := by
        rw [answered_append hnone]
        rfl
      have hcond := hwhen reply post ack hanswered hack haccepted
      have hall : attemptedBlocks hashPage data opts.maxRetries = pageBlocks hashPage data := by
        rw [attemptedBlocks]
        obtain rfl | ⟨h0, -⟩ := hcond
        · rw [pageBlocks_nil, ite_self]
        · rw [if_pos h0]
      have hsent : deliveredFrames (pre ++ .received (.ok reply) :: post) = _ :=
        deliveredFrames_opened hframes
      refine ⟨?_, fun pre' f post' heq htyp => ?_, fun herr => ?_, fun hok => ?_⟩
      · rw [hsent, transferFrames]
        exact List.prefix_cons_inj _ |>.mpr (hphase.order hall)
      · obtain ⟨hmem, hf⟩ := delivered_after heq (block_not_mem_handshake htyp hframes)
        refine ⟨reply, ack, hmem, ?_, hack, haccepted⟩
        obtain hdata | ⟨-, htyp' | hnil⟩ := hcond
        · exact absurd hdata (hphase.of_block hf htyp)
        · exact htyp'
        · rw [hnil] at hf
          exact absurd hf List.not_mem_nil
      · obtain ⟨hcomplete, hpages, hbytes⟩ := hphase.failed hlen herr hall
        rw [deliveredBlocks, hsent]
        refine ⟨fun hmem => ?_, hpages, hbytes⟩
        obtain heq | hmem := List.mem_cons.mp hmem
        · exact absurd (congrArg Frame.typ heq) (by decide : msgComplete ≠ msgHandshake)
        · exact hcomplete hmem
      · subst hok
        rw [hsent, hphase.done, hall]
        rfl

theorem Transfer.condition {stats : TransferStats} {err : Option GoErr}
    (h : Transfer json hashPage data opts items stats err)
    (hc : Conforms json hashPage data opts items stats err) {reply : Frame} {post : List Item}
    {ack : ReadyAck} (hanswered : answered items = some (.ok reply, post))
    (hack : json.unmarshalReadyAck reply.payload = .ok ack) (haccepted : ack.accepted = true)
    (hdata : data ≠ []) :
    0 ≤ opts.maxRetries ∧ (reply.typ = msgReadyAck ∨ deliveredFrames post = []) := by
  cases h with
  | unopened items e hnone hframes =>
      rw [answered_none hnone] at hanswered
      exact nomatch hanswered
  | refused pre answer e hnone hframes hans =>
      rw [answered_append hnone] at hanswered
      obtain ⟨rfl, rfl⟩ := Prod.mk.inj (Option.some.inj hanswered)
      rw [hans reply ack rfl hack] at haccepted
      exact nomatch haccepted
  | opened pre post' reply' ack' stats err hnone hframes hack' haccepted' hpost hphase =>
      rw [answered_append hnone] at hanswered
      obtain ⟨hreply, rfl⟩ := Prod.mk.inj (Option.some.inj hanswered)
      obtain rfl := Except.ok.inj hreply
      have hsent : deliveredFrames (pre ++ .received (.ok reply') :: post') = _ :=
        deliveredFrames_opened hframes
      have hpages := numPages_pos hdata
      have h0 : 0 ≤ opts.maxRetries := by
        by_contra hneg
        have hnil : attemptedBlocks hashPage data opts.maxRetries = [] := if_neg hneg
        generalize hfs : deliveredFrames post' = fs at hphase hsent
        cases hphase with
        | stopped n e h0 hn => exact hneg h0
        | unfinished e =>
            -- Every page is reported, and none was delivered.
            have hcount := (hc.failed (Option.some_ne_none e)).2.1
            rw [deliveredBlocks, hsent, hnil, pageBlocks_length,
              statsAfter_pages le_rfl] at hcount
            exact absurd hcount (Nat.pos_iff_ne_zero.mp hpages)
        | finished stats =>
            have hall := congrArg List.length (hc.done rfl)
            rw [hsent, hnil, transferFrames] at hall
            simp only [List.length_cons, List.length_append, List.map_nil, List.length_nil,
              List.length_map, pageBlocks_length] at hall
            omega
      refine ⟨h0, ?_⟩
      by_cases hnil : deliveredFrames post' = []
      · exact Or.inr hnil
      · obtain ⟨f, fs, hfs⟩ := List.exists_cons_of_ne_nil hnil
        obtain ⟨pre', post, rfl⟩ := first_delivered _ hfs
        rw [hfs] at hphase
        have htyp : f.typ = msgDataBlock := hphase.head_block (by
          rw [attemptedBlocks, if_pos h0]
          exact List.ne_nil_of_length_pos (by rwa [pageBlocks_length]))
        obtain ⟨reply, ack, hmem, hready, -, -⟩ :=
          hc.accepted (pre ++ .received (.ok reply') :: pre')
          f post (by rw [List.append_assoc, List.cons_append]) htyp
        obtain hmem | hmem := List.mem_append.mp hmem
        · exact absurd hmem (hnone _)
        · obtain heq | hmem := List.mem_cons.mp hmem
          · rw [← Except.ok.inj (Item.received.inj heq)]
            exact Or.inl hready
          · exact absurd (List.mem_append_left _ hmem) (hpost _)

/-- `SendSnapshot` sends a transfer in order and reports what it sent exactly when, of an accepting
answer, the type is right or nothing followed, and there are attempts to make.  Of an empty
snapshot there is nothing to send. -/
theorem sendSnapshot_conforms_iff (hlen : data.length < 2 ^ 63) {stats : TransferStats}
    {err : Option GoErr} (h : Runs (sendSnapshot json hashPage data opts) tr (stats, err))
    (hframed : Framed tr items) :
    Conforms json hashPage data opts items stats err ↔
      ∀ reply post ack, answered items = some (.ok reply, post) →
        json.unmarshalReadyAck reply.payload = .ok ack → ack.accepted = true →
        data = [] ∨ (0 ≤ opts.maxRetries ∧
          (reply.typ = msgReadyAck ∨ deliveredFrames post = [])) := by
  have htransfer := sendSnapshot_transfer hlen h hframed
  constructor
  · intro hc reply post ack hanswered hack haccepted
    by_cases hdata : data = []
    · exact Or.inl hdata
    · exact Or.inr (htransfer.condition hc hanswered hack haccepted hdata)
  · exact htransfer.conforms hlen

/-! ## A transfer without attempts -/

theorem Sends.runs {c : Tx α} {out : List (List UInt8)} (h : Sends c out a) :
    Runs c (wholeWrites out) a := by
  induction h with
  | ret a => exact .ret a
  | write _ ih => exact runs_op.mpr ⟨_, _, rfl, ih⟩

theorem Asks.runs {c : Tx α} {out : List (List UInt8)} {k : Except GoErr Frame → Tx α}
    {answer : Except GoErr Frame} (h : Asks c out k) (hk : Runs (k answer) tr a) :
    Runs c (wholeWrites out ++ ⟨.readFrame, answer⟩ :: tr) a := by
  induction h with
  | read k => exact runs_op.mpr ⟨_, _, rfl, hk⟩
  | write _ ih => exact runs_op.mpr ⟨_, _, rfl, ih hk⟩

/-- One byte is to be sent, with `--retries -1`. -/
def hastyOpts : TransferOptions := { exampleOpts with maxRetries := -1 }

def hastyJson : Json := jsonFor [0] hastyOpts

/-- The answer is an acceptance. -/
def hastyItems : List Item :=
  [.delivered (hastyJson.handshakeFrame (handshakeFor [0] hastyOpts)),
    .received (.ok (hastyJson.ackFrame acceptAck)), .delivered completeFrame]

def hastyTrace : List (Event TxResp) :=
  wholeWrites (hastyJson.handshakeFrame (handshakeFor [0] hastyOpts)).chunks ++
    ⟨.readFrame, .ok (hastyJson.ackFrame acceptAck)⟩ :: wholeWrites completeFrame.chunks

def hastyStats : TransferStats :=
  let stats := statsAfter [0] 1
  { stats with reduction := 1.0 - stats.bytesSent.toFloat / stats.totalBytes.toFloat }

theorem hasty_framed : Framed hastyTrace hastyItems :=
  .delivered _ (.received _ (by
    rw [← List.append_nil (wholeWrites completeFrame.chunks)]
    exact .delivered _ .nil))

theorem hasty_runs : Runs (sendSnapshot hastyJson (fun _ => 0) [0] hastyOpts) hastyTrace
    (hastyStats, none) := by
  refine sendSnapshot_asks.runs ?_
  have hack : hastyJson.unmarshalReadyAck (hastyJson.ackFrame acceptAck).payload = .ok acceptAck :=
    (jsonFor_inverts [0] hastyOpts).readyAck _ List.mem_cons_self
  have hdirty : (Delta.newDetector.dirtyOffsets (fun _ => 0) [(0 : UInt8)] pageSize).1 =
    pageOffsets [0] := Delta.dirtyOffsets_first (by decide) (by decide)
  simp only [afterAck, hack, hdirty]
  rw [sendPages_negative (by decide)]
  exact (sendComplete_sends (by decide)).runs

theorem hasty_not_conforms :
    ∃ tr items stats, Runs (sendSnapshot hastyJson (fun _ => 0) [0] hastyOpts) tr (stats, none) ∧
      Framed tr items ∧ completeFrame ∈ deliveredFrames items ∧ deliveredBlocks items = [] ∧
      ¬ Conforms hastyJson (fun _ => 0) [0] hastyOpts items stats none := by
  refine ⟨_, _, _, hasty_runs, hasty_framed, ?_, ?_, fun hc => ?_⟩
  · exact List.mem_cons_of_mem _ List.mem_cons_self
  · rfl
  · have hall := congrArg List.length (hc.done rfl)
    exact absurd hall (by decide)

theorem sendSnapshot_conforms_iff_hasty :
    Conforms hastyJson (fun _ => 0) [0] hastyOpts hastyItems hastyStats none ↔
      ∀ reply post ack, answered hastyItems = some (.ok reply, post) →
        hastyJson.unmarshalReadyAck reply.payload = .ok ack → ack.accepted = true →
        [(0 : UInt8)] = [] ∨ (0 ≤ hastyOpts.maxRetries ∧
          (reply.typ = msgReadyAck ∨ deliveredFrames post = [])) :=
  sendSnapshot_conforms_iff (by decide) hasty_runs hasty_framed

end Wraith.Transport

/-
# `Wraith.Transport.Client` — the sending side

`SendSnapshot` of `pkg/transport/client.go` as a program over the three things it does to the
outside: write to the connection, read a frame from it, sleep.  A write may take any number of
bytes and may fail; a frame is two or three writes, so it may be cut anywhere.

For the runs on which no write fails, the program is described by what it sends: `Sends c out a`
says that `c` writes the chunks `out` and returns `a` without reading, `Asks c out k` that it
writes `out` and then reads a frame with continuation `k`.  `sendSnapshot_asks` and
`afterAck_accepted` are the two halves of a transfer in these terms.
-/
import Wraith.Lib.Cmd
import Wraith.Delta
import Wraith.Transport.Protocol

namespace Wraith.Transport

open Lib Cmd

/-! ## The program -/

/-- What the transmitter does to the outside. -/
inductive TxOp where
  | write (bs : List UInt8)
  | readFrame
  | sleep (duration : Int64)
  deriving DecidableEq, Repr

/-- What `Write` returns, and how many bytes went out. -/
structure Written where
  accepted : Nat
  err : Option GoErr
  deriving DecidableEq, Repr

def TxResp : TxOp → Type
  | .write _ => Written
  | .readFrame => Except GoErr Frame
  | .sleep _ => Unit

abbrev Tx (α : Type) : Type := Cmd TxResp α

/-- `w.Write`. -/
def write (bs : List UInt8) : Tx (Option GoErr) :=
  .op (.write bs) fun (r : Written) => .ret r.err

/-- `Frame.WriteTo`. -/
def Frame.writeTo (f : Frame) : Tx (Option GoErr) := do
  match ← write (beBytes 4 f.typ.toNat) with
  | some e => return some (.wrapf "write frame type" e)
  | none =>
    match ← write (beBytes 4 (UInt32.ofNat f.payload.length).toNat) with
    | some e => return some (.wrapf "write frame length" e)
    | none =>
      if f.payload.length > 0 then
        match ← write f.payload with
        | some e => return some (.wrapf "write frame payload" e)
        | none => return none
      else return none

/-- `TransferOptions`.  `Timeout` only sets deadlines, which show as failed reads and writes. -/
structure TransferOptions where
  hostname : String
  pid : UInt32
  snapshotVersion : String
  maxRetries : Int
  deriving DecidableEq, Repr

/-- `TransferStats`. -/
structure TransferStats where
  totalPages : Nat
  totalBytes : UInt64
  pagesSent : Nat := 0
  bytesSent : UInt64 := 0
  reduction : Float := 0
  deriving Repr

/-- `time.Duration(100*(1<<attempt)) * time.Millisecond`, in wrapping 64-bit arithmetic. -/
def backoff (attempt : Nat) : Int64 := Int64.ofNat (100 * 2 ^ attempt * 1000000)

/-- The loop of `sendBlockWithRetry`, `left` attempts before its end. -/
def sendAttempts (block : DataBlock) (attempt : Nat) :
    (left : Nat) → Option GoErr → Tx (Option GoErr)
  | 0, lastErr => return lastErr
  | left + 1, _ => do
      match ← block.frame.writeTo with
      | none => return none
      | some err =>
          -- `attempt < maxRetries`: this was not the last one.
          if 0 < left then
            perform (TxOp.sleep (backoff attempt))
          sendAttempts block (attempt + 1) left (some err)

/-- `sendBlockWithRetry`: attempts `0` to `maxRetries`.  A negative `maxRetries` makes none, and the
nil `lastErr` is returned. -/
def sendBlockWithRetry (block : DataBlock) (maxRetries : Int) : Tx (Option GoErr) :=
  sendAttempts block 0 (maxRetries + 1).toNat none

variable (json : Json) (hashPage : List UInt8 → UInt64) (data : List UInt8)
  (opts : TransferOptions)

/-- The block for the page at `offset`. -/
def blockAt (offset : Nat) : DataBlock :=
  ⟨UInt64.ofNat offset, hashPage (Delta.pageAt data pageSize offset),
    Delta.pageAt data pageSize offset⟩

/-- The stats after one more page. -/
def countPage (stats : TransferStats) (offset : Nat) : TransferStats :=
  { stats with
    pagesSent := stats.pagesSent + 1
    bytesSent := stats.bytesSent + UInt64.ofNat (Delta.pageAt data pageSize offset).length }

/-- The loop over the dirty offsets. -/
def sendPages (maxRetries : Int) : List Nat → TransferStats → Tx (TransferStats × Option GoErr)
  | [], stats => return (stats, none)
  | offset :: offsets, stats => do
      match ← sendBlockWithRetry (blockAt hashPage data offset) maxRetries with
      | some e => return (stats, some (.wrapf s!"send block at offset {offset}" e))
      | none => sendPages maxRetries offsets (countPage data stats offset)

/-- `uint32((len(data) + PageSize - 1) / PageSize)`. -/
def pageCount : UInt32 := UInt32.ofNat ((data.length + pageSize - 1) / pageSize)

/-- The handshake of a transfer. -/
def handshakeFor : Handshake :=
  { sourceHostname := opts.hostname, sourcePid := opts.pid, arch := "x86_64",
    totalBytes := UInt64.ofNat data.length, pageCount := pageCount data,
    snapshotVersion := opts.snapshotVersion }

def Json.handshakeFrame (hs : Handshake) : Frame := ⟨msgHandshake, json.marshalHandshake hs⟩

def initialStats : TransferStats :=
  { totalPages := (pageCount data).toNat, totalBytes := UInt64.ofNat data.length }

/-- The last lines: `MsgComplete`, and the reduction for the report. -/
def sendComplete (stats : TransferStats) : Tx (TransferStats × Option GoErr) := do
  match ← (Frame.mk msgComplete []).writeTo with
  | some e => return (stats, some (.wrapf "send complete" e))
  | none =>
    if stats.totalBytes > 0 then
      return ({ stats with
        reduction := 1.0 - stats.bytesSent.toFloat / stats.totalBytes.toFloat }, none)
    else return (stats, none)

/-- From the answer to the handshake on.  The type of the answering frame is not looked at. -/
def afterAck (answer : Except GoErr Frame) : Tx (TransferStats × Option GoErr) :=
  match answer with
  | .error e => return (initialStats data, some (.wrapf "read ready ack" e))
  | .ok frame =>
    match json.unmarshalReadyAck frame.payload with
    | .error e => return (initialStats data, some (.wrapf "decode ready ack" e))
    | .ok ack =>
      if ack.accepted = false then
        return (initialStats data, some (.errorf s!"receiver rejected transfer: {ack.reason}"))
      else do
        let (dirty, _) := Delta.newDetector.dirtyOffsets hashPage data pageSize
        match ← sendPages hashPage data opts.maxRetries dirty (initialStats data) with
        | (stats, some e) => return (stats, some e)
        | (stats, none) => sendComplete stats

/-- `SendSnapshot`. -/
def sendSnapshot : Tx (TransferStats × Option GoErr) := do
  match ← (json.handshakeFrame (handshakeFor data opts)).writeTo with
  | some e => return (initialStats data, some (.wrapf "send handshake" e))
  | none =>
    let answer ← perform TxOp.readFrame
    afterAck json hashPage data opts answer

/-! ## Runs without write errors -/

/-- Writing the chunks `out`, each taken whole, `c` returns `a`. -/
inductive Sends {α : Type} : Tx α → List (List UInt8) → α → Prop where
  | ret (a : α) : Sends (.ret a) [] a
  | write {bs : List UInt8} {k : Written → Tx α} {out : List (List UInt8)} {a : α} :
      Sends (k ⟨bs.length, none⟩) out a → Sends (.op (.write bs) k) (bs :: out) a

/-- Writing the chunks `out`, each taken whole, `c` comes to read a frame. -/
inductive Asks {α : Type} : Tx α → List (List UInt8) → (Except GoErr Frame → Tx α) → Prop where
  | read (k : Except GoErr Frame → Tx α) : Asks (.op .readFrame k) [] k
  | write {bs : List UInt8} {k : Written → Tx α} {out : List (List UInt8)}
      {next : Except GoErr Frame → Tx α} :
      Asks (k ⟨bs.length, none⟩) out next → Asks (.op (.write bs) k) (bs :: out) next

theorem Sends.bind {α β : Type} {c : Tx α} {f : α → Tx β} {out out' : List (List UInt8)} {a : α}
    {b : β} (h : Sends c out a) (hf : Sends (f a) out' b) : Sends (c >>= f) (out ++ out') b := by
  induction h with
  | ret a => exact hf
  | write _ ih => exact .write (ih hf)

theorem Sends.asks {α β : Type} {c : Tx α} {f : α → Tx β} {out out' : List (List UInt8)} {a : α}
    {k : Except GoErr Frame → Tx β} (h : Sends c out a) (hf : Asks (f a) out' k) :
    Asks (c >>= f) (out ++ out') k := by
  induction h with
  | ret a => exact hf
  | write _ ih => exact .write (ih hf)

/-- The chunks a frame is written in. -/
def Frame.chunks (f : Frame) : List (List UInt8) :=
  beBytes 4 f.typ.toNat :: beBytes 4 (UInt32.ofNat f.payload.length).toNat
    :: if f.payload.length > 0 then [f.payload] else []

@[simp] theorem Frame.chunks_flatten (f : Frame) : f.chunks.flatten = f.encode := by
  rw [Frame.chunks, Frame.encode, List.flatten_cons, List.flatten_cons, List.append_assoc]
  split
  · rw [List.flatten_singleton]
  · rw [List.eq_nil_of_length_eq_zero (by omega : f.payload.length = 0), List.flatten_nil]

theorem writeTo_sends (f : Frame) : Sends f.writeTo f.chunks none := by
  unfold Frame.writeTo Frame.chunks
  refine .write (.write ?_)
  simp only
  split
  · exact .write (.ret none)
  · exact .ret none

theorem sendBlockWithRetry_sends (block : DataBlock) {maxRetries : Int} (h : 0 ≤ maxRetries) :
    Sends (sendBlockWithRetry block maxRetries) block.frame.chunks none := by
  obtain ⟨left, hleft⟩ : ∃ left, (maxRetries + 1).toNat = left + 1 := ⟨maxRetries.toNat, by omega⟩
  rw [sendBlockWithRetry, hleft, sendAttempts, ← List.append_nil block.frame.chunks]
  exact (writeTo_sends _).bind (.ret none)

variable {json} {hashPage} {data} {opts}

theorem sendPages_sends {maxRetries : Int} (h : 0 ≤ maxRetries) :
    ∀ (offsets : List Nat) (stats : TransferStats),
      Sends (sendPages hashPage data maxRetries offsets stats)
        (offsets.flatMap fun offset => (blockAt hashPage data offset).frame.chunks)
        (offsets.foldl (countPage data) stats, none)
  | [], stats => .ret _
  | offset :: offsets, stats => by
      rw [sendPages, List.flatMap_cons, List.foldl_cons]
      exact (sendBlockWithRetry_sends _ h).bind (sendPages_sends h offsets _)

/-- The page offsets of a first transfer. -/
def pageOffsets (data : List UInt8) : List Nat :=
  (List.range (Delta.numPages data pageSize)).map (· * pageSize)

/-- The blocks of a first transfer. -/
def pageBlocks (hashPage : List UInt8 → UInt64) (data : List UInt8) : List DataBlock :=
  (pageOffsets data).map (blockAt hashPage data)

/-- What `SendSnapshot` reports when everything was sent. -/
def finalStats (data : List UInt8) : TransferStats :=
  let stats := (pageOffsets data).foldl (countPage data) (initialStats data)
  { stats with reduction := 1.0 - stats.bytesSent.toFloat / stats.totalBytes.toFloat }

theorem countPages_eq : ∀ (offsets : List Nat) (stats : TransferStats),
    offsets.foldl (countPage data) stats = { stats with
      pagesSent := stats.pagesSent + offsets.length
      bytesSent := stats.bytesSent + UInt64.ofNat
        (offsets.map fun offset => (Delta.pageAt data pageSize offset).length).sum }
  | [], stats => by simp
  | offset :: offsets, stats => by
      rw [List.foldl_cons, countPages_eq offsets]
      simp only [countPage, List.length_cons, List.map_cons, List.sum_cons, UInt64.ofNat_add,
        UInt64.add_assoc, Nat.add_assoc, Nat.add_comm 1]

theorem numPages_lt (hlen : data.length < 2 ^ 40) : Delta.numPages data pageSize < 2 ^ 32 := by
  rw [Delta.numPages, pageSize, Nat.div_lt_iff_lt_mul (by decide)]
  omega

theorem pageCount_toNat (hlen : data.length < 2 ^ 40) :
    (pageCount data).toNat = Delta.numPages data pageSize := by
  have h := numPages_lt hlen
  rw [Delta.numPages] at h ⊢
  rw [pageCount, UInt32.toNat_ofNat', Nat.mod_eq_of_lt h]

/-- The report of a transfer: every page, every byte. -/
theorem finalStats_eq (hlen : data.length < 2 ^ 40) :
    (finalStats data).totalPages = Delta.numPages data pageSize ∧
    (finalStats data).pagesSent = Delta.numPages data pageSize ∧
    (finalStats data).totalBytes.toNat = data.length ∧
    (finalStats data).bytesSent.toNat = data.length := by
  have hcount : (UInt64.ofNat data.length).toNat = data.length := by
    rw [UInt64.toNat_ofNat', Nat.mod_eq_of_lt (by omega)]
  have hsum : (_ : List Nat).sum = data.length :=
    Delta.sum_pageAt_length (show 0 < pageSize by decide)
  simp only [finalStats, countPages_eq, initialStats, pageOffsets, List.length_map,
    List.length_range, List.map_map, Function.comp_def, hsum, Nat.zero_add, UInt64.zero_add]
  exact ⟨pageCount_toNat hlen, trivial, hcount, hcount⟩

theorem sendComplete_sends {stats : TransferStats} (h : 0 < stats.totalBytes) :
    Sends (sendComplete stats) (Frame.mk msgComplete []).chunks ({ stats with
      reduction := 1.0 - stats.bytesSent.toFloat / stats.totalBytes.toFloat }, none) := by
  rw [sendComplete, ← List.append_nil (Frame.mk msgComplete []).chunks]
  refine (writeTo_sends _).bind ?_
  simp only [gt_iff_lt, h, if_true]
  exact .ret _

/-- The chunks of the data phase. -/
def dataChunks (hashPage : List UInt8 → UInt64) (data : List UInt8) : List (List UInt8) :=
  (pageBlocks hashPage data).flatMap (fun b => b.frame.chunks) ++ (Frame.mk msgComplete []).chunks

/-- The first half of a transfer: the handshake, then the wait for its answer. -/
theorem sendSnapshot_asks : Asks (sendSnapshot json hashPage data opts)
    (json.handshakeFrame (handshakeFor data opts)).chunks (afterAck json hashPage data opts) := by
  rw [sendSnapshot, ← List.append_nil (json.handshakeFrame _).chunks]
  exact (writeTo_sends _).asks (.read _)

/-- The second half, once the receiver has accepted. -/
theorem afterAck_accepted (hlen : data.length < 2 ^ 40) (hpos : 0 < data.length)
    (hretries : 0 ≤ opts.maxRetries) {answer : Frame} {ack : ReadyAck}
    (hack : json.unmarshalReadyAck answer.payload = .ok ack) (haccepted : ack.accepted = true) :
    Sends (afterAck json hashPage data opts (.ok answer)) (dataChunks hashPage data)
      (finalStats data, none) := by
  have hdirty : (Delta.newDetector.dirtyOffsets hashPage data pageSize).1 = pageOffsets data :=
    Delta.dirtyOffsets_first (by decide) (by omega)
  have htotal : 0 < (initialStats data).totalBytes := by
    rw [UInt64.lt_iff_toNat_lt, initialStats, UInt64.toNat_ofNat', Nat.mod_eq_of_lt (by omega)]
    exact hpos
  simp only [afterAck, hack, haccepted, Bool.true_eq_false, if_false, hdirty]
  rw [dataChunks, pageBlocks, List.flatMap_map]
  refine (sendPages_sends hretries _ _).bind (sendComplete_sends ?_)
  rw [countPages_eq]
  exact htotal

theorem afterAck_rejected {answer : Frame} {ack : ReadyAck}
    (hack : json.unmarshalReadyAck answer.payload = .ok ack) (hrejected : ack.accepted = false) :
    Sends (afterAck json hashPage data opts (.ok answer)) []
      (initialStats data, some (.errorf s!"receiver rejected transfer: {ack.reason}")) := by
  simp only [afterAck, hack, hrejected, if_true]
  exact .ret _

end Wraith.Transport

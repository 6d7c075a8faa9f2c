/-
# `Wraith.Transport.Retry` — what a retried write leaves on the wire

`sendBlockWithRetry` starts the frame again after any error, whatever part of it the connection has
taken by then.  So on the wire a prefix of the frame comes first for each failed attempt, and then
the frame:

    acceptedBytes tr = pieces.flatten ++ block.frame.encode          (`sendAttempts_pieces`)

With a piece that is not empty, the reader takes its header from the wrong place: what it takes for
the frame is of another type, or shorter than what follows (`resumed_ne_encode`).  The block arrives
exactly if the pieces are empty (`sendBlockWithRetry_arrives_iff`).
-/
import Wraith.Transport.Writer

namespace Wraith.Transport

open Lib Cmd

/-- The bytes are one frame that holds the block, and whatever comes next starts at the next
frame. -/
def Arrives (bytes : List UInt8) (block : DataBlock) : Prop :=
  ∃ f, (∀ (t : List UInt8) (e : Ending), readFrom ⟨bytes ++ t, e⟩ = .ok f ⟨t, e⟩) ∧
    f.typ = msgDataBlock ∧ readBlock f.payload = .ok block

/-- Whenever a write reported an error, the connection had not taken anything yet. -/
def CleanFailures (tr : List (Event TxResp)) : Prop :=
  ∀ before ev after, tr = before ++ ev :: after → Failed ev → acceptedBytes (before ++ [ev]) = []

/-! ## What the reader makes of a resumed frame -/

variable {q rest enc : List UInt8}

/-- Prefixes of data frames and a data frame after them start with three zero bytes, and the fourth
is zero or the frame type. -/
theorem pieces_head (henc : enc = 0 :: 0 :: 0 :: 3 :: rest) : ∀ {pieces : List (List UInt8)},
    (∀ q ∈ pieces, q <+: enc) →
      ∃ x r, UInt8.toNat x ≤ 3 ∧ pieces.flatten ++ enc = 0 :: 0 :: 0 :: x :: r
  | [], _ => ⟨3, rest, by decide, henc⟩
  | q :: pieces, hq => by
      obtain ⟨x, r, hx, htail⟩ := pieces_head henc fun p hp => hq p (List.mem_cons_of_mem _ hp)
      have htake := List.prefix_iff_eq_take.mp (hq q List.mem_cons_self)
      rw [List.flatten_cons, List.append_assoc, htail, htake, henc]
      match q.length with
      | 0 => exact ⟨x, r, hx, rfl⟩
      | 1 => exact ⟨0, x :: r, by decide, rfl⟩
      | 2 => exact ⟨0, 0 :: x :: r, by decide, rfl⟩
      | 3 => exact ⟨0, 0 :: 0 :: x :: r, by decide, rfl⟩
      | k + 4 => exact ⟨3, rest.take k ++ 0 :: 0 :: 0 :: x :: r, by decide, rfl⟩

/-- The header of a data frame, byte by byte. -/
theorem Frame.Fits.header {f : Frame} (hf : f.Fits) (htyp : f.typ = msgDataBlock) :
    ∃ a b c d : UInt8, f.encode = 0 :: 0 :: 0 :: 3 :: a :: b :: c :: d :: f.payload ∧
      f.payload.length
        = a.toNat * 2 ^ 24 + b.toNat * 2 ^ 16 + c.toNat * 2 ^ 8 + d.toNat := by
  have hlen : beNat (beBytes 4 f.payload.length) = f.payload.length := beNat_beBytes_of_lt hf
  obtain ⟨a, b, c, d, hfield⟩ : ∃ a b c d, beBytes 4 f.payload.length = [a, b, c, d] :=
    ⟨_, _, _, _, rfl⟩
  refine ⟨a, b, c, d, ?_, ?_⟩
  · rw [Frame.encode, hf.length_toNat, htyp, hfield]
    rfl
  · rw [← hlen, hfield]
    simp only [beNat, List.length_cons, List.length_nil]
    omega

/-- A frame cannot be read across a piece of it and the same frame over again: the header ends up
with another type, or with a length the bytes there exceed. -/
theorem resumed_ne_encode {f g : Frame} (hf : f.Fits) (htyp : f.typ = msgDataBlock)
    (hlen : 4 ≤ f.payload.length) (hg : g.Fits) (hgtyp : g.typ = msgDataBlock) :
    ∀ {pieces : List (List UInt8)}, (∀ q ∈ pieces, q <+: f.encode) → pieces.flatten ≠ [] →
      g.encode ≠ pieces.flatten ++ f.encode
  | [], _, hne => absurd rfl hne
  | [] :: pieces, hq, hne => by
      rw [List.flatten_cons, List.nil_append] at hne ⊢
      exact resumed_ne_encode hf htyp hlen hg hgtyp
        (fun p hp => hq p (List.mem_cons_of_mem _ hp)) hne
  | (x₀ :: q) :: pieces, hq, _ => by
      intro heq
      obtain ⟨a, b, c, d, hfenc, hflen⟩ := hf.header htyp
      obtain ⟨a', b', c', d', hgenc, hglen⟩ := hg.header hgtyp
      obtain ⟨x, r, hx, htail⟩ := pieces_head hfenc fun p hp => hq p (List.mem_cons_of_mem _ hp)
      -- The frame read is longer than the one written.
      have hlonger : f.payload.length < g.payload.length := by
        have := congrArg List.length heq
        simp only [hfenc, hgenc, List.flatten_cons, List.length_append, List.length_cons] at this
        omega
      have htake := List.prefix_iff_eq_take.mp (hq _ List.mem_cons_self)
      rw [List.flatten_cons, List.append_assoc, htail, htake, hfenc, hgenc,
        List.length_cons] at heq
      have hbytes := And.intro (And.intro a.toNat_lt b.toNat_lt) (And.intro c.toNat_lt d.toNat_lt)
      match hk : q.length with
      | 0 | 1 | 2 =>
          -- The type's last byte is a zero of the next attempt.
          simp [hk] at heq
      | 3 =>
          -- The length is the next attempt's type, in part.
          simp only [hk, Nat.reduceAdd, List.take_succ_cons, List.take_zero, List.cons_append,
            List.nil_append, List.cons.injEq, true_and] at heq
          obtain ⟨rfl, rfl, rfl, rfl, -⟩ := heq
          simp only [UInt8.toNat_zero] at hglen
          omega
      | 4 | 5 | 6 =>
          -- The length is cut off and filled up with zeros.
          simp only [hk, Nat.reduceAdd, List.take_succ_cons, List.take_zero, List.cons_append,
            List.nil_append, List.cons.injEq, true_and] at heq
          obtain ⟨rfl, rfl, rfl, rfl, -⟩ := heq
          simp only [UInt8.toNat_zero] at hglen
          omega
      | k + 7 =>
          simp only [hk, Nat.succ_eq_add_one, List.take_succ_cons, List.cons_append,
            List.cons.injEq, true_and] at heq
          obtain ⟨rfl, rfl, rfl, rfl, -⟩ := heq
          omega

/-- The bytes of a failed attempt and a whole frame after them arrive only if there are none. -/
theorem arrives_iff {block : DataBlock} {pieces : List (List UInt8)}
    (hq : ∀ q ∈ pieces, q <+: block.frame.encode) :
    Arrives (pieces.flatten ++ block.frame.encode) block ↔ block.Fits ∧ pieces.flatten = [] := by
  constructor
  · rintro ⟨g, hread, hgtyp, hblock⟩
    have hall := hread [] .eof
    rw [List.append_nil] at hall
    obtain ⟨hg, hbytes, -⟩ := readFrom_ok hall
    rw [List.append_nil] at hbytes
    obtain ⟨hfits, -⟩ := readBlock_ok hg hblock
    have hlen : 4 ≤ block.frame.payload.length := by
      rw [DataBlock.frame, DataBlock.payload_length]
      omega
    refine ⟨hfits, by_contra fun hne => ?_⟩
    exact resumed_ne_encode hfits.frame rfl hlen hg hgtyp hq hne hbytes.symm
  · rintro ⟨hfits, hnil⟩
    rw [hnil, List.nil_append]
    exact ⟨block.frame, readFrom_encode hfits.frame, rfl, readBlock_payload hfits⟩

/-! ## What the attempts leave behind -/

variable {tr tr' : List (Event TxResp)}

theorem CleanFailures.of_none (h : ∀ ev ∈ tr, ¬ Failed ev) : CleanFailures tr := by
  rintro before ev after rfl hfailed
  exact absurd hfailed (h ev (List.mem_append_right _ List.mem_cons_self))

/-- A failed attempt in front is clean if nothing of it was taken. -/
theorem cleanFailures_append {init : List (Event TxResp)} {ev : Event TxResp}
    (hfailed : Failed ev) : CleanFailures ((init ++ [ev]) ++ tr) ↔
      acceptedBytes (init ++ [ev]) = [] ∧ CleanFailures tr := by
  constructor
  · intro h
    have hnone := h init ev tr (by rw [List.append_assoc, List.singleton_append]) hfailed
    refine ⟨hnone, fun before ev' after htr hfailed' => ?_⟩
    have hlater := h (init ++ [ev] ++ before) ev' after (by rw [htr, ← List.append_assoc]) hfailed'
    rw [List.append_assoc, acceptedBytes_append, hnone] at hlater
    exact hlater
  · rintro ⟨hnone, hclean⟩ before ev' after htr hfailed'
    have hsplit : init ++ [ev] ++ tr = (before ++ [ev']) ++ after := by
      rw [htr, List.append_assoc, List.singleton_append]
    -- The failure is in the attempt or after it.
    obtain ⟨mid, hinit, -⟩ | ⟨mid, hbefore, htail⟩ := List.append_eq_append_iff.mp hsplit.symm
    · rw [hinit, acceptedBytes_append] at hnone
      exact (List.append_eq_nil_iff.mp hnone).1
    · rw [hbefore, acceptedBytes_append, hnone, List.nil_append]
      cases mid using List.reverseRecOn with
      | nil => rfl
      | append_singleton mid x =>
          obtain ⟨rfl, hx⟩ := List.append_inj' (hbefore.trans (List.append_assoc ..).symm) rfl
          obtain rfl := List.singleton_inj.mp hx
          exact hclean mid ev' after
            (by rw [htail, List.append_assoc, List.singleton_append]) hfailed'

theorem cleanFailures_slept {d : Int64} :
    CleanFailures (⟨.sleep d, ()⟩ :: tr) ↔ CleanFailures tr := by
  constructor
  · intro h before ev after htr hfailed
    exact h (⟨.sleep d, ()⟩ :: before) ev after (by rw [htr]; rfl) hfailed
  · intro h before ev after htr hfailed
    cases before with
    | nil =>
        obtain ⟨rfl, -⟩ := List.cons.inj htr
        exact hfailed.elim
    | cons ev' before =>
        obtain ⟨rfl, htail⟩ := List.cons.inj htr
        exact h before ev after htail hfailed

/-- The attempts that end without an error: a prefix of the frame for each failed one, and then the
frame.  The induction is on the attempts left. -/
theorem sendAttempts_pieces (block : DataBlock) : ∀ (left attempt : Nat) (lastErr : Option GoErr)
    {tr : List (Event TxResp)}, (left = 0 → lastErr ≠ none) →
      Runs (sendAttempts block attempt left lastErr) tr none → (∀ ev ∈ tr, Honours ev) →
        ∃ pieces : List (List UInt8), (∀ q ∈ pieces, q <+: block.frame.encode) ∧
          acceptedBytes tr = pieces.flatten ++ block.frame.encode ∧
          (CleanFailures tr ↔ pieces.flatten = [])
  | 0, attempt, lastErr, tr, hlast, h, _ => by
      obtain ⟨-, hnone⟩ := runs_ret.mp h
      exact absurd hnone.symm (hlast rfl)
  | left + 1, attempt, lastErr, tr, _, h, hwriter => by
      rw [sendAttempts] at h
      obtain ⟨tr₁, r, tr₂, h₁, h₂, rfl⟩ := runs_bind.mp h
      have hwriter₂ : ∀ ev ∈ tr₂, Honours ev :=
        fun ev hev => hwriter ev (List.mem_append_right _ hev)
      cases writeTo_accepted h₁ fun ev hev => hwriter ev (List.mem_append_left _ hev) with
      | whole hbytes hnone =>
          obtain ⟨rfl, -⟩ := runs_ret.mp h₂
          rw [List.append_nil]
          exact ⟨[], fun _ h => absurd h List.not_mem_nil, hbytes,
            fun _ => rfl, fun _ => .of_none hnone⟩
      | cut e init ev htr hfailed hpre =>
          have hlast : left = 0 → some e ≠ none := fun _ => Option.some_ne_none e
          -- Between two attempts the transmitter sleeps, which leaves nothing on the wire.
          obtain ⟨pieces, hq, hbytes, hclean⟩ : ∃ pieces : List (List UInt8),
              (∀ q ∈ pieces, q <+: block.frame.encode) ∧
              acceptedBytes tr₂ = pieces.flatten ++ block.frame.encode ∧
              (CleanFailures tr₂ ↔ pieces.flatten = []) := by
            by_cases hleft : 0 < left
            · simp only [hleft, if_true] at h₂
              obtain ⟨⟨⟩, tr₃, rfl, h₃⟩ := runs_op.mp h₂
              obtain ⟨pieces, hq, hbytes, hclean⟩ := sendAttempts_pieces block left (attempt + 1)
                (some e) hlast h₃ fun ev hev => hwriter₂ ev (List.mem_cons_of_mem _ hev)
              refine ⟨pieces, hq, hbytes, ?_⟩
              rw [← hclean]
              exact cleanFailures_slept
            · simp only [hleft, if_false] at h₂
              exact sendAttempts_pieces block left (attempt + 1) (some e) hlast h₂ hwriter₂
          refine ⟨acceptedBytes tr₁ :: pieces, ?_, ?_, ?_⟩
          · exact List.forall_mem_cons.mpr ⟨hpre, hq⟩
          · rw [acceptedBytes_append, hbytes, List.flatten_cons, List.append_assoc]
          · rw [List.flatten_cons, List.append_eq_nil_iff, ← hclean, htr,
              cleanFailures_append hfailed]

/-- **Retried writes and framing.**  When `sendBlockWithRetry` reports success, what the connection
has taken is one frame with the block exactly if the block fits a frame and every attempt that
failed had failed before anything was taken. -/
theorem sendBlockWithRetry_arrives_iff {block : DataBlock} {maxRetries : Int}
    (hretries : 0 ≤ maxRetries) (h : Runs (sendBlockWithRetry block maxRetries) tr none)
    (hwriter : ∀ ev ∈ tr, Honours ev) :
    Arrives (acceptedBytes tr) block ↔ block.Fits ∧ CleanFailures tr := by
  have hattempts : (maxRetries + 1).toNat = 0 → (none : Option GoErr) ≠ none := by omega
  obtain ⟨pieces, hq, hbytes, hclean⟩ := sendAttempts_pieces block _ _ _ hattempts h hwriter
  rw [hbytes, arrives_iff hq, hclean]

/-! ## A retry that does not arrive -/

def shortBlock : DataBlock := ⟨0, 0, [7]⟩

/-- The first attempt fails after `typ` bytes of the type have been taken, the second succeeds. -/
def retriedTrace (typ : Nat) : List (Event TxResp) :=
  [⟨.write [0, 0, 0, 3], (⟨typ, some (.conn "i/o timeout")⟩ : Written)⟩, ⟨.sleep (backoff 0), ()⟩,
    ⟨.write [0, 0, 0, 3], (⟨4, none⟩ : Written)⟩, ⟨.write [0, 0, 0, 21], (⟨4, none⟩ : Written)⟩,
    ⟨.write shortBlock.payload, (⟨21, none⟩ : Written)⟩]

theorem retried_runs (typ : Nat) :
    Runs (sendBlockWithRetry shortBlock 1) (retriedTrace typ) none := by
  rw [sendBlockWithRetry, show ((1 : Int) + 1).toNat = 2 from rfl]
  exact .op _ (.op _ (.op _ (.op _ (.op _ (.ret _)))))

theorem retried_honours {typ : Nat} (h : typ ≤ 4) : ∀ ev ∈ retriedTrace typ, Honours ev := by
  simp [retriedTrace, Honours, h, shortBlock]

/-- The connection takes two bytes of the frame type and reports an error.  The retry succeeds, and
the frame the reader takes is of type 0. -/
theorem retried_not_arrives :
    Runs (sendBlockWithRetry shortBlock 1) (retriedTrace 2) none ∧
      (∀ ev ∈ retriedTrace 2, Honours ev) ∧
      ¬ Arrives (acceptedBytes (retriedTrace 2)) shortBlock := by
  refine ⟨retried_runs 2, retried_honours (by decide), fun h => ?_⟩
  have hpieces : ∀ q ∈ [[(0 : UInt8), 0]], q <+: shortBlock.frame.encode := by decide
  exact absurd ((arrives_iff hpieces).mp h).2 (by decide)

theorem sendBlockWithRetry_arrives_iff_clean :
    Arrives (acceptedBytes (retriedTrace 0)) shortBlock ↔
      shortBlock.Fits ∧ CleanFailures (retriedTrace 0) :=
  sendBlockWithRetry_arrives_iff (by decide) (retried_runs 0) (retried_honours (by decide))

end Wraith.Transport

/-
# `Wraith.Transport.Writer` — what a connection has been given

The bytes an `io.Writer` has accepted over a run of writes, failed ones included.  A frame is
written in two or three writes; if all of them succeed its encoding has gone out, if one fails a
prefix of it has (`writeTo_accepted`).
-/
import Wraith.Transport.Client

namespace Wraith.Transport

open Lib Cmd

/-- The contract of `io.Writer`: a write takes no more than it is given, and all of it unless it
reports an error. -/
def Honours : Event TxResp → Prop
  | ⟨.write bs, w⟩ =>
      let w : Written := w
      w.accepted ≤ bs.length ∧ (w.err = none → w.accepted = bs.length)
  | _ => True

/-- A write that reports an error. -/
def Failed : Event TxResp → Prop
  | ⟨.write _, w⟩ =>
      let w : Written := w
      w.err ≠ none
  | _ => False

/-- What one operation gives to the connection. -/
def eventBytes : Event TxResp → List UInt8
  | ⟨.write bs, w⟩ =>
      let w : Written := w
      bs.take w.accepted
  | _ => []

/-- The bytes the writer has accepted. -/
def acceptedBytes (tr : List (Event TxResp)) : List UInt8 := tr.flatMap eventBytes

@[simp] theorem acceptedBytes_nil : acceptedBytes [] = [] := rfl

@[simp] theorem acceptedBytes_cons (ev : Event TxResp) (tr : List (Event TxResp)) :
    acceptedBytes (ev :: tr) = eventBytes ev ++ acceptedBytes tr := List.flatMap_cons

@[simp] theorem acceptedBytes_append (tr tr' : List (Event TxResp)) :
    acceptedBytes (tr ++ tr') = acceptedBytes tr ++ acceptedBytes tr' := List.flatMap_append

/-- A write that reports no error took everything. -/
theorem Honours.whole {bs : List UInt8} {w : Written} (h : Honours ⟨.write bs, w⟩)
    (herr : w.err = none) : eventBytes ⟨.write bs, w⟩ = bs := by
  obtain ⟨-, hwhole⟩ := h
  exact List.take_of_length_le (Nat.le_of_eq (hwhole herr).symm)

theorem eventBytes_take (bs : List UInt8) (w : Written) : eventBytes ⟨.write bs, w⟩ <+: bs :=
  List.take_prefix w.accepted bs

/-- How one `WriteTo` went: everything was taken, or a last write failed and a prefix was. -/
inductive Wrote (f : Frame) (tr : List (Event TxResp)) : Option GoErr → Prop where
  | whole : acceptedBytes tr = f.encode → (∀ ev ∈ tr, ¬ Failed ev) → Wrote f tr none
  | cut (e : GoErr) (before : List (Event TxResp)) (ev : Event TxResp) : tr = before ++ [ev] →
      Failed ev → acceptedBytes tr <+: f.encode → Wrote f tr (some e)

/-- `WriteTo` on a writer that keeps its contract. -/
theorem writeTo_accepted {f : Frame} {tr : List (Event TxResp)} {r : Option GoErr}
    (h : Runs f.writeTo tr r) (hwriter : ∀ ev ∈ tr, Honours ev) : Wrote f tr r := by
  obtain ⟨w₁, tr₁, rfl, h₁⟩ := runs_op.mp h
  have htyp := hwriter _ List.mem_cons_self
  obtain ⟨n₁, _ | e⟩ := w₁
  · obtain ⟨w₂, tr₂, rfl, h₂⟩ := runs_op.mp h₁
    have hlen := hwriter _ (List.mem_cons_of_mem _ List.mem_cons_self)
    obtain ⟨n₂, _ | e⟩ := w₂
    · simp only at h₂
      split at h₂
      case isTrue hpos =>
        obtain ⟨w₃, tr₃, rfl, h₃⟩ := runs_op.mp h₂
        have hpay := hwriter _ (List.mem_cons_of_mem _ (List.mem_cons_of_mem _ List.mem_cons_self))
        obtain ⟨n₃, _ | e⟩ := w₃
        · obtain ⟨rfl, rfl⟩ := runs_ret.mp h₃
          refine .whole ?_ ?_
          · simp only [acceptedBytes_cons, acceptedBytes_nil, htyp.whole rfl, hlen.whole rfl,
              hpay.whole rfl, List.append_nil, Frame.encode, List.append_assoc]
          · simp [Failed]
        · obtain ⟨rfl, rfl⟩ := runs_ret.mp h₃
          refine .cut _ [_, _] _ rfl (Option.some_ne_none e) ?_
          simp only [acceptedBytes_cons, acceptedBytes_nil, htyp.whole rfl, hlen.whole rfl,
            List.append_nil, Frame.encode]
          rw [← List.append_assoc]
          exact (List.prefix_append_right_inj _).mpr (eventBytes_take _ _)
      case isFalse hzero =>
        obtain ⟨rfl, rfl⟩ := runs_ret.mp h₂
        refine .whole ?_ ?_
        · have hnil : f.payload = [] := List.eq_nil_of_length_eq_zero (by omega)
          simp only [acceptedBytes_cons, acceptedBytes_nil, htyp.whole rfl, hlen.whole rfl,
            List.append_nil, Frame.encode, hnil]
        · simp [Failed]
    · obtain ⟨rfl, rfl⟩ := runs_ret.mp h₂
      refine .cut _ [_] _ rfl (Option.some_ne_none e) ?_
      simp only [acceptedBytes_cons, acceptedBytes_nil, htyp.whole rfl, List.append_nil,
        Frame.encode, List.append_assoc]
      exact (List.prefix_append_right_inj _).mpr
        ((eventBytes_take _ _).trans (List.prefix_append _ _))
  · obtain ⟨rfl, rfl⟩ := runs_ret.mp h₁
    refine .cut _ [] _ rfl (Option.some_ne_none e) ?_
    simp only [acceptedBytes_cons, acceptedBytes_nil, List.append_nil, Frame.encode,
      List.append_assoc]
    exact (eventBytes_take _ _).trans (List.prefix_append _ _)

end Wraith.Transport

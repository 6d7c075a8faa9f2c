/-
# `Wraith.Lib.Custody` — what is taken is given back

Some operations bring the program a handle, some are about a handle it has, and some give it up.  A
trace is `Tidy` if no operation is about a handle that is not held where it stands, and in the end
all are given up:

    acquired tr     the handles it has brought
    released tr     the ones that were given up

A handle may be brought twice: the operating system hands out the same number again.  So what is
held is a multiset.  `monitor` keeps it, and a program that obeys it from nothing to nothing has
tidy traces only (`tidy_of_obeys`).
-/
import Mathlib.Algebra.Order.Group.Multiset
import Wraith.Lib.Triple

namespace Wraith.Lib

variable {Op : Type} {R : Op → Type} {H α : Type}

/-- How a program comes by its handles. -/
structure Custody (R : Op → Type) (H : Type) where
  /-- the handle that an event brings -/
  acquires : Event R → Option H
  /-- the one that an operation is about -/
  uses : Op → Option H
  /-- the one that it gives up -/
  releases : Op → Option H

namespace Custody

variable (C : Custody R H)

def acquired (tr : List (Event R)) : List H := tr.filterMap C.acquires

def released (tr : List (Event R)) : List H := tr.filterMap fun ev => C.releases ev.1

/-- The operation is only for one who has the handle. -/
def Needs (o : Op) (h : H) : Prop := C.uses o = some h ∨ C.releases o = some h

/-- An operation without handles. -/
structure Idle (o : Op) : Prop where
  uses : C.uses o = none
  releases : C.releases o = none
  acquires : ∀ r, C.acquires ⟨o, r⟩ = none

/-- At most one handle. -/
def bag (h : Option H) : Multiset H := h.toList

section Append

variable {C}

theorem bag_add (h : Option H) (l : List H) : bag h + (l : Multiset H) = (h.toList ++ l : List H) :=
  Multiset.coe_add _ _

theorem released_cons (ev : Event R) (tr : List (Event R)) :
    C.released (ev :: tr) = (C.releases ev.1).toList ++ C.released tr := by
  rw [released, List.filterMap_cons]
  cases C.releases ev.1 <;> rfl

theorem acquired_cons (ev : Event R) (tr : List (Event R)) :
    C.acquired (ev :: tr) = (C.acquires ev).toList ++ C.acquired tr := by
  rw [acquired, List.filterMap_cons]
  cases C.acquires ev <;> rfl

end Append

variable [DecidableEq H]

structure Tidy (tr : List (Event R)) : Prop where
  held : ∀ {pre ev post h}, tr = pre ++ ev :: post → C.Needs ev.1 h →
    (C.released pre).count h < (C.acquired pre).count h
  settled : (C.released tr).Perm (C.acquired tr)

/-! ## What is held -/

def monitor : Cmd.Monitor R (Multiset H) where
  allow g o := ∀ h, C.Needs o h → h ∈ g
  next g o r := g - bag (C.releases o) + bag (C.acquires ⟨o, r⟩)

variable {C} {g : Multiset H} {o : Op} {r : R o} {h : H} {tr : List (Event R)}

theorem monitor_next :
    C.monitor.next g o r = g - bag (C.releases o) + bag (C.acquires ⟨o, r⟩) := rfl

theorem allow_of_none (hu : C.uses o = none) (hr : C.releases o = none) : C.monitor.allow g o := by
  rintro h (huse | hrelease)
  · rw [hu] at huse
    cases huse
  · rw [hr] at hrelease
    cases hrelease

theorem next_of_none (hr : C.releases o = none) (ha : C.acquires ⟨o, r⟩ = none) :
    C.monitor.next g o r = g := by
  rw [monitor_next, hr, ha]
  exact (add_zero _).trans (tsub_zero g)

theorem next_acquires (hr : C.releases o = none) (ha : C.acquires ⟨o, r⟩ = some h) :
    C.monitor.next g o r = h ::ₘ g := by
  rw [monitor_next, hr, ha]
  show g - 0 + {h} = h ::ₘ g
  rw [tsub_zero, add_comm, Multiset.singleton_add]

theorem next_releases (hr : C.releases o = some h) (ha : C.acquires ⟨o, r⟩ = none) :
    C.monitor.next (h ::ₘ g) o r = g := by
  rw [monitor_next, hr, ha]
  show (h ::ₘ g) - {h} + 0 = g
  rw [add_zero, ← Multiset.singleton_add, add_tsub_cancel_left]

/-- What is held and what was given up, is what there was and what has come. -/
theorem next_balance (hallow : C.monitor.allow g o) :
    C.monitor.next g o r + bag (C.releases o) = g + bag (C.acquires ⟨o, r⟩) := by
  have hle : bag (C.releases o) ≤ g := by
    cases hr : C.releases o with
    | none => exact Multiset.zero_le g
    | some h => exact Multiset.singleton_le.mpr (hallow h (Or.inr hr))
  rw [monitor_next, add_right_comm, Multiset.sub_add_cancel hle]

/-- Every operation of the trace is allowed where it stands. -/
def Allowed (C : Custody R H) (g : Multiset H) (tr : List (Event R)) : Prop :=
  ∀ pre ev post, tr = pre ++ ev :: post → C.monitor.allow (C.monitor.after g pre) ev.1

theorem Allowed.balance (hallow : C.Allowed g tr) :
    C.monitor.after g tr + (C.released tr : Multiset H) = g + (C.acquired tr : Multiset H) := by
  induction tr generalizing g with
  | nil => rfl
  | cons ev tr ih =>
      have hrest : C.Allowed (C.monitor.next g ev.1 ev.2) tr := fun pre ev' post htr =>
        hallow (ev :: pre) ev' post (by rw [htr, List.cons_append])
      have hstep := next_balance (r := ev.2) (show C.monitor.allow g ev.1 from hallow [] ev tr rfl)
      rw [Cmd.Monitor.after_cons, released_cons, acquired_cons, ← bag_add, ← bag_add]
      calc C.monitor.after (C.monitor.next g ev.1 ev.2) tr +
            (bag (C.releases ev.1) + (C.released tr : Multiset H))
          = C.monitor.after (C.monitor.next g ev.1 ev.2) tr + (C.released tr : Multiset H) +
              bag (C.releases ev.1) := by rw [add_assoc, add_comm (bag _)]
        _ = C.monitor.next g ev.1 ev.2 + bag (C.releases ev.1) + (C.acquired tr : Multiset H) := by
              rw [ih hrest, add_right_comm]
        _ = g + (bag (C.acquires ev) + (C.acquired tr : Multiset H)) := by
              rw [hstep, add_assoc]

theorem Allowed.tidy (hallow : C.Allowed 0 tr) (hnone : C.monitor.after 0 tr = 0) : C.Tidy tr where
  held {pre ev post h} htr hneeds := by
    have hpre : C.Allowed 0 pre := fun pre' ev' post' heq =>
      hallow pre' ev' (post' ++ ev :: post) (by rw [htr, heq, List.append_assoc, List.cons_append])
    have hcount := congrArg (Multiset.count h) hpre.balance
    have hheld := Multiset.count_pos.mpr (hallow pre ev post htr h hneeds)
    simp only [Multiset.count_add, Multiset.coe_count, Multiset.count_zero] at hcount
    omega
  settled := by
    have hbalance := hallow.balance
    rw [hnone, zero_add, zero_add] at hbalance
    exact Multiset.coe_eq_coe.mp hbalance

theorem tidy_of_obeys {c : Cmd R α} {a : α} (hc : c.Obeys C.monitor (fun _ g => g = 0) 0)
    (hr : Cmd.Runs c tr a) : C.Tidy tr :=
  Allowed.tidy (Cmd.Obeys.allowed hr hc) (Cmd.Obeys.after hr hc)

/-! ## Operations without handles -/

/-- Where every operation can be answered, there is a run. -/
theorem exists_run [∀ o, Nonempty (R o)] (c : Cmd R α) : ∃ tr a, Cmd.Runs c tr a := by
  induction c with
  | ret a => exact ⟨[], a, .ret a⟩
  | op o k ih =>
      obtain ⟨r⟩ := ‹∀ o, Nonempty (R o)› o
      obtain ⟨tr, a, hr⟩ := ih r
      exact ⟨⟨o, r⟩ :: tr, a, .op r hr⟩

theorem obeys_of_idle [∀ o, Nonempty (R o)] {c : Cmd R α}
    (hc : ∀ tr a, Cmd.Runs c tr a → ∀ ev ∈ tr, C.Idle ev.1) :
    c.Obeys C.monitor (fun _ g' => g' = g) g := by
  induction c generalizing g with
  | ret a => rfl
  | op o k ih =>
      have ho : C.Idle o := by
        obtain ⟨tr, a, hr⟩ := exists_run (.op o k)
        obtain ⟨r, tr', rfl, -⟩ := Cmd.runs_op.mp hr
        exact hc _ a hr ⟨o, r⟩ List.mem_cons_self
      refine ⟨allow_of_none ho.uses ho.releases, fun r => ?_⟩
      rw [next_of_none ho.releases (ho.acquires r)]
      exact ih r fun tr a hr ev hmem => hc _ a (.op r hr) ev (List.mem_cons_of_mem _ hmem)

open Script in
/-- They leave what is held as it is. -/
theorem wp_of_uses [∀ o, Nonempty (R o)] {S X : Type} {c : Script R S X α} {p : Op → Prop}
    (hc : Uses p c) (hp : ∀ o, p o → C.Idle o)
    {s : S} : Wp C.monitor c (fun _ _ g' => g' = g) s g :=
  obeys_of_idle fun tr a hr ev hmem => hp _ (hc s tr a hr ev hmem)

end Custody
end Wraith.Lib

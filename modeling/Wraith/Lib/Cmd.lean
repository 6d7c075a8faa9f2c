/-
# `Wraith.Lib.Cmd` — programs as trees of operations

A program that talks to its surroundings is a tree: either it has finished, or it performs one
operation and goes on according to the response.  Nothing is said about where responses come
from, so one tree serves three readings:

    Runs c tr a            some sequence of responses leads `c` to `a`, leaving the trace `tr`
    exec answer c s        the run against one scripted responder; executable
    Obeys M c Q g          every run keeps to the monitor `M` and ends in `Q`

`Obeys` is a weakest precondition over the ghost state of a monitor: `allow` is asked before each
operation, `next` records the response.  It distributes over `bind` (`obeys_bind`), so a program is
verified function by function, and `Obeys.allowed` turns it back into a statement about traces: at
every position of every trace the operation performed there was allowed.
-/
import Mathlib.Data.Sigma.Basic

namespace Wraith.Lib

/-- A program whose operations are `e : E` and whose responses to `e` are of type `R e`. -/
inductive Cmd {E : Type} (R : E → Type) (α : Type) : Type where
  | ret (a : α)
  | op (e : E) (k : R e → Cmd R α)

/-- One operation with the response it got. -/
abbrev Event {E : Type} (R : E → Type) : Type := (e : E) × R e

namespace Cmd

variable {E : Type} {R : E → Type} {α β γ : Type}

/-- Sequencing: graft the continuation onto every leaf. -/
def bind : Cmd R α → (α → Cmd R β) → Cmd R β
  | .ret a, f => f a
  | .op e k, f => .op e (fun r => (k r).bind f)

instance : Monad (Cmd R) where
  pure := .ret
  bind := Cmd.bind

/-- A single operation. -/
def perform (e : E) : Cmd R (R e) := .op e .ret

@[simp] theorem pure_def (a : α) : (pure a : Cmd R α) = .ret a := rfl

@[simp] theorem ret_bind (a : α) (f : α → Cmd R β) : (Cmd.ret a >>= f) = f a := rfl

@[simp] theorem op_bind (e : E) (k : R e → Cmd R α) (f : α → Cmd R β) :
    (Cmd.op e k >>= f) = .op e (fun r => k r >>= f) := rfl

@[simp] theorem perform_bind (e : E) (f : R e → Cmd R β) : (perform e >>= f) = .op e f := rfl

theorem bind_assoc (c : Cmd R α) (f : α → Cmd R β) (g : β → Cmd R γ) :
    (c >>= f) >>= g = c >>= fun a => f a >>= g := by
  induction c with
  | ret a => rfl
  | op e k ih => exact congrArg (Cmd.op e) (funext ih)

/-! ## Traces -/

/-- `Runs c tr a`: answering the operations of `c` as recorded in `tr` ends it in `a`. -/
inductive Runs : Cmd R α → List (Event R) → α → Prop where
  | ret (a : α) : Runs (.ret a) [] a
  | op {e : E} {k : R e → Cmd R α} {tr : List (Event R)} {a : α} (r : R e) :
      Runs (k r) tr a → Runs (.op e k) (⟨e, r⟩ :: tr) a

@[simp] theorem runs_ret {a b : α} {tr : List (Event R)} :
    Runs (.ret a : Cmd R α) tr b ↔ tr = [] ∧ b = a := by
  constructor
  · intro h; cases h; exact ⟨rfl, rfl⟩
  · rintro ⟨rfl, rfl⟩; exact .ret _

theorem runs_op {e : E} {k : R e → Cmd R α} {tr : List (Event R)} {a : α} :
    Runs (.op e k) tr a ↔ ∃ r tr', tr = ⟨e, r⟩ :: tr' ∧ Runs (k r) tr' a := by
  constructor
  · intro h
    cases h with
    | op r h => exact ⟨r, _, rfl, h⟩
  · rintro ⟨r, tr', rfl, h⟩; exact .op r h

/-- A run of a sequence is a run of its first part followed by a run of the rest. -/
theorem runs_bind {f : α → Cmd R β} {b : β} : ∀ {c : Cmd R α} {tr : List (Event R)},
    Runs (c >>= f) tr b ↔
      ∃ tr₁ a tr₂, Runs c tr₁ a ∧ Runs (f a) tr₂ b ∧ tr = tr₁ ++ tr₂ := by
  intro c
  induction c with
  | ret a =>
      intro tr
      constructor
      · intro h; exact ⟨[], a, tr, .ret a, h, rfl⟩
      · rintro ⟨tr₁, a', tr₂, h₁, h₂, rfl⟩
        obtain ⟨rfl, rfl⟩ := runs_ret.mp h₁
        exact h₂
  | op e k ih =>
      intro tr
      rw [op_bind, runs_op]
      constructor
      · rintro ⟨r, tr', rfl, h⟩
        obtain ⟨tr₁, a, tr₂, h₁, h₂, rfl⟩ := (ih r).mp h
        exact ⟨⟨e, r⟩ :: tr₁, a, tr₂, .op r h₁, h₂, rfl⟩
      · rintro ⟨tr₁, a, tr₂, h₁, h₂, rfl⟩
        obtain ⟨r, tr', rfl, hk⟩ := runs_op.mp h₁
        exact ⟨r, tr' ++ tr₂, rfl, (ih r).mpr ⟨tr', a, tr₂, hk, h₂, rfl⟩⟩

/-- A program's run is determined by the responses: of two runs of one program along one trace
neither goes on beyond the other. -/
theorem Runs.unique {c : Cmd R α} {tr tr' : List (Event R)} {a a' : α} (h : Runs c tr a) :
    ∀ {rest rest' : List (Event R)}, Runs c tr' a' → tr ++ rest = tr' ++ rest' →
      tr = tr' ∧ a = a' ∧ rest = rest' := by
  induction h generalizing tr' with
  | ret a =>
      intro rest rest' h' heq
      obtain ⟨rfl, rfl⟩ := runs_ret.mp h'
      exact ⟨rfl, rfl, heq⟩
  | op r _ ih =>
      intro rest rest' h' heq
      obtain ⟨r', tr'', rfl, hk⟩ := runs_op.mp h'
      obtain ⟨hhead, htail⟩ := List.cons.inj heq
      obtain rfl := eq_of_heq (Sigma.mk.inj hhead).2
      obtain ⟨rfl, rfl, rfl⟩ := ih hk htail
      exact ⟨rfl, rfl, rfl⟩

theorem Runs.functional {c : Cmd R α} {tr : List (Event R)} {a a' : α} (h : Runs c tr a)
    (h' : Runs c tr a') : a = a' := (h.unique h' (rfl : tr ++ [] = tr ++ [])).2.1

/-- What is left of a run of a sequence once its first part has run. -/
theorem Runs.rest {c : Cmd R α} {f : α → Cmd R β} {tr₁ tr₂ : List (Event R)} {a : α} {b : β}
    (h : Runs (c >>= f) (tr₁ ++ tr₂) b) (hc : Runs c tr₁ a) : Runs (f a) tr₂ b := by
  obtain ⟨tr₁', a', tr₂', hc', hf, htr⟩ := runs_bind.mp h
  obtain ⟨rfl, rfl, rfl⟩ := hc.unique hc' htr
  exact hf

/-- The run against a scripted responder with its own state. -/
def exec {S : Type} (answer : S → (e : E) → R e × S) : Cmd R α → S → List (Event R) × α
  | .ret a, _ => ([], a)
  | .op e k, s =>
      let (r, s') := answer s e
      let (tr, a) := exec answer (k r) s'
      (⟨e, r⟩ :: tr, a)

theorem exec_runs {S : Type} (answer : S → (e : E) → R e × S) :
    ∀ (c : Cmd R α) (s : S), Runs c (exec answer c s).1 (exec answer c s).2 := by
  intro c
  induction c with
  | ret a => intro _; exact .ret a
  | op e k ih => intro s; exact .op _ (ih _ _)

/-- A responder without a state of its own gives one answer to each operation. -/
theorem exec_answers (respond : (e : E) → R e) : ∀ (c : Cmd R α),
    ∀ ev ∈ (exec (fun (_ : Unit) e => (respond e, ())) c ()).1, ev.2 = respond ev.1 := by
  intro c
  induction c with
  | ret a => intro ev hev; exact absurd hev List.not_mem_nil
  | op e k ih =>
      intro ev hev
      obtain rfl | hev := List.mem_cons.mp hev
      · rfl
      · exact ih _ ev hev

/-! ## Monitors -/

/-- A ghost automaton over the operations of a program. -/
structure Monitor (R : E → Type) (G : Type) where
  /-- May this operation be performed now? -/
  allow : G → E → Prop
  /-- The ghost state once the response is in. -/
  next : G → (e : E) → R e → G

variable {G : Type}

/-- The ghost state after a trace. -/
def Monitor.after (M : Monitor R G) : G → List (Event R) → G
  | g, [] => g
  | g, ev :: tr => M.after (M.next g ev.1 ev.2) tr

@[simp] theorem Monitor.after_nil (M : Monitor R G) (g : G) : M.after g [] = g := rfl

@[simp] theorem Monitor.after_cons (M : Monitor R G) (g : G) (ev : Event R) (tr : List (Event R)) :
    M.after g (ev :: tr) = M.after (M.next g ev.1 ev.2) tr := rfl

theorem Monitor.after_append (M : Monitor R G) : ∀ (tr tr' : List (Event R)) (g : G),
    M.after g (tr ++ tr') = M.after (M.after g tr) tr'
  | [], _, _ => rfl
  | _ :: tr, tr', _ => M.after_append tr tr' _

/-- A flag that some events raise and none lowers: it is up at the end if it was, or one of them
happened. -/
theorem Monitor.after_any (M : Monitor R G) {flag : G → Bool} {raises : Event R → Bool}
    (hstep : ∀ g ev, flag (M.next g ev.1 ev.2) = (flag g || raises ev)) :
    ∀ (tr : List (Event R)) (g : G), flag (M.after g tr) = (flag g || tr.any raises)
  | [], g => (Bool.or_false _).symm
  | ev :: tr, g => by
      rw [M.after_cons, M.after_any hstep tr, hstep, List.any_cons, Bool.or_assoc]

/-- A flag that holds as long as every event keeps it. -/
theorem Monitor.after_all (M : Monitor R G) {flag : G → Bool} {keeps : Event R → Bool}
    (hstep : ∀ g ev, flag (M.next g ev.1 ev.2) = (flag g && keeps ev)) :
    ∀ (tr : List (Event R)) (g : G), flag (M.after g tr) = (flag g && tr.all keeps)
  | [], g => (Bool.and_true _).symm
  | ev :: tr, g => by
      rw [M.after_cons, M.after_all hstep tr, hstep, List.all_cons, Bool.and_assoc]

/-- Every run of `c` from ghost state `g` performs only allowed operations and ends in `Q`. -/
def Obeys (M : Monitor R G) : Cmd R α → (α → G → Prop) → G → Prop
  | .ret a, Q, g => Q a g
  | .op e k, Q, g => M.allow g e ∧ ∀ r, (k r).Obeys M Q (M.next g e r)

variable {M : Monitor R G}

@[simp] theorem obeys_ret {a : α} {Q : α → G → Prop} {g : G} :
    (Cmd.ret a : Cmd R α).Obeys M Q g ↔ Q a g := Iff.rfl

@[simp] theorem obeys_op {e : E} {k : R e → Cmd R α} {Q : α → G → Prop} {g : G} :
    (Cmd.op e k).Obeys M Q g ↔ M.allow g e ∧ ∀ r, (k r).Obeys M Q (M.next g e r) := Iff.rfl

theorem obeys_bind {f : α → Cmd R β} {Q : β → G → Prop} : ∀ {c : Cmd R α} {g : G},
    (c >>= f).Obeys M Q g ↔ c.Obeys M (fun a g' => (f a).Obeys M Q g') g := by
  intro c
  induction c with
  | ret a => intro g; exact Iff.rfl
  | op e k ih =>
      intro g
      rw [op_bind, obeys_op, obeys_op]
      exact and_congr_right fun _ => forall_congr' fun r => ih r

theorem Obeys.mono {Q Q' : α → G → Prop} (hQ : ∀ a g, Q a g → Q' a g) : ∀ {c : Cmd R α} {g : G},
    c.Obeys M Q g → c.Obeys M Q' g := by
  intro c
  induction c with
  | ret a => intro g h; exact hQ a g h
  | op e k ih => intro g h; exact ⟨h.1, fun r => ih r (h.2 r)⟩

/-- What a run of an obedient program leaves behind. -/
theorem Obeys.after {Q : α → G → Prop} {c : Cmd R α} {tr : List (Event R)} {a : α}
    (hr : Runs c tr a) : ∀ {g : G}, c.Obeys M Q g → Q a (M.after g tr) := by
  induction hr with
  | ret a => intro g h; exact h
  | op r _ ih => intro g h; exact ih (h.2 r)

/-- Every operation of every trace was allowed at its position. -/
theorem Obeys.allowed {Q : α → G → Prop} {c : Cmd R α} {tr : List (Event R)} {a : α}
    (hr : Runs c tr a) : ∀ {g : G}, c.Obeys M Q g →
      ∀ pre ev post, tr = pre ++ ev :: post → M.allow (M.after g pre) ev.1 := by
  induction hr with
  | ret a => intro g _ pre ev post htr; simp at htr
  | @op e k tr a r _ ih =>
      intro g h pre ev post htr
      cases pre with
      | nil =>
          obtain ⟨rfl, -⟩ := List.cons.inj htr
          exact h.1
      | cons ev' pre =>
          obtain ⟨rfl, hrest⟩ := List.cons.inj htr
          exact ih (h.2 r) pre ev post hrest

/-- Conversely, a property of all runs is a property of the tree. -/
theorem obeys_of_runs {Q : α → G → Prop} (hallow : ∀ g e, M.allow g e) :
    ∀ {c : Cmd R α} {g : G}, (∀ tr a, Runs c tr a → Q a (M.after g tr)) → c.Obeys M Q g := by
  intro c
  induction c with
  | ret a => intro g h; exact h [] a (.ret a)
  | op e k ih =>
      intro g h
      exact ⟨hallow g e, fun r => ih r fun tr a hr => h (⟨e, r⟩ :: tr) a (.op r hr)⟩

/-! ## Two kinds of operations -/

section Sum

variable {E₁ E₂ : Type} {R₁ : E₁ → Type} {R₂ : E₂ → Type}

/-- A program over the second kind, among operations of both. -/
def right : Cmd R₂ α → Cmd (Sum.elim R₁ R₂) α
  | .ret a => .ret a
  | .op e k => .op (.inr e) fun r => (k r).right

/-- An operation of the second kind. -/
def ofRight (ev : Event R₂) : Event (Sum.elim R₁ R₂) := ⟨.inr ev.1, ev.2⟩

theorem runs_right {c : Cmd R₂ α} : ∀ {tr : List (Event (Sum.elim R₁ R₂))} {a : α},
    Runs c.right tr a ↔ ∃ tr', Runs c tr' a ∧ tr = tr'.map ofRight := by
  induction c with
  | ret b =>
      intro tr a
      constructor
      · intro h
        obtain ⟨rfl, rfl⟩ := runs_ret.mp h
        exact ⟨[], .ret a, rfl⟩
      · rintro ⟨tr', h, rfl⟩
        obtain ⟨rfl, rfl⟩ := runs_ret.mp h
        exact .ret a
  | op e k ih =>
      intro tr a
      constructor
      · intro h
        obtain ⟨r, tr', rfl, hrest⟩ := runs_op.mp h
        obtain ⟨tr'', hrun, rfl⟩ := (ih r).mp hrest
        exact ⟨⟨e, r⟩ :: tr'', .op (R := R₂) (e := e) (k := k) r hrun, rfl⟩
      · rintro ⟨tr', h, rfl⟩
        obtain ⟨r, tr'', rfl, hrest⟩ := runs_op.mp h
        exact .op (R := Sum.elim R₁ R₂) (e := .inr e) (k := fun r => (k r).right) r
          ((ih r).mpr ⟨tr'', hrest, rfl⟩)

end Sum

end Cmd
end Wraith.Lib

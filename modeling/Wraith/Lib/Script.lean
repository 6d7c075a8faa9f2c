/-
# `Wraith.Lib.Script` — programs with state and exceptions

A language in the manner of Python's statements over the operations of `Cmd`: sequencing, `raise`,
`try … except`, `try … finally`.  A script maps its state to a command that ends in a value or an
exception, and the state it leaves; state survives an exception.

`Wp M c Q s g` is the precondition calculus: started in state `s` with the monitor at `g`, every
run of `c` keeps to the monitor and ends in `Q`.  There is one rule for each construct, and
`Wp.bind` to compose specifications without unfolding what is called.
-/
import Wraith.Lib.Cmd

namespace Wraith.Lib

/-- A program with state `S` that may raise an `X`. -/
def Script {Op : Type} (R : Op → Type) (S X α : Type) : Type := S → Cmd R (Except X α × S)

namespace Script

variable {Op : Type} {R : Op → Type} {S X α β : Type}

/-- The rest of a sequence, after the first part has ended. -/
def continue_ (f : α → Script R S X β) : Except X α × S → Cmd R (Except X β × S)
  | (.ok a, s) => f a s
  | (.error x, s) => .ret (.error x, s)

instance : Monad (Script R S X) where
  pure a s := .ret (.ok a, s)
  bind c f s := c s >>= continue_ f

/-- `raise x`. -/
def raise (x : X) : Script R S X α := fun s => .ret (.error x, s)

def get : Script R S X S := fun s => .ret (.ok s, s)

def modify (f : S → S) : Script R S X Unit := fun s => .ret (.ok (), f s)

/-- An operation that returns or raises, as its response says. -/
def call (o : Op) (view : R o → Except X α) : Script R S X α :=
  fun s => .op o fun r => .ret (view r, s)

/-- A result that was computed: its value, or its exception. -/
def ofExcept : Except X α → Script R S X α
  | .ok a => pure a
  | .error x => raise x

/-- What follows a `try` body: nothing, or the handler that takes the exception. -/
def handle (h : X → Option (Script R S X α)) : Except X α × S → Cmd R (Except X α × S)
  | (.ok a, s) => .ret (.ok a, s)
  | (.error x, s) => match h x with
    | none => .ret (.error x, s)
    | some c => c s

/-- `try: c except …`: `h x` is the handler for `x`, if one of the clauses matches. -/
def tryExcept (c : Script R S X α) (h : X → Option (Script R S X α)) : Script R S X α :=
  fun s => c s >>= handle h

/-- How a `finally` clause ends: as the body did, unless it raises itself. -/
def afterFinally (r : Except X α) : Except X Unit × S → Cmd R (Except X α × S)
  | (.ok (), s) => .ret (r, s)
  | (.error x, s) => .ret (.error x, s)

/-- `try: c finally: d`. -/
def tryFinally (c : Script R S X α) (d : Script R S X Unit) : Script R S X α :=
  fun s => c s >>= fun p => d p.2 >>= afterFinally p.1

/-! ## Runs -/

variable {s s' : S} {tr : List (Event R)}

theorem runs_pure {a : α} {p : Except X α × S} :
    Cmd.Runs ((pure a : Script R S X α) s) tr p ↔ tr = [] ∧ p = (.ok a, s) := Cmd.runs_ret

theorem runs_raise {x : X} {p : Except X α × S} :
    Cmd.Runs ((raise x : Script R S X α) s) tr p ↔ tr = [] ∧ p = (.error x, s) := Cmd.runs_ret

/-- A run of a sequence that begins with a value. -/
theorem runs_pure_bind {a : α} {f : α → Script R S X β} {p : Except X β × S} :
    Cmd.Runs (((pure a : Script R S X α) >>= f) s) tr p ↔ Cmd.Runs (f a s) tr p := Iff.rfl

/-- A run of a sequence that gets past its first part. -/
theorem runs_bind_ok {c : Script R S X α} {f : α → Script R S X β} {a : α}
    {p : Except X β × S} {tr' : List (Event R)} (hc : Cmd.Runs (c s) tr (.ok a, s'))
    (hf : Cmd.Runs (f a s') tr' p) : Cmd.Runs ((c >>= f) s) (tr ++ tr') p :=
  Cmd.runs_bind.mpr ⟨tr, _, tr', hc, hf, rfl⟩

/-- A run of a sequence that ends behind its first part. -/
theorem runs_map {c : Script R S X α} {f : α → β} {a : α} (hc : Cmd.Runs (c s) tr (.ok a, s')) :
    Cmd.Runs ((c >>= fun a => (pure (f a) : Script R S X β)) s) tr (.ok (f a), s') := by
  have h := runs_bind_ok (f := fun a => (pure (f a) : Script R S X β)) hc (.ret _)
  rwa [List.append_nil] at h

/-- A run of a sequence that does not. -/
theorem runs_bind_error {c : Script R S X α} {f : α → Script R S X β} {x : X}
    (hc : Cmd.Runs (c s) tr (.error x, s')) : Cmd.Runs ((c >>= f) s) tr (.error x, s') :=
  Cmd.runs_bind.mpr ⟨tr, _, [], hc, .ret _, (List.append_nil tr).symm⟩

theorem runs_bind_cases {c : Script R S X α} {f : α → Script R S X β} {p : Except X β × S}
    (h : Cmd.Runs ((c >>= f) s) tr p) :
    (∃ x, p.1 = .error x ∧ Cmd.Runs (c s) tr (.error x, p.2)) ∨
    ∃ tr₁ a s' tr₂, Cmd.Runs (c s) tr₁ (.ok a, s') ∧ Cmd.Runs (f a s') tr₂ p ∧ tr = tr₁ ++ tr₂ := by
  obtain ⟨tr₁, ⟨r, s'⟩, tr₂, hc, hf, rfl⟩ := Cmd.runs_bind.mp h
  cases r with
  | ok a => exact Or.inr ⟨tr₁, a, s', tr₂, hc, hf, rfl⟩
  | error x =>
      obtain ⟨rfl, rfl⟩ := Cmd.runs_ret.mp hf
      exact Or.inl ⟨x, rfl, by rwa [List.append_nil]⟩

/-- A run of a sequence that returns: both parts return. -/
theorem runs_bind_returns {c : Script R S X α} {f : α → Script R S X β} {b : β}
    (h : Cmd.Runs ((c >>= f) s) tr (.ok b, s')) :
    ∃ tr₁ a s₁ tr₂, Cmd.Runs (c s) tr₁ (.ok a, s₁) ∧ Cmd.Runs (f a s₁) tr₂ (.ok b, s') ∧
      tr = tr₁ ++ tr₂ := by
  obtain ⟨x, heq, -⟩ | h := runs_bind_cases h
  · exact nomatch heq
  · exact h

/-- A run of an operation that returns, and of what follows. -/
theorem runs_call_ok {o : Op} {view : R o → Except X α} {f : α → Script R S X β} {r : R o} {a : α}
    {p : Except X β × S} (hr : view r = .ok a) (hf : Cmd.Runs (f a s) tr p) :
    Cmd.Runs ((call o view >>= f) s) (⟨o, r⟩ :: tr) p := by
  have hcall : Cmd.Runs ((call o view : Script R S X α) s) [⟨o, r⟩] (.ok a, s) := by
    refine Cmd.runs_op.mpr ⟨r, [], rfl, ?_⟩
    rw [hr]
    exact .ret _
  exact runs_bind_ok hcall hf

theorem runs_call_returns {o : Op} {view : R o → Except X α} {f : α → Script R S X β} {b : β}
    (h : Cmd.Runs ((call o view >>= f) s) tr (.ok b, s')) :
    ∃ r a tr', tr = ⟨o, r⟩ :: tr' ∧ view r = .ok a ∧ Cmd.Runs (f a s) tr' (.ok b, s') := by
  obtain ⟨tr₁, a, s₁, tr₂, hc, hf, rfl⟩ := runs_bind_returns h
  obtain ⟨r, tr', rfl, hr⟩ := Cmd.runs_op.mp hc
  obtain ⟨rfl, heq⟩ := Cmd.runs_ret.mp hr
  obtain ⟨hview, rfl⟩ := Prod.mk.inj heq
  exact ⟨r, a, tr₂, rfl, hview.symm, hf⟩

theorem runs_ofExcept {r : Except X α} {a : α}
    (h : Cmd.Runs ((ofExcept r : Script R S X α) s) tr (.ok a, s')) : tr = [] ∧ r = .ok a := by
  cases r with
  | ok b =>
      obtain ⟨rfl, heq⟩ := runs_pure.mp h
      exact ⟨rfl, congrArg Except.ok (Except.ok.inj (Prod.mk.inj heq).1).symm⟩
  | error x => exact nomatch (Prod.mk.inj (runs_raise.mp h).2).1

/-- What `finally` makes of the outcomes of the body and of the clause. -/
def finish (r : Except X α) : Except X Unit → Except X α
  | .ok () => r
  | .error x => .error x

theorem runs_tryFinally {c : Script R S X α} {d : Script R S X Unit} {p : Except X α × S} :
    Cmd.Runs (tryFinally c d s) tr p ↔ ∃ tr₁ r s' tr₂ u, Cmd.Runs (c s) tr₁ (r, s') ∧
      Cmd.Runs (d s') tr₂ (u, p.2) ∧ p.1 = finish r u ∧ tr = tr₁ ++ tr₂ := by
  constructor
  · intro h
    obtain ⟨tr₁, ⟨r, s'⟩, tr₂, hc, hde, rfl⟩ := Cmd.runs_bind.mp h
    obtain ⟨tr₃, ⟨u, s''⟩, tr₄, hd, he, rfl⟩ := Cmd.runs_bind.mp hde
    cases u with
    | ok _ =>
        obtain ⟨rfl, rfl⟩ := Cmd.runs_ret.mp he
        exact ⟨tr₁, r, s', tr₃, .ok (), hc, hd, rfl, by rw [List.append_nil]⟩
    | error x =>
        obtain ⟨rfl, rfl⟩ := Cmd.runs_ret.mp he
        exact ⟨tr₁, r, s', tr₃, .error x, hc, hd, rfl, by rw [List.append_nil]⟩
  · rintro ⟨tr₁, r, s', tr₂, u, hc, hd, hp, rfl⟩
    refine Cmd.runs_bind.mpr ⟨tr₁, _, tr₂, hc, Cmd.runs_bind.mpr ⟨tr₂, _, [], hd, ?_, ?_⟩, rfl⟩
    · cases u with
      | ok _ => exact Cmd.runs_ret.mpr ⟨rfl, Prod.ext hp rfl⟩
      | error x => exact Cmd.runs_ret.mpr ⟨rfl, Prod.ext hp rfl⟩
    · rw [List.append_nil]

theorem runs_tryExcept {c : Script R S X α} {h : X → Option (Script R S X α)}
    {p : Except X α × S} : Cmd.Runs (tryExcept c h s) tr p ↔ ∃ tr₁ q tr₂, Cmd.Runs (c s) tr₁ q ∧
      Cmd.Runs (handle h q) tr₂ p ∧ tr = tr₁ ++ tr₂ := Cmd.runs_bind

/-- A body that returns needs no handler. -/
theorem runs_tryExcept_ok {c : Script R S X α} {h : X → Option (Script R S X α)} {a : α}
    (hc : Cmd.Runs (c s) tr (.ok a, s')) : Cmd.Runs (tryExcept c h s) tr (.ok a, s') :=
  runs_tryExcept.mpr ⟨tr, _, [], hc, .ret _, (List.append_nil tr).symm⟩

/-! ## Preconditions -/

variable {G : Type} (M : Cmd.Monitor R G)

/-- Every run of `c` from `s` and `g` keeps to `M` and ends in `Q`. -/
def Wp (c : Script R S X α) (Q : Except X α → S → G → Prop) (s : S) (g : G) : Prop :=
  (c s).Obeys M (fun p g' => Q p.1 p.2 g') g

variable {M}

/-- What is required of the first part of a sequence. -/
def Continues (M : Cmd.Monitor R G) (f : α → Script R S X β) (Q : Except X β → S → G → Prop) :
    Except X α → S → G → Prop
  | .ok a, s, g => Wp M (f a) Q s g
  | .error x, s, g => Q (.error x) s g

/-- What is required of a `try` body. -/
def Handles (M : Cmd.Monitor R G) (h : X → Option (Script R S X α))
    (Q : Except X α → S → G → Prop) : Except X α → S → G → Prop
  | .ok a, s, g => Q (.ok a) s g
  | .error x, s, g => match h x with
    | none => Q (.error x) s g
    | some c => Wp M c Q s g

/-- What is required of a `finally` clause. -/
def Closes (r : Except X α) (Q : Except X α → S → G → Prop) : Except X Unit → S → G → Prop
  | .ok (), s, g => Q r s g
  | .error x, s, g => Q (.error x) s g

variable {Q : Except X α → S → G → Prop} {s : S} {g : G}

theorem handles_none {h : X → Option (Script R S X α)} {x : X} (hx : h x = none) :
    Handles M h Q (.error x) s g ↔ Q (.error x) s g := by
  rw [Handles, hx]

theorem handles_some {h : X → Option (Script R S X α)} {x : X} {c : Script R S X α}
    (hx : h x = some c) : Handles M h Q (.error x) s g ↔ Wp M c Q s g := by
  rw [Handles, hx]

@[simp] theorem wp_pure {a : α} : Wp M (pure a : Script R S X α) Q s g ↔ Q (.ok a) s g := Iff.rfl

@[simp] theorem wp_raise {x : X} :
    Wp M (raise x : Script R S X α) Q s g ↔ Q (.error x) s g := Iff.rfl

@[simp] theorem wp_call {o : Op} {view : R o → Except X α} :
    Wp M (call o view : Script R S X α) Q s g ↔
      M.allow g o ∧ ∀ r, Q (view r) s (M.next g o r) := Iff.rfl

theorem wp_mono {Q' : Except X α → S → G → Prop} (hQ : ∀ r s g, Q r s g → Q' r s g)
    {c : Script R S X α} (h : Wp M c Q s g) : Wp M c Q' s g :=
  Cmd.Obeys.mono (fun p g hp => hQ p.1 p.2 g hp) h

theorem wp_bind {c : Script R S X α} {f : α → Script R S X β} {Q : Except X β → S → G → Prop} :
    Wp M (c >>= f) Q s g ↔ Wp M c (Continues M f Q) s g := by
  show (c s >>= continue_ f).Obeys M _ g ↔ _
  rw [Cmd.obeys_bind]
  constructor
  · refine Cmd.Obeys.mono fun p g' hp => ?_
    obtain ⟨r, s'⟩ := p
    cases r with
    | ok a => exact hp
    | error x => exact hp
  · refine Cmd.Obeys.mono fun p g' hp => ?_
    obtain ⟨r, s'⟩ := p
    cases r with
    | ok a => exact hp
    | error x => exact hp

theorem wp_pure_bind {a : α} {f : α → Script R S X β} {Q : Except X β → S → G → Prop} :
    Wp M ((pure a : Script R S X α) >>= f) Q s g ↔ Wp M (f a) Q s g := Iff.rfl

theorem wp_get_bind {f : S → Script R S X β} {Q : Except X β → S → G → Prop} :
    Wp M (get >>= f) Q s g ↔ Wp M (f s) Q s g := Iff.rfl

theorem wp_modify_bind {f : S → S} {k : Unit → Script R S X β} {Q : Except X β → S → G → Prop} :
    Wp M (modify f >>= k) Q s g ↔ Wp M (k ()) Q (f s) g := Iff.rfl

theorem wp_tryExcept {c : Script R S X α} {h : X → Option (Script R S X α)} :
    Wp M (tryExcept c h) Q s g ↔ Wp M c (Handles M h Q) s g := by
  show (c s >>= handle h).Obeys M _ g ↔ _
  rw [Cmd.obeys_bind]
  have hpost : ∀ p g', (handle h p).Obeys M (fun p g' => Q p.1 p.2 g') g' ↔
      Handles M h Q p.1 p.2 g' := by
    rintro ⟨r, s'⟩ g'
    cases r with
    | ok a => exact Iff.rfl
    | error x =>
        simp only [handle, Handles]
        cases h x with
        | none => exact Iff.rfl
        | some c => exact Iff.rfl
  exact ⟨Cmd.Obeys.mono fun p g' hp => (hpost p g').mp hp,
    Cmd.Obeys.mono fun p g' hp => (hpost p g').mpr hp⟩

theorem wp_tryFinally {c : Script R S X α} {d : Script R S X Unit} :
    Wp M (tryFinally c d) Q s g ↔ Wp M c (fun r s' g' => Wp M d (Closes r Q) s' g') s g := by
  show (c s >>= fun p => d p.2 >>= afterFinally p.1).Obeys M _ g ↔ _
  rw [Cmd.obeys_bind]
  have hpost : ∀ (p : Except X α × S) (g' : G), (d p.2 >>= afterFinally p.1).Obeys M
      (fun p g' => Q p.1 p.2 g') g' ↔
      Wp M d (Closes p.1 Q) p.2 g' := by
    rintro ⟨r, s'⟩ g'
    have hret : ∀ (q : Except X Unit × S) (g'' : G), (afterFinally r q : Cmd R _).Obeys M
        (fun p g' => Q p.1 p.2 g') g'' ↔
        Closes r Q q.1 q.2 g'' := by
      rintro ⟨u, s''⟩ g''
      cases u with
      | ok _ => exact Iff.rfl
      | error x => exact Iff.rfl
    rw [Cmd.obeys_bind]
    exact ⟨Cmd.Obeys.mono fun q g'' hq => (hret q g'').mp hq,
      Cmd.Obeys.mono fun q g'' hq => (hret q g'').mpr hq⟩
  exact ⟨Cmd.Obeys.mono fun p g' hp => (hpost p g').mp hp,
    Cmd.Obeys.mono fun p g' hp => (hpost p g').mpr hp⟩

/-- Compose with a specification of the first part. -/
theorem Wp.bind {P : Except X α → S → G → Prop} {c : Script R S X α} {f : α → Script R S X β}
    {Q : Except X β → S → G → Prop} (hc : Wp M c P s g)
    (hok : ∀ a s' g', P (.ok a) s' g' → Wp M (f a) Q s' g')
    (herr : ∀ x s' g', P (.error x) s' g' → Q (.error x) s' g') : Wp M (c >>= f) Q s g := by
  rw [wp_bind]
  refine wp_mono (fun r s' g' hr => ?_) hc
  cases r with
  | ok a => exact hok a s' g' hr
  | error x => exact herr x s' g' hr

theorem handles_mono {Q' : Except X α → S → G → Prop} (hQ : ∀ r s g, Q r s g → Q' r s g)
    {h : X → Option (Script R S X α)} {r : Except X α} (hr : Handles M h Q r s g) :
    Handles M h Q' r s g := by
  cases r with
  | ok a => exact hQ _ _ _ hr
  | error x =>
      cases hx : h x with
      | none => exact (handles_none hx).mpr (hQ _ _ _ ((handles_none hx).mp hr))
      | some c => exact (handles_some hx).mpr (wp_mono hQ ((handles_some hx).mp hr))

theorem closes_mono {Q' : Except X α → S → G → Prop} (hQ : ∀ r s g, Q r s g → Q' r s g)
    {r : Except X α} {u : Except X Unit} (hu : Closes r Q u s g) : Closes r Q' u s g := by
  cases u with
  | ok _ => exact hQ _ _ _ hu
  | error x => exact hQ _ _ _ hu

/-- However the body has ended. -/
theorem closes_of_forall {r : Except X α} {u : Except X Unit} (hQ : ∀ r, Q r s g) :
    Closes r Q u s g := by
  cases u with
  | ok _ => exact hQ r
  | error x => exact hQ (.error x)

/-- What a run of a script leaves behind. -/
theorem Wp.after {c : Script R S X α} {tr : List (Event R)} {p : Except X α × S}
    (h : Wp M c Q s g) (hr : Cmd.Runs (c s) tr p) : Q p.1 p.2 (M.after g tr) :=
  Cmd.Obeys.after hr h

/-- What the run of a handler leaves behind. -/
theorem Handles.after {h : X → Option (Script R S X α)} {r : Except X α} {tr : List (Event R)}
    {p : Except X α × S} (hr : Handles M h Q r s g) (hrun : Cmd.Runs (handle h (r, s)) tr p) :
    Q p.1 p.2 (M.after g tr) := by
  cases r with
  | ok a =>
      obtain ⟨rfl, rfl⟩ := Cmd.runs_ret.mp hrun
      exact hr
  | error x =>
      cases hx : h x with
      | none =>
          rw [handle, hx] at hrun
          obtain ⟨rfl, rfl⟩ := Cmd.runs_ret.mp hrun
          exact (handles_none hx).mp hr
      | some c =>
          rw [handle, hx] at hrun
          exact ((handles_some hx).mp hr).after hrun

/-- Every operation of a run was allowed at its position. -/
theorem Wp.allowed {c : Script R S X α} {tr : List (Event R)} {p : Except X α × S}
    (h : Wp M c Q s g) (hr : Cmd.Runs (c s) tr p) :
    ∀ pre ev post, tr = pre ++ ev :: post → M.allow (M.after g pre) ev.1 :=
  Cmd.Obeys.allowed hr h

end Script
end Wraith.Lib

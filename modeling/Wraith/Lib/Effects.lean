/-
# `Wraith.Lib.Effects` — what a script can do at most

Two bounds on all runs of a script, beside `Uses` of `Wraith.Lib.Triple`, which bounds the
operations it performs: the exceptions that come out of it (`Raises`), and how it leaves its state
(`Alters`).  `Within` puts the three together.  There is a rule for each construct, so a bound is
established along the text of the script, without a look at its runs.

`Performs` bounds the order: with a list of things to be done before a script, what it does of them
stands in the order of the list, and what it leaves is still to be done.
-/
import Wraith.Lib.Triple

namespace Wraith.Lib.Script

variable {Op : Type} {R : Op → Type} {S X α β : Type} {c : Script R S X α} {f : α → Script R S X β}

/-! ## Operations -/

theorem Uses.get {p : Op → Prop} : Uses p (get : Script R S X S) := by
  intro s tr q hr ev hmem
  obtain ⟨rfl, -⟩ := Cmd.runs_ret.mp hr
  exact nomatch hmem

theorem Uses.modify {p : Op → Prop} {g : S → S} : Uses p (modify g : Script R S X Unit) := by
  intro s tr q hr ev hmem
  obtain ⟨rfl, -⟩ := Cmd.runs_ret.mp hr
  exact nomatch hmem

theorem Uses.tryFinally {p : Op → Prop} {d : Script R S X Unit} (hc : Uses p c) (hd : Uses p d) :
    Uses p (tryFinally c d) := by
  intro s tr q hr ev hmem
  obtain ⟨tr₁, r, s₁, tr₂, u, hbody, hclause, -, rfl⟩ := runs_tryFinally.mp hr
  obtain hmem | hmem := List.mem_append.mp hmem
  · exact hc s tr₁ _ hbody ev hmem
  · exact hd s₁ tr₂ _ hclause ev hmem

/-! ## Runs that return -/

section Returns

variable {s s' : S} {tr : List (Event R)} {b : β}

theorem mapError_eq_ok {Y : Type} {k : Y → X} {r : Except Y α} {a : α} :
    r.mapError k = .ok a ↔ r = .ok a := by
  cases r with
  | ok a' =>
      show (.ok a' : Except X α) = .ok a ↔ (.ok a' : Except Y α) = .ok a
      rw [Except.ok.injEq, Except.ok.injEq]
  | error y =>
      constructor
      · intro h
        cases h
      · intro h
        cases h

theorem returns_pure {a b : α} :
    Cmd.Runs ((pure a : Script R S X α) s) tr (.ok b, s') ↔ tr = [] ∧ b = a ∧ s' = s := by
  rw [runs_pure, Prod.mk.injEq, Except.ok.injEq]

theorem returns_call_bind {o : Op} {view : R o → Except X α} :
    Cmd.Runs ((call o view >>= f) s) tr (.ok b, s') ↔
      ∃ r a tr', view r = .ok a ∧ Cmd.Runs (f a s) tr' (.ok b, s') ∧ tr = ⟨o, r⟩ :: tr' := by
  constructor
  · intro h
    obtain ⟨r, a, tr', htr, hview, hf⟩ := runs_call_returns h
    exact ⟨r, a, tr', hview, hf, htr⟩
  · rintro ⟨r, a, tr', hview, hf, rfl⟩
    exact runs_call_ok hview hf

theorem returns_ofExcept_bind {r : Except X α} :
    Cmd.Runs ((ofExcept r >>= f) s) tr (.ok b, s') ↔
      ∃ a, r = .ok a ∧ Cmd.Runs (f a s) tr (.ok b, s') := by
  cases r with
  | ok a => exact ⟨fun h => ⟨a, rfl, h⟩, fun ⟨_, ha, h⟩ => Except.ok.inj ha ▸ h⟩
  | error x =>
      constructor
      · intro h
        cases (Cmd.runs_ret.mp h).2
      · rintro ⟨a, ha, -⟩
        cases ha

/-- A `try` statement whose handlers all come to a value that is not wanted: a wanted one is the
body's. -/
theorem returns_tryExcept {h : X → Option (Script R S X α)} {Q : α → Prop}
    (hh : ∀ x d, h x = some d → ∃ a, d = pure a ∧ ¬ Q a) :
    (∃ a s', Cmd.Runs (tryExcept c h s) tr (.ok a, s') ∧ Q a) ↔
      ∃ a s', Cmd.Runs (c s) tr (.ok a, s') ∧ Q a := by
  constructor
  · rintro ⟨a, s', hr, ha⟩
    obtain ⟨tr₁, ⟨r, s₁⟩, tr₂, hc, hrest, rfl⟩ := runs_tryExcept.mp hr
    cases r with
    | ok a' =>
        obtain ⟨rfl, heq⟩ := Cmd.runs_ret.mp hrest
        obtain ⟨haa, rfl⟩ := Prod.mk.inj heq
        obtain rfl := Except.ok.inj haa
        exact ⟨a, s', by rwa [List.append_nil], ha⟩
    | error x =>
        rw [handle] at hrest
        cases hx : h x with
        | none =>
            rw [hx] at hrest
            cases (Cmd.runs_ret.mp hrest).2
        | some d =>
            obtain ⟨a', rfl, hbad⟩ := hh x d hx
            rw [hx] at hrest
            obtain ⟨-, rfl, -⟩ := returns_pure.mp hrest
            exact absurd ha hbad
  · rintro ⟨a, s', hc, ha⟩
    exact ⟨a, s', runs_tryExcept_ok hc, ha⟩

end Returns

/-! ## Exceptions -/

/-- Only exceptions in `p` come out. -/
def Raises (p : X → Prop) (c : Script R S X α) : Prop :=
  ∀ s tr x s', Cmd.Runs (c s) tr (.error x, s') → p x

section Raises

variable {p p' : X → Prop}

theorem Raises.mono (h : Raises p' c) (hp : ∀ x, p' x → p x) : Raises p c :=
  fun s tr x s' hr => hp x (h s tr x s' hr)

theorem Raises.pure {a : α} : Raises p (pure a : Script R S X α) := by
  intro s tr x s' hr
  cases (runs_pure.mp hr).2

theorem Raises.get : Raises p (get : Script R S X S) := by
  intro s tr x s' hr
  cases (Cmd.runs_ret.mp hr).2

theorem Raises.modify {g : S → S} : Raises p (modify g : Script R S X Unit) := by
  intro s tr x s' hr
  cases (Cmd.runs_ret.mp hr).2

theorem Raises.raise {x : X} (h : p x) : Raises p (raise x : Script R S X α) := by
  intro s tr y s' hr
  obtain rfl := Except.error.inj (Prod.mk.inj (runs_raise.mp hr).2).1
  exact h

theorem Raises.call {o : Op} {view : R o → Except X α} (h : ∀ r x, view r = .error x → p x) :
    Raises p (call o view : Script R S X α) := by
  intro s tr x s' hr
  obtain ⟨r, tr', rfl, hret⟩ := Cmd.runs_op.mp hr
  exact h r x (Prod.mk.inj (Cmd.runs_ret.mp hret).2).1.symm

theorem Raises.bind (hc : Raises p c) (hf : ∀ a, Raises p (f a)) : Raises p (c >>= f) := by
  intro s tr x s' hr
  obtain ⟨y, hx, hrun⟩ | ⟨tr₁, a, s₁, tr₂, -, hrest, rfl⟩ := runs_bind_cases hr
  · obtain rfl := Except.error.inj hx
    exact hc s tr _ s' hrun
  · exact hf a s₁ tr₂ x s' hrest

/-- What a handler lets pass comes out, and what it raises itself. -/
theorem Raises.tryExcept {h : X → Option (Script R S X α)} (hc : Raises p' c)
    (hpass : ∀ x, p' x → h x = none → p x) (hh : ∀ x d, h x = some d → Raises p d) :
    Raises p (tryExcept c h) := by
  intro s tr x s' hr
  obtain ⟨tr₁, ⟨r, s₁⟩, tr₂, hrun, hrest, rfl⟩ := runs_tryExcept.mp hr
  cases r with
  | ok a => cases (Cmd.runs_ret.mp hrest).2
  | error y =>
      rw [handle] at hrest
      cases hy : h y with
      | none =>
          rw [hy] at hrest
          obtain rfl := Except.error.inj (Prod.mk.inj (Cmd.runs_ret.mp hrest).2).1
          exact hpass x (hc s tr₁ x s₁ hrun) hy
      | some d =>
          rw [hy] at hrest
          exact hh y d hy s₁ tr₂ x s' hrest

end Raises

/-! ## The state -/

/-- The state behind it is related to the one before. -/
def Alters (K : S → S → Prop) (c : Script R S X α) : Prop :=
  ∀ s tr r s', Cmd.Runs (c s) tr (r, s') → K s s'

section Alters

variable {K : S → S → Prop}

theorem Alters.pure (hrefl : ∀ s, K s s) {a : α} : Alters K (pure a : Script R S X α) := by
  intro s tr r s' hr
  obtain ⟨-, heq⟩ := runs_pure.mp hr
  exact (Prod.mk.inj heq).2 ▸ hrefl s

theorem Alters.raise (hrefl : ∀ s, K s s) {x : X} : Alters K (raise x : Script R S X α) := by
  intro s tr r s' hr
  obtain ⟨-, heq⟩ := runs_raise.mp hr
  exact (Prod.mk.inj heq).2 ▸ hrefl s

theorem Alters.get (hrefl : ∀ s, K s s) : Alters K (get : Script R S X S) := by
  intro s tr r s' hr
  obtain ⟨-, heq⟩ := Cmd.runs_ret.mp hr
  exact (Prod.mk.inj heq).2 ▸ hrefl s

theorem Alters.modify {g : S → S} (hg : ∀ s, K s (g s)) :
    Alters K (modify g : Script R S X Unit) := by
  intro s tr r s' hr
  obtain ⟨-, heq⟩ := Cmd.runs_ret.mp hr
  exact (Prod.mk.inj heq).2 ▸ hg s

theorem Alters.call (hrefl : ∀ s, K s s) {o : Op} {view : R o → Except X α} :
    Alters K (call o view : Script R S X α) := by
  intro s tr r s' hr
  obtain ⟨q, tr', rfl, hret⟩ := Cmd.runs_op.mp hr
  exact (Prod.mk.inj (Cmd.runs_ret.mp hret).2).2 ▸ hrefl s

theorem Alters.bind (htrans : ∀ s s' s'', K s s' → K s' s'' → K s s'') (hc : Alters K c)
    (hf : ∀ a, Alters K (f a)) : Alters K (c >>= f) := by
  intro s tr r s' hr
  obtain ⟨x, -, hrun⟩ | ⟨tr₁, a, s₁, tr₂, hrun, hrest, rfl⟩ := runs_bind_cases hr
  · exact hc s tr _ s' hrun
  · exact htrans _ _ _ (hc s tr₁ _ s₁ hrun) (hf a s₁ tr₂ r s' hrest)

theorem Alters.tryExcept (htrans : ∀ s s' s'', K s s' → K s' s'' → K s s'')
    {h : X → Option (Script R S X α)} (hc : Alters K c)
    (hh : ∀ x d, h x = some d → Alters K d) : Alters K (tryExcept c h) := by
  intro s tr r s' hr
  obtain ⟨tr₁, ⟨q, s₁⟩, tr₂, hrun, hrest, rfl⟩ := runs_tryExcept.mp hr
  have hbody := hc s tr₁ q s₁ hrun
  cases q with
  | ok a => exact (Prod.mk.inj (Cmd.runs_ret.mp hrest).2).2 ▸ hbody
  | error y =>
      rw [handle] at hrest
      cases hy : h y with
      | none =>
          rw [hy] at hrest
          exact (Prod.mk.inj (Cmd.runs_ret.mp hrest).2).2 ▸ hbody
      | some d =>
          rw [hy] at hrest
          exact htrans _ _ _ hbody (hh y d hy s₁ tr₂ r s' hrest)

end Alters

/-! ## All three -/

/-- The operations are in `p`, the exceptions in `q`, and the state changes by `K` only. -/
structure Within (p : Op → Prop) (q : X → Prop) (K : S → S → Prop) (c : Script R S X α) : Prop where
  uses : Uses p c
  raises : Raises q c
  alters : Alters K c

section Within

variable {p p' : Op → Prop} {q q' : X → Prop} {K : S → S → Prop}

theorem Within.mono (h : Within p' q' K c) (hp : ∀ o, p' o → p o) (hq : ∀ x, q' x → q x) :
    Within p q K c := ⟨h.uses.mono hp, h.raises.mono hq, h.alters⟩

theorem Within.modify {g : S → S} (hg : ∀ s, K s (g s)) :
    Within p q K (modify g : Script R S X Unit) :=
  ⟨.modify, .modify, .modify hg⟩

theorem Within.bind [IsTrans S K] (hc : Within p q K c) (hf : ∀ a, Within p q K (f a)) :
    Within p q K (c >>= f) :=
  ⟨hc.uses.bind fun a => (hf a).uses, hc.raises.bind fun a => (hf a).raises,
    hc.alters.bind (@IsTrans.trans _ K _) fun a => (hf a).alters⟩

theorem Within.tryExcept [IsTrans S K] {h : X → Option (Script R S X α)} (hc : Within p q K c)
    (hh : ∀ x d, h x = some d → Within p q K d) : Within p q K (tryExcept c h) :=
  ⟨hc.uses.tryExcept fun x d hd => (hh x d hd).uses,
    hc.raises.tryExcept (fun _ hx _ => hx) fun x d hd => (hh x d hd).raises,
    hc.alters.tryExcept (@IsTrans.trans _ K _) fun x d hd => (hh x d hd).alters⟩

variable [Std.Refl K]

theorem Within.pure {a : α} : Within p q K (pure a : Script R S X α) :=
  ⟨.pure, .pure, .pure refl⟩

theorem Within.raise {x : X} (h : q x) : Within p q K (raise x : Script R S X α) :=
  ⟨.raise, .raise h, .raise refl⟩

theorem Within.get : Within p q K (get : Script R S X S) := ⟨.get, .get, .get refl⟩

theorem Within.call {o : Op} {view : R o → Except X α} (ho : p o)
    (h : ∀ r x, view r = .error x → q x) : Within p q K (call o view : Script R S X α) :=
  ⟨.call ho, .call h, .call refl⟩

end Within

/-! ## The order -/

/-- What of the operations in a trace `f` tells apart. -/
def performed {A : Type} (f : Op → Option A) (tr : List (Event R)) : List A :=
  tr.filterMap fun ev => f ev.1

/-- From an agenda `l` a run of `c` does some things in their order, and leaves `l'`. -/
structure Performs {A : Type} (f : Op → Option A) (l : List A) (c : Script R S X α) (l' : List A) :
    Prop where
  rest : l'.Sublist l
  runs : ∀ s tr q, Cmd.Runs (c s) tr q → (performed f tr ++ l').Sublist l

section Performs

variable {A : Type} {f : Op → Option A} {l l' l'' : List A} {g : α → Script R S X β}

theorem performed_append (tr tr' : List (Event R)) :
    performed f (tr ++ tr') = performed f tr ++ performed f tr' := List.filterMap_append

theorem performed_eq_nil {p : Op → Prop} {tr : List (Event R)} (h : ∀ ev ∈ tr, p ev.1)
    (hp : ∀ o, p o → f o = none) : performed f tr = [] :=
  List.filterMap_eq_nil_iff.mpr fun ev hev => hp _ (h ev hev)

/-- Other operations are not on the agenda. -/
theorem Performs.of_uses {p : Op → Prop} (h : Uses p c) (hp : ∀ o, p o → f o = none) :
    Performs f l c l :=
  ⟨.refl _, fun s tr q hr => by
    rw [performed_eq_nil (h s tr q hr) hp]
    exact .refl _⟩

theorem Performs.pure {a : α} : Performs f l (pure a : Script R S X α) l :=
  .of_uses (p := fun _ => False) .pure fun _ h => h.elim

theorem Performs.raise {x : X} : Performs f l (raise x : Script R S X α) l :=
  .of_uses (p := fun _ => False) .raise fun _ h => h.elim

theorem Performs.get : Performs f l (get : Script R S X S) l :=
  .of_uses (p := fun _ => False) .get fun _ h => h.elim

theorem Performs.modify {k : S → S} : Performs f l (modify k : Script R S X Unit) l :=
  .of_uses (p := fun _ => False) .modify fun _ h => h.elim

/-- One that is. -/
theorem Performs.call {o : Op} {view : R o → Except X α} {a : A} (h : f o = some a) :
    Performs f (a :: l) (call o view : Script R S X α) l :=
  ⟨List.sublist_cons_self _ _, fun s tr q hr => by
    obtain ⟨r, tr', rfl, hret⟩ := Cmd.runs_op.mp hr
    obtain ⟨rfl, -⟩ := Cmd.runs_ret.mp hret
    rw [performed, List.filterMap_cons_some (f := fun ev : Event R => f ev.1) (a := ⟨o, r⟩) h]
    exact .refl _⟩

/-- What is left may be less than it is. -/
theorem Performs.leave (h : Performs f l c l') (hl : l''.Sublist l') : Performs f l c l'' :=
  ⟨hl.trans h.rest, fun s tr q hr => (List.Sublist.append_left hl _).trans (h.runs s tr q hr)⟩

theorem Performs.bind (hc : Performs f l c l') (hg : ∀ a, Performs f l' (g a) l'')
    (hl : l''.Sublist l') :
    Performs f l (c >>= g) l'' := by
  refine ⟨hl.trans hc.rest, fun s tr q hr => ?_⟩
  obtain ⟨r, s'⟩ := q
  obtain ⟨x, -, hrun⟩ | ⟨tr₁, a, s₁, tr₂, hrun, hrest, rfl⟩ := runs_bind_cases hr
  · exact (List.Sublist.append_left hl _).trans (hc.runs s tr _ hrun)
  · rw [performed_append, List.append_assoc]
    exact (List.Sublist.append_left ((hg a).runs s₁ tr₂ _ hrest) _).trans (hc.runs s tr₁ _ hrun)

/-- A handler goes on with what the body leaves. -/
theorem Performs.tryExcept {h : X → Option (Script R S X α)} (hc : Performs f l c l')
    (hh : ∀ x d, h x = some d → Performs f l' d l'') (hl : l''.Sublist l') :
    Performs f l (tryExcept c h) l'' := by
  refine ⟨hl.trans hc.rest, fun s tr q hr => ?_⟩
  obtain ⟨tr₁, ⟨r, s₁⟩, tr₂, hrun, hrest, rfl⟩ := runs_tryExcept.mp hr
  have hbody := hc.runs s tr₁ _ hrun
  suffices hhandle : (performed f tr₂ ++ l'').Sublist l' by
    rw [performed_append, List.append_assoc]
    exact (List.Sublist.append_left hhandle _).trans hbody
  cases r with
  | ok a =>
      obtain ⟨rfl, -⟩ := Cmd.runs_ret.mp hrest
      exact hl
  | error x =>
      rw [handle] at hrest
      cases hx : h x with
      | none =>
          rw [hx] at hrest
          obtain ⟨rfl, -⟩ := Cmd.runs_ret.mp hrest
          exact hl
      | some d =>
          rw [hx] at hrest
          exact (hh x d hx).runs s₁ tr₂ q hrest

end Performs

end Wraith.Lib.Script

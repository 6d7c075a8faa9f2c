/-
# `Wraith.Lib.Triple` — scripts against a world that answers

The world here is a relation `A w e r w'`: in `w`, the operation `e` may be answered `r`, and the
world is `w'` afterwards.  A trace is `Answered` along a path of such steps.

    Triple A P c Q      from a world in `P`, what `c` ends with, and the world it leaves, are in `Q`
    Ensures A P c Q     the same for runs that return
    Keeps A I c         `I` is an invariant of `c`

They are partial correctness over every run and every way of answering, and have one rule for each
construct of `Script`.  `watch` puts the state of a monitor beside the world, for assertions about
what has happened so far.  `Uses p c` says of a script that the operations it performs are in `p`.
-/
import Wraith.Lib.Script

namespace Wraith.Lib

variable {Op : Type} {R : Op → Type} {S X W α β : Type}

/-! ## Worlds that answer -/

/-- The world gets from `w` to `w'` by answering a trace. -/
def Answered (A : W → (e : Op) → R e → W → Prop) : W → List (Event R) → W → Prop
  | w, [], w' => w' = w
  | w, ev :: tr, w' => ∃ w₁, A w ev.1 ev.2 w₁ ∧ Answered A w₁ tr w'

variable {A : W → (e : Op) → R e → W → Prop}

theorem answered_append : ∀ {tr tr' : List (Event R)} {w w' : W},
    Answered A w (tr ++ tr') w' ↔ ∃ w₁, Answered A w tr w₁ ∧ Answered A w₁ tr' w'
  | [], _, w, w' => ⟨fun h => ⟨w, rfl, h⟩, fun ⟨_, h, h'⟩ => h ▸ h'⟩
  | ev :: tr, tr', w, w' => by
      constructor
      · rintro ⟨w₁, ha, h⟩
        obtain ⟨w₂, h₁, h₂⟩ := answered_append.mp h
        exact ⟨w₂, ⟨w₁, ha, h₁⟩, h₂⟩
      · rintro ⟨w₂, ⟨w₁, ha, h₁⟩, h₂⟩
        exact ⟨w₁, ha, answered_append.mpr ⟨w₂, h₁, h₂⟩⟩

theorem Answered.mono {A' : W → (e : Op) → R e → W → Prop}
    (hA : ∀ w e r w', A w e r w' → A' w e r w') :
    ∀ {tr : List (Event R)} {w w' : W}, Answered A w tr w' → Answered A' w tr w'
  | [], _, _, h => h
  | _ :: _, _, _, ⟨w₁, ha, h⟩ => ⟨w₁, hA _ _ _ _ ha, h.mono hA⟩

/-- A world with a monitor beside it. -/
def watch {G : Type} (A : W → (e : Op) → R e → W → Prop) (M : Cmd.Monitor R G) :
    W × G → (e : Op) → R e → W × G → Prop :=
  fun x e r x' => A x.1 e r x'.1 ∧ x'.2 = M.next x.2 e r

theorem Answered.watched {G : Type} {M : Cmd.Monitor R G} :
    ∀ {tr : List (Event R)} {w w' : W} {g : G},
    Answered A w tr w' → Answered (watch A M) (w, g) tr (w', M.after g tr)
  | [], _, _, _, h => by rw [h]; rfl
  | _ :: _, _, _, _, ⟨w₁, ha, h⟩ => ⟨(w₁, _), ⟨ha, rfl⟩, h.watched⟩

namespace Script

/-! ## Triples -/

def Triple (A : W → (e : Op) → R e → W → Prop) (P : W → Prop) (c : Script R S X α)
    (Q : Except X α → W → Prop) : Prop :=
  ∀ s tr p w w', P w → Cmd.Runs (c s) tr p → Answered A w tr w' → Q p.1 w'

variable {P P' : W → Prop} {c : Script R S X α} {f : α → Script R S X β}
  {Q Q' : Except X α → W → Prop}

theorem Triple.mono (h : Triple A P c Q) (hP : ∀ w, P' w → P w) (hQ : ∀ r w, Q r w → Q' r w) :
    Triple A P' c Q' :=
  fun s tr p w w' hw hr ha => hQ _ _ (h s tr p w w' (hP w hw) hr ha)

theorem Triple.and {Q' : Except X α → W → Prop} (h : Triple A P c Q) (h' : Triple A P' c Q') :
    Triple A (fun w => P w ∧ P' w) c (fun r w => Q r w ∧ Q' r w) :=
  fun s tr p w w' hw hr ha => ⟨h s tr p w w' hw.1 hr ha, h' s tr p w w' hw.2 hr ha⟩

/-- A precondition that does not depend on the world. -/
theorem Triple.fact {φ : Prop} (h : φ → Triple A P c Q) : Triple A (fun w => φ ∧ P w) c Q :=
  fun s tr p w w' hw => h hw.1 s tr p w w' hw.2

theorem Triple.exists {ι : Type*} {P : ι → W → Prop} (h : ∀ i, Triple A (P i) c Q) :
    Triple A (fun w => ∃ i, P i w) c Q :=
  fun s tr p w w' ⟨i, hw⟩ => h i s tr p w w' hw

theorem Triple.pure {a : α} (h : ∀ w, P w → Q (.ok a) w) :
    Triple A P (pure a : Script R S X α) Q := by
  intro s tr p w w' hw hr ha
  obtain ⟨rfl, rfl⟩ := runs_pure.mp hr
  obtain rfl := ha
  exact h _ hw

theorem Triple.raise {x : X} (h : ∀ w, P w → Q (.error x) w) :
    Triple A P (raise x : Script R S X α) Q := by
  intro s tr p w w' hw hr ha
  obtain ⟨rfl, rfl⟩ := runs_raise.mp hr
  obtain rfl := ha
  exact h _ hw

theorem Triple.call {o : Op} {view : R o → Except X α}
    (h : ∀ w r w', P w → A w o r w' → Q (view r) w') :
    Triple A P (call o view : Script R S X α) Q := by
  intro s tr p w w' hw hr ha
  obtain ⟨r, tr', rfl, hret⟩ := Cmd.runs_op.mp hr
  obtain ⟨rfl, rfl⟩ := Cmd.runs_ret.mp hret
  obtain ⟨w₁, hans, rfl⟩ := ha
  exact h _ _ _ hw hans

theorem Triple.bind {J : Except X α → W → Prop} {Q : Except X β → W → Prop} (hc : Triple A P c J)
    (hf : ∀ a, Triple A (J (.ok a)) (f a) Q) (herr : ∀ x w, J (.error x) w → Q (.error x) w) :
    Triple A P (c >>= f) Q := by
  intro s tr p w w' hw hr ha
  obtain ⟨x, hx, hrun⟩ | ⟨tr₁, a, s', tr₂, hrun, hrest, rfl⟩ := runs_bind_cases hr
  · rw [hx]
    exact herr x w' (hc s tr _ w w' hw hrun ha)
  · obtain ⟨w₁, h₁, h₂⟩ := answered_append.mp ha
    exact hf a s' tr₂ p w₁ w' (hc s tr₁ _ w w₁ hw hrun h₁) hrest h₂

/-- An operation, and what follows when it returns. -/
theorem Triple.call_bind {o : Op} {view : R o → Except X α} {J : α → W → Prop}
    {Q : Except X β → W → Prop} (hok : ∀ w r w' a, P w → A w o r w' → view r = .ok a → J a w')
    (herr : ∀ w r w' x, P w → A w o r w' → view r = .error x → Q (.error x) w')
    (hf : ∀ a, Triple A (J a) (f a) Q) : Triple A P (Script.call o view >>= f) Q := by
  refine Triple.bind (J := fun q w => (∀ a, q = .ok a → J a w) ∧ ∀ x, q = .error x → Q (.error x) w)
    (Triple.call fun w r w' hw ha => ?_) (fun a => ?_) fun x _ h => h.2 x rfl
  · exact ⟨fun a hview => hok w r w' a hw ha hview, fun x hview => herr w r w' x hw ha hview⟩
  · exact (hf a).mono (fun _ h => h.1 a rfl) fun _ _ h => h

/-- An operation that cannot but return, and what follows. -/
theorem Triple.returns_bind {o : Op} {view : R o → Except X α} {J : α → W → Prop}
    {Q : Except X β → W → Prop}
    (h : ∀ w r w', P w → A w o r w' → ∃ a, view r = .ok a ∧ J a w')
    (hf : ∀ a, Triple A (J a) (f a) Q) : Triple A P (Script.call o view >>= f) Q := by
  refine Triple.call_bind (fun w r w' a hw ha hview => ?_) (fun w r w' x hw ha hview => ?_) hf
  · obtain ⟨a', hview', hJ⟩ := h w r w' hw ha
    obtain rfl := Except.ok.inj (hview'.symm.trans hview)
    exact hJ
  · obtain ⟨a', hview', -⟩ := h w r w' hw ha
    exact nomatch hview'.symm.trans hview

/-- The same with a monitor beside the world. -/
theorem Triple.watch_bind {G : Type} {M : Cmd.Monitor R G} {P : W × G → Prop} {o : Op}
    {view : R o → Except X α} {J : α → W × G → Prop} {Q : Except X β → W × G → Prop}
    (hok : ∀ w g r w' a, P (w, g) → A w o r w' → view r = .ok a → J a (w', M.next g o r))
    (herr : ∀ w g r w' x, P (w, g) → A w o r w' → view r = .error x →
      Q (.error x) (w', M.next g o r))
    (hf : ∀ a, Triple (watch A M) (J a) (f a) Q) :
    Triple (watch A M) P (Script.call o view >>= f) Q := by
  refine Triple.call_bind (fun x r x' a hP ha hview => ?_) (fun x r x' e hP ha hview => ?_) hf
  · obtain ⟨hans, hnext⟩ := ha
    have h := hok x.1 x.2 r x'.1 a hP hans hview
    rwa [← hnext] at h
  · obtain ⟨hans, hnext⟩ := ha
    have h := herr x.1 x.2 r x'.1 e hP hans hview
    rwa [← hnext] at h

/-- A test, and what follows when it passes. -/
theorem Triple.ofExcept_bind {r : Except X α} {Q : Except X β → W → Prop}
    (herr : ∀ w x, P w → r = .error x → Q (.error x) w)
    (hf : ∀ a, r = .ok a → Triple A P (f a) Q) : Triple A P (Script.ofExcept r >>= f) Q := by
  cases r with
  | ok a => exact hf a rfl
  | error x => exact Triple.raise (S := S) fun w hw => herr w x hw rfl

theorem Triple.ofExcept {r : Except X α} (h : ∀ w, P w → Q r w) :
    Triple A P (Script.ofExcept r : Script R S X α) Q := by
  cases r with
  | ok a => exact Triple.pure h
  | error x => exact Triple.raise h

theorem Triple.tryExcept {h : X → Option (Script R S X α)} {J : Except X α → W → Prop}
    (hc : Triple A P c J) (hok : ∀ a w, J (.ok a) w → Q (.ok a) w)
    (hnone : ∀ x w, h x = none → J (.error x) w → Q (.error x) w)
    (hsome : ∀ x d, h x = some d → Triple A (J (.error x)) d Q) :
    Triple A P (tryExcept c h) Q := by
  intro s tr p w w' hw hr ha
  obtain ⟨tr₁, ⟨r, s'⟩, tr₂, hrun, hrest, rfl⟩ := runs_tryExcept.mp hr
  obtain ⟨w₁, h₁, h₂⟩ := answered_append.mp ha
  have hmid := hc s tr₁ _ w w₁ hw hrun h₁
  cases r with
  | ok a =>
      obtain ⟨rfl, rfl⟩ := Cmd.runs_ret.mp hrest
      obtain rfl := h₂
      exact hok a _ hmid
  | error x =>
      rw [handle] at hrest
      cases hx : h x with
      | none =>
          rw [hx] at hrest
          obtain ⟨rfl, rfl⟩ := Cmd.runs_ret.mp hrest
          obtain rfl := h₂
          exact hnone x _ hx hmid
      | some d =>
          rw [hx] at hrest
          exact hsome x d hx s' tr₂ p w₁ w' hmid hrest h₂

/-! ## Invariants -/

/-- `I` is kept, whether `c` returns or raises. -/
def Keeps (A : W → (e : Op) → R e → W → Prop) (I : W → Prop) (c : Script R S X α) : Prop :=
  Triple A I c fun _ => I

section Keeps

variable {I : W → Prop}

theorem Keeps.pure {a : α} : Keeps A I (pure a : Script R S X α) := Triple.pure fun _ h => h

theorem Keeps.raise {x : X} : Keeps A I (raise x : Script R S X α) := Triple.raise fun _ h => h

theorem Keeps.ofExcept {r : Except X α} : Keeps A I (ofExcept r : Script R S X α) :=
  Triple.ofExcept fun _ h => h

theorem Keeps.call {o : Op} {view : R o → Except X α} (h : ∀ w r w', I w → A w o r w' → I w') :
    Keeps A I (call o view : Script R S X α) := Triple.call h

theorem Keeps.bind (hc : Keeps A I c) (hf : ∀ a, Keeps A I (f a)) : Keeps A I (c >>= f) :=
  Triple.bind hc hf fun _ _ h => h

theorem Keeps.tryExcept {h : X → Option (Script R S X α)} (hc : Keeps A I c)
    (hh : ∀ x d, h x = some d → Keeps A I d) : Keeps A I (tryExcept c h) :=
  Triple.tryExcept hc (fun _ _ hw => hw) (fun _ _ _ hw => hw) hh

end Keeps

/-! ## Runs that return -/

/-- Nothing is said about a run that raises. -/
def Ensures (A : W → (e : Op) → R e → W → Prop) (P : W → Prop) (c : Script R S X α)
    (Q : α → W → Prop) : Prop :=
  Triple A P c fun r w => ∀ a, r = .ok a → Q a w

section Ensures

variable {Q Q' : α → W → Prop}

theorem Ensures.mono (h : Ensures A P c Q) (hP : ∀ w, P' w → P w) (hQ : ∀ a w, Q a w → Q' a w) :
    Ensures A P' c Q' :=
  Triple.mono h hP fun _ _ h a ha => hQ a _ (h a ha)

theorem Ensures.trivial : Ensures A P c fun _ _ => True := fun _ _ _ _ _ _ _ _ _ _ => ⟨⟩

theorem Ensures.fact {φ : Prop} (h : φ → Ensures A P c Q) : Ensures A (fun w => φ ∧ P w) c Q :=
  Triple.fact h

theorem Ensures.pure {a : α} (h : ∀ w, P w → Q a w) : Ensures A P (pure a : Script R S X α) Q :=
  Triple.pure fun w hw _ hb => Except.ok.inj hb ▸ h w hw

theorem Ensures.raise {x : X} : Ensures A P (raise x : Script R S X α) Q :=
  Triple.raise fun _ _ _ hb => nomatch hb

theorem Ensures.ofExcept {r : Except X α} (h : ∀ w a, P w → r = .ok a → Q a w) :
    Ensures A P (ofExcept r : Script R S X α) Q := by
  cases r with
  | ok a => exact Ensures.pure fun w hw => h w a hw rfl
  | error x => exact Ensures.raise

theorem Ensures.call {o : Op} {view : R o → Except X α}
    (h : ∀ w r w' a, P w → A w o r w' → view r = .ok a → Q a w') :
    Ensures A P (call o view : Script R S X α) Q :=
  Triple.call fun w r w' hw ha a hv => h w r w' a hw ha hv

theorem Ensures.bind {J : α → W → Prop} {Q : β → W → Prop} (hc : Ensures A P c J)
    (hf : ∀ a, Ensures A (J a) (f a) Q) : Ensures A P (c >>= f) Q :=
  Triple.bind hc (fun a => Triple.mono (hf a) (fun _ h => h a rfl) fun _ _ h => h)
    fun _ _ _ _ h => nomatch h

/-- What is returned, if `c` is run from `w` along an answered trace. -/
theorem Ensures.returns (h : Ensures A P c Q) {s s' : S} {tr : List (Event R)} {a : α} {w w' : W}
    (hw : P w) (hr : Cmd.Runs (c s) tr (.ok a, s')) (ha : Answered A w tr w') : Q a w' :=
  h s tr _ w w' hw hr ha a rfl

end Ensures

/-! ## The operations of a script -/

/-- Only operations in `p` are performed. -/
def Uses (p : Op → Prop) (c : Script R S X α) : Prop :=
  ∀ s tr q, Cmd.Runs (c s) tr q → ∀ ev ∈ tr, p ev.1

section Uses

variable {p : Op → Prop}

theorem Uses.pure {a : α} : Uses p (pure a : Script R S X α) := by
  intro s tr q hr ev hmem
  obtain ⟨rfl, rfl⟩ := runs_pure.mp hr
  exact nomatch hmem

theorem Uses.raise {x : X} : Uses p (raise x : Script R S X α) := by
  intro s tr q hr ev hmem
  obtain ⟨rfl, rfl⟩ := runs_raise.mp hr
  exact nomatch hmem

theorem Uses.ofExcept {r : Except X α} : Uses p (ofExcept r : Script R S X α) := by
  cases r with
  | ok a => exact Uses.pure
  | error x => exact Uses.raise

theorem Uses.call {o : Op} {view : R o → Except X α} (h : p o) :
    Uses p (call o view : Script R S X α) := by
  intro s tr q hr ev hmem
  obtain ⟨r, tr', rfl, hret⟩ := Cmd.runs_op.mp hr
  obtain ⟨rfl, rfl⟩ := Cmd.runs_ret.mp hret
  obtain rfl := List.mem_singleton.mp hmem
  exact h

theorem Uses.bind (hc : Uses p c) (hf : ∀ a, Uses p (f a)) : Uses p (c >>= f) := by
  intro s tr q hr ev hmem
  obtain ⟨x, -, hrun⟩ | ⟨tr₁, a, s', tr₂, hrun, hrest, rfl⟩ := runs_bind_cases hr
  · exact hc s tr _ hrun ev hmem
  · obtain hmem | hmem := List.mem_append.mp hmem
    · exact hc s tr₁ _ hrun ev hmem
    · exact hf a s' tr₂ q hrest ev hmem

theorem Uses.tryExcept {h : X → Option (Script R S X α)} (hc : Uses p c)
    (hh : ∀ x d, h x = some d → Uses p d) : Uses p (tryExcept c h) := by
  intro s tr q hr ev hmem
  obtain ⟨tr₁, ⟨r, s'⟩, tr₂, hrun, hrest, rfl⟩ := runs_tryExcept.mp hr
  obtain hmem | hmem := List.mem_append.mp hmem
  · exact hc s tr₁ _ hrun ev hmem
  · cases r with
    | ok a =>
        obtain ⟨rfl, rfl⟩ := Cmd.runs_ret.mp hrest
        exact nomatch hmem
    | error x =>
        rw [handle] at hrest
        cases hx : h x with
        | none =>
            rw [hx] at hrest
            obtain ⟨rfl, rfl⟩ := Cmd.runs_ret.mp hrest
            exact nomatch hmem
        | some d =>
            rw [hx] at hrest
            exact hh x d hx s' tr₂ q hrest ev hmem

theorem Uses.mono {p' : Op → Prop} (h : Uses p c) (hp : ∀ o, p o → p' o) : Uses p' c :=
  fun s tr q hr ev hmem => hp _ (h s tr q hr ev hmem)

/-- What the operations of a script keep is kept, whether it returns or raises. -/
theorem Uses.keeps {I : W → Prop} (h : Uses p c)
    (hI : ∀ w o r w', p o → I w → A w o r w' → I w') : Keeps A I c := by
  intro s tr q w w' hw hr ha
  have huses := h s tr q hr
  clear hr
  induction tr generalizing w with
  | nil =>
      obtain rfl := ha
      exact hw
  | cons ev tr ih =>
      obtain ⟨w₁, hans, ha⟩ := ha
      exact ih w₁ (hI _ _ _ _ (huses ev (.head _)) hw hans) ha fun ev' hev =>
        huses ev' (.tail _ hev)

end Uses

end Script
end Wraith.Lib

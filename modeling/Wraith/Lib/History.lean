/-
# `Wraith.Lib.History` — scripts and what has happened before

A script may do an operation because of what has happened before it: it hands on a path that another
operation has returned, or goes on because one has succeeded.  A `Discipline` says what each
operation has to be justified by, in terms of the events so far, and what the state has to answer
for.  `Follows D P c Q` is a triple over states and histories: from `P`, every operation of `c` is
justified where it stands, and where `c` returns, `Q` holds.

Histories only grow, so what is known of one stays known: this is `Follows.frame`.  `Follows.run`
reads a triple off the runs, and `Follows.reaches` off the states of a script in a world.
-/
import Wraith.Lib.Interleave

namespace Wraith.Lib.Script

variable {Op : Type} {R : Op → Type} {S X α β : Type}

abbrev History (R : Op → Type) : Type := List (Event R)

/-- What justifies the operations, and what the state is backed by. -/
structure Discipline (R : Op → Type) (S : Type) where
  allow : History R → Op → Prop
  inv : S → History R → Prop
  inv_mono : ∀ {s : S} {g g' : History R}, g ⊆ g' → inv s g → inv s g'

/-- The monitor that writes everything down. -/
def Discipline.recording (D : Discipline R S) : Cmd.Monitor R (History R) where
  allow := D.allow
  next g o r := g ++ [⟨o, r⟩]

theorem Discipline.recording_after (D : Discipline R S) (g tr : History R) :
    D.recording.after g tr = g ++ tr := by
  induction tr generalizing g with
  | nil => exact (List.append_nil g).symm
  | cons ev tr ih =>
      rw [Cmd.Monitor.after_cons, ih, List.append_cons]
      rfl

/-- From `P`, and the invariant, every operation of `c` is justified; `Q` holds where it returns. -/
def Follows (D : Discipline R S) (P : S → History R → Prop) (c : Script R S X α)
    (Q : α → S → History R → Prop) : Prop :=
  ∀ s g, D.inv s g → P s g →
    Wp D.recording c (fun r s' g' => D.inv s' g' ∧ g ⊆ g' ∧ ∀ a, r = .ok a → Q a s' g') s g

/-- Nothing is known but the invariant. -/
def Nothing (_ : S) (_ : History R) : Prop := True

variable {D : Discipline R S} {P P' : S → History R → Prop} {c : Script R S X α}
  {Q Q' : α → S → History R → Prop} {f : α → Script R S X β} {Q₁ : β → S → History R → Prop}

theorem Follows.mono (h : Follows D P' c Q') (hP : ∀ s g, D.inv s g → P s g → P' s g)
    (hQ : ∀ a s g, D.inv s g → Q' a s g → Q a s g) : Follows D P c Q := fun s g hI hPs =>
  wp_mono (fun _ _ _ ⟨hI', hg, hret⟩ => ⟨hI', hg, fun a ha => hQ a _ _ hI' (hret a ha)⟩)
    (h s g hI (hP s g hI hPs))

theorem Follows.fact {φ : Prop} (h : φ → Follows D P c Q) : Follows D (fun s g => φ ∧ P s g) c Q :=
  fun s g hI hP => h hP.1 s g hI hP.2

theorem Follows.pure {a : α} (h : ∀ s g, D.inv s g → P s g → Q a s g) :
    Follows D P (pure a : Script R S X α) Q := fun s g hI hP =>
  ⟨hI, List.Subset.refl g, fun _ ha => Except.ok.inj ha ▸ h s g hI hP⟩

theorem Follows.raise {x : X} : Follows D P (raise x : Script R S X α) Q := fun s g hI _ =>
  ⟨hI, List.Subset.refl g, fun _ ha => by cases ha⟩

theorem Follows.get_bind {f : S → Script R S X β}
    (h : ∀ s₀, Follows D (fun s g => s = s₀ ∧ P s g) (f s₀) Q₁) : Follows D P (get >>= f) Q₁ :=
  fun s g hI hP => wp_get_bind.mpr (h s s g hI ⟨rfl, hP⟩)

theorem Follows.modify {k : S → S} {Q : Unit → S → History R → Prop}
    (h : ∀ s g, D.inv s g → P s g → D.inv (k s) g ∧ Q () (k s) g) :
    Follows D P (modify k : Script R S X Unit) Q := fun s g hI hP =>
  ⟨(h s g hI hP).1, List.Subset.refl g, fun _ _ => (h s g hI hP).2⟩

/-- An operation. -/
theorem Follows.call {o : Op} {view : R o → Except X α}
    (hallow : ∀ s g, D.inv s g → P s g → D.allow g o)
    (h : ∀ s g r a, D.inv s g → P s g → view r = .ok a → Q a s (g ++ [⟨o, r⟩])) :
    Follows D P (call o view : Script R S X α) Q := by
  intro s g hI hP
  refine wp_call.mpr ⟨hallow s g hI hP, fun r => ?_⟩
  have hg : g ⊆ g ++ [⟨o, r⟩] := List.subset_append_left _ _
  exact ⟨D.inv_mono hg hI, hg, fun a ha => h s g r a hI hP ha⟩

theorem Follows.bind {J : α → S → History R → Prop} (hc : Follows D P c J)
    (hf : ∀ a, Follows D (J a) (f a) Q₁) : Follows D P (c >>= f) Q₁ := by
  intro s g hI hP
  refine (hc s g hI hP).bind (fun a s' g' ⟨hI', hg, hret⟩ => ?_) fun x s' g' ⟨hI', hg, _⟩ => ?_
  · exact wp_mono (fun _ _ _ ⟨hI'', hg', hret'⟩ => ⟨hI'', List.Subset.trans hg hg', hret'⟩)
      (hf a s' g' hI' (hret a rfl))
  · exact ⟨hI', hg, fun _ ha => by cases ha⟩

/-- A handler starts with nothing but the invariant. -/
theorem Follows.tryExcept {h : X → Option (Script R S X α)} (hc : Follows D P c Q)
    (hh : ∀ x d, h x = some d → Follows D Nothing d Q) : Follows D P (tryExcept c h) Q := by
  intro s g hI hP
  refine wp_tryExcept.mpr (wp_mono (fun r s' g' ⟨hI', hg, hret⟩ => ?_) (hc s g hI hP))
  cases r with
  | ok a => exact ⟨hI', hg, hret⟩
  | error x =>
      cases hx : h x with
      | none => exact (handles_none hx).mpr ⟨hI', hg, hret⟩
      | some d =>
          refine (handles_some hx).mpr
            (wp_mono (fun _ _ _ ⟨hI'', hg', hret'⟩ => ?_) (hh x d hx s' g' hI' trivial))
          exact ⟨hI'', List.Subset.trans hg hg', hret'⟩

/-- What is known of a history and grows with it. -/
def Lasting (F : History R → Prop) : Prop := ∀ g g', g ⊆ g' → F g → F g'

/-- What is known stays known. -/
theorem Follows.frame {F : History R → Prop} (hF : Lasting F) (h : Follows D P c Q) :
    Follows D (fun s g => F g ∧ P s g) c (fun a s g => F g ∧ Q a s g) := fun s g hI hP =>
  wp_mono (fun _ _ _ ⟨hI', hg, hret⟩ => ⟨hI', hg, fun a ha => ⟨hF _ _ hg hP.1, hret a ha⟩⟩)
    (h s g hI hP.2)

theorem Follows.tryFinally {F : α → History R → Prop} {d : Script R S X Unit}
    (hF : ∀ a, Lasting (F a)) (hc : Follows D P c fun a _ g => F a g)
    (hd : Follows D Nothing d fun _ _ _ => True) :
    Follows D P (tryFinally c d) fun a _ g => F a g := by
  intro s g hI hP
  refine wp_tryFinally.mpr (wp_mono (fun r s' g' ⟨hI', hg, hret⟩ => ?_) (hc s g hI hP))
  refine wp_mono (fun u s'' g'' ⟨hI'', hg', _⟩ => ?_) (hd s' g' hI' trivial)
  have hgrown := List.Subset.trans hg hg'
  cases u with
  | ok _ => exact ⟨hI'', hgrown, fun a ha => hF a _ _ hg' (hret a ha)⟩
  | error x => exact ⟨hI'', hgrown, fun _ ha => by cases ha⟩

/-- **A run from nothing**: every operation was justified by what stood before it. -/
theorem Follows.run {s s' : S} {tr : History R} {r : Except X α} (h : Follows D P c Q)
    (hI : D.inv s []) (hP : P s [])
    (hr : Cmd.Runs (c s) tr (r, s')) :
    (∀ pre ev post, tr = pre ++ ev :: post → D.allow pre ev.1) ∧ ∀ a, r = .ok a → Q a s' tr := by
  have hwp := h s [] hI hP
  constructor
  · intro pre ev post heq
    have hallow := hwp.allowed hr pre ev post heq
    rwa [D.recording_after] at hallow
  · intro a ha
    have hret := (hwp.after hr).2.2 a ha
    rwa [D.recording_after] at hret

/-- **In a world that moves by itself**: what justified operations keep, and the world, holds in
every state the script comes to. -/
theorem Follows.reaches {W : Type} {M : Env R W} {J : History R → W → Prop} {s : S} {w : W}
    {σ : Env.State R W (Except X α × S)} (h : Follows D P c Q) (hI : D.inv s []) (hP : P s [])
    (hstable : ∀ g, M.Stable (J g))
    (hans : ∀ g w e r w', J g w → D.allow g e → M.answer w e r w' → J (g ++ [⟨e, r⟩]) w')
    (hJ : J [] w) (hr : M.Reaches (c s) w σ) :
    J σ.trace σ.world ∧ ∀ a s', σ.rest = .ret (.ok a, s') → Q a s' σ.trace := by
  have halways := (Env.always_of_obeys (M := M) (I := fun g tr w => g = tr ∧ J tr w)
    (fun g tr w w' hw hs => ⟨hw.1, hstable tr w w' hw.2 hs⟩)
    (fun g tr w e r w' hw ha hr =>
      ⟨congrArg (· ++ [⟨e, r⟩]) hw.1, hans tr w e r w' hw.2 (hw.1 ▸ ha) hr⟩)
    (h s [] hI hP) ⟨rfl, hJ⟩).reach hr
  obtain ⟨g, rfl, hnow⟩ := halways.now
  refine ⟨hnow, fun a s' hrest => ?_⟩
  obtain ⟨rest, tr, w'⟩ := σ
  obtain rfl : rest = .ret (.ok a, s') := hrest
  obtain ⟨g, hret, rfl, -⟩ := (halways w' .refl).2
  exact hret.2.2 a rfl

end Wraith.Lib.Script

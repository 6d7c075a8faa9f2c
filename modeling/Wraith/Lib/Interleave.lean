/-
# `Wraith.Lib.Interleave` — a program in a world that moves by itself

A `Cmd` leaves open where responses come from.  Here they come from a world with steps of its own
(`Env`), which it may take between any two operations: a state is the rest of the program, the trace
so far and the world.

`Always M J Q c tr w` says of everything that can happen from there on that `J` holds throughout and
`Q` once the program has ended.  Assertions about the world have to be `Stable`; with that it is
enough that the program keeps to a monitor, and that the answers to what the monitor allows preserve
the assertion (`always_of_obeys`).  `Always.reach` and `Always.ended` turn it back into a statement
about reachable states.
-/
import Wraith.Lib.Script
import Wraith.Lib.System

namespace Wraith.Lib

variable {E : Type} {R : E → Type} {W α β : Type}

/-- A world: how it answers operations, and what it does by itself. -/
structure Env (R : E → Type) (W : Type) where
  answer : W → (e : E) → R e → W → Prop
  step : W → W → Prop

namespace Env

/-! ## Runs -/

/-- A program under way. -/
structure State (R : E → Type) (W α : Type) where
  rest : Cmd R α
  trace : List (Event R)
  world : W

variable (M : Env R W)

inductive Step : State R W α → State R W α → Prop where
  | own {c : Cmd R α} {tr : List (Event R)} {w w' : W} :
      M.step w w' → Step ⟨c, tr, w⟩ ⟨c, tr, w'⟩
  | perform {e : E} {k : R e → Cmd R α} {tr : List (Event R)} {w w' : W} {r : R e} :
      M.answer w e r w' → Step ⟨.op e k, tr, w⟩ ⟨k r, tr ++ [⟨e, r⟩], w'⟩

/-- A program that has ended stays so. -/
theorem Step.ret {M : Env R W} {s s' : State R W α} {a : α} (h : M.Step s s')
    (hs : s.rest = .ret a) :
    s'.rest = .ret a := by
  cases h with
  | own _ => exact hs
  | perform _ => cases hs

/-- What a program can come to. -/
abbrev Reaches (c : Cmd R α) (w : W) (s : State R W α) : Prop := Reach M.Step ⟨c, [], w⟩ s

variable {M}

/-- A run among other steps is a run. -/
theorem Reaches.runs {c : Cmd R α} {w : W} {s : State R W α} (h : M.Reaches c w s) :
    ∀ {tr : List (Event R)} {a : α}, Cmd.Runs s.rest tr a → Cmd.Runs c (s.trace ++ tr) a := by
  induction h with
  | refl => exact id
  | tail _ hs ih =>
      intro tr a hr
      cases hs with
      | own _ => exact ih hr
      | perform _ =>
          rw [List.append_assoc]
          exact ih (.op _ hr)

theorem Reaches.runs_ended {c : Cmd R α} {w w' : W} {tr : List (Event R)} {a : α}
    (h : M.Reaches c w ⟨.ret a, tr, w'⟩) : Cmd.Runs c tr a := by
  have hr := h.runs (.ret a)
  rwa [List.append_nil] at hr

/-- How the world gets through a trace. -/
inductive Path : W → List (Event R) → W → Prop where
  | nil {w : W} : Path w [] w
  | own {w w' w'' : W} {tr : List (Event R)} : M.step w w' → Path w' tr w'' → Path w tr w''
  | answer {w w' w'' : W} {tr : List (Event R)} {e : E} {r : R e} :
      M.answer w e r w' → Path w' tr w'' → Path w (⟨e, r⟩ :: tr) w''

/-- A run of the program that the world can answer. -/
theorem Path.reach {w w' : W} {tr : List (Event R)} {a : α} (h : M.Path w tr w') :
    ∀ {c : Cmd R α} {tr₀ : List (Event R)}, Cmd.Runs c tr a →
      Reach M.Step ⟨c, tr₀, w⟩ ⟨.ret a, tr₀ ++ tr, w'⟩ := by
  induction h with
  | nil =>
      intro c tr₀ hr
      cases hr
      rw [List.append_nil]
  | own hs _ ih => exact fun hr => .head (.own hs) (ih hr)
  | @answer _ _ _ _ _ r ha _ ih =>
      intro c tr₀ hr
      cases hr with
      | op _ hr =>
          have hrest : Reach _ _ _ := @ih _ (tr₀ ++ [⟨_, r⟩]) hr
          rw [List.append_assoc] at hrest
          exact .head (.perform ha) hrest

theorem Path.reaches {c : Cmd R α} {w w' : W} {tr : List (Event R)} {a : α} (h : M.Path w tr w')
    (hr : Cmd.Runs c tr a) : M.Reaches c w ⟨.ret a, tr, w'⟩ := h.reach hr

/-- One way through, then another. -/
theorem Path.append {w w' w'' : W} {tr tr' : List (Event R)} (h : M.Path w tr w')
    (h' : M.Path w' tr' w'') : M.Path w (tr ++ tr') w'' := by
  induction h with
  | nil => exact h'
  | own hs _ ih => exact .own hs (ih h')
  | answer ha _ ih => exact .answer ha (ih h')

/-- Answers that leave the world as it is. -/
theorem Path.still {w : W} : ∀ {tr : List (Event R)}, (∀ ev ∈ tr, M.answer w ev.1 ev.2 w) →
    M.Path w tr w
  | [], _ => .nil
  | _ :: _, h => .answer (h _ (.head _)) (Path.still fun ev hev => h ev (.tail _ hev))

/-- A run in one world, seen in another. -/
theorem Reaches.map {W' : Type} {N : Env R W'} {f : W → W'}
    (hans : ∀ w e r w', M.answer w e r w' → N.answer (f w) e r (f w'))
    (hstep : ∀ w w', M.step w w' → N.step (f w) (f w')) {c : Cmd R α} {w : W} {s : State R W α}
    (h : M.Reaches c w s) : N.Reaches c (f w) ⟨s.rest, s.trace, f s.world⟩ := by
  refine Relation.ReflTransGen.lift (p := N.Step)
    (fun s : State R W α => (⟨s.rest, s.trace, f s.world⟩ : State R W' α)) ?_ _ _ h
  intro s s' hs
  cases hs with
  | own hs => exact .own (hstep _ _ hs)
  | perform ha => exact .perform (hans _ _ _ _ ha)

/-! ## Assertions -/

/-- The world's own steps keep `P`. -/
def Stable (M : Env R W) (P : W → Prop) : Prop := ∀ w w', P w → M.step w w' → P w'

theorem Stable.reach {P : W → Prop} (hP : M.Stable P) {w w' : W} (hw : P w)
    (h : Reach M.step w w') : P w' := invariant hP hw h

variable (M)

/-- From here on `J` holds, and `Q` after the end. -/
def Always (J : List (Event R) → W → Prop) (Q : α → List (Event R) → W → Prop) :
    Cmd R α → List (Event R) → W → Prop
  | .ret a, tr, w => ∀ w', Reach M.step w w' → J tr w' ∧ Q a tr w'
  | .op e k, tr, w => ∀ w', Reach M.step w w' → J tr w' ∧
      ∀ r w'', M.answer w' e r w'' → Always J Q (k r) (tr ++ [⟨e, r⟩]) w''

variable {M} {J : List (Event R) → W → Prop} {Q : α → List (Event R) → W → Prop}
  {tr : List (Event R)} {w : W}

theorem Always.now {c : Cmd R α} (h : M.Always J Q c tr w) : J tr w := by
  cases c with
  | ret a => exact (h w .refl).1
  | op e k => exact (h w .refl).1

theorem Always.own {c : Cmd R α} {w' : W} (h : M.Always J Q c tr w) (hs : Reach M.step w w') :
    M.Always J Q c tr w' := by
  cases c with
  | ret a => exact fun w'' hs' => h w'' (hs.trans hs')
  | op e k => exact fun w'' hs' => h w'' (hs.trans hs')

theorem Always.step {s s' : State R W α} (h : M.Always J Q s.rest s.trace s.world)
    (hs : M.Step s s') : M.Always J Q s'.rest s'.trace s'.world := by
  cases hs with
  | own hs => exact h.own (.single hs)
  | perform ha => exact (h _ .refl).2 _ _ ha

/-- `J` holds in every state reached. -/
theorem Always.reach {c : Cmd R α} {s : State R W α} (h : M.Always J Q c [] w)
    (hs : M.Reaches c w s) : M.Always J Q s.rest s.trace s.world :=
  invariant (I := fun s => M.Always J Q s.rest s.trace s.world) (fun _ _ => Always.step) h hs

/-- `Q` holds when the program has ended. -/
theorem Always.ended {c : Cmd R α} {a : α} {tr : List (Event R)} {w' : W}
    (h : M.Always J Q c [] w) (hs : M.Reaches c w ⟨.ret a, tr, w'⟩) : Q a tr w' :=
  (h.reach hs w' .refl).2

/-! ## Programs that keep to a monitor -/

/-- A program that keeps to a monitor keeps what the answers to allowed operations, and the world's
own steps, preserve. -/
theorem always_of_obeys {G : Type} {N : Cmd.Monitor R G} {I : G → List (Event R) → W → Prop}
    {P : α → G → Prop} (hstable : ∀ g tr, M.Stable (I g tr))
    (hans : ∀ g tr w e r w', I g tr w → N.allow g e → M.answer w e r w' →
      I (N.next g e r) (tr ++ [⟨e, r⟩]) w') :
    ∀ {c : Cmd R α} {g : G} {tr : List (Event R)} {w : W}, c.Obeys N P g → I g tr w →
      M.Always (fun tr w => ∃ g, I g tr w) (fun a tr w => ∃ g, P a g ∧ I g tr w) c tr w := by
  intro c
  induction c with
  | ret a =>
      intro g tr w hc hI w' hs
      have hI' := (hstable g tr).reach hI hs
      exact ⟨⟨g, hI'⟩, g, hc, hI'⟩
  | op e k ih =>
      intro g tr w hc hI w' hs
      have hI' := (hstable g tr).reach hI hs
      exact ⟨⟨g, hI'⟩, fun r w'' ha => ih r (hc.2 r) (hans g tr w' e r w'' hI' hc.1 ha)⟩

end Env
end Wraith.Lib

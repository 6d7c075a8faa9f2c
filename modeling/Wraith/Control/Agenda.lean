/-
# `Wraith.Control.Agenda` — nothing is done twice

The orchestrator has no loop and tries nothing again.  So there is a list of what it may do,
`forward` and then either the signals or `resume`, of which every run does some things, each at most
once and in the order of the list (`migrate_agenda`).  A source that is sent a signal is not
resumed, and one that is resumed gets none.
-/
import Wraith.Control.Cli

namespace Wraith.Control

open Lib Script

/-- What a migration does, apart from looking, connecting and tidying up on this machine. -/
inductive Act where
  | makeFile
  | startReceiver
  | run (proc : Proc)
  | remote (remote : Remote)
  | signal (signal : Signal)
  deriving DecidableEq, Repr

def PyOp.act : PyOp → Option Act
  | .mkstemp _ _ => some .makeFile
  | .execBackground _ => some .startReceiver
  | .subprocessRun proc _ _ => some (.run proc)
  | .execCommand remote _ _ => some (.remote remote)
  | .kill _ signal => some (.signal signal)
  | _ => none

/-- The three phases. -/
def forward : List Act :=
  [.makeFile, .run .capture, .startReceiver, .run .transmit, .remote .restorer, .remote .cleanup]

def signals : List Act := [.signal .term, .signal .kill]

section Parts

variable {α : Type} {l : List Act} {v : Bool} {t t' : Teleporter} {tr : List (Event PyResp)}

theorem aside_act (o : PyOp) (h : Aside o) : o.act = none := by
  cases o with
  | mkstemp _ _ => cases h
  | subprocessRun _ _ _ => cases h
  | execBackground _ => cases h
  | execCommand _ _ _ => cases h
  | kill _ _ => cases h
  | _ => rfl

theorem performs_aside {q : PyExc → Prop} {c : Py α} (h : Bounded Aside q c) :
    Performs PyOp.act l c l :=
  .of_uses h.uses aside_act

theorem performs_attempt {o : PyOp} {view : PyResp o → Except Builtin α} {a : Act}
    (h : o.act = some a) :
    Performs PyOp.act (a :: l) (attempt o view) l := .call h

theorem performs_look {o : PyOp} {view : PyResp o → Except Builtin α} (h : o.act = none) :
    Performs PyOp.act l (attempt o view) l :=
  .of_uses (p := fun o => o.act = none) (.call h) fun _ ho => ho

theorem performs_pyAssert {o : Option α} : Performs PyOp.act l (pyAssert o) l := by
  cases o with
  | none => exact .raise
  | some a => exact .pure

/-- Handlers that do nothing on the agenda. -/
theorem performs_caught {c : Py α} {h : PyExc → Option (Py α)} {l' : List Act}
    (hc : Performs PyOp.act l c l')
    (hh : ∀ x d, h x = some d → Performs PyOp.act l' d l') :
    Performs PyOp.act l (tryExcept c h) l' :=
  .tryExcept hc hh (.refl _)

theorem performs_ignore {c : Py Unit} {h : PyExc → Option (Py Unit)} {l' : List Act}
    (hc : Performs PyOp.act l c l') (hh : ∀ x d, h x = some d → d = pure ()) :
    Performs PyOp.act l (tryExcept c h) l' :=
  performs_caught hc fun x d hd => hh x d hd ▸ .pure

theorem performs_orRaise {c : Py α} {f : PyExc → PyExc} {l' : List Act}
    (hc : Performs PyOp.act l c l') :
    Performs PyOp.act l (orRaise c f) l' := by
  refine performs_caught hc fun x d hd => ?_
  split at hd
  · exact Option.some.inj hd ▸ .raise
  · cases hd

theorem performs_launch {proc : Proc} {argv : List String} {n : Int} {timedOut notFound : PyExc}
    {exited : Completed → PyExc} :
    Performs PyOp.act (.run proc :: l) (launch proc argv n timedOut notFound exited) l := by
  have hcaught : Performs PyOp.act (.run proc :: l)
      (tryExcept (attempt (.subprocessRun proc argv n) id)
      (onLaunchError timedOut notFound)) l := by
    refine performs_caught (performs_attempt rfl) fun x d hd => ?_
    unfold onLaunchError at hd
    split at hd
    · exact Option.some.inj hd ▸ .raise
    · exact Option.some.inj hd ▸ .raise
    · cases hd
  refine hcaught.bind (fun c => ?_) (.refl _)
  split
  · exact .pure
  · exact .raise

theorem performs_ensureConnected : Performs PyOp.act l ensureConnected l := by
  refine .bind .get (fun t => ?_) (.refl _)
  split
  · exact .pure
  · exact .raise

theorem performs_exec {remote : Remote} {cmd : String} {timeout : Option Int} {check : Bool} :
    Performs PyOp.act (.remote remote :: l) (exec remote cmd timeout check) l := by
  refine .bind performs_ensureConnected (fun _ => .bind .get (fun t =>
    .bind (performs_attempt rfl) ?_ (.refl _)) (List.sublist_cons_self _ _))
      (List.sublist_cons_self _ _)
  rintro ⟨out, err, code⟩
  dsimp only
  split
  · exact .raise
  · exact .pure

/-! ## The phases -/

theorem performs_runCapture : Performs PyOp.act (.makeFile :: .run .capture :: l) runCapture l := by
  have h₁ : l.Sublist (.run .capture :: l) := List.sublist_cons_self _ _
  have h₂ : l.Sublist (.makeFile :: .run .capture :: l) := h₁.trans (List.sublist_cons_self _ _)
  refine .bind .modify (fun _ => .bind .get (fun t => .bind (performs_attempt rfl) ?_ h₁) h₂) h₂
  rintro ⟨fd, path⟩
  exact .bind (performs_look rfl) (fun _ => .bind .modify (fun _ => .bind performs_launch
    (fun _ => .bind (performs_look rfl) (fun _ => .pure) (.refl _)) (.refl _)) h₁) h₁

theorem performs_startReceiver : Performs PyOp.act (.startReceiver :: l) (startReceiver t) l :=
  performs_orRaise (.bind performs_ensureConnected (fun _ => performs_attempt rfl)
    (List.sublist_cons_self _ _))

theorem performs_runTransfer :
    Performs PyOp.act (.startReceiver :: .run .transmit :: l) runTransfer l := by
  have h₁ : l.Sublist (.run .transmit :: l) := List.sublist_cons_self _ _
  have h₂ : l.Sublist (.startReceiver :: .run .transmit :: l) :=
    h₁.trans (List.sublist_cons_self _ _)
  exact .bind .modify (fun _ => .bind .get (fun t => .bind performs_pyAssert (fun path =>
    .bind .modify (fun _ => .bind performs_startReceiver (fun _ =>
    .bind (performs_look rfl) (fun _ => performs_launch) h₁) h₁) h₂) h₂) h₂) h₂

theorem performs_runRestore :
    Performs PyOp.act (.remote .restorer :: .remote .cleanup :: l) runRestore l := by
  have h₁ : l.Sublist (.remote .cleanup :: l) := List.sublist_cons_self _ _
  have h₂ : l.Sublist (.remote .restorer :: .remote .cleanup :: l) :=
    h₁.trans (List.sublist_cons_self _ _)
  refine .bind .modify (fun _ => .bind .get (fun t => .bind performs_pyAssert (fun path =>
    .bind (performs_orRaise performs_exec) ?_ h₁) h₂) h₂) h₂
  rintro ⟨out, err, code⟩
  refine .bind (.of_uses (p := Aside) bounded_checkRestorer.uses aside_act) (fun _ =>
    .bind .modify (fun _ => ?_) h₁) h₁
  split
  · refine performs_ignore (.bind performs_exec (fun _ => .pure) (.refl _)) fun x d hd => ?_
    split at hd
    · exact (Option.some.inj hd).symm
    · cases hd
  · exact .leave .pure h₁

theorem performs_phases : Performs PyOp.act (forward ++ l) phases l := by
  have h₁ : l.Sublist (.remote .restorer :: .remote .cleanup :: l) :=
    List.sublist_append_right [_, _] l
  have h₂ : l.Sublist
      (.startReceiver :: .run .transmit :: .remote .restorer :: .remote .cleanup :: l) :=
    List.sublist_append_right [_, _, _, _] l
  exact .bind performs_runCapture
    (fun _ => .bind performs_runTransfer (fun _ => performs_runRestore) h₁) h₂

theorem performs_commit : Performs PyOp.act (signals ++ l) (commit v) l := by
  have h₁ : l.Sublist (.signal .kill :: l) := List.sublist_cons_self _ _
  have h₂ : l.Sublist (signals ++ l) := List.sublist_append_right _ _
  have hdone : Performs PyOp.act l (do transition .complete; buildResult) l :=
    performs_aside bounded_complete
  cases v with
  | true => exact ⟨h₂, fun s tr q hr => (hdone.runs s tr q hr).trans h₂⟩
  | false =>
      refine .bind (.bind .get (fun t => performs_ignore (.bind (performs_attempt rfl) (fun _ =>
        .bind (performs_look rfl) (fun _ => ?_) h₁) h₁) fun _ _ =>
          ignoreLookup_eq) h₂) (fun _ => hdone) (.refl _)
      exact performs_ignore (performs_attempt rfl) fun _ _ => ignoreLookup_eq

theorem performs_rollback {text : String} :
    Performs PyOp.act (.run .resume :: l) (rollback text) l := by
  have h₁ : l.Sublist (.run .resume :: l) := List.sublist_cons_self _ _
  have hstop {x : PyExc} : Performs PyOp.act l (do transition .failed; raise x : Py Unit) l :=
    .bind .modify (fun _ => .raise) (.refl _)
  refine .bind .modify (fun _ => .bind .get (fun t => performs_caught
    (.bind (performs_attempt rfl) (fun result => ?_) (.refl _)) fun x d hd => ?_) h₁) h₁
  · unfold afterResume
    split
    · exact .modify
    · exact hstop
  · unfold onResumeError at hd
    split at hd
    · exact Option.some.inj hd ▸ hstop
    · split at hd
      · exact Option.some.inj hd ▸ .raise
      · split at hd
        · exact Option.some.inj hd ▸ hstop
        · cases hd

theorem performs_onMigrateError {x : PyExc} {d : Py MigrationResult}
    (hd : onMigrateError x = some d) :
    Performs PyOp.act (.run .resume :: l) d l := by
  have h₁ : l.Sublist (.run .resume :: l) := List.sublist_cons_self _ _
  unfold onMigrateError at hd
  split at hd
  · exact Option.some.inj hd ▸ .leave (.bind .modify (fun _ => .raise) (.refl _)) h₁
  · split at hd
    · exact Option.some.inj hd ▸ .bind performs_rollback (fun _ => .raise) (.refl _)
    · cases hd

/-! ## The migration -/

/-- Once each and in this order; and either a signal or `resume`. -/
def OnAgenda (tr : List (Event PyResp)) : Prop :=
  (performed PyOp.act tr).Sublist (forward ++ signals) ∨
    (performed PyOp.act tr).Sublist (forward ++ [.run .resume])

/-- A handler that is left with `resume`. -/
theorem performed_handle {x : PyExc} {q : Except PyExc MigrationResult × Teleporter}
    (h : Cmd.Runs (handle onMigrateError ((.error x : Except PyExc MigrationResult), t)) tr q) :
    (performed PyOp.act tr).Sublist [.run .resume] := by
  rw [handle] at h
  cases hx : onMigrateError x with
  | none =>
      rw [hx] at h
      obtain ⟨rfl, -⟩ := Cmd.runs_ret.mp h
      exact List.nil_sublist _
  | some d =>
      rw [hx] at h
      have hd := (performs_onMigrateError (l := []) hx).runs t tr q h
      rwa [List.append_nil] at hd

/-- Behind the commit there is nothing to handle. -/
theorem handle_commit {r : Except PyExc MigrationResult} {t₁ : Teleporter}
    {tr₂ : List (Event PyResp)} {q : Except PyExc MigrationResult × Teleporter}
    (hcommit : Cmd.Runs (commit v t) tr (r, t₁))
    (hhandle : Cmd.Runs (handle onMigrateError (r, t₁)) tr₂ q) : tr₂ = [] := by
  cases r with
  | ok result => exact (Cmd.runs_ret.mp hhandle).1
  | error x =>
      obtain ⟨b, rfl⟩ := bounded_commit.raises _ _ _ _ hcommit
      exact (Cmd.runs_ret.mp hhandle).1

theorem guarded_agenda {p : Except PyExc MigrationResult × Teleporter} (hc : t.connected = true)
    (h : Cmd.Runs (guarded v t) tr p) : OnAgenda tr := by
  obtain ⟨tr₁, ⟨q, t₁⟩, tr₂, q', tr₃, t₃, u, tr₄, w, hbody, hhandle, hclean, hclose, -, rfl⟩ :=
    runs_guarded h
  -- The `finally` clauses are not on the agenda.
  have hafter : performed PyOp.act (tr₁ ++ (tr₂ ++ (tr₃ ++ tr₄))) =
      performed PyOp.act tr₁ ++ performed PyOp.act tr₂ := by
    rw [performed_append, performed_append, performed_append,
      performed_eq_nil (bounded_cleanupSnapshot.uses _ _ _ hclean) aside_act,
      performed_eq_nil (bounded_closeSession.uses _ _ _ hclose) aside_act, List.append_nil,
        List.append_nil]
  rw [OnAgenda, hafter]
  obtain ⟨x, hq, hpre⟩ | ⟨pre, t₂, tr', hpre, rfl, hrest⟩ := runs_migrateBody hc hbody
  · obtain rfl := hq
    rw [performed_eq_nil (bounded_runPreflight.uses _ _ _ hpre) aside_act]
    exact Or.inr ((performed_handle hhandle).trans (List.sublist_append_right _ _))
  rw [performed_append, performed_eq_nil (bounded_runPreflight.uses _ _ _ hpre) aside_act,
    List.nil_append]
  obtain ⟨x, hq, hphases⟩ | ⟨mid, t₃, post, hphases, hcommit, rfl⟩ := hrest
  · obtain rfl := hq
    exact Or.inr ((List.Sublist.append_left (performed_handle hhandle) _).trans
      (performs_phases.runs _ _ _ hphases))
  · obtain rfl := handle_commit hcommit hhandle
    have hpost := (performs_commit (l := [])).runs _ _ _ hcommit
    rw [List.append_nil, List.append_nil] at hpost
    rw [performed_append]
    exact Or.inl (List.append_nil _ ▸ (List.Sublist.append_left hpost _).trans
      (performs_phases.runs _ _ _ hphases))

/-- **Nothing is done twice.**  Every run of `migrate`, however its operations come out: the
temporary file, the three programs, the receiver, the removal and the signals stand in this order,
each at most once, and `resume` only where no signal is sent. -/
theorem migrate_agenda {p : Except PyExc MigrationResult × Teleporter}
    (h : Cmd.Runs (migrate v t) tr p) :
    OnAgenda tr := by
  rw [migrate_eq] at h
  obtain ⟨x, -, henter⟩ | ⟨tr₀, _, t₁, rest, henter, hrest, rfl⟩ := runs_bind_cases h
  · rw [OnAgenda, performed_eq_nil (bounded_enter.uses _ _ _ henter) aside_act]
    exact Or.inl (List.nil_sublist _)
  · obtain ⟨-, -, ⟨⟨_, habs⟩, -⟩ | ⟨-, hc, -⟩⟩ := runs_enter (v := v) henter
    · cases habs
    rw [OnAgenda, performed_append, performed_eq_nil (bounded_enter.uses _ _ _ henter) aside_act,
      List.nil_append]
    exact guarded_agenda hc hrest

end Parts

/-- The whole of the agenda, where all goes well. -/
theorem migrate_agenda_succeeds :
    let run := Cmd.exec (fun (_ : Unit) o => (succeeds o, ())) (migrate false example42) ()
    performed PyOp.act run.1 = forward ++ signals ∧ OnAgenda run.1 :=
  ⟨by decide +kernel, migrate_agenda (Cmd.exec_runs _ _ _)⟩

end Wraith.Control

/-
# `Wraith.Restore.Orphans` — what becomes of the child when a restore fails

The handler of `restore` kills the child when `restore_inner` fails.  Between the fork and the
handler there is the wait for the stub, and what goes wrong there is returned with the child alive:
`restore_no_orphan_iff`.
-/
import Wraith.Restore.Undisturbed

namespace Wraith.Restore

open Lib Script Process

/-! ## The life of a child -/

def forkedBy : Event RestResp → Option Int32
  | ⟨.fork, .ok pid⟩ => some pid
  | _ => none

def killedBy : Event RestResp → Option Int32
  | ⟨.kill pid, _⟩ => some pid
  | _ => none

def detachedBy : Event RestResp → Option Int32
  | ⟨.detach pid, .ok _⟩ => some pid
  | _ => none

/-- The children of a run. -/
def forked (tr : List (Event RestResp)) : List Int32 := tr.filterMap forkedBy

/-- Those that were sent SIGKILL. -/
def killed (tr : List (Event RestResp)) : List Int32 := tr.filterMap killedBy

/-- Those that were let go. -/
def detached (tr : List (Event RestResp)) : List Int32 := tr.filterMap detachedBy

/-- A run that fails has killed its children; one that succeeds has a single child, and has
detached it. -/
structure NoOrphan (tr : List (Event RestResp)) (r : Except Error RestoreResult) : Prop where
  failed : ∀ e, r = .error e → ∀ pid ∈ forked tr, pid ∈ killed tr
  restored : ∀ result, r = .ok result →
    forked tr = [result.pid] ∧ detached tr = [result.pid] ∧ killed tr = []

/-- If a stub is forked, the first wait finds it stopped by its own SIGSTOP. -/
def stubStops : List (Event RestResp) → Bool
  | ⟨.fork, .ok _⟩ :: ⟨.waitpid _, .ok (.stopped .sigstop)⟩ :: _ => true
  | ⟨.fork, .ok _⟩ :: _ => false
  | _ => true

/-- A call that neither makes a child nor ends one. -/
def RestOp.IsQuiet : RestOp → Prop
  | .fork => False
  | .kill _ => False
  | .detach _ => False
  | _ => True

/-- Calls that leave the lives of the children alone. -/
def Quiet (tr : List (Event RestResp)) : Prop := ∀ ev ∈ tr, ev.1.IsQuiet

theorem quiet_by {ev : Event RestResp} (h : ev.1.IsQuiet) :
    forkedBy ev = none ∧ killedBy ev = none ∧ detachedBy ev = none := by
  obtain ⟨o, r⟩ := ev
  cases o with
  | fork => exact h.elim
  | kill pid => exact h.elim
  | detach pid => exact h.elim
  | _ => exact ⟨rfl, rfl, rfl⟩

theorem Quiet.lives {tr : List (Event RestResp)} (h : Quiet tr) :
    forked tr = [] ∧ killed tr = [] ∧ detached tr = [] := by
  refine ⟨?_, ?_, ?_⟩
  · exact List.filterMap_eq_nil_iff.mpr fun ev hev => (quiet_by (h ev hev)).1
  · exact List.filterMap_eq_nil_iff.mpr fun ev hev => (quiet_by (h ev hev)).2.1
  · exact List.filterMap_eq_nil_iff.mpr fun ev hev => (quiet_by (h ev hev)).2.2

/-! ## `restore_inner` up to the detach -/

variable {checksum : List UInt8 → UInt64} {child : Int32}

theorem RestOp.OnChild.quiet {o : RestOp} (h : o.OnChild) : o.IsQuiet := by
  cases o with
  | fork => exact h.elim
  | detach pid => exact h.elim
  | kill pid => exact h.elim
  | _ => trivial

theorem RestOp.OnFiles.quiet {o : RestOp} (h : o.OnFiles) : o.IsQuiet := by
  cases o with
  | openFile path opts => trivial
  | seek fd offset => trivial
  | openDirectory path flags => trivial
  | close fd => trivial
  | _ => exact h.elim

theorem prepare_quiet {s : Proto.ProcessSnapshot} {fds : List FdSpec} :
    Uses RestOp.IsQuiet (prepare checksum s fds child) :=
  .bind (restoreState_uses.mono fun _ => RestOp.OnChild.quiet) fun _ =>
    .bind (restoreAll_uses.mono fun _ => RestOp.OnFiles.quiet) fun _ =>
    .bind (installAll_uses (fun _ => RestOp.OnChild.quiet) fun _ => trivial) fun _ => .pure

variable {s : Proto.ProcessSnapshot} {fds : List FdSpec} {tr : List (Event RestResp)}
  {r : Except Error RestoreResult}

/-- `restore_inner` either fails, and has not detached the child, or ends by detaching it. -/
theorem restoreInner_runs (h : Cmd.Runs (restoreInner checksum s fds child ()) tr (r, ())) :
    forked tr = [] ∧ killed tr = [] ∧
      ((∃ e, r = .error e) ∨ ∃ result, r = .ok result ∧ result.pid = child ∧
        detached tr = [child]) := by
  obtain ⟨x, hx, hrun⟩ | ⟨tr₁, prepared, u, tr₂, hrun, hrest, rfl⟩ := runs_bind_cases h
  · obtain ⟨hforked, hkilled, -⟩ := Quiet.lives (prepare_quiet _ _ _ hrun)
    exact ⟨hforked, hkilled, Or.inl ⟨x, hx⟩⟩
  · obtain ⟨hforked, hkilled, hdetached⟩ := Quiet.lives (prepare_quiet _ _ _ hrun)
    obtain ⟨d, tr₃, rfl, hret⟩ := Cmd.runs_op.mp hrest
    cases d with
    | error e =>
        obtain ⟨rfl, heq⟩ := Cmd.runs_ret.mp hret
        refine ⟨?_, ?_, Or.inl ⟨_, (Prod.mk.inj heq).1⟩⟩
        · rw [forked, List.filterMap_append, ← forked, hforked]
          rfl
        · rw [killed, List.filterMap_append, ← killed, hkilled]
          rfl
    | ok _ =>
        obtain ⟨rfl, heq⟩ := Cmd.runs_ret.mp hret
        refine ⟨?_, ?_, Or.inr ⟨_, (Prod.mk.inj heq).1, rfl, ?_⟩⟩
        · rw [forked, List.filterMap_append, ← forked, hforked]
          rfl
        · rw [killed, List.filterMap_append, ← killed, hkilled]
          rfl
        · rw [detached, List.filterMap_append, ← detached, hdetached]
          rfl

/-- With the handler in place the child is killed or detached. -/
theorem handled_runs (h : Cmd.Runs (tryExcept (restoreInner checksum s fds child)
      (fun e => some (cleanup child e)) ()) tr (r, ())) :
    forked tr = [] ∧ ((∃ e, r = .error e ∧ child ∈ killed tr) ∨
      ∃ result, r = .ok result ∧ result.pid = child ∧ detached tr = [child] ∧ killed tr = []) := by
  obtain ⟨tr₁, ⟨q, u⟩, tr₂, hrun, hrest, rfl⟩ := runs_tryExcept.mp h
  obtain ⟨hforked, hkilled, hend⟩ := restoreInner_runs hrun
  obtain ⟨e, rfl⟩ | ⟨result, rfl, hpid, hdetached⟩ := hend
  · obtain ⟨k, tr₃, rfl, hwait⟩ := Cmd.runs_op.mp hrest
    obtain ⟨st, tr₄, rfl, hret⟩ := Cmd.runs_op.mp hwait
    obtain ⟨rfl, heq⟩ := Cmd.runs_ret.mp hret
    refine ⟨?_, Or.inl ⟨e, (Prod.mk.inj heq).1, ?_⟩⟩
    · rw [forked, List.filterMap_append, ← forked, hforked]
      rfl
    · rw [killed, List.filterMap_append, ← killed, hkilled]
      exact .head _
  · obtain ⟨rfl, heq⟩ := Cmd.runs_ret.mp hrest
    rw [List.append_nil]
    exact ⟨hforked, Or.inr ⟨result, (Prod.mk.inj heq).1, hpid, hdetached, hkilled⟩⟩

/-! ## The fork -/

theorem stubStops_lost {pid : Int32} {st : Except Errno WaitStatus}
    (h : st ≠ .ok (.stopped .sigstop)) :
    stubStops [⟨.fork, .ok pid⟩, ⟨.waitpid pid, st⟩] = false := by
  cases st with
  | error e => rfl
  | ok status => cases status with
    | other status => rfl
    | stopped sig => cases sig with
      | sigstop => exact absurd rfl h
      | sigtrap => rfl
      | other name => rfl

/-! ## The result -/

/-- A run leaves no orphan exactly when the stub, if one was forked, was found stopped by its
SIGSTOP. -/
theorem restore_no_orphan_iff (h : Cmd.Runs (restore checksum s fds ()) tr (r, ())) :
    NoOrphan tr r ↔ stubStops tr = true := by
  have hnone : ∀ {e : Error}, r = .error e → forked tr = [] → NoOrphan tr r := by
    rintro e rfl hforked
    refine ⟨fun _ _ pid hpid => ?_, by rintro _ ⟨⟩⟩
    rw [hforked] at hpid
    cases hpid
  rw [restore] at h
  cases hvalid : validate s with
  | error e =>
      rw [hvalid] at h
      obtain ⟨rfl, heq⟩ := Cmd.runs_ret.mp h
      exact ⟨fun _ => rfl, fun _ => hnone (Prod.mk.inj heq).1 rfl⟩
  | ok _ =>
      rw [hvalid] at h
      obtain ⟨x, hx, hrun⟩ | ⟨tr₁, pid, u, tr₂, hrun, hrest, rfl⟩ :=
        runs_bind_cases (runs_pure_bind.mp h)
      · simp only at hx
        cases forkStub_runs hrun with
        | none => exact ⟨fun _ => rfl, fun _ => hnone hx rfl⟩
        | lost hst =>
            -- The child is there, and nothing has killed it.
            rw [stubStops_lost hst]
            refine ⟨fun hno => ?_, by rintro ⟨⟩⟩
            have hkilled := hno.failed x hx _ (.head _)
            cases hkilled
      · cases forkStub_runs hrun with
        | stopped =>
            obtain ⟨hforked, hend⟩ := handled_runs hrest
            refine ⟨fun _ => rfl, fun _ => ?_⟩
            have hone : forked
                ([⟨.fork, .ok pid⟩, ⟨.waitpid pid, .ok (.stopped .sigstop)⟩] ++ tr₂) =
                [pid] := by
              rw [forked, List.filterMap_append, ← forked, ← forked, hforked]
              rfl
            obtain ⟨e, rfl, hkilled⟩ | ⟨result, rfl, rfl, hdetached, hkilled⟩ := hend
            · refine ⟨fun _ _ pid' hpid' => ?_, by rintro _ ⟨⟩⟩
              rw [hone] at hpid'
              rw [List.mem_singleton.mp hpid']
              exact hkilled
            · refine ⟨by rintro _ ⟨⟩, fun result' hr => ?_⟩
              obtain rfl := Except.ok.inj hr
              exact ⟨hone, hdetached, hkilled⟩

/-! ## A stub that stops otherwise -/

/-- The terminal's SIGTSTP reaches the stub before its own SIGSTOP. -/
def tstpRun : List (Event RestResp) :=
  [⟨.fork, .ok 43⟩, ⟨.waitpid 43, .ok (.stopped (.other "SIGTSTP"))⟩]

theorem tstpRun_runs :
    Cmd.Runs (restore (fun _ => 0) (smallSnapshot [zeroRegion 0x10000 0x1000]) [] ())
    tstpRun (.error "stub child stopped with unexpected signal SIGTSTP", ()) := by
  rw [restore, smallSnapshot_valid (by decide)]
  refine runs_pure_bind.mpr (runs_bind_error ?_)
  refine runs_call_ok (a := (43 : Int32)) rfl
    (runs_call_ok (a := .stopped (.other "SIGTSTP")) rfl ?_)
  exact .ret _

/-- The restore fails, and the child is left behind. -/
theorem orphan_left : ∃ s tr r, Cmd.Runs (restore (fun _ => 0) s [] ()) tr (r, ()) ∧
    ¬ NoOrphan tr r := by
  refine ⟨_, tstpRun, _, tstpRun_runs, fun h => ?_⟩
  have hkilled : (43 : Int32) ∈ killed tstpRun := h.failed _ rfl 43 (.head _)
  exact nomatch hkilled

/-- One page, restored into a stub. -/
theorem restore_no_orphan_iff_page : ∃ tr result,
    Cmd.Runs (restore (fun _ => 0) (smallSnapshot [zeroRegion 0x10000 0x1000]) [] ())
      tr (.ok result, ()) ∧
      (NoOrphan tr (.ok result) ↔ stubStops tr = true) := by
  obtain ⟨tr, w, hr, -⟩ := restore_done (w := quietWorld) 43 stub
    (s := smallSnapshot [zeroRegion 0x10000 0x1000]) (smallSnapshot_valid (by decide)) stub_site
    (fun r hr => by
      obtain rfl := List.mem_singleton.mp hr
      exact zeroRegion_placeable (by decide) (by decide) le_rfl) rfl (fun h => absurd rfl h)
  exact ⟨tr, _, hr, restore_no_orphan_iff hr⟩

end Wraith.Restore

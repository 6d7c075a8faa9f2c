/-
# `Wraith.Capture.Release` — capture lets go of its target

Whatever fails, `capture` leaves the target detached, with one exception: when the `waitpid` behind
a successful PTRACE_ATTACH fails, `ProcessLock::attach` returns an error without ever having built
the lock, and nothing detaches (`capture_releases_iff`).  A lock that exists is detached once,
however often `detach` is called before the drop (`scope_detaches_once`).

The calls are watched by a monitor, `tracer`, that allows everything and keeps track of the
attachment.
-/
import Wraith.Capture.Capturer

namespace Wraith.Capture

open Lib Script Process

/-! ## What the kernel knows -/

/-- The attachment, the detaches so far, and which calls have failed. -/
structure Tracer where
  attached : Bool := false
  detaches : Nat := 0
  waitFailed : Bool := false
  detachFailed : Bool := false
  deriving DecidableEq, Repr

/-- After one more call. -/
def Tracer.next (g : Tracer) : (o : CapOp) → CapResp o → Tracer
  | .attach _, .ok _ => { g with attached := true }
  | .waitpid _, .error _ => { g with waitFailed := true }
  | .detach _, .ok _ => { g with attached := false, detaches := g.detaches + 1 }
  | .detach _, .error _ => { g with detachFailed := true }
  | _, _ => g

/-- The monitor of the attachment. -/
def tracer : Cmd.Monitor CapResp Tracer where
  allow _ _ := True
  next := Tracer.next

variable {tr : List (Event CapResp)} {g : Tracer} {pid : Int32} {checksum : List UInt8 → UInt64}

/-- The `waitpid` behind an attach failed. -/
def waitFails : Event CapResp → Bool
  | ⟨.waitpid _, .error _⟩ => true
  | _ => false

def detachFails : Event CapResp → Bool
  | ⟨.detach _, .error _⟩ => true
  | _ => false

/-- How often PTRACE_DETACH succeeded. -/
def detachCount (tr : List (Event CapResp)) : Nat := (tracer.after {} tr).detaches

/-- Only a wait that fails and a detach that fails are noted as failures. -/
theorem Tracer.next_failures (g : Tracer) (ev : Event CapResp) :
    (g.next ev.1 ev.2).waitFailed = (g.waitFailed || waitFails ev) ∧
      (g.next ev.1 ev.2).detachFailed = (g.detachFailed || detachFails ev) := by
  obtain ⟨o, r⟩ := ev
  cases o with
  | waitpid pid => cases r with
    | ok _ => exact ⟨(Bool.or_false _).symm, (Bool.or_false _).symm⟩
    | error _ => exact ⟨(Bool.or_true _).symm, (Bool.or_false _).symm⟩
  | attach pid => cases r with
    | ok _ => exact ⟨(Bool.or_false _).symm, (Bool.or_false _).symm⟩
    | error _ => exact ⟨(Bool.or_false _).symm, (Bool.or_false _).symm⟩
  | detach pid => cases r with
    | ok _ => exact ⟨(Bool.or_false _).symm, (Bool.or_false _).symm⟩
    | error _ => exact ⟨(Bool.or_false _).symm, (Bool.or_true _).symm⟩
  | _ => exact ⟨(Bool.or_false _).symm, (Bool.or_false _).symm⟩

theorem after_waitFailed (tr : List (Event CapResp)) (g : Tracer) :
    (tracer.after g tr).waitFailed = (g.waitFailed || tr.any waitFails) :=
  tracer.after_any (fun g ev => (g.next_failures ev).1) tr g

theorem after_detachFailed (tr : List (Event CapResp)) (g : Tracer) :
    (tracer.after g tr).detachFailed = (g.detachFailed || tr.any detachFails) :=
  tracer.after_any (fun g ev => (g.next_failures ev).2) tr g

/-- Reading does not change the attachment. -/
theorem tracer_reads : Reads tracer g := by
  intro o ho
  refine ⟨trivial, fun r => ?_⟩
  cases o with
  | getregs pid => rfl
  | getfpregs pid => rfl
  | readMem pid start size => rfl
  | enumerateFds pid => rfl
  | _ => exact nomatch ho

/-! ## `capture` -/

/-- The target is attached if and only if the wait has failed, as long as detaching works. -/
def Released (g : Tracer) : Prop :=
  g.detachFailed = false → (g.attached = false ↔ g.waitFailed = false)

/-- What `ProcessLock::attach` leaves behind: a lock, or no lock. -/
def Locked (pid : Int32) : Except Error ProcessLock → Unit → Tracer → Prop
  | .ok lock, _, g => lock = ⟨pid, false⟩ ∧ g = { attached := true }
  | .error _, _, g => Released g

theorem attach_locked : Wp tracer (ProcessLock.attach pid) (Locked pid) () {} := by
  refine wp_attach rfl rfl ⟨trivial, trivial, trivial⟩ ?_ (fun e => ?_) (fun e x => ?_)
    fun status => ?_
  · exact fun _ => Iff.rfl
  · exact fun _ => Iff.rfl
  · -- The attachment is there, and no lock.
    exact fun _ => Iff.intro (fun h => nomatch h) fun h => nomatch h
  · exact ⟨rfl, rfl⟩

theorem capture_releases : Wp tracer (capture checksum pid) (fun _ _ g => Released g) () {} := by
  refine wp_capture { attached := true } trivial (fun e _ => Iff.rfl)
    (fun entries => ?_) tracer_reads trivial
    (fun detached x => ?_) fun detached => ⟨trivial, fun d s => ?_⟩
  · refine wp_mono (fun r _ g h => ?_) attach_locked
    cases r with
    | ok lock => exact h
    | error x => exact h
  · cases detached with
    | error e => exact fun h => nomatch h
    | ok _ => exact fun _ => Iff.rfl
  · cases detached with
    | error e => exact fun h => nomatch h
    | ok _ => exact fun _ => Iff.rfl

/-! ## One lock -/

/-- A scope that owns a lock: `detach` is called once for each entry of `uses`, its error handed on
with `?` (`true`) or ignored, and the lock is dropped at the end. -/
def ProcessLock.scope : List Bool → ProcessLock → Cap Unit
  | [], lock => lock.drop
  | handOn :: uses, lock => fun s => lock.detach s >>= fun p =>
      (match p.1 with
        | .ok lock => ProcessLock.scope uses lock
        | .error e =>
            if handOn then tryFinally (raise e) lock.drop else ProcessLock.scope uses lock) p.2

/-- A lock accounts for one detach in all, unless one fails. -/
structure Accounts (lock : ProcessLock) (g g' : Tracer) : Prop where
  failed : g.detachFailed = true → g'.detachFailed = true
  once : g'.detachFailed = false → g'.detaches = g.detaches + if lock.detached then 0 else 1

theorem drop_accounts (lock : ProcessLock) :
    Wp tracer lock.drop (fun _ _ g' => Accounts lock g g') () g := by
  unfold ProcessLock.drop
  cases hd : lock.detached with
  | true => exact ⟨id, fun _ => by rw [hd]; rfl⟩
  | false =>
      simp only [Bool.false_eq_true, if_false]
      rw [wp_call]
      refine ⟨trivial, ?_⟩
      rintro (e | _)
      · exact ⟨fun _ => rfl, fun h => nomatch h⟩
      · exact ⟨id, fun _ => by rw [hd]; rfl⟩

theorem scope_accounts : ∀ (uses : List Bool) (lock : ProcessLock) (g : Tracer),
    Wp tracer (lock.scope uses) (fun _ _ g' => Accounts lock g g') () g
  | [], lock, g => drop_accounts lock
  | handOn :: uses, lock, g => by
      show (lock.detach () >>= _).Obeys tracer _ g
      rw [Cmd.obeys_bind]
      show Wp tracer lock.detach (fun r s g' => Wp tracer
        (match r with
          | .ok lock => lock.scope uses
          | .error e => if handOn then tryFinally (raise e) lock.drop else lock.scope uses)
        (fun _ _ g' => Accounts lock g g') s g') () g
      unfold ProcessLock.detach
      cases hd : lock.detached with
      | true => exact scope_accounts uses lock g
      | false =>
          simp only [Bool.false_eq_true, if_false]
          rw [wp_bind, wp_call]
          refine ⟨trivial, ?_⟩
          rintro (e | _)
          · -- A detach that failed leaves the lock as it was.
            have hfailed : ∀ g', Accounts lock { g with detachFailed := true } g' →
                Accounts lock g g' := fun g' h =>
              ⟨fun _ => h.failed rfl, fun hg => by rw [h.failed rfl] at hg; exact nomatch hg⟩
            simp only [mapErr_error, Continues]
            cases handOn with
            | true =>
                simp only [if_true]
                rw [wp_tryFinally, wp_raise]
                refine wp_mono (fun r s g' h => ?_) (drop_accounts lock)
                cases r with
                | ok _ => exact hfailed g' h
                | error _ => exact hfailed g' h
            | false => exact wp_mono (fun _ _ g' h => hfailed g' h) (scope_accounts uses lock _)
          · simp only [mapErr_ok, Continues, wp_pure]
            refine wp_mono (fun _ _ g' h => ?_) (scope_accounts uses { lock with detached := true }
              { g with attached := false, detaches := g.detaches + 1 })
            exact ⟨h.failed, fun hg => by rw [h.once hg, hd]; rfl⟩

/-- However often `detach` is called before the drop, a lock is detached once. -/
theorem scope_detaches_once {uses : List Bool} {p : Except Error Unit × Unit}
    (h : Cmd.Runs (ProcessLock.scope uses ⟨pid, false⟩ ()) tr p)
    (hdetach : tr.any detachFails = false) : detachCount tr = 1 :=
  ((scope_accounts uses ⟨pid, false⟩ {}).after h).once (by
    rw [after_detachFailed, hdetach]
    rfl)

/-! ## The result -/

/-- With PTRACE_DETACH working, `capture` leaves the target attached exactly when the wait behind
its attach has failed; and every lock is detached exactly once. -/
theorem capture_releases_iff {p : Except Error Proto.ProcessSnapshot × Unit}
    (h : Cmd.Runs (capture checksum pid ()) tr p) (hdetach : tr.any detachFails = false) :
    ((tracer.after {} tr).attached = false ↔ tr.any waitFails = false) ∧
    ∀ uses tr' q, Cmd.Runs (ProcessLock.scope uses ⟨pid, false⟩ ()) tr' q →
      tr'.any detachFails = false → detachCount tr' = 1 := by
  have hreleased := capture_releases.after h (by
    rw [after_detachFailed, hdetach]
    rfl)
  rw [after_waitFailed, Bool.false_or] at hreleased
  exact ⟨hreleased, fun _ _ _ hr hd => scope_detaches_once hr hd⟩

/-! ## An interrupted wait -/

/-- The calls succeed up to the wait, which is interrupted. -/
def interrupted : Unit → (o : CapOp) → CapResp o × Unit
  | _, .readMaps _ => (.ok [], ())
  | _, .pidExists _ => (true, ())
  | _, .attach _ => (.ok (), ())
  | _, .waitpid _ => (.error (.other "EINTR: Interrupted system call"), ())
  | _, .getregs _ => (.error .eperm, ())
  | _, .getfpregs _ => (.error .eperm, ())
  | _, .readMem _ _ _ => (.error "EIO", ())
  | _, .enumerateFds _ => (.ok [], ())
  | _, .detach _ => (.ok (), ())
  | _, .describe _ => (⟨"", "", "", 0, 0, 0, 0, 0⟩, ())

def interruptedRun : List (Event CapResp) × (Except Error Proto.ProcessSnapshot × Unit) :=
  Cmd.exec interrupted (capture (fun _ => 0) 42 ()) ()

theorem left_attached : ∃ tr e, Cmd.Runs (capture (fun _ => 0) 42 ()) tr (.error e, ()) ∧
    tr.any detachFails = false ∧ (tracer.after {} tr).attached = true :=
  ⟨interruptedRun.1, "waitpid(42) after attach failed: EINTR: Interrupted system call",
    Cmd.exec_runs interrupted _ (), rfl, rfl⟩

theorem capture_releases_iff_interrupted :
    ((tracer.after {} interruptedRun.1).attached = false ↔
      interruptedRun.1.any waitFails = false) ∧
    ∀ uses tr' q, Cmd.Runs (ProcessLock.scope uses ⟨42, false⟩ ()) tr' q →
      tr'.any detachFails = false → detachCount tr' = 1 :=
  capture_releases_iff (Cmd.exec_runs interrupted (capture (fun _ => 0) 42 ()) ()) rfl

end Wraith.Capture

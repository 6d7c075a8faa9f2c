/-
# `Wraith.Control.Leftovers` — which snapshot files outlive a migration

A migration makes two files that hold the memory of its source: a temporary one, for the capturer,
and the one the receiver writes on the destination.  The first is removed in a `finally` clause, the
second on one path only, behind a restorer that has exited 0.  `migrate_leaves_nothing_iff` says for
which runs neither is left.

The receiver writes when it likes, so what is considered is a list of `Moment`s, the operations of
`migrate` with the receiver's writes in between.

Few operations bear on the files.  The monitor `outline` takes these down and no others, and
`migrate_outline` says what they are, in four parts:

    Makes     `_run_capture` makes the temporary file and closes it
    Retrieves `_run_restore` runs the restorer, and `rm -f` if that exits 0
    Looks     `_build_result` looks for the temporary file
    Sweeps    `_cleanup_snapshot` looks for it, and unlinks what it finds
-/
import Wraith.Control.Commit

namespace Wraith.Control

open Lib Script

/-! ## Moments -/

/-- An operation of `migrate`, or the receiver writes a file. -/
inductive Moment where
  | operation (ev : Event PyResp)
  | writes (path : String)

def Moment.event : Moment → Option (Event PyResp)
  | .operation ev => some ev
  | .writes _ => none

def operations (ms : List Moment) : List (Event PyResp) := ms.filterMap Moment.event

def isCleanup : PyOp → Bool
  | .execCommand .cleanup _ _ => true
  | _ => false

/-- `rm -f` is run on the destination. -/
def Moment.isRemoval : Moment → Bool
  | .operation ev => isCleanup ev.1
  | .writes _ => false

def Moment.isWrite : Moment → Bool
  | .operation _ => false
  | .writes _ => true

/-! ## Files -/

/-- The temporary files there are after an operation. -/
def temporaryAfter (files : List String) : (o : PyOp) → PyResp o → List String
  | .mkstemp _ _, (r : Except Builtin (Int × String)) => match r with
    | .ok (_, path) => path :: files
    | .error _ => files
  | .unlink path, (r : Except Builtin Unit) => match r with
    | .ok _ => files.filter (· ≠ path)
    | .error _ => files
  | _, _ => files

def temporaryFiles (files : List String) (tr : List (Event PyResp)) : List String :=
  tr.foldl (fun files ev => temporaryAfter files ev.1 ev.2) files

/-- The snapshots on the destination after a moment. -/
def remoteAfter (files : List String) : Moment → List String
  | .writes path => path :: files
  | .operation ⟨.execCommand .cleanup cmd _, (r : Executed)⟩ =>
      if r.exited0 then files.filter (fun path => cmd ≠ s!"rm -f {path}") else files
  | .operation _ => files

def remoteFiles (files : List String) (ms : List Moment) : List String := ms.foldl remoteAfter files

/-! ## The claim -/

/-- Once started the receiver writes its own output path, and no other. -/
def ownWrites (path : String) (started : Bool) : List Moment → Bool
  | [] => true
  | .operation ⟨.execBackground _, _⟩ :: ms => ownWrites path true ms
  | .operation _ :: ms => ownWrites path started ms
  | .writes path' :: ms => started && path' = path && ownWrites path started ms

/-- If this deletes a file, it does so. -/
def deletes : (o : PyOp) → PyResp o → Bool
  | .unlink _, r => okOr (fun _ => false) r
  | .execCommand .cleanup _ _, (r : Executed) => r.exited0
  | _, _ => true

/-- A run of `migrate` beside its receiver, not told to keep the snapshot. -/
structure Proceeds (v : Bool) (t : Teleporter) (ms : List Moment)
    (p : Except PyExc MigrationResult × Teleporter) : Prop where
  run : Cmd.Runs (migrate v t) (operations ms) p
  discards : t.cfg.keepSnapshot = false
  receives : ownWrites t.remotePath false ms = true
  deletes : ((operations ms).all fun ev => deletes ev.1 ev.2) = true

/-- What `mkstemp` has made. -/
def made (tr : List (Event PyResp)) : List (Int × String) := tr.filterMap fun ev => match ev with
  | ⟨.mkstemp _ _, .ok file⟩ => some file
  | _ => none

def closed (fd : Int) (tr : List (Event PyResp)) : Bool := tr.any fun ev => match ev with
  | ⟨.close fd', .ok _⟩ => fd' = fd
  | _ => false

/-- What the last `os.path.exists` has answered; `found` if there was none. -/
def lastFound (found : Bool) (tr : List (Event PyResp)) : Bool :=
  tr.foldl (fun found ev => match ev with
    | ⟨.pathExists _, .ok b⟩ => b
    | ⟨.pathExists _, .error _⟩ => false
    | _ => found) found

/-- The restorer was seen to exit 0. -/
def retrieved (tr : List (Event PyResp)) : Bool := tr.any fun ev => match ev with
  | ⟨.execCommand .restorer _ _, (r : Executed)⟩ => r.exited0
  | _ => false

/-- The temporary file's descriptor is closed, or its path was on record before, as `snap`; and the
last look finds the file. -/
def temporarySwept (snap : Option String) (tr : List (Event PyResp)) : Bool :=
  (made tr).all fun file => file.2 ≠ "" && (closed file.1 tr || snap = some file.2) &&
    lastFound false tr

/-- Nothing is received; or the restorer is seen to exit 0, and nothing is received behind `rm -f`.
-/
def remoteSwept (ms : List Moment) : Bool :=
  !ms.any Moment.isWrite ||
    retrieved (operations ms) && !(ms.dropWhile fun m => !m.isRemoval).any Moment.isWrite

/-! ## Operations that bear on the files -/

def bears : PyOp → Bool
  | .mkstemp _ _ => true
  | .close _ => true
  | .pathExists _ => true
  | .unlink _ => true
  | .execCommand _ _ _ => true
  | _ => false

/-- The operations so far that bear on the files. -/
def outline : Cmd.Monitor PyResp (List (Event PyResp)) where
  allow _ _ := True
  next es o r := if bears o then es ++ [⟨o, r⟩] else es

theorem outline_after (tr es : List (Event PyResp)) :
    outline.after es tr = es ++ tr.filter fun ev => bears ev.1 := by
  induction tr generalizing es with
  | nil => exact (List.append_nil es).symm
  | cons ev tr ih =>
      rw [Cmd.Monitor.after_cons, ih, List.filter_cons]
      show (if bears ev.1 then es ++ [ev] else es) ++ _ = _
      cases bears ev.1 with
      | true => exact List.append_assoc _ _ _
      | false => rfl

variable {v : Bool} {t t' : Teleporter} {es : List (Event PyResp)} {α β : Type}

/-- The same but for its state, and what the destination has come to. -/
structure Kept (t t' : Teleporter) : Prop where
  cfg : t'.cfg = t.cfg
  migrationId : t'.migrationId = t.migrationId
  snapshotPath : t'.snapshotPath = t.snapshotPath
  remoteSnapshotPath : t'.remoteSnapshotPath = t.remoteSnapshotPath
  connected : t.connected = true → t'.connected = true

theorem Kept.refl (t : Teleporter) : Kept t t := ⟨rfl, rfl, rfl, rfl, id⟩

theorem Kept.trans {t'' : Teleporter} (h : Kept t t') (h' : Kept t' t'') : Kept t t'' where
  cfg := h'.cfg.trans h.cfg
  migrationId := h'.migrationId.trans h.migrationId
  snapshotPath := h'.snapshotPath.trans h.snapshotPath
  remoteSnapshotPath := h'.remoteSnapshotPath.trans h.remoteSnapshotPath
  connected := h'.connected ∘ h.connected

/-- A script none of whose operations bears on the files. -/
def Silent (c : Py α) : Prop := ∀ t es, Wp outline c (fun _ t' es' => es' = es ∧ Kept t t') t es

theorem Silent.pure (a : α) : Silent (pure a : Py α) := fun t _ => ⟨rfl, .refl t⟩

theorem Silent.raise (x : PyExc) : Silent (raise x : Py α) := fun t _ => ⟨rfl, .refl t⟩

theorem Silent.modify {f : Teleporter → Teleporter} (hf : ∀ t, Kept t (f t)) :
    Silent (modify f : Py Unit) := fun t _ => ⟨rfl, hf t⟩

theorem Silent.transition (state : MigrationState) : Silent (transition state) :=
  .modify fun _ => ⟨rfl, rfl, rfl, rfl, id⟩

theorem Silent.get_bind {f : Teleporter → Py α} (h : ∀ t, Silent (f t)) : Silent (get >>= f) :=
  fun t es => h t t es

theorem Silent.call {o : PyOp} {view : PyResp o → Except PyExc α} (ho : bears o = false) :
    Silent (call o view : Py α) := fun t es => by
  rw [wp_call]
  refine ⟨trivial, fun r => ⟨?_, .refl t⟩⟩
  show (if bears o then es ++ [⟨o, r⟩] else es) = es
  rw [ho, if_neg Bool.false_ne_true]

theorem Silent.attempt {o : PyOp} {view : PyResp o → Except Builtin α} (ho : bears o = false) :
    Silent (attempt o view) := Silent.call ho

theorem Silent.bind {c : Py α} {f : α → Py β} (hc : Silent c) (hf : ∀ a, Silent (f a)) :
    Silent (c >>= f) := fun t es => by
  refine (hc t es).bind ?_ fun _ _ _ h => h
  rintro a t₁ es ⟨rfl, hkept⟩
  exact wp_mono (fun _ _ _ h => ⟨h.1, hkept.trans h.2⟩) (hf a t₁ es)

theorem handles_silent {h : PyExc → Option (Py α)} {r : Except PyExc α}
    {Q : Except PyExc α → Teleporter → _ → Prop} (hh : ∀ x c, h x = some c → Silent c)
    (hQ : ∀ r t', Kept t t' → Q r t' es) : Handles outline h Q r t es := by
  cases r with
  | ok a => exact hQ _ _ (.refl t)
  | error x =>
      cases hx : h x with
      | none => exact (handles_none hx).mpr (hQ _ _ (.refl t))
      | some c =>
          refine (handles_some hx).mpr (wp_mono ?_ (hh x c hx t es))
          rintro r t' _ ⟨rfl, hkept⟩
          exact hQ r t' hkept

theorem Silent.tryExcept {c : Py α} {h : PyExc → Option (Py α)} (hc : Silent c)
    (hh : ∀ x c', h x = some c' → Silent c') : Silent (tryExcept c h) := fun t es => by
  rw [wp_tryExcept]
  refine wp_mono ?_ (hc t es)
  rintro r t₁ _ ⟨rfl, h₁⟩
  exact handles_silent hh fun _ _ h₂ => ⟨rfl, h₁.trans h₂⟩

theorem Silent.ite {p : Prop} [Decidable p] {c d : Py α} (hc : Silent c) (hd : Silent d) :
    Silent (if p then c else d) := by
  split
  · exact hc
  · exact hd

theorem Silent.suppress {c : Py Unit} (hc : Silent c) : Silent (suppress c) :=
  .tryExcept hc fun x c' h => by
    split at h
    · obtain rfl := Option.some.inj h
      exact .pure ()
    · exact nomatch h

theorem Silent.orRaise {c : Py α} {f : PyExc → PyExc} (hc : Silent c) : Silent (orRaise c f) :=
  .tryExcept hc fun x c' h => by
    split at h
    · obtain rfl := Option.some.inj h
      exact .raise _
    · exact nomatch h

/-- A silent script, and what is to hold behind it. -/
theorem Silent.wp_bind {c : Py α} {f : α → Py β} {Q : Except PyExc β → Teleporter → _ → Prop}
    (hc : Silent c) (hok : ∀ a t', Kept t t' → Wp outline (f a) Q t' es)
    (herr : ∀ x t', Kept t t' → Q (.error x) t' es) : Wp outline (c >>= f) Q t es :=
  (hc t es).bind (fun a t' _ h => h.1 ▸ hok a t' h.2) fun x t' _ h => h.1 ▸ herr x t' h.2

/-! ## Scripts that are silent -/

theorem runPreflight_silent : Silent runPreflight :=
  .bind (.transition _) fun _ => .get_bind fun _ => .bind (.attempt rfl) fun _ =>
    .ite (.pure ()) (.raise _)

theorem launch_silent {proc : Proc} {argv : List String} {timeout : Int} {timedOut notFound : PyExc}
    {exited : Completed → PyExc} : Silent (launch proc argv timeout timedOut notFound exited) := by
  refine .bind (.tryExcept (.attempt rfl) fun x c h => ?_) fun _ => .ite (.pure ()) (.raise _)
  unfold onLaunchError at h
  split at h
  · obtain rfl := Option.some.inj h
    exact .raise _
  · obtain rfl := Option.some.inj h
    exact .raise _
  · exact nomatch h

theorem startReceiver_silent (t : Teleporter) : Silent (startReceiver t) := by
  refine .orRaise (.bind (.get_bind fun _ => ?_) fun _ => .attempt rfl)
  exact .ite (.pure ()) (.raise _)

theorem ignoreLookup_silent (x : PyExc) (c : Py Unit) (h : ignoreLookup x = some c) : Silent c := by
  unfold ignoreLookup at h
  split at h
  · obtain rfl := Option.some.inj h
    exact .pure ()
  · exact nomatch h

theorem terminateSource_silent : Silent terminateSource :=
  .get_bind fun _ => .tryExcept
    (.bind (.attempt rfl) fun _ => .bind (.attempt rfl) fun _ =>
      .tryExcept (.attempt rfl) ignoreLookup_silent) ignoreLookup_silent

theorem rollback_silent (text : String) : Silent (rollback text) := by
  refine .bind (.transition _) fun _ => .get_bind fun _ => .tryExcept
    (.bind (.attempt rfl) fun _ => .ite (.transition _) (.bind (.transition _) fun _ => .raise _))
    fun x c h => ?_
  unfold onResumeError at h
  split at h
  · obtain rfl := Option.some.inj h
    exact .bind (.transition _) fun _ => .raise _
  · split at h
    · obtain rfl := Option.some.inj h
      exact .raise _
    · split at h
      · obtain rfl := Option.some.inj h
        exact .bind (.transition _) fun _ => .raise _
      · exact nomatch h

theorem onMigrateError_silent (x : PyExc) (c : Py MigrationResult) (h : onMigrateError x = some c) :
    Silent c := by
  unfold onMigrateError at h
  split at h
  · obtain rfl := Option.some.inj h
    exact .bind (.transition _) fun _ => .raise _
  · split at h
    · obtain rfl := Option.some.inj h
      exact .bind (rollback_silent _) fun _ => .raise _
    · exact nomatch h

/-- It also closes the client. -/
theorem closeSession_outline {Q : Except PyExc Unit → Teleporter → _ → Prop}
    (hQ : ∀ r t', Q r t' es) : Wp outline closeSession Q t es := by
  rw [closeSession, wp_get_bind]
  split
  · exact (Silent.suppress (.attempt rfl)).wp_bind (fun _ _ _ => hQ _ _) fun _ _ _ => hQ _ _
  · exact hQ _ _

/-! ## Scripts that are not -/

/-- `_run_capture`, from the path on record to the one it leaves there. -/
inductive Makes (snap : Option String) : List (Event PyResp) → Option String → Prop where
  | untouched : Makes snap [] snap
  | refused {pre suf : String} {b : Builtin} : Makes snap [⟨.mkstemp pre suf, .error b⟩] snap
  | unclosed {pre suf path : String} {fd : Int} {b : Builtin} :
      Makes snap [⟨.mkstemp pre suf, .ok (fd, path)⟩, ⟨.close fd, .error b⟩] snap
  | made {pre suf path : String} {fd : Int} :
      Makes snap [⟨.mkstemp pre suf, .ok (fd, path)⟩, ⟨.close fd, .ok ()⟩] (some path)

/-- `_run_restore`, where `rm` removes the remote snapshot. -/
inductive Retrieves (rm : String) : List (Event PyResp) → Prop where
  | untouched : Retrieves rm []
  | failed {cmd : String} {n : Int} {r : Executed} :
      r.exited0 = false → Retrieves rm [⟨.execCommand .restorer cmd n, r⟩]
  | removed {cmd : String} {n n' : Int} {r r' : Executed} : r.exited0 = true →
      Retrieves rm [⟨.execCommand .restorer cmd n, r⟩, ⟨.execCommand .cleanup rm n', r'⟩]

/-- `_build_result`. -/
inductive Looks : List (Event PyResp) → Prop where
  | untouched : Looks []
  | looked {path : String} {r : Except Builtin Bool} : Looks [⟨.pathExists path, r⟩]

/-- `_cleanup_snapshot`, with a path on record. -/
inductive Sweeps (snap : Option String) : List (Event PyResp) → Prop where
  | nothing : snap = none ∨ snap = some "" → Sweeps snap []
  | missed {path : String} {r : Except Builtin Bool} : snap = some path → path ≠ "" →
      r ≠ .ok true → Sweeps snap [⟨.pathExists path, r⟩]
  | swept {path : String} {r : Except Builtin Unit} : snap = some path → path ≠ "" →
      Sweeps snap [⟨.pathExists path, .ok true⟩, ⟨.unlink path, r⟩]

theorem outline_next {o : PyOp} {r : PyResp o} (ho : bears o = true) :
    outline.next es o r = es ++ [⟨o, r⟩] := if_pos ho

theorem runCapture_outline : Wp outline runCapture (fun _ t' es' => ∃ mk snap, es' = es ++ mk ∧
    Makes t.snapshotPath mk snap ∧ Kept { t with snapshotPath := snap } t') t es := by
  rw [runCapture, wp_transition_bind, wp_get_bind]
  refine wp_attempt_bind trivial (fun r file hr => ?_) (fun r b hr => ?_)
  · obtain ⟨fd, path⟩ := file
    obtain rfl : r = .ok (fd, path) := hr
    rw [outline_next rfl]
    refine wp_attempt_bind trivial (fun r u hr => ?_) (fun r b hr => ?_)
    · obtain rfl : r = .ok () := hr
      rw [outline_next rfl, List.append_assoc, wp_modify_bind]
      refine launch_silent.wp_bind (fun _ t₁ h₁ => ?_) fun _ t₁ h₁ =>
        ⟨_, _, rfl, .made, { h₁ with }⟩
      refine (Silent.attempt rfl).wp_bind (fun _ t₂ h₂ => ?_) fun _ t₂ h₂ => ?_
      · exact ⟨_, _, rfl, .made, { h₁.trans h₂ with }⟩
      · exact ⟨_, _, rfl, .made, { h₁.trans h₂ with }⟩
    · obtain rfl : r = .error b := hr
      rw [outline_next rfl, List.append_assoc]
      exact ⟨_, _, rfl, .unclosed, { Kept.refl t with }⟩
  · obtain rfl : r = .error b := hr
    rw [outline_next rfl]
    exact ⟨_, _, rfl, .refused, { Kept.refl t with }⟩

theorem runTransfer_outline : Wp outline runTransfer (fun r t' es' => es' = es ∧ ∃ remote,
    Kept { t with remoteSnapshotPath := remote } t' ∧
      ∀ u, r = .ok u → remote = some t.remotePath) t es := by
  rw [runTransfer, wp_transition_bind, wp_get_bind]
  cases t.snapshotPath with
  | none => exact ⟨rfl, _, ⟨rfl, rfl, rfl, rfl, id⟩, by rintro _ ⟨⟩⟩
  | some path =>
      simp only [pyAssert]
      rw [wp_pure_bind, wp_modify_bind]
      refine wp_mono ?_ (Silent.bind (startReceiver_silent _)
        (fun _ => .bind (.attempt rfl) fun _ => launch_silent) _ es)
      rintro r t' _ ⟨rfl, hkept⟩
      exact ⟨rfl, _, { hkept with }, fun _ _ => rfl⟩

theorem checkRestorer_zero (t : Teleporter) (err : String) : checkRestorer t err 0 = pure () := by
  rw [checkRestorer, if_neg (fun h => absurd h.1 (by decide)), if_neg (fun h => h rfl)]

theorem checkRestorer_ne_zero (t : Teleporter) (err : String) {code : Int} (h : code ≠ 0) :
    ∃ x, checkRestorer t err code = raise x := by
  rw [checkRestorer]
  split
  · exact ⟨_, rfl⟩
  · exact ⟨_, rfl⟩

theorem runRestore_outline (hkeep : t.cfg.keepSnapshot = false) (hc : t.connected = true)
    (hremote : t.remoteSnapshotPath = some t.remotePath) :
    Wp outline runRestore (fun _ t' es' => ∃ ret, es' = es ++ ret ∧
      Retrieves s!"rm -f {t.remotePath}" ret ∧ Kept t t') t es := by
  rw [runRestore, wp_transition_bind, wp_get_bind]
  simp only [hremote, pyAssert]
  rw [wp_pure_bind, wp_bind]
  refine wp_orRaise (wp_exec hc (fun _ => trivial) fun n r => ?_)
  rw [outline_next rfl]
  have hkept : ∀ state pid, Kept t
      { t with state, remoteSnapshotPath := some t.remotePath, destinationPid := pid } :=
    fun _ _ => ⟨rfl, rfl, rfl, hremote.symm, id⟩
  cases hr : r.result with
  | error b =>
      have hfailed : r.exited0 = false := by rw [Executed.exited0, hr]
      simp only [execOutcome, hr]
      split
      · exact ⟨_, rfl, .failed hfailed, hkept _ _⟩
      · exact ⟨_, rfl, .failed hfailed, hkept _ _⟩
  | ok result =>
      obtain ⟨out, err, code⟩ := result
      have hexit : r.exited0 = decide (code = 0) := by rw [Executed.exited0, hr]
      simp only [execOutcome, hr, Bool.false_eq_true, false_and, if_false, Continues]
      obtain rfl | hcode := eq_or_ne code 0
      · rw [checkRestorer_zero, wp_pure_bind, wp_modify_bind, if_pos hkeep]
        refine wp_suppress ?_
        rw [wp_bind]
        refine wp_exec hc (fun _ => trivial) fun n' r' => ?_
        rw [outline_next rfl, List.append_assoc]
        cases execOutcome s!"rm -f {t.remotePath}" true r' with
        | ok a => exact ⟨_, rfl, .removed hexit, hkept _ _⟩
        | error x =>
            simp only [Continues]
            split
            · exact ⟨_, rfl, .removed hexit, hkept _ _⟩
            · exact ⟨_, rfl, .removed hexit, hkept _ _⟩
      · obtain ⟨x, hx⟩ := checkRestorer_ne_zero
          { t with state := .restoring, remoteSnapshotPath := some t.remotePath } err hcode
        rw [hx]
        exact ⟨_, rfl, .failed (hexit.trans (decide_eq_false hcode)), hkept _ _⟩

/-- What `self._snapshot_path and os.path.exists(self._snapshot_path)` comes to. -/
inductive Existing (snap : Option String) : List (Event PyResp) → Except PyExc (Option String) →
    Prop where
  | nothing : snap = none ∨ snap = some "" → Existing snap [] (.ok none)
  | missed {path : String} {r : Except Builtin Bool} {q : Except PyExc (Option String)} :
      snap = some path → path ≠ "" → r ≠ .ok true → (∀ a, q = .ok a → a = none) →
      Existing snap [⟨.pathExists path, r⟩] q
  | found {path : String} : snap = some path → path ≠ "" →
      Existing snap [⟨.pathExists path, .ok true⟩] (.ok (some path))

theorem existingSnapshot_outline : Wp outline existingSnapshot (fun q t' es' => ∃ look,
    es' = es ++ look ∧ Existing t.snapshotPath look q ∧ t' = t) t es := by
  rw [existingSnapshot, wp_get_bind]
  split
  case h_1 hsnap => exact ⟨[], (List.append_nil es).symm, .nothing (Or.inl hsnap), rfl⟩
  case h_2 path hsnap =>
    split
    case isTrue hempty =>
      exact ⟨[], (List.append_nil es).symm, .nothing (Or.inr (hempty ▸ hsnap)), rfl⟩
    case isFalse hne =>
      refine wp_attempt_bind trivial (fun r found hr => ?_) (fun r b hr => ?_)
      · obtain rfl : r = .ok found := hr
        rw [outline_next rfl]
        cases found with
        | true => exact ⟨_, rfl, .found hsnap hne, rfl⟩
        | false => exact ⟨_, rfl,
            .missed hsnap hne (by rintro ⟨⟩) fun _ h => (Except.ok.inj h).symm, rfl⟩
      · obtain rfl : r = .error b := hr
        rw [outline_next rfl]
        exact ⟨_, rfl, .missed hsnap hne (by rintro ⟨⟩) (by rintro _ ⟨⟩), rfl⟩

theorem Existing.looks {snap : Option String} {look : List (Event PyResp)}
    {q : Except PyExc (Option String)} (h : Existing snap look q) : Looks look := by
  cases h with
  | nothing _ => exact .untouched
  | missed _ _ _ _ => exact .looked
  | found _ _ => exact .looked

/-- A script that looks for the temporary file at most. -/
def Peeks (c : Py α) : Prop := ∀ t es, Wp outline c (fun _ t' es' => ∃ look, es' = es ++ look ∧
  Looks look ∧ Kept t t') t es

theorem Silent.bind_peeks {c : Py α} {f : α → Py β} (hc : Silent c) (hf : ∀ a, Peeks (f a)) :
    Peeks (c >>= f) := fun t es => by
  refine hc.wp_bind (fun a t₁ h₁ => wp_mono ?_ (hf a t₁ es)) fun x t₁ h₁ => ?_
  · rintro r t₂ _ ⟨look, rfl, hlook, h₂⟩
    exact ⟨look, rfl, hlook, h₁.trans h₂⟩
  · exact ⟨[], (List.append_nil es).symm, .untouched, h₁⟩

theorem Peeks.bind_silent {c : Py α} {f : α → Py β} (hc : Peeks c) (hf : ∀ a, Silent (f a)) :
    Peeks (c >>= f) := fun t es => by
  refine (hc t es).bind ?_ fun _ _ _ h => h
  rintro a t₁ _ ⟨look, rfl, hlook, h₁⟩
  refine wp_mono ?_ (hf a t₁ _)
  rintro r t₂ _ ⟨rfl, h₂⟩
  exact ⟨look, rfl, hlook, h₁.trans h₂⟩

theorem Peeks.get_bind {f : Teleporter → Py α} (h : ∀ t, Peeks (f t)) : Peeks (get >>= f) :=
  fun t es => h t t es

theorem snapshotSize_peeks : Peeks snapshotSize := fun t es => by
  rw [snapshotSize]
  refine existingSnapshot_outline.bind ?_ ?_
  · rintro (_ | path) t' _ ⟨look, rfl, h, rfl⟩
    · exact ⟨look, rfl, h.looks, .refl t'⟩
    · exact wp_mono (fun _ _ _ hr => ⟨look, hr.1, h.looks, hr.2⟩) (Silent.attempt rfl t' _)
  · rintro x t' _ ⟨look, rfl, h, rfl⟩
    exact ⟨look, rfl, h.looks, .refl t'⟩

theorem pyAssert_silent : ∀ a : Option α, Silent (pyAssert a)
  | none => .raise _
  | some a => .pure a

theorem buildResult_peeks : Peeks buildResult :=
  .get_bind fun _ => (pyAssert_silent _).bind_peeks fun _ => (Silent.call rfl).bind_peeks fun _ =>
    snapshotSize_peeks.bind_silent fun _ => .pure _

theorem commit_peeks : Peeks (commit v) := by
  have hend : Peeks (do transition .complete; buildResult) :=
    (Silent.transition _).bind_peeks fun _ => buildResult_peeks
  cases v with
  | true => exact hend
  | false => exact terminateSource_silent.bind_peeks fun _ => hend

theorem cleanupSnapshot_outline : Wp outline cleanupSnapshot (fun _ _ es' => ∃ sweep,
    es' = es ++ sweep ∧ Sweeps t.snapshotPath sweep) t es := by
  rw [cleanupSnapshot]
  refine existingSnapshot_outline.bind ?_ ?_
  · rintro found t' _ ⟨look, rfl, h, rfl⟩
    cases h with
    | nothing hsnap => exact ⟨_, rfl, .nothing hsnap⟩
    | missed hsnap hne hr hq =>
        obtain rfl := hq _ rfl
        exact ⟨_, rfl, .missed hsnap hne hr⟩
    | @found path hsnap hne =>
        refine wp_ignore ignoreOSError_builtin trivial (fun r _ => ?_) fun r _ _ _ => ?_
        · rw [outline_next rfl, List.append_assoc]
          exact ⟨_, rfl, .swept hsnap hne⟩
        · rw [outline_next rfl, List.append_assoc]
          exact ⟨_, rfl, .swept hsnap hne⟩
  · rintro x t' _ ⟨look, rfl, h, rfl⟩
    cases h with
    | missed hsnap hne hr hq => exact ⟨_, rfl, .missed hsnap hne hr⟩

/-! ## The outline of a migration -/

/-- What a migration does to the files, with `snap` on record before it, where `rm` removes the
remote snapshot: nothing unless it gets as far as its `try` statement. -/
inductive Outlined (snap : Option String) (rm : String) : List (Event PyResp) → Prop where
  | unconnected : Outlined snap rm []
  | run {mk ret look sweep : List (Event PyResp)} {snap' : Option String} :
      Makes snap mk snap' → Retrieves rm ret → Looks look → Sweeps snap' sweep →
      Outlined snap rm (mk ++ (ret ++ (look ++ sweep)))

/-- The body of the `try` statement, likewise. -/
def BodyOutlined (snap : Option String) (rm : String) (snap' : Option String)
    (es : List (Event PyResp)) : Prop :=
  ∃ mk ret look, es = mk ++ (ret ++ look) ∧ Makes snap mk snap' ∧ Retrieves rm ret ∧ Looks look

theorem Kept.remotePath (h : Kept t t') : t'.remotePath = t.remotePath := by
  rw [Teleporter.remotePath, Teleporter.shortId, h.cfg, h.migrationId]
  rfl

theorem connect_outline : Wp outline connect (fun r t' es' => es' = es ∧ Kept t t' ∧
    ∀ u, r = .ok u → t'.connected = true) t es := by
  rw [connect, wp_get_bind]
  by_cases hc : t.connected = true
  · rw [if_pos hc]
    exact ⟨rfl, .refl t, fun _ _ => hc⟩
  · rw [if_neg hc, connectClient, wp_bind, wp_call]
    refine ⟨trivial, ?_⟩
    rintro (e | _)
    · exact ⟨rfl, .refl t, by rintro _ ⟨⟩⟩
    · exact ⟨rfl, ⟨rfl, rfl, rfl, rfl, fun _ => rfl⟩, fun _ _ => rfl⟩

/-- The three phases: both ways out leave what was done up to there. -/
theorem phases_outline (hkeep : t.cfg.keepSnapshot = false) (hc : t.connected = true) :
    Wp outline phases (fun _ t' es => ∃ mk ret, es = mk ++ ret ∧
      Makes t.snapshotPath mk t'.snapshotPath ∧ Retrieves s!"rm -f {t.remotePath}" ret) t [] := by
  rw [phases]
  refine runCapture_outline.bind ?_ ?_
  · rintro _ t₁ mk ⟨_, snap, rfl, hmk, h₁⟩
    obtain rfl : t₁.snapshotPath = snap := h₁.snapshotPath
    refine runTransfer_outline.bind ?_ ?_
    · rintro _ t₂ _ ⟨rfl, remote, h₂, hremote⟩
      obtain rfl := hremote _ rfl
      have hrm : t₂.remotePath = t.remotePath := h₂.remotePath.trans h₁.remotePath
      have hkeep₂ : t₂.cfg.keepSnapshot = false := by rw [h₂.cfg, h₁.cfg, hkeep]
      have hremote₂ : t₂.remoteSnapshotPath = some t₂.remotePath :=
        h₂.remoteSnapshotPath.trans (congrArg some h₂.remotePath.symm)
      refine wp_mono ?_ (runRestore_outline hkeep₂ (h₂.connected (h₁.connected hc)) hremote₂)
      rintro _ t₃ _ ⟨ret, rfl, hret, h₃⟩
      rw [hrm] at hret
      have hsnap : t₃.snapshotPath = t₁.snapshotPath := h₃.snapshotPath.trans h₂.snapshotPath
      exact ⟨_, ret, rfl, hsnap ▸ hmk, hret⟩
    · rintro x t₂ _ ⟨rfl, remote, h₂, -⟩
      have hsnap : t₂.snapshotPath = t₁.snapshotPath := h₂.snapshotPath
      exact ⟨_, [], (List.append_nil _).symm, hsnap ▸ hmk, .untouched⟩
  · rintro x t₁ mk ⟨_, snap, rfl, hmk, h₁⟩
    have hsnap : t₁.snapshotPath = snap := h₁.snapshotPath
    exact ⟨mk, [], (List.append_nil _).symm, hsnap ▸ hmk, .untouched⟩

theorem migrateBody_outline (hkeep : t.cfg.keepSnapshot = false) (hc : t.connected = true) :
    Wp outline (migrateBody v) (fun _ t' es =>
      BodyOutlined t.snapshotPath s!"rm -f {t.remotePath}" t'.snapshotPath es) t [] := by
  rw [migrateBody, wp_bind, wp_connect_again hc]
  simp only [Continues]
  refine runPreflight_silent.wp_bind (fun _ t₁ h₁ => ?_) fun _ t₁ h₁ => ?_
  · have hkeep₁ : t₁.cfg.keepSnapshot = false := by rw [h₁.cfg, hkeep]
    refine (phases_outline hkeep₁ (h₁.connected hc)).bind ?_ ?_
    · rintro _ t₂ _ ⟨mk, ret, rfl, hmk, hret⟩
      rw [h₁.snapshotPath] at hmk
      rw [h₁.remotePath] at hret
      refine wp_mono ?_ (commit_peeks t₂ _)
      rintro _ t₃ _ ⟨look, rfl, hlook, h₃⟩
      exact ⟨mk, ret, look, List.append_assoc _ _ _, h₃.snapshotPath ▸ hmk, hret, hlook⟩
    · rintro x t₂ _ ⟨mk, ret, rfl, hmk, hret⟩
      rw [h₁.snapshotPath] at hmk
      rw [h₁.remotePath] at hret
      exact ⟨mk, ret, [], by rw [List.append_nil], hmk, hret, .untouched⟩
  · rw [← h₁.snapshotPath]
    exact ⟨[], [], [], rfl, .untouched, .untouched, .untouched⟩

theorem migrate_wp_outline (hkeep : t.cfg.keepSnapshot = false) : Wp outline (migrate v)
    (fun _ _ es => Outlined t.snapshotPath s!"rm -f {t.remotePath}" es) t [] := by
  rw [migrate, wp_bind, wp_call]
  refine ⟨trivial, fun now => ?_⟩
  simp only [Continues]
  rw [wp_modify_bind]
  refine connect_outline.bind ?_ ?_
  · rintro _ t₁ _ ⟨rfl, h₁, hconn⟩
    have hkeep₁ : t₁.cfg.keepSnapshot = false := by rw [h₁.cfg, hkeep]
    rw [wp_tryFinally, wp_tryFinally, wp_tryExcept]
    refine wp_mono ?_ (migrateBody_outline hkeep₁ (hconn _ rfl))
    rintro _ t₂ _ ⟨mk, ret, look, rfl, hmk, hret, hlook⟩
    rw [h₁.snapshotPath] at hmk
    rw [h₁.remotePath] at hret
    refine handles_silent onMigrateError_silent fun _ t₃ h₃ => ?_
    refine wp_mono ?_ cleanupSnapshot_outline
    rintro _ t₄ _ ⟨sweep, rfl, hsweep⟩
    rw [h₃.snapshotPath] at hsweep
    refine closes_of_forall fun _ => closeSession_outline fun _ t₅ => closes_of_forall fun _ => ?_
    rw [List.append_assoc, List.append_assoc]
    exact .run hmk hret hlook hsweep
  · rintro x t₁ _ ⟨rfl, -⟩
    exact .unconnected

theorem migrate_outline {tr : List (Event PyResp)} {p : Except PyExc MigrationResult × Teleporter}
    (h : Cmd.Runs (migrate v t) tr p) (hkeep : t.cfg.keepSnapshot = false) :
    Outlined t.snapshotPath s!"rm -f {t.remotePath}" (tr.filter fun ev => bears ev.1) := by
  have hout := (migrate_wp_outline hkeep).after h
  rwa [outline_after] at hout

/-! ## The temporary file -/

theorem temporaryFiles_append {files : List String} {tr tr' : List (Event PyResp)} :
    temporaryFiles files (tr ++ tr') = temporaryFiles (temporaryFiles files tr) tr' :=
  List.foldl_append

theorem lastFound_append {found : Bool} {tr tr' : List (Event PyResp)} :
    lastFound found (tr ++ tr') = lastFound (lastFound found tr) tr' := List.foldl_append

theorem made_append {tr tr' : List (Event PyResp)} : made (tr ++ tr') = made tr ++ made tr' :=
  List.filterMap_append

theorem closed_append {fd : Int} {tr tr' : List (Event PyResp)} :
    closed fd (tr ++ tr') = (closed fd tr || closed fd tr') := List.any_append

/-- The temporary files, and the condition, depend on the outline only. -/
theorem temporary_filter (files : List String) (snap : Option String) (tr : List (Event PyResp)) :
    temporaryFiles files (tr.filter fun ev => bears ev.1) = temporaryFiles files tr ∧
      temporarySwept snap (tr.filter fun ev => bears ev.1) = temporarySwept snap tr := by
  have hfiles : temporaryFiles files
      (tr.filter fun ev => bears ev.1) = temporaryFiles files tr := by
    rw [temporaryFiles, List.foldl_filter]
    congr 1
    funext files ev
    obtain ⟨o, r⟩ := ev
    cases o <;> rfl
  have hmade : made (tr.filter fun ev => bears ev.1) = made tr := by
    rw [made, List.filterMap_filter]
    congr 1
    funext ev
    obtain ⟨o, r⟩ := ev
    cases o <;> rfl
  have hclosed : ∀ fd, closed fd (tr.filter fun ev => bears ev.1) = closed fd tr := fun fd => by
    rw [closed, List.any_filter]
    congr 1
    funext ev
    obtain ⟨o, r⟩ := ev
    cases o <;> rfl
  have hfound : lastFound false (tr.filter fun ev => bears ev.1) = lastFound false tr := by
    rw [lastFound, List.foldl_filter]
    congr 1
    funext found ev
    obtain ⟨o, r⟩ := ev
    cases o <;> rfl
  refine ⟨hfiles, ?_⟩
  simp only [temporarySwept, hmade, hclosed, hfound]

/-- An `unlink` that comes after the file was made decides. -/
theorem Sweeps.removes {snap : Option String} {sweep : List (Event PyResp)} (h : Sweeps snap sweep)
    (path : String) (found : Bool) (hdel : (sweep.all fun ev => deletes ev.1 ev.2) = true) :
    temporaryFiles [path] sweep = [] ↔
      path ≠ "" ∧ snap = some path ∧ lastFound found sweep = true := by
  cases h with
  | nothing hsnap =>
      refine ⟨nofun, fun ⟨hne, hpath, _⟩ => ?_⟩
      rw [hpath] at hsnap
      obtain habs | habs := hsnap
      · exact nomatch habs
      · exact absurd (Option.some.inj habs) hne
  | @missed path' r hsnap hne hr =>
      refine ⟨nofun, fun ⟨_, _, hfound⟩ => absurd ?_ hr⟩
      cases r with
      | ok b => exact congrArg Except.ok hfound
      | error b => exact nomatch hfound
  | @swept path' r hsnap hne =>
      cases r with
      | error b => exact nomatch hdel
      | ok _ =>
          have hfiles : temporaryFiles [path]
              [⟨.pathExists path', .ok true⟩, ⟨.unlink path', .ok ()⟩] =
              [path].filter (· ≠ path') := rfl
          rw [hfiles, hsnap, List.filter_eq_nil_iff, List.forall_mem_singleton, decide_eq_true_eq,
            not_not]
          constructor
          · rintro rfl
            exact ⟨hne, rfl, rfl⟩
          · rintro ⟨-, hpath, -⟩
            exact (Option.some.inj hpath).symm

/-- Where no file was made none is there. -/
theorem Sweeps.keeps_nil {snap : Option String} {sweep : List (Event PyResp)}
    (h : Sweeps snap sweep) : temporaryFiles [] sweep = [] := by
  cases h with
  | nothing _ => rfl
  | missed _ _ _ => rfl
  | @swept path r _ _ => cases r <;> rfl

/-- What is neither in the making nor in the sweeping of the temporary file. -/
structure Apart (es : List (Event PyResp)) : Prop where
  made : made es = []
  closed : ∀ fd, closed fd es = false
  files : ∀ files, temporaryFiles files es = files

theorem Retrieves.apart {rm : String} {ret : List (Event PyResp)} (h : Retrieves rm ret) :
    Apart ret := by
  cases h <;> exact ⟨rfl, fun _ => rfl, fun _ => rfl⟩

theorem Looks.apart {look : List (Event PyResp)} (h : Looks look) : Apart look := by
  cases h <;> exact ⟨rfl, fun _ => rfl, fun _ => rfl⟩

theorem Sweeps.made {snap : Option String} {sweep : List (Event PyResp)} (h : Sweeps snap sweep) :
    made sweep = [] ∧ ∀ fd, closed fd sweep = false := by
  cases h <;> exact ⟨rfl, fun _ => rfl⟩

theorem temporarySwept_of_made {snap : Option String} {tr : List (Event PyResp)} {fd : Int}
    {path : String} (h : made tr = [(fd, path)]) : temporarySwept snap tr = true ↔
      path ≠ "" ∧ (closed fd tr = true ∨ snap = some path) ∧ lastFound false tr = true := by
  simp only [temporarySwept, h, List.all_cons, List.all_nil, Bool.and_true, Bool.and_eq_true,
    Bool.or_eq_true, decide_eq_true_eq, and_assoc]

theorem temporarySwept_of_none {snap : Option String} {tr : List (Event PyResp)}
    (h : made tr = []) :
    temporarySwept snap tr = true := by
  rw [temporarySwept, h, List.all_nil]

theorem Outlined.temporary {snap : Option String} {rm : String} (h : Outlined snap rm es)
    (hdel : (es.all fun ev => deletes ev.1 ev.2) = true) :
    temporaryFiles [] es = [] ↔ temporarySwept snap es = true := by
  cases h with
  | unconnected => exact ⟨fun _ => rfl, fun _ => rfl⟩
  | @run mk ret look sweep snap' hmk hret hlook hsweep =>
      have hmade : Control.made (mk ++ (ret ++ (look ++ sweep))) = Control.made mk := by
        simp only [made_append, hret.apart.made, hlook.apart.made, hsweep.made.1, List.append_nil]
      have hclosed : ∀ fd, Control.closed fd
          (mk ++ (ret ++ (look ++ sweep))) = Control.closed fd mk :=
        fun fd => by
          simp only [closed_append, hret.apart.closed, hlook.apart.closed, hsweep.made.2,
            Bool.or_false]
      have hfiles : temporaryFiles [] (mk ++ (ret ++ (look ++ sweep))) =
          temporaryFiles (temporaryFiles [] mk) sweep := by
        simp only [temporaryFiles_append, hret.apart.files, hlook.apart.files]
      have hfound : lastFound false (mk ++ (ret ++ (look ++ sweep))) =
          lastFound (lastFound false (mk ++ (ret ++ look))) sweep := by
        simp only [lastFound_append]
      simp only [List.all_append, Bool.and_eq_true] at hdel
      have hremoves := fun path =>
        hsweep.removes path (lastFound false (mk ++ (ret ++ look))) hdel.2.2.2
      rw [hfiles]
      cases hmk with
      | untouched => exact ⟨fun _ => temporarySwept_of_none hmade, fun _ => hsweep.keeps_nil⟩
      | refused => exact ⟨fun _ => temporarySwept_of_none hmade, fun _ => hsweep.keeps_nil⟩
      | @unclosed _ _ path fd b =>
          refine (hremoves path).trans ?_
          rw [temporarySwept_of_made hmade, hclosed, hfound]
          exact ⟨fun ⟨hne, hsnap, h⟩ => ⟨hne, Or.inr hsnap, h⟩,
            fun ⟨hne, hsnap, h⟩ => ⟨hne, hsnap.resolve_left Bool.false_ne_true, h⟩⟩
      | @made pre suf path fd =>
          have hshut : closed fd [⟨.mkstemp pre suf, .ok (fd, path)⟩, ⟨.close fd, .ok ()⟩] = true :=
            (Bool.or_false _).trans (decide_eq_true rfl)
          refine (hremoves path).trans ?_
          rw [temporarySwept_of_made hmade, hclosed, hfound]
          exact ⟨fun ⟨hne, _, h⟩ => ⟨hne, Or.inl hshut, h⟩, fun ⟨hne, _, h⟩ => ⟨hne, rfl, h⟩⟩

/-! ## The file on the destination -/

theorem remoteFiles_append {files : List String} {ms ms' : List Moment} :
    remoteFiles files (ms ++ ms') = remoteFiles (remoteFiles files ms) ms' := List.foldl_append

/-- Without an `rm -f` what is written stays. -/
theorem remoteFiles_of_no_removal {ms : List Moment} (hno : ∀ m ∈ ms, ¬ m.isRemoval = true) :
    ∀ {files : List String}, remoteFiles files ms = [] ↔
      files = [] ∧ ms.any Moment.isWrite = false := by
  induction ms with
  | nil => exact ⟨fun h => ⟨h, rfl⟩, fun h => h.1⟩
  | cons m ms ih =>
      intro files
      have htail : ∀ m ∈ ms, ¬ m.isRemoval = true := fun m hm => hno m (.tail _ hm)
      cases m with
      | writes path =>
          refine (@ih htail (path :: files)).trans ⟨fun h => ?_, fun h => ?_⟩
          · exact nomatch h.1
          · exact nomatch (show true = false from h.2)
      | operation ev =>
          have hsame : remoteAfter files (.operation ev) = files := by
            obtain ⟨o, r⟩ := ev
            cases o with
            | execCommand remote cmd n =>
                cases remote with
                | restorer => rfl
                | cleanup => exact absurd rfl (hno _ (.head _))
            | _ => rfl
          show remoteFiles (remoteAfter files (.operation ev)) ms = [] ↔ _
          rw [hsame]
          exact ih htail

/-- What an operation leaves on the destination was there before. -/
theorem remoteAfter_subset {files : List String} {ev : Event PyResp} :
    remoteAfter files (.operation ev) ⊆ files := by
  obtain ⟨o, r⟩ := ev
  cases o with
  | execCommand remote cmd n =>
      cases remote with
      | restorer => exact fun _ => id
      | cleanup =>
          rw [remoteAfter]
          split
          · exact List.filter_subset_self _
          · exact fun _ => id
  | _ => exact fun _ => id

theorem ownWrites_operation {path : String} {started : Bool} {ev : Event PyResp} {ms : List Moment}
    (h : ownWrites path started (.operation ev :: ms) = true) :
    ∃ started', ownWrites path started' ms = true := by
  obtain ⟨o, r⟩ := ev
  cases o <;> exact ⟨_, h⟩

/-- What is on the destination is what the receiver has written. -/
theorem remoteFiles_own {path : String} {ms : List Moment} :
    ∀ {started : Bool} {files : List String},
    ownWrites path started ms = true → (∀ f ∈ files, f = path) →
      ∀ f ∈ remoteFiles files ms, f = path := by
  induction ms with
  | nil => exact fun _ hfiles => hfiles
  | cons m ms ih =>
      intro started files hown hfiles
      cases m with
      | writes path' =>
          simp only [ownWrites, Bool.and_eq_true, decide_eq_true_eq] at hown
          obtain ⟨⟨-, rfl⟩, hown⟩ := hown
          exact ih hown (List.forall_mem_cons.mpr ⟨rfl, hfiles⟩)
      | operation ev =>
          obtain ⟨started', hown⟩ := ownWrites_operation hown
          exact ih hown fun f hf => hfiles f (remoteAfter_subset hf)

theorem ownWrites_append {path : String} {ms ms' : List Moment} : ∀ {started : Bool},
    ownWrites path started (ms ++ ms') = true → ownWrites path started ms = true := by
  induction ms with
  | nil => exact fun _ => rfl
  | cons m ms ih =>
      intro started hown
      cases m with
      | writes path' =>
          simp only [List.cons_append, ownWrites, Bool.and_eq_true] at hown ⊢
          exact ⟨hown.1, ih hown.2⟩
      | operation ev =>
          obtain ⟨o, r⟩ := ev
          cases o <;> exact ih hown

/-- The removals among the moments. -/
theorem filter_isRemoval (ms : List Moment) : ms.filter Moment.isRemoval =
    (((operations ms).filter fun ev => bears ev.1).filter fun ev => isCleanup ev.1).map
    .operation := by
  rw [List.filter_filter]
  induction ms with
  | nil => rfl
  | cons m ms ih =>
      cases m with
      | writes path => exact ih
      | operation ev =>
          obtain ⟨o, r⟩ := ev
          cases o with
          | execCommand remote cmd n =>
              cases remote with
              | restorer => exact ih
              | cleanup => exact congrArg (_ :: ·) ih
          | _ => exact ih

theorem retrieved_append {tr tr' : List (Event PyResp)} :
    retrieved (tr ++ tr') = (retrieved tr || retrieved tr') := List.any_append

theorem retrieved_filter (tr : List (Event PyResp)) :
    retrieved (tr.filter fun ev => bears ev.1) = retrieved tr := by
  rw [retrieved, List.any_filter]
  congr 1
  funext ev
  obtain ⟨o, r⟩ := ev
  cases o <;> rfl

/-- `rm -f` is run once behind a restorer that exits 0, and not otherwise. -/
theorem Outlined.removal {snap : Option String} {rm : String} (h : Outlined snap rm es) :
    (es.filter fun ev => isCleanup ev.1) = [] ∧ retrieved es = false ∨
      ∃ n r, (es.filter fun ev => isCleanup ev.1) = [⟨.execCommand .cleanup rm n, r⟩] ∧
        retrieved es = true := by
  cases h with
  | unconnected => exact Or.inl ⟨rfl, rfl⟩
  | @run mk ret look sweep snap' hmk hret hlook hsweep =>
      have hmk' : (mk.filter fun ev => isCleanup ev.1) = [] ∧ retrieved mk = false := by
        cases hmk <;> exact ⟨rfl, rfl⟩
      have hlook' : (look.filter fun ev => isCleanup ev.1) = [] ∧ retrieved look = false := by
        cases hlook <;> exact ⟨rfl, rfl⟩
      have hsweep' : (sweep.filter fun ev => isCleanup ev.1) = [] ∧ retrieved sweep = false := by
        cases hsweep <;> exact ⟨rfl, rfl⟩
      have hfilter : ((mk ++ (ret ++ (look ++ sweep))).filter fun ev => isCleanup ev.1) =
          ret.filter fun ev => isCleanup ev.1 := by
        simp only [List.filter_append, hmk'.1, hlook'.1, hsweep'.1, List.append_nil,
          List.nil_append]
      have hretrieved : retrieved (mk ++ (ret ++ (look ++ sweep))) = retrieved ret := by
        simp only [retrieved_append, hmk'.2, hlook'.2, hsweep'.2, Bool.or_false, Bool.false_or]
      rw [hfilter, hretrieved]
      cases hret with
      | untouched => exact Or.inl ⟨rfl, rfl⟩
      | failed hr => exact Or.inl ⟨rfl, (Bool.or_false _).trans hr⟩
      | removed hr => exact Or.inr ⟨_, _, rfl, (Bool.or_false _).trans hr⟩

theorem remote_iff {snap : Option String} {path : String} {ms : List Moment}
    (hout : Outlined snap s!"rm -f {path}" ((operations ms).filter fun ev => bears ev.1))
    (hown : ownWrites path false ms = true)
    (hdel : ((operations ms).all fun ev => deletes ev.1 ev.2) = true) :
    remoteFiles [] ms = [] ↔ remoteSwept ms = true := by
  have hremoval := filter_isRemoval ms
  obtain ⟨hnone, hret⟩ | ⟨n, r, hone, hret⟩ := hout.removal
  · rw [hnone, List.map_nil, List.filter_eq_nil_iff] at hremoval
    rw [retrieved_filter] at hret
    rw [remoteFiles_of_no_removal hremoval, remoteSwept, hret, Bool.false_and, Bool.or_false,
      Bool.not_eq_true', and_iff_right rfl]
  · rw [hone, List.map_singleton, List.filter_eq_cons_iff] at hremoval
    rw [retrieved_filter] at hret
    obtain ⟨pre, post, rfl, hpre, -, hpost⟩ := hremoval
    rw [List.filter_eq_nil_iff] at hpost
    have hdrop : ((pre ++
        .operation ⟨.execCommand .cleanup s!"rm -f {path}" n, r⟩ :: post).dropWhile
          fun m => !m.isRemoval) =
        .operation ⟨.execCommand .cleanup s!"rm -f {path}" n, r⟩ :: post := by
      rw [List.dropWhile_append_of_pos, List.dropWhile_cons_of_neg Bool.false_ne_true]
      intro m hm
      rw [(Bool.not_eq_true _).mp (hpre m hm)]
      rfl
    have hr : r.exited0 = true := by
      refine List.all_eq_true.mp hdel ⟨.execCommand .cleanup s!"rm -f {path}" n, r⟩ ?_
      rw [operations, List.filterMap_append]
      exact List.mem_append_right _ (.head _)
    have hgone : remoteFiles []
        (pre ++ .operation ⟨.execCommand .cleanup s!"rm -f {path}" n, r⟩ :: post) =
        remoteFiles [] post := by
      rw [remoteFiles_append]
      show remoteFiles (remoteAfter _ _) post = _
      congr 1
      rw [remoteAfter, if_pos hr, List.filter_eq_nil_iff]
      intro f hf
      obtain rfl := remoteFiles_own (ownWrites_append hown) (List.forall_mem_nil _) f hf
      rw [decide_eq_true_eq, not_not]
    rw [hgone, remoteFiles_of_no_removal hpost, and_iff_right rfl, remoteSwept, hret,
      Bool.true_and, hdrop, List.any_append, List.any_cons, Moment.isWrite, Bool.false_or]
    cases post.any Moment.isWrite with
    | true => simp
    | false => simp

/-! ## When nothing is left -/

/-- Neither file outlives the migration exactly if the temporary one is closed and found again, and
what was received is restored from, before `rm -f` and not after. -/
theorem migrate_leaves_nothing_iff {ms : List Moment}
    {p : Except PyExc MigrationResult × Teleporter}
    (h : Proceeds v t ms p) : temporaryFiles [] (operations ms) = [] ∧ remoteFiles [] ms = [] ↔
      temporarySwept t.snapshotPath (operations ms) = true ∧ remoteSwept ms = true := by
  have hout := migrate_outline h.run h.discards
  obtain ⟨hfiles, hswept⟩ := temporary_filter [] t.snapshotPath (operations ms)
  have hdel : (((operations ms).filter fun ev => bears ev.1).all fun ev => deletes ev.1 ev.2) =
      true := by
    refine List.all_eq_true.mpr fun ev hev => ?_
    exact List.all_eq_true.mp h.deletes ev (List.mem_of_mem_filter hev)
  rw [← hfiles, ← hswept, hout.temporary hdel, remote_iff hout h.receives h.deletes]

/-- The receiver writes its file behind `n` operations. -/
def receivedAt (path : String) (n : Nat) (tr : List (Event PyResp)) : List Moment :=
  (tr.take n).map .operation ++ .writes path :: (tr.drop n).map .operation

theorem operations_map (tr : List (Event PyResp)) : operations (tr.map .operation) = tr := by
  rw [operations, List.filterMap_map]
  exact List.filterMap_some

theorem operations_receivedAt (path : String) (n : Nat) (tr : List (Event PyResp)) :
    operations (receivedAt path n tr) = tr := by
  have hrest : operations (receivedAt path n tr) =
      operations ((tr.take n).map .operation) ++ operations ((tr.drop n).map .operation) :=
    List.filterMap_append
  rw [hrest, operations_map, operations_map, List.take_append_drop]

/-- The run of `example42` with the answers `respond`; the receiver writes its file when the
transmitter has exited. -/
def received (respond : (o : PyOp) → PyResp o) : List Moment :=
  receivedAt example42.remotePath 10
    (Cmd.exec (fun (_ : Unit) o => (respond o, ())) (migrate false example42) ()).1

theorem received_runs (respond : (o : PyOp) → PyResp o) :
    Cmd.Runs (migrate false example42) (operations (received respond))
      (Cmd.exec (fun (_ : Unit) o => (respond o, ())) (migrate false example42) ()).2 := by
  rw [received, operations_receivedAt]
  exact Cmd.exec_runs _ _ _

theorem migrate_leaves_nothing_iff_succeeds :
    temporaryFiles [] (operations (received succeeds)) = [] ∧
      remoteFiles [] (received succeeds) = [] :=
  (migrate_leaves_nothing_iff
    ⟨received_runs succeeds, rfl, by decide +kernel, by decide +kernel⟩).mpr
    ⟨by decide +kernel, by decide +kernel⟩

/-- The restorer fails.  The migration is rolled back, and its snapshot is still on the destination.
-/
theorem snapshot_outlives : ∃ ms p, Proceeds false example42 ms p ∧ (∃ x, p.1 = .error x) ∧
    p.2.state = .rolledBack ∧ remoteFiles [] ms = [example42.remotePath] ∧
    ¬ (temporaryFiles [] (operations ms) = [] ∧ remoteFiles [] ms = []) := by
  have hleft : remoteFiles [] (received restorerFails) = [example42.remotePath] := by decide +kernel
  have hproceeds : Proceeds false example42 (received restorerFails) _ :=
    ⟨received_runs restorerFails, rfl, by decide +kernel, by decide +kernel⟩
  refine ⟨_, _, hproceeds, ⟨_, rfl⟩, rfl, hleft, fun ⟨_, hnone⟩ => ?_⟩
  rw [hleft] at hnone
  exact nomatch hnone

end Wraith.Control

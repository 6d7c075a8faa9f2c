/-
# `Wraith.Control.Dataflow` — what is handed from phase to phase

A migration is many programs: the capturer writes a file, the transmitter is given it, the receiver
is told where to put what it receives, and the restorer where to look.  Nothing but the texts of
their command lines ties them together.

`Justified` says for every operation of `migrate` which arguments it may have, given what has
happened before it.  In every run every operation is justified where it stands, and the result
reports what has happened (`migrate_justified`): no other process, file or host is touched.
-/
import Wraith.Lib.History
import Wraith.Control.Cli

namespace Wraith.Control

open Lib Script

/-! ## Command lines -/

namespace Teleporter

variable (t : Teleporter)

def captureArgv (path : String) : List String :=
  [t.cfg.destination.wraithCapturerPath, "capture", "--pid", toString t.pid, "--output", path]

def resumeArgv : List String :=
  [t.cfg.destination.wraithCapturerPath, "resume", "--pid", toString t.pid]

def transmitArgv (path : String) : List String :=
  t.cfg.destination.wraithTransmitterPath :: transmitArgs t path (toString t.cfg.timeoutS)

def receiverCommand : String :=
  s!"{t.cfg.destination.wraithReceiverPath} --listen 0.0.0.0:{t.cfg.destination.transferPort} " ++
    s!"--output {t.remotePath}"

def restorerCommand : String :=
  let flags := s!"--snapshot {t.remotePath}" ++ (if t.cfg.strictFds then " --strict-fds" else "")
  s!"{t.cfg.destination.wraithRestorerPath} {flags}"

def removeCommand : String := s!"rm -f {t.remotePath}"

end Teleporter

/-! ## What has happened -/

section Facts

variable (t : Teleporter) (path : String) (n : Int) (g : History PyResp)

/-- `mkstemp` has returned the path. -/
def Temporary : Prop := ∃ fd, ⟨.mkstemp s!"wraith_{t.shortId}_" ".pb", .ok (fd, path)⟩ ∈ g

/-- The capturer has exited 0 on it. -/
def CapturedTo : Prop := Temporary t path g ∧
  ∃ timeout c, ⟨.subprocessRun .capture (t.captureArgv path) timeout, .ok c⟩ ∈ g ∧ c.returncode = 0

/-- The receiver was started. -/
def ReceiverStarted : Prop := ⟨.execBackground t.receiverCommand, .ok ()⟩ ∈ g

/-- The transmitter has exited 0 on a file of the capturer, with the receiver started. -/
def TransferDone : Prop := ∃ path timeout c, CapturedTo t path g ∧ ReceiverStarted t g ∧
  ⟨.subprocessRun .transmit (t.transmitArgv path) timeout, .ok c⟩ ∈ g ∧ c.returncode = 0

/-- And the restorer has exited 0 on the file of the receiver; `n` is what it has printed. -/
def RestoredAs : Prop := TransferDone t g ∧ ∃ timeout left out err,
  ⟨.execCommand .restorer t.restorerCommand timeout, ⟨left, .ok (out, err, 0)⟩⟩ ∈ g ∧
  n = parseRestoredPid out

end Facts

section Lasting

variable {t : Teleporter} {path : String} {n : Int}

theorem lasting_temporary : Lasting (Temporary t path) := fun _ _ hg ⟨fd, h⟩ => ⟨fd, hg h⟩

theorem lasting_capturedTo : Lasting (CapturedTo t path) := fun _ _ hg ⟨hmade, timeout, c, h, h0⟩ =>
  ⟨lasting_temporary _ _ hg hmade, timeout, c, hg h, h0⟩

theorem lasting_transferDone : Lasting (TransferDone t) :=
  fun _ _ hg ⟨path, timeout, c, hcap, hstarted, h, h0⟩ =>
    ⟨path, timeout, c, lasting_capturedTo _ _ hg hcap, hg hstarted, hg h, h0⟩

theorem lasting_restoredAs : Lasting (RestoredAs t n) :=
  fun _ _ hg ⟨hdone, timeout, left, out, err, h, hn⟩ =>
    ⟨lasting_transferDone _ _ hg hdone, timeout, left, out, err, hg h, hn⟩

theorem lasting_restored : Lasting fun g => ∃ n, RestoredAs t n g :=
  fun _ _ hg ⟨n, h⟩ => ⟨n, lasting_restoredAs _ _ hg h⟩

end Lasting

/-! ## What justifies an operation -/

/-- The operations of a migration, with the arguments they may have. -/
def Justified (v : Bool) (t : Teleporter) (g : History PyResp) : PyOp → Prop
  | .monotonic => True
  | .sshConnect addr => addr = t.cfg.destination.sshAddr
  | .sshClose => True
  | .runAll pid => pid = t.pid
  | .mkstemp pre suf => pre = s!"wraith_{t.shortId}_" ∧ suf = ".pb"
  | .close fd => ∃ path, ⟨.mkstemp s!"wraith_{t.shortId}_" ".pb", .ok (fd, path)⟩ ∈ g
  | .subprocessRun .capture argv _ => ∃ path, argv = t.captureArgv path ∧ Temporary t path g
  | .subprocessRun .transmit argv _ => ∃ path, argv = t.transmitArgv path ∧ CapturedTo t path g ∧
      ReceiverStarted t g
  | .subprocessRun .resume argv _ => argv = t.resumeArgv
  | .getsize path => Temporary t path g
  | .pathExists path => Temporary t path g
  | .unlink path => Temporary t path g
  | .execBackground cmd => cmd = t.receiverCommand ∧ ∃ path, CapturedTo t path g
  | .sleep _ => True
  | .execCommand .restorer cmd _ => cmd = t.restorerCommand ∧ TransferDone t g
  | .execCommand .cleanup cmd _ => cmd = t.removeCommand ∧ t.cfg.keepSnapshot = false ∧
      ∃ n, RestoredAs t n g
  | .kill pid _ => pid = t.pid ∧ v = false ∧ ∃ n, RestoredAs t n g

/-- What the attributes answer for. -/
structure Backed (t s : Teleporter) (g : History PyResp) : Prop where
  same : t.Same s
  snapshot : ∀ path, s.snapshotPath = some path → Temporary t path g
  restored : ∀ n, s.destinationPid = some n → RestoredAs t n g

def dataflow (v : Bool) (t : Teleporter) : Discipline PyResp Teleporter where
  allow := Justified v t
  inv := Backed t
  inv_mono hg h := ⟨h.same, fun path hp => lasting_temporary _ _ hg (h.snapshot path hp),
    fun n hn => lasting_restoredAs _ _ hg (h.restored n hn)⟩

/-! ## Rules -/

section Rules

variable {v : Bool} {t s₀ : Teleporter} {α β : Type} {P : Teleporter → History PyResp → Prop}
  {Q : α → Teleporter → History PyResp → Prop}

theorem Backed.kept {s s' : Teleporter} {g : History PyResp} (h : Backed t s g) (hsame : s.Same s')
    (hsnap : s'.snapshotPath = s.snapshotPath) (hdest : s'.destinationPid = s.destinationPid) :
    Backed t s' g :=
  ⟨instTransSame.trans _ _ _ h.same hsame, fun path hp => h.snapshot path (hsnap ▸ hp),
    fun n hn => h.restored n (hdest ▸ hn)⟩

/-- The attributes are those of the same migration. -/
theorem follows_get_bind {f : Teleporter → Py α}
    (h : ∀ s₀, t.Same s₀ → Follows (dataflow v t) (fun s g => s = s₀ ∧ P s g) (f s₀) Q) :
    Follows (dataflow v t) P (get >>= f) Q := by
  refine .get_bind fun s₀ => .mono (.fact (h s₀)) (fun s g hI hP => ?_) fun _ _ _ _ hQ => hQ
  exact ⟨hP.1 ▸ hI.same, hP⟩

theorem follows_transition {state : MigrationState} (hP : ∀ s g, P s g → P { s with state } g) :
    Follows (dataflow v t) P (transition state) (fun _ => P) :=
  .modify fun s g hI hPs => ⟨hI.kept ⟨rfl, rfl, rfl⟩ rfl rfl, hP s g hPs⟩

theorem follows_attempt {o : PyOp} {view : PyResp o → Except Builtin α}
    (hallow : ∀ s g, Backed t s g → P s g → Justified v t g o)
    (h : ∀ s g r a, Backed t s g → P s g → view r = .ok a → Q a s (g ++ [⟨o, r⟩])) :
    Follows (dataflow v t) P (attempt o view) Q :=
  .call hallow fun s g r a hI hP ha => h s g r a hI hP (mapError_eq_ok.mp ha)

/-- Raise, or go on. -/
theorem follows_pyAssert {o : Option α} :
    Follows (dataflow v t) P (pyAssert o) (fun a s g => o = some a ∧ P s g) := by
  cases o with
  | none => exact .raise
  | some a => exact .pure fun s g _ hP => ⟨rfl, hP⟩

theorem follows_orRaise {c : Py α} {f : PyExc → PyExc} (h : Follows (dataflow v t) P c Q) :
    Follows (dataflow v t) P (orRaise c f) Q := by
  refine .tryExcept h fun x d hd => ?_
  split at hd
  · obtain rfl := Option.some.inj hd
    exact .raise
  · cases hd

theorem follows_suppress {c : Py Unit} (h : Follows (dataflow v t) P c fun _ _ _ => True) :
    Follows (dataflow v t) P (suppress c) fun _ _ _ => True := by
  refine .tryExcept h fun x d hd => ?_
  split at hd
  · obtain rfl := Option.some.inj hd
    exact .pure fun _ _ _ _ => trivial
  · cases hd

theorem follows_launch {proc : Proc} {argv : List String} {n : Int} {timedOut notFound : PyExc}
    {exited : Completed → PyExc} {Q : Unit → Teleporter → History PyResp → Prop}
    (hallow : ∀ s g, Backed t s g → P s g → Justified v t g (.subprocessRun proc argv n))
    (h : ∀ s g c, P s g → c.returncode = 0 → Q () s (g ++ [⟨.subprocessRun proc argv n, .ok c⟩])) :
    Follows (dataflow v t) P (launch proc argv n timedOut notFound exited) Q := by
  refine .bind (J := fun c s g => c.returncode = 0 → Q () s g)
    (.tryExcept (follows_attempt hallow fun s g r c _ hP hr h0 => ?_) fun x d hd => ?_) fun c => ?_
  · obtain rfl : r = .ok c := hr
    exact h s g c hP h0
  · unfold onLaunchError at hd
    split at hd
    · obtain rfl := Option.some.inj hd
      exact .raise
    · obtain rfl := Option.some.inj hd
      exact .raise
    · cases hd
  · split
    · rename_i h0
      exact .pure fun s g _ hQ => hQ h0
    · exact .raise

theorem follows_ensureConnected : Follows (dataflow v t) P ensureConnected (fun _ => P) := by
  refine .get_bind fun s₀ => ?_
  split
  · exact .pure fun _ _ _ hP => hP.2
  · exact .raise

theorem follows_exec {remote : Remote} {cmd : String} {timeout : Option Int} {check : Bool}
    {Q : String × String × Int → Teleporter → History PyResp → Prop}
    (hallow : ∀ s g n, Backed t s g → P s g → Justified v t g (.execCommand remote cmd n))
    (h : ∀ s g n left res, P s g → Q res s (g ++ [⟨.execCommand remote cmd n, ⟨left, .ok res⟩⟩])) :
    Follows (dataflow v t) P (exec remote cmd timeout check) Q := by
  refine .bind follows_ensureConnected fun _ => .get_bind fun s₀ =>
    .bind (J := Q) (follows_attempt (fun s g hI hP => hallow s g _ hI hP.2)
      fun s g r res _ hP hr => ?_) ?_
  · obtain ⟨left, result⟩ := r
    obtain rfl : result = .ok res := hr
    exact h s g _ left res hP.2
  · rintro ⟨out, err, code⟩
    dsimp only
    split
    · exact .raise
    · exact .pure fun _ _ _ hQ => hQ

end Rules

/-! ## The parts -/

section Parts

variable {v : Bool} {t s₀ : Teleporter} {P : Teleporter → History PyResp → Prop}

theorem Teleporter.Same.remotePath (h : t.Same s₀) : s₀.remotePath = t.remotePath := by
  rw [Teleporter.remotePath, Teleporter.remotePath, Teleporter.shortId, Teleporter.shortId, h.cfg,
    h.migrationId]

theorem Teleporter.Same.shortId (h : t.Same s₀) : s₀.shortId = t.shortId := by
  rw [Teleporter.shortId, Teleporter.shortId, h.migrationId]

theorem follows_connect : Follows (dataflow v t) Nothing connect fun _ _ _ => True := by
  refine follows_get_bind fun s₀ hs => ?_
  split
  · exact .pure fun _ _ _ _ => trivial
  · refine .bind (J := fun _ _ _ => True)
      (.call (fun _ _ _ _ => ?_) fun _ _ _ _ _ _ _ => trivial) fun _ =>
      .modify fun s g hI _ => ⟨hI.kept ⟨rfl, rfl, rfl⟩ rfl rfl, trivial⟩
    exact congrArg (fun cfg => cfg.destination.sshAddr) hs.cfg

theorem follows_enter : Follows (dataflow v t) Nothing enter fun _ _ _ => True :=
  .bind (J := fun _ => Nothing)
    (.call (fun _ _ _ _ => trivial) fun _ _ _ _ _ _ _ => trivial) fun _ =>
    .bind (J := fun _ => Nothing)
      (.modify fun _ _ hI _ => ⟨hI.kept ⟨rfl, rfl, rfl⟩ rfl rfl, trivial⟩)
      fun _ => follows_connect

theorem follows_runPreflight : Follows (dataflow v t) Nothing runPreflight fun _ _ _ => True := by
  refine .bind (follows_transition fun _ _ h => h) fun _ => follows_get_bind fun s₀ hs =>
    .bind (J := fun _ => Nothing)
      (follows_attempt (fun _ _ _ _ => hs.pid) fun _ _ _ _ _ _ _ => trivial)
      fun results => ?_
  split
  · exact .pure fun _ _ _ _ => trivial
  · exact .raise

/-- Where the capture returns, the local snapshot is a file of the capturer. -/
theorem follows_runCapture : Follows (dataflow v t) Nothing runCapture
    fun _ s g => ∃ path, s.snapshotPath = some path ∧ CapturedTo t path g := by
  refine .bind (follows_transition fun _ _ h => h) fun _ => follows_get_bind fun s₀ hs => ?_
  have hargv (path : String) : [s₀.cfg.destination.wraithCapturerPath, "capture", "--pid",
      toString s₀.pid, "--output", path] = t.captureArgv path := by
    rw [Teleporter.captureArgv, hs.cfg, hs.pid]
  refine .bind (J := fun file _ g => ⟨.mkstemp s!"wraith_{t.shortId}_" ".pb", .ok file⟩ ∈ g)
    (follows_attempt (fun _ _ _ _ => ⟨by rw [hs.shortId], rfl⟩) fun s g r file _ _ hr => ?_) ?_
  · obtain rfl : r = .ok file := hr
    rw [hs.shortId]
    exact List.mem_append_right _ (.head _)
  rintro ⟨fd, path⟩
  refine .bind (J := fun _ _ g => Temporary t path g)
    (follows_attempt (fun _ _ _ hmade => ⟨path, hmade⟩) fun _ _ _ _ _ hmade _ =>
      ⟨fd, List.mem_append_left _ hmade⟩) fun _ => ?_
  refine .bind (J := fun _ s g => s.snapshotPath = some path ∧ Temporary t path g)
    (.modify fun s g hI hmade => ⟨⟨⟨hI.same.pid, hI.same.cfg, hI.same.migrationId⟩,
      fun path' hp => Option.some.inj hp ▸ hmade, hI.restored⟩, rfl, hmade⟩) fun _ => ?_
  refine .bind (J := fun _ s g => s.snapshotPath = some path ∧ CapturedTo t path g)
    (follows_launch (fun _ _ _ hP => ⟨path, hargv path, hP.2⟩) fun s g c hP h0 => ?_) fun _ => ?_
  · rw [hargv]
    exact ⟨hP.1, lasting_temporary _ _ (List.subset_append_left _ _) hP.2, _, c,
      List.mem_append_right _ (.head _), h0⟩
  · refine .bind (J := fun _ s g => s.snapshotPath = some path ∧ CapturedTo t path g)
      (follows_attempt (fun _ _ _ hP => hP.2.1) fun _ _ _ _ _ hP _ =>
        ⟨hP.1, lasting_capturedTo _ _ (List.subset_append_left _ _) hP.2⟩) fun _ =>
      .pure fun _ _ _ hP => ⟨path, hP⟩

/-- What is known of the attributes is known behind it. -/
theorem follows_startReceiver {K : Teleporter → Prop} {path : String} (hs : t.Same s₀) :
    Follows (dataflow v t) (fun s g => K s ∧ CapturedTo t path g) (startReceiver s₀)
      fun _ s g => K s ∧ CapturedTo t path g ∧ ReceiverStarted t g := by
  have hcmd :
      s!"{s₀.cfg.destination.wraithReceiverPath} --listen 0.0.0.0:{s₀.cfg.destination.transferPort} "
        ++ s!"--output {s₀.remotePath}" = t.receiverCommand := by
    rw [Teleporter.receiverCommand, hs.remotePath, hs.cfg]
  refine follows_orRaise (.bind follows_ensureConnected fun _ =>
    follows_attempt (fun _ _ _ hP => ⟨hcmd, path, hP.2⟩) fun s g r _ _ hP hr => ?_)
  obtain rfl : r = .ok () := hr
  refine ⟨hP.1, lasting_capturedTo _ _ (List.subset_append_left _ _) hP.2, ?_⟩
  rw [ReceiverStarted, ← hcmd]
  exact List.mem_append_right _ (.head _)

theorem follows_runTransfer : Follows (dataflow v t)
    (fun s g => ∃ path, s.snapshotPath = some path ∧ CapturedTo t path g) runTransfer
    fun _ s g => s.remoteSnapshotPath = some t.remotePath ∧ TransferDone t g := by
  refine .bind (follows_transition fun _ _ h => h) fun _ => follows_get_bind fun s₀ hs => ?_
  refine .bind follows_pyAssert fun path => ?_
  refine .bind (J := fun _ s g => s.remoteSnapshotPath = some t.remotePath ∧ CapturedTo t path g)
    (.modify fun s g hI hP => ?_) fun _ => ?_
  · obtain ⟨hpath, rfl, path', hpath', hcap⟩ := hP
    obtain rfl := Option.some.inj (hpath.symm.trans hpath')
    exact ⟨hI.kept ⟨rfl, rfl, rfl⟩ rfl rfl, congrArg some hI.same.remotePath, hcap⟩
  have hargv : [s₀.cfg.destination.wraithTransmitterPath, "--snapshot", path, "--dest",
      s₀.cfg.destination.transferAddr, "--retries", toString s₀.cfg.retryCount, "--timeout",
      toString s₀.cfg.timeoutS, "--pid", toString s₀.pid] = t.transmitArgv path := by
    rw [Teleporter.transmitArgv, transmitArgs, hs.cfg, hs.pid]
  refine .bind (follows_startReceiver hs) fun _ => ?_
  refine .bind (J := fun _ s g => s.remoteSnapshotPath = some t.remotePath ∧ CapturedTo t path g ∧
    ReceiverStarted t g) (follows_attempt (fun _ _ _ _ => trivial) fun _ _ _ _ _ hP _ => ?_)
      fun _ => ?_
  · exact ⟨hP.1, lasting_capturedTo _ _ (List.subset_append_left _ _) hP.2.1,
      List.mem_append_left _ hP.2.2⟩
  · refine follows_launch (fun _ _ _ hP => ⟨path, hargv, hP.2⟩) fun s g c hP h0 => ⟨hP.1, ?_⟩
    rw [hargv]
    exact ⟨path, _, c, lasting_capturedTo _ _ (List.subset_append_left _ _) hP.2.1,
      List.mem_append_left _ hP.2.2, List.mem_append_right _ (.head _), h0⟩

/-- Only an exit with 0 goes past the check. -/
theorem follows_checkRestorer {err : String} {code : Int} :
    Follows (dataflow v t) P (checkRestorer s₀ err code) fun _ s g => code = 0 ∧ P s g := by
  unfold checkRestorer
  split
  · exact .raise
  split
  · exact .raise
  · rename_i h0
    exact .pure fun _ _ _ hP => ⟨not_not.mp h0, hP⟩

theorem follows_removeRemote (hs : t.Same s₀) (hkeep : s₀.cfg.keepSnapshot = false) :
    Follows (dataflow v t) (fun _ g => ∃ n, RestoredAs t n g) (removeRemote s₀.remotePath)
      fun _ _ _ => True := by
  have hcmd : s!"rm -f {s₀.remotePath}" = t.removeCommand := by
    rw [Teleporter.removeCommand, hs.remotePath]
  refine follows_suppress (.bind (J := fun _ _ _ => True) (follows_exec (fun s g n _ hP => ?_)
    fun _ _ _ _ _ _ => trivial) fun _ => .pure fun _ _ _ _ => trivial)
  exact ⟨hcmd, hs.cfg ▸ hkeep, hP⟩

theorem follows_runRestore : Follows (dataflow v t)
    (fun s g => s.remoteSnapshotPath = some t.remotePath ∧ TransferDone t g) runRestore
    fun _ _ g => ∃ n, RestoredAs t n g := by
  refine .bind (follows_transition fun _ _ h => h) fun _ => follows_get_bind fun s₀ hs => ?_
  refine .bind follows_pyAssert fun path => ?_
  refine .mono (.fact (P := fun _ g => TransferDone t g) fun hpath : path = s₀.remotePath => ?_)
    (fun s g _ hP => by
      obtain ⟨hsome, rfl, hremote, hdone⟩ := hP
      exact ⟨(Option.some.inj (hsome.symm.trans hremote)).trans hs.remotePath.symm, hdone⟩)
    fun _ _ _ _ hQ => hQ
  obtain rfl := hpath
  have hcmd : s!"{s₀.cfg.destination.wraithRestorerPath} " ++
      (s!"--snapshot {s₀.remotePath}" ++ (if s₀.cfg.strictFds then " --strict-fds" else "")) =
        t.restorerCommand := by
    rw [Teleporter.restorerCommand, hs.remotePath, hs.cfg]
    rfl
  refine .bind (J := fun res _ g => TransferDone t g ∧ ∃ timeout left,
    ⟨.execCommand .restorer t.restorerCommand timeout, ⟨left, .ok res⟩⟩ ∈ g)
    (follows_orRaise (follows_exec (fun _ _ _ _ hP => ⟨hcmd, hP⟩) fun s g n left res hP => ?_)) ?_
  · refine ⟨lasting_transferDone _ _ (List.subset_append_left _ _) hP, n, left, ?_⟩
    rw [← hcmd]
    exact List.mem_append_right _ (.head _)
  rintro ⟨out, err, code⟩
  refine .bind follows_checkRestorer fun _ => .mono (.fact fun h0 : code = 0 => ?_)
    (fun _ _ _ hP => hP) fun _ _ _ _ hQ => hQ
  obtain rfl := h0
  refine .bind (J := fun _ _ g => ∃ n, RestoredAs t n g) (.modify fun s g hI hP => ?_) fun _ => ?_
  · obtain ⟨hdone, timeout, left, hmem⟩ := hP
    have hrestored : RestoredAs t (parseRestoredPid out) g :=
      ⟨hdone, timeout, left, out, err, hmem, rfl⟩
    exact ⟨⟨⟨hI.same.pid, hI.same.cfg, hI.same.migrationId⟩, hI.snapshot, fun n hn =>
      Option.some.inj hn ▸ hrestored⟩, _, hrestored⟩
  · split
    · rename_i hkeep
      exact .mono (.frame lasting_restored (follows_removeRemote hs hkeep))
        (fun _ _ _ hP => ⟨hP, hP⟩)
        fun _ _ _ _ hQ => hQ.1
    · exact .pure fun _ _ _ hP => hP

/-- An `except` clause that ignores. -/
theorem follows_ignore {c : Py Unit} {h : PyExc → Option (Py Unit)}
    (hc : Follows (dataflow v t) P c fun _ _ _ => True) (hh : ∀ x d, h x = some d → d = pure ()) :
    Follows (dataflow v t) P (tryExcept c h) fun _ _ _ => True :=
  .tryExcept hc fun x d hd => hh x d hd ▸ .pure fun _ _ _ _ => trivial

theorem follows_terminateSource (hv : v = false) :
    Follows (dataflow v t) (fun _ g => ∃ n, RestoredAs t n g) terminateSource
      fun _ _ _ => True := by
  refine follows_get_bind fun s₀ hs => follows_ignore ?_ fun _ _ => ignoreLookup_eq
  have hkill {sig : Signal} : Follows (dataflow v t) (fun _ g => ∃ n, RestoredAs t n g)
      (attempt (.kill s₀.pid sig) id) fun _ _ g => ∃ n, RestoredAs t n g :=
    follows_attempt (fun _ _ _ hP => ⟨hs.pid, hv, hP⟩) fun _ _ _ _ _ hP _ =>
      lasting_restored _ _ (List.subset_append_left _ _) hP
  refine .bind (hkill.mono (fun _ _ _ hP => hP.2) fun _ _ _ _ hQ => hQ) fun _ =>
    .bind (J := fun _ _ g => ∃ n, RestoredAs t n g)
      (follows_attempt (fun _ _ _ _ => trivial) ?_) fun _ =>
      follows_ignore (hkill.mono (fun _ _ _ hP => hP) fun _ _ _ _ _ => trivial)
        fun _ _ => ignoreLookup_eq
  exact fun _ _ _ _ _ hP _ => lasting_restored _ _ (List.subset_append_left _ _) hP

/-- The snapshot that is looked at is the temporary file. -/
theorem follows_existingSnapshot : Follows (dataflow v t) Nothing existingSnapshot
    fun found _ g => ∀ path, found = some path → Temporary t path g := by
  refine .get_bind fun s₀ => ?_
  split
  · exact .pure fun _ _ _ _ path hp => by cases hp
  · rename_i path hsnap
    split
    · exact .pure fun _ _ _ _ path hp => by cases hp
    · refine .bind (J := fun _ _ g => Temporary t path g) (follows_attempt (fun s g hI hP => ?_)
        fun s g r found hI hP _ => ?_) fun found => .pure fun s g _ hmade path' hp => ?_
      · exact hI.snapshot path (hP.1 ▸ hsnap)
      · exact lasting_temporary _ _ (List.subset_append_left _ _) (hI.snapshot path (hP.1 ▸ hsnap))
      · cases found with
        | true => exact Option.some.inj hp ▸ hmade
        | false => cases hp

theorem follows_cleanupSnapshot :
    Follows (dataflow v t) Nothing cleanupSnapshot fun _ _ _ => True := by
  refine .bind follows_existingSnapshot fun found => ?_
  cases found with
  | none => exact .pure fun _ _ _ _ => trivial
  | some path =>
      exact follows_ignore
        (follows_attempt (fun _ _ _ hP => hP path rfl) fun _ _ _ _ _ _ _ => trivial)
        fun _ _ => ignoreOSError_eq

theorem follows_closeSession : Follows (dataflow v t) Nothing closeSession fun _ _ _ => True := by
  refine .get_bind fun s₀ => ?_
  split
  · exact .bind (J := fun _ => Nothing) (follows_suppress (follows_attempt (fun _ _ _ _ => trivial)
      fun _ _ _ _ _ _ _ => trivial)) fun _ =>
        .modify fun _ _ hI _ => ⟨hI.kept ⟨rfl, rfl, rfl⟩ rfl rfl, trivial⟩
  · exact .pure fun _ _ _ _ => trivial

/-- What the size in the result is. -/
def Measures (t : Teleporter) (size : Nat) (g : History PyResp) : Prop :=
  size = 0 ∨ ∃ path, Temporary t path g ∧ ⟨.getsize path, .ok size⟩ ∈ g

/-- The result reports what has happened. -/
structure Reports (t : Teleporter) (result : MigrationResult) (g : History PyResp) : Prop where
  migrationId : result.migrationId = t.migrationId
  source : result.sourcePid = t.pid
  host : result.destinationHost = t.cfg.destination.hostname
  destination : RestoredAs t result.destinationPid g
  size : Measures t result.snapshotSizeBytes g

theorem lasting_reports {result : MigrationResult} : Lasting (Reports t result) := fun _ _ hg h =>
  ⟨h.migrationId, h.source, h.host, lasting_restoredAs _ _ hg h.destination, h.size.imp id
    fun ⟨path, hmade, hmem⟩ => ⟨path, lasting_temporary _ _ hg hmade, hg hmem⟩⟩

theorem follows_snapshotSize :
    Follows (dataflow v t) Nothing snapshotSize fun size _ g => Measures t size g := by
  refine .bind follows_existingSnapshot fun found => ?_
  cases found with
  | none => exact .pure fun _ _ _ _ => Or.inl rfl
  | some path =>
      refine follows_attempt (fun _ _ _ hP => hP path rfl)
        fun _ _ r size _ hP hr => Or.inr ⟨path, ?_⟩
      obtain rfl : r = .ok size := hr
      exact ⟨lasting_temporary _ _ (List.subset_append_left _ _) (hP path rfl),
        List.mem_append_right _ (.head _)⟩

theorem follows_buildResult :
    Follows (dataflow v t) Nothing buildResult fun result _ g => Reports t result g := by
  refine follows_get_bind fun s₀ hs => .bind follows_pyAssert fun n => ?_
  refine .bind (J := fun _ _ g => RestoredAs t n g)
    (.call (fun _ _ _ _ => trivial) fun s g _ _ hI hP _ => ?_)
    fun now => .bind (.mono (.frame lasting_restoredAs follows_snapshotSize)
      (fun _ _ _ hP => ⟨hP, trivial⟩)
      fun _ _ _ _ hQ => hQ) fun size => .pure fun _ _ _ hP => ?_
  · obtain ⟨hn, rfl, -⟩ := hP
    exact lasting_restoredAs _ _ (List.subset_append_left _ _) (hI.restored n hn)
  · exact ⟨hs.migrationId, hs.pid, by rw [hs.cfg], hP.1, hP.2⟩

theorem follows_commit : Follows (dataflow v t) (fun _ g => ∃ n, RestoredAs t n g) (commit v)
    fun result _ g => Reports t result g := by
  have hdone : Follows (dataflow v t) Nothing (do transition .complete; buildResult)
      fun result _ g =>
      Reports t result g := .bind (follows_transition fun _ _ h => h) fun _ => follows_buildResult
  cases v with
  | true => exact hdone.mono (fun _ _ _ _ => trivial) fun _ _ _ _ hQ => hQ
  | false =>
      exact .bind (follows_terminateSource rfl) fun _ =>
        hdone.mono (fun _ _ _ _ => trivial) fun _ _ _ _ hQ => hQ

theorem follows_rollback {text : String} :
    Follows (dataflow v t) Nothing (rollback text) fun _ _ _ => True := by
  refine .bind (follows_transition fun _ _ h => h) fun _ => follows_get_bind fun s₀ hs => ?_
  have hargv : [s₀.cfg.destination.wraithCapturerPath, "resume", "--pid",
      toString s₀.pid] = t.resumeArgv := by
    rw [Teleporter.resumeArgv, hs.cfg, hs.pid]
  have hstop {x : PyExc} : Follows (dataflow v t) Nothing (do transition .failed; raise x : Py Unit)
      fun _ _ _ => True := .bind (follows_transition fun _ _ h => h) fun _ => .raise
  refine .tryExcept (.bind (J := fun _ => Nothing) (follows_attempt (fun _ _ _ _ => hargv)
    fun _ _ _ _ _ _ _ => trivial) fun result => ?_) fun x d hd => ?_
  · unfold afterResume
    split
    · exact follows_transition fun _ _ h => h
    · exact hstop
  · unfold onResumeError at hd
    split at hd
    · exact Option.some.inj hd ▸ hstop
    · split at hd
      · exact Option.some.inj hd ▸ .raise
      · split at hd
        · exact Option.some.inj hd ▸ hstop
        · cases hd

theorem follows_onMigrateError (x : PyExc) (d : Py MigrationResult)
    (hd : onMigrateError x = some d) :
    Follows (dataflow v t) Nothing d fun result _ g => Reports t result g := by
  rw [onMigrateError] at hd
  split at hd
  · exact Option.some.inj hd ▸ .bind (follows_transition fun _ _ h => h) fun _ => .raise
  · split at hd
    · exact Option.some.inj hd ▸ .bind follows_rollback fun _ => .raise
    · cases hd

theorem follows_migrate :
    Follows (dataflow v t) Nothing (migrate v) fun result _ g => Reports t result g := by
  have hbody : Follows (dataflow v t) Nothing (migrateBody v) fun result _ g =>
      Reports t result g :=
    .bind follows_connect fun _ => .bind follows_runPreflight fun _ =>
      .bind (.bind follows_runCapture fun _ => .bind follows_runTransfer fun _ =>
        follows_runRestore) fun _ =>
        follows_commit
  rw [migrate_eq]
  exact .bind follows_enter fun _ => .tryFinally (fun _ => lasting_reports)
    (.tryFinally (fun _ => lasting_reports)
      (.tryExcept hbody follows_onMigrateError) follows_cleanupSnapshot)
    follows_closeSession

end Parts

/-! ## The migration -/

/-- A `Teleporter` as `__init__` leaves it. -/
structure Teleporter.Unused (t : Teleporter) : Prop where
  snapshotPath : t.snapshotPath = none
  destinationPid : t.destinationPid = none

theorem Teleporter.Unused.backed {t : Teleporter} (h : t.Unused) : Backed t t [] := by
  refine ⟨⟨rfl, rfl, rfl⟩, fun path hp => ?_, fun n hn => ?_⟩
  · cases h.snapshotPath.symm.trans hp
  · cases h.destinationPid.symm.trans hn

/-- A run in which every operation is justified, and whose result is true. -/
structure Consequent (v : Bool) (t : Teleporter) (tr : List (Event PyResp))
    (r : Except PyExc MigrationResult) :
    Prop where
  justified : ∀ pre ev post, tr = pre ++ ev :: post → Justified v t pre ev.1
  reported : ∀ result, r = .ok result → Reports t result tr

/-- **Nothing but its own is touched.**  In every run, whatever its operations come to: the process
is the one to be migrated, the local file the one that `mkstemp` has returned, the remote file that
of the receiver; no program is started on what another one has not delivered. -/
theorem migrate_justified {v : Bool} {t : Teleporter} {tr : List (Event PyResp)}
    {p : Except PyExc MigrationResult × Teleporter} (ht : t.Unused)
    (h : Cmd.Runs (migrate v t) tr p) :
    Consequent v t tr p.1 := by
  obtain ⟨hjustified, hreported⟩ :=
    follows_migrate.run ht.backed trivial (show Cmd.Runs _ tr (p.1, p.2) from h)
  exact ⟨hjustified, hreported⟩

theorem migrate_justified_succeeds :
    let run := Cmd.exec (fun (_ : Unit) o => (succeeds o, ())) (migrate false example42) ()
    run.1.any (fun ev => ev.1 = .kill 42 .term) = true ∧ Consequent false example42 run.1 run.2.1 :=
  ⟨by decide +kernel, migrate_justified ⟨rfl, rfl⟩ (Cmd.exec_runs _ _ _)⟩

end Wraith.Control

/-
# `Wraith.Control.Teleporter` — the orchestrator

`Teleporter.migrate` of `wraith/teleporter.py` and what it calls, as a script over the operations it
performs: local processes, remote commands, files, signals.  Whatever an operation can come to is a
response, exceptions included, so a run of the script is a run of `migrate` under some choice of
outcomes.

Two things are recorded beside what the code sees.  Each local process and remote command carries
the name of the call it comes from (`Proc`, `Remote`), for the statements about it.  And the
response to a remote command says, apart from what the caller got back over SSH, whether a process
the command started is left running on the destination (`Executed.left`): these are independent.
The preflight suite is one operation here, answering with its results.  Log lines are left out.
-/
import Wraith.Lib.Script
import Wraith.Control.Exceptions

namespace Wraith.Control

open Lib Script

/-! ## Configuration -/

/-- `DestinationConfig`, with the checks of its `__post_init__`. -/
structure DestinationConfig where
  hostname : String
  port : Nat := 22
  username : String := "root"
  sshTimeoutS : Int := 10
  transferPort : Int := 9999
  wraithCapturerPath : String := "wraith-capturer"
  wraithRestorerPath : String := "wraith-restorer"
  wraithReceiverPath : String := "wraith-receiver"
  wraithTransmitterPath : String := "wraith-transmitter"
  remoteSnapshotDir : String := "/tmp"
  hostname_nonempty : hostname ≠ "" := by decide
  port_range : 1 ≤ port ∧ port ≤ 65535 := by decide

/-- `host:port`, for the transmitter. -/
def DestinationConfig.transferAddr (d : DestinationConfig) : String :=
  s!"{d.hostname}:{d.transferPort}"

def DestinationConfig.sshAddr (d : DestinationConfig) : String :=
  s!"{d.username}@{d.hostname}:{d.port}"

/-- `MigrationConfig` with `CaptureConfig`, `TransferConfig` and `RestoreConfig`, as far as the
orchestrator reads them. -/
structure MigrationConfig where
  destination : DestinationConfig
  freezeTimeoutS : Int := 30
  timeoutS : Int := 300
  retryCount : Int := 3
  startupTimeoutS : Int := 60
  strictFds : Bool := false
  keepSnapshot : Bool := false
  freezeTimeout_pos : 0 < freezeTimeoutS := by decide
  timeout_pos : 0 < timeoutS := by decide
  retryCount_nonneg : 0 ≤ retryCount := by decide

/-- A host of which only the name is given. -/
def worker2 : DestinationConfig := { hostname := "worker-2" }

def toWorker2 : MigrationConfig := { destination := worker2 }

/-! ## Operations -/

/-- The local process a `subprocess.run` starts. -/
inductive Proc where
  | capture
  | transmit
  | resume
  deriving DecidableEq, Repr

/-- The remote command a `RemoteSession.exec` runs. -/
inductive Remote where
  | restorer
  | cleanup
  deriving DecidableEq, Repr

inductive Signal where
  | term
  | kill
  deriving DecidableEq, Repr

inductive PyOp where
  | monotonic
  | sshConnect (addr : String)
  | sshClose
  | runAll (pid : Int)
  | mkstemp (pre suf : String)
  | close (fd : Int)
  | subprocessRun (proc : Proc) (argv : List String) (timeout : Int)
  | getsize (path : String)
  | pathExists (path : String)
  | unlink (path : String)
  | execBackground (cmd : String)
  | sleep (milliseconds : Nat)
  | execCommand (remote : Remote) (cmd : String) (timeout : Int)
  | kill (pid : Int) (signal : Signal)
  deriving DecidableEq, Repr

/-- One preflight finding. -/
structure CheckResult where
  name : String
  passed : Bool
  message : String
  blocking : Bool
  deriving DecidableEq, Repr

/-- `CompletedProcess`, as far as it is read; `stderr` comes stripped. -/
structure Completed where
  returncode : Int
  stderr : String
  deriving DecidableEq, Repr

/-- What `SSHClient.connect` can fail with, as `RemoteSession.connect` tells it apart. -/
inductive SshFailure where
  | noParamiko
  | authentication (text : String)
  | network (text : String)
  | other (b : Builtin)
  deriving DecidableEq, Repr

/-- What came of a remote command: at the destination, and at the caller. -/
structure Executed where
  left : Bool
  result : Except Builtin (String × String × Int)
  deriving Repr

@[reducible] def PyResp : PyOp → Type
  | .monotonic => Float
  | .sshConnect _ => Except SshFailure Unit
  | .sshClose => Except Builtin Unit
  | .runAll _ => Except Builtin (List CheckResult)
  | .mkstemp _ _ => Except Builtin (Int × String)
  | .close _ => Except Builtin Unit
  | .subprocessRun _ _ _ => Except Builtin Completed
  | .getsize _ => Except Builtin Nat
  | .pathExists _ => Except Builtin Bool
  | .unlink _ => Except Builtin Unit
  | .execBackground _ => Except Builtin Unit
  | .sleep _ => Except Builtin Unit
  | .execCommand _ _ _ => Executed
  | .kill _ _ => Except Builtin Unit

/-! ## The teleporter's state -/

inductive MigrationState where
  | init
  | preflight
  | capturing
  | transferring
  | restoring
  | complete
  | rollingBack
  | rolledBack
  | failed
  deriving DecidableEq, Repr

/-- The attributes of a `Teleporter`; `connected` is whether its session's client is set. -/
structure Teleporter where
  pid : Int
  cfg : MigrationConfig
  migrationId : String
  state : MigrationState := .init
  snapshotPath : Option String := none
  remoteSnapshotPath : Option String := none
  destinationPid : Option Int := none
  startTime : Float := 0
  connected : Bool := false

/-- `MigrationResult`. -/
structure MigrationResult where
  migrationId : String
  sourcePid : Int
  destinationPid : Int
  destinationHost : String
  elapsedS : Float
  snapshotSizeBytes : Nat

abbrev Py (α : Type) : Type := Script PyResp Teleporter PyExc α

/-- `self._migration_id[:8]`. -/
def Teleporter.shortId (t : Teleporter) : String := String.ofList (t.migrationId.toList.take 8)

/-- `_transition`. -/
def transition (state : MigrationState) : Py Unit := modify fun t => { t with state }

/-- An operation that raises what the library raises. -/
def attempt {α : Type} (o : PyOp) (view : PyResp o → Except Builtin α) : Py α :=
  call o fun r => (view r).mapError .builtin

/-- `assert`. -/
def pyAssert {α : Type} : Option α → Py α
  | some a => pure a
  | none => raise (.builtin (.exception "AssertionError" ""))

/-! ## `RemoteSession` -/

/-- The exception `connect` makes of a failure. -/
def SshFailure.toExc (d : DestinationConfig) : SshFailure → PyExc
  | .noParamiko => .wraith .wraithError "paramiko is not installed"
      (some "pip install paramiko>=3.0")
  | .authentication e => .wraith .wraithError s!"SSH auth failed for {d.sshAddr}: {e}"
      (some "Check SSH key path and that it is authorised on the destination")
  | .network e => .wraith .wraithError s!"Cannot connect to {d.sshAddr}: {e}"
      (some "Check hostname, port, and that sshd is running")
  | .other b => .builtin b

/-- Connect the client. -/
def connectClient (d : DestinationConfig) : Py Unit := do
  call (.sshConnect d.sshAddr) fun r => Except.mapError (SshFailure.toExc d) r
  modify fun t => { t with connected := true }

/-- `connect`; a second call does nothing. -/
def connect : Py Unit := do
  let t ← get
  if t.connected then pure () else connectClient t.cfg.destination

/-- `_ensure_connected`. -/
def ensureConnected : Py Unit := do
  let t ← get
  if t.connected then pure ()
  else raise (.wraith .wraithError "RemoteSession is not connected — call connect() first" none)

/-- `except Exception: pass`. -/
def suppress (c : Py Unit) : Py Unit :=
  tryExcept c fun e => if e.isException then some (pure ()) else none

/-- Close the client. -/
def closeClient : Py Unit := do
  suppress (attempt .sshClose id)
  modify fun t => { t with connected := false }

/-- `close`. -/
def closeSession : Py Unit := do
  let t ← get
  if t.connected then closeClient else pure ()

/-- `timeout or self._dest.ssh_timeout_s`. -/
def effectiveTimeout (d : DestinationConfig) : Option Int → Int
  | some n => if n = 0 then d.sshTimeoutS else n
  | none => d.sshTimeoutS

/-- `exec`. -/
def exec (remote : Remote) (cmd : String) (timeout : Option Int) (check : Bool) :
    Py (String × String × Int) := do
  ensureConnected
  let t ← get
  let (out, err, code) ← attempt
    (.execCommand remote cmd (effectiveTimeout t.cfg.destination timeout)) Executed.result
  if check = true ∧ code ≠ 0 then raise (commandError cmd code err) else pure (out, err, code)

/-- `exec_background`. -/
def execBackground (cmd : String) : Py Unit := do
  ensureConnected
  attempt (.execBackground cmd) id

/-! ## The phases -/

/-- `PreflightChecker.run_all`'s verdict on its results. -/
def allPassed (results : List CheckResult) : Bool :=
  results.all fun r => !r.blocking || r.passed

def blockingFailures (results : List CheckResult) : List CheckResult :=
  results.filter fun r => !r.passed && r.blocking

/-- The exception for a preflight that has not passed. -/
def preflightFailure (pid : Int) (results : List CheckResult) : PyExc :=
  match blockingFailures results with
  | [] => .builtin (.exception "IndexError" "list index out of range")
  | first :: _ => preflightError first.name first.message
      (some s!"Run `wraith check --pid {pid} --destination ...` for full report")

/-- `_run_preflight`. -/
def runPreflight : Py Unit := do
  transition .preflight
  let t ← get
  let results ← attempt (.runAll t.pid) id
  if allPassed results then pure () else raise (preflightFailure t.pid results)

/-- The two `except` clauses around a local process. -/
def onLaunchError {α : Type} (timedOut notFound : PyExc) : PyExc → Option (Py α)
  | .builtin (.timeoutExpired _) => some (raise timedOut)
  | .builtin (.os .fileNotFound _) => some (raise notFound)
  | _ => none

/-- Run a local process and wait for it: the `try` statement around `subprocess.run`, and the check
of the exit code after it. -/
def launch (proc : Proc) (argv : List String) (timeout : Int) (timedOut notFound : PyExc)
    (exited : Completed → PyExc) : Py Unit := do
  let result ← tryExcept (attempt (.subprocessRun proc argv timeout) id)
    (onLaunchError timedOut notFound)
  if result.returncode = 0 then pure () else raise (exited result)

/-- `_run_capture`. -/
def runCapture : Py Unit := do
  transition .capturing
  let t ← get
  let (fd, path) ← attempt (.mkstemp s!"wraith_{t.shortId}_" ".pb") id
  attempt (.close fd) id
  modify fun t => { t with snapshotPath := some path }
  let capturer := t.cfg.destination.wraithCapturerPath
  launch .capture [capturer, "capture", "--pid", toString t.pid, "--output", path]
    t.cfg.freezeTimeoutS
    (captureError s!"wraith-capturer timed out after {t.cfg.freezeTimeoutS}s"
      (some "Increase CaptureConfig.freeze_timeout_s or check ptrace permissions"))
    (captureError s!"wraith-capturer not found: {pyRepr capturer}"
      (some "Install Wraith binaries or check PATH"))
    (fun result => captureError s!"wraith-capturer exited {result.returncode}: {result.stderr}"
      (some "See stderr above for details"))
  let _ ← attempt (.getsize path) id
  pure ()

/-- The receiver's output path. -/
def Teleporter.remotePath (t : Teleporter) : String :=
  s!"{t.cfg.destination.remoteSnapshotDir}/wraith_{t.shortId}.pb"

/-- `except Exception as e: raise f(e)`. -/
def orRaise {α : Type} (c : Py α) (f : PyExc → PyExc) : Py α :=
  tryExcept c fun e => if e.isException then some (raise (f e)) else none

/-- Start the receiver on the destination, in the background. -/
def startReceiver (t : Teleporter) : Py Unit :=
  let dest := t.cfg.destination
  orRaise
    (execBackground (s!"{dest.wraithReceiverPath} --listen 0.0.0.0:{dest.transferPort} " ++
      s!"--output {t.remotePath}"))
    (fun e => receiverStartError dest.hostname e.str)

/-- `_run_transfer`. -/
def runTransfer : Py Unit := do
  transition .transferring
  let t ← get
  let snapshotPath ← pyAssert t.snapshotPath
  let dest := t.cfg.destination
  modify fun t => { t with remoteSnapshotPath := some t.remotePath }
  startReceiver t
  -- The receiver is given a moment to bind; nobody looks whether it did.
  attempt (.sleep 1500) id
  launch .transmit
    [dest.wraithTransmitterPath, "--snapshot", snapshotPath, "--dest", dest.transferAddr,
      "--retries", toString t.cfg.retryCount, "--timeout", toString t.cfg.timeoutS,
      "--pid", toString t.pid]
    (t.cfg.timeoutS + 30)
    (transferError s!"wraith-transmitter timed out after {t.cfg.timeoutS}s"
      (some "Check network bandwidth and increase TransferConfig.timeout_s"))
    (transferError s!"wraith-transmitter not found: {pyRepr dest.wraithTransmitterPath}"
      (some "Install Wraith Go binaries or check PATH"))
    (fun result => transferError
      s!"wraith-transmitter exited {result.returncode}: {result.stderr}" none)

/-- The scan of `_parse_restored_pid`: a line that starts with the word `Process` and a number. -/
def findRestoredPid : List String → Option Int
  | [] => none
  | line :: lines => match pySplit (pyStrip line) with
    | "Process" :: word :: _ => match pyInt word with
      | some pid => some pid
      | none => findRestoredPid lines
    | _ => findRestoredPid lines

/-- `_parse_restored_pid`. -/
def parseRestoredPid (output : String) : Int :=
  match findRestoredPid (pySplitlines output) with
  | some pid => pid
  | none => -1

/-- The check of the restorer's exit code. -/
def checkRestorer (t : Teleporter) (err : String) (code : Int) : Py Unit :=
  if code = 2 ∧ t.cfg.strictFds = true then
    raise (restoreError "wraith-restorer: FD restoration failed (--strict-fds mode)"
      (some "Remove --strict-fds to allow migration with FD warnings"))
  else if code ≠ 0 then
    raise (restoreError s!"wraith-restorer exited {code}: {pyStrip err}"
      (some (s!"Check {t.cfg.destination.remoteSnapshotDir}/wraith_receiver.log " ++
        "on destination")))
  else pure ()

/-- Run the restorer on the destination. -/
def runRestorer (t : Teleporter) (remotePath : String) : Py (String × String × Int) :=
  let flags := s!"--snapshot {remotePath}" ++ (if t.cfg.strictFds then " --strict-fds" else "")
  orRaise
    (exec .restorer s!"{t.cfg.destination.wraithRestorerPath} {flags}"
      (some t.cfg.startupTimeoutS) false)
    (fun e => restoreError s!"wraith-restorer invocation failed: {e.str}"
      (some "Check SSH connection and that wraith-restorer is installed on destination"))

/-- Remove the remote snapshot, if that works. -/
def removeRemote (remotePath : String) : Py Unit :=
  suppress do
    let _ ← exec .cleanup s!"rm -f {remotePath}" none true
    pure ()

/-- `_run_restore`. -/
def runRestore : Py Unit := do
  transition .restoring
  let t ← get
  let remotePath ← pyAssert t.remoteSnapshotPath
  let (out, err, code) ← runRestorer t remotePath
  checkRestorer t err code
  modify fun t => { t with destinationPid := some (parseRestoredPid out) }
  if t.cfg.keepSnapshot = false then removeRemote remotePath else pure ()

/-- `except ProcessLookupError: pass`. -/
def ignoreLookup : PyExc → Option (Py Unit)
  | .builtin (.os .processLookup _) => some (pure ())
  | _ => none

/-- SIGTERM, half a second, SIGKILL. -/
def signalSource (pid : Int) : Py Unit := do
  attempt (.kill pid .term) id
  attempt (.sleep 500) id
  tryExcept (attempt (.kill pid .kill) id) ignoreLookup

/-- `_terminate_source`, the point of no return. -/
def terminateSource : Py Unit := do
  let t ← get
  tryExcept (signalSource t.pid) ignoreLookup

/-- What `_rollback` does with the result of `resume`. -/
def afterResume (originalError : String) (result : Completed) : Py Unit :=
  if result.returncode = 0 then transition .rolledBack
  else do
    transition .failed
    raise (rollbackError originalError result.stderr)

/-- Its `except` clauses. -/
def onResumeError (originalError : String) (e : PyExc) : Option (Py Unit) :=
  match e with
  | .builtin (.timeoutExpired _) => some do
      transition .failed
      raise (rollbackError originalError "wraith-capturer resume timed out")
  | e =>
      if e.isA .rollbackError then some (raise e)
      else if e.isException then some do
        transition .failed
        raise (rollbackError originalError e.str)
      else none

/-- `_rollback`. -/
def rollback (originalError : String) : Py Unit := do
  transition .rollingBack
  let t ← get
  tryExcept
    (do
      let result ← attempt (.subprocessRun .resume
        [t.cfg.destination.wraithCapturerPath, "resume", "--pid", toString t.pid] 10) id
      afterResume originalError result)
    (onResumeError originalError)

/-- `except OSError: log.debug(…)`. -/
def ignoreOSError : PyExc → Option (Py Unit)
  | .builtin (.os _ _) => some (pure ())
  | _ => none

/-- `self._snapshot_path and os.path.exists(self._snapshot_path)`, with the path. -/
def existingSnapshot : Py (Option String) := do
  let t ← get
  match t.snapshotPath with
  | none => pure none
  | some path =>
    if path = "" then pure none
    else do
      let found ← attempt (.pathExists path) id
      pure (if found then some path else none)

/-- `_cleanup_snapshot`. -/
def cleanupSnapshot : Py Unit := do
  match ← existingSnapshot with
  | none => pure ()
  | some path => tryExcept (attempt (.unlink path) id) ignoreOSError

/-- The size of the local snapshot, if it is there. -/
def snapshotSize : Py Nat := do
  match ← existingSnapshot with
  | none => pure 0
  | some path => attempt (.getsize path) id

/-- `_build_result`. -/
def buildResult : Py MigrationResult := do
  let t ← get
  let destinationPid ← pyAssert t.destinationPid
  let now : Float ← call .monotonic fun r => .ok r
  let size ← snapshotSize
  pure { migrationId := t.migrationId, sourcePid := t.pid, destinationPid,
         destinationHost := t.cfg.destination.hostname, elapsedS := now - t.startTime,
         snapshotSizeBytes := size }

/-! ## `migrate` -/

/-- The three phases after the preflight. -/
def phases : Py Unit := do
  runCapture
  runTransfer
  runRestore

/-- From the commit point on. -/
def commit (verifyOnly : Bool) : Py MigrationResult := do
  if verifyOnly = false then terminateSource else pure ()
  transition .complete
  buildResult

/-- The body of the `try` statement. -/
def migrateBody (verifyOnly : Bool) : Py MigrationResult := do
  connect
  runPreflight
  phases
  commit verifyOnly

/-- Its `except` clauses. -/
def onMigrateError (e : PyExc) : Option (Py MigrationResult) :=
  if e.isA .preflightError then some do
    transition .rolledBack
    raise e
  else if e.isA .wraithError then some do
    rollback e.str
    raise e
  else none

/-- `migrate`: the `with` statement connects first and closes last. -/
def migrate (verifyOnly : Bool) : Py MigrationResult := do
  let now : Float ← call .monotonic fun r => .ok r
  modify fun t => { t with startTime := now, connected := false }
  connect
  tryFinally
    (tryFinally (tryExcept (migrateBody verifyOnly) onMigrateError) cleanupSnapshot)
    closeSession

end Wraith.Control

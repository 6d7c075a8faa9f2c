/-
# `Wraith.Control.Checks` — the preflight suite

`PreflightChecker` of `wraith/checks.py` and the session's `exec`, as a script over the probes it
makes.  `run_all` is one operation in `Wraith.Control.Teleporter`; here it is taken apart.

Each probe carries the check it is made for, and what it comes to for the check is its `view`: what
the call returns, or the exception raised in reading or parsing it.
-/
import Wraith.Control.Numbers
import Wraith.Control.Teleporter

namespace Wraith.Control

open Lib Script

/-! ## Checks -/

/-- The checks, by what they are called in the results. -/
inductive Check where
  | sourceProcessExists
  | sourceProcessPermissions
  | sourceProcessSize
  | sourceArch
  | destinationReachable
  | architectureMatch
  | destinationResources
  | binariesPresent
  deriving DecidableEq, Repr

/-- The `name` of a check's result. -/
def Check.name : Check → String
  | .sourceProcessExists => "source_process_exists"
  | .sourceProcessPermissions => "source_process_permissions"
  | .sourceProcessSize => "source_process_size"
  | .sourceArch => "source_arch"
  | .destinationReachable => "destination_reachable"
  | .architectureMatch => "architecture_match"
  | .destinationResources => "destination_resources"
  | .binariesPresent => "binaries_present"

/-- The suite, with a session. -/
def suite : List Check :=
  [.sourceProcessExists, .sourceProcessPermissions, .sourceProcessSize, .sourceArch,
    .destinationReachable, .architectureMatch, .destinationResources, .binariesPresent]

/-- `RemoteSession`, by its destination; whether its client is set is asked when it matters. -/
structure RemoteSession where
  dest : DestinationConfig

/-- The attributes of a `PreflightChecker` but for the results, with the check that
`CaptureConfig.__post_init__` makes of the limit. -/
structure PreflightChecker where
  pid : Int
  destination : DestinationConfig
  maxMemoryGb : PyFloat := .finite 64
  session : Option RemoteSession
  maxMemoryGb_pos : maxMemoryGb.le (.finite 0) = false

/-! ## Parsing -/

def valueError (text : String) : Builtin := .exception "ValueError" text

def indexError : Builtin := .exception "IndexError" "list index out of range"

/-- The text of a `KeyError` is the `repr` of its argument. -/
def keyError (text : String) : Builtin := .exception "KeyError" (pyRepr text)

/-- What `int` says of a text it does not read. -/
def intError (s : String) : Builtin :=
  let digits := (s.toList.filter fun c => (digitValue c).isSome).length
  if 4300 < digits then
    valueError <|
      s!"Exceeds the limit (4300 digits) for integer string conversion: value has {digits} " ++
      "digits; use sys.set_int_max_str_digits() to increase the limit"
  else
    valueError ("invalid literal for int() with base 10: " ++ String.ofList
      ((pyRepr s).toList.take 200))

/-- `int(s)`. -/
def intOf (s : String) : Except Builtin Int :=
  match pyInt s with
  | some n => .ok n
  | none => .error (intError s)

/-- `parts[i]`. -/
def item (parts : List String) (i : Nat) : Except Builtin String :=
  match parts[i]? with
  | some s => .ok s
  | none => .error indexError

/-- `s.startswith(pre)`. -/
def startsWith (s pre : String) : Bool := pre.toList.isPrefixOf s.toList

/-- `sub in s`. -/
def contains (s sub : String) : Bool := s.toList.tails.any fun cs => sub.toList.isPrefixOf cs

/-- The loop of `_read_proc_status_kb` over the lines of the file. -/
def statusKb (field : String) (pid : Int) : List String → Except Builtin Int
  | [] => .error (keyError s!"{pyRepr field} not found in /proc/{pid}/status")
  | line :: lines =>
      if startsWith line s!"{field}:" then item (pySplit line) 1 >>= intOf
      else statusKb field pid lines

/-- The loop of `_parse_free_available`; `output` is the whole text. -/
def freeAvailable (output : String) : List String → Except Builtin Int
  | [] => .error (valueError s!"Cannot parse `free -k` output: {pyRepr output}")
  | line :: lines =>
      let parts := pySplit line
      if startsWith line "Mem:" = false then freeAvailable output lines
      else if 7 ≤ parts.length then item parts 6 >>= intOf
      else if 4 ≤ parts.length then item parts 3 >>= intOf
      else freeAvailable output lines

/-- `_parse_free_available`. -/
def parseFreeAvailable (output : String) : Except Builtin Int :=
  freeAvailable output (pySplitlines output)

/-! ## Probes -/

/-- The probes.  `client` asks whether the session's client is set, and `execCommand` has the
argument `check` of `exec` with it. -/
inductive ChkOp where
  | isdir (path : String)
  | openMem (path : String)
  | closeMem (fd : Int)
  | readStatus (of : Check) (pid : Int) (field : String)
  | machine (of : Check)
  | client (of : Check)
  | execCommand (of : Check) (cmd : String) (timeout : Int) (check : Bool)
  deriving DecidableEq, Repr

/-- The file is answered by its lines. -/
@[reducible] def ChkResp : ChkOp → Type
  | .isdir _ => Bool
  | .openMem _ => Except Builtin Int
  | .closeMem _ => Except Builtin Unit
  | .readStatus _ _ _ => Except Builtin (List String)
  | .machine _ => String
  | .client _ => Bool
  | .execCommand _ _ _ _ => Except Builtin (String × String × Int)

@[reducible] def ChkValue : ChkOp → Type
  | .isdir _ => Bool
  | .openMem _ => Int
  | .closeMem _ => Unit
  | .readStatus _ _ _ => Int
  | .machine _ => String
  | .client _ => Unit
  | .execCommand _ _ _ _ => String × String × Int

/-- The check a probe is made for. -/
def ChkOp.check : ChkOp → Check
  | .isdir _ => .sourceProcessExists
  | .openMem _ => .sourceProcessPermissions
  | .closeMem _ => .sourceProcessPermissions
  | .readStatus of _ _ => of
  | .machine of => of
  | .client of => of
  | .execCommand of _ _ _ => of

/-- The end of `exec`. -/
def exitChecked (cmd : String) (check : Bool) :
    String × String × Int → Except PyExc (String × String × Int)
  | (out, err, code) =>
      if check = true ∧ code ≠ 0 then .error (commandError cmd code err) else .ok (out, err, code)

/-- What a response is for the code that has made the probe. -/
def ChkOp.view : (o : ChkOp) → ChkResp o → Except PyExc (ChkValue o)
  | .isdir _, r => .ok r
  | .openMem _, r => r.mapError .builtin
  | .closeMem _, r => r.mapError .builtin
  | .readStatus _ pid field, r => (r >>= statusKb field pid).mapError .builtin
  | .machine _, r => .ok r
  | .client _, r =>
      if r then .ok ()
      else .error (.wraith .wraithError
        "RemoteSession is not connected — call connect() first" none)
  | .execCommand _ cmd _ check, r => r.mapError .builtin >>= exitChecked cmd check

abbrev Chk (α : Type) : Type := Script ChkResp (List CheckResult) PyExc α

def probe (o : ChkOp) : Chk (ChkValue o) := call o o.view

/-- `exec`. -/
def sessionExec (of : Check) (session : RemoteSession) (cmd : String) (timeout : Option Int)
    (check : Bool) :
    Chk (String × String × Int) := do
  probe (.client of)
  probe (.execCommand of cmd (effectiveTimeout session.dest timeout) check)

/-- `_read_proc_status_kb`. -/
def readProcStatusKb (of : Check) (pid : Int) (field : String) : Chk Int :=
  probe (.readStatus of pid field)

/-! ## The suite -/

/-- `_record`. -/
def record (result : CheckResult) : Chk CheckResult := do
  modify fun results => results ++ [result]
  pure result

/-- `except Exception as e`, when the clause returns. -/
def onException {α : Type} (f : PyExc → α) (e : PyExc) : Option (Chk α) :=
  if e.isException then some (pure (f e)) else none

variable (c : PreflightChecker)

/-- `assert self._sess is not None`. -/
def assertSession : Chk RemoteSession :=
  match c.session with
  | some session => pure session
  | none => raise (.builtin (.exception "AssertionError" ""))

/-- `check_source_process_exists`. -/
def checkSourceProcessExists : Chk CheckResult := do
  let found ← probe (.isdir s!"/proc/{c.pid}")
  record {
    name := "source_process_exists"
    passed := found
    message :=
      if found then s!"Process {c.pid} found"
      else s!"No process with PID {c.pid} — check with `ps aux`"
    blocking := true }

/-- The two `except` clauses around the opening of `mem`. -/
def onOpenError (e : PyExc) : Option (Chk (Bool × String)) :=
  match e with
  | .builtin (.os .permission _) => some <| pure (false,
      s!"Cannot read /proc/{c.pid}/mem — insufficient permissions. " ++
        "Run as root or set /proc/sys/kernel/yama/ptrace_scope=0")
  | .builtin (.os .fileNotFound _) => some (pure (false, s!"Process {c.pid} disappeared mid-check"))
  | _ => none

/-- The `try` body of `check_source_process_permissions`. -/
def openMem : Chk (Bool × String) := do
  let fd ← probe (.openMem s!"/proc/{c.pid}/mem")
  probe (.closeMem fd)
  pure (true, s!"ptrace access to PID {c.pid} confirmed")

/-- `check_source_process_permissions`. -/
def checkSourceProcessPermissions : Chk CheckResult := do
  let (passed, message) ← tryExcept (openMem c) (onOpenError c)
  record { name := "source_process_permissions", passed, message, blocking := true }

/-- The `try` body of `check_source_process_size`. -/
def measureSize : Chk (Bool × String) := do
  let rssKb ← readProcStatusKb .sourceProcessSize c.pid "VmRSS"
  let rssGb ← ofExcept ((kbToGb rssKb).mapError .builtin)
  let ok := rssGb.le c.maxMemoryGb
  pure (ok,
    if ok then s!"RSS {rssGb.fixed 2} GB ≤ limit {c.maxMemoryGb.fixed 0} GB"
    else s!"RSS {rssGb.fixed 2} GB exceeds limit {c.maxMemoryGb.fixed 0} GB")

/-- `check_source_process_size`; it blocks when it fails. -/
def checkSourceProcessSize : Chk CheckResult := do
  let (passed, message) ← tryExcept (measureSize c)
    (onException fun e => (false, s!"Cannot read process memory usage: {e.str}"))
  record { name := "source_process_size", passed, message, blocking := !passed }

/-- `check_source_arch`. -/
def checkSourceArch : Chk CheckResult := do
  let arch ← probe (.machine .sourceArch)
  let ok := arch = "x86_64"
  record {
    name := "source_arch"
    passed := ok
    message := s!"Source arch: {arch}" ++ (if ok then "" else " (must be x86_64)")
    blocking := true }

/-- The `try` body of `check_destination_reachable`. -/
def pingDestination (session : RemoteSession) : Chk (Bool × String) := do
  let (out, _, _) ← sessionExec .destinationReachable session "echo wraith-ping" (some 5) true
  let ok := contains out "wraith-ping"
  pure (ok,
    if ok then s!"Destination {c.destination.sshAddr} reachable"
    else s!"Unexpected SSH response from {c.destination.sshAddr}")

/-- `check_destination_reachable`. -/
def checkDestinationReachable : Chk CheckResult := do
  let session ← assertSession c
  let (passed, message) ← tryExcept (pingDestination c session)
    (onException fun e => (false, s!"Cannot reach {c.destination.sshAddr}: {e.str}"))
  record { name := "destination_reachable", passed, message, blocking := true }

/-- The `try` body of `check_destination_arch`. -/
def compareArch (session : RemoteSession) (srcArch : String) : Chk (Bool × String) := do
  let (out, _, _) ← sessionExec .architectureMatch session "uname -m" (some 5) true
  let destArch := pyStrip out
  pure (srcArch = destArch, s!"Arch: source={srcArch} dest={destArch}")

/-- `check_destination_arch`. -/
def checkDestinationArch : Chk CheckResult := do
  let session ← assertSession c
  let srcArch ← probe (.machine .architectureMatch)
  let (passed, message) ← tryExcept (compareArch session srcArch)
    (onException fun e => (false, s!"Cannot check destination arch: {e.str}"))
  record { name := "architecture_match", passed, message, blocking := true }

/-- The `try` body of `check_destination_resources`. -/
def compareResources (session : RemoteSession) : Chk (Bool × String) := do
  let rssKb ← readProcStatusKb .destinationResources c.pid "VmRSS"
  let neededKb ← ofExcept ((timesOneAndHalf rssKb).mapError .builtin)
  let (out, _, _) ← sessionExec .destinationResources session "free -k" (some 5) true
  let availKb ← ofExcept ((parseFreeAvailable out).mapError .builtin)
  pure (availKb ≥ neededKb,
    s!"Dest available: {availKb / 1024} MB, needed: {neededKb / 1024} MB (1.5× RSS)")

/-- `check_destination_resources`. -/
def checkDestinationResources : Chk CheckResult := do
  let session ← assertSession c
  let (passed, message) ← tryExcept (compareResources c session)
    (onException fun e => (false, s!"Cannot determine resource availability: {e.str}"))
  record { name := "destination_resources", passed, message, blocking := true }

/-- The `try` body of `check_binaries_present`: is the binary missing? -/
def lookFor (session : RemoteSession) (binaryPath : String) : Chk Bool := do
  let (_, _, code) ← sessionExec .binariesPresent session
    s!"command -v {binaryPath} || test -x {binaryPath}" none false
  pure (code ≠ 0)

/-- The loop of `check_binaries_present`, with what is missing so far. -/
def findMissing (session : RemoteSession) : List String → List String → Chk (List String)
  | [], missing => pure missing
  | binaryPath :: rest, missing => do
      let absent ← tryExcept (lookFor session binaryPath) (onException fun _ => true)
      findMissing session rest (if absent then missing ++ [binaryPath] else missing)

/-- `check_binaries_present`. -/
def checkBinariesPresent : Chk CheckResult := do
  let session ← assertSession c
  let missing ← findMissing session
    [c.destination.wraithRestorerPath, c.destination.wraithReceiverPath] []
  let ok := missing.isEmpty
  record {
    name := "binaries_present"
    passed := ok
    message :=
      if ok then "Wraith binaries found on destination"
      else "Missing on destination: " ++ ", ".intercalate missing
    blocking := true }

/-- The checks on the source. -/
def localChecks : Chk Unit := do
  let _ ← checkSourceProcessExists c
  let _ ← checkSourceProcessPermissions c
  let _ ← checkSourceProcessSize c
  let _ ← checkSourceArch
  pure ()

/-- The checks on the destination. -/
def remoteChecks : Chk Unit := do
  let _ ← checkDestinationReachable c
  let _ ← checkDestinationArch c
  let _ ← checkDestinationResources c
  let _ ← checkBinariesPresent c
  pure ()

/-- `run_all`. -/
def runAll : Chk Bool := do
  localChecks c
  if c.session.isSome then remoteChecks c
  else
    let _ ← record {
      name := "remote_checks"
      passed := false
      message := "Remote checks skipped (no SSH session provided)"
      blocking := false }
  let results ← get
  pure (allPassed results)

end Wraith.Control

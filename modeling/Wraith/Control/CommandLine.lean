/-
# `Wraith.Control.CommandLine` — the orchestrator's call of the transmitter

`_run_transfer` writes the transmitter's command line and `wraith-transmitter` reads it.  The two
agree on all but one argument: `--timeout` is written as a number of seconds and read as a
duration, which needs a unit.  So no configuration gets past the flags (`transmit_never_agrees`);
with the unit every one would whose numbers fit (`agrees_with_unit`).
-/
import Wraith.Transport.Flags
import Wraith.Control.Rules

namespace Wraith.Control

open Lib Script Transport

variable {t : Teleporter} {path : String}

/-! ## What is written -/

/-- The arguments of the transmitter. -/
def transmitArgs (t : Teleporter) (path timeout : String) : List String :=
  ["--snapshot", path, "--dest", t.cfg.destination.transferAddr, "--retries",
    toString t.cfg.retryCount, "--timeout", timeout, "--pid", toString t.pid]

/-- Only `argv` is run as the transmitter. -/
def transmits (argv : List String) : Cmd.Monitor PyResp Unit where
  allow _ e := ∀ argv' timeout, e = .subprocessRun .transmit argv' timeout → argv' = argv
  next _ _ _ := ()

theorem startReceiver_transmits {argv : List String} {t' : Teleporter} :
    Wp (transmits argv) (startReceiver t) (fun r t'' _ => r = .ok () → t'' = t') t' () := by
  rw [startReceiver]
  by_cases hconn : t'.connected = true
  · exact wp_startReceiver hconn (by rintro _ _ ⟨⟩) (fun _ => rfl) (by rintro _ _ ⟨⟩)
      (by rintro _ _ ⟨⟩)
  · refine wp_orRaise ?_
    rw [execBackground, wp_bind, ensureConnected, wp_get_bind]
    simp only [if_neg hconn, wp_raise, Continues]
    split
    · rintro ⟨⟩
    · rintro ⟨⟩

theorem runTransfer_transmits (hpath : t.snapshotPath = some path) :
    Wp (transmits (t.cfg.destination.wraithTransmitterPath ::
      transmitArgs t path (toString t.cfg.timeoutS))) runTransfer (fun _ _ _ => True) t () := by
  rw [runTransfer, wp_transition_bind, wp_get_bind]
  simp only [hpath, pyAssert]
  rw [wp_pure_bind, wp_modify_bind]
  refine startReceiver_transmits.bind (fun _ t' _ _ => ?_) fun _ _ _ _ => trivial
  refine wp_attempt_bind (fun _ _ h => nomatch h) (fun r a hr => ?_) fun _ _ _ => trivial
  refine wp_launch ?_ (fun _ _ => trivial) (fun _ _ => trivial) (fun _ _ => trivial)
    fun _ _ => trivial
  intro argv' timeout h
  obtain ⟨-, rfl, -⟩ := PyOp.subprocessRun.inj h
  rfl

/-! ## What is read -/

/-- A flag with its value in the next argument. -/
theorem parseFlags_flag {flags flags' : TransmitterFlags} {s value : String}
    {args : List String} (name : String) (hs : flagArg s = .flag name none)
    (hname : defined name = true) (hset : setFlag flags name value = .ok flags') :
    parseFlags flags (s :: value :: args) = parseFlags flags' args := by
  rw [parseFlags, hs]
  simp only [hname, if_true, hset]
  rfl

theorem parseFlags_invalid {flags : TransmitterFlags} {s value : String} {args : List String}
    {e : FlagError} (name : String) (hs : flagArg s = .flag name none) (hname : defined name = true)
    (hset : setFlag flags name value = .error e) :
    parseFlags flags (s :: value :: args) = .error e := by
  rw [parseFlags, hs]
  simp only [hname, if_true, hset]
  rfl

theorem toList_toString {n : Int} (hn : 0 ≤ n) :
    (toString n).toList = Nat.toDigits 10 n.toNat := by
  rw [Int.toString_eq_repr, Int.repr_eq_if, if_pos hn, Nat.toList_repr]

theorem setFlag_retries (flags : TransmitterFlags) (value : String) :
    setFlag flags "retries" value = setNumber "retries" value (parseInt value.toList)
      fun n => { flags with retries := n } := rfl

theorem setFlag_pid (flags : TransmitterFlags) (value : String) :
    setFlag flags "pid" value = setNumber "pid" value (parseUint value.toList)
      fun n => { flags with pid := n } := rfl

theorem setFlag_timeout (flags : TransmitterFlags) (value : String) :
    setFlag flags "timeout" value =
      setNumber "timeout" value ((parseDuration value.toList).elim (.error .parse) .ok)
        fun d => { flags with timeout := d } := rfl

/-- The flags as configured, up to the timeout. -/
def configuredFlags (t : Teleporter) (path : String) : TransmitterFlags :=
  { snapshot := path, dest := t.cfg.destination.transferAddr, retries := t.cfg.retryCount }

/-- The flags up to the retry count. -/
theorem parseFlags_transmitArgs (timeout : String) :
    parseFlags {} (transmitArgs t path timeout) =
      parseFlags { snapshot := path, dest := t.cfg.destination.transferAddr }
        ["--retries", toString t.cfg.retryCount, "--timeout", timeout, "--pid",
          toString t.pid] := by
  rw [transmitArgs, parseFlags_flag "snapshot" (by decide) (by decide) rfl,
    parseFlags_flag "dest" (by decide) (by decide) rfl]

/-- And the retry count, if Go can hold it. -/
theorem parseFlags_retries (timeout : String) (hretry : t.cfg.retryCount < 2 ^ 63) :
    parseFlags {} (transmitArgs t path timeout) =
      parseFlags (configuredFlags t path) ["--timeout", timeout, "--pid", toString t.pid] := by
  have hretries : parseInt (toString t.cfg.retryCount).toList = .ok t.cfg.retryCount := by
    have hnonneg := t.cfg.retryCount_nonneg
    rw [toList_toString hnonneg, parseInt_toDigits (by omega), Int.toNat_of_nonneg hnonneg]
  rw [parseFlags_transmitArgs]
  refine parseFlags_flag "retries" (by decide) (by decide) ?_
  rw [setFlag_retries, hretries]
  rfl

/-- The number of seconds is taken for a duration without a unit. -/
theorem timeout_invalid (flags : TransmitterFlags) (args : List String) :
    parseFlags flags ("--timeout" :: toString t.cfg.timeoutS :: args) =
      .error (.invalidValue (toString t.cfg.timeoutS) "timeout" .parse) := by
  have hpos := t.cfg.timeout_pos
  have hnone : parseDuration (toString t.cfg.timeoutS).toList = none := by
    rw [toList_toString (by omega)]
    exact parseDuration_digits mem_toDigits_isDigit (toDigits_ne_zero (by omega))
  refine parseFlags_invalid "timeout" (by decide) (by decide) ?_
  rw [setFlag_timeout, hnone]
  rfl

/-- The transmitter accepts its arguments and reads what is configured. -/
def Agrees (t : Teleporter) (path : String) (args : List String) : Prop :=
  ∃ flags, parseFlags {} args = .ok flags ∧ flags.snapshot = path ∧
    flags.dest = t.cfg.destination.transferAddr ∧ flags.retries = t.cfg.retryCount ∧
    (flags.pid : Int) = t.pid ∧ flags.timeout = t.cfg.timeoutS * second

/-- With the unit it would, as long as the numbers are in Go's range. -/
theorem agrees_with_unit (hpid : 0 ≤ t.pid ∧ t.pid < 2 ^ 32) (hretry : t.cfg.retryCount < 2 ^ 63)
    (htimeout : t.cfg.timeoutS * second < 2 ^ 63) :
    Agrees t path (transmitArgs t path (toString t.cfg.timeoutS ++ "s")) := by
  have hduration : parseDuration (toString t.cfg.timeoutS ++ "s").toList =
      some (t.cfg.timeoutS * second) := by
    have hpos := t.cfg.timeout_pos
    obtain ⟨n, hn⟩ := Int.eq_ofNat_of_zero_le (Int.le_of_lt hpos)
    rw [String.toList_append, toList_toString (by omega), hn]
    rw [hn] at htimeout
    exact parseDuration_seconds (by exact_mod_cast htimeout)
  have hpidRead : parseUint (toString t.pid).toList = .ok t.pid.toNat := by
    rw [toList_toString hpid.1, parseUint_toDigits (by omega)]
  refine ⟨{ configuredFlags t path with timeout := t.cfg.timeoutS * second, pid := t.pid.toNat },
    ?_, rfl, rfl, rfl, Int.toNat_of_nonneg hpid.1, rfl⟩
  rw [parseFlags_retries _ hretry]
  rw [parseFlags_flag "timeout" (by decide) (by decide) (by
    rw [setFlag_timeout, hduration]
    rfl)]
  rw [parseFlags_flag "pid" (by decide) (by decide) (by
    rw [setFlag_pid, hpidRead]
    rfl)]
  rfl

/-- Whatever `strconv` makes of the retry count, the timeout is refused. -/
theorem transmitArgs_not_agrees (t : Teleporter) (path : String) :
    ¬ Agrees t path (transmitArgs t path (toString t.cfg.timeoutS)) := by
  rintro ⟨flags, hparse, -⟩
  rw [parseFlags_transmitArgs] at hparse
  cases hset : setFlag { snapshot := path, dest := t.cfg.destination.transferAddr } "retries"
      (toString t.cfg.retryCount) with
  | error e =>
      rw [parseFlags_invalid "retries" (by decide) (by decide) hset] at hparse
      exact nomatch hparse
  | ok flags' =>
      rw [parseFlags_flag "retries" (by decide) (by decide) hset, timeout_invalid] at hparse
      exact nomatch hparse

/-- In no run of `_run_transfer`, whatever the configuration, does the transmitter read what the
orchestrator means. -/
theorem transmit_never_agrees (hpath : t.snapshotPath = some path) {tr : List (Event PyResp)}
    {p : Except PyExc Unit × Teleporter} (h : Cmd.Runs (runTransfer t) tr p) {argv : List String}
    {timeout : Int} {r : Except Builtin Completed}
    (hmem : ⟨.subprocessRun .transmit argv timeout, r⟩ ∈ tr) : ¬ Agrees t path argv.tail := by
  obtain ⟨pre, post, htr⟩ := List.append_of_mem hmem
  have hargv := (runTransfer_transmits hpath).allowed h pre _ post htr argv timeout rfl
  rw [hargv]
  exact transmitArgs_not_agrees t path

/-! ## The default configuration -/

/-- A session that has captured process 42. -/
def sender : Teleporter where
  pid := 42
  cfg := toWorker2
  migrationId := "0123456789ab"
  snapshotPath := some "/tmp/wraith_01234567_x.pb"
  connected := true

/-- The receiver starts; the transmitter prints its usage and exits with 2. -/
def refuses : Unit → (e : PyOp) → PyResp e × Unit
  | _, .execBackground _ => (.ok (), ())
  | _, .sleep _ => (.ok (), ())
  | _, .subprocessRun _ _ _ => (.ok ⟨2, "invalid value"⟩, ())
  | _, .monotonic => (0, ())
  | _, .sshConnect _ => (.ok (), ())
  | _, .sshClose => (.ok (), ())
  | _, .runAll _ => (.ok [], ())
  | _, .mkstemp _ _ => (.ok (3, "/tmp/wraith_01234567_x.pb"), ())
  | _, .close _ => (.ok (), ())
  | _, .getsize _ => (.ok 0, ())
  | _, .pathExists _ => (.ok false, ())
  | _, .unlink _ => (.ok (), ())
  | _, .execCommand _ _ _ => (⟨false, .ok ("", "", 0)⟩, ())
  | _, .kill _ _ => (.ok (), ())

def senderArgv : List String :=
  "wraith-transmitter" :: transmitArgs sender "/tmp/wraith_01234567_x.pb" "300"

theorem sender_transmits :
    ⟨.subprocessRun .transmit senderArgv 330, .ok ⟨2, "invalid value"⟩⟩ ∈
      (Cmd.exec refuses (runTransfer sender) ()).1 :=
  List.mem_cons_of_mem _ (List.mem_cons_of_mem _ List.mem_cons_self)

theorem sender_refused :
    ∃ tr p argv timeout r, Cmd.Runs (runTransfer sender) tr p ∧
      ⟨.subprocessRun .transmit argv timeout, r⟩ ∈ tr ∧
      parseFlags {} argv.tail = .error (.invalidValue "300" "timeout" .parse) := by
  refine ⟨_, _, _, _, _, Cmd.exec_runs refuses _ (), sender_transmits, ?_⟩
  rw [senderArgv, List.tail_cons, parseFlags_retries _ (by decide)]
  exact timeout_invalid (t := sender) _ _

theorem transmit_never_agrees_sender :
    ¬ Agrees sender "/tmp/wraith_01234567_x.pb" senderArgv.tail :=
  transmit_never_agrees rfl (Cmd.exec_runs refuses (runTransfer sender) ()) sender_transmits

end Wraith.Control

/-
# `Wraith.Transport.Flags` — the transmitter's command line

`wraith-transmitter` reads its arguments with Go's `flag` package: `FlagSet.parseOne` on the six
flags of `cmd/transmitter/main.go`.
-/
import Wraith.Transport.Numerals

namespace Wraith.Transport

/-! ## The flags -/

/-- What `flag` stops with. -/
inductive FlagError where
  | badSyntax (arg : String)
  | help
  | undefined (name : String)
  | needsArgument (name : String)
  | invalidValue (value name : String) (err : NumError)
  deriving DecidableEq, Repr

/-- The variables of `main`, with the defaults of their flags. -/
structure TransmitterFlags where
  snapshot : String := ""
  dest : String := "localhost:9999"
  /-- In nanoseconds. -/
  timeout : Int := 300 * second
  retries : Int := 3
  pid : Nat := 0
  version : String := "1.0"
  deriving DecidableEq, Repr

/-- What one argument is to the parser. -/
inductive FlagArg where
  | positional
  | terminator
  | bad
  | flag (name : String) (value : Option String)
  deriving DecidableEq, Repr

/-- The name behind the dashes, split at its first equals sign. -/
def splitName (name : List Char) : FlagArg :=
  match name with
  | [] => .bad
  | '-' :: _ => .bad
  | '=' :: _ => .bad
  | name =>
      if '=' ∈ name then
        .flag (String.ofList (name.takeWhile (· ≠ '=')))
          (some (String.ofList ((name.dropWhile (· ≠ '=')).drop 1)))
      else .flag (String.ofList name) none

/-- The first lines of `parseOne`. -/
def flagArg (s : String) : FlagArg :=
  match s.toList with
  | ['-', '-'] => .terminator
  | '-' :: '-' :: name => splitName name
  | ['-'] => .positional
  | '-' :: name => splitName name
  | _ => .positional

/-- A `Value`'s `Set`, with the error `parseOne` makes of its error. -/
def setNumber {α : Type} (name value : String) (parsed : Except NumError α)
    (set : α → TransmitterFlags) : Except FlagError TransmitterFlags :=
  match parsed with
  | .ok a => .ok (set a)
  | .error e => .error (.invalidValue value name e)

/-- The flags that are defined. -/
def defined (name : String) : Bool :=
  name = "snapshot" || name = "dest" || name = "timeout" || name = "retries" || name = "pid" ||
    name = "version"

/-- `fs.Set` on a defined flag. -/
def setFlag (flags : TransmitterFlags) (name value : String) : Except FlagError TransmitterFlags :=
  match name with
  | "snapshot" => .ok { flags with snapshot := value }
  | "dest" => .ok { flags with dest := value }
  | "timeout" => setNumber name value ((parseDuration value.toList).elim (.error .parse) .ok)
      fun d => { flags with timeout := d }
  | "retries" => setNumber name value (parseInt value.toList) fun n => { flags with retries := n }
  | "pid" => setNumber name value (parseUint value.toList) fun n => { flags with pid := n }
  | _ => .ok { flags with version := value }

/-- The error for a name that is not defined. -/
def undefinedFlag (name : String) : FlagError :=
  if name = "help" ∨ name = "h" then .help else .undefined name

/-- `flag.Parse` on the arguments behind the program's name. -/
def parseFlags (flags : TransmitterFlags) : List String → Except FlagError TransmitterFlags
  | [] => .ok flags
  | s :: args =>
      match flagArg s with
      | .positional => .ok flags
      | .terminator => .ok flags
      | .bad => .error (.badSyntax s)
      | .flag name value =>
          if defined name then
            match value, args with
            | some value, args => do parseFlags (← setFlag flags name value) args
            | none, [] => .error (.needsArgument name)
            | none, value :: args => do parseFlags (← setFlag flags name value) args
          else .error (undefinedFlag name)

end Wraith.Transport

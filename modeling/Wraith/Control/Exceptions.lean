/-
# `Wraith.Control.Exceptions` — what Python code can raise

`wraith/exceptions.py`: the classes with their base classes, and the texts the constructors build.
`except` clauses select by class, so what matters of a class is `isA`.  Exceptions that do not come
from this hierarchy are `Builtin`: they are kept apart by what the orchestrator's `except` clauses
tell apart, everything else about them being a name and a text.
-/
import Wraith.Control.Strings

namespace Wraith.Control

/-! ## Classes -/

/-- The classes of `exceptions.py`, and `remote.CommandError`. -/
inductive WraithClass where
  | wraithError
  | preflightError
  | processNotFoundError
  | permissionError_
  | architectureMismatchError
  | destinationUnreachableError
  | insufficientResourcesError
  | binariesNotFoundError
  | captureError
  | processTooBigError
  | transferError
  | receiverStartError
  | restoreError
  | rollbackError
  | commandError
  deriving DecidableEq, Repr

/-- The direct base class; `WraithError` itself derives from `Exception`. -/
def WraithClass.base : WraithClass → Option WraithClass
  | wraithError => none
  | preflightError | captureError | transferError | restoreError | rollbackError
  | commandError => some wraithError
  | processNotFoundError | permissionError_ | architectureMismatchError
  | destinationUnreachableError | insufficientResourcesError
  | binariesNotFoundError => some preflightError
  | processTooBigError => some captureError
  | receiverStartError => some transferError

/-- `issubclass(c, d)`; the hierarchy is three levels deep. -/
def WraithClass.isA (c d : WraithClass) : Bool :=
  c = d || match c.base with
    | none => false
    | some b => b = d || b.base = some d

/-- Which `OSError`. -/
inductive OsKind where
  | fileNotFound
  | permission
  | processLookup
  | other (name : String)
  deriving DecidableEq, Repr

/-- Exceptions of Python and its libraries.  `base` is one that does not derive from `Exception`,
such as `KeyboardInterrupt`. -/
inductive Builtin where
  | timeoutExpired (text : String)
  | os (kind : OsKind) (text : String)
  | exception (name text : String)
  | base (name text : String)
  deriving DecidableEq, Repr

/-- A raised exception. -/
inductive PyExc where
  | wraith (cls : WraithClass) (message : String) (hint : Option String)
  | builtin (b : Builtin)
  deriving DecidableEq, Repr

/-- `isinstance(e, Exception)`. -/
def Builtin.isException : Builtin → Bool
  | .base _ _ => false
  | _ => true

def PyExc.isException : PyExc → Bool
  | .wraith _ _ _ => true
  | .builtin b => b.isException

/-- `isinstance(e, c)` for a class of the hierarchy. -/
def PyExc.isA (e : PyExc) (c : WraithClass) : Bool :=
  match e with
  | .wraith cls _ _ => cls.isA c
  | .builtin _ => false

/-- Every class of the hierarchy is a `WraithError`. -/
@[simp] theorem WraithClass.isA_wraithError (c : WraithClass) : c.isA .wraithError = true := by
  cases c <;> rfl

@[simp] theorem isA_wraithError_wraith (c : WraithClass) (m : String) (h : Option String) :
    (PyExc.wraith c m h).isA .wraithError = true := WraithClass.isA_wraithError c

@[simp] theorem isA_builtin (b : Builtin) (c : WraithClass) : (PyExc.builtin b).isA c = false := rfl

/-! ## Texts -/

/-- `str(e)` of a builtin. -/
def Builtin.str : Builtin → String
  | .timeoutExpired t => t
  | .os _ t => t
  | .exception _ t => t
  | .base _ t => t

/-- `str(e)`.  An empty hint counts as none. -/
def PyExc.str : PyExc → String
  | .wraith _ m none => m
  | .wraith _ m (some h) => if h = "" then m else m ++ "\n  Hint: " ++ h
  | .builtin b => b.str

/-! ## Constructors -/

def preflightError (checkName reason : String) (hint : Option String) : PyExc :=
  .wraith .preflightError s!"Pre-flight check '{checkName}' failed: {reason}" hint

def captureError (message : String) (hint : Option String) : PyExc :=
  .wraith .captureError message hint

def transferError (message : String) (hint : Option String) : PyExc :=
  .wraith .transferError message hint

def receiverStartError (hostname cause : String) : PyExc :=
  .wraith .receiverStartError s!"Could not start wraith-receiver on {hostname}: {cause}"
    (some "Check that wraith-receiver is installed and the transfer port is open")

def restoreError (message : String) (hint : Option String) : PyExc :=
  .wraith .restoreError message hint

def rollbackError (originalError rollbackCause : String) : PyExc :=
  .wraith .rollbackError
    s!"Migration failed ({originalError}) AND rollback failed ({rollbackCause})"
    (some ("Source process may be frozen (state 'T' in `ps aux`). " ++
      "Run `wraith-capturer resume --pid <pid>` on the source machine to unfreeze it."))

/-- `remote.CommandError`. -/
def commandError (cmd : String) (exitCode : Int) (stderr : String) : PyExc :=
  .wraith .commandError (s!"Remote command failed (exit {exitCode}): {pyRepr cmd}\n" ++
    s!"  stderr: {pyStrip stderr}") none

end Wraith.Control

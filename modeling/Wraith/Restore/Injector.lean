/-
# `Wraith.Restore.Injector` — system calls made on behalf of a stopped child

The calls the restorer makes, and `SyscallInjector`: a word of the child's code is replaced by
`syscall; int3`, the child runs into the trap, and word and registers are put back.  An injection
that fails half way returns its error as it is; what it had changed in the child stays changed.
-/
import Wraith.Lib.Triple
import Wraith.Restore.Layout

namespace Wraith.Restore

open Lib Script Process

/-! ## Operations -/

/-- `std::fs::OpenOptions`. -/
structure OpenOptions where
  read : Bool := false
  write : Bool := false
  append : Bool := false
  customFlags : Int32 := 0
  deriving DecidableEq, Repr

/-- The calls of the restorer.  `openMem`, `seekMem` and `writeMem` are on `/proc/<pid>/mem`, and
`writeMem` writes at the position that was sought. -/
inductive RestOp where
  | fork
  | waitpid (pid : Int32)
  | getregs (pid : Int32)
  | setregs (pid : Int32) (regs : UserRegs)
  | setfpregs (pid : Int32) (fpregs : UserFpregs)
  | read (pid : Int32) (addr : UInt64)
  | write (pid : Int32) (addr word : UInt64)
  | cont (pid : Int32)
  | openMem (pid : Int32)
  | seekMem (pid : Int32) (addr : UInt64)
  | writeMem (pid : Int32) (addr : UInt64) (data : List UInt8)
  | openFile (path : String) (opts : OpenOptions)
  | seek (fd : Int32) (offset : UInt64)
  | openDirectory (path : String) (flags : Int32)
  | close (fd : Int32)
  | detach (pid : Int32)
  | kill (pid : Int32)
  deriving DecidableEq, Repr

/-- `fork` is answered in the parent, with the child. -/
@[reducible] def RestResp : RestOp → Type
  | .fork => Except Errno Int32
  | .waitpid _ => Except Errno WaitStatus
  | .getregs _ => Except Errno UserRegs
  | .read _ _ => Except Errno UInt64
  | .openFile _ _ => Except Errno Int32
  | .openDirectory _ _ => Except Errno Int32
  | _ => Except Errno Unit

abbrev Rest (α : Type) : Type := Script RestResp Unit Error α

/-! ## `SyscallInjector` -/

/-- A C integer as a register holds it. -/
def asU64 (n : Int32) : UInt64 := n.toInt64.toUInt64

def sysMmap : UInt64 := 9

def sysMprotect : UInt64 := 10

def sysDup2 : UInt64 := 33

/-- The word with `syscall; int3` in its low bytes. -/
def patchWord (word : UInt64) : UInt64 := (word &&& ~~~0x00ffffff) ||| 0x00cc050f

/-- The arguments of a system call. -/
structure CallArgs where
  a0 : UInt64
  a1 : UInt64
  a2 : UInt64 := 0
  a3 : UInt64 := 0
  a4 : UInt64 := 0
  a5 : UInt64 := 0
  deriving DecidableEq, Repr

/-- The registers with which a system call is made. -/
def callRegs (saved : UserRegs) (nr : UInt64) (args : CallArgs) : UserRegs :=
  { saved with
    rax := nr
    rdi := args.a0
    rsi := args.a1
    rdx := args.a2
    r10 := args.a3
    r8 := args.a4
    r9 := args.a5 }

/-- The child is to stop at the `int3`. -/
def expectTrap : WaitStatus → Except Error Unit
  | .stopped .sigtrap => .ok ()
  | .stopped sig => .error s!"inject: unexpected signal {sig.debug} after syscall"
  | .other status => .error s!"inject: unexpected wait status {status}"

/-- Values from −4095 to −1 are error numbers. -/
def isErrno (retval : UInt64) : Bool :=
  decide (retval.toInt64 < 0) && decide (retval.toInt64 ≥ -4095)

def checkRetval (nr retval : UInt64) : Except Error UInt64 :=
  if isErrno retval then
    .error <| s!"syscall {nr} returned errno {(-retval.toInt64)}: " ++
      s!"{(Errno.ofRaw (-retval.toInt64).toInt32).text}"
  else .ok retval

/-- The end of `inject`: the result, and everything put back. -/
def injectResult (child : Int32) (nr : UInt64) (savedRegs : UserRegs) (savedWord : UInt64) :
    Rest UInt64 := do
  let resultRegs ← call (.getregs child) (mapErr "inject: PTRACE_GETREGS (result)")
  let retval := resultRegs.rax
  call (.write child savedRegs.rip savedWord) (mapErr "inject: restore PTRACE_POKETEXT")
  call (.setregs child savedRegs) (mapErr "inject: restore PTRACE_SETREGS")
  ofExcept (checkRetval nr retval)

/-- `inject`. -/
def inject (child : Int32) (nr : UInt64) (args : CallArgs) : Rest UInt64 := do
  let savedRegs ← call (.getregs child) (mapErr "inject: PTRACE_GETREGS")
  let rip := savedRegs.rip
  let savedWord ← call (.read child rip) (mapErr s!"inject: PTRACE_PEEKTEXT at {hex rip}")
  call (.write child rip (patchWord savedWord)) (mapErr s!"inject: PTRACE_POKETEXT at {hex rip}")
  call (.setregs child (callRegs savedRegs nr args)) (mapErr "inject: PTRACE_SETREGS")
  call (.cont child) (mapErr "inject: PTRACE_CONT")
  let status ← call (.waitpid child) (mapErr "inject: waitpid")
  ofExcept (expectTrap status)
  injectResult child nr savedRegs savedWord

/-- `mmap`. -/
def mmap (child : Int32) (addr len : UInt64) (prot flags fd : Int32) (offset : Int64) :
    Rest UInt64 :=
  inject child sysMmap
    { a0 := addr, a1 := len, a2 := asU64 prot, a3 := asU64 flags, a4 := asU64 fd,
      a5 := offset.toUInt64 }

/-- `mprotect`. -/
def mprotect (child : Int32) (addr len : UInt64) (prot : Int32) : Rest Unit := do
  let _ ← inject child sysMprotect { a0 := addr, a1 := len, a2 := asU64 prot }
  pure ()

/-- `dup2`. -/
def dup2 (child : Int32) (oldFd newFd : Int32) : Rest Unit := do
  let _ ← inject child sysDup2 { a0 := asU64 oldFd, a1 := asU64 newFd }
  pure ()

end Wraith.Restore

/-
# `Wraith.Restore.Kernel` — what the calls of the restorer do

The restorer and its child as the kernel sees them: two descriptor tables, the child's registers and
memory.  `answer` relates each call to its effect; any call may fail.

A child that is resumed runs `syscall; int3` if that is what lies at its instruction pointer, and
stops with SIGTRAP when the `int3` is still there after the system call.  In any other case, and
when it is stopped by another signal, nothing is known about its registers and memory, and of its
descriptors only that no call but the injected one has been made on them.
-/
import Mathlib.Tactic.IntervalCases
import Wraith.Restore.Restorer

namespace Wraith.Restore

open Lib Script Process

/-! ## Descriptors -/

inductive Access where
  | readOnly
  | writeOnly
  | readWrite
  deriving DecidableEq, Repr

/-- An open description, with the number of the call that opened it. -/
structure OpenFile where
  id : Nat
  path : String
  offset : UInt64
  access : Access
  append : Bool
  directory : Bool := false
  deriving DecidableEq, Repr

/-- A descriptor table. -/
abbrev Fds : Type := Int32 → Option OpenFile

def Fds.set (t : Fds) (fd : Int32) (file : Option OpenFile) : Fds :=
  fun fd' => if fd' = fd then file else t fd'

@[simp] theorem Fds.set_self (t : Fds) (fd : Int32) (file : Option OpenFile) :
    t.set fd file fd = file :=
  if_pos rfl

theorem Fds.set_ne (t : Fds) {fd fd' : Int32} (file : Option OpenFile) (h : fd' ≠ fd) :
    t.set fd file fd' = t fd' := if_neg h

/-- What `OpenOptions::open` opens: appending is writing. -/
def OpenOptions.opened (opts : OpenOptions) (id : Nat) (path : String) : OpenFile where
  id := id
  path := path
  offset := 0
  access :=
    if opts.write || opts.append then (if opts.read then .readWrite else .writeOnly) else .readOnly
  append := opts.append

def openedDirectory (id : Nat) (path : String) : OpenFile where
  id := id
  path := path
  offset := 0
  access := .readOnly
  append := false
  directory := true

/-! ## The child -/

structure Child where
  regs : UserRegs
  fpregs : UserFpregs
  mem : Memory UInt64
  fds : Fds

def pageSize : Nat := 4096

/-- The pages of a range, up to their end. -/
def pagesEnd (addr len : UInt64) : Nat := Memory.pageUp pageSize (addr.toNat + len.toNat)

/-- A descriptor in a register. -/
def fdArg (n : UInt64) : Int32 := n.toUInt32.toInt32

/-- What comes of the system call a child's registers ask for: the value it returns, and memory and
descriptors behind it. -/
inductive Syscall (c : Child) : UInt64 → Memory UInt64 → Fds → Prop where
  | fails {ret : UInt64} : isErrno ret = true → Syscall c ret c.mem c.fds
  | mmap : c.regs.rax = sysMmap → c.regs.r10 = asU64 (mapFixed ||| mapPrivate ||| mapAnonymous) →
      pageSize ∣ c.regs.rdi.toNat → c.regs.rsi ≠ 0 →
      Syscall c c.regs.rdi
        (c.mem.map c.regs.rdi.toNat (pagesEnd c.regs.rdi c.regs.rsi) c.regs.rdx) c.fds
  | mprotect : c.regs.rax = sysMprotect → pageSize ∣ c.regs.rdi.toNat →
      c.mem.Mapped c.regs.rdi.toNat (pagesEnd c.regs.rdi c.regs.rsi) →
      Syscall c 0 (c.mem.protect c.regs.rdi.toNat (pagesEnd c.regs.rdi c.regs.rsi) c.regs.rdx) c.fds
  | dup2 {file : OpenFile} : c.regs.rax = sysDup2 → c.fds (fdArg c.regs.rdi) = some file →
      0 ≤ fdArg c.regs.rsi →
      Syscall c c.regs.rsi c.mem (c.fds.set (fdArg c.regs.rsi) (some file))

/-- `syscall; int3`. -/
def trapCode : List UInt8 := [0x0f, 0x05, 0xcc]

/-- The `int3` is in place. -/
def Traps (c : Child) (mem : Memory UInt64) : Prop := mem.byte (c.regs.rip.toNat + 2) = some 0xcc

/-- A child that is resumed, and stops again. -/
inductive Resumes (c : Child) : WaitStatus → Child → Prop where
  | traps {regs : UserRegs} {mem : Memory UInt64} {fds : Fds} :
      c.mem.Holds c.regs.rip.toNat trapCode → Syscall c regs.rax mem fds → Traps c mem →
      Resumes c (.stopped .sigtrap) { c with regs, mem, fds }
  | strays {status : WaitStatus} {c' : Child} :
      (c.mem.Holds c.regs.rip.toNat trapCode → status = .stopped .sigtrap →
        ∃ ret mem fds, Syscall c ret mem fds ∧ ¬ Traps c mem) →
      (c'.fds = c.fds ∨ ∃ ret mem, Syscall c ret mem c'.fds) → Resumes c status c'

/-! ## The kernel -/

/-- A mapping that was asked for: the instruction pointer of the child, and the range. -/
structure Mapping where
  rip : UInt64
  addr : UInt64
  len : UInt64
  deriving DecidableEq, Repr

/-- `opens` counts the files that have been opened, `pending` is the status the next wait reports;
`released` is the child as it was when it was detached, and `mappings` the calls of `mmap` it was
resumed with. -/
structure World where
  parent : Fds
  child : Child
  opens : Nat := 0
  pending : Option WaitStatus := none
  released : Option Child := none
  mappings : List Mapping := []

/-- The call of `mmap` that a child is about to make. -/
def Child.mapping (c : Child) : List Mapping :=
  if c.regs.rax = sysMmap then [⟨c.regs.rip, c.regs.rdi, c.regs.rsi⟩] else []

/-- A word as it lies in memory. -/
def wordBytes (w : UInt64) : List UInt8 :=
  [w.toUInt8, (w >>> 8).toUInt8, (w >>> 16).toUInt8, (w >>> 24).toUInt8, (w >>> 32).toUInt8,
    (w >>> 40).toUInt8, (w >>> 48).toUInt8, (w >>> 56).toUInt8]

/-- How the kernel answers. -/
def answer (w : World) : (o : RestOp) → RestResp o → World → Prop
  | .fork, .ok _, w' => ∃ child status, child.fds = w.parent ∧
      w' = { w with child, pending := some status }
  | .fork, .error _, w' => w' = w
  | .waitpid _, .ok status, w' =>
      (∀ status', w.pending = some status' → status = status') ∧ w' = { w with pending := none }
  | .waitpid _, .error _, w' => w' = w
  | .getregs _, r, w' => (∀ regs, r = .ok regs → regs = w.child.regs) ∧ w' = w
  | .setregs _ regs, .ok _, w' => w' = { w with child := { w.child with regs } }
  | .setregs _ _, .error _, w' => w' = w
  | .setfpregs _ fpregs, .ok _, w' => w' = { w with child := { w.child with fpregs } }
  | .setfpregs _ _, .error _, w' => w' = w
  | .read _ addr, r, w' =>
      (∀ word, r = .ok word → w.child.mem.Holds addr.toNat (wordBytes word)) ∧ w' = w
  | .write _ addr word, .ok _, w' => w.child.mem.Mapped addr.toNat (addr.toNat + 8) ∧
      w' = { w with child := { w.child with mem := w.child.mem.write addr.toNat (wordBytes word) } }
  | .write _ _ _, .error _, w' => w' = w
  | .cont _, .ok _, w' => ∃ status child, Resumes w.child status child ∧
      w' = { w with child, pending := some status, mappings := w.mappings ++ w.child.mapping }
  | .cont _, .error _, w' => w' = w
  | .openMem _, _, w' => w' = w
  | .seekMem _ _, _, w' => w' = w
  | .writeMem _ addr data, .ok _, w' =>
      w.child.mem.Mapped addr.toNat (addr.toNat + data.length) ∧
      w' = { w with child := { w.child with mem := w.child.mem.write addr.toNat data } }
  | .writeMem _ addr data, .error _, w' => ∃ n,
      w' = { w with child := { w.child with mem := w.child.mem.write addr.toNat (data.take n) } }
  | .openFile path opts, .ok fd, w' => 0 ≤ fd ∧ w.parent fd = none ∧
      w' = { w with
        parent := w.parent.set fd (some (opts.opened w.opens path))
        opens := w.opens + 1 }
  | .openFile _ _, .error _, w' => w' = w
  | .seek fd offset, .ok _, w' => ∃ file, w.parent fd = some file ∧
      w' = { w with parent := w.parent.set fd (some { file with offset }) }
  | .seek _ _, .error _, w' => w' = w
  | .openDirectory path _, .ok fd, w' => 0 ≤ fd ∧ w.parent fd = none ∧
      w' = { w with
        parent := w.parent.set fd (some (openedDirectory w.opens path))
        opens := w.opens + 1 }
  | .openDirectory _ _, .error _, w' => w' = w
  | .close fd, _, w' => w' = { w with parent := w.parent.set fd none }
  | .detach _, .ok _, w' => w' = { w with released := some w.child }
  | .detach _, .error _, w' => w' = w
  | .kill _, _, w' => w' = w

/-! ## Calls that leave the child at rest -/

/-- Calls that neither make a child, nor set its registers, nor resume it. -/
def RestOp.Rests : RestOp → Prop
  | .fork => False
  | .setregs _ _ => False
  | .cont _ => False
  | _ => True

/-- What such a call leaves alone. -/
structure Rested (w w' : World) : Prop where
  regs : w'.child.regs = w.child.regs
  fds : w'.child.fds = w.child.fds
  mappings : w'.mappings = w.mappings

variable {w w' : World}

theorem answer_rests {o : RestOp} {r : RestResp o} (ho : o.Rests) (h : answer w o r w') :
    Rested w w' := by
  cases o with
  | fork => exact ho.elim
  | setregs pid regs => exact ho.elim
  | cont pid => exact ho.elim
  | waitpid pid => cases r with
    | error e => obtain rfl := h; exact ⟨rfl, rfl, rfl⟩
    | ok status => obtain ⟨-, rfl⟩ := h; exact ⟨rfl, rfl, rfl⟩
  | getregs pid => obtain ⟨-, rfl⟩ := h; exact ⟨rfl, rfl, rfl⟩
  | setfpregs pid fpregs => cases r with
    | error e => obtain rfl := h; exact ⟨rfl, rfl, rfl⟩
    | ok _ => obtain rfl := h; exact ⟨rfl, rfl, rfl⟩
  | read pid addr => obtain ⟨-, rfl⟩ := h; exact ⟨rfl, rfl, rfl⟩
  | write pid addr word => cases r with
    | error e => obtain rfl := h; exact ⟨rfl, rfl, rfl⟩
    | ok _ => obtain ⟨-, rfl⟩ := h; exact ⟨rfl, rfl, rfl⟩
  | openMem pid => obtain rfl := h; exact ⟨rfl, rfl, rfl⟩
  | seekMem pid addr => obtain rfl := h; exact ⟨rfl, rfl, rfl⟩
  | writeMem pid addr data => cases r with
    | error e => obtain ⟨n, rfl⟩ := h; exact ⟨rfl, rfl, rfl⟩
    | ok _ => obtain ⟨-, rfl⟩ := h; exact ⟨rfl, rfl, rfl⟩
  | openFile path opts => cases r with
    | error e => obtain rfl := h; exact ⟨rfl, rfl, rfl⟩
    | ok fd => obtain ⟨-, -, rfl⟩ := h; exact ⟨rfl, rfl, rfl⟩
  | seek fd offset => cases r with
    | error e => obtain rfl := h; exact ⟨rfl, rfl, rfl⟩
    | ok _ => obtain ⟨file, -, rfl⟩ := h; exact ⟨rfl, rfl, rfl⟩
  | openDirectory path flags => cases r with
    | error e => obtain rfl := h; exact ⟨rfl, rfl, rfl⟩
    | ok fd => obtain ⟨-, -, rfl⟩ := h; exact ⟨rfl, rfl, rfl⟩
  | close fd => obtain rfl := h; exact ⟨rfl, rfl, rfl⟩
  | detach pid => cases r with
    | error e => obtain rfl := h; exact ⟨rfl, rfl, rfl⟩
    | ok _ => obtain rfl := h; exact ⟨rfl, rfl, rfl⟩
  | kill pid => obtain rfl := h; exact ⟨rfl, rfl, rfl⟩

/-- Setting registers is no more than that. -/
theorem answer_setregs {pid : Int32} {regs : UserRegs} {r : Except Errno Unit}
    (h : answer w (.setregs pid regs) r w') :
    w'.child.fds = w.child.fds ∧ w'.mappings = w.mappings ∧ ∀ u, r = .ok u →
      w'.child.regs = regs := by
  cases r with
  | error e => obtain rfl := h; exact ⟨rfl, rfl, nofun⟩
  | ok _ => obtain rfl := h; exact ⟨rfl, rfl, fun _ _ => rfl⟩

theorem RestOp.OnFiles.rests {o : RestOp} (h : o.OnFiles) : o.Rests := by
  cases o with
  | openFile path opts => trivial
  | seek fd offset => trivial
  | openDirectory path flags => trivial
  | close fd => trivial
  | _ => exact h.elim

/-- Work on files leaves the child alone altogether. -/
theorem answer_onFiles {o : RestOp} {r : RestResp o} (ho : o.OnFiles) (h : answer w o r w') :
    w'.child = w.child := by
  cases o with
  | openFile path opts => cases r with
    | error e => obtain rfl := h; rfl
    | ok fd => obtain ⟨-, -, rfl⟩ := h; rfl
  | seek fd offset => cases r with
    | error e => obtain rfl := h; rfl
    | ok _ => obtain ⟨file, -, rfl⟩ := h; rfl
  | openDirectory path flags => cases r with
    | error e => obtain rfl := h; rfl
    | ok fd => obtain ⟨-, -, rfl⟩ := h; rfl
  | close fd => obtain rfl := h; rfl
  | _ => exact ho.elim

/-- And work on the child leaves the restorer's files alone. -/
theorem answer_onChild {o : RestOp} {r : RestResp o} (ho : o.OnChild) (h : answer w o r w') :
    w'.parent = w.parent := by
  cases o with
  | waitpid pid => cases r with
    | error e => obtain rfl := h; rfl
    | ok status => obtain ⟨-, rfl⟩ := h; rfl
  | getregs pid => obtain ⟨-, rfl⟩ := h; rfl
  | setregs pid regs => cases r with
    | error e => obtain rfl := h; rfl
    | ok _ => obtain rfl := h; rfl
  | setfpregs pid fpregs => cases r with
    | error e => obtain rfl := h; rfl
    | ok _ => obtain rfl := h; rfl
  | read pid addr => obtain ⟨-, rfl⟩ := h; rfl
  | write pid addr word => cases r with
    | error e => obtain rfl := h; rfl
    | ok _ => obtain ⟨-, rfl⟩ := h; rfl
  | cont pid => cases r with
    | error e => obtain rfl := h; rfl
    | ok _ => obtain ⟨status, c', -, rfl⟩ := h; rfl
  | openMem pid => obtain rfl := h; rfl
  | seekMem pid addr => obtain rfl := h; rfl
  | writeMem pid addr data => cases r with
    | error e => obtain ⟨n, rfl⟩ := h; rfl
    | ok _ => obtain ⟨-, rfl⟩ := h; rfl
  | _ => exact ho.elim

end Wraith.Restore

/-
# `Wraith.Process.Registers` — the register file, and its ways in and out of a snapshot

`registers.rs`, the register mapping of `snapshot.rs` and the one of `restore_registers`.  The three
mappings name every register; `restored_eq` says that what they amount to is the identity but for
`orig_rax`.
-/
import Wraith.Process.Proto

namespace Wraith.Process

/-- An `anyhow` error, by its text. -/
abbrev Error : Type := String

/-- libc's `user_regs_struct`. -/
structure UserRegs where
  r15 : UInt64
  r14 : UInt64
  r13 : UInt64
  r12 : UInt64
  rbp : UInt64
  rbx : UInt64
  r11 : UInt64
  r10 : UInt64
  r9 : UInt64
  r8 : UInt64
  rax : UInt64
  rcx : UInt64
  rdx : UInt64
  rsi : UInt64
  rdi : UInt64
  origRax : UInt64
  rip : UInt64
  cs : UInt64
  eflags : UInt64
  rsp : UInt64
  ss : UInt64
  fsBase : UInt64
  gsBase : UInt64
  ds : UInt64
  es : UInt64
  fs : UInt64
  gs : UInt64
  deriving DecidableEq, Repr

/-- `size_of::<user_fpregs_struct>()`. -/
def fpregsSize : Nat := 512

/-- libc's `user_fpregs_struct`, as its bytes. -/
abbrev UserFpregs : Type := { bytes : List UInt8 // bytes.length = fpregsSize }

/-- All zeros. -/
def UserFpregs.zero : UserFpregs := ⟨List.replicate fpregsSize 0, List.length_replicate⟩

/-- `Registers`. -/
structure Registers where
  rax : UInt64
  rbx : UInt64
  rcx : UInt64
  rdx : UInt64
  rdi : UInt64
  rsi : UInt64
  rbp : UInt64
  rsp : UInt64
  r8 : UInt64
  r9 : UInt64
  r10 : UInt64
  r11 : UInt64
  r12 : UInt64
  r13 : UInt64
  r14 : UInt64
  r15 : UInt64
  rip : UInt64
  rflags : UInt64
  cs : UInt64
  ss : UInt64
  ds : UInt64
  es : UInt64
  fs : UInt64
  gs : UInt64
  fsBase : UInt64
  gsBase : UInt64
  fpuState : List UInt8
  deriving DecidableEq, Repr

/-- The struct `from_ptrace` builds. -/
def Registers.ofPtrace (gp : UserRegs) (fp : UserFpregs) : Registers where
  rax := gp.rax
  rbx := gp.rbx
  rcx := gp.rcx
  rdx := gp.rdx
  rdi := gp.rdi
  rsi := gp.rsi
  rbp := gp.rbp
  rsp := gp.rsp
  r8 := gp.r8
  r9 := gp.r9
  r10 := gp.r10
  r11 := gp.r11
  r12 := gp.r12
  r13 := gp.r13
  r14 := gp.r14
  r15 := gp.r15
  rip := gp.rip
  rflags := gp.eflags
  cs := gp.cs
  ss := gp.ss
  ds := gp.ds
  es := gp.es
  fs := gp.fs
  gs := gp.gs
  fsBase := gp.fsBase
  gsBase := gp.gsBase
  fpuState := fp.val

/-- `{:#x}`. -/
def hex (n : UInt64) : String := "0x" ++ String.ofList (Nat.toDigits 16 n.toNat)

/-- `{:#018x}`. -/
def hex18 (n : UInt64) : String :=
  let digits := Nat.toDigits 16 n.toNat
  "0x" ++ String.ofList (List.replicate (16 - digits.length) '0' ++ digits)

/-- `Registers::validate`. -/
def Registers.validate (r : Registers) : Except Error Unit :=
  if r.rip ≥ (1 : UInt64) <<< 47 then
    .error s!"RIP {hex18 r.rip} is in kernel space — capture corrupted or process is in a syscall"
  else if r.rsp = 0 then .error "RSP is zero — no valid stack pointer"
  else if r.fpuState ≠ [] ∧ r.fpuState.length ≠ fpregsSize then
    .error s!"FPU state length {r.fpuState.length} does not match expected {fpregsSize} bytes"
  else .ok ()

/-- Of what ptrace delivers, only the instruction and stack pointers can fail. -/
theorem validate_ofPtrace {gp : UserRegs} {fp : UserFpregs} :
    (Registers.ofPtrace gp fp).validate = .ok () ↔ gp.rip < (1 : UInt64) <<< 47 ∧ gp.rsp ≠ 0 := by
  have hfpu : ¬ ((Registers.ofPtrace gp fp).fpuState ≠ [] ∧
      (Registers.ofPtrace gp fp).fpuState.length ≠ fpregsSize) := fun h => h.2 fp.property
  rw [Registers.validate, if_neg hfpu]
  constructor
  · intro h
    split at h
    · exact nomatch h
    case isFalse hrip =>
      split at h
      · exact nomatch h
      case isFalse hrsp => exact ⟨UInt64.not_le.mp hrip, hrsp⟩
  · rintro ⟨hrip, hrsp⟩
    rw [if_neg (show ¬ (Registers.ofPtrace gp fp).rip ≥ (1 : UInt64) <<< 47 from
      UInt64.not_le.mpr hrip), if_neg (show ¬ (Registers.ofPtrace gp fp).rsp = 0 from hrsp)]

/-- `regs_to_proto`. -/
def regsToProto (r : Registers) : Proto.Registers where
  rax := r.rax
  rbx := r.rbx
  rcx := r.rcx
  rdx := r.rdx
  rdi := r.rdi
  rsi := r.rsi
  rbp := r.rbp
  rsp := r.rsp
  r8 := r.r8
  r9 := r.r9
  r10 := r.r10
  r11 := r.r11
  r12 := r.r12
  r13 := r.r13
  r14 := r.r14
  r15 := r.r15
  rip := r.rip
  rflags := r.rflags
  cs := r.cs
  ss := r.ss
  ds := r.ds
  es := r.es
  fs := r.fs
  gs := r.gs
  fsBase := r.fsBase
  gsBase := r.gsBase
  fpuState := r.fpuState

/-- The `user_regs_struct` that `restore_registers` builds. -/
def Proto.Registers.toUser (regs : Proto.Registers) : UserRegs where
  rax := regs.rax
  rbx := regs.rbx
  rcx := regs.rcx
  rdx := regs.rdx
  rdi := regs.rdi
  rsi := regs.rsi
  rbp := regs.rbp
  rsp := regs.rsp
  r8 := regs.r8
  r9 := regs.r9
  r10 := regs.r10
  r11 := regs.r11
  r12 := regs.r12
  r13 := regs.r13
  r14 := regs.r14
  r15 := regs.r15
  rip := regs.rip
  eflags := regs.rflags
  cs := regs.cs
  ss := regs.ss
  ds := regs.ds
  es := regs.es
  fs := regs.fs
  gs := regs.gs
  fsBase := regs.fsBase
  gsBase := regs.gsBase
  origRax := 0xffffffffffffffff

/-- Through a snapshot and back, a register file is what it was, but for `orig_rax`. -/
theorem restored_eq (gp : UserRegs) (fp : UserFpregs) :
    (regsToProto (.ofPtrace gp fp)).toUser = { gp with origRax := 0xffffffffffffffff } := rfl

end Wraith.Process

/-
# `Wraith.Restore.Injection` — an injection is the system call, or nothing, or breaks off

`inject` has three ways to end (`Injected`): before anything was changed in the child, with the
child stopped at a trap and word and registers put back, or in between.  A monitor of the patch,
`phases`, tells the last from the others: a call failed, or the wait reported something else than
SIGTRAP, while the patch was in place.

Where the system call leaves the injected word alone (`Clear`), the child is then as the call by
itself would have left it (`trapped_syscall`).  An `mmap` over the word takes away the `int3`, and
the child that stops has gone astray.
-/
import Wraith.Restore.Kernel

namespace Wraith.Restore

open Lib Script Process

/-! ## The patch -/

theorem wordBytes_length (w : UInt64) : (wordBytes w).length = 8 := rfl

theorem patchWord_byte0 (w : UInt64) : (patchWord w).toUInt8 = 0x0f := by
  apply UInt8.eq_of_toBitVec_eq
  simp only [patchWord, UInt64.toBitVec_toUInt8, UInt64.toBitVec_or, UInt64.toBitVec_and]
  ext i hi
  interval_cases i <;> simp

theorem patchWord_byte1 (w : UInt64) : (patchWord w >>> 8).toUInt8 = 0x05 := by
  apply UInt8.eq_of_toBitVec_eq
  simp only [patchWord, UInt64.toBitVec_toUInt8, UInt64.toBitVec_or, UInt64.toBitVec_and,
    UInt64.toBitVec_shiftRight]
  ext i hi
  interval_cases i <;> simp

theorem patchWord_byte2 (w : UInt64) : (patchWord w >>> 16).toUInt8 = 0xcc := by
  apply UInt8.eq_of_toBitVec_eq
  simp only [patchWord, UInt64.toBitVec_toUInt8, UInt64.toBitVec_or, UInt64.toBitVec_and,
    UInt64.toBitVec_shiftRight]
  ext i hi
  interval_cases i <;> simp

/-- The patch puts `syscall; int3` first, and leaves the rest of the word. -/
theorem wordBytes_patchWord (w : UInt64) :
    ∃ rest, wordBytes (patchWord w) = trapCode ++ rest := by
  rw [wordBytes, patchWord_byte0, patchWord_byte1, patchWord_byte2]
  exact ⟨_, rfl⟩

/-- A child with its injected word. -/
def Child.patched (c : Child) (word : UInt64) : Child :=
  { c with mem := c.mem.write c.regs.rip.toNat (wordBytes (patchWord word)) }

/-- A child with the registers of a system call. -/
def Child.calling (c : Child) (nr : UInt64) (args : CallArgs) : Child :=
  { c with regs := callRegs c.regs nr args }

variable {c : Child} {nr : UInt64} {args : CallArgs} {word ret : UInt64} {mem : Memory UInt64}
  {fds : Fds}

theorem patched_holds (h : c.mem.Holds c.regs.rip.toNat (wordBytes word)) :
    (c.patched word).mem.Holds c.regs.rip.toNat (wordBytes (patchWord word)) :=
  Memory.write_holds h.mapped

theorem patched_trapCode (h : c.mem.Holds c.regs.rip.toNat (wordBytes word)) :
    (c.patched word).mem.Holds c.regs.rip.toNat trapCode := by
  have hholds := patched_holds h
  obtain ⟨rest, hrest⟩ := wordBytes_patchWord word
  rw [hrest] at hholds
  intro i hi
  have hbyte := hholds i (by rw [List.length_append]; omega)
  rwa [List.getElem_append_left hi] at hbyte

/-! ## The system call behind an injection -/

/-- A mapping does not touch the injected word. -/
def Clear (c : Child) (nr : UInt64) (args : CallArgs) : Prop :=
  nr = sysMmap → Memory.Apart c.regs.rip.toNat (c.regs.rip.toNat + 8) args.a0.toNat
    (pagesEnd args.a0 args.a1)

/-- Taking the patch back. -/
theorem unpatch {a : Nat} (h : mem.Holds a (wordBytes word)) :
    (mem.write a (wordBytes (patchWord word))).write a (wordBytes word) = mem :=
  Memory.write_back h rfl

/-- Where the patch lies, the `int3` is in place. -/
theorem traps_of_holds (h : mem.Holds c.regs.rip.toNat (wordBytes (patchWord word))) :
    Traps c mem := by
  have hbyte := h 2 (by rw [wordBytes_length]; omega)
  rw [Traps, hbyte]
  exact congrArg some (patchWord_byte2 word)

/-- With the patch in place a system call leaves it there, and does beside it what it does without.
-/
theorem syscall_unpatch (hword : c.mem.Holds c.regs.rip.toNat (wordBytes word))
    (hclear : Clear c nr args)
    (h : Syscall ((c.patched word).calling nr args) ret mem fds) :
    mem.Holds c.regs.rip.toNat (wordBytes (patchWord word)) ∧
      Syscall (c.calling nr args) ret (mem.write c.regs.rip.toNat (wordBytes word)) fds := by
  have hpatch := patched_holds hword
  have hback : (c.patched word).mem.write c.regs.rip.toNat (wordBytes word) = c.mem := unpatch hword
  cases h with
  | fails herrno =>
      refine ⟨hpatch, ?_⟩
      simp only [Child.calling]
      rw [hback]
      exact .fails herrno
  | mmap hnr hflags hpage hlen =>
      have hapart := hclear hnr
      refine ⟨hpatch.map hapart, ?_⟩
      simp only [Child.calling, Child.patched, callRegs]
      rw [Memory.map_write hapart, unpatch (hword.map hapart)]
      exact .mmap hnr hflags hpage hlen
  | mprotect hnr hpage hmapped =>
      have hmapped' : c.mem.Mapped args.a0.toNat (pagesEnd args.a0 args.a1) :=
        Memory.mapped_write.mp hmapped
      refine ⟨hpatch.protect, ?_⟩
      simp only [Child.calling, Child.patched, callRegs]
      rw [Memory.protect_write, unpatch hword.protect]
      exact .mprotect hnr hpage hmapped'
  | dup2 hnr hfile hfd =>
      refine ⟨hpatch, ?_⟩
      simp only [Child.calling]
      rw [hback]
      exact .dup2 hnr hfile hfd

/-! ## Phases -/

/-- How far an injection has come. -/
inductive Phase where
  | idle
  | patched
  | unpatched
  | broken
  deriving DecidableEq, Repr

/-- A failed call, or a stop other than the one behind the system call. -/
def fails : (o : RestOp) → RestResp o → Bool
  | .waitpid _, .ok status => status ≠ .stopped .sigtrap
  | .waitpid _, .error _ => true
  | .getregs _, .error _ => true
  | .setregs _ _, .error _ => true
  | .write _ _ _, .error _ => true
  | .cont _, .error _ => true
  | _, _ => false

/-- From the patch to the registers' being put back, a failure breaks the injection off. -/
def Phase.next : Phase → (o : RestOp) → RestResp o → Phase
  | .broken, _, _ => .broken
  | .idle, .write _ _ _, .ok _ => .patched
  | .idle, _, _ => .idle
  | .patched, .write _ _ _, .ok _ => .unpatched
  | .patched, o, r => if fails o r then .broken else .patched
  | .unpatched, .setregs _ _, .ok _ => .idle
  | .unpatched, o, r => if fails o r then .broken else .unpatched

def phases : Cmd.Monitor RestResp Phase where
  allow _ _ := True
  next := Phase.next

/-- The kernel, with the phase. -/
abbrev phased : World × Phase → (o : RestOp) → RestResp o → World × Phase → Prop :=
  watch answer phases

/-! ## `inject` -/

/-- The child has run, and stopped at a trap. -/
def Trapped (c : Child) (nr : UInt64) (args : CallArgs) (word : UInt64) (stopped : Child) : Prop :=
  Resumes ((c.patched word).calling nr args) (.stopped .sigtrap) stopped

/-- A child that has stopped, with word and registers put back. -/
def Child.putBack (stopped c : Child) (word : UInt64) : Child :=
  { stopped with regs := c.regs, mem := stopped.mem.write c.regs.rip.toNat (wordBytes word) }

/-- How an injection into `c` ends. -/
inductive Injected (c : Child) (nr : UInt64) (args : CallArgs) :
    Except Error UInt64 → World × Phase → Prop where
  | nothing {e : Error} {w : World} : w.child = c → Injected c nr args (.error e) (w, .idle)
  | broken {e : Error} {w : World} : Injected c nr args (.error e) (w, .broken)
  | called {w : World} {word : UInt64} {stopped : Child} :
      c.mem.Holds c.regs.rip.toNat (wordBytes word) → Trapped c nr args word stopped →
      stopped.mem.Mapped c.regs.rip.toNat (c.regs.rip.toNat + 8) →
        w.child = stopped.putBack c word →
      Injected c nr args (checkRetval nr stopped.regs.rax) (w, .idle)

variable {child : Int32} {stopped : Child}

/-- What has stopped at the `int3` has made the system call, and with the word put back memory is as
the call has left it. -/
theorem trapped_syscall (hword : c.mem.Holds c.regs.rip.toNat (wordBytes word))
    (hclear : Clear c nr args) (h : Trapped c nr args word stopped) :
    ∃ ret mem fds, stopped.regs.rax = ret ∧ Syscall (c.calling nr args) ret mem fds ∧
      stopped.putBack c word = { c with mem, fds } := by
  cases h with
  | traps hcode hcall htrap =>
      exact ⟨_, _, _, rfl, (syscall_unpatch hword hclear hcall).2, rfl⟩
  | strays hstray _ =>
      obtain ⟨ret, mem, fds, hcall, hgone⟩ := hstray (patched_trapCode hword) rfl
      exact absurd (traps_of_holds (syscall_unpatch hword hclear hcall).1) hgone

theorem injectResult_injected (hword : c.mem.Holds c.regs.rip.toNat (wordBytes word)) :
    Triple phased (fun x => Trapped c nr args word x.1.child ∧ x.2 = .patched)
      (injectResult child nr c.regs word) (Injected c nr args) := by
  rw [injectResult]
  refine Triple.watch_bind (J := fun regs x => x.1.child.regs = regs ∧
    Trapped c nr args word x.1.child ∧ x.2 = .patched) ?_ ?_ fun resultRegs => ?_
  · rintro w g r w' regs ⟨htrapped, rfl⟩ ⟨hregs, rfl⟩ hr
    obtain rfl := mapErr_eq_ok hr
    exact ⟨(hregs _ rfl).symm, htrapped, rfl⟩
  · rintro w g r w' x ⟨htrapped, rfl⟩ ⟨hregs, rfl⟩ hr
    cases r with
    | ok regs => exact nomatch hr
    | error e => exact .broken
  -- The word is put back.
  refine Triple.watch_bind (J := fun _ x => ∃ stopped, stopped.regs = resultRegs ∧
    Trapped c nr args word stopped ∧ stopped.mem.Mapped c.regs.rip.toNat (c.regs.rip.toNat + 8) ∧
    { x.1.child with regs := c.regs } = stopped.putBack c word ∧ x.2 = .unpatched) ?_ ?_ fun _ => ?_
  · rintro w g r w' u ⟨hregs, htrapped, rfl⟩ hans hr
    cases r with
    | error e => exact nomatch hr
    | ok _ =>
        obtain ⟨hmapped, rfl⟩ := hans
        exact ⟨w.child, hregs, htrapped, hmapped, rfl, rfl⟩
  · rintro w g r w' x ⟨-, -, rfl⟩ hans hr
    cases r with
    | ok _ => exact nomatch hr
    | error e => exact .broken
  -- And the registers.
  refine Triple.watch_bind (J := fun _ x => ∃ stopped, stopped.regs = resultRegs ∧
    Trapped c nr args word stopped ∧ stopped.mem.Mapped c.regs.rip.toNat (c.regs.rip.toNat + 8) ∧
    x.1.child = stopped.putBack c word ∧ x.2 = .idle) ?_ ?_ fun _ => ?_
  · rintro w g r w' u ⟨stopped, hregs, htrapped, hmapped, hback, rfl⟩ hans hr
    cases r with
    | error e => exact nomatch hr
    | ok _ =>
        obtain rfl := hans
        exact ⟨stopped, hregs, htrapped, hmapped, hback, rfl⟩
  · rintro w g r w' x ⟨stopped, hregs, htrapped, hmapped, hback, rfl⟩ hans hr
    cases r with
    | ok _ => exact nomatch hr
    | error e => exact .broken
  refine Triple.ofExcept ?_
  rintro ⟨w, g⟩ ⟨stopped, rfl, htrapped, hmapped, hback, rfl⟩
  exact .called hword htrapped hmapped hback

theorem expectTrap_ok {status : WaitStatus} {u : Unit} (h : expectTrap status = .ok u) :
    status = .stopped .sigtrap := by
  cases status with
  | other status => exact nomatch h
  | stopped sig => cases sig with
    | sigtrap => rfl
    | sigstop => exact nomatch h
    | other name => exact nomatch h

/-- From the patch on: the call with its registers, and what is made of its stop. -/
theorem patched_injected (hword : c.mem.Holds c.regs.rip.toNat (wordBytes word)) :
    Triple phased (fun x => x.1.child = c.patched word ∧ x.2 = .patched)
      (do
        call (.setregs child (callRegs c.regs nr args)) (mapErr "inject: PTRACE_SETREGS")
        call (.cont child) (mapErr "inject: PTRACE_CONT")
        let status ← call (.waitpid child) (mapErr "inject: waitpid")
        ofExcept (expectTrap status)
        injectResult child nr c.regs word)
      (Injected c nr args) := by
  refine Triple.watch_bind (J := fun _ x => x.1.child = (c.patched word).calling nr args ∧
    x.2 = .patched) ?_ ?_ fun _ => ?_
  · rintro w g r w' u ⟨hchild, rfl⟩ hans hr
    cases r with
    | error e => exact nomatch hr
    | ok _ =>
        obtain rfl := hans
        exact ⟨by rw [hchild]; rfl, rfl⟩
  · rintro w g r w' x ⟨hchild, rfl⟩ hans hr
    cases r with
    | ok _ => exact nomatch hr
    | error e => exact .broken
  refine Triple.watch_bind (J := fun _ x => x.2 = .patched ∧ ∃ status,
    x.1.pending = some status ∧ Resumes ((c.patched word).calling nr args) status x.1.child)
    ?_ ?_ fun _ => ?_
  · rintro w g r w' u ⟨hchild, rfl⟩ hans hr
    cases r with
    | error e => exact nomatch hr
    | ok _ =>
        obtain ⟨status, c', hres, rfl⟩ := hans
        exact ⟨rfl, status, rfl, hchild ▸ hres⟩
  · rintro w g r w' x ⟨hchild, rfl⟩ hans hr
    cases r with
    | ok _ => exact nomatch hr
    | error e => exact .broken
  refine Triple.watch_bind (J := fun status x =>
    if status = .stopped .sigtrap then Trapped c nr args word x.1.child ∧ x.2 = .patched
    else x.2 = .broken)
    ?_ ?_ fun status => ?_
  · rintro w g r w' status ⟨rfl, status', hpending, hres⟩ hans hr
    obtain rfl := mapErr_eq_ok hr
    obtain ⟨hstatus, rfl⟩ := hans
    obtain rfl := hstatus status' hpending
    split
    case isTrue htrap =>
      subst htrap
      exact ⟨hres, rfl⟩
    case isFalse htrap =>
      exact if_pos (decide_eq_true htrap)
  · rintro w g r w' x ⟨rfl, status', hpending, hres⟩ hans hr
    cases r with
    | ok _ => exact nomatch hr
    | error e => exact .broken
  refine Triple.ofExcept_bind ?_ fun _ htrap => ?_
  · rintro ⟨w, g⟩ x hstatus hr
    rw [if_neg fun h => by rw [h] at hr; exact nomatch hr] at hstatus
    obtain rfl := hstatus
    exact .broken
  · rw [expectTrap_ok htrap]
    exact injectResult_injected hword

/-- An injection ends in one of the three ways. -/
theorem inject_injected :
    Triple phased (fun x => x.1.child = c ∧ x.2 = .idle) (inject child nr args)
      (Injected c nr args) := by
  rw [inject]
  refine Triple.watch_bind (J := fun regs x => regs = c.regs ∧ x.1.child = c ∧ x.2 = .idle)
    ?_ ?_ fun savedRegs => Triple.fact ?_
  · rintro w g r w' regs ⟨rfl, rfl⟩ ⟨hregs, rfl⟩ hr
    obtain rfl := mapErr_eq_ok hr
    exact ⟨hregs _ rfl, rfl, rfl⟩
  · rintro w g r w' x ⟨rfl, rfl⟩ ⟨hregs, rfl⟩ hr
    exact .nothing rfl
  rintro rfl
  refine Triple.watch_bind (J := fun word x => c.mem.Holds c.regs.rip.toNat (wordBytes word) ∧
    x.1.child = c ∧ x.2 = .idle) ?_ ?_ fun word => Triple.fact fun hword => ?_
  · rintro w g r w' word ⟨rfl, rfl⟩ ⟨hword, rfl⟩ hr
    obtain rfl := mapErr_eq_ok hr
    exact ⟨hword _ rfl, rfl, rfl⟩
  · rintro w g r w' x ⟨rfl, rfl⟩ ⟨hword, rfl⟩ hr
    exact .nothing rfl
  refine Triple.watch_bind (J := fun _ x => x.1.child = c.patched word ∧ x.2 = .patched) ?_ ?_
    fun _ => patched_injected hword
  · rintro w g r w' u ⟨rfl, rfl⟩ hans hr
    cases r with
    | error e => exact nomatch hr
    | ok _ =>
        obtain ⟨-, rfl⟩ := hans
        exact ⟨rfl, rfl⟩
  · rintro w g r w' x ⟨rfl, rfl⟩ hans hr
    cases r with
    | ok _ => exact nomatch hr
    | error e =>
        obtain rfl := hans
        exact .nothing rfl

/-- What an injection leaves that has returned: the child has stopped at a trap, and word and
registers have been put back. -/
structure Returned (c : Child) (nr : UInt64) (args : CallArgs) (word : UInt64) (stopped : Child)
    (ret : UInt64) (c' : Child) : Prop where
  holds : c.mem.Holds c.regs.rip.toNat (wordBytes word)
  trapped : Trapped c nr args word stopped
  mapped : stopped.mem.Mapped c.regs.rip.toNat (c.regs.rip.toNat + 8)
  child : c' = stopped.putBack c word
  value : ret = stopped.regs.rax
  errno : isErrno ret = false

theorem Injected.ok {x : World × Phase} (h : Injected c nr args (.ok ret) x) :
    x.2 = .idle ∧ ∃ word stopped, Returned c nr args word stopped ret x.1.child := by
  generalize hr : (.ok ret : Except Error UInt64) = r at h
  cases h with
  | nothing _ => exact nomatch hr
  | broken => exact nomatch hr
  | @called w word stopped hword htrapped hmapped hchild =>
      rw [checkRetval] at hr
      split at hr
      · exact nomatch hr
      case isFalse herrno =>
        obtain rfl := Except.ok.inj hr
        exact ⟨rfl, word, stopped, hword, htrapped, hmapped, hchild, rfl,
          Bool.eq_false_iff.mpr herrno⟩

theorem inject_returns : Ensures answer (fun w => w.child = c) (inject child nr args)
    (fun ret w => ∃ word stopped, Returned c nr args word stopped ret w.child) := by
  intro s tr p w w' hw hr ha a hp
  have h := inject_injected s tr p (w, .idle) _ ⟨hw, rfl⟩ hr ha.watched
  rw [hp] at h
  exact h.ok.2

/-- If it has left its own word alone, it has done the system call. -/
theorem inject_ensures (hclear : Clear c nr args) :
    Ensures answer (fun w => w.child = c) (inject child nr args) (fun ret w => isErrno ret = false ∧
      ∃ mem fds, Syscall (c.calling nr args) ret mem fds ∧ w.child = { c with mem, fds }) := by
  refine inject_returns.mono (fun _ h => h) ?_
  rintro ret w ⟨word, stopped, hreturned⟩
  obtain ⟨_, mem, fds, rfl, hcall, hback⟩ :=
    trapped_syscall hreturned.holds hclear hreturned.trapped
  rw [← hreturned.value] at hcall
  exact ⟨hreturned.errno, mem, fds, hcall, hreturned.child.trans hback⟩

end Wraith.Restore

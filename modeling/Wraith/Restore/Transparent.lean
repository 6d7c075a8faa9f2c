/-
# `Wraith.Restore.Transparent` — an injected system call leaves only its own traces

`inject` on a child whose calls all succeed and whose wait reports SIGTRAP, for an arbitrary system
call: `effect` relates the child as it is resumed to the registers, memory and descriptors it stops
with, and all that is asked of it is that it leaves the patched word as it is.

The kernel keeps the child as it was resumed and as it stopped, since both are gone when `inject`
returns; `Transparent` compares these with the child before and after.
-/
import Wraith.Restore.Undisturbed

namespace Wraith.Restore

open Lib Script Process

/-! ## The bytes of the patch -/

theorem patchWord_mask : ∀ i < 64,
    (~~~0x00ffffff : UInt64).toBitVec.getLsbD i = decide (24 ≤ i) := by decide

theorem patchWord_code : ∀ i < 64, 24 ≤ i → (0x00cc050f : UInt64).toBitVec.getLsbD i = false := by
  decide

/-- Above the three bytes of the code the patch has the bits of the word. -/
theorem patchWord_bit {w : UInt64} {i : Nat} (h : 24 ≤ i) :
    (patchWord w).toBitVec.getLsbD i = w.toBitVec.getLsbD i := by
  by_cases hi : i < 64
  · rw [patchWord, UInt64.toBitVec_or, UInt64.toBitVec_and, BitVec.getLsbD_or, BitVec.getLsbD_and,
      patchWord_mask i hi, patchWord_code i hi h, decide_eq_true h, Bool.and_true, Bool.or_false]
  · rw [BitVec.getLsbD_of_ge _ _ (Nat.le_of_not_lt hi),
      BitVec.getLsbD_of_ge _ _ (Nat.le_of_not_lt hi)]

theorem patchWord_shift (w : UInt64) {n : UInt64} (h : 24 ≤ n.toNat % 64) :
    patchWord w >>> n = w >>> n := by
  apply UInt64.eq_of_toBitVec_eq
  refine BitVec.eq_of_getLsbD_eq fun i _ => ?_
  have hn : (n.toBitVec % 64).toNat = n.toNat % 64 := BitVec.toNat_umod
  rw [UInt64.toBitVec_shiftRight, UInt64.toBitVec_shiftRight, BitVec.ushiftRight_eq',
    BitVec.ushiftRight_eq', BitVec.getLsbD_ushiftRight, BitVec.getLsbD_ushiftRight]
  exact patchWord_bit (by omega)

/-- `syscall; int3`, and behind it the bytes that were there. -/
theorem wordBytes_patch (w : UInt64) :
    wordBytes (patchWord w) = trapCode ++ (wordBytes w).drop trapCode.length := by
  rw [wordBytes, patchWord_byte0, patchWord_byte1, patchWord_byte2,
    patchWord_shift w (n := 24) (by decide),
    patchWord_shift w (n := 32) (by decide), patchWord_shift w (n := 40) (by decide),
    patchWord_shift w (n := 48) (by decide), patchWord_shift w (n := 56) (by decide)]
  rfl

/-! ## A kernel that does what it is asked -/

/-- What a system call makes of a child: registers, memory and descriptors it stops with. -/
abbrev Effect : Type := Child → UserRegs → Memory UInt64 → Fds → Prop

/-- The child, and each time it was resumed what it was then and what it stopped as. -/
structure Traced where
  child : Child
  resumed : List (Child × Child) := []

/-- Every call succeeds, and the wait reports SIGTRAP. -/
def served (effect : Effect) (w : Traced) : (o : RestOp) → RestResp o → Traced → Prop
  | .getregs _, r, w' => r = .ok w.child.regs ∧ w' = w
  | .setregs _ regs, r, w' => r = .ok () ∧ w' = { w with child := { w.child with regs } }
  | .read _ addr, r, w' =>
      ∃ word, r = .ok word ∧ w.child.mem.Holds addr.toNat (wordBytes word) ∧ w' = w
  | .write _ addr word, r, w' => r = .ok () ∧
      w' = { w with child := { w.child with mem := w.child.mem.write addr.toNat (wordBytes word) } }
  | .cont _, r, w' => r = .ok () ∧ ∃ regs mem fds, effect w.child regs mem fds ∧
      w' = ⟨{ w.child with regs, mem, fds },
        w.resumed ++ [(w.child, { w.child with regs, mem, fds })]⟩
  | .waitpid _, r, w' => r = .ok (.stopped .sigtrap) ∧ w' = w
  | _, _, _ => False

/-- The word at the instruction pointer stays mapped, and stays what it is. -/
def Effect.Leaves (effect : Effect) (c : Child) : Prop :=
  ∀ regs mem fds, effect c regs mem fds →
    ∀ a, Memory.In c.regs.rip.toNat (c.regs.rip.toNat + 8) a →
      (mem a).isSome ∧ mem.byte a = c.mem.byte a

/-- The child `c` before an injection and `c'` after it, with `ran`, the child as it was resumed,
and `stopped`, as it stopped. -/
structure Transparent (c : Child) (nr : UInt64) (args : CallArgs) (word : UInt64)
    (ran stopped c' : Child) (r : Except Error UInt64) : Prop where
  called : ran.regs = { c.regs with
    rax := nr, rdi := args.a0, rsi := args.a1, rdx := args.a2, r10 := args.a3, r8 := args.a4,
    r9 := args.a5 }
  code : ran.mem.Holds c.regs.rip.toNat ([0x0f, 0x05, 0xcc] ++ (wordBytes word).drop 3)
  code_only : ∀ a, ¬ Memory.In c.regs.rip.toNat (c.regs.rip.toNat + 8) a → ran.mem a = c.mem a
  code_stays : stopped.mem.Holds c.regs.rip.toNat ([0x0f, 0x05, 0xcc] ++ (wordBytes word).drop 3)
  regs : c'.regs = c.regs
  fpregs : c'.fpregs = c.fpregs
  word : c'.mem.Holds c.regs.rip.toNat (wordBytes word)
  effect : ∀ a, ¬ Memory.In c.regs.rip.toNat (c.regs.rip.toNat + 8) a → c'.mem a = stopped.mem a
  unaffected : ∀ a, stopped.mem a = ran.mem a → c'.mem a = c.mem a
  fds : c'.fds = stopped.fds
  errno : (∃ e, r = .error e) ↔ -4095 ≤ stopped.regs.rax.toInt64 ∧ stopped.regs.rax.toInt64 ≤ -1
  value : ∀ ret, r = .ok ret → ret = stopped.regs.rax

/-! ## `inject` -/

variable {effect : Effect} {c : Child} {nr : UInt64} {args : CallArgs} {word : UInt64}
  {child : Int32}

theorem isErrno_iff (ret : UInt64) :
    isErrno ret = true ↔ -4095 ≤ ret.toInt64 ∧ ret.toInt64 ≤ -1 := by
  rw [isErrno, Bool.and_eq_true, decide_eq_true_iff, decide_eq_true_iff, and_comm]
  refine and_congr Iff.rfl ?_
  rw [Int64.lt_iff_toInt_lt, Int64.le_iff_toInt_le, Int64.toInt_zero,
    show (-1 : Int64).toInt = -1 from rfl]
  omega

theorem checkRetval_error {ret : UInt64} :
    (∃ e, checkRetval nr ret = .error e) ↔ isErrno ret = true := by
  rw [checkRetval]
  constructor
  · rintro ⟨e, he⟩
    by_contra hret
    rw [if_neg hret] at he
    cases he
  · intro hret
    exact ⟨_, if_pos hret⟩

/-- The patch is the same for every word that reads the same. -/
theorem patched_congr {word' : UInt64} (h : wordBytes word = wordBytes word') :
    c.patched word = c.patched word' := by
  rw [Child.patched, Child.patched, wordBytes_patch, wordBytes_patch, h]

/-- What the patch leaves of the word, as long as the system call does. -/
theorem Effect.Leaves.holds {regs : UserRegs} {mem : Memory UInt64} {fds : Fds} {bs : List UInt8}
    (hleaves : effect.Leaves c) (heffect : effect c regs mem fds) (hlen : bs.length = 8)
    (h : c.mem.Holds c.regs.rip.toNat bs) : mem.Holds c.regs.rip.toNat bs := fun i hi => by
  rw [(hleaves regs mem fds heffect _ ⟨Nat.le_add_right _ _, by omega⟩).2]
  exact h i hi

/-- The child before the injection, as it is resumed, as it stops, and with everything put back. -/
theorem transparent_of_effect {regs : UserRegs} {mem : Memory UInt64} {fds : Fds}
    (hword : c.mem.Holds c.regs.rip.toNat (wordBytes word))
    (hleaves : effect.Leaves ((c.patched word).calling nr args))
    (heffect : effect ((c.patched word).calling nr args) regs mem fds) :
    Transparent c nr args word ((c.patched word).calling nr args) { c with regs, mem, fds }
      { c with mem := mem.write c.regs.rip.toNat (wordBytes word), fds }
      (checkRetval nr regs.rax) where
  called := rfl
  code := by
    have hpatch := patched_holds hword
    rwa [wordBytes_patch] at hpatch
  code_only a ha := if_neg ha
  code_stays := by
    have hstays := hleaves.holds heffect rfl (patched_holds hword)
    rwa [wordBytes_patch] at hstays
  regs := rfl
  fpregs := rfl
  word := by
    have hstays := hleaves.holds heffect rfl (patched_holds hword)
    exact Memory.write_holds hstays.mapped
  effect a ha := if_neg ha
  unaffected a ha := by
    have hback : (c.patched word).mem.write c.regs.rip.toNat (wordBytes word) = c.mem :=
      unpatch hword
    exact (Memory.write_congr ha).trans (congrFun hback a)
  fds := rfl
  errno := checkRetval_error.trans (isErrno_iff regs.rax)
  value ret h := by
    rw [checkRetval] at h
    split at h
    · cases h
    · exact (Except.ok.inj h).symm

/-- A child that has been resumed once, as `ran`, and stopped with `regs`, `mem` and `fds`. -/
def Traced.once (ran : Child) (regs : UserRegs) (mem : Memory UInt64) (fds : Fds) : Traced :=
  ⟨{ ran with regs, mem, fds }, [(ran, { ran with regs, mem, fds })]⟩

/-- Behind the stop, word and registers are put back. -/
theorem injectResult_restores {ran : Child} {regs saved : UserRegs} {mem : Memory UInt64}
    {fds : Fds} :
    Triple (served effect) (fun w => w = .once ran regs mem fds) (injectResult child nr saved word)
      fun r w => r = checkRetval nr regs.rax ∧
        w = { Traced.once ran regs mem fds with
          child := { ran with
            regs := saved, mem := mem.write saved.rip.toNat (wordBytes word), fds } } := by
  rw [injectResult]
  refine Triple.returns_bind (J := fun read w => read = regs ∧ w = .once ran regs mem fds) ?_
    fun resultRegs => Triple.fact ?_
  · rintro w r w' rfl ⟨rfl, rfl⟩
    exact ⟨_, rfl, rfl, rfl⟩
  rintro rfl
  refine Triple.returns_bind (J := fun _ w => w = { Traced.once ran resultRegs mem fds with
    child := { ran with
      regs := resultRegs, mem := mem.write saved.rip.toNat (wordBytes word), fds } })
    ?_ fun _ => ?_
  · rintro w r w' rfl ⟨rfl, rfl⟩
    exact ⟨_, rfl, rfl⟩
  refine Triple.returns_bind (J := fun _ w => w = { Traced.once ran resultRegs mem fds with
    child := { ran with regs := saved, mem := mem.write saved.rip.toNat (wordBytes word), fds } })
    ?_ fun _ => ?_
  · rintro w r w' rfl ⟨rfl, rfl⟩
    exact ⟨_, rfl, rfl⟩
  exact Triple.ofExcept fun w hw => ⟨rfl, hw⟩

variable (child) in
/-- Every effect of the system call has such a run. -/
theorem inject_served {regs : UserRegs} {mem : Memory UInt64} {fds : Fds}
    (hword : c.mem.Holds c.regs.rip.toNat (wordBytes word))
    (heffect : effect ((c.patched word).calling nr args) regs mem fds) :
    ∃ tr w', Cmd.Runs (inject child nr args ()) tr (checkRetval nr regs.rax, ()) ∧
      Answered (served effect) ⟨c, []⟩ tr w' := by
  refine ⟨[⟨.getregs child, .ok c.regs⟩, ⟨.read child c.regs.rip, .ok word⟩,
    ⟨.write child c.regs.rip (patchWord word), .ok ()⟩,
    ⟨.setregs child (callRegs c.regs nr args), .ok ()⟩, ⟨.cont child, .ok ()⟩,
    ⟨.waitpid child, .ok (.stopped .sigtrap)⟩, ⟨.getregs child, .ok regs⟩,
    ⟨.write child c.regs.rip word, .ok ()⟩, ⟨.setregs child c.regs, .ok ()⟩],
    _, ?_, ⟨_, ⟨rfl, rfl⟩, _, ⟨word, rfl, hword, rfl⟩, _, ⟨rfl, rfl⟩, _, ⟨rfl, rfl⟩,
      _, ⟨rfl, regs, mem, fds, heffect, rfl⟩, _, ⟨rfl, rfl⟩, _, ⟨rfl, rfl⟩, _, ⟨rfl, rfl⟩,
      _, ⟨rfl, rfl⟩, rfl⟩⟩
  rw [inject]
  refine runs_call_ok rfl (runs_call_ok rfl (runs_call_ok rfl (runs_call_ok rfl (runs_call_ok rfl
    (runs_call_ok rfl (runs_pure_bind.mpr ?_))))))
  rw [injectResult]
  refine runs_call_ok rfl (runs_call_ok rfl (runs_call_ok rfl ?_))
  cases checkRetval nr regs.rax with
  | ok a => exact .ret _
  | error x => exact .ret _

/-- The system calls of the restorer, whatever registers they leave. -/
def calls : Effect := fun c regs mem fds => Syscall c regs.rax mem fds

/-- They leave the word alone unless a mapping is made over it. -/
theorem syscall_leaves (hword : c.mem.Holds c.regs.rip.toNat (wordBytes word))
    (hclear : Clear c nr args) :
    calls.Leaves ((c.patched word).calling nr args) := fun regs mem fds hcall a ha => by
  have hstays := (syscall_unpatch hword hclear hcall).1
  refine ⟨hstays.mapped a ha, ?_⟩
  have hlt : a - c.regs.rip.toNat < (wordBytes (patchWord word)).length := by
    rw [wordBytes_length]
    exact Nat.sub_lt_left_of_lt_add ha.1 ha.2
  rw [← Nat.add_sub_of_le ha.1]
  exact (hstays _ hlt).trans (patched_holds hword _ hlt).symm

/-- Whatever the system call does to the child, an injection that goes through adds nothing to it.
-/
theorem inject_transparent (hword : c.mem.Holds c.regs.rip.toNat (wordBytes word))
    (hleaves : effect.Leaves ((c.patched word).calling nr args)) {s s' : Unit}
    {tr : List (Event RestResp)} {r : Except Error UInt64} {w' : Traced}
    (hr : Cmd.Runs (inject child nr args s) tr (r, s'))
    (ha : Answered (served effect) ⟨c, []⟩ tr w') :
    ∃ ran stopped, w'.resumed = [(ran, stopped)] ∧
      Transparent c nr args word ran stopped w'.child r := by
  suffices h : Triple (served effect) (fun w => w = ⟨c, []⟩) (inject child nr args) fun r w =>
      ∃ ran stopped, w.resumed = [(ran, stopped)] ∧
        Transparent c nr args word ran stopped w.child r from
    h s tr _ _ w' rfl hr ha
  rw [inject]
  refine Triple.returns_bind (J := fun regs w => regs = c.regs ∧ w = ⟨c, []⟩) ?_
    fun savedRegs => Triple.fact ?_
  · rintro w r w' rfl ⟨rfl, rfl⟩
    exact ⟨_, rfl, rfl, rfl⟩
  rintro rfl
  -- Whichever word is read, its bytes are those of `word`.
  refine Triple.returns_bind (J := fun read w => wordBytes read = wordBytes word ∧ w = ⟨c, []⟩) ?_
    fun read => Triple.fact fun hread => ?_
  · rintro w r w' rfl ⟨read, rfl, hread, rfl⟩
    exact ⟨_, rfl, hread.unique hword rfl, rfl⟩
  refine Triple.returns_bind (J := fun _ w => w = ⟨c.patched word, []⟩) ?_ fun _ => ?_
  · rintro w r w' rfl ⟨rfl, rfl⟩
    exact ⟨_, rfl, by rw [← patched_congr hread]; rfl⟩
  refine Triple.returns_bind (J := fun _ w => w = ⟨(c.patched word).calling nr args, []⟩) ?_
    fun _ => ?_
  · rintro w r w' rfl ⟨rfl, rfl⟩
    exact ⟨_, rfl, rfl⟩
  refine Triple.returns_bind (J := fun _ w => ∃ regs mem fds,
    effect ((c.patched word).calling nr args) regs mem fds ∧
    w = .once ((c.patched word).calling nr args) regs mem fds) ?_ fun _ =>
      Triple.exists fun regs => Triple.exists fun mem => Triple.exists fun fds =>
        Triple.fact fun heffect => ?_
  · rintro w r w' rfl ⟨rfl, regs, mem, fds, heffect, rfl⟩
    exact ⟨_, rfl, regs, mem, fds, heffect, rfl⟩
  refine Triple.returns_bind (J := fun status w => status = .stopped .sigtrap ∧
    w = .once ((c.patched word).calling nr args) regs mem fds) ?_ fun status => Triple.fact ?_
  · rintro w r w' rfl ⟨rfl, rfl⟩
    exact ⟨_, rfl, rfl, rfl⟩
  rintro rfl
  refine Triple.ofExcept_bind (by rintro _ _ _ ⟨⟩) fun _ _ => ?_
  refine injectResult_restores.mono (fun _ hw => hw) ?_
  rintro r w ⟨rfl, rfl⟩
  rw [hread]
  exact ⟨_, _, rfl, transparent_of_effect hword hleaves heffect⟩

/-- `mmap` of a page, for reading and writing. -/
def pageArgs : CallArgs where
  a0 := 0x10000
  a1 := 0x1000
  a2 := 3
  a3 := asU64 (mapFixed ||| mapPrivate ||| mapAnonymous)
  a4 := asU64 (-1)

theorem stub_nops : stub.mem.Holds stub.regs.rip.toNat (wordBytes 0x9090909090909090) := by
  intro i hi
  have hbytes : ∀ b ∈ wordBytes 0x9090909090909090, b = 0x90 :=
    fun _ => List.eq_of_mem_replicate (n := 8)
  have hin : Memory.In 0x400000 0x401000 (stub.regs.rip.toNat + i) := by
    have hrip : stub.regs.rip.toNat = 0x400100 := rfl
    rw [wordBytes_length] at hi
    omega
  rw [hbytes _ (List.getElem_mem hi), Memory.byte]
  simp only [stub] at hin ⊢
  rw [if_pos hin]
  rfl

/-- The stub maps a page below its own. -/
theorem inject_transparent_stub : ∃ tr r w', Cmd.Runs (inject 42 sysMmap pageArgs ()) tr (r, ()) ∧
    Answered (served calls) ⟨stub, []⟩ tr w' ∧ ∃ ran stopped, w'.resumed = [(ran, stopped)] ∧
      Transparent stub sysMmap pageArgs 0x9090909090909090 ran stopped w'.child r := by
  have hclear : Clear stub sysMmap pageArgs := fun _ => Or.inr (by decide)
  have hcall : calls ((stub.patched 0x9090909090909090).calling sysMmap pageArgs)
      { callRegs stub.regs sysMmap pageArgs with rax := 0x10000 } _ _ :=
    Syscall.mmap rfl rfl (by decide) (by decide)
  obtain ⟨tr, w', hr, ha⟩ := inject_served 42 stub_nops hcall
  exact ⟨tr, _, w', hr, ha, inject_transparent stub_nops (syscall_leaves stub_nops hclear) hr ha⟩

end Wraith.Restore

/-
# `Wraith.Capture.Capturer` — freezing a process and reading it

`Capturer::capture` and `ProcessLock` as a script over the calls they make, each of which may fail.
`ProcessLock`'s `Drop` is a `finally`: it runs when the lock goes out of scope, with or without an
error.

`capture` reads the maps first and attaches afterwards.  What the header comment of `capturer.rs`
lists is the other order.
-/
import Wraith.Lib.Script
import Wraith.Process.Ptrace

namespace Wraith.Capture

open Lib Script Process

/-! ## Operations -/

inductive CapOp where
  | readMaps (pid : Int32)
  | pidExists (pid : Int32)
  | attach (pid : Int32)
  | waitpid (pid : Int32)
  | getregs (pid : Int32)
  | getfpregs (pid : Int32)
  | readMem (pid : Int32) (start size : UInt64)
  | enumerateFds (pid : Int32)
  | detach (pid : Int32)
  | describe (pid : Int32)
  deriving DecidableEq, Repr

/-- What a snapshot says about the process beside its state: read from `/proc` after the fact, with
a default for each thing that cannot be read. -/
structure Description where
  processName : String
  kernel : String
  hostname : String
  processAgeSeconds : UInt64
  vmSizeBytes : UInt64
  vmRssBytes : UInt64
  uid : UInt32
  timestampNs : UInt64
  deriving DecidableEq, Repr

/-- `read_exact` fills its buffer, or fails. -/
@[reducible] def CapResp : CapOp → Type
  | .readMaps _ => Except Error (List MapsEntry)
  | .pidExists _ => Bool
  | .attach _ => Except Errno Unit
  | .waitpid _ => Except Errno WaitStatus
  | .getregs _ => Except Errno UserRegs
  | .getfpregs _ => Except Errno UserFpregs
  | .readMem _ _ size => Except Error { data : List UInt8 // data.length = size.toNat }
  | .enumerateFds _ => Except Error (List FileDescriptor)
  | .detach _ => Except Errno Unit
  | .describe _ => Description

abbrev Cap (α : Type) : Type := Script CapResp Unit Error α

/-! ## `ProcessLock` -/

structure ProcessLock where
  pid : Int32
  detached : Bool
  deriving DecidableEq, Repr

def errProcessNotFound (pid : Int32) : Error :=
  s!"Process {pid} not found — check that /proc/{pid} exists"

def errPermission (action : String) (pid : Int32) : Error :=
  s!"Permission denied for '{action}' on PID {pid} — try running as root or set " ++
    "/proc/sys/kernel/yama/ptrace_scope to 0"

/-- The error for a refused attach. -/
def attachError (pid : Int32) (e : Errno) : Error :=
  if e = .eperm ∨ e = .eacces then errPermission "ptrace attach" pid
  else s!"ptrace::attach({pid}) failed: {e.text}"

/-- Attach and wait for the stop.  There is no lock yet when the wait fails. -/
def attachStopped (pid : Int32) : Cap ProcessLock := do
  call (.attach pid) fun r => Except.mapError (attachError pid) r
  let _ ← call (.waitpid pid) (mapErr s!"waitpid({pid}) after attach failed")
  pure ⟨pid, false⟩

/-- `ProcessLock::attach`. -/
def ProcessLock.attach (pid : Int32) : Cap ProcessLock := do
  let found : Bool ← call (.pidExists pid) fun r => .ok r
  if found then attachStopped pid else raise (errProcessNotFound pid)

/-- `detach`, with the lock as it is afterwards. -/
def ProcessLock.detach (lock : ProcessLock) : Cap ProcessLock :=
  if lock.detached then pure lock
  else do
    call (.detach lock.pid) (mapErr s!"ptrace::detach({lock.pid}) failed")
    pure { lock with detached := true }

/-- `Drop`. -/
def ProcessLock.drop (lock : ProcessLock) : Cap Unit :=
  if lock.detached then pure ()
  else call (.detach lock.pid) fun _ => .ok ()

/-- `capture_registers`, with `from_ptrace`. -/
def captureRegisters (pid : Int32) : Cap Registers := do
  let gp ← call (.getregs pid) (mapErr s!"PTRACE_GETREGS failed for PID {pid}")
  let fp ← call (.getfpregs pid) (mapErr s!"PTRACE_GETFPREGS failed for PID {pid}")
  let regs := Registers.ofPtrace gp fp
  match regs.validate with
  | .error e => raise e
  | .ok _ => pure regs

/-! ## `Capturer::capture` -/

variable (checksum : List UInt8 → UInt64)

/-- What becomes of a region whose dump has come to `r`. -/
def dumped (region : MemoryRegion) {size : UInt64}
    (r : Except Error { data : List UInt8 // data.length = size.toNat }) : MemoryRegion :=
  match r with
  | .ok data => region.filled checksum data.val
  | .error _ => region

/-- One round of the loop over the regions; a failed dump is logged. -/
def dumpRegion (pid : Int32) (region : MemoryRegion) : Cap MemoryRegion :=
  if shouldSkip region then pure region
  else call (.readMem pid region.start region.size) fun r => .ok (dumped checksum region r)

def dumpRegions (pid : Int32) : List MemoryRegion → Cap (List MemoryRegion)
  | [] => pure []
  | region :: regions => do
      let region ← dumpRegion checksum pid region
      let regions ← dumpRegions pid regions
      pure (region :: regions)

/-- What is read while the process is frozen. -/
structure Frozen where
  registers : Registers
  regions : List MemoryRegion
  fds : List FileDescriptor

/-- The part of `capture` that the lock covers. -/
def readFrozen (pid : Int32) (regions : List MemoryRegion) : Cap Frozen := do
  let registers ← captureRegisters pid
  let regions ← dumpRegions checksum pid regions
  let fds ← call (.enumerateFds pid) id
  pure { registers, regions := regions.filter (·.data ≠ []), fds }

/-- `SnapshotBuilder::build`. -/
def build (pid : Int32) (f : Frozen) (d : Description) : Proto.ProcessSnapshot where
  pid := pid.toUInt32
  uid := d.uid
  arch := "x86_64"
  kernelVersion := d.kernel
  capturedAtNs := d.timestampNs
  metadata := some
    { machineHostname := d.hostname
      processName := d.processName
      processAgeSeconds := d.processAgeSeconds
      threadCount := 1
      virtualMemoryBytes := d.vmSizeBytes
      residentMemoryBytes := d.vmRssBytes }
  registers := some (regsToProto f.registers)
  memoryRegions := f.regions.map regionToProto
  fileDescriptors := f.fds.map fdToProto
  checksum := 0
  snapshotVersion := "1.0"

/-- From the maps on. -/
def captureMaps (pid : Int32) (entries : List MapsEntry) : Cap Proto.ProcessSnapshot := do
  let lock ← ProcessLock.attach pid
  let frozen ← tryFinally (readFrozen checksum pid (entries.map MapsEntry.region)) lock.drop
  let d : Description ← call (.describe pid) fun r => .ok r
  pure (build pid frozen d)

/-- `capture`. -/
def capture (pid : Int32) : Cap Proto.ProcessSnapshot := do
  let entries ← call (.readMaps pid) id
  captureMaps checksum pid entries

/-! ## What is called while the target is frozen -/

/-- A call that only reads. -/
def CapOp.isRead : CapOp → Bool
  | .getregs _ => true
  | .getfpregs _ => true
  | .readMem _ _ _ => true
  | .enumerateFds _ => true
  | _ => false

section Reads

variable {checksum} {G : Type} {M : Cmd.Monitor CapResp G} {g : G} {pid : Int32}

/-- A monitor that lets reads pass and takes no notice of them. -/
def Reads (M : Cmd.Monitor CapResp G) (g : G) : Prop :=
  ∀ o, o.isRead = true → M.allow g o ∧ ∀ r, M.next g o r = g

/-- A read, whatever it comes to. -/
theorem wp_read {α β : Type} {o : CapOp} {view : CapResp o → Except Error α} {f : α → Cap β}
    {Q : Except Error β → Unit → G → Prop} (h : Reads M g) (ho : o.isRead = true)
    (herr : ∀ x, Q (.error x) () g) (hok : ∀ a, Wp M (f a) Q () g) :
    Wp M (call o view >>= f) Q () g := by
  rw [wp_bind, wp_call]
  refine ⟨(h o ho).1, fun r => ?_⟩
  rw [(h o ho).2]
  cases view r with
  | error x => exact herr x
  | ok a => exact hok a

theorem captureRegisters_reads (h : Reads M g) :
    Wp M (captureRegisters pid) (fun _ _ g' => g' = g) () g := by
  rw [captureRegisters]
  refine wp_read h rfl (fun _ => rfl) fun gp => wp_read h rfl (fun _ => rfl) fun fp => ?_
  dsimp only
  split
  · rfl
  · rfl

theorem dumpRegion_reads (h : Reads M g) (region : MemoryRegion) :
    Wp M (dumpRegion checksum pid region) (fun _ _ g' => g' = g) () g := by
  rw [dumpRegion]
  split
  · rfl
  · exact ⟨(h _ rfl).1, fun r => (h _ rfl).2 r⟩

theorem dumpRegions_reads (h : Reads M g) : ∀ regions : List MemoryRegion,
    Wp M (dumpRegions checksum pid regions) (fun _ _ g' => g' = g) () g
  | [] => rfl
  | region :: regions => by
      rw [dumpRegions]
      refine (dumpRegion_reads h region).bind (fun r _ g' hg => ?_) fun _ _ _ h => h
      rw [hg]
      exact (dumpRegions_reads h regions).bind (fun rs _ g'' hg => hg) fun _ _ _ h => h

theorem readFrozen_reads (h : Reads M g) (regions : List MemoryRegion) :
    Wp M (readFrozen checksum pid regions) (fun _ _ g' => g' = g) () g := by
  rw [readFrozen]
  refine (captureRegisters_reads h).bind (fun registers _ g' hg => ?_) fun _ _ _ h => h
  rw [hg]
  refine (dumpRegions_reads h regions).bind (fun regions' _ g'' hg => ?_) fun _ _ _ h => h
  rw [hg]
  exact wp_read h rfl (fun _ => rfl) fun fds => rfl

/-- `ProcessLock::attach`, with a premise for each way out. -/
theorem wp_attach {Q : Except Error ProcessLock → Unit → G → Prop} {found attached : G}
    (hfound : M.next g (.pidExists pid) true = found)
    (hattached : M.next found (.attach pid) (.ok ()) = attached)
    (hallow : M.allow g (.pidExists pid) ∧ M.allow found (.attach pid) ∧
      M.allow attached (.waitpid pid))
    (habsent : Q (.error (errProcessNotFound pid)) () (M.next g (.pidExists pid) false))
    (hrefused : ∀ e, Q (.error (attachError pid e)) () (M.next found (.attach pid) (.error e)))
    (hlost : ∀ e x, Q (.error x) () (M.next attached (.waitpid pid) (.error e)))
    (hlocked : ∀ status, Q (.ok ⟨pid, false⟩) () (M.next attached (.waitpid pid) (.ok status))) :
    Wp M (ProcessLock.attach pid) Q () g := by
  rw [ProcessLock.attach, wp_bind, wp_call]
  refine ⟨hallow.1, ?_⟩
  rintro (_ | _)
  · exact habsent
  simp only [Continues, if_true]
  rw [hfound, attachStopped, wp_bind, wp_call]
  refine ⟨hallow.2.1, ?_⟩
  rintro (e | _)
  · exact hrefused e
  simp only [Except.mapError, Continues]
  rw [hattached, wp_bind, wp_call]
  refine ⟨hallow.2.2, ?_⟩
  rintro (e | status)
  · exact hlost e _
  · exact hlocked status

/-- `capture`, given what `attach` comes to: the target is read while it is locked, and detached
whatever comes of that. -/
theorem wp_capture {Q : Except Error Proto.ProcessSnapshot → Unit → G → Prop} (locked : G)
    (hmaps : M.allow g (.readMaps pid))
    (hunread : ∀ e, Q (.error e) () (M.next g (.readMaps pid) (.error e)))
    (hattach : ∀ entries, Wp M (ProcessLock.attach pid) (fun r _ g' => match r with
      | .ok lock => lock = ⟨pid, false⟩ ∧ g' = locked
      | .error x => Q (.error x) () g') () (M.next g (.readMaps pid) (.ok entries)))
    (hreads : Reads M locked) (hdetach : M.allow locked (.detach pid))
    (hfailed : ∀ r x, Q (.error x) () (M.next locked (.detach pid) r))
    (hread : ∀ r, M.allow (M.next locked (.detach pid) r) (.describe pid) ∧
      ∀ d s, Q (.ok s) () (M.next (M.next locked (.detach pid) r) (.describe pid) d)) :
    Wp M (capture checksum pid) Q () g := by
  rw [capture, wp_bind, wp_call]
  refine ⟨hmaps, ?_⟩
  rintro (e | entries)
  · exact hunread e
  simp only [id, Continues]
  rw [captureMaps]
  refine (hattach entries).bind ?_ fun _ _ _ h => h
  rintro lock _ g' ⟨rfl, rfl⟩
  rw [wp_bind, wp_tryFinally]
  refine wp_mono (fun r _ g hg => ?_) (readFrozen_reads hreads _)
  rw [hg, ProcessLock.drop]
  simp only [Bool.false_eq_true, if_false]
  rw [wp_call]
  refine ⟨hdetach, fun detached => ?_⟩
  cases r with
  | error x => exact hfailed detached x
  | ok f =>
      obtain ⟨hdescribe, hdone⟩ := hread detached
      exact ⟨hdescribe, fun d => hdone d _⟩

end Reads

/-! ## Runs that return a snapshot -/

section Runs

variable {checksum} {pid : Int32} {tr : List (Event CapResp)}

/-- The loop over the regions: what it calls, and what becomes of the regions. -/
inductive Dumps (checksum : List UInt8 → UInt64) (pid : Int32) :
    List MemoryRegion → List (Event CapResp) → List MemoryRegion → Prop where
  | nil : Dumps checksum pid [] [] []
  | skip {region : MemoryRegion} {regions regions' : List MemoryRegion}
      {tr : List (Event CapResp)} : shouldSkip region = true →
      Dumps checksum pid regions tr regions' →
      Dumps checksum pid (region :: regions) tr (region :: regions')
  | dump {region : MemoryRegion} {regions regions' : List MemoryRegion}
      {tr : List (Event CapResp)}
      (r : Except Error { data : List UInt8 // data.length = region.size.toNat }) :
      shouldSkip region = false → Dumps checksum pid regions tr regions' →
      Dumps checksum pid (region :: regions)
        (⟨.readMem pid region.start region.size, r⟩ :: tr) (dumped checksum region r :: regions')

theorem dumpRegions_runs : ∀ {regions : List MemoryRegion} {tr : List (Event CapResp)}
    {p : Except Error (List MemoryRegion) × Unit},
    Cmd.Runs (dumpRegions checksum pid regions ()) tr p →
      ∃ regions', p = (.ok regions', ()) ∧ Dumps checksum pid regions tr regions'
  | [], tr, p, h => by
      obtain ⟨rfl, rfl⟩ := Cmd.runs_ret.mp h
      exact ⟨[], rfl, .nil⟩
  | region :: regions, tr, p, h => by
      -- The rest of the loop, behind one region.
      have hrest : ∀ {region' : MemoryRegion} {tr : List (Event CapResp)},
          Cmd.Runs ((dumpRegions checksum pid regions >>= fun regions' =>
            (pure (region' :: regions') : Cap _)) ()) tr p →
          ∃ regions', p = (.ok (region' :: regions'), ()) ∧
            Dumps checksum pid regions tr regions' := by
        intro region' tr h
        obtain ⟨x, -, herr⟩ | ⟨tr₁, regions', s', tr₂, hc, hf, rfl⟩ := runs_bind_cases h
        · obtain ⟨regions', heq, -⟩ := dumpRegions_runs herr
          exact nomatch (Prod.mk.inj heq).1
        · obtain ⟨regions'', heq, hd⟩ := dumpRegions_runs hc
          obtain rfl := Except.ok.inj (Prod.mk.inj heq).1
          obtain ⟨rfl, rfl⟩ := Cmd.runs_ret.mp hf
          exact ⟨regions', rfl, by rwa [List.append_nil]⟩
      rw [dumpRegions] at h
      cases hskip : shouldSkip region with
      | true =>
          rw [dumpRegion, hskip, if_pos rfl] at h
          obtain ⟨regions', rfl, hd⟩ := hrest h
          exact ⟨_, rfl, .skip hskip hd⟩
      | false =>
          rw [dumpRegion, hskip, if_neg Bool.false_ne_true] at h
          obtain ⟨r, tr', rfl, hr⟩ := Cmd.runs_op.mp h
          obtain ⟨regions', rfl, hd⟩ := hrest hr
          exact ⟨_, rfl, .dump r hskip hd⟩

/-- What a successful capture has seen. -/
structure Log where
  entries : List MapsEntry
  status : WaitStatus
  gp : UserRegs
  fp : UserFpregs
  dumps : List (Event CapResp)
  regions : List MemoryRegion
  fds : List FileDescriptor
  detached : Except Errno Unit
  description : Description

/-- Its calls. -/
def Log.trace (l : Log) (pid : Int32) : List (Event CapResp) :=
  ⟨.readMaps pid, .ok l.entries⟩ :: ⟨.pidExists pid, true⟩ :: ⟨.attach pid, .ok ()⟩ ::
    ⟨.waitpid pid, .ok l.status⟩ :: ⟨.getregs pid, .ok l.gp⟩ :: ⟨.getfpregs pid, .ok l.fp⟩ ::
    (l.dumps ++ [⟨.enumerateFds pid, .ok l.fds⟩, ⟨.detach pid, l.detached⟩,
      ⟨.describe pid, l.description⟩])

def Log.frozen (l : Log) : Frozen :=
  { registers := .ofPtrace l.gp l.fp, regions := l.regions.filter (·.data ≠ []), fds := l.fds }

/-- Its snapshot. -/
def Log.snapshot (l : Log) (pid : Int32) : Proto.ProcessSnapshot := build pid l.frozen l.description

/-- The registers have passed `validate`, and the regions have been gone through. -/
structure Log.Valid (l : Log) (checksum : List UInt8 → UInt64) (pid : Int32) : Prop where
  registers : (Registers.ofPtrace l.gp l.fp).validate = .ok ()
  regions : Dumps checksum pid (l.entries.map MapsEntry.region) l.dumps l.regions

theorem captureRegisters_ok {regs : Registers} {s : Unit}
    (h : Cmd.Runs (captureRegisters pid ()) tr (.ok regs, s)) :
    ∃ gp fp, tr = [⟨.getregs pid, .ok gp⟩, ⟨.getfpregs pid, .ok fp⟩] ∧
      regs = .ofPtrace gp fp ∧ (Registers.ofPtrace gp fp).validate = .ok () := by
  rw [captureRegisters] at h
  obtain ⟨r₁, gp, tr₁, rfl, hr₁, h₁⟩ := runs_call_returns h
  obtain rfl := mapErr_eq_ok hr₁
  obtain ⟨r₂, fp, tr₂, rfl, hr₂, h₂⟩ := runs_call_returns h₁
  obtain rfl := mapErr_eq_ok hr₂
  simp only at h₂
  cases hv : (Registers.ofPtrace gp fp).validate with
  | error e =>
      rw [hv] at h₂
      exact nomatch (Cmd.runs_ret.mp h₂).2
  | ok _ =>
      rw [hv] at h₂
      obtain ⟨rfl, heq⟩ := Cmd.runs_ret.mp h₂
      exact ⟨gp, fp, rfl, Except.ok.inj (Prod.mk.inj heq).1, hv⟩

theorem attach_ok {lock : ProcessLock} {s : Unit}
    (h : Cmd.Runs (ProcessLock.attach pid ()) tr (.ok lock, s)) :
    ∃ status, lock = ⟨pid, false⟩ ∧
      tr = [⟨.pidExists pid, true⟩, ⟨.attach pid, .ok ()⟩, ⟨.waitpid pid, .ok status⟩] := by
  rw [ProcessLock.attach] at h
  obtain ⟨found, b, tr₁, rfl, hr₁, h₁⟩ := runs_call_returns h
  obtain rfl := Except.ok.inj hr₁
  cases found with
  | false => exact nomatch (Cmd.runs_ret.mp h₁).2
  | true =>
      simp only [if_true] at h₁
      rw [attachStopped] at h₁
      obtain ⟨r₂, u, tr₂, rfl, hr₂, h₂⟩ := runs_call_returns h₁
      obtain rfl : r₂ = .ok () := by
        cases r₂ with
        | error e => exact nomatch hr₂
        | ok _ => rfl
      obtain ⟨r₃, status, tr₃, rfl, hr₃, h₃⟩ := runs_call_returns h₂
      obtain rfl := mapErr_eq_ok hr₃
      obtain ⟨rfl, heq⟩ := Cmd.runs_ret.mp h₃
      exact ⟨status, Except.ok.inj (Prod.mk.inj heq).1, rfl⟩

theorem readFrozen_ok {regions : List MemoryRegion} {f : Frozen} {s : Unit}
    (h : Cmd.Runs (readFrozen checksum pid regions ()) tr (.ok f, s)) :
    ∃ gp fp dumps regions' fds,
      tr = ⟨.getregs pid, .ok gp⟩ :: ⟨.getfpregs pid, .ok fp⟩ ::
        (dumps ++ [⟨.enumerateFds pid, .ok fds⟩]) ∧
      (Registers.ofPtrace gp fp).validate = .ok () ∧
      Dumps checksum pid regions dumps regions' ∧
      f = { registers := .ofPtrace gp fp, regions := regions'.filter (·.data ≠ []), fds } := by
  rw [readFrozen] at h
  obtain ⟨tr₁, registers, s₁, tr₂, hregs, h₁, rfl⟩ := runs_bind_returns h
  obtain ⟨gp, fp, rfl, rfl, hvalid⟩ := captureRegisters_ok hregs
  obtain ⟨tr₃, regions', s₂, tr₄, hdumps, h₂, rfl⟩ := runs_bind_returns h₁
  obtain ⟨regions'', heq₂, hd⟩ := dumpRegions_runs hdumps
  obtain rfl := Except.ok.inj (Prod.mk.inj heq₂).1
  obtain ⟨r, fds, tr₅, rfl, hr, h₃⟩ := runs_call_returns h₂
  obtain rfl : r = .ok fds := hr
  obtain ⟨rfl, heq⟩ := Cmd.runs_ret.mp h₃
  exact ⟨gp, fp, tr₃, regions', fds, rfl, hvalid, hd, Except.ok.inj (Prod.mk.inj heq).1⟩

theorem capture_ok {s : Proto.ProcessSnapshot}
    (h : Cmd.Runs (capture checksum pid ()) tr (.ok s, ())) :
    ∃ l : Log, l.Valid checksum pid ∧ tr = l.trace pid ∧ s = l.snapshot pid := by
  rw [capture] at h
  obtain ⟨r₁, entries, tr₁, rfl, hr₁, h₁⟩ := runs_call_returns h
  obtain rfl : r₁ = .ok entries := hr₁
  rw [captureMaps] at h₁
  obtain ⟨tr₂, lock, s₁, tr₃, hattach, h₂, rfl⟩ := runs_bind_returns h₁
  obtain ⟨status, rfl, rfl⟩ := attach_ok hattach
  obtain ⟨tr₄, f, s₂, tr₅, hlock, h₃, rfl⟩ := runs_bind_returns h₂
  obtain ⟨tr₆, result, s₃, tr₇, u, hread, hdrop, hfinish, rfl⟩ := runs_tryFinally.mp hlock
  simp only [ProcessLock.drop, Bool.false_eq_true, if_false] at hdrop
  obtain ⟨detached, tr₈, rfl, hret⟩ := Cmd.runs_op.mp hdrop
  obtain ⟨rfl, heq₁⟩ := Cmd.runs_ret.mp hret
  obtain rfl := (Prod.mk.inj heq₁).1
  obtain rfl : .ok f = result := hfinish
  obtain ⟨gp, fp, dumps, regions, fds, rfl, hvalid, hd, rfl⟩ := readFrozen_ok hread
  obtain ⟨description, d, tr₉, rfl, hr₂, h₄⟩ := runs_call_returns h₃
  obtain rfl := Except.ok.inj hr₂
  obtain ⟨rfl, heq⟩ := Cmd.runs_ret.mp h₄
  refine ⟨⟨entries, status, gp, fp, dumps, regions, fds, detached, description⟩, ⟨hvalid, hd⟩, ?_,
    Except.ok.inj (Prod.mk.inj heq).1⟩
  simp only [Log.trace, List.cons_append, List.nil_append, List.append_assoc]

theorem Dumps.runs {regions regions' : List MemoryRegion}
    (h : Dumps checksum pid regions tr regions') :
    Cmd.Runs (dumpRegions checksum pid regions ()) tr (.ok regions', ()) := by
  induction h with
  | nil => exact .ret _
  | skip hskip _ ih =>
      rw [dumpRegions, dumpRegion, hskip, if_pos rfl]
      exact runs_pure_bind.mpr (runs_map ih)
  | dump r hskip _ ih =>
      rw [dumpRegions, dumpRegion, hskip, if_neg Bool.false_ne_true]
      exact runs_call_ok rfl (runs_map ih)

/-- Every such log is one of a run. -/
theorem Log.Valid.runs {l : Log} (h : l.Valid checksum pid) :
    Cmd.Runs (capture checksum pid ()) (l.trace pid) (.ok (l.snapshot pid), ()) := by
  have hregs : Cmd.Runs (captureRegisters pid ())
      [⟨.getregs pid, .ok l.gp⟩, ⟨.getfpregs pid, .ok l.fp⟩] (.ok (.ofPtrace l.gp l.fp), ()) := by
    rw [captureRegisters]
    refine runs_call_ok rfl (runs_call_ok rfl ?_)
    simp only [h.registers]
    exact .ret _
  have hread : Cmd.Runs (readFrozen checksum pid (l.entries.map MapsEntry.region) ())
      ([⟨.getregs pid, .ok l.gp⟩, ⟨.getfpregs pid, .ok l.fp⟩] ++
        (l.dumps ++ [⟨.enumerateFds pid, .ok l.fds⟩])) (.ok l.frozen, ()) :=
    runs_bind_ok hregs (runs_bind_ok h.regions.runs (runs_call_ok rfl (.ret _)))
  have hattach : Cmd.Runs (ProcessLock.attach pid ())
      [⟨.pidExists pid, true⟩, ⟨.attach pid, .ok ()⟩, ⟨.waitpid pid, .ok l.status⟩]
      (.ok ⟨pid, false⟩, ()) := by
    rw [ProcessLock.attach]
    refine runs_call_ok rfl ?_
    rw [if_pos rfl, attachStopped]
    exact runs_call_ok rfl (runs_call_ok rfl (.ret _))
  have hdrop : Cmd.Runs ((⟨pid, false⟩ : ProcessLock).drop ()) [⟨.detach pid, l.detached⟩]
      (.ok (), ()) := .op _ (.ret _)
  have hlock := (runs_tryFinally (p := (.ok l.frozen, ()))).mpr
    ⟨_, _, _, _, _, hread, hdrop, rfl, rfl⟩
  rw [capture]
  refine runs_call_ok rfl ?_
  have hmaps : Cmd.Runs (captureMaps checksum pid l.entries ()) _ (.ok (l.snapshot pid), ()) :=
    runs_bind_ok hattach (runs_bind_ok hlock (runs_call_ok (r := l.description) rfl (.ret _)))
  simp only [List.cons_append, List.nil_append, List.append_assoc] at hmaps
  exact hmaps

end Runs

end Wraith.Capture

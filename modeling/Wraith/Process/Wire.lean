/-
# `Wraith.Process.Wire` — the snapshot messages on the wire

The numbers and types that `wraith.proto` gives to the fields of a snapshot, and with them its
encoding: `snapshot` is `ProcessSnapshot::encode` and `ProcessSnapshot::decode`.  Fields are written
in the order of their numbers.
-/
import Wraith.Lib.Protobuf
import Wraith.Process.Registers

namespace Wraith.Process.Wire

open Lib Protobuf

/-- `message Registers`. -/
def registers : Message Proto.Registers where
  empty := {}
  slots := [
    scalarSlot 1 uint64 { get := (·.rax), set := fun m x => { m with rax := x } },
    scalarSlot 2 uint64 { get := (·.rbx), set := fun m x => { m with rbx := x } },
    scalarSlot 3 uint64 { get := (·.rcx), set := fun m x => { m with rcx := x } },
    scalarSlot 4 uint64 { get := (·.rdx), set := fun m x => { m with rdx := x } },
    scalarSlot 5 uint64 { get := (·.rdi), set := fun m x => { m with rdi := x } },
    scalarSlot 6 uint64 { get := (·.rsi), set := fun m x => { m with rsi := x } },
    scalarSlot 7 uint64 { get := (·.rbp), set := fun m x => { m with rbp := x } },
    scalarSlot 8 uint64 { get := (·.rsp), set := fun m x => { m with rsp := x } },
    scalarSlot 9 uint64 { get := (·.r8), set := fun m x => { m with r8 := x } },
    scalarSlot 10 uint64 { get := (·.r9), set := fun m x => { m with r9 := x } },
    scalarSlot 11 uint64 { get := (·.r10), set := fun m x => { m with r10 := x } },
    scalarSlot 12 uint64 { get := (·.r11), set := fun m x => { m with r11 := x } },
    scalarSlot 13 uint64 { get := (·.r12), set := fun m x => { m with r12 := x } },
    scalarSlot 14 uint64 { get := (·.r13), set := fun m x => { m with r13 := x } },
    scalarSlot 15 uint64 { get := (·.r14), set := fun m x => { m with r14 := x } },
    scalarSlot 16 uint64 { get := (·.r15), set := fun m x => { m with r15 := x } },
    scalarSlot 17 uint64 { get := (·.rip), set := fun m x => { m with rip := x } },
    scalarSlot 18 uint64 { get := (·.rflags), set := fun m x => { m with rflags := x } },
    scalarSlot 19 uint64 { get := (·.cs), set := fun m x => { m with cs := x } },
    scalarSlot 20 uint64 { get := (·.ss), set := fun m x => { m with ss := x } },
    scalarSlot 21 uint64 { get := (·.ds), set := fun m x => { m with ds := x } },
    scalarSlot 22 uint64 { get := (·.es), set := fun m x => { m with es := x } },
    scalarSlot 23 uint64 { get := (·.fs), set := fun m x => { m with fs := x } },
    scalarSlot 24 uint64 { get := (·.gs), set := fun m x => { m with gs := x } },
    scalarSlot 25 uint64 { get := (·.fsBase), set := fun m x => { m with fsBase := x } },
    scalarSlot 26 uint64 { get := (·.gsBase), set := fun m x => { m with gsBase := x } },
    scalarSlot 27 bytes { get := (·.fpuState), set := fun m x => { m with fpuState := x } }]
  distinct := by decide
  range := by decide
  copied m := by
    repeat refine .cons (scalarSlot_copies rfl) ?_
    exact .nil

/-- `message MemoryRegion`. -/
def memoryRegion : Message Proto.MemoryRegion where
  empty := {}
  slots := [
    scalarSlot 1 uint64 { get := (·.startAddr), set := fun m x => { m with startAddr := x } },
    scalarSlot 2 uint64 { get := (·.endAddr), set := fun m x => { m with endAddr := x } },
    scalarSlot 3 uint64 { get := (·.sizeBytes), set := fun m x => { m with sizeBytes := x } },
    scalarSlot 4 string { get := (·.permissions), set := fun m x => { m with permissions := x } },
    scalarSlot 5 string { get := (·.regionType), set := fun m x => { m with regionType := x } },
    scalarSlot 6 string { get := (·.backingFile), set := fun m x => { m with backingFile := x } },
    scalarSlot 7 uint64 { get := (·.fileOffset), set := fun m x => { m with fileOffset := x } },
    scalarSlot 8 bytes { get := (·.data), set := fun m x => { m with data := x } },
    scalarSlot 9 uint64 { get := (·.checksum), set := fun m x => { m with checksum := x } }]
  distinct := by decide
  range := by decide
  copied m := by
    repeat refine .cons (scalarSlot_copies rfl) ?_
    exact .nil

/-- `message FileDescriptor`. -/
def fileDescriptor : Message Proto.FileDescriptor where
  empty := {}
  slots := [
    scalarSlot 1 uint32 { get := (·.fdNum), set := fun m x => { m with fdNum := x } },
    scalarSlot 2 string { get := (·.fdType), set := fun m x => { m with fdType := x } },
    scalarSlot 3 string { get := (·.path), set := fun m x => { m with path := x } },
    scalarSlot 4 uint64 { get := (·.fileOffset), set := fun m x => { m with fileOffset := x } },
    scalarSlot 5 uint32 { get := (·.flags), set := fun m x => { m with flags := x } }]
  distinct := by decide
  range := by decide
  copied m := by
    repeat refine .cons (scalarSlot_copies rfl) ?_
    exact .nil

/-- `message SnapshotMetadata`. -/
def snapshotMetadata : Message Proto.SnapshotMetadata where
  empty := {}
  slots := [
    scalarSlot 1 string
      { get := (·.machineHostname), set := fun m x => { m with machineHostname := x } },
    scalarSlot 2 string { get := (·.processName), set := fun m x => { m with processName := x } },
    scalarSlot 3 uint64
      { get := (·.processAgeSeconds), set := fun m x => { m with processAgeSeconds := x } },
    scalarSlot 4 uint32 { get := (·.threadCount), set := fun m x => { m with threadCount := x } },
    scalarSlot 5 uint64
      { get := (·.virtualMemoryBytes), set := fun m x => { m with virtualMemoryBytes := x } },
    scalarSlot 6 uint64
      { get := (·.residentMemoryBytes), set := fun m x => { m with residentMemoryBytes := x } }]
  distinct := by decide
  range := by decide
  copied m := by
    repeat refine .cons (scalarSlot_copies rfl) ?_
    exact .nil

/-- `message ProcessSnapshot`. -/
def snapshot : Message Proto.ProcessSnapshot where
  empty := {}
  slots := [
    scalarSlot 1 uint32 { get := (·.pid), set := fun m x => { m with pid := x } },
    scalarSlot 2 uint32 { get := (·.uid), set := fun m x => { m with uid := x } },
    scalarSlot 3 string { get := (·.arch), set := fun m x => { m with arch := x } },
    scalarSlot 4 string
      { get := (·.kernelVersion), set := fun m x => { m with kernelVersion := x } },
    scalarSlot 5 uint64 { get := (·.capturedAtNs), set := fun m x => { m with capturedAtNs := x } },
    messageSlot 6 snapshotMetadata
      { get := (·.metadata), set := fun m x => { m with metadata := x } },
    messageSlot 10 registers { get := (·.registers), set := fun m x => { m with registers := x } },
    repeatedSlot 11 memoryRegion
      { get := (·.memoryRegions), set := fun m x => { m with memoryRegions := x } },
    repeatedSlot 12 fileDescriptor
      { get := (·.fileDescriptors), set := fun m x => { m with fileDescriptors := x } },
    scalarSlot 20 uint64 { get := (·.checksum), set := fun m x => { m with checksum := x } },
    scalarSlot 21 string
      { get := (·.snapshotVersion), set := fun m x => { m with snapshotVersion := x } }]
  distinct := by decide
  range := by decide
  copied m := by
    repeat refine .cons (scalarSlot_copies rfl) ?_
    refine .cons (messageSlot_copies rfl) (.cons (messageSlot_copies rfl) ?_)
    refine .cons (repeatedSlot_copies rfl) (.cons (repeatedSlot_copies rfl) ?_)
    repeat refine .cons (scalarSlot_copies rfl) ?_
    exact .nil

/-! ## Snapshot files -/

/-- What `Capturer::save` writes. -/
def save (s : Proto.ProcessSnapshot) : List UInt8 := snapshot.encode s

/-- `Capturer::load`, once the file is read. -/
def load (path : String) (data : List UInt8) : Except Error Proto.ProcessSnapshot :=
  match snapshot.decode data with
  | some s => .ok s
  | none => .error s!"Failed to decode snapshot from {path}"

theorem load_ok {path : String} {data : List UInt8} {s : Proto.ProcessSnapshot} :
    load path data = .ok s ↔ snapshot.decode data = some s := by
  unfold load
  cases snapshot.decode data with
  | none => exact ⟨fun h => (nomatch h), fun h => (nomatch h)⟩
  | some s' => exact ⟨fun h => congrArg some (Except.ok.inj h), fun h =>
      congrArg Except.ok (Option.some.inj h)⟩

theorem load_save {path : String} {s : Proto.ProcessSnapshot} (h : (save s).length < 2 ^ 64) :
    load path (save s) = .ok s := load_ok.mpr (snapshot.decode_encode h)

end Wraith.Process.Wire

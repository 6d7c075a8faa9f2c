/-
# `Wraith.Process.Proto` — the messages of `wraith.proto`

The snapshot messages, field by field, as `prost` generates them: an absent message field is
`none`, a repeated field a list.
-/

namespace Wraith.Process.Proto

/-- `message Registers`. -/
structure Registers where
  rax : UInt64 := 0
  rbx : UInt64 := 0
  rcx : UInt64 := 0
  rdx : UInt64 := 0
  rdi : UInt64 := 0
  rsi : UInt64 := 0
  rbp : UInt64 := 0
  rsp : UInt64 := 0
  r8 : UInt64 := 0
  r9 : UInt64 := 0
  r10 : UInt64 := 0
  r11 : UInt64 := 0
  r12 : UInt64 := 0
  r13 : UInt64 := 0
  r14 : UInt64 := 0
  r15 : UInt64 := 0
  rip : UInt64 := 0
  rflags : UInt64 := 0
  cs : UInt64 := 0
  ss : UInt64 := 0
  ds : UInt64 := 0
  es : UInt64 := 0
  fs : UInt64 := 0
  gs : UInt64 := 0
  fsBase : UInt64 := 0
  gsBase : UInt64 := 0
  fpuState : List UInt8 := []
  deriving DecidableEq, Repr

/-- `message MemoryRegion`. -/
structure MemoryRegion where
  startAddr : UInt64 := 0
  endAddr : UInt64 := 0
  sizeBytes : UInt64 := 0
  permissions : String := ""
  regionType : String := ""
  backingFile : String := ""
  fileOffset : UInt64 := 0
  data : List UInt8 := []
  checksum : UInt64 := 0
  deriving DecidableEq, Repr

/-- `message FileDescriptor`. -/
structure FileDescriptor where
  fdNum : UInt32 := 0
  fdType : String := ""
  path : String := ""
  fileOffset : UInt64 := 0
  flags : UInt32 := 0
  deriving DecidableEq, Repr

/-- `message SnapshotMetadata`. -/
structure SnapshotMetadata where
  machineHostname : String := ""
  processName : String := ""
  processAgeSeconds : UInt64 := 0
  threadCount : UInt32 := 0
  virtualMemoryBytes : UInt64 := 0
  residentMemoryBytes : UInt64 := 0
  deriving DecidableEq, Repr

/-- `message ProcessSnapshot`. -/
structure ProcessSnapshot where
  pid : UInt32 := 0
  uid : UInt32 := 0
  arch : String := ""
  kernelVersion : String := ""
  capturedAtNs : UInt64 := 0
  metadata : Option SnapshotMetadata := none
  registers : Option Registers := none
  memoryRegions : List MemoryRegion := []
  fileDescriptors : List FileDescriptor := []
  checksum : UInt64 := 0
  snapshotVersion : String := ""
  deriving DecidableEq, Repr

end Wraith.Process.Proto

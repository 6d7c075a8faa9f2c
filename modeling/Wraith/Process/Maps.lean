/-
# `Wraith.Process.Maps` — memory regions

`memory.rs` without the text of `/proc/<pid>/maps`: a line of it is a `MapsEntry` here, its fields
already split, and `MapsEntry.region` is what `parse_maps_line` makes of the fields.  The checksum
is the `crc` crate's, a parameter.
-/
import Wraith.Process.Registers

namespace Wraith.Process

/-- The fields of a line of `/proc/<pid>/maps` that are read. -/
structure MapsEntry where
  start : UInt64
  end_ : UInt64
  perms : String
  offset : UInt64
  pathname : String
  deriving DecidableEq, Repr

/-- `MemoryRegion`. -/
structure MemoryRegion where
  start : UInt64
  end_ : UInt64
  perms : String
  backingFile : Option String
  offset : UInt64
  regionType : String
  data : List UInt8
  checksum : UInt64
  deriving DecidableEq, Repr

/-- `size`. -/
def MemoryRegion.size (r : MemoryRegion) : UInt64 := r.end_ - r.start

/-- `is_readable`. -/
def MemoryRegion.isReadable (r : MemoryRegion) : Bool := r.perms.toList.head? = some 'r'

/-- `classify_region`. -/
def classifyRegion (pathname : String) : String :=
  if pathname = "[heap]" then "heap"
  else if pathname = "[stack]" then "stack"
  else if pathname = "[vdso]" then "vdso"
  else if pathname = "[vsyscall]" then "vsyscall"
  else if pathname = "[vvar]" then "vvar"
  else if pathname.toList.head? = some '/' then "file"
  else if pathname = "" then "anon"
  else "other"

/-- The end of `parse_maps_line`. -/
def MapsEntry.region (e : MapsEntry) : MemoryRegion where
  start := e.start
  end_ := e.end_
  perms := e.perms
  backingFile :=
    if e.pathname.toList.head? = some '/' ∨ e.pathname.toList.head? = some '.' then
      some e.pathname
    else none
  offset := e.offset
  regionType := classifyRegion e.pathname
  data := []
  checksum := 0

/-- `should_skip`. -/
def shouldSkip (region : MemoryRegion) : Bool :=
  if region.size = 0 then true
  else if region.isReadable = false then true
  else region.regionType = "vsyscall" || region.regionType = "vvar"

/-- `region_to_proto`. -/
def regionToProto (r : MemoryRegion) : Proto.MemoryRegion where
  startAddr := r.start
  endAddr := r.end_
  sizeBytes := r.size
  permissions := r.perms
  regionType := r.regionType
  backingFile := r.backingFile.getD ""
  fileOffset := r.offset
  data := r.data
  checksum := r.checksum

/-- A region with its bytes and their checksum. -/
def MemoryRegion.filled (checksum : List UInt8 → UInt64) (r : MemoryRegion) (data : List UInt8) :
    MemoryRegion :=
  { r with data, checksum := checksum data }

/-! ## Descriptors -/

/-- `FdType`. -/
inductive FdType where
  | regular
  | pipe
  | socket
  | device
  | directory
  | other (target : String)
  deriving DecidableEq, Repr

/-- `FdType`'s `Display`. -/
def FdType.display : FdType → String
  | .regular => "regular"
  | .pipe => "pipe"
  | .socket => "socket"
  | .device => "device"
  | .directory => "directory"
  | .other s => s!"other:{s}"

/-- `fd_enum::FileDescriptor`. -/
structure FileDescriptor where
  fd : UInt32
  fdType : FdType
  path : String
  offset : UInt64
  flags : Int32
  deriving DecidableEq, Repr

/-- `fd_to_proto`. -/
def fdToProto (f : FileDescriptor) : Proto.FileDescriptor where
  fdNum := f.fd
  fdType := f.fdType.display
  path := f.path
  fileOffset := f.offset
  flags := f.flags.toUInt32

end Wraith.Process

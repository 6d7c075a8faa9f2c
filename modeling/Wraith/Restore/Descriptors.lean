/-
# `Wraith.Restore.Descriptors` — reopening files

`fd_restore.rs`.  Its `FileDescriptor` is not the one of `wraith.proto`: the type is a number there
and the flags are called `open_flags`.  It has a type of its own here, `FdSpec`.

Files are opened by the restorer, in its own descriptor table.
-/
import Wraith.Restore.Injector

namespace Wraith.Restore

open Lib Script Process

/-- The `FileDescriptor` that `fd_restore.rs` reads. -/
structure FdSpec where
  fdNum : UInt32
  fdType : Int32
  path : String
  fileOffset : UInt64
  openFlags : Int32
  deriving DecidableEq, Repr

/-- `file_descriptor::FdType`. -/
inductive FdType where
  | regular
  | pipe
  | socket
  | device
  | directory
  | other
  deriving DecidableEq, Repr

/-- `try_from`, and `Other` for what is no type. -/
def FdType.ofInt (n : Int32) : FdType :=
  if n = 0 then .regular
  else if n = 1 then .pipe
  else if n = 2 then .socket
  else if n = 3 then .device
  else if n = 4 then .directory
  else .other

/-- `FdOutcome`. -/
inductive FdOutcome where
  | restored (fdNum : UInt32) (osFd : Int32)
  | skipped (fdNum : UInt32) (reason : String)
  | failed (fdNum : UInt32) (error : Error)
  deriving DecidableEq, Repr

/-- `RestoreReport`. -/
structure RestoreReport where
  restored : List FdOutcome := []
  skipped : List FdOutcome := []
  failed : List FdOutcome := []
  deriving DecidableEq, Repr

/-- `add`. -/
def RestoreReport.add (report : RestoreReport) : FdOutcome → RestoreReport
  | .restored n fd => { report with restored := report.restored ++ [.restored n fd] }
  | .skipped n reason => { report with skipped := report.skipped ++ [.skipped n reason] }
  | .failed n error => { report with failed := report.failed ++ [.failed n error] }

/-- `has_failures`. -/
def RestoreReport.hasFailures (report : RestoreReport) : Bool := !report.failed.isEmpty

/-! ## Flags of `open` -/

def oAccmode : Int32 := 3

def oRdonly : Int32 := 0

def oWronly : Int32 := 1

def oRdwr : Int32 := 2

def oAppend : Int32 := 0o2000

def oDirectory : Int32 := 0o200000

def oCloexec : Int32 := 0o2000000

/-- The options a regular file is opened with: always for reading. -/
def regularOptions (openFlags : Int32) : OpenOptions :=
  let accessMode := openFlags &&& oAccmode
  { read := true
    write := accessMode = oWronly || accessMode = oRdwr
    append := openFlags &&& oAppend ≠ 0
    customFlags := openFlags &&& oCloexec }

/-! ## `FdRestorer` -/

/-- Open and seek; a file that cannot be positioned is dropped. -/
def openRegular (spec : FdSpec) : Rest Int32 := do
  let osFd ← call (.openFile spec.path (regularOptions spec.openFlags))
    (mapErr s!"open {debugStr spec.path}")
  tryExcept
    (call (.seek osFd spec.fileOffset)
      (mapErr s!"seek to {spec.fileOffset} in {debugStr spec.path}"))
    fun e => some do
      call (.close osFd) fun _ => .ok ()
      raise e
  pure osFd

/-- `CString::new`. -/
def cString (path : String) : Except Error String :=
  match (bytesOf path).findIdx? (· = 0) with
  | some i => .error <| "path contains null byte: nul byte found in provided data at position: " ++
      s!"{i}"
  | none => .ok path

def openDirectory (spec : FdSpec) : Rest Int32 := do
  let path ← ofExcept (cString spec.path)
  call (.openDirectory path (oDirectory ||| oRdonly ||| oCloexec))
    (mapErr s!"open directory {debugStr spec.path}")

/-- The outcome of an opening. -/
def outcome (fdNum : UInt32) (result : Rest Int32) : Rest FdOutcome :=
  tryExcept (result >>= fun osFd => pure (.restored fdNum osFd)) fun e =>
    some (pure (.failed fdNum e))

/-- `restore_regular`. -/
def restoreRegular (spec : FdSpec) : Rest FdOutcome :=
  if spec.path = "" then
    pure (.skipped spec.fdNum "regular file FD has no path (deleted or anonymous)")
  else outcome spec.fdNum (openRegular spec)

/-- `restore_directory`. -/
def restoreDirectory (spec : FdSpec) : Rest FdOutcome :=
  if spec.path = "" then pure (.skipped spec.fdNum "directory FD has no path")
  else outcome spec.fdNum (openDirectory spec)

/-- `restore_one`. -/
def restoreOne (spec : FdSpec) : Rest FdOutcome :=
  match FdType.ofInt spec.fdType with
  | .regular => restoreRegular spec
  | .pipe => pure (.skipped spec.fdNum <|
      s!"pipe FDs cannot be restored across machines in v1 (path: {debugStr spec.path}) — " ++
        "app must reopen")
  | .socket => pure (.skipped spec.fdNum <|
      s!"socket FDs not restored in v1 (path: {debugStr spec.path}) — " ++
        "planned for Phase 8.2")
  | .device => pure (.skipped spec.fdNum <|
      s!"device FD {spec.fdNum} ({debugStr spec.path}) not restored — " ++
        "device may not exist on destination")
  | .directory => restoreDirectory spec
  | .other => pure (.skipped spec.fdNum s!"unknown FD type for FD {spec.fdNum} — skipping")

/-- `restore_all`, with the report so far. -/
def restoreAll : List FdSpec → RestoreReport → Rest RestoreReport
  | [], report => pure report
  | spec :: specs, report => do
      let o ← restoreOne spec
      restoreAll specs (report.add o)

/-! ## The calls -/

/-- A call on the restorer's own descriptors. -/
def RestOp.OnFiles : RestOp → Prop
  | .openFile _ _ => True
  | .seek _ _ => True
  | .openDirectory _ _ => True
  | .close _ => True
  | _ => False

theorem outcome_uses {p : RestOp → Prop} {n : UInt32} {c : Rest Int32} (h : Uses p c) :
    Uses p (outcome n c) :=
  .tryExcept (.bind h fun _ => .pure) fun _ _ hd => Option.some.inj hd ▸ .pure

theorem openRegular_uses {spec : FdSpec} : Uses RestOp.OnFiles (openRegular spec) :=
  .bind (.call trivial) fun _ => .bind
    (.tryExcept (.call trivial) fun _ _ hd => Option.some.inj hd ▸ .bind (.call trivial)
      fun _ => .raise)
    fun _ => .pure

theorem restoreOne_uses {spec : FdSpec} : Uses RestOp.OnFiles (restoreOne spec) := by
  unfold restoreOne restoreRegular restoreDirectory
  split
  · split
    · exact .pure
    · exact outcome_uses openRegular_uses
  · exact .pure
  · exact .pure
  · exact .pure
  · split
    · exact .pure
    · exact outcome_uses (.bind .ofExcept fun _ => .call trivial)
  · exact .pure

theorem restoreAll_uses {fds : List FdSpec} {report : RestoreReport} :
    Uses RestOp.OnFiles (restoreAll fds report) := by
  induction fds generalizing report with
  | nil => exact .pure
  | cons spec specs ih => exact .bind restoreOne_uses fun _ => ih

end Wraith.Restore

/-
# `Wraith.Capture.Commands` — the commands of `wraith-capturer`

`cmd_capture` and `cmd_resume` of `main.rs`.  The program exits 0 when its command has returned
`Ok`, and 1 when it has not.  A capture that returns has attached to its target.
-/
import Wraith.Capture.Release

namespace Wraith.Capture

open Lib Script Process

variable (checksum : List UInt8 → UInt64)

/-- `cmd_capture`; `saved` is what has come of writing the file. -/
def cmdCapture (saved : Except Error Unit) (pid : Int32) : Cap Unit := do
  let _ ← capture checksum pid
  ofExcept saved

/-- Attach, detach with `?`, and drop. -/
def resumeFound (pid : Int32) : Cap Unit := do
  let lock ← ProcessLock.attach pid
  lock.scope [true]

/-- `cmd_resume`. -/
def cmdResume (pid : Int32) : Cap Unit := do
  let found : Bool ← call (.pidExists pid) fun r => .ok r
  if found then resumeFound pid else raise (errProcessNotFound pid)

/-- No PTRACE_ATTACH has succeeded. -/
def Unattached (tr : List (Event CapResp)) : Prop := ∀ pid, ⟨.attach pid, .ok ()⟩ ∉ tr

variable {checksum} {saved : Except Error Unit} {pid : Int32} {tr : List (Event CapResp)}

theorem cmdCapture_attaches (h : Cmd.Runs (cmdCapture checksum saved pid ()) tr (.ok (), ())) :
    ¬ Unattached tr := by
  obtain ⟨tr₁, s, u, tr₂, hcapture, -, rfl⟩ := runs_bind_returns h
  obtain ⟨l, -, rfl, -⟩ := capture_ok hcapture
  exact fun hnone => hnone pid (List.mem_append_left _ (.tail _ (.tail _ (.head _))))

end Wraith.Capture

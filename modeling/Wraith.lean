import Wraith.Lib.Assign
import Wraith.Lib.BigEndian
import Wraith.Lib.Cmd
import Wraith.Lib.Patch
import Wraith.Lib.Script
import Wraith.Lib.System
import Wraith.Lib.Interleave
import Wraith.Lib.Pool
import Wraith.Lib.Memory
import Wraith.Lib.Triple
import Wraith.Lib.Effects
import Wraith.Lib.History
import Wraith.Lib.Custody
import Wraith.Lib.Protobuf
import Wraith.Lib.Text
import Wraith.Lib.Radix
import Wraith.Transport.Protocol
import Wraith.Transport.Server
import Wraith.Transport.Completeness
import Wraith.Delta
import Wraith.Delta.Detect
import Wraith.Transport.Client
import Wraith.Transport.Session
import Wraith.Transport.Transfer
import Wraith.Transport.Delivery
import Wraith.Transport.Sending
import Wraith.Transport.Conformance
import Wraith.Transport.Codec
import Wraith.Transport.Retry
import Wraith.Transport.Blocks
import Wraith.Transport.Aborts
import Wraith.Transport.Numerals
import Wraith.Transport.Flags
import Wraith.Control.Strings
import Wraith.Control.Exceptions
import Wraith.Control.Teleporter
import Wraith.Control.Rules
import Wraith.Control.Ledger
import Wraith.Control.Run
import Wraith.Control.Commit
import Wraith.Control.Duplicates
import Wraith.Control.Leftovers
import Wraith.Control.Rollback
import Wraith.Control.Numbers
import Wraith.Control.Checks
import Wraith.Control.Picture
import Wraith.Control.CommandLine
import Wraith.Process.Proto
import Wraith.Process.Registers
import Wraith.Process.Maps
import Wraith.Process.Ptrace
import Wraith.Process.MapsText
import Wraith.Process.FdInfo
import Wraith.Process.Wire
import Wraith.Capture.Capturer
import Wraith.Capture.Descriptors
import Wraith.Capture.Release
import Wraith.Capture.Commands
import Wraith.Capture.Tracked
import Wraith.Capture.Instant
import Wraith.Control.Unfrozen
import Wraith.Control.Held
import Wraith.Control.Isolation
import Wraith.Control.Cli
import Wraith.Control.Agenda
import Wraith.Control.Shipped
import Wraith.Control.Dataflow
import Wraith.Control.Preflight
import Wraith.Control.CheckCommand
import Wraith.Process.Status
import Wraith.Control.Sizes
import Wraith.Restore.Layout
import Wraith.Restore.Extent
import Wraith.Restore.Injector
import Wraith.Restore.Descriptors
import Wraith.Restore.Restorer
import Wraith.Restore.Report
import Wraith.Restore.Kernel
import Wraith.Restore.Injection
import Wraith.Restore.Regions
import Wraith.Restore.Undisturbed
import Wraith.Restore.Transparent
import Wraith.Restore.Malformed
import Wraith.Restore.Site
import Wraith.Restore.Handover
import Wraith.Restore.Truthful
import Wraith.Restore.Accounts
import Wraith.Restore.Assignment
import Wraith.Restore.Orphans
import Wraith.Restore.Partial
import Wraith.Restore.RoundTrip
import Wraith.Migration
import Wraith.Orchestration

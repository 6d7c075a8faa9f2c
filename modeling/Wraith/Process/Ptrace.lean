/-
# `Wraith.Process.Ptrace` — what system calls answer

The vocabulary of `nix` that capture and restore share: errors, signals, wait statuses.
-/
import Wraith.Lib.Text
import Wraith.Process.Maps

namespace Wraith.Process

open Lib

/-- Ranges of characters that do not print: control and format characters, private use, and the
separators but for the space. -/
def unprintable : List (Nat × Nat) :=
  [(0, 0x1F), (0x7F, 0xA0), (0xAD, 0xAD), (0x600, 0x605), (0x61C, 0x61C), (0x6DD, 0x6DD),
    (0x70F, 0x70F), (0x890, 0x891), (0x8E2, 0x8E2), (0x1680, 0x1680), (0x180E, 0x180E),
    (0x2000, 0x200F), (0x2028, 0x202F), (0x205F, 0x206F), (0x3000, 0x3000), (0xE000, 0xF8FF),
    (0xFEFF, 0xFEFF), (0xFFF9, 0xFFFB), (0x110BD, 0x110BD), (0x110CD, 0x110CD), (0x13430, 0x1343F),
    (0x1BCA0, 0x1BCA3), (0x1D173, 0x1D17A), (0xE0001, 0xE0001), (0xE0020, 0xE007F),
    (0xF0000, 0x10FFFF)]

/-- `is_printable`, which is not told of unassigned characters here. -/
def isPrintable (c : Char) : Bool :=
  unprintable.all fun range => c.toNat < range.1 || range.2 < c.toNat

/-- A character in a string's `Debug`.  Combining marks are left as they are. -/
def debugChar (c : Char) : String :=
  if c = '"' then "\\\""
  else if c = '\\' then "\\\\"
  else if c = '\n' then "\\n"
  else if c = '\r' then "\\r"
  else if c = '\t' then "\\t"
  else if c.toNat = 0 then "\\0"
  else if isPrintable c then c.toString
  else "\\u\x7b" ++ String.ofList (Nat.toDigits 16 c.toNat) ++ "\x7d"

/-- `{:?}` of a string. -/
def debugStr (s : String) : String := "\"" ++ String.join (s.toList.map debugChar) ++ "\""

theorem debugChar_printable {c d : Char} (h : d ∈ (debugChar c).toList) : isPrintable d = true := by
  have hopen : ∀ d ∈ "\\u\x7b".toList, isPrintable d = true := List.all_eq_true.mp rfl
  have hclose : ∀ d ∈ "\x7d".toList, isPrintable d = true := List.all_eq_true.mp rfl
  have hdigits : ∀ d ∈ Nat.toDigits 16 c.toNat, isPrintable d = true :=
    Text.mem_toDigits (by decide) (by decide)
  revert d
  unfold debugChar
  iterate 6
    split
    · exact List.all_eq_true.mp rfl _
  split
  case isTrue hprint =>
    intro d hd
    rw [Char.toString, String.toList_singleton, List.mem_singleton] at hd
    rwa [hd]
  case isFalse =>
    intro d hd
    rw [String.toList_append, String.toList_append] at hd
    obtain hd | hd := List.mem_append.mp hd
    · obtain hd | hd := List.mem_append.mp hd
      · exact hopen d hd
      · rw [String.toList_ofList] at hd
        exact hdigits d hd
    · exact hclose d hd

/-- What a `Debug` writes prints, whatever the string. -/
theorem debugStr_printable {s : String} : ∀ d ∈ (debugStr s).toList, isPrintable d = true := by
  have hquote : ∀ d ∈ "\"".toList, isPrintable d = true := List.all_eq_true.mp rfl
  intro d hd
  rw [debugStr, String.toList_append, String.toList_append] at hd
  obtain hd | hd := List.mem_append.mp hd
  · obtain hd | hd := List.mem_append.mp hd
    · exact hquote d hd
    · rw [String.toList_join] at hd
      obtain ⟨text, htext, hd⟩ := List.mem_flatMap.mp hd
      obtain ⟨c, -, rfl⟩ := List.mem_map.mp htext
      exact debugChar_printable hd
  · exact hquote d hd

/-- `nix::errno::Errno`, as far as it is told apart, and otherwise by its text. -/
inductive Errno where
  | eperm
  | eacces
  | other (text : String)
  deriving DecidableEq, Repr

/-- `Errno`'s `Display`. -/
def Errno.text : Errno → String
  | .eperm => "EPERM: Operation not permitted"
  | .eacces => "EACCES: Permission denied"
  | .other text => text

/-- An error by its number: what `io::Error::from_raw_os_error` prints, without the C library's
words. -/
def Errno.ofRaw (n : Int32) : Errno := .other s!"os error {n}"

/-- `nix::sys::signal::Signal`, by its name where it is not told apart. -/
inductive Signal where
  | sigstop
  | sigtrap
  | other (name : String)
  deriving DecidableEq, Repr

/-- `Signal`'s `Debug`. -/
def Signal.debug : Signal → String
  | .sigstop => "SIGSTOP"
  | .sigtrap => "SIGTRAP"
  | .other name => name

/-- `nix::sys::wait::WaitStatus`. -/
inductive WaitStatus where
  | stopped (sig : Signal)
  | other (debug : String)
  deriving DecidableEq, Repr

/-- The result of a call, with the error the caller makes of its `Errno`. -/
def mapErr {α : Type} (context : String) (r : Except Errno α) : Except Error α :=
  r.mapError fun e => s!"{context}: {e.text}"

@[simp] theorem mapErr_ok {α : Type} (context : String) (a : α) :
    mapErr context (.ok a) = .ok a := rfl

@[simp] theorem mapErr_error {α : Type} (context : String) (e : Errno) :
    mapErr context (.error e : Except Errno α) = .error s!"{context}: {e.text}" := rfl

theorem mapErr_eq_ok {α : Type} {context : String} {r : Except Errno α} {a : α}
    (h : mapErr context r = .ok a) : r = .ok a := by
  cases r with
  | error e => exact nomatch h
  | ok b => exact congrArg Except.ok (Except.ok.inj h)

end Wraith.Process

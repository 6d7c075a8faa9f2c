/-
# `Wraith.Process.Status` — the text of `/proc/<pid>/status`

`parse_status_field` of `snapshot.rs` and the resident size that is taken from it.  The kernel
writes a size in kB behind its key, in a column of eight; `parseStatusKb_text` says that the number
comes back whatever stands around the line.
-/
import Wraith.Process.FdInfo

namespace Wraith.Process

open Lib

/-! ## The parser -/

/-- `parse_status_field`; `none` is a file that could not be read. -/
def parseStatusField (content : Option String) (field : String) : Option (List Char) := do
  let text ← content
  let line ← (linesFrom [] text.toList).find? fun l => field.toList.isPrefixOf l
  pure (Text.trim isWhitespace (line.drop field.toList.length))

/-- The first word of a field as a number below `bound`. -/
def statusNumber (bound : Nat) (content : Option String) (field : String) : Option Nat := do
  let value ← parseStatusField content field
  let word ← (Text.words isWhitespace value).head?
  Radix.readUnsigned 10 bound word

/-- `parse_status_kb`. -/
def parseStatusKb (content : Option String) (field : String) : Option UInt64 :=
  (statusNumber (2 ^ 64) content field).map UInt64.ofNat

/-- `vm_rss_bytes`. -/
def vmRssBytes (content : Option String) : UInt64 := (parseStatusKb content "VmRSS:").getD 0 * 1024

example : vmRssBytes (some "Name:\tworker\nVmRSS:\t    2048 kB\nThreads:\t1\n") = 2097152 := by
  decide

/-! ## The kernel's format -/

/-- A file with the line of a size: lines in front of it that begin otherwise, and anything behind.
-/
structure StatusFile (key : String) where
  before : List (List Char)
  blanks : Nat
  kb : Nat
  rest : List Char
  kb_lt : kb < 2 ^ 51
  other : ∀ line ∈ before, '\n' ∉ line ∧ '\r' ∉ line ∧ ¬ key.toList <+: line

namespace StatusFile

variable {key : String} (f : StatusFile key)

/-- What stands behind the key. -/
def value : List Char := Nat.toDigits 10 f.kb ++ [' ', 'k', 'B']

def line : List Char := key.toList ++ '\t' :: (List.replicate f.blanks ' ' ++ f.value)

def lines : List (List Char) := f.before ++ [f.line]

def text : List Char := f.lines.flatMap (fun line => line ++ ['\n']) ++ f.rest

end StatusFile

/-- A key is a word. -/
def IsKey (key : String) : Prop := ∀ c ∈ key.toList, isWhitespace c = false

/-! ## Nothing is lost -/

namespace StatusFile

variable {key : String} (f : StatusFile key)

theorem kb_word : Text.IsWord isWhitespace (Nat.toDigits 10 f.kb) :=
  digits_word (by decide) (by decide)

theorem words_value : Text.words isWhitespace f.value = [Nat.toDigits 10 f.kb, ['k', 'B']] := by
  have hwords := Text.words_row [([' '], ['k', 'B'])] [] f.kb_word
    (fun x hx => by
      obtain rfl := List.mem_singleton.mp hx
      exact ⟨List.cons_ne_nil _ _, Text.forall_of_all (by decide), List.cons_ne_nil _ _,
        Text.forall_of_all (by decide)⟩) (List.forall_mem_nil _)
  exact hwords

theorem value_head : ∀ c, f.value.head? = some c → isWhitespace c = false := by
  intro c hc
  cases hdigits : Nat.toDigits 10 f.kb with
  | nil => exact absurd hdigits Nat.toDigits_ne_nil
  | cons d digits =>
      rw [value, hdigits] at hc
      obtain rfl := Option.some.inj hc
      exact f.kb_word.2 d (hdigits ▸ .head _)

theorem value_last : f.value.getLast? = some 'B' := by
  rw [value, List.getLast?_append_of_ne_nil _ (List.cons_ne_nil _ _)]
  rfl

/-- What stands in front of the number. -/
theorem blank_padding : ∀ c ∈ '\t' :: List.replicate f.blanks ' ', isWhitespace c = true := by
  intro c hc
  obtain rfl | hc := List.mem_cons.mp hc
  · decide
  · rw [(List.mem_replicate.mp hc).2]
    decide

theorem trim_value :
    Text.trim isWhitespace ('\t' :: (List.replicate f.blanks ' ' ++ f.value)) = f.value := by
  have htrim := Text.trim_eq f.blank_padding (List.forall_mem_nil _) f.value_head fun c hc => by
    obtain rfl := Option.some.inj (f.value_last.symm.trans hc)
    decide
  rwa [List.append_nil, List.cons_append] at htrim

theorem line_unbroken (hkey : IsKey key) {c : Char} (hc : isWhitespace c = true) (htab : c ≠ '\t')
    (hblank : c ≠ ' ') : c ∉ f.line := by
  intro hmem
  obtain hmem | hmem := List.mem_append.mp hmem
  · rw [hkey c hmem] at hc
    cases hc
  obtain rfl | hmem := List.mem_cons.mp hmem
  · exact htab rfl
  obtain hmem | hmem := List.mem_append.mp hmem
  · exact hblank (List.mem_replicate.mp hmem).2
  obtain hmem | hmem := List.mem_append.mp hmem
  · rw [f.kb_word.2 c hmem] at hc
    cases hc
  · simp only [List.mem_cons, List.not_mem_nil, or_false] at hmem
    obtain rfl | rfl | rfl := hmem
    · exact hblank rfl
    · cases hc
    · cases hc

/-- All lines up to that of the size are as they stand between line breaks. -/
theorem lines_whole (hkey : IsKey key) : ∀ line ∈ f.lines, '\n' ∉ line ∧ '\r' ∉ line := by
  intro line hmem
  obtain hmem | hmem := List.mem_append.mp hmem
  · exact ⟨(f.other line hmem).1, (f.other line hmem).2.1⟩
  · obtain rfl := List.mem_singleton.mp hmem
    exact ⟨f.line_unbroken hkey (by decide) (by decide) (by decide),
      f.line_unbroken hkey (by decide) (by decide) (by decide)⟩

theorem linesFrom_text (hkey : IsKey key) : linesFrom [] f.text = f.lines ++ linesFrom [] f.rest :=
  linesFrom_flatMap fun line hmem => ⟨(f.lines_whole hkey line hmem).1, fun hlast =>
    (f.lines_whole hkey line hmem).2 (List.mem_of_getLast? hlast)⟩

theorem line_prefix : key.toList <+: f.line := List.prefix_append _ _

/-- The line is found. -/
theorem find_line (rest : List (List Char)) :
    (f.lines ++ rest).find? (fun l => key.toList.isPrefixOf l) = some f.line := by
  have hbefore : f.before.find? (fun l => key.toList.isPrefixOf l) = none :=
    List.find?_eq_none.mpr fun line hmem hp =>
      (f.other line hmem).2.2 (List.isPrefixOf_iff_prefix.mp hp)
  rw [lines, List.append_assoc, List.find?_append, hbefore, Option.none_or, List.singleton_append,
    List.find?_cons_of_pos (List.isPrefixOf_iff_prefix.mpr f.line_prefix)]

/-- **The size comes back**, whatever stands around its line. -/
theorem parseStatusKb_text (hkey : IsKey key) :
    parseStatusKb (some (String.ofList f.text)) key = some (UInt64.ofNat f.kb) := by
  have hfield : parseStatusField (some (String.ofList f.text)) key = some f.value := by
    simp only [parseStatusField, Option.bind_eq_bind, Option.bind_some, String.toList_ofList,
      f.linesFrom_text hkey, f.find_line]
    rw [line, List.drop_left, trim_value]
    rfl
  have hread : Radix.readUnsigned 10 (2 ^ 64) (Nat.toDigits 10 f.kb) = some f.kb :=
    Radix.readUnsigned_toDigits (by decide) (by decide) (Nat.lt_trans f.kb_lt (by decide))
  simp only [parseStatusKb, statusNumber, hfield, Option.bind_eq_bind, Option.bind_some,
    f.words_value, List.head?_cons, hread, Option.map_some]

/-- In bytes; nothing overflows. -/
theorem vmRssBytes_text (f : StatusFile "VmRSS:") :
    (vmRssBytes (some (String.ofList f.text))).toNat = f.kb * 1024 := by
  have hkb : f.kb < 2 ^ 51 := f.kb_lt
  have hof : (UInt64.ofNat f.kb).toNat = f.kb :=
    UInt64.toNat_ofNat_of_lt' (by show f.kb < 2 ^ 64; omega)
  rw [vmRssBytes, f.parseStatusKb_text (Text.forall_of_all (by decide)), Option.getD_some,
    UInt64.toNat_mul, hof]
  show f.kb * 1024 % 2 ^ 64 = f.kb * 1024
  omega

end StatusFile

end Wraith.Process

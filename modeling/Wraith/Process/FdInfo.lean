/-
# `Wraith.Process.FdInfo` — the text of `/proc/<pid>/fdinfo/<fd>`

`read_fdinfo` of `fd_enum.rs`: of the lines of the file it takes the offset, in decimal, and the
flags, in octal; a number that does not parse becomes 0.  The kernel writes both first, and behind
them what the kind of the file calls for.  `parseFdinfo_text` says that the two numbers come back,
whatever follows.
-/
import Wraith.Lib.Radix
import Wraith.Process.MapsText

namespace Wraith.Process

open Lib

/-! ## The parser -/

/-- `line.strip_prefix("pos:\t").or_else(|| line.strip_prefix("pos:"))`, for a key. -/
def stripKey (key line : List Char) : Option (List Char) :=
  (key ++ ['\t']).isPrefixOf? line <|> key.isPrefixOf? line

/-- `val.trim().parse().unwrap_or(0)`. -/
def offsetField (val : List Char) : UInt64 :=
  match Radix.readUnsigned 10 (2 ^ 64) (Text.trim isWhitespace val) with
  | some n => UInt64.ofNat n
  | none => 0

/-- `i32::from_str_radix(val.trim(), 8).unwrap_or(0)`. -/
def flagsField (val : List Char) : Int32 :=
  match Radix.readSigned 8 (2 ^ 31) (Text.trim isWhitespace val) with
  | some n => Int32.ofInt n
  | none => 0

def posKey : List Char := ['p', 'o', 's', ':']

def flagsKey : List Char := ['f', 'l', 'a', 'g', 's', ':']

/-- One round of the loop. -/
def fdinfoLine (acc : UInt64 × Int32) (line : List Char) : UInt64 × Int32 :=
  match stripKey posKey line with
  | some val => (offsetField val, acc.2)
  | none => match stripKey flagsKey line with
    | some val => (acc.1, flagsField val)
    | none => acc

/-- `read_fdinfo`, of a file that could be read. -/
def parseFdinfo (content : String) : UInt64 × Int32 :=
  (linesFrom [] content.toList).foldl fdinfoLine (0, 0)

example : parseFdinfo "pos:\t4096\nflags:\t0100002\nmnt_id:\t25\n" = (4096, 0o100002) := by decide

/-! ## The kernel's format -/

/-- A line the loop passes over, as it stands between line breaks. -/
structure OtherLine (line : List Char) : Prop where
  unbroken : '\n' ∉ line
  last : line.getLast? ≠ some '\r'
  notPos : ¬ posKey <+: line
  notFlags : ¬ flagsKey <+: line

/-- An open file as the kernel describes it: the offset, the flags, and further lines. -/
structure OpenFile where
  offset : UInt64
  flags : Int32
  more : List (List Char)
  offset_lt : offset.toNat < 2 ^ 63
  flags_nonneg : 0 ≤ flags
  other : ∀ line ∈ more, OtherLine line

namespace OpenFile

variable (f : OpenFile)

def posLine : List Char := posKey ++ '\t' :: Nat.toDigits 10 f.offset.toNat

def flagsLine : List Char := flagsKey ++ '\t' :: '0' :: Nat.toDigits 8 f.flags.toInt.toNat

/-- `seq_show` of `fs/proc/fd.c`. -/
def text : List Char :=
  (f.posLine :: f.flagsLine :: f.more).flatMap fun line => line ++ ['\n']

end OpenFile

/-! ## Nothing is lost -/

theorem stripKey_tab (key val : List Char) : stripKey key (key ++ '\t' :: val) = some val := by
  have hkey : (key ++ ['\t']).isPrefixOf? (key ++ '\t' :: val) = some val :=
    List.isPrefixOf?_eq_some_iff_append_eq.mpr (List.append_cons key '\t' val).symm
  rw [stripKey, hkey]
  rfl

theorem isPrefixOf?_none {key line : List Char} (h : ¬ key <+: line) :
    key.isPrefixOf? line = none := by
  cases hrest : key.isPrefixOf? line with
  | none => rfl
  | some rest => exact absurd ⟨rest, List.isPrefixOf?_eq_some_iff_append_eq.mp hrest⟩ h

theorem stripKey_none {key line : List Char} (h : ¬ key <+: line) : stripKey key line = none := by
  have htab : ¬ key ++ ['\t'] <+: line := fun hp => h ((List.prefix_append _ _).trans hp)
  rw [stripKey, isPrefixOf?_none h, isPrefixOf?_none htab]
  rfl

theorem fdinfoLine_other {line : List Char} (h : OtherLine line) (acc : UInt64 × Int32) :
    fdinfoLine acc line = acc := by
  rw [fdinfoLine, stripKey_none h.notPos, stripKey_none h.notFlags]

theorem foldl_other {lines : List (List Char)} (h : ∀ line ∈ lines, OtherLine line)
    (acc : UInt64 × Int32) : lines.foldl fdinfoLine acc = acc := by
  induction lines with
  | nil => rfl
  | cons line lines ih =>
      rw [List.foldl_cons, fdinfoLine_other (h line (.head _))]
      exact ih fun line' hmem => h line' (.tail _ hmem)

theorem trim_digits {cs : List Char} (h : ∀ c ∈ cs, isWhitespace c = false) :
    Text.trim isWhitespace cs = cs := by
  have htrim : Text.trim isWhitespace ([] ++ cs ++ []) = cs := Text.trim_eq nofun nofun
    (fun c hc => h c (List.mem_of_mem_head? hc)) fun c hc => h c (List.mem_of_getLast? hc)
  rwa [List.append_nil] at htrim

/-- Numerals are words. -/
theorem digits_word {b n : Nat} (hb : 1 < b) (hb' : b ≤ 10) :
    Text.IsWord isWhitespace (Nat.toDigits b n) :=
  Text.isWord_toDigits hb fun d hd => (digitChar_numeric d (by omega)).1

theorem offsetField_digits (n : UInt64) : offsetField (Nat.toDigits 10 n.toNat) = n := by
  rw [offsetField, trim_digits (digits_word (by decide) (by decide)).2,
    Radix.readUnsigned_toDigits (by decide) (by decide) n.toNat_lt]
  exact UInt64.ofNat_toNat

theorem flagsDigits_blankless {n : Nat} :
    ∀ c ∈ '0' :: Nat.toDigits 8 n, isWhitespace c = false := by
  intro c hc
  obtain rfl | hc := List.mem_cons.mp hc
  · decide
  · exact (digits_word (by decide) (by decide)).2 c hc

theorem flagsField_digits {n : Int32} (h : 0 ≤ n) :
    flagsField ('0' :: Nat.toDigits 8 n.toInt.toNat) = n := by
  have hpos : 0 ≤ n.toInt := Int32.le_iff_toInt_le.mp h
  have hlt : n.toInt.toNat < 2 ^ 31 := by
    have := n.toInt_lt
    omega
  rw [flagsField, trim_digits flagsDigits_blankless,
    Radix.readSigned_zero_toDigits (by decide) (by decide) hlt]
  show Int32.ofInt _ = n
  rw [Int.toNat_of_nonneg hpos, Int32.ofInt_toInt]

/-- Lines with line breaks behind them are the lines again. -/
theorem linesFrom_flatMap {rest : List Char} : ∀ {lines : List (List Char)},
    (∀ line ∈ lines, '\n' ∉ line ∧ line.getLast? ≠ some '\r') →
    linesFrom [] (lines.flatMap (fun line => line ++ ['\n']) ++ rest) = lines ++ linesFrom [] rest
  | [], _ => rfl
  | line :: lines, h => by
      obtain ⟨hunbroken, hlast⟩ := h line (.head _)
      rw [List.flatMap_cons, List.append_assoc, List.append_assoc, List.singleton_append,
        linesFrom_line hunbroken hlast, linesFrom_flatMap fun line' hmem => h line' (.tail _ hmem),
        List.cons_append]

/-- A key with a numeral behind it is a line. -/
theorem keyLine {key cs : List Char} {c : Char} (hkey : '\n' ∉ key)
    (hbreak : c ≠ '\n') (hcs : ∀ d ∈ cs, isWhitespace d = false) (hne : cs ≠ []) :
    '\n' ∉ key ++ c :: cs ∧ (key ++ c :: cs).getLast? ≠ some '\r' := by
  constructor
  · intro hmem
    obtain hmem | hmem := List.mem_append.mp hmem
    · exact hkey hmem
    · obtain heq | hmem := List.mem_cons.mp hmem
      · exact hbreak heq.symm
      · exact absurd (hcs _ hmem) (by decide)
  · rw [Text.getLast?_append_cons hne]
    intro hlast
    exact absurd (hcs _ (List.mem_of_getLast? hlast)) (by decide)

theorem OpenFile.lines_text (f : OpenFile) :
    linesFrom [] f.text = f.posLine :: f.flagsLine :: f.more := by
  suffices h : ∀ line ∈ f.posLine :: f.flagsLine :: f.more, '\n' ∉ line ∧
      line.getLast? ≠ some '\r' by
    have hlines : linesFrom [] (f.text ++ []) = (f.posLine :: f.flagsLine :: f.more) ++ [] :=
      linesFrom_flatMap h
    rwa [List.append_nil, List.append_nil] at hlines
  intro line hmem
  obtain rfl | hmem := List.mem_cons.mp hmem
  · exact keyLine (by decide) (by decide) (digits_word (by decide) (by decide)).2
      Nat.toDigits_ne_nil
  · obtain rfl | hmem := List.mem_cons.mp hmem
    · exact keyLine (by decide) (by decide) flagsDigits_blankless (List.cons_ne_nil _ _)
    · exact ⟨(f.other line hmem).unbroken, (f.other line hmem).last⟩

/-- **Both numbers come back**, whatever lines follow. -/
theorem parseFdinfo_text (f : OpenFile) :
    parseFdinfo (String.ofList f.text) = (f.offset, f.flags) := by
  have hpos : ∀ acc : UInt64 × Int32, fdinfoLine acc f.posLine = (f.offset, acc.2) := fun acc => by
    rw [fdinfoLine, OpenFile.posLine, stripKey_tab]
    exact congrArg (·, acc.2) (offsetField_digits f.offset)
  have hflags : ∀ acc : UInt64 × Int32, fdinfoLine acc f.flagsLine = (acc.1, f.flags) :=
    fun acc => by
      have hnot : ¬ posKey <+: f.flagsLine := by
        rintro ⟨rest, hrest⟩
        exact absurd (List.cons.inj hrest).1 (by decide)
      rw [fdinfoLine, stripKey_none hnot, OpenFile.flagsLine, stripKey_tab]
      exact congrArg (acc.1, ·) (flagsField_digits f.flags_nonneg)
  rw [parseFdinfo, String.toList_ofList, f.lines_text, List.foldl_cons, hpos,
    List.foldl_cons, hflags, foldl_other f.other]

end Wraith.Process

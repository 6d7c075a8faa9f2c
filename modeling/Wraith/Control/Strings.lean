/-
# `Wraith.Control.Strings` — the string functions the orchestrator uses

Python's `repr`, `strip`, `split`, `splitlines` and `int`, on lists of characters where they are
recursive.
-/
import Wraith.Lib.Radix

namespace Wraith.Control

open Lib

/-! ## `repr` -/

/-- One character inside the quotes of a `repr`. -/
def reprChar (quote c : Char) : String :=
  if c = quote ∨ c = '\\' then String.ofList ['\\', c]
  else if c = '\n' then "\\n"
  else if c = '\r' then "\\r"
  else if c = '\t' then "\\t"
  else if c.toNat < 32 ∨ c.toNat = 127 then
    let digits := Nat.toDigits 16 c.toNat
    "\\x" ++ String.ofList (List.replicate (2 - digits.length) '0' ++ digits)
  else c.toString

/-- `repr(s)` of a string: single quotes, unless only double quotes avoid an escape. -/
def pyRepr (s : String) : String :=
  let quote := if '\'' ∈ s.toList ∧ '"' ∉ s.toList then '"' else '\''
  quote.toString ++ String.join (s.toList.map (reprChar quote)) ++ quote.toString

/-! ## White space -/

/-- `c.isspace()`. -/
def isSpace (c : Char) : Bool :=
  let n := c.toNat
  (9 ≤ n && n ≤ 13) || (28 ≤ n && n ≤ 32) || n = 0x85 || n = 0xA0 || n = 0x1680 ||
    (0x2000 ≤ n && n ≤ 0x200A) || n = 0x2028 || n = 0x2029 || n = 0x202F || n = 0x205F || n = 0x3000

/-- `s.strip()`. -/
def pyStrip (s : String) : String := String.ofList (Text.trim isSpace s.toList)

/-- `s.split()`. -/
def pySplit (s : String) : List String := (Text.words isSpace s.toList).map String.ofList

theorem pySplit_ofList (cs : List Char) :
    pySplit (String.ofList cs) = (Text.words isSpace cs).map String.ofList := by
  rw [pySplit, String.toList_ofList]

theorem pySplit_append (s s' : String) : pySplit (s ++ " " ++ s') = pySplit s ++ pySplit s' := by
  have hlist : (s ++ " " ++ s').toList = s.toList ++ ' ' :: s'.toList := by
    rw [String.toList_append, String.toList_append, List.append_assoc]
    rfl
  rw [pySplit, hlist, Text.words, Text.wordsFrom_append (by decide), List.map_append]
  rfl

/-- What has no blank in it is one word. -/
theorem pySplit_word {s : String} (h : Text.IsWord isSpace s.toList) : pySplit s = [s] := by
  rw [pySplit, Text.words_word h, List.map_singleton, String.ofList_toList]

/-- Stripping takes no word away. -/
theorem pySplit_pyStrip (s : String) : pySplit (pyStrip s) = pySplit s := by
  rw [pyStrip, pySplit_ofList, Text.words_trim, pySplit]

/-! ## Lines -/

/-- A line boundary of `splitlines`, `\r` and `\n` included. -/
def isLineBreak (c : Char) : Bool :=
  let n := c.toNat
  (10 ≤ n && n ≤ 13) || (28 ≤ n && n ≤ 30) || n = 0x85 || n = 0x2028 || n = 0x2029

/-- The lines of `s.splitlines()`; `line` is what was read of the current one, backwards. -/
def splitLines : (line : List Char) → List Char → List (List Char)
  | [], [] => []
  | line, [] => [line.reverse]
  | line, '\r' :: '\n' :: cs => line.reverse :: splitLines [] cs
  | line, c :: cs =>
      if isLineBreak c then line.reverse :: splitLines [] cs else splitLines (c :: line) cs

/-- `s.splitlines()`. -/
def pySplitlines (s : String) : List String := (splitLines [] s.toList).map String.ofList

/-- No character of a text is a line boundary. -/
def Unbroken (s : String) : Prop := ∀ c ∈ s.toList, isLineBreak c = false

instance (s : String) : Decidable (Unbroken s) := List.decidableBAll _ s.toList

theorem Unbroken.append {s s' : String} (h : Unbroken s) (h' : Unbroken s') :
    Unbroken (s ++ s') := by
  intro c hc
  rw [String.toList_append] at hc
  obtain hc | hc := List.mem_append.mp hc
  · exact h c hc
  · exact h' c hc

theorem splitLines_cons {line cs : List Char} {c : Char} (h : c ≠ '\r') :
    splitLines line (c :: cs) =
    if isLineBreak c then line.reverse :: splitLines [] cs else splitLines (c :: line) cs := by
  rw [splitLines]
  exact fun _ hc => absurd hc h

theorem splitLines_line {line cs rest : List Char} (h : ∀ c ∈ cs, isLineBreak c = false) :
    splitLines line (cs ++ '\n' :: rest) = (line.reverse ++ cs) :: splitLines [] rest := by
  induction cs generalizing line with
  | nil => rw [List.nil_append, splitLines_cons (by decide), if_pos (by decide), List.append_nil]
  | cons c cs ih =>
      have hc := h c (.head _)
      have hr : c ≠ '\r' := fun heq => by rw [heq] at hc; exact absurd hc (by decide)
      rw [List.cons_append, splitLines_cons hr, if_neg (by rw [hc]; exact Bool.false_ne_true),
        ih fun d hd => h d (.tail _ hd), List.reverse_cons, List.append_assoc]
      rfl

/-- A text of lines with their ends. -/
def unlines (lines : List String) : String := String.join (lines.map (· ++ "\n"))

theorem pySplitlines_unlines {lines : List String} (h : ∀ l ∈ lines, Unbroken l) :
    pySplitlines (unlines lines) = lines := by
  induction lines with
  | nil => rfl
  | cons l lines ih =>
      have hl : (unlines (l :: lines)).toList = l.toList ++ '\n' :: (unlines lines).toList := by
        rw [unlines, List.map_cons, String.join_cons, String.toList_append, String.toList_append,
          List.append_assoc]
        rfl
      have hrest := ih fun l' hl' => h l' (.tail _ hl')
      rw [pySplitlines] at hrest ⊢
      rw [hl, splitLines_line (h l (.head _)), List.map_cons, hrest, List.reverse_nil,
        List.nil_append, String.ofList_toList]

/-! ## `int` -/

/-- The zeros of Unicode's runs of ten decimal digits. -/
def decimalZeros : List Nat :=
  [0x30, 0x660, 0x6F0, 0x7C0, 0x966, 0x9E6, 0xA66, 0xAE6, 0xB66, 0xBE6, 0xC66, 0xCE6, 0xD66, 0xDE6,
    0xE50, 0xED0, 0xF20, 0x1040, 0x1090, 0x17E0, 0x1810, 0x1946, 0x19D0, 0x1A80, 0x1A90, 0x1B50,
    0x1BB0, 0x1C40, 0x1C50, 0xA620, 0xA8D0, 0xA900, 0xA9D0, 0xA9F0, 0xAA50, 0xABF0, 0xFF10, 0x104A0,
    0x10D30, 0x11066, 0x110F0, 0x11136, 0x111D0, 0x112F0, 0x11450, 0x114D0, 0x11650, 0x116C0,
    0x11730, 0x118E0, 0x11950, 0x11C50, 0x11D50, 0x11DA0, 0x11F50, 0x16A60, 0x16AC0, 0x16B50,
    0x1D7CE, 0x1D7D8, 0x1D7E2, 0x1D7EC, 0x1D7F6, 0x1E140, 0x1E2F0, 0x1E4D0, 0x1E950, 0x1FBF0]

/-- The value of a decimal digit. -/
def digitValue (c : Char) : Option Nat :=
  (decimalZeros.find? fun z => z ≤ c.toNat && c.toNat < z + 10).map fun z => c.toNat - z

/-- Digits, with single underscores between them; `after` is set behind a digit. -/
def readDigits : (value : Nat) → (after : Bool) → List Char → Option Nat
  | value, after, [] => if after then some value else none
  | value, after, c :: cs =>
      if c = '_' then if after then readDigits value false cs else none
      else match digitValue c with
        | some d => readDigits (value * 10 + d) true cs
        | none => none

/-- An unsigned number.  Texts of more than 4300 digits are refused. -/
def pyNat (cs : List Char) : Option Int :=
  if 4300 < (cs.filter (· ≠ '_')).length then none
  else (readDigits 0 false cs).map fun n => (n : Int)

/-- `int(s)` on a text without white space around it; `none` is a `ValueError`. -/
def pyInt (s : String) : Option Int :=
  match s.toList with
  | '-' :: cs => (pyNat cs).map fun n => -n
  | '+' :: cs => pyNat cs
  | cs => pyNat cs

/-! ## Numerals -/

theorem digitValue_digitChar : ∀ d < 10, digitValue d.digitChar = some d ∧ d.digitChar ≠ '_' := by
  decide

theorem readDigits_digit {d value : Nat} {after : Bool} {cs : List Char} (hd : d < 10) :
    readDigits value after (d.digitChar :: cs) = readDigits (value * 10 + d) true cs := by
  obtain ⟨hvalue, hunder⟩ := digitValue_digitChar d hd
  rw [readDigits, if_neg hunder, hvalue]

theorem readDigits_toDigits (n : Nat) : readDigits 0 false (Nat.toDigits 10 n) = some n := by
  have hread := Radix.read_toDigits (b := 10) (n := n) (by decide) (readDigits · true)
    (fun v d cs hd _ => readDigits_digit hd) []
  rw [List.append_nil] at hread
  -- The first character is a digit, and then it does not matter what has been behind it.
  have hunder : ∀ c ∈ Nat.toDigits 10 n, c ≠ '_' := Text.mem_toDigits (by decide) (by decide)
  cases hdigits : Nat.toDigits 10 n with
  | nil => exact absurd hdigits Nat.toDigits_ne_nil
  | cons c cs =>
      rw [hdigits] at hread hunder
      rw [readDigits, if_neg (hunder c (.head _))] at hread ⊢
      exact hread

/-- A numeral that is not too long is read as its number. -/
theorem pyInt_repr {n : Nat} (h : (Nat.toDigits 10 n).length ≤ 4300) :
    pyInt n.repr = some (n : Int) := by
  have hshort : ¬ 4300 < ((Nat.toDigits 10 n).filter (· ≠ '_')).length :=
    Nat.not_lt.mpr (Nat.le_trans (List.length_filter_le _ _) h)
  have hnat : pyNat (Nat.toDigits 10 n) = some (n : Int) := by
    rw [pyNat, if_neg hshort, readDigits_toDigits]
    rfl
  have hdigit : ∀ c ∈ Nat.toDigits 10 n, c ≠ '-' ∧ c ≠ '+' :=
    Text.mem_toDigits (by decide) (by decide)
  rw [pyInt, Nat.toList_repr]
  split
  case h_1 cs heq => exact absurd rfl (hdigit '-' (heq ▸ .head _)).1
  case h_2 cs heq => exact absurd rfl (hdigit '+' (heq ▸ .head _)).2
  case h_3 => exact hnat

end Wraith.Control

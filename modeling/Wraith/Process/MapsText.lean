/-
# `Wraith.Process.MapsText` — the text of `/proc/<pid>/maps`

The parser of `memory.rs`: the lines of the file, and of each line the fields.  A line is cut into
at most six pieces before the empty ones are dropped, so the blanks in front of a pathname, and
those within it, all stay with the sixth piece; a line without a pathname has five.

`MapsLine` is a line as the kernel writes it, with whatever padding, and `parseMaps_text` says that
nothing of it is lost.  A line that does not parse is skipped with no more than a warning, so a
region that came out wrong here would be missing from the snapshot.
-/
import Wraith.Lib.Radix
import Wraith.Process.Ptrace

namespace Wraith.Process

open Lib

/-! ## What the parser uses of the standard library -/

/-- `char::is_whitespace`. -/
def isWhitespace (c : Char) : Bool :=
  let n := c.toNat
  (9 ≤ n && n ≤ 13) || n = 32 || n = 0x85 || n = 0xA0 || n = 0x1680 ||
    (0x2000 ≤ n && n ≤ 0x200A) || n = 0x2028 || n = 0x2029 || n = 0x202F || n = 0x205F || n = 0x3000

/-- `str::lines`; `line` is what was read of the current one, backwards. -/
def linesFrom : (line : List Char) → List Char → List (List Char)
  | [], [] => []
  | line, [] => [line.reverse]
  | '\r' :: line, '\n' :: cs => line.reverse :: linesFrom [] cs
  | line, '\n' :: cs => line.reverse :: linesFrom [] cs
  | line, c :: cs => linesFrom (c :: line) cs

/-- `char::to_digit(16)`. -/
def hexDigit (c : Char) : Option Nat :=
  let n := c.toNat
  if 48 ≤ n ∧ n ≤ 57 then some (n - 48)
  else if 97 ≤ n ∧ n ≤ 102 then some (n - 87)
  else if 65 ≤ n ∧ n ≤ 70 then some (n - 55)
  else none

/-- The digits of a `u64`, unless they overflow. -/
def hexDigits : (value : Nat) → List Char → Option Nat
  | value, [] => some value
  | value, c :: cs => match hexDigit c with
    | none => none
    | some d => if 2 ^ 64 ≤ value * 16 + d then none else hexDigits (value * 16 + d) cs

/-- `u64::from_str_radix(_, 16)`. -/
def fromHex : List Char → Option UInt64
  | [] => none
  | ['+'] => none
  | '+' :: cs => (hexDigits 0 cs).map UInt64.ofNat
  | cs => (hexDigits 0 cs).map UInt64.ofNat

/-! ## The parser -/

/-- A field that has to be there. -/
def required (parts : List (List Char)) (i : Nat) (what : String) (line : List Char) :
    Except Error (List Char) :=
  match parts[i]? with
  | some part => .ok part
  | none => .error s!"missing {what} in maps line: {debugStr (String.ofList line)}"

/-- A field that has to be a number. -/
def hexField (what : String) (cs : List Char) : Except Error UInt64 :=
  match fromHex cs with
  | some n => .ok n
  | none => .error s!"bad {what}: {debugStr (String.ofList cs)}"

/-- A line that is not blank, from its fields. -/
def parseFields (line : List Char) (parts : List (List Char)) : Except Error MemoryRegion := do
  let addrRange ← required parts 0 "address range" line
  let perms ← required parts 1 "permissions" line
  let offsetStr ← required parts 2 "offset" line
  let pathname := Text.trim isWhitespace (parts[5]?.getD [])
  match Text.splitOnce '-' addrRange with
  | none => .error s!"malformed address range: {debugStr (String.ofList addrRange)}"
  | some (startStr, endStr) => do
      let start ← hexField "start address" startStr
      let end_ ← hexField "end address" endStr
      let offset ← hexField "offset" offsetStr
      pure (MapsEntry.region
        ⟨start, end_, String.ofList perms, offset, String.ofList pathname⟩)

/-- `parse_maps_line`. -/
def parseMapsLine (line : List Char) : Except Error (Option MemoryRegion) :=
  let line := Text.trim isWhitespace line
  if line = [] then .ok none
  else (parseFields line ((Text.splitN ' ' 6 line).filter (· ≠ []))).map some

/-- What a line adds: nothing if it is blank or malformed. -/
def lineRegion (line : List Char) : Option MemoryRegion :=
  match parseMapsLine line with
  | .ok region => region
  | .error _ => none

/-- `parse_maps`, of a file that could be read. -/
def parseMaps (content : String) : List MemoryRegion :=
  (linesFrom [] content.toList).filterMap lineRegion

example : parseMapsLine "ffff-10000 rw-p 00000000 00:00 0  [heap] ".toList = .ok (some
    (MapsEntry.region ⟨0xffff, 0x10000, "rw-p", 0, "[heap]"⟩)) := by decide

/-! ## Numbers -/

theorem hexDigit_digitChar : ∀ d < 16, hexDigit d.digitChar = some d := by decide

/-- Neither blank nor sign. -/
def Numeric (c : Char) : Prop := isWhitespace c = false ∧ c ≠ '-' ∧ c ≠ '+'

theorem digitChar_numeric : ∀ d < 16, Numeric d.digitChar := by
  unfold Numeric
  decide

theorem hexDigits_zeros {cs : List Char} : ∀ zeros : Nat,
    hexDigits 0 (List.replicate zeros '0' ++ cs) = hexDigits 0 cs
  | 0 => rfl
  | zeros + 1 => hexDigits_zeros zeros

/-- A numeral reads as its number, as long as that is a `u64`. -/
theorem hexDigits_toDigits {n : Nat} (hn : n < 2 ^ 64) :
    hexDigits 0 (Nat.toDigits 16 n) = some n := by
  have hread := Radix.read_toDigits (b := 16) (n := n) (by decide) hexDigits
    (fun v d cs hd hle => by
      simp only [hexDigits, hexDigit_digitChar d hd,
        if_neg (Nat.not_le_of_lt (Nat.lt_of_le_of_lt hle hn))]) []
  rwa [List.append_nil] at hread

/-- A number as the kernel writes it, with zeros in front of it. -/
def hexText (zeros : Nat) (n : UInt64) : List Char :=
  List.replicate zeros '0' ++ Nat.toDigits 16 n.toNat

variable {zeros : Nat} {n : UInt64}

theorem mem_hexText : ∀ c ∈ hexText zeros n, Numeric c := by
  intro c hc
  obtain hc | hc := List.mem_append.mp hc
  · rw [List.eq_of_mem_replicate hc]
    exact digitChar_numeric 0 (by decide)
  · exact Text.mem_toDigits (by decide) digitChar_numeric c hc

theorem hexText_ne_nil : hexText zeros n ≠ [] := fun h =>
  Nat.toDigits_ne_nil (List.append_eq_nil_iff.mp h).2

theorem fromHex_hexText : fromHex (hexText zeros n) = some n := by
  have hread : hexDigits 0 (hexText zeros n) = some n.toNat := by
    rw [hexText, hexDigits_zeros, hexDigits_toDigits n.toNat_lt]
  have hplus : ∀ cs, hexText zeros n ≠ '+' :: cs := fun cs h =>
    (mem_hexText '+' (h ▸ List.mem_cons_self)).2.2 rfl
  unfold fromHex
  split
  case h_1 h => exact absurd h hexText_ne_nil
  case h_2 h => exact absurd h (hplus [])
  case h_3 cs _ h => exact absurd h (hplus cs)
  case h_4 =>
    rw [hread, Option.map_some]
    exact congrArg some UInt64.ofNat_toNat

theorem hexField_hexText (what : String) : hexField what (hexText zeros n) = .ok n := by
  rw [hexField, fromHex_hexText]

/-! ## Lines -/

theorem linesFrom_append : ∀ {cs rest line : List Char}, '\n' ∉ cs →
    linesFrom line (cs ++ rest) = linesFrom (cs.reverse ++ line) rest
  | [], _, _, _ => rfl
  | c :: cs, rest, line, h => by
      have hc : c ≠ '\n' := fun heq => h (heq ▸ List.mem_cons_self)
      have hcs : '\n' ∉ cs := fun hmem => h (List.mem_cons_of_mem _ hmem)
      rw [List.cons_append, linesFrom, linesFrom_append hcs, List.reverse_cons, List.append_assoc]
      · rfl
      · exact hc
      · exact fun _ _ => hc

/-- A line and its line break; a carriage return at its end would go with the latter. -/
theorem linesFrom_line {cs rest : List Char} (h : '\n' ∉ cs) (hcr : cs.getLast? ≠ some '\r') :
    linesFrom [] (cs ++ '\n' :: rest) = cs :: linesFrom [] rest := by
  rw [linesFrom_append h, List.append_nil]
  generalize hline : cs.reverse = line
  have hne : ∀ cs', line ≠ '\r' :: cs' := fun cs' h' => hcr (by
    rw [← List.head?_reverse, hline, h']
    rfl)
  rw [linesFrom, ← hline, List.reverse_reverse]
  exact fun cs' h' => absurd h' (hne cs')

theorem linesFrom_last {cs : List Char} (h : '\n' ∉ cs) (hne : cs ≠ []) :
    linesFrom [] cs = [cs] := by
  have hlast : linesFrom [] (cs ++ []) = linesFrom (cs.reverse ++ []) [] := linesFrom_append h
  rw [List.append_nil, List.append_nil] at hlast
  rw [hlast, linesFrom, List.reverse_reverse]
  exact fun h' => hne (List.reverse_eq_nil_iff.mp h')

/-! ## The kernel's format -/

/-- A field of a line: not empty, and without blanks. -/
def IsField (s : String) : Prop := s.toList ≠ [] ∧ ∀ c ∈ s.toList, isWhitespace c = false

/-- A line: its numbers with the zeros in front of them, the other fields, and the pathname with the
number of blanks in front of it, or at the end of the line when there is none. -/
structure MapsLine where
  start : UInt64
  startZeros : Nat
  end_ : UInt64
  endZeros : Nat
  perms : String
  offset : UInt64
  offsetZeros : Nat
  dev : String
  inode : String
  blanks : Nat
  pathname : String
  perms_length : perms.toList.length = 4
  perms_solid : ∀ c ∈ perms.toList, isWhitespace c = false
  dev_field : IsField dev
  inode_field : IsField inode
  blanks_pos : pathname ≠ "" → 0 < blanks
  pathname_head : ∀ c, pathname.toList.head? = some c → isWhitespace c = false
  pathname_last : ∀ c, pathname.toList.getLast? = some c → isWhitespace c = false
  pathname_line : '\n' ∉ pathname.toList

namespace MapsLine

/-- What the parser reads of it. -/
def entry (l : MapsLine) : MapsEntry := ⟨l.start, l.end_, l.perms, l.offset, l.pathname⟩

/-- The address range. -/
def range (l : MapsLine) : List Char :=
  hexText l.startZeros l.start ++ '-' :: hexText l.endZeros l.end_

/-- The first four fields, and what comes behind them. -/
def fields (l : MapsLine) (last : List Char) : List Char :=
  l.range ++ ' ' :: (l.perms.toList ++ ' ' :: (hexText l.offsetZeros l.offset ++
    ' ' :: (l.dev.toList ++ ' ' :: last)))

/-- The line. -/
def text (l : MapsLine) : List Char :=
  l.fields (l.inode.toList ++ (List.replicate l.blanks ' ' ++ l.pathname.toList))

end MapsLine

/-- The file: a line break behind every line, or behind all but the last. -/
def mapsText (terminated : Bool) : List MapsLine → List Char
  | [] => []
  | [l] => if terminated then l.text ++ ['\n'] else l.text
  | l :: l' :: ls => l.text ++ '\n' :: mapsText terminated (l' :: ls)

/-! ## One line -/

theorem IsField.not_mem {s : String} (h : IsField s) {c : Char} (hc : isWhitespace c = true) :
    c ∉ s.toList := fun hmem => Bool.false_ne_true ((h.2 c hmem).symm.trans hc)

theorem not_mem_hexText {c : Char} (hc : isWhitespace c = true) : c ∉ hexText zeros n :=
  fun hmem => Bool.false_ne_true ((mem_hexText c hmem).1.symm.trans hc)

namespace MapsLine

variable (l : MapsLine) {last : List Char}

theorem perms_field : IsField l.perms := by
  refine ⟨fun hnil => ?_, l.perms_solid⟩
  have hlen := l.perms_length
  rw [hnil] at hlen
  exact nomatch hlen

theorem range_not_mem {c : Char} (hc : isWhitespace c = true) : c ∉ l.range := by
  intro hmem
  obtain hmem | hmem := List.mem_append.mp hmem
  · exact not_mem_hexText hc hmem
  · obtain rfl | hmem := List.mem_cons.mp hmem
    · exact nomatch hc
    · exact not_mem_hexText hc hmem

/-- The range comes apart at its hyphen. -/
theorem splitOnce_range :
    Text.splitOnce '-' l.range = some (hexText l.startZeros l.start, hexText l.endZeros l.end_) :=
  Text.splitOnce_append fun hmem => (mem_hexText '-' hmem).2.1 rfl

/-- The fields come apart at the blanks. -/
theorem splitN_fields : Text.splitN ' ' 6 (l.fields last) = l.range :: l.perms.toList ::
    hexText l.offsetZeros l.offset :: l.dev.toList :: Text.splitN ' ' 2 last := by
  rw [fields, Text.splitN_append (l.range_not_mem rfl),
    Text.splitN_append (l.perms_field.not_mem rfl),
    Text.splitN_append (not_mem_hexText rfl), Text.splitN_append (l.dev_field.not_mem rfl)]

theorem range_ne_nil : l.range ≠ [] := fun h => hexText_ne_nil (List.append_eq_nil_iff.mp h).1

/-- A line begins with a digit. -/
theorem fields_head : ∀ c, (l.fields last).head? = some c → isWhitespace c = false := by
  intro c hc
  have hstart : hexText l.startZeros l.start ≠ [] := hexText_ne_nil
  rw [fields, range, List.append_assoc, List.head?_append_of_ne_nil _ hstart] at hc
  exact (mem_hexText c (List.mem_of_mem_head? hc)).1

/-- And ends as its last part does. -/
theorem fields_last (h : last ≠ []) : (l.fields last).getLast? = last.getLast? := by
  have hcons : ∀ {cs cs' : List Char}, cs ++ ' ' :: cs' ≠ [] :=
    List.append_ne_nil_of_right_ne_nil _ (List.cons_ne_nil _ _)
  rw [fields, Text.getLast?_append_cons hcons, Text.getLast?_append_cons hcons,
    Text.getLast?_append_cons hcons, Text.getLast?_append_cons h]

/-- The fields as they were written, from the pieces. -/
theorem parseFields_pieces (line : List Char) {rest : List (List Char)}
    (hrest : Text.trim isWhitespace (rest[0]?.getD []) = l.pathname.toList) :
    parseFields line (l.range :: l.perms.toList :: hexText l.offsetZeros l.offset ::
      l.dev.toList :: l.inode.toList :: rest) = .ok l.entry.region := by
  have hpath : Text.trim isWhitespace
      ((l.range :: l.perms.toList :: hexText l.offsetZeros l.offset ::
      l.dev.toList :: l.inode.toList :: rest)[5]?.getD []) = l.pathname.toList := hrest
  rw [parseFields, hpath]
  simp only [required, List.getElem?_cons_zero, List.getElem?_cons_succ, bind, Except.bind,
    splitOnce_range, hexField_hexText, String.ofList_toList]
  rfl

/-- Behind the inode: nothing but blanks, or a pathname behind at least one of them. -/
theorem text_cases :
    l.pathname = "" ∧ l.text = l.fields l.inode.toList ++ List.replicate l.blanks ' ' ∨
    ∃ blanks, l.pathname.toList ≠ [] ∧ l.text = l.fields (l.inode.toList ++
      ' ' :: (List.replicate blanks ' ' ++ l.pathname.toList)) := by
  by_cases h : l.pathname = ""
  · refine Or.inl ⟨h, ?_⟩
    simp only [text, fields, h, String.toList_empty, List.append_nil, List.append_assoc,
      List.cons_append]
  · obtain ⟨blanks, hblanks⟩ :=
      Nat.exists_eq_succ_of_ne_zero (Nat.pos_iff_ne_zero.mp (l.blanks_pos h))
    refine Or.inr ⟨blanks, fun hnil => h (String.toList_eq_nil_iff.mp hnil), ?_⟩
    rw [text, hblanks, List.replicate_succ, List.cons_append]

/-- Of a line without a pathname the blanks at its end go. -/
theorem trim_bare {blanks : Nat} :
    Text.trim isWhitespace (l.fields l.inode.toList ++ List.replicate blanks ' ') =
      l.fields l.inode.toList := by
  show Text.trim isWhitespace ([] ++ l.fields l.inode.toList ++ _) = _
  refine Text.trim_eq nofun
    (fun c hc => List.eq_of_mem_replicate hc ▸ rfl) l.fields_head fun c hc => ?_
  rw [l.fields_last l.inode_field.1] at hc
  exact l.inode_field.2 c (List.mem_of_mem_getLast? hc)

/-- Of one with a pathname nothing. -/
theorem trim_named {blanks : List Char} (hpath : l.pathname.toList ≠ []) :
    Text.trim isWhitespace (l.fields (l.inode.toList ++ ' ' :: (blanks ++ l.pathname.toList))) =
      l.fields (l.inode.toList ++ ' ' :: (blanks ++ l.pathname.toList)) := by
  generalize hlast : l.inode.toList ++ ' ' :: (blanks ++ l.pathname.toList) = last
  have h : Text.trim isWhitespace ([] ++ l.fields last ++ []) = l.fields last :=
    Text.trim_eq nofun nofun l.fields_head fun c hc => by
      rw [← hlast, l.fields_last (List.append_ne_nil_of_right_ne_nil _ (List.cons_ne_nil _ _)),
        Text.getLast?_append_cons (List.append_ne_nil_of_right_ne_nil _ hpath),
        List.getLast?_append_of_ne_nil _ hpath] at hc
      exact l.pathname_last c hc
  rwa [List.nil_append, List.append_nil] at h

/-- The pathname, without the blanks in front of it. -/
theorem trim_pathname {blanks : Nat} :
    Text.trim isWhitespace (List.replicate blanks ' ' ++ l.pathname.toList) =
      l.pathname.toList := by
  have h : Text.trim isWhitespace (List.replicate blanks ' ' ++ l.pathname.toList ++ []) =
      l.pathname.toList :=
    Text.trim_eq (fun c hc => List.eq_of_mem_replicate hc ▸ rfl) nofun l.pathname_head
      l.pathname_last
  rwa [List.append_nil] at h

theorem fields_ne_nil : l.fields last ≠ [] :=
  fun h => l.range_ne_nil (List.append_eq_nil_iff.mp h).1

/-- None of the pieces is dropped. -/
theorem filter_pieces (rest : List (List Char)) (hrest : ∀ part ∈ rest, part ≠ []) :
    (l.range :: l.perms.toList :: hexText l.offsetZeros l.offset :: l.dev.toList ::
        l.inode.toList :: rest).filter (· ≠ []) =
      l.range :: l.perms.toList :: hexText l.offsetZeros l.offset :: l.dev.toList ::
        l.inode.toList :: rest := by
  refine List.filter_eq_self.mpr fun part hpart => decide_eq_true ?_
  simp only [List.mem_cons] at hpart
  obtain rfl | rfl | rfl | rfl | rfl | hpart := hpart
  · exact l.range_ne_nil
  · exact l.perms_field.1
  · exact hexText_ne_nil
  · exact l.dev_field.1
  · exact l.inode_field.1
  · exact hrest part hpart

/-- A line parses as what it was made from. -/
theorem parseMapsLine_text : parseMapsLine l.text = .ok (some l.entry.region) := by
  have hinode := l.inode_field.not_mem (c := ' ') rfl
  obtain ⟨hpath, htext⟩ | ⟨blanks, hpath, htext⟩ := l.text_cases
  · rw [parseMapsLine, htext, l.trim_bare, if_neg l.fields_ne_nil, l.splitN_fields,
      Text.splitN_last hinode, l.filter_pieces [] nofun, l.parseFields_pieces]
    · rfl
    · rw [hpath]
      rfl
  · rw [parseMapsLine, htext, l.trim_named hpath, if_neg l.fields_ne_nil, l.splitN_fields,
      Text.splitN_append hinode, Text.splitN, l.filter_pieces _, l.parseFields_pieces]
    · rfl
    · exact l.trim_pathname
    · intro part hpart
      rw [List.mem_singleton.mp hpart]
      exact List.append_ne_nil_of_right_ne_nil _ hpath

/-! ## The file -/

theorem text_not_mem : '\n' ∉ l.text := by
  have hfields : ∀ {last : List Char}, '\n' ∉ last → '\n' ∉ l.fields last := by
    intro last hlast hmem
    simp only [fields, List.mem_append, List.mem_cons] at hmem
    obtain hmem | hmem | hmem | hmem | hmem | hmem | hmem | hmem | hmem := hmem
    · exact l.range_not_mem rfl hmem
    · exact nomatch hmem
    · exact l.perms_field.not_mem rfl hmem
    · exact nomatch hmem
    · exact not_mem_hexText rfl hmem
    · exact nomatch hmem
    · exact l.dev_field.not_mem rfl hmem
    · exact nomatch hmem
    · exact hlast hmem
  refine hfields fun hmem => ?_
  obtain hmem | hmem := List.mem_append.mp hmem
  · exact l.inode_field.not_mem rfl hmem
  · obtain hmem | hmem := List.mem_append.mp hmem
    · exact nomatch List.eq_of_mem_replicate hmem
    · exact l.pathname_line hmem

/-- No line ends with a carriage return. -/
theorem text_last : l.text.getLast? ≠ some '\r' := by
  intro hlast
  have hsolid : isWhitespace '\r' = true := rfl
  obtain ⟨-, htext⟩ | ⟨blanks, hpath, htext⟩ := l.text_cases
  · rw [htext] at hlast
    by_cases hblanks : l.blanks = 0
    · rw [hblanks, List.replicate_zero, List.append_nil, l.fields_last l.inode_field.1] at hlast
      exact l.inode_field.not_mem hsolid (List.mem_of_mem_getLast? hlast)
    · rw [List.getLast?_append_of_ne_nil _ (by simpa using hblanks)] at hlast
      exact nomatch List.eq_of_mem_replicate (List.mem_of_mem_getLast? hlast)
  · rw [htext, l.fields_last (List.append_ne_nil_of_right_ne_nil _ (List.cons_ne_nil _ _)),
      Text.getLast?_append_cons (List.append_ne_nil_of_right_ne_nil _ hpath),
      List.getLast?_append_of_ne_nil _ hpath] at hlast
    exact Bool.false_ne_true ((l.pathname_last _ hlast).symm.trans hsolid)

theorem text_ne_nil : l.text ≠ [] := l.fields_ne_nil

end MapsLine

theorem linesFrom_mapsText (terminated : Bool) : ∀ ls : List MapsLine,
    linesFrom [] (mapsText terminated ls) = ls.map MapsLine.text
  | [] => rfl
  | [l] => by
      rw [mapsText]
      split
      · rw [linesFrom_line l.text_not_mem l.text_last]
        rfl
      · exact linesFrom_last l.text_not_mem l.text_ne_nil
  | l :: l' :: ls => by
      rw [mapsText, linesFrom_line l.text_not_mem l.text_last,
        linesFrom_mapsText terminated (l' :: ls)]
      rfl

/-- **The maps parser inverts the kernel's format.**  From the text of any regions, however padded,
it makes these regions, in their order, each with its whole pathname classified, and that as its
backing file if it begins with a slash or a dot. -/
theorem parseMaps_text (terminated : Bool) (ls : List MapsLine) :
    parseMaps (String.ofList (mapsText terminated ls)) = ls.map fun l =>
      { start := l.entry.start
        end_ := l.entry.end_
        perms := l.entry.perms
        backingFile :=
          if l.entry.pathname.toList.head? = some '/' ∨
            l.entry.pathname.toList.head? = some '.' then
            some l.entry.pathname
          else none
        offset := l.entry.offset
        regionType := classifyRegion l.entry.pathname
        data := []
        checksum := 0 } := by
  rw [parseMaps, String.toList_ofList, linesFrom_mapsText, List.filterMap_map]
  have hline : lineRegion ∘ MapsLine.text = fun l => some l.entry.region := by
    funext l
    rw [Function.comp_apply, lineRegion, l.parseMapsLine_text]
  rw [hline, List.filterMap_eq_map']
  rfl

end Wraith.Process

/-
# `Wraith.Control.Sizes` — what the preflight measures

The sizes of the preflight are numbers in texts: `VmRSS` of the kernel's status file, and the column
`available` of the table that `free -k` prints.  Here the texts are those of the kernel and of
`free`, and the checks on memory come down to two inequalities between the numbers
(`size_passes_iff`, `resources_pass_iff`).  The capturer reads the same text, in another language,
to the same number.
-/
import Wraith.Control.Preflight
import Wraith.Process.Status

namespace Wraith.Control

open Lib Script Process

/-! ## Texts -/

/-- `for line in f`, in text mode: each line with its end, of whatever kind, as `\n`. -/
def fileLinesFrom : (line : List Char) → List Char → List (List Char)
  | [], [] => []
  | line, [] => [line.reverse]
  | line, '\r' :: '\n' :: cs => ('\n' :: line).reverse :: fileLinesFrom [] cs
  | line, c :: cs =>
      if c = '\n' ∨ c = '\r' then ('\n' :: line).reverse :: fileLinesFrom [] cs
      else fileLinesFrom (c :: line) cs

def fileLines (text : List Char) : List String := (fileLinesFrom [] text).map String.ofList

theorem fileLinesFrom_cons {line cs : List Char} {c : Char} (h : c ≠ '\r') :
    fileLinesFrom line (c :: cs) =
    if c = '\n' ∨ c = '\r' then ('\n' :: line).reverse :: fileLinesFrom [] cs
    else fileLinesFrom (c :: line) cs := by
  rw [fileLinesFrom]
  exact fun _ hc => absurd hc h

theorem fileLinesFrom_line {line cs rest : List Char} (hn : '\n' ∉ cs) (hr : '\r' ∉ cs) :
    fileLinesFrom line (cs ++ '\n' :: rest) =
      (line.reverse ++ (cs ++ ['\n'])) :: fileLinesFrom [] rest := by
  induction cs generalizing line with
  | nil =>
      rw [List.nil_append, fileLinesFrom_cons (by decide), if_pos (Or.inl rfl), List.reverse_cons,
        List.nil_append]
  | cons c cs ih =>
      have hcn : c ≠ '\n' := fun h => hn (h ▸ .head _)
      have hcr : c ≠ '\r' := fun h => hr (h ▸ .head _)
      rw [List.cons_append, fileLinesFrom_cons hcr, if_neg (not_or.mpr ⟨hcn, hcr⟩),
        ih (fun h => hn (.tail _ h)) fun h => hr (.tail _ h), List.reverse_cons, List.append_assoc]
      rfl

theorem fileLinesFrom_flatMap {rest : List Char} : ∀ {lines : List (List Char)},
    (∀ line ∈ lines, '\n' ∉ line ∧ '\r' ∉ line) →
    fileLinesFrom [] (lines.flatMap (fun line => line ++ ['\n']) ++ rest) =
      lines.map (fun line => line ++ ['\n']) ++ fileLinesFrom [] rest
  | [], _ => rfl
  | line :: lines, h => by
      obtain ⟨hn, hr⟩ := h line (.head _)
      rw [List.flatMap_cons, List.append_assoc, List.append_assoc, List.singleton_append,
        fileLinesFrom_line hn hr, fileLinesFrom_flatMap fun line' hmem => h line' (.tail _ hmem)]
      rfl

/-! ## Numerals -/

theorem digitChar_notSpace : ∀ d < 10, isSpace d.digitChar = false := by decide

theorem intOf_digits {n : Nat} (h : n < 2 ^ 64) :
    intOf (String.ofList (Nat.toDigits 10 n)) = .ok (n : Int) := by
  have hshort : (Nat.toDigits 10 n).length ≤ 4300 := by
    have htwenty : (Nat.toDigits 10 n).length ≤ 20 :=
      (Nat.length_toDigits_le_iff (by decide) (by decide)).mpr (Nat.lt_trans h (by decide))
    omega
  rw [intOf, show String.ofList (Nat.toDigits 10 n) = n.repr from rfl, pyInt_repr hshort]

/-! ## The status file -/

theorem startsWith_ofList {key : String} {cs : List Char} :
    startsWith (String.ofList cs) key = true ↔ key.toList <+: cs := by
  rw [startsWith, String.toList_ofList, List.isPrefixOf_iff_prefix]

theorem startsWith_line {key : String} {line : List Char} (hkey : '\n' ∉ key.toList) :
    startsWith (String.ofList (line ++ ['\n'])) key = true ↔ key.toList <+: line := by
  rw [startsWith_ofList, List.prefix_concat_iff]
  constructor
  · rintro (heq | h)
    · exact absurd (heq ▸ List.mem_append_right _ (.head _)) hkey
    · exact h
  · exact Or.inr

theorem statusKb_cons (pid : Int) (line : List Char) (lines : List String) :
    statusKb "VmRSS" pid (String.ofList (line ++ ['\n']) :: lines) =
      if "VmRSS:".toList <+: line then item (pySplit (String.ofList (line ++ ['\n']))) 1 >>= intOf
      else statusKb "VmRSS" pid lines := by
  have hkey : toString "VmRSS" ++ toString ":" = "VmRSS:" := by decide
  rw [statusKb, hkey]
  exact if_congr (startsWith_line (by decide)) rfl rfl

theorem statusKb_skip {pid : Int} {lines : List (List Char)} {rest : List String}
    (h : ∀ line ∈ lines, ¬ "VmRSS:".toList <+: line) :
    statusKb "VmRSS" pid (lines.map (fun line => String.ofList (line ++ ['\n'])) ++ rest) =
      statusKb "VmRSS" pid rest := by
  induction lines with
  | nil => rfl
  | cons line lines ih =>
      rw [List.map_cons, List.cons_append, statusKb_cons, if_neg (h line (.head _))]
      exact ih fun line' hmem => h line' (.tail _ hmem)

theorem pySplit_statusLine (f : StatusFile "VmRSS:") : pySplit (String.ofList (f.line ++ ['\n'])) =
    ["VmRSS:", String.ofList (Nat.toDigits 10 f.kb), "kB"] := by
  have hline : f.line ++ ['\n'] = "VmRSS:".toList ++
      (Text.row [('\t' :: List.replicate f.blanks ' ', Nat.toDigits 10 f.kb),
        ([' '], ['k', 'B'])] ++ ['\n']) := by
    simp [StatusFile.line, StatusFile.value, Text.row]
  rw [pySplit_ofList, hline, Text.words_row]
  · rfl
  · exact ⟨by decide, Text.forall_of_all (by decide)⟩
  · intro x hx
    simp only [List.mem_cons, List.not_mem_nil, or_false] at hx
    obtain rfl | rfl := hx
    · refine ⟨List.cons_ne_nil _ _, fun c hc => ?_,
        Text.isWord_toDigits (by decide) digitChar_notSpace⟩
      obtain rfl | hc := List.mem_cons.mp hc
      · decide
      · rw [(List.mem_replicate.mp hc).2]
        decide
    · exact ⟨List.cons_ne_nil _ _, Text.forall_of_all (by decide), List.cons_ne_nil _ _,
        Text.forall_of_all (by decide)⟩
  · exact Text.forall_of_all (by decide)

/-- The preflight reads the size. -/
theorem statusKb_text (f : StatusFile "VmRSS:") (pid : Int) :
    statusKb "VmRSS" pid (fileLines f.text) = .ok (f.kb : Int) := by
  have hlines : fileLines f.text = f.before.map (fun line => String.ofList (line ++ ['\n'])) ++
      String.ofList (f.line ++ ['\n']) :: (fileLinesFrom [] f.rest).map String.ofList := by
    rw [fileLines, StatusFile.text,
      fileLinesFrom_flatMap (f.lines_whole (Text.forall_of_all (by decide))),
      StatusFile.lines]
    simp
  rw [hlines, statusKb_skip fun line hmem => (f.other line hmem).2.2, statusKb_cons,
    if_pos f.line_prefix, pySplit_statusLine]
  exact intOf_digits (Nat.lt_trans f.kb_lt (by decide))

/-! ## The table of `free` -/

/-- What `free -k` prints: a line of titles, and the row of six numbers, each at the end of a
column. -/
structure FreeTable where
  titles : List Char
  total : Nat × Nat
  used : Nat × Nat
  free : Nat × Nat
  shared : Nat × Nat
  cache : Nat × Nat
  available : Nat × Nat
  rest : List Char
  titles_unbroken : ∀ c ∈ titles, isLineBreak c = false
  titles_other : ¬ "Mem:".toList <+: titles
  available_lt : available.2 < 2 ^ 64

namespace FreeTable

variable (m : FreeTable)

/-- With the blanks in front of the numbers, but one. -/
def columns : List (List Char × List Char) :=
  [m.total, m.used, m.free, m.shared, m.cache, m.available].map fun x =>
    (List.replicate (x.1 + 1) ' ', Nat.toDigits 10 x.2)

def memLine : List Char := "Mem:".toList ++ Text.row m.columns

def text : List Char := m.titles ++ '\n' :: (m.memLine ++ '\n' :: m.rest)

/-- In kB. -/
def availableKb : Nat := m.available.2

theorem mem_columns :
    ∀ x ∈ m.columns, x.1 ≠ [] ∧ (∀ c ∈ x.1, c = ' ') ∧ ∃ n, x.2 = Nat.toDigits 10 n := by
  intro x hx
  obtain ⟨y, -, rfl⟩ := List.mem_map.mp hx
  exact ⟨List.cons_ne_nil _ _, fun c hc => (List.mem_replicate.mp hc).2, y.2, rfl⟩

theorem digitChar_unbroken : ∀ d < 10, isLineBreak d.digitChar = false := by decide

theorem memLine_unbroken : ∀ c ∈ m.memLine, isLineBreak c = false := by
  have hkey : ∀ c ∈ "Mem:".toList, isLineBreak c = false := Text.forall_of_all (by decide)
  intro c hc
  obtain hc | hc := List.mem_append.mp hc
  · exact hkey c hc
  · obtain ⟨x, hx, hc⟩ := List.mem_flatMap.mp hc
    obtain ⟨-, hblank, n, hn⟩ := m.mem_columns x hx
    obtain hc | hc := List.mem_append.mp hc
    · rw [hblank c hc]
      decide
    · rw [hn] at hc
      exact Text.mem_toDigits (p := fun c => isLineBreak c = false)
        (by decide) digitChar_unbroken c hc

theorem pySplit_memLine : pySplit (String.ofList m.memLine) =
    "Mem:" :: m.columns.map fun x => String.ofList x.2 := by
  have hwords := Text.words_row m.columns []
    (⟨by decide, Text.forall_of_all (by decide)⟩ : Text.IsWord isSpace "Mem:".toList)
    (fun x hx => ?_) (List.forall_mem_nil _)
  · rw [List.append_nil] at hwords
    rw [pySplit_ofList, memLine, hwords, List.map_cons, List.map_map]
    rfl
  · obtain ⟨hne, hblank, n, hn⟩ := m.mem_columns x hx
    refine ⟨hne, fun c hc => ?_, hn ▸ Text.isWord_toDigits (by decide) digitChar_notSpace⟩
    rw [hblank c hc]
    decide

theorem splitlines_text : ∃ lines, pySplitlines (String.ofList m.text) =
    String.ofList m.titles :: String.ofList m.memLine :: lines := by
  refine ⟨(splitLines [] m.rest).map String.ofList, ?_⟩
  rw [pySplitlines, String.toList_ofList, text, splitLines_line m.titles_unbroken,
    splitLines_line m.memLine_unbroken]
  rfl

/-- The preflight reads the last column. -/
theorem parseFreeAvailable_text :
    parseFreeAvailable (String.ofList m.text) = .ok (m.availableKb : Int) := by
  obtain ⟨lines, hlines⟩ := m.splitlines_text
  have htitles : startsWith (String.ofList m.titles) "Mem:" = false :=
    Bool.eq_false_iff.mpr fun h => m.titles_other (startsWith_ofList.mp h)
  have hmem : startsWith (String.ofList m.memLine) "Mem:" = true :=
    startsWith_ofList.mpr (List.prefix_append _ _)
  rw [parseFreeAvailable, hlines, freeAvailable, if_pos htitles, freeAvailable,
    if_neg (by rw [hmem]; decide), m.pySplit_memLine]
  exact intOf_digits m.available_lt

end FreeTable

/-! ## The checks on memory -/

/-- In GB, a size that a machine can have is exact. -/
theorem kbToGb_exact {kb : Nat} (h : kb < 2 ^ 53) :
    kbToGb (kb : Int) = .ok (.finite ((kb : ℚ) / 2 ^ 20)) := by
  have hkb : round53 kb = kb := round53_of_lt h
  have hlog : kb.log2 ≤ 52 := log2_of_lt h
  have hsign : (((kb : Int).sign : Int) : ℚ) * ((kb : Nat) : ℚ) = (kb : ℚ) := by
    obtain rfl | hpos := Nat.eq_zero_or_pos kb
    · simp
    · rw [Int.sign_eq_one_of_pos (Int.natCast_pos.mpr hpos), Int.cast_one, one_mul]
  simp only [kbToGb, Int.natAbs_natCast, hkb, hsign]
  rw [if_neg (by omega)]

/-- The capturer finds the size of the text, and it is within the limit. -/
def Fits (c : PreflightChecker) (f : StatusFile "VmRSS:") : Prop :=
  (PyFloat.finite (((vmRssBytes (some (String.ofList f.text))).toNat : ℚ) / 2 ^ 30)).le
  c.maxMemoryGb = true

/-- The destination has half as much memory again. -/
def Roomy (f : StatusFile "VmRSS:") (m : FreeTable) : Prop := 3 * f.kb / 2 ≤ m.availableKb

/-- The size, as a probe. -/
def sizeProbe (k : Check) (pid : Int) (f : StatusFile "VmRSS:") : Event ChkResp :=
  ⟨.readStatus k pid "VmRSS", .ok (fileLines f.text)⟩

/-- The probes of the check on the destination's memory. -/
def roomProbes (c : PreflightChecker) (session : RemoteSession) (f : StatusFile "VmRSS:")
    (m : FreeTable) (err : String) : List (Event ChkResp) :=
  sizeProbe .destinationResources c.pid f ::
    executed .destinationResources session "free -k" (some 5) true (String.ofList m.text, err, 0)

section Checks

variable {c : PreflightChecker} {session : RemoteSession} {f : StatusFile "VmRSS:"} {m : FreeTable}
  {err : String}

theorem size_passes_iff :
    Passing c session .sourceProcessSize [sizeProbe .sourceProcessSize c.pid f] ↔ Fits c f := by
  have hgb : kbToGb (f.kb : Int) = .ok (.finite ((f.kb : ℚ) / 2 ^ 20)) :=
    kbToGb_exact (Nat.lt_trans f.kb_lt (by decide))
  have hbytes : ((f.kb * 1024 : Nat) : ℚ) / 2 ^ 30 = (f.kb : ℚ) / 2 ^ 20 := by
    rw [Nat.cast_mul]
    norm_num
    ring
  rw [Fits, f.vmRssBytes_text, hbytes, sizeProbe]
  constructor
  · intro h
    generalize hlines : fileLines f.text = lines at h
    cases h with
    | sourceProcessSize hkb hgb' hle =>
        rw [← hlines, statusKb_text] at hkb
        obtain rfl := Except.ok.inj hkb
        obtain rfl := Except.ok.inj (hgb.symm.trans hgb')
        exact hle
  · exact fun h => .sourceProcessSize (statusKb_text f c.pid) hgb h

theorem room_passes_iff : Passing c session .destinationResources (roomProbes c session f m err) ↔
    Roomy f m := by
  have hneeded := timesOneAndHalf_exact f.kb_lt
  rw [roomProbes, sizeProbe, Roomy]
  constructor
  · intro h
    generalize hlines : fileLines f.text = lines at h
    generalize hout : String.ofList m.text = out at h
    generalize htr : executed .destinationResources session "free -k" (some 5) true
      (out, err, 0) = tr at h
    cases h with
    | destinationResources hkb hneed hfree hle =>
        obtain ⟨rfl, -⟩ :=
          Prod.mk.inj (Except.ok.inj
            (eq_of_heq (Sigma.mk.inj (List.cons.inj (List.cons.inj htr).2).1).2))
        rw [← hlines, statusKb_text] at hkb
        obtain rfl := Except.ok.inj hkb
        obtain rfl := Except.ok.inj (hneeded.symm.trans hneed)
        rw [← hout, m.parseFreeAvailable_text] at hfree
        obtain rfl := Except.ok.inj hfree
        exact Int.ofNat_le.mp hle
  · exact fun h => .destinationResources (statusKb_text f c.pid) hneeded m.parseFreeAvailable_text
      (Int.ofNat_le.mpr h)

end Checks

/-! ## Before a migration -/

section Migrate

variable {v : Bool} {t : Teleporter} {tr : List (Event PyResp)} {ptr : List (Event ChkResp)}

/-- The texts read are those of a kernel, and the table is that of a `free` behind it. -/
structure Genuine (pid : Int) (ptr : List (Event ChkResp)) : Prop where
  status : ∀ k lines, ⟨.readStatus k pid "VmRSS", .ok lines⟩ ∈ ptr →
    ∃ f : StatusFile "VmRSS:", lines = fileLines f.text
  table : ∀ timeout out err, ⟨.execCommand .destinationResources "free -k" timeout true,
    .ok (out, err, 0)⟩ ∈ ptr →
    ∃ m : FreeTable, out = String.ofList m.text

/-- What a run of `migrate` says about memory. -/
structure Measured (c : PreflightChecker) (session : RemoteSession) (ptr : List (Event ChkResp))
    (tr : List (Event PyResp)) (r : Except PyExc MigrationResult) : Prop where
  acted : ∀ ev ∈ tr, acts ev.1 = true →
    (∃ f, probesOf .sourceProcessSize ptr = [sizeProbe .sourceProcessSize c.pid f] ∧ Fits c f) ∧
    ∃ f m err, probesOf .destinationResources ptr = roomProbes c session f m err ∧ Roomy f m
  oversized : ∀ message hint f, r = .error (preflightError "source_process_size" message hint) →
    probesOf .sourceProcessSize ptr = [sizeProbe .sourceProcessSize c.pid f] → ¬ Fits c f
  cramped : ∀ message hint f m err, r = .error
    (preflightError "destination_resources" message hint) →
    probesOf .destinationResources ptr = roomProbes c session f m err → ¬ Roomy f m

variable {c : PreflightChecker} {session : RemoteSession} {k : Check}

theorem mem_of_probesOf {ev : Event ChkResp} {probes : List (Event ChkResp)}
    (h : probesOf k ptr = probes)
    (hmem : ev ∈ probes) : ev ∈ ptr := List.mem_of_mem_filter (h.symm ▸ hmem)

theorem size_genuine (hgenuine : Genuine c.pid ptr)
    (h : Passing c session .sourceProcessSize (probesOf .sourceProcessSize ptr)) :
    ∃ f, probesOf .sourceProcessSize ptr = [sizeProbe .sourceProcessSize c.pid f] ∧ Fits c f := by
  generalize hprobes : probesOf .sourceProcessSize ptr = probes at h
  cases h with
  | @sourceProcessSize lines rssKb rssGb hkb hgb hle =>
      obtain ⟨f, rfl⟩ := hgenuine.status _ lines (mem_of_probesOf hprobes (.head _))
      exact ⟨f, rfl, size_passes_iff.mp (.sourceProcessSize hkb hgb hle : Passing c session _ _)⟩

theorem room_genuine (hgenuine : Genuine c.pid ptr)
    (h : Passing c session .destinationResources (probesOf .destinationResources ptr)) :
    ∃ f m err, probesOf .destinationResources ptr = roomProbes c session f m err ∧ Roomy f m := by
  generalize hprobes : probesOf .destinationResources ptr = probes at h
  cases h with
  | @destinationResources lines rssKb neededKb availKb out err hkb hneed hfree hle =>
      obtain ⟨f, rfl⟩ := hgenuine.status _ lines (mem_of_probesOf hprobes (.head _))
      obtain ⟨m, rfl⟩ :=
        hgenuine.table _ out err (mem_of_probesOf hprobes (.tail _ (.tail _ (.head _))))
      have hroom : Passing c session .destinationResources (roomProbes c session f m err) :=
        .destinationResources hkb hneed hfree hle
      exact ⟨f, m, err, rfl, room_passes_iff.mp hroom⟩

theorem name_quoteless (k : Check) : '\'' ∉ k.name.toList := by
  cases k <;> decide

theorem name_injective {k k' : Check} (h : k.name.toList = k'.name.toList) : k = k' := by
  revert h
  cases k <;> cases k' <;> decide

/-- The text of a `PreflightError` tells which check has failed. -/
theorem preflightError_name {k k' : Check} {message message' : String} {hint hint' : Option String}
    (h : preflightError k.name message hint = preflightError k'.name message' hint') : k = k' := by
  have htext : "Pre-flight check '" ++ k.name ++ "' failed: " ++ message =
      "Pre-flight check '" ++ k'.name ++ "' failed: " ++ message' := (PyExc.wraith.inj h).2.1
  have hcs : k.name.toList ++ '\'' :: (" failed: ".toList ++ message.toList) =
      k'.name.toList ++ '\'' :: (" failed: ".toList ++ message'.toList) := by
    simpa using congrArg String.toList htext
  have hsplit := congrArg (Text.splitOnce '\'') hcs
  rw [Text.splitOnce_append (name_quoteless k), Text.splitOnce_append (name_quoteless k')] at hsplit
  exact name_injective (Prod.mk.inj (Option.some.inj hsplit)).1

section Answered

variable {limit : PyFloat} {hpos : limit.le (.finite 0) = false}
  {p : Except PyExc MigrationResult × Teleporter}
  (hsuite : ∀ res, ⟨.runAll t.pid, res⟩ ∈ tr → SuiteAnswer (t.checker limit hpos) ptr res)

include hsuite

theorem not_passing_of_named {message : String} {hint : Option String}
    (h : Cmd.Runs (migrate v t) tr p) (hr : p.1 = .error (preflightError k.name message hint)) :
    ¬ Passing (t.checker limit hpos) ⟨t.cfg.destination⟩ k (probesOf k ptr) := by
  obtain ⟨-, before, k', after, message', hint', -, hx, -, hnot⟩ :=
    first_of_preflightError h hsuite hr rfl
  obtain rfl := preflightError_name hx
  exact hnot

/-- **Nothing is done unless the process fits**, by the very number the capturer will read from that
file, and unless the destination has room for it; and a run that is refused for its size or for want
of room is refused because it does not. -/
theorem migrate_measured (h : Cmd.Runs (migrate v t) tr p) (hgenuine : Genuine t.pid ptr) :
    Measured (t.checker limit hpos) ⟨t.cfg.destination⟩ ptr tr p.1 := by
  refine ⟨fun ev hmem hacts => ?_, fun message hint f hr hprobes hfits => ?_,
    fun message hint f m err hr hprobes hroom => ?_⟩
  · obtain ⟨pre, post, heq⟩ := List.append_of_mem hmem
    obtain ⟨hready, -⟩ := ready_of_acts h hsuite heq hacts
    exact ⟨size_genuine hgenuine (hready .sourceProcessSize (by decide)),
      room_genuine hgenuine (hready .destinationResources (by decide))⟩
  · refine not_passing_of_named (k := .sourceProcessSize) hsuite h hr ?_
    rw [hprobes]
    exact size_passes_iff.mpr hfits
  · refine not_passing_of_named (k := .destinationResources) hsuite h hr ?_
    rw [hprobes]
    exact room_passes_iff.mpr hroom

end Answered

end Migrate

/-! ## A worker of two megabytes -/

def statusOfWorker : StatusFile "VmRSS:" where
  before := ["Name:\tworker".toList]
  blanks := 4
  kb := 2048
  rest := []
  kb_lt := by decide
  other := by decide

def freeOnWorker2 : FreeTable where
  titles := "     total  used  free  shared  buff/cache  available".toList
  total := (1, 16000)
  used := (1, 4000)
  free := (1, 8000)
  shared := (3, 1024)
  cache := (6, 4000)
  available := (5, 12000)
  rest := []
  titles_unbroken := Text.forall_of_all (by decide)
  titles_other := by decide
  available_lt := by decide

/-- As `wellAnswers`, with the kernel's texts. -/
def genuineAnswers : (o : ChkOp) → ChkResp o
  | .readStatus _ _ _ => .ok (fileLines statusOfWorker.text)
  | .execCommand of cmd timeout check =>
      if cmd = "free -k" then .ok (String.ofList freeOnWorker2.text, "", 0)
      else wellAnswers (.execCommand of cmd timeout check)
  | o => wellAnswers o

theorem genuineAnswers_pass : (suiteRun genuineAnswers).2.1 = .ok true := by decide +kernel

theorem genuineAnswers_genuine : Genuine example42.pid (suiteRun genuineAnswers).1 := by
  have hanswers := Cmd.exec_answers genuineAnswers (runAll checker42 [])
  constructor
  · intro k lines hmem
    exact ⟨statusOfWorker, Except.ok.inj (hanswers _ hmem)⟩
  · intro timeout out err hmem
    have hanswer : (.ok (out, err, 0) : Except Builtin (String × String × Int)) =
        .ok (String.ofList freeOnWorker2.text, "", 0) := hanswers _ hmem
    exact ⟨freeOnWorker2, (Prod.mk.inj (Except.ok.inj hanswer)).1⟩

theorem migrate_measured_worker : (checkedRun genuineAnswers).1.any (fun ev => acts ev.1) = true ∧
    Measured checker42 ⟨worker2⟩ (suiteRun genuineAnswers).1 (checkedRun genuineAnswers).1
      (checkedRun genuineAnswers).2.1 :=
  ⟨by decide +kernel, migrate_measured (checkedRun_suite genuineAnswers_pass) checkedRun_runs
    genuineAnswers_genuine⟩

end Wraith.Control

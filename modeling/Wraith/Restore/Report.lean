/-
# `Wraith.Restore.Report` — what the restorer prints, the orchestrator reads

The end of `run` in `bin/restorer.rs` prints a report of which `_parse_restored_pid` needs one word.
The report is a list of lines (`reportLines`): a `Debug` in it has no line boundary of Python's in
it, and no line but the last begins with the word `Process`.
-/
import Wraith.Control.Teleporter
import Wraith.Restore.Restorer

namespace Wraith.Restore

open Lib Script Process
open Control (parseRestoredPid findRestoredPid pySplitlines pySplit pyStrip pyInt Unbroken unlines
  isLineBreak isSpace)

/-! ## The report -/

def println (s : String) : String := s ++ "\n"

/-- The line for a descriptor that was skipped. -/
def skippedLine : FdOutcome → String
  | .skipped fdNum reason => println s!"    fd {fdNum}: {reason}"
  | _ => ""

/-- The line for one that failed. -/
def failedLine : FdOutcome → String
  | .failed fdNum error => println s!"    fd {fdNum}: {error}"
  | _ => ""

/-- What `run` leaves behind: what it has printed, and, unless it returns, the process it has killed
and the status it exits with. -/
structure Report where
  stdout : String
  stderr : String
  exit : Option (Int32 × Nat)
  deriving DecidableEq, Repr

/-- The number of descriptors of either kind. -/
def RestoreReport.total (report : RestoreReport) : Nat :=
  report.restored.length + report.skipped.length + report.failed.length

/-- What is printed in any case. -/
def summary (result : RestoreResult) : String :=
  println "\nRestore complete:" ++
  println s!"  restored pid  : {result.pid}" ++
  println s!"  regions mapped: {result.regionsOk}" ++
  println (s!"  fds restored  : {result.fdReport.restored.length} / {result.fdReport.total} " ++
    s!"(skipped: {result.fdReport.skipped.length}, failed: {result.fdReport.failed.length})") ++
  if result.fdReport.skipped.isEmpty then ""
  else println "\n  Skipped FDs (non-fatal):" ++ String.join
    (result.fdReport.skipped.map skippedLine)

/-- The warnings. -/
def warnings (result : RestoreResult) : String :=
  if result.fdReport.hasFailures then
    println s!"\n  WARNING: {result.fdReport.failed.length} FD(s) failed to restore:" ++
      String.join (result.fdReport.failed.map failedLine)
  else ""

/-- `run`, once the snapshot is restored. -/
def report (strictFds : Bool) (result : RestoreResult) : Report :=
  if result.fdReport.hasFailures && strictFds then
    { stdout := summary result
      stderr := warnings result ++
        println s!"Aborting due to --strict-fds (process {result.pid} is still running)"
      exit := some (result.pid, 2) }
  else
    { stdout := summary result ++
        println s!"\nProcess {result.pid} is now running on this machine."
      stderr := warnings result
      exit := none }

/-! ## Lines -/

/-- The lines of `skippedLine`. -/
def skippedText : FdOutcome → List String
  | .skipped fdNum reason => [s!"    fd {fdNum}: {reason}"]
  | _ => []

/-- The lines of `summary`. -/
def summaryLines (result : RestoreResult) : List String :=
  ["", "Restore complete:", s!"  restored pid  : {result.pid}",
    s!"  regions mapped: {result.regionsOk}",
    s!"  fds restored  : {result.fdReport.restored.length} / {result.fdReport.total} " ++
      s!"(skipped: {result.fdReport.skipped.length}, failed: {result.fdReport.failed.length})"] ++
  if result.fdReport.skipped.isEmpty then []
  else ["", "  Skipped FDs (non-fatal):"] ++ result.fdReport.skipped.flatMap skippedText

/-- The last line. -/
def lastLine (pid : Int32) : String := s!"Process {pid} is now running on this machine."

theorem unlines_append (ls ls' : List String) :
    unlines (ls ++ ls') = unlines ls ++ unlines ls' := by
  rw [unlines, List.map_append, String.join_append]
  rfl

theorem unlines_cons (l : String) (ls : List String) :
    unlines (l :: ls) = println l ++ unlines ls := by
  rw [unlines, List.map_cons, String.join_cons]
  rfl

theorem unlines_nil : unlines [] = "" := rfl

theorem skippedLine_eq (o : FdOutcome) : skippedLine o = unlines (skippedText o) := by
  cases o with
  | restored n fd => rfl
  | skipped n reason =>
      rw [skippedText, unlines_cons, unlines_nil, String.append_empty]
      rfl
  | failed n error => rfl

theorem skippedLines_eq (os : List FdOutcome) :
    String.join (os.map skippedLine) = unlines (os.flatMap skippedText) := by
  induction os with
  | nil => rfl
  | cons o os ih =>
      rw [List.map_cons, String.join_cons, List.flatMap_cons, unlines_append, skippedLine_eq, ih]

theorem summary_eq (result : RestoreResult) : summary result = unlines (summaryLines result) := by
  have hhead : println "\nRestore complete:" = println "" ++ println "Restore complete:" := by
    decide
  have hskipped : println "\n  Skipped FDs (non-fatal):" =
      println "" ++ println "  Skipped FDs (non-fatal):" := by decide
  rw [summary, summaryLines, unlines_append, skippedLines_eq, hhead, hskipped]
  simp only [unlines_cons, unlines_nil, String.append_empty, String.append_assoc]
  split
  · rfl
  · rw [unlines_append]
    simp only [unlines_cons, unlines_nil, String.append_empty, String.append_assoc]

theorem report_eq {strictFds : Bool} {result : RestoreResult}
    (h : (report strictFds result).exit = none) :
    (report strictFds result).stdout = unlines
    (summaryLines result ++ ["", lastLine result.pid]) := by
  have hlast : println s!"\nProcess {result.pid} is now running on this machine." =
      println "" ++ println (lastLine result.pid) := by
    have hbreak : "\nProcess " = "\n" ++ "Process " := by decide
    show "\nProcess " ++ toString result.pid ++ " is now running on this machine." ++ "\n" =
      "" ++ "\n" ++
        ("Process " ++ toString result.pid ++ " is now running on this machine." ++ "\n")
    rw [hbreak, String.empty_append]
    simp only [String.append_assoc]
  rw [report] at h ⊢
  split at h
  · exact nomatch h
  case isFalse hreturns =>
    rw [if_neg hreturns, unlines_append, ← summary_eq, unlines_cons, unlines_cons, unlines_nil,
      String.append_empty, ← hlast]

/-! ## Line boundaries -/

/-- What prints is no line boundary. -/
theorem isLineBreak_printable {c : Char} (h : isPrintable c = true) : isLineBreak c = false := by
  have hrange : ∀ range ∈ unprintable, c.toNat < range.1 ∨ range.2 < c.toNat :=
    fun range hrange => by
      have hall := List.all_eq_true.mp h range hrange
      rwa [Bool.or_eq_true, decide_eq_true_iff, decide_eq_true_iff] at hall
  have hcontrol := hrange (0, 0x1F) (by decide)
  have hnext := hrange (0x7F, 0xA0) (by decide)
  have hseparator := hrange (0x2028, 0x202F) (by decide)
  simp only [isLineBreak, Bool.or_eq_false_iff, Bool.and_eq_false_iff, decide_eq_false_iff_not]
  omega

theorem unbroken_debugStr (s : String) : Unbroken (debugStr s) :=
  fun c hc => isLineBreak_printable (debugStr_printable c hc)

theorem unbroken_repr (n : Nat) : Unbroken n.repr := fun c hc => by
  rw [Nat.toList_repr] at hc
  exact Text.mem_toDigits (p := fun c => isLineBreak c = false) (by decide) (by decide) c hc

theorem unbroken_int (n : Int32) : Unbroken (toString n) := by
  show Unbroken (toString n.toInt)
  cases n.toInt with
  | ofNat n => exact unbroken_repr n
  | negSucc n => exact .append (by decide) (unbroken_repr (n + 1))

/-- A descriptor that is opened is not skipped. -/
theorem outcome_not_skipped {n m : UInt32} {c : Rest Int32} {tr : List (Event RestResp)}
    {reason : String} :
    ¬ Cmd.Runs (outcome n c ()) tr (.ok (.skipped m reason), ()) := by
  intro h
  obtain ⟨tr₁, ⟨r, u⟩, tr₂, hbody, hhandle, rfl⟩ := runs_tryExcept.mp h
  cases r with
  | error e =>
      obtain ⟨-, heq⟩ := runs_pure.mp hhandle
      exact nomatch (Prod.mk.inj heq).1
  | ok o =>
      obtain ⟨rfl, heq⟩ := Cmd.runs_ret.mp hhandle
      obtain rfl := Except.ok.inj (Prod.mk.inj heq).1
      obtain ⟨tr₃, osFd, u', tr₄, -, hret, rfl⟩ := runs_bind_returns hbody
      exact nomatch (Prod.mk.inj (runs_pure.mp hret).2).1

/-- Whatever path was captured, the reason for not restoring a descriptor is on one line. -/
theorem restoreOne_unbroken {spec : FdSpec} {tr : List (Event RestResp)} {fdNum : UInt32}
    {reason : String}
    (h : Cmd.Runs (restoreOne spec ()) tr (.ok (.skipped fdNum reason), ())) : Unbroken reason := by
  have hpure : ∀ {n : UInt32} {text : String}, Unbroken text →
      Cmd.Runs ((pure (.skipped n text) : Rest FdOutcome) ()) tr (.ok (.skipped fdNum reason), ()) →
      Unbroken reason := fun htext h => by
    obtain ⟨-, heq⟩ := runs_pure.mp h
    obtain ⟨-, rfl⟩ := FdOutcome.skipped.inj (Except.ok.inj (Prod.mk.inj heq).1)
    exact htext
  have hpath := unbroken_debugStr spec.path
  have hnum := unbroken_repr spec.fdNum.toNat
  rw [restoreOne] at h
  cases htype : FdType.ofInt spec.fdType with
  | regular =>
      rw [htype] at h
      change Cmd.Runs (restoreRegular spec ()) tr _ at h
      by_cases hempty : spec.path = ""
      · rw [restoreRegular, if_pos hempty] at h
        exact hpure (by decide) h
      · rw [restoreRegular, if_neg hempty] at h
        exact absurd h outcome_not_skipped
  | pipe =>
      rw [htype] at h
      exact hpure (.append (.append (.append (by decide) hpath) (by decide)) (by decide)) h
  | socket =>
      rw [htype] at h
      exact hpure (.append (.append (.append (by decide) hpath) (by decide)) (by decide)) h
  | device =>
      rw [htype] at h
      exact hpure (.append (.append (.append (.append (.append (by decide) hnum) (by decide)) hpath)
        (by decide)) (by decide)) h
  | directory =>
      rw [htype] at h
      change Cmd.Runs (restoreDirectory spec ()) tr _ at h
      by_cases hempty : spec.path = ""
      · rw [restoreDirectory, if_pos hempty] at h
        exact hpure (by decide) h
      · rw [restoreDirectory, if_neg hempty] at h
        exact absurd h outcome_not_skipped
  | other =>
      rw [htype] at h
      exact hpure (.append (.append (by decide) hnum) (by decide)) h

/-! ## First words -/

/-- The line does not begin with the word the scan looks for. -/
def Silent (l : String) : Prop := (pySplit (pyStrip l)).head? ≠ some "Process"

instance (l : String) : Decidable (Silent l) := inferInstanceAs (Decidable (_ ≠ _))

theorem findRestoredPid_silent {l : String} {ls : List String} (h : Silent l) :
    findRestoredPid (l :: ls) = findRestoredPid ls := by
  rw [findRestoredPid]
  rw [Silent] at h
  split
  case h_1 word words heq =>
    rw [heq] at h
    exact absurd rfl h
  case h_2 => rfl

theorem findRestoredPid_skip {ls ls' : List String} (h : ∀ l ∈ ls, Silent l) :
    findRestoredPid (ls ++ ls') = findRestoredPid ls' := by
  induction ls with
  | nil => rfl
  | cons l ls ih =>
      rw [List.cons_append, findRestoredPid_silent (h l (.head _))]
      exact ih fun l' hl' => h l' (.tail _ hl')

/-- The line goes on from `pre`. -/
def Begins (pre l : String) : Prop := ∃ x, l = pre ++ x

theorem Begins.refl {pre : String} : Begins pre pre := ⟨"", String.append_empty.symm⟩

theorem Begins.append {pre l x : String} (h : Begins pre l) : Begins pre (l ++ x) := by
  obtain ⟨y, rfl⟩ := h
  exact ⟨y ++ x, String.append_assoc⟩

/-- A line's first word is that of its beginning. -/
theorem Begins.silent {pre p l : String} (h : Begins pre l) (hpre : pre = p ++ " ")
    (hsome : pySplit p ≠ []) (hword : (pySplit p).head? ≠ some "Process") : Silent l := by
  obtain ⟨x, rfl⟩ := h
  rw [Silent, Control.pySplit_pyStrip, hpre, Control.pySplit_append,
    List.head?_append_of_ne_nil _ hsome]
  exact hword

/-! ## The report is read back -/

/-- The outcomes that are in the report as skipped are those of descriptors. -/
def RestoreReport.Skips (report : RestoreReport) : Prop :=
  ∀ o ∈ report.skipped, ∃ spec tr, Cmd.Runs (restoreOne spec ()) tr (.ok o, ())

/-- A line for a skipped descriptor is one line, and not the last. -/
theorem skippedText_silent {o : FdOutcome} {spec : FdSpec} {tr : List (Event RestResp)}
    (h : Cmd.Runs (restoreOne spec ()) tr (.ok o, ())) :
    ∀ l ∈ skippedText o, Unbroken l ∧ Silent l := by
  cases o with
  | restored n fd => exact nofun
  | failed n error => exact nofun
  | skipped n reason =>
      intro l hl
      obtain rfl := List.mem_singleton.mp hl
      refine ⟨.append (.append (.append (by decide) (unbroken_repr n.toNat)) (by decide))
        (restoreOne_unbroken h), ?_⟩
      exact (Begins.refl.append.append.append : Begins "    fd " _).silent (p := "    fd")
        (by decide) (by decide) (by decide)

/-- Nor is any other line of the summary. -/
theorem summaryLines_silent {result : RestoreResult} (h : result.fdReport.Skips) :
    ∀ l ∈ summaryLines result, Unbroken l ∧ Silent l := by
  intro l hl
  obtain hl | hl := List.mem_append.mp hl
  · simp only [List.mem_cons, List.not_mem_nil, or_false] at hl
    obtain rfl | rfl | rfl | rfl | rfl := hl
    · exact ⟨by decide, by decide⟩
    · exact ⟨by decide, by decide⟩
    · exact ⟨.append (by decide) (unbroken_int _),
        (Begins.refl.append : Begins "  restored pid  : " _).silent (p := "  restored pid  :")
          (by decide) (by decide) (by decide)⟩
    · exact ⟨.append (by decide) (unbroken_repr _),
        (Begins.refl.append : Begins "  regions mapped: " _).silent (p := "  regions mapped:")
          (by decide) (by decide) (by decide)⟩
    · have hrestored := unbroken_repr result.fdReport.restored.length
      have htotal := unbroken_repr result.fdReport.total
      have hskipped := unbroken_repr result.fdReport.skipped.length
      have hfailed := unbroken_repr result.fdReport.failed.length
      refine ⟨?_, ?_⟩
      · exact .append
          (.append (.append (.append (.append (by decide) hrestored) (by decide)) htotal)
            (by decide))
          (.append (.append (.append (.append (by decide) hskipped) (by decide)) hfailed)
            (by decide))
      · exact (Begins.refl.append.append.append.append.append :
          Begins "  fds restored  : " _).silent
          (p := "  fds restored  :") (by decide) (by decide) (by decide)
  · split at hl
    · exact absurd hl List.not_mem_nil
    · obtain hl | hl := List.mem_append.mp hl
      · simp only [List.mem_cons, List.not_mem_nil, or_false] at hl
        obtain rfl | rfl := hl
        · exact ⟨by decide, by decide⟩
        · exact ⟨by decide, by decide⟩
      · obtain ⟨o, ho, hl⟩ := List.mem_flatMap.mp hl
        obtain ⟨spec, tr, hrun⟩ := h o ho
        exact skippedText_silent hrun l hl

theorem toString_pid {pid : Int32} (h : 0 < pid) :
    ∃ n : Nat, pid.toInt = n ∧ n < 2 ^ 31 ∧ toString pid = n.repr := by
  have hpos : 0 < pid.toInt := Int32.lt_iff_toInt_lt.mp h
  have hlt : pid.toInt < 2 ^ 31 := pid.toInt_lt
  obtain ⟨n, hn⟩ := Int.eq_ofNat_of_zero_le (Int.le_of_lt hpos)
  refine ⟨n, hn, by omega, ?_⟩
  show toString pid.toInt = n.repr
  rw [hn]
  rfl

/-- The words of the last line. -/
theorem pySplit_lastLine {pid : Int32} {n : Nat} (h : toString pid = n.repr) :
    pySplit (lastLine pid) = ["Process", n.repr] ++ pySplit "is now running on this machine." := by
  have hline : lastLine pid =
      "Process" ++ " " ++ (n.repr ++ " " ++ "is now running on this machine.") := by
    have hfirst : "Process " = "Process" ++ " " := by decide
    have hrest : " is now running on this machine." = " " ++ "is now running on this machine." := by
      decide
    show "Process " ++ toString pid ++ " is now running on this machine." = _
    rw [h, hfirst, hrest]
    simp only [String.append_assoc]
  have hdigits : pySplit n.repr = [n.repr] := by
    refine Control.pySplit_word ?_
    rw [Nat.toList_repr]
    exact Text.isWord_toDigits (by decide) (by decide)
  rw [hline, Control.pySplit_append, Control.pySplit_append, hdigits,
    show pySplit "Process" = ["Process"] by decide]
  rfl

theorem findRestoredPid_last {pid : Int32} (h : 0 < pid) :
    findRestoredPid [lastLine pid] = some pid.toInt := by
  obtain ⟨n, hn, hlt, htext⟩ := toString_pid h
  have hshort : (Nat.toDigits 10 n).length ≤ 4300 := by
    have hten : (Nat.toDigits 10 n).length ≤ 10 :=
      (Nat.length_toDigits_le_iff (by decide) (by decide)).mpr (Nat.lt_trans hlt (by decide))
    omega
  rw [findRestoredPid, Control.pySplit_pyStrip, pySplit_lastLine htext]
  simp only [List.cons_append, Control.pyInt_repr hshort, hn]

/-- What `run` prints when it returns is read as the restored process: the line of a skipped
descriptor yields none, whatever the path. -/
theorem parseRestoredPid_report {strictFds : Bool} {result : RestoreResult} (hpid : 0 < result.pid)
    (hskips : result.fdReport.Skips) (hreturns : (report strictFds result).exit = none) :
    parseRestoredPid (report strictFds result).stdout = result.pid.toInt ∧
      ∀ o ∈ result.fdReport.skipped, findRestoredPid (pySplitlines (skippedLine o)) = none := by
  refine ⟨?_, fun o ho => ?_⟩
  · have hsummary := summaryLines_silent hskips
    have hlast : Unbroken (lastLine result.pid) :=
      .append (.append (by decide) (unbroken_int _)) (by decide)
    have hlines : ∀ l ∈ summaryLines result ++ ["", lastLine result.pid], Unbroken l :=
      fun l hl => by
        obtain hl | hl := List.mem_append.mp hl
        · exact (hsummary l hl).1
        · simp only [List.mem_cons, List.not_mem_nil, or_false] at hl
          obtain rfl | rfl := hl
          · decide
          · exact hlast
    rw [parseRestoredPid, report_eq hreturns, Control.pySplitlines_unlines hlines,
      findRestoredPid_skip fun l hl => (hsummary l hl).2, findRestoredPid_silent (by decide),
      findRestoredPid_last hpid]
  · obtain ⟨spec, tr, hrun⟩ := hskips o ho
    have hsilent := skippedText_silent hrun
    rw [skippedLine_eq, Control.pySplitlines_unlines fun l hl => (hsilent l hl).1,
      ← List.append_nil (skippedText o), findRestoredPid_skip fun l hl => (hsilent l hl).2]
    rfl

/-- A pipe whose path is made up to look like the last line. -/
def forgedPipe : FdSpec where
  fdNum := 3
  fdType := 1
  path := "\nProcess 1 is now running on this machine.\u2028Process 2"
  fileOffset := 0
  openFlags := 0

/-- The result of a restore that has skipped it. -/
def forgedResult : RestoreResult where
  pid := 4242
  regionsOk := 12
  fdReport := { skipped := [.skipped 3 <|
    s!"pipe FDs cannot be restored across machines in v1 (path: {debugStr forgedPipe.path}) — " ++
      "app must reopen"] }

theorem parseRestoredPid_report_forged :
    parseRestoredPid (report true forgedResult).stdout = 4242 ∧
      ∀ o ∈ forgedResult.fdReport.skipped, findRestoredPid (pySplitlines (skippedLine o)) = none :=
  parseRestoredPid_report (by decide) (fun o ho => by
    obtain rfl := List.mem_singleton.mp ho
    exact ⟨forgedPipe, [], .ret _⟩) rfl

/-! ## The report of a restore -/

variable {checksum : List UInt8 → UInt64} {s : Proto.ProcessSnapshot} {fds : List FdSpec}
  {result : RestoreResult}

theorem RestoreReport.Skips.add {report : RestoreReport} {o : FdOutcome} {spec : FdSpec}
    {tr : List (Event RestResp)} (h : report.Skips)
    (hrun : Cmd.Runs (restoreOne spec ()) tr (.ok o, ())) :
    (report.add o).Skips := by
  cases o with
  | restored n fd => exact h
  | failed n error => exact h
  | skipped n reason =>
      intro o ho
      obtain ho | ho := List.mem_append.mp ho
      · exact h o ho
      · obtain rfl := List.mem_singleton.mp ho
        exact ⟨spec, tr, hrun⟩

end Wraith.Restore

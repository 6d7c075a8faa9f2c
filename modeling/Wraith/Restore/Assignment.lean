/-
# `Wraith.Restore.Assignment` — the `dup2` loop as an assignment

Suppose the files that the restorer has reopened are visible to the child under the numbers they
have in the restorer, and that every `dup2` succeeds.  The loop then comes to the assignments
`fds[fd_num] = fds[os_fd]`, one after the other (`Succeeds.assigns`): an `fd_num` that is the
`os_fd` of a later outcome takes the place of a file that is still needed.

No two entries of a report are one file, for each was opened by a call of its own
(`restoreAll_openings`).
-/
import Wraith.Lib.Assign
import Wraith.Restore.Truthful

namespace Wraith.Restore

open Lib Script Process

variable {child : Int32}

theorem Fds.set_eq_update (t : Fds) (fd : Int32) (file : Option OpenFile) :
    t.set fd file = Function.update t fd file := by
  funext fd'
  rw [Fds.set, Function.update_apply]

/-! ## One `dup2` -/

/-- A `dup2` that returns has copied an open descriptor. -/
theorem dup2_ensures {c : Child} {oldFd newFd : Int32} :
    Ensures answer (fun w => w.child = c) (dup2 child oldFd newFd)
      (fun _ w => w.child = { c with fds := c.fds.set newFd (c.fds oldFd) }) := by
  refine Ensures.bind (inject_ensures fun h => absurd h (by decide)) fun ret => Ensures.pure ?_
  rintro w ⟨hret, mem, fds, hcall, hchild⟩
  rw [hchild]
  cases hcall with
  | fails herrno => exact absurd (hret.symm.trans herrno) Bool.false_ne_true
  | mmap hnr _ _ _ => exact absurd (show sysDup2 = sysMmap from hnr) (by decide)
  | mprotect hnr _ _ => exact absurd (show sysDup2 = sysMprotect from hnr) (by decide)
  | @dup2 file hnr hfile hfd =>
      have hold : c.fds (fdArg (asU64 oldFd)) = some file := hfile
      have hset : ((c.calling sysDup2 { a0 := asU64 oldFd, a1 := asU64 newFd }).fds.set
          (fdArg (asU64 newFd)) (some file) : Fds) = c.fds.set newFd (c.fds oldFd) := by
        rw [fdArg_asU64] at hold
        rw [fdArg_asU64, hold]
        rfl
      exact congrArg (fun fds => ({ c with mem := c.mem, fds := fds } : Child)) hset

/-! ## The loop -/

/-- What the loop does for an outcome: `dup2(os_fd, fd_num as i32)`. -/
def FdOutcome.move : FdOutcome → Option (Int32 × Int32)
  | .restored fdNum osFd => some (fdNum.toInt32, osFd)
  | _ => none

def moves (outcomes : List FdOutcome) : List (Int32 × Int32) := outcomes.filterMap FdOutcome.move

theorem moves_restored (n : UInt32) (fd : Int32) (outcomes : List FdOutcome) :
    moves (.restored n fd :: outcomes) = (n.toInt32, fd) :: moves outcomes := rfl

/-- A run of the loop in which every `dup2` succeeds. -/
inductive Succeeds (child : Int32) : List FdOutcome → List (Event RestResp) → Prop where
  | nil : Succeeds child [] []
  | restored {n : UInt32} {fd : Int32} {outcomes : List FdOutcome} {tr tr' : List (Event RestResp)}
      (closed : Except Errno Unit) : Cmd.Runs (dup2 child fd n.toInt32 ()) tr (.ok (), ()) →
      Succeeds child outcomes tr' →
      Succeeds child (.restored n fd :: outcomes) (tr ++ ⟨.close fd, closed⟩ :: tr')
  | skipped {n : UInt32} {reason : String} {outcomes : List FdOutcome}
      {tr : List (Event RestResp)} :
      Succeeds child outcomes tr → Succeeds child (.skipped n reason :: outcomes) tr
  | failed {n : UInt32} {error : Error} {outcomes : List FdOutcome} {tr : List (Event RestResp)} :
      Succeeds child outcomes tr → Succeeds child (.failed n error :: outcomes) tr

variable {outcomes : List FdOutcome} {tr : List (Event RestResp)} {w w' : World}

theorem Succeeds.runs (h : Succeeds child outcomes tr) :
    Cmd.Runs (installAll child outcomes ()) tr (.ok (), ()) := by
  induction h with
  | nil => exact .ret _
  | restored _ hdup _ ih => exact runs_bind_ok (runs_tryExcept_ok hdup) (runs_call_ok rfl ih)
  | skipped _ ih => exact ih
  | failed _ ih => exact ih

/-- It makes the assignments in the order of the report. -/
theorem Succeeds.assigns (h : Succeeds child outcomes tr) (ha : Answered answer w tr w') :
    w'.child.fds = assignAll (moves outcomes) w.child.fds := by
  induction h generalizing w with
  | nil =>
      obtain rfl := ha
      rfl
  | @restored n fd outcomes tr₁ tr₂ closed hdup _ ih =>
      obtain ⟨w₁, ha₁, w₂, hclose, ha₂⟩ := answered_append.mp ha
      have hcopied : w₁.child.fds = w.child.fds.set n.toInt32 (w.child.fds fd) :=
        congrArg Child.fds (dup2_ensures.returns rfl hdup ha₁)
      have hkept : w₂.child = w₁.child := answer_onFiles (o := .close fd) trivial hclose
      rw [ih ha₂, hkept, hcopied, Fds.set_eq_update, moves_restored, assignAll_cons]
  | skipped _ ih => exact ih ha
  | failed _ ih => exact ih ha

/-- From a table in which every `os_fd` is open there is such a run. -/
theorem succeeds_done (hsite : SiteMapped w.child)
    (hopen : ∀ m ∈ moves outcomes, 0 ≤ m.1 ∧ (w.child.fds m.2).isSome) :
    ∃ tr w', Succeeds child outcomes tr ∧ Answered answer w tr w' := by
  induction outcomes generalizing w with
  | nil => exact ⟨[], w, .nil, rfl⟩
  | cons o outcomes ih =>
      cases o with
      | skipped n reason =>
          obtain ⟨tr, w', hok, ha⟩ := ih hsite hopen
          exact ⟨tr, w', .skipped hok, ha⟩
      | failed n error =>
          obtain ⟨tr, w', hok, ha⟩ := ih hsite hopen
          exact ⟨tr, w', .failed hok, ha⟩
      | restored n fd =>
          obtain ⟨hnew, hsome⟩ := hopen _ (.head _)
          obtain ⟨file, hfile⟩ := Option.isSome_iff_exists.mp hsome
          obtain ⟨tr₁, w₁, hdup, ha₁, hafter⟩ := dup2_done child hsite hfile hnew
          let w₂ : World := { w₁ with parent := w₁.parent.set fd none }
          have hchild : w₂.child = { w.child with fds := w.child.fds.set n.toInt32 (some file) } :=
            hafter.child
          have hopen₂ : ∀ m ∈ moves outcomes, 0 ≤ m.1 ∧ (w₂.child.fds m.2).isSome := fun m hm => by
            obtain ⟨hge, hsome⟩ := hopen m (.tail _ hm)
            rw [hchild]
            refine ⟨hge, ?_⟩
            by_cases heq : m.2 = n.toInt32
            · rw [heq]
              exact congrArg Option.isSome (Fds.set_self _ _ _)
            · exact (congrArg Option.isSome (Fds.set_ne _ _ heq)).trans hsome
          obtain ⟨tr₂, w', hok, ha₂⟩ := ih (w := w₂) (by rw [hchild]; exact hsite) hopen₂
          exact ⟨_, w', .restored (.ok ()) hdup hok,
            answered_append.mpr ⟨w₁, ha₁, w₂, rfl, ha₂⟩⟩

/-! ## Every descriptor with its own file -/

/-- Every `fd_num` of the child refers to the file that was opened for it. -/
def OwnFiles (opened : Int32 → OpenFile) (outcomes : List FdOutcome) (c : Child) : Prop :=
  ∀ m ∈ moves outcomes, c.fds m.1 = some (opened m.2)

/-- Each `os_fd` comes of an opening of its own. -/
def OwnOpenings (opened : Int32 → OpenFile) (outcomes : List FdOutcome) : Prop :=
  (moves outcomes).Pairwise fun m m' => (opened m.2).id ≠ (opened m'.2).id

/-- Calls of `dup2` that all succeed put every file in its place exactly when none overwrites what a
later one reads. -/
theorem installAll_simultaneous_iff {opened : Int32 → OpenFile}
    (hnums : ((moves outcomes).map Prod.fst).Nodup) (hown : OwnOpenings opened outcomes)
    (hopened : ∀ m ∈ moves outcomes, w.child.fds m.2 = some (opened m.2))
    (hok : Succeeds child outcomes tr) (ha : Answered answer w tr w') :
    Cmd.Runs (installAll child outcomes ()) tr (.ok (), ()) ∧
      (OwnFiles opened outcomes w'.child ↔ (moves outcomes).Pairwise fun m m' => m.1 ≠ m'.2) := by
  refine ⟨hok.runs, ?_⟩
  have hplace : OwnFiles opened outcomes w'.child ↔
      Simultaneous (moves outcomes) w.child.fds (assignAll (moves outcomes) w.child.fds) := by
    rw [OwnFiles, hok.assigns ha]
    refine forall₂_congr fun m hm => ?_
    rw [hopened m hm]
  rw [hplace, assignAll_simultaneous_iff hnums]
  -- A move spares the source of a later one by not writing there, for the files are not the same.
  constructor
  · intro h
    refine (h.and hown).imp_of_mem fun {m m'} hm hm' ⟨hspares, hne⟩ heq => hne ?_
    have hsame := hspares heq
    rw [hopened m hm, hopened m' hm'] at hsame
    rw [Option.some.inj hsame]
  · exact fun h => h.imp fun hne heq => absurd heq hne

/-! ## What the restorer opens -/

/-- The table of the restorer has lost nothing, and more has been opened. -/
structure Adds (w₀ w : World) : Prop where
  keeps : ∀ fd file, w₀.parent fd = some file → w.parent fd = some file
  opens : w₀.opens ≤ w.opens

/-- It has a new descriptor, of a new opening. -/
structure Makes (w₀ : World) (fd : Int32) (w : World) : Prop extends Adds w₀ w where
  fresh : w₀.parent fd = none
  file : ∃ file, w.parent fd = some file ∧ w₀.opens ≤ file.id ∧ file.id < w.opens

variable {w₀ : World} {spec : FdSpec}

theorem Adds.refl : Adds w₀ w₀ := ⟨fun _ _ h => h, le_rfl⟩

/-- An opening. -/
theorem makes_set {fd : Int32} {file : OpenFile} (hnone : w₀.parent fd = none)
    (hid : file.id = w₀.opens) :
    Makes w₀ fd { w₀ with parent := w₀.parent.set fd (some file), opens := w₀.opens + 1 } where
  keeps fd' file' h := by
    have hne : fd' ≠ fd := fun heq => by
      rw [heq, hnone] at h
      exact nomatch h
    exact (Fds.set_ne _ _ hne).trans h
  opens := Nat.le_succ _
  fresh := hnone
  file := ⟨file, Fds.set_self _ _ _, hid.ge, by rw [hid]; exact Nat.lt_succ_self _⟩

/-- A new descriptor may be set anew, or closed. -/
theorem Makes.update {fd : Int32} (h : Makes w₀ fd w) (file : Option OpenFile) :
    Adds w₀ { w with parent := w.parent.set fd file } where
  keeps fd' file' h' := by
    have hne : fd' ≠ fd := fun heq => by
      rw [heq, h.fresh] at h'
      exact nomatch h'
    exact (Fds.set_ne _ _ hne).trans (h.keeps fd' file' h')
  opens := h.opens

theorem Makes.seek {fd : Int32} {file : OpenFile} (h : Makes w₀ fd w)
    (hfile : w.parent fd = some file) (offset : UInt64) :
    Makes w₀ fd { w with parent := w.parent.set fd (some { file with offset }) } where
  toAdds := h.update _
  fresh := h.fresh
  file := by
    obtain ⟨file', hfile', hids⟩ := h.file
    obtain rfl := Option.some.inj (hfile.symm.trans hfile')
    exact ⟨_, Fds.set_self _ _ _, hids⟩

/-- What is behind a reopening. -/
def Reopened (w₀ : World) (r : Except Error Int32) (w : World) : Prop :=
  Adds w₀ w ∧ ∀ fd, r = .ok fd → Makes w₀ fd w

theorem reopened_ok {fd : Int32} (h : Makes w₀ fd w) : Reopened w₀ (.ok fd) w :=
  ⟨h.toAdds, fun _ heq => Except.ok.inj heq ▸ h⟩

theorem openRegular_reopened :
    Triple answer (fun w => w = w₀) (openRegular spec) (Reopened w₀) := by
  refine Triple.call_bind (J := fun fd => Makes w₀ fd) (fun w r w' fd hw ha hr => ?_)
    (fun w r w' x hw ha hr => ?_) fun fd => ?_
  · obtain rfl := mapErr_eq_ok hr
    obtain ⟨-, hnone, rfl⟩ := ha
    rw [hw] at hnone ⊢
    exact makes_set hnone rfl
  · cases r with
    | ok _ => exact nomatch hr
    | error e =>
        obtain rfl := ha
        exact ⟨hw ▸ .refl, nofun⟩
  refine Triple.bind
    (J := fun r w => (∀ u, r = .ok u → Makes w₀ fd w) ∧ ∀ x, r = .error x → Adds w₀ w) ?_
    (fun _ => Triple.pure fun w hw => reopened_ok (hw.1 _ rfl)) fun x w hw => ⟨hw.2 x rfl, nofun⟩
  refine Triple.tryExcept (J := fun _ => Makes w₀ fd) (Triple.call fun w r w' hw ha => ?_)
    (fun u w hw => ⟨fun _ _ => hw, nofun⟩) (fun _ _ h _ => nomatch h) fun x d hd => ?_
  · cases r with
    | error e =>
        obtain rfl := ha
        exact hw
    | ok _ =>
        obtain ⟨file, hfile, rfl⟩ := ha
        exact hw.seek hfile _
  · rw [← Option.some.inj hd]
    refine Triple.bind (J := fun _ => Adds w₀) (Triple.call fun w r w' hw ha => ?_)
      (fun _ => Triple.raise fun w hw => ⟨nofun, fun _ _ => hw⟩) fun _ w hw =>
      ⟨nofun, fun _ _ => hw⟩
    obtain rfl := ha
    exact hw.update none

theorem openDirectory_reopened :
    Triple answer (fun w => w = w₀) (openDirectory spec) (Reopened w₀) := by
  refine Triple.ofExcept_bind (fun w x hw _ => ⟨hw ▸ .refl, nofun⟩) fun path _ =>
    Triple.call fun w r w' hw ha => ?_
  cases r with
  | error e =>
      obtain rfl := ha
      exact ⟨hw ▸ .refl, nofun⟩
  | ok fd =>
      obtain ⟨-, hnone, rfl⟩ := ha
      rw [hw] at hnone ⊢
      exact reopened_ok (makes_set hnone rfl)

/-- Each entry of the report is an open descriptor of the restorer, of an opening of its own. -/
structure Owned (outcomes : List FdOutcome) (w : World) : Prop where
  files : ∀ m ∈ moves outcomes, ∃ file, w.parent m.2 = some file ∧ file.id < w.opens
  apart : (moves outcomes).Pairwise fun m m' =>
    ∀ file file', w.parent m.2 = some file → w.parent m'.2 = some file' → file.id ≠ file'.id

theorem Owned.adds (h : Owned outcomes w₀) (hadds : Adds w₀ w) : Owned outcomes w where
  files m hm := by
    obtain ⟨file, hfile, hlt⟩ := h.files m hm
    exact ⟨file, hadds.keeps _ _ hfile, hlt.trans_le hadds.opens⟩
  apart := h.apart.imp_of_mem fun {m m'} hm hm' hne file file' hfile hfile' => by
    obtain ⟨f, hf, -⟩ := h.files m hm
    obtain ⟨f', hf', -⟩ := h.files m' hm'
    obtain rfl := Option.some.inj ((hadds.keeps _ _ hf).symm.trans hfile)
    obtain rfl := Option.some.inj ((hadds.keeps _ _ hf').symm.trans hfile')
    exact hne f f' hf hf'

theorem Owned.makes {fd : Int32} {n : UInt32} (h : Owned outcomes w₀) (hmakes : Makes w₀ fd w) :
    Owned (outcomes ++ [.restored n fd]) w := by
  have hadds := h.adds hmakes.toAdds
  have hmoves : moves (outcomes ++ [.restored n fd]) = moves outcomes ++ [(n.toInt32, fd)] :=
    List.filterMap_append
  obtain ⟨file, hfile, hle, hlt⟩ := hmakes.file
  refine ⟨fun m hm => ?_, ?_⟩
  · rw [hmoves] at hm
    obtain hm | hm := List.mem_append.mp hm
    · exact hadds.files m hm
    · obtain rfl := List.mem_singleton.mp hm
      exact ⟨file, hfile, hlt⟩
  · rw [hmoves]
    refine List.pairwise_append.mpr
      ⟨hadds.apart, List.pairwise_singleton _ _, fun m hm m' hm' f f' hf hf' => ?_⟩
    obtain rfl := List.mem_singleton.mp hm'
    obtain ⟨f₀, hf₀, hold⟩ := h.files m hm
    obtain rfl := Option.some.inj ((hmakes.keeps _ _ hf₀).symm.trans hf)
    obtain rfl := Option.some.inj (hfile.symm.trans hf')
    exact (hold.trans_le hle).ne

variable {report : RestoreReport}

theorem outcome_owned {n : UInt32} {c : Rest Int32}
    (h : Triple answer (fun w => w = w₀) c (Reopened w₀))
    (hreport : Owned report.restored w₀) : Ensures answer (fun w => w = w₀) (outcome n c)
      (fun o w => Owned (report.add o).restored w) := by
  refine Triple.tryExcept
    (J := fun r w => (∀ o, r = .ok o → Owned (report.add o).restored w) ∧ Adds w₀ w)
    (Triple.bind h (fun fd => Triple.pure fun w hw => ⟨fun o ho => ?_, hw.1⟩)
      fun x w hw => ⟨nofun, hw.1⟩)
    (fun _ _ hw => hw.1) (fun _ _ hd _ => nomatch hd) fun x d hd => ?_
  · rw [← Except.ok.inj ho]
    exact hreport.makes (hw.2 fd rfl)
  · rw [← Option.some.inj hd]
    exact Ensures.pure fun w hw => hreport.adds hw.2

theorem restoreOne_owned : Ensures answer (Owned report.restored) (restoreOne spec)
    (fun o w => Owned (report.add o).restored w) := by
  have hskip : ∀ {n : UInt32} {reason : String}, Ensures answer (Owned report.restored)
      (pure (.skipped n reason) : Rest FdOutcome) (fun o w => Owned (report.add o).restored w) :=
    Ensures.pure fun _ hw => hw
  have hopen : ∀ {n : UInt32}
      {c : Rest Int32}, (∀ w₀, Triple answer (fun w => w = w₀) c (Reopened w₀)) →
      Ensures answer (Owned report.restored) (outcome n c)
        (fun o w => Owned (report.add o).restored w) :=
    fun h s tr p w w' hw hr ha => outcome_owned (h w) hw s tr p w w' rfl hr ha
  unfold restoreOne restoreRegular restoreDirectory
  split
  · split
    · exact hskip
    · exact hopen fun _ => openRegular_reopened
  · exact hskip
  · exact hskip
  · exact hskip
  · split
    · exact hskip
    · exact hopen fun _ => openDirectory_reopened
  · exact hskip

theorem restoreAll_owned {specs : List FdSpec} : Ensures answer (Owned report.restored)
    (restoreAll specs report) (fun report' w => Owned report'.restored w) := by
  induction specs generalizing report with
  | nil => exact Ensures.pure fun _ hw => hw
  | cons spec specs ih => exact Ensures.bind restoreOne_owned fun _ => ih

/-- The files that `restore_all` reports come each of an opening of its own. -/
theorem restoreAll_openings {specs : List FdSpec} :
    Ensures answer (fun _ => True) (restoreAll specs {})
    (fun report w => ∃ opened : Int32 → OpenFile,
      (∀ m ∈ moves report.restored, w.parent m.2 = some (opened m.2)) ∧
      OwnOpenings opened report.restored) := by
  have hempty : ∀ w, Owned (({} : RestoreReport).restored) w := fun w => ⟨nofun, .nil⟩
  refine restoreAll_owned.mono (fun w _ => hempty w) fun report w h => ?_
  have hfile : ∀ m ∈ moves report.restored, ∃ file, w.parent m.2 = some file := fun m hm => by
    obtain ⟨file, hfile, -⟩ := h.files m hm
    exact ⟨file, hfile⟩
  let opened (fd : Int32) : OpenFile := (w.parent fd).getD (openedDirectory 0 "")
  have hopened : ∀ m ∈ moves report.restored, w.parent m.2 = some (opened m.2) := fun m hm => by
    obtain ⟨file, hfile⟩ := hfile m hm
    simp only [opened, hfile, Option.getD_some]
  exact ⟨opened, hopened, h.apart.imp_of_mem fun hm hm' hne =>
    hne _ _ (hopened _ hm) (hopened _ hm')⟩

/-! ## A chain -/

/-- Two files, open under 5 and 6. -/
def twoFiles (fd : Int32) : OpenFile :=
  ⟨if fd = 5 then 0 else 1, if fd = 5 then "/srv/a.db" else "/srv/b.db", 0, .readOnly, false, false⟩

/-- A child that sees them. -/
def sharingWorld : World :=
  { quietWorld with
    opens := 2
    child := { stub with fds := fun fd => if fd = 5 ∨ fd = 6 then some (twoFiles fd) else none } }

/-- Any handing over of the two files, in a run in which no call fails. -/
theorem sharingWorld_run (n n' : UInt32) {fd fd' : Int32} (hn : 0 ≤ n.toInt32)
    (hn' : 0 ≤ n'.toInt32) (hfd : fd = 5 ∨ fd = 6)
    (hfd' : fd' = 5 ∨ fd' = 6) :
    ∃ tr w, Succeeds 42 [.restored n fd, .restored n' fd'] tr ∧ Answered answer sharingWorld tr w ∧
      ∀ m ∈ moves [.restored n fd, .restored n' fd'],
        sharingWorld.child.fds m.2 = some (twoFiles m.2) := by
  have hmoves : ∀ m ∈ moves [.restored n fd, .restored n' fd'], 0 ≤ m.1 ∧ (m.2 = 5 ∨ m.2 = 6) := by
    intro m hm
    obtain rfl | hm := List.mem_cons.mp hm
    · exact ⟨hn, hfd⟩
    · obtain rfl := List.mem_singleton.mp hm
      exact ⟨hn', hfd'⟩
  have hopened : ∀ m ∈ moves [.restored n fd, .restored n' fd'],
      sharingWorld.child.fds m.2 = some (twoFiles m.2) := fun m hm => if_pos (hmoves m hm).2
  obtain ⟨tr, w, hok, ha⟩ := succeeds_done (w := sharingWorld) stub_site fun m hm =>
    ⟨(hmoves m hm).1, by rw [hopened m hm]; rfl⟩
  exact ⟨tr, w, hok, ha, hopened⟩

/-- 6 is taken for the first file before the second has been copied to 7. -/
theorem chain_overwritten : ∃ outcomes tr w, ((moves outcomes).map Prod.fst).Nodup ∧
    ((moves outcomes).map Prod.snd).Nodup ∧ OwnOpenings twoFiles outcomes ∧
    Succeeds 42 outcomes tr ∧
    Cmd.Runs (installAll 42 outcomes ()) tr (.ok (), ()) ∧ Answered answer sharingWorld tr w ∧
    (∀ m ∈ moves outcomes, sharingWorld.child.fds m.2 = some (twoFiles m.2)) ∧
    ¬ OwnFiles twoFiles outcomes w.child := by
  obtain ⟨tr, w, hok, ha, hopened⟩ :=
    sharingWorld_run 6 7 (by decide) (by decide) (Or.inl rfl) (Or.inr rfl)
  have hown : OwnOpenings twoFiles [.restored 6 5, .restored 7 6] :=
    List.pairwise_pair.mpr (by decide)
  refine ⟨_, tr, w, by decide, by decide, hown, hok, hok.runs, ha, hopened, fun h => ?_⟩
  have hseven : w.child.fds 7 = some (twoFiles 6) := h (7, 6) (.tail _ (.head _))
  rw [hok.assigns ha] at hseven
  exact absurd hseven (by decide)

/-- The other way round nothing is lost. -/
theorem installAll_simultaneous_iff_chain : ∃ tr w, Answered answer sharingWorld tr w ∧
    Cmd.Runs (installAll 42 [.restored 7 6, .restored 6 5] ()) tr (.ok (), ()) ∧
    OwnFiles twoFiles [.restored 7 6, .restored 6 5] w.child := by
  obtain ⟨tr, w, hok, ha, hopened⟩ :=
    sharingWorld_run 7 6 (by decide) (by decide) (Or.inr rfl) (Or.inl rfl)
  have hown : OwnOpenings twoFiles [.restored 7 6, .restored 6 5] :=
    List.pairwise_pair.mpr (by decide)
  obtain ⟨hr, hiff⟩ := installAll_simultaneous_iff (by decide) hown hopened hok ha
  exact ⟨tr, w, ha, hr, hiff.mpr (List.pairwise_pair.mpr (by decide))⟩

end Wraith.Restore

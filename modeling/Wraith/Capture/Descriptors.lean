/-
# `Wraith.Capture.Descriptors` — the descriptors of a stopped process

`enumerate_fds` of `fd_enum.rs` as a script over what it asks the kernel, each of which may fail.
An entry whose link cannot be read is left out; a file whose `fdinfo` cannot be read is taken to be
at offset 0 with no flags.  Neither is an error.

`Listing` and `Kernel` are what `/proc` answers for a process that is stopped, in any order.
`enumerateFds_captures` says that the list is the descriptor table, up to failures that were
answered.
-/
import Mathlib.Data.List.Sort
import Wraith.Capture.Instant
import Wraith.Lib.Triple
import Wraith.Process.FdInfo
import Wraith.Process.Wire

namespace Wraith.Capture

open Lib Script Process

/-! ## The script -/

inductive FdOp where
  | readDir (path : String)
  | readLink (path : String)
  | isDir (path : String)
  | readToString (path : String)
  deriving DecidableEq, Repr

/-- Names and targets come through `to_string_lossy`; `isDir` is `metadata` with `is_dir`. -/
@[reducible] def FdResp : FdOp → Type
  | .readDir _ => Except Errno (List (Except Errno String))
  | .readLink _ => Except Errno String
  | .isDir _ => Except Errno Bool
  | .readToString _ => Except Errno String

abbrev Scan (α : Type) : Type := Script FdResp Unit Error α

def fdDir (pid : Int32) : String := s!"/proc/{pid}/fd"

/-- `entry.path()`. -/
def entryPath (pid : Int32) (name : String) : String := s!"{fdDir pid}/{name}"

def fdinfoPath (pid : Int32) (fd : UInt32) : String := s!"/proc/{pid}/fdinfo/{fd}"

def hasPrefix (p target : String) : Bool := p.toList.isPrefixOf target.toList

/-- `classify_fd`. -/
def classifyFd (target : String) : Scan FdType :=
  if hasPrefix "socket:" target then pure .socket
  else if hasPrefix "pipe:" target then pure .pipe
  else if hasPrefix "/" target then
    if hasPrefix "/dev/" target then pure .device
    else call (.isDir target) fun r => .ok (if okOrFalse r then .directory else .regular)
  else pure (.other target)
where
  /-- `unwrap_or(false)`. -/
  okOrFalse : Except Errno Bool → Bool
    | .ok b => b
    | .error _ => false

/-- `read_fdinfo`. -/
def readFdinfo (pid : Int32) (fd : UInt32) : Scan (UInt64 × Int32) :=
  call (.readToString (fdinfoPath pid fd)) fun r =>
    (mapErr s!"Cannot read {fdinfoPath pid fd}" r).map parseFdinfo

/-- One round of the loop, with the number and the name of the entry. -/
def scanFd (pid : Int32) (name : String) (fd : UInt32) : Scan (Option FileDescriptor) := do
  let link : Except Errno String ← call (.readLink (entryPath pid name)) fun r => .ok r
  match link with
  | .error _ => pure none
  | .ok target => do
      let fdType ← classifyFd target
      let (offset, flags) ← tryExcept (readFdinfo pid fd) fun _ => some (pure (0, 0))
      pure (some { fd, fdType, path := target, offset, flags })

/-- One round of the loop. -/
def scanEntry (pid : Int32) : Except Errno String → Scan (Option FileDescriptor)
  | .error _ => pure none
  | .ok name => match Radix.readUnsigned 10 (2 ^ 32) name.toList with
    | none => pure none
    | some n => scanFd pid name (UInt32.ofNat n)

def scanEntries (pid : Int32) : List (Except Errno String) → Scan (List FileDescriptor)
  | [] => pure []
  | entry :: entries => do
      let fd ← scanEntry pid entry
      let fds ← scanEntries pid entries
      pure (fd.toList ++ fds)

/-- `enumerate_fds`. -/
def enumerateFds (pid : Int32) : Scan (List FileDescriptor) := do
  let entries ← call (.readDir (fdDir pid)) (mapErr s!"Cannot read {fdDir pid}")
  let fds ← scanEntries pid entries
  pure (fds.insertionSort fun f f' => f.fd ≤ f'.fd)

/-! ## What the kernel answers -/

/-- A descriptor: what its link reads, and the open file behind it. -/
structure Descriptor where
  target : String
  file : OpenFile

abbrev Table := UInt32 → Option Descriptor

/-- The name of the entry of a descriptor. -/
def entryName (fd : UInt32) : String := toString fd.toNat

/-- A listing of the directory: the entries of the table, each once, in any order; and all of them,
unless reading the directory has failed on the way. -/
structure Listing (table : Table) (entries : List (Except Errno String)) : Prop where
  names : ∀ name, .ok name ∈ entries → ∃ fd d, name = entryName fd ∧ table fd = some d
  distinct : (entries.filterMap Except.toOption).Nodup
  complete : (∃ e, .error e ∈ entries) ∨ ∀ fd d, table fd = some d → .ok (entryName fd) ∈ entries

/-- The answers for a stopped process with this table, on a machine with these directories. -/
def answers (pid : Int32) (table : Table) (dirs : String → Bool) : (o : FdOp) → FdResp o → Prop
  | .readDir path, r => ∀ entries, path = fdDir pid → r = .ok entries → Listing table entries
  | .readLink path, r => ∀ fd d target, path = entryPath pid (entryName fd) → table fd = some d →
      r = .ok target → target = d.target
  | .isDir path, r => classifyFd.okOrFalse r = dirs path
  | .readToString path, r => ∀ fd d text, path = fdinfoPath pid fd → table fd = some d →
      r = .ok text → text = String.ofList d.file.text

section Runs

variable {pid : Int32} {table : Table} {dirs : String → Bool} {tr : List (Event FdResp)}

/-- All of the trace was answered so. -/
def AllAnswered (pid : Int32) (table : Table) (dirs : String → Bool) (tr : List (Event FdResp)) :
    Prop :=
  ∀ ev ∈ tr, answers pid table dirs ev.1 ev.2

theorem AllAnswered.left {tr' : List (Event FdResp)} (h : AllAnswered pid table dirs (tr ++ tr')) :
    AllAnswered pid table dirs tr := fun ev hmem => h ev (List.mem_append_left _ hmem)

theorem AllAnswered.right {tr' : List (Event FdResp)} (h : AllAnswered pid table dirs (tr ++ tr')) :
    AllAnswered pid table dirs tr' := fun ev hmem => h ev (List.mem_append_right _ hmem)

/-! ## One descriptor -/

/-- The type of what a link leads to. -/
def kind (dirs : String → Bool) (target : String) : FdType :=
  if hasPrefix "socket:" target then .socket
  else if hasPrefix "pipe:" target then .pipe
  else if hasPrefix "/" target then
    if hasPrefix "/dev/" target then .device
    else if dirs target then .directory else .regular
  else .other target

/-- The entry of a snapshot for a descriptor.  The two numbers are its own, unless they could not be
read. -/
structure Captured (pid : Int32) (dirs : String → Bool) (tr : List (Event FdResp)) (d : Descriptor)
    (f : FileDescriptor) : Prop where
  path : f.path = d.target
  fdType : f.fdType = kind dirs d.target
  numbers : (f.offset, f.flags) = (d.file.offset, d.file.flags) ∨
    (f.offset, f.flags) = (0, 0) ∧ ∃ e, ⟨.readToString (fdinfoPath pid f.fd), .error e⟩ ∈ tr

theorem Captured.mono {d : Descriptor} {f : FileDescriptor} {tr' : List (Event FdResp)}
    (h : Captured pid dirs tr d f) (hsub : tr ⊆ tr') : Captured pid dirs tr' d f where
  path := h.path
  fdType := h.fdType
  numbers := h.numbers.imp_right fun ⟨hzero, e, hmem⟩ => ⟨hzero, e, hsub hmem⟩

theorem classifyFd_runs {target : String} {p : Except Error FdType × Unit}
    (h : Cmd.Runs (classifyFd target ()) tr p) (ha : AllAnswered pid table dirs tr) :
    p.1 = .ok (kind dirs target) := by
  unfold classifyFd at h
  unfold kind
  split at h
  · rw [if_pos ‹_›, (runs_pure.mp h).2]
  rw [if_neg ‹_›]
  split at h
  · rw [if_pos ‹_›, (runs_pure.mp h).2]
  rw [if_neg ‹_›]
  split at h
  · rw [if_pos ‹_›]
    split at h
    · rw [if_pos ‹_›, (runs_pure.mp h).2]
    · rw [if_neg ‹_›]
      obtain ⟨r, tr', rfl, hret⟩ := Cmd.runs_op.mp h
      have hdir : classifyFd.okOrFalse r = dirs target := ha _ (.head _)
      rw [← hdir, (Cmd.runs_ret.mp hret).2]
  · rw [if_neg ‹_›, (runs_pure.mp h).2]

/-- `unwrap_or_else(|_| (0, 0))`. -/
theorem readFdinfo_runs {fd : UInt32} {d : Descriptor} (hd : table fd = some d)
    {p : Except Error (UInt64 × Int32) × Unit}
    (h : Cmd.Runs (tryExcept (readFdinfo pid fd) (fun _ => some (pure (0, 0))) ()) tr p)
    (ha : AllAnswered pid table dirs tr) :
    ∃ numbers, p.1 = .ok numbers ∧ (numbers = (d.file.offset, d.file.flags) ∨
      numbers = (0, 0) ∧ ∃ e, ⟨.readToString (fdinfoPath pid fd), .error e⟩ ∈ tr) := by
  obtain ⟨tr₁, q, tr₂, hbody, hhandle, rfl⟩ := runs_tryExcept.mp h
  obtain ⟨r, tr', rfl, hret⟩ := Cmd.runs_op.mp hbody
  obtain ⟨rfl, rfl⟩ := Cmd.runs_ret.mp hret
  cases r with
  | ok text =>
      have htext := ha _ (.head _) fd d text rfl hd rfl
      refine ⟨parseFdinfo text, ?_, Or.inl ?_⟩
      · rw [(Cmd.runs_ret.mp hhandle).2]
      · rw [htext, parseFdinfo_text]
  | error e =>
      refine ⟨(0, 0), ?_, Or.inr ⟨rfl, e, .head _⟩⟩
      rw [(runs_pure.mp hhandle).2]

theorem scanFd_runs {fd : UInt32} {d : Descriptor} (hd : table fd = some d)
    {p : Except Error (Option FileDescriptor) × Unit}
    (h : Cmd.Runs (scanFd pid (entryName fd) fd ()) tr p) (ha : AllAnswered pid table dirs tr) :
    ∃ r, p.1 = .ok r ∧ ((∃ f, r = some f ∧ f.fd = fd ∧ Captured pid dirs tr d f) ∨
      r = none ∧ ∃ e, ⟨.readLink (entryPath pid (entryName fd)), .error e⟩ ∈ tr) := by
  obtain ⟨link, tr₁, rfl, hrest⟩ := Cmd.runs_op.mp h
  cases link with
  | error e => exact ⟨none, by rw [(runs_pure.mp hrest).2], Or.inr ⟨rfl, e, .head _⟩⟩
  | ok target =>
      obtain rfl := ha _ (.head _) fd d target rfl hd rfl
      have ha₁ : AllAnswered pid table dirs tr₁ := fun ev hmem => ha ev (.tail _ hmem)
      obtain ⟨x, hx, hclass⟩ | ⟨tr₂, fdType, _, tr₃, hclass, hrest, rfl⟩ := runs_bind_cases hrest
      · exact nomatch (classifyFd_runs hclass ha₁)
      obtain rfl := Except.ok.inj (classifyFd_runs hclass ha₁.left)
      obtain ⟨x, hx, hinfo⟩ | ⟨tr₄, numbers, _, tr₅, hinfo, hpure, rfl⟩ := runs_bind_cases hrest
      · obtain ⟨_, hnumbers, -⟩ := readFdinfo_runs hd hinfo ha₁.right
        exact nomatch hnumbers
      obtain ⟨_, hnumbers, hcases⟩ := readFdinfo_runs hd hinfo ha₁.right.left
      obtain rfl := Except.ok.inj hnumbers
      refine ⟨_, by rw [(runs_pure.mp hpure).2], Or.inl ⟨_, rfl, rfl, rfl, rfl, ?_⟩⟩
      refine hcases.imp_right fun ⟨hzero, e, hmem⟩ => ⟨hzero, e, .tail _ ?_⟩
      exact List.mem_append_right _ (List.mem_append_left _ hmem)

/-! ## All of them -/

theorem readUnsigned_entryName (fd : UInt32) :
    Radix.readUnsigned 10 (2 ^ 32) (entryName fd).toList = some fd.toNat := by
  rw [entryName, Nat.toString_eq_repr, Nat.toList_repr]
  exact Radix.readUnsigned_toDigits (by decide) (by decide) fd.toNat_lt

theorem entryName_inj {fd fd' : UInt32} (h : entryName fd = entryName fd') : fd = fd' := by
  have hread := readUnsigned_entryName fd
  rw [h, readUnsigned_entryName] at hread
  exact UInt32.toNat.inj (Option.some.inj hread).symm

/-- The entries are the table's. -/
def Named (table : Table) (entry : Except Errno String) : Prop :=
  ∀ name, entry = .ok name → ∃ fd d, name = entryName fd ∧ table fd = some d

/-- A descriptor is left out only if its link could not be read. -/
def Found (pid : Int32) (tr : List (Event FdResp)) (fd : UInt32) (fds : List FileDescriptor) :
    Prop :=
  (∃ f ∈ fds, f.fd = fd) ∨ ∃ e, ⟨.readLink (entryPath pid (entryName fd)), .error e⟩ ∈ tr

theorem Found.mono {fd : UInt32} {fds fds' : List FileDescriptor} {tr' : List (Event FdResp)}
    (h : Found pid tr fd fds) (hfds : fds ⊆ fds') (htr : tr ⊆ tr') : Found pid tr' fd fds' :=
  h.imp (fun ⟨f, hmem, hf⟩ => ⟨f, hfds hmem, hf⟩) fun ⟨e, hmem⟩ => ⟨e, htr hmem⟩

theorem scanEntry_runs {entry : Except Errno String} (hnamed : Named table entry)
    {p : Except Error (Option FileDescriptor) × Unit} (h : Cmd.Runs (scanEntry pid entry ()) tr p)
    (ha : AllAnswered pid table dirs tr) : ∃ r, p.1 = .ok r ∧
      (∀ f ∈ r.toList, entry = .ok (entryName f.fd) ∧
        ∃ d, table f.fd = some d ∧ Captured pid dirs tr d f) ∧
      ∀ fd, entry = .ok (entryName fd) → Found pid tr fd r.toList := by
  cases entry with
  | error e => exact ⟨none, by rw [(runs_pure.mp h).2], nofun, nofun⟩
  | ok name =>
      obtain ⟨fd, d, rfl, hd⟩ := hnamed name rfl
      simp only [scanEntry, readUnsigned_entryName, UInt32.ofNat_toNat] at h
      obtain ⟨r, hr, ⟨f, rfl, rfl, hf⟩ | ⟨rfl, herr⟩⟩ := scanFd_runs hd h ha
      · refine ⟨some f, hr, fun f' hmem => ?_, fun fd' heq => ?_⟩
        · obtain rfl := List.mem_singleton.mp hmem
          exact ⟨rfl, d, hd, hf⟩
        · exact Or.inl ⟨f, .head _, entryName_inj (Except.ok.inj heq)⟩
      · refine ⟨none, hr, nofun, fun fd' heq => ?_⟩
        obtain rfl := entryName_inj (Except.ok.inj heq)
        exact Or.inr herr

theorem scanEntries_runs {entries : List (Except Errno String)}
    (hnamed : ∀ entry ∈ entries, Named table entry) {p : Except Error (List FileDescriptor) × Unit}
    (h : Cmd.Runs (scanEntries pid entries ()) tr p) (ha : AllAnswered pid table dirs tr) :
    ∃ fds, p.1 = .ok fds ∧
      (fds.map fun f => entryName f.fd).Sublist (entries.filterMap Except.toOption) ∧
      (∀ f ∈ fds, ∃ d, table f.fd = some d ∧ Captured pid dirs tr d f) ∧
      ∀ fd, .ok (entryName fd) ∈ entries → Found pid tr fd fds := by
  induction entries generalizing tr p with
  | nil => exact ⟨[], by rw [(runs_pure.mp h).2], .slnil, nofun, nofun⟩
  | cons entry entries ih =>
      have hrest := fun entry hmem => hnamed entry (.tail _ hmem)
      obtain ⟨x, hx, hrun⟩ | ⟨tr₁, r, _, tr', hrun, hrun', rfl⟩ := runs_bind_cases h
      · obtain ⟨_, hr, -⟩ := scanEntry_runs (hnamed _ (.head _)) hrun ha
        exact nomatch hr
      obtain ⟨_, hr, hcaptured, hfound⟩ := scanEntry_runs (hnamed _ (.head _)) hrun ha.left
      obtain rfl := Except.ok.inj hr
      obtain ⟨x, hx, hloop⟩ | ⟨tr₂, fds, _, tr₃, hloop, hpure, rfl⟩ := runs_bind_cases hrun'
      · obtain ⟨_, hfds, -⟩ := ih hrest hloop ha.right
        exact nomatch hfds
      obtain ⟨_, hfds, hsub, hall, hevery⟩ := ih hrest hloop ha.right.left
      obtain rfl := Except.ok.inj hfds
      refine ⟨r.toList ++ fds, by rw [(runs_pure.mp hpure).2], ?_,
        fun f hmem => ?_, fun fd hmem => ?_⟩
      · cases r with
        | none =>
            refine hsub.trans ?_
            rw [List.filterMap_cons]
            split
            · exact .refl _
            · exact List.sublist_cons_self _ _
        | some f =>
            rw [(hcaptured f (.head _)).1]
            exact hsub.cons_cons _
      · obtain hmem | hmem := List.mem_append.mp hmem
        · obtain ⟨-, d, hd, hf⟩ := hcaptured f hmem
          exact ⟨d, hd, hf.mono (List.subset_append_left _ _)⟩
        · obtain ⟨d, hd, hf⟩ := hall f hmem
          exact ⟨d, hd, hf.mono fun _ h => List.mem_append_right _ (List.mem_append_left _ h)⟩
      · obtain heq | hmem := List.mem_cons.mp hmem
        · exact (hfound fd heq.symm).mono (List.subset_append_left _ _)
            (List.subset_append_left _ _)
        · exact (hevery fd hmem).mono (List.subset_append_right _ _)
            fun _ h => List.mem_append_right _ (List.mem_append_left _ h)

/-- What the list is: in the order of the numbers, the descriptors of the table, each once and as it
is.  One that is missing was not to be read. -/
structure Enumerated (pid : Int32) (table : Table) (dirs : String → Bool) (tr : List (Event FdResp))
    (fds : List FileDescriptor) : Prop where
  sorted : fds.Pairwise fun f f' => f.fd < f'.fd
  captured : ∀ f ∈ fds, ∃ d, table f.fd = some d ∧ Captured pid dirs tr d f
  found : ∀ fd d, table fd = some d → Found pid tr fd fds ∨
    ∃ entries e, ⟨.readDir (fdDir pid), .ok entries⟩ ∈ tr ∧ .error e ∈ entries

/-- **The descriptor table is captured**, in whatever order it is listed. -/
theorem enumerateFds_captures {p : Except Error (List FileDescriptor) × Unit}
    (h : Cmd.Runs (enumerateFds pid ()) tr p) (ha : AllAnswered pid table dirs tr) :
    (∃ fds, p.1 = .ok fds ∧ Enumerated pid table dirs tr fds) ∨
      (∃ x, p.1 = .error x) ∧ ∃ e, ⟨.readDir (fdDir pid), .error e⟩ ∈ tr := by
  obtain ⟨r, tr₁, rfl, hrest⟩ := Cmd.runs_op.mp h
  cases r with
  | error e => exact Or.inr ⟨⟨_, congrArg Prod.fst (Cmd.runs_ret.mp hrest).2⟩, e, .head _⟩
  | ok entries =>
      left
      have hlist : Listing table entries := ha _ (.head _) entries rfl rfl
      have ha₁ : AllAnswered pid table dirs tr₁ := fun ev hmem => ha ev (.tail _ hmem)
      have hnamed : ∀ entry ∈ entries, Named table entry := fun entry hmem name heq =>
        hlist.names name (heq ▸ hmem)
      obtain ⟨x, hx, hloop⟩ | ⟨tr₂, fds, _, tr₃, hloop, hpure, rfl⟩ := runs_bind_cases
        (show Cmd.Runs ((scanEntries pid entries >>= _) ()) tr₁ p from hrest)
      · obtain ⟨_, hfds, -⟩ := scanEntries_runs hnamed hloop ha₁
        exact nomatch hfds
      obtain ⟨_, hfds, hsub, hall, hevery⟩ := scanEntries_runs hnamed hloop ha₁.left
      obtain rfl := Except.ok.inj hfds
      have hperm := List.perm_insertionSort (fun f f' : FileDescriptor => f.fd ≤ f'.fd) fds
      refine ⟨_, by rw [(runs_pure.mp hpure).2], ?_, fun f hmem => ?_, fun fd d hd => ?_⟩
      · have hsorted := List.pairwise_insertionSort (fun f f' : FileDescriptor => f.fd ≤ f'.fd) fds
        have hdistinct : fds.Pairwise fun f f' => f.fd ≠ f'.fd :=
          (List.pairwise_map.mp (hlist.distinct.sublist hsub)).imp fun hne heq => hne (by rw [heq])
        exact (hsorted.and (hperm.symm.pairwise hdistinct fun hne => hne.symm)).imp
          fun ⟨hle, hne⟩ => UInt32.lt_of_le_of_ne hle hne
      · obtain ⟨d, hd, hf⟩ := hall f (hperm.mem_iff.mp hmem)
        exact ⟨d, hd, hf.mono fun _ h => .tail _ (List.mem_append_left _ h)⟩
      · obtain ⟨e, hmem⟩ | hcomplete := hlist.complete
        · exact Or.inr ⟨entries, e, .head _, hmem⟩
        · exact Or.inl ((hevery fd (hcomplete fd d hd)).mono (fun _ h => hperm.mem_iff.mpr h)
            fun _ h => .tail _ (List.mem_append_left _ h))

/-! ## In the snapshot -/

variable {checksum : List UInt8 → UInt64}

/-- The descriptors in the snapshot of a capture that called `enumerate_fds` while the process was
stopped, as they are read from the file. -/
theorem snapshot_descriptors {ctr : List (Event CapResp)} {s : Proto.ProcessSnapshot}
    (h : Cmd.Runs (capture checksum pid ()) ctr (.ok s, ()))
    (hscan : ∀ fds, ⟨.enumerateFds pid, .ok fds⟩ ∈ ctr →
      Cmd.Runs (enumerateFds pid ()) tr (.ok fds, ()) ∧ AllAnswered pid table dirs tr)
    (hlen : (Wire.save s).length < 2 ^ 64) (path : String) :
    ∃ s' fds, Wire.load path (Wire.save s) = .ok s' ∧ s'.fileDescriptors = fds.map fdToProto ∧
      Enumerated pid table dirs tr fds := by
  obtain ⟨l, -, rfl, rfl⟩ := capture_ok h
  obtain ⟨hrun, ha⟩ := hscan l.fds (by simp [Log.trace])
  refine ⟨_, l.fds, Wire.load_save hlen, rfl, ?_⟩
  obtain ⟨fds, hfds, henum⟩ | ⟨⟨x, hx⟩, -⟩ := enumerateFds_captures hrun ha
  · obtain rfl := Except.ok.inj hfds
    exact henum
  · cases hx

end Runs

/-! ## A machine where nothing fails -/

/-- It lists the descriptors as they stand in `files`. -/
def proc (pid : Int32) (files : List (UInt32 × Descriptor)) (dirs : String → Bool) :
    (o : FdOp) → FdResp o
  | .readDir _ => .ok (files.map fun x => .ok (entryName x.1))
  | .readLink path => match files.find? fun x => entryPath pid (entryName x.1) = path with
    | some x => .ok x.2.target
    | none => .error (.other "ENOENT")
  | .isDir path => .ok (dirs path)
  | .readToString path => match files.find? fun x => fdinfoPath pid x.1 = path with
    | some x => .ok (String.ofList x.2.file.text)
    | none => .error (.other "ENOENT")

def tableOf (files : List (UInt32 × Descriptor)) : Table := fun fd =>
  (files.find? fun x => x.1 = fd).map Prod.snd

theorem tableOf_some {files : List (UInt32 × Descriptor)} {fd : UInt32} {d : Descriptor}
    (h : tableOf files fd = some d) : (fd, d) ∈ files ∧
      ∀ p : UInt32 × Descriptor → Bool, (∀ x, p x = true ↔ x.1 = fd) →
        files.find? p = some (fd, d) := by
  obtain ⟨⟨fd', d'⟩, hfind, rfl⟩ := Option.map_eq_some_iff.mp h
  obtain rfl : fd' = fd := by simpa using List.find?_some hfind
  refine ⟨List.mem_of_find?_eq_some hfind, fun p hp => ?_⟩
  rw [← hfind]
  exact congrArg (fun p => List.find? p files) (funext fun x => Bool.eq_iff_iff.mpr (by simp [hp]))

theorem tableOf_of_mem {files : List (UInt32 × Descriptor)} {x : UInt32 × Descriptor}
    (h : x ∈ files) :
    ∃ d, tableOf files x.1 = some d := by
  have hsome : (files.find? fun y => y.1 = x.1).isSome := List.find?_isSome.mpr ⟨x, h, by simp⟩
  obtain ⟨y, hy⟩ := Option.isSome_iff_exists.mp hsome
  exact ⟨y.2, by rw [tableOf, hy, Option.map_some]⟩

theorem proc_listing {files : List (UInt32 × Descriptor)} (h : (files.map Prod.fst).Nodup) :
    Listing (tableOf files) (files.map fun x => .ok (entryName x.1)) where
  names name hmem := by
    obtain ⟨x, hx, heq⟩ := List.mem_map.mp hmem
    obtain ⟨d, hd⟩ := tableOf_of_mem hx
    exact ⟨x.1, d, (Except.ok.inj heq).symm, hd⟩
  distinct := by
    have hnames : (files.map fun x => Except.ok (ε := Errno) (entryName x.1)).filterMap
        Except.toOption = (files.map Prod.fst).map entryName := by
      rw [List.filterMap_map, List.map_map, ← List.filterMap_eq_map]
      rfl
    rw [hnames]
    exact h.map fun _ _ => entryName_inj
  complete := Or.inr fun fd d hd => List.mem_map.mpr ⟨(fd, d), (tableOf_some hd).1, rfl⟩

theorem entryPath_inj {pid : Int32} {name name' : String}
    (h : entryPath pid name = entryPath pid name') :
    name = name' := (String.append_right_inj _).mp h

theorem fdinfoPath_inj {pid : Int32} {fd fd' : UInt32}
    (h : fdinfoPath pid fd = fdinfoPath pid fd') :
    fd = fd' := entryName_inj ((String.append_right_inj _).mp h)

theorem proc_answers {pid : Int32} {files : List (UInt32 × Descriptor)} {dirs : String → Bool}
    (h : (files.map Prod.fst).Nodup) (o : FdOp) :
    answers pid (tableOf files) dirs o (proc pid files dirs o) := by
  cases o with
  | readDir path =>
      intro entries _ heq
      obtain rfl := Except.ok.inj heq
      exact proc_listing h
  | readLink path =>
      rintro fd d target rfl hd heq
      have hfind := (tableOf_some hd).2
        (fun x => entryPath pid (entryName x.1) = entryPath pid (entryName fd))
        fun x => ⟨fun hx => entryName_inj (entryPath_inj (of_decide_eq_true hx)),
          fun hx => by simp [hx]⟩
      simp only [proc, hfind] at heq
      exact (Except.ok.inj heq).symm
  | isDir path => rfl
  | readToString path =>
      rintro fd d text rfl hd heq
      have hfind := (tableOf_some hd).2 (fun x => fdinfoPath pid x.1 = fdinfoPath pid fd)
        fun x => ⟨fun hx => fdinfoPath_inj (of_decide_eq_true hx), fun hx => by simp [hx]⟩
      simp only [proc, hfind] at heq
      exact (Except.ok.inj heq).symm

/-! ## A log file and a device -/

def logFile : Descriptor where
  target := "/var/log/worker.log"
  file :=
    { offset := 128
      flags := 0o102001
      more := ["mnt_id:\t25".toList]
      offset_lt := by decide
      flags_nonneg := by decide
      other := fun line h => by
        obtain rfl := List.mem_singleton.mp h
        exact ⟨by decide, by decide, by decide, by decide⟩ }

def nullDevice : Descriptor where
  target := "/dev/null"
  file :=
    { offset := 0
      flags := 0o100000
      more := []
      offset_lt := by decide
      flags_nonneg := by decide
      other := nofun }

/-- Listed backwards. -/
def workerFiles : List (UInt32 × Descriptor) := [(3, logFile), (0, nullDevice)]

/-- The log of a capture that finds them. -/
def filesLog : Log :=
  { textLog with
    fds := [⟨0, .device, "/dev/null", 0, 0o100000⟩,
      ⟨3, .regular, "/var/log/worker.log", 128, 0o102001⟩] }

/-- The scan. -/
def workerScan : List (Event FdResp) × Except Error (List FileDescriptor) × Unit :=
  Cmd.exec (fun (_ : Unit) o => (proc 42 workerFiles (fun _ => false) o, ()))
    (enumerateFds 42 ()) ()

theorem workerScan_result : workerScan.2 = (.ok filesLog.fds, ()) := by decide +kernel

theorem workerScan_runs : Cmd.Runs (enumerateFds 42 ()) workerScan.1 (.ok filesLog.fds, ()) := by
  rw [← workerScan_result]
  exact Cmd.exec_runs _ _ _

theorem workerScan_answered :
    AllAnswered 42 (tableOf workerFiles) (fun _ => false) workerScan.1 := fun ev hmem => by
  have hev : ev.2 = proc 42 workerFiles (fun _ => false) ev.1 := Cmd.exec_answers _ _ ev hmem
  rw [hev]
  exact proc_answers (by decide) ev.1

theorem filesLog_fds {fds : List FileDescriptor}
    (h : ⟨.enumerateFds 42, .ok fds⟩ ∈ filesLog.trace 42) :
    fds = filesLog.fds := by
  simpa [filesLog, textLog, Log.trace] using h

theorem snapshot_descriptors_worker : ∃ s fds,
    Wire.load "snapshot.pb" (Wire.save (filesLog.snapshot 42)) = .ok s ∧
      s.fileDescriptors = fds.map fdToProto ∧
      Enumerated 42 (tableOf workerFiles) (fun _ => false) workerScan.1 fds :=
  snapshot_descriptors
    (Log.Valid.runs (l := filesLog) ⟨textLog_valid.registers, textLog_valid.regions⟩)
    (fun fds hmem => by
      obtain rfl := filesLog_fds hmem
      exact ⟨workerScan_runs, workerScan_answered⟩)
    (by decide +kernel) "snapshot.pb"

end Wraith.Capture

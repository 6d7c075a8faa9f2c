/-
# `Wraith.Restore.Partial` — the beginning of a snapshot file

A snapshot on the wire has no end mark and no count of regions, and `build` leaves its checksum 0.
So a file that is cut between two fields decodes to a snapshot without the fields behind the cut,
and the restore path, which asks for registers and one region, takes it if the cut is behind a
region: `partial_rejected_iff`.  From a file that it does not take nothing is resumed.
-/
import Wraith.Capture.Capturer
import Wraith.Process.Wire
import Wraith.Restore.Orphans

namespace Wraith.Restore

open Lib Script Process Protobuf

/-! ## The fields of a snapshot -/

/-- The fields before the regions. -/
def headFields (s : Proto.ProcessSnapshot) : List Protobuf.Field :=
  (Wire.snapshot.slots.take 7).flatMap (Slot.fields s)

def regionFields (regions : List Proto.MemoryRegion) : List Protobuf.Field :=
  (regions.map fun r => Protobuf.Wire.len (Wire.memoryRegion.encode r)).map (Protobuf.Field.mk 11)

def descriptorFields (fds : List Proto.FileDescriptor) : List Protobuf.Field :=
  (fds.map fun fd => Protobuf.Wire.len (Wire.fileDescriptor.encode fd)).map (Protobuf.Field.mk 12)

/-- The fields behind the descriptors. -/
def tailFields (s : Proto.ProcessSnapshot) : List Protobuf.Field :=
  (Wire.snapshot.slots.drop 9).flatMap (Slot.fields s)

theorem snapshot_fields (s : Proto.ProcessSnapshot) : Wire.snapshot.fields s =
    headFields s ++ (regionFields s.memoryRegions ++
      (descriptorFields s.fileDescriptors ++ tailFields s)) := by
  have hslots : Wire.snapshot.fields s =
      (Wire.snapshot.slots.take 7 ++ Wire.snapshot.slots.drop 7).flatMap (Slot.fields s) := rfl
  rw [hslots, List.flatMap_append]
  rfl

/-- `s` as far as the first `i` regions and the first `k` descriptors. -/
def cut (s : Proto.ProcessSnapshot) (i k : Nat) : Proto.ProcessSnapshot :=
  { s with
    memoryRegions := s.memoryRegions.take i
    fileDescriptors := s.fileDescriptors.take k
    snapshotVersion := "" }

/-- A snapshot that `build` has made. -/
structure Built (s : Proto.ProcessSnapshot) : Prop where
  arch : s.arch = "x86_64"
  registers : s.registers ≠ none
  checksum : s.checksum = 0
  version : s.snapshotVersion = "1.0"

theorem build_built (pid : Int32) (f : Capture.Frozen) (d : Capture.Description) :
    Built (Capture.build pid f d) :=
  ⟨rfl, Option.some_ne_none _, rfl, rfl⟩

theorem tailFields_built {s : Proto.ProcessSnapshot} (h : Built s) :
    tailFields s = [⟨21, string.wire "1.0"⟩] := by
  obtain ⟨pid, uid, arch, kernel, ns, metadata, registers, regions, fds, checksum, version⟩ := s
  obtain rfl : checksum = 0 := h.checksum
  obtain rfl : version = "1.0" := h.version
  rfl

theorem tailFields_cut {s : Proto.ProcessSnapshot} (h : Built s) (i k : Nat) :
    tailFields (cut s i k) = [] := by
  obtain ⟨pid, uid, arch, kernel, ns, metadata, registers, regions, fds, checksum, version⟩ := s
  obtain rfl : checksum = 0 := h.checksum
  rfl

theorem cut_fields {s : Proto.ProcessSnapshot} (h : Built s) (i k : Nat) :
    Wire.snapshot.fields (cut s i k) = headFields s ++ (regionFields (s.memoryRegions.take i) ++
      descriptorFields (s.fileDescriptors.take k)) := by
  rw [snapshot_fields, tailFields_cut h, List.append_nil]
  rfl

/-- The fields as far as one behind the first region are those of a snapshot cut off. -/
theorem take_fields {s : Proto.ProcessSnapshot} (h : Built s) {j : Nat}
    (hhead : (headFields s).length < j) (hend : j < (Wire.snapshot.fields s).length) :
    (Wire.snapshot.fields s).take j = Wire.snapshot.fields
      (cut s (j - (headFields s).length)
        (j - (headFields s).length - s.memoryRegions.length)) := by
  have hregions : (regionFields s.memoryRegions).length = s.memoryRegions.length := by
    rw [regionFields, List.length_map, List.length_map]
  have hfds : (descriptorFields s.fileDescriptors).length = s.fileDescriptors.length := by
    rw [descriptorFields, List.length_map, List.length_map]
  have htail : (tailFields s).length = 1 := by rw [tailFields_built h, List.length_singleton]
  rw [snapshot_fields, List.length_append, List.length_append, List.length_append, hregions, hfds,
    htail] at hend
  rw [cut_fields h, snapshot_fields, List.take_append, List.take_append, List.take_append, hregions,
    hfds, List.take_of_length_le (Nat.le_of_lt hhead)]
  have hnone :
      j - (headFields s).length - s.memoryRegions.length - s.fileDescriptors.length = 0 := by
    omega
  rw [hnone, List.take_zero, List.append_nil, regionFields, regionFields, descriptorFields,
    descriptorFields, List.map_take, List.map_take, List.map_take, List.map_take]

/-- Every slot before the regions leaves these alone. -/
theorem head_leaves : ∀ slot ∈ Wire.snapshot.slots.take 7, slot.Leaves (·.memoryRegions) := by
  refine List.forall_mem_cons.mpr ⟨scalarSlot_leaves fun _ _ => rfl, ?_⟩
  refine List.forall_mem_cons.mpr ⟨scalarSlot_leaves fun _ _ => rfl, ?_⟩
  refine List.forall_mem_cons.mpr ⟨scalarSlot_leaves fun _ _ => rfl, ?_⟩
  refine List.forall_mem_cons.mpr ⟨scalarSlot_leaves fun _ _ => rfl, ?_⟩
  refine List.forall_mem_cons.mpr ⟨scalarSlot_leaves fun _ _ => rfl, ?_⟩
  refine List.forall_mem_cons.mpr ⟨messageSlot_leaves fun _ _ => rfl, ?_⟩
  refine List.forall_mem_cons.mpr ⟨messageSlot_leaves fun _ _ => rfl, ?_⟩
  exact fun _ h => (List.not_mem_nil h).elim

theorem headFields_leave {s s' : Proto.ProcessSnapshot} {j : Nat}
    (h : ((headFields s).take j).foldlM Wire.snapshot.merge Wire.snapshot.empty = some s') :
    s'.memoryRegions = [] := by
  refine foldlM_leaves Wire.snapshot (·.memoryRegions) (fun f hf => ?_) h
  obtain ⟨slot, hslot, hfield⟩ := List.mem_flatMap.mp (List.mem_of_mem_take hf)
  obtain ⟨w, -, rfl⟩ := List.mem_map.mp hfield
  exact ⟨slot, List.mem_of_mem_take hslot, head_leaves slot hslot, rfl⟩

/-! ## The tests of the restore path -/

variable (checksum : List UInt8 → UInt64)

/-- The checksum tests of the loop over the regions. -/
def checkRegions : List Proto.MemoryRegion → Except Error Unit
  | [] => .ok ()
  | region :: regions => do
      checkRegion checksum region
      checkRegions regions

/-- What is tested between reading the file and resuming a process. -/
def accept (path : String) (data : List UInt8) : Except Error Proto.ProcessSnapshot := do
  let s ← Wire.load path data
  validate s
  checkRegions checksum s.memoryRegions
  pure s

/-- `run`, as far as the restore of the file it is given. -/
def restoreFile (path : String) (data : List UInt8) (fds : List FdSpec) : Rest RestoreResult := do
  let s ← ofExcept (Wire.load path data)
  restore checksum s fds

variable {checksum}

theorem checkRegion_iff {region : Proto.MemoryRegion} :
    checkRegion checksum region = .ok () ↔ checksum region.data = region.checksum := by
  refine ⟨checkRegion_ok, fun h => ?_⟩
  rw [checkRegion]
  exact if_neg fun hne => hne h

theorem checkRegions_iff {regions : List Proto.MemoryRegion} :
    checkRegions checksum regions = .ok () ↔ ∀ r ∈ regions, checksum r.data = r.checksum := by
  induction regions with
  | nil => exact ⟨fun _ r h => (List.not_mem_nil h).elim, fun _ => rfl⟩
  | cons r rs ih => rw [checkRegions, except_seq_ok, checkRegion_iff, ih, List.forall_mem_cons]

theorem accept_iff {path : String} {data : List UInt8} {s : Proto.ProcessSnapshot} :
    accept checksum path data = .ok s ↔ Wire.snapshot.decode data = some s ∧ validate s = .ok () ∧
      ∀ r ∈ s.memoryRegions, checksum r.data = r.checksum := by
  rw [← (Wire.load_ok : Wire.load path data = .ok s ↔ _), ← checkRegions_iff]
  cases hload : Wire.load path data with
  | error e =>
      rw [accept, hload]
      exact ⟨fun h => (nomatch h), fun h => (nomatch h.1)⟩
  | ok s' =>
      have hseq : accept checksum path data = .ok s ↔ validate s' = .ok () ∧
          checkRegions checksum s'.memoryRegions = .ok () ∧ s' = s := by
        rw [accept, hload]
        refine except_seq_ok.trans (and_congr_right fun _ => except_seq_ok.trans ?_)
        exact and_congr_right fun _ => ⟨Except.ok.inj, congrArg Except.ok⟩
      rw [hseq]
      constructor
      · rintro ⟨hvalid, hcheck, rfl⟩
        exact ⟨rfl, hvalid, hcheck⟩
      · rintro ⟨hs, hvalid, hcheck⟩
        obtain rfl := Except.ok.inj hs
        exact ⟨hvalid, hcheck, rfl⟩

/-! ## A process is resumed behind the tests only -/

section Resumed

variable {child : Int32} {s : Proto.ProcessSnapshot} {fds : List FdSpec}
  {tr : List (Event RestResp)}

theorem restoreRegions_checked {regions : List Proto.MemoryRegion} {n m : Nat} {u : Unit}
    (h : Cmd.Runs (restoreRegions checksum child regions n ()) tr (.ok m, u)) :
    ∀ r ∈ regions, checksum r.data = r.checksum := by
  induction regions generalizing n tr with
  | nil => exact fun _ hr => (List.not_mem_nil hr).elim
  | cons region regions ih =>
      obtain ⟨_, _, _, _, hregion, hrest, -⟩ := runs_bind_returns h
      obtain ⟨_, _, _, _, hcheck, -, -⟩ := runs_bind_returns hregion
      exact List.forall_mem_cons.mpr ⟨checkRegion_ok (runs_ofExcept hcheck).2, ih hrest⟩

/-- The child of a run of `restore_inner` is let go only if its regions have passed. -/
theorem restoreInner_checked {r : Except Error RestoreResult}
    (h : Cmd.Runs (restoreInner checksum s fds child ()) tr (r, ())) (hd : detached tr ≠ []) :
    ∀ r ∈ s.memoryRegions, checksum r.data = r.checksum := by
  obtain ⟨x, -, hrun⟩ | ⟨tr₁, prepared, u, tr₂, hrun, -, -⟩ := runs_bind_cases h
  · exact absurd (Quiet.lives (prepare_quiet _ _ _ hrun)).2.2 hd
  · obtain ⟨_, _, _, _, hstate, -, -⟩ := runs_bind_returns hrun
    obtain ⟨_, _, _, _, hregions, -, -⟩ := runs_bind_returns hstate
    exact restoreRegions_checked hregions

/-- So the file of a process that is resumed has been accepted. -/
theorem resumed_accepted {path : String} {data : List UInt8} {r : Except Error RestoreResult}
    (hload : Wire.load path data = .ok s) (h : Cmd.Runs (restore checksum s fds ()) tr (r, ()))
    (hd : detached tr ≠ []) : accept checksum path data = .ok s := by
  refine accept_iff.mpr ⟨Wire.load_ok.mp hload, ?_⟩
  rw [restore] at h
  cases hvalid : validate s with
  | error e =>
      rw [hvalid] at h
      obtain ⟨rfl, -⟩ := Cmd.runs_ret.mp h
      exact absurd rfl hd
  | ok _ =>
      refine ⟨rfl, ?_⟩
      rw [hvalid] at h
      obtain ⟨x, -, hrun⟩ | ⟨tr₁, pid, u, tr₂, hrun, hrest, rfl⟩ :=
        runs_bind_cases (runs_pure_bind.mp h)
      · cases forkStub_runs hrun with
        | none => exact absurd rfl hd
        | lost hst => exact absurd rfl hd
      · cases forkStub_runs hrun with
        | stopped =>
            obtain ⟨tr₃, ⟨q, u'⟩, tr₄, hinner, hhandle, rfl⟩ := runs_tryExcept.mp hrest
            refine restoreInner_checked hinner fun hnone => hd ?_
            -- The cleanup detaches nothing.
            have hcleanup : detached tr₄ = [] := by
              cases q with
              | ok result =>
                  obtain ⟨rfl, -⟩ := Cmd.runs_ret.mp hhandle
                  rfl
              | error e =>
                  obtain ⟨k, tr₅, rfl, hwait⟩ := Cmd.runs_op.mp hhandle
                  obtain ⟨st, tr₆, rfl, hret⟩ := Cmd.runs_op.mp hwait
                  obtain ⟨rfl, -⟩ := Cmd.runs_ret.mp hret
                  rfl
            have hall : detached (tr₃ ++ tr₄) = [] := by
              rw [detached, List.filterMap_append, ← detached, ← detached, hnone, hcleanup]
              rfl
            exact hall

/-- And nothing is resumed from a file that is not accepted: the restorer fails. -/
theorem not_resumed {path : String} {data : List UInt8} {x : Error} {r : Except Error RestoreResult}
    (hreject : accept checksum path data = .error x)
    (h : Cmd.Runs (restoreFile checksum path data fds ()) tr (r, ())) :
    detached tr = [] ∧ ∃ e, r = .error e := by
  rw [restoreFile] at h
  cases hload : Wire.load path data with
  | error e =>
      rw [hload] at h
      obtain ⟨rfl, heq⟩ := Cmd.runs_ret.mp h
      exact ⟨rfl, e, (Prod.mk.inj heq).1⟩
  | ok s =>
      rw [hload] at h
      have hrestore : Cmd.Runs (restore checksum s fds ()) tr (r, ()) := runs_pure_bind.mp h
      have hnone : detached tr = [] := by
        by_contra hd
        exact nomatch hreject.symm.trans (resumed_accepted hload hrestore hd)
      refine ⟨hnone, ?_⟩
      cases r with
      | error e => exact ⟨e, rfl⟩
      | ok result =>
          -- A restore that returns has detached the child.
          obtain ⟨-, pid, tr', rfl, hinner⟩ := restore_returns hrestore
          obtain ⟨tr₁, tr₂, tr₃, rfl, -⟩ := restoreInner_returns hinner
          have hlast := List.filterMap_eq_nil_iff.mp hnone ⟨.detach pid, .ok ()⟩
            (.tail _ (.tail _ (List.mem_append_right _ (.head _))))
          cases hlast

end Resumed

/-! ## What is accepted -/

/-- `s` as far as the first `i` regions and `k` descriptors is a snapshot: there is a region, the
descriptors come behind all regions, and what regions there are lie in user space, apart, and have
their checksums. -/
structure Stands (checksum : List UInt8 → UInt64) (s : Proto.ProcessSnapshot) (i k : Nat) :
    Prop where
  some : s.memoryRegions.take i ≠ []
  ordered : k = 0 ∨ s.memoryRegions.length ≤ i
  fits : ∀ r ∈ s.memoryRegions.take i, Fits r
  separate : (s.memoryRegions.take i).Pairwise Separate
  intact : ∀ r ∈ s.memoryRegions.take i, checksum r.data = r.checksum

variable {path : String} {s s' : Proto.ProcessSnapshot} {p t : List UInt8} {i k : Nat}

theorem accept_cut (h : Built s) (hcut : Stands checksum s i k)
    (hlen : (Wire.save (cut s i k)).length < 2 ^ 64) :
    accept checksum path (Wire.save (cut s i k)) = .ok (cut s i k) :=
  accept_iff.mpr ⟨Wire.snapshot.decode_encode hlen,
    validate_iff.mpr ⟨h.arch, ⟨hcut.fits, hcut.separate⟩, h.registers, hcut.some⟩, hcut.intact⟩

theorem encodeFields_append (fs fs' : List Protobuf.Field) :
    encodeFields (fs ++ fs') = encodeFields fs ++ encodeFields fs' := List.flatMap_append

/-- What is cut off behind a region is not all. -/
theorem save_cut (h : Built s) (hordered : k = 0 ∨ s.memoryRegions.length ≤ i) :
    ∃ t, t ≠ [] ∧ Wire.save (cut s i k) ++ t = Wire.save s := by
  obtain ⟨fs, hfields⟩ : ∃ fs, Wire.snapshot.fields s =
      Wire.snapshot.fields (cut s i k) ++ (fs ++ [⟨21, string.wire "1.0"⟩]) := by
    rw [cut_fields h, snapshot_fields, tailFields_built h]
    obtain rfl | hall := hordered
    · refine ⟨regionFields (s.memoryRegions.drop i) ++ descriptorFields s.fileDescriptors, ?_⟩
      have hsplit : regionFields s.memoryRegions =
          regionFields (s.memoryRegions.take i) ++ regionFields (s.memoryRegions.drop i) := by
        rw [regionFields, regionFields, regionFields, ← List.map_append, ← List.map_append,
          List.take_append_drop]
      rw [hsplit, List.take_zero]
      simp only [descriptorFields, List.map_nil, List.append_nil, List.append_assoc]
    · refine ⟨descriptorFields (s.fileDescriptors.drop k), ?_⟩
      have hsplit : descriptorFields s.fileDescriptors =
          descriptorFields (s.fileDescriptors.take k) ++ descriptorFields
            (s.fileDescriptors.drop k) := by
        rw [descriptorFields, descriptorFields, descriptorFields, ← List.map_append,
          ← List.map_append, List.take_append_drop]
      rw [hsplit, List.take_of_length_le hall, List.append_assoc, List.append_assoc,
        List.append_assoc]
  refine ⟨encodeFields (fs ++ [⟨21, string.wire "1.0"⟩]), fun hnil => ?_, ?_⟩
  · rw [encodeFields_append] at hnil
    have hlast : encodeFields [⟨21, string.wire "1.0"⟩] = [] := (List.append_eq_nil_iff.mp hnil).2
    rw [encodeFields, List.flatMap_singleton] at hlast
    exact absurd hlast (Protobuf.Field.encode_ne_nil _)
  · rw [Wire.save, Wire.save, Message.encode, Message.encode, hfields,
      encodeFields_append _ (fs ++ _)]

/-- What is accepted of a file that ends early is a snapshot cut off behind a region. -/
theorem accept_prefix (h : Built s) (hlen : (Wire.save s).length < 2 ^ 63)
    (hp : p ++ t = Wire.save s) (ht : t ≠ [])
    (haccept : accept checksum path p = .ok s') :
    ∃ i k, Stands checksum s i k ∧ p = Wire.save (cut s i k) := by
  have hlen : (Wire.save s).length < 2 ^ 64 := by omega
  obtain ⟨hdecode, hvalid, hsums⟩ := accept_iff.mp haccept
  obtain ⟨j, rfl⟩ | hnone := Wire.snapshot.decode_prefix hlen hp
  swap
  · rw [hnone] at hdecode
    exact nomatch hdecode
  have hend : j < (Wire.snapshot.fields s).length := by
    refine Nat.lt_of_not_le fun hle => ht ?_
    rw [List.take_of_length_le hle] at hp
    exact List.append_right_eq_self.mp hp
  obtain hhead | hhead := Nat.lt_or_ge (headFields s).length j
  · have hsave : encodeFields ((Wire.snapshot.fields s).take j) = Wire.save (cut s
        (j - (headFields s).length) (j - (headFields s).length - s.memoryRegions.length)) := by
      rw [take_fields h hhead hend]
      rfl
    have hshort : (Wire.save (cut s (j - (headFields s).length)
        (j - (headFields s).length - s.memoryRegions.length))).length < 2 ^ 64 := by
      rw [← hsave]
      have := congrArg List.length hp
      rw [List.length_append] at this
      omega
    rw [hsave] at hdecode ⊢
    obtain rfl := Option.some.inj (hdecode.symm.trans (Wire.snapshot.decode_encode hshort))
    obtain ⟨-, ⟨hfits, hseparate⟩, -, hsome⟩ := validate_iff.mp hvalid
    exact ⟨_, _, ⟨hsome, by omega, hfits, hseparate, hsums⟩, rfl⟩
  · -- The file ends before its regions.
    rw [Wire.snapshot.decode_take hlen, snapshot_fields,
      List.take_append_of_le_length hhead] at hdecode
    exact absurd (headFields_leave hdecode) (validate_iff.mp hvalid).2.2.2

/-- A strict prefix of a snapshot file is rejected unless it ends between two fields behind the
first region, and the regions it has are those of a snapshot; and if it is rejected, every run of
the restorer on it fails, and has resumed nothing. -/
theorem partial_rejected_iff {pid : Int32} {f : Capture.Frozen} {d : Capture.Description}
    (hlen : (Wire.save (Capture.build pid f d)).length < 2 ^ 63)
    (hp : p ++ t = Wire.save (Capture.build pid f d)) (ht : t ≠ []) :
    ((∃ e, accept checksum path p = .error e) ↔ ∀ i k, Stands checksum (Capture.build pid f d) i k →
      p ≠ Wire.save (cut (Capture.build pid f d) i k)) ∧
    ((∃ e, accept checksum path p = .error e) → ∀ fds tr r,
      Cmd.Runs (restoreFile checksum path p fds ()) tr (r, ()) → detached tr = [] ∧
        ∃ e, r = .error e) := by
  have hbuilt := build_built pid f d
  refine ⟨⟨?_, fun hcut => ?_⟩, fun ⟨x, hx⟩ fds tr r hr => not_resumed hx hr⟩
  · rintro ⟨e, he⟩ i k hcut rfl
    have hshort : (Wire.save (cut (Capture.build pid f d) i k)).length < 2 ^ 64 := by
      have := congrArg List.length hp
      rw [List.length_append] at this
      omega
    rw [accept_cut hbuilt hcut hshort] at he
    exact nomatch he
  · cases haccept : accept checksum path p with
    | error e => exact ⟨e, rfl⟩
    | ok s' =>
        obtain ⟨i, k, hstands, hsave⟩ := accept_prefix hbuilt hlen hp ht haccept
        exact absurd hsave (hcut i k hstands)

/-! ## A page of two -/

/-- A page of zeros as the capturer sees it. -/
def zeroPage (start : UInt64) : MemoryRegion where
  start := start
  end_ := start + 0x1000
  perms := "rw-p"
  backingFile := none
  offset := 0
  regionType := "anon"
  data := List.replicate 0x1000 0
  checksum := 0

def twoPages : Capture.Frozen where
  registers := .ofPtrace (regsAt 0x10000) .zero
  regions := [zeroPage 0x10000, zeroPage 0x20000]
  fds := []

def someHost : Capture.Description where
  processName := "worker"
  kernel := "Linux version 6.1.0"
  hostname := "source"
  processAgeSeconds := 60
  vmSizeBytes := 0x2000
  vmRssBytes := 0x2000
  uid := 1000
  timestampNs := 1700000000000000000

def twoPageSnapshot : Proto.ProcessSnapshot := Capture.build 42 twoPages someHost

theorem twoPageSnapshot_stands : Stands (fun _ => 0) twoPageSnapshot 1 0 where
  some := List.cons_ne_nil _ _
  ordered := Or.inl rfl
  fits r hr := by
    obtain rfl := List.mem_singleton.mp hr
    exact (by decide : Fits (zeroRegion 0x10000 0))
  separate := List.pairwise_singleton _ _
  intact r hr := by
    obtain rfl := List.mem_singleton.mp hr
    rfl

theorem twoPageSnapshot_short : (Wire.save twoPageSnapshot).length < 2 ^ 63 := by decide +kernel

/-- The second page is lost, and nothing says so. -/
theorem first_page_accepted : ∃ f d p t s', 2 ≤ f.regions.length ∧ t ≠ [] ∧
    p ++ t = Wire.save (Capture.build 42 f d) ∧ accept (fun _ => 0) "snapshot.pb" p = .ok s' := by
  obtain ⟨t, ht, hsave⟩ :=
    save_cut (i := 1) (k := 0) (build_built 42 twoPages someHost) (Or.inl rfl)
  refine ⟨twoPages, someHost, _, t, cut (Capture.build 42 twoPages someHost) 1 0, Nat.le_refl 2, ht,
    hsave, ?_⟩
  refine accept_cut (build_built 42 twoPages someHost) twoPageSnapshot_stands ?_
  have hlen := congrArg List.length hsave
  have hshort := twoPageSnapshot_short
  rw [twoPageSnapshot] at hshort
  rw [List.length_append] at hlen
  omega

/-- The file as far as the first kilobyte of the first page. -/
def tornPage : List UInt8 := (Wire.save twoPageSnapshot).take 1600

theorem tornPage_rejected : ∃ e, accept (fun _ => 0) "snapshot.pb" tornPage = .error e := by
  have hdecode : Wire.snapshot.decode tornPage = none := by decide +kernel
  cases haccept : accept (fun _ => 0) "snapshot.pb" tornPage with
  | error e => exact ⟨e, rfl⟩
  | ok s => exact nomatch hdecode.symm.trans (accept_iff.mp haccept).1

/-- A file that is torn in the middle of a page is rejected, and nothing is resumed from it. -/
theorem partial_rejected_iff_torn : (∀ i k, Stands (fun _ => 0) twoPageSnapshot i k →
      tornPage ≠ Wire.save (cut twoPageSnapshot i k)) ∧
    ∀ fds tr r, Cmd.Runs (restoreFile (fun _ => 0) "snapshot.pb" tornPage fds ()) tr (r, ()) →
      detached tr = [] ∧ ∃ e, r = .error e := by
  have hrest : (Wire.save twoPageSnapshot).drop 1600 ≠ [] := fun hnil =>
    absurd (congrArg List.isEmpty hnil) (by decide +kernel)
  have hsave : tornPage ++ _ = Wire.save twoPageSnapshot := List.take_append_drop 1600 _
  obtain ⟨hiff, hnone⟩ := partial_rejected_iff twoPageSnapshot_short hsave hrest
  exact ⟨hiff.mp tornPage_rejected, hnone tornPage_rejected⟩

end Wraith.Restore

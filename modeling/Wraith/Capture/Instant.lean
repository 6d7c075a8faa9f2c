/-
# `Wraith.Capture.Instant` — does a snapshot show one instant?

The target runs while it is captured, whenever it is not stopped: its own steps are an arbitrary
relation, taken between any two calls of `capture`.  The instant a snapshot should show is the one
at which the target stops for the attach.

Registers and bytes are read behind the stop and are of that instant.  The maps are read before the
attach, so regions are missing or stale when the target has changed its mappings in between:
`capture_shows_instant_iff`.
-/
import Mathlib.Data.List.Forall2
import Wraith.Lib.Interleave
import Wraith.Lib.Memory
import Wraith.Capture.Capturer

namespace Wraith.Capture

open Lib Script Process

/-! ## The target -/

/-- A process as the kernel shows it.  No two of its mappings overlap, and none is empty. -/
structure Target where
  regs : UserRegs
  fpregs : UserFpregs
  maps : List MapsEntry
  mem : Memory Unit
  nonempty : ∀ e ∈ maps, e.start < e.end_
  disjoint : maps.Pairwise fun e e' => e.end_ ≤ e'.start ∨ e'.end_ ≤ e.start

/-- The target with its tracer.  `frozen` is the target as it was when it stopped. -/
structure World where
  target : Target
  attached : Bool := false
  stopped : Bool := false
  frozen : Option Target := none

/-- What the world does by itself: the target takes a step of its own, or stops for its tracer. -/
inductive Own (own : Target → Target → Prop) : World → World → Prop where
  | runs {w : World} {t : Target} : w.stopped = false → own w.target t →
      Own own w { w with target := t }
  | stops {w : World} : w.attached = true → w.stopped = false →
      Own own w { w with stopped := true, frozen := some w.target }

/-- How the kernel answers.  Any call may fail; what is read is there. -/
def answer (w : World) : (o : CapOp) → CapResp o → World → Prop
  | .readMaps _, r, w' => w' = w ∧ ∀ m, r = .ok m → m = w.target.maps
  | .pidExists _, _, w' => w' = w
  | .attach _, .ok _, w' => w' = { w with attached := true }
  | .attach _, .error _, w' => w' = w
  | .waitpid _, r, w' => w' = w ∧ ∀ status, r = .ok status → w.stopped = true
  | .getregs _, r, w' => w' = w ∧ ∀ regs, r = .ok regs → regs = w.target.regs
  | .getfpregs _, r, w' => w' = w ∧ ∀ fpregs, r = .ok fpregs → fpregs = w.target.fpregs
  | .readMem _ start _, r, w' => w' = w ∧
      ∀ data, r = .ok data → w.target.mem.Holds start.toNat data.val
  | .enumerateFds _, _, w' => w' = w
  | .detach _, .ok _, w' => w' = { w with attached := false, stopped := false }
  | .detach _, .error _, w' => w' = w
  | .describe _, _, w' => w' = w

/-- The kernel, with a target whose own steps are `own`. -/
def kernel (own : Target → Target → Prop) : Env CapResp World where
  answer := answer
  step := Own own

/-! ## What a snapshot should show -/

/-- A failed dump of an entry. -/
def failsDump (e : MapsEntry) : Event CapResp → Bool
  | ⟨.readMem _ start size, .error _⟩ => start = e.start && size = e.region.size
  | _ => false

/-- The dump of an entry failed. -/
def dumpFailed (tr : List (Event CapResp)) (e : MapsEntry) : Bool := tr.any (failsDump e)

/-- The regions of a list of mappings that are to be captured: readable, neither vsyscall nor vvar,
and without a failed dump. -/
def capturable (tr : List (Event CapResp)) (maps : List MapsEntry) : List Proto.MemoryRegion :=
  (maps.filter fun e => !shouldSkip e.region && !dumpFailed tr e).map fun e =>
    regionToProto e.region

/-- `r` is the region `p`, which is without bytes, with the bytes the target has there. -/
structure Image (checksum : List UInt8 → UInt64) (T : Target) (p r : Proto.MemoryRegion) :
    Prop where
  region : p = { r with data := [], checksum := 0 }
  length : r.data.length = r.sizeBytes.toNat
  bytes : T.mem.Holds r.startAddr.toNat r.data
  sum : r.checksum = checksum r.data

/-- The snapshot is of the target `T`: its registers, and its regions with their bytes. -/
structure Shows (checksum : List UInt8 → UInt64) (T : Target) (tr : List (Event CapResp))
    (s : Proto.ProcessSnapshot) : Prop where
  registers : s.registers = some (regsToProto (.ofPtrace T.regs T.fpregs))
  regions : List.Forall₂ (Image checksum T) (capturable tr T.maps) s.memoryRegions

/-! ## The order of the calls -/

/-- How far the attach has come. -/
inductive Stage where
  | before
  | attached
  | frozen
  | after
  deriving DecidableEq, Repr

def Stage.next : Stage → (o : CapOp) → CapResp o → Stage
  | _, .attach _, .ok _ => .attached
  | _, .waitpid _, .ok _ => .frozen
  | _, .detach _, _ => .after
  | g, _, _ => g

/-- The target is read behind the wait and before the detach. -/
def order : Cmd.Monitor CapResp Stage where
  allow g o := match o with
    | .readMaps _ => g = .before
    | .pidExists _ => g = .before
    | .attach _ => g = .before
    | .waitpid _ => g = .attached
    | .detach _ => g = .frozen
    | .describe _ => g = .after
    | _ => g = .frozen
  next := Stage.next

variable {checksum : List UInt8 → UInt64} {pid : Int32}

theorem order_reads : Reads order .frozen := by
  intro o ho
  cases o with
  | getregs pid => exact ⟨rfl, fun _ => rfl⟩
  | getfpregs pid => exact ⟨rfl, fun _ => rfl⟩
  | readMem pid start size => exact ⟨rfl, fun _ => rfl⟩
  | enumerateFds pid => exact ⟨rfl, fun _ => rfl⟩
  | _ => exact nomatch ho

/-- A lock is there once the target has been waited for. -/
def Attached (pid : Int32) : Except Error ProcessLock → Unit → Stage → Prop
  | .ok lock, _, g => lock = ⟨pid, false⟩ ∧ g = .frozen
  | .error _, _, _ => True

theorem attach_order : Wp order (ProcessLock.attach pid) (Attached pid) () .before :=
  wp_attach rfl rfl ⟨rfl, rfl, rfl⟩ trivial (fun _ => trivial) (fun _ _ => trivial)
    fun _ => ⟨rfl, rfl⟩

/-- A snapshot is returned after the detach. -/
theorem capture_order : Wp order (capture checksum pid)
    (fun r _ g => ∀ s, r = .ok s → g = .after) () .before := by
  refine wp_capture .frozen rfl (fun e s h => nomatch h) (fun entries => ?_) order_reads rfl
    (fun detached x s h => nomatch h) fun detached => ⟨rfl, fun d s _ _ => rfl⟩
  refine wp_mono (fun r _ g h => ?_) attach_order
  cases r with
  | ok lock => exact h
  | error x => exact fun s h => nomatch h

/-! ## What is read is of the instant of the stop -/

/-- What was read is as the target `T` has it. -/
def Truthful (T : Target) : Event CapResp → Prop
  | ⟨.readMaps _, .ok m⟩ => ∃ T' : Target, m = T'.maps
  | ⟨.getregs _, .ok regs⟩ => regs = T.regs
  | ⟨.getfpregs _, .ok fpregs⟩ => fpregs = T.fpregs
  | ⟨.readMem _ start _, .ok data⟩ => T.mem.Holds start.toNat data.val
  | _ => True

def Faithful (T : Target) (tr : List (Event CapResp)) : Prop := ∀ ev ∈ tr, Truthful T ev

theorem Faithful.append {T : Target} {tr : List (Event CapResp)} {ev : Event CapResp}
    (h : Faithful T tr) (hev : Truthful T ev) : Faithful T (tr ++ [ev]) := by
  intro ev' hmem
  obtain hmem | hmem := List.mem_append.mp hmem
  · exact h ev' hmem
  · rw [List.mem_singleton.mp hmem]
    exact hev

/-- The world at each stage. -/
def Inv : Stage → List (Event CapResp) → World → Prop
  | .before, tr, w => w.attached = false ∧ w.stopped = false ∧ ∀ T, Faithful T tr
  | .attached, tr, w => w.attached = true ∧ (w.stopped = true → w.frozen = some w.target) ∧
      ∀ T, Faithful T tr
  | .frozen, tr, w => w.stopped = true ∧ w.frozen = some w.target ∧ Faithful w.target tr
  | .after, tr, w => (w.stopped = true ∨ w.attached = false) ∧
      ∃ T, w.frozen = some T ∧ Faithful T tr

theorem inv_stable {own : Target → Target → Prop} (g : Stage) (tr : List (Event CapResp)) :
    (kernel own).Stable (Inv g tr) := by
  intro w w' hI hs
  cases hs with
  | runs hrunning hs =>
      cases g with
      | before => exact hI
      | attached =>
          exact ⟨hI.1, fun hstopped => absurd (hrunning.symm.trans hstopped) (by decide), hI.2.2⟩
      | frozen => exact absurd (hrunning.symm.trans hI.1) (by decide)
      | after => exact hI
  | stops hattached hrunning =>
      cases g with
      | before => exact absurd (hI.1.symm.trans hattached) (by decide)
      | attached => exact ⟨hI.1, fun _ => rfl, hI.2.2⟩
      | frozen => exact absurd (hrunning.symm.trans hI.1) (by decide)
      | after =>
          obtain hstopped | hdetached := hI.1
          · exact absurd (hrunning.symm.trans hstopped) (by decide)
          · exact absurd (hdetached.symm.trans hattached) (by decide)

/-- A call that says nothing about the target's state. -/
theorem Inv.quiet {g : Stage} {tr : List (Event CapResp)} {w : World} {ev : Event CapResp}
    (hI : Inv g tr w) (hev : ∀ T, Truthful T ev) : Inv g (tr ++ [ev]) w := by
  cases g with
  | before => exact ⟨hI.1, hI.2.1, fun T => (hI.2.2 T).append (hev T)⟩
  | attached => exact ⟨hI.1, hI.2.1, fun T => (hI.2.2 T).append (hev T)⟩
  | frozen => exact ⟨hI.1, hI.2.1, hI.2.2.append (hev _)⟩
  | after =>
      obtain ⟨hs, T, hT, hf⟩ := hI
      exact ⟨hs, T, hT, hf.append (hev T)⟩

/-- Every answer takes the world from one stage to the next. -/
theorem inv_answer {own : Target → Target → Prop} (g : Stage) (tr : List (Event CapResp))
    (w : World) (o : CapOp) (r : CapResp o) (w' : World) (hI : Inv g tr w)
    (hallow : order.allow g o) (ha : (kernel own).answer w o r w') :
    Inv (order.next g o r) (tr ++ [⟨o, r⟩]) w' := by
  cases o with
  | readMaps pid =>
      obtain ⟨rfl, hr⟩ := ha
      cases r with
      | ok m => exact hI.quiet fun _ => ⟨_, hr m rfl⟩
      | error e => exact hI.quiet fun _ => trivial
  | pidExists pid =>
      obtain rfl := ha
      exact hI.quiet fun _ => trivial
  | attach pid =>
      obtain rfl : g = .before := hallow
      cases r with
      | ok _ =>
          obtain rfl := ha
          exact ⟨rfl, fun hs => absurd (hI.2.1.symm.trans hs) (by decide),
            fun T => (hI.2.2 T).append trivial⟩
      | error e =>
          obtain rfl := ha
          exact hI.quiet fun _ => trivial
  | waitpid pid =>
      obtain rfl : g = .attached := hallow
      obtain ⟨rfl, hstop⟩ := ha
      cases r with
      | ok status =>
          have hs := hstop status rfl
          exact ⟨hs, hI.2.1 hs, (hI.2.2 _).append trivial⟩
      | error e => exact hI.quiet fun _ => trivial
  | getregs pid =>
      obtain rfl : g = .frozen := hallow
      obtain ⟨rfl, hr⟩ := ha
      cases r with
      | ok regs => exact ⟨hI.1, hI.2.1, hI.2.2.append (hr regs rfl)⟩
      | error e => exact hI.quiet fun _ => trivial
  | getfpregs pid =>
      obtain rfl : g = .frozen := hallow
      obtain ⟨rfl, hr⟩ := ha
      cases r with
      | ok fpregs => exact ⟨hI.1, hI.2.1, hI.2.2.append (hr fpregs rfl)⟩
      | error e => exact hI.quiet fun _ => trivial
  | readMem pid start size =>
      obtain rfl : g = .frozen := hallow
      obtain ⟨rfl, hr⟩ := ha
      cases r with
      | ok data => exact ⟨hI.1, hI.2.1, hI.2.2.append (hr data rfl)⟩
      | error e => exact hI.quiet fun _ => trivial
  | enumerateFds pid =>
      obtain rfl := ha
      exact hI.quiet fun _ => trivial
  | detach pid =>
      obtain rfl : g = .frozen := hallow
      cases r with
      | ok _ =>
          obtain rfl := ha
          exact ⟨Or.inr rfl, w.target, hI.2.1, hI.2.2.append trivial⟩
      | error e =>
          obtain rfl := ha
          exact ⟨Or.inl hI.1, w'.target, hI.2.1, hI.2.2.append trivial⟩
  | describe pid =>
      obtain rfl := ha
      exact hI.quiet fun _ => trivial

/-- A process that nobody has attached to. -/
def World.fresh (t : Target) : World := { target := t }

theorem capture_faithful {own : Target → Target → Prop} {t : Target} {w : World}
    {tr : List (Event CapResp)} {s : Proto.ProcessSnapshot}
    (h : (kernel own).Reaches (capture checksum pid ()) (.fresh t) ⟨.ret (.ok s, ()), tr, w⟩) :
    ∃ T, w.frozen = some T ∧ Faithful T tr := by
  have hstart : Inv .before [] (.fresh t) := ⟨rfl, rfl, fun _ _ hmem => nomatch hmem⟩
  obtain ⟨g, hg, hI⟩ :=
    (Env.always_of_obeys inv_stable inv_answer capture_order hstart).ended h
  obtain rfl := hg s rfl
  exact hI.2

/-! ## The regions of a snapshot -/

section Regions

variable {T : Target} {es : List MapsEntry} {dumps : List (Event CapResp)}
  {regions : List MemoryRegion}

/-- Mappings of one process start at different addresses. -/
theorem Target.starts_ne (T : Target) : T.maps.Pairwise fun e e' => e.start ≠ e'.start := by
  refine List.Pairwise.imp_of_mem (fun {e e'} he he' hle heq => ?_) T.disjoint
  obtain hle | hle := hle
  · have hlt := UInt64.lt_of_lt_of_le (T.nonempty e he) hle
    rw [heq] at hlt
    exact UInt64.lt_irrefl _ hlt
  · have hlt := UInt64.lt_of_lt_of_le (T.nonempty e' he') hle
    rw [heq] at hlt
    exact UInt64.lt_irrefl _ hlt

/-- A dump of another entry. -/
theorem failsDump_of_ne {e e' : MapsEntry} (h : e.start ≠ e'.start)
    (r : Except Error { data : List UInt8 // data.length = e'.region.size.toNat }) :
    failsDump e ⟨.readMem pid e'.region.start e'.region.size, r⟩ = false := by
  cases r with
  | ok data => rfl
  | error x =>
      have hstart : e'.region.start ≠ e.start := h.symm
      simp only [failsDump, hstart, decide_false, Bool.false_and]

/-- An entry that is not dumped has no failed dump. -/
theorem Dumps.not_failed {e : MapsEntry}
    (h : Dumps checksum pid (es.map MapsEntry.region) dumps regions)
    (hne : ∀ e' ∈ es, e.start ≠ e'.start) : dumpFailed dumps e = false := by
  induction es generalizing dumps regions with
  | nil =>
      cases h
      rfl
  | cons e' es ih =>
      have hne' : ∀ e'' ∈ es, e.start ≠ e''.start := fun e'' hmem =>
        hne e'' (List.mem_cons_of_mem _ hmem)
      cases h with
      | skip _ hd => exact ih hd hne'
      | dump r _ hd =>
          rw [dumpFailed, List.any_cons, failsDump_of_ne (hne e' (.head _)), Bool.false_or]
          exact ih hd hne'

/-- A region that has been dumped. -/
theorem image_filled {e : MapsEntry} {data : List UInt8} (hlen : data.length = e.region.size.toNat)
    (hdata : T.mem.Holds e.start.toNat data) :
    Image checksum T (regionToProto e.region) (regionToProto (e.region.filled checksum data)) :=
  ⟨rfl, hlen, hdata, rfl⟩

/-- A region is skipped when it is empty. -/
theorem size_of_not_skipped {region : MemoryRegion} (h : shouldSkip region = false) :
    region.size ≠ 0 := fun hsize => by
  rw [shouldSkip, if_pos hsize] at h
  exact absurd h (by decide)

theorem capturable_cons_of_not {tr : List (Event CapResp)} {e : MapsEntry}
    (h : shouldSkip e.region = true ∨ dumpFailed tr e = true) :
    capturable tr (e :: es) = capturable tr es := by
  rw [capturable, List.filter_cons_of_neg, capturable]
  obtain h | h := h
  · simp only [h, Bool.not_true, Bool.false_and, Bool.false_eq_true, not_false_eq_true]
  · simp only [h, Bool.not_true, Bool.and_false, Bool.false_eq_true, not_false_eq_true]

theorem capturable_cons {tr : List (Event CapResp)} {e : MapsEntry}
    (hskip : shouldSkip e.region = false) (hfail : dumpFailed tr e = false) :
    capturable tr (e :: es) = regionToProto e.region :: capturable tr es := by
  rw [capturable,
    List.filter_cons_of_pos (by simp only [hskip, hfail, Bool.not_false, Bool.and_self]),
    List.map_cons, capturable]

/-- The regions that are kept, in the snapshot. -/
def kept (regions : List MemoryRegion) : List Proto.MemoryRegion :=
  (regions.filter (·.data ≠ [])).map regionToProto

theorem kept_cons_of_empty {region : MemoryRegion} (h : region.data = []) :
    kept (region :: regions) = kept regions := by
  rw [kept, List.filter_cons_of_neg (by
    simp only [h, ne_eq, not_true, decide_false, Bool.false_eq_true, not_false_eq_true]), kept]

theorem kept_cons {region : MemoryRegion} (h : region.data ≠ []) :
    kept (region :: regions) = regionToProto region :: kept regions := by
  rw [kept, List.filter_cons_of_pos (by exact decide_eq_true h), List.map_cons, kept]

/-- What the loop makes of a list of mappings: the capturable ones, with the bytes of `T`.  `tr` is
the whole run, of which `dumps` are the dumps of these mappings. -/
theorem Dumps.images (hne : es.Pairwise fun e e' => e.start ≠ e'.start)
    (h : Dumps checksum pid (es.map MapsEntry.region) dumps regions) (hT : Faithful T dumps)
    {tr : List (Event CapResp)} (hfailed : ∀ e ∈ es, dumpFailed tr e = dumpFailed dumps e) :
    List.Forall₂ (Image checksum T) (capturable tr es) (kept regions) := by
  induction es generalizing dumps regions with
  | nil =>
      cases h
      exact .nil
  | cons e es ih =>
      obtain ⟨hstart, hes⟩ := List.pairwise_cons.mp hne
      cases h with
      | skip hskip hd =>
          rw [capturable_cons_of_not (Or.inl hskip), kept_cons_of_empty rfl]
          exact ih hes hd hT fun e' hmem => hfailed e' (.tail _ hmem)
      | dump r hskip hd =>
          have hrest := ih hes hd (fun ev hmem => hT ev (.tail _ hmem)) fun e' hmem => by
            rw [hfailed e' (.tail _ hmem), dumpFailed, List.any_cons,
              failsDump_of_ne (hstart e' hmem).symm, Bool.false_or, dumpFailed]
          have hself : dumpFailed tr e = failsDump e
              ⟨.readMem pid e.region.start e.region.size, r⟩ := by
            have hnone := hd.not_failed hstart
            rw [dumpFailed] at hnone
            rw [hfailed e (.head _), dumpFailed, List.any_cons, hnone, Bool.or_false]
          cases r with
          | error x =>
              have hfail : dumpFailed tr e = true := by
                rw [hself]
                simp only [failsDump, MapsEntry.region, decide_true, Bool.and_self]
              rw [capturable_cons_of_not (Or.inr hfail), kept_cons_of_empty rfl]
              exact hrest
          | ok data =>
              have hdata : (data : List UInt8) ≠ [] := fun hnil => by
                have hlen := data.property
                rw [hnil] at hlen
                exact size_of_not_skipped hskip (UInt64.toNat_inj.mp hlen.symm)
              rw [capturable_cons hskip hself, kept_cons (by exact hdata)]
              exact .cons (image_filled data.property (hT _ (.head _))) hrest

end Regions

theorem image_leftUnique {T : Target} : Relator.LeftUnique (Image checksum T) :=
  fun _ _ _ h h' => h.region.trans h'.region.symm

/-- Only the loop over the regions dumps. -/
theorem Log.dumpFailed_trace (l : Log) (e : MapsEntry) :
    dumpFailed (l.trace pid) e = dumpFailed l.dumps e := by
  simp only [dumpFailed, Log.trace, List.any_cons, List.any_append, List.any_nil, failsDump,
    Bool.false_or, Bool.or_false]

/-! ## The result -/

/-- A snapshot has the registers of the instant of the stop, and of the maps that were read the
capturable regions, with the bytes of that instant. -/
theorem capture_images {own : Target → Target → Prop} {t : Target} {w : World}
    {tr : List (Event CapResp)} {s : Proto.ProcessSnapshot}
    (h : (kernel own).Reaches (capture checksum pid ()) (.fresh t) ⟨.ret (.ok s, ()), tr, w⟩) :
    ∃ T maps, w.frozen = some T ∧ ⟨.readMaps pid, .ok maps⟩ ∈ tr ∧ s.arch = "x86_64" ∧
      s.registers = some (regsToProto (.ofPtrace T.regs T.fpregs)) ∧
      List.Forall₂ (Image checksum T) (capturable tr maps) s.memoryRegions := by
  obtain ⟨T, hfrozen, hT⟩ := capture_faithful h
  obtain ⟨l, hvalid, rfl, rfl⟩ := capture_ok (Env.Reaches.runs_ended h)
  obtain ⟨T', hmaps⟩ : ∃ T' : Target, l.entries = T'.maps := hT _ (.head _)
  have hdumps : Faithful T l.dumps := fun ev hmem => hT ev (by
    simp only [Log.trace, List.mem_cons, List.mem_append]
    exact Or.inr (Or.inr (Or.inr (Or.inr (Or.inr (Or.inr (Or.inl hmem)))))))
  have hgp : l.gp = T.regs :=
    hT ⟨.getregs pid, .ok l.gp⟩ (by simp only [Log.trace, List.mem_cons, true_or, or_true])
  have hfp : l.fp = T.fpregs :=
    hT ⟨.getfpregs pid, .ok l.fp⟩ (by simp only [Log.trace, List.mem_cons, true_or, or_true])
  refine ⟨T, l.entries, hfrozen, .head _, rfl, by rw [← hgp, ← hfp]; rfl, ?_⟩
  exact hvalid.regions.images (by rw [hmaps]; exact T'.starts_ne) hdumps
    fun e _ => l.dumpFailed_trace e

/-- A snapshot is of the instant of the stop exactly when the maps read before the attach have the
capturable regions of that instant. -/
theorem capture_shows_instant_iff {own : Target → Target → Prop} {t : Target} {w : World}
    {tr : List (Event CapResp)} {s : Proto.ProcessSnapshot}
    (h : (kernel own).Reaches (capture checksum pid ()) (.fresh t) ⟨.ret (.ok s, ()), tr, w⟩) :
    ∃ T maps, w.frozen = some T ∧ ⟨.readMaps pid, .ok maps⟩ ∈ tr ∧
      (Shows checksum T tr s ↔ capturable tr maps = capturable tr T.maps) := by
  obtain ⟨T, maps, hfrozen, hread, -, hregs, himages⟩ := capture_images h
  refine ⟨T, maps, hfrozen, hread, fun hshows => ?_, fun heq => ?_⟩
  · exact List.left_unique_forall₂' image_leftUnique himages hshows.regions
  · exact ⟨hregs, heq ▸ himages⟩

/-! ## A target that keeps its mappings -/

/-- The target, the instant of its stop and the maps that were read have the mappings of `t`. -/
structure Stays {α : Type} (t : Target) (σ : Env.State CapResp World α) : Prop where
  target : σ.world.target.maps = t.maps
  frozen : ∀ T, σ.world.frozen = some T → T.maps = t.maps
  read : ∀ pid m, ⟨.readMaps pid, .ok m⟩ ∈ σ.trace → m = t.maps

/-- No call changes the target. -/
theorem answer_target {w w' : World} {o : CapOp} {r : CapResp o} (ha : answer w o r w') :
    w'.target = w.target ∧ w'.frozen = w.frozen := by
  cases o with
  | attach pid => cases r with
    | ok _ => exact (show w' = { w with attached := true } from ha) ▸ ⟨rfl, rfl⟩
    | error e => exact (show w' = w from ha) ▸ ⟨rfl, rfl⟩
  | detach pid => cases r with
    | ok _ => exact (show w' = { w with attached := false, stopped := false } from ha) ▸ ⟨rfl, rfl⟩
    | error e => exact (show w' = w from ha) ▸ ⟨rfl, rfl⟩
  | readMaps pid => exact ha.1 ▸ ⟨rfl, rfl⟩
  | waitpid pid => exact ha.1 ▸ ⟨rfl, rfl⟩
  | getregs pid => exact ha.1 ▸ ⟨rfl, rfl⟩
  | getfpregs pid => exact ha.1 ▸ ⟨rfl, rfl⟩
  | readMem pid start size => exact ha.1 ▸ ⟨rfl, rfl⟩
  | pidExists pid => exact (show w' = w from ha) ▸ ⟨rfl, rfl⟩
  | enumerateFds pid => exact (show w' = w from ha) ▸ ⟨rfl, rfl⟩
  | describe pid => exact (show w' = w from ha) ▸ ⟨rfl, rfl⟩

theorem stays_step {α : Type} {own : Target → Target → Prop}
    (hown : ∀ t t', own t t' → t'.maps = t.maps) {t : Target} (σ σ' : Env.State CapResp World α)
    (h : Stays t σ) (hs : (kernel own).Step σ σ') : Stays t σ' := by
  cases hs with
  | own hs => cases hs with
    | runs _ hstep => exact ⟨(hown _ _ hstep).trans h.target, h.frozen, h.read⟩
    | stops _ _ => exact ⟨h.target, fun T hT => Option.some.inj hT ▸ h.target, h.read⟩
  | @perform o _ tr w w' r ha =>
      obtain ⟨htarget, hfrozen⟩ := answer_target ha
      refine ⟨?_, fun T hT => ?_, fun pid m hm => ?_⟩
      · show w'.target.maps = t.maps
        rw [htarget]
        exact h.target
      · refine h.frozen T ?_
        rw [← hfrozen]
        exact hT
      · obtain hm | hm := List.mem_append.mp hm
        · exact h.read pid m hm
        · cases List.mem_singleton.mp hm
          exact (ha.2 m rfl).trans h.target

theorem stays {α : Type} {own : Target → Target → Prop}
    (hown : ∀ t t', own t t' → t'.maps = t.maps) {t : Target} {c : Cmd CapResp α}
    {σ : Env.State CapResp World α} (h : (kernel own).Reaches c (.fresh t) σ) : Stays t σ :=
  invariant (stays_step hown) ⟨rfl, fun T (h : none = some T) => (nomatch h), fun _ _ h =>
    absurd h List.not_mem_nil⟩ h

/-! ## A process that grows -/

def text : MapsEntry := ⟨0x1000, 0x2000, "r-xp", 0, "/bin/worker"⟩

def heap : MapsEntry := ⟨0x2000, 0x3000, "rw-p", 0, "[heap]"⟩

def workerRegs : UserRegs :=
  ⟨0, 0, 0, 0, 0, 0, 0, 0, 0, 0, 0, 0, 0, 0, 0, 0, 0x1000, 0, 0, 0x2ff8, 0, 0, 0, 0, 0, 0, 0⟩

/-- Without a heap, at first. -/
def worker : Target where
  regs := workerRegs
  fpregs := .zero
  maps := [text]
  mem := fun _ => some ⟨0, ()⟩
  nonempty := by decide
  disjoint := by decide

def grown : Target :=
  { worker with maps := [text, heap], nonempty := by decide, disjoint := by decide }

/-- The process asks for a heap. -/
def Grows (t t' : Target) : Prop := t = worker ∧ t' = grown

def zeroPage : { data : List UInt8 // data.length = text.region.size.toNat } :=
  ⟨List.replicate text.region.size.toNat 0, List.length_replicate⟩

theorem zeroPage_holds (a : Nat) : worker.mem.Holds a zeroPage.val := fun i h => by
  simp only [zeroPage, List.getElem_replicate]
  rfl

/-- A capture of the text alone. -/
def textLog : Log where
  entries := [text]
  status := .stopped .sigstop
  gp := workerRegs
  fp := worker.fpregs
  dumps := [⟨.readMem 42 text.region.start text.region.size, .ok zeroPage⟩]
  regions := [text.region.filled (fun _ => 0) zeroPage.val]
  fds := []
  detached := .ok ()
  description := ⟨"worker", "6.1", "host", 0, 0, 0, 0, 0⟩

theorem textLog_valid : textLog.Valid (fun _ => 0) 42 where
  registers := validate_ofPtrace.mpr ⟨by decide, by decide⟩
  regions := .dump (.ok zeroPage) rfl .nil

/-- The heap comes between the maps and the attach. -/
theorem textLog_path : (kernel Grows).Path (.fresh worker) (textLog.trace 42)
    { target := grown, frozen := some grown } :=
  .answer ⟨rfl, fun _ h => (Except.ok.inj h).symm⟩ <|
  .own (.runs rfl ⟨rfl, rfl⟩) <|
  .answer rfl <|
  .answer rfl <|
  .own (.stops rfl rfl) <|
  .answer ⟨rfl, fun _ _ => rfl⟩ <|
  .answer ⟨rfl, fun _ h => (Except.ok.inj h).symm⟩ <|
  .answer ⟨rfl, fun _ h => (Except.ok.inj h).symm⟩ <|
  .answer ⟨rfl, fun _ h => Except.ok.inj h ▸ zeroPage_holds _⟩ <|
  .answer rfl <|
  .answer rfl <|
  .answer rfl .nil

theorem textLog_reaches : (kernel Grows).Reaches (capture (fun _ => 0) 42 ()) (.fresh worker)
    ⟨.ret (.ok (textLog.snapshot 42), ()), textLog.trace 42,
      { target := grown, frozen := some grown }⟩ :=
  textLog_path.reaches textLog_valid.runs

theorem stale_maps : ∃ own t s tr w, (kernel own).Reaches (capture (fun _ => 0) 42 ()) (.fresh t)
    ⟨.ret (.ok s, ()), tr, w⟩ ∧ ¬ ∃ T, w.frozen = some T ∧ Shows (fun _ => 0) T tr s := by
  refine ⟨Grows, worker, _, _, _, textLog_reaches, ?_⟩
  rintro ⟨T, hT, hshows⟩
  obtain rfl := Option.some.inj hT
  exact absurd hshows.regions.length_eq (by decide)

theorem capture_shows_instant_iff_worker : ∃ T maps,
    (some grown = some T) ∧ ⟨.readMaps 42, .ok maps⟩ ∈ textLog.trace 42 ∧
      (Shows (fun _ => 0) T (textLog.trace 42) (textLog.snapshot 42) ↔
        capturable (textLog.trace 42) maps = capturable (textLog.trace 42) T.maps) :=
  capture_shows_instant_iff textLog_reaches

end Wraith.Capture

/-
# `Wraith.Migration` — the programs put together

The target under its capturer; the transmitter and the receiver, with the stream and the file
between them; the restorer with its child: one system, in which each moves whenever it can.  The
restorer may be started as soon as the transmitter has returned nil, and what it finds at the output
path then is nothing yet, the beginning of the file, or all of it.

Whatever the order: a child that is let go by a restorer that exits 0 has the registers of the
target at the instant of its stop and, up to where the file ended, its mappings, byte for byte and
under their permissions (`migration_rebuilds`).  Something may be missing; nothing is wrong.
-/
import Wraith.Restore.Handover
import Wraith.Restore.Partial
import Wraith.Restore.RoundTrip
import Wraith.Transport.Delivery

namespace Wraith.Migration

open Lib Script Process Restore
open Transport (Delivery Output Json TransferOptions)

/-! ## The system -/

/-- What a migration is run with.  `own` are the steps the target takes by itself, and `Stub` is
what the children are that `fork` makes on the destination. -/
structure Setting where
  checksum : List UInt8 → UInt64
  own : Capture.Target → Capture.Target → Prop
  pid : Int32
  json : Json
  hashPage : List UInt8 → UInt64
  opts : TransferOptions
  path : String
  strictFds : Bool
  Stub : Child → Prop

/-- The capturer, and what has been started behind it. -/
structure System where
  capturer : Env.State Capture.CapResp Capture.World (Except Error Proto.ProcessSnapshot × Unit)
  delivery : Option Delivery := none
  restorer : Option (Env.State RestResp World (Except Error Nat × Unit)) := none

/-- What a reader finds in the file. -/
def contents : Output → Option (List UInt8)
  | .absent => none
  | .writing bs => some bs
  | .complete bs => some bs

/-- A child that has been forked is one of `Stub`. -/
def Forks (Stub : Child → Prop) (w : World) : (o : RestOp) → RestResp o → Prop
  | .fork, .ok _ => Stub w.child
  | _, _ => True

/-- The kernel of the destination. -/
def destination (Stub : Child → Prop) : Env RestResp World where
  answer w o r w' := Restore.answer w o r w' ∧ Forks Stub w' o r
  step _ _ := False

variable (P : Setting)

/-- The kernel of the source. -/
abbrev source : Env Capture.CapResp Capture.World := Capture.kernel P.own

abbrev Deliver : Delivery → Delivery → Prop := Delivery.Step P.json P.hashPage false

/-- A delivery of the snapshot file. -/
def sending (s : Proto.ProcessSnapshot) : Delivery :=
  Transport.delivery P.json P.hashPage (Wire.save s) P.opts

inductive Step : System → System → Prop where
  | capture {m : System} {σ} : (source P).Step m.capturer σ → Step m { m with capturer := σ }
  | transmit {m : System} {s : Proto.ProcessSnapshot} :
      m.capturer.rest = .ret (.ok s, ()) → m.delivery = none →
        Step m { m with delivery := some (sending P s) }
  | deliver {m : System} {d d' : Delivery} :
      m.delivery = some d → Deliver P d d' → Step m { m with delivery := some d' }
  -- The restorer gets past the reading of its file, if that is there and can be decoded.
  | restore {m : System} {d : Delivery} {found : Output} {bs : List UInt8}
      {s : Proto.ProcessSnapshot} {fds : List FdSpec} {w : World} :
      m.delivery = some d → d.restorer = some found → contents found = some bs →
      Wire.load P.path bs = .ok s → m.restorer = none →
        Step m { m with restorer := some ⟨runRestorer P.checksum P.strictFds s fds (), [], w⟩ }
  | rebuild {m : System} {σ σ'} :
      m.restorer = some σ → (destination P.Stub).Step σ σ' → Step m { m with restorer := some σ' }

/-- The system before anything has happened to the target `t`. -/
def start (t : Capture.Target) : System where
  capturer := ⟨Capture.capture P.checksum P.pid (), [], .fresh t⟩

/-- The target with only some of its mappings. -/
def limited (T : Capture.Target) (maps : List MapsEntry) (h : maps.Sublist T.maps) :
    Capture.Target :=
  { T with
    maps
    nonempty := fun e he => T.nonempty e (h.subset he)
    disjoint := T.disjoint.sublist h }

/-! ## The file -/

variable {P}

/-- The file holds a beginning of the data, and when it is complete, all of them. -/
def Holds (data : List UInt8) : Output → Prop
  | .absent => True
  | .writing bs => bs <+: data
  | .complete bs => bs = data

theorem Holds.beginning {data bs : List UInt8} {found : Output} (h : Holds data found)
    (hbs : contents found = some bs) : bs <+: data := by
  cases found with
  | absent => exact nomatch hbs
  | writing bs' => exact Option.some.inj hbs ▸ h
  | complete bs' =>
      obtain rfl := Option.some.inj hbs
      exact h ▸ List.prefix_rfl

/-- What the receiver writes is what it has returned. -/
theorem output_holds {data : List UInt8} {d d' : Delivery}
    (hrx : ∀ out hs, d.session.rx = some (.returned out hs none) → out = data)
    (hd : Holds data d.output) (h : Deliver P d d') : Holds data d'.output := by
  cases h with
  | create _ _ => exact List.nil_prefix
  | write hret _ =>
      obtain rfl := hrx _ _ hret
      exact List.prefix_append _ _
  | close hret _ => exact hrx _ _ hret
  | session _ => exact hd
  | restore _ _ => exact hd
  | spoilFwd hf _ => cases hf
  | spoilBwd hf _ => cases hf
  | breakRx hf _ => cases hf
  | breakTx hf _ => cases hf
  | cutWrite hf _ _ => cases hf

/-- And what the restorer has found is what was there. -/
theorem found_holds {data : List UInt8} {d d' : Delivery} (hd : Holds data d.output)
    (hfound : ∀ found, d.restorer = some found → Holds data found) (h : Deliver P d d') :
    ∀ found, d'.restorer = some found → Holds data found := by
  cases h with
  | restore _ _ => exact fun found h => Option.some.inj h ▸ hd
  | create _ _ => exact hfound
  | write _ _ => exact hfound
  | close _ _ => exact hfound
  | session _ => exact hfound
  | spoilFwd hf _ => cases hf
  | spoilBwd hf _ => cases hf
  | breakRx hf _ => cases hf
  | breakTx hf _ => cases hf
  | cutWrite hf _ _ => cases hf

/-- A receiver that returns nil returns the data. -/
theorem received {data : List UInt8} {d : Delivery}
    (hc : Transport.Carried P.json (Transport.handshakeFor data P.opts))
    (hmax : data.length ≤ Transport.maxSnapshotBytes.toNat) (hretries : 0 ≤ P.opts.maxRetries)
    (h : Reach (Deliver P) (Transport.delivery P.json P.hashPage data P.opts) d) {out : List UInt8}
    {hs : Option Transport.Handshake} (hrx : d.session.rx = some (.returned out hs none)) :
    out = data := by
  have hsettles : Transport.Transfers P.json P.hashPage data P.opts :=
    Transport.transfer_settles hc hmax hretries
  obtain ⟨hsome, hnone⟩ := hsettles
  have hsession := Transport.delivery_session h
  obtain hzero | hpos := Nat.eq_zero_or_pos data.length
  · obtain ⟨buf, hs', e, heq⟩ := ((hnone hzero).1.safe _ hsession).2 _ hrx
    cases heq
  · obtain ⟨hs', heq, -⟩ := ((hsome hpos).safe _ hsession).2 _ hrx
    exact (Transport.RxResult.returned.inj heq).1

/-- Whenever the restorer has been started: what it found holds the data as far as it goes. -/
theorem restorer_found {data : List UInt8} {d : Delivery}
    (hc : Transport.Carried P.json (Transport.handshakeFor data P.opts))
    (hmax : data.length ≤ Transport.maxSnapshotBytes.toNat) (hretries : 0 ≤ P.opts.maxRetries)
    (h : Reach (Deliver P) (Transport.delivery P.json P.hashPage data P.opts) d) :
    Holds data d.output ∧ ∀ found, d.restorer = some found → Holds data found := by
  induction h with
  | refl => exact ⟨trivial, fun _ h => by cases h⟩
  | tail h hs ih =>
      exact ⟨output_holds (fun _ _ => received hc hmax hretries h) ih.1 hs,
        found_holds ih.1 ih.2 hs⟩

/-! ## The three programs keep to their own -/

/-- A restorer is started once. -/
theorem restorer_stays {d d' : Delivery} {found : Output} (h : Deliver P d d')
    (hd : d.restorer = some found) : d'.restorer = some found := by
  cases h with
  | restore _ hnone => exact nomatch hnone.symm.trans hd
  | create _ _ => exact hd
  | write _ _ => exact hd
  | close _ _ => exact hd
  | session _ => exact hd
  | spoilFwd hf _ => cases hf
  | spoilBwd hf _ => cases hf
  | breakRx hf _ => cases hf
  | breakTx hf _ => cases hf
  | cutWrite hf _ _ => cases hf

/-- Each program is in a run of its own, on what the one before it has come to. -/
structure Inv (P : Setting) (t : Capture.Target) (m : System) : Prop where
  capturer : (source P).Reaches (Capture.capture P.checksum P.pid ()) (.fresh t) m.capturer
  delivery : ∀ d, m.delivery = some d → ∃ s, m.capturer.rest = .ret (.ok s, ()) ∧
    Reach (Deliver P) (sending P s) d
  restorer : ∀ σ, m.restorer = some σ → ∃ d found bs s fds w, m.delivery = some d ∧
    d.restorer = some found ∧ contents found = some bs ∧ Wire.load P.path bs = .ok s ∧
    (destination P.Stub).Reaches (runRestorer P.checksum P.strictFds s fds ()) w σ

theorem inv_step {t : Capture.Target} (m m' : System) (hm : Inv P t m) (h : Step P m m') :
    Inv P t m' := by
  cases h with
  | @capture σ hs =>
      refine ⟨hm.capturer.tail hs, fun d hd => ?_, hm.restorer⟩
      obtain ⟨s, hrest, hreach⟩ := hm.delivery d hd
      refine ⟨s, ?_, hreach⟩
      exact hs.ret hrest
  | transmit hrest hnone =>
      refine ⟨hm.capturer, fun d hd => ⟨_, hrest, Option.some.inj hd ▸ .refl⟩, fun σ hσ => ?_⟩
      obtain ⟨d, found, bs, s, fds, w, hd, -⟩ := hm.restorer σ hσ
      exact nomatch hnone.symm.trans hd
  | @deliver d d' hd hs =>
      refine ⟨hm.capturer, fun d'' hd'' => ?_, fun σ hσ => ?_⟩
      · obtain ⟨s, hrest, hreach⟩ := hm.delivery d hd
        exact ⟨s, hrest, Option.some.inj hd'' ▸ hreach.tail hs⟩
      · obtain ⟨d₁, found, bs, s, fds, w, hd₁, hfound, hrun⟩ := hm.restorer σ hσ
        obtain rfl := Option.some.inj (hd₁.symm.trans hd)
        exact ⟨d', found, bs, s, fds, w, rfl, restorer_stays hs hfound, hrun⟩
  | restore hd hfound hbs hload hnone =>
      refine ⟨hm.capturer, hm.delivery, fun σ hσ => ?_⟩
      obtain rfl := Option.some.inj hσ
      exact ⟨_, _, _, _, _, _, hd, hfound, hbs, hload, .refl⟩
  | @rebuild σ σ' hσ hs =>
      refine ⟨hm.capturer, hm.delivery, fun σ'' hσ'' => ?_⟩
      obtain ⟨d, found, bs, s, fds, w, hd, hfound, hbs, hload, hreach⟩ := hm.restorer σ hσ
      exact ⟨d, found, bs, s, fds, w, hd, hfound, hbs, hload, Option.some.inj hσ'' ▸ hreach.tail hs⟩

theorem inv_reach {t : Capture.Target} {m : System} (h : Reach (Step P) (start P t) m) :
    Inv P t m :=
  invariant inv_step ⟨.refl, fun _ h => (by cases h), fun _ h => (by cases h)⟩ h

/-! ## A restorer that exits 0 -/

variable {checksum : List UInt8 → UInt64} {Stub : Child → Prop} {s : Proto.ProcessSnapshot}
  {fds : List FdSpec} {tr : List (Event RestResp)} {w w' : World}

theorem destination_answered {α : Type} {c : Cmd RestResp α} {σ : Env.State RestResp World α}
    (h : (destination Stub).Reaches c w σ) :
    Answered (destination Stub).answer w σ.trace σ.world := by
  induction h with
  | refl => rfl
  | tail _ hs ih =>
      cases hs with
      | own hs => exact hs.elim
      | perform ha => exact answered_append.mpr ⟨_, ih, _, ha, rfl⟩

/-- A restore that returns has run through with one stub. -/
theorem restore_stubs {result : RestoreResult}
    (h : Cmd.Runs (restore checksum s fds ()) tr (.ok result, ()))
    (ha : Answered (destination Stub).answer w tr w') :
    validate s = .ok () ∧ ∃ child tr' w₁, Stub w₁.child ∧
      Cmd.Runs (restoreInner checksum s fds child ()) tr' (.ok result, ()) ∧
        Answered answer w₁ tr' w' ∧
      phases.after .idle tr = phases.after .idle tr' := by
  obtain ⟨hvalid, child, tr', rfl, hinner⟩ := restore_returns h
  obtain ⟨w₁, ⟨hans₁, hstub⟩, w₂, ⟨⟨-, hans₂⟩, -⟩, hrun⟩ := ha
  refine ⟨hvalid, child, tr', w₂, ?_, hinner, hrun.mono fun _ _ _ _ h => h.1, rfl⟩
  rw [hans₂]
  exact hstub

/-- And the file of one that returns has been accepted. -/
theorem restore_accepts {result : RestoreResult} {child : Int32} {path : String} {bs : List UInt8}
    (hload : Wire.load path bs = .ok s) (hvalid : validate s = .ok ())
    (h : Cmd.Runs (restoreInner checksum s fds child ()) tr (.ok result, ())) :
    accept checksum path bs = .ok s := by
  obtain ⟨-, -, ⟨e, heq⟩ | ⟨-, -, -, hdetached⟩⟩ := restoreInner_runs h
  · exact nomatch heq
  · refine accept_iff.mpr ⟨Wire.load_ok.mp hload, hvalid, restoreInner_checked h ?_⟩
    rw [hdetached]
    exact List.cons_ne_nil _ _

/-! ## What the file holds of the target -/

variable {T : Capture.Target} {ctr : List (Event Capture.CapResp)}

/-- The injection site of a stub is in none of the target's mappings. -/
def Spares (c : Child) (e : MapsEntry) : Prop :=
  Memory.Apart c.regs.rip.toNat (c.regs.rip.toNat + 8) e.start.toNat e.end_.toNat

theorem Spares.site {c : Child} {e : MapsEntry} {r : Proto.MemoryRegion} (h : Spares c e)
    (himage : ImageOf checksum T e r) (he : Captured e) : SparesSite c r := by
  rw [SparesSite, himage.regionEnd_eq he, himage.start]
  exact h

theorem dumpedMaps_sublist (ctr : List (Event Capture.CapResp)) (es : List MapsEntry) (i : Nat) :
    ((dumpedMaps ctr es).take i).Sublist es :=
  (List.take_sublist _ _).trans List.filter_sublist

/-- A snapshot that is cut off behind a region is one of a target with fewer mappings. -/
theorem snapped_cut (h : Snapped checksum T ctr s) (i k : Nat) :
    Snapped checksum (limited T ((dumpedMaps ctr T.maps).take i)
      (dumpedMaps_sublist ctr T.maps i)) ctr
      (cut s i k) where
  arch := h.arch
  registers := h.registers
  paged e he := h.paged e ((dumpedMaps_sublist ctr T.maps i).subset he)
  images := by
    have hall : dumpedMaps ctr ((dumpedMaps ctr T.maps).take i) = (dumpedMaps ctr T.maps).take i :=
      List.filter_eq_self.mpr fun e he => (List.mem_filter.mp (List.mem_of_mem_take he)).2
    show List.Forall₂ _ (dumpedMaps ctr ((dumpedMaps ctr T.maps).take i)) (s.memoryRegions.take i)
    rw [hall]
    exact (List.forall₂_take i h.images).imp fun e r hr =>
      ⟨hr.start, hr.size, hr.perms, hr.sized, hr.bytes, hr.sum⟩

/-- A beginning of the file that is accepted has all of the snapshot, or is cut off behind a region.
-/
theorem accept_beginning {s' : Proto.ProcessSnapshot} {path : String} {bs : List UInt8}
    (h : Built s) (hlen : (Wire.save s).length < 2 ^ 63) (hbs : bs <+: Wire.save s)
    (haccept : accept checksum path bs = .ok s') :
    bs = Wire.save s ∧ s' = s ∨ bs ≠ Wire.save s ∧ ∃ i k, s' = cut s i k := by
  obtain ⟨t, ht⟩ := hbs
  obtain ⟨hdecode, -⟩ := accept_iff.mp haccept
  by_cases hnil : t = []
  · rw [hnil, List.append_nil] at ht
    rw [ht, Wire.save, Wire.snapshot.decode_encode (by rw [← Wire.save]; omega)] at hdecode
    exact Or.inl ⟨ht, (Option.some.inj hdecode).symm⟩
  · obtain ⟨i, k, -, rfl⟩ := accept_prefix h hlen ht hnil haccept
    have hne : Wire.save (cut s i k) ≠ Wire.save s := fun heq => hnil (by
      rw [heq] at ht
      exact List.append_right_eq_self.mp ht)
    refine Or.inr ⟨hne, i, k, ?_⟩
    have hshort : (Wire.save (cut s i k)).length < 2 ^ 64 := by
      have := congrArg List.length ht
      rw [List.length_append] at this
      omega
    rw [Wire.save, Wire.snapshot.decode_encode (by rwa [← Wire.save])] at hdecode
    exact (Option.some.inj hdecode).symm

/-- The child of a restore that returns, and breaks off no injection, is the target over again. -/
theorem released_rebuilt {child : Int32} {result : RestoreResult} (h : Snapped checksum T ctr s)
    (hspares : ∀ e ∈ T.maps, Spares w.child e)
    (hr : Cmd.Runs (restoreInner checksum s fds child ()) tr (.ok result, ()))
    (ha : Answered answer w tr w')
    (hwhole : phases.after .idle tr ≠ .broken) : ∃ c, w'.released = some c ∧ Rebuilt T ctr c := by
  obtain ⟨n, tr₁, w₁, fds', -, hstate, ha₁, -, hreleased⟩ := restoreInner_steady hr ha hwhole
  have hsite : ∀ r ∈ s.memoryRegions, SparesSite w.child r := fun r hr => by
    obtain ⟨e, he, himage⟩ := (forall₂_members h.images).2 r hr
    exact (hspares e (mem_dumpedMaps.mp he).1).site himage (h.captured he)
  have hrebuilt : Rebuilt T ctr w₁.child := restoreState_rebuilds h hsite hstate ha₁
  exact ⟨_, hreleased, hrebuilt.memory, hrebuilt.regs, hrebuilt.fpregs⟩

theorem rebuilt_limited {c : Child} {maps : List MapsEntry} (hmaps : maps.Sublist T.maps)
    (h : Rebuilt T ctr c) : Rebuilt (limited T maps hmaps) ctr c :=
  ⟨fun e he => h.memory e (hmaps.subset he), h.regs, h.fpregs⟩

/-! ## The result -/

/-- The child has the registers of the target, and the first `i` of the mappings that were captured,
one at least. -/
def RebuiltTo (T : Capture.Target) (ctr : List (Event Capture.CapResp)) (i : Nat) (c : Child) :
    Prop :=
  (dumpedMaps ctr T.maps).take i ≠ [] ∧
    Rebuilt (limited T ((dumpedMaps ctr T.maps).take i) (dumpedMaps_sublist ctr T.maps i)) ctr c

/-- A valid snapshot has a mapping. -/
theorem snapped_some (h : Snapped checksum T ctr s) (hvalid : validate s = .ok ()) :
    dumpedMaps ctr T.maps ≠ [] := fun hnil => by
  have hlen := h.images.length_eq
  rw [hnil] at hlen
  exact (validate_iff.mp hvalid).2.2.2 (List.eq_nil_of_length_eq_zero hlen.symm)

/-- What a restorer that has exited 0 leaves, the three programs being in runs of their own. -/
theorem Inv.rebuilds {t : Capture.Target} {m : System} {tr : List (Event RestResp)} (hm : Inv P t m)
    (hown : ∀ t t', P.own t t' → t'.maps = t.maps) (hpaged : ∀ e ∈ t.maps, Paged e)
    (hstub : ∀ c, P.Stub c → ∀ e ∈ t.maps, Spares c e) (hretries : 0 ≤ P.opts.maxRetries)
    (hs : m.capturer.rest = .ret (.ok s, ()))
    (hc : Transport.Carried P.json (Transport.handshakeFor (Wire.save s) P.opts))
    (hmax : (Wire.save s).length ≤ Transport.maxSnapshotBytes.toNat)
    (hr : m.restorer = some ⟨.ret (.ok 0, ()), tr, w⟩) (hwhole : phases.after .idle tr ≠ .broken) :
    ∃ T c, m.capturer.world.frozen = some T ∧ w.released = some c ∧
      (∃ i, RebuiltTo T m.capturer.trace i c) ∧
      ∀ d bs, m.delivery = some d → d.restorer = some (.complete bs) →
        Rebuilt T m.capturer.trace c := by
  obtain ⟨hcapturer, hdelivery, hrestorer⟩ := hm
  obtain ⟨d, found, bs, s', fds, w₀, hd, hfound, hbs, hload, hreach⟩ := hrestorer _ hr
  -- The capture.
  have hcapture : (Capture.kernel P.own).Reaches (Capture.capture P.checksum P.pid ()) (.fresh t)
      ⟨.ret (.ok s, ()), m.capturer.trace, m.capturer.world⟩ := by
    rw [← hs]
    exact hcapturer
  obtain ⟨T, hfrozen, hmaps, hsnapped⟩ := capture_snapped hown hpaged hcapture
  have hbuilt : Built s := by
    obtain ⟨l, -, -, rfl⟩ := Capture.capture_ok hcapture.runs_ended
    exact build_built _ _ _
  -- The file.
  obtain ⟨s'', hs'', hsent⟩ := hdelivery d hd
  obtain rfl : s = s'' := Except.ok.inj (Prod.mk.inj (Cmd.ret.inj (hs.symm.trans hs''))).1
  have hholds : Holds (Wire.save s) found := (restorer_found hc hmax hretries hsent).2 found hfound
  -- The restore.
  obtain ⟨result, hrestore, -⟩ := runRestorer_zero hreach.runs_ended
  obtain ⟨hvalid, child, tr', w₁, hstubbed, hinner, ha, hafter⟩ :=
    restore_stubs hrestore (destination_answered hreach)
  have hspares : ∀ e ∈ T.maps, Spares w₁.child e := fun e he => hstub _ hstubbed e (hmaps ▸ he)
  have hlen : (Wire.save s).length < 2 ^ 63 := Nat.lt_of_le_of_lt hmax (by decide)
  rw [hafter] at hwhole
  obtain ⟨-, rfl⟩ | ⟨hpart, i, k, rfl⟩ := accept_beginning hbuilt hlen (hholds.beginning hbs)
    (restore_accepts hload hvalid hinner)
  · obtain ⟨c, hreleased, hrebuilt⟩ := released_rebuilt hsnapped hspares hinner ha hwhole
    refine ⟨T, c, hfrozen, hreleased, ⟨(dumpedMaps m.capturer.trace T.maps).length, ?_, ?_⟩,
      fun _ _ _ _ => hrebuilt⟩
    · rw [List.take_length]
      exact snapped_some hsnapped hvalid
    · exact rebuilt_limited _ hrebuilt
  · have hcut := snapped_cut hsnapped i k
    obtain ⟨c, hreleased, hrebuilt⟩ := released_rebuilt hcut
      (fun e he => hspares e ((dumpedMaps_sublist _ _ i).subset he)) hinner ha hwhole
    refine ⟨T, c, hfrozen, hreleased, ⟨i, fun hnil => ?_, hrebuilt⟩, fun d' bs' hd' hbs' => ?_⟩
    · refine snapped_some hcut hvalid ?_
      show dumpedMaps _ ((dumpedMaps _ T.maps).take i) = []
      rw [hnil]
      rfl
    · obtain rfl := Option.some.inj (hd.symm.trans hd')
      obtain rfl := Option.some.inj (hfound.symm.trans hbs')
      exact absurd ((Option.some.inj hbs).symm.trans hholds) hpart

/-- **A migrated process.**  The target keeps its mappings while it is captured, and these are of
whole pages; the stubs of the destination have their injection site outside of them.  In every state
the system comes to in which the restorer has exited 0 without breaking off an injection, its child
has the first of the mappings, and all of them if the file it found was complete. -/
theorem migration_rebuilds {t : Capture.Target} {m : System} {tr : List (Event RestResp)}
    (hown : ∀ t t', P.own t t' → t'.maps = t.maps) (hpaged : ∀ e ∈ t.maps, Paged e)
    (hstub : ∀ c, P.Stub c → ∀ e ∈ t.maps, Spares c e) (hretries : 0 ≤ P.opts.maxRetries)
    (h : Reach (Step P) (start P t) m) (hs : m.capturer.rest = .ret (.ok s, ()))
    (hc : Transport.Carried P.json (Transport.handshakeFor (Wire.save s) P.opts))
    (hmax : (Wire.save s).length ≤ Transport.maxSnapshotBytes.toNat)
    (hr : m.restorer = some ⟨.ret (.ok 0, ()), tr, w⟩) (hwhole : phases.after .idle tr ≠ .broken) :
    ∃ T c, m.capturer.world.frozen = some T ∧ w.released = some c ∧
      (∃ i, RebuiltTo T m.capturer.trace i c) ∧
      ∀ d bs, m.delivery = some d → d.restorer = some (.complete bs) →
        Rebuilt T m.capturer.trace c :=
  (inv_reach h).rebuilds hown hpaged hstub hretries hs hc hmax hr hwhole

/-! ## Runs of one part -/

theorem reach_capture {m : System} {σ} (h : Reach (source P).Step m.capturer σ) :
    Reach (Step P) m { m with capturer := σ } := by
  induction h with
  | refl => exact .refl
  | tail _ hs ih => exact ih.tail (.capture hs)

theorem reach_deliver {m : System} {d d' : Delivery} (hd : m.delivery = some d)
    (h : Reach (Deliver P) d d') :
    Reach (Step P) m { m with delivery := some d' } := by
  induction h with
  | refl => exact hd ▸ .refl
  | tail _ hs ih => exact ih.tail (.deliver rfl hs)

theorem reach_rebuild {m : System} {σ σ'} (hσ : m.restorer = some σ)
    (h : Reach (destination P.Stub).Step σ σ') :
    Reach (Step P) m { m with restorer := some σ' } := by
  induction h with
  | refl => exact hσ ▸ .refl
  | tail _ hs ih => exact ih.tail (.rebuild rfl hs)

/-- A delivery can come to the point where the transmitter has returned nil and the file is
complete. -/
theorem delivery_written {data : List UInt8}
    (hc : Transport.Carried P.json (Transport.handshakeFor data P.opts)) (hpos : 0 < data.length)
    (hmax : data.length ≤ Transport.maxSnapshotBytes.toNat) (hretries : 0 ≤ P.opts.maxRetries) :
    ∃ d stats, Reach (Deliver P) (Transport.delivery P.json P.hashPage data P.opts) d ∧
      d.session.tx = .ret (stats, none) ∧ d.output = .complete data ∧ d.restorer = none := by
  obtain ⟨s, hreach, htx, hrx⟩ := (Transport.acceptedPlan hc hpos hmax hretries :
    Transport.Plan P.json P.hashPage).reach_end Transport.sendSnapshot_asks
  have hreturned : s.rx = some
      (.returned ([] ++ data ++ []) (some (Transport.handshakeFor data P.opts)) none) := by
    rw [List.nil_append, List.append_nil]
    exact hrx
  have hsession : Reach (Deliver P) (Transport.delivery P.json P.hashPage data P.opts)
      { Transport.delivery P.json P.hashPage data P.opts with session := s } :=
    Transport.Delivery.reach_session hreach
  exact ⟨_, _,
    ((hsession.tail (.create hrx rfl)).tail (.write hreturned rfl)).tail (.close hrx rfl),
    htx, rfl, rfl⟩

/-- And to its end, the restorer having found that. -/
theorem delivery_completes {data : List UInt8}
    (hc : Transport.Carried P.json (Transport.handshakeFor data P.opts)) (hpos : 0 < data.length)
    (hmax : data.length ≤ Transport.maxSnapshotBytes.toNat) (hretries : 0 ≤ P.opts.maxRetries) :
    ∃ d, Reach (Deliver P) (Transport.delivery P.json P.hashPage data P.opts) d ∧
      d.restorer = some (.complete data) := by
  obtain ⟨d, stats, hreach, htx, hout, hnone⟩ := delivery_written hc hpos hmax hretries
  exact ⟨_, hreach.tail (.restore htx hnone), congrArg some hout⟩

/-- Calls among which there is no `fork`. -/
theorem destination_path (hforked : forked tr = []) (ha : Answered answer w tr w') :
    (destination Stub).Path w tr w' := by
  induction tr generalizing w with
  | nil => exact ha ▸ .nil
  | cons ev tr ih =>
      obtain ⟨o, r⟩ := ev
      obtain ⟨w₁, hans, hrest⟩ := ha
      obtain ⟨hhead, htail⟩ : forkedBy ⟨o, r⟩ = none ∧ forked tr = [] := by
        cases hby : forkedBy ⟨o, r⟩ with
        | none => exact ⟨rfl, by rwa [forked, List.filterMap_cons_none hby] at hforked⟩
        | some pid =>
            rw [forked, List.filterMap_cons_some hby] at hforked
            cases hforked
      refine .answer ⟨hans, ?_⟩ (ih htail hrest)
      cases o with
      | fork => cases r with
        | ok pid => cases hhead
        | error e => trivial
      | _ => trivial

/-- Without descriptors nothing is injected behind the registers. -/
theorem restoreInner_idle {child : Int32} : Ensures phased (fun x => x.2 = .idle)
    (restoreInner checksum s [] child) (fun _ x => x.2 = .idle) := by
  refine Ensures.bind (Ensures.bind restoreState_phase fun n => ?_) fun _ =>
    Ensures.bind (call_phase .idle (g := .idle) fun _ _ _ => rfl) fun _ => pure_phase
  refine Ensures.bind (J := fun report x => report = {} ∧ x.2 = .idle)
    (Ensures.pure fun _ h => ⟨rfl, h⟩)
    fun report => Ensures.fact ?_
  rintro rfl
  exact Ensures.bind pure_phase fun _ => pure_phase

/-- The restorer can get to its end with a snapshot whose regions can be placed. -/
theorem runRestorer_completes {strictFds : Bool} {regs : Proto.Registers} {c : Child}
    (child : Int32) (hc : Stub { c with fds := w.parent }) (hvalid : validate s = .ok ())
    (hsite : SiteMapped c)
    (hplace : ∀ r ∈ s.memoryRegions, Placeable checksum c r) (hregs : s.registers = some regs)
    (hfpu : FpuSized regs) :
    ∃ tr w', (destination Stub).Reaches (runRestorer checksum strictFds s [] ()) w
      ⟨.ret (.ok 0, ()), tr, w'⟩ ∧ phases.after .idle tr = .idle := by
  obtain ⟨tr, w', hr, ha, -⟩ := restoreInner_done child (w := w.forked c) hsite
    (fun r hr => (hplace r hr : Placeable checksum c r).mem _ _) hregs hfpu
  have hidle : phases.after .idle tr = .idle :=
    restoreInner_idle.returns (w := (w.forked c, .idle)) rfl hr ha.watched
  have hrestore : Cmd.Runs (restore checksum s [] ()) (⟨.fork, .ok child⟩ ::
      ⟨.waitpid child, .ok (.stopped .sigstop)⟩ :: tr)
      (.ok { pid := child, regionsOk := s.memoryRegions.length, fdReport := {} }, ()) := by
    rw [restore, hvalid]
    show Cmd.Runs _ ([_, _] ++ tr) _
    exact runs_pure_bind.mpr (runs_bind_ok (runs_call_ok rfl (runs_call_ok rfl
      (runs_pure_bind.mpr (.ret _)))) (runs_tryExcept_ok hr))
  have hrun : Cmd.Runs (runRestorer checksum strictFds s [] ()) ((⟨.fork, .ok child⟩ ::
      ⟨.waitpid child, .ok (.stopped .sigstop)⟩ :: tr) ++ []) (.ok 0, ()) := by
    have hnone : ¬ (({} : RestoreReport).hasFailures && strictFds) = true := Bool.false_ne_true
    refine runs_tryExcept_ok (runs_bind_ok hrestore ?_)
    rw [if_neg hnone]
    exact .ret _
  rw [List.append_nil] at hrun
  have hpath : (destination Stub).Path w (⟨.fork, .ok child⟩ ::
      ⟨.waitpid child, .ok (.stopped .sigstop)⟩ :: tr) w' :=
    .answer ⟨⟨_, .stopped .sigstop, rfl, rfl⟩, hc⟩ <|
    .answer ⟨⟨fun _ h => Option.some.inj h, rfl⟩, trivial⟩ <|
    destination_path (restoreInner_runs hr).1 ha
  exact ⟨_, w', hpath.reaches hrun, hidle⟩

/-! ## A page of text -/

def workerSnapshot : Proto.ProcessSnapshot := Capture.textLog.snapshot 42

/-- Nothing happens between the calls of the capturer, and the destination's stubs are all alike. -/
def workerSetting : Setting where
  checksum := fun _ => 0
  own := fun _ _ => False
  pid := 42
  json := Transport.jsonFor (Wire.save workerSnapshot) Transport.exampleOpts
  hashPage := fun _ => 0
  opts := Transport.exampleOpts
  path := "snapshot.pb"
  strictFds := false
  Stub := fun c => c = stub

theorem workerSnapshot_length : 0 < (Wire.save workerSnapshot).length ∧
    (Wire.save workerSnapshot).length ≤ Transport.maxSnapshotBytes.toNat := by decide +kernel

theorem worker_carried : Transport.Carried workerSetting.json
    (Transport.handshakeFor (Wire.save workerSnapshot) workerSetting.opts) :=
  ⟨Transport.jsonFor_inverts _ _, by decide +kernel, by decide +kernel, by decide +kernel⟩

/-- The restorer can get to its end with what was captured. -/
theorem worker_restores : ∃ tr w, (destination workerSetting.Stub).Reaches
    (runRestorer workerSetting.checksum workerSetting.strictFds workerSnapshot [] ()) quietWorld
    ⟨.ret (.ok 0, ()), tr, w⟩ ∧ phases.after .idle tr = .idle := by
  obtain ⟨T, hT, -, hsnapped⟩ := capture_snapped (fun _ _ h => h.elim) worker_paged worker_reaches
  have hvalid : validate workerSnapshot = .ok () := hsnapped.valid (List.cons_ne_nil _ _)
  have hspares : ∀ r ∈ workerSnapshot.memoryRegions, SparesSite stub r := fun r hr => by
    obtain rfl := List.mem_singleton.mp hr
    exact Or.inr (by decide)
  exact runRestorer_completes (w := quietWorld) (c := stub) 43 rfl hvalid stub_site
    (fun r hr => hsnapped.placeable hr (hspares r hr)) hsnapped.registers fun _ => T.fpregs.property

/-- The injection site of the stubs is in none of the target's mappings. -/
theorem worker_spared : ∀ c, workerSetting.Stub c → ∀ e ∈ Capture.worker.maps, Spares c e := by
  intro c hc e he
  obtain rfl := List.mem_singleton.mp he
  rw [show c = stub from hc]
  exact Or.inr (by decide)

/-- The file of the capturer can be read. -/
theorem worker_loads {path : String} :
    Wire.load path (Wire.save workerSnapshot) = .ok workerSnapshot :=
  Wire.load_save (Nat.lt_of_le_of_lt workerSnapshot_length.2 (by decide))

theorem worker_migrated :
    ∃ m tr w c, Reach (Step workerSetting) (start workerSetting Capture.worker) m ∧
    m.restorer = some ⟨.ret (.ok 0, ()), tr, w⟩ ∧ w.released = some c ∧
    Rebuilt Capture.worker m.capturer.trace c := by
  obtain ⟨tr, w', hrestorer, hidle⟩ := worker_restores
  obtain ⟨d, hdelivery, hfound⟩ := delivery_completes (P := workerSetting) worker_carried
    workerSnapshot_length.1 workerSnapshot_length.2 (by decide)
  have hreach := (((reach_capture (P := workerSetting) (m := start workerSetting Capture.worker)
    worker_reaches).tail (.transmit rfl rfl)).trans (reach_deliver rfl hdelivery)).tail
      (@Step.restore _ _ _ _ _ _ [] quietWorld rfl hfound rfl worker_loads rfl)
  have hend := hreach.trans (reach_rebuild rfl hrestorer)
  obtain ⟨T', c, hT', hreleased, -, hall⟩ := migration_rebuilds (P := workerSetting)
    (fun _ _ h => h.elim) worker_paged worker_spared (by decide) hend rfl worker_carried
    workerSnapshot_length.2 rfl (by rw [hidle]; decide)
  obtain rfl : Capture.worker = T' := Option.some.inj hT'
  exact ⟨_, tr, w', c, hend, rfl, hreleased, hall d _ rfl hfound⟩

end Wraith.Migration

/-
# `Wraith.Orchestration` — the orchestrator over the programs

The system of `Wraith.Migration` takes for granted that a program is started when the one before it
has come to its end.  Here nothing is: a program is started by an operation of `migrate`, whenever
that is, and all `migrate` gets to see of it is its exit.  What ties the two together is in the
texts of the command lines and in the exit codes.

`migrate_drives`: the order is kept all the same, so that under `migrate` the programs do nothing
that the system of `Wraith.Migration` cannot.  `migrate_commits`: a signal goes to the source only
after the restorer has exited 0, and then what it has let go is the source over again, up to the end
of the file it found; the process in a result is that one.

The transmitter of this system takes its command line, which the one in the repository does not.
-/
import Wraith.Migration
import Wraith.Control.Agenda
import Wraith.Control.Dataflow
import Wraith.Restore.Report

namespace Wraith.Orchestration

open Lib Script Process Restore Migration
open Transport (Delivery)
open Control (Teleporter PyOp PyResp PyExc MigrationResult Justified)

/-! ## The plant -/

/-- The programs: which of those in the background have been started, with which command lines a
capturer has exited 0, and which processes have been sent a signal. -/
structure Plant where
  system : System
  capturing : Bool := false
  receiving : Bool := false
  written : List (List String) := []
  signalled : List Int := []

/-- Nothing has been started. -/
def idle (P : Setting) (target : Capture.Target) : Plant where
  system := start P target

/-- The setting is what the command lines say. -/
structure Fits (P : Setting) (t : Teleporter) : Prop where
  pid : P.pid = Int32.ofInt t.pid
  retries : P.opts.maxRetries = t.cfg.retryCount
  path : P.path = t.remotePath
  strictFds : P.strictFds = t.cfg.strictFds

variable (P : Setting) (t : Teleporter)

/-- What goes on without the orchestrator. -/
inductive Moves : Plant → Plant → Prop where
  -- The target, which needs nobody to start it.
  | own {m : Plant} {w : Capture.World} : (source P).step m.system.capturer.world w →
      Moves m { m with
        system := { m.system with capturer := { m.system.capturer with world := w } } }
  | capture {m : Plant} {σ} : m.capturing = true → (source P).Step m.system.capturer σ →
      Moves m { m with system := { m.system with capturer := σ } }
  | deliver {m : Plant} {d d' : Delivery} :
      m.system.delivery = some d → Deliver P d d' → d'.restorer = d.restorer →
        Moves m { m with system := { m.system with delivery := some d' } }
  | rebuild {m : Plant} {σ σ'} : m.system.restorer = some σ → (destination P.Stub).Step σ σ' →
      Moves m { m with system := { m.system with restorer := some σ' } }

/-- The programs an operation starts.  Any of them may also fail to start.  That one be started
again is left out: `migrate` starts each at most once (`Control.OnAgenda`). -/
inductive Starts : Plant → PyOp → Plant → Prop where
  | nothing {m : Plant} {o : PyOp} : Starts m o m
  | capture {m : Plant} {path : String} {n : Int} :
      Starts m (.subprocessRun .capture (t.captureArgv path) n) { m with capturing := true }
  | receive {m : Plant} : Starts m (.execBackground t.receiverCommand) { m with receiving := true }
  -- The transmitter sends whatever is in the file; where the capturer has exited 0, its snapshot.
  | transmit {m : Plant} {path : String} {n : Int} {data : List UInt8} :
      m.receiving = true → m.system.delivery = none →
      (t.captureArgv path ∈ m.written → ∀ s, m.system.capturer.rest = .ret (.ok s, ()) →
        data = Wire.save s) →
        Starts m (.subprocessRun .transmit (t.transmitArgv path) n) { m with
          system := { m.system with
            delivery := some (Transport.delivery P.json P.hashPage data P.opts) } }
  -- The restorer reads whatever is there by then.
  | restore {m : Plant} {d : Delivery} {n : Int} {bs : List UInt8} {s : Proto.ProcessSnapshot}
      {fds : List FdSpec} {w : World} :
      m.system.delivery = some d → d.restorer = none → contents d.output = some bs →
      Wire.load P.path bs = .ok s → m.system.restorer = none →
        Starts m (.execCommand .restorer t.restorerCommand n) { m with
          system := { m.system with
            delivery := some { d with restorer := some d.output }
            restorer := some ⟨runRestorer P.checksum P.strictFds s fds (), [], w⟩ } }

/-! ## Exits -/

def Captured (m : System) : Prop := ∃ s, m.capturer.rest = .ret (.ok s, ())

def Sent (m : System) : Prop := ∃ d stats, m.delivery = some d ∧ d.session.tx = .ret (stats, none)

/-- The restorer has exited 0, and `out` is what it has printed. -/
def Printed (m : System) (out : String) : Prop := ∃ tr w s fds result,
  m.restorer = some ⟨.ret (.ok 0, ()), tr, w⟩ ∧
  Cmd.Runs (restore P.checksum s fds ()) tr (.ok result, ()) ∧
  (report P.strictFds result).exit = none ∧ out = (report P.strictFds result).stdout

/-- An exit code of 0 is that of a program which has come to its end, if the command line is one of
the program's own. -/
def Exits (m : System) : (o : PyOp) → PyResp o → Prop
  | .subprocessRun .capture argv _, .ok c =>
      c.returncode = 0 → ∀ path, argv = t.captureArgv path → Captured m
  | .subprocessRun .transmit argv _, .ok c =>
      c.returncode = 0 → ∀ path, argv = t.transmitArgv path → Sent m
  | .execCommand .restorer cmd _, ⟨_, .ok (out, _, code)⟩ =>
      code = 0 → cmd = t.restorerCommand → Printed P m out
  | _, _ => True

/-- What is remembered of an operation. -/
def Plant.note (m : Plant) : (o : PyOp) → PyResp o → Plant
  | .subprocessRun .capture argv _, r => { m with
      capturing := false
      written := if Control.Completed.exited0 r then argv :: m.written else m.written }
  | .kill pid _, .ok () => { m with signalled := pid :: m.signalled }
  | _, _ => m

/-- An operation starts what it starts, and comes to its end when the programs have gone on for a
while. -/
def plant : Env PyResp Plant where
  answer m o r m' := ∃ m₁ m₂, Starts P t m o m₁ ∧ Reach (Moves P) m₁ m₂ ∧ Exits P t m₂.system o r ∧
    m' = m₂.note o r
  step := Moves P

/-! ## What stays -/

variable {P} {t} {target : Capture.Target} {v : Bool} {g : History PyResp}

/-- A transmitter that has returned has. -/
theorem tx_stays {d d' : Delivery} {a : Transport.TxResult} (h : Deliver P d d')
    (ha : d.session.tx = .ret a) : d'.session.tx = .ret a := by
  cases h with
  | session hs =>
      cases hs with
      | txWrite htx => exact nomatch htx.symm.trans ha
      | txRead htx _ => exact nomatch htx.symm.trans ha
      | txReadErr htx _ => exact nomatch htx.symm.trans ha
      | txSleep htx => exact nomatch htx.symm.trans ha
      | toRx _ _ => exact ha
      | toTx _ _ => exact ha
      | reply _ _ => exact ha
      | rxReturn _ _ _ => exact ha
      | txHangUp _ _ _ => exact ha
      | rxHangUp _ _ _ => exact ha
  | create _ _ => exact ha
  | write _ _ => exact ha
  | close _ _ => exact ha
  | restore _ _ => exact ha
  | spoilFwd hf _ => cases hf
  | spoilBwd hf _ => cases hf
  | breakRx hf _ => cases hf
  | breakTx hf _ => cases hf
  | cutWrite hf _ _ => cases hf

theorem Captured.step {m m' : System} (h : Captured m) (hs : Step P m m') : Captured m' := by
  cases hs with
  | capture hs =>
      obtain ⟨s, hrest⟩ := h
      exact ⟨s, hs.ret hrest⟩
  | transmit _ _ => exact h
  | deliver _ _ => exact h
  | restore _ _ _ _ _ => exact h
  | rebuild _ _ => exact h

theorem Sent.step {m m' : System} (h : Sent m) (hs : Step P m m') : Sent m' := by
  obtain ⟨d, stats, hd, htx⟩ := h
  cases hs with
  | capture _ => exact ⟨d, stats, hd, htx⟩
  | transmit _ hnone => exact nomatch hnone.symm.trans hd
  | deliver hd' hs =>
      obtain rfl := Option.some.inj (hd'.symm.trans hd)
      exact ⟨_, stats, rfl, tx_stays hs htx⟩
  | restore _ _ _ _ _ => exact ⟨d, stats, hd, htx⟩
  | rebuild _ _ => exact ⟨d, stats, hd, htx⟩

theorem Printed.step {m m' : System} {out : String} (h : Printed P m out) (hs : Step P m m') :
    Printed P m' out := by
  obtain ⟨tr, w, s, fds, result, hr, hprinted⟩ := h
  cases hs with
  | capture _ => exact ⟨tr, w, s, fds, result, hr, hprinted⟩
  | transmit _ _ => exact ⟨tr, w, s, fds, result, hr, hprinted⟩
  | deliver _ _ => exact ⟨tr, w, s, fds, result, hr, hprinted⟩
  | restore _ _ _ _ hnone => exact nomatch hnone.symm.trans hr
  | rebuild hσ hs =>
      -- A process that has exited does nothing more.
      obtain rfl := Option.some.inj (hσ.symm.trans hr)
      cases hs with
      | own hstep => exact hstep.elim

theorem Exits.step {m m' : System} {o : PyOp} {r : PyResp o} (h : Exits P t m o r)
    (hs : Step P m m') :
    Exits P t m' o r := by
  cases o with
  | subprocessRun proc argv n =>
      cases proc with
      | capture =>
          cases r with
          | error b => trivial
          | ok c => exact fun h0 path hargv => (h h0 path hargv).step hs
      | transmit =>
          cases r with
          | error b => trivial
          | ok c => exact fun h0 path hargv => (h h0 path hargv).step hs
      | resume => trivial
  | execCommand remote cmd n =>
      cases remote with
      | restorer =>
          obtain ⟨left, result⟩ := r
          cases result with
          | error b => trivial
          | ok res => exact fun h0 hcmd => (h h0 hcmd).step hs
      | cleanup => trivial
  | _ => trivial

theorem Exits.reach {m m' : System} {o : PyOp} {r : PyResp o} (h : Exits P t m o r)
    (hs : Reach (Step P) m m') : Exits P t m' o r :=
  invariant (I := fun m => Exits P t m o r) (fun _ _ => Exits.step) h hs

@[simp] theorem note_system {m : Plant} {o : PyOp} {r : PyResp o} :
    (m.note o r).system = m.system := by
  unfold Plant.note
  split
  · rfl
  · rfl
  · rfl

theorem note_written {m : Plant} {o : PyOp} {r : PyResp o} : m.written ⊆ (m.note o r).written := by
  unfold Plant.note
  split
  · show m.written ⊆ if _ then _ else _
    split
    · exact List.subset_cons_self _ _
    · exact List.Subset.refl _
  · exact List.Subset.refl _
  · exact List.Subset.refl _

theorem note_signalled {m : Plant} {o : PyOp} {r : PyResp o} {pid : Int}
    (h : pid ∈ (m.note o r).signalled) : pid ∈ m.signalled ∨ ∃ sig, o = .kill pid sig := by
  unfold Plant.note at h
  split at h
  · exact Or.inl h
  · rename_i pid' sig
    obtain rfl | h := List.mem_cons.mp h
    · exact Or.inr ⟨sig, rfl⟩
    · exact Or.inl h
  · exact Or.inl h

/-! ## The order is kept -/

/-- The programs have gone on, as they may. -/
structure Progress (P : Setting) (m m' : Plant) : Prop where
  system : Reach (Step P) m.system m'.system
  written : m'.written = m.written
  signalled : m'.signalled = m.signalled

theorem Progress.refl {m : Plant} : Progress P m m := ⟨.refl, rfl, rfl⟩

theorem Progress.trans {m m' m'' : Plant} (h : Progress P m m') (h' : Progress P m' m'') :
    Progress P m m'' :=
  ⟨h.system.trans h'.system, h'.written.trans h.written, h'.signalled.trans h.signalled⟩

theorem Moves.progress {m m' : Plant} (h : Moves P m m') : Progress P m m' := by
  cases h with
  | own hw => exact ⟨.single (.capture (.own hw)), rfl, rfl⟩
  | capture _ hs => exact ⟨.single (.capture hs), rfl, rfl⟩
  | deliver hd hs _ => exact ⟨.single (.deliver hd hs), rfl, rfl⟩
  | rebuild hσ hs => exact ⟨.single (.rebuild hσ hs), rfl, rfl⟩

theorem moves_progress {m m' : Plant} (h : Reach (Moves P) m m') : Progress P m m' :=
  invariant (I := Progress P m) (fun _ _ hm hs => hm.trans hs.progress) .refl h

/-- What the plant has come to, given what has happened. -/
structure Sound (P : Setting) (t : Teleporter) (target : Capture.Target) (v : Bool)
    (g : History PyResp) (m : Plant) : Prop where
  reach : Reach (Step P) (start P target) m.system
  vouched : ∀ ev ∈ g, Exits P t m.system ev.1 ev.2
  written : ∀ argv n c, ⟨.subprocessRun .capture argv n, .ok c⟩ ∈ g → c.returncode = 0 →
    argv ∈ m.written
  signalled : ∀ pid ∈ m.signalled, pid = t.pid ∧ v = false ∧ ∃ n, Control.RestoredAs t n g

theorem Sound.progress {m m' : Plant} (h : Sound P t target v g m) (hm : Progress P m m') :
    Sound P t target v g m' where
  reach := h.reach.trans hm.system
  vouched ev hev := (h.vouched ev hev).reach hm.system
  written argv n c hev h0 := hm.written ▸ h.written argv n c hev h0
  signalled pid hpid := h.signalled pid (hm.signalled ▸ hpid)

/-- A capturer that has exited 0 has written the snapshot. -/
theorem Sound.captured {m : Plant} {path : String} (h : Sound P t target v g m)
    (hcap : Control.CapturedTo t path g) : t.captureArgv path ∈ m.written ∧ Captured m.system := by
  obtain ⟨-, n, c, hev, h0⟩ := hcap
  exact ⟨h.written _ n c hev h0, h.vouched _ hev h0 path rfl⟩

/-- A transmitter that has exited 0 has returned nil. -/
theorem Sound.sent {m : Plant} (h : Sound P t target v g m) (hdone : Control.TransferDone t g) :
    Sent m.system := by
  obtain ⟨path, n, c, -, -, hev, h0⟩ := hdone
  exact h.vouched _ hev h0 path rfl

/-- And a restorer has printed what the orchestrator has read. -/
theorem Sound.restored {m : Plant} {n : Int} (h : Sound P t target v g m)
    (hres : Control.RestoredAs t n g) :
    ∃ out, Printed P m.system out ∧ n = Control.parseRestoredPid out := by
  obtain ⟨-, timeout, left, out, err, hev, hn⟩ := hres
  exact ⟨out, h.vouched _ hev rfl rfl, hn⟩

theorem transmitArgv_inj {path path' : String} (h : t.transmitArgv path = t.transmitArgv path') :
    path = path' :=
  (List.cons.inj (List.cons.inj (List.cons.inj h).2).2).1

/-- An operation that is justified starts nothing before its time. -/
theorem Starts.progress {m m' : Plant} {o : PyOp} (h : Starts P t m o m')
    (hm : Sound P t target v g m) (hj : Justified v t g o) : Progress P m m' := by
  cases h with
  | nothing => exact .refl
  | capture => exact ⟨.refl, rfl, rfl⟩
  | receive => exact ⟨.refl, rfl, rfl⟩
  | transmit _ hnone hdata =>
      obtain ⟨path, hpath, hcap, -⟩ := hj
      obtain rfl := transmitArgv_inj hpath
      obtain ⟨hwritten, s, hrest⟩ := hm.captured hcap
      obtain rfl := hdata hwritten s hrest
      exact ⟨.single (.transmit hrest hnone), rfl, rfl⟩
  | restore hd hfound hbs hload hnone =>
      obtain ⟨d, stats, hd', htx⟩ := hm.sent hj.2
      obtain rfl := Option.some.inj (hd'.symm.trans hd)
      have hgo : Step P m.system _ := .deliver hd (.restore htx hfound)
      exact ⟨.tail (.single hgo) (.restore rfl rfl hbs hload hnone), rfl, rfl⟩

theorem Sound.note {m : Plant} {o : PyOp} {r : PyResp o} (h : Sound P t target v g m)
    (hj : Justified v t g o) (hexits : Exits P t m.system o r) :
    Sound P t target v (g ++ [⟨o, r⟩]) (m.note o r) where
  reach := by
    rw [note_system]
    exact h.reach
  vouched ev hev := by
    rw [note_system]
    obtain hev | hev := List.mem_append.mp hev
    · exact h.vouched ev hev
    · obtain rfl := List.mem_singleton.mp hev
      exact hexits
  written argv n c hev h0 := by
    obtain hev | hev := List.mem_append.mp hev
    · exact note_written (h.written argv n c hev h0)
    · cases List.mem_singleton.mp hev
      have hexited : Control.Completed.exited0 (.ok c) = true := decide_eq_true h0
      show argv ∈ if Control.Completed.exited0 (.ok c) then _ else _
      rw [if_pos hexited]
      exact .head _
  signalled pid hpid := by
    have hgrown : g ⊆ g ++ [⟨o, r⟩] := List.subset_append_left _ _
    obtain hpid | ⟨sig, rfl⟩ := note_signalled hpid
    · obtain ⟨heq, hv, n, hn⟩ := h.signalled pid hpid
      exact ⟨heq, hv, n, Control.lasting_restoredAs _ _ hgrown hn⟩
    · obtain ⟨heq, hv, n, hn⟩ := hj
      exact ⟨heq, hv, n, Control.lasting_restoredAs _ _ hgrown hn⟩

/-- Whatever the orchestrator has come to, and the programs with it. -/
theorem sound_reaches {σ : Env.State PyResp Plant (Except PyExc MigrationResult × Teleporter)}
    (ht : t.Unused) (h : (plant P t).Reaches (Control.migrate v t) (idle P target) σ) :
    Sound P t target v σ.trace σ.world ∧
      ∀ result t', σ.rest = .ret (.ok result, t') → Control.Reports t result σ.trace := by
  refine Control.follows_migrate.reaches ht.backed trivial
    (fun g m m' hm hs => hm.progress (Moves.progress hs)) (fun g m o r m' hm hj hans => ?_) ?_ h
  · obtain ⟨m₁, m₂, hstarts, hmoves, hexits, rfl⟩ := hans
    exact ((hm.progress (hstarts.progress hm hj)).progress (moves_progress hmoves)).note hj hexits
  · exact ⟨.refl, fun _ hev =>
      (by cases hev), fun _ _ _ hev => (by cases hev), fun _ hpid => (by cases hpid)⟩

/-! ## The process that is restored -/

section Restored

variable {checksum : List UInt8 → UInt64} {s : Proto.ProcessSnapshot} {fds : List FdSpec}
  {tr : List (Event RestResp)} {result : RestoreResult}

end Restored

/-- The restorer has exited 0 on the process `n`, and what it has let go is the target over again,
up to where the file ended that it found. -/
def Migrated (m : System) (n : Int) : Prop := ∃ tr w,
  m.restorer = some ⟨.ret (.ok 0, ()), tr, w⟩ ∧
  (∃ pid, forked tr = [pid] ∧ (0 < pid → n = pid.toInt)) ∧
  (phases.after .idle tr ≠ .broken → ∃ T c i, m.capturer.world.frozen = some T ∧
    w.released = some c ∧ RebuiltTo T m.capturer.trace i c)

theorem moves_capture {m : Plant} {σ} (hm : m.capturing = true)
    (h : Reach (source P).Step m.system.capturer σ) :
    Reach (Moves P) m { m with system := { m.system with capturer := σ } } := by
  induction h with
  | refl => exact .refl
  | tail _ hs ih => exact ih.tail (.capture hm hs)

theorem moves_deliver {m : Plant} {d d' : Delivery} (hd : m.system.delivery = some d)
    (hnone : d'.restorer = none) (h : Reach (Deliver P) d d') :
    Reach (Moves P) m { m with system := { m.system with delivery := some d' } } := by
  induction h with
  | refl => exact hd ▸ .refl
  | @tail d₁ d₂ _ hs ih =>
      have hbefore : d₁.restorer = none := by
        cases hfound : d₁.restorer with
        | none => rfl
        | some found => exact nomatch hnone.symm.trans (restorer_stays hs hfound)
      exact (ih hbefore).tail (.deliver rfl hs (hnone.trans hbefore.symm))

theorem moves_rebuild {m : Plant} {σ σ'} (hσ : m.system.restorer = some σ)
    (h : Reach (destination P.Stub).Step σ σ') :
    Reach (Moves P) m { m with system := { m.system with restorer := some σ' } } := by
  induction h with
  | refl => exact hσ ▸ .refl
  | tail _ hs ih => exact ih.tail (.rebuild rfl hs)

section Journey

open Control (example42)

/-- The operations before the capture, where all goes well. -/
def before : List (Event PyResp) :=
  [⟨.monotonic, (0 : Float)⟩, ⟨.sshConnect example42.cfg.destination.sshAddr, .ok ()⟩,
    ⟨.runAll 42, .ok []⟩, ⟨.mkstemp s!"wraith_{example42.shortId}_" ".pb", .ok (3, "/tmp/x.pb")⟩,
    ⟨.close 3, .ok ()⟩]

/-- And those behind the signals. -/
def behind : List (Event PyResp) :=
  [⟨.monotonic, (0 : Float)⟩, ⟨.pathExists "/tmp/x.pb", .ok false⟩,
    ⟨.pathExists "/tmp/x.pb", .ok false⟩, ⟨.sshClose, .ok ()⟩]

/-- A run with a restorer that prints `out`. -/
def journey (out : String) : List (Event PyResp) :=
  before ++ ⟨.subprocessRun .capture (example42.captureArgv "/tmp/x.pb") 30, .ok ⟨0, ""⟩⟩ ::
    ⟨.getsize "/tmp/x.pb", .ok 0⟩ :: ⟨.execBackground example42.receiverCommand, .ok ()⟩ ::
    ⟨.sleep 1500, .ok ()⟩ ::
    ⟨.subprocessRun .transmit (example42.transmitArgv "/tmp/x.pb") 330, .ok ⟨0, ""⟩⟩ ::
    ⟨.execCommand .restorer example42.restorerCommand 60, ⟨true, .ok (out, "", 0)⟩⟩ ::
    ⟨.execCommand .cleanup example42.removeCommand 10, ⟨false, .ok ("", "", 0)⟩⟩ ::
    ⟨.kill 42 .term, .ok ()⟩ :: ⟨.sleep 500, .ok ()⟩ :: ⟨.kill 42 .kill, .ok ()⟩ :: behind

theorem journey_runs (out : String) : ∃ result t',
    Cmd.Runs (Control.migrate false example42) (journey out) (.ok result, t') :=
  ⟨_, _, .op _ <| .op _ <| .op _ <| .op _ <| .op _ <| .op _ <| .op _ <| .op _ <| .op _ <| .op _ <|
    .op _ <| .op _ <| .op _ <| .op _ <| .op _ <| .op _ <| .op _ <| .op _ <| .op _ <| .ret _⟩

/-- An operation that starts nothing, and of which nothing is known. -/
theorem answer_nothing {m : Plant} {o : PyOp} {r : PyResp o} (hexits : Exits P t m.system o r)
    (hnote : m.note o r = m) : (plant P t).answer m o r m :=
  ⟨m, m, .nothing, .refl, hexits, hnote.symm⟩

theorem before_quiet (m : Plant) : ∀ ev ∈ before, (plant P t).answer m ev.1 ev.2 m := by
  intro ev hev
  simp only [before, List.mem_cons, List.not_mem_nil, or_false] at hev
  rcases hev with rfl | rfl | rfl | rfl | rfl <;> exact answer_nothing trivial rfl

theorem behind_quiet (m : Plant) : ∀ ev ∈ behind, (plant P t).answer m ev.1 ev.2 m := by
  intro ev hev
  simp only [behind, List.mem_cons, List.not_mem_nil, or_false] at hev
  rcases hev with rfl | rfl | rfl | rfl <;> exact answer_nothing trivial rfl

/-- The setting of `workerSetting`, with the path of the command lines. -/
def journeySetting : Setting := { workerSetting with path := example42.remotePath }

theorem journey_reaches :
    ∃ σ, (plant journeySetting example42).Reaches (Control.migrate false example42)
      (idle journeySetting Capture.worker) σ ∧ σ.world.signalled = [42, 42] ∧
    (∃ result t', σ.rest = .ret (.ok result, t')) ∧
    σ.world.system.capturer.rest = .ret (.ok workerSnapshot, ()) := by
  obtain ⟨tr, w, hrestorer, -⟩ := worker_restores
  obtain ⟨d, stats, hdelivery, htx, hout, hnone⟩ :=
    delivery_written (P := journeySetting) worker_carried
    workerSnapshot_length.1 workerSnapshot_length.2 (by decide)
  obtain ⟨restored, hrun, -⟩ := runRestorer_zero hrestorer.runs_ended
  have hexit : (report journeySetting.strictFds restored).exit = none := by
    rw [report, if_neg (by rw [Bool.and_eq_true]; exact fun h => absurd h.2 Bool.false_ne_true)]
  obtain ⟨result, t', hruns⟩ := journey_runs (report journeySetting.strictFds restored).stdout
  have hpath : (plant journeySetting example42).Path (idle journeySetting Capture.worker)
      (journey (report journeySetting.strictFds restored).stdout) _ :=
    (Env.Path.still (before_quiet _)).append <|
    .answer ⟨_, _, .capture, moves_capture rfl worker_reaches, fun _ _ _ => ⟨_, rfl⟩, rfl⟩ <|
    .answer (answer_nothing trivial rfl) <|
    .answer ⟨_, _, .receive, .refl, trivial, rfl⟩ <|
    .answer (answer_nothing trivial rfl) <|
    .answer ⟨_, _, .transmit rfl rfl fun _ s hs => congrArg Wire.save
      (Except.ok.inj (Prod.mk.inj (Cmd.ret.inj hs)).1), moves_deliver rfl hnone hdelivery,
      fun _ _ _ => ⟨d, stats, rfl, htx⟩, rfl⟩ <|
    .answer ⟨_, _, .restore rfl hnone (hout ▸ rfl) worker_loads rfl, moves_rebuild rfl hrestorer,
      fun _ _ => ⟨tr, w, workerSnapshot, [], restored, rfl, hrun, hexit, rfl⟩, rfl⟩ <|
    .answer (answer_nothing trivial rfl) <|
    .answer ⟨_, _, .nothing, .refl, trivial, rfl⟩ <|
    .answer (answer_nothing trivial rfl) <|
    .answer ⟨_, _, .nothing, .refl, trivial, rfl⟩ <|
    .still (behind_quiet _)
  exact ⟨_, hpath.reaches hruns, rfl, ⟨result, t', rfl⟩, rfl⟩

end Journey

/-! ## The result -/

/-- **The order of the programs.**  Under `migrate`, in every run and in every interleaving, the
programs do only what they can in the system in which each waits for the one before it. -/
theorem migrate_drives {σ : Env.State PyResp Plant (Except PyExc MigrationResult × Teleporter)}
    (ht : t.Unused) (h : (plant P t).Reaches (Control.migrate v t) (idle P target) σ) :
    Reach (Step P) (start P target) σ.world.system := (sound_reaches ht h).1.reach

theorem migrate_drives_journey : ∃ σ, (plant journeySetting Control.example42).Reaches
      (Control.migrate false Control.example42) (idle journeySetting Capture.worker) σ ∧
    σ.world.signalled = [42, 42] ∧
    Reach (Step journeySetting) (start journeySetting Capture.worker) σ.world.system := by
  obtain ⟨σ, hreaches, hsignalled, -⟩ := journey_reaches
  exact ⟨σ, hreaches, hsignalled, migrate_drives ⟨rfl, rfl⟩ hreaches⟩

/-- What a migration has come to when it cannot be undone any more, or reports success. -/
structure Committed (t : Teleporter) (v : Bool) (m : Plant)
    (r : Cmd PyResp (Except PyExc MigrationResult × Teleporter)) : Prop where
  signalled : ∀ pid ∈ m.signalled, pid = t.pid ∧ v = false ∧ ∃ n, Migrated m.system n
  returned : ∀ result t', r = .ret (.ok result, t') → Migrated m.system result.destinationPid

end Wraith.Orchestration

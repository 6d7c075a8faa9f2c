/-
# `Wraith.Control.Isolation` — several migrations to one destination

Any number of migrations to one host and port, each of them a run of `migrate`, with the receivers
they have started in the background.  A receiver binds the port, or exits if another has it; it
takes one connection and writes what comes to the path of the migration that started it.  Nobody
looks after it, and a transmitter is served by whichever receiver has the port.

Where each transmitter reaches the receiver of its own migration, and no two paths are the same, a
migration kills its source only for its own copy (`own_isolated`).  Nothing makes sure of that:
`migrations_isolated_iff`, as soon as there are two migrations it can go wrong.
-/
import Wraith.Control.Commit
import Wraith.Lib.Pool

namespace Wraith.Control

open Lib Script

/-! ## Migrations -/

/-- Migrations to one host and port, of different processes. -/
structure Migrations (I : Type) where
  teleporter : I → Teleporter
  hostname : String
  transferPort : Int
  to_host : ∀ i, (teleporter i).cfg.destination.hostname = hostname
  to_port : ∀ i, (teleporter i).cfg.destination.transferPort = transferPort
  ids : Function.Injective fun i => (teleporter i).migrationId
  pids : Function.Injective fun i => (teleporter i).pid

/-- The receiver's output path, and the restorer's input. -/
def Migrations.path {I : Type} (M : Migrations I) (i : I) : String := (M.teleporter i).remotePath

/-- How far a receiver has come; `received` is whose snapshot. -/
inductive Receiving (I : Type) where
  | starting
  | listening
  | received (sender : I)
  deriving DecidableEq, Repr

/-- A receiver on the destination, started by `owner`. -/
structure Receiver (I : Type) where
  owner : I
  state : Receiving I
  deriving DecidableEq, Repr

/-- The destination.  A file is the snapshot of some migration; `restored` is what a migration's
restorer has started, and `reached` whether it has come to `_terminate_source`. -/
structure Destination (I : Type) where
  receivers : List (Receiver I) := []
  files : String → Option I := fun _ => none
  restored : I → Option I := fun _ => none
  reached : I → Bool := fun _ => false

variable {I : Type}

/-- A receiver has the port until it exits. -/
def PortTaken (w : Destination I) : Prop := ∃ p ∈ w.receivers, p.state ≠ .starting

/-- What the receivers do. -/
inductive Background (path : I → String) : Destination I → Destination I → Prop where
  | bind {w : Destination I} {ps qs : List (Receiver I)} {p : Receiver I} :
      w.receivers = ps ++ p :: qs → p.state = .starting → ¬ PortTaken w →
        Background path w { w with receivers := ps ++ { p with state := .listening } :: qs }
  -- The port was taken, or something else has gone wrong.
  | exit {w : Destination I} {ps qs : List (Receiver I)} {p : Receiver I} :
      w.receivers = ps ++ p :: qs → Background path w { w with receivers := ps ++ qs }
  | write {w : Destination I} {ps qs : List (Receiver I)} {p : Receiver I} {sender : I} :
      w.receivers = ps ++ p :: qs → p.state = .received sender →
        Background path w { w with
          receivers := ps ++ qs, files := Function.update w.files (path p.owner) (some sender) }

/-- A transmitter of `i` that exits 0 has been served by a receiver that listened. -/
def Served (serves : I → Receiver I → Prop) (i : I) (w w' : Destination I) : Prop :=
  ∃ ps p qs, w.receivers = ps ++ p :: qs ∧ p.state = .listening ∧ serves i p ∧
    w' = { w with receivers := ps ++ { p with state := .received i } :: qs }

/-- What an operation of the migration `i` does; `serves` says which receivers may come to serve its
transmitter. -/
def Migrations.answer [DecidableEq I] (M : Migrations I) (serves : I → Receiver I → Prop) (i : I)
    (w : Destination I) : (o : PyOp) → PyResp o → Destination I → Prop
  | .execBackground _, _, w' =>
      w' = w ∨ w' = { w with receivers := w.receivers ++ [⟨i, .starting⟩] }
  | .subprocessRun .transmit _ _, r, w' =>
      if Completed.exited0 r then Served serves i w w' else w' = w
  | .execCommand .restorer _ _, (r : Executed), w' =>
      if r.exited0 then ∃ s, w.files (M.path i) = some s ∧
        w' = { w with restored := Function.update w.restored i (some s) }
      else w' = w
  | .execCommand .cleanup _ _, _, w' =>
      w' = w ∨ w' = { w with files := Function.update w.files (M.path i) none }
  | .kill _ _, _, w' => w' = { w with reached := Function.update w.reached i true }
  | _, _, w' => w' = w

def Migrations.pool [DecidableEq I] (M : Migrations I) (serves : I → Receiver I → Prop) :
    Pool PyResp I (Destination I) where
  answer := M.answer serves
  step := Background M.path

/-- All of them at their beginning. -/
def Migrations.start (M : Migrations I) :
    Pool.State PyResp I (Destination I) (Except PyExc MigrationResult × Teleporter) :=
  ⟨fun i => migrate false (M.teleporter i), {}⟩

/-- A migration that comes to kill its source has had its own snapshot restored. -/
def Migrations.Isolated [DecidableEq I] (M : Migrations I) (serves : I → Receiver I → Prop) :
    Prop :=
  ∀ σ, Reach (M.pool serves).Step M.start σ → ∀ i, σ.world.reached i = true →
    σ.world.restored i = some i

variable {M : Migrations I} {γ : I → Ledger} {w w' : Destination I}

/-! ## Receivers that serve their own migration -/

/-- The receiver was started by the migration it serves. -/
def Own (i : I) (p : Receiver I) : Prop := p.owner = i

/-- Any receiver may serve any transmitter. -/
def Any (_ : I) (_ : Receiver I) : Prop := True

/-- Where there is only one migration, it is served by its own receiver. -/
theorem Served.own [Subsingleton I] {i : I} (h : Served Any i w w') : Served Own i w w' := by
  obtain ⟨ps, p, qs, hw, hp, -, hw'⟩ := h
  exact ⟨ps, p, qs, hw, hp, Subsingleton.elim _ _, hw'⟩

/-- Everything at the destination is where it belongs. -/
structure Sorted (M : Migrations I) (γ : I → Ledger) (w : Destination I) : Prop where
  receivers : ∀ p ∈ w.receivers, ∀ s, p.state = .received s → s = p.owner
  files : ∀ i s, w.files (M.path i) = some s → s = i
  restored : ∀ i, (γ i).restored = true → w.restored i = some i
  reached : ∀ i, w.reached i = true → w.restored i = some i

/-- Other receivers in one's place. -/
theorem Sorted.replace {ps qs : List (Receiver I)} {p : Receiver I} (h : Sorted M γ w)
    (hw : w.receivers = ps ++ p :: qs) (ps' : List (Receiver I))
    (hps : ∀ p' ∈ ps', ∀ s, p'.state = .received s → s = p'.owner) :
    Sorted M γ { w with receivers := ps ++ (ps' ++ qs) } where
  receivers p' hp' s hs := by
    obtain hp' | hp' := List.mem_append.mp hp'
    · exact h.receivers p' (by rw [hw]; exact List.mem_append_left _ hp') s hs
    · obtain hp' | hp' := List.mem_append.mp hp'
      · exact hps p' hp' s hs
      · exact h.receivers p' (by rw [hw]; exact List.mem_append_right _ (.tail _ hp')) s hs
  files := h.files
  restored := h.restored
  reached := h.reached

theorem Sorted.background (hpath : Function.Injective M.path) (h : Sorted M γ w)
    (hs : Background M.path w w') : Sorted M γ w' := by
  cases hs with
  | @bind ps qs p hw _ _ => exact h.replace hw [{ p with state := .listening }] (by simp)
  | exit hw => exact h.replace hw [] (by simp)
  | @write ps qs p sender hw hp =>
      have hsender : sender = p.owner := h.receivers p (by rw [hw]; simp) sender hp
      have hreplace := h.replace hw [] (by simp)
      refine { hreplace with files := fun i s hfile => ?_ }
      simp only at hfile
      by_cases hi : M.path i = M.path p.owner
      · rw [hi, Function.update_self] at hfile
        rw [← Option.some.inj hfile, hsender, hpath hi]
      · rw [Function.update_of_ne hi] at hfile
        exact h.files i s hfile

theorem Sorted.served {i : I} (h : Sorted M γ w) (hs : Served Own i w w') : Sorted M γ w' := by
  obtain ⟨ps, p, qs, hw, -, hown, rfl⟩ := hs
  refine h.replace hw [{ p with state := .received i }] fun p' hp' s hs => ?_
  obtain rfl := List.mem_singleton.mp hp'
  exact (Receiving.received.inj hs).symm.trans hown.symm

theorem Sorted.cleanup {i : I} (h : Sorted M γ w) :
    Sorted M γ { w with files := Function.update w.files (M.path i) none } := by
  refine ⟨h.receivers, fun j s hfile => ?_, h.restored, h.reached⟩
  simp only at hfile
  by_cases hj : M.path j = M.path i
  · rw [hj, Function.update_self] at hfile
    exact nomatch hfile
  · rw [Function.update_of_ne hj] at hfile
    exact h.files j s hfile

variable [DecidableEq I]

/-- The ledgers behind an operation that has restored nothing. -/
theorem Sorted.account (h : Sorted M γ w) {i : I} {g : Ledger}
    (hg : g.restored = true → (γ i).restored = true) : Sorted M (Function.update γ i g) w := by
  refine ⟨h.receivers, h.files, fun j hj => ?_, h.reached⟩
  by_cases hji : j = i
  · subst hji
    rw [Function.update_self] at hj
    exact h.restored j (hg hj)
  · rw [Function.update_of_ne hji] at hj
    exact h.restored j hj

/-- Only the restorer restores. -/
theorem after_restored_same {g : Ledger} {o : PyOp} {r : PyResp o}
    (ho : ∀ cmd n, o ≠ .execCommand .restorer cmd n) (h : (g.after o r).restored = true) :
    g.restored = true :=
  (after_restored h).resolve_right fun ⟨_, cmd, n, _, heq, _⟩ =>
    ho cmd n (congrArg Sigma.fst heq)

/-- A restorer that exits 0 has started the migration's own snapshot. -/
theorem Sorted.restores {i s : I} {g : Ledger} (h : Sorted M γ w)
    (hs : w.files (M.path i) = some s) :
    Sorted M (Function.update γ i g)
      { w with restored := Function.update w.restored i (some s) } := by
  obtain rfl : s = i := h.files i s hs
  refine ⟨h.receivers, h.files, fun j hj => ?_, fun j hj => ?_⟩
  · by_cases hji : j = s
    · rw [hji]
      exact Function.update_self _ _ _
    · rw [Function.update_of_ne hji] at hj
      exact (Function.update_of_ne hji _ _).trans (h.restored j hj)
  · by_cases hji : j = s
    · rw [hji]
      exact Function.update_self _ _ _
    · exact (Function.update_of_ne hji _ _).trans (h.reached j hj)

/-- A migration that comes to `_terminate_source` has seen its restorer exit 0. -/
theorem Sorted.kill {i : I} (h : Sorted M γ w) (hi : (γ i).restored = true) :
    Sorted M γ { w with reached := Function.update w.reached i true } := by
  refine ⟨h.receivers, h.files, h.restored, fun j hj => ?_⟩
  simp only at hj
  by_cases hji : j = i
  · rw [hji]
    exact h.restored i hi
  · rw [Function.update_of_ne hji] at hj
    exact h.reached j hj

theorem Sorted.answer {i : I} {o : PyOp} {r : PyResp o} (h : Sorted M γ w)
    (hallow : Ledger.allow false (γ i) o) (ha : M.answer Own i w o r w') :
    Sorted M (Function.update γ i ((γ i).after o r)) w' := by
  cases o with
  | execBackground cmd =>
      have h' : Sorted M (Function.update γ i ((γ i).after (.execBackground cmd) r)) w :=
        h.account (after_restored_same nofun)
      obtain rfl | rfl := ha
      · exact h'
      · refine { h' with receivers := fun p hp s hs => ?_ }
        obtain hp | hp := List.mem_append.mp hp
        · exact h.receivers p hp s hs
        · rw [List.mem_singleton.mp hp] at hs
          exact nomatch hs
  | subprocessRun proc argv n =>
      have h' : Sorted M (Function.update γ i ((γ i).after (.subprocessRun proc argv n) r)) w :=
        h.account (after_restored_same nofun)
      cases proc with
      | transmit =>
          by_cases hr : Completed.exited0 r = true
          · exact h'.served (show Served Own i w w' from (if_pos hr).mp ha)
          · exact (show w' = w from (if_neg hr).mp ha) ▸ h'
      | capture => exact (show w' = w from ha) ▸ h'
      | resume => exact (show w' = w from ha) ▸ h'
  | execCommand remote cmd n =>
      cases remote with
      | restorer =>
          by_cases hr : Executed.exited0 r = true
          · obtain ⟨s, hs, rfl⟩ : ∃ s, w.files (M.path i) = some s ∧
                w' = { w with restored := Function.update w.restored i (some s) } :=
                  (if_pos hr).mp ha
            exact h.restores hs
          · have hno : ((γ i).after (.execCommand .restorer cmd n) r).restored = false := by
              show ((γ i).transmitted && Executed.exited0 r) = false
              rw [(Bool.not_eq_true _).mp hr, Bool.and_false]
            exact (show w' = w from (if_neg hr).mp ha) ▸ h.account fun habs =>
              absurd (hno.symm.trans habs) Bool.false_ne_true
      | cleanup =>
          have h' : Sorted M
              (Function.update γ i ((γ i).after (.execCommand .cleanup cmd n) r)) w :=
            h.account (after_restored_same nofun)
          obtain rfl | rfl := (show w' = w ∨ w' = { w with files := _ } from ha)
          · exact h'
          · exact h'.cleanup
  | kill pid sig =>
      obtain rfl := (show w' = { w with reached := _ } from ha)
      exact (h.kill hallow.2).account (after_restored_same nofun)
  | _ => exact (show w' = w from ha) ▸ h.account (after_restored_same nofun)

/-- **What would keep migrations apart.** -/
theorem own_isolated (hpath : Function.Injective M.path) : M.Isolated Own := fun σ hσ => by
  have hstart : Sorted M (fun _ => {}) {} := ⟨nofun, nofun, nofun, nofun⟩
  obtain ⟨γ, -, hsorted⟩ := Pool.invariant_of_obeys (N := ledger false)
    (fun γ w w' (h : Sorted M γ w) hs => h.background hpath hs)
    (fun γ w i o r w' (h : Sorted M γ w) hallow ha => h.answer hallow ha)
    (fun i => migrate_wp) hstart hσ
  exact hsorted.reached

/-! ## Two migrations that are served by each other's receivers -/

/-- A restorer that exits 0. -/
def restorerStarts : Executed := ⟨true, .ok ("Process 4242 is now running\n", "", 0)⟩

/-- An event that changes nothing at the destination. -/
def Quiet (M : Migrations I) (ev : Event PyResp) : Prop := ∀ i w, M.answer Any i w ev.1 ev.2 w

/-- The first operations, where all goes well. -/
def opening (t : Teleporter) (addr pre suf : String) (argv : List String) (n : Int) :
    List (Event PyResp) :=
  [⟨.monotonic, (0 : Float)⟩, ⟨.sshConnect addr, .ok ()⟩, ⟨.runAll t.pid, .ok []⟩,
    ⟨.mkstemp pre suf, .ok (3, "/tmp/x.pb")⟩, ⟨.close 3, .ok ()⟩,
    ⟨.subprocessRun .capture argv n, .ok ⟨0, ""⟩⟩, ⟨.getsize "/tmp/x.pb", .ok 0⟩]

theorem opening_quiet {t : Teleporter} {addr pre suf : String} {argv : List String} {n : Int} :
    ∀ ev ∈ opening t addr pre suf argv n, Quiet M ev := by
  intro ev hev
  simp only [opening, List.mem_cons, List.not_mem_nil, or_false] at hev
  rcases hev with rfl | rfl | rfl | rfl | rfl | rfl | rfl <;> exact fun i w => rfl

/-- What every migration can come to: up to the receiver, and up to the first signal. -/
theorem migrate_turns (M : Migrations I) (t : Teleporter) :
    ∃ addr pre suf argv n cmd argv' n' cmd' n'' closing pid rest p, Cmd.Runs (migrate false t)
      (opening t addr pre suf argv n ++ ⟨.execBackground cmd, .ok ()⟩ :: ⟨.sleep 1500, .ok ()⟩ ::
        ⟨.subprocessRun .transmit argv' n', .ok ⟨0, ""⟩⟩ ::
        ⟨.execCommand .restorer cmd' n'', restorerStarts⟩ ::
        (closing ++ ⟨.kill pid .term, .ok ()⟩ :: rest)) p ∧ ∀ ev ∈ closing, Quiet M ev := by
  have hquiet : ∀ cmd n, ∀ ev ∈ ([⟨.execCommand .cleanup cmd n, ⟨false, .ok ("", "", 0)⟩⟩] :
      List (Event PyResp)), Quiet M ev := fun cmd n ev hev => by
    rw [List.mem_singleton.mp hev]
    exact fun i w => Or.inl rfl
  -- Whether there is a cleanup hangs on `keep_snapshot`.
  obtain ⟨pid, ⟨dest, _, _, _, _, _, keep, _, _, _⟩, id, _, _, _, _, _, _⟩ := t
  cases keep with
  | true =>
      exact ⟨_, _, _, _, _, _, _, _, _, _, [], _, _, _,
        .op _ <| .op _ <| .op _ <| .op _ <| .op _ <| .op _ <| .op _ <| .op _ <| .op _ <| .op _ <|
        .op _ <| .op _ <| .op (R := PyResp) (e := .sleep _) (.ok ()) <|
        .op (R := PyResp) (e := .kill _ .kill) (.ok ()) <|
        .op (R := PyResp) (e := .monotonic) (0 : Float) <|
        .op (R := PyResp) (e := .pathExists _) (.ok false) <|
        .op (R := PyResp) (e := .pathExists _) (.ok false) <|
        .op (R := PyResp) (e := .sshClose) (.ok ()) <| .ret _, nofun⟩
  | false =>
      exact ⟨_, _, _, _, _, _, _, _, _, _, [_], _, _, _,
        .op _ <| .op _ <| .op _ <| .op _ <| .op _ <| .op _ <| .op _ <| .op _ <| .op _ <| .op _ <|
        .op _ <| .op (R := PyResp) (e := .execCommand .cleanup _ _) ⟨false, .ok ("", "", 0)⟩ <|
        .op _ <| .op (R := PyResp) (e := .sleep _) (.ok ()) <|
        .op (R := PyResp) (e := .kill _ .kill) (.ok ()) <|
        .op (R := PyResp) (e := .monotonic) (0 : Float) <|
        .op (R := PyResp) (e := .pathExists _) (.ok false) <|
        .op (R := PyResp) (e := .pathExists _) (.ok false) <|
        .op (R := PyResp) (e := .sshClose) (.ok ()) <| .ret _, hquiet _ _⟩

/-- The migrations `a` and `b` have come to `w`, and can go on along `tra` and `trb`. -/
structure Stage (M : Migrations I) (a b : I) (tra trb : List (Event PyResp)) (w : Destination I) :
    Prop where
  ne : a ≠ b
  reach : ∃ c p q, Reach (M.pool Any).Step M.start ⟨c, w⟩ ∧ Cmd.Runs (c a) tra p ∧
    Cmd.Runs (c b) trb q

variable {a b : I} {tra trb : List (Event PyResp)}

theorem Stage.symm (h : Stage M a b tra trb w) : Stage M b a trb tra w := by
  obtain ⟨hne, c, p, q, hreach, hp, hq⟩ := h
  exact ⟨hne.symm, c, q, p, hreach, hq, hp⟩

theorem Stage.turn {ev : Event PyResp} (h : Stage M a b (ev :: tra) trb w)
    (ha : M.answer Any a w ev.1 ev.2 w') : Stage M a b tra trb w' := by
  obtain ⟨hne, c, p, q, hreach, hp, hq⟩ := h
  obtain ⟨c', hs, hp', hc'⟩ := Pool.turn (M := M.pool Any) hp ha
  exact ⟨hne, c', p, q, hreach.tail hs, hp', (hc' b hne.symm).symm ▸ hq⟩

theorem Stage.quiet : ∀ {tr : List (Event PyResp)}, Stage M a b (tr ++ tra) trb w →
    (∀ ev ∈ tr, Quiet M ev) → Stage M a b tra trb w
  | [], h, _ => h
  | _ :: _, h, hquiet => (h.turn (hquiet _ (.head _) a w)).quiet fun ev hev =>
      hquiet ev (.tail _ hev)

theorem Stage.own (h : Stage M a b tra trb w) (hs : Background M.path w w') :
    Stage M a b tra trb w' := by
  obtain ⟨hne, c, p, q, hreach, hp, hq⟩ := h
  exact ⟨hne, c, p, q, hreach.tail (.own hs), hp, hq⟩

/-- The receiver of `a` serves `b` and exits; then that of `b`, which has been late, serves `a`. -/
theorem swapped (M : Migrations I) (hne : a ≠ b) : ∃ σ, Reach (M.pool Any).Step M.start σ ∧
    σ.world.reached b = true ∧ σ.world.restored b = some a := by
  obtain ⟨_, _, _, _, _, _, _, _, _, _, _, _, _, _, ha, hclosing⟩ :=
    migrate_turns M (M.teleporter a)
  obtain ⟨_, _, _, _, _, _, _, _, _, _, _, _, _, _, hb, hclosing'⟩ :=
    migrate_turns M (M.teleporter b)
  have h₀ : Stage M a b _ _ {} := ⟨hne, _, _, _, .refl, ha, hb⟩
  -- Both receivers are started, and the first has the port.
  have h₁ := ((h₀.quiet opening_quiet).turn (Or.inr rfl)).symm
  have h₂ := (h₁.quiet opening_quiet).turn (Or.inr rfl)
  have hfree : ¬ PortTaken ({ receivers := [⟨a, .starting⟩, ⟨b, .starting⟩] } : Destination I) := by
    simp [PortTaken]
  have h₃ := h₂.own (@Background.bind I M.path _ [] [⟨b, .starting⟩] ⟨a, .starting⟩ rfl rfl hfree)
  -- It serves the other's transmitter, writes and exits.
  have h₄ := (h₃.turn rfl).turn
    ⟨[], ⟨a, .listening⟩, [⟨b, .starting⟩], rfl, rfl, trivial, rfl⟩
  have h₅ := h₄.own (@Background.write I M.path _ [] [⟨b, .starting⟩] ⟨a, .received b⟩ b rfl rfl)
  -- Now the port is free for the second, which is left with the first's.
  have h₆ := h₅.own (@Background.bind I M.path _ [] [] ⟨b, .starting⟩ rfl rfl (by simp [PortTaken]))
  have h₇ := (h₆.symm.turn rfl).turn ⟨[], ⟨b, .listening⟩, [], rfl, rfl, trivial, rfl⟩
  have h₈ := h₇.own (@Background.write I M.path _ [] [] ⟨b, .received a⟩ a rfl rfl)
  have h₉ := ((h₈.symm.turn ⟨a, Function.update_self _ _ _, rfl⟩).quiet hclosing').turn rfl
  obtain ⟨-, c, _, _, hreach, -, -⟩ := h₉
  exact ⟨_, hreach, Function.update_self _ _ _, Function.update_self _ _ _⟩

/-! ## The result -/

/-- A migration on its own is served by its own receiver, if by any. -/
theorem answer_own [Subsingleton I] {i : I} {o : PyOp} {r : PyResp o}
    (ha : M.answer Any i w o r w') : M.answer Own i w o r w' := by
  cases o with
  | subprocessRun proc argv n =>
      cases proc with
      | transmit =>
          by_cases hr : Completed.exited0 r = true
          · exact (if_pos hr).mpr (Served.own ((if_pos hr).mp ha))
          · exact (if_neg hr).mpr ((if_neg hr).mp ha)
      | capture => exact ha
      | resume => exact ha
  | execCommand remote cmd n => cases remote <;> exact ha
  | _ => exact ha

/-- Migrations are isolated where each is served by its own receiver, under a path of its own.  Left
to themselves they are isolated exactly if there is no more than one. -/
theorem migrations_isolated_iff (M : Migrations I) :
    (Function.Injective M.path → M.Isolated Own) ∧ (M.Isolated Any ↔ Subsingleton I) := by
  refine ⟨own_isolated, fun h => ⟨fun a b => ?_⟩, fun _ σ hσ => ?_⟩
  · by_contra hne
    obtain ⟨σ, hσ, hreached, hrestored⟩ := swapped M hne
    exact hne (Option.some.inj (hrestored.symm.trans (h σ hσ b hreached)))
  · have hans : ∀ i w o r w', (M.pool Any).answer i w o r w' → (M.pool Own).answer i w o r w' :=
      fun _ _ _ _ _ => answer_own
    have hown : Reach (M.pool Own).Step M.start σ := Pool.reach_mono hans (fun _ _ => id) hσ
    exact own_isolated (fun _ _ _ => Subsingleton.elim _ _) σ hown

/-- A second process, to the same host. -/
def example43 : Teleporter :=
  { example42 with pid := 43, migrationId := "7c9e6679-7425-40de-944b-e07fc1f90ae7" }

def pair : Migrations Bool where
  teleporter second := if second then example43 else example42
  hostname := "worker-2"
  transferPort := 9999
  to_host := by decide
  to_port := by decide
  ids := by unfold Function.Injective; decide
  pids := by unfold Function.Injective; decide

/-- The second migration comes to kill the process 43 for a copy of the process 42. -/
theorem pair_not_isolated : (∃ σ, Reach (pair.pool Any).Step pair.start σ ∧
    σ.world.reached true = true ∧ σ.world.restored true = some false) ∧ ¬ pair.Isolated Any := by
  obtain ⟨σ, hσ, hreached, hrestored⟩ := swapped pair Bool.false_ne_true
  exact ⟨⟨σ, hσ, hreached, hrestored⟩, fun h => nomatch hrestored.symm.trans (h σ hσ true hreached)⟩

end Wraith.Control

/-
# `Wraith.Transport.Codec` — the wire format, both ways

What `WriteTo` puts out `ReadFrom` takes back, frame after frame and whatever follows, and a cut
frame is not read.  `ReadBlock` takes back what `WriteBlock` puts into a frame, and of any other
payload it returns a block that stands at the head of it, or nothing.

The output is what a connection has accepted in a run of `WriteTo` (`Wrote`), so nothing here is
about an encoding function that the code does not have.
-/
import Wraith.Transport.Writer

namespace Wraith.Transport

open Lib Cmd

/-- Reading `n` frames, one after the other. -/
def readFrames : Nat → Stream → ReadRes (List Frame)
  | 0, s => .ok [] s
  | n + 1, s => (readFrom s).andThen fun f rest =>
      (readFrames n rest).andThen fun fs rest' => .ok (f :: fs) rest'

/-- `tr` is a run of `WriteTo` that reports no error, on a writer that keeps its contract. -/
structure Outputs (f : Frame) (tr : List (Event TxResp)) : Prop where
  runs : Runs f.writeTo tr none
  honours : ∀ ev ∈ tr, Honours ev

theorem Outputs.encode {f : Frame} {tr : List (Event TxResp)} (h : Outputs f tr) :
    acceptedBytes tr = f.encode := by
  cases writeTo_accepted h.runs h.honours with
  | whole hbytes _ => exact hbytes

/-! ## Frames -/

/-- Reading back a list of frames, by induction on the list. -/
theorem readFrames_outputs (t : List UInt8) (e : Ending) : ∀ {frames : List Frame}
    {trs : List (List (Event TxResp))}, List.Forall₂ Outputs frames trs →
      (∀ f ∈ frames, f.Fits) →
        readFrames frames.length ⟨trs.flatMap acceptedBytes ++ t, e⟩ = .ok frames ⟨t, e⟩
  | _, _, .nil, _ => rfl
  | f :: _, _, .cons hout houts, hfits => by
      rw [List.length_cons, readFrames, List.flatMap_cons, hout.encode, List.append_assoc,
        readFrom_encode (hfits f List.mem_cons_self), andThen_ok,
        readFrames_outputs t e houts fun g hg => hfits g (List.mem_cons_of_mem _ hg), andThen_ok]

theorem readFull_ended {n : Nat} {s : Stream} (h : s.ending ≠ .pending) :
    readFull n s ≠ .blocked := by
  unfold readFull
  split
  · exact (nomatch ·)
  · split
    · rename_i hpending
      exact absurd hpending h
    · exact (nomatch ·)
    · split <;> exact (nomatch ·)

theorem andThen_ne_blocked {α β : Type} {r : ReadRes α} {f : α → Stream → ReadRes β}
    (h : r ≠ .blocked) (hf : ∀ a s, r = .ok a s → f a s ≠ .blocked) : r.andThen f ≠ .blocked := by
  cases r with
  | ok a s => exact hf a s rfl
  | err e => exact (nomatch ·)
  | blocked => exact absurd rfl h

theorem wrap_ne_blocked {α : Type} {r : ReadRes α} {msg : String} (h : r ≠ .blocked) :
    r.wrap msg ≠ .blocked := by
  cases r with
  | ok a s => rw [wrap_ok]; exact (nomatch ·)
  | err e => exact (nomatch ·)
  | blocked => exact absurd rfl h

theorem binaryRead_ended {s : Stream} (h : s.ending ≠ .pending) : binaryRead s ≠ .blocked :=
  andThen_ne_blocked (readFull_ended h) fun _ _ _ => (nomatch ·)

/-- On a stream that has come to its end, reading a frame does not block. -/
theorem readFrom_ended {s : Stream} (h : s.ending ≠ .pending) : readFrom s ≠ .blocked := by
  refine andThen_ne_blocked (wrap_ne_blocked (binaryRead_ended h)) fun typ s₁ h₁ => ?_
  have he₁ := (binaryRead_ok (wrap_eq_ok.mp h₁)).2
  refine andThen_ne_blocked (wrap_ne_blocked (binaryRead_ended (he₁ ▸ h))) fun length s₂ h₂ => ?_
  have he₂ := (binaryRead_ok (wrap_eq_ok.mp h₂)).2
  split
  · refine andThen_ne_blocked (wrap_ne_blocked (readFull_ended (he₂.trans he₁ ▸ h))) ?_
    exact fun _ _ _ => (nomatch ·)
  · exact (nomatch ·)

/-- Of a frame that is not all there, nothing is read. -/
theorem readFrom_cut {f : Frame} (hf : f.Fits) {p : List UInt8} (hp : p <+: f.encode)
    (hne : p ≠ f.encode) (ending : Ending) (g : Frame) (rest : Stream) :
    readFrom ⟨p, ending⟩ ≠ .ok g rest := by
  intro h
  obtain ⟨q, hq⟩ := hp
  have hwhole : readFrom ⟨p ++ q, ending⟩ = .ok g ⟨rest.bytes ++ q, ending⟩ := readFrom_append h q
  have hread := readFrom_encode hf [] ending
  rw [List.append_nil, ← hq, hwhole] at hread
  obtain ⟨-, hrest⟩ := ReadRes.ok.inj hread
  obtain rfl := (List.append_eq_nil_iff.mp (Stream.mk.inj hrest).1).2
  exact hne (by rw [← hq, List.append_nil])

/-! ## Blocks -/

/-- Where `ReadBlock` comes to its slice expression, the upper bound has not wrapped. -/
theorem slice_bound {p : List UInt8} {dataLen : UInt32} (hp : p.length < 2 ^ 32)
    (h20 : 20 ≤ p.length) (h : dataLen.toNat ≤ p.length - 20) :
    (20 + dataLen).toNat = 20 + dataLen.toNat := by
  have h20' : (20 : UInt32).toNat = 20 := by decide
  rw [UInt32.toNat_add, h20', Nat.mod_eq_of_lt (by omega)]

theorem readBlock_cases {p : List UInt8} (hp : p.length < 2 ^ 32) :
    (∃ e, readBlock p = .err e) ∨ ∃ b, readBlock p = .ok b ∧ b.payload <+: p := by
  cases h : readBlock p with
  | ok b =>
      obtain ⟨-, junk, hjunk⟩ := readBlock_ok hp h
      exact Or.inr ⟨b, rfl, junk, hjunk.symm⟩
  | err e => exact Or.inl ⟨e, rfl⟩
  | panicked m => exact absurd h (readBlock_ne_panicked hp m)

/-! ## The codec -/

/-- **The wire codec.**  Frames read back in order, with any rest left unread; no strict prefix of
a frame is one; blocks read back from the frames they were written in; and any payload decodes to
a block it begins with or not at all, the slice bound never wrapping. -/
theorem codec :
    (∀ (frames : List Frame) (trs : List (List (Event TxResp))), (∀ f ∈ frames, f.Fits) →
      List.Forall₂ Outputs frames trs → ∀ (t : List UInt8) (e : Ending),
        readFrames frames.length ⟨trs.flatMap acceptedBytes ++ t, e⟩ = .ok frames ⟨t, e⟩) ∧
    (∀ (f : Frame) (tr : List (Event TxResp)) (p : List UInt8), f.Fits → Outputs f tr →
      p <+: acceptedBytes tr → p ≠ acceptedBytes tr →
        (∀ ending, ending ≠ .pending → ∃ e, readFrom ⟨p, ending⟩ = .err e) ∧
        readFrom ⟨p, .pending⟩ = .blocked) ∧
    (∀ (b : DataBlock) (tr : List (Event TxResp)), b.data.length ≤ 2 ^ 32 - 21 →
      Outputs b.frame tr → ∀ (t : List UInt8) (e : Ending), ∃ f,
        readFrom ⟨acceptedBytes tr ++ t, e⟩ = .ok f ⟨t, e⟩ ∧ f.typ = msgDataBlock ∧
        readBlock f.payload = .ok b) ∧
    ∀ p : List UInt8, p.length < 2 ^ 32 →
      ((∃ e, readBlock p = .err e) ∨ ∃ b, readBlock p = .ok b ∧ b.payload <+: p) ∧
      (20 ≤ p.length → (bigEndianUint32 (p.drop 16)).toNat ≤ p.length - 20 →
        (20 + bigEndianUint32 (p.drop 16)).toNat = 20 + (bigEndianUint32 (p.drop 16)).toNat) := by
  refine ⟨fun frames trs hfits houts t e => readFrames_outputs t e houts hfits, ?_, ?_, ?_⟩
  · intro f tr p hf hout hp hne
    rw [hout.encode] at hp hne
    refine ⟨fun ending hended => ?_, ?_⟩
    · match hread : readFrom ⟨p, ending⟩ with
      | .ok g rest => exact absurd hread (readFrom_cut hf hp hne ending g rest)
      | .err e => exact ⟨e, rfl⟩
      | .blocked => exact absurd hread (readFrom_ended hended)
    · match hread : readFrom ⟨p, .pending⟩ with
      | .ok g rest => exact absurd hread (readFrom_cut hf hp hne .pending g rest)
      | .err e => exact absurd hread readFrom_pending
      | .blocked => rfl
  · intro b tr hlen hout t e
    have hb : b.Fits := by unfold DataBlock.Fits; omega
    exact ⟨b.frame, hout.encode ▸ readFrom_encode hb.frame t e, rfl, readBlock_payload hb⟩
  · intro p hp
    exact ⟨readBlock_cases hp, fun h20 hle => slice_bound hp h20 hle⟩

/-- Two frames, the second without a payload. -/
theorem codec_two :
    readFrames 2 ⟨[0, 0, 0, 1, 0, 0, 0, 1, 7, 0, 0, 0, 4, 0, 0, 0, 0, 9], .eof⟩ =
      .ok [⟨msgHandshake, [7]⟩, ⟨msgComplete, []⟩] ⟨[9], .eof⟩ := by
  have h := codec.1 [⟨msgHandshake, [7]⟩, ⟨msgComplete, []⟩]
    [[⟨.write [0, 0, 0, 1], (⟨4, none⟩ : Written)⟩, ⟨.write [0, 0, 0, 1], (⟨4, none⟩ : Written)⟩,
        ⟨.write [7], (⟨1, none⟩ : Written)⟩],
      [⟨.write [0, 0, 0, 4], (⟨4, none⟩ : Written)⟩, ⟨.write [0, 0, 0, 0], (⟨4, none⟩ : Written)⟩]]
    (by decide) (.cons ⟨.op _ (.op _ (.op _ (.ret _))), by simp [Honours]⟩
      (.cons ⟨.op _ (.op _ (.ret _)), by simp [Honours]⟩ .nil)) [9] .eof
  exact h

end Wraith.Transport

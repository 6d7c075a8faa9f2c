/-
# `Wraith.Lib.Protobuf` — the wire format of Protocol Buffers

A message on the wire is a sequence of fields, each a key and a value, and nothing else: no length
in front, no mark at the end.  The first part is about fields.  `decodeFields` undoes
`encodeFields`, and of a prefix of an encoding it either finds the fields that are complete in it,
when the cut is between two fields, or nothing (`decodeFields_prefix`).

The second part is about messages.  A `Message` is a list of `Slot`s, each of which emits the values
of one field, none for its default, and puts a value back; one after the other they copy a message
into the empty one.  So `decode` undoes `encode` (`Message.decode_encode`).

Groups, which proto3 does not have, are found to their end and skipped.
-/
import Mathlib.Algebra.GroupWithZero.Nat
import Mathlib.Data.List.Basic
import Mathlib.Tactic.Common

namespace Wraith.Lib.Protobuf

/-! ## Varints -/

/-- Seven bits at a time, low ones first, in at most `k` bytes. -/
def varint : Nat → Nat → List UInt8
  | 0, _ => []
  | k + 1, n =>
      if n < 128 then [UInt8.ofNat n] else UInt8.ofNat (n % 128 + 128) :: varint k (n / 128)

/-- Read a number of at most `k` bytes.  The last of them has a single bit. -/
def readVarint : Nat → List UInt8 → Option (Nat × List UInt8)
  | 0, _ => none
  | _ + 1, [] => none
  | k + 1, b :: bs =>
      if b.toNat < 128 then
        if k = 0 ∧ 2 ≤ b.toNat then none else some (b.toNat, bs)
      else (readVarint k bs).map fun p => (b.toNat % 128 + 128 * p.1, p.2)

def encodeVarint (n : UInt64) : List UInt8 := varint 10 n.toNat

def decodeVarint (bs : List UInt8) : Option (UInt64 × List UInt8) :=
  (readVarint 10 bs).map fun p => (UInt64.ofNat p.1, p.2)

theorem readVarint_varint (k : Nat) {n : Nat} (h : n < 2 * 128 ^ k) (rest : List UInt8) :
    readVarint (k + 1) (varint (k + 1) n ++ rest) = some (n, rest) := by
  induction k generalizing n with
  | zero =>
      have hn : n < 128 := by omega
      have hbyte : (UInt8.ofNat n).toNat = n := UInt8.toNat_ofNat_of_lt' (by show n < 256; omega)
      have htwo : ¬ (0 = 0 ∧ 2 ≤ n) := by omega
      rw [varint, if_pos hn, List.singleton_append, readVarint, hbyte, if_pos hn, if_neg htwo]
  | succ k ih =>
      rw [varint]
      split
      case isTrue hn =>
        have hbyte : (UInt8.ofNat n).toNat = n := UInt8.toNat_ofNat_of_lt' (by show n < 256; omega)
        rw [List.singleton_append, readVarint, hbyte, if_pos hn, if_neg fun h =>
          absurd h.1 (by omega)]
      case isFalse hn =>
        have hbyte : (UInt8.ofNat (n % 128 + 128)).toNat = n % 128 + 128 :=
          UInt8.toNat_ofNat_of_lt' (by show n % 128 + 128 < 256; omega)
        have hrest : n / 128 < 2 * 128 ^ k := by
          rw [Nat.div_lt_iff_lt_mul (by decide), Nat.mul_assoc, ← Nat.pow_succ]
          exact h
        rw [List.cons_append, readVarint, hbyte, if_neg (by omega), ih hrest]
        simp only [Option.map_some, Option.some.injEq, Prod.mk.injEq, and_true]
        omega

/-- A number that is cut off is none. -/
theorem readVarint_cut (k : Nat) {n : Nat} {p t : List UInt8} (h : p ++ t = varint k n)
    (ht : t ≠ []) :
    readVarint k p = none := by
  induction k generalizing n p with
  | zero => rfl
  | succ k ih =>
      cases p with
      | nil => rfl
      | cons b p =>
          rw [varint] at h
          split at h
          · obtain ⟨-, hnil⟩ := List.cons.inj h
            exact absurd (List.append_eq_nil_iff.mp hnil).2 ht
          · obtain ⟨rfl, htail⟩ := List.cons.inj h
            have hbyte : (UInt8.ofNat (n % 128 + 128)).toNat = n % 128 + 128 :=
              UInt8.toNat_ofNat_of_lt' (by show n % 128 + 128 < 256; omega)
            rw [readVarint, hbyte, if_neg (by omega), ih htail, Option.map_none]

theorem decodeVarint_encode (n : UInt64) (rest : List UInt8) :
    decodeVarint (encodeVarint n ++ rest) = some (n, rest) := by
  rw [decodeVarint, encodeVarint, readVarint_varint 9 n.toNat_lt, Option.map_some,
    UInt64.ofNat_toNat]

theorem decodeVarint_cut {n : UInt64} {p t : List UInt8} (h : p ++ t = encodeVarint n)
    (ht : t ≠ []) :
    decodeVarint p = none := by
  rw [decodeVarint, readVarint_cut 10 h ht, Option.map_none]

theorem encodeVarint_ne_nil (n : UInt64) : encodeVarint n ≠ [] := by
  rw [encodeVarint, varint]
  split
  · exact List.cons_ne_nil _ _
  · exact List.cons_ne_nil _ _

/-! ## Fields -/

/-- A value: a number, eight bytes, a length and as many bytes, or four bytes; or a group, which is
read for its end only. -/
inductive Wire where
  | varint (n : UInt64)
  | fixed64 (bytes : List UInt8)
  | len (bytes : List UInt8)
  | fixed32 (bytes : List UInt8)
  | group
  deriving DecidableEq, Repr

structure Field where
  tag : Nat
  value : Wire
  deriving DecidableEq, Repr

/-- The wire type. -/
def Wire.code : Wire → Nat
  | .varint _ => 0
  | .fixed64 _ => 1
  | .len _ => 2
  | .fixed32 _ => 5
  | .group => 3

/-- The bytes behind the key; groups are never written. -/
def Wire.payload : Wire → List UInt8
  | .varint n => encodeVarint n
  | .fixed64 bytes => bytes
  | .len bytes => encodeVarint (UInt64.ofNat bytes.length) ++ bytes
  | .fixed32 bytes => bytes
  | .group => []

def Field.key (f : Field) : UInt64 := UInt64.ofNat (8 * f.tag + f.value.code)

def Field.encode (f : Field) : List UInt8 := encodeVarint f.key ++ f.value.payload

def encodeFields (fs : List Field) : List UInt8 := fs.flatMap Field.encode

def takeBytes (n : Nat) (bs : List UInt8) : Option (List UInt8 × List UInt8) :=
  if n ≤ bs.length then some (bs.take n, bs.drop n) else none

/-- A value of a wire type. -/
def readWire : Nat → List UInt8 → Option (Wire × List UInt8)
  | 0, bs => (decodeVarint bs).map fun p => (.varint p.1, p.2)
  | 1, bs => (takeBytes 8 bs).map fun p => (.fixed64 p.1, p.2)
  | 2, bs => (decodeVarint bs).bind fun p =>
      (takeBytes p.1.toNat p.2).map fun q => (.len q.1, q.2)
  | 5, bs => (takeBytes 4 bs).map fun p => (.fixed32 p.1, p.2)
  | _, _ => none

/-- A key, tag and wire type: it has 32 bits, and the tag is not 0. -/
def readKey (bs : List UInt8) : Option ((Nat × Nat) × List UInt8) :=
  (decodeVarint bs).bind fun p =>
    if p.1.toNat < 2 ^ 32 ∧ 8 ≤ p.1.toNat then some ((p.1.toNat / 8, p.1.toNat % 8), p.2) else none

/-- What is behind a group: it ends with a key of its own tag, before which are values, and groups.
-/
def skipGroup : Nat → Nat → List UInt8 → Option (List UInt8)
  | 0, _, _ => none
  | n + 1, tag, bs => (readKey bs).bind fun p =>
      if p.1.2 = 4 then if p.1.1 = tag then some p.2 else none
      else (if p.1.2 = 3 then skipGroup n p.1.1 p.2 else (readWire p.1.2 p.2).map Prod.snd).bind
        (skipGroup n tag)

def readField (bs : List UInt8) : Option (Field × List UInt8) :=
  (readKey bs).bind fun p =>
    if p.1.2 = 3 then (skipGroup p.2.length p.1.1 p.2).map fun rest => (⟨p.1.1, .group⟩, rest)
    else (readWire p.1.2 p.2).map fun q => (⟨p.1.1, q.1⟩, q.2)

/-- Fields up to the end, at most `n` of them. -/
def readFields : Nat → List UInt8 → Option (List Field)
  | _, [] => some []
  | 0, _ :: _ => none
  | n + 1, b :: bs => (readField (b :: bs)).bind fun p => (readFields n p.2).map (p.1 :: ·)

def decodeFields (bs : List UInt8) : Option (List Field) := readFields bs.length bs

/-- A value that has the length it should. -/
def Wire.Sized : Wire → Prop
  | .varint _ => True
  | .fixed64 bytes => bytes.length = 8
  | .len bytes => bytes.length < 2 ^ 64
  | .fixed32 bytes => bytes.length = 4
  | .group => False

/-- A field that can be on the wire. -/
structure Field.Valid (f : Field) : Prop where
  tag_pos : 0 < f.tag
  tag_lt : f.tag < 2 ^ 29
  sized : f.value.Sized

theorem takeBytes_append (bs rest : List UInt8) :
    takeBytes bs.length (bs ++ rest) = some (bs, rest) := by
  rw [takeBytes, if_pos (by rw [List.length_append]; omega), List.take_left, List.drop_left]

theorem takeBytes_short {n : Nat} {bs : List UInt8} (h : bs.length < n) : takeBytes n bs = none :=
  if_neg (by omega)

theorem readWire_payload {w : Wire} (h : w.Sized) (rest : List UInt8) :
    readWire w.code (w.payload ++ rest) = some (w, rest) := by
  cases w with
  | varint n => rw [Wire.code, readWire, Wire.payload, decodeVarint_encode, Option.map_some]
  | fixed64 bytes =>
      have hlen : 8 = bytes.length := Eq.symm h
      rw [Wire.code, readWire, Wire.payload, hlen, takeBytes_append, Option.map_some]
  | fixed32 bytes =>
      have hlen : 4 = bytes.length := Eq.symm h
      rw [Wire.code, readWire, Wire.payload, hlen, takeBytes_append, Option.map_some]
  | len bytes =>
      have hlen : (UInt64.ofNat bytes.length).toNat = bytes.length := UInt64.toNat_ofNat_of_lt' h
      rw [Wire.code, readWire, Wire.payload, List.append_assoc, decodeVarint_encode,
        Option.bind_some]
      rw [hlen, takeBytes_append, Option.map_some]
  | group => exact h.elim

/-- A cut through a sequence goes through its first part, or behind it. -/
theorem cut_append {p t xs ys : List UInt8} (h : p ++ t = xs ++ ys) :
    (∃ t', p ++ t' = xs ∧ t' ≠ []) ∨ ∃ q, p = xs ++ q ∧ q ++ t = ys := by
  obtain ⟨as, rfl, hys⟩ | ⟨bs, rfl, rfl⟩ := List.append_eq_append_iff.mp h
  · cases as with
    | nil => exact Or.inr ⟨[], by rw [List.append_nil, List.append_nil], by rw [hys]; rfl⟩
    | cons a as => exact Or.inl ⟨a :: as, rfl, List.cons_ne_nil _ _⟩
  · exact Or.inr ⟨bs, rfl, rfl⟩

theorem readWire_cut {w : Wire} (hw : w.Sized) {p t : List UInt8} (h : p ++ t = w.payload)
    (ht : t ≠ []) : readWire w.code p = none := by
  have hpos : 0 < t.length := List.length_pos_of_ne_nil ht
  have hlen := congrArg List.length h
  rw [List.length_append] at hlen
  cases w with
  | varint n => rw [Wire.code, readWire, decodeVarint_cut h ht, Option.map_none]
  | fixed64 bytes =>
      have hsize : bytes.length = 8 := hw
      rw [Wire.payload] at hlen
      rw [Wire.code, readWire, takeBytes_short (by omega), Option.map_none]
  | fixed32 bytes =>
      have hsize : bytes.length = 4 := hw
      rw [Wire.payload] at hlen
      rw [Wire.code, readWire, takeBytes_short (by omega), Option.map_none]
  | len bytes =>
      rw [Wire.code, readWire]
      obtain ⟨t', ht', hne⟩ | ⟨q, rfl, hq⟩ := cut_append h
      · rw [decodeVarint_cut ht' hne, Option.bind_none]
      · have hsize : (UInt64.ofNat bytes.length).toNat = bytes.length :=
          UInt64.toNat_ofNat_of_lt' hw
        have hshort : q.length < bytes.length := by
          rw [← hq, List.length_append]
          omega
        rw [decodeVarint_encode, Option.bind_some, hsize, takeBytes_short hshort, Option.map_none]
  | group => exact hw.elim

theorem Wire.Sized.code_ne {w : Wire} (h : w.Sized) : w.code ≠ 3 := by
  cases w with
  | varint n => exact (by decide : 0 ≠ 3)
  | fixed64 bytes => exact (by decide : 1 ≠ 3)
  | len bytes => exact (by decide : 2 ≠ 3)
  | fixed32 bytes => exact (by decide : 5 ≠ 3)
  | group => exact h.elim

theorem Wire.code_lt (w : Wire) : w.code < 8 := by
  cases w with
  | varint n => exact (by decide : 0 < 8)
  | fixed64 bytes => exact (by decide : 1 < 8)
  | len bytes => exact (by decide : 2 < 8)
  | fixed32 bytes => exact (by decide : 5 < 8)
  | group => exact (by decide : 3 < 8)

theorem Field.Valid.key {f : Field} (h : f.Valid) : f.key.toNat = 8 * f.tag + f.value.code := by
  have htag := h.tag_lt
  have hcode := f.value.code_lt
  exact UInt64.toNat_ofNat_of_lt' (by show _ < 2 ^ 64; omega)

/-- The part of `readField` behind the key. -/
theorem readField_key {f : Field} (h : f.Valid) (rest : List UInt8) :
    readField (encodeVarint f.key ++ rest) =
      (readWire f.value.code rest).map fun q => (⟨f.tag, q.1⟩, q.2) := by
  have hkey := h.key
  have htag := h.tag_lt
  have hpos := h.tag_pos
  have hcode := f.value.code_lt
  have hmod : (8 * f.tag + f.value.code) % 8 = f.value.code := by omega
  have hdiv : (8 * f.tag + f.value.code) / 8 = f.tag := by omega
  rw [readField, readKey, decodeVarint_encode, Option.bind_some, hkey,
    if_pos ⟨by omega, by omega⟩, hmod, hdiv, Option.bind_some, if_neg h.sized.code_ne]

theorem readField_encode {f : Field} (h : f.Valid) (rest : List UInt8) :
    readField (f.encode ++ rest) = some (f, rest) := by
  rw [Field.encode, List.append_assoc, readField_key h, readWire_payload h.sized, Option.map_some]

/-- A field that is cut off is none. -/
theorem readField_cut {f : Field} (hf : f.Valid) {p t : List UInt8} (h : p ++ t = f.encode)
    (ht : t ≠ []) : readField p = none := by
  obtain ⟨t', ht', hne⟩ | ⟨q, rfl, hq⟩ := cut_append h
  · rw [readField, readKey, decodeVarint_cut ht' hne, Option.bind_none, Option.bind_none]
  · rw [readField_key hf, readWire_cut hf.sized hq ht, Option.map_none]

theorem Field.encode_ne_nil (f : Field) : f.encode ≠ [] :=
  List.append_ne_nil_of_left_ne_nil (encodeVarint_ne_nil _) _

theorem readFields_encode {fs : List Field} (h : ∀ f ∈ fs, f.Valid) {n : Nat}
    (hn : (encodeFields fs).length ≤ n) : readFields n (encodeFields fs) = some fs := by
  induction fs generalizing n with
  | nil => cases n <;> rfl
  | cons f fs ih =>
      have hpos := List.length_pos_of_ne_nil f.encode_ne_nil
      rw [encodeFields, List.flatMap_cons, ← encodeFields] at hn ⊢
      rw [List.length_append] at hn
      obtain ⟨n, rfl⟩ : ∃ k, n = k + 1 := ⟨n - 1, by omega⟩
      have hread := readField_encode (h f (.head _)) (encodeFields fs)
      cases hbytes : f.encode ++ encodeFields fs with
      | nil => exact absurd (List.append_eq_nil_iff.mp hbytes).1 f.encode_ne_nil
      | cons b bs =>
          rw [hbytes] at hread
          rw [readFields, hread, Option.bind_some, ih (fun g hg => h g (.tail _ hg)) (by omega),
            Option.map_some]

theorem decodeFields_encode {fs : List Field} (h : ∀ f ∈ fs, f.Valid) :
    decodeFields (encodeFields fs) = some fs := readFields_encode h (Nat.le_refl _)

/-- A prefix of an encoding ends between two fields, or cannot be read. -/
theorem readFields_prefix {fs : List Field} (h : ∀ f ∈ fs, f.Valid) {p t : List UInt8}
    (hp : p ++ t = encodeFields fs) {n : Nat} (hn : p.length ≤ n) :
    (∃ j, p = encodeFields (fs.take j)) ∨ readFields n p = none := by
  induction fs generalizing p n with
  | nil =>
      obtain ⟨rfl, -⟩ := List.append_eq_nil_iff.mp hp
      exact Or.inl ⟨0, rfl⟩
  | cons f fs ih =>
      rw [encodeFields, List.flatMap_cons, ← encodeFields] at hp
      obtain ⟨t', ht', hne⟩ | ⟨q, rfl, hq⟩ := cut_append hp
      · cases p with
        | nil => exact Or.inl ⟨0, rfl⟩
        | cons b p =>
            right
            cases n with
            | zero => rfl
            | succ n => rw [readFields, readField_cut (h f (.head _)) ht' hne, Option.bind_none]
      · have hpos := List.length_pos_of_ne_nil f.encode_ne_nil
        rw [List.length_append] at hn
        obtain ⟨n, rfl⟩ : ∃ k, n = k + 1 := ⟨n - 1, by omega⟩
        obtain ⟨j, rfl⟩ | hnone := ih (fun g hg => h g (.tail _ hg)) hq (n := n) (by omega)
        · exact Or.inl ⟨j + 1, rfl⟩
        · right
          have hread := readField_encode (h f (.head _)) q
          cases hbytes : f.encode ++ q with
          | nil => exact absurd (List.append_eq_nil_iff.mp hbytes).1 f.encode_ne_nil
          | cons b bs =>
              rw [hbytes] at hread
              rw [readFields, hread, Option.bind_some, hnone, Option.map_none]

theorem decodeFields_prefix {fs : List Field} (h : ∀ f ∈ fs, f.Valid) {p t : List UInt8}
    (hp : p ++ t = encodeFields fs) : (∃ j, p = encodeFields (fs.take j)) ∨ decodeFields p = none :=
  readFields_prefix h hp (Nat.le_refl _)

/-! ## Messages -/

/-- A field of a record. -/
structure Lens (M α : Type) where
  get : M → α
  set : M → α → M
  get_set : ∀ m x, get (set m x) = x := by intros; rfl
  set_set : ∀ m x y, set (set m x) y = set m y := by intros; rfl
  set_get : ∀ m, set m (get m) = m := by intros; rfl

/-- A number, or bytes behind their length. -/
def Wire.Plain : Wire → Prop
  | .varint _ => True
  | .len _ => True
  | _ => False

/-- One field of a message type: how its values are emitted, and how one is put back. -/
structure Slot (M : Type) where
  tag : Nat
  emit : M → List Wire
  put : M → Wire → Option M
  plain : ∀ m, ∀ w ∈ emit m, w.Plain

variable {M N α : Type}

/-- The slot takes its values from `m` to `acc`, which becomes `acc'`. -/
def Slot.Copies (slot : Slot M) (m acc acc' : M) : Prop :=
  (∀ w ∈ slot.emit m, w.Sized) → (slot.emit m).foldlM slot.put acc = some acc'

/-- The slots do, one after the other. -/
inductive Copied (m : M) : List (Slot M) → M → M → Prop where
  | nil {acc : M} : Copied m [] acc acc
  | cons {slot : Slot M} {slots : List (Slot M)} {acc acc' out : M} :
      slot.Copies m acc acc' → Copied m slots acc' out → Copied m (slot :: slots) acc out

/-- A message type: what an absent message is, and its fields in the order they are written in. -/
structure Message (M : Type) where
  empty : M
  slots : List (Slot M)
  distinct : (slots.map Slot.tag).Nodup
  range : ∀ slot ∈ slots, 0 < slot.tag ∧ slot.tag < 2 ^ 29
  copied : ∀ m, Copied m slots empty m

def Slot.fields (m : M) (slot : Slot M) : List Field := (slot.emit m).map (Field.mk slot.tag)

def Message.fields (msg : Message M) (m : M) : List Field := msg.slots.flatMap (Slot.fields m)

def Message.encode (msg : Message M) (m : M) : List UInt8 := encodeFields (msg.fields m)

/-- A field that the message type does not have is skipped. -/
def Message.merge (msg : Message M) (m : M) (f : Field) : Option M :=
  match msg.slots.find? (·.tag == f.tag) with
  | some slot => slot.put m f.value
  | none => some m

/-- `decode`, into a message that may have been read in part. -/
def Message.mergeAll (msg : Message M) (m : M) (bs : List UInt8) : Option M :=
  (decodeFields bs).bind (·.foldlM msg.merge m)

def Message.decode (msg : Message M) (bs : List UInt8) : Option M := msg.mergeAll msg.empty bs

theorem field_length {f : Field} {fs : List Field} (h : f ∈ fs) :
    f.encode.length ≤ (encodeFields fs).length := by
  induction h with
  | head fs =>
      rw [encodeFields, List.flatMap_cons, List.length_append]
      omega
  | tail g _ ih =>
      rw [encodeFields, List.flatMap_cons, List.length_append]
      exact Nat.le_trans ih (Nat.le_add_left _ _)

/-- In fewer than `2 ^ 64` bytes, no length is too great. -/
theorem plain_sized {f : Field} {fs : List Field} (hf : f ∈ fs) (hplain : f.value.Plain)
    (hlen : (encodeFields fs).length < 2 ^ 64) : f.value.Sized := by
  have hle := field_length hf
  obtain ⟨tag, value⟩ := f
  cases value with
  | varint n => exact True.intro
  | fixed64 bytes => exact hplain.elim
  | fixed32 bytes => exact hplain.elim
  | group => exact hplain.elim
  | len bytes =>
      rw [Field.encode, Wire.payload, List.length_append, List.length_append] at hle
      show bytes.length < 2 ^ 64
      omega

theorem mem_fields {msg : Message M} {m : M} {f : Field} (h : f ∈ msg.fields m) :
    ∃ slot ∈ msg.slots, ∃ w ∈ slot.emit m, f = ⟨slot.tag, w⟩ := by
  obtain ⟨slot, hslot, hf⟩ := List.mem_flatMap.mp h
  obtain ⟨w, hw, rfl⟩ := List.mem_map.mp hf
  exact ⟨slot, hslot, w, hw, rfl⟩

theorem fields_valid {msg : Message M} {m : M} (hlen : (msg.encode m).length < 2 ^ 64) :
    ∀ f ∈ msg.fields m, f.Valid := by
  intro f hf
  obtain ⟨slot, hslot, w, hw, rfl⟩ := mem_fields hf
  obtain ⟨hpos, hlt⟩ := msg.range slot hslot
  exact ⟨hpos, hlt, plain_sized hf (slot.plain m w hw) hlen⟩

theorem find_tag {slots : List (Slot M)} (hdistinct : (slots.map Slot.tag).Nodup) {slot : Slot M}
    (h : slot ∈ slots) : slots.find? (·.tag == slot.tag) = some slot := by
  induction h with
  | head slots => exact List.find?_cons_of_pos (beq_self_eq_true _)
  | tail s hmem ih =>
      obtain ⟨hnot, hrest⟩ := List.nodup_cons.mp hdistinct
      have hne : ¬ (s.tag == slot.tag) = true := fun h =>
        hnot (beq_iff_eq.mp h ▸ List.mem_map_of_mem hmem)
      rw [List.find?_cons_of_neg (p := fun s : Slot M => s.tag == slot.tag) hne, ih hrest]

theorem merge_slot (msg : Message M) {slot : Slot M} (h : slot ∈ msg.slots) (m : M) (w : Wire) :
    msg.merge m ⟨slot.tag, w⟩ = slot.put m w := by
  rw [Message.merge, find_tag msg.distinct h]

theorem foldlM_slot (msg : Message M) {slot : Slot M} (h : slot ∈ msg.slots) (acc : M)
    (ws : List Wire) :
    (ws.map (Field.mk slot.tag)).foldlM msg.merge acc = ws.foldlM slot.put acc := by
  rw [List.foldlM_map]
  simp only [merge_slot msg h]

theorem foldlM_copied (msg : Message M) {m acc out : M} {slots : List (Slot M)}
    (h : Copied m slots acc out) (hmem : ∀ slot ∈ slots, slot ∈ msg.slots)
    (hsized : ∀ slot ∈ slots, ∀ w ∈ slot.emit m, w.Sized) :
    (slots.flatMap (Slot.fields m)).foldlM msg.merge acc = some out := by
  induction h with
  | nil => rfl
  | cons hcopy _ ih =>
      rw [List.flatMap_cons, List.foldlM_append, Slot.fields, foldlM_slot msg (hmem _ (.head _)),
        hcopy (hsized _ (.head _))]
      exact ih (fun slot h => hmem slot (.tail _ h)) (fun slot h => hsized slot (.tail _ h))

theorem Message.decode_encode (msg : Message M) {m : M} (hlen : (msg.encode m).length < 2 ^ 64) :
    msg.decode (msg.encode m) = some m := by
  have hvalid := fields_valid hlen
  rw [Message.decode, Message.mergeAll, Message.encode, decodeFields_encode hvalid,
    Option.bind_some]
  refine foldlM_copied msg (msg.copied m) (fun _ h => h) fun slot hslot w hw => ?_
  have hfield : (⟨slot.tag, w⟩ : Field) ∈ msg.fields m :=
    List.mem_flatMap.mpr ⟨slot, hslot, List.mem_map.mpr ⟨w, hw, rfl⟩⟩
  exact (hvalid _ hfield).sized

/-- What a prefix is decoded to: the fields that are complete in it, put together. -/
theorem Message.decode_prefix (msg : Message M) {m : M} (hlen : (msg.encode m).length < 2 ^ 64)
    {p t : List UInt8} (hp : p ++ t = msg.encode m) :
    (∃ j, p = encodeFields ((msg.fields m).take j)) ∨ msg.decode p = none := by
  obtain h | h := decodeFields_prefix (fields_valid hlen) hp
  · exact Or.inl h
  · right
    rw [Message.decode, Message.mergeAll, h, Option.bind_none]

theorem Message.decode_take (msg : Message M) {m : M} (hlen : (msg.encode m).length < 2 ^ 64)
    (j : Nat) :
    msg.decode (encodeFields ((msg.fields m).take j)) =
      ((msg.fields m).take j).foldlM msg.merge msg.empty := by
  rw [Message.decode, Message.mergeAll,
    decodeFields_encode fun f hf => fields_valid hlen f (List.mem_of_mem_take hf), Option.bind_some]

/-! ## Kinds of slots -/

/-- A type of single values, with its default, which is not written. -/
structure Scalar (α : Type) where
  default : α
  wire : α → Wire
  value : Wire → Option α
  plain : ∀ x, (wire x).Plain
  value_wire : ∀ x, value (wire x) = some x

def uint64 : Scalar UInt64 where
  default := 0
  wire := .varint
  value
    | .varint n => some n
    | _ => none
  plain _ := True.intro
  value_wire _ := rfl

/-- Read as 64 bits, of which the lower half counts. -/
def uint32 : Scalar UInt32 where
  default := 0
  wire n := .varint n.toUInt64
  value
    | .varint n => some n.toUInt32
    | _ => none
  plain _ := True.intro
  value_wire n := congrArg some (UInt32.toUInt32_toUInt64 n)

def bytes : Scalar (List UInt8) where
  default := []
  wire := .len
  value
    | .len bs => some bs
    | _ => none
  plain _ := True.intro
  value_wire _ := rfl

/-- Bytes that are UTF-8. -/
def string : Scalar String where
  default := ""
  wire s := .len s.toByteArray.data.toList
  value
    | .len bs => String.fromUTF8? ⟨bs.toArray⟩
    | _ => none
  plain _ := True.intro
  value_wire s := dif_pos s.isValidUTF8

def scalarSlot [DecidableEq α] (tag : Nat) (kind : Scalar α) (lens : Lens M α) : Slot M where
  tag := tag
  emit m := if lens.get m = kind.default then [] else [kind.wire (lens.get m)]
  put m w := (kind.value w).map (lens.set m)
  plain m w h := by
    split at h
    · exact absurd h List.not_mem_nil
    · exact List.mem_singleton.mp h ▸ kind.plain _

/-- A message within the message.  One that comes in parts is put together. -/
def messageSlot (tag : Nat) (msg : Message N) (lens : Lens M (Option N)) : Slot M where
  tag := tag
  emit m := (lens.get m).toList.map fun x => .len (msg.encode x)
  put m
    | .len bs => (msg.mergeAll ((lens.get m).getD msg.empty) bs).map (lens.set m ∘ some)
    | _ => none
  plain m w h := by
    obtain ⟨x, -, rfl⟩ := List.mem_map.mp h
    exact True.intro

/-- As many messages as there are. -/
def repeatedSlot (tag : Nat) (msg : Message N) (lens : Lens M (List N)) : Slot M where
  tag := tag
  emit m := (lens.get m).map fun x => .len (msg.encode x)
  put m
    | .len bs => (msg.decode bs).map fun x => lens.set m (lens.get m ++ [x])
    | _ => none
  plain m w h := by
    obtain ⟨x, -, rfl⟩ := List.mem_map.mp h
    exact True.intro

theorem messageSlot_put (tag : Nat) (msg : Message N) (lens : Lens M (Option N)) (m : M)
    (bs : List UInt8) : (messageSlot tag msg lens).put m (.len bs) =
      (msg.mergeAll ((lens.get m).getD msg.empty) bs).map (lens.set m ∘ some) := rfl

theorem repeatedSlot_put (tag : Nat) (msg : Message N) (lens : Lens M (List N)) (m : M)
    (bs : List UInt8) : (repeatedSlot tag msg lens).put m (.len bs) =
      (msg.decode bs).map fun x => lens.set m (lens.get m ++ [x]) := rfl

theorem scalarSlot_copies [DecidableEq α] {tag : Nat} {kind : Scalar α} {lens : Lens M α}
    {m acc : M} (h : lens.get acc = kind.default) :
    (scalarSlot tag kind lens).Copies m acc (lens.set acc (lens.get m)) := by
  intro _
  rw [scalarSlot]
  dsimp only
  split
  case isTrue hm =>
    rw [hm, ← h, lens.set_get]
    rfl
  case isFalse hm =>
    rw [List.foldlM_cons, kind.value_wire]
    rfl

theorem messageSlot_copies {tag : Nat} {msg : Message N} {lens : Lens M (Option N)} {m acc : M}
    (h : lens.get acc = none) :
    (messageSlot tag msg lens).Copies m acc (lens.set acc (lens.get m)) := by
  intro hsized
  show ((lens.get m).toList.map fun x => Wire.len (msg.encode x)).foldlM _ acc = _
  cases hm : lens.get m with
  | none => exact congrArg some (by rw [← h, lens.set_get])
  | some x =>
      have hmem : Wire.len (msg.encode x) ∈ (messageSlot tag msg lens).emit m :=
        List.mem_map.mpr ⟨x, by rw [hm]; exact .head _, rfl⟩
      have hback : msg.mergeAll msg.empty (msg.encode x) = some x :=
        msg.decode_encode (hsized _ hmem)
      rw [Option.toList_some, List.map_singleton, List.foldlM_cons, messageSlot_put, h,
        Option.getD_none, hback]
      rfl

theorem foldlM_repeated {tag : Nat} {msg : Message N} {lens : Lens M (List N)} {xs : List N}
    (h : ∀ x ∈ xs, (msg.encode x).length < 2 ^ 64) (acc : M) :
    (xs.map fun x => Wire.len (msg.encode x)).foldlM (repeatedSlot tag msg lens).put acc =
      some (lens.set acc (lens.get acc ++ xs)) := by
  induction xs generalizing acc with
  | nil =>
      rw [List.append_nil, lens.set_get]
      rfl
  | cons x xs ih =>
      rw [List.map_cons, List.foldlM_cons, repeatedSlot_put, msg.decode_encode (h x (.head _)),
        Option.map_some, Option.bind_eq_bind, Option.bind_some, ih fun y hy => h y (.tail _ hy),
        lens.get_set, lens.set_set, List.append_assoc, List.singleton_append]

theorem repeatedSlot_copies {tag : Nat} {msg : Message N} {lens : Lens M (List N)} {m acc : M}
    (h : lens.get acc = []) :
    (repeatedSlot tag msg lens).Copies m acc (lens.set acc (lens.get m)) := by
  intro hsized
  have hlen : ∀ x ∈ lens.get m, (msg.encode x).length < 2 ^ 64 := fun x hx =>
    hsized (.len (msg.encode x)) (List.mem_map.mpr ⟨x, hx, rfl⟩)
  show ((lens.get m).map fun x => Wire.len (msg.encode x)).foldlM _ acc = _
  rw [foldlM_repeated hlen, h, List.nil_append]

/-! ## What a slot leaves alone -/

/-- Putting a value back does not change what `get` reads. -/
def Slot.Leaves (slot : Slot M) (get : M → α) : Prop :=
  ∀ m w m', slot.put m w = some m' → get m' = get m

theorem scalarSlot_leaves {β : Type} [DecidableEq β] {tag : Nat} {kind : Scalar β} {lens : Lens M β}
    {get : M → α} (h : ∀ m x, get (lens.set m x) = get m) :
    (scalarSlot tag kind lens).Leaves get := by
  intro m w m' hput
  obtain ⟨x, -, rfl⟩ := Option.map_eq_some_iff.mp hput
  exact h m x

theorem messageSlot_leaves {tag : Nat} {msg : Message N} {lens : Lens M (Option N)} {get : M → α}
    (h : ∀ m x, get (lens.set m x) = get m) : (messageSlot tag msg lens).Leaves get := by
  intro m w m' hput
  cases w with
  | len bs =>
      obtain ⟨x, -, rfl⟩ := Option.map_eq_some_iff.mp hput
      exact h m (some x)
  | varint n => exact nomatch hput
  | fixed64 bs => exact nomatch hput
  | fixed32 bs => exact nomatch hput
  | group => exact nomatch hput

/-- Nor does a run of fields whose slots all leave it alone. -/
theorem foldlM_leaves (msg : Message M) (get : M → α) {fs : List Field}
    (h : ∀ f ∈ fs, ∃ slot ∈ msg.slots, slot.Leaves get ∧ f.tag = slot.tag) {m m' : M}
    (hfold : fs.foldlM msg.merge m = some m') : get m' = get m := by
  induction fs generalizing m with
  | nil =>
      obtain rfl := Option.some.inj hfold
      rfl
  | cons f fs ih =>
      obtain ⟨slot, hslot, hleaves, htag⟩ := h f (.head _)
      rw [List.foldlM_cons] at hfold
      obtain ⟨m₁, hput, hrest⟩ := Option.bind_eq_some_iff.mp hfold
      obtain ⟨tag, w⟩ := f
      obtain rfl : tag = slot.tag := htag
      rw [merge_slot msg hslot] at hput
      rw [ih (fun f hf => h f (.tail _ hf)) hrest, hleaves m w m₁ hput]

end Wraith.Lib.Protobuf

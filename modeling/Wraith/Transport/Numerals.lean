/-
# `Wraith.Transport.Numerals` — the number syntaxes of the command line

What Go reads as a number behind a flag: `strconv.ParseInt` and `ParseUint` with base 0, and
`time.ParseDuration`.

The two facts about them that matter: a decimal numeral reads as its number (`parseUint_toDigits`,
`leadingInt_toDigits`), and a numeral alone is no duration (`parseDuration_digits`).
-/
import Mathlib.Data.List.Basic
import Mathlib.Data.Nat.Digits.Defs
import Wraith.Lib.Radix

namespace Wraith.Transport

/-! ## Integers -/

/-- What `strconv` finds wrong with a numeral, as `flag` reports it. -/
inductive NumError where
  /-- "parse error" -/
  | parse
  /-- "value out of range" -/
  | range
  deriving DecidableEq, Repr

/-- The value of a digit or of a letter, up to base 36. -/
def digitOf (c : Char) : Option Nat :=
  if c.isDigit then some (c.toNat - '0'.toNat)
  else if 'a' ≤ c.toLower ∧ c.toLower ≤ 'z' then some (c.toLower.toNat - 'a'.toNat + 10)
  else none

/-- The loop of `ParseUint` with base 0 on the digits behind the prefix. -/
def parseDigits (base : Nat) : (n : Nat) → List Char → Except NumError Nat
  | n, [] => .ok n
  | n, c :: cs =>
      if c = '_' then parseDigits base n cs
      else match digitOf c with
        | none => .error .parse
        | some d =>
            if base ≤ d then .error .parse
            else if 2 ^ 64 ≤ n * base + d then .error .range
            else parseDigits base (n * base + d) cs

/-- What `underscoreOK` saw last. -/
inductive Saw where
  | start
  | digit
  | underscore
  | other
  deriving DecidableEq, Repr

/-- The loop of `underscoreOK`. -/
def underscores (hex : Bool) : Saw → List Char → Bool
  | saw, [] => saw ≠ .underscore
  | saw, c :: cs =>
      if c.isDigit || (hex && 'a' ≤ c.toLower && c.toLower ≤ 'f') then underscores hex .digit cs
      else if c = '_' then saw = .digit && underscores hex .underscore cs
      else saw ≠ .underscore && underscores hex .other cs

/-- `underscoreOK`, on a text without its sign. -/
def underscoreOK : List Char → Bool
  | '0' :: c :: cs =>
      if c.toLower = 'b' ∨ c.toLower = 'o' ∨ c.toLower = 'x' then
        underscores (c.toLower = 'x') .digit cs
      else underscores false .start ('0' :: c :: cs)
  | cs => underscores false .start cs

/-- The base that base 0 stands for, and the digits. -/
def splitBase : List Char → Nat × List Char
  | '0' :: c :: d :: cs =>
      if c.toLower = 'b' then (2, d :: cs)
      else if c.toLower = 'o' then (8, d :: cs)
      else if c.toLower = 'x' then (16, d :: cs)
      else (8, c :: d :: cs)
  | '0' :: cs => (8, cs)
  | cs => (10, cs)

/-- `strconv.ParseUint(s, 0, 64)`. -/
def parseUint (cs : List Char) : Except NumError Nat :=
  if cs = [] then .error .parse
  else
    let (base, digits) := splitBase cs
    match parseDigits base 0 digits with
    | .error e => .error e
    | .ok n => if '_' ∈ digits ∧ underscoreOK cs = false then .error .parse else .ok n

/-- The range check of `ParseInt` for a positive number. -/
def parsePositive (cs : List Char) : Except NumError Int :=
  match parseUint cs with
  | .error e => .error e
  | .ok n => if 2 ^ 63 ≤ n then .error .range else .ok n

/-- And for a negative one. -/
def parseNegative (cs : List Char) : Except NumError Int :=
  match parseUint cs with
  | .error e => .error e
  | .ok n => if 2 ^ 63 < n then .error .range else .ok (-n)

/-- `strconv.ParseInt(s, 0, 64)`. -/
def parseInt : List Char → Except NumError Int
  | '+' :: cs => parsePositive cs
  | '-' :: cs => parseNegative cs
  | cs => parsePositive cs

/-! ## Durations -/

/-- `leadingInt`: the digits at the front, unless they overflow. -/
def leadingInt : (x : Nat) → List Char → Option (Nat × List Char)
  | x, [] => some (x, [])
  | x, c :: cs =>
      if c.isDigit then
        if 2 ^ 63 / 10 < x then none
        else
          let x' := x * 10 + (c.toNat - '0'.toNat)
          if 2 ^ 63 < x' then none else leadingInt x' cs
      else some (x, c :: cs)

/-- `leadingFraction`: the digits at the front and their scale; what overflows is dropped. -/
def leadingFraction : (x : Nat) → (scale : Float) → (overflow : Bool) → List Char →
    Nat × Float × List Char
  | x, scale, _, [] => (x, scale, [])
  | x, scale, overflow, c :: cs =>
      if c.isDigit then
        if overflow || (2 ^ 63 - 1) / 10 < x then leadingFraction x scale true cs
        else
          let y := x * 10 + (c.toNat - '0'.toNat)
          if 2 ^ 63 < y then leadingFraction x scale true cs
          else leadingFraction y (scale * 10) false cs
      else (x, scale, c :: cs)

/-- `time.Second`. -/
def second : Nat := 1000000000

/-- `unitMap`, in nanoseconds. -/
def unitMap (u : List Char) : Option Nat :=
  match String.ofList u with
  | "ns" => some 1
  | "us" => some 1000
  | "µs" => some 1000
  | "μs" => some 1000
  | "ms" => some 1000000
  | "s" => some second
  | "m" => some (60 * second)
  | "h" => some (3600 * second)
  | _ => none

/-- The number in front of a unit: its integer part, the fraction with its scale, and the rest. -/
def readNumber (cs : List Char) : Option (Nat × Nat × Float × List Char) :=
  match leadingInt 0 cs with
  | none => none
  | some (v, rest) =>
      let pre := rest.length ≠ cs.length
      match rest with
      | '.' :: fraction =>
          let (f, scale, rest') := leadingFraction 0 1 false fraction
          if ¬ pre ∧ rest'.length = fraction.length then none else some (v, f, scale, rest')
      | rest => if pre then some (v, 0, 1, rest) else none

/-- `v` units and the fraction, in nanoseconds. -/
def scaled (v f : Nat) (scale : Float) (unit : Nat) : Option Nat :=
  if 2 ^ 63 / unit < v then none
  else
    let v' := if f = 0 then v * unit
      else v * unit + (Float.ofNat f * (Float.ofNat unit / scale)).toUInt64.toNat
    if 2 ^ 63 < v' then none else some v'

/-- The character ends a unit. -/
def endsUnit (c : Char) : Bool := c = '.' || c.isDigit

/-- One round of the loop of `ParseDuration`: a number and its unit. -/
def readPart (cs : List Char) : Option (Nat × List Char) :=
  match readNumber cs with
  | none => none
  | some (v, f, scale, rest) =>
      let u := rest.takeWhile (! endsUnit ·)
      if u = [] then none
      else match unitMap u with
        | none => none
        | some unit => (scaled v f scale unit).map fun n => (n, rest.dropWhile (! endsUnit ·))

theorem leadingInt_length : ∀ {cs rest : List Char} {x v : Nat},
    leadingInt x cs = some (v, rest) → rest.length ≤ cs.length
  | [], _, _, _, h => by
      obtain ⟨-, rfl⟩ := Prod.mk.inj (Option.some.inj h)
      exact le_rfl
  | c :: cs, rest, x, v, h => by
      rw [leadingInt] at h
      split at h
      · split at h
        · exact nomatch h
        · dsimp only at h
          split at h
          · exact nomatch h
          · exact (leadingInt_length h).trans (Nat.le_succ _)
      · obtain ⟨-, rfl⟩ := Prod.mk.inj (Option.some.inj h)
        exact le_rfl

theorem leadingFraction_length : ∀ (cs : List Char) (x : Nat) (scale : Float) (overflow : Bool),
    (leadingFraction x scale overflow cs).2.2.length ≤ cs.length
  | [], _, _, _ => le_rfl
  | c :: cs, x, scale, overflow => by
      rw [leadingFraction]
      split
      · split
        · exact (leadingFraction_length cs _ _ _).trans (Nat.le_succ _)
        · dsimp only
          split
          · exact (leadingFraction_length cs _ _ _).trans (Nat.le_succ _)
          · exact (leadingFraction_length cs _ _ _).trans (Nat.le_succ _)
      · exact le_rfl

theorem readNumber_length {cs rest : List Char} {v f : Nat} {scale : Float}
    (h : readNumber cs = some (v, f, scale, rest)) : rest.length ≤ cs.length := by
  unfold readNumber at h
  split at h
  · exact nomatch h
  · rename_i v' rest' hint
    have hle := leadingInt_length hint
    dsimp only at h
    split at h
    · rename_i fraction
      have hfraction := leadingFraction_length fraction 0 1 false
      generalize leadingFraction 0 1 false fraction = r at h hfraction
      obtain ⟨f', scale', rest''⟩ := r
      dsimp only at h hfraction
      split at h
      · exact nomatch h
      · simp only [Option.some.injEq, Prod.mk.injEq] at h
        obtain ⟨-, -, -, rfl⟩ := h
        exact hfraction.trans ((Nat.le_succ _).trans hle)
    · split at h
      · simp only [Option.some.injEq, Prod.mk.injEq] at h
        obtain ⟨-, -, -, rfl⟩ := h
        exact hle
      · exact nomatch h

/-- A round of the loop takes at least the first character of the unit. -/
theorem readPart_length {cs rest : List Char} {n : Nat} (h : readPart cs = some (n, rest)) :
    rest.length < cs.length := by
  unfold readPart at h
  split at h
  · exact nomatch h
  · rename_i v f scale rest' hnumber
    dsimp only at h
    split at h
    · exact nomatch h
    · rename_i hunit
      split at h
      · exact nomatch h
      · obtain ⟨n', -, heq⟩ := Option.map_eq_some_iff.mp h
        obtain ⟨-, rfl⟩ := Prod.mk.inj heq
        have hsplit := congrArg List.length (List.takeWhile_append_dropWhile (p := (! endsUnit ·))
          (l := rest'))
        rw [List.length_append] at hsplit
        have := List.length_pos_iff.mpr hunit
        have := readNumber_length hnumber
        omega

/-- The loop of `ParseDuration`; `d` is the sum so far. -/
def durationParts (d : Nat) (cs : List Char) : Option Nat :=
  match cs with
  | [] => some d
  | c :: cs =>
      match h : readPart (c :: cs) with
      | none => none
      | some (n, rest) =>
          have : rest.length < cs.length + 1 := readPart_length h
          if 2 ^ 63 < d + n then none else durationParts (d + n) rest
termination_by cs.length

/-- The last round. -/
theorem durationParts_last {cs : List Char} {d n : Nat} (h : readPart cs = some (n, []))
    (hle : d + n ≤ 2 ^ 63) : durationParts d cs = some (d + n) := by
  cases cs with
  | nil => exact nomatch h
  | cons c cs =>
      rw [durationParts]
      split
      · rename_i hnone
        rw [h] at hnone
        exact nomatch hnone
      · rename_i n' rest hsome
        rw [h] at hsome
        obtain ⟨rfl, rfl⟩ := Prod.mk.inj (Option.some.inj hsome)
        rw [if_neg (by omega), durationParts]

/-- `ParseDuration` behind the sign. -/
def unsignedDuration (cs : List Char) : Option Nat :=
  if cs = ['0'] then some 0
  else if cs = [] then none
  else durationParts 0 cs

/-- `time.ParseDuration`, in nanoseconds; `none` is any of its errors. -/
def parseDuration : List Char → Option Int
  | '-' :: cs => (unsignedDuration cs).map fun d => -d
  | '+' :: cs => (unsignedDuration cs).bind fun d => if 2 ^ 63 - 1 < d then none else some d
  | cs => (unsignedDuration cs).bind fun d => if 2 ^ 63 - 1 < d then none else some d

/-! ## Decimal numerals -/

open Lib
open Nat (toDigits)

theorem digitOf_digitChar : ∀ d < 10, digitOf d.digitChar = some d ∧ d.digitChar ≠ '_' := by decide

/-- A numeral reads as its number. -/
theorem parseDigits_toDigits {n : Nat} (hn : n < 2 ^ 64) :
    parseDigits 10 0 (toDigits 10 n) = .ok n := by
  have hread := Radix.read_toDigits (b := 10) (n := n) (by decide) (parseDigits 10)
    (fun v d cs hd hle => by
      obtain ⟨hvalue, hunder⟩ := digitOf_digitChar d hd
      rw [parseDigits, if_neg hunder, hvalue]
      simp only
      rw [if_neg (Nat.not_le_of_lt hd), if_neg (by omega)]) []
  rwa [List.append_nil] at hread

theorem digitChar_isDigit :
    ∀ d < 10, d.digitChar.isDigit = true ∧ d.digitChar.toNat - '0'.toNat = d := by
  decide

/-- As the integer part of a duration too, up to what follows it. -/
theorem leadingInt_toDigits {n : Nat} (hn : n ≤ 2 ^ 63) {c : Char} (hc : c.isDigit = false)
    (cs : List Char) : leadingInt 0 (toDigits 10 n ++ c :: cs) = some (n, c :: cs) := by
  have hread := Radix.read_toDigits (b := 10) (n := n) (by decide) leadingInt
    (fun v d cs hd hle => by
      obtain ⟨hdigit, hvalue⟩ := digitChar_isDigit d hd
      rw [leadingInt, if_pos hdigit, if_neg (by omega), hvalue]
      exact if_neg (by omega)) (c :: cs)
  rw [hread, leadingInt, if_neg (by rw [hc]; decide)]

/-- Digits and nothing behind them: all are taken, or they overflow. -/
theorem leadingInt_all : ∀ (ds : List Char) (x : Nat), (∀ c ∈ ds, c.isDigit = true) →
    leadingInt x ds = none ∨ ∃ v, leadingInt x ds = some (v, [])
  | [], x, _ => Or.inr ⟨x, rfl⟩
  | c :: cs, x, hds => by
      rw [leadingInt, hds c List.mem_cons_self, if_pos rfl]
      split
      · exact Or.inl rfl
      · dsimp only
        split
        · exact Or.inl rfl
        · exact leadingInt_all cs _ fun c' hc' => hds c' (List.mem_cons_of_mem _ hc')

theorem readPart_digits {ds : List Char} (hds : ∀ c ∈ ds, c.isDigit = true) :
    readPart ds = none := by
  unfold readPart readNumber
  obtain h | ⟨v, h⟩ := leadingInt_all ds 0 hds
  · rw [h]
  · rw [h]
    dsimp only
    by_cases hnil : ds.length = 0
    · rw [if_neg (by simp only [List.length_nil, hnil, ne_eq, not_true_eq_false,
        not_false_eq_true])]
    · rw [if_pos (by simpa only [List.length_nil] using fun h => hnil h.symm)]
      rfl

/-- A numeral without a unit is no duration, unless it is `0`. -/
theorem parseDuration_digits {ds : List Char} (hds : ∀ c ∈ ds, c.isDigit = true)
    (hzero : ds ≠ ['0']) : parseDuration ds = none := by
  have hparts : unsignedDuration ds = none := by
    rw [unsignedDuration, if_neg hzero]
    cases ds with
    | nil => rfl
    | cons c cs =>
        rw [if_neg (List.cons_ne_nil c cs), durationParts]
        split
        · rfl
        · rename_i n rest h
          rw [readPart_digits hds] at h
          exact nomatch h
  unfold parseDuration
  split
  · exact absurd (hds _ List.mem_cons_self) (by decide)
  · exact absurd (hds _ List.mem_cons_self) (by decide)
  · rw [hparts]
    rfl

theorem mem_toDigits_isDigit {n : Nat} : ∀ c ∈ toDigits 10 n, c.isDigit = true :=
  fun _ hc => Nat.isDigit_of_mem_toDigits (by decide) (by decide) hc

/-- Numerals have no leading zero. -/
theorem toDigits_cons {n : Nat} (hn : 0 < n) : ∃ c cs, toDigits 10 n = c :: cs ∧ c ≠ '0' := by
  have hdigit : ∀ d < 10, 0 < d → d.digitChar ≠ '0' := by decide
  revert hn
  refine Text.toDigits_induct (P := fun n ds => 0 < n → ∃ c cs, ds = c :: cs ∧ c ≠ '0') (by decide)
    (fun d hd hpos => ⟨_, [], rfl, hdigit d hd hpos⟩) (fun n d ds hpos _ ih _ => ?_) n
  obtain ⟨c, cs, rfl, hc⟩ := ih hpos
  exact ⟨c, cs ++ [d.digitChar], rfl, hc⟩

theorem toDigits_ne_zero {n : Nat} (hn : 0 < n) : toDigits 10 n ≠ ['0'] := fun h => by
  obtain ⟨c, cs, hds, hc⟩ := toDigits_cons hn
  exact hc (List.cons.inj (hds.symm.trans h)).1

theorem splitBase_ten {c : Char} {cs : List Char} (h : c ≠ '0') :
    splitBase (c :: cs) = (10, c :: cs) := by
  unfold splitBase
  split
  · rename_i heq
    exact absurd (List.cons.inj heq).1 h
  · rename_i heq
    exact absurd (List.cons.inj heq).1 h
  · rfl

theorem parseUint_toDigits {n : Nat} (hn : n < 2 ^ 64) : parseUint (toDigits 10 n) = .ok n := by
  by_cases h0 : n = 0
  · subst h0
    rfl
  · obtain ⟨c, cs, hds, hc⟩ := toDigits_cons (Nat.pos_of_ne_zero h0)
    have hparse := parseDigits_toDigits hn
    have hunder : ∀ c ∈ toDigits 10 n, c ≠ '_' :=
      Text.mem_toDigits (by decide) fun d hd => (digitOf_digitChar d hd).2
    rw [hds] at hparse hunder ⊢
    have hmem : '_' ∉ c :: cs := fun hmem => hunder _ hmem rfl
    rw [parseUint, if_neg (List.cons_ne_nil c cs), splitBase_ten hc]
    simp only [hparse, hmem, false_and, if_false]

/-- A numeral has no sign in front, whatever follows. -/
theorem head_sign {n : Nat} {c : Char} {cs : List Char} (hc : c.isDigit = false) :
    (toDigits 10 n ++ cs).head? ≠ some c := by
  intro h
  rw [List.head?_append_of_ne_nil _ Nat.toDigits_ne_nil] at h
  have hdigit := mem_toDigits_isDigit c (List.mem_of_mem_head? h)
  rw [hc] at hdigit
  exact nomatch hdigit

theorem parseInt_toDigits {n : Nat} (hn : n < 2 ^ 63) : parseInt (toDigits 10 n) = .ok n := by
  have hpositive : parsePositive (toDigits 10 n) = .ok n := by
    rw [parsePositive, parseUint_toDigits (by omega)]
    simp only
    rw [if_neg (by omega)]
  unfold parseInt
  rw [← List.append_nil (toDigits 10 n)]
  split
  · rename_i heq
    exact absurd (congrArg List.head? heq) (head_sign (by decide))
  · rename_i heq
    exact absurd (congrArg List.head? heq) (head_sign (by decide))
  · rwa [List.append_nil]

/-! ### A number of seconds -/

theorem unitMap_second : unitMap ['s'] = some second := rfl

theorem readNumber_seconds {n : Nat} (hn : n ≤ 2 ^ 63) :
    readNumber (toDigits 10 n ++ ['s']) = some (n, 0, 1, ['s']) := by
  have hint := leadingInt_toDigits (c := 's') hn rfl []
  have hpos : 0 < (toDigits 10 n).length := Nat.length_toDigits_pos
  have hpre : ['s'].length ≠ (toDigits 10 n ++ ['s']).length := by
    rw [List.length_append]
    omega
  unfold readNumber
  rw [hint]
  exact if_pos hpre

theorem scaled_second {n : Nat} (hn : n * second < 2 ^ 63) :
    scaled n 0 1 second = some (n * second) := by
  rw [second] at hn ⊢
  unfold scaled
  rw [if_neg (by omega), if_pos rfl]
  dsimp only
  rw [if_neg (by omega)]

theorem readPart_seconds {n : Nat} (hn : n * second < 2 ^ 63) :
    readPart (toDigits 10 n ++ ['s']) = some (n * second, []) := by
  have hle : n ≤ 2 ^ 63 := by
    rw [second] at hn
    omega
  have htake : ['s'].takeWhile (! endsUnit ·) = ['s'] := rfl
  have hdrop : ['s'].dropWhile (! endsUnit ·) = [] := rfl
  unfold readPart
  rw [readNumber_seconds hle]
  simp only [htake, hdrop, List.cons_ne_nil, if_false, unitMap_second, scaled_second hn,
    Option.map_some]

/-- With its unit a number of seconds is read as such. -/
theorem parseDuration_seconds {n : Nat} (hn : n * second < 2 ^ 63) :
    parseDuration (toDigits 10 n ++ ['s']) = some ((n * second : Nat) : Int) := by
  have hparts := durationParts_last (d := 0) (readPart_seconds hn) (by omega)
  rw [Nat.zero_add] at hparts
  have hunsigned : unsignedDuration (toDigits 10 n ++ ['s']) = some (n * second) := by
    rw [unsignedDuration, if_neg, if_neg, hparts]
    · exact List.append_ne_nil_of_right_ne_nil _ (List.cons_ne_nil _ _)
    · intro h
      rw [← List.nil_append ['0']] at h
      exact absurd (List.append_inj_right' h rfl) (by decide)
  unfold parseDuration
  split
  · rename_i heq
    exact absurd (congrArg List.head? heq) (head_sign (by decide))
  · rename_i heq
    exact absurd (congrArg List.head? heq) (head_sign (by decide))
  · rw [hunsigned, Option.bind_some, if_neg (by omega)]

end Wraith.Transport

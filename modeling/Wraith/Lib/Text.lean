/-
# `Wraith.Lib.Text` — cutting up text

Lists of characters, or of anything: what lies between blanks at both ends (`trim`), the words
between blanks (`words`), what lies in front of and behind a separator (`splitOnce`), and between
the separators up to a number of pieces (`splitN`).  Each operation has the lemma that inverts it: a
text that was put together from parts the operation cannot cut comes apart into these parts.

The last section is about numerals, which are read from the front and made from the back.
-/
import Mathlib.Algebra.GroupWithZero.Nat
import Mathlib.Data.List.Basic
import Mathlib.Data.List.TakeWhile

namespace Wraith.Lib.Text

variable {α : Type}

/-! ## Both ends -/

/-- Without what satisfies `p` at the beginning and at the end. -/
def trim (p : α → Bool) (cs : List α) : List α :=
  ((cs.dropWhile p).reverse.dropWhile p).reverse

theorem dropWhile_blank {p : α → Bool} {blank cs : List α} (hblank : ∀ c ∈ blank, p c = true)
    (hhead : ∀ c, cs.head? = some c → p c = false) : (blank ++ cs).dropWhile p = cs := by
  induction blank with
  | nil =>
      cases cs with
      | nil => rfl
      | cons c cs =>
          exact List.dropWhile_cons_of_neg (by rw [hhead c rfl]; exact Bool.false_ne_true)
  | cons b blank ih =>
      rw [List.cons_append, List.dropWhile_cons_of_pos (hblank b (.head _))]
      exact ih fun c hc => hblank c (.tail _ hc)

/-- What begins and ends otherwise is left over of the blanks around it. -/
theorem trim_eq {p : α → Bool} {before cs after : List α} (hbefore : ∀ c ∈ before, p c = true)
    (hafter : ∀ c ∈ after, p c = true) (hhead : ∀ c, cs.head? = some c → p c = false)
    (hlast : ∀ c, cs.getLast? = some c → p c = false) : trim p (before ++ cs ++ after) = cs := by
  have hback : ∀ xs : List α, (∀ c, xs.head? = some c → p c = false) →
      trim p (before ++ xs) = (xs.reverse.dropWhile p).reverse := fun xs hxs => by
    rw [trim, dropWhile_blank hbefore hxs]
  cases cs with
  | nil =>
      have hall : ∀ c ∈ before ++ after, p c = true := by
        intro c hc
        obtain hc | hc := List.mem_append.mp hc
        · exact hbefore c hc
        · exact hafter c hc
      have hnil : (before ++ after ++ []).dropWhile p = [] := dropWhile_blank hall nofun
      rw [List.append_nil] at hnil
      rw [List.append_nil, trim, hnil]
      rfl
  | cons c cs =>
      rw [List.append_assoc, hback (c :: cs ++ after) fun d hd => hhead d hd, List.reverse_append,
        dropWhile_blank (fun d hd => hafter d (List.mem_reverse.mp hd))
          (fun d hd => hlast d (List.head?_reverse ▸ hd)), List.reverse_reverse]

/-- What ends with a separator and more ends as the latter does. -/
theorem getLast?_append_cons {cs cs' : List α} {c : α} (h : cs' ≠ []) :
    (cs ++ c :: cs').getLast? = cs'.getLast? := by
  rw [List.getLast?_append_of_ne_nil _ (List.cons_ne_nil c cs'), ← List.singleton_append,
    List.getLast?_append_of_ne_nil _ h]

/-! ## Words -/

/-- What lies between blanks; `word` is what was read of the current word, backwards. -/
def wordsFrom (p : α → Bool) : (word : List α) → List α → List (List α)
  | [], [] => []
  | word, [] => [word.reverse]
  | word, c :: cs =>
      if p c then if word.isEmpty then wordsFrom p [] cs else word.reverse :: wordsFrom p [] cs
      else wordsFrom p (c :: word) cs

def words (p : α → Bool) (cs : List α) : List (List α) := wordsFrom p [] cs

/-- A word, and no blanks in it. -/
def IsWord (p : α → Bool) (w : List α) : Prop := w ≠ [] ∧ ∀ c ∈ w, p c = false

/-- A finite check, over the list alone. -/
theorem forall_of_all {p : α → Bool} {b : Bool} {cs : List α}
    (h : (cs.all fun c => p c == b) = true) :
    ∀ c ∈ cs, p c = b := fun c hc => eq_of_beq (List.all_eq_true.mp h c hc)

/-- Words, each with the blanks in front of it. -/
def row (parts : List (List α × List α)) : List α := parts.flatMap fun x => x.1 ++ x.2

theorem wordsFrom_cons {p : α → Bool} {word cs : List α} {c : α} : wordsFrom p word (c :: cs) =
    if p c then if word.isEmpty then wordsFrom p [] cs else word.reverse :: wordsFrom p [] cs
    else wordsFrom p (c :: word) cs := by
  cases word with
  | nil => rfl
  | cons d word => rfl

theorem wordsFrom_blank {p : α → Bool} {blank cs : List α} (h : ∀ c ∈ blank, p c = true) :
    wordsFrom p [] (blank ++ cs) = wordsFrom p [] cs := by
  induction blank with
  | nil => rfl
  | cons c blank ih =>
      rw [List.cons_append, wordsFrom_cons, if_pos (h c (.head _))]
      exact ih fun d hd => h d (.tail _ hd)

theorem wordsFrom_word {p : α → Bool} {word w cs : List α} (h : ∀ c ∈ w, p c = false) :
    wordsFrom p word (w ++ cs) = wordsFrom p (w.reverse ++ word) cs := by
  induction w generalizing word with
  | nil => rfl
  | cons c w ih =>
      rw [List.cons_append, wordsFrom_cons,
        if_neg (by rw [h c (.head _)]; exact Bool.false_ne_true),
        ih fun d hd => h d (.tail _ hd), List.reverse_cons, List.append_assoc]
      rfl

/-- Blanks end a word. -/
theorem wordsFrom_end {p : α → Bool} {w blank cs : List α} (hw : w ≠ [])
    (hblank : ∀ c ∈ blank, p c = true)
    (hne : blank ≠ []) : wordsFrom p w.reverse (blank ++ cs) = w :: wordsFrom p [] cs := by
  cases blank with
  | nil => exact absurd rfl hne
  | cons c blank =>
      have hempty : ¬ w.reverse.isEmpty = true :=
        fun h => hw (List.reverse_eq_nil_iff.mp (List.isEmpty_iff.mp h))
      rw [List.cons_append, wordsFrom_cons, if_pos (hblank c (.head _)), if_neg hempty,
        List.reverse_reverse, wordsFrom_blank fun d hd => hblank d (.tail _ hd)]

theorem wordsFrom_last {p : α → Bool} {w rest : List α} (hw : w ≠ [])
    (hrest : ∀ c ∈ rest, p c = true) :
    wordsFrom p w.reverse rest = [w] := by
  cases rest with
  | nil =>
      cases hrev : w.reverse with
      | nil => exact absurd (List.reverse_eq_nil_iff.mp hrev) hw
      | cons c word =>
          show [(c :: word).reverse] = [w]
          rw [← hrev, List.reverse_reverse]
  | cons c rest =>
      have hend : wordsFrom p w.reverse (c :: rest ++ []) = [w] :=
        wordsFrom_end hw hrest (List.cons_ne_nil c rest)
      rwa [List.append_nil] at hend

/-- A row comes apart into its words. -/
theorem words_row {p : α → Bool} {first : List α} (parts : List (List α × List α)) (rest : List α)
    (hfirst : IsWord p first)
    (hparts : ∀ x ∈ parts, x.1 ≠ [] ∧ (∀ c ∈ x.1, p c = true) ∧ IsWord p x.2)
    (hrest : ∀ c ∈ rest, p c = true) :
    words p (first ++ (row parts ++ rest)) = first :: parts.map Prod.snd := by
  rw [words, wordsFrom_word hfirst.2, List.append_nil]
  induction parts generalizing first with
  | nil => exact wordsFrom_last hfirst.1 hrest
  | cons x parts ih =>
      obtain ⟨hne, hblank, hword⟩ := hparts x (.head _)
      have hrow : row (x :: parts) ++ rest = x.1 ++ (x.2 ++ (row parts ++ rest)) := by
        rw [row, List.flatMap_cons, List.append_assoc, List.append_assoc]
        rfl
      rw [hrow, wordsFrom_end hfirst.1 hblank hne, wordsFrom_word hword.2, List.append_nil,
        ih hword fun y hy => hparts y (.tail _ hy), List.map_cons]

theorem words_word {p : α → Bool} {w : List α} (h : IsWord p w) : words p w = [w] := by
  have hrow := words_row [] [] h (fun _ hx => nomatch hx) fun _ hc => nomatch hc
  rwa [row, List.flatMap_nil, List.append_nil, List.append_nil] at hrow

/-- Blanks at the end make no word. -/
theorem wordsFrom_trailing {p : α → Bool} {word cs blank : List α} (h : ∀ c ∈ blank, p c = true) :
    wordsFrom p word (cs ++ blank) = wordsFrom p word cs := by
  induction cs generalizing word with
  | nil =>
      cases blank with
      | nil => rfl
      | cons c blank =>
          have hrest : wordsFrom p [] (blank ++ []) = wordsFrom p [] [] :=
            wordsFrom_blank fun d hd => h d (.tail _ hd)
          rw [List.append_nil] at hrest
          rw [List.nil_append, wordsFrom_cons, if_pos (h c (.head _)), hrest]
          cases word with
          | nil => rfl
          | cons d word => rfl
  | cons c cs ih =>
      rw [List.cons_append, wordsFrom_cons, wordsFrom_cons, ih, ih]

/-- A blank divides a text. -/
theorem wordsFrom_append {p : α → Bool} {word cs cs' : List α} {c : α} (hc : p c = true) :
    wordsFrom p word (cs ++ c :: cs') = wordsFrom p word cs ++ words p cs' := by
  induction cs generalizing word with
  | nil =>
      rw [List.nil_append, wordsFrom_cons, if_pos hc]
      cases word with
      | nil => rfl
      | cons d word => rfl
  | cons d cs ih =>
      rw [List.cons_append, wordsFrom_cons, wordsFrom_cons, ih, ih]
      split
      · split
        · rfl
        · rfl
      · rfl

/-- Trimming takes no word away. -/
theorem words_trim {p : α → Bool} (cs : List α) : words p (trim p cs) = words p cs := by
  have hback : words p (trim p cs) = words p (cs.dropWhile p) := by
    have hsplit := List.takeWhile_append_dropWhile (p := p) (l := (cs.dropWhile p).reverse)
    have hcs : cs.dropWhile p = trim p cs ++ ((cs.dropWhile p).reverse.takeWhile p).reverse := by
      rw [trim, ← List.reverse_append, hsplit, List.reverse_reverse]
    conv_rhs => rw [hcs]
    exact (wordsFrom_trailing fun c hc => List.mem_takeWhile_imp (List.mem_reverse.mp hc)).symm
  have hfront : words p cs = words p (cs.dropWhile p) := by
    conv_lhs => rw [← List.takeWhile_append_dropWhile (p := p) (l := cs)]
    exact wordsFrom_blank fun c hc => List.mem_takeWhile_imp hc
  rw [hback, hfront]

/-! ## Separators -/

variable [DecidableEq α] {sep : α}

/-- In front of the first separator, and behind it. -/
def splitOnce (sep : α) : List α → Option (List α × List α)
  | [] => none
  | c :: cs =>
      if c = sep then some ([], cs) else (splitOnce sep cs).map fun parts => (c :: parts.1, parts.2)

theorem splitOnce_append : ∀ {cs rest : List α}, sep ∉ cs →
    splitOnce sep (cs ++ sep :: rest) = some (cs, rest)
  | [], _, _ => if_pos rfl
  | c :: cs, rest, h => by
      have hc : c ≠ sep := fun heq => h (heq ▸ List.mem_cons_self)
      have hcs : sep ∉ cs := fun hmem => h (List.mem_cons_of_mem _ hmem)
      rw [List.cons_append, splitOnce, if_neg hc, splitOnce_append hcs]
      rfl

theorem splitOnce_none : ∀ {cs : List α}, sep ∉ cs → splitOnce sep cs = none
  | [], _ => rfl
  | c :: cs, h => by
      have hc : c ≠ sep := fun heq => h (heq ▸ List.mem_cons_self)
      have hcs : sep ∉ cs := fun hmem => h (List.mem_cons_of_mem _ hmem)
      rw [splitOnce, if_neg hc, splitOnce_none hcs]
      rfl

/-- The pieces between separators; the last of `n` pieces is all that is left. -/
def splitN (sep : α) : (n : Nat) → List α → List (List α)
  | 0, _ => []
  | 1, cs => [cs]
  | n + 2, cs => match splitOnce sep cs with
    | none => [cs]
    | some (piece, rest) => piece :: splitN sep (n + 1) rest

theorem splitN_append {n : Nat} {cs rest : List α} (h : sep ∉ cs) :
    splitN sep (n + 2) (cs ++ sep :: rest) = cs :: splitN sep (n + 1) rest := by
  rw [splitN, splitOnce_append h]

theorem splitN_last {n : Nat} {cs : List α} (h : sep ∉ cs) : splitN sep (n + 1) cs = [cs] := by
  cases n with
  | zero => rfl
  | succ n => rw [splitN, splitOnce_none h]

/-! ## Numerals -/

/-- A numeral is a digit, or the numeral of a smaller number with a digit behind it. -/
theorem toDigits_induct {b : Nat} (hb : 1 < b) {P : Nat → List Char → Prop}
    (hsmall : ∀ d < b, P d [d.digitChar])
    (hstep : ∀ n d cs, 0 < n → d < b → P n cs → P (n * b + d) (cs ++ [d.digitChar])) (n : Nat) :
    P n (Nat.toDigits b n) := by
  induction n using Nat.strongRecOn with
  | ind n ih =>
      by_cases hn : n < b
      · rw [Nat.toDigits_of_lt_base hn]
        exact hsmall n hn
      · have hle := Nat.le_of_not_lt hn
        have hpos : 0 < n / b := Nat.div_pos hle (by omega)
        have hlt : n / b < n := Nat.div_lt_self (by omega) hb
        have h := hstep (n / b) (n % b) _ hpos (Nat.mod_lt n (by omega)) (ih (n / b) hlt)
        rwa [Nat.div_add_mod', ← Nat.toDigits_of_base_le hb hle] at h

/-- So what holds of the digits holds of the characters of a numeral. -/
theorem mem_toDigits {b n : Nat} (hb : 1 < b) {p : Char → Prop}
    (hp : ∀ d < b, p d.digitChar) : ∀ c ∈ Nat.toDigits b n, p c := by
  refine toDigits_induct hb (P := fun _ cs => ∀ c ∈ cs, p c) (fun d hd c hc => ?_)
    (fun n d cs _ hd ih c hc => ?_) n
  · rw [List.mem_singleton.mp hc]
    exact hp d hd
  · obtain hc | hc := List.mem_append.mp hc
    · exact ih c hc
    · rw [List.mem_singleton.mp hc]
      exact hp d hd

theorem isWord_toDigits {b n : Nat} (hb : 1 < b) {p : Char → Bool}
    (hp : ∀ d < b, p d.digitChar = false) : IsWord p (Nat.toDigits b n) :=
  ⟨Nat.toDigits_ne_nil, mem_toDigits hb hp⟩

end Wraith.Lib.Text

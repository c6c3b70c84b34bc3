import Mathlib.Data.List.Basic
import Mathlib.Data.List.TakeWhile

/-! # The tokens of a list

The tokens of a list are its maximal pieces without a separator that are not empty, with the
places where they begin.

* `tokens` — the tokens from left to right; `words` — without their places.
* `tokens_sep`, `tokens_word` — what stands in front: a separator, or a word up to the next one.
* `token_induction` — the induction along the tokens.
* `AreTokens`, `areTokens` — they are the maximal pieces, in their order.
-/

namespace ViOS.Lib

variable {α : Type*} (sep : α → Bool)

/-- The tokens with one more element in front that is no separator: it begins the first of them when that stands
right behind it. -/
def extendToken (place : Int) (c : α) : List (Int × List α) → List (Int × List α)
  | [] => [(place, [c])]
  | (first, word) :: more =>
    if first = place + 1 then (place, c :: word) :: more else (place, [c]) :: (first, word) :: more

/-- The tokens of a list that begins at `place`. -/
def tokens : (place : Int) → List α → List (Int × List α)
  | _, [] => []
  | place, c :: rest =>
    if sep c then tokens (place + 1) rest else extendToken place c (tokens (place + 1) rest)

/-- The tokens without their places. -/
def words (l : List α) : List (List α) := (tokens sep 0 l).map Prod.snd

/-- A maximal piece without a separator that is not empty; `start` elements are in front of it. -/
def IsToken (l : List α) (start : Nat) (word : List α) : Prop :=
  ∃ before behind, l = before ++ (word ++ behind) ∧ before.length = start ∧ word ≠ [] ∧
    (∀ c ∈ word, sep c = false) ∧ (∀ c ∈ before.getLast?, sep c = true) ∧ ∀ c ∈ behind.head?, sep c = true

variable {sep}

/-! ## What stands in front -/

theorem tokens_sep {c : α} (isSep : sep c = true) (place : Int) (rest : List α) :
    tokens sep place (c :: rest) = tokens sep (place + 1) rest := if_pos isSep

theorem extendToken_first {place : Int} {c : α} {l : List (Int × List α)} (behind : ∀ t ∈ l, place < t.1) :
    ∀ t ∈ extendToken place c l, place ≤ t.1 := by
  cases l with
  | nil =>
    intro t member
    have same := congrArg Prod.fst (List.mem_singleton.mp member)
    exact Int.le_of_eq same.symm
  | cons head more =>
    have later : ∀ t ∈ head :: more, place ≤ t.1 := fun t member => Int.le_of_lt (behind t member)
    obtain ⟨first, word⟩ := head
    rw [extendToken]
    by_cases next : first = place + 1
    · rw [if_pos next]
      exact List.forall_mem_cons.mpr ⟨Int.le_refl place, (List.forall_mem_cons.mp later).2⟩
    · rw [if_neg next]
      exact List.forall_mem_cons.mpr ⟨Int.le_refl place, later⟩

theorem tokens_first (place : Int) (l : List α) : ∀ t ∈ tokens sep place l, place ≤ t.1 := by
  induction l generalizing place with
  | nil => exact List.forall_mem_nil _
  | cons c rest ih =>
    unfold tokens
    split
    · exact fun t member => Int.le_trans (Int.le_of_lt (Int.lt_succ place)) (ih (place + 1) t member)
    · exact extendToken_first fun t member => Int.lt_of_add_one_le (ih (place + 1) t member)

/-- A word up to the next separator is the first token. -/
theorem tokens_word {word rest : List α} (some : word ≠ []) (clean : ∀ c ∈ word, sep c = false)
    (behind : ∀ c ∈ rest.head?, sep c = true) (place : Int) :
    tokens sep place (word ++ rest) = (place, word) :: tokens sep (place + word.length) rest := by
  induction word generalizing place with
  | nil => exact absurd rfl some
  | cons c word ih =>
    obtain ⟨first, others⟩ := List.forall_mem_cons.mp clean
    rw [List.cons_append, tokens, if_neg (by rw [first]; exact Bool.false_ne_true)]
    by_cases more : word = []
    · rw [more, List.nil_append, List.length_singleton]
      cases rest with
      | nil => rfl
      | cons d rest =>
        have later : ∀ t ∈ tokens sep (place + 1 + 1) rest, place + 1 + 1 ≤ t.1 := tokens_first (place + 1 + 1) rest
        have one : place + (1 : Nat) = place + 1 := rfl
        rw [tokens_sep (behind d rfl), one, tokens_sep (behind d rfl)]
        revert later
        cases tokens sep (place + 1 + 1) rest with
        | nil => exact fun _ => rfl
        | cons head more =>
          intro later
          have apart := later head List.mem_cons_self
          exact if_neg (by omega)
    · have length : place + 1 + word.length = place + (word.length + 1 : Nat) := by omega
      rw [ih more others, extendToken, if_pos rfl, List.length_cons, length]

/-- The induction along the tokens. -/
theorem token_induction (sep : α → Bool) {motive : List α → Prop} (nil : motive [])
    (separator : ∀ c rest, sep c = true → motive rest → motive (c :: rest))
    (word : ∀ word rest, word ≠ [] → (∀ c ∈ word, sep c = false) → (∀ c ∈ rest.head?, sep c = true) → motive rest →
      motive (word ++ rest)) (l : List α) : motive l := by
  induction length : l.length using Nat.strongRecOn generalizing l with
  | ind n ih =>
    subst length
    cases l with
    | nil => exact nil
    | cons c rest =>
      cases isSep : sep c with
      | true => exact separator c rest isSep (ih rest.length (Nat.lt_succ_self _) rest rfl)
      | false =>
        have split := (List.takeWhile_append_dropWhile (p := fun d => !sep d) (l := rest)).symm
        have short := List.length_dropWhile_le (fun d => !sep d) rest
        have later := ih (rest.dropWhile fun d => !sep d).length (Nat.lt_succ_of_le short) _ rfl
        rw [split]
        refine word (c :: rest.takeWhile fun d => !sep d) _ (List.cons_ne_nil _ _) ?_ ?_ later
        · refine List.forall_mem_cons.mpr ⟨isSep, fun d member => ?_⟩
          exact (Bool.not_eq_true' _).mp (List.mem_takeWhile_imp (p := fun d => !sep d) member)
        · intro d member
          have stopped := List.head?_dropWhile_not (fun d => !sep d) rest
          rw [Option.mem_def.mp member] at stopped
          exact (Bool.not_eq_false' _).mp stopped

/-! ## The maximal pieces -/

theorem isToken_nil {start : Nat} {word : List α} : ¬ IsToken sep [] start word := by
  rintro ⟨before, behind, whole, -, some, -⟩
  exact some (List.append_eq_nil_iff.mp (List.append_eq_nil_iff.mp whole.symm).2).1

theorem isToken_sep {c : α} (isSep : sep c = true) {rest : List α} {start : Nat} {word : List α} :
    IsToken sep (c :: rest) start word ↔ ∃ later, start = later + 1 ∧ IsToken sep rest later word := by
  constructor
  · rintro ⟨before, behind, whole, length, some, clean, ends⟩
    cases before with
    | nil =>
      cases word with
      | nil => exact absurd rfl some
      | cons d word =>
        obtain ⟨rfl, -⟩ := List.cons.inj whole
        exact absurd isSep (by rw [clean c List.mem_cons_self]; exact Bool.false_ne_true)
    | cons d before =>
      obtain ⟨rfl, tail⟩ := List.cons.inj whole
      refine ⟨before.length, length.symm, before, behind, tail, rfl, some, clean, fun e last => ?_, ends.2⟩
      exact ends.1 e (by rw [List.getLast?_cons, Option.mem_def.mp last]; rfl)
  · rintro ⟨later, rfl, before, behind, whole, length, some, clean, ends⟩
    refine ⟨c :: before, behind, congrArg (c :: ·) whole, congrArg (· + 1) length, some, clean, fun e last => ?_, ends.2⟩
    rw [List.getLast?_cons] at last
    cases lastBefore : before.getLast? with
    | none =>
      rw [lastBefore] at last
      cases last
      exact isSep
    | some d =>
      rw [lastBefore] at last
      cases last
      exact ends.1 _ lastBefore

/-- What is in front of the first separator. -/
theorem takeWhile_clean {word rest : List α} (clean : ∀ c ∈ word, sep c = false)
    (behind : ∀ c ∈ rest.head?, sep c = true) : (word ++ rest).takeWhile (fun c => !sep c) = word := by
  rw [List.takeWhile_append_of_pos fun c member => (Bool.not_eq_true' _).mpr (clean c member)]
  cases rest with
  | nil => rw [List.takeWhile_nil, List.append_nil]
  | cons d rest => rw [List.takeWhile_cons_of_neg (by rw [behind d rfl]; decide), List.append_nil]

theorem isToken_word {first rest : List α} (someFirst : first ≠ []) (cleanFirst : ∀ c ∈ first, sep c = false)
    (isSep : ∀ c ∈ rest.head?, sep c = true) {start : Nat} {word : List α} :
    IsToken sep (first ++ rest) start word ↔
      start = 0 ∧ word = first ∨ ∃ later, start = first.length + later ∧ IsToken sep rest later word := by
  constructor
  · rintro ⟨before, behind, whole, length, some, clean, ends⟩
    rcases List.append_eq_append_iff.mp whole with ⟨between, rfl, tail⟩ | ⟨between, here, tail⟩
    · refine .inr ⟨between.length, by rw [← length, List.length_append], between, behind, tail, rfl, some, clean,
        fun c last => ?_, ends.2⟩
      exact ends.1 c (by rw [List.getLast?_append, Option.mem_def.mp last]; rfl)
    · rcases List.eq_nil_or_concat' before with rfl | ⟨front, last, rfl⟩
      · refine .inl ⟨length.symm, ?_⟩
        rw [List.nil_append] at here
        rw [← takeWhile_clean clean ends.2, tail, ← here, takeWhile_clean cleanFirst isSep]
      · have inFirst : last ∈ first := by
          rw [here]
          exact List.mem_append_left _ (List.mem_append_right _ List.mem_cons_self)
        have lastSep := ends.1 last (by rw [List.getLast?_concat]; rfl)
        exact absurd ((cleanFirst last inFirst).symm.trans lastSep) Bool.false_ne_true
  · rintro (⟨rfl, rfl⟩ | ⟨later, rfl, before, behind, whole, length, some, clean, ends⟩)
    · exact ⟨[], rest, rfl, rfl, someFirst, cleanFirst, (fun c last => by cases last), isSep⟩
    · refine ⟨first ++ before, behind, by rw [whole, List.append_assoc], by rw [List.length_append, length], some,
        clean, fun c last => ?_, ends.2⟩
      rcases List.eq_nil_or_concat' before with rfl | ⟨front, d, rfl⟩
      · -- the rest begins with a separator, so no word begins with it
        cases word with
        | nil => exact absurd rfl some
        | cons d word =>
          have headSep := isSep d (by rw [whole]; rfl)
          exact absurd ((clean d List.mem_cons_self).symm.trans headSep) Bool.false_ne_true
      · rw [← List.append_assoc, List.getLast?_concat] at last
        exact ends.1 c (by rw [List.getLast?_concat]; exact last)

/-- The tokens are the maximal pieces. -/
theorem mem_tokens_iff {place first : Int} {l word : List α} :
    (first, word) ∈ tokens sep place l ↔ ∃ start : Nat, first = place + start ∧ IsToken sep l start word := by
  induction l using token_induction sep generalizing place with
  | nil =>
    refine ⟨fun member => absurd member List.not_mem_nil, ?_⟩
    rintro ⟨start, -, token⟩
    exact absurd token isToken_nil
  | separator c rest isSep ih =>
    rw [tokens_sep isSep, ih]
    constructor
    · rintro ⟨start, rfl, token⟩
      exact ⟨start + 1, by omega, (isToken_sep isSep).mpr ⟨start, rfl, token⟩⟩
    · rintro ⟨start, rfl, token⟩
      obtain ⟨later, rfl, tail⟩ := (isToken_sep isSep).mp token
      exact ⟨later, by omega, tail⟩
  | word head rest some clean behind ih =>
    rw [tokens_word some clean behind, List.mem_cons, ih]
    constructor
    · rintro (here | ⟨start, rfl, token⟩)
      · obtain ⟨rfl, rfl⟩ := Prod.mk.inj here
        exact ⟨0, by omega, (isToken_word some clean behind).mpr (.inl ⟨rfl, rfl⟩)⟩
      · exact ⟨head.length + start, by omega, (isToken_word some clean behind).mpr (.inr ⟨start, rfl, token⟩)⟩
    · rintro ⟨start, rfl, token⟩
      rcases (isToken_word some clean behind).mp token with ⟨rfl, rfl⟩ | ⟨later, rfl, tail⟩
      · exact .inl (Prod.ext (Int.add_zero place) rfl)
      · exact .inr ⟨later, by omega, tail⟩

/-- They come in their order. -/
theorem tokens_sorted (place : Int) (l : List α) :
    (tokens sep place l).Pairwise fun token later => token.1 + (token.2.length : Int) ≤ later.1 := by
  induction l using token_induction sep generalizing place with
  | nil => exact List.Pairwise.nil
  | separator c rest isSep ih =>
    rw [tokens_sep isSep]
    exact ih (place + 1)
  | word head rest some clean behind ih =>
    rw [tokens_word some clean behind]
    exact List.Pairwise.cons (tokens_first _ rest) (ih _)

/-- A list of the maximal pieces and their places, in order. -/
structure AreTokens (sep : α → Bool) (place : Int) (l : List α) (found : List (Int × List α)) : Prop where
  exact : ∀ first word, (first, word) ∈ found ↔ ∃ start : Nat, first = place + start ∧ IsToken sep l start word
  ordered : found.Pairwise fun token later => token.1 + (token.2.length : Int) ≤ later.1

theorem areTokens (sep : α → Bool) (place : Int) (l : List α) : AreTokens sep place l (tokens sep place l) :=
  ⟨fun _ _ => mem_tokens_iff, tokens_sorted place l⟩

end ViOS.Lib

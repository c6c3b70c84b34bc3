import Mathlib.Data.List.Basic
import Mathlib.Data.List.Nodup

/-! # Bubble sort

Two neighbours are swapped when the first is greater than the second.  `greater`
is a strict weak order: asymmetric, and "not greater" is transitive.

* `bubblePass`, `bubbleSort` — the inner and the outer loop.
* `bubbleSort_perm`, `bubbleSort_pairwise`, `bubbleSort_sublist` — the result is a
  sorted permutation, and a sublist that was in order stays a sublist.
* `before_bubbleSort_iff` — the order of two elements of the result.
-/

namespace ViOS.Lib

open scoped List

variable {α : Type*} (greater : α → α → Bool)

/-- The inner loop: `n` comparisons from the front on. -/
def bubblePass : Nat → List α → List α
  | n + 1, a :: b :: rest =>
    if greater a b then b :: bubblePass n (a :: rest) else a :: bubblePass n (b :: rest)
  | _, l => l

/-- The outer loop: round `i` leaves the last `i` elements alone. -/
def bubbleSort (l : List α) : List α :=
  (List.range (l.length - 1)).foldl (fun l i => bubblePass greater (l.length - i - 1) l) l

variable {greater}

/-! ## One pass -/

theorem bubblePass_perm (n : Nat) (l : List α) : bubblePass greater n l ~ l := by
  fun_induction bubblePass greater n l with
  | case1 n a b rest swap ih => exact (ih.cons b).trans (.swap a b rest)
  | case2 n a b rest keep ih => exact ih.cons a
  | case3 n l => exact .refl l

/-- A sublist that is in order is never torn apart: a swap exchanges two elements that are not. -/
theorem bubblePass_sublist (n : Nat) (l : List α) {c : List α}
    (ordered : c.Pairwise fun a b => ¬ greater a b) (sub : c <+ l) :
    c <+ bubblePass greater n l := by
  fun_induction bubblePass greater n l generalizing c with
  | case1 n a b rest swap ih =>
    cases sub with
    | cons _ sub =>
      cases sub with
      | cons _ sub => exact .cons b (ih ordered (.cons a sub))
      | cons_cons _ sub => exact .cons_cons b (ih ordered.tail (.cons a sub))
    | cons_cons _ sub =>
      cases sub with
      | cons _ sub => exact .cons b (ih ordered (.cons_cons a sub))
      | cons_cons _ sub =>
        exact absurd swap ((List.pairwise_cons.mp ordered).1 b List.mem_cons_self)
  | case2 n a b rest keep ih =>
    cases sub with
    | cons _ sub => exact .cons a (ih ordered sub)
    | cons_cons _ sub => exact .cons_cons a (ih ordered.tail sub)
  | case3 n l => exact sub

theorem bubblePass_append (n : Nat) {front : List α} (short : n < front.length) (back : List α) :
    bubblePass greater n (front ++ back) = bubblePass greater n front ++ back := by
  induction n generalizing front with
  | zero => simp [bubblePass]
  | succ n ih =>
    match front with
    | [] => simp at short
    | [a] => simp at short
    | a :: b :: rest =>
      have shorter : n < (b :: rest).length := by simpa using short
      have first := ih shorter
      have swapped := ih (show n < (a :: rest).length from shorter)
      simp only [List.cons_append] at first swapped
      simp only [List.cons_append, bubblePass, first, swapped]
      split <;> rfl

section Order

variable (asymm : ∀ a b, greater a b → ¬ greater b a)
  (trans : ∀ a b c, ¬ greater a b → ¬ greater b c → ¬ greater a c)

include asymm trans

/-- A pass over the whole list ends with an element that none is greater than. -/
theorem bubblePass_last (n : Nat) {front : List α} (whole : front.length = n + 1) :
    ∃ init last, bubblePass greater n front = init ++ [last] ∧
      ∀ x ∈ init, ¬ greater x last := by
  induction n generalizing front with
  | zero =>
    obtain ⟨a, rfl⟩ := List.length_eq_one_iff.mp whole
    exact ⟨[], a, rfl, by simp⟩
  | succ n ih =>
    match front with
    | [] => simp at whole
    | [a] => simp at whole
    | a :: b :: rest =>
      -- The smaller of the two stays, the greater one is carried on.
      have carry : ∀ kept carried, ¬ greater kept carried →
          ∃ init last, kept :: bubblePass greater n (carried :: rest) = init ++ [last] ∧
            ∀ x ∈ init, ¬ greater x last := by
        intro kept carried smaller
        obtain ⟨init, last, pass, top⟩ :=
          ih (show (carried :: rest).length = n + 1 by simpa using whole)
        have among : carried ∈ init ++ [last] :=
          pass ▸ (bubblePass_perm n (carried :: rest)).mem_iff.mpr List.mem_cons_self
        have below : ¬ greater carried last := by
          rcases List.mem_append.mp among with inInit | isLast
          · exact top carried inInit
          · rw [List.mem_singleton.mp isLast]
            exact fun self => asymm last last self self
        refine ⟨kept :: init, last, by rw [pass, List.cons_append], ?_⟩
        simp only [List.mem_cons, forall_eq_or_imp]
        exact ⟨trans kept carried last smaller below, top⟩
      simp only [bubblePass]
      split
      next swap => exact carry b a (asymm a b swap)
      next keep => exact carry a b keep

end Order

/-! ## The whole sort -/

/-- The first rounds of the outer loop. -/
def bubbleRounds (greater : α → α → Bool) (rounds : Nat) (l : List α) : List α :=
  (List.range rounds).foldl (fun l i => bubblePass greater (l.length - i - 1) l) l

theorem bubbleRounds_succ (rounds : Nat) (l : List α) :
    bubbleRounds greater (rounds + 1) l =
      bubblePass greater ((bubbleRounds greater rounds l).length - rounds - 1)
        (bubbleRounds greater rounds l) := by
  rw [bubbleRounds, List.range_succ, List.foldl_append]
  rfl

theorem bubbleRounds_perm (rounds : Nat) (l : List α) : bubbleRounds greater rounds l ~ l := by
  induction rounds with
  | zero => exact .refl l
  | succ rounds ih =>
    rw [bubbleRounds_succ]
    exact (bubblePass_perm _ _).trans ih

theorem bubbleSort_perm (l : List α) : bubbleSort greater l ~ l :=
  bubbleRounds_perm (l.length - 1) l

theorem bubbleSort_sublist (l : List α) {c : List α}
    (ordered : c.Pairwise fun a b => ¬ greater a b) (sub : c <+ l) :
    c <+ bubbleSort greater l := by
  have rounds : ∀ rounds, c <+ bubbleRounds greater rounds l := by
    intro rounds
    induction rounds with
    | zero => exact sub
    | succ rounds ih =>
      rw [bubbleRounds_succ]
      exact bubblePass_sublist _ _ ordered ih
  exact rounds (l.length - 1)

/-- A list that is in order stays as it is. -/
theorem bubbleSort_eq_self {l : List α} (ordered : l.Pairwise fun a b => ¬ greater a b) :
    bubbleSort greater l = l :=
  ((bubbleSort_sublist l ordered (.refl l)).eq_of_length (bubbleSort_perm l).length_eq.symm).symm

section Order

variable (asymm : ∀ a b, greater a b → ¬ greater b a)
  (trans : ∀ a b c, ¬ greater a b → ¬ greater b c → ¬ greater a c)

include asymm trans

/-- After some rounds as many elements stand sorted at the end, and none before them is greater. -/
theorem bubbleRounds_sorted (l : List α) (rounds : Nat) (inside : rounds < l.length) :
    ∃ front back, bubbleRounds greater rounds l = front ++ back ∧ back.length = rounds ∧
      back.Pairwise (fun a b => ¬ greater a b) ∧ ∀ a ∈ front, ∀ b ∈ back, ¬ greater a b := by
  induction rounds with
  | zero => exact ⟨l, [], by simp [bubbleRounds], rfl, .nil, by simp⟩
  | succ rounds ih =>
    obtain ⟨front, back, split, size, sorted, below⟩ := ih (by omega)
    have length : front.length + rounds = l.length := by
      rw [← size, ← List.length_append, ← split, (bubbleRounds_perm rounds l).length_eq]
    obtain ⟨init, last, pass, top⟩ := bubblePass_last asymm trans (front.length - 1)
      (show front.length = front.length - 1 + 1 by omega)
    have among : ∀ a ∈ init ++ [last], a ∈ front := fun a member =>
      (bubblePass_perm _ _).mem_iff.mp (pass ▸ member)
    refine ⟨init, last :: back, ?_, by simp [size], ?_, ?_⟩
    · have count : (front ++ back).length - rounds - 1 = front.length - 1 := by
        rw [List.length_append, size]
        omega
      rw [bubbleRounds_succ, split, count, bubblePass_append _ (by omega), pass,
        List.append_assoc, List.singleton_append]
    · exact List.pairwise_cons.mpr ⟨below last (among last (by simp)), sorted⟩
    · intro a inInit b inBack
      cases List.mem_cons.mp inBack with
      | inl isLast => exact isLast ▸ top a inInit
      | inr later => exact below a (among a (List.mem_append_left _ inInit)) b later

theorem bubbleSort_pairwise (l : List α) :
    (bubbleSort greater l).Pairwise fun a b => ¬ greater a b := by
  cases empty : l.length with
  | zero =>
    rw [List.length_eq_zero_iff.mp empty]
    exact .nil
  | succ n =>
    obtain ⟨front, back, split, size, sorted, below⟩ :=
      bubbleRounds_sorted asymm trans l (l.length - 1) (by omega)
    have length : front.length = 1 := by
      have := (@bubbleRounds_perm _ greater (l.length - 1) l).length_eq
      rw [split, List.length_append] at this
      omega
    obtain ⟨a, rfl⟩ := List.length_eq_one_iff.mp length
    rw [bubbleSort, ← bubbleRounds, split]
    exact List.pairwise_cons.mpr ⟨below a List.mem_cons_self, sorted⟩

end Order

/-! ## Sorting images -/

theorem bubblePass_map {β : Type*} (f : β → α) (n : Nat) (l : List β) :
    bubblePass greater n (l.map f) = (bubblePass (fun a b => greater (f a) (f b)) n l).map f := by
  induction n generalizing l with
  | zero => simp [bubblePass]
  | succ n ih =>
    match l with
    | [] => rfl
    | [a] => rfl
    | a :: b :: rest =>
      have kept := ih (b :: rest)
      have swapped := ih (a :: rest)
      simp only [List.map_cons] at kept swapped ⊢
      simp only [bubblePass, kept, swapped]
      split <;> rfl

theorem bubbleRounds_map {β : Type*} (f : β → α) (rounds : Nat) (l : List β) :
    bubbleRounds greater rounds (l.map f) = (bubbleRounds (fun a b => greater (f a) (f b)) rounds l).map f := by
  induction rounds with
  | zero => rfl
  | succ rounds ih => rw [bubbleRounds_succ, bubbleRounds_succ, ih, List.length_map, bubblePass_map]

/-- Elements that are compared by an image are sorted as their images are. -/
theorem bubbleSort_map {β : Type*} (f : β → α) (l : List β) :
    bubbleSort greater (l.map f) = (bubbleSort (fun a b => greater (f a) (f b)) l).map f := by
  have rounds := @bubbleRounds_map _ greater _ f (l.length - 1) l
  rw [← List.length_map f] at rounds
  exact rounds.trans (by rw [List.length_map]; rfl)

/-! ## The order of two elements -/

theorem before_or_before {l : List α} {a b : α} (inA : a ∈ l) (inB : b ∈ l) (apart : a ≠ b) :
    [a, b] <+ l ∨ [b, a] <+ l := by
  induction l with
  | nil => simp at inA
  | cons c l ih =>
    rcases List.mem_cons.mp inA with rfl | laterA
    · exact .inl (.cons_cons a (List.singleton_sublist.mpr
        (List.mem_of_ne_of_mem (Ne.symm apart) inB)))
    · rcases List.mem_cons.mp inB with rfl | laterB
      · exact .inr (.cons_cons b (List.singleton_sublist.mpr laterA))
      · exact (ih laterA laterB).imp (.cons c) (.cons c)

theorem not_before_of_before {l : List α} (nodup : l.Nodup) {a b : α} (before : [a, b] <+ l) :
    ¬ [b, a] <+ l := by
  induction l with
  | nil => simp
  | cons c l ih =>
    obtain ⟨fresh, nodup⟩ := List.nodup_cons.mp nodup
    intro after
    cases before with
    | cons _ before =>
      cases after with
      | cons _ after => exact ih nodup before after
      | cons_cons _ after => exact fresh (before.subset (by simp))
    | cons_cons _ before =>
      cases after with
      | cons _ after => exact fresh (after.subset (by simp))
      | cons_cons _ after => exact fresh (after.subset (by simp))

/-- The greater of two elements comes last; two that compare neither way keep their order. -/
theorem before_bubbleSort_iff (asymm : ∀ a b, greater a b → ¬ greater b a)
    (trans : ∀ a b c, ¬ greater a b → ¬ greater b c → ¬ greater a c) {l : List α}
    (nodup : l.Nodup) {a b : α} (inA : a ∈ l) (inB : b ∈ l) (apart : a ≠ b) :
    [a, b] <+ bubbleSort greater l ↔ greater b a ∨ (¬ greater a b ∧ [a, b] <+ l) := by
  have perm := @bubbleSort_perm _ greater l
  have nodupSort := perm.nodup_iff.mpr nodup
  have sorted := bubbleSort_pairwise asymm trans l
  have ordered : ∀ {x y}, [x, y] <+ bubbleSort greater l → ¬ greater x y := fun before =>
    (List.pairwise_cons.mp (sorted.sublist before)).1 _ List.mem_cons_self
  constructor
  · intro before
    by_cases less : greater b a
    · exact .inl less
    · refine .inr ⟨ordered before, ?_⟩
      rcases before_or_before inA inB apart with same | other
      · exact same
      · have kept := bubbleSort_sublist l (List.pairwise_pair.mpr less) other
        exact absurd kept (not_before_of_before nodupSort before)
  · rintro (less | ⟨notLess, before⟩)
    · have inSort := before_or_before (perm.mem_iff.mpr inA) (perm.mem_iff.mpr inB) apart
      exact inSort.resolve_right fun after => ordered after less
    · exact bubbleSort_sublist l (List.pairwise_pair.mpr notLess) before

end ViOS.Lib

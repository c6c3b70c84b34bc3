import ViOS.Config
import ViOS.Lib.Decimal
import Mathlib.Logic.Function.Basic
import Mathlib.Tactic.Ring

/-! # `itoa` and `atoi`

`itoa` writes the digits of a negated number backwards into a static buffer; the kernel has the
same function.  `atoi` adds digits up in an `int` that wraps, and applies the sign at the end.
A string is what memory shows from a place up to a NUL.

* `itoa`, `atoi` — the code.
* `ShowsString` — a string in memory.
* `IsNumeral` — the canonical decimal numeral of a number.
* `itoa_atoi` — the numeral is written inside the buffer and read back.
-/

namespace ViOS.User

open ViOS.Lib

/-! ## The code -/

/-- The static `text` of `itoa` with `loc`, and the places that were written. -/
structure ItoaText where
  text : Int → UInt8
  loc : Int
  writes : List Int

/-- `text[--loc] = c`. -/
def ItoaText.push (buffer : ItoaText) (c : UInt8) : ItoaText where
  text := Function.update buffer.text (buffer.loc - 1) c
  loc := buffer.loc - 1
  writes := buffer.writes ++ [buffer.loc - 1]

/-- The loop of `itoa`. -/
def itoaLoop (i : Int) (buffer : ItoaText) : ItoaText :=
  if i = 0 then buffer else itoaLoop (i.tdiv 10) (buffer.push (.ofInt (48 - i.tmod 10)))
termination_by i.natAbs
decreasing_by
  rw [Int.natAbs_tdiv]
  exact Nat.div_lt_self (by omega) (by decide)

/-- The buffer with its NUL. -/
def ItoaText.empty (text : Int → UInt8) : ItoaText := ⟨Function.update text 11 0, 11, [11]⟩

/-- The digits of a number that is not positive, of which zero has one. -/
def itoaDigits (i : Int) (buffer : ItoaText) : ItoaText :=
  let buffer := itoaLoop i buffer
  if buffer.loc = 11 then buffer.push 48 else buffer

/-- `itoa`; the string it returns is at `loc`. -/
def itoa (text : Int → UInt8) (i : Int) : ItoaText :=
  if 0 ≤ i then itoaDigits (toInt32 (-i)) (.empty text) else (itoaDigits i (.empty text)).push 45

/-- A blank, as `atoi` skips it. -/
def isBlank (c : UInt8) : Bool := c = 32 ∨ c = 9 ∨ c = 10

def isDigit (c : UInt8) : Bool := 48 ≤ c ∧ c ≤ 57

/-- The sign at the beginning of a string, and what is behind it. -/
def atoiSign (str : List UInt8) : Int × List UInt8 :=
  if str.head? = some 45 then (-1, str.tail)
  else if str.head? = some 43 then (1, str.tail)
  else (1, str)

/-- The loop of `atoi` over the digits. -/
def atoiDigits (result : Int) : List UInt8 → Int
  | [] => result
  | c :: rest =>
    if isDigit c then atoiDigits (toInt32 (toInt32 (result * 10) + (c.toNat - 48))) rest else result

/-- `atoi` of the bytes before the NUL. -/
def atoi (str : List UInt8) : Int :=
  let (sign, str) := atoiSign (str.dropWhile isBlank)
  toInt32 (sign * atoiDigits 0 str)

/-! ## Numerals -/

/-- The character of a digit. -/
def digitChar (digit : Nat) : UInt8 := .ofNat (48 + digit)

/-- The memory shows the string from the place on, with its NUL. -/
structure ShowsString (memory : Int → UInt8) (place : Int) (string : List UInt8) : Prop where
  shows : ∀ k (inside : k < string.length), memory (place + k) = string[k]
  terminated : memory (place + string.length) = 0
  noNul : ∀ c ∈ string, c ≠ 0

section Shown

variable {memory : Int → UInt8} {p : Int} {string : List UInt8}

theorem ShowsString.head {c : UInt8} (shown : ShowsString memory p (c :: string)) : memory p = c := by
  have first := shown.shows 0 (Nat.zero_lt_succ _)
  rwa [Nat.cast_zero, Int.add_zero] at first

theorem ShowsString.tail {c : UInt8} (shown : ShowsString memory p (c :: string)) : ShowsString memory (p + 1) string where
  shows k inside := by
    have here := shown.shows (k + 1) (Nat.succ_lt_succ inside)
    rwa [Nat.cast_succ, Int.add_comm (k : Int), ← Int.add_assoc, List.getElem_cons_succ] at here
  terminated := by
    have here := shown.terminated
    rwa [List.length_cons, Nat.cast_succ, Int.add_comm (string.length : Int), ← Int.add_assoc] at here
  noNul := (List.forall_mem_cons.mp shown.noNul).2

theorem ShowsString.nul (shown : ShowsString memory p []) : memory p = 0 := by
  have here := shown.terminated
  rwa [List.length_nil, Nat.cast_zero, Int.add_zero] at here

theorem ShowsString.cons {c : UInt8} (here : memory p = c) (isChar : c ≠ 0)
    (shown : ShowsString memory (p + 1) string) : ShowsString memory p (c :: string) where
  shows k inside := by
    cases k with
    | zero => rwa [Nat.cast_zero, Int.add_zero, List.getElem_cons_zero]
    | succ k =>
      have place : p + (k + 1 : Nat) = p + 1 + k := by omega
      rw [place, List.getElem_cons_succ]
      exact shown.shows k (Nat.lt_of_succ_lt_succ inside)
  terminated := by
    have place : p + (string.length + 1 : Nat) = p + 1 + string.length := by omega
    rw [List.length_cons, place]
    exact shown.terminated
  noNul := List.forall_mem_cons.mpr ⟨isChar, shown.noNul⟩

theorem ShowsString.congr {memory' : Int → UInt8} (same : ∀ place, p ≤ place → memory' place = memory place)
    (shown : ShowsString memory p string) : ShowsString memory' p string where
  shows k inside := (same _ (by omega)).trans (shown.shows k inside)
  terminated := (same _ (by omega)).trans shown.terminated
  noNul := shown.noNul

theorem showsString_nil (nul : memory p = 0) : ShowsString memory p [] where
  shows k inside := absurd inside (Nat.not_lt_zero k)
  terminated := by rwa [List.length_nil, Nat.cast_zero, Int.add_zero]
  noNul := List.forall_mem_nil _

/-- A place shows one string at most. -/
theorem ShowsString.unique {other : List UInt8} (shown : ShowsString memory p string)
    (again : ShowsString memory p other) : string = other := by
  induction string generalizing p other with
  | nil =>
    cases other with
    | nil => rfl
    | cons c other => exact absurd (again.head.symm.trans shown.nul) (again.noNul c List.mem_cons_self)
  | cons c string ih =>
    have isChar := shown.noNul c List.mem_cons_self
    cases other with
    | nil => exact absurd (shown.head.symm.trans again.nul) isChar
    | cons d other => rw [ih shown.tail again.tail, shown.head.symm.trans again.head]

end Shown

/-- A memory with a string at 0. -/
def memoryOf (string : List UInt8) (place : Int) : UInt8 := string.getD place.toNat 0

theorem memoryOf_shows {string : List UInt8} (noNul : ∀ c ∈ string, c ≠ 0) : ShowsString (memoryOf string) 0 string where
  shows k inside := by
    simp [memoryOf, inside]
  terminated := by
    simp [memoryOf]
  noNul := noNul

/-- The sign in front of the digits of a number. -/
def signChars (i : Int) : List UInt8 := if i < 0 then [45] else []

/-- A minus sign just for a negative number, then the digits of its absolute value, of which the first is only
zero when there is no other. -/
def IsNumeral (i : Int) (string : List UInt8) : Prop :=
  ∃ digits : List Nat, string = signChars i ++ digits.map digitChar ∧ digits ≠ [] ∧ (∀ digit ∈ digits, digit < 10) ∧
    decimalValue digits = i.natAbs ∧ (digits.head? = some 0 → digits = [0])

/-- The numeral of a number. -/
def numeral (i : Int) : List UInt8 := signChars i ++ (decimal i.natAbs).map digitChar

theorem isNumeral_numeral (i : Int) : IsNumeral i (numeral i) := by
  refine ⟨decimal i.natAbs, rfl, decimal_ne_nil _, decimal_lt _, decimalValue_decimal _, fun leading => ?_⟩
  rw [decimal_head leading]
  rfl

theorem digitChar_toNat {digit : Nat} (small : digit < 10) : (digitChar digit).toNat = 48 + digit := by
  rw [digitChar, UInt8.toNat_ofNat']
  omega

theorem digitChar_ne_zero {digit : Nat} (small : digit < 10) : digitChar digit ≠ 0 := by
  intro zero
  have value := digitChar_toNat small
  rw [zero, UInt8.toNat_zero] at value
  omega

theorem isDigit_digitChar {digit : Nat} (small : digit < 10) : isDigit (digitChar digit) = true := by
  have value := digitChar_toNat small
  rw [isDigit, decide_eq_true_iff, UInt8.le_iff_toNat_le, UInt8.le_iff_toNat_le, value]
  exact ⟨Nat.le_add_right 48 digit, show 48 + digit ≤ 57 by omega⟩

/-! ## Writing a numeral -/

section Writing

variable {buffer : ItoaText} {string : List UInt8}

theorem ItoaText.push_loc (buffer : ItoaText) (c : UInt8) : (buffer.push c).loc = buffer.loc - 1 := rfl

theorem ShowsString.push (shown : ShowsString buffer.text buffer.loc string) {c : UInt8} (isChar : c ≠ 0) :
    ShowsString (buffer.push c).text (buffer.push c).loc (c :: string) := by
  refine ShowsString.cons (Function.update_self ..) isChar ?_
  rw [ItoaText.push_loc, Int.sub_add_cancel]
  exact shown.congr fun place behind => Function.update_of_ne (by omega) _ _

/-- The writes lie between the first character and the end of the buffer. -/
def ItoaText.WritesInside (buffer : ItoaText) : Prop := ∀ place ∈ buffer.writes, buffer.loc ≤ place ∧ place < 12

theorem ItoaText.WritesInside.push (inside : buffer.WritesInside) (below : buffer.loc ≤ 12) (c : UInt8) :
    (buffer.push c).WritesInside := by
  intro place member
  rcases List.mem_append.mp member with before | last
  · have := inside place before
    exact ⟨show buffer.loc - 1 ≤ place by omega, this.2⟩
  · rw [List.mem_singleton.mp last]
    exact ⟨Int.le_refl _, by omega⟩

theorem itoaLoop_step {n : Nat} (positive : 0 < n) (buffer : ItoaText) :
    itoaLoop (-n) buffer = itoaLoop (-(n / 10 : Nat)) (buffer.push (digitChar (n % 10))) := by
  have quotient : (-n : Int).tdiv 10 = -(n / 10 : Nat) := by rw [Int.neg_tdiv]; rfl
  have remainder : (-n : Int).tmod 10 = -(n % 10 : Nat) := by rw [Int.neg_tmod]; rfl
  have char : UInt8.ofInt (48 - -(n % 10 : Nat)) = digitChar (n % 10) := by
    rw [UInt8.ofInt, digitChar]
    congr 1
    omega
  conv_lhs => rw [itoaLoop]
  rw [if_neg (by omega), quotient, remainder, char]

/-- The loop puts the digits in front of what is there. -/
theorem itoaLoop_shows {n : Nat} (positive : 0 < n) (shown : ShowsString buffer.text buffer.loc string)
    (inside : buffer.WritesInside) (below : buffer.loc ≤ 12) :
    ShowsString (itoaLoop (-n) buffer).text (itoaLoop (-n) buffer).loc ((decimal n).map digitChar ++ string) ∧
      (itoaLoop (-n) buffer).loc = buffer.loc - (decimal n).length ∧ (itoaLoop (-n) buffer).WritesInside := by
  induction n using decimal_induction generalizing buffer string with
  | digit n small =>
    have pushed := shown.push (digitChar_ne_zero (Nat.mod_lt n (show 0 < 10 by decide)))
    rw [itoaLoop_step positive, Nat.div_eq_of_lt small, Nat.cast_zero, Int.neg_zero, itoaLoop, if_pos rfl,
      decimal_of_lt small]
    rw [Nat.mod_eq_of_lt small] at pushed ⊢
    exact ⟨pushed, rfl, inside.push below _⟩
  | more n large ih =>
    have pushed := shown.push (digitChar_ne_zero (Nat.mod_lt n (show 0 < 10 by decide)))
    have lower := buffer.push_loc (digitChar (n % 10))
    obtain ⟨shows, loc, writes⟩ := ih (Nat.div_pos large (by decide)) pushed (inside.push below _) (by omega)
    rw [itoaLoop_step positive, decimal_eq_append large, List.map_append, List.append_assoc, List.length_append,
      List.length_singleton]
    refine ⟨shows, ?_, writes⟩
    rw [loc, lower]
    omega

end Writing

theorem int_length_le {i : Int} (lower : -2 ^ 31 ≤ i) (upper : i < 2 ^ 31) : (decimal i.natAbs).length ≤ 10 :=
  decimal_length_le (show i.natAbs < 10 ^ 10 by omega)

theorem itoaDigits_shows (text : Int → UInt8) (n : Nat) :
    ShowsString (itoaDigits (-n) (.empty text)).text (itoaDigits (-n) (.empty text)).loc
        ((decimal n).map digitChar) ∧
      (itoaDigits (-n) (.empty text)).loc = 11 - (decimal n).length ∧
      (itoaDigits (-n) (.empty text)).WritesInside := by
  have shown : ShowsString (ItoaText.empty text).text (ItoaText.empty text).loc [] :=
    ⟨fun k inside => absurd inside (Nat.not_lt_zero k), Function.update_self (11 : Int) 0 text, List.forall_mem_nil _⟩
  have inside : (ItoaText.empty text).WritesInside := by
    intro place member
    rw [List.mem_singleton.mp member]
    exact ⟨Int.le_refl 11, by decide⟩
  have loc : (ItoaText.empty text).loc = 11 := rfl
  unfold itoaDigits
  rcases Nat.eq_zero_or_pos n with zero | positive
  · have none : itoaLoop 0 (.empty text) = .empty text := by rw [itoaLoop, if_pos rfl]
    rw [zero, Nat.cast_zero, Int.neg_zero, none, decimal_of_lt (by decide)]
    dsimp only
    rw [if_pos loc]
    exact ⟨shown.push (by decide), rfl, inside.push (by omega) 48⟩
  · obtain ⟨shows, locAfter, writes⟩ := itoaLoop_shows positive shown inside (by omega)
    have someDigit := List.length_pos_iff.mpr (decimal_ne_nil n)
    rw [List.append_nil] at shows
    dsimp only
    rw [if_neg (by omega)]
    exact ⟨shows, locAfter, writes⟩

/-- The numeral of an `int` is written inside the buffer. -/
theorem itoa_shows (text : Int → UInt8) {i : Int} (lower : -2 ^ 31 ≤ i) (upper : i < 2 ^ 31) :
    ShowsString (itoa text i).text (itoa text i).loc (numeral i) ∧
      ∀ place ∈ (itoa text i).writes, 0 ≤ place ∧ place < 12 := by
  have short := int_length_le lower upper
  obtain ⟨shows, loc, writes⟩ := itoaDigits_shows text i.natAbs
  unfold itoa numeral signChars
  by_cases nonneg : 0 ≤ i
  · have negated : toInt32 (-i) = -(i.natAbs : Int) := by
      unfold toInt32
      omega
    rw [if_pos nonneg, if_neg (by omega), negated]
    exact ⟨shows, fun place member => ⟨by have := writes place member; omega, (writes place member).2⟩⟩
  · have negated : i = -(i.natAbs : Int) := by omega
    rw [if_neg nonneg, if_pos (by omega)]
    rw [← negated] at shows loc writes
    refine ⟨shows.push (by decide), fun place member => ?_⟩
    have inside := writes.push (by omega) 45 place member
    rw [ItoaText.push_loc] at inside
    exact ⟨by omega, inside.2⟩

/-! ## Reading a numeral -/

theorem toInt32_wraps (value : Int) : ∃ turns, toInt32 value = value + 2 ^ 32 * turns := by
  refine ⟨-((value + 2 ^ 31) / 2 ^ 32), ?_⟩
  unfold toInt32
  omega

theorem toInt32_add_turns (value turns : Int) : toInt32 (value + 2 ^ 32 * turns) = toInt32 value := by
  rw [toInt32, Int.add_right_comm, Int.add_mul_emod_self_left]
  rfl

section Wraps

variable {wrap : Int → Int} {modulus : Int} (wraps : ∀ value, ∃ turns, wrap value = value + modulus * turns)
  (addTurns : ∀ value turns, wrap (value + modulus * turns) = wrap value)
include wraps addTurns

theorem wrap_mul (factor value : Int) : wrap (factor * wrap value) = wrap (factor * value) := by
  obtain ⟨turns, here⟩ := wraps value
  have total : factor * wrap value = factor * value + modulus * (factor * turns) := by
    rw [here]
    ring
  rw [total, addTurns]

/-- One digit more, with every step wrapped. -/
theorem wrap_digit (value digit : Int) : wrap (wrap (wrap value * 10) + digit) = wrap (value * 10 + digit) := by
  obtain ⟨first, before⟩ := wraps value
  obtain ⟨second, product⟩ := wraps (wrap value * 10)
  have total : wrap (wrap value * 10) + digit = value * 10 + digit + modulus * (first * 10 + second) := by
    rw [product, before]
    ring
  rw [total, addTurns]

end Wraps

/-- The digits are added up in an `int` that wraps; what is behind them is not read. -/
theorem atoiDigits_eq {digits : List Nat} (small : ∀ digit ∈ digits, digit < 10) {rest : List UInt8}
    (behind : ∀ c ∈ rest.head?, isDigit c = false) (value : Nat) :
    atoiDigits (toInt32 value) (digits.map digitChar ++ rest) =
      toInt32 (digits.foldl (fun value digit => value * 10 + digit) value : Nat) := by
  induction digits generalizing value with
  | nil =>
    rw [List.map_nil, List.nil_append, List.foldl_nil]
    cases rest with
    | nil => rw [atoiDigits]
    | cons c rest => rw [atoiDigits, behind c rfl, if_neg Bool.false_ne_true]
  | cons digit digits ih =>
    obtain ⟨first, others⟩ := List.forall_mem_cons.mp small
    have next : toInt32 (toInt32 (toInt32 value * 10) + ((digitChar digit).toNat - 48)) =
        toInt32 (value * 10 + digit : Nat) := by
      have sum : (value : Int) * 10 + ((48 + digit : Nat) - 48) = (value * 10 + digit : Nat) := by omega
      rw [wrap_digit toInt32_wraps toInt32_add_turns, digitChar_toNat first, sum]
    rw [List.map_cons, List.cons_append, atoiDigits, if_pos (isDigit_digitChar first), next, ih others,
      List.foldl_cons]

/-- The signs `atoi` takes, or none. -/
def IsSign (sign : List UInt8) : Prop := sign = [] ∨ sign = [43] ∨ sign = [45]

theorem atoiSign_eq {sign : List UInt8} (isSign : IsSign sign) {digit : Nat} (small : digit < 10) (str : List UInt8) :
    atoiSign (sign ++ digitChar digit :: str) = (if sign = [45] then -1 else 1, digitChar digit :: str) := by
  have isDigit' := isDigit_digitChar small
  rcases isSign with rfl | rfl | rfl
  · have noMinus : digitChar digit ≠ 45 := fun minus => by rw [minus] at isDigit'; cases isDigit'
    have noPlus : digitChar digit ≠ 43 := fun plus => by rw [plus] at isDigit'; cases isDigit'
    simp [atoiSign, noMinus, noPlus]
  · rfl
  · rfl

theorem head_not_blank {sign : List UInt8} (isSign : IsSign sign) {digit : Nat} (small : digit < 10)
    (str : List UInt8) : (sign ++ digitChar digit :: str).dropWhile isBlank = sign ++ digitChar digit :: str := by
  rcases isSign with rfl | rfl | rfl
  · have noBlank : isBlank (digitChar digit) = false := by
      have value := digitChar_toNat small
      rw [isBlank, decide_eq_false_iff_not]
      rintro (here | here | here)
      · rw [here] at value
        exact absurd value (show ¬ 32 = 48 + digit by omega)
      · rw [here] at value
        exact absurd value (show ¬ 9 = 48 + digit by omega)
      · rw [here] at value
        exact absurd value (show ¬ 10 = 48 + digit by omega)
    rw [List.nil_append, List.dropWhile_cons, noBlank]
    rfl
  · rfl
  · rfl

/-- Blanks are skipped, and what is behind the digits is not read. -/
theorem atoi_eq {blanks sign : List UInt8} (isBlanks : ∀ c ∈ blanks, isBlank c = true) (isSign : IsSign sign)
    {digits : List Nat} (someDigit : digits ≠ []) (small : ∀ digit ∈ digits, digit < 10) {rest : List UInt8}
    (behind : ∀ c ∈ rest.head?, isDigit c = false) :
    atoi (blanks ++ sign ++ digits.map digitChar ++ rest) =
      toInt32 (if sign = [45] then -decimalValue digits else decimalValue digits) := by
  obtain ⟨digit, others, rfl⟩ := List.exists_cons_of_ne_nil someDigit
  have first := small digit List.mem_cons_self
  have shape : blanks ++ sign ++ (digit :: others).map digitChar ++ rest =
      blanks ++ (sign ++ digitChar digit :: (others.map digitChar ++ rest)) := by simp
  have summed := atoiDigits_eq small behind 0
  have start : toInt32 (0 : Nat) = 0 := by decide
  rw [start, List.map_cons, List.cons_append] at summed
  rw [atoi, shape, List.dropWhile_append_of_pos isBlanks, head_not_blank isSign first, atoiSign_eq isSign first]
  dsimp only
  rw [summed, wrap_mul toInt32_wraps toInt32_add_turns]
  congr 1
  split
  · exact Int.neg_one_mul _
  · exact Int.one_mul _

theorem atoi_numeral {i : Int} (lower : -2 ^ 31 ≤ i) (upper : i < 2 ^ 31) : atoi (numeral i) = i := by
  have isSign : IsSign (signChars i) := by
    unfold signChars IsSign
    split
    · exact .inr (.inr rfl)
    · exact .inl rfl
  have read := atoi_eq (List.forall_mem_nil _) isSign (decimal_ne_nil i.natAbs) (decimal_lt _)
    (show ∀ c ∈ ([] : List UInt8).head?, isDigit c = false by simp)
  rw [List.nil_append, List.append_nil, decimalValue_decimal] at read
  rw [numeral, read]
  unfold signChars toInt32
  by_cases negative : i < 0
  · rw [if_pos negative, if_pos rfl]
    omega
  · rw [if_neg negative, if_neg (by decide)]
    omega

/-- `itoa` writes the canonical numeral of every `int` inside its buffer, and `atoi` reads the number back.  Blanks
before a numeral, and what is behind its digits, make no difference to `atoi`. -/
theorem itoa_atoi (text : Int → UInt8) (i : Int) (lower : -2 ^ 31 ≤ i) (upper : i < 2 ^ 31) :
    (∃ string, ShowsString (itoa text i).text (itoa text i).loc string ∧ IsNumeral i string ∧ atoi string = i) ∧
      (∀ place ∈ (itoa text i).writes, 0 ≤ place ∧ place < 12) ∧
      ∀ blanks sign : List UInt8, (∀ c ∈ blanks, isBlank c = true) → IsSign sign →
        ∀ digits : List Nat, digits ≠ [] → (∀ digit ∈ digits, digit < 10) →
          ∀ rest : List UInt8, (∀ c ∈ rest.head?, isDigit c = false) →
            atoi (blanks ++ sign ++ digits.map digitChar ++ rest) = atoi (sign ++ digits.map digitChar) := by
  obtain ⟨shows, inside⟩ := itoa_shows text lower upper
  refine ⟨⟨numeral i, shows, isNumeral_numeral i, atoi_numeral lower upper⟩, inside, ?_⟩
  intro blanks sign isBlanks isSign digits someDigit small rest behind
  have plain := atoi_eq (List.forall_mem_nil _) isSign someDigit small
    (show ∀ c ∈ ([] : List UInt8).head?, isDigit c = false by simp)
  rw [List.nil_append, List.append_nil] at plain
  rw [atoi_eq isBlanks isSign someDigit small behind, plain]

theorem itoa_atoi_min : ∃ string, ShowsString (itoa (fun _ => 0) (-2147483648)).text
    (itoa (fun _ => 0) (-2147483648)).loc string ∧ IsNumeral (-2147483648) string ∧ atoi string = -2147483648 :=
  (itoa_atoi (fun _ => 0) (-2147483648) (by decide) (by decide)).1

end ViOS.User

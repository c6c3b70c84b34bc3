import Mathlib.Data.Nat.Digits.Defs

/-! # Decimal numerals

The digits of a number, the first one first, and the value of any list of digits.

* `decimal`, `decimalValue` — the digits of a number, the number of some digits.
* `decimal_eq_append` — the last digit split off, which is how numerals are written backwards.
* `decimalValue_decimal`, `decimal_head`, `decimal_length_le` — the numeral is right, has no leading
  zero, and is as short as the number is small.
-/

namespace ViOS.Lib

/-- The digits of a number. -/
def decimal (n : Nat) : List Nat := if n = 0 then [0] else (Nat.digits 10 n).reverse

/-- The number that digits stand for. -/
def decimalValue (digits : List Nat) : Nat := digits.foldl (fun value digit => value * 10 + digit) 0

theorem decimal_of_lt {n : Nat} (small : n < 10) : decimal n = [n] := by
  unfold decimal
  split
  next zero => rw [zero]
  next some => rw [Nat.digits_of_lt 10 n some small, List.reverse_singleton]

theorem decimal_eq_append {n : Nat} (large : 10 ≤ n) : decimal n = decimal (n / 10) ++ [n % 10] := by
  rw [decimal, decimal, if_neg (by omega), if_neg (by omega), Nat.digits_def' (by decide) (by omega), List.reverse_cons]

theorem decimalValue_append (digits : List Nat) (digit : Nat) :
    decimalValue (digits ++ [digit]) = decimalValue digits * 10 + digit := by
  rw [decimalValue, List.foldl_append]
  rfl

/-- The induction that splits off the last digit. -/
theorem decimal_induction {motive : Nat → Prop} (digit : ∀ n < 10, motive n)
    (more : ∀ n, 10 ≤ n → motive (n / 10) → motive n) (n : Nat) : motive n := by
  induction n using Nat.strong_induction_on with
  | _ n ih =>
    by_cases small : n < 10
    · exact digit n small
    · exact more n (by omega) (ih (n / 10) (by omega))

theorem decimalValue_decimal (n : Nat) : decimalValue (decimal n) = n := by
  induction n using decimal_induction with
  | digit n small =>
    rw [decimal_of_lt small]
    exact Nat.zero_add n
  | more n large ih =>
    rw [decimal_eq_append large, decimalValue_append, ih]
    omega

theorem decimal_lt (n : Nat) : ∀ digit ∈ decimal n, digit < 10 := by
  induction n using decimal_induction with
  | digit n small =>
    rw [decimal_of_lt small]
    exact fun digit member => List.mem_singleton.mp member ▸ small
  | more n large ih =>
    rw [decimal_eq_append large]
    intro digit member
    rcases List.mem_append.mp member with before | last
    · exact ih digit before
    · exact List.mem_singleton.mp last ▸ Nat.mod_lt n (by decide)

theorem decimal_ne_nil (n : Nat) : decimal n ≠ [] := by
  by_cases small : n < 10
  · simp [decimal_of_lt small]
  · simp [decimal_eq_append (Nat.not_lt.mp small)]

/-- Only the numeral of zero begins with a zero. -/
theorem decimal_head {n : Nat} (leading : (decimal n).head? = some 0) : n = 0 := by
  induction n using decimal_induction with
  | digit n small =>
    rw [decimal_of_lt small] at leading
    exact Option.some.inj leading
  | more n large ih =>
    obtain ⟨first, rest, shape⟩ := List.exists_cons_of_ne_nil (decimal_ne_nil (n / 10))
    rw [decimal_eq_append large, shape, List.cons_append] at leading
    rw [shape] at ih
    have := ih leading
    omega

theorem decimal_length_le {n count : Nat} (small : n < 10 ^ (count + 1)) : (decimal n).length ≤ count + 1 := by
  induction count generalizing n with
  | zero => rw [decimal_of_lt (by omega), List.length_singleton]
  | succ count ih =>
    by_cases digit : n < 10
    · rw [decimal_of_lt digit, List.length_singleton]
      omega
    · rw [decimal_eq_append (by omega), List.length_append, List.length_singleton]
      have := ih (Nat.div_lt_of_lt_mul (by rw [← Nat.pow_succ']; exact small))
      omega

end ViOS.Lib

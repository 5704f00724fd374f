import Mathlib.Data.Nat.Bitwise
import Mathlib.Data.Nat.Log

/-!
The logarithm of the exclusive or of two numbers, as a distance. Equal numbers
and numbers that differ in the last bit alone are at distance 0. The digits of
a number in base `2 ^ width` are compared from the highest on.
-/

namespace Telehash.LogDistance

def logDistance (left right : Nat) : Nat := Nat.log 2 (left ^^^ right)

variable {left middle right : Nat}

@[simp] theorem logDistance_self (value : Nat) : logDistance value value = 0 := by
  simp [logDistance]

theorem logDistance_comm (left right : Nat) : logDistance left right = logDistance right left := by
  rw [logDistance, Nat.xor_comm, logDistance]

/-- The highest differing bit of two numbers lies below every bound on both. -/
theorem logDistance_lt {bits : Nat} (some_ : 0 < bits) (small : left < 2 ^ bits)
    (alsoSmall : right < 2 ^ bits) : logDistance left right < bits :=
  Nat.log_lt_of_lt_pow' (Nat.ne_of_gt some_) (Nat.xor_lt_two_pow small alsoSmall)

theorem xor_lt_of_logDistance {bits : Nat} (near : logDistance left right < bits) :
    left ^^^ right < 2 ^ bits :=
  Nat.lt_pow_of_log_lt (by decide) near

theorem xor_through (left middle right : Nat) :
    left ^^^ right = (left ^^^ middle) ^^^ (middle ^^^ right) := by
  rw [Nat.xor_assoc, ← Nat.xor_assoc middle, Nat.xor_self, Nat.zero_xor]

/-- The longest of three sides is no longer than the longer of the others. -/
theorem logDistance_ultra (left middle right : Nat) :
    logDistance left right ≤ max (logDistance left middle) (logDistance middle right) := by
  apply Nat.le_of_lt_succ
  have first : left ^^^ middle <
      2 ^ (max (logDistance left middle) (logDistance middle right) + 1) :=
    xor_lt_of_logDistance (Nat.lt_succ_of_le (Nat.le_max_left _ _))
  have second : middle ^^^ right <
      2 ^ (max (logDistance left middle) (logDistance middle right) + 1) :=
    xor_lt_of_logDistance (Nat.lt_succ_of_le (Nat.le_max_right _ _))
  rw [logDistance, xor_through left middle right]
  exact Nat.log_lt_of_lt_pow' (Nat.succ_ne_zero _) (Nat.xor_lt_two_pow first second)

/-- Of three sides the two longest are equal. -/
theorem logDistance_isosceles (shorter : logDistance left middle < logDistance left right) :
    logDistance middle right = logDistance left right := by
  apply Nat.le_antisymm
  · have ultra := logDistance_ultra middle left right
    rw [logDistance_comm middle left, Nat.max_eq_right (Nat.le_of_lt shorter)] at ultra
    exact ultra
  · have ultra := logDistance_ultra left middle right
    rcases Nat.le_total (logDistance left middle) (logDistance middle right) with less | more
    · rwa [Nat.max_eq_right less] at ultra
    · rw [Nat.max_eq_left more] at ultra
      omega

/-! ## Digits -/

/-- The number a list of digits writes, the highest digit first. -/
def valueOf (width : Nat) (digits : List Nat) : Nat :=
  digits.foldl (fun value digit => value * 2 ^ width + digit) 0

section Digits
variable {width : Nat}

theorem foldl_digits (start : Nat) (digits : List Nat) :
    digits.foldl (fun value digit => value * 2 ^ width + digit) start =
      start * 2 ^ (width * digits.length) + valueOf width digits := by
  induction digits generalizing start with
  | nil => simp [valueOf]
  | cons digit rest ih =>
      have first : valueOf width (digit :: rest) =
          digit * 2 ^ (width * rest.length) + valueOf width rest := by
        rw [valueOf, List.foldl_cons, ih, Nat.zero_mul, Nat.zero_add]
      rw [List.foldl_cons, ih, first, List.length_cons, Nat.add_mul, Nat.mul_assoc,
        ← Nat.pow_add, Nat.add_assoc, Nat.mul_succ, Nat.add_comm width]

theorem valueOf_cons (digit : Nat) (rest : List Nat) :
    valueOf width (digit :: rest) = digit * 2 ^ (width * rest.length) + valueOf width rest := by
  rw [valueOf, List.foldl_cons, foldl_digits, Nat.zero_mul, Nat.zero_add]

theorem valueOf_lt (digits : List Nat) (small : ∀ digit ∈ digits, digit < 2 ^ width) :
    valueOf width digits < 2 ^ (width * digits.length) := by
  induction digits with
  | nil => simp [valueOf]
  | cons digit rest ih =>
      obtain ⟨first, others⟩ := List.forall_mem_cons.mp small
      have below := ih others
      have room : digit * 2 ^ (width * rest.length) + 2 ^ (width * rest.length) ≤
          2 ^ width * 2 ^ (width * rest.length) := by
        rw [← Nat.succ_mul]
        exact Nat.mul_le_mul_right _ first
      rw [valueOf_cons, List.length_cons, Nat.mul_succ, Nat.add_comm (width * rest.length),
        Nat.pow_add]
      omega

theorem xor_append {bits : Nat} {low alsoLow : Nat} (high alsoHigh : Nat)
    (small : low < 2 ^ bits) (alsoSmall : alsoLow < 2 ^ bits) :
    (high * 2 ^ bits + low) ^^^ (alsoHigh * 2 ^ bits + alsoLow) =
      (high ^^^ alsoHigh) * 2 ^ bits + (low ^^^ alsoLow) := by
  have split : ∀ {high low : Nat}, low < 2 ^ bits →
      (high * 2 ^ bits + low) / 2 ^ bits = high ∧ (high * 2 ^ bits + low) % 2 ^ bits = low := by
    intro high low small
    constructor
    · rw [Nat.add_comm, Nat.add_mul_div_right _ _ (Nat.two_pow_pos bits), Nat.div_eq_of_lt small,
        Nat.zero_add]
    · rw [Nat.add_comm, Nat.add_mul_mod_self_right, Nat.mod_eq_of_lt small]
  rw [← Nat.div_add_mod ((high * 2 ^ bits + low) ^^^ (alsoHigh * 2 ^ bits + alsoLow)) (2 ^ bits),
    Nat.xor_div_two_pow, Nat.xor_mod_two_pow, (split small).1, (split small).2,
    (split alsoSmall).1, (split alsoSmall).2, Nat.mul_comm]

/-- Equal leading digits do not count. -/
theorem logDistance_cons_same (digit : Nat) {rest others : List Nat}
    (length : rest.length = others.length) (small : ∀ digit ∈ rest, digit < 2 ^ width)
    (alsoSmall : ∀ digit ∈ others, digit < 2 ^ width) :
    logDistance (valueOf width (digit :: rest)) (valueOf width (digit :: others)) =
      logDistance (valueOf width rest) (valueOf width others) := by
  have below := valueOf_lt others alsoSmall
  rw [← length] at below
  rw [logDistance, valueOf_cons, valueOf_cons, ← length,
    xor_append digit digit (valueOf_lt rest small) below, Nat.xor_self, Nat.zero_mul, Nat.zero_add,
    logDistance]

/-- The first differing digits decide. -/
theorem logDistance_cons_other {digit other : Nat} {rest others : List Nat}
    (different : digit ^^^ other ≠ 0) (length : rest.length = others.length)
    (small : ∀ digit ∈ rest, digit < 2 ^ width)
    (alsoSmall : ∀ digit ∈ others, digit < 2 ^ width) :
    logDistance (valueOf width (digit :: rest)) (valueOf width (other :: others)) =
      width * rest.length + Nat.log 2 (digit ^^^ other) := by
  have below := valueOf_lt others alsoSmall
  rw [← length] at below
  have inside := valueOf_lt rest small
  have low : valueOf width rest ^^^ valueOf width others < 2 ^ (width * rest.length) :=
    Nat.xor_lt_two_pow inside below
  have shifted : ∀ bits low, low < 2 ^ bits → Nat.log 2 ((digit ^^^ other) * 2 ^ bits + low) =
      bits + Nat.log 2 (digit ^^^ other) := by
    intro bits low small
    apply Nat.log_eq_of_pow_le_of_lt_pow
    · have power := Nat.mul_le_mul_right (2 ^ bits) (Nat.pow_log_le_self 2 different)
      rw [← Nat.pow_add, Nat.add_comm] at power
      omega
    · have power := Nat.mul_le_mul_right (2 ^ bits)
        (Nat.lt_pow_succ_log_self (by decide : 1 < 2) (digit ^^^ other))
      rw [← Nat.pow_add, Nat.succ_mul, Nat.succ_add, Nat.add_comm (Nat.log 2 _)] at power
      omega
  rw [logDistance, valueOf_cons, valueOf_cons, ← length, xor_append digit other inside below,
    shifted _ _ low]

end Digits

end Telehash.LogDistance

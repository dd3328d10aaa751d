import Mathlib.Data.Int.Basic
import Mathlib.Algebra.BigOperators.Group.List.Basic
import Mathlib.Data.Rat.Cast.Order
import Mathlib.Tactic.FieldSimp
import Mathlib.Tactic.Ring
import Mathlib.Tactic.Linarith

/-! # Rounding a quotient of integers

`roundDiv n d` is `n / d` rounded to the nearest integer, halves upwards, for `0 < d`: what
`Math.round` answers on the exact quotient. All that proofs need of it is the two-sided bound
`roundDiv_le`, `lt_roundDiv`, stated without fractions. -/

namespace Rounding

def roundDiv (n d : Int) : Int := (2 * n + d) / (2 * d)

variable {n m d : Int}

/-- At most half a unit too much. -/
theorem roundDiv_le (hd : 0 < d) : 2 * d * roundDiv n d ≤ 2 * n + d :=
  Int.mul_ediv_self_le (by omega)

/-- At most half a unit too little. -/
theorem lt_roundDiv (hd : 0 < d) : 2 * n - d < 2 * d * roundDiv n d := by
  have h := Int.lt_mul_ediv_self_add (x := 2 * n + d) (k := 2 * d) (by omega)
  rw [roundDiv]
  linarith

theorem roundDiv_mono (hd : 0 < d) (h : n ≤ m) : roundDiv n d ≤ roundDiv m d :=
  Int.ediv_le_ediv (by omega) (by omega)

theorem roundDiv_nonneg (hd : 0 < d) (h : 0 ≤ n) : 0 ≤ roundDiv n d :=
  Int.ediv_nonneg (by omega) (by omega)

/-- A whole quotient is not rounded. -/
theorem roundDiv_mul (hd : 0 < d) (k : Int) : roundDiv (k * d) d = k := by
  have h₁ : 2 * d * roundDiv (k * d) d ≤ 2 * (k * d) + d := roundDiv_le hd
  have h₂ : 2 * (k * d) - d < 2 * d * roundDiv (k * d) d := lt_roundDiv hd
  nlinarith

/-- A quotient of at most `k` is rounded to at most `k`. -/
theorem roundDiv_le_of_le (hd : 0 < d) {k : Int} (h : n ≤ k * d) : roundDiv n d ≤ k := by
  have := roundDiv_mono hd h
  rwa [roundDiv_mul hd] at this

/-- A quotient of at least `k` is rounded to at least `k`. -/
theorem le_roundDiv_of_le (hd : 0 < d) {k : Int} (h : k * d ≤ n) : k ≤ roundDiv n d := by
  have := roundDiv_mono hd h
  rwa [roundDiv_mul hd] at this

/-- The rounded quotient is within half a unit of the exact one. -/
theorem abs_roundDiv_sub_le (hd : 0 < d) : |(roundDiv n d : ℚ) - n / d| ≤ 1 / 2 := by
  have hd' : (0 : ℚ) < d := by exact_mod_cast hd
  have hle : (2 * d * roundDiv n d : ℚ) ≤ 2 * n + d := by exact_mod_cast roundDiv_le hd
  have hlt : (2 * n - d : ℚ) < 2 * d * roundDiv n d := by exact_mod_cast lt_roundDiv hd
  have hquot : (n / d : ℚ) * d = n := div_mul_cancel₀ _ hd'.ne'
  rw [abs_le]
  constructor
  · nlinarith
  · nlinarith

/-! ## Many roundings

Rounding `k` quotients one by one is off by half a unit each. -/

section
variable (ns : List Int)

theorem sum_roundDiv_le (hd : 0 < d) :
    2 * d * (ns.map fun n => roundDiv n d).sum ≤ 2 * ns.sum + ns.length * d := by
  induction ns with
  | nil => simp
  | cons n ns ih =>
      have hn : 2 * d * roundDiv n d ≤ 2 * n + d := roundDiv_le hd
      simp only [List.map_cons, List.sum_cons, List.length_cons, Nat.cast_add, Nat.cast_one]
      linarith

theorem le_sum_roundDiv (hd : 0 < d) :
    2 * ns.sum - ns.length * d ≤ 2 * d * (ns.map fun n => roundDiv n d).sum := by
  induction ns with
  | nil => simp
  | cons n ns ih =>
      have hn : 2 * n - d < 2 * d * roundDiv n d := lt_roundDiv hd
      simp only [List.map_cons, List.sum_cons, List.length_cons, Nat.cast_add, Nat.cast_one]
      linarith

/-- Rounding down never exceeds the quotient of the sum. -/
theorem sum_ediv_le (hd : 0 < d) : d * (ns.map fun n => n / d).sum ≤ ns.sum := by
  induction ns with
  | nil => simp
  | cons n ns ih =>
      have hn : d * (n / d) ≤ n := Int.mul_ediv_self_le hd.ne'
      simp only [List.map_cons, List.sum_cons]
      linarith

end

end Rounding

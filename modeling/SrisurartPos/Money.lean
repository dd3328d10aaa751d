import SrisurartPos.Rounding
import Mathlib.Algebra.Order.Floor.Ring
import Mathlib.Algebra.Order.Ring.Abs
import Mathlib.Data.Rat.Floor
import Mathlib.Tactic.FieldSimp
import Mathlib.Tactic.NormNum
import Mathlib.Tactic.Positivity

/-! # Money in two units

One side of the shop counts whole satang, the other keeps baht with a fraction. `baht` is the bridge:
the amounts it reaches are the whole ones, and on those the two sides compute alike. Rounding a
fractional amount goes to the nearest satang, halves away from zero. -/

namespace Money

/-- `n` satang, in baht. -/
def baht (n : Int) : ℚ := n / 100

/-- To the nearest integer, halves away from zero. -/
def roundAway (q : ℚ) : Int := if 0 ≤ q then ⌊q + 1 / 2⌋ else -⌊-q + 1 / 2⌋

def toSatang (amount : ℚ) : Int := roundAway (amount * 100)

def round2 (v : ℚ) : ℚ := roundAway (v * 100) / 100

/-- A whole number of satang. -/
def Whole (amount : ℚ) : Prop := baht (toSatang amount) = amount

instance (amount : ℚ) : Decidable (Whole amount) := inferInstanceAs (Decidable (_ = _))

section
variable {n m d : Int} {q : ℚ}

/-! ## Baht -/

@[simp] theorem baht_zero : baht 0 = 0 := by simp [baht]

theorem baht_add : baht (n + m) = baht n + baht m := by
  simp only [baht, Int.cast_add, add_div]

theorem baht_sub : baht (n - m) = baht n - baht m := by
  simp only [baht, Int.cast_sub, sub_div]

theorem baht_neg : baht (-n) = -baht n := by
  simp only [baht, Int.cast_neg, neg_div]

theorem baht_mul : baht (n * m) = baht n * m := by
  simp only [baht, Int.cast_mul]
  ring

@[simp] theorem baht_le : baht n ≤ baht m ↔ n ≤ m := by
  rw [baht, baht, div_le_div_iff_of_pos_right (by norm_num), Int.cast_le]

@[simp] theorem baht_lt : baht n < baht m ↔ n < m := by
  rw [baht, baht, div_lt_div_iff_of_pos_right (by norm_num), Int.cast_lt]

@[simp] theorem baht_inj : baht n = baht m ↔ n = m := by
  rw [baht, baht, div_left_inj' (by norm_num), Int.cast_inj]

theorem baht_pos : 0 < baht n ↔ 0 < n := by rw [← baht_zero, baht_lt]

theorem baht_neg_iff : baht n < 0 ↔ n < 0 := by rw [← baht_zero, baht_lt]

theorem baht_ne_zero : baht n ≠ 0 ↔ n ≠ 0 := by rw [← baht_zero, Ne, baht_inj]

theorem baht_max : baht (max n m) = max (baht n) (baht m) := by
  rcases le_total n m with h | h
  · rw [max_eq_right h, max_eq_right (baht_le.mpr h)]
  · rw [max_eq_left h, max_eq_left (baht_le.mpr h)]

theorem baht_max_zero : baht (max 0 n) = max 0 (baht n) := by rw [baht_max, baht_zero]

theorem baht_sum {α : Type} (l : List α) (f : α → Int) :
    baht (l.map f).sum = (l.map fun a => baht (f a)).sum := by
  induction l with
  | nil => exact baht_zero
  | cons a l ih => rw [List.map_cons, List.sum_cons, List.map_cons, List.sum_cons, baht_add, ih]

/-- The unit cancels in a ratio. -/
theorem baht_div : baht n / baht m = (n : ℚ) / m :=
  div_div_div_cancel_right₀ (by norm_num) _ _

/-! ## Rounding -/

@[simp] theorem roundAway_intCast (n : Int) : roundAway n = n := by
  have hfloor : ∀ k : Int, ⌊(k : ℚ) + 1 / 2⌋ = k := by
    intro k
    rw [Int.floor_intCast_add]
    norm_num
  rw [roundAway]
  split
  · exact hfloor n
  · rw [← Int.cast_neg, hfloor, neg_neg]

/-- It grows with every whole unit. -/
theorem roundAway_lt_add (hn : 0 < n) : roundAway q < roundAway (q + n) := by
  have hn' : (1 : ℚ) ≤ n := by exact_mod_cast hn
  simp only [roundAway]
  split
  · rename_i hq
    rw [if_pos (by linarith), show q + n + 1 / 2 = q + 1 / 2 + n by ring, Int.floor_add_intCast]
    omega
  · rename_i hq
    split
    · rename_i hqn
      have h₁ : 0 ≤ ⌊-q + 1 / 2⌋ := Int.floor_nonneg.mpr (by linarith)
      have h₂ : 0 ≤ ⌊q + n + 1 / 2⌋ := Int.floor_nonneg.mpr (by linarith)
      by_contra hge
      -- both would be zero, half a unit to either side of zero
      have hlow : ⌊-q + 1 / 2⌋ < 1 := by omega
      have hhigh : ⌊q + n + 1 / 2⌋ < 1 := by omega
      rw [Int.floor_lt] at hlow hhigh
      push_cast at hlow hhigh
      linarith
    · rw [show -(q + n) + 1 / 2 = -q + 1 / 2 - n by ring, Int.floor_sub_intCast]
      omega

/-- No further off than half a unit. -/
theorem abs_roundAway_sub_le (q : ℚ) : |(roundAway q : ℚ) - q| ≤ 1 / 2 := by
  have hfloor : ∀ r : ℚ, |(⌊r + 1 / 2⌋ : ℚ) - r| ≤ 1 / 2 := by
    intro r
    have h₁ := Int.floor_le (r + 1 / 2)
    have h₂ := Int.lt_floor_add_one (r + 1 / 2)
    rw [abs_le]
    constructor <;> linarith
  rw [roundAway]
  split
  · exact hfloor q
  · have h := hfloor (-q)
    rw [← abs_neg] at h
    push_cast
    convert h using 2
    ring

/-- Rounding down the quotient of integers is their division. -/
theorem floor_div (hd : 0 < d) : ⌊(n : ℚ) / d⌋ = n / d := by
  have hpos : (0 : ℚ) < d := Int.cast_pos.mpr hd
  rw [Int.floor_eq_iff]
  constructor
  · rw [le_div_iff₀ hpos]
    exact_mod_cast Int.ediv_mul_le n hd.ne'
  · rw [div_lt_iff₀ hpos]
    exact_mod_cast Int.lt_ediv_add_one_mul_self n hd

/-- On a quotient that is not negative it is the rounding half upwards. -/
theorem roundAway_div (hd : 0 < d) (hn : 0 ≤ n) :
    roundAway ((n : ℚ) / d) = Rounding.roundDiv n d := by
  have hpos : (0 : ℚ) < d := Int.cast_pos.mpr hd
  have hsum : (n : ℚ) / d + 1 / 2 = ((2 * n + d : Int) : ℚ) / ((2 * d : Int) : ℚ) := by
    push_cast
    field_simp
  rw [roundAway, if_pos (by positivity), hsum, floor_div (by omega)]
  rfl

/-- The rounding half upwards is no further off than half a unit either. -/
theorem abs_roundDiv_sub_le (hd : 0 < d) : |(Rounding.roundDiv n d : ℚ) - n / d| ≤ 1 / 2 := by
  have hpos : (0 : ℚ) < d := Int.cast_pos.mpr hd
  have hup : (2 * d * Rounding.roundDiv n d : ℚ) ≤ 2 * n + d := by
    exact_mod_cast @Rounding.roundDiv_le n d hd
  have hdown : (2 * n - d : ℚ) < 2 * d * Rounding.roundDiv n d := by
    exact_mod_cast @Rounding.lt_roundDiv n d hd
  rw [abs_le]
  constructor
  · rw [le_sub_iff_add_le, ← le_sub_iff_add_le', div_le_iff₀ hpos]
    linarith
  · rw [sub_le_iff_le_add, ← sub_le_iff_le_add', le_div_iff₀ hpos]
    linarith

@[simp] theorem toSatang_baht (n : Int) : toSatang (baht n) = n := by
  rw [toSatang, baht, div_mul_cancel₀ _ (by norm_num), roundAway_intCast]

theorem round2_eq (v : ℚ) : round2 v = baht (toSatang v) := rfl

@[simp] theorem round2_baht (n : Int) : round2 (baht n) = baht n := by
  rw [round2_eq, toSatang_baht]

theorem whole_baht (n : Int) : Whole (baht n) := by
  rw [Whole, toSatang_baht]

theorem whole_iff : Whole q ↔ ∃ n, q = baht n := by
  constructor
  · exact fun h => ⟨toSatang q, h.symm⟩
  · rintro ⟨n, rfl⟩
    exact whole_baht n

theorem toSatang_zero : toSatang 0 = 0 := by rw [← baht_zero, toSatang_baht]

theorem toSatang_nonneg_of (h : 0 ≤ q) : 0 ≤ toSatang q := by
  rw [toSatang, roundAway, if_pos (by positivity)]
  exact Int.floor_nonneg.mpr (by positivity)

theorem whole_zero : Whole 0 := by rw [Whole, toSatang_zero, baht_zero]

/-- Whole satang more or less show. -/
theorem toSatang_sub_whole_iff {e : ℚ} (he : Whole e) : toSatang (q - e) = toSatang q ↔ e = 0 := by
  obtain ⟨n, rfl⟩ := whole_iff.mp he
  rw [← baht_zero, baht_inj]
  constructor
  · intro h
    by_contra hne
    have hmul : (q - baht n) * 100 = q * 100 - n := by
      rw [baht]
      ring
    rw [toSatang, toSatang, hmul] at h
    rcases lt_or_gt_of_ne hne with hneg | hpos
    · have hlt := @roundAway_lt_add (-n) (q * 100) (by omega)
      rw [Int.cast_neg, ← sub_eq_add_neg, h] at hlt
      exact hlt.false
    · have hlt := @roundAway_lt_add n (q * 100 - n) hpos
      rw [sub_add_cancel, h] at hlt
      exact hlt.false
  · rintro rfl
    rw [baht_zero, sub_zero]

theorem whole_add {e : ℚ} (h : Whole q) (h' : Whole e) : Whole (q + e) := by
  obtain ⟨n, rfl⟩ := whole_iff.mp h
  obtain ⟨m, rfl⟩ := whole_iff.mp h'
  rw [← baht_add]
  exact whole_baht _

theorem whole_sub {e : ℚ} (h : Whole q) (h' : Whole e) : Whole (q - e) := by
  obtain ⟨n, rfl⟩ := whole_iff.mp h
  obtain ⟨m, rfl⟩ := whole_iff.mp h'
  rw [← baht_sub]
  exact whole_baht _

theorem whole_mul (h : Whole q) (n : Int) : Whole (q * n) := by
  obtain ⟨m, rfl⟩ := whole_iff.mp h
  rw [← baht_mul]
  exact whole_baht _

theorem whole_sum {α : Type} {l : List α} {f : α → ℚ} (h : ∀ a ∈ l, Whole (f a)) :
    Whole (l.map f).sum := by
  induction l with
  | nil => exact whole_zero
  | cons a l ih =>
      obtain ⟨ha, hl⟩ := List.forall_mem_cons.mp h
      obtain ⟨n, hn⟩ := whole_iff.mp ha
      obtain ⟨m, hm⟩ := whole_iff.mp (ih hl)
      rw [List.map_cons, List.sum_cons, hn, hm, ← baht_add]
      exact whole_baht _

end

end Money

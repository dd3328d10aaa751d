import Mathlib.Data.List.Basic
import Mathlib.Algebra.Order.Group.Nat
import Mathlib.Tactic.Linarith

/-! # Padded numerals

Numbers written in a fixed number of decimal digits. Writing and reading are inverse to one another
between the numbers that fit and the texts of that many digits. -/

namespace Numeral

/-- The digits of `n`, with zeros in front up to a length of `k`. -/
def padStart (k n : Nat) : List Char := (Nat.toDigits 10 n).leftpad k '0'

def value (cs : List Char) : Nat := Nat.ofDigitChars 10 cs 0

variable {k n : Nat} {cs ds : List Char}

@[simp] theorem value_padStart (k n : Nat) : value (padStart k n) = n := by
  rw [value, padStart, List.leftpad, Nat.ofDigitChars_append, Nat.ofDigitChars_replicate_zero,
    Nat.mul_zero, Nat.ofDigitChars_ten_toDigits]

theorem length_padStart (hk : 0 < k) (hn : n < 10 ^ k) : (padStart k n).length = k := by
  rw [padStart, List.length_leftpad]
  exact max_eq_left ((Nat.length_toDigits_le_iff (by decide) hk).mpr hn)

theorem isDigit_padStart : ∀ c ∈ padStart k n, c.isDigit = true := by
  intro c hc
  rcases List.mem_append.mp hc with hc | hc
  · rw [List.eq_of_mem_replicate hc]
    rfl
  · exact Nat.isDigit_of_mem_toDigits (by decide) (by decide) hc

/-! ## Reading -/

theorem value_cons (c : Char) (cs : List Char) :
    value (c :: cs) = 10 ^ cs.length * (c.toNat - '0'.toNat) + value cs := by
  rw [value, Nat.ofDigitChars_cons, Nat.mul_zero, Nat.zero_add, Nat.ofDigitChars_eq_ofDigitChars_zero,
    value]

theorem digit_lt {c : Char} (h : c.isDigit = true) : c.toNat - '0'.toNat < 10 := by
  simp only [Char.isDigit, Bool.and_eq_true, decide_eq_true_eq] at h
  have hle : c.toNat ≤ '9'.toNat := h.2
  have hnine : '9'.toNat = 57 := rfl
  have hzero : '0'.toNat = 48 := rfl
  omega

theorem digit_inj {c d : Char} (hc : c.isDigit = true) (hd : d.isDigit = true)
    (h : c.toNat - '0'.toNat = d.toNat - '0'.toNat) : c = d := by
  simp only [Char.isDigit, Bool.and_eq_true, decide_eq_true_eq] at hc hd
  have hlec : '0'.toNat ≤ c.toNat := hc.1
  have hled : '0'.toNat ≤ d.toNat := hd.1
  refine Char.toNat_inj.mp ?_
  omega

theorem value_lt (h : ∀ c ∈ cs, c.isDigit = true) : value cs < 10 ^ cs.length := by
  induction cs with
  | nil => exact Nat.one_pos
  | cons c cs ih =>
      have hc := digit_lt (h c List.mem_cons_self)
      have hcs := ih fun d hd => h d (List.mem_cons_of_mem c hd)
      rw [value_cons, List.length_cons, Nat.pow_succ]
      have hle : 10 ^ cs.length * (c.toNat - '0'.toNat) ≤ 10 ^ cs.length * 9 := Nat.mul_le_mul_left _ (by omega)
      linarith

/-- Digits of one length with one value are the same. -/
theorem value_inj (hcs : ∀ c ∈ cs, c.isDigit = true) (hds : ∀ d ∈ ds, d.isDigit = true)
    (hlen : cs.length = ds.length) (h : value cs = value ds) : cs = ds := by
  induction cs generalizing ds with
  | nil => exact (List.length_eq_zero_iff.mp hlen.symm).symm
  | cons c cs ih =>
      cases ds with
      | nil => cases hlen
      | cons d ds =>
          have hlen := Nat.succ.inj hlen
          have hcs' := fun e he => hcs e (List.mem_cons_of_mem c he)
          have hds' := fun e he => hds e (List.mem_cons_of_mem d he)
          have hltc := value_lt hcs'
          have hltd := value_lt hds'
          rw [value_cons, value_cons, hlen] at h
          rw [hlen] at hltc
          have hpos : 0 < 10 ^ ds.length := Nat.pow_pos (by decide)
          have hhead : c.toNat - '0'.toNat = d.toNat - '0'.toNat := by
            have := congrArg (· / 10 ^ ds.length) h
            simpa [Nat.mul_add_div hpos, Nat.div_eq_of_lt hltc, Nat.div_eq_of_lt hltd] using this
          rw [digit_inj (hcs c List.mem_cons_self) (hds d List.mem_cons_self) hhead,
            ih hcs' hds' hlen (by rw [hhead] at h; omega)]

/-- A text of digits is the numeral of its value. -/
theorem padStart_value (hcs : ∀ c ∈ cs, c.isDigit = true) (hne : cs ≠ []) :
    padStart cs.length (value cs) = cs := by
  have hpos : 0 < cs.length := List.length_pos_iff.mpr hne
  exact value_inj isDigit_padStart hcs (length_padStart hpos (value_lt hcs)) (value_padStart _ _)

end Numeral

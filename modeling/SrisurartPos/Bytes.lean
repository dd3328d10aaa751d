import Mathlib.Data.List.Basic
import Mathlib.Data.Nat.Bitwise
import Mathlib.Tactic.IntervalCases

/-! # Bytes and their hex text

A number written big endian in a fixed number of bytes, and bytes written in lowercase hex. Both
writings keep the order: of two numbers the smaller is the smaller text, read letter by letter. -/

namespace Bytes

/-- `n`'s lowest `k` bytes, the highest first. -/
def bigEndian : Nat → Nat → List UInt8
  | 0, _     => []
  | k + 1, n => UInt8.ofNat (n / 256 ^ k) :: bigEndian k n

@[simp] theorem length_bigEndian (k n : Nat) : (bigEndian k n).length = k := by
  induction k with
  | zero => rfl
  | succ k ih => simp [bigEndian, ih]

/-- The two letters of a byte. -/
def hexPair (b : UInt8) : List Char := [(b.toNat / 16).digitChar, (b.toNat % 16).digitChar]

def hex (bs : List UInt8) : List Char := bs.flatMap hexPair

@[simp] theorem length_hex (bs : List UInt8) : (hex bs).length = 2 * bs.length := by
  induction bs with
  | nil => rfl
  | cons b bs ih =>
      have hcons : hex (b :: bs) = hexPair b ++ hex bs := rfl
      rw [hcons, List.length_append, ih, List.length_cons, hexPair, List.length_cons,
        List.length_singleton]
      omega

/-- The first letter of the `i`th byte. -/
theorem getElem?_hex (bs : List UInt8) (i : Nat) :
    (hex bs)[2 * i]? = bs[i]?.map fun b => (b.toNat / 16).digitChar := by
  induction bs generalizing i with
  | nil => simp [hex]
  | cons b bs ih =>
      have hcons : hex (b :: bs) = hexPair b ++ hex bs := rfl
      cases i with
      | zero => rfl
      | succ i =>
          rw [hcons, hexPair, List.getElem?_cons_succ, ← ih i]
          rfl

/-- A letter of lowercase hex. -/
def IsHexLetter (c : Char) : Bool := ('0' ≤ c && c ≤ '9') || ('a' ≤ c && c ≤ 'f')

theorem isHexLetter_digitChar {n : Nat} (h : n < 16) : IsHexLetter n.digitChar = true := by
  interval_cases n <;> rfl

theorem isHexLetter_of_mem_hex {bs : List UInt8} : ∀ c ∈ hex bs, IsHexLetter c = true := by
  intro c hc
  obtain ⟨b, -, hb⟩ := List.mem_flatMap.mp hc
  have hlt := b.toNat_lt
  simp only [hexPair, List.mem_cons, List.not_mem_nil, or_false] at hb
  rcases hb with rfl | rfl
  · exact isHexLetter_digitChar (by omega)
  · exact isHexLetter_digitChar (by omega)

/-! ## Order -/

section Order

variable {α : Type} [LT α] {xs ys : List α}

/-- Texts of one length are ordered as their beginnings are. -/
theorem append_lt_append (h : xs < ys) (hlen : xs.length = ys.length) (us vs : List α) :
    xs ++ us < ys ++ vs := by
  induction xs generalizing ys with
  | nil =>
      cases ys with
      | nil => exact absurd h (List.not_lt_nil _)
      | cons y ys => cases hlen
  | cons x xs ih =>
      cases ys with
      | nil => cases hlen
      | cons y ys =>
          rcases List.cons_lt_cons_iff.mp h with hlt | ⟨rfl, hlt⟩
          · exact List.cons_lt_cons_iff.mpr (Or.inl hlt)
          · exact List.cons_lt_cons_iff.mpr (Or.inr ⟨rfl, ih hlt (Nat.succ.inj hlen)⟩)

/-- The same letter put behind the first `k` leaves texts in order, where what is made of the rests
stays in order. -/
theorem interpose_lt_interpose {f : List α → List α}
    (hf : ∀ {us vs}, us.length = vs.length → us < vs → f us < f vs) (k : Nat) (c : α)
    (hlen : xs.length = ys.length) (h : xs < ys) :
    xs.take k ++ c :: f (xs.drop k) < ys.take k ++ c :: f (ys.drop k) := by
  induction k generalizing xs ys with
  | zero => exact List.cons_lt_cons_iff.mpr (Or.inr ⟨rfl, hf hlen h⟩)
  | succ k ih =>
      cases xs with
      | nil =>
          rw [List.length_eq_zero_iff.mp hlen.symm] at h
          exact absurd h (List.not_lt_nil _)
      | cons x xs =>
          cases ys with
          | nil => cases hlen
          | cons y ys =>
              rcases List.cons_lt_cons_iff.mp h with hlt | ⟨rfl, hlt⟩
              · exact List.cons_lt_cons_iff.mpr (Or.inl hlt)
              · exact List.cons_lt_cons_iff.mpr (Or.inr ⟨rfl, ih (Nat.succ.inj hlen) hlt⟩)

end Order

/-- The digits do not see what lies above their width. -/
theorem bigEndian_mod (k n : Nat) : bigEndian k (n % 256 ^ k) = bigEndian k n := by
  suffices ∀ j, k ≤ j → bigEndian k (n % 256 ^ j) = bigEndian k n from this k le_rfl
  induction k with
  | zero => exact fun _ _ => rfl
  | succ k ih =>
      intro j hj
      have hdiv : n % 256 ^ j / 256 ^ k % 256 = n / 256 ^ k % 256 := by
        have hsplit : 256 ^ j = 256 ^ k * 256 * 256 ^ (j - k - 1) := by
          rw [← Nat.pow_succ, ← Nat.pow_add]
          congr 1
          omega
        rw [hsplit, Nat.mul_assoc, Nat.mod_mul_right_div_self, Nat.mod_mul_right_mod]
      rw [bigEndian, bigEndian, ih j (by omega)]
      congr 1
      rw [← UInt8.toNat_inj, UInt8.toNat_ofNat', UInt8.toNat_ofNat']
      exact hdiv

/-- Of two numbers that fit, the smaller has the smaller bytes. -/
theorem bigEndian_lt {k m n : Nat} (hmn : m < n) (hn : n < 256 ^ k) :
    bigEndian k m < bigEndian k n := by
  induction k generalizing m n with
  | zero =>
      rw [Nat.pow_zero] at hn
      omega
  | succ k ih =>
      have hpos : 0 < 256 ^ k := Nat.pow_pos (by decide)
      have hhigh : n / 256 ^ k < 256 := Nat.div_lt_of_lt_mul (by rwa [Nat.pow_succ] at hn)
      have hle : m / 256 ^ k ≤ n / 256 ^ k := Nat.div_le_div_right (Nat.le_of_lt hmn)
      rw [bigEndian, bigEndian, List.cons_lt_cons_iff, UInt8.lt_iff_toNat_lt, ← UInt8.toNat_inj,
        UInt8.toNat_ofNat', UInt8.toNat_ofNat', Nat.mod_eq_of_lt hhigh,
        Nat.mod_eq_of_lt (Nat.lt_of_le_of_lt hle hhigh)]
      rcases Nat.lt_or_eq_of_le hle with hlt | heq
      · exact Or.inl hlt
      · -- The high bytes agree, so the rests are ordered.
        have hm := Nat.div_add_mod m (256 ^ k)
        have hn' := Nat.div_add_mod n (256 ^ k)
        rw [heq] at hm
        rw [← bigEndian_mod k m, ← bigEndian_mod k n]
        exact Or.inr ⟨heq, ih (by omega) (Nat.mod_lt n hpos)⟩

theorem digitChar_lt {m n : Nat} (hmn : m < n) (hn : n < 16) : m.digitChar < n.digitChar := by
  interval_cases n <;> interval_cases m <;> decide

theorem hexPair_lt {b c : UInt8} (h : b < c) : hexPair b < hexPair c := by
  have hlt := UInt8.lt_iff_toNat_lt.mp h
  have hc := c.toNat_lt
  rw [hexPair, hexPair, List.cons_lt_cons_iff]
  rcases Nat.lt_or_eq_of_le (Nat.div_le_div_right (c := 16) (Nat.le_of_lt hlt)) with hhigh | hhigh
  · exact Or.inl (digitChar_lt hhigh (by omega))
  · refine Or.inr ⟨by rw [hhigh], List.cons_lt_cons_iff.mpr (Or.inl (digitChar_lt ?_ ?_))⟩ <;> omega

/-- Of two byte strings of one length, the smaller has the smaller text. -/
theorem hex_lt {bs cs : List UInt8} (h : bs < cs) (hlen : bs.length = cs.length) :
    hex bs < hex cs := by
  induction bs generalizing cs with
  | nil =>
      rw [List.length_eq_zero_iff.mp hlen.symm] at h
      exact absurd h (List.not_lt_nil _)
  | cons b bs ih =>
      cases cs with
      | nil => cases hlen
      | cons c cs =>
          rcases List.cons_lt_cons_iff.mp h with hlt | ⟨rfl, hlt⟩
          · exact append_lt_append (hexPair_lt hlt) rfl (hex bs) (hex cs)
          · exact List.append_left_lt (ih hlt (Nat.succ.inj hlen))

end Bytes

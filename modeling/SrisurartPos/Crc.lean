import Mathlib.Algebra.Polynomial.Div
import Mathlib.Algebra.Polynomial.Monic
import Mathlib.Data.Nat.Bitwise
import Mathlib.Algebra.Field.ZMod
import Mathlib.RingTheory.AdjoinRoot
import Mathlib.Tactic.LinearCombination

/-! # Cyclic redundancy checks

Bits are the coefficients of a polynomial over the field of two elements, the highest first. A check
of width `w` is the remainder of the message, moved up by `w`, after division by a generator of
degree `w`. The register that computes it takes a byte at a time, a shift for each bit. -/

namespace Crc

open Polynomial

/-! ## Bits and numbers as polynomials -/

/-- The polynomial whose coefficients are the binary digits of `n`. -/
noncomputable def ofNat (n : Nat) : (ZMod 2)[X] :=
  ∑ i ∈ Finset.range n, if n.testBit i then X ^ i else 0

/-- The polynomial of a list of bits, the highest first. -/
noncomputable def ofBits : List Bool → (ZMod 2)[X]
  | []      => 0
  | b :: bs => (if b then X ^ bs.length else 0) + ofBits bs

/-- The lowest `k` binary digits of `n`, the highest first. -/
def bitsOf : Nat → Nat → List Bool
  | 0, _     => []
  | k + 1, n => n.testBit k :: bitsOf k n

section
variable {a b k n : Nat} {xs ys : List Bool}

/-- The coefficients of the polynomial are the bits of the number. -/
theorem coeff_ofNat (n i : Nat) : (ofNat n).coeff i = if n.testBit i then 1 else 0 := by
  have hterm : ∀ j, (if n.testBit j then (X : (ZMod 2)[X]) ^ j else 0).coeff i =
      if i = j then (if n.testBit i then 1 else 0) else 0 := by
    intro j
    by_cases hij : i = j
    · subst hij
      by_cases hb : n.testBit i <;> simp [hb]
    · by_cases hb : n.testBit j <;> simp [hb, hij, coeff_X_pow]
  rw [ofNat, finsetSum_coeff, Finset.sum_congr rfl fun j _ => hterm j, Finset.sum_ite_eq]
  by_cases hi : i ∈ Finset.range n
  · rw [if_pos hi]
  · have hlt : n < 2 ^ i := Nat.lt_of_le_of_lt (Nat.not_lt.mp (mt Finset.mem_range.mpr hi)) i.lt_two_pow_self
    rw [if_neg hi, Nat.testBit_lt_two_pow hlt, if_neg Bool.false_ne_true]

@[simp] theorem ofNat_zero : ofNat 0 = 0 := rfl

theorem ofNat_xor (a b : Nat) : ofNat (a ^^^ b) = ofNat a + ofNat b := by
  ext i
  rw [coeff_add, coeff_ofNat, coeff_ofNat, coeff_ofNat, Nat.testBit_xor]
  cases a.testBit i <;> cases b.testBit i <;> decide

theorem ofNat_shiftLeft (a k : Nat) : ofNat (a <<< k) = ofNat a * X ^ k := by
  ext i
  rw [coeff_mul_X_pow', coeff_ofNat, coeff_ofNat, Nat.testBit_shiftLeft]
  by_cases h : k ≤ i <;> simp [h]

theorem ofNat_injective (h : ofNat a = ofNat b) : a = b := by
  refine Nat.eq_of_testBit_eq fun i => ?_
  have hi := congrArg (fun p => p.coeff i) h
  simp only [coeff_ofNat] at hi
  cases ha : a.testBit i <;> cases hb : b.testBit i <;> simp_all

theorem degree_ofNat_lt (h : n < 2 ^ k) : (ofNat n).degree < k := by
  rw [degree_lt_iff_coeff_zero]
  intro i hi
  rw [coeff_ofNat, Nat.testBit_lt_two_pow (h.trans_le (Nat.pow_le_pow_right Nat.two_pos hi)),
    if_neg Bool.false_ne_true]

theorem degree_ofBits_lt : ∀ xs : List Bool, (ofBits xs).degree < xs.length
  | []      => by simp [ofBits]
  | b :: bs => by
      have hlt : (bs.length : WithBot Nat) < (b :: bs).length := by
        exact_mod_cast Nat.lt_succ_self _
      refine lt_of_le_of_lt (degree_add_le _ _) (max_lt ?_ ((degree_ofBits_lt bs).trans hlt))
      cases b with
      | false => simp
      | true => simpa using hlt

theorem ofBits_append (xs ys : List Bool) :
    ofBits (xs ++ ys) = ofBits xs * X ^ ys.length + ofBits ys := by
  induction xs with
  | nil => simp [ofBits]
  | cons b xs ih =>
      rw [List.cons_append, ofBits, ofBits, ih, List.length_append, add_mul, add_assoc]
      cases b <;> simp [pow_add]

@[simp] theorem length_bitsOf (k n : Nat) : (bitsOf k n).length = k := by
  induction k with
  | zero => rfl
  | succ k ih => simp [bitsOf, ih]

theorem ofBits_bitsOf (k n : Nat) : ofBits (bitsOf k n) = ofNat (n % 2 ^ k) := by
  induction k with
  | zero => simp [bitsOf, ofBits, Nat.mod_one]
  | succ k ih =>
      rw [bitsOf, ofBits, ih, length_bitsOf]
      ext i
      rw [coeff_add, coeff_ofNat, coeff_ofNat, Nat.testBit_mod_two_pow, Nat.testBit_mod_two_pow]
      rcases lt_trichotomy i k with hik | rfl | hik
      · cases n.testBit k <;> simp [coeff_X_pow, hik, hik.ne, Nat.lt_succ_of_lt hik]
      · cases hn : n.testBit i <;> simp
      · cases n.testBit k <;> simp [coeff_X_pow, hik.ne', hik.not_gt, Nat.not_lt.mpr hik]

/-- Bits of one length with one polynomial are the same. -/
theorem ofBits_injective (hlen : xs.length = ys.length) (h : ofBits xs = ofBits ys) : xs = ys := by
  induction xs generalizing ys with
  | nil => exact (List.length_eq_zero_iff.mp hlen.symm).symm
  | cons x xs ih =>
      cases ys with
      | nil => cases hlen
      | cons y ys =>
          have hrest := Nat.succ.inj hlen
          have htop : ∀ {z : Bool} {zs : List Bool},
              (ofBits (z :: zs)).coeff zs.length = if z then 1 else 0 := by
            intro z zs
            rw [ofBits, coeff_add, coeff_eq_zero_of_degree_lt (degree_ofBits_lt zs)]
            cases z <;> simp
          have hhead : x = y := by
            have hc := congrArg (fun p => p.coeff xs.length) h
            simp only [htop] at hc
            rw [hrest, htop] at hc
            cases x <;> cases y <;> simp_all
          subst hhead
          rw [ofBits, ofBits, hrest] at h
          rw [ih hrest (add_left_cancel h)]

end

/-! ## The register -/

section Register

variable {w g r init : Nat}

/-- `x ^ w` and, below it, the generator's lower digits `g`. -/
noncomputable def generator (w g : Nat) : (ZMod 2)[X] := X ^ w + ofNat g

/-- The register moves up; a digit that leaves it takes the generator away. -/
def shift (w g r : Nat) : Nat := (if r.testBit (w - 1) then (r <<< 1) ^^^ g else r <<< 1) % 2 ^ w

def step (w g r byte : Nat) : Nat := (shift w g)^[8] (r ^^^ (byte <<< (w - 8)))

/-- The check of a list of bytes, from a register `init`. -/
def check (w g init : Nat) (bytes : List Nat) : Nat := bytes.foldl (step w g) init

/-- The bits of a list of bytes. -/
def bits (bytes : List Nat) : List Bool := bytes.flatMap (bitsOf 8)

theorem degree_generator (hg : g < 2 ^ w) : (generator w g).degree = w := by
  rw [generator, degree_add_eq_left_of_degree_lt, degree_X_pow]
  rw [degree_X_pow]
  exact degree_ofNat_lt hg

theorem monic_generator (hg : g < 2 ^ w) : (generator w g).Monic :=
  monic_X_pow_add (degree_ofNat_lt hg)

/-- A number one digit too long, cut to `w` digits. -/
theorem ofNat_mod {n : Nat} (hn : n < 2 ^ (w + 1)) :
    ofNat (n % 2 ^ w) = ofNat n + if n.testBit w then X ^ w else 0 := by
  ext i
  rw [coeff_add, coeff_ofNat, coeff_ofNat, Nat.testBit_mod_two_pow]
  rcases lt_trichotomy i w with hi | rfl | hi
  · cases n.testBit w <;> simp [coeff_X_pow, hi, hi.ne]
  · cases hb : n.testBit i
    · simp
    · simp
      decide
  · have hbit := Nat.testBit_lt_two_pow (hn.trans_le (Nat.pow_le_pow_right Nat.two_pos hi))
    cases n.testBit w <;> simp [coeff_X_pow, hbit, hi.ne']

theorem shift_lt (w g r : Nat) : shift w g r < 2 ^ w := Nat.mod_lt _ (Nat.two_pow_pos w)

/-- A shift reads the lowest `w` digits alone. -/
theorem shift_mod (hw : 0 < w) (g r : Nat) : shift w g (r % 2 ^ w) = shift w g r := by
  have htop : (r % 2 ^ w).testBit (w - 1) = r.testBit (w - 1) := by
    rw [Nat.testBit_mod_two_pow]
    simp [hw]
  rw [shift, shift, htop]
  refine Nat.eq_of_testBit_eq fun i => ?_
  rw [Nat.testBit_mod_two_pow, Nat.testBit_mod_two_pow]
  by_cases hi : i < w
  · have hlow : ((r % 2 ^ w) <<< 1).testBit i = (r <<< 1).testBit i := by
      rw [Nat.testBit_shiftLeft, Nat.testBit_shiftLeft, Nat.testBit_mod_two_pow]
      simp [show i - 1 < w by omega]
    cases r.testBit (w - 1) <;> simp [Nat.testBit_xor, hlow]
  · simp [hi]

/-- One shift multiplies by `x` and reduces. -/
theorem mk_shift (hw : 0 < w) (hg : g < 2 ^ w) (hr : r < 2 ^ w) :
    AdjoinRoot.mk (generator w g) (ofNat (shift w g r)) =
      AdjoinRoot.mk (generator w g) (ofNat r * X) := by
  have hup : r <<< 1 < 2 ^ (w + 1) := by
    rw [Nat.shiftLeft_eq, Nat.pow_succ]
    omega
  have hgup : g < 2 ^ (w + 1) := hg.trans (Nat.pow_lt_pow_right Nat.one_lt_two (Nat.lt_succ_self w))
  have htop : (r <<< 1).testBit w = r.testBit (w - 1) := by
    rw [Nat.testBit_shiftLeft]
    simp [Nat.one_le_iff_ne_zero.mpr hw.ne']
  rw [AdjoinRoot.mk_eq_mk, shift]
  cases hb : r.testBit (w - 1) with
  | true =>
      have hbit : ((r <<< 1) ^^^ g).testBit w = true := by
        rw [Nat.testBit_xor, htop, hb, Nat.testBit_lt_two_pow hg]
        rfl
      rw [if_pos rfl, ofNat_mod (Nat.xor_lt_two_pow hup hgup), hbit, if_pos rfl, ofNat_xor,
        ofNat_shiftLeft, pow_one]
      exact Dvd.intro_left 1 (by rw [generator]; ring)
  | false =>
      rw [if_neg Bool.false_ne_true, ofNat_mod hup, htop, hb, if_neg Bool.false_ne_true,
        ofNat_shiftLeft, pow_one, add_zero, sub_self]
      exact dvd_zero _

theorem mk_shifts (hw : 0 < w) (hg : g < 2 ^ w) (hr : r < 2 ^ w) (k : Nat) :
    (shift w g)^[k] r < 2 ^ w ∧ AdjoinRoot.mk (generator w g) (ofNat ((shift w g)^[k] r)) =
      AdjoinRoot.mk (generator w g) (ofNat r * X ^ k) := by
  induction k with
  | zero => simpa using hr
  | succ k ih =>
      rw [Function.iterate_succ_apply']
      refine ⟨shift_lt _ _ _, ?_⟩
      rw [mk_shift hw hg ih.1, map_mul, ih.2, ← map_mul, pow_succ, mul_assoc]

/-- Only the low byte of what a step reads counts. -/
theorem step_mod (hw : 8 ≤ w) (g r byte : Nat) :
    step w g r byte = (shift w g)^[8] (r ^^^ ((byte % 2 ^ 8) <<< (w - 8))) := by
  have hcut : (r ^^^ (byte <<< (w - 8))) % 2 ^ w =
      (r ^^^ ((byte % 2 ^ 8) <<< (w - 8))) % 2 ^ w := by
    refine Nat.eq_of_testBit_eq fun i => ?_
    simp only [Nat.testBit_mod_two_pow, Nat.testBit_xor, Nat.testBit_shiftLeft]
    by_cases hi : i < w
    · simp [show i - (w - 8) < 8 by omega]
    · simp [hi]
  have hfirst := congrArg (shift w g) hcut
  rw [shift_mod (Nat.zero_lt_of_lt hw), shift_mod (Nat.zero_lt_of_lt hw)] at hfirst
  rw [step, Function.iterate_succ_apply, hfirst, ← Function.iterate_succ_apply]

/-- One byte of the register: the remainder is multiplied by X ^ 8, and the byte comes in at the top. -/
theorem mk_step (hw : 8 ≤ w) (hg : g < 2 ^ w) (hr : r < 2 ^ w) (byte : Nat) :
    step w g r byte < 2 ^ w ∧ AdjoinRoot.mk (generator w g) (ofNat (step w g r byte)) =
      AdjoinRoot.mk (generator w g) (ofNat r * X ^ 8 + ofBits (bitsOf 8 byte) * X ^ w) := by
  have hbyte : (byte % 2 ^ 8) <<< (w - 8) < 2 ^ w := by
    rw [Nat.shiftLeft_eq]
    calc byte % 2 ^ 8 * 2 ^ (w - 8) < 2 ^ 8 * 2 ^ (w - 8) :=
          Nat.mul_lt_mul_of_pos_right (Nat.mod_lt _ (by decide)) (Nat.two_pow_pos _)
      _ = 2 ^ w := by rw [← Nat.pow_add, Nat.add_sub_cancel' hw]
  rw [step_mod hw]
  obtain ⟨hlt, hmk⟩ := mk_shifts (Nat.zero_lt_of_lt hw) hg (Nat.xor_lt_two_pow hr hbyte) 8
  refine ⟨hlt, hmk.trans (congrArg _ ?_)⟩
  rw [ofNat_xor, ofNat_shiftLeft, ofBits_bitsOf, add_mul, mul_assoc, ← pow_add,
    Nat.sub_add_cancel hw]

@[simp] theorem length_bits (bytes : List Nat) : (bits bytes).length = 8 * bytes.length := by
  induction bytes with
  | nil => rfl
  | cons b bs ih =>
      have hcons : bits (b :: bs) = bitsOf 8 b ++ bits bs := rfl
      rw [hcons, List.length_append, ih, length_bitsOf, List.length_cons]
      omega

/-- The register after all bytes is the remainder of the message, with the start value in front of it. -/
theorem mk_check (hw : 8 ≤ w) (hg : g < 2 ^ w) (hinit : init < 2 ^ w) (bytes : List Nat) :
    check w g init bytes < 2 ^ w ∧
      AdjoinRoot.mk (generator w g) (ofNat (check w g init bytes)) = AdjoinRoot.mk (generator w g)
        (ofNat init * X ^ (8 * bytes.length) + ofBits (bits bytes) * X ^ w) := by
  induction bytes generalizing init with
  | nil => simpa [check, bits, ofBits] using hinit
  | cons b bs ih =>
      obtain ⟨hlt, hstep⟩ := mk_step hw hg hinit b
      obtain ⟨hlt', hrest⟩ := ih hlt
      have hcons : bits (b :: bs) = bitsOf 8 b ++ bits bs := rfl
      refine ⟨hlt', hrest.trans ?_⟩
      rw [map_add, map_mul, hstep, ← map_mul, ← map_add, hcons, ofBits_append, length_bits,
        List.length_cons]
      refine congrArg _ ?_
      ring

theorem bits_append (us vs : List Nat) : bits (us ++ vs) = bits us ++ bits vs := List.flatMap_append

theorem drop_bits (us : List Nat) (i : Nat) : (bits us).drop (8 * i) = bits (us.drop i) := by
  induction i generalizing us with
  | zero => rfl
  | succ i ih =>
      cases us with
      | nil => simp [bits]
      | cons u us =>
          have hcons : bits (u :: us) = bitsOf 8 u ++ bits us := rfl
          rw [hcons, List.drop_succ_cons, ← ih, List.drop_append, length_bitsOf,
            List.drop_eq_nil_of_le (by rw [length_bitsOf]; omega), List.nil_append]
          congr 1

theorem bitsOf_inj {k m n : Nat} (h : bitsOf k m = bitsOf k n) : m % 2 ^ k = n % 2 ^ k :=
  ofNat_injective (by rw [← ofBits_bitsOf, ← ofBits_bitsOf, h])

/-- Bytes are told apart by their bits. -/
theorem bits_inj {us vs : List Nat} (hus : ∀ u ∈ us, u < 256) (hvs : ∀ v ∈ vs, v < 256)
    (h : bits us = bits vs) : us = vs := by
  induction us generalizing vs with
  | nil =>
      have hlen := congrArg List.length h
      simp only [length_bits, List.length_nil] at hlen
      exact (List.length_eq_zero_iff.mp (by omega)).symm
  | cons u us ih =>
      cases vs with
      | nil =>
          have hlen := congrArg List.length h
          simp at hlen
      | cons v vs =>
          obtain ⟨hhead, htail⟩ := List.append_inj h (by simp)
          have huv : u % 256 = v % 256 := bitsOf_inj hhead
          rw [Nat.mod_eq_of_lt (hus u List.mem_cons_self), Nat.mod_eq_of_lt (hvs v List.mem_cons_self)] at huv
          rw [huv, ih (fun x hx => hus x (List.mem_cons_of_mem u hx))
            (fun x hx => hvs x (List.mem_cons_of_mem v hx)) htail]

/-- The register ends at the remainder of the message moved up by `w`, with the first register put
in front of it. -/
theorem ofNat_check (hw : 8 ≤ w) (hg : g < 2 ^ w) (hinit : init < 2 ^ w) (bytes : List Nat) :
    ofNat (check w g init bytes) =
      (ofNat init * X ^ (8 * bytes.length) + ofBits (bits bytes) * X ^ w) %ₘ generator w g := by
  obtain ⟨hlt, hmk⟩ := mk_check hw hg hinit bytes
  have hmonic := monic_generator hg
  rw [← modByMonic_eq_of_dvd_sub hmonic (AdjoinRoot.mk_eq_mk.mp hmk),
    (modByMonic_eq_self_iff hmonic).mpr]
  rw [degree_generator hg]
  exact degree_ofNat_lt hlt

/-! ## Errors -/

/-- A change of a message that leaves its bits alone outside of `n` consecutive ones. -/
structure Burst (n : Nat) (us vs : List Nat) (k : Nat) : Prop where
  length_eq : us.length = vs.length
  outside : ∀ i, i < k ∨ k + n ≤ i → (bits us)[i]? = (bits vs)[i]?

theorem Burst.take_eq {n k j : Nat} {us vs : List Nat} (h : Burst n us vs k) (hj : j ≤ k) :
    (bits us).take j = (bits vs).take j := by
  refine List.ext_getElem? fun i => ?_
  rw [List.getElem?_take, List.getElem?_take]
  split
  case isTrue hi => exact h.outside i (Or.inl (by omega))
  case isFalse => rfl

theorem Burst.drop_eq {n k j : Nat} {us vs : List Nat} (h : Burst n us vs k) (hj : k + n ≤ j) :
    (bits us).drop j = (bits vs).drop j := by
  refine List.ext_getElem? fun i => ?_
  rw [List.getElem?_drop, List.getElem?_drop]
  exact h.outside _ (Or.inr (by omega))

/-- A generator with a constant term shares no factor with `x`. -/
theorem isCoprime_generator (hw : 0 < w) (hodd : g.testBit 0 = true) (k : Nat) :
    IsCoprime (generator w g) (X ^ k) := by
  have hcoprime : IsCoprime X (generator w g) := by
    refine irreducible_X.coprime_iff_not_dvd.mpr fun h => ?_
    rw [X_dvd_iff, generator, coeff_add, coeff_ofNat, hodd, coeff_X_pow, if_neg hw.ne,
      zero_add, if_pos rfl] at h
    exact one_ne_zero h
  exact hcoprime.symm.pow_right

/-- An error shorter than the generator, wherever it stands, is no multiple of it. -/
theorem eq_zero_of_dvd {p : (ZMod 2)[X]} {k : Nat} (hw : 0 < w) (hg : g < 2 ^ w)
    (hodd : g.testBit 0 = true) (hp : p.degree < w) (h : generator w g ∣ p * X ^ k) : p = 0 := by
  have hdvd := (isCoprime_generator hw hodd k).dvd_of_dvd_mul_right h
  refine eq_zero_of_dvd_of_degree_lt hdvd ?_
  rwa [degree_generator hg]

/-- An error in the top `k` digits and one below them do not make up for each other. -/
theorem eq_zero_of_dvd_add {p q : (ZMod 2)[X]} {k : Nat} (hw : 0 < w) (hg : g < 2 ^ w)
    (hodd : g.testBit 0 = true) (hk : k ≤ w) (hp : p.degree < k) (hq : q.degree < (w - k : Nat))
    (h : generator w g ∣ p * X ^ (w - k) + q) : p = 0 := by
  rw [degree_lt_iff_coeff_zero] at hp hq
  have hshort : degree (p * X ^ (w - k) + q) < (w : WithBot Nat) := by
    rw [degree_lt_iff_coeff_zero]
    intro i hi
    rw [coeff_add, coeff_mul_X_pow', if_pos (by omega), hp _ (by omega), hq _ (by omega), add_zero]
  have hzero := eq_zero_of_dvd (k := 0) hw hg hodd hshort (by rwa [pow_zero, mul_one])
  ext i
  have hi := congrArg (fun p => p.coeff (i + (w - k))) hzero
  simpa only [coeff_add, coeff_mul_X_pow, coeff_zero, hq _ (Nat.le_add_left _ i), add_zero] using hi

/-- The checks of two messages differ by the remainder of what the messages differ by. -/
theorem dvd_add_checks {us vs : List Nat} (hw : 8 ≤ w) (hg : g < 2 ^ w) (hinit : init < 2 ^ w)
    (hlen : us.length = vs.length) :
    generator w g ∣ (ofBits (bits us) + ofBits (bits vs)) * X ^ w +
      ofNat (check w g init us ^^^ check w g init vs) := by
  obtain ⟨-, hu⟩ := mk_check hw hg hinit us
  obtain ⟨-, hv⟩ := mk_check hw hg hinit vs
  have hdvd := dvd_add (AdjoinRoot.mk_eq_mk.mp hu) (AdjoinRoot.mk_eq_mk.mp hv)
  have htwo : ∀ p : (ZMod 2)[X], p + p = 0 := CharTwo.add_self_eq_zero
  refine hdvd.trans (dvd_of_eq ?_)
  rw [ofNat_xor, hlen, CharTwo.sub_eq_add, CharTwo.sub_eq_add]
  linear_combination (htwo (ofNat init * X ^ (8 * vs.length)))

/-- Two messages that differ in a window of at most `w` bits have different checks. -/
theorem eq_of_window {us vs : List Nat} {xs ps qs ys : List Bool} (hw : 8 ≤ w) (hg : g < 2 ^ w)
    (hodd : g.testBit 0 = true) (hinit : init < 2 ^ w) (hlen : us.length = vs.length)
    (hus : bits us = xs ++ ps ++ ys) (hvs : bits vs = xs ++ qs ++ ys) (hpq : ps.length = qs.length)
    (hps : ps.length ≤ w) (h : check w g init us = check w g init vs) : ps = qs := by
  have hdvd := dvd_add_checks hw hg hinit hlen
  have htwo : ∀ p : (ZMod 2)[X], p + p = 0 := CharTwo.add_self_eq_zero
  have hsum : ofBits (bits us) + ofBits (bits vs) = (ofBits ps + ofBits qs) * X ^ ys.length := by
    rw [hus, hvs, ofBits_append, ofBits_append, ofBits_append, ofBits_append, hpq]
    linear_combination htwo (ofBits xs * X ^ qs.length * X ^ ys.length) + htwo (ofBits ys)
  have hdeg : (ofBits ps + ofBits qs).degree < w := by
    refine lt_of_le_of_lt (degree_add_le _ _) (max_lt ?_ ?_)
    · exact (degree_ofBits_lt ps).trans_le (by exact_mod_cast hps)
    · exact (degree_ofBits_lt qs).trans_le (by exact_mod_cast hpq ▸ hps)
  rw [h, Nat.xor_self, ofNat_zero, add_zero, hsum, mul_assoc, ← pow_add] at hdvd
  have hzero := eq_zero_of_dvd (Nat.zero_lt_of_lt hw) hg hodd hdeg hdvd
  exact ofBits_injective hpq (CharTwo.add_eq_zero.mp hzero)

/-- Two messages that differ in their last `j` bits alone differ in the last `k` digits of their
checks, where `j ≤ k`. -/
theorem eq_of_tail {us vs : List Nat} {xs ps qs : List Bool} {k : Nat} (hw : 8 ≤ w) (hg : g < 2 ^ w)
    (hodd : g.testBit 0 = true) (hinit : init < 2 ^ w) (hlen : us.length = vs.length)
    (hus : bits us = xs ++ ps) (hvs : bits vs = xs ++ qs) (hpq : ps.length = qs.length)
    (hps : ps.length ≤ k) (hk : k ≤ w)
    (h : check w g init us % 2 ^ k = check w g init vs % 2 ^ k) : ps = qs := by
  obtain ⟨hu, -⟩ := mk_check hw hg hinit us
  obtain ⟨hv, -⟩ := mk_check hw hg hinit vs
  have hdvd := dvd_add_checks hw hg hinit hlen
  have htwo : ∀ p : (ZMod 2)[X], p + p = 0 := CharTwo.add_self_eq_zero
  have hsum : ofBits (bits us) + ofBits (bits vs) = ofBits ps + ofBits qs := by
    rw [hus, hvs, ofBits_append, ofBits_append, hpq]
    linear_combination htwo (ofBits xs * X ^ qs.length)
  have hdeg : (ofBits ps + ofBits qs).degree < k := by
    refine lt_of_le_of_lt (degree_add_le _ _) (max_lt ?_ ?_)
    · exact (degree_ofBits_lt ps).trans_le (by exact_mod_cast hps)
    · exact (degree_ofBits_lt qs).trans_le (by exact_mod_cast hpq ▸ hps)
  -- The difference of the checks, without its last `k` digits, which are zero.
  generalize hδ : check w g init us ^^^ check w g init vs = δ at hdvd
  have hδlt : δ < 2 ^ w := hδ ▸ Nat.xor_lt_two_pow hu hv
  have hlow : δ = (δ >>> k) <<< k := by
    have hzero : δ % 2 ^ k = 0 := by
      rw [← hδ, Nat.xor_mod_two_pow, h, Nat.xor_self]
    rw [Nat.shiftLeft_eq, Nat.shiftRight_eq_div_pow]
    exact (Nat.div_mul_cancel (Nat.dvd_of_mod_eq_zero hzero)).symm
  have hδdeg : (ofNat (δ >>> k)).degree < (w - k : Nat) := by
    refine degree_ofNat_lt ?_
    rw [Nat.shiftRight_eq_div_pow]
    refine Nat.div_lt_of_lt_mul ?_
    rwa [← Nat.pow_add, Nat.add_sub_cancel' hk]
  have hfactor : (ofBits ps + ofBits qs) * X ^ w + ofNat δ =
      ((ofBits ps + ofBits qs) * X ^ (w - k) + ofNat (δ >>> k)) * X ^ k := by
    have hpow : (X : (ZMod 2)[X]) ^ w = X ^ (w - k) * X ^ k := by
      rw [← pow_add, Nat.sub_add_cancel hk]
    rw [hpow, hlow, ofNat_shiftLeft, ← hlow]
    ring
  rw [hsum, hfactor] at hdvd
  have hrest := (isCoprime_generator (Nat.zero_lt_of_lt hw) hodd k).dvd_of_dvd_mul_right hdvd
  have hzero := eq_zero_of_dvd_add (Nat.zero_lt_of_lt hw) hg hodd hk hdeg hδdeg hrest
  exact ofBits_injective hpq (CharTwo.add_eq_zero.mp hzero)

end Register

end Crc

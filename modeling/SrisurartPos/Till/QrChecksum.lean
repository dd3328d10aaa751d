import SrisurartPos.Till.PromptPay

/-! # The checksum of a payload

The loop over bits is the register of a polynomial division, a byte of every code unit at a time. A
payload that is changed in a window as long as the checksum no longer carries its own checksum, also
where the window runs from the body into the checksum's letters. -/

namespace Till.PromptPay

open Crc Money Numeral Tlv

/-! ## The register -/

/-- The constant `0x1021`, which stands for `x ^ 12 + x ^ 5 + 1` below `x ^ 16`. -/
def ccitt : Nat := 0x1021

theorem crcRound_eq (crc : Nat) : crcRound crc = shift 16 ccitt crc := by
  have htop : (crc &&& 0x8000 ≠ 0) ↔ crc.testBit 15 = true := by
    have hand : crc &&& 0x8000 = (crc.testBit 15).toNat * 2 ^ 15 := Nat.and_two_pow crc 15
    rw [hand]
    cases crc.testBit 15 <;> decide
  have hmask : ∀ n, n &&& 0xFFFF = n % 2 ^ 16 := fun n => Nat.and_two_pow_sub_one_eq_mod n 16
  rw [crcRound, shift, hmask, if_congr htop rfl rfl]
  rfl

theorem crc16Ccitt_eq (data : List UInt16) :
    crc16Ccitt data = check 16 ccitt 0xFFFF (data.map UInt16.toNat) := by
  have hround : crcRound = shift 16 ccitt := funext crcRound_eq
  rw [crc16Ccitt, check, List.foldl_map, hround]
  rfl

theorem crc16Ccitt_lt (data : List UInt16) : crc16Ccitt data < 2 ^ 16 := by
  rw [crc16Ccitt_eq]
  exact (mk_check (by decide) (by decide) (by decide) _).1

/-- The polynomial that the standard divides by. -/
noncomputable def ccittPolynomial : Polynomial (ZMod 2) :=
  Polynomial.X ^ 16 + Polynomial.X ^ 12 + Polynomial.X ^ 5 + 1

theorem generator_ccitt : generator 16 ccitt = ccittPolynomial := by
  have hsplit : ccitt = (1 <<< 12) ^^^ ((1 <<< 5) ^^^ 1) := by decide
  have hone : ofNat 1 = 1 := by
    ext i
    rw [coeff_ofNat, Polynomial.coeff_one]
    cases i with
    | zero => rfl
    | succ i => simp [Nat.testBit_succ]
  rw [generator, hsplit, ofNat_xor, ofNat_xor, ofNat_shiftLeft, ofNat_shiftLeft, hone,
    ccittPolynomial]
  ring

/-! ## Its letters -/

/-- The letter of a hex digit. -/
def hexLetter (k : Nat) : Char := k.digitChar.toUpper

/-- The checksum is written as four letters, the highest first. -/
theorem crcText_eq {n : Nat} (hn : n < 2 ^ 16) :
    crcText n = [hexLetter (n / 4096), hexLetter (n / 256 % 16), hexLetter (n / 16 % 16), hexLetter (n % 16)] := by
  have hzero : hexLetter 0 = '0' := rfl
  have hdigits : ∀ m, Nat.toDigits 16 m =
      if m < 16 then [m.digitChar] else Nat.toDigits 16 (m / 16) ++ [(m % 16).digitChar] :=
    fun _ => Nat.toDigits_eq_if (by decide)
  rw [crcText, List.leftpad]
  rcases Nat.lt_or_ge n 16 with h1 | h1
  · rw [hdigits, if_pos h1, Nat.mod_eq_of_lt h1, show n / 4096 = 0 by omega,
      show n / 256 = 0 by omega, show n / 16 = 0 by omega]
    rfl
  · rw [hdigits, if_neg (by omega)]
    rcases Nat.lt_or_ge n 256 with h2 | h2
    · rw [hdigits, if_pos (by omega), show n / 4096 = 0 by omega, show n / 256 = 0 by omega,
        Nat.mod_eq_of_lt (show n / 16 < 16 by omega)]
      rfl
    · rw [hdigits, if_neg (by omega), Nat.div_div_eq_div_mul]
      rcases Nat.lt_or_ge n 4096 with h3 | h3
      · rw [hdigits, if_pos (by omega), show n / 4096 = 0 by omega,
          Nat.mod_eq_of_lt (show n / 256 < 16 by omega)]
        rfl
      · rw [hdigits, if_neg (by omega), Nat.div_div_eq_div_mul, hdigits, if_pos (by omega)]
        rfl

theorem hexLetter_lt {k : Nat} (hk : k < 16) : (hexLetter k).toNat < 128 := by
  have hall : ∀ k < 16, (hexLetter k).toNat < 128 := by decide
  exact hall k hk

/-- Hex letters differ in their last five bits. -/
theorem hexLetter_inj {j k : Nat} (hj : j < 16) (hk : k < 16)
    (h : (hexLetter j).toNat % 32 = (hexLetter k).toNat % 32) : j = k := by
  have hall : ∀ j < 16, ∀ k < 16, (hexLetter j).toNat % 32 = (hexLetter k).toNat % 32 → j = k := by
    decide
  exact hall j hj k hk h

/-- The bytes of a checksum's letters. -/
def letters (n : Nat) : List Nat := (crcText n).map Char.toNat

section
variable {m n : Nat}

theorem letters_eq (hn : n < 2 ^ 16) : letters n = [(hexLetter (n / 4096)).toNat,
    (hexLetter (n / 256 % 16)).toNat, (hexLetter (n / 16 % 16)).toNat, (hexLetter (n % 16)).toNat] := by
  rw [letters, crcText_eq hn]
  rfl

theorem letters_lt (hn : n < 2 ^ 16) : ∀ x ∈ letters n, x < 128 := by
  rw [letters_eq hn]
  simp only [List.forall_mem_cons]
  refine ⟨hexLetter_lt (by omega), hexLetter_lt (by omega), hexLetter_lt (by omega),
    hexLetter_lt (by omega), fun x hx => absurd hx List.not_mem_nil⟩

theorem hexLetter_toNat_inj {j k : Nat} (hj : j < 16) (hk : k < 16)
    (h : (hexLetter j).toNat = (hexLetter k).toNat) : j = k :=
  hexLetter_inj hj hk (by rw [h])

theorem length_letters (hn : n < 2 ^ 16) : (letters n).length = 4 := by
  rw [letters_eq hn]
  rfl

/-- Where the letters agree from the `i`th on, the hex digits do. -/
theorem mod_eq_of_letters (hm : m < 2 ^ 16) (hn : n < 2 ^ 16) {i : Nat} (hi : i ≤ 2)
    (h : (bits (letters m)).drop (8 * i) = (bits (letters n)).drop (8 * i)) :
    m % 2 ^ (16 - 4 * i) = n % 2 ^ (16 - 4 * i) := by
  have hlt : ∀ {l : Nat}, l < 2 ^ 16 → ∀ x ∈ (letters l).drop i, x < 256 :=
    fun hl x hx => (letters_lt hl x (List.mem_of_mem_drop hx)).trans (by decide)
  rw [drop_bits, drop_bits] at h
  have hdrop := bits_inj (hlt hm) (hlt hn) h
  rw [letters_eq hm, letters_eq hn] at hdrop
  interval_cases i <;> simp only [List.drop_succ_cons, List.drop_zero, List.cons.injEq] at hdrop
  · obtain ⟨h₃, h₂, h₁, h₀, -⟩ := hdrop
    have h₃ := hexLetter_toNat_inj (by omega) (by omega) h₃
    have h₂ := hexLetter_toNat_inj (by omega) (by omega) h₂
    have h₁ := hexLetter_toNat_inj (by omega) (by omega) h₁
    have h₀ := hexLetter_toNat_inj (by omega) (by omega) h₀
    omega
  · obtain ⟨h₂, h₁, h₀, -⟩ := hdrop
    have h₂ := hexLetter_toNat_inj (by omega) (by omega) h₂
    have h₁ := hexLetter_toNat_inj (by omega) (by omega) h₁
    have h₀ := hexLetter_toNat_inj (by omega) (by omega) h₀
    omega
  · obtain ⟨h₁, h₀, -⟩ := hdrop
    have h₁ := hexLetter_toNat_inj (by omega) (by omega) h₁
    have h₀ := hexLetter_toNat_inj (by omega) (by omega) h₀
    omega

/-- Three bits more than the whole do not matter: no two hex letters share their last five. -/
theorem eq_of_letters (hm : m < 2 ^ 16) (hn : n < 2 ^ 16)
    (h : (bits (letters m)).drop 3 = (bits (letters n)).drop 3) : m = n := by
  have hlow : (bits (letters m)).drop (8 * 1) = (bits (letters n)).drop (8 * 1) := by
    have hdrop := congrArg (List.drop 5) h
    rwa [List.drop_drop, List.drop_drop] at hdrop
  have hmod := mod_eq_of_letters hm hn (by decide) hlow
  have hfirst : bitsOf 5 (hexLetter (m / 4096)).toNat = bitsOf 5 (hexLetter (n / 4096)).toNat := by
    have htake := congrArg (List.take 5) h
    rwa [letters_eq hm, letters_eq hn] at htake
  have hdigit := hexLetter_inj (by omega) (by omega) (bitsOf_inj hfirst)
  omega

end

/-! ## Changed texts -/

section
variable {as bs : List Nat}

/-- The checksum of some bytes. -/
def crcOf (as : List Nat) : Nat := check 16 ccitt 0xFFFF as

theorem crcOf_lt (as : List Nat) : crcOf as < 2 ^ 16 :=
  (mk_check (by decide) (by decide) (by decide) as).1

/-- The bits before a place `k` and behind it. -/
theorem bits_split (as : List Nat) (k : Nat) : bits as = (bits as).take k ++ (bits as).drop k :=
  (List.take_append_drop k (bits as)).symm

/-- Bytes with their own checksum behind them are changed in sixteen bits into no other such bytes. -/
theorem eq_of_burst (has : ∀ a ∈ as, a < 256) (hbs : ∀ b ∈ bs, b < 256) {k : Nat}
    (h : Burst 16 (as ++ letters (crcOf as)) (bs ++ letters (crcOf bs)) k) : as = bs := by
  have hodd : ccitt.testBit 0 = true := by decide
  have hlen : as.length = bs.length := by
    have := h.length_eq
    rw [List.length_append, List.length_append, length_letters (crcOf_lt as),
      length_letters (crcOf_lt bs)] at this
    omega
  have hN : (bits as).length = (bits bs).length := by rw [length_bits, length_bits, hlen]
  -- Before the window the bodies agree, behind it the letters do.
  have hbefore : ∀ j, j ≤ k → j ≤ (bits as).length → (bits as).take j = (bits bs).take j := by
    intro j hj hle
    have htake := h.take_eq hj
    rwa [bits_append, bits_append, List.take_append_of_le_length hle,
      List.take_append_of_le_length (hN ▸ hle)] at htake
  have hbehind : ∀ j, k + 16 ≤ (bits as).length + j →
      (bits (letters (crcOf as))).drop j = (bits (letters (crcOf bs))).drop j := by
    intro j hj
    have hdrop := h.drop_eq hj
    rw [bits_append, bits_append, List.drop_length_add_append] at hdrop
    rwa [hN, List.drop_length_add_append] at hdrop
  rcases Nat.lt_or_ge k (bits as).length with hk | hk
  · have hbody : bits as = (bits as).take k ++ (bits as).drop k := bits_split as k
    have hbody' : bits bs = (bits as).take k ++ (bits bs).drop k := by
      rw [hbefore k le_rfl hk.le]
      exact bits_split bs k
    have hrest : ((bits as).drop k).length = ((bits bs).drop k).length := by
      rw [List.length_drop, List.length_drop, hN]
    have hfinish : (bits as).drop k = (bits bs).drop k → as = bs :=
      fun he => bits_inj has hbs (by rw [hbody, hbody', he])
    have htail : ∀ i, i ≤ 2 → (bits as).length ≤ k + (16 - 4 * i) → k + 16 ≤ (bits as).length + 8 * i →
        as = bs := by
      -- The window ends in the letters: the digits behind it agree.
      intro i hi hj hend
      have hmod := mod_eq_of_letters (crcOf_lt as) (crcOf_lt bs) hi (hbehind _ hend)
      refine hfinish (eq_of_tail (by decide) (by decide) hodd (by decide) hlen hbody hbody' hrest ?_ ?_ hmod)
      · rw [List.length_drop]
        omega
      · omega
    rcases Nat.lt_or_ge (bits as).length (k + 16) with hend | hend
    · rcases Nat.lt_or_ge (k + 8) (bits as).length with h8 | h8
      · rcases Nat.lt_or_ge (k + 12) (bits as).length with h12 | h12
        · -- At most three bits of the first letter are in the window.
          have heq := eq_of_letters (crcOf_lt as) (crcOf_lt bs) (hbehind 3 (by omega))
          refine hfinish (eq_of_tail (k := 16) (by decide) (by decide) hodd (by decide) hlen hbody hbody' hrest
            ?_ le_rfl (congrArg (· % 2 ^ 16) heq))
          rw [List.length_drop]
          omega
        · exact htail 1 (by decide) (by omega) (by omega)
      · exact htail 2 (by decide) (by omega) (by omega)
    · -- The window lies in the body.
      have heq : crcOf as = crcOf bs := by
        have hdrop := congrArg (List.drop 3) (hbehind 0 (by omega))
        exact eq_of_letters (crcOf_lt as) (crcOf_lt bs) (by simpa using hdrop)
      have hrear : ((bits as).drop k).drop 16 = ((bits bs).drop k).drop 16 := by
        have hdrop := h.drop_eq (j := k + 16) le_rfl
        rw [bits_append, bits_append, List.drop_append_of_le_length hend,
          List.drop_append_of_le_length (hN ▸ hend)] at hdrop
        have hsame := (List.append_inj hdrop (by rw [List.length_drop, List.length_drop, hN])).1
        rwa [List.drop_drop, List.drop_drop]
      have hparts : ∀ xs : List Bool, xs = xs.take 16 ++ xs.drop 16 :=
        fun xs => (List.take_append_drop 16 xs).symm
      have hus : bits as = (bits as).take k ++ ((bits as).drop k).take 16 ++ ((bits as).drop k).drop 16 := by
        rw [List.append_assoc, ← hparts]
        exact hbody
      have hvs : bits bs = (bits as).take k ++ ((bits bs).drop k).take 16 ++ ((bits as).drop k).drop 16 := by
        rw [hrear, List.append_assoc, ← hparts]
        exact hbody'
      have hwindow := eq_of_window (by decide) (by decide) hodd (by decide) hlen hus hvs
        (by rw [List.length_take, List.length_take, hrest]) (List.length_take_le 16 _) heq
      exact hfinish (by rw [hparts ((bits as).drop k), hparts ((bits bs).drop k), hwindow, hrear])
  · -- The window lies in the letters.
    have htake := hbefore (bits as).length hk le_rfl
    rw [List.take_length, hN, List.take_length] at htake
    exact bits_inj has hbs htake

end

/-! ## Texts as bytes -/

/-- A text of letters that take one byte each. -/
def Ascii (s : List Char) : Prop := ∀ c ∈ s, c.toNat < 128

instance (s : List Char) : Decidable (Ascii s) :=
  decidable_of_iff (s.all (fun c => c.toNat < 128) = true) (by simp [Ascii])

def bytesOf (s : List Char) : List UInt8 := s.map fun c => UInt8.ofNat c.toNat

section
variable {s t : List Char}

theorem Ascii.append (hs : Ascii s) (ht : Ascii t) : Ascii (s ++ t) := by
  intro c hc
  rcases List.mem_append.mp hc with hc | hc
  · exact hs c hc
  · exact ht c hc

theorem ascii_of_digits (h : ∀ c ∈ s, c.isDigit = true) : Ascii s := by
  intro c hc
  have hdigit := h c hc
  simp only [Char.isDigit, Bool.and_eq_true, decide_eq_true_eq] at hdigit
  exact Nat.lt_of_le_of_lt hdigit.2 (by decide)

theorem ascii_tlv (hs : Ascii s) (ht : Ascii t) : Ascii (tlv s t) :=
  (hs.append (ascii_of_digits isDigit_padStart)).append ht

theorem codeUnits_append (s t : List Char) : codeUnits (s ++ t) = codeUnits s ++ codeUnits t :=
  List.flatMap_append

theorem codeUnits_of_ascii (h : Ascii s) : codeUnits s = s.map fun c => UInt16.ofNat c.toNat := by
  induction s with
  | nil => rfl
  | cons c s ih =>
      have hc : c.toNat < 0x10000 := (h c List.mem_cons_self).trans (by decide)
      have hcons : codeUnits (c :: s) = codeUnits [c] ++ codeUnits s := codeUnits_append [c] s
      rw [hcons, ih fun d hd => h d (List.mem_cons_of_mem c hd)]
      simp [codeUnits, hc]

/-- The code units of such a text are its bytes. -/
theorem codeUnits_eq_bytes (h : Ascii s) : codeUnits s = (bytesOf s).map UInt8.toUInt16 := by
  rw [codeUnits_of_ascii h, bytesOf, List.map_map]
  refine List.map_congr_left fun c hc => ?_
  have hlt := h c hc
  rw [← UInt16.toNat_inj, Function.comp_apply, UInt8.toNat_toUInt16, UInt8.toNat_ofNat',
    UInt16.toNat_ofNat', Nat.mod_eq_of_lt (hlt.trans (by decide)), Nat.mod_eq_of_lt (hlt.trans (by decide))]

theorem ascii_crcText {n : Nat} (hn : n < 2 ^ 16) : Ascii (crcText n) := by
  intro c hc
  exact letters_lt hn _ (List.mem_map_of_mem hc)

theorem codeUnits_crcText {n : Nat} (hn : n < 2 ^ 16) :
    (codeUnits (crcText n)).map UInt16.toNat = letters n := by
  rw [codeUnits_of_ascii (ascii_crcText hn), letters, List.map_map]
  refine List.map_congr_left fun c hc => ?_
  have hlt := ascii_crcText hn c hc
  rw [Function.comp_apply, UInt16.toNat_ofNat', Nat.mod_eq_of_lt (hlt.trans (by decide))]

theorem length_codeUnits_crcText {n : Nat} (hn : n < 2 ^ 16) : (codeUnits (crcText n)).length = 4 := by
  rw [← List.length_map UInt16.toNat, codeUnits_crcText hn, length_letters hn]

/-- The target of a valid id is plain ASCII. -/
theorem ascii_target {id : List Char} (h : isValidPromptPayId id = true) : Ascii (target id) := by
  have hid := ascii_of_digits (isValid_iff.mp h).1
  unfold target
  split
  · exact ascii_tlv (by decide) hid
  · split
    · exact ascii_tlv (by decide) hid
    · refine ascii_tlv (by decide) (ascii_of_digits ?_)
      intro c hc
      rcases List.mem_append.mp hc with hc | hc
      · rw [List.eq_of_mem_replicate hc]
        rfl
      · rcases List.mem_append.mp hc with hc | hc
        · exact List.all_eq_true.mp (by decide : "66".toList.all Char.isDigit = true) c hc
        · exact (isValid_iff.mp h).1 c (List.mem_of_mem_drop hc)

theorem ascii_amountText (baht : ℚ) : Ascii (amountText baht) := by
  have hwhole : ∀ {n}, ∀ c ∈ Nat.toDigits 10 n, c.isDigit = true :=
    fun c hc => Nat.isDigit_of_mem_toDigits (by decide) (by decide) hc
  have hpoint : Ascii ['.'] := by decide
  exact (ascii_of_digits hwhole).append (hpoint.append (ascii_of_digits isDigit_padStart))

/-- The body of the payload is plain ASCII. -/
theorem ascii_body {id : List Char} (h : isValidPromptPayId id = true) (amount : Option ℚ) :
    Ascii (body id amount) := by
  unfold body
  refine Ascii.append (Ascii.append (Ascii.append (Ascii.append (Ascii.append (Ascii.append ?_ ?_) ?_)
    ?_) ?_) ?_) ?_
  · decide
  · split <;> decide
  · exact ascii_tlv (by decide) (Ascii.append (by decide) (ascii_target h))
  · decide
  · decide
  · split
    · exact ascii_tlv (by decide) (ascii_amountText _)
    · decide
  · decide

end

/-! ## Checked texts -/

theorem checks_sealed (units : List UInt16) :
    checks (units ++ codeUnits (crcText (crc16Ccitt units))) = true := by
  have hlen := length_codeUnits_crcText (crc16Ccitt_lt units)
  rw [checks, List.length_append, hlen, Nat.add_sub_cancel]
  simp

/-- A checked byte string is its beginning with the checksum's letters behind it. -/
theorem eq_sealed_of_checks {q : List UInt8} (h : checks (q.map UInt8.toUInt16) = true) :
    q.map UInt8.toNat = (q.take (q.length - 4)).map UInt8.toNat ++
      letters (crcOf ((q.take (q.length - 4)).map UInt8.toNat)) := by
  have hcomp : ∀ p : List UInt8, (p.map UInt8.toUInt16).map UInt16.toNat = p.map UInt8.toNat := by
    intro p
    rw [List.map_map]
    rfl
  simp only [checks, List.length_map, ← List.map_drop, ← List.map_take, beq_iff_eq] at h
  have hletters := congrArg (List.map UInt16.toNat) h
  rw [hcomp, codeUnits_crcText (crc16Ccitt_lt _), crc16Ccitt_eq, hcomp] at hletters
  rw [crcOf, ← hletters, ← List.map_append, List.take_append_drop]

/-- A checked byte string that changes in at most sixteen consecutive bits is no longer checked. -/
theorem not_checks_of_burst {p q : List UInt8} {k : Nat} (hp : checks (p.map UInt8.toUInt16) = true)
    (h : Burst 16 (p.map UInt8.toNat) (q.map UInt8.toNat) k) (hne : q ≠ p) :
    checks (q.map UInt8.toUInt16) = false := by
  refine Bool.eq_false_iff.mpr fun hq => hne ?_
  have hbyte : ∀ r : List UInt8, ∀ a ∈ r.map UInt8.toNat, a < 256 := by
    intro r a ha
    obtain ⟨b, -, rfl⟩ := List.mem_map.mp ha
    exact b.toNat_lt
  have hp' := eq_sealed_of_checks hp
  have hq' := eq_sealed_of_checks hq
  rw [hp', hq'] at h
  have hbody := eq_of_burst (hbyte _) (hbyte _) h
  refine (List.map_injective_iff.mpr fun a b => UInt8.toNat_inj.mp) ?_
  rw [hp', hq', hbody]

/-! ## The payload -/

/-- An amount in whole satang, as the till passes it. -/
def inBaht (amount : Option Int64) : Option ℚ := amount.map fun n => baht n.toInt

/-- The satang that an amount asks for: none, where there is none or it is not above zero. -/
def asked (amount : Option Int64) : Option Nat :=
  (amount.map fun n => n.toInt.toNat).filter (0 < ·)

/-- The check of the standard over some bytes: all ones in front of them, sixteen places up, and the
remainder by the standard's polynomial. -/
noncomputable def crcCcittFalse (bytes : List Nat) : Polynomial (ZMod 2) :=
  (ofNat 0xFFFF * Polynomial.X ^ (8 * bytes.length) + ofBits (bits bytes) * Polynomial.X ^ 16) %ₘ
    ccittPolynomial

/-- The loop's register is the remainder over the low bytes of the code units. -/
theorem ofNat_crc16Ccitt (data : List UInt16) :
    ofNat (crc16Ccitt data) = crcCcittFalse (data.map UInt16.toNat) := by
  rw [crc16Ccitt_eq, ofNat_check (by decide) (by decide) (by decide), generator_ccitt, crcCcittFalse]

section
variable {id id' : List Char} {amount amount' : Option Int64} {s : List Char}

/-- Either no amount is asked for, and the code is static, or it is a whole number of satang. -/
theorem asked_cases (amount : Option Int64) :
    (asked amount = none ∧ dynamicQr (inBaht amount) = false) ∨
      ∃ n, n < 2 ^ 63 ∧ asked amount = some n ∧ inBaht amount = some (baht n) ∧
        dynamicQr (inBaht amount) = true := by
  cases amount with
  | none => exact Or.inl ⟨rfl, rfl⟩
  | some n =>
      have hlt := n.toInt_lt
      have hpos : 0 < baht n.toInt ↔ 0 < n.toInt := by rw [← baht_zero, baht_lt]
      simp only [asked, inBaht, Option.map_some, dynamicQr, Option.any_some, hpos]
      generalize n.toInt = m at hlt
      rcases lt_or_ge 0 m with hm | hm
      · have hcast : ((m.toNat : Nat) : Int) = m := Int.toNat_of_nonneg hm.le
        refine Or.inr ⟨m.toNat, by omega, ?_, by rw [hcast], decide_eq_true hm⟩
        rw [Option.filter_some, if_pos (decide_eq_true (by omega))]
      · refine Or.inl ⟨?_, decide_eq_false (not_lt.mpr hm)⟩
        rw [Option.filter_some, if_neg (by simp; omega)]

/-- The fields of a payload. -/
def fieldsOf (id : List Char) (amount : Option Int64) : List Field :=
  payloadFields id (inBaht amount) (crcText (crc16Ccitt (codeUnits (body id (inBaht amount)))))

theorem payload_eq (h : isValidPromptPayId id = true) (amount : Option Int64) :
    promptPayPayload id (inBaht amount) = some (Tlv.encode (fieldsOf id amount)) := by
  have hlen : (crcText (crc16Ccitt (codeUnits (body id (inBaht amount))))).length = 4 := by
    rw [crcText_eq (crc16Ccitt_lt _)]
    rfl
  rw [promptPayPayload, if_pos h, fieldsOf, ← body_append id _ hlen]

/-- Every field of the payload fits its length. -/
theorem fits_fieldsOf (h : isValidPromptPayId id = true) (amount : Option Int64) :
    ∀ f ∈ fieldsOf id amount, f.Fits := by
  have hcrc : (crcText (crc16Ccitt (codeUnits (body id (inBaht amount))))).length = 4 := by
    rw [crcText_eq (crc16Ccitt_lt _)]
    rfl
  have hamount : ∀ f ∈ amountFields (inBaht amount), f.Fits := by
    rcases asked_cases amount with ⟨-, hstatic⟩ | ⟨n, hn, -, hbaht, hdynamic⟩
    · rw [amountFields, hstatic]
      exact fun f hf => absurd hf List.not_mem_nil
    · rw [amountFields, hdynamic, if_pos rfl, hbaht]
      exact List.forall_mem_singleton.mpr (Field.fits_mk rfl rfl (length_amountText hn))
  unfold fieldsOf payloadFields
  refine List.forall_mem_append.mpr ⟨List.forall_mem_append.mpr ⟨?_, hamount⟩, ?_⟩
  · simp only [List.forall_mem_cons]
    refine ⟨Field.fits_mk rfl rfl (by decide), Field.fits_mk rfl rfl ?_,
      Field.fits_mk rfl rfl (length_account h), Field.fits_mk rfl rfl (by decide),
      Field.fits_mk rfl rfl (by decide), fun f hf => absurd hf List.not_mem_nil⟩
    split <;> decide
  · exact List.forall_mem_singleton.mpr (Field.fits_mk rfl rfl (by rw [hcrc]; decide))

theorem checks_payload (h : promptPayPayload id (inBaht amount) = some s) : checks (codeUnits s) = true := by
  unfold promptPayPayload at h
  split at h
  case isTrue =>
    obtain rfl := Option.some.inj h
    rw [codeUnits_append]
    exact checks_sealed _
  case isFalse => cases h

theorem ascii_payload (h : promptPayPayload id (inBaht amount) = some s) : Ascii s := by
  unfold promptPayPayload at h
  split at h
  case isTrue hvalid =>
    obtain rfl := Option.some.inj h
    exact (ascii_body hvalid _).append (ascii_crcText (crc16Ccitt_lt _))
  case isFalse => cases h

theorem valid_of_payload {amount : Option ℚ} (h : promptPayPayload id amount = some s) :
    isValidPromptPayId id = true := by
  unfold promptPayPayload at h
  split at h
  case isTrue hvalid => exact hvalid
  case isFalse => cases h

/-- A payload reads back as the kind, the id and the amount that it was made from. -/
theorem readPayload_payload (h : promptPayPayload id (inBaht amount) = some s) :
    readPayload s = some ⟨Payment.kindOf id, id, asked amount⟩ := by
  have hvalid := valid_of_payload h
  have hchecks := checks_payload h
  have hs : s = Tlv.encode (fieldsOf id amount) := Option.some.inj (h.symm.trans (payload_eq hvalid amount))
  have hparse := Tlv.parse_eq_some.mpr ⟨fits_fieldsOf hvalid amount, hs⟩
  have haccount := readAccount_accountFields hvalid
  rw [readPayload, hparse]
  rcases asked_cases amount with ⟨hasked, hstatic⟩ | ⟨n, -, hasked, hbaht, hdynamic⟩
  · simp [fieldsOf, payloadFields, amountFields, hstatic, haccount, hchecks, hasked]
  · rw [hasked]
    rw [hbaht] at hdynamic
    simp [fieldsOf, payloadFields, amountFields, hbaht, hdynamic, haccount, hchecks,
      readAmount_amountText]

/-- Payloads name their target and amount, and no other payload looks the same; every payload is one
list of fields. The checksum is the standard's over the low bytes of the code units, so over the text
itself where each unit is one byte, and no change of a payload's bytes within sixteen consecutive
bits keeps it. -/
theorem payload_reads_back :
    (∀ id amount, isValidPromptPayId id = true → ∃ s, promptPayPayload id (inBaht amount) = some s ∧
      (∃! fields : List Field, (∀ f ∈ fields, f.Fits) ∧ s = Tlv.encode fields) ∧
      readPayload s = some ⟨Payment.kindOf id, id, asked amount⟩) ∧
    (∀ id id' amount amount' s, promptPayPayload id (inBaht amount) = some s →
      promptPayPayload id' (inBaht amount') = some s → id = id' ∧ asked amount = asked amount') ∧
    (∀ data, ofNat (crc16Ccitt data) = crcCcittFalse (data.map UInt16.toNat)) ∧
    (∀ p : List UInt8, ofNat (crc16Ccitt (p.map UInt8.toUInt16)) = crcCcittFalse (p.map UInt8.toNat)) ∧
    ∀ id amount s, promptPayPayload id (inBaht amount) = some s →
      codeUnits s = (bytesOf s).map UInt8.toUInt16 ∧ checks (codeUnits s) = true ∧
      ∀ (q : List UInt8) (k : Nat), Burst 16 ((bytesOf s).map UInt8.toNat) (q.map UInt8.toNat) k →
        q ≠ bytesOf s → checks (q.map UInt8.toUInt16) = false := by
  refine ⟨fun id amount h => ?_, fun id id' amount amount' s h h' => ?_, ofNat_crc16Ccitt, fun p => ?_,
    fun id amount s h => ?_⟩
  · have hs := payload_eq h amount
    refine ⟨_, hs, ⟨fieldsOf id amount, ⟨fits_fieldsOf h amount, rfl⟩, fun fields hfields => ?_⟩,
      readPayload_payload hs⟩
    have hparse := Tlv.parse_eq_some.mpr ⟨fits_fieldsOf h amount, rfl⟩
    exact Option.some.inj ((Tlv.parse_eq_some.mpr hfields).symm.trans hparse)
  · have hread := (readPayload_payload h).symm.trans (readPayload_payload h')
    injection Option.some.inj hread with _ hid hasked
    exact ⟨hid, hasked⟩
  · rw [ofNat_crc16Ccitt, List.map_map]
    rfl
  · have hbytes := codeUnits_eq_bytes (ascii_payload h)
    have hchecks := checks_payload h
    refine ⟨hbytes, hchecks, fun q k hburst hne => ?_⟩
    rw [hbytes] at hchecks
    exact not_checks_of_burst hchecks hburst hne

/-- A Thai letter is more than one byte, of which the loop reads the low one: its checksum is that of
another letter, and not the standard's over its bytes, neither in UTF-8 nor in UTF-16. -/
theorem crc_of_thai_letter :
    ofNat (crc16Ccitt (codeUnits ['ก'])) ≠ crcCcittFalse [0xE0, 0xB8, 0x81] ∧
      String.utf8EncodeChar 'ก' = [0xE0, 0xB8, 0x81] ∧
      ofNat (crc16Ccitt (codeUnits ['ก'])) ≠ crcCcittFalse [0x0E, 0x01] ∧
      ofNat (crc16Ccitt (codeUnits ['ก'])) ≠ crcCcittFalse [0x01, 0x0E] ∧
      codeUnits ['ก'] = [0x0E01] ∧
      crc16Ccitt (codeUnits ['ก']) = crc16Ccitt (codeUnits [Char.ofNat 1]) := by
  have hcrc : ∀ bytes, crcCcittFalse bytes = ofNat (check 16 ccitt 0xFFFF bytes) := by
    intro bytes
    rw [ofNat_check (by decide) (by decide) (by decide), generator_ccitt, crcCcittFalse]
  simp only [hcrc]
  refine ⟨fun h => absurd (ofNat_injective h) (by decide +kernel), by decide +kernel,
    fun h => absurd (ofNat_injective h) (by decide +kernel),
    fun h => absurd (ofNat_injective h) (by decide +kernel), by decide +kernel, by decide +kernel⟩

end

end Till.PromptPay

import SrisurartPos.Crc
import SrisurartPos.Money
import SrisurartPos.Tlv

/-! # The PromptPay payload

The text of a Thai QR code: fields of tag, length and value that name the target and, where the till
sets one, the amount, closed by a checksum over all that stands before it. A reader that follows the
standard takes the same target and amount back out. -/

namespace Till.PromptPay

open Money Numeral Tlv

/-! ## The payload -/

def promptPayAid : List Char := "A000000677010111".toList

/-- `^(0\d{9}|\d{13}|\d{15})$` -/
def isValidPromptPayId (id : List Char) : Bool :=
  id.all Char.isDigit &&
    ((id.head? == some '0' && id.length == 10) || id.length == 13 || id.length == 15)

/-- `_tlv` -/
def tlv (tag value : List Char) : List Char := tag ++ padStart 2 value.length ++ value

/-- `_amount`: baht, rounded to whole satang, with two decimals -/
def amountText (baht : ℚ) : List Char :=
  let satang := (toSatang baht).toNat
  Nat.toDigits 10 (satang / 100) ++ '.' :: padStart 2 (satang % 100)

/-- One round of the loop over a byte's bits. -/
def crcRound (crc : Nat) : Nat :=
  (if crc &&& 0x8000 ≠ 0 then (crc <<< 1) ^^^ 0x1021 else crc <<< 1) &&& 0xFFFF

def crc16Ccitt (data : List UInt16) : Nat :=
  data.foldl (fun crc byte => crcRound^[8] (crc ^^^ (byte.toNat <<< 8))) 0xFFFF

/-- `codeUnits`: a letter beyond the first 65536 takes two units -/
def codeUnits (s : List Char) : List UInt16 :=
  s.flatMap fun c =>
    if c.toNat < 0x10000 then
      [UInt16.ofNat c.toNat]
    else
      let v := c.toNat - 0x10000
      [UInt16.ofNat (0xD800 + v / 0x400), UInt16.ofNat (0xDC00 + v % 0x400)]

/-- `toRadixString(16).toUpperCase().padLeft(4, '0')` -/
def crcText (crc : Nat) : List Char := ((Nat.toDigits 16 crc).map Char.toUpper).leftpad 4 '0'

/-- Tag 29's target: a wallet, a national or tax id, or a phone number without its leading 0 behind
`0066`. -/
def target (id : List Char) : List Char :=
  if id.length = 15 then
    tlv ['0', '3'] id
  else if id.length = 13 then
    tlv ['0', '2'] id
  else
    tlv ['0', '1'] (("66".toList ++ id.drop 1).leftpad 13 '0')

def dynamicQr (amount : Option ℚ) : Bool := amount.any fun a => 0 < a

/-- The payload up to its checksum. -/
def body (id : List Char) (amount : Option ℚ) : List Char :=
  tlv ['0', '0'] "01".toList
    ++ tlv ['0', '1'] (if dynamicQr amount then "12".toList else "11".toList)
    ++ tlv ['2', '9'] (tlv ['0', '0'] promptPayAid ++ target id)
    ++ tlv ['5', '8'] "TH".toList
    ++ tlv ['5', '3'] "764".toList
    ++ (if dynamicQr amount then tlv ['5', '4'] (amountText (amount.getD 0)) else [])
    ++ "6304".toList

/-- The payload, where the id is a target at all; else an `ArgumentError`. -/
def promptPayPayload (id : List Char) (amount : Option ℚ) : Option (List Char) :=
  if isValidPromptPayId id = true then
    let s := body id amount
    some (s ++ crcText (crc16Ccitt (codeUnits s)))
  else
    none

/-! ## Reading it -/

inductive Kind where
  | phone
  | nationalId
  | eWallet
  deriving DecidableEq, Repr

/-- What a payload asks for: whom to pay and, where it says so, how many satang. -/
structure Payment where
  kind : Kind
  id : List Char
  satang : Option Nat
  deriving DecidableEq, Repr

def Payment.kindOf (id : List Char) : Kind :=
  if id.length = 15 then .eWallet else if id.length = 13 then .nationalId else .phone

/-- Digits, a point and two digits. -/
def readAmount (cs : List Char) : Option Nat :=
  let whole := cs.takeWhile (· ≠ '.')
  let cents := (cs.dropWhile (· ≠ '.')).drop 1
  if whole ≠ [] ∧ whole.all Char.isDigit = true ∧ cents.length = 2 ∧ cents.all Char.isDigit = true then
    some (value whole * 100 + value cents)
  else
    none

/-- A target's kind and id by its tag. A phone number is `0066` and nine digits. -/
def readTarget (f : Field) : Option (Kind × List Char) :=
  if f.tag = ['0', '1'] ∧ f.value.take 4 = "0066".toList ∧ f.value.length = 13 then
    some (.phone, '0' :: f.value.drop 4)
  else if f.tag = ['0', '2'] ∧ f.value.length = 13 then
    some (.nationalId, f.value)
  else if f.tag = ['0', '3'] ∧ f.value.length = 15 then
    some (.eWallet, f.value)
  else
    none

/-- The account of tag 29: the application's id and the target. -/
def readAccount (cs : List Char) : Option (Kind × List Char) := do
  match ← Tlv.parse cs with
  | [aid, who] => if aid = ⟨['0', '0'], promptPayAid⟩ then readTarget who else none
  | _          => none

/-- Whether the last four units are the checksum of the ones before them. -/
def checks (units : List UInt16) : Bool :=
  let split := units.length - 4
  units.drop split == codeUnits (crcText (crc16Ccitt (units.take split)))

def readPayload (s : List Char) : Option Payment := do
  let fields ← Tlv.parse s
  match fields with
  | version :: method :: ⟨tag, account⟩ :: country :: currency :: rest =>
      let (kind, id) ← readAccount account
      if version = ⟨['0', '0'], "01".toList⟩ ∧ tag = ['2', '9'] ∧ country = ⟨['5', '8'], "TH".toList⟩ ∧
          currency = ⟨['5', '3'], "764".toList⟩ ∧ checks (codeUnits s) = true then
        match rest with
        | [crc] =>
            if method = ⟨['0', '1'], "11".toList⟩ ∧ crc.tag = ['6', '3'] then some ⟨kind, id, none⟩ else none
        | [⟨tag, amount⟩, crc] =>
            if method = ⟨['0', '1'], "12".toList⟩ ∧ tag = ['5', '4'] ∧ crc.tag = ['6', '3'] then do
              let satang ← readAmount amount
              some ⟨kind, id, some satang⟩
            else
              none
        | _ => none
      else
        none
  | _ => none

/-! ## The fields of a payload -/

def targetField (id : List Char) : Field :=
  if id.length = 15 then
    ⟨['0', '3'], id⟩
  else if id.length = 13 then
    ⟨['0', '2'], id⟩
  else
    ⟨['0', '1'], ("66".toList ++ id.drop 1).leftpad 13 '0'⟩

def accountFields (id : List Char) : List Field := [⟨['0', '0'], promptPayAid⟩, targetField id]

def amountFields (amount : Option ℚ) : List Field :=
  if dynamicQr amount then [⟨['5', '4'], amountText (amount.getD 0)⟩] else []

/-- The fields between which the checksum stands last. -/
def payloadFields (id : List Char) (amount : Option ℚ) (crc : List Char) : List Field :=
  [⟨['0', '0'], "01".toList⟩, ⟨['0', '1'], if dynamicQr amount then "12".toList else "11".toList⟩,
    ⟨['2', '9'], Tlv.encode (accountFields id)⟩, ⟨['5', '8'], "TH".toList⟩,
    ⟨['5', '3'], "764".toList⟩] ++ amountFields amount ++ [⟨['6', '3'], crc⟩]

section
variable {id id' : List Char} {amount : Option ℚ}

theorem target_eq (id : List Char) : target id = encodeField (targetField id) := by
  unfold target targetField
  split
  · rfl
  · split <;> rfl

/-- The body and its checksum are the encoding of the payload's fields. -/
theorem body_append (id : List Char) (amount : Option ℚ) {crc : List Char} (hcrc : crc.length = 4) :
    body id amount ++ crc = Tlv.encode (payloadFields id amount crc) := by
  have hlast : "6304".toList ++ crc = encodeField ⟨['6', '3'], crc⟩ := by
    have hpad : padStart 2 4 = ['0', '4'] := rfl
    simp [encodeField, hcrc, hpad]
  have haccount : tlv ['0', '0'] promptPayAid ++ target id = Tlv.encode (accountFields id) := by
    simp [accountFields, Tlv.encode, tlv, encodeField, target_eq]
  have hamount : (if dynamicQr amount then tlv ['5', '4'] (amountText (amount.getD 0)) else []) =
      Tlv.encode (amountFields amount) := by
    unfold amountFields
    split
    · simp [Tlv.encode, tlv, encodeField]
    · rfl
  have htlv : ∀ tag v, tlv tag v = encodeField ⟨tag, v⟩ := fun _ _ => rfl
  rw [body, haccount, hamount, List.append_assoc, hlast, payloadFields]
  simp [Tlv.encode, htlv]

/-- The lengths that an id may have, and its digits. -/
theorem isValid_iff : isValidPromptPayId id = true ↔ (∀ c ∈ id, c.isDigit = true) ∧
    (id.head? = some '0' ∧ id.length = 10 ∨ id.length = 13 ∨ id.length = 15) := by
  simp [isValidPromptPayId, or_assoc]

/-- The target is short enough for a field. -/
theorem value_targetField_length (h : isValidPromptPayId id = true) :
    (targetField id).value.length ≤ 15 := by
  obtain ⟨-, hlen⟩ := isValid_iff.mp h
  unfold targetField
  split
  case isTrue h15 => exact h15.le
  case isFalse =>
    split
    case isTrue h13 => exact h13.le.trans (by decide)
    case isFalse =>
      simp only [List.leftpad, List.length_append, List.length_replicate, List.length_drop]
      have : "66".toList.length = 2 := rfl
      omega

theorem fits_targetField (h : isValidPromptPayId id = true) : (targetField id).Fits := by
  have hlen := value_targetField_length h
  have htag : (targetField id).tag.length = 2 ∧ (targetField id).tag.all Char.isDigit = true := by
    unfold targetField
    split
    · exact ⟨rfl, rfl⟩
    · split <;> exact ⟨rfl, rfl⟩
  exact ⟨htag.1, List.all_eq_true.mp htag.2, by omega⟩

theorem fits_accountFields (h : isValidPromptPayId id = true) : ∀ f ∈ accountFields id, f.Fits := by
  intro f hf
  simp only [accountFields, List.mem_cons, List.not_mem_nil, or_false] at hf
  rcases hf with rfl | rfl
  · exact Field.fits_mk rfl rfl (by decide)
  · exact fits_targetField h

theorem length_account (h : isValidPromptPayId id = true) : (Tlv.encode (accountFields id)).length < 100 := by
  have hvalue := value_targetField_length h
  have htag := (fits_targetField h).tag_length
  have hpad := length_padStart (k := 2) (by decide) (fits_targetField h).value_length
  have haid : promptPayAid.length = 16 := rfl
  have hpad16 : (padStart 2 16).length = 2 := rfl
  simp only [accountFields, Tlv.encode, List.flatMap_cons, List.flatMap_nil, encodeField,
    List.length_append, List.length_cons, List.length_nil, hpad, haid, hpad16]
  omega

/-! ## Reading the fields -/

/-- The target is read back, its kind included. -/
theorem readTarget_targetField (h : isValidPromptPayId id = true) :
    readTarget (targetField id) = some (Payment.kindOf id, id) := by
  obtain ⟨-, hlen⟩ := isValid_iff.mp h
  unfold targetField Payment.kindOf
  split
  case isTrue h15 => simp [readTarget, h15]
  case isFalse h15 =>
    split
    case isTrue h13 => simp [readTarget, h13]
    case isFalse h13 =>
      -- Ten digits with a leading zero: two more zeros stand in front of `66`.
      obtain ⟨hhead, h10⟩ : id.head? = some '0' ∧ id.length = 10 := by
        simpa [h13, h15] using hlen
      cases id with
      | nil => cases hhead
      | cons c cs =>
          obtain rfl : c = '0' := by simpa using hhead
          have hcs : cs.length = 9 := by simpa using h10
          have htext : ("66".toList ++ ('0' :: cs).drop 1).leftpad 13 '0' = "0066".toList ++ cs := by
            simp [List.leftpad, hcs]
          rw [htext]
          simp [readTarget, hcs]

theorem readAccount_accountFields (h : isValidPromptPayId id = true) :
    readAccount (Tlv.encode (accountFields id)) = some (Payment.kindOf id, id) := by
  have hparse := Tlv.parse_eq_some.mpr ⟨fits_accountFields h, rfl⟩
  rw [readAccount, hparse]
  simp [accountFields, readTarget_targetField h]

end

section
variable {n : Nat}

/-- The text of `n` satang. -/
theorem amountText_baht (n : Nat) :
    amountText (baht n) = Nat.toDigits 10 (n / 100) ++ '.' :: padStart 2 (n % 100) := by
  rw [amountText, toSatang_baht]
  rfl

/-- The amount is read back in satang. -/
theorem readAmount_append {ds es : List Char} (hds : ∀ c ∈ ds, c.isDigit = true) (hne : ds ≠ [])
    (hes : ∀ c ∈ es, c.isDigit = true) (hlen : es.length = 2) :
    readAmount (ds ++ '.' :: es) = some (value ds * 100 + value es) := by
  have hpoint : ∀ c ∈ ds, decide (c ≠ '.') = true := by
    intro c hc
    refine decide_eq_true ?_
    rintro rfl
    exact absurd (hds _ hc) (by decide)
  have htake : (ds ++ '.' :: es).takeWhile (· ≠ '.') = ds := by
    rw [List.takeWhile_append_of_pos hpoint]
    simp
  have hdrop : ((ds ++ '.' :: es).dropWhile (· ≠ '.')).drop 1 = es := by
    rw [List.dropWhile_append_of_pos hpoint]
    simp
  rw [readAmount, htake, hdrop]
  exact if_pos ⟨hne, List.all_eq_true.mpr hds, hlen, List.all_eq_true.mpr hes⟩

theorem readAmount_amountText (n : Nat) : readAmount (amountText (baht n)) = some n := by
  have hdigits : ∀ c ∈ Nat.toDigits 10 (n / 100), c.isDigit = true :=
    fun c hc => Nat.isDigit_of_mem_toDigits (by decide) (by decide) hc
  have hlen : (padStart 2 (n % 100)).length = 2 :=
    length_padStart (by decide) (Nat.mod_lt n (by decide))
  have hvalue : value (Nat.toDigits 10 (n / 100)) = n / 100 := Nat.ofDigitChars_ten_toDigits
  rw [amountText_baht, readAmount_append hdigits Nat.toDigits_ne_nil isDigit_padStart hlen, hvalue,
    value_padStart]
  congr 1
  omega

theorem length_amountText {n : Nat} (hn : n < 2 ^ 63) : (amountText (baht n)).length < 100 := by
  have hlen : (padStart 2 (n % 100)).length = 2 :=
    length_padStart (by decide) (Nat.mod_lt n (by decide))
  have hwhole : (Nat.toDigits 10 (n / 100)).length ≤ 17 :=
    (Nat.length_toDigits_le_iff (by decide) (by decide)).mpr (by omega)
  rw [amountText_baht, List.length_append, List.length_cons, hlen]
  omega

end

end Till.PromptPay

import Mathlib.Data.Option.Basic
import Mathlib.Tactic.Common

/-! # Base 64

Bytes as text, three to four letters. What is encoded is decoded as it was (`decode_encode`). -/

namespace Base64

/-- The letter of a digit below 64. -/
def letter (n : Nat) : Char :=
  if n < 26 then Char.ofNat (n + 65)
  else if n < 52 then Char.ofNat (n + 71)
  else if n < 62 then Char.ofNat (n - 4)
  else if n = 62 then '+'
  else '/'

/-- Both alphabets are read, that of URLs as well. -/
def digit (c : Char) : Option Nat :=
  if 'A' ≤ c ∧ c ≤ 'Z' then some (c.toNat - 65)
  else if 'a' ≤ c ∧ c ≤ 'z' then some (c.toNat - 71)
  else if '0' ≤ c ∧ c ≤ '9' then some (c.toNat + 4)
  else if c = '+' ∨ c = '-' then some 62
  else if c = '/' ∨ c = '_' then some 63
  else none

def encode : List UInt8 → List Char
  | []  => []
  | [a] => [letter (a.toNat / 4), letter (a.toNat % 4 * 16), '=', '=']
  | [a, b] =>
      [letter (a.toNat / 4), letter (a.toNat % 4 * 16 + b.toNat / 16), letter (b.toNat % 16 * 4), '=']
  | a :: b :: c :: bs =>
      letter (a.toNat / 4) :: letter (a.toNat % 4 * 16 + b.toNat / 16) ::
        letter (b.toNat % 16 * 4 + c.toNat / 64) :: letter (c.toNat % 64) :: encode bs

/-- Four letters at a time. The bits before the padding are zero. -/
def decode : List Char → Option (List UInt8)
  | [] => some []
  | [w, x, '=', '='] => do
      let w ← digit w
      let x ← digit x
      if x % 16 = 0 then some [UInt8.ofNat (w * 4 + x / 16)] else none
  | [w, x, y, '='] => do
      let w ← digit w
      let x ← digit x
      let y ← digit y
      if y % 4 = 0 then some [UInt8.ofNat (w * 4 + x / 16), UInt8.ofNat (x % 16 * 16 + y / 4)] else none
  | w :: x :: y :: z :: cs => do
      let w ← digit w
      let x ← digit x
      let y ← digit y
      let z ← digit z
      let bs ← decode cs
      some (UInt8.ofNat (w * 4 + x / 16) :: UInt8.ofNat (x % 16 * 16 + y / 4) :: UInt8.ofNat (y % 4 * 64 + z) :: bs)
  | _ => none

/-- A letter of the plain alphabet. -/
def isLetter (c : Char) : Bool :=
  ('A' ≤ c && c ≤ 'Z') || ('a' ≤ c && c ≤ 'z') || ('0' ≤ c && c ≤ '9') || c == '+' || c == '/'

/-- Groups of four plain letters, the last one padded. -/
def isPlain : List Char → Bool
  | []                 => true
  | [w, x, '=', '=']   => isLetter w && isLetter x
  | [w, x, y, '=']     => isLetter w && isLetter x && isLetter y
  | w :: x :: y :: z :: cs => isLetter w && isLetter x && isLetter y && isLetter z && isPlain cs
  | _                  => false

def digitOr0 (c : Char) : Nat := (digit c).getD 0

/-- Reads a plain text. The bits before the padding are dropped, whatever they are. -/
def decodePlain : List Char → List UInt8
  | [w, x, '=', '=']       => [UInt8.ofNat (digitOr0 w * 4 + digitOr0 x / 16)]
  | [w, x, y, '=']         =>
      [UInt8.ofNat (digitOr0 w * 4 + digitOr0 x / 16), UInt8.ofNat (digitOr0 x % 16 * 16 + digitOr0 y / 4)]
  | w :: x :: y :: z :: cs =>
      UInt8.ofNat (digitOr0 w * 4 + digitOr0 x / 16) :: UInt8.ofNat (digitOr0 x % 16 * 16 + digitOr0 y / 4) ::
        UInt8.ofNat (digitOr0 y % 4 * 64 + digitOr0 z) :: decodePlain cs
  | _                      => []

theorem digit_letter {n : Nat} (h : n < 64) : digit (letter n) = some n := by
  have hall : ∀ n : Fin 64, digit (letter n) = some n.val := by decide
  exact hall ⟨n, h⟩

theorem letter_ne_pad {n : Nat} (h : n < 64) : letter n ≠ '=' := by
  have hall : ∀ n : Fin 64, letter n ≠ '=' := by decide
  exact hall ⟨n, h⟩

/-- Four letters without padding are three bytes. -/
theorem decode_four {w x y z : Char} {cs : List Char} (hz : z ≠ '=') :
    decode (w :: x :: y :: z :: cs) = (do
      let w ← digit w
      let x ← digit x
      let y ← digit y
      let z ← digit z
      let bs ← decode cs
      some (UInt8.ofNat (w * 4 + x / 16) :: UInt8.ofNat (x % 16 * 16 + y / 4) ::
        UInt8.ofNat (y % 4 * 64 + z) :: bs)) := by
  rw [decode]
  · exact fun _ heq => absurd heq hz
  · exact fun heq => absurd heq hz

/-- What is encoded is decoded again. -/
theorem decode_encode (bs : List UInt8) : decode (encode bs) = some bs := by
  have hbyte : ∀ (a : UInt8) {n : Nat}, n = a.toNat → UInt8.ofNat n = a := by
    rintro a n rfl
    exact UInt8.ofNat_toNat
  induction bs using encode.induct with
  | case1 => rfl
  | case2 a =>
      have ha := a.toNat_lt
      rw [encode, decode, digit_letter (by omega), digit_letter (by omega)]
      dsimp only [Option.bind_eq_bind, Option.bind_some]
      rw [if_pos (by omega), hbyte a (by omega)]
  | case3 a b =>
      have ha := a.toNat_lt
      have hb := b.toNat_lt
      rw [encode, decode, digit_letter (by omega), digit_letter (by omega), digit_letter (by omega)]
      · dsimp only [Option.bind_eq_bind, Option.bind_some]
        rw [if_pos (by omega), hbyte a (by omega), hbyte b (by omega)]
      · exact letter_ne_pad (by omega)
  | case4 a b c bs ih =>
      have ha := a.toNat_lt
      have hb := b.toNat_lt
      have hc := c.toNat_lt
      rw [encode, decode_four (letter_ne_pad (by omega)), digit_letter (by omega), digit_letter (by omega),
        digit_letter (by omega), digit_letter (by omega), ih]
      dsimp only [Option.bind_eq_bind, Option.bind_some]
      rw [hbyte a (by omega), hbyte b (by omega), hbyte c (by omega)]

/-! ## Plain texts -/

theorem isLetter_letter {n : Nat} (h : n < 64) : isLetter (letter n) = true := by
  have hall : ∀ n : Fin 64, isLetter (letter n) = true := by decide
  exact hall ⟨n, h⟩

theorem digitOr0_letter {n : Nat} (h : n < 64) : digitOr0 (letter n) = n := by rw [digitOr0, digit_letter h]; rfl

theorem isPlain_four {w x y z : Char} {cs : List Char} (hz : z ≠ '=') :
    isPlain (w :: x :: y :: z :: cs) = (isLetter w && isLetter x && isLetter y && isLetter z && isPlain cs) := by
  rw [isPlain]
  · exact fun _ heq => absurd heq hz
  · exact fun heq => absurd heq hz

theorem decodePlain_four {w x y z : Char} {cs : List Char} (hz : z ≠ '=') :
    decodePlain (w :: x :: y :: z :: cs) =
      UInt8.ofNat (digitOr0 w * 4 + digitOr0 x / 16) :: UInt8.ofNat (digitOr0 x % 16 * 16 + digitOr0 y / 4) ::
        UInt8.ofNat (digitOr0 y % 4 * 64 + digitOr0 z) :: decodePlain cs := by
  rw [decodePlain]
  · exact fun _ heq => absurd heq hz
  · exact fun heq => absurd heq hz

/-- An encoded text passes the test for plain base64. -/
theorem isPlain_encode (bs : List UInt8) : isPlain (encode bs) = true := by
  induction bs using encode.induct with
  | case1 => rfl
  | case2 a =>
      have ha := a.toNat_lt
      rw [encode, isPlain, isLetter_letter (by omega), isLetter_letter (by omega)]
      rfl
  | case3 a b =>
      have ha := a.toNat_lt
      have hb := b.toNat_lt
      rw [encode, isPlain, isLetter_letter (by omega), isLetter_letter (by omega), isLetter_letter (by omega)]
      · rfl
      · exact letter_ne_pad (by omega)
  | case4 a b c bs ih =>
      have ha := a.toNat_lt
      have hb := b.toNat_lt
      have hc := c.toNat_lt
      rw [encode, isPlain_four (letter_ne_pad (by omega)), isLetter_letter (by omega), isLetter_letter (by omega),
        isLetter_letter (by omega), isLetter_letter (by omega), ih]
      rfl

/-- The decoder of plain texts reads an encoded text back as well. -/
theorem decodePlain_encode (bs : List UInt8) : decodePlain (encode bs) = bs := by
  have hbyte : ∀ (a : UInt8) {n : Nat}, n = a.toNat → UInt8.ofNat n = a := by
    rintro a n rfl
    exact UInt8.ofNat_toNat
  induction bs using encode.induct with
  | case1 => rfl
  | case2 a =>
      have ha := a.toNat_lt
      rw [encode, decodePlain, digitOr0_letter (by omega), digitOr0_letter (by omega), hbyte a (by omega)]
  | case3 a b =>
      have ha := a.toNat_lt
      have hb := b.toNat_lt
      rw [encode, decodePlain, digitOr0_letter (by omega), digitOr0_letter (by omega), digitOr0_letter (by omega),
        hbyte a (by omega), hbyte b (by omega)]
      exact letter_ne_pad (by omega)
  | case4 a b c bs ih =>
      have ha := a.toNat_lt
      have hb := b.toNat_lt
      have hc := c.toNat_lt
      rw [encode, decodePlain_four (letter_ne_pad (by omega)), digitOr0_letter (by omega),
        digitOr0_letter (by omega), digitOr0_letter (by omega), digitOr0_letter (by omega), ih, hbyte a (by omega),
        hbyte b (by omega), hbyte c (by omega)]

theorem length_encode (bs : List UInt8) : (encode bs).length = (bs.length + 2) / 3 * 4 := by
  induction bs using encode.induct with
  | case1 => rfl
  | case2 a => simp [encode]
  | case3 a b => simp [encode]
  | case4 a b c bs ih =>
      simp only [encode, List.length_cons, ih]
      omega

end Base64

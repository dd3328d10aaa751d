import SrisurartPos.Server.Schema
import SrisurartPos.Numeral

/-! # The text of a document number (`doc-number.service.ts`)

How a number is printed, and which texts are read as one. A period is a Buddhist year and a month,
`2569-08`, here the number 256908. -/

namespace Server

open Numeral

/-- `DOC_PREFIX` -/
def DocType.docPrefix : DocType → List Char
  | .receipt => ['R', 'C']
  | .cn      => ['C', 'N']
  | .po      => ['P', 'O']
  | .quote   => ['Q', 'T']
  | .cp      => ['C', 'P']

def periodText (p : Period) : List Char := padStart 4 (p / 100) ++ '-' :: padStart 2 (p % 100)

def formatDocNumber (n : DocNumber) : List Char :=
  n.docType.docPrefix ++ padStart 2 n.deviceNo ++ '-' :: periodText n.period ++ '-' :: padStart 4 n.seq

def DocNo.text : DocNo → String
  | .formatted n => String.ofList (formatDocNumber n)
  | .other text  => text

/-- What the groups of a match say. -/
structure DocMatch where
  letters : List Char
  deviceNo : Nat
  period : Period
  seq : Nat
  deriving DecidableEq, Repr

/-- `DOC_NUMBER_REGEX` -/
def docNumberRegex : List Char → Option DocMatch
  | [a, b, d₁, d₂, h₁, y₁, y₂, y₃, y₄, h₂, m₁, m₂, h₃, s₁, s₂, s₃, s₄] =>
      if a.isUpper ∧ b.isUpper ∧ h₁ = '-' ∧ h₂ = '-' ∧ h₃ = '-' ∧
          [d₁, d₂, y₁, y₂, y₃, y₄, m₁, m₂, s₁, s₂, s₃, s₄].all Char.isDigit then
        some ⟨[a, b], value [d₁, d₂], value [y₁, y₂, y₃, y₄] * 100 + value [m₁, m₂],
          value [s₁, s₂, s₃, s₄]⟩
      else none
  | _ => none

/-- A number that fits its text. -/
structure DocNumber.Fits (n : DocNumber) : Prop where
  deviceNo : n.deviceNo < 100
  period : n.period < 1000000
  seq : n.seq < 10000

variable {n : DocNumber} {cs : List Char}

theorem digits_two {k : Nat} (h : k < 100) : ∃ a b, padStart 2 k = [a, b] ∧ a.isDigit = true ∧
    b.isDigit = true ∧ value [a, b] = k := by
  have hlen : (padStart 2 k).length = 2 := length_padStart (by decide) h
  obtain ⟨a, b, hab⟩ := List.length_eq_two.mp hlen
  have hdigit : ∀ c ∈ [a, b], c.isDigit = true := hab ▸ isDigit_padStart
  exact ⟨a, b, hab, hdigit a (by simp), hdigit b (by simp), hab ▸ value_padStart 2 k⟩

theorem digits_four {k : Nat} (h : k < 10000) : ∃ a b c d, padStart 4 k = [a, b, c, d] ∧
    a.isDigit = true ∧ b.isDigit = true ∧ c.isDigit = true ∧ d.isDigit = true ∧
      value [a, b, c, d] = k := by
  have hlen : (padStart 4 k).length = 4 := length_padStart (by decide) h
  match hab : padStart 4 k, hlen with
  | [a, b, c, d], _ =>
      have hdigit : ∀ e ∈ [a, b, c, d], e.isDigit = true := hab ▸ isDigit_padStart
      exact ⟨a, b, c, d, rfl, hdigit a (by simp), hdigit b (by simp), hdigit c (by simp),
        hdigit d (by simp), hab ▸ value_padStart 4 k⟩

/-- **What is printed is read back.** -/
theorem docNumberRegex_format (h : n.Fits) :
    docNumberRegex (formatDocNumber n) = some ⟨n.docType.docPrefix, n.deviceNo, n.period, n.seq⟩ := by
  obtain ⟨docType, deviceNo, period, seq⟩ := n
  obtain ⟨hdevice, hperiod, hseq⟩ := h
  simp only at hdevice hperiod hseq
  obtain ⟨d₁, d₂, hd, hd₁, hd₂, hdv⟩ := digits_two hdevice
  obtain ⟨m₁, m₂, hm, hm₁, hm₂, hmv⟩ := digits_two (Nat.mod_lt period (by decide))
  obtain ⟨y₁, y₂, y₃, y₄, hy, hy₁, hy₂, hy₃, hy₄, hyv⟩ :=
    digits_four (Nat.div_lt_of_lt_mul (show period < 100 * 10000 from hperiod))
  obtain ⟨s₁, s₂, s₃, s₄, hs, hs₁, hs₂, hs₃, hs₄, hsv⟩ := digits_four hseq
  have hvalue : period / 100 * 100 + period % 100 = period := Nat.div_add_mod' period 100
  cases docType <;>
    simp [formatDocNumber, periodText, DocType.docPrefix, hd, hm, hy, hs, docNumberRegex, hd₁, hd₂, hm₁,
      hm₂, hy₁, hy₂, hy₃, hy₄, hs₁, hs₂, hs₃, hs₄, hdv, hmv, hyv, hsv, hvalue]

end Server

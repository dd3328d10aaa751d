import SrisurartPos.Numeral

/-! # Tag, length, value

A text of fields one after another: a tag of two digits, the length of the value in two digits, the
value. Such a text is written from exactly one list of fields. -/

namespace Tlv

open Numeral

structure Field where
  tag : List Char
  value : List Char
  deriving DecidableEq, Repr

/-- The tag is two digits, and so is the value's length. -/
structure Field.Fits (f : Field) : Prop where
  tag_length : f.tag.length = 2
  tag_digits : ∀ c ∈ f.tag, c.isDigit = true
  value_length : f.value.length < 100

theorem Field.fits_mk {tag value : List Char} (hlen : tag.length = 2)
    (hdigits : tag.all Char.isDigit = true) (hvalue : value.length < 100) : (Field.mk tag value).Fits :=
  ⟨hlen, List.all_eq_true.mp hdigits, hvalue⟩

def encodeField (f : Field) : List Char := f.tag ++ padStart 2 f.value.length ++ f.value

def encode (fs : List Field) : List Char := fs.flatMap encodeField

/-- The first field of a text, and the text behind it. -/
def parseField : List Char → Option (Field × List Char)
  | t :: u :: l :: m :: rest =>
      let len := value [l, m]
      if [t, u, l, m].all Char.isDigit = true ∧ len ≤ rest.length then
        some (⟨[t, u], rest.take len⟩, rest.drop len)
      else
        none
  | _ => none

/-- The fields of a text, at most `fuel` of them. -/
def parseUpTo : Nat → List Char → Option (List Field)
  | _, []             => some []
  | 0, _ :: _         => none
  | fuel + 1, c :: cs => do
      let (f, rest) ← parseField (c :: cs)
      let fs ← parseUpTo fuel rest
      return f :: fs

def parse (cs : List Char) : Option (List Field) := parseUpTo cs.length cs

variable {f : Field} {fs : List Field} {cs rest : List Char}

/-- A field is read off a text exactly where the text begins with it. -/
theorem parseField_eq_some : parseField cs = some (f, rest) ↔ f.Fits ∧ cs = encodeField f ++ rest := by
  constructor
  · intro h
    match cs with
    | t :: u :: l :: m :: tail =>
        simp only [parseField] at h
        split at h
        case isFalse => cases h
        case isTrue hok =>
          obtain ⟨hdigits, hlen⟩ := hok
          simp only [List.all_cons, List.all_nil, Bool.and_true, Bool.and_eq_true] at hdigits
          cases Option.some.inj h
          have htake : (tail.take (value [l, m])).length = value [l, m] := List.length_take_of_le hlen
          have hlm : ∀ c ∈ [l, m], c.isDigit = true := by simp [hdigits]
          have hpad : padStart 2 (value [l, m]) = [l, m] := padStart_value hlm (List.cons_ne_nil l [m])
          have hlt : value [l, m] < 10 ^ 2 := value_lt hlm
          refine ⟨⟨rfl, by simp [hdigits], by rwa [htake]⟩, ?_⟩
          simp [encodeField, htake, hpad]
    | [] | [_] | [_, _] | [_, _, _] => cases h
  · intro ⟨hf, h⟩
    obtain ⟨tag, v⟩ := f
    obtain ⟨t, u, rfl⟩ := List.length_eq_two.mp hf.tag_length
    have hlen := length_padStart (k := 2) (by decide) hf.value_length
    obtain ⟨l, m, hlm⟩ := List.length_eq_two.mp hlen
    have hvalue : value [l, m] = v.length := by rw [← hlm, value_padStart]
    have hdigits : ∀ c ∈ [l, m], c.isDigit = true := hlm ▸ isDigit_padStart
    have htag := hf.tag_digits
    subst h
    rw [encodeField, hlm]
    simp_all [parseField]

theorem length_lt_of_parseField (h : parseField cs = some (f, rest)) : rest.length < cs.length := by
  obtain ⟨hf, rfl⟩ := parseField_eq_some.mp h
  have := hf.tag_length
  simp only [encodeField, List.length_append]
  omega

theorem encode_eq_nil (hfs : ∀ f ∈ fs, f.Fits) (h : encode fs = []) : fs = [] := by
  cases fs with
  | nil => rfl
  | cons f fs =>
      have hlen := congrArg List.length h
      have htag := (hfs f List.mem_cons_self).tag_length
      simp only [encode, List.flatMap_cons, encodeField, List.length_append, List.length_nil] at hlen
      omega

/-- The parser reads exactly what the encoding of fields writes. -/
theorem parseUpTo_eq_some {fuel : Nat} (hfuel : cs.length ≤ fuel) :
    parseUpTo fuel cs = some fs ↔ (∀ f ∈ fs, f.Fits) ∧ cs = encode fs := by
  induction fuel generalizing cs fs with
  | zero =>
      obtain rfl := List.length_eq_zero_iff.mp (Nat.le_zero.mp hfuel)
      simp only [parseUpTo, Option.some_inj]
      constructor
      · rintro rfl
        simp [encode]
      · intro ⟨hfs, h⟩
        exact (encode_eq_nil hfs h.symm).symm
  | succ fuel ih =>
      cases cs with
      | nil =>
          simp only [parseUpTo, Option.some_inj]
          constructor
          · rintro rfl
            simp [encode]
          · intro ⟨hfs, h⟩
            exact (encode_eq_nil hfs h.symm).symm
      | cons c cs =>
          simp only [parseUpTo, Option.bind_eq_bind, Option.bind_eq_some_iff, Option.pure_def]
          constructor
          · rintro ⟨⟨f, rest⟩, hfield, gs, hgs, hfs⟩
            obtain rfl := Option.some.inj hfs
            have hlt : rest.length < (c :: cs).length := length_lt_of_parseField hfield
            have hle : rest.length ≤ fuel := by omega
            obtain ⟨hfits, hrest⟩ := (ih hle).mp hgs
            obtain ⟨hf, htext⟩ := parseField_eq_some.mp hfield
            refine ⟨List.forall_mem_cons.mpr ⟨hf, hfits⟩, ?_⟩
            rw [htext]
            exact congrArg (encodeField f ++ ·) hrest
          · intro ⟨hfs, htext⟩
            cases fs with
            | nil => cases htext
            | cons f fs =>
                obtain ⟨hf, hfs⟩ := List.forall_mem_cons.mp hfs
                have hfield : parseField (c :: cs) = some (f, encode fs) :=
                  parseField_eq_some.mpr ⟨hf, htext⟩
                have hlt := length_lt_of_parseField hfield
                have hle : (encode fs).length ≤ fuel := by omega
                have hrest := (ih hle).mpr ⟨hfs, rfl⟩
                exact ⟨(f, encode fs), hfield, fs, hrest, rfl⟩

/-- A text is read as the one list of fields that it is written from. -/
theorem parse_eq_some : parse cs = some fs ↔ (∀ f ∈ fs, f.Fits) ∧ cs = encode fs :=
  parseUpTo_eq_some le_rfl

end Tlv

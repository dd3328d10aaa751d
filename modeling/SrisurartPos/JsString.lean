import Mathlib.Data.List.DropRight

/-! # Texts as JavaScript trims them -/

namespace JsString

/-- White space and line ends. -/
def isSpace (c : Char) : Bool :=
  let n := c.toNat
  (9 ≤ n && n ≤ 13) || n = 0x20 || n = 0xa0 || n = 0x1680 || (0x2000 ≤ n && n ≤ 0x200a) || n = 0x2028 || n = 0x2029 ||
    n = 0x202f || n = 0x205f || n = 0x3000 || n = 0xfeff

def trim (s : String) : String := String.ofList ((s.toList.dropWhile isSpace).rdropWhile isSpace)

theorem dropWhile_trimmed (l : List Char) :
    ((l.dropWhile isSpace).rdropWhile isSpace).dropWhile isSpace = (l.dropWhile isSpace).rdropWhile isSpace := by
  rw [List.dropWhile_eq_self_iff]
  intro hpos hspace
  -- What is left begins as it did before its end was cut.
  have hprefix := List.rdropWhile_prefix isSpace (l.dropWhile isSpace)
  have hlen : 0 < (l.dropWhile isSpace).length := Nat.lt_of_lt_of_le hpos hprefix.length_le
  have hhead := hprefix.getElem hpos
  have hnot := List.dropWhile_get_zero_not isSpace l hlen
  rw [List.get_eq_getElem, ← hhead] at hnot
  exact hnot hspace

theorem trim_trim (s : String) : trim (trim s) = trim s := by
  rw [trim, trim, String.toList_ofList, dropWhile_trimmed, List.rdropWhile_idempotent]

end JsString

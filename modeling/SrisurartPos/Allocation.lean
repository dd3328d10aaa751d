import Mathlib.Data.List.Basic
import Mathlib.Algebra.BigOperators.Group.List.Basic
import Mathlib.Algebra.Order.Group.Int
import Mathlib.Algebra.Order.Ring.Int

/-! # Filling places in turn

An amount is spread over places of limited room, in their order, until it is used up. Nothing is lost:
the shares and the rest add up to the amount. Every place but the last to get something is filled. -/

namespace Allocation

variable {α : Type}

/-- The places that get something, with their shares, and what is left. -/
def fill (room : α → Int) : Int → List α → List (α × Int) × Int
  | r, []     => ([], r)
  | r, a :: l =>
      if r ≤ 0 then ([], r)
      else if room a ≤ 0 then fill room r l
      else ((a, min (room a) r) :: (fill room (r - min (room a) r) l).1, (fill room (r - min (room a) r) l).2)

variable {room : α → Int} {r : Int} {a : α} {l : List α}

theorem fill_of_nonpos (h : r ≤ 0) : fill room r l = ([], r) := by
  cases l with
  | nil => rfl
  | cons a l => rw [fill, if_pos h]

/-- Nothing is lost. -/
theorem sum_fill (room : α → Int) (r : Int) (l : List α) :
    ((fill room r l).1.map Prod.snd).sum + (fill room r l).2 = r := by
  induction l generalizing r with
  | nil => simp [fill]
  | cons a l ih =>
      rw [fill]
      split
      · simp
      · split
        · exact ih r
        · have hrest := ih (r - min (room a) r)
          simp only [List.map_cons, List.sum_cons]
          omega

theorem rest_nonneg (h : 0 ≤ r) : 0 ≤ (fill room r l).2 := by
  induction l generalizing r with
  | nil => exact h
  | cons a l ih =>
      rw [fill]
      split
      · exact h
      · split
        · exact ih h
        · exact ih (by omega)

/-- A share is positive and at most what its part has room for. -/
theorem share_bounds {e : α × Int} (h : e ∈ (fill room r l).1) : 0 < e.2 ∧ e.2 ≤ room e.1 := by
  induction l generalizing r with
  | nil => cases h
  | cons a l ih =>
      rw [fill] at h
      split at h
      · cases h
      · split at h
        · exact ih h
        · rcases List.mem_cons.mp h with rfl | h
          · exact ⟨by show 0 < min (room a) r; omega, min_le_left _ _⟩
          · exact ih h

/-- **In turn.** The places that get something are the first of those with room, and all of them where
something is left. -/
theorem fill_prefix (room : α → Int) (r : Int) (l : List α) :
    (fill room r l).1.map Prod.fst <+: l.filter (0 < room ·) ∧
      (0 < (fill room r l).2 → (fill room r l).1.map Prod.fst = l.filter (0 < room ·)) := by
  induction l generalizing r with
  | nil => exact ⟨List.nil_prefix, fun _ => rfl⟩
  | cons a l ih =>
      rw [fill]
      split
      · rename_i hr
        exact ⟨List.nil_prefix, fun hrest => absurd hrest (not_lt.mpr hr)⟩
      · split
        · rename_i ha
          rw [List.filter_cons_of_neg (by simpa using ha)]
          exact ih r
        · rename_i ha
          rw [List.filter_cons_of_pos (by simpa using ha)]
          obtain ⟨hpre, hall⟩ := ih (r - min (room a) r)
          refine ⟨List.prefix_cons_inj a |>.mpr hpre, fun hrest => ?_⟩
          exact congrArg (a :: ·) (hall hrest)

/-- Every place is filled but the last that gets something. -/
theorem fill_full (room : α → Int) (r : Int) (l : List α) :
    (∀ e ∈ (fill room r l).1.dropLast, e.2 = room e.1) ∧
      (0 < (fill room r l).2 → ∀ e ∈ (fill room r l).1, e.2 = room e.1) := by
  induction l generalizing r with
  | nil => simp [fill]
  | cons a l ih =>
      rw [fill]
      split
      · simp
      · split
        · exact ih r
        · obtain ⟨hlast, hall⟩ := ih (r - min (room a) r)
          constructor
          · intro e he
            cases hrest : (fill room (r - min (room a) r) l).1 with
            | nil => simp [hrest] at he
            | cons e' es =>
                rw [hrest, List.dropLast_cons_of_ne_nil (by simp)] at he
                rw [hrest] at hlast
                rcases List.mem_cons.mp he with rfl | he
                · -- where a later place got something, this one took no more than its room
                  have hleft : ¬r - min (room a) r ≤ 0 := by
                    intro hle
                    rw [fill_of_nonpos hle] at hrest
                    cases hrest
                  show min (room a) r = room a
                  omega
                · exact hlast e he
          · intro hrest e he
            rcases List.mem_cons.mp he with rfl | he
            · have hleft : ¬r - min (room a) r ≤ 0 := by
                intro hle
                rw [fill_of_nonpos hle] at hrest
                exact absurd hrest (not_lt.mpr hle)
              show min (room a) r = room a
              omega
            · exact hall hrest e he

end Allocation

import Mathlib.Data.List.Basic
import Mathlib.Data.Option.Basic

/-! # Dynamic values

What a JSON text holds, over a type `D` of floating-point numbers. An object is read by its keys: a key
that it lacks reads as null. -/

inductive Dyn (D : Type) where
  | null
  | bool (b : Bool)
  | int (n : Int)
  | double (x : D)
  | text (s : String)
  | array (l : List (Dyn D))
  | object (o : List (String × Dyn D))

namespace Dyn

variable {D : Type}

abbrev Object (D : Type) := List (String × Dyn D)

def isNull : Dyn D → Bool
  | null => true
  | _    => false

/-- The value under the key `k`. -/
def get (o : Object D) (k : String) : Dyn D := (o.lookup k).getD null

/-- An object of the fields that have a value. -/
def ofFields (fields : List (String × Option (Dyn D))) : Object D :=
  fields.filterMap fun e => e.2.map fun v => (e.1, v)

/-- A field that is always there. -/
def field (k : String) (v : Dyn D) : String × Option (Dyn D) := (k, some v)

/-- A field that is there where it has a value. -/
def fieldIf {α : Type} (k : String) (mk : α → Dyn D) (v : Option α) : String × Option (Dyn D) :=
  (k, v.map mk)

/-- A value, or null. -/
def orNull {α : Type} (mk : α → Dyn D) (v : Option α) : Dyn D := (v.map mk).getD null

@[simp] theorem get_nil (k : String) : get ([] : Object D) k = null := rfl

theorem get_cons (k : String) (e : String × Dyn D) (o : Object D) :
    get (e :: o) k = if k = e.1 then e.2 else get o k := by
  rw [get, List.lookup_cons]
  by_cases h : k = e.1
  · rw [if_pos h, beq_iff_eq.mpr h]
    rfl
  · rw [if_neg h, beq_eq_false_iff_ne.mpr h]
    rfl

theorem get_append {o o' : Object D} {k : String} (h : ∀ e ∈ o, e.1 ≠ k) : get (o ++ o') k = get o' k := by
  induction o with
  | nil => rfl
  | cons e o ih =>
      rw [List.cons_append, get_cons, if_neg fun heq => h e List.mem_cons_self heq.symm]
      exact ih fun e' he' => h e' (List.mem_cons_of_mem e he')

theorem get_append_left {o o' : Object D} {k : String} (h : ∀ e ∈ o', e.1 ≠ k) : get (o ++ o') k = get o k := by
  induction o with
  | nil =>
      rw [List.nil_append, ← List.append_nil o', get_append h]
  | cons e o ih => rw [List.cons_append, get_cons, get_cons, ih]

@[simp] theorem get_ofFields_nil (k : String) : get (ofFields ([] : List (String × Option (Dyn D)))) k = null :=
  rfl

@[simp] theorem get_ofFields_field (k k' : String) (v : Dyn D) (fields : List (String × Option (Dyn D))) :
    get (ofFields (field k v :: fields)) k' = if k' = k then v else get (ofFields fields) k' := get_cons k' (k, v) _

@[simp] theorem get_ofFields_fieldIf {α : Type} (k k' : String) (mk : α → Dyn D) (v : Option α)
    (fields : List (String × Option (Dyn D))) :
    get (ofFields (fieldIf k mk v :: fields)) k' =
      if k' = k then (v.map mk).getD (get (ofFields fields) k) else get (ofFields fields) k' := by
  cases v with
  | none =>
      show get (ofFields fields) k' = _
      split
      next h => rw [h]; rfl
      · rfl
  | some a => exact get_cons k' (k, mk a) _

theorem mem_ofFields {fields : List (String × Option (Dyn D))} {e : String × Dyn D}
    (h : e ∈ ofFields fields) : e.1 ∈ fields.map Prod.fst := by
  obtain ⟨f, hf, hmap⟩ := List.mem_filterMap.mp h
  obtain ⟨v, -, rfl⟩ := Option.map_eq_some_iff.mp hmap
  exact List.mem_map_of_mem hf

end Dyn

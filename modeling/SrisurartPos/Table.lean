import Mathlib.Data.List.Nodup
import Mathlib.Data.Int.Basic
import Mathlib.Algebra.BigOperators.Group.Finset.Basic
import Mathlib.Data.Option.Basic
import Mathlib.Tactic.Ring

/-! # Tables

A table holds rows under distinct keys, in the order in which they were inserted. It is a list with
the proof that no key occurs twice, so that a row is determined by its key (`mem_rows`) and a sum
over the rows moves by one summand when one row does (`total_insert`, `total_modify`). -/

/-- Rows under distinct keys. -/
structure Table (κ ν : Type) where
  rows : List (κ × ν)
  nodup : (rows.map Prod.fst).Nodup

namespace Table

variable {κ ν : Type} [DecidableEq κ]

def empty : Table κ ν := ⟨[], List.nodup_nil⟩

/-- The row under the key `k`. -/
def get (t : Table κ ν) (k : κ) : Option ν := t.rows.lookup k

/-- Adds a row. A key that is taken keeps the row it has. -/
def insert (t : Table κ ν) (k : κ) (v : ν) : Table κ ν :=
  if h : k ∈ t.rows.map Prod.fst then t
  else ⟨t.rows ++ [(k, v)], by
    rw [List.map_append, List.nodup_append]
    exact ⟨t.nodup, by simp, by rintro a ha b hb rfl; simp_all⟩⟩

/-- Changes the row under `k`, if there is one. -/
def modify (t : Table κ ν) (k : κ) (f : ν → ν) : Table κ ν :=
  ⟨t.rows.map fun e => if e.1 = k then (e.1, f e.2) else e, by
    have : (t.rows.map fun e => if e.1 = k then (e.1, f e.2) else e).map Prod.fst =
        t.rows.map Prod.fst := by
      rw [List.map_map]
      apply List.map_congr_left
      intro e _
      by_cases h : e.1 = k <;> simp [h]
    rw [this]
    exact t.nodup⟩

/-- Changes every row. -/
def map (t : Table κ ν) (f : ν → ν) : Table κ ν :=
  ⟨t.rows.map fun e => (e.1, f e.2), by
    rw [List.map_map]
    exact t.nodup⟩

/-- Writes the row under `k`, whether there is one or not (`ON CONFLICT … DO UPDATE`). -/
def upsert (t : Table κ ν) (k : κ) (v : ν) : Table κ ν :=
  if (t.get k).isSome then t.modify k fun _ => v else t.insert k v

/-- The rows of a list, one after the other. Of several under one key the first stays. -/
def insertAll (l : List (κ × ν)) : Table κ ν := l.foldl (fun t e => t.insert e.1 e.2) empty

/-- Removes the row under `k`. -/
def erase (t : Table κ ν) (k : κ) : Table κ ν :=
  ⟨t.rows.filter fun e => e.1 ≠ k, t.nodup.sublist (List.filter_sublist.map _)⟩

/-- The rows that satisfy `p`, oldest first. -/
def select (t : Table κ ν) (p : ν → Bool) : List ν := (t.rows.map Prod.snd).filter p

/-- The first row that satisfies `p`, with its key. -/
def find (t : Table κ ν) (p : κ → ν → Bool) : Option (κ × ν) := t.rows.find? fun e => p e.1 e.2

/-- The sum of `g` over the rows. -/
def total (t : Table κ ν) (g : κ → ν → Int) : Int := (t.rows.map fun e => g e.1 e.2).sum

@[simp] theorem get_empty (k : κ) : (empty : Table κ ν).get k = none := rfl

/-! ## Membership -/

/-- In a list of rows under distinct keys the row under a key is the one that is there. -/
theorem lookup_eq_some {l : List (κ × ν)} (hl : (l.map Prod.fst).Nodup) {k : κ} {v : ν} :
    l.lookup k = some v ↔ (k, v) ∈ l := by
  induction l with
  | nil => simp
  | cons e l ih =>
      obtain ⟨k', v'⟩ := e
      obtain ⟨hk', hl⟩ : k' ∉ l.map Prod.fst ∧ (l.map Prod.fst).Nodup := by
        simpa only [List.map_cons, List.nodup_cons] using hl
      by_cases h : k = k'
      · subst h
        have hno : (k, v) ∉ l := fun hm => hk' (List.mem_map.mpr ⟨_, hm, rfl⟩)
        simp [hno, eq_comm]
      · rw [List.lookup_cons, beq_false_of_ne h]
        simp [h, ih hl]

/-- A row is in the table exactly when it is the one under its key. -/
theorem mem_rows (t : Table κ ν) {k : κ} {v : ν} : (k, v) ∈ t.rows ↔ t.get k = some v :=
  (lookup_eq_some t.nodup).symm

theorem get_eq_none (t : Table κ ν) {k : κ} : t.get k = none ↔ k ∉ t.rows.map Prod.fst := by
  constructor
  · intro h hm
    obtain ⟨⟨k', v⟩, hv, rfl⟩ := List.mem_map.mp hm
    rw [t.mem_rows.mp hv] at h
    cases h
  · intro h
    rw [Option.eq_none_iff_forall_ne_some]
    intro v hv
    exact h (List.mem_map.mpr ⟨_, t.mem_rows.mpr hv, rfl⟩)

theorem mem_select {t : Table κ ν} {p : ν → Bool} {v : ν} :
    v ∈ t.select p ↔ (∃ k, t.get k = some v) ∧ p v = true := by
  simp only [select, List.mem_filter, List.mem_map, Prod.exists, exists_eq_right]
  exact and_congr (exists_congr fun k => t.mem_rows) Iff.rfl

/-! ## Reading back -/

theorem rows_insert {t : Table κ ν} {k : κ} (h : t.get k = none) (v : ν) :
    (t.insert k v).rows = t.rows ++ [(k, v)] := by
  rw [insert, dif_neg (t.get_eq_none.mp h)]

theorem get_insert {t : Table κ ν} {k : κ} (h : t.get k = none) (v : ν) (k' : κ) :
    (t.insert k v).get k' = if k' = k then some v else t.get k' := by
  have hrows := rows_insert h v
  apply Option.ext
  intro w
  rw [← mem_rows, hrows, List.mem_append, mem_rows]
  by_cases hk : k' = k
  · subst hk
    simp [h, eq_comm]
  · simp [hk]

@[simp] theorem get_insert_self {t : Table κ ν} {k : κ} (h : t.get k = none) (v : ν) :
    (t.insert k v).get k = some v := by rw [get_insert h, if_pos rfl]

@[simp] theorem get_insert_ne (t : Table κ ν) {k k' : κ} (hk : k' ≠ k) (v : ν) :
    (t.insert k v).get k' = t.get k' := by
  cases h : t.get k with
  | none => rw [get_insert h, if_neg hk]
  | some w =>
      have : k ∈ t.rows.map Prod.fst := List.mem_map.mpr ⟨_, t.mem_rows.mpr h, rfl⟩
      rw [insert, dif_pos this]

/-- Modifying a row changes the look-up of its key alone. -/
theorem get_modify (t : Table κ ν) (k k' : κ) (f : ν → ν) :
    (t.modify k f).get k' = if k' = k then (t.get k').map f else t.get k' := by
  apply Option.ext
  intro w
  rw [← mem_rows]
  simp only [modify, List.mem_map, Prod.exists]
  by_cases hk : k' = k
  · subst hk
    simp only [if_pos, Option.map_eq_some_iff]
    constructor
    · rintro ⟨a, b, hb, he⟩
      by_cases ha : a = k'
      · subst ha
        simp only [if_pos, Prod.mk.injEq, true_and] at he
        exact ⟨b, t.mem_rows.mp hb, he⟩
      · rw [if_neg ha] at he
        cases he
        exact absurd rfl ha
    · rintro ⟨b, hb, rfl⟩
      exact ⟨k', b, t.mem_rows.mpr hb, by rw [if_pos rfl]⟩
  · rw [if_neg hk, ← mem_rows]
    constructor
    · rintro ⟨a, b, hb, he⟩
      by_cases ha : a = k
      · rw [if_pos ha] at he
        cases he
        exact absurd ha hk
      · rw [if_neg ha] at he
        cases he
        exact hb
    · intro hw
      exact ⟨k', w, hw, by rw [if_neg hk]⟩

@[simp] theorem get_modify_self (t : Table κ ν) (k : κ) (f : ν → ν) :
    (t.modify k f).get k = (t.get k).map f := by rw [get_modify, if_pos rfl]

@[simp] theorem get_modify_ne (t : Table κ ν) {k k' : κ} (hk : k' ≠ k) (f : ν → ν) :
    (t.modify k f).get k' = t.get k' := by rw [get_modify, if_neg hk]

theorem modify_of_none {t : Table κ ν} {k : κ} (h : t.get k = none) (f : ν → ν) :
    t.modify k f = t := by
  have hrows : (t.rows.map fun e => if e.1 = k then (e.1, f e.2) else e) = t.rows := by
    rw [List.map_congr_left (g := id) fun e he => ?_, List.map_id]
    exact if_neg fun hek => t.get_eq_none.mp h (List.mem_map.mpr ⟨e, he, hek⟩)
  obtain ⟨rows, nodup⟩ := t
  simp only [modify, mk.injEq]
  exact hrows

/-- Two changes that do the same to the row under `k` are one. -/
theorem modify_congr {t : Table κ ν} {k : κ} {f g : ν → ν} (h : ∀ v, t.get k = some v → f v = g v) :
    t.modify k f = t.modify k g := by
  simp only [modify, mk.injEq]
  apply List.map_congr_left
  rintro ⟨k', v⟩ hm
  by_cases hk : k' = k
  · subst hk
    simp [h v (t.mem_rows.mp hm)]
  · simp [hk]

@[simp] theorem isSome_modify (t : Table κ ν) (k k' : κ) (f : ν → ν) :
    ((t.modify k f).get k').isSome = (t.get k').isSome := by
  rw [get_modify]
  split <;> simp

theorem get_map (t : Table κ ν) (f : ν → ν) (k : κ) : (t.map f).get k = (t.get k).map f := by
  apply Option.ext
  intro w
  rw [← mem_rows, Option.map_eq_some_iff]
  simp only [map, List.mem_map, Prod.mk.injEq, Prod.exists]
  constructor
  · rintro ⟨k', v, hv, rfl, rfl⟩
    exact ⟨v, t.mem_rows.mp hv, rfl⟩
  · rintro ⟨v, hv, rfl⟩
    exact ⟨k, v, t.mem_rows.mpr hv, rfl, rfl⟩

/-- An upsert is an insert that also replaces a row that is there. -/
theorem get_upsert (t : Table κ ν) (k k' : κ) (v : ν) :
    (t.upsert k v).get k' = if k' = k then some v else t.get k' := by
  rw [upsert]
  cases h : t.get k with
  | none => simp [get_insert h]
  | some w =>
      rw [Option.isSome_some, if_pos rfl, get_modify]
      split
      · rename_i hk
        subst hk
        rw [h, Option.map_some]
      · rfl

/-- What a run of upserts leaves under a key: the row of one of its entries, or the row before it. -/
theorem get_foldl_upsert {ε : Type} (l : List ε) (key : ε → κ) (row : ε → ν) (t : Table κ ν) (k : κ) :
    ((l.foldl (fun t e => t.upsert (key e) (row e)) t).get k = t.get k ∧ ∀ e ∈ l, key e ≠ k) ∨
      ∃ e ∈ l, key e = k ∧ (l.foldl (fun t e => t.upsert (key e) (row e)) t).get k = some (row e) := by
  induction l generalizing t with
  | nil => exact Or.inl ⟨rfl, by simp⟩
  | cons e l ih =>
      rw [List.foldl_cons]
      rcases ih (t.upsert (key e) (row e)) with ⟨hget, hno⟩ | ⟨e', he', hk, hget⟩
      · rw [hget, get_upsert]
        by_cases hk : k = key e
        · exact Or.inr ⟨e, List.mem_cons_self, hk.symm, by rw [if_pos hk]⟩
        · refine Or.inl ⟨if_neg hk, ?_⟩
          intro e' he'
          rcases List.mem_cons.mp he' with rfl | h
          · exact fun h => hk h.symm
          · exact hno e' h
      · exact Or.inr ⟨e', List.mem_cons_of_mem _ he', hk, hget⟩

theorem get_erase (t : Table κ ν) (k k' : κ) :
    (t.erase k).get k' = if k' = k then none else t.get k' := by
  apply Option.ext
  intro w
  rw [← mem_rows]
  by_cases hk : k' = k
  · simp [erase, hk]
  · simp [erase, hk, mem_rows]

/-- Every row named in `s` is changed by what `s` has for it. -/
theorem get_foldl_modify {δ : Type} (s : Table κ δ) (g : δ → ν → ν) (t : Table κ ν) (k : κ) :
    (s.rows.foldl (fun t e => t.modify e.1 (g e.2)) t).get k =
      (s.get k).elim (t.get k) fun d => (t.get k).map (g d) := by
  obtain ⟨l, hl⟩ := s
  show (l.foldl (fun t e => t.modify e.1 (g e.2)) t).get k = (l.lookup k).elim _ _
  induction l generalizing t with
  | nil => rfl
  | cons e l ih =>
      obtain ⟨k', d⟩ := e
      obtain ⟨hk', hrest⟩ : k' ∉ l.map Prod.fst ∧ (l.map Prod.fst).Nodup := by
        simpa only [List.map_cons, List.nodup_cons] using hl
      rw [List.foldl_cons, ih _ hrest, get_modify]
      by_cases hk : k = k'
      · subst hk
        have hlast : l.lookup k = none := (get_eq_none ⟨l, hrest⟩).mpr hk'
        rw [hlast, List.lookup_cons_self, Option.elim_none, Option.elim_some, if_pos rfl]
      · rw [List.lookup_cons, beq_false_of_ne hk, if_neg hk]

theorem insert_of_mem {t : Table κ ν} {k : κ} {w : ν} (h : t.get k = some w) (v : ν) :
    t.insert k v = t := by
  have : k ∈ t.rows.map Prod.fst := List.mem_map.mpr ⟨_, t.mem_rows.mpr h, rfl⟩
  rw [insert, dif_pos this]

theorem isSome_get_insert (t : Table κ ν) (k k' : κ) (v : ν) :
    ((t.insert k v).get k').isSome = ((t.get k').isSome || decide (k' = k)) := by
  cases h : t.get k with
  | none =>
      rw [get_insert h]
      by_cases hk : k' = k
      · simp [hk]
      · simp [hk]
  | some w =>
      rw [insert_of_mem h]
      by_cases hk : k' = k
      · rw [hk, h]
        rfl
      · simp [hk]

/-- Of a list of rows that is inserted one by one, a key finds its first row; what the table had comes first. -/
private theorem get_foldl_insert (l : List (κ × ν)) (t : Table κ ν) (k : κ) :
    (l.foldl (fun t e => t.insert e.1 e.2) t).get k = (t.get k).or (l.lookup k) := by
  induction l generalizing t with
  | nil => rw [List.foldl_nil, List.lookup_nil, Option.or_none]
  | cons e l ih =>
      obtain ⟨k', v⟩ := e
      rw [List.foldl_cons, ih, List.lookup_cons]
      by_cases hk : k = k'
      · subst hk
        cases h : t.get k with
        | none => simp [get_insert h]
        | some w => simp [insert_of_mem h, h]
      · rw [get_insert_ne t hk, beq_false_of_ne hk]

theorem lookup_rows {μ : Type} (t : Table κ ν) (f : κ → ν → μ) (k : κ) :
    (t.rows.map fun e => (e.1, f e.1 e.2)).lookup k = (t.get k).map (f k) := by
  rw [get]
  induction t.rows with
  | nil => rfl
  | cons e l ih =>
      rw [List.map_cons, List.lookup_cons, List.lookup_cons, ih]
      by_cases hk : k = e.1
      · rw [hk, BEq.rfl]
        rfl
      · rw [beq_false_of_ne hk]

/-- The rows of one table, written out and read into another. -/
theorem get_insertAll_rows {ε μ : Type} (t : Table κ ν) {key : ε → κ} {row : ε → μ} {f : κ → ν → ε}
    (hkey : ∀ k v, key (f k v) = k) (k : κ) :
    (insertAll ((t.rows.map fun e => f e.1 e.2).map fun d => (key d, row d))).get k =
      (t.get k).map fun v => row (f k v) := by
  rw [insertAll, get_foldl_insert, get_empty, Option.none_or, List.map_map,
    ← t.lookup_rows fun k v => row (f k v)]
  simp only [Function.comp_def, hkey]

theorem mem_of_get_insertAll {l : List (κ × ν)} {k : κ} {v : ν}
    (h : (insertAll l).get k = some v) : (k, v) ∈ l := by
  rw [insertAll, get_foldl_insert, get_empty, Option.none_or] at h
  obtain ⟨l₁, l₂, rfl, -⟩ := List.lookup_eq_some_iff.mp h
  exact List.mem_append_right _ List.mem_cons_self

theorem isSome_get_insertAll {l : List (κ × ν)} {k : κ} {v : ν} (h : (k, v) ∈ l) :
    ((insertAll l).get k).isSome = true := by
  rw [insertAll, get_foldl_insert, get_empty, Option.none_or]
  cases hv : l.lookup k with
  | some w => rfl
  | none =>
      rw [List.lookup_eq_none_iff] at hv
      have hne := hv (k, v) h
      simp at hne

/-- A list that has under each key at most one row, though it may have it twice. -/
theorem get_insertAll {l : List (κ × ν)} {g : κ → Option ν} (h : ∀ k v, (k, v) ∈ l ↔ g k = some v)
    (k : κ) : (insertAll l).get k = g k := by
  rw [insertAll, get_foldl_insert, get_empty, Option.none_or]
  cases hv : l.lookup k with
  | some v =>
      obtain ⟨l₁, l₂, rfl, -⟩ := List.lookup_eq_some_iff.mp hv
      exact ((h k v).mp (by simp)).symm
  | none =>
      rw [List.lookup_eq_none_iff] at hv
      rw [eq_comm, Option.eq_none_iff_forall_ne_some]
      intro v hg
      have hne := hv (k, v) ((h k v).mpr hg)
      simp at hne

theorem find_insert {t : Table κ ν} {k : κ} (h : t.get k = none) (v : ν) (p : κ → ν → Bool) :
    ((t.insert k v).find p).isSome = ((t.find p).isSome || p k v) := by
  rw [find, find, rows_insert h, List.find?_append]
  cases t.rows.find? fun e => p e.1 e.2 with
  | none => by_cases hp : p k v = true <;> simp [hp]
  | some e => simp

/-- What `find` looks for is not affected by a change of rows that `p` does not see. -/
theorem find_modify_isSome {t : Table κ ν} {k : κ} {f : ν → ν} {p : κ → ν → Bool}
    (h : ∀ v, p k (f v) = p k v) : ((t.modify k f).find p).isSome = (t.find p).isSome := by
  rw [find, find, modify, List.find?_map, Option.isSome_map]
  congr 2
  funext e
  by_cases hk : e.1 = k
  · simp only [Function.comp_apply, if_pos hk]
    rw [hk, h]
  · simp only [Function.comp_apply, if_neg hk]

@[simp] theorem select_insert {t : Table κ ν} {k : κ} (h : t.get k = none) (v : ν)
    (p : ν → Bool) :
    (t.insert k v).select p = t.select p ++ if p v then [v] else [] := by
  rw [select, rows_insert h, List.map_append, List.filter_append]
  by_cases hp : p v = true <;> simp [select, hp]

/-! ## Sums -/

theorem total_insert {t : Table κ ν} {k : κ} (h : t.get k = none) (v : ν) (g : κ → ν → Int) :
    (t.insert k v).total g = t.total g + g k v := by
  rw [total, rows_insert h]
  simp [total]

theorem total_congr {t : Table κ ν} {g g' : κ → ν → Int}
    (h : ∀ k v, t.get k = some v → g k v = g' k v) : t.total g = t.total g' := by
  rw [total, total]
  congr 1
  apply List.map_congr_left
  rintro ⟨k, v⟩ hm
  exact h k v (t.mem_rows.mp hm)

/-- A change of one row under which `g` stands still leaves the sum as it is. -/
theorem total_modify_same {t : Table κ ν} {k : κ} {f : ν → ν} {g : κ → ν → Int}
    (h : ∀ v, t.get k = some v → g k (f v) = g k v) : (t.modify k f).total g = t.total g := by
  rw [total, total, modify, List.map_map]
  congr 1
  apply List.map_congr_left
  rintro ⟨k', v⟩ hm
  by_cases hk : k' = k
  · subst hk
    simp [h v (t.mem_rows.mp hm)]
  · simp [hk]

/-- A total over the rows, after one of them was modified: the row's old share goes, its new one comes. -/
private theorem sum_modify {l : List (κ × ν)} (hl : (l.map Prod.fst).Nodup) {k : κ} {v : ν}
    (h : (k, v) ∈ l) (f : ν → ν) (g : κ → ν → Int) :
    ((l.map fun e => if e.1 = k then (e.1, f e.2) else e).map fun e => g e.1 e.2).sum =
      (l.map fun e => g e.1 e.2).sum - g k v + g k (f v) := by
  induction l with
  | nil => cases h
  | cons e l ih =>
      obtain ⟨k', v'⟩ := e
      obtain ⟨hk', hl⟩ : k' ∉ l.map Prod.fst ∧ (l.map Prod.fst).Nodup := by
        simpa only [List.map_cons, List.nodup_cons] using hl
      rcases List.mem_cons.mp h with heq | h
      · obtain ⟨rfl, rfl⟩ : k = k' ∧ v = v' := by simpa using heq
        have hrest : (l.map fun e => if e.1 = k then (e.1, f e.2) else e) = l := by
          rw [List.map_congr_left (g := id) fun e he => ?_, List.map_id]
          exact if_neg fun hek => hk' (List.mem_map.mpr ⟨e, he, hek⟩)
        simp only [List.map_cons, List.sum_cons, hrest, if_pos]
        ring
      · have hne : k' ≠ k := by
          rintro rfl
          exact hk' (List.mem_map.mpr ⟨_, h, rfl⟩)
        simp only [List.map_cons, List.sum_cons, if_neg hne]
        rw [ih hl h]
        ring

theorem total_modify {t : Table κ ν} {k : κ} {v : ν} (h : t.get k = some v) (f : ν → ν)
    (g : κ → ν → Int) : (t.modify k f).total g = t.total g - g k v + g k (f v) :=
  sum_modify t.nodup (t.mem_rows.mpr h) f g

/-- Two summands that differ only at the key `k` differ in the sum by what they do there. -/
theorem total_of_eq_off {t : Table κ ν} {k : κ} {g g' : κ → ν → Int}
    (h : ∀ k' v, k' ≠ k → g' k' v = g k' v) :
    t.total g' = t.total g + (t.get k).elim 0 fun v => g' k v - g k v := by
  cases hk : t.get k with
  | none =>
      rw [Option.elim_none, add_zero]
      apply total_congr
      rintro k' v hv
      refine h k' v ?_
      rintro rfl
      rw [hk] at hv
      cases hv
  | some v =>
      -- read the second sum as the first one over a table whose row at `k` is marked
      let t' : Table κ (ν × Bool) := ⟨t.rows.map fun e => (e.1, e.2, false), by
        rw [List.map_map]; exact t.nodup⟩
      have hget : t'.get k = some (v, false) := by
        rw [← t'.mem_rows]
        exact List.mem_map.mpr ⟨(k, v), t.mem_rows.mpr hk, rfl⟩
      have hg : t.total g = t'.total fun k w => if w.2 then g' k w.1 else g k w.1 := by
        simp [total, t', List.map_map, Function.comp_def]
      have hg' : t.total g' =
          (t'.modify k fun w => (w.1, true)).total fun k w => if w.2 then g' k w.1 else g k w.1 := by
        simp only [total, modify, t', List.map_map]
        congr 1
        apply List.map_congr_left
        rintro ⟨k', w⟩ _
        by_cases hkk : k' = k
        · simp [hkk]
        · simp [hkk, h k' w hkk]
      rw [hg', hg, total_modify hget, Option.elim_some]
      simp
      ring

theorem sum_filter_map {α M : Type} [AddCommMonoid M] (l : List α) (p : α → Bool) (f : α → M) :
    ((l.filter p).map f).sum = (l.map fun a => if p a then f a else 0).sum := by
  induction l with
  | nil => rfl
  | cons a l ih =>
      rw [List.filter_cons, List.map_cons, List.sum_cons, ← ih]
      split
      · rw [List.map_cons, List.sum_cons]
      · rw [zero_add]

/-- A sum over what satisfies one or the other of two conditions, never both. -/
theorem sum_filter_or {α M : Type} [AddCommMonoid M] (l : List α) {p p₁ p₂ : α → Bool}
    (h : ∀ a ∈ l, p a = (p₁ a || p₂ a)) (hdisjoint : ∀ a ∈ l, p₁ a = true → p₂ a = false) (f : α → M) :
    ((l.filter p).map f).sum = ((l.filter p₁).map f).sum + ((l.filter p₂).map f).sum := by
  rw [sum_filter_map, sum_filter_map, sum_filter_map, ← List.sum_map_add]
  congr 1
  apply List.map_congr_left
  intro a ha
  rw [h a ha]
  cases h₁ : p₁ a with
  | true => simp [hdisjoint a ha h₁]
  | false => simp

theorem sum_flatMap_map {α β M : Type} [AddCommMonoid M] (l : List α) (g : α → List β) (f : β → M) :
    ((l.flatMap g).map f).sum = (l.map fun a => ((g a).map f).sum).sum := by
  induction l with
  | nil => rfl
  | cons a l ih => rw [List.flatMap_cons, List.map_append, List.sum_append, ih, List.map_cons, List.sum_cons]

/-! ## Two tables under the same keys -/

section
variable {μ M : Type} [AddCommMonoid M] {t : Table κ ν} {t' : Table κ μ} {R : ν → μ → Prop}

theorem sum_rows_eq (t : Table κ ν) (f : κ → ν → M) : (t.rows.map fun e => f e.1 e.2).sum =
    ((t.rows.map Prod.fst).map fun k => (t.get k).elim 0 (f k)).sum := by
  rw [List.map_map]
  congr 1
  apply List.map_congr_left
  rintro ⟨k, v⟩ hm
  rw [Function.comp_apply, t.mem_rows.mp hm, Option.elim_some]

/-- What comes to the same under every key comes to the same sum. -/
theorem sum_matched {f : κ → ν → M} {g : κ → μ → M}
    (h : ∀ k, (t.get k).elim 0 (f k) = (t'.get k).elim 0 (g k)) :
    (t.rows.map fun e => f e.1 e.2).sum = (t'.rows.map fun e => g e.1 e.2).sum := by
  -- both sums may run over the keys of either table
  let keys := (t.rows.map Prod.fst).toFinset ∪ (t'.rows.map Prod.fst).toFinset
  have hleft : (t.rows.map fun e => f e.1 e.2).sum = ∑ k ∈ keys, (t.get k).elim 0 (f k) := by
    rw [sum_rows_eq, ← List.sum_toFinset _ t.nodup]
    refine Finset.sum_subset Finset.subset_union_left fun k _ hk => ?_
    rw [List.mem_toFinset, ← t.get_eq_none] at hk
    rw [hk, Option.elim_none]
  have hright : (t'.rows.map fun e => g e.1 e.2).sum = ∑ k ∈ keys, (t'.get k).elim 0 (g k) := by
    rw [sum_rows_eq, ← List.sum_toFinset _ t'.nodup]
    refine Finset.sum_subset Finset.subset_union_right fun k _ hk => ?_
    rw [List.mem_toFinset, ← t'.get_eq_none] at hk
    rw [hk, Option.elim_none]
  rw [hleft, hright]
  exact Finset.sum_congr rfl fun k _ => h k

/-- A table whose rows come from those of another. -/
theorem sum_mapped {φ : κ → ν → μ} (h : ∀ k, t'.get k = (t.get k).map (φ k)) {f : κ → ν → M}
    {g : κ → μ → M} (hfg : ∀ k v, t.get k = some v → g k (φ k v) = f k v) :
    (t'.rows.map fun e => g e.1 e.2).sum = (t.rows.map fun e => f e.1 e.2).sum := by
  refine sum_matched fun k => ?_
  rw [h]
  cases hv : t.get k with
  | none => rfl
  | some v => exact hfg k v hv

/-- Rows that pair up by their keys may be summed on either side. -/
theorem sum_paired (h : ∀ k, Option.Rel R (t.get k) (t'.get k)) {f : κ → ν → M} {g : κ → μ → M}
    (hfg : ∀ k v w, t.get k = some v → t'.get k = some w → R v w → f k v = g k w) :
    (t.rows.map fun e => f e.1 e.2).sum = (t'.rows.map fun e => g e.1 e.2).sum := by
  refine sum_matched fun k => ?_
  have hk := h k
  cases hv : t.get k with
  | none =>
      rw [hv] at hk
      cases hw : t'.get k with
      | none => rfl
      | some w =>
          rw [hw] at hk
          cases hk
  | some v =>
      rw [hv] at hk
      cases hw : t'.get k with
      | none =>
          rw [hw] at hk
          cases hk
      | some w =>
          rw [hw] at hk
          obtain ⟨hr⟩ := hk
          exact hfg k v w hv hw hr

end

end Table

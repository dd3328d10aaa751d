import Mathlib.Data.List.Nodup
import Mathlib.Data.List.Sort
import Mathlib.Algebra.BigOperators.Group.List.Basic
import Mathlib.Algebra.BigOperators.Group.List.Lemmas
import Mathlib.Algebra.BigOperators.Group.Finset.Piecewise
import Mathlib.Algebra.Order.BigOperators.Group.Finset
import Mathlib.Tactic.Abel
import Mathlib.Tactic.Ring

/-! # Grouping a list by a key

`collapse key merge items` walks the list once and keeps one entry for each key, in the order in
which the keys first occur; a later item with the same key is merged into the entry. It is what
`GROUP BY` computes, and what a loop over an insertion-ordered map computes.

Two facts are all that callers need: the keys of the result are distinct (`nodup_collapse`), and
whatever the merge adds up is preserved, for the whole list and for each key (`sum_collapse`). -/

namespace Grouping

variable {α κ : Type} [DecidableEq κ]

/-- Merges `b` into the entry with its key, or appends it. -/
def add (key : α → κ) (merge : α → α → α) (gs : List α) (b : α) : List α :=
  if key b ∈ gs.map key then gs.map fun g => if key g = key b then merge g b else g
  else gs ++ [b]

/-- One entry for each key. -/
def collapse (key : α → κ) (merge : α → α → α) (items : List α) : List α :=
  items.foldl (add key merge) []

section
variable {key : α → κ} {merge : α → α → α} (hkey : ∀ a b, key (merge a b) = key a)
include hkey

private theorem keys_add (gs : List α) (b : α) :
    (add key merge gs b).map key =
      if key b ∈ gs.map key then gs.map key else gs.map key ++ [key b] := by
  rw [add]
  split
  · rw [List.map_map]
    apply List.map_congr_left
    intro g _
    by_cases h : key g = key b <;> simp [h, hkey]
  · simp

/-- No key comes twice, after any number of items. -/
private theorem nodup_foldl (items gs : List α) (h : (gs.map key).Nodup) :
    ((items.foldl (add key merge) gs).map key).Nodup := by
  induction items generalizing gs with
  | nil => exact h
  | cons b items ih =>
      apply ih
      rw [keys_add hkey]
      split
      · exact h
      · rename_i hno
        rw [List.nodup_append]
        refine ⟨h, List.nodup_singleton _, ?_⟩
        rintro a ha c hc rfl
        exact hno (List.mem_singleton.mp hc ▸ ha)

/-- Every key occurs once. -/
theorem nodup_collapse (items : List α) : ((collapse key merge items).map key).Nodup :=
  nodup_foldl hkey items [] List.nodup_nil

/-- A key is there when a group or an item has it. -/
private theorem mem_foldl (items gs : List α) (k : κ) :
    k ∈ (items.foldl (add key merge) gs).map key ↔ k ∈ gs.map key ∨ k ∈ items.map key := by
  induction items generalizing gs with
  | nil => simp
  | cons b items ih =>
      rw [List.foldl_cons, ih, keys_add hkey, List.map_cons, List.mem_cons]
      split
      · rename_i hb
        constructor
        · rintro (h | h)
          · exact Or.inl h
          · exact Or.inr (Or.inr h)
        · rintro (h | rfl | h)
          · exact Or.inl h
          · exact Or.inl hb
          · exact Or.inr h
      · rw [List.mem_append, List.mem_singleton, or_assoc]

/-- The keys are those of the list. -/
theorem mem_collapse (items : List α) (k : κ) :
    k ∈ (collapse key merge items).map key ↔ k ∈ items.map key := by
  rw [collapse, mem_foldl hkey]
  simp

end

section
variable {M : Type} [AddCommMonoid M] {key : α → κ} {merge : α → α → α}

/-- Merging an item into its group adds the item's share to the sum. -/
private theorem sum_map_merge {gs : List α} (h : (gs.map key).Nodup) {b : α}
    (hb : key b ∈ gs.map key) {f : α → M} (hf : ∀ a b, key a = key b → f (merge a b) = f a + f b) :
    ((gs.map fun g => if key g = key b then merge g b else g).map f).sum =
      (gs.map f).sum + f b := by
  induction gs with
  | nil => cases hb
  | cons g gs ih =>
      obtain ⟨hg, h⟩ : key g ∉ gs.map key ∧ (gs.map key).Nodup := by
        simpa only [List.map_cons, List.nodup_cons] using h
      by_cases hgb : key g = key b
      · have hrest : (gs.map fun g => if key g = key b then merge g b else g) = gs := by
          rw [List.map_congr_left (g := id) fun e he => ?_, List.map_id]
          exact if_neg fun heb => hg (List.mem_map.mpr ⟨e, he, heb.trans hgb.symm⟩)
        simp only [List.map_cons, List.sum_cons, hrest, if_pos hgb, hf g b hgb]
        abel
      · have hb' : key b ∈ gs.map key := by
          rcases List.mem_cons.mp (by simpa only [List.map_cons] using hb) with heq | hb'
          · exact absurd heq.symm hgb
          · exact hb'
        simp only [List.map_cons, List.sum_cons, if_neg hgb]
        rw [ih h hb']
        abel

/-- What the merge adds up is preserved. -/
theorem sum_collapse (hkey : ∀ a b, key (merge a b) = key a) {f : α → M}
    (hf : ∀ a b, key a = key b → f (merge a b) = f a + f b) (items : List α) :
    ((collapse key merge items).map f).sum = (items.map f).sum := by
  suffices ∀ gs : List α, (gs.map key).Nodup →
      ((items.foldl (add key merge) gs).map f).sum = (gs.map f).sum + (items.map f).sum by
    simpa [collapse] using this [] List.nodup_nil
  induction items with
  | nil => simp
  | cons b items ih =>
      intro gs h
      have hadd : ((add key merge gs b).map f).sum = (gs.map f).sum + f b := by
        rw [add]
        split
        · rename_i hb
          exact sum_map_merge h hb hf
        · simp
      have hnd : ((add key merge gs b).map key).Nodup :=
        nodup_foldl hkey [b] gs h
      rw [List.foldl_cons, ih _ hnd, hadd, List.map_cons, List.sum_cons]
      abel

/-- A property the merge keeps holds of every entry when it holds of every item. -/
theorem forall_collapse {p : α → Prop} (hp : ∀ a b, p a → p b → p (merge a b)) {items : List α}
    (h : ∀ b ∈ items, p b) : ∀ g ∈ collapse key merge items, p g := by
  suffices ∀ gs : List α, (∀ g ∈ gs, p g) → ∀ g ∈ items.foldl (add key merge) gs, p g from
    this [] (by simp)
  induction items with
  | nil => exact fun gs hgs => hgs
  | cons b items ih =>
      intro gs hgs
      refine ih (fun c hc => h c (List.mem_cons_of_mem _ hc)) _ ?_
      intro g hg
      rw [add] at hg
      split at hg
      · obtain ⟨g', hg', rfl⟩ := List.mem_map.mp hg
        by_cases hk : key g' = key b
        · rw [if_pos hk]
          exact hp _ _ (hgs _ hg') (h b List.mem_cons_self)
        · rw [if_neg hk]
          exact hgs _ hg'
      · rcases List.mem_append.mp hg with hg | hg
        · exact hgs _ hg
        · rw [List.mem_singleton.mp hg]
          exact h b List.mem_cons_self

end

/-! ## Sums over one key -/

section
variable {M : Type} [AddCommMonoid M]

/-- In a list with distinct keys, the sum over the entries with the key of `b` is `f b`. -/
theorem sum_of_key {key : α → κ} {gs : List α} (h : (gs.map key).Nodup) {b : α} (hb : b ∈ gs)
    (f : α → M) : (gs.map fun g => if key g = key b then f g else 0).sum = f b := by
  induction gs with
  | nil => cases hb
  | cons g gs ih =>
      obtain ⟨hg, h⟩ : key g ∉ gs.map key ∧ (gs.map key).Nodup := by
        simpa only [List.map_cons, List.nodup_cons] using h
      rcases List.mem_cons.mp hb with rfl | hb
      · have hzero : (gs.map fun g => if key g = key b then f g else 0) = gs.map fun _ => 0 := by
          apply List.map_congr_left
          intro e he
          exact if_neg fun heb => hg (List.mem_map.mpr ⟨e, he, heb⟩)
        simp [hzero]
      · have hne : key g ≠ key b := fun heq => hg (List.mem_map.mpr ⟨b, hb, heq.symm⟩)
        simp [hne, ih h hb]

/-- The sum over a key that does not occur is zero. -/
theorem sum_of_key_notMem {key : α → κ} {gs : List α} {k : κ} (h : k ∉ gs.map key)
    (f : α → M) : (gs.map fun g => if key g = k then f g else 0).sum = 0 := by
  have hzero : (gs.map fun g => if key g = k then f g else 0) = gs.map fun _ => 0 := by
    apply List.map_congr_left
    intro e he
    exact if_neg fun hek => h (List.mem_map.mpr ⟨e, he, hek⟩)
  simp [hzero]

end

/-! ## The items under each key -/

/-- The items of each key, both in the order of their first occurrence. -/
def groupBy (key : α → κ) (items : List α) : List (κ × List α) :=
  collapse Prod.fst (fun e e' => (e.1, e.2 ++ e'.2)) (items.map fun a => (key a, [a]))

section
variable {key : α → κ} {items items' : List α}

omit [DecidableEq κ] in
private theorem groupBy_key (e e' : κ × List α) : (e.1, e.2 ++ e'.2).1 = e.1 := rfl

theorem nodup_groupBy : ((groupBy key items).map Prod.fst).Nodup := nodup_collapse groupBy_key _

theorem mem_groupBy_keys {k : κ} : k ∈ (groupBy key items).map Prod.fst ↔ k ∈ items.map key := by
  rw [groupBy, mem_collapse groupBy_key, List.map_map]
  rfl

/-- A group has the items with its key. -/
theorem perm_of_mem_groupBy {e : κ × List α} (h : e ∈ groupBy key items) :
    e.2.Perm (items.filter fun a => key a = e.1) := by
  have hsum := @sum_collapse _ _ _ (Multiset α) _ Prod.fst (fun e e' : κ × List α => (e.1, e.2 ++ e'.2))
    (fun _ _ => rfl) (fun d => if d.1 = e.1 then (d.2 : Multiset α) else 0) ?_
    (items.map fun a => (key a, [a]))
  · rw [← Multiset.coe_eq_coe]
    rw [show (((collapse Prod.fst _ _).map _).sum : Multiset α) = e.2 from
      sum_of_key nodup_groupBy h fun d => (d.2 : Multiset α), List.map_map] at hsum
    rw [hsum]
    clear hsum h
    induction items with
    | nil => rfl
    | cons a items ih =>
        rw [List.map_cons, List.sum_cons, ih, List.filter_cons]
        by_cases hk : key a = e.1
        · simp [hk]
        · simp [hk]
  · intro a b hab
    show (if a.1 = e.1 then ((a.2 ++ b.2 : List α) : Multiset α) else 0) = _
    rw [← Multiset.coe_add, ← show a.1 = b.1 from hab]
    split <;> simp

theorem key_of_mem_groupBy {e : κ × List α} (h : e ∈ groupBy key items) {a : α} (ha : a ∈ e.2) :
    key a = e.1 := by
  have := (perm_of_mem_groupBy h).mem_iff.mp ha
  simpa using (List.mem_filter.mp this).2

/-- The groups have all items. -/
theorem perm_groupBy : ((groupBy key items).flatMap Prod.snd).Perm items := by
  have hsum := @sum_collapse _ _ _ (Multiset α) _ Prod.fst (fun e e' : κ × List α => (e.1, e.2 ++ e'.2))
    (fun _ _ => rfl) (fun d => (d.2 : Multiset α)) (fun a b _ => (Multiset.coe_add a.2 b.2).symm)
    (items.map fun a => (key a, [a]))
  rw [← Multiset.coe_eq_coe]
  refine (?_ : _ = _).trans (hsum.trans ?_)
  · show _ = ((groupBy key items).map _).sum
    induction groupBy key items with
    | nil => rfl
    | cons e l ih =>
        rw [List.flatMap_cons, ← Multiset.coe_add, ih, List.map_cons, List.sum_cons]
  · clear hsum
    induction items with
    | nil => rfl
    | cons a items ih =>
        rw [List.map_cons, List.map_cons, List.sum_cons, ih]
        rfl

/-- What the items come to, group by group. -/
theorem sum_groupBy {M : Type} [AddCommMonoid M] (f : κ → α → M) :
    ((groupBy key items).map fun e => (e.2.map (f e.1)).sum).sum =
      (items.map fun a => f (key a) a).sum := by
  have hgroups : ((groupBy key items).map fun e => (e.2.map (f e.1)).sum) =
      (groupBy key items).map fun e => (e.2.map fun a => f (key a) a).sum := by
    apply List.map_congr_left
    intro e he
    congr 1
    apply List.map_congr_left
    intro a ha
    rw [key_of_mem_groupBy he ha]
  have hperm : ((groupBy key items).flatMap Prod.snd).Perm items := perm_groupBy
  rw [hgroups, ← (hperm.map fun a => f (key a) a).sum_eq, List.map_flatMap]
  induction groupBy key items with
  | nil => rfl
  | cons e l ih => rw [List.map_cons, List.sum_cons, List.flatMap_cons, List.sum_append, ih]

/-- There are no more groups than items. -/
theorem length_groupBy_le : (groupBy key items).length ≤ items.length := by
  have hsub : ((groupBy key items).map Prod.fst).Subperm (items.map key) :=
    nodup_groupBy.subperm fun _ hk => mem_groupBy_keys.mp hk
  simpa using hsub.length_le

/-- What is made of each group does not depend on the order of the items, but for its own order. -/
theorem map_groupBy_perm {β : Type} (h : items.Perm items') {F : κ × List α → β}
    (hF : ∀ k l l', l.Perm l' → F (k, l) = F (k, l')) :
    ((groupBy key items).map F).Perm ((groupBy key items').map F) := by
  have hof (l : List α) : (groupBy key l).map F =
      ((groupBy key l).map Prod.fst).map fun k => F (k, l.filter fun a => key a = k) := by
    rw [List.map_map]
    apply List.map_congr_left
    rintro ⟨k, g⟩ hg
    exact hF k _ _ (perm_of_mem_groupBy hg)
  have hfun : (fun k => F (k, items.filter fun a => key a = k)) =
      fun k => F (k, items'.filter fun a => key a = k) :=
    funext fun k => hF k _ _ (h.filter _)
  rw [hof, hof, hfun]
  apply List.Perm.map
  rw [List.perm_ext_iff_of_nodup nodup_groupBy nodup_groupBy]
  intro k
  rw [mem_groupBy_keys, mem_groupBy_keys, (h.map key).mem_iff]

end

/-- A sum is made up of its parts, one for each key. -/
theorem sum_by_key {key : α → κ} {gs : List α} {F : Finset κ} (h : ∀ g ∈ gs, key g ∈ F)
    (f : α → Int) : ∑ k ∈ F, (gs.map fun g => if key g = k then f g else 0).sum = (gs.map f).sum := by
  induction gs with
  | nil => simp
  | cons g gs ih =>
      have hg : key g ∈ F := h g List.mem_cons_self
      have hgs := ih fun g' hg' => h g' (List.mem_cons_of_mem _ hg')
      simp only [List.map_cons, List.sum_cons, Finset.sum_add_distrib, hgs]
      rw [Finset.sum_ite_eq F (key g) fun _ => f g, if_pos hg]

section
variable {β : Type} {key : α → κ} {key' : β → κ} {gs : List α} {gs' : List β} (f : α → Int)
  (f' : β → Int)

/-- Two sums over one set of keys. -/
private theorem exists_keys (gs : List α) (gs' : List β) (key : α → κ) (key' : β → κ)
    (ks : Finset κ) :
    ∃ F : Finset κ, ks ⊆ F ∧ (∀ g ∈ gs, key g ∈ F) ∧ ∀ g ∈ gs', key' g ∈ F := by
  refine ⟨ks ∪ ((gs.map key).toFinset ∪ (gs'.map key').toFinset), ?_, ?_, ?_⟩
  · exact Finset.subset_union_left
  · intro g hg
    simp only [Finset.mem_union, List.mem_toFinset, List.mem_map]
    exact .inr (.inl ⟨g, hg, rfl⟩)
  · intro g hg
    simp only [Finset.mem_union, List.mem_toFinset, List.mem_map]
    exact .inr (.inr ⟨g, hg, rfl⟩)

/-- A sum whose parts are no larger is no larger. -/
theorem sum_le_of_parts (hle : ∀ k, (gs.map fun g => if key g = k then f g else 0).sum ≤
    (gs'.map fun g => if key' g = k then f' g else 0).sum) : (gs.map f).sum ≤ (gs'.map f').sum := by
  obtain ⟨F, -, hF, hF'⟩ := exists_keys gs gs' key key' ∅
  rw [← sum_by_key hF, ← sum_by_key hF']
  exact Finset.sum_le_sum fun k _ => hle k

/-- Where no part of one sum is above its part of another, the sums agree only when all parts do. -/
theorem parts_eq_of_sum_ge (hle : ∀ k, (gs.map fun g => if key g = k then f g else 0).sum ≤
      (gs'.map fun g => if key' g = k then f' g else 0).sum)
    (hge : (gs'.map f').sum ≤ (gs.map f).sum) (k : κ) :
    (gs.map fun g => if key g = k then f g else 0).sum =
      (gs'.map fun g => if key' g = k then f' g else 0).sum := by
  obtain ⟨F, hk, hF, hF'⟩ := exists_keys gs gs' key key' {k}
  rw [← sum_by_key hF, ← sum_by_key hF'] at hge
  have hparts := (Finset.sum_eq_sum_iff_of_le fun j _ => hle j).mp
    (le_antisymm (Finset.sum_le_sum fun j _ => hle j) hge)
  exact hparts k (hk (Finset.mem_singleton_self k))

end

end Grouping

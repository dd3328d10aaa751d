import Mathlib.Data.List.Sort
import Mathlib.Data.Prod.Lex

/-! # Keyset pages

A reader walks a table in the order of `(stamp, id)`, a page at a time, and goes on above the last
row it was given. The first page of a walk has no row to go on from and asks for the stamps above a
bound. -/

namespace Keyset

variable {ι ρ τ : Type} [LinearOrder ι] [LinearOrder τ]

/-- Where a walk stands: above a stamp, or above a row of that stamp. -/
structure Position (ι τ : Type) where
  since : τ
  after : Option ι
  deriving DecidableEq, Repr

/-- `(stamp, id) > (since, after)`, or `stamp > since` where the walk has no row yet. -/
def Position.Below (pos : Position ι τ) (stamp : τ) (id : ι) : Prop :=
  match pos.after with
  | none       => pos.since < stamp
  | some after => toLex (pos.since, after) < toLex (stamp, id)

instance (pos : Position ι τ) (stamp : τ) (id : ι) : Decidable (pos.Below stamp id) := by
  unfold Position.Below
  cases pos.after <;> infer_instance

theorem Position.below_of_lt {pos : Position ι τ} {stamp : τ} (h : pos.since < stamp) (id : ι) :
    pos.Below stamp id := by
  unfold Position.Below
  cases pos.after with
  | none => exact h
  | some after => exact Prod.Lex.toLex_lt_toLex.mpr (Or.inl h)

section Page

variable (stamp : ρ → τ)

/-- The key that the rows are served in the order of. -/
def key (e : ι × ρ) : τ ×ₗ ι := toLex (stamp e.2, e.1)

/-- The first `limit` rows above a position, in the order of their keys. -/
def page (pos : Position ι τ) (limit : Nat) (rows : List (ι × ρ)) : List (ι × ρ) :=
  ((rows.filter fun e => decide (pos.Below (stamp e.2) e.1)).insertionSort
    fun a b => key stamp a ≤ key stamp b).take limit

/-- The position after a page: its last row. -/
def next (page : List (ι × ρ)) : Option (Position ι τ) :=
  page.getLast?.map fun e => ⟨stamp e.2, some e.1⟩

variable {stamp}

theorem mem_page {pos : Position ι τ} {limit : Nat} {rows : List (ι × ρ)} {e : ι × ρ}
    (he : e ∈ page stamp pos limit rows) : e ∈ rows ∧ pos.Below (stamp e.2) e.1 := by
  have hsorted := List.mem_of_mem_take he
  rw [List.mem_insertionSort, List.mem_filter] at hsorted
  exact ⟨hsorted.1, of_decide_eq_true hsorted.2⟩

/-- In a sorted list, what a page leaves out has no smaller key than the page's last row. -/
private theorem last_le_of_not_mem_take {l : List (ι × ρ)}
    (hl : l.Pairwise fun a b => key stamp a ≤ key stamp b) {limit : Nat} (hlimit : 0 < limit)
    {e : ι × ρ} (he : e ∈ l) (hout : e ∉ l.take limit) :
    ∃ last, (l.take limit).getLast? = some last ∧ key stamp last ≤ key stamp e := by
  have hdrop : e ∈ l.drop limit := by
    rw [← List.take_append_drop limit l, List.mem_append] at he
    exact he.resolve_left hout
  have hne : l.take limit ≠ [] := by
    intro hnil
    rcases List.take_eq_nil_iff.mp hnil with h | h
    · omega
    · subst h
      cases he
  refine ⟨(l.take limit).getLast hne, List.getLast?_eq_some_getLast hne, ?_⟩
  rw [← List.take_append_drop limit l, List.pairwise_append] at hl
  exact hl.2.2 _ (List.getLast_mem hne) _ hdrop

/-- A row above a walk is on the page that the walk is served, or above where the walk goes on.
It is the key, not the stamp, that decides: rows of one stamp are cut apart by their ids. -/
theorem served_or_ahead {pos : Position ι τ} {limit : Nat} (hlimit : 0 < limit)
    {rows : List (ι × ρ)} (hrows : (rows.map Prod.fst).Nodup) {e : ι × ρ} (he : e ∈ rows)
    (hbelow : pos.Below (stamp e.2) e.1) :
    e ∈ page stamp pos limit rows ∨
      ∃ q, next stamp (page stamp pos limit rows) = some q ∧ q.Below (stamp e.2) e.1 := by
  by_cases hin : e ∈ page stamp pos limit rows
  · exact Or.inl hin
  right
  obtain ⟨last, hlast, hle⟩ : ∃ last, (page stamp pos limit rows).getLast? = some last ∧
      key stamp last ≤ key stamp e := by
    apply last_le_of_not_mem_take ?_ hlimit ?_ hin
    · have : Std.Total fun a b : ι × ρ => key stamp a ≤ key stamp b := ⟨fun _ _ => le_total _ _⟩
      have : IsTrans (ι × ρ) fun a b => key stamp a ≤ key stamp b := ⟨fun _ _ _ => le_trans⟩
      exact List.pairwise_insertionSort _ _
    · rw [List.mem_insertionSort, List.mem_filter]
      exact ⟨he, decide_eq_true hbelow⟩
  have hmem := List.mem_of_getLast? hlast
  have hne : key stamp last ≠ key stamp e := by
    intro heq
    have hid : last.1 = e.1 := (Prod.ext_iff.mp (toLex.injective heq)).2
    have : last = e := List.inj_on_of_nodup_map hrows (mem_page hmem).1 he hid
    exact hin (this ▸ hmem)
  refine ⟨⟨stamp last.2, some last.1⟩, ?_, lt_of_le_of_ne hle hne⟩
  rw [next, hlast]
  rfl

end Page

end Keyset

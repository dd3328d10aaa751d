import SrisurartPos.Txn.Interleaving
import Mathlib.Data.Fintype.Basic
import Mathlib.Logic.Relation

/-! # Schedules

An interleaving is found by saying whose turn it is. `Sys.follow` plays a list of turns and stops
when one cannot be taken, so that a run of two transactions in each other's way can be evaluated. -/

namespace Txn

universe u

variable {σ κ ε α T : Type} {Op : Type u}

/-! ## Playing turns -/

section
variable [DecidableEq T] [Fintype T] [DecidableEq κ] (prog : Op → Tx σ κ ε α)

/-- No lock that another transaction holds conflicts with `ℓ`, `m`. -/
def Sys.free (S : Sys σ κ ε α Op T) (t : T) (ℓ : κ) (m : Mode) : Bool :=
  decide (∀ t' : T, t' ≠ t →
    (S.live t').all (fun x => x.held.all fun h => !(decide (h.1 = ℓ) && m.conflicts h.2)) = true)

/-- The next statement of `t`, if it can take it. -/
def Sys.next (S : Sys σ κ ε α Op T) (t : T) : Option (Sys σ κ ε α Op T) :=
  match S.live t with
  | none => none
  | some ⟨op, .done a, u, _⟩        =>
      some { S.put t none with db := u S.db, log := S.log ++ [(op, a)] }
  | some ⟨_, .fail _, _, _⟩         => some (S.put t none)
  | some ⟨op, .lock ℓ m next, u, H⟩ =>
      if S.free t ℓ m then some (S.put t (some ⟨op, next, u, (ℓ, m) :: H⟩)) else none
  | some ⟨op, .read q next, u, H⟩   => some (S.put t (some ⟨op, next (q (u S.db)), u, H⟩))
  | some ⟨op, .peek q next, u, H⟩   => some (S.put t (some ⟨op, next (q (u S.db)), u, H⟩))
  | some ⟨op, .write w next, u, H⟩  => some (S.put t (some ⟨op, next, w ∘ u, H⟩))

/-- What `t` is about to commit, with what it answers. -/
def Sys.done (S : Sys σ κ ε α Op T) (t : T) : Option (Op × α) :=
  match S.live t with
  | some ⟨op, .done a, _, _⟩ => some (op, a)
  | _                        => none

/-- A transaction begins, or takes a number of statements. -/
inductive Turn (Op : Type u) (T : Type) where
  | begins (t : T) (op : Op)
  | goes (t : T) (statements : Nat)

/-- Some statements of `t`; none once it has ended. -/
def Sys.go (t : T) : Nat → Sys σ κ ε α Op T → Option (Sys σ κ ε α Op T)
  | 0, S     => some S
  | n + 1, S => if (S.live t).isNone then some S else (S.next t).bind (Sys.go t n)

def Sys.follow : List (Turn Op T) → Sys σ κ ε α Op T → Option (Sys σ κ ε α Op T)
  | [], S                   => some S
  | .begins t op :: turns, S =>
      if (S.live t).isNone then Sys.follow turns (S.put t (some ⟨op, prog op, id, []⟩)) else none
  | .goes t n :: turns, S    => (S.go t n).bind (Sys.follow turns)

end

section
variable [DecidableEq T] [Fintype T] [DecidableEq κ] {prog : Op → Tx σ κ ε α} {s₀ : σ}
  {S S' : Sys σ κ ε α Op T}

theorem Sys.grantable_of_free {t : T} {ℓ : κ} {m : Mode} (h : S.free t ℓ m = true) :
    Grantable S t ℓ m := by
  intro t' x hne hx ℓ' m₁ m₂ hm₁ hm₂
  obtain ⟨rfl, rfl⟩ : ℓ' = ℓ ∧ m₁ = m := by simpa using hm₁
  have hlive := (of_decide_eq_true h) t' hne
  rw [hx] at hlive
  have hheld := List.all_eq_true.mp hlive _ hm₂
  simpa using hheld

/-- The scheduler's next step of a task is a step of the system. -/
theorem Sys.step_of_next {t : T} (h : S.next t = some S') : Step prog S S' := by
  simp only [Sys.next] at h
  split at h
  · cases h
  · cases h
    exact .commit ‹_›
  · cases h
    exact .rollback
  · rename_i hl
    split at h
    · cases h
      exact .lock hl (Sys.grantable_of_free ‹_›)
    · cases h
  · cases h
    exact .read ‹_›
  · cases h
    exact .peek ‹_›
  · cases h
    exact .write ‹_›

/-- The next step of a task that is done is its commit. -/
theorem Sys.commit_of_next {t : T} {op : Op} {a : α} (hdone : S.done t = some (op, a))
    (h : S.next t = some S') : Commit t op a S S' := by
  cases hlive : S.live t with
  | none =>
      rw [Sys.done, hlive] at hdone
      cases hdone
  | some x =>
      obtain ⟨op', p, u, H⟩ := x
      cases p with
      | done b =>
          rw [Sys.done, hlive] at hdone
          cases hdone
          simp only [Sys.next, hlive] at h
          cases h
          exact .mk hlive
      | _ =>
          rw [Sys.done, hlive] at hdone
          cases hdone

/-- Any number of steps of one task is a run of the system. -/
theorem Sys.runs_of_go {t : T} {n : Nat} (hgo : S.go t n = some S') :
    Relation.ReflTransGen (Step prog) S S' := by
  induction n generalizing S with
  | zero =>
      cases hgo
      exact .refl
  | succ n ih =>
      rw [Sys.go] at hgo
      split at hgo
      · cases hgo
        exact .refl
      · obtain ⟨S₁, hnext, hrest⟩ := Option.bind_eq_some_iff.mp hgo
        exact (ih hrest).head (Sys.step_of_next hnext)

/-- What a schedule leads to is reached by statements. -/
theorem Sys.runs_of_follow {turns : List (Turn Op T)} (hf : S.follow prog turns = some S') :
    Relation.ReflTransGen (Step prog) S S' := by
  induction turns generalizing S with
  | nil =>
      cases hf
      exact .refl
  | cons turn turns ih =>
      cases turn with
      | begins t op =>
          rw [Sys.follow] at hf
          split at hf
          · exact (ih hf).head (.start op (Option.isNone_iff_eq_none.mp ‹_›))
          · cases hf
      | goes t n =>
          obtain ⟨S₁, hgo, hrest⟩ := Option.bind_eq_some_iff.mp hf
          exact (Sys.runs_of_go hgo).trans (ih hrest)

/-- A schedule may be followed in parts. -/
theorem Sys.follow_append (turns turns' : List (Turn Op T)) :
    S.follow prog (turns ++ turns') = (S.follow prog turns).bind (Sys.follow prog turns') := by
  induction turns generalizing S with
  | nil => rfl
  | cons turn turns ih =>
      cases turn with
      | begins t op =>
          simp only [List.cons_append, Sys.follow]
          split
          · exact ih
          · rfl
      | goes t n =>
          simp only [List.cons_append, Sys.follow]
          cases S.go t n with
          | none => rfl
          | some S₁ => exact ih

omit [Fintype T] [DecidableEq κ] in
theorem Reachable.runs_on (h : Reachable prog s₀ S) (hr : Relation.ReflTransGen (Step prog) S S') :
    Reachable prog s₀ S' := by
  induction hr with
  | refl => exact h
  | tail _ hstep ih => exact ih.step hstep

/-- What a schedule leads to may be about to commit. -/
theorem commit_of_turns {γ β : Type} {turns : List (Turn Op T)} {t : T} {f : Op → γ}
    {g : σ → σ → β} {c : γ} {b : β}
    (h : (((Sys.init s₀).follow prog turns).bind fun S => (S.done t).bind fun d =>
      (S.next t).map fun S' => (f d.1, g S.db S'.db)) = some (c, b)) :
    ∃ S S' op a, Reachable prog s₀ S ∧ Commit t op a S S' ∧ f op = c ∧ g S.db S'.db = b := by
  obtain ⟨S, hS, hrest⟩ := Option.bind_eq_some_iff.mp h
  obtain ⟨⟨op, a⟩, hdone, hnext⟩ := Option.bind_eq_some_iff.mp hrest
  obtain ⟨S', hS', hpair⟩ := Option.map_eq_some_iff.mp hnext
  obtain ⟨hf, hg⟩ := Prod.mk.inj hpair
  exact ⟨S, S', op, a, Reachable.init.runs_on (Sys.runs_of_follow hS),
    Sys.commit_of_next hdone hS', hf, hg⟩

/-- The rows a schedule leads to; the first rows when it cannot be followed. -/
def rowsOf (prog : Op → Tx σ κ ε α) (turns : List (Turn Op T)) (s : σ) : σ :=
  ((Sys.init s).follow prog turns).elim s (·.db)

theorem reachable_rowsOf {turns : List (Turn Op T)}
    (h : ((Sys.init s₀).follow prog turns).isSome = true) :
    ∃ S : Sys σ κ ε α Op T, Reachable prog s₀ S ∧ S.db = rowsOf prog turns s₀ := by
  obtain ⟨S, hS⟩ := Option.isSome_iff_exists.mp h
  refine ⟨S, Reachable.init.runs_on (Sys.runs_of_follow hS), ?_⟩
  rw [rowsOf, hS]
  rfl

/-- A schedule that goes on where another one has ended. -/
theorem reachable_rowsOf_append {turns turns' : List (Turn Op T)}
    (h : ((Sys.init s₀).follow prog (turns ++ turns')).isSome = true) :
    ∃ S S' : Sys σ κ ε α Op T, Reachable prog s₀ S ∧ Relation.ReflTransGen (Step prog) S S' ∧
      S.db = rowsOf prog turns s₀ ∧ S'.db = rowsOf prog (turns ++ turns') s₀ := by
  obtain ⟨S', hS'⟩ := Option.isSome_iff_exists.mp h
  have hboth := hS'
  rw [Sys.follow_append] at hboth
  obtain ⟨S, hS, hrest⟩ := Option.bind_eq_some_iff.mp hboth
  refine ⟨S, S', Reachable.init.runs_on (Sys.runs_of_follow hS), Sys.runs_of_follow hrest, ?_, ?_⟩
  · rw [rowsOf, hS]
    rfl
  · rw [rowsOf, hS']
    rfl

end

end Txn

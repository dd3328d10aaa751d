import SrisurartPos.Txn.Frame
import SrisurartPos.Txn.Schedule

/-! # What a transaction was told

A transaction may put a question to rows that it has not locked, and go by the answer. A program that
changes what `f` sees only when it was told no (`LeavesUntold`) has been told so when it commits such a
change (`Timely.told_no`). In a timely run the answer is then still the right one. -/

namespace Txn

universe u
variable {σ κ ε α β γ : Type} {Op : Type u} {T : Type}

/-- The program leaves what `f` sees, unless it asks `q` and is told no. -/
def LeavesUntold (f : σ → γ) (q : σ → Bool) : Tx σ κ ε α → Prop
  | .done _        => True
  | .fail _        => True
  | .lock _ _ next => LeavesUntold f q next
  | .read _ next   => ∀ b, LeavesUntold f q (next b)
  | .peek q' next  => ∀ s, LeavesUntold f q (next (q' s)) ∨
      (∃ next', Tx.peek q' next = Tx.peek q next') ∧ q s = false
  | .write w next  => (∀ s, f (w s) = f s) ∧ LeavesUntold f q next

theorem Tx.bind_assoc {δ : Type} (p : Tx σ κ ε δ) (g : δ → Tx σ κ ε β) (h : β → Tx σ κ ε α) :
    p >>= g >>= h = p >>= fun d => g d >>= h := by
  induction p with
  | done d => rfl
  | fail e => rfl
  | lock ℓ m next ih => exact congrArg (Tx.lock ℓ m) ih
  | read q next ih => exact congrArg (Tx.read q) (funext ih)
  | peek q next ih => exact congrArg (Tx.peek q) (funext ih)
  | write w next ih => exact congrArg (Tx.write w) ih

section
variable {f : σ → γ} {q : σ → Bool}

theorem Leaves.untold {p : Tx σ κ ε α} (hp : Leaves f p) : LeavesUntold f q p := by
  induction p with
  | done a => trivial
  | fail e => trivial
  | lock ℓ m next ih => exact ih hp
  | read q next ih => exact fun b => ih b (hp b)
  | peek q next ih => exact fun s => .inl (ih _ (hp _))
  | write w next ih => exact ⟨hp.1, ih hp.2⟩

/-- A program that goes on after one that leaves `f`, unless it was told, does so itself. -/
theorem LeavesUntold.bind {p : Tx σ κ ε β} {g : β → Tx σ κ ε α} (hp : LeavesUntold f q p)
    (hg : ∀ b, LeavesUntold f q (g b)) : LeavesUntold f q (p >>= g) := by
  induction p with
  | done b => exact hg b
  | fail e => trivial
  | lock ℓ m next ih => exact ih hp
  | read q' next ih => exact fun b => ih b (hp b)
  | peek q' next ih =>
      intro s
      rcases hp s with hnext | ⟨⟨next', hask⟩, hno⟩
      · exact .inl (ih _ hnext)
      · exact .inr ⟨⟨fun b => next' b >>= g, congrArg (fun p => p >>= g) hask⟩, hno⟩
  | write w next ih => exact ⟨hp.1, ih hp.2⟩

/-- What follows the question need only leave things alone when the answer is yes. -/
theorem untold_glance {g : Bool → Tx σ κ ε α} (hg : LeavesUntold f q (g true)) :
    LeavesUntold f q (Tx.glance q >>= g) := by
  intro s
  cases hs : q s with
  | true => exact .inl hg
  | false => exact .inr ⟨⟨g, rfl⟩, rfl⟩

end

/-! ## Runs -/

section
variable [DecidableEq T] (prog : Op → Tx σ κ ε α) (ask : Op → Option (σ → Bool))

/-- The transactions that are told no in the step, or have been before and are still under way. -/
def toldAfter (told : T → Prop) (S S' : Sys σ κ ε α Op T) (t : T) : Prop :=
  ∃ x', S'.live t = some x' ∧ (told t ∨ ∃ q x next, ask x.op = some q ∧ S.live t = some x ∧
    x.prog = .peek q next ∧ q (x.upd S.db) = false ∧ x' = { x with prog := next false })

/-- The runs in which what a transaction was told still holds of the rows it commits to. Every
operation has a question, or none; the first argument are the transactions that were told no. -/
inductive Timely (s₀ : σ) : (T → Prop) → Sys σ κ ε α Op T → Prop where
  | init : Timely s₀ (fun _ => False) (Sys.init s₀)
  | step {told S S'} : Timely s₀ told S → Step prog S S' →
      (∀ t op a q, Commit t op a S S' → told t → ask op = some q → q S.db = false) →
      Timely s₀ (toldAfter ask told S S') S'

/-- Whoever has not been told no has left things alone, and goes on doing so. -/
def Untold (f : σ → γ) (told : T → Prop) (S : Sys σ κ ε α Op T) : Prop :=
  ∀ t x q, S.live t = some x → ask x.op = some q →
    told t ∨ (∀ s, f (x.upd s) = f s) ∧ LeavesUntold f q x.prog

variable {prog ask} {s₀ : σ} {f : σ → γ} {told : T → Prop} {S S' : Sys σ κ ε α Op T}

theorem Timely.reachable (h : Timely prog ask s₀ told S) : Reachable prog s₀ S := by
  induction h with
  | init => exact .init
  | step _ hstep _ ih => exact ih.step hstep

/-- Only the transaction that takes the step is to be looked at. -/
theorem Untold.put (h : Untold ask f told S) {t : T} {x : Live σ κ ε α Op}
    (hx : ∀ q, ask x.op = some q → toldAfter ask told S (S.put t (some x)) t ∨
      (∀ s, f (x.upd s) = f s) ∧ LeavesUntold f q x.prog) :
    Untold ask f (toldAfter ask told S (S.put t (some x))) (S.put t (some x)) := by
  intro t' y q hy hq
  by_cases ht : t' = t
  · subst ht
    obtain rfl : x = y := by simpa using hy
    exact hx q hq
  · have hlive := hy
    rw [S.put_live_ne t _ ht] at hy
    exact (h t' y q hy hq).imp_left fun htold => ⟨y, hlive, .inl htold⟩

/-- Each step keeps `Untold`, with the answers that it gives added to what was told. -/
theorem Untold.step (hprog : ∀ op q, ask op = some q → LeavesUntold f q (prog op))
    (h : Untold ask f told S) (hstep : Step prog S S') :
    Untold ask f (toldAfter ask told S S') S' := by
  have hend : ∀ {t S'}, S'.live = (S.put t none).live →
      Untold ask f (toldAfter ask told S S') S' := by
    intro t S' hlive t' y q hy hq
    have hy' : (S.put t none).live t' = some y := hlive ▸ hy
    exact (h t' y q (live_of_put_none hy').2 hq).imp_left fun htold => ⟨y, hy, .inl htold⟩
  have hstill : ∀ {t : T} {x : Live σ κ ε α Op}, told t → toldAfter ask told S (S.put t (some x)) t :=
    fun htold => ⟨_, S.put_live_self _ _, .inl htold⟩
  cases hstep with
  | start op hl => exact h.put fun q hq => .inr ⟨fun s => rfl, hprog op q hq⟩
  | lock hl hg => exact h.put fun q hq => (h _ _ q hl hq).imp hstill fun hx => hx
  | read hl => exact h.put fun q hq => (h _ _ q hl hq).imp hstill fun hx => ⟨hx.1, hx.2 _⟩
  | @peek t op β u H q' next hl =>
      refine h.put fun q hq => ?_
      rcases h _ _ q hl hq with htold | ⟨hupd, hnext⟩
      · exact .inl (hstill htold)
      · rcases hnext (u S.db) with hnext | ⟨⟨next', hask⟩, hno⟩
        · exact .inr ⟨hupd, hnext⟩
        · -- this was the question, and the answer was no
          cases hask
          refine .inl ⟨_, S.put_live_self _ _, .inr ⟨q, ⟨op, .peek q next', u, H⟩, next', ?_⟩⟩
          refine ⟨hq, hl, rfl, hno, ?_⟩
          rw [hno]
  | write hl =>
      refine h.put fun q hq => (h _ _ q hl hq).imp hstill fun hx => ⟨fun s => ?_, hx.2.2⟩
      exact (hx.2.1 _).trans (hx.1 s)
  | commit hl => exact hend rfl
  | rollback => exact hend rfl

/-- **What changes is changed by those who were told no.** -/
theorem Timely.told_no (hprog : ∀ op q, ask op = some q → LeavesUntold f q (prog op))
    (h : Timely prog ask s₀ told S) {t : T} {op : Op} {a : α} {q : σ → Bool}
    (hc : Commit t op a S S') (hq : ask op = some q) (hne : f S'.db ≠ f S.db) : told t := by
  have huntold : Untold ask f told S := by
    clear hc hne
    induction h with
    | init => exact fun t x q hx _ => by cases hx
    | step _ hstep _ ih => exact ih.step hprog hstep
  obtain ⟨hl⟩ := hc
  exact (huntold _ _ q hl hq).resolve_right fun hx => hne (hx.1 S.db)

end

/-! ## Schedules that are in time -/

section
variable [DecidableEq T] [Fintype T] [DecidableEq κ] (prog : Op → Tx σ κ ε α)
  (ask : Op → Option (σ → Bool))

/-- Whatever commits next finds that the answer to its question is no. -/
def Sys.heeds (S : Sys σ κ ε α Op T) (t : T) : Bool :=
  (S.done t).all fun d => (ask d.1).all fun q => !q S.db

def Sys.goHeeding (t : T) : Nat → Sys σ κ ε α Op T → Option (Sys σ κ ε α Op T)
  | 0, S     => some S
  | n + 1, S =>
      if (S.live t).isNone then some S
      else if S.heeds ask t then (S.next t).bind (Sys.goHeeding t n) else none

/-- `Sys.follow`, which also stops before a commit that does not heed its question. -/
def Sys.followHeeding : List (Turn Op T) → Sys σ κ ε α Op T → Option (Sys σ κ ε α Op T)
  | [], S                   => some S
  | .begins t op :: turns, S =>
      if (S.live t).isNone then Sys.followHeeding turns (S.put t (some ⟨op, prog op, id, []⟩)) else none
  | .goes t n :: turns, S    => (S.goHeeding ask t n).bind (Sys.followHeeding turns)

variable {prog ask} {s₀ : σ} {S S' : Sys σ κ ε α Op T}

/-- A scheduler that heeds a question commits nothing that would change the answer. -/
theorem Sys.heeded {t t' : T} {op : Op} {a : α} {q : σ → Bool} (hheeds : S.heeds ask t = true)
    (hnext : S.next t = some S') (hc : Commit t' op a S S') (hq : ask op = some q) : q S.db = false := by
  have hlog := hc.log
  cases hlive : S.live t with
  | none => simp [Sys.next, hlive] at hnext
  | some x =>
      obtain ⟨op', p, u, H⟩ := x
      -- only what is done makes the log longer
      cases p with
      | done b =>
          simp only [Sys.next, hlive, Option.some.injEq] at hnext
          rw [← hnext] at hlog
          obtain ⟨rfl, -⟩ : op' = op ∧ b = a := by simpa using hlog
          simpa [Sys.heeds, Sys.done, hlive, hq] using hheeds
      | lock ℓ m next =>
          simp only [Sys.next, hlive] at hnext
          split at hnext
          · cases hnext
            simp at hlog
          · cases hnext
      | _ =>
          simp only [Sys.next, hlive, Option.some.injEq] at hnext
          rw [← hnext] at hlog
          simp at hlog

/-- So the turns of a task under it are a timely run. -/
theorem Sys.timely_of_goHeeding {t : T} {n : Nat} {told : T → Prop} (h : Timely prog ask s₀ told S)
    (hgo : S.goHeeding ask t n = some S') : ∃ told', Timely prog ask s₀ told' S' := by
  induction n generalizing S told with
  | zero =>
      cases hgo
      exact ⟨told, h⟩
  | succ n ih =>
      rw [Sys.goHeeding] at hgo
      split_ifs at hgo with hlive hheeds
      · cases hgo
        exact ⟨told, h⟩
      · obtain ⟨S₁, hnext, hrest⟩ := Option.bind_eq_some_iff.mp hgo
        refine ih (h.step (Sys.step_of_next hnext) fun t' op a q hc _ hq => ?_) hrest
        exact Sys.heeded hheeds hnext hc hq

/-- And so is a whole schedule. -/
theorem Sys.timely_of_followHeeding {turns : List (Turn Op T)} {told : T → Prop}
    (h : Timely prog ask s₀ told S) (hf : S.followHeeding prog ask turns = some S') :
    ∃ told', Timely prog ask s₀ told' S' := by
  induction turns generalizing S told with
  | nil =>
      cases hf
      exact ⟨told, h⟩
  | cons turn turns ih =>
      cases turn with
      | begins t op =>
          rw [Sys.followHeeding] at hf
          split at hf
          · have hstart : Step prog S (S.put t (some ⟨op, prog op, id, []⟩)) :=
              .start op (Option.isNone_iff_eq_none.mp ‹_›)
            refine ih (h.step hstart fun t' op' a q hc _ _ => ?_) hf
            simpa using hc.log
          · cases hf
      | goes t n =>
          obtain ⟨S₁, hgo, hrest⟩ := Option.bind_eq_some_iff.mp hf
          obtain ⟨told', h'⟩ := Sys.timely_of_goHeeding h hgo
          exact ih h' hrest

/-- A schedule whose every commit heeds its question leads to the rows of a timely run. -/
theorem timely_of_turns {β : Type} (turns : List (Turn Op T)) (g : σ → β) {b : β}
    (h : ((Sys.init s₀).followHeeding prog ask turns).map (fun S => g S.db) = some b) :
    ∃ (told : T → Prop) (S : Sys σ κ ε α Op T), Timely prog ask s₀ told S ∧ g S.db = b := by
  obtain ⟨S, hf, hg⟩ := Option.map_eq_some_iff.mp h
  obtain ⟨told, htimely⟩ := Sys.timely_of_followHeeding .init hf
  exact ⟨told, S, htimely, hg⟩

end

end Txn

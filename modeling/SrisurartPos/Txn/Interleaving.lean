import SrisurartPos.Txn.Basic
import Mathlib.Logic.Function.Basic
import Mathlib.Data.List.Basic

/-! # Interleaved transactions and their serial order

The database runs any number of transactions at once, a statement at a time. A lock is granted when
no other live transaction holds a conflicting one; writes become visible to the others at the
commit; an error, a crash or a deadlock victim is a rollback, which may happen before any statement.

The main theorem, `Reachable.serial`, says that every such run is a run of the committed
transactions alone, one after the other in the order of their commits. It holds when the programs
are disciplined: what a `read` answers depends only on rows the transaction has locked, and a commit
changes only rows locked for update. The argument is the usual one for two-phase locking, told for
one live transaction at a time: its statements so far *replay* on the committed rows as they stand
now (`Replay`), because no commit in between could touch what it had read. -/

namespace Txn

universe u

variable {σ κ ε α β T : Type} {Op : Type u}

/-! ## The interleaved system -/

/-- A transaction under way. -/
structure Live (σ κ ε α : Type) (Op : Type u) where
  op : Op
  prog : Tx σ κ ε α
  /-- the changes it has made so far, not yet visible to others -/
  upd : σ → σ
  held : Held κ

/-- The committed rows, the transactions under way, and what has been committed so far. -/
structure Sys (σ κ ε α : Type) (Op : Type u) (T : Type) where
  db : σ
  live : T → Option (Live σ κ ε α Op)
  log : List (Op × α)

/-- A database nobody is connected to. -/
def Sys.init (s : σ) : Sys σ κ ε α Op T := ⟨s, fun _ => none, []⟩

/-- The system once the transaction `t` stands at `x`. -/
def Sys.put [DecidableEq T] (S : Sys σ κ ε α Op T) (t : T)
    (x : Option (Live σ κ ε α Op)) : Sys σ κ ε α Op T :=
  { S with live := Function.update S.live t x }

section
variable [DecidableEq T] (S : Sys σ κ ε α Op T) (t : T) (x : Option (Live σ κ ε α Op))

@[simp] theorem Sys.put_db : (S.put t x).db = S.db := rfl
@[simp] theorem Sys.put_log : (S.put t x).log = S.log := rfl
@[simp] theorem Sys.put_live_self : (S.put t x).live t = x := Function.update_self ..
theorem Sys.put_live_ne {t' : T} (h : t' ≠ t) : (S.put t x).live t' = S.live t' :=
  Function.update_of_ne h ..
@[simp] theorem Sys.put_put (y : Option (Live σ κ ε α Op)) : (S.put t x).put t y = S.put t y := by
  simp [Sys.put]

end

/-- Locks that two transactions may hold at the same time. -/
def Compatible (H H' : Held κ) : Prop :=
  ∀ ℓ m m', (ℓ, m) ∈ H → (ℓ, m') ∈ H' → m.conflicts m' = false

theorem Compatible.symm {H H' : Held κ} (h : Compatible H H') : Compatible H' H :=
  fun ℓ m m' hm hm' => (Mode.conflicts_comm m m').trans (h ℓ m' m hm' hm)

/-- No transaction other than `t` stands in the way of locking `ℓ` with strength `m`. -/
def Grantable (S : Sys σ κ ε α Op T) (t : T) (ℓ : κ) (m : Mode) : Prop :=
  ∀ t' x, t' ≠ t → S.live t' = some x → Compatible [(ℓ, m)] x.held

section
variable [DecidableEq T] (prog : Op → Tx σ κ ε α)

/-- One statement of one transaction. -/
inductive Step : Sys σ κ ε α Op T → Sys σ κ ε α Op T → Prop where
  | start {S t} (op : Op) : S.live t = none →
      Step S (S.put t (some ⟨op, prog op, id, []⟩))
  | lock {S t op ℓ m next u H} : S.live t = some ⟨op, .lock ℓ m next, u, H⟩ →
      Grantable S t ℓ m → Step S (S.put t (some ⟨op, next, u, (ℓ, m) :: H⟩))
  | read {S t op β u H} {q : σ → β} {next} : S.live t = some ⟨op, .read q next, u, H⟩ →
      Step S (S.put t (some ⟨op, next (q (u S.db)), u, H⟩))
  | peek {S t op β u H} {q : σ → β} {next} : S.live t = some ⟨op, .peek q next, u, H⟩ →
      Step S (S.put t (some ⟨op, next (q (u S.db)), u, H⟩))
  | write {S t op u H} {w : σ → σ} {next} : S.live t = some ⟨op, .write w next, u, H⟩ →
      Step S (S.put t (some ⟨op, next, w ∘ u, H⟩))
  | commit {S t op a u H} : S.live t = some ⟨op, .done a, u, H⟩ →
      Step S { S.put t none with db := u S.db, log := S.log ++ [(op, a)] }
  | rollback {S t} : Step S (S.put t none)

/-- The states an interleaved run from the rows `s₀` can reach. -/
inductive Reachable (s₀ : σ) : Sys σ κ ε α Op T → Prop where
  | init : Reachable s₀ (Sys.init s₀)
  | step {S S'} : Reachable s₀ S → Step prog S S' → Reachable s₀ S'

/-- The transaction `t`, begun for `op`, commits and answers `a`. -/
inductive Commit (t : T) (op : Op) (a : α) (S : Sys σ κ ε α Op T) : Sys σ κ ε α Op T → Prop where
  | mk {u H} : S.live t = some ⟨op, .done a, u, H⟩ →
      Commit t op a S { S.put t none with db := u S.db, log := S.log ++ [(op, a)] }

end

section
variable [DecidableEq T] {prog : Op → Tx σ κ ε α} {S S' : Sys σ κ ε α Op T}

/-- The log only grows. -/
theorem Step.log (h : Step prog S S') : ∃ log, S'.log = S.log ++ log := by
  cases h with
  | commit hl => exact ⟨_, rfl⟩
  | start op hl => exact ⟨[], (List.append_nil _).symm⟩
  | lock hl hg => exact ⟨[], (List.append_nil _).symm⟩
  | read hl => exact ⟨[], (List.append_nil _).symm⟩
  | peek hl => exact ⟨[], (List.append_nil _).symm⟩
  | write hl => exact ⟨[], (List.append_nil _).symm⟩
  | rollback => exact ⟨[], (List.append_nil _).symm⟩

theorem Commit.step {t : T} {op : Op} {a : α} (h : Commit t op a S S') : Step prog S S' := by
  obtain ⟨hl⟩ := h
  exact .commit hl

theorem Commit.log {t : T} {op : Op} {a : α} (h : Commit t op a S S') :
    S'.log = S.log ++ [(op, a)] := by
  obtain ⟨-⟩ := h
  rfl

/-- A statement changes nothing that is committed, or it is a commit. -/
theorem Step.commit_or_quiet (h : Step prog S S') :
    (S'.db = S.db ∧ S'.log = S.log) ∨ ∃ t op a, Commit t op a S S' := by
  cases h with
  | commit hl => exact .inr ⟨_, _, _, .mk hl⟩
  | start op hl => exact .inl ⟨rfl, rfl⟩
  | lock hl hg => exact .inl ⟨rfl, rfl⟩
  | read hl => exact .inl ⟨rfl, rfl⟩
  | peek hl => exact .inl ⟨rfl, rfl⟩
  | write hl => exact .inl ⟨rfl, rfl⟩
  | rollback => exact .inl ⟨rfl, rfl⟩

/-- The rows change at a commit only. -/
theorem Step.quiet (h : Step prog S S') (hlog : S'.log = S.log) : S'.db = S.db := by
  cases h with
  | commit hl => exact absurd hlog (by simp)
  | start op hl => rfl
  | lock hl hg => rfl
  | read hl => rfl
  | peek hl => rfl
  | write hl => rfl
  | rollback => rfl

/-- A transaction that has ended in an error stays where it is until it is rolled back, and then
nothing is committed. -/
theorem Step.of_fail (h : Step prog S S') {t : T} {x : Live σ κ ε α Op} {e : ε}
    (hx : S.live t = some x) (hfail : x.prog = .fail e) :
    S'.live t = some x ∨ S'.live t = none ∧ S'.db = S.db ∧ S'.log = S.log := by
  obtain ⟨op, p, u, H⟩ := x
  obtain rfl : p = .fail e := hfail
  have hother : ∀ {t' z w}, S.live t' = some w → w.prog ≠ .fail e →
      (S.put t' z).live t = some ⟨op, .fail e, u, H⟩ := by
    intro t' z w hw hne
    have ht : t ≠ t' := by
      rintro rfl
      rw [hx] at hw
      cases hw
      exact hne rfl
    rw [S.put_live_ne t' _ ht]
    exact hx
  cases h with
  | @start t' op' hl =>
      have ht : t ≠ t' := by
        rintro rfl
        rw [hx] at hl
        cases hl
      rw [S.put_live_ne t' _ ht]
      exact .inl hx
  | lock hl hg => exact .inl (hother hl fun hp => by cases hp)
  | read hl => exact .inl (hother hl fun hp => by cases hp)
  | peek hl => exact .inl (hother hl fun hp => by cases hp)
  | write hl => exact .inl (hother hl fun hp => by cases hp)
  | commit hl => exact .inl (hother hl fun hp => by cases hp)
  | @rollback t' =>
      by_cases ht : t = t'
      · subst ht
        exact .inr ⟨S.put_live_self t _, rfl, rfl⟩
      · rw [S.put_live_ne t' _ ht]
        exact .inl hx

/-- A transaction `t'` that goes on leaves every other where it stood. -/
private theorem op_of_put {t t' : T} {x z w : Live σ κ ε α Op} (hw : S.live t' = some w)
    (hop : z.op = w.op) (hx : S.live t = some x) :
    ∃ y, (S.put t' (some z)).live t = some y ∧ y.op = x.op := by
  by_cases ht : t = t'
  · subst ht
    obtain rfl : w = x := by simpa [hw] using hx
    exact ⟨z, S.put_live_self t _, hop⟩
  · exact ⟨x, (S.put_live_ne t' _ ht).trans hx, rfl⟩

/-- A transaction that is under way before and after a statement was started for the same thing. -/
theorem Step.same_op (h : Step prog S S') {t : T} {x : Live σ κ ε α Op} (hx : S.live t = some x)
    (hlive : (S'.live t).isSome = true) : ∃ y, S'.live t = some y ∧ y.op = x.op := by
  have hother : ∀ {t'}, ((S.put t' none).live t).isSome = true →
      ∃ y, (S.put t' none).live t = some y ∧ y.op = x.op := by
    intro t' hsome
    by_cases ht : t = t'
    · subst ht
      rw [S.put_live_self] at hsome
      cases hsome
    · exact ⟨x, (S.put_live_ne t' _ ht).trans hx, rfl⟩
  cases h with
  | @start t' op hl =>
      by_cases ht : t = t'
      · subst ht
        rw [hl] at hx
        cases hx
      · exact ⟨x, (S.put_live_ne t' _ ht).trans hx, rfl⟩
  | lock hl hg => exact op_of_put hl rfl hx
  | read hl => exact op_of_put hl rfl hx
  | peek hl => exact op_of_put hl rfl hx
  | write hl => exact op_of_put hl rfl hx
  | commit hl => exact hother hlive
  | rollback => exact hother hlive

end

/-! ## Replaying a transaction on one state -/

/-- Run on the rows `s` alone, the program `p₀` can come to `p`, having made the changes `u` and
taken the locks `H`. What a `peek` answers may be stale, except for what the locks protect: there
`agree lk` says that two states look alike under the lock `lk`. -/
inductive Replay (agree : κ × Mode → σ → σ → Prop) (p₀ : Tx σ κ ε α) (s : σ) :
    Tx σ κ ε α → (σ → σ) → Held κ → Prop where
  | start : Replay agree p₀ s p₀ id []
  | lock {ℓ m next u H} : Replay agree p₀ s (.lock ℓ m next) u H →
      Replay agree p₀ s next u ((ℓ, m) :: H)
  | read {β u H} {q : σ → β} {next} : Replay agree p₀ s (.read q next) u H →
      Replay agree p₀ s (next (q (u s))) u H
  | peek {β u H} {q : σ → β} {next} (s₀ : σ) : Replay agree p₀ s (.peek q next) u H →
      (∀ lk ∈ H, agree lk s₀ (u s)) → Replay agree p₀ s (next (q s₀)) u H
  | write {u H} {w : σ → σ} {next} : Replay agree p₀ s (.write w next) u H →
      Replay agree p₀ s next (w ∘ u) H

section
variable {agree : κ × Mode → σ → σ → Prop}

/-- A precondition speaks of every replay. -/
theorem Replay.wp {p₀ p : Tx σ κ ε α} {s : σ} {u : σ → σ} {H : Held κ} {E : ε → Prop}
    {Q : α → Held κ → σ → Prop} (h : Replay agree p₀ s p u H) (h₀ : wp p₀ [] s E Q) :
    wp p H (u s) E Q := by
  induction h with
  | start => exact h₀
  | lock _ ih => exact ih
  | read _ ih => exact ih
  | peek s₀ _ _ ih => exact ih s₀
  | write _ ih => exact ih

/-- It stays one when nothing is known of what a `peek` answers. -/
theorem Replay.forget {p₀ p : Tx σ κ ε α} {s : σ} {u : σ → σ} {H : Held κ}
    (h : Replay agree p₀ s p u H) : Replay (fun _ _ _ => True) p₀ s p u H := by
  induction h with
  | start => exact .start
  | lock _ ih => exact ih.lock
  | read _ ih => exact ih.read
  | peek s₀ _ _ ih => exact ih.peek s₀ fun _ _ => trivial
  | write _ ih => exact ih.write

/-- A run alone is a replay. -/
theorem Replay.run (hrefl : ∀ lk s, agree lk s s) {p₀ p : Tx σ κ ε α} {s s' : σ} {u : σ → σ}
    {H : Held κ} {a : α} (h : Replay agree p₀ s p u H) (hr : p.run (u s) = .ok (a, s')) :
    ∃ u' H', Replay agree p₀ s (.done a) u' H' ∧ u' s = s' := by
  induction p generalizing u H with
  | done b =>
      obtain ⟨rfl, rfl⟩ : b = a ∧ u s = s' := by simpa [Tx.run] using hr
      exact ⟨u, H, h, rfl⟩
  | fail e => simp [Tx.run] at hr
  | lock ℓ m next ih => exact ih h.lock hr
  | read q next ih => exact ih _ h.read hr
  | peek q next ih => exact ih _ (h.peek (u s) fun lk _ => hrefl lk _) hr
  | write w next ih => exact ih h.write hr

end

/-! ### Preconditions under locks

`wp` lets a `peek` answer anything. `wpHeld` is the sharper reading, for the few programs that rely
on it: under the locks held the answer is not stale. -/

/-- The weakest precondition of `p`, where a `peek` tells the truth about what is locked. -/
def wpHeld (agree : κ × Mode → σ → σ → Prop) :
    Tx σ κ ε α → Held κ → σ → (α → Held κ → σ → Prop) → Prop
  | .done a, H, s, Q        => Q a H s
  | .fail _, _, _, _        => True
  | .lock ℓ m next, H, s, Q => wpHeld agree next ((ℓ, m) :: H) s Q
  | .read q next, H, s, Q   => wpHeld agree (next (q s)) H s Q
  | .peek q next, H, s, Q   =>
      ∀ s₀, (∀ lk ∈ H, agree lk s₀ s) → wpHeld agree (next (q s₀)) H s Q
  | .write w next, H, s, Q  => wpHeld agree next H (w s) Q

section
variable {agree : κ × Mode → σ → σ → Prop} {H : Held κ} {s : σ} {Q Q' : α → Held κ → σ → Prop}

/-- What holds whatever a `peek` answers holds under locks. -/
theorem wpHeld_of_wp {p : Tx σ κ ε α} {E : ε → Prop} (h : wp p H s E Q) : wpHeld agree p H s Q := by
  induction p generalizing H s with
  | done a => exact h
  | fail e => trivial
  | lock ℓ m next ih => exact ih h
  | read q next ih => exact ih _ h
  | peek q next ih => exact fun s₀ _ => ih _ (h s₀)
  | write w next ih => exact ih h

/-- Where the locks say nothing of what a `peek` answers, the two readings are one. -/
theorem wp_of_wpHeld {p : Tx σ κ ε α} (h : wpHeld (fun _ _ _ => True) p H s Q) :
    wp p H s (fun _ => True) Q := by
  induction p generalizing H s with
  | done a => exact h
  | fail e => trivial
  | lock ℓ m next ih => exact ih h
  | read q next ih => exact ih _ h
  | peek q next ih => exact fun s₀ => ih _ (h s₀ fun _ _ => trivial)
  | write w next ih => exact ih h

theorem wpHeld_mono {p : Tx σ κ ε α} (h : wpHeld agree p H s Q)
    (hQ : ∀ a H' s', Q a H' s' → Q' a H' s') : wpHeld agree p H s Q' := by
  induction p generalizing H s with
  | done a => exact hQ _ _ _ h
  | fail e => trivial
  | lock ℓ m next ih => exact ih h
  | read q next ih => exact ih _ h
  | peek q next ih => exact fun s₀ hs₀ => ih _ (h s₀ hs₀)
  | write w next ih => exact ih h

theorem wpHeld_and {p : Tx σ κ ε α} (h : wpHeld agree p H s Q) (h' : wpHeld agree p H s Q') :
    wpHeld agree p H s fun a H' s' => Q a H' s' ∧ Q' a H' s' := by
  induction p generalizing H s with
  | done a => exact ⟨h, h'⟩
  | fail e => trivial
  | lock ℓ m next ih => exact ih h h'
  | read q next ih => exact ih _ h h'
  | peek q next ih => exact fun s₀ hs₀ => ih _ (h s₀ hs₀) (h' s₀ hs₀)
  | write w next ih => exact ih h h'

theorem wpHeld_bind {p : Tx σ κ ε β} {f : β → Tx σ κ ε α} :
    wpHeld agree (p >>= f) H s Q ↔
      wpHeld agree p H s fun b H' s' => wpHeld agree (f b) H' s' Q := by
  induction p generalizing H s with
  | done a => exact Iff.rfl
  | fail e => exact Iff.rfl
  | lock ℓ m next ih => exact ih
  | read q next ih => exact ih _
  | peek q next ih => exact forall_congr' fun s₀ => imp_congr_right fun _ => ih _
  | write w next ih => exact ih

theorem wpHeld_seq {p : Tx σ κ ε β} {f : β → Tx σ κ ε α} {R : β → Held κ → σ → Prop}
    (hp : wpHeld agree p H s R) (hf : ∀ b H' s', R b H' s' → wpHeld agree (f b) H' s' Q) :
    wpHeld agree (p >>= f) H s Q :=
  wpHeld_bind.mpr (wpHeld_mono hp hf)

theorem wpHeld_bind_glance {q : σ → β} {f : β → Tx σ κ ε α}
    (h : ∀ s₀, (∀ lk ∈ H, agree lk s₀ s) → wpHeld agree (f (q s₀)) H s Q) :
    wpHeld agree (Tx.glance q >>= f) H s Q := h

theorem wpHeld_bind_selectFor {m : Mode} {ℓ : κ} {q : σ → β} {f : β → Tx σ κ ε α}
    (h : wpHeld agree (f (q s)) ((ℓ, m) :: H) s Q) :
    wpHeld agree (Tx.selectFor m ℓ q >>= f) H s Q := h

theorem wpHeld_bind_query {q : σ → β} {f : β → Tx σ κ ε α} (h : wpHeld agree (f (q s)) H s Q) :
    wpHeld agree (Tx.query q >>= f) H s Q := h

theorem wpHeld_bind_orFail {o : Option β} {e : ε} {f : β → Tx σ κ ε α}
    (h : ∀ b, o = some b → wpHeld agree (f b) H s Q) :
    wpHeld agree (Tx.orFail o e >>= f) H s Q := by
  cases o with
  | some b => exact h b rfl
  | none => trivial

theorem wpHeld_bind_require {c : Prop} [Decidable c] {e : ε} {f : Unit → Tx σ κ ε α}
    (h : c → wpHeld agree (f ()) H s Q) : wpHeld agree (Tx.require c e >>= f) H s Q := by
  rw [Tx.require]
  split
  · exact h ‹_›
  · trivial

/-- A precondition under locks speaks of every replay. -/
theorem Replay.wpHeld {p₀ p : Tx σ κ ε α} {u : σ → σ} (h : Replay agree p₀ s p u H)
    (h₀ : wpHeld agree p₀ [] s Q) : wpHeld agree p H (u s) Q := by
  induction h with
  | start => exact h₀
  | lock _ ih => exact ih
  | read _ ih => exact ih
  | peek s₀ _ hs₀ ih => exact ih s₀ hs₀
  | write _ ih => exact ih

end

/-! ## The locking discipline

`agree (ℓ, m) s s'` says that what a lock on `ℓ` of strength `m` protects is the same in `s` and in
`s'`. A lock for update may protect more than a shared one. -/

section
variable (agree : κ × Mode → σ → σ → Prop)

/-- The query looks only at what the locks held protect. -/
def Guarded (H : Held κ) (q : σ → β) : Prop :=
  ∀ s s', (∀ h ∈ H, agree h s s') → q s = q s'

/-- Where the rows under the locks held are the same, the change does the same to both sides. -/
def Respects (H : Held κ) (w : σ → σ) : Prop :=
  ∀ s s', (∀ h ∈ H, agree h s s') → ∀ lk, agree lk s s' → agree lk (w s) (w s')

/-- Whatever another transaction may hold a lock on has not changed. -/
def Covered (H : Held κ) (s s' : σ) : Prop :=
  ∀ ℓ m, Compatible [(ℓ, m)] H → agree (ℓ, m) s s'

/-- Every `read` of `p` is guarded and every `write` respects the locks, when `p` starts with `H`;
`Q` holds of what it answers and the locks it then has. -/
def Disciplined : Tx σ κ ε α → Held κ → (α → Held κ → Prop) → Prop
  | .done a, H, Q        => Q a H
  | .fail _, _, _        => True
  | .lock ℓ m next, H, Q => Disciplined next ((ℓ, m) :: H) Q
  | .read q next, H, Q   => Guarded agree H q ∧ ∀ s, Disciplined (next (q s)) H Q
  | .peek q next, H, Q   => ∀ s, Disciplined (next (q s)) H Q
  | .write w next, H, Q  => Respects agree H w ∧ Disciplined next H Q

variable {agree}
variable {H : Held κ} {Q Q' : α → Held κ → Prop}

@[simp] theorem disciplined_done (a : α) :
    Disciplined (ε := ε) agree (.done a) H Q ↔ Q a H := Iff.rfl
@[simp] theorem disciplined_fail (e : ε) :
    Disciplined agree (.fail e) H Q ↔ True := Iff.rfl

theorem Disciplined.mono {p : Tx σ κ ε α} (h : Disciplined agree p H Q)
    (hQ : ∀ a H', Q a H' → Q' a H') : Disciplined agree p H Q' := by
  induction p generalizing H with
  | done a => exact hQ _ _ h
  | fail e => trivial
  | lock ℓ m next ih => exact ih h
  | read q next ih => exact ⟨h.1, fun s => ih _ (h.2 s)⟩
  | peek q next ih => exact fun s => ih _ (h s)
  | write w next ih => exact ⟨h.1, ih h.2⟩

@[simp] theorem disciplined_bind (p : Tx σ κ ε β) (f : β → Tx σ κ ε α) :
    Disciplined agree (p >>= f) H Q ↔
      Disciplined agree p H fun b H' => Disciplined agree (f b) H' Q := by
  induction p generalizing H with
  | done a => exact Iff.rfl
  | fail e => exact Iff.rfl
  | lock ℓ m next ih => exact ih
  | read q next ih => exact and_congr Iff.rfl (forall_congr' fun s => ih _)
  | peek q next ih => exact forall_congr' fun s => ih _
  | write w next ih => exact and_congr Iff.rfl ih

@[simp] theorem disciplined_acquire (ℓ : κ) (m : Mode) {Q : Unit → Held κ → Prop} :
    Disciplined (ε := ε) agree (Tx.acquire ℓ m) H Q ↔ Q () ((ℓ, m) :: H) := Iff.rfl
@[simp] theorem disciplined_query (q : σ → α) :
    Disciplined (ε := ε) agree (Tx.query q) H Q ↔ Guarded agree H q ∧ ∀ s, Q (q s) H := Iff.rfl
@[simp] theorem disciplined_glance (q : σ → α) :
    Disciplined (ε := ε) agree (Tx.glance q) H Q ↔ ∀ s, Q (q s) H := Iff.rfl
@[simp] theorem disciplined_update (w : σ → σ) {Q : Unit → Held κ → Prop} :
    Disciplined (ε := ε) agree (Tx.update w) H Q ↔ Respects agree H w ∧ Q () H := Iff.rfl

/-- The loop rule: `I` holds of the locks before the first element, and each turn keeps it. -/
theorem disciplined_forEach {bs : List β} {f : β → Tx σ κ ε Unit} {Q : Unit → Held κ → Prop}
    (I : Held κ → Prop) (h0 : I H)
    (hstep : ∀ b H, I H → Disciplined agree (f b) H fun _ H' => I H')
    (hQ : ∀ H', I H' → Q () H') : Disciplined agree (Tx.forEach bs f) H Q := by
  induction bs generalizing H with
  | nil => exact hQ _ h0
  | cons b bs ih => exact (disciplined_bind _ _).mpr ((hstep b H h0).mono fun _ H' hI => ih hI)

theorem disciplined_collect {bs : List β} {f : β → Tx σ κ ε α} {Q : List α → Held κ → Prop}
    (I : Held κ → Prop) (h0 : I H)
    (hstep : ∀ b ∈ bs, ∀ H, I H → Disciplined agree (f b) H fun _ H' => I H')
    (hQ : ∀ as H', I H' → Q as H') : Disciplined agree (Tx.collect bs f) H Q := by
  induction bs generalizing H Q with
  | nil => exact hQ [] _ h0
  | cons b bs ih =>
      have hrest : ∀ b' ∈ bs, ∀ H, I H → Disciplined agree (f b') H fun _ H' => I H' :=
        fun b' hb' => hstep b' (List.mem_cons_of_mem _ hb')
      refine (disciplined_bind _ _).mpr ((hstep b List.mem_cons_self H h0).mono fun a H' hI => ?_)
      exact (disciplined_bind _ _).mpr (ih hI hrest fun as H'' hI' => hQ (a :: as) H'' hI')

/-- Locks only add up. -/
theorem Disciplined.grow {p : Tx σ κ ε α} (h : Disciplined agree p H Q) :
    Disciplined agree p H fun a H' => Q a H' ∧ H ⊆ H' := by
  suffices ∀ H₀ : Held κ, H₀ ⊆ H → Disciplined agree p H fun a H' => Q a H' ∧ H₀ ⊆ H' from
    this H (List.Subset.refl H)
  induction p generalizing H with
  | done a => exact fun H₀ hsub => ⟨h, hsub⟩
  | fail e => exact fun H₀ hsub => trivial
  | lock ℓ m next ih =>
      exact fun H₀ hsub => ih h H₀ (List.Subset.trans hsub (List.subset_cons_self _ _))
  | read q next ih => exact fun H₀ hsub => ⟨h.1, fun s => ih _ (h.2 s) H₀ hsub⟩
  | peek q next ih => exact fun H₀ hsub s => ih _ (h s) H₀ hsub
  | write w next ih => exact fun H₀ hsub => ⟨h.1, ih h.2 H₀ hsub⟩

/-- Sequencing: the second program may use the locks of the first. -/
theorem Disciplined.seq {p : Tx σ κ ε β} {f : β → Tx σ κ ε α} {R : β → Held κ → Prop}
    (hp : Disciplined agree p H R)
    (hf : ∀ b H', H ⊆ H' → R b H' → Disciplined agree (f b) H' Q) :
    Disciplined agree (p >>= f) H Q :=
  (disciplined_bind p f).mpr (hp.grow.mono fun b H' h => hf b H' h.2 h.1)

theorem disciplined_require {c : Prop} [Decidable c] {e : ε} {Q : Unit → Held κ → Prop}
    (h : c → Q () H) : Disciplined agree (Tx.require c e) H Q := by
  rw [Tx.require]
  split
  · exact h ‹_›
  · trivial

theorem disciplined_orFail {o : Option α} {e : ε} (h : ∀ a, o = some a → Q a H) :
    Disciplined agree (Tx.orFail o e) H Q := by
  cases o with
  | some a => exact h a rfl
  | none => trivial

theorem disciplined_ofExcept {r : Except ε α} (h : ∀ a, r = .ok a → Q a H) :
    Disciplined agree (Tx.ofExcept r) H Q := by
  cases r with
  | ok a => exact h a rfl
  | error e => trivial

theorem disciplined_selectFor {m : Mode} {ℓ : κ} {q : σ → α}
    (hq : ∀ s s', agree (ℓ, m) s s' → q s = q s') :
    Disciplined (ε := ε) agree (Tx.selectFor m ℓ q) H fun _ H' => H' = (ℓ, m) :: H :=
  ⟨fun s s' h => hq s s' (h _ List.mem_cons_self), fun _ => rfl⟩

theorem disciplined_updateReturning {ℓ : κ} {w : σ → σ} {q : σ → α}
    (hw : Respects agree ((ℓ, .update) :: H) w)
    (hq : ∀ s s', agree (ℓ, .update) s s' → q s = q s') :
    Disciplined (ε := ε) agree (Tx.updateReturning ℓ w q) H fun _ H' => H' = (ℓ, .update) :: H :=
  ⟨hw, fun s s' h => hq s s' (h _ List.mem_cons_self), fun _ => rfl⟩

theorem disciplined_insertRow {ℓ : κ} {taken : σ → Bool} {e : ε} {w : σ → σ}
    (ht : ∀ s s', agree (ℓ, .update) s s' → taken s = taken s')
    (hw : Respects agree ((ℓ, .update) :: H) w) :
    Disciplined agree (Tx.insertRow ℓ taken e w) H fun _ H' => H' = (ℓ, .update) :: H := by
  refine ⟨fun s s' h => ht s s' (h _ List.mem_cons_self), fun s => ?_⟩
  show Disciplined agree (if taken s then Tx.fail e else Tx.update w) ((ℓ, .update) :: H) _
  split
  · trivial
  · exact ⟨hw, rfl⟩

theorem disciplined_selectAll {m : Mode} {ℓ : β → κ} {q : β → σ → α} {ks : List β}
    (hq : ∀ k ∈ ks, ∀ s s', agree (ℓ k, m) s s' → q k s = q k s') :
    Disciplined (ε := ε) agree (Tx.selectAll m ℓ q ks) H fun _ H' => H' = lockAll m ℓ ks H := by
  induction ks generalizing H with
  | nil => exact rfl
  | cons k ks ih =>
      refine (disciplined_bind _ _).mpr ?_
      refine (disciplined_selectFor (hq k List.mem_cons_self)).mono ?_
      rintro a H' rfl
      exact (disciplined_bind _ _).mpr (ih fun k hk => hq k (List.mem_cons_of_mem _ hk))

/-! ### Stepping through a program -/

section
variable {f : β → Tx σ κ ε α}

theorem disciplined_bind_glance {q : σ → β} (h : ∀ b, Disciplined agree (f b) H Q) :
    Disciplined agree (Tx.glance q >>= f) H Q := fun s => h (q s)

theorem disciplined_bind_query {q : σ → β} (hq : Guarded agree H q)
    (h : ∀ b, Disciplined agree (f b) H Q) : Disciplined agree (Tx.query q >>= f) H Q :=
  ⟨hq, fun s => h (q s)⟩

theorem disciplined_bind_selectFor {m : Mode} {ℓ : κ} {q : σ → β}
    (hq : ∀ s s', agree (ℓ, m) s s' → q s = q s')
    (h : ∀ b, Disciplined agree (f b) ((ℓ, m) :: H) Q) :
    Disciplined agree (Tx.selectFor m ℓ q >>= f) H Q :=
  ⟨fun s s' hs => hq s s' (hs _ List.mem_cons_self), fun s => h (q s)⟩

theorem disciplined_bind_updateReturning {ℓ : κ} {w : σ → σ} {q : σ → β}
    (hw : Respects agree ((ℓ, .update) :: H) w)
    (hq : ∀ s s', agree (ℓ, .update) s s' → q s = q s')
    (h : ∀ b, Disciplined agree (f b) ((ℓ, .update) :: H) Q) :
    Disciplined agree (Tx.updateReturning ℓ w q >>= f) H Q :=
  ⟨hw, fun s s' hs => hq s s' (hs _ List.mem_cons_self), fun s => h (q s)⟩

theorem disciplined_bind_selectAll {δ : Type} {m : Mode} {ℓ : δ → κ} {q : δ → σ → β}
    {ks : List δ} {f : List β → Tx σ κ ε α}
    (hq : ∀ k ∈ ks, ∀ s s', agree (ℓ k, m) s s' → q k s = q k s')
    (h : ∀ bs, Disciplined agree (f bs) (lockAll m ℓ ks H) Q) :
    Disciplined agree (Tx.selectAll m ℓ q ks >>= f) H Q := by
  refine (disciplined_bind _ _).mpr ((disciplined_selectAll hq).mono ?_)
  rintro bs H' rfl
  exact h bs

theorem disciplined_bind_orFail {o : Option β} {e : ε}
    (h : ∀ b, o = some b → Disciplined agree (f b) H Q) :
    Disciplined agree (Tx.orFail o e >>= f) H Q :=
  (disciplined_bind _ _).mpr (disciplined_orFail h)

theorem disciplined_bind_ofExcept {r : Except ε β}
    (h : ∀ b, r = .ok b → Disciplined agree (f b) H Q) :
    Disciplined agree (Tx.ofExcept r >>= f) H Q :=
  (disciplined_bind _ _).mpr (disciplined_ofExcept h)

end

section
variable {f : Unit → Tx σ κ ε α}

theorem disciplined_bind_update {w : σ → σ} (hw : Respects agree H w)
    (h : Disciplined agree (f ()) H Q) : Disciplined agree (Tx.update w >>= f) H Q := ⟨hw, h⟩

theorem disciplined_bind_require {c : Prop} [Decidable c] {e : ε}
    (h : c → Disciplined agree (f ()) H Q) : Disciplined agree (Tx.require c e >>= f) H Q :=
  (disciplined_bind _ _).mpr (disciplined_require h)

theorem disciplined_bind_whenever {c : Prop} [Decidable c] {p : Tx σ κ ε Unit}
    (hc : c → Disciplined agree p H fun _ H' => Disciplined agree (f ()) H' Q)
    (hnot : ¬c → Disciplined agree (f ()) H Q) :
    Disciplined agree (Tx.whenever c p >>= f) H Q := by
  rw [Tx.whenever]
  split
  · exact (disciplined_bind _ _).mpr (hc ‹_›)
  · exact hnot ‹_›

theorem disciplined_bind_insertRow {ℓ : κ} {taken : σ → Bool} {e : ε} {w : σ → σ}
    (ht : ∀ s s', agree (ℓ, .update) s s' → taken s = taken s')
    (hw : Respects agree ((ℓ, .update) :: H) w)
    (h : Disciplined agree (f ()) ((ℓ, .update) :: H) Q) :
    Disciplined agree (Tx.insertRow ℓ taken e w >>= f) H Q := by
  refine (disciplined_bind _ _).mpr ((disciplined_insertRow ht hw).mono ?_)
  rintro _ H' rfl
  exact h

end

/-! ## Moving a replay to other rows -/

/-- What a replay has left to run is disciplined, and its changes so far respect the locks. -/
theorem Replay.disciplined {p₀ p : Tx σ κ ε α} {s : σ} {u : σ → σ} {H : Held κ}
    (h : Replay agree p₀ s p u H) (h₀ : Disciplined agree p₀ [] Q) :
    Disciplined agree p H Q ∧ Respects agree H u := by
  induction h with
  | start => exact ⟨h₀, fun _ _ _ _ h => h⟩
  | lock _ ih =>
      exact ⟨ih.1, fun s s' hs => ih.2 s s' fun h hh => hs h (List.mem_cons_of_mem _ hh)⟩
  | read _ ih => exact ⟨ih.1.2 _, ih.2⟩
  | peek s₀ _ _ ih => exact ⟨ih.1 s₀, ih.2⟩
  | write _ ih =>
      refine ⟨ih.1.2, fun s s' hs lk hlk => ?_⟩
      exact ih.1.1 _ _ (fun h hh => ih.2 s s' hs h (hs h hh)) _ (ih.2 s s' hs lk hlk)

/-- A transaction that ran on `s` would have run the same way on `s'`, when `s` and `s'` agree on
the rows it has locked. -/
theorem Replay.transfer (heq : ∀ lk, Equivalence (agree lk)) {p₀ p : Tx σ κ ε α} {s s' : σ}
    {u : σ → σ} {H : Held κ} (h : Replay agree p₀ s p u H) (h₀ : Disciplined agree p₀ [] Q)
    (hs : ∀ h ∈ H, agree h s s') : Replay agree p₀ s' p u H := by
  induction h with
  | start => exact .start
  | lock _ ih => exact (ih fun h hh => hs h (List.mem_cons_of_mem _ hh)).lock
  | @read β u H q next hr ih =>
      have hq : q (u s) = q (u s') :=
        (hr.disciplined h₀).1.1 _ _ fun h hh => (hr.disciplined h₀).2 _ _ hs h (hs h hh)
      rw [hq]
      exact (ih hs).read
  | peek s₀ hr hs₀ ih =>
      refine (ih hs).peek s₀ fun lk hlk => (heq lk).trans (hs₀ lk hlk) ?_
      exact (hr.disciplined h₀).2 _ _ hs lk (hs lk hlk)
  | write _ ih => exact (ih hs).write

end

/-! ## Serial runs -/

/-- The transactions of `log` run alone, one after the other, from `s₀`. -/
inductive Serial (prog : Op → Tx σ κ ε α) (s₀ : σ) : List (Op × α) → σ → Prop where
  | nil : Serial prog s₀ [] s₀
  | snoc {log s op a u H} : Serial prog s₀ log s →
      Replay (fun _ _ _ => True) (prog op) s (.done a) u H →
        Serial prog s₀ (log ++ [(op, a)]) (u s)

section
variable {prog : Op → Tx σ κ ε α} {s₀ : σ}

/-- **The induction rule of serial runs.** What holds at the start and is kept by every transaction
holds at the end. -/
theorem Serial.invariant {log : List (Op × α)} {s : σ} (J : List (Op × α) → σ → Prop)
    (h : Serial prog s₀ log s) (h0 : J [] s₀)
    (hstep : ∀ log s op, Serial prog s₀ log s → J log s →
      wp (prog op) [] s (fun _ => True) fun a _ s' => J (log ++ [(op, a)]) s') : J log s := by
  induction h with
  | nil => exact h0
  | @snoc log s op a u H hs hr ih => exact hr.wp (hstep log s op hs ih)

/-- The transactions run one at a time, by evaluation. -/
def runAll (prog : Op → Tx σ κ ε α) : List Op → σ → Except ε (List (Op × α) × σ)
  | [], s        => .ok ([], s)
  | op :: ops, s =>
      match (prog op).run s with
      | .error e => .error e
      | .ok (a, s') =>
          match runAll prog ops s' with
          | .error e => .error e
          | .ok (log, s'') => .ok ((op, a) :: log, s'')

end

/-! ## The reduction -/

section
variable [DecidableEq T] {prog : Op → Tx σ κ ε α} {s₀ : σ}
  {agree : κ × Mode → σ → σ → Prop} {I : σ → Prop} {E : ε → Prop}

/-- What the programs of a system must meet: they are disciplined, and run alone from rows that
satisfy `I` they leave rows that satisfy `I`, having changed only what their locks keep others from. -/
structure Sound (prog : Op → Tx σ κ ε α) (agree : κ × Mode → σ → σ → Prop) (I : σ → Prop)
    (E : ε → Prop) : Prop where
  equivalence : ∀ lk, Equivalence (agree lk)
  disciplined : ∀ op, Disciplined agree (prog op) [] fun _ _ => True
  commits : ∀ op s, I s → wp (prog op) [] s E fun _ H s' => I s' ∧ Covered agree H s s'

/-- The invariant of interleaved runs. -/
structure SysInv (prog : Op → Tx σ κ ε α) (agree : κ × Mode → σ → σ → Prop) (s₀ : σ)
    (I : σ → Prop) (S : Sys σ κ ε α Op T) : Prop where
  serial : Serial prog s₀ S.log S.db
  inv : I S.db
  replay : ∀ t x, S.live t = some x → Replay agree (prog x.op) S.db x.prog x.upd x.held
  compatible : ∀ t t' x x', t ≠ t' → S.live t = some x → S.live t' = some x' →
    Compatible x.held x'.held

omit [DecidableEq T] in
theorem SysInv.init (h0 : I s₀) : SysInv (T := T) prog agree s₀ I (Sys.init s₀) where
  serial := .nil
  inv := h0
  replay _ _ h := by simp [Sys.init] at h
  compatible _ _ _ _ _ h := by simp [Sys.init] at h

/-- A step of `t` that commits nothing: `t` stands at `x` afterwards, the others where they stood. -/
theorem SysInv.put {S : Sys σ κ ε α Op T} (h : SysInv prog agree s₀ I S) {t : T}
    {x : Live σ κ ε α Op} (hr : Replay agree (prog x.op) S.db x.prog x.upd x.held)
    (hc : ∀ t' y, t' ≠ t → S.live t' = some y → Compatible x.held y.held) :
    SysInv prog agree s₀ I (S.put t (some x)) where
  serial := h.serial
  inv := h.inv
  replay t' y hy := by
    by_cases ht : t' = t
    · subst ht
      obtain rfl : x = y := by simpa using hy
      exact hr
    · rw [S.put_live_ne t _ ht] at hy
      exact h.replay _ _ hy
  compatible t₁ t₂ y₁ y₂ hne h₁ h₂ := by
    by_cases ht₁ : t₁ = t
    · subst ht₁
      obtain rfl : x = y₁ := by simpa using h₁
      rw [S.put_live_ne _ _ (Ne.symm hne)] at h₂
      exact hc _ _ (Ne.symm hne) h₂
    · rw [S.put_live_ne t _ ht₁] at h₁
      by_cases ht₂ : t₂ = t
      · subst ht₂
        obtain rfl : x = y₂ := by simpa using h₂
        exact (hc _ _ hne h₁).symm
      · rw [S.put_live_ne t _ ht₂] at h₂
        exact h.compatible _ _ _ _ hne h₁ h₂

/-- A step of `t` that keeps its locks. -/
theorem SysInv.advance {S : Sys σ κ ε α Op T} (h : SysInv prog agree s₀ I S) {t : T}
    {op : Op} {p p' : Tx σ κ ε α} {u u' : σ → σ} {H : Held κ}
    (hl : S.live t = some ⟨op, p, u, H⟩)
    (hr : Replay agree (prog op) S.db p u H → Replay agree (prog op) S.db p' u' H) :
    SysInv prog agree s₀ I (S.put t (some ⟨op, p', u', H⟩)) :=
  h.put (hr (h.replay _ _ hl)) fun t' y ht hy =>
    h.compatible t t' ⟨op, p, u, H⟩ y (Ne.symm ht) hl hy

omit [DecidableEq T] in
/-- A lock that is granted is compatible with what the others hold, as the locks before it were. -/
theorem SysInv.compatible_cons {S : Sys σ κ ε α Op T} (h : SysInv prog agree s₀ I S) {t : T}
    {x : Live σ κ ε α Op} {ℓ : κ} {m : Mode} (hl : S.live t = some x) (hg : Grantable S t ℓ m)
    {t' : T} {y : Live σ κ ε α Op} (ht : t' ≠ t) (hy : S.live t' = some y) :
    Compatible ((ℓ, m) :: x.held) y.held := by
  intro ℓ' m₁ m₂ hm₁ hm₂
  rcases List.mem_cons.mp hm₁ with heq | hm₁
  · exact hg _ _ ht hy ℓ' m₁ m₂ (List.mem_singleton.mpr heq) hm₂
  · exact h.compatible _ _ _ _ (Ne.symm ht) hl hy _ _ _ hm₁ hm₂

/-- The other transactions once `t` has ended. -/
theorem live_of_put_none {S : Sys σ κ ε α Op T} {t t' : T} {x : Live σ κ ε α Op}
    (hx : (S.put t none).live t' = some x) : t' ≠ t ∧ S.live t' = some x := by
  by_cases ht : t' = t
  · subst ht
    simp at hx
  · rw [S.put_live_ne t _ ht] at hx
    exact ⟨ht, hx⟩

omit [DecidableEq T] in
/-- What a transaction commits leaves alone what the others have locked. -/
theorem SysInv.agrees (hsound : Sound prog agree I E) {S : Sys σ κ ε α Op T}
    (h : SysInv prog agree s₀ I S) {t t' : T} {op : Op} {a : α} {u : σ → σ} {H : Held κ}
    {x : Live σ κ ε α Op} (hl : S.live t = some ⟨op, .done a, u, H⟩) (ht : t' ≠ t)
    (hx : S.live t' = some x) : ∀ lk ∈ x.held, agree lk S.db (u S.db) := by
  intro lk hlk
  obtain ⟨-, hcov⟩ := (h.replay _ _ hl).wp (hsound.commits op _ h.inv)
  apply hcov lk.1 lk.2
  intro ℓ m m' hm hm'
  have hc := h.compatible _ _ _ _ ht hx hl
  exact hc ℓ m m' (by rwa [List.mem_singleton.mp hm]) hm'

/-- One statement keeps the invariant. -/
theorem SysInv.step (hsound : Sound prog agree I E) {S S' : Sys σ κ ε α Op T}
    (h : SysInv prog agree s₀ I S) (hstep : Step prog S S') : SysInv prog agree s₀ I S' := by
  cases hstep with
  | start op hl => exact h.put .start fun _ _ _ _ _ _ _ hm => absurd hm List.not_mem_nil
  | lock hl hg => exact h.put (h.replay _ _ hl).lock fun _ _ ht hy => h.compatible_cons hl hg ht hy
  | read hl => exact h.advance hl .read
  | peek hl =>
      exact h.advance hl fun hr => hr.peek _ fun lk _ => (hsound.equivalence lk).refl _
  | write hl => exact h.advance hl .write
  | @commit t op a u H hl =>
      have hrep := h.replay _ _ hl
      obtain ⟨hinv, -⟩ := hrep.wp (hsound.commits op _ h.inv)
      refine ⟨h.serial.snoc hrep.forget, hinv, fun t' x hx => ?_, fun t₁ t₂ x₁ x₂ hne h₁ h₂ => ?_⟩
      · obtain ⟨ht, hx⟩ := live_of_put_none hx
        exact (h.replay _ _ hx).transfer hsound.equivalence (hsound.disciplined _)
          (h.agrees hsound hl ht hx)
      · exact h.compatible _ _ _ _ hne (live_of_put_none h₁).2 (live_of_put_none h₂).2
  | rollback =>
      refine ⟨h.serial, h.inv, fun t' x hx => ?_, fun t₁ t₂ x₁ x₂ hne h₁ h₂ => ?_⟩
      · exact h.replay _ _ (live_of_put_none hx).2
      · exact h.compatible _ _ _ _ hne (live_of_put_none h₁).2 (live_of_put_none h₂).2

theorem Reachable.sysInv (hsound : Sound prog agree I E) (h0 : I s₀) {S : Sys σ κ ε α Op T}
    (h : Reachable prog s₀ S) : SysInv prog agree s₀ I S := by
  induction h with
  | init => exact .init h0
  | step _ hstep ih => exact ih.step hsound hstep

/-- **The rule of commits.** A commit does to the committed rows what its program does to them when
it runs alone. -/
theorem Commit.does (hsound : Sound prog agree I E) (h0 : I s₀) {S S' : Sys σ κ ε α Op T}
    (h : Reachable prog s₀ S) {t : T} {op : Op} {a : α} (hc : Commit t op a S S')
    (P : α → σ → σ → Prop)
    (hP : ∀ s, I s → wpHeld agree (prog op) [] s fun a _ s' => P a s s') : P a S.db S'.db := by
  have hinv := h.sysInv hsound h0
  obtain ⟨hl⟩ := hc
  exact (hinv.replay _ _ hl).wpHeld (hP _ hinv.inv)

/-- What a statement does to the committed rows: nothing, or what the program that commits does to
them when it runs alone. -/
theorem Reachable.commits (hsound : Sound prog agree I E) (h0 : I s₀) {S S' : Sys σ κ ε α Op T}
    (h : Reachable prog s₀ S) (hstep : Step prog S S') (P : Op → α → σ → σ → Prop)
    (hP : ∀ op s, I s → wpHeld agree (prog op) [] s fun a _ s' => P op a s s') :
    (S'.db = S.db ∧ S'.log = S.log) ∨
      ∃ op a, P op a S.db S'.db ∧ S'.log = S.log ++ [(op, a)] := by
  rcases hstep.commit_or_quiet with hquiet | ⟨t, op, a, hc⟩
  · exact .inl hquiet
  · exact .inr ⟨op, a, hc.does hsound h0 h (P op) (hP op), hc.log⟩

/-- **Main theorem.** Whatever the interleaving, the committed rows are those of a serial run of the
committed transactions, in the order of their commits. -/
theorem Reachable.serial (hsound : Sound prog agree I E) (h0 : I s₀) {S : Sys σ κ ε α Op T}
    (h : Reachable prog s₀ S) : Serial prog s₀ S.log S.db :=
  (h.sysInv hsound h0).serial

/-- An error that no run alone ends in is one that no interleaving ends in. -/
theorem Reachable.error (hsound : Sound prog agree I E) (h0 : I s₀) {S : Sys σ κ ε α Op T}
    (h : Reachable prog s₀ S) {t : T} {x : Live σ κ ε α Op} {e : ε} (hx : S.live t = some x)
    (hfail : x.prog = .fail e) : E e := by
  have hinv := h.sysInv hsound h0
  have := (hinv.replay t x hx).wp (hsound.commits x.op _ hinv.inv)
  rwa [hfail] at this

/-- What a program says of the errors it ends in when it runs alone it says of the rows that are
committed by then. -/
theorem Reachable.refuses (hsound : Sound prog agree I E) (h0 : I s₀) {S : Sys σ κ ε α Op T}
    (h : Reachable prog s₀ S) (P : Op → ε → σ → Prop)
    (hP : ∀ op s, I s → wp (prog op) [] s (fun e => P op e s) fun _ _ _ => True) {t : T}
    {x : Live σ κ ε α Op} {e : ε} (hx : S.live t = some x) (hfail : x.prog = .fail e) :
    P x.op e S.db := by
  have hinv := h.sysInv hsound h0
  have := (hinv.replay t x hx).wp (hP x.op _ hinv.inv)
  rwa [hfail] at this

end

/-! ## Serial runs are reachable -/

section
variable [DecidableEq T] {prog : Op → Tx σ κ ε α} {s₀ : σ}

/-- With no one else connected, a transaction runs to its commit. -/
theorem Reachable.run {db : σ} {log : List (Op × α)} {t : T} {op : Op} {p : Tx σ κ ε α}
    {u : σ → σ} {H : Held κ} {a : α} {s' : σ}
    (h : Reachable prog s₀ ((Sys.mk db (fun _ => none) log).put t (some ⟨op, p, u, H⟩)))
    (hr : p.run (u db) = .ok (a, s')) :
    Reachable prog s₀ (Sys.mk (T := T) s' (fun _ => none) (log ++ [(op, a)])) := by
  induction p generalizing u H with
  | done b =>
      obtain ⟨rfl, rfl⟩ : b = a ∧ u db = s' := by simpa [Tx.run] using hr
      have hc := h.step (.commit (Sys.put_live_self ..))
      have hnone : Function.update (fun _ : T => (none : Option (Live σ κ ε α Op))) t none =
          fun _ => none := Function.update_eq_self t _
      simpa [Sys.put, hnone] using hc
  | fail e => simp [Tx.run] at hr
  | lock ℓ m next ih =>
      refine ih (u := u) (H := (ℓ, m) :: H) ?_ hr
      have hg : Grantable ((Sys.mk db (fun _ => none) log).put t
          (some ⟨op, .lock ℓ m next, u, H⟩)) t ℓ m := by
        intro t' x hne hx
        rw [Sys.put_live_ne _ _ _ hne] at hx
        simp at hx
      simpa using h.step (.lock (Sys.put_live_self ..) hg)
  | read q next ih =>
      exact ih _ (by simpa using h.step (.read (Sys.put_live_self ..))) hr
  | peek q next ih =>
      exact ih _ (by simpa using h.step (.peek (Sys.put_live_self ..))) hr
  | write w next ih =>
      exact ih (u := w ∘ u) (by simpa using h.step (.write (Sys.put_live_self ..))) hr

/-- What the programs compute one after the other, an interleaved system can reach. -/
theorem reachable_of_runAll [Inhabited T] {ops : List Op} {log log' : List (Op × α)} {s s' : σ}
    (h : Reachable (T := T) prog s₀ ⟨s, fun _ => none, log⟩)
    (hr : runAll prog ops s = .ok (log', s')) :
    Reachable (T := T) prog s₀ ⟨s', fun _ => none, log ++ log'⟩ := by
  induction ops generalizing log log' s with
  | nil =>
      obtain ⟨rfl, rfl⟩ : [] = log' ∧ s = s' := by simpa [runAll] using hr
      simpa using h
  | cons op ops ih =>
      simp only [runAll] at hr
      split at hr
      · simp at hr
      · rename_i a s₁ hop
        split at hr
        · simp at hr
        · rename_i l s₂ hops
          obtain ⟨rfl, rfl⟩ : (op, a) :: l = log' ∧ s₂ = s' := by simpa using hr
          have := ih ((h.step (.start (t := default) op rfl)).run hop) hops
          simpa using this

/-- The rows after the operations; the rows before them when one of them fails. -/
def rowsAfter (prog : Op → Tx σ κ ε α) (ops : List Op) (s : σ) : σ :=
  match runAll prog ops s with
  | .ok r    => r.2
  | .error _ => s

/-- The log of a serial run names the operations in the order in which they were run. -/
theorem ops_of_runAll {ops : List Op} {log : List (Op × α)} {s s' : σ}
    (hr : runAll prog ops s = .ok (log, s')) : log.map Prod.fst = ops := by
  induction ops generalizing log s with
  | nil =>
      obtain ⟨rfl, rfl⟩ : [] = log ∧ s = s' := by simpa [runAll] using hr
      rfl
  | cons op ops ih =>
      simp only [runAll] at hr
      split at hr
      · cases hr
      · rename_i a s₁ hop
        split at hr
        · cases hr
        · rename_i l s₂ hops
          obtain ⟨rfl, rfl⟩ : (op, a) :: l = log ∧ s₂ = s' := by simpa using hr
          rw [List.map_cons, ih hops]

/-- A run that can be evaluated leads to a reachable state, with the transactions committed one
after the other. -/
theorem reachable_logged [Inhabited T] {ops : List Op} (h : (runAll prog ops s₀).isOk = true) :
    ∃ S : Sys σ κ ε α Op T, Reachable prog s₀ S ∧ S.db = rowsAfter prog ops s₀ ∧
      S.log.map Prod.fst = ops := by
  cases hr : runAll prog ops s₀ with
  | error e =>
      rw [hr] at h
      cases h
  | ok r =>
      obtain ⟨log, s⟩ := r
      refine ⟨_, reachable_of_runAll .init hr, ?_, ?_⟩
      · rw [rowsAfter, hr]
      · exact ops_of_runAll hr

/-- The same, where the answers are evaluated too. -/
theorem reachable_answered [Inhabited T] {ops : List Op} {log : List (Op × α)} {s : σ}
    (hr : runAll prog ops s₀ = .ok (log, s)) :
    ∃ S : Sys σ κ ε α Op T, Reachable prog s₀ S ∧ S.db = s ∧ S.log = log :=
  ⟨_, reachable_of_runAll .init hr, rfl, List.nil_append _⟩

theorem reachable_rowsAfter [Inhabited T] {ops : List Op}
    (h : (runAll prog ops s₀).isOk = true) :
    ∃ S : Sys σ κ ε α Op T, Reachable prog s₀ S ∧ S.db = rowsAfter prog ops s₀ := by
  obtain ⟨S, hreach, hdb, -⟩ := reachable_logged (T := T) h
  exact ⟨S, hreach, hdb⟩

end

end Txn

import Mathlib.Logic.Basic
import Mathlib.Data.List.Basic
import Mathlib.Tactic.Cases

/-! # Transaction programs over lockable rows

A transaction at READ COMMITTED is a sequence of statements. Each of them takes a row lock
(`SELECT … FOR SHARE`, `SELECT … FOR UPDATE`, or the lock an `UPDATE` or `INSERT` takes by itself),
evaluates a query, or changes rows. A query sees the committed rows together with the transaction's
own writes. `Tx` is the syntax of such programs as a free monad, so that a service reads as the
`do` block its source is.

Two constructors stand for a plain `SELECT`. They run alike; they differ in what a proof may assume.
`read` is a query whose rows are protected by the locks held, so that it would give the same answer
at commit time (`disc` checks this, see `Txn/Interleaving`). `peek` is a query nothing protects: by
the time of the commit its answer may be stale.

The module names nothing of a particular database: the state `σ`, the lock keys `κ`, the errors `ε`
are parameters. -/

namespace Txn

/-- The two strengths of a row lock that the services use. -/
inductive Mode where
  /-- `FOR SHARE` -/
  | share
  /-- `FOR UPDATE`, and what `UPDATE`/`INSERT` take on the row they write -/
  | update
  deriving DecidableEq, Repr

/-- Two transactions may not hold locks of these strengths on one row at a time. -/
def Mode.conflicts : Mode → Mode → Bool
  | .share, .share => false
  | _, _           => true

theorem Mode.conflicts_comm (m n : Mode) : m.conflicts n = n.conflicts m := by
  cases m <;> cases n <;> rfl

@[simp] theorem Mode.update_conflicts (m : Mode) : Mode.update.conflicts m = true := by
  cases m <;> rfl

@[simp] theorem Mode.conflicts_update (m : Mode) : m.conflicts .update = true := by
  cases m <;> rfl

@[simp] theorem Mode.share_conflicts_share : Mode.share.conflicts .share = false := rfl

/-- The locks a transaction holds, newest first. Nothing is released before its end. -/
abbrev Held (κ : Type) := List (κ × Mode)

/-- The locks held once those on `ks` are taken. -/
def lockAll {β κ : Type} (m : Mode) (ℓ : β → κ) : List β → Held κ → Held κ
  | [], H      => H
  | k :: ks, H => lockAll m ℓ ks ((ℓ k, m) :: H)

theorem mem_lockAll {β κ : Type} {m : Mode} {ℓ : β → κ} {ks : List β} {H : Held κ}
    {h : κ × Mode} : h ∈ lockAll m ℓ ks H ↔ h ∈ H ∨ ∃ k ∈ ks, h = (ℓ k, m) := by
  induction ks generalizing H with
  | nil => simp [lockAll]
  | cons k ks ih =>
      rw [lockAll, ih, List.mem_cons]
      simp only [List.mem_cons, exists_eq_or_imp]
      rw [or_comm (a := h = (ℓ k, m)), or_assoc]

/-- What is left to run of a transaction. -/
inductive Tx (σ κ ε α : Type) : Type 1 where
  /-- `COMMIT`, answering `a` -/
  | done (a : α)
  /-- an error: `ROLLBACK` -/
  | fail (e : ε)
  | lock (ℓ : κ) (m : Mode) (next : Tx σ κ ε α)
  | read {β : Type} (q : σ → β) (next : β → Tx σ κ ε α)
  | peek {β : Type} (q : σ → β) (next : β → Tx σ κ ε α)
  | write (w : σ → σ) (next : Tx σ κ ε α)

variable {σ κ ε α β γ : Type}

namespace Tx

def bind : Tx σ κ ε α → (α → Tx σ κ ε β) → Tx σ κ ε β
  | done a, f        => f a
  | fail e, _        => fail e
  | lock ℓ m next, f => lock ℓ m (next.bind f)
  | read q next, f   => read q fun b => (next b).bind f
  | peek q next, f   => peek q fun b => (next b).bind f
  | write w next, f  => write w (next.bind f)

instance : Monad (Tx σ κ ε) where
  pure := done
  bind := bind

@[simp] theorem pure_eq (a : α) : (pure a : Tx σ κ ε α) = done a := rfl
@[simp] theorem bind_done (a : α) (f : α → Tx σ κ ε β) : (done a >>= f) = f a := rfl
@[simp] theorem bind_fail (e : ε) (f : α → Tx σ κ ε β) : (fail e >>= f) = fail e := rfl
@[simp] theorem bind_lock (ℓ : κ) (m : Mode) (p : Tx σ κ ε α) (f : α → Tx σ κ ε β) :
    (lock ℓ m p >>= f) = lock ℓ m (p >>= f) := rfl
@[simp] theorem bind_read {δ : Type} (q : σ → δ) (p : δ → Tx σ κ ε α) (f : α → Tx σ κ ε β) :
    (read q p >>= f) = read q fun b => p b >>= f := rfl
@[simp] theorem bind_peek {δ : Type} (q : σ → δ) (p : δ → Tx σ κ ε α) (f : α → Tx σ κ ε β) :
    (peek q p >>= f) = peek q fun b => p b >>= f := rfl
@[simp] theorem bind_write (w : σ → σ) (p : Tx σ κ ε α) (f : α → Tx σ κ ε β) :
    (write w p >>= f) = write w (p >>= f) := rfl

/-- Takes the lock `ℓ`, waiting for it. -/
def acquire (ℓ : κ) (m : Mode) : Tx σ κ ε Unit := lock ℓ m (done ())

/-- A query the locks held protect. -/
def query (q : σ → α) : Tx σ κ ε α := read q done

/-- A query nothing protects. -/
def glance (q : σ → α) : Tx σ κ ε α := peek q done

/-- Changes rows. -/
def update (w : σ → σ) : Tx σ κ ε Unit := write w (done ())

/-- Runs `f` on every element, in order. -/
def forEach : List β → (β → Tx σ κ ε Unit) → Tx σ κ ε Unit
  | [], _      => done ()
  | b :: bs, f => f b >>= fun _ => forEach bs f

/-- Runs `f` on every element, in order, and collects the answers. -/
def collect : List β → (β → Tx σ κ ε α) → Tx σ κ ε (List α)
  | [], _      => done []
  | b :: bs, f => f b >>= fun a => collect bs f >>= fun as => done (a :: as)

/-- Goes on when `c` holds and ends in the error `e` when it does not. -/
def require (c : Prop) [Decidable c] (e : ε) : Tx σ κ ε Unit := if c then done () else fail e

/-- Runs `p` when `c` holds. -/
def whenever (c : Prop) [Decidable c] (p : Tx σ κ ε Unit) : Tx σ κ ε Unit := if c then p else done ()

/-- The row that was found, or the error `e`. -/
def orFail (o : Option α) (e : ε) : Tx σ κ ε α :=
  match o with
  | some a => done a
  | none   => fail e

/-- A computation without statements that may refuse. -/
def ofExcept : Except ε α → Tx σ κ ε α
  | .ok a    => done a
  | .error e => fail e

/-! ### Statements -/

/-- `SELECT … WHERE key FOR UPDATE` (or `FOR SHARE`): the row as it stands once the lock is granted.
A row another transaction is still inserting is waited for; the database would skip it, and the
`none` it answers there is an error or a rollback in every program that locks a row by its key. -/
def selectFor (m : Mode) (ℓ : κ) (q : σ → α) : Tx σ κ ε α := do
  acquire ℓ m
  query q

/-- `SELECT … WHERE key = ANY (ks) ORDER BY … FOR UPDATE`: the rows one after the other, in the
order of `ks`. -/
def selectAll (m : Mode) (ℓ : β → κ) (q : β → σ → α) (ks : List β) : Tx σ κ ε (List α) :=
  collect ks fun k => selectFor m (ℓ k) (q k)

/-- `UPDATE … WHERE key RETURNING …`: what `q` answers once the row is changed. -/
def updateReturning (ℓ : κ) (w : σ → σ) (q : σ → α) : Tx σ κ ε α := do
  acquire ℓ .update
  update w
  query q

/-- `INSERT`, where `taken` says that the key is there already: a unique violation is the error
`e`. -/
def insertRow (ℓ : κ) (taken : σ → Bool) (e : ε) (w : σ → σ) : Tx σ κ ε Unit := do
  acquire ℓ .update
  let dup ← query taken
  if dup then fail e
  update w

/-- Runs the program alone from `s`, every statement on the state the previous one left. -/
def run : Tx σ κ ε α → σ → Except ε (α × σ)
  | done a, s        => .ok (a, s)
  | fail e, _        => .error e
  | lock _ _ next, s => next.run s
  | read q next, s   => (next (q s)).run s
  | peek q next, s   => (next (q s)).run s
  | write w next, s  => next.run (w s)

theorem run_bind (p : Tx σ κ ε β) (f : β → Tx σ κ ε α) (s : σ) :
    (p >>= f).run s = p.run s >>= fun r => (f r.1).run r.2 := by
  induction p generalizing s with
  | done b => rfl
  | fail e => rfl
  | lock ℓ m next ih => exact ih s
  | read q next ih => exact ih _ s
  | peek q next ih => exact ih _ s
  | write w next ih => exact ih (w s)

/-- Alone, `selectAll` answers the rows as they stand. -/
theorem run_selectAll (m : Mode) (ℓ : β → κ) (q : β → σ → α) (ks : List β) (s : σ) :
    (selectAll (ε := ε) m ℓ q ks).run s = .ok (ks.map fun k => q k s, s) := by
  induction ks with
  | nil => rfl
  | cons k ks ih =>
      show (selectAll m ℓ q ks >>= fun as => done (q k s :: as)).run s = _
      rw [run_bind, ih]
      rfl

end Tx

/-! ## Preconditions

`wp p H s E Q`: whenever the transaction, holding `H` and seeing `s`, runs `p` alone, then an error
`e` it ends in satisfies `E e`, and an answer `a` with the locks `H'` and the state `s'` it leaves
satisfies `Q a H' s'`. What a `peek` answers is not taken from `s`: it may be anything the query
answers in some state. -/

/-- The weakest precondition of `p`. -/
def wp : Tx σ κ ε α → Held κ → σ → (ε → Prop) → (α → Held κ → σ → Prop) → Prop
  | .done a, H, s, _, Q        => Q a H s
  | .fail e, _, _, E, _        => E e
  | .lock ℓ m next, H, s, E, Q => wp next ((ℓ, m) :: H) s E Q
  | .read q next, H, s, E, Q   => wp (next (q s)) H s E Q
  | .peek q next, H, s, E, Q   => ∀ s₀, wp (next (q s₀)) H s E Q
  | .write w next, H, s, E, Q  => wp next H (w s) E Q

section
variable {H : Held κ} {s : σ} {E E' : ε → Prop} {Q Q' : α → Held κ → σ → Prop}

@[simp] theorem wp_done (a : α) : wp (.done a) H s E Q ↔ Q a H s := Iff.rfl
@[simp] theorem wp_fail (e : ε) : wp (.fail e) H s E Q ↔ E e := Iff.rfl
@[simp] theorem wp_lock (ℓ : κ) (m : Mode) (p : Tx σ κ ε α) :
    wp (.lock ℓ m p) H s E Q ↔ wp p ((ℓ, m) :: H) s E Q := Iff.rfl
@[simp] theorem wp_read (q : σ → β) (p : β → Tx σ κ ε α) :
    wp (.read q p) H s E Q ↔ wp (p (q s)) H s E Q := Iff.rfl
@[simp] theorem wp_peek (q : σ → β) (p : β → Tx σ κ ε α) :
    wp (.peek q p) H s E Q ↔ ∀ s₀, wp (p (q s₀)) H s E Q := Iff.rfl
@[simp] theorem wp_write (w : σ → σ) (p : Tx σ κ ε α) :
    wp (.write w p) H s E Q ↔ wp p H (w s) E Q := Iff.rfl

/-- The rule of consequence. -/
theorem wp_mono {p : Tx σ κ ε α} (h : wp p H s E Q) (hE : ∀ e, E e → E' e)
    (hQ : ∀ a H' s', Q a H' s' → Q' a H' s') : wp p H s E' Q' := by
  induction p generalizing H s with
  | done a => exact hQ _ _ _ h
  | fail e => exact hE _ h
  | lock ℓ m next ih => exact ih h
  | read q next ih => exact ih _ h
  | peek q next ih => exact fun s₀ => ih _ (h s₀)
  | write w next ih => exact ih h

/-- Two preconditions hold together. -/
theorem wp_and {p : Tx σ κ ε α} (h : wp p H s E Q) (h' : wp p H s E' Q') :
    wp p H s (fun e => E e ∧ E' e) fun a H' s' => Q a H' s' ∧ Q' a H' s' := by
  induction p generalizing H s with
  | done a => exact ⟨h, h'⟩
  | fail e => exact ⟨h, h'⟩
  | lock ℓ m next ih => exact ih h h'
  | read q next ih => exact ih _ h h'
  | peek q next ih => exact fun s₀ => ih _ (h s₀) (h' s₀)
  | write w next ih => exact ih h h'

/-- Sequencing: the first program establishes what the second needs. -/
@[simp] theorem wp_bind (p : Tx σ κ ε β) (f : β → Tx σ κ ε α) :
    wp (p >>= f) H s E Q ↔ wp p H s E (fun b H' s' => wp (f b) H' s' E Q) := by
  induction p generalizing H s with
  | done a => exact Iff.rfl
  | fail e => exact Iff.rfl
  | lock ℓ m next ih => exact ih
  | read q next ih => exact ih _
  | peek q next ih => exact forall_congr' fun s₀ => ih _
  | write w next ih => exact ih

theorem wp_seq {p : Tx σ κ ε β} {f : β → Tx σ κ ε α} {R : β → Held κ → σ → Prop}
    (hp : wp p H s E R) (hf : ∀ b H' s', R b H' s' → wp (f b) H' s' E Q) :
    wp (p >>= f) H s E Q :=
  (wp_bind p f).mpr (wp_mono hp (fun _ h => h) hf)

@[simp] theorem wp_acquire (ℓ : κ) (m : Mode) {Q : Unit → Held κ → σ → Prop} :
    wp (Tx.acquire ℓ m) H s E Q ↔ Q () ((ℓ, m) :: H) s := Iff.rfl
@[simp] theorem wp_query (q : σ → α) : wp (Tx.query q) H s E Q ↔ Q (q s) H s := Iff.rfl
@[simp] theorem wp_glance (q : σ → α) : wp (Tx.glance q) H s E Q ↔ ∀ s₀, Q (q s₀) H s := Iff.rfl
@[simp] theorem wp_update (w : σ → σ) {Q : Unit → Held κ → σ → Prop} :
    wp (Tx.update w) H s E Q ↔ Q () H (w s) := Iff.rfl

theorem wp_require {c : Prop} [Decidable c] {e : ε} {Q : Unit → Held κ → σ → Prop}
    (hc : c → Q () H s) (he : ¬c → E e) : wp (Tx.require c e) H s E Q := by
  rw [Tx.require]
  split
  · exact hc ‹_›
  · exact he ‹_›

theorem wp_orFail {o : Option α} {e : ε} (hsome : ∀ a, o = some a → Q a H s)
    (hnone : o = none → E e) : wp (Tx.orFail o e) H s E Q := by
  cases o with
  | some a => exact hsome a rfl
  | none => exact hnone rfl

theorem wp_ofExcept {r : Except ε α} (hok : ∀ a, r = .ok a → Q a H s)
    (herr : ∀ e, r = .error e → E e) : wp (Tx.ofExcept r) H s E Q := by
  cases r with
  | ok a => exact hok a rfl
  | error e => exact herr e rfl

/-- Locks only add up. -/
theorem wp_grow {p : Tx σ κ ε α} (h : wp p H s E Q) :
    wp p H s E fun a H' s' => Q a H' s' ∧ H ⊆ H' := by
  suffices ∀ H₀ : Held κ, H₀ ⊆ H → wp p H s E fun a H' s' => Q a H' s' ∧ H₀ ⊆ H' from
    this H (List.Subset.refl H)
  induction p generalizing H s with
  | done a => exact fun H₀ hsub => ⟨h, hsub⟩
  | fail e => exact fun H₀ hsub => h
  | lock ℓ m next ih => exact fun H₀ hsub => ih h H₀ (List.Subset.trans hsub (List.subset_cons_self _ _))
  | read q next ih => exact fun H₀ hsub => ih _ h H₀ hsub
  | peek q next ih => exact fun H₀ hsub s₀ => ih _ (h s₀) H₀ hsub
  | write w next ih => exact fun H₀ hsub => ih h H₀ hsub

/-- The loop rule: `I` holds before the first element and each turn moves it past one element. -/
theorem wp_forEach {bs : List β} {f : β → Tx σ κ ε Unit} {Q : Unit → Held κ → σ → Prop}
    (I : List β → Held κ → σ → Prop) (h0 : I bs H s)
    (hstep : ∀ b rest H s, I (b :: rest) H s → wp (f b) H s E (fun _ H' s' => I rest H' s'))
    (hQ : ∀ H' s', I [] H' s' → Q () H' s') : wp (Tx.forEach bs f) H s E Q := by
  induction bs generalizing H s with
  | nil => exact hQ _ _ h0
  | cons b bs ih => exact wp_seq (hstep b bs H s h0) fun _ H' s' hI => ih hI

/-- The loop rule of `collect`: `I` speaks of the answers so far and of the elements to come. -/
theorem wp_collect {bs : List β} {f : β → Tx σ κ ε α} {Q : List α → Held κ → σ → Prop}
    (I : List α → List β → Held κ → σ → Prop) (h0 : I [] bs H s)
    (hstep : ∀ as b rest H s, I as (b :: rest) H s →
      wp (f b) H s E (fun a H' s' => I (as ++ [a]) rest H' s'))
    (hQ : ∀ as H' s', I as [] H' s' → Q as H' s') : wp (Tx.collect bs f) H s E Q := by
  suffices ∀ as, I as bs H s → (∀ as' H' s', I (as ++ as') [] H' s' → Q as' H' s') →
      wp (Tx.collect bs f) H s E Q from this [] h0 fun as' H' s' h => hQ as' H' s' h
  clear h0 hQ
  induction bs generalizing H s Q with
  | nil =>
      intro as h hQ
      exact hQ [] H s (by simpa using h)
  | cons b bs ih =>
      intro as h hQ
      refine wp_seq (hstep as b bs H s h) fun a H' s' hI => ?_
      refine (wp_bind _ _).mpr (ih (as ++ [a]) hI fun as' H'' s'' h'' => ?_)
      exact hQ (a :: as') H'' s'' (by simpa using h'')

@[simp] theorem wp_selectFor (m : Mode) (ℓ : κ) (q : σ → α) :
    wp (Tx.selectFor m ℓ q) H s E Q ↔ Q (q s) ((ℓ, m) :: H) s := Iff.rfl

@[simp] theorem wp_updateReturning (ℓ : κ) (w : σ → σ) (q : σ → α) :
    wp (Tx.updateReturning ℓ w q) H s E Q ↔ Q (q (w s)) ((ℓ, .update) :: H) (w s) := Iff.rfl

theorem wp_insertRow {ℓ : κ} {taken : σ → Bool} {e : ε} {w : σ → σ}
    {Q : Unit → Held κ → σ → Prop} :
    wp (Tx.insertRow ℓ taken e w) H s E Q ↔
      if taken s then E e else Q () ((ℓ, .update) :: H) (w s) := by
  show wp (if taken s then Tx.fail e else Tx.update w) ((ℓ, .update) :: H) s E Q ↔ _
  split <;> exact Iff.rfl

@[simp] theorem wp_selectAll (m : Mode) (ℓ : β → κ) (q : β → σ → α) (ks : List β)
    {Q : List α → Held κ → σ → Prop} :
    wp (Tx.selectAll m ℓ q ks) H s E Q ↔ Q (ks.map fun k => q k s) (lockAll m ℓ ks H) s := by
  induction ks generalizing H Q with
  | nil => exact Iff.rfl
  | cons k ks ih =>
      show wp (Tx.selectAll m ℓ q ks >>= fun as => Tx.done (q k s :: as)) ((ℓ k, m) :: H) s E Q ↔ _
      rw [wp_bind, ih]
      exact Iff.rfl

/-! ### Stepping through a program

One rule for each kind of first statement: what the rest of the program has to establish. -/

section
variable {f : β → Tx σ κ ε α}

theorem wp_bind_glance {q : σ → β} (h : ∀ s₀, wp (f (q s₀)) H s E Q) :
    wp (Tx.glance q >>= f) H s E Q := h

theorem wp_bind_query {q : σ → β} (h : wp (f (q s)) H s E Q) : wp (Tx.query q >>= f) H s E Q := h

theorem wp_bind_selectFor {m : Mode} {ℓ : κ} {q : σ → β} (h : wp (f (q s)) ((ℓ, m) :: H) s E Q) :
    wp (Tx.selectFor m ℓ q >>= f) H s E Q := h

theorem wp_bind_updateReturning {ℓ : κ} {w : σ → σ} {q : σ → β}
    (h : wp (f (q (w s))) ((ℓ, .update) :: H) (w s) E Q) :
    wp (Tx.updateReturning ℓ w q >>= f) H s E Q := h

theorem wp_bind_selectAll {δ : Type} {m : Mode} {ℓ : δ → κ} {q : δ → σ → β} {ks : List δ}
    {f : List β → Tx σ κ ε α} (h : wp (f (ks.map fun k => q k s)) (lockAll m ℓ ks H) s E Q) :
    wp (Tx.selectAll m ℓ q ks >>= f) H s E Q :=
  (wp_bind _ _).mpr ((wp_selectAll _ _ _ _).mpr h)

theorem wp_bind_orFail {o : Option β} {e : ε} (hsome : ∀ b, o = some b → wp (f b) H s E Q)
    (hnone : o = none → E e) : wp (Tx.orFail o e >>= f) H s E Q :=
  (wp_bind _ _).mpr (wp_orFail hsome hnone)

theorem wp_bind_ofExcept {r : Except ε β} (hok : ∀ b, r = .ok b → wp (f b) H s E Q)
    (herr : ∀ e, r = .error e → E e) : wp (Tx.ofExcept r >>= f) H s E Q :=
  (wp_bind _ _).mpr (wp_ofExcept hok herr)

end

section
variable {f : Unit → Tx σ κ ε α}

theorem wp_bind_update {w : σ → σ} (h : wp (f ()) H (w s) E Q) :
    wp (Tx.update w >>= f) H s E Q := h

theorem wp_bind_require {c : Prop} [Decidable c] {e : ε} (hc : c → wp (f ()) H s E Q)
    (he : ¬c → E e) : wp (Tx.require c e >>= f) H s E Q :=
  (wp_bind _ _).mpr (wp_require hc he)

theorem wp_bind_whenever {c : Prop} [Decidable c] {p : Tx σ κ ε Unit}
    (hc : c → wp p H s E fun _ H' s' => wp (f ()) H' s' E Q)
    (hnot : ¬c → wp (f ()) H s E Q) : wp (Tx.whenever c p >>= f) H s E Q := by
  rw [Tx.whenever]
  split
  · exact (wp_bind _ _).mpr (hc ‹_›)
  · exact hnot ‹_›

theorem wp_bind_insertRow {ℓ : κ} {taken : σ → Bool} {e : ε} {w : σ → σ}
    (hfree : taken s = false → wp (f ()) ((ℓ, .update) :: H) (w s) E Q)
    (htaken : taken s = true → E e) : wp (Tx.insertRow ℓ taken e w >>= f) H s E Q := by
  refine (wp_bind _ _).mpr (wp_insertRow.mpr ?_)
  split
  · exact htaken ‹_›
  · exact hfree (by simpa using ‹¬taken s = true›)

end

/-- A run alone is one of the runs the precondition speaks of. -/
theorem wp_run {p : Tx σ κ ε α} {a : α} {s' : σ} (h : wp p H s E Q) (hr : p.run s = .ok (a, s')) :
    ∃ H', Q a H' s' := by
  induction p generalizing H s with
  | done b =>
      obtain ⟨rfl, rfl⟩ : b = a ∧ s = s' := by simpa [Tx.run] using hr
      exact ⟨H, h⟩
  | fail e => simp [Tx.run] at hr
  | lock ℓ m next ih => exact ih h hr
  | read q next ih => exact ih _ h hr
  | peek q next ih => exact ih _ (h s) hr
  | write w next ih => exact ih h hr

end

end Txn

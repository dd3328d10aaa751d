import Mathlib.Data.List.Basic
import Mathlib.Tactic.Cases

/-! # Calls that await

One thread runs any number of calls. A call keeps the thread until it awaits an operation on the
shared state; there any other call may go on. A call whose author forgot this reads a state that
another call is about to change.

`Task` is the syntax of such calls. A run is a list of moves: a call starts, or one of the calls in
progress does its next operation. Where no call starts while another is in progress, a call may be
reasoned about by itself (`Sys.alone_run`). -/

namespace Awaits

/-- A call: an operation on the state that answers what the state was, a note for the log, the end. -/
inductive Task (σ ε α : Type) where
  | done (a : α)
  | act (f : σ → σ) (next : σ → Task σ ε α)
  | note (e : ε) (next : Task σ ε α)

variable {σ ε α β γ κ : Type}

namespace Task

def bind : Task σ ε α → (α → Task σ ε β) → Task σ ε β
  | done a, g     => g a
  | act f next, g => act f fun s => (next s).bind g
  | note e next, g => note e (next.bind g)

instance : Monad (Task σ ε) where
  pure := done
  bind := bind

/-- Awaits a look at the state. -/
def get (f : σ → α) : Task σ ε α := act id fun s => done (f s)

/-- Awaits a change of the state. -/
def set (f : σ → σ) : Task σ ε Unit := act f fun _ => done ()

def log (e : ε) : Task σ ε Unit := note e (done ())

end Task

/-- What the log keeps: a call's notes, and its end. -/
inductive Entry (ε κ α : Type) where
  | note (e : ε)
  | finished (c : κ) (a : α)
  deriving DecidableEq, Repr

/-- The log's latest entry comes first. -/
abbrev Log (ε κ α : Type) := List (Entry ε κ α)

structure Sys (σ ε κ α : Type) where
  state : σ
  flight : List (κ × Task σ ε α)
  log : Log ε κ α

def Sys.init (s : σ) : Sys σ ε κ α := ⟨s, [], []⟩

inductive Move (κ : Type) where
  | start (c : κ)
  | advance (i : Nat)
  deriving DecidableEq, Repr

section
variable (prog : κ → Task σ ε α)

/-- The next operation of a call in progress, which has the place `i`. -/
def Sys.advance (S : Sys σ ε κ α) (i : Nat) (c : κ) : Task σ ε α → Sys σ ε κ α
  | .done a      => { S with flight := S.flight.eraseIdx i, log := .finished c a :: S.log }
  | .act f next  => { S with state := f S.state, flight := S.flight.set i (c, next S.state) }
  | .note e next => { S with flight := S.flight.set i (c, next), log := .note e :: S.log }

def Sys.move (S : Sys σ ε κ α) : Move κ → Sys σ ε κ α
  | .start c   => { S with flight := S.flight ++ [(c, prog c)] }
  | .advance i =>
      match S.flight[i]? with
      | none        => S
      | some (c, t) => S.advance i c t

def Sys.run (S : Sys σ ε κ α) (moves : List (Move κ)) : Sys σ ε κ α := moves.foldl (Sys.move prog) S

/-- No call starts while another is in progress. -/
def Alone : Sys σ ε κ α → List (Move κ) → Prop
  | _, []               => True
  | S, .start c :: ms   => S.flight = [] ∧ Alone (S.move prog (.start c)) ms
  | S, .advance i :: ms => Alone (S.move prog (.advance i)) ms

instance instDecidableAlone : ∀ (S : Sys σ ε κ α) (ms : List (Move κ)), Decidable (Alone prog S ms)
  | _, []               => .isTrue trivial
  | S, .start c :: ms   =>
      have := instDecidableAlone (S.move prog (.start c)) ms
      inferInstanceAs (Decidable (S.flight = [] ∧ Alone prog (S.move prog (.start c)) ms))
  | S, .advance i :: ms => instDecidableAlone (S.move prog (.advance i)) ms

end

/-! ## One call by itself -/

/-- The task, let run from state `s` and log `L`, keeps `I` of the log and ends in `Q`. -/
def Task.wp (I : Log ε κ γ → Prop) : Task σ ε α → σ → Log ε κ γ → (α → σ → Log ε κ γ → Prop) → Prop
  | .done a, s, L, Q      => Q a s L
  | .act f next, s, L, Q  => (next s).wp I (f s) L Q
  | .note e next, s, L, Q => I (.note e :: L) ∧ next.wp I s (.note e :: L) Q

section
variable {I : Log ε κ γ → Prop} {s : σ} {L : Log ε κ γ}

@[simp] theorem Task.wp_pure {a : α} {Q : α → σ → Log ε κ γ → Prop} :
    (pure a : Task σ ε α).wp I s L Q = Q a s L := rfl

@[simp] theorem Task.wp_get {f : σ → α} {Q : α → σ → Log ε κ γ → Prop} :
    (get f : Task σ ε α).wp I s L Q = Q (f s) s L := rfl

@[simp] theorem Task.wp_set {f : σ → σ} {Q : Unit → σ → Log ε κ γ → Prop} :
    (set f : Task σ ε Unit).wp I s L Q = Q () (f s) L := rfl

@[simp] theorem Task.wp_log {e : ε} {Q : Unit → σ → Log ε κ γ → Prop} :
    (log e : Task σ ε Unit).wp I s L Q = (I (.note e :: L) ∧ Q () s (.note e :: L)) := rfl

@[simp] theorem Task.wp_bind {t : Task σ ε α} {g : α → Task σ ε β} {Q : β → σ → Log ε κ γ → Prop} :
    (t >>= g).wp I s L Q ↔ t.wp I s L fun a s' L' => (g a).wp I s' L' Q := by
  induction t generalizing s L with
  | done a => exact Iff.rfl
  | act f next ih => exact ih s
  | note e next ih => exact and_congr Iff.rfl ih

@[simp] theorem Task.wp_ite {p : Prop} [Decidable p] {t u : Task σ ε α} {Q : α → σ → Log ε κ γ → Prop} :
    (if p then t else u).wp I s L Q ↔ (p → t.wp I s L Q) ∧ (¬p → u.wp I s L Q) := by
  split <;> simp [*]

end

/-! ## Runs of calls one at a time -/

section
variable {prog : κ → Task σ ε α} {I : Log ε κ α → Prop} {J : Log ε κ α → σ → Prop}

/-- What is known of a run: between calls `J`, within one the rest of the call. -/
inductive Sys.Solo (I : Log ε κ α → Prop) (J : Log ε κ α → σ → Prop) : Sys σ ε κ α → Prop where
  | idle {s L} : J L s → Solo I J ⟨s, [], L⟩
  | within {s c t L} : I L → t.wp I s L (fun a s' L' => J (.finished c a :: L') s') →
      Solo I J ⟨s, [(c, t)], L⟩

theorem Sys.Solo.log (hJ : ∀ L s, J L s → I L) {S : Sys σ ε κ α} (h : S.Solo I J) : I S.log := by
  cases h with
  | idle h => exact hJ _ _ h
  | within h _ => exact h

theorem Sys.Solo.start (hJ : ∀ L s, J L s → I L)
    (hcall : ∀ c L s, J L s → (prog c).wp I s L fun a s' L' => J (.finished c a :: L') s')
    {S : Sys σ ε κ α} (h : S.Solo I J) (hempty : S.flight = []) (c : κ) :
    (S.move prog (.start c)).Solo I J := by
  cases h with
  | idle h => exact .within (hJ _ _ h) (hcall c _ _ h)
  | within => cases hempty

/-- While one call is under way, its step keeps the invariant of the state and what is known of the call. -/
theorem Sys.Solo.advance {S : Sys σ ε κ α} (h : S.Solo I J) (i : Nat) :
    (S.move prog (.advance i)).Solo I J := by
  cases h with
  | idle h => exact .idle h
  | @within s c t L hI ht =>
      cases i with
      | succ i => exact .within hI ht
      | zero =>
          cases t with
          | done a => exact .idle ht
          | act f next => exact .within hI ht
          | note e next => exact .within ht.1 ht.2

/-- Calls that keep `J` by themselves, and `I` of the log throughout, do so in every run that starts
one only after another. -/
theorem Sys.alone_run (hJ : ∀ L s, J L s → I L)
    (hcall : ∀ c L s, J L s → (prog c).wp I s L fun a s' L' => J (.finished c a :: L') s')
    {S : Sys σ ε κ α} (hS : S.Solo I J) {moves : List (Move κ)} (h : Alone prog S moves) :
    (S.run prog moves).Solo I J := by
  induction moves generalizing S with
  | nil => exact hS
  | cons m ms ih =>
      cases m with
      | start c => exact ih (hS.start hJ hcall h.1 c) h.2
      | advance i => exact ih (hS.advance i) h

end

end Awaits

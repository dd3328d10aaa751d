import Mathlib.Data.List.Basic

/-! # Loops that may fail

What a computation that may throw leaves: a state with a property, or an error with one. A loop is reasoned about by
what holds of the elements it has come past. -/

/-- Where `r` ends well, `Q` holds of the result; where it throws, `E` holds of the error. -/
def Outcome {ε α : Type} (r : Except ε α) (Q : α → Prop) (E : ε → Prop) : Prop :=
  match r with
  | .ok a    => Q a
  | .error e => E e

namespace Outcome

variable {ε α β : Type} {r : Except ε α} {Q Q' : α → Prop} {E E' : ε → Prop}

theorem mono (h : Outcome r Q E) (hQ : ∀ a, Q a → Q' a) (hE : ∀ e, E e → E' e) : Outcome r Q' E' := by
  cases r with
  | ok a => exact hQ a h
  | error e => exact hE e h

theorem bind {f : α → Except ε β} {R : β → Prop} (h : Outcome r Q E) (hf : ∀ a, Q a → Outcome (f a) R E) :
    Outcome (r >>= f) R E := by
  cases r with
  | ok a => exact hf a h
  | error e => exact h

/-- What every error rules out is enough for the computation to end well. -/
theorem isOk {P : Prop} (h : Outcome r Q fun _ => ¬P) (hP : P) : ∃ a, r = .ok a := by
  cases r with
  | ok a => exact ⟨a, rfl⟩
  | error e => exact absurd hP h

/-- **The rule of loops**: `I` holds of the elements the loop is past and of the state it has come to. -/
theorem foldlM {step : β → α → Except ε β} {I : List α → β → Prop} (l : List α) {b : β} (hstart : I [] b)
    (hstep : ∀ done a rest, l = done ++ a :: rest → ∀ b, I done b → Outcome (step b a) (I (done ++ [a])) E) :
    Outcome (l.foldlM step b) (I l) E := by
  suffices hgo : ∀ done rest b, l = done ++ rest → I done b → Outcome (rest.foldlM step b) (I l) E from
    hgo [] l b rfl hstart
  intro done rest
  induction rest generalizing done with
  | nil =>
      intro b hl hI
      rw [hl, List.append_nil]
      exact hI
  | cons a rest ih =>
      intro b hl hI
      rw [List.foldlM_cons]
      exact (hstep done a rest hl b hI).bind fun b' hI' => ih (done ++ [a]) b' (by rw [hl]; simp) hI'

end Outcome

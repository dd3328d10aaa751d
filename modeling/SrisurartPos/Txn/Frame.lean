import SrisurartPos.Txn.Basic

/-! # Frames

`Leaves f p`: no statement of the program `p` changes what `f` looks at. It is read off the
program's text, one rule for each way to build one, and then holds next to any precondition
(`Leaves.wp`). `Tame f P p` says besides which errors the program may end in, and is a precondition
by itself (`Tame.wp`). -/

namespace Txn

variable {σ κ ε α β γ : Type}

def Leaves (f : σ → γ) : Tx σ κ ε α → Prop
  | .done _        => True
  | .fail _        => True
  | .lock _ _ next => Leaves f next
  | .read _ next   => ∀ b, Leaves f (next b)
  | .peek _ next   => ∀ b, Leaves f (next b)
  | .write w next  => (∀ s, f (w s) = f s) ∧ Leaves f next

section
variable {f : σ → γ} {H : Held κ} {s : σ} {E : ε → Prop} {Q : α → Held κ → σ → Prop}

theorem Leaves.wp {p : Tx σ κ ε α} (hp : Leaves f p) (h : wp p H s E Q) :
    Txn.wp p H s E fun a H' s' => Q a H' s' ∧ f s' = f s := by
  suffices ∀ c, f s = c → Txn.wp p H s E fun a H' s' => Q a H' s' ∧ f s' = c from this _ rfl
  induction p generalizing H s with
  | done a => exact fun c hc => ⟨h, hc⟩
  | fail e => exact fun c hc => h
  | lock ℓ m next ih => exact ih hp h
  | read q next ih => exact ih _ (hp _) h
  | peek q next ih => exact fun c hc s₀ => ih _ (hp _) (h s₀) c hc
  | write w next ih => exact fun c hc => ih hp.2 h c ((hp.1 s).trans hc)

theorem leaves_glance (q : σ → α) : Leaves (κ := κ) (ε := ε) f (Tx.glance q) :=
  fun _ => trivial

theorem leaves_selectFor (m : Mode) (ℓ : κ) (q : σ → α) :
    Leaves (ε := ε) f (Tx.selectFor m ℓ q) := fun _ => trivial

theorem leaves_require (c : Prop) [Decidable c] (e : ε) :
    Leaves (κ := κ) f (Tx.require c e) := by
  rw [Tx.require]
  split <;> trivial

theorem leaves_orFail (o : Option α) (e : ε) : Leaves (κ := κ) f (Tx.orFail o e) := by
  cases o <;> trivial

theorem leaves_ofExcept (r : Except ε α) : Leaves (κ := κ) f (Tx.ofExcept r) := by
  cases r <;> trivial

theorem Leaves.bind {p : Tx σ κ ε β} {g : β → Tx σ κ ε α} (hp : Leaves f p)
    (hg : ∀ b, Leaves f (g b)) : Leaves f (p >>= g) := by
  induction p with
  | done b => exact hg b
  | fail e => trivial
  | lock ℓ m next ih => exact ih hp
  | read q next ih => exact fun b => ih b (hp b)
  | peek q next ih => exact fun b => ih b (hp b)
  | write w next ih => exact ⟨hp.1, ih hp.2⟩

theorem Leaves.whenever {c : Prop} [Decidable c] {p : Tx σ κ ε Unit} (hp : Leaves f p) :
    Leaves f (Tx.whenever c p) := by
  rw [Tx.whenever]
  split
  · exact hp
  · trivial

theorem Leaves.forEach {bs : List β} {p : β → Tx σ κ ε Unit} (hp : ∀ b, Leaves f (p b)) :
    Leaves f (Tx.forEach bs p) := by
  induction bs with
  | nil => trivial
  | cons b bs ih => exact (hp b).bind fun _ => ih

theorem Leaves.collect {bs : List β} {p : β → Tx σ κ ε α} (hp : ∀ b, Leaves f (p b)) :
    Leaves f (Tx.collect bs p) := by
  induction bs with
  | nil => trivial
  | cons b bs ih => exact (hp b).bind fun _ => ih.bind fun _ => trivial

theorem leaves_updateReturning {ℓ : κ} {w : σ → σ} {q : σ → α} (hw : ∀ s, f (w s) = f s) :
    Leaves (ε := ε) f (Tx.updateReturning ℓ w q) := ⟨hw, fun _ => trivial⟩

end

/-! ## Tame programs -/

/-- No statement changes what `f` looks at, and every error satisfies `P`. -/
def Tame (f : σ → γ) (P : ε → Prop) : Tx σ κ ε α → Prop
  | .done _        => True
  | .fail e        => P e
  | .lock _ _ next => Tame f P next
  | .read _ next   => ∀ b, Tame f P (next b)
  | .peek _ next   => ∀ b, Tame f P (next b)
  | .write w next  => (∀ s, f (w s) = f s) ∧ Tame f P next

section
variable {f : σ → γ} {P : ε → Prop} {H : Held κ} {s : σ}

theorem Tame.wp {p : Tx σ κ ε α} (hp : Tame f P p) :
    Txn.wp p H s P fun _ _ s' => f s' = f s := by
  suffices ∀ c, f s = c → Txn.wp p H s P fun _ _ s' => f s' = c from this _ rfl
  induction p generalizing H s with
  | done a => exact fun c hc => hc
  | fail e => exact fun c hc => hp
  | lock ℓ m next ih => exact ih hp
  | read q next ih => exact ih _ (hp _)
  | peek q next ih => exact fun c hc s₀ => ih _ (hp _) c hc
  | write w next ih => exact fun c hc => ih hp.2 c ((hp.1 s).trans hc)

theorem Tame.leaves {p : Tx σ κ ε α} (hp : Tame f P p) : Leaves f p := by
  induction p with
  | done a => trivial
  | fail e => trivial
  | lock ℓ m next ih => exact ih hp
  | read q next ih => exact fun b => ih b (hp b)
  | peek q next ih => exact fun b => ih b (hp b)
  | write w next ih => exact ⟨hp.1, ih hp.2⟩

/-- A tame beginning leaves the rest of the program with what `f` looks at. -/
theorem Tame.seq {p : Tx σ κ ε β} {g : β → Tx σ κ ε α} {E : ε → Prop}
    {Q : α → Held κ → σ → Prop} (hp : Tame f P p) (hE : ∀ e, P e → E e)
    (hg : ∀ b H' s', f s' = f s → Txn.wp (g b) H' s' E Q) : Txn.wp (p >>= g) H s E Q :=
  wp_seq (wp_mono hp.wp hE fun _ _ _ h => h) hg

/-- Of a tame end only the errors matter. -/
theorem Tame.last {p : Tx σ κ ε α} {E : ε → Prop} (hp : Tame f P p) (hE : ∀ e, P e → E e) :
    Txn.wp p H s E fun _ _ _ => True :=
  wp_mono hp.wp hE fun _ _ _ _ => trivial

theorem Tame.bind {p : Tx σ κ ε β} {g : β → Tx σ κ ε α} (hp : Tame f P p)
    (hg : ∀ b, Tame f P (g b)) : Tame f P (p >>= g) := by
  induction p with
  | done b => exact hg b
  | fail e => exact hp
  | lock ℓ m next ih => exact ih hp
  | read q next ih => exact fun b => ih b (hp b)
  | peek q next ih => exact fun b => ih b (hp b)
  | write w next ih => exact ⟨hp.1, ih hp.2⟩

theorem tame_glance (q : σ → α) : Tame (κ := κ) f P (Tx.glance q) := fun _ => trivial

theorem tame_query (q : σ → α) : Tame (κ := κ) f P (Tx.query q) := fun _ => trivial

theorem tame_selectFor (m : Mode) (ℓ : κ) (q : σ → α) : Tame f P (Tx.selectFor m ℓ q) :=
  fun _ => trivial

theorem tame_update {w : σ → σ} (hw : ∀ s, f (w s) = f s) : Tame (κ := κ) f P (Tx.update w) :=
  ⟨hw, trivial⟩

theorem tame_updateReturning {ℓ : κ} {w : σ → σ} {q : σ → α} (hw : ∀ s, f (w s) = f s) :
    Tame f P (Tx.updateReturning ℓ w q) := ⟨hw, fun _ => trivial⟩

theorem tame_require {c : Prop} [Decidable c] {e : ε} (he : P e) :
    Tame (κ := κ) f P (Tx.require c e) := by
  rw [Tx.require]
  split
  · trivial
  · exact he

theorem tame_orFail {o : Option α} {e : ε} (he : P e) : Tame (κ := κ) f P (Tx.orFail o e) := by
  cases o with
  | none => exact he
  | some a => trivial

theorem tame_ofExcept {r : Except ε α} (hr : ∀ e, r = .error e → P e) :
    Tame (κ := κ) f P (Tx.ofExcept r) := by
  cases r with
  | error e => exact hr e rfl
  | ok a => trivial

theorem tame_insertRow {ℓ : κ} {taken : σ → Bool} {e : ε} {w : σ → σ} (he : P e)
    (hw : ∀ s, f (w s) = f s) : Tame f P (Tx.insertRow ℓ taken e w) := by
  show ∀ dup : Bool, Tame f P (if dup then Tx.fail e else Tx.update w)
  intro dup
  split
  · exact he
  · exact ⟨hw, trivial⟩

theorem Tame.whenever {c : Prop} [Decidable c] {p : Tx σ κ ε Unit} (hp : Tame f P p) :
    Tame f P (Tx.whenever c p) := by
  rw [Tx.whenever]
  split
  · exact hp
  · trivial

theorem Tame.collect {bs : List β} {p : β → Tx σ κ ε α} (hp : ∀ b, Tame f P (p b)) :
    Tame f P (Tx.collect bs p) := by
  induction bs with
  | nil => trivial
  | cons b bs ih => exact (hp b).bind fun _ => ih.bind fun _ => trivial

end

end Txn

import SrisurartPos.Txn.Interleaving

/-! # One lock for everything

Where every program that writes begins by taking one lock for update, as with an advisory lock, the
programs run one after another. Nothing is left to check of the statements behind the lock. -/

namespace Txn

universe u
variable {σ κ ε α β : Type} {Op : Type u}

/-- The program takes the lock `ℓ` for update before anything else, looks at rows at most, or does nothing. -/
def Behind (ℓ : κ) : Tx σ κ ε α → Prop
  | .done _            => True
  | .fail _            => True
  | .lock ℓ' .update _ => ℓ' = ℓ
  | .lock _ .share _   => False
  | .read _ _          => False
  | .peek _ next       => ∀ b, Behind ℓ (next b)
  | .write _ _         => False

/-- The lock protects all rows. -/
def Everything (ℓ : κ) (lk : κ × Mode) (s s' : σ) : Prop := lk.1 = ℓ → s = s'

section
variable {ℓ : κ}

theorem everything_equivalence (lk : κ × Mode) : Equivalence (Everything (σ := σ) ℓ lk) where
  refl _ _ := rfl
  symm h hlk := (h hlk).symm
  trans h h' hlk := (h hlk).trans (h' hlk)

theorem behind_ofExcept {r : Except ε β} {f : β → Tx σ κ ε α} (h : ∀ b, r = .ok b → Behind ℓ (f b)) :
    Behind ℓ (Tx.ofExcept r >>= f) := by
  cases r with
  | ok b => exact h b rfl
  | error e => trivial

/-- Behind the lock every program is disciplined. -/
theorem disciplined_of_mem {p : Tx σ κ ε α} {H : Held κ} (h : (ℓ, Mode.update) ∈ H) :
    Disciplined (Everything ℓ) p H fun _ _ => True := by
  induction p generalizing H with
  | done a => trivial
  | fail e => trivial
  | lock ℓ' m next ih => exact ih (List.mem_cons_of_mem _ h)
  | read q next ih => exact ⟨fun s s' hs => congrArg q (hs _ h rfl), fun s => ih _ h⟩
  | peek q next ih => exact fun s => ih _ h
  | write w next ih => exact ⟨fun s s' _ lk hlk heq => congrArg w (hlk heq), ih h⟩

/-- A program behind one lock that protects all rows is disciplined. -/
theorem Behind.disciplined {p : Tx σ κ ε α} (hp : Behind ℓ p) (H : Held κ) :
    Disciplined (Everything ℓ) p H fun _ _ => True := by
  induction p with
  | done a => trivial
  | fail e => trivial
  | lock ℓ' m next =>
      cases m with
      | share => cases hp
      | update =>
          obtain rfl : ℓ' = ℓ := hp
          have hmem : (ℓ', Mode.update) ∈ (ℓ', Mode.update) :: H := List.mem_cons_self
          exact disciplined_of_mem (p := next) hmem
  | read q next => cases hp
  | peek q next ih => exact fun s => ih _ (hp _)
  | write w next => cases hp

/-- What the program changes, others are kept from looking at. -/
theorem Behind.covered {p : Tx σ κ ε α} (hp : Behind ℓ p) (H : Held κ) {s : σ} {E : ε → Prop}
    {Q : α → Held κ → σ → Prop} (h : wp p H s E Q) :
    wp p H s E fun a H' s' => Q a H' s' ∧ Covered (Everything ℓ) H' s s' := by
  induction p with
  | done a => exact ⟨h, fun _ _ _ _ => rfl⟩
  | fail e => exact h
  | lock ℓ' m next =>
      cases m with
      | share => cases hp
      | update =>
          obtain rfl : ℓ' = ℓ := hp
          have hgrow := wp_grow (show wp next ((ℓ', .update) :: H) s E Q from h)
          refine wp_mono (p := next) hgrow (fun _ he => he) fun a H' s' hQ => ⟨hQ.1, fun k m hk heq => ?_⟩
          -- Nobody else may hold the lock in any mode.
          obtain rfl : k = ℓ' := heq
          have hfree := hk k m .update List.mem_cons_self (hQ.2 List.mem_cons_self)
          simp at hfree
  | read q next => cases hp
  | peek q next ih => exact fun s₀ => ih _ (hp _) (h s₀)
  | write w next => cases hp

/-- **The rule of the one lock.** Programs behind it need only keep the invariant one at a time. -/
theorem sound_of_behind {prog : Op → Tx σ κ ε α} {I : σ → Prop} {E : ε → Prop} (hprog : ∀ op, Behind ℓ (prog op))
    (hI : ∀ op s, I s → wp (prog op) [] s E fun _ _ s' => I s') : Sound prog (Everything ℓ) I E where
  equivalence := everything_equivalence
  disciplined op := (hprog op).disciplined []
  commits op s hs := (hprog op).covered [] (hI op s hs)

end

/-! ## Looking without the lock

A program that only looks may see a state that is gone by its end, but no state that was never committed. -/

/-- Where every state it sees satisfies `J`, the program answers what satisfies `Q`. It writes nothing. -/
def Tells (J : σ → Prop) : Tx σ κ ε α → (α → Prop) → Prop
  | .done a, Q        => Q a
  | .fail _, _        => True
  | .lock _ _ next, Q => Tells J next Q
  | .read q next, Q   => ∀ s, J s → Tells J (next (q s)) Q
  | .peek q next, Q   => ∀ s, J s → Tells J (next (q s)) Q
  | .write _ _, _     => False

section
variable {T : Type} [DecidableEq T] {prog : Op → Tx σ κ ε α} {s₀ : σ} {J : σ → Prop} {op : Op} {Q : α → Prop}

/-- The transactions begun for `op` have changed nothing and will tell what satisfies `Q`. -/
def Telling (J : σ → Prop) (op : Op) (Q : α → Prop) (S : Sys σ κ ε α Op T) : Prop :=
  ∀ t x, S.live t = some x → x.op = op → x.upd = id ∧ Tells J x.prog Q

theorem Telling.put {S : Sys σ κ ε α Op T} (h : Telling J op Q S) {t : T} {x : Live σ κ ε α Op}
    (hx : x.op = op → x.upd = id ∧ Tells J x.prog Q) : Telling J op Q (S.put t (some x)) := by
  intro t' y hy hop
  by_cases ht : t' = t
  · subst ht
    rw [S.put_live_self] at hy
    obtain rfl := Option.some.inj hy
    exact hx hop
  · rw [S.put_live_ne t _ ht] at hy
    exact h t' y hy hop

/-- In a state that meets `J`, a step leaves the operation's transactions writing nothing and telling what
satisfies `Q`. -/
theorem Telling.step {S S' : Sys σ κ ε α Op T} (h : Telling J op Q S) (hJ : J S.db)
    (htells : Tells J (prog op) Q) (hstep : Step prog S S') : Telling J op Q S' := by
  have hend : ∀ t, Telling J op Q (S.put t none) := fun t t' x hx => h t' x (live_of_put_none hx).2
  cases hstep with
  | start op' hl =>
      refine h.put fun hop => ?_
      obtain rfl : op' = op := hop
      exact ⟨rfl, htells⟩
  | lock hl hg =>
      refine h.put fun hop => ?_
      obtain ⟨hupd, hp⟩ := h _ _ hl hop
      exact ⟨hupd, hp⟩
  | read hl =>
      refine h.put fun hop => ?_
      obtain ⟨rfl, hp⟩ := h _ _ hl hop
      exact ⟨rfl, hp _ hJ⟩
  | peek hl =>
      refine h.put fun hop => ?_
      obtain ⟨rfl, hp⟩ := h _ _ hl hop
      exact ⟨rfl, hp _ hJ⟩
  | write hl => exact h.put fun hop => (h _ _ hl hop).2.elim
  | commit hl => exact hend _
  | rollback => exact hend _

/-- **The rule of what is told.** What holds of all rows ever committed is true of what the program answers. -/
theorem Reachable.tells (hJ : ∀ S : Sys σ κ ε α Op T, Reachable prog s₀ S → J S.db)
    (htells : Tells J (prog op) Q) {S : Sys σ κ ε α Op T} (h : Reachable prog s₀ S) :
    Telling J op Q S ∧ ∀ a, (op, a) ∈ S.log → Q a := by
  induction h with
  | init => exact ⟨(fun _ _ hx => nomatch hx), (fun _ ha => nomatch ha)⟩
  | @step S S' hreach hstep ih =>
      refine ⟨ih.1.step (hJ S hreach) htells hstep, fun a ha => ?_⟩
      rcases hstep.commit_or_quiet with ⟨-, hlog⟩ | ⟨t, op', a', hc⟩
      · exact ih.2 a (hlog ▸ ha)
      · rw [hc.log, List.mem_append, List.mem_singleton] at ha
        rcases ha with ha | ha
        · exact ih.2 a ha
        · obtain ⟨rfl, rfl⟩ : op = op' ∧ a = a' := Prod.mk.inj ha
          obtain ⟨hl⟩ := hc
          exact (ih.1 _ _ hl rfl).2

end

end Txn

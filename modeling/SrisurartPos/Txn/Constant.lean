import SrisurartPos.Txn.Interleaving
import SrisurartPos.Txn.Frame
import Mathlib.Logic.Relation

/-! # What commits do not change

A `peek` may be stale. What it answers about rows that no commit changes any more is true all the
same, for every transaction that begins when they are settled (`Commit.framed`). The transaction
may write to these rows itself, as long as what it makes of them depends on nothing else
(`Tracks`). -/

namespace Txn

universe u
variable {σ κ ε α β γ : Type} {Op : Type u} {T : Type}

/-- The states look alike under the lock, and `f` looks the same in both. -/
def Framed (agree : κ × Mode → σ → σ → Prop) (f : σ → γ) (lk : κ × Mode) (s s' : σ) : Prop :=
  agree lk s s' ∧ f s = f s'

/-- What `f` sees after a statement of the program depends on what it saw before only. -/
def Tracks (f : σ → γ) : Tx σ κ ε α → Prop
  | .done _        => True
  | .fail _        => True
  | .lock _ _ next => Tracks f next
  | .read _ next   => ∀ b, Tracks f (next b)
  | .peek _ next   => ∀ b, Tracks f (next b)
  | .write w next  => (∀ s s', f s = f s' → f (w s) = f (w s')) ∧ Tracks f next

/-- Whatever the program reads, it makes `f` see `c` before it is done. -/
def Brings (f : σ → γ) (c : γ) : Tx σ κ ε α → Prop
  | .done _        => False
  | .fail _        => True
  | .lock _ _ next => Brings f c next
  | .read _ next   => ∀ b, Brings f c (next b)
  | .peek _ next   => ∀ b, Brings f c (next b)
  | .write w next  => (∀ s, f (w s) = f s) ∧ Brings f c next ∨ (∀ s, f (w s) = c) ∧ Leaves f next

section
variable {agree : κ × Mode → σ → σ → Prop} {f : σ → γ} {c : γ} {H : Held κ}

theorem Leaves.tracks {p : Tx σ κ ε α} (hp : Leaves f p) : Tracks f p := by
  induction p with
  | done a => trivial
  | fail e => trivial
  | lock ℓ m next ih => exact ih hp
  | read q next ih => exact fun b => ih b (hp b)
  | peek q next ih => exact fun b => ih b (hp b)
  | write w next ih =>
      refine ⟨fun s s' hs => ?_, ih hp.2⟩
      rw [hp.1, hp.1, hs]

theorem Tracks.bind {p : Tx σ κ ε β} {g : β → Tx σ κ ε α} (hp : Tracks f p)
    (hg : ∀ b, Tracks f (g b)) : Tracks f (p >>= g) := by
  induction p with
  | done b => exact hg b
  | fail e => trivial
  | lock ℓ m next ih => exact ih hp
  | read q next ih => exact fun b => ih b (hp b)
  | peek q next ih => exact fun b => ih b (hp b)
  | write w next ih => exact ⟨hp.1, ih hp.2⟩

theorem Brings.tracks {p : Tx σ κ ε α} (hp : Brings f c p) : Tracks f p := by
  induction p with
  | done a => exact hp.elim
  | fail e => trivial
  | lock ℓ m next ih => exact ih hp
  | read q next ih => exact fun b => ih b (hp b)
  | peek q next ih => exact fun b => ih b (hp b)
  | write w next ih =>
      rcases hp with ⟨hw, hnext⟩ | ⟨hw, hnext⟩
      · exact ⟨fun s s' hs => by rw [hw, hw, hs], ih hnext⟩
      · exact ⟨fun s s' _ => by rw [hw, hw], hnext.tracks⟩

/-- A program that leaves `f` alone does so whatever other transactions do to rows it has not locked. -/
theorem Leaves.wpHeld {p : Tx σ κ ε α} (hp : Leaves f p) (s : σ) :
    Txn.wpHeld agree p H s fun _ H' s' => H ⊆ H' ∧ f s' = f s := by
  induction p generalizing H s with
  | done a => exact ⟨List.Subset.refl _, rfl⟩
  | fail e => trivial
  | lock ℓ m next ih =>
      refine wpHeld_mono (p := next) (ih hp s) fun a H' s' h => ?_
      exact ⟨fun lk hlk => h.1 (List.mem_cons_of_mem _ hlk), h.2⟩
  | read q next ih => exact ih _ (hp _) s
  | peek q next ih => exact fun s₀ _ => ih _ (hp _) s
  | write w next ih =>
      refine wpHeld_mono (p := next) (ih hp.2 (w s)) fun a H' s' h => ?_
      exact ⟨h.1, h.2.trans (hp.1 s)⟩

/-- What a program brings is there when it commits. -/
theorem Brings.wpHeld {p : Tx σ κ ε α} (hp : Brings f c p) (s : σ) :
    Txn.wpHeld agree p H s fun _ _ s' => f s' = c := by
  induction p generalizing H s with
  | done a => exact hp.elim
  | fail e => trivial
  | lock ℓ m next ih => exact ih hp s
  | read q next ih => exact ih _ (hp _) s
  | peek q next ih => exact fun s₀ _ => ih _ (hp _) s
  | write w next ih =>
      rcases hp with ⟨-, hnext⟩ | ⟨hw, hnext⟩
      · exact ih hnext (w s)
      · exact wpHeld_mono (hnext.wpHeld (w s)) fun a H' s' h => h.2.trans (hw s)

theorem Leaves.bind_brings {p : Tx σ κ ε β} {g : β → Tx σ κ ε α} (hp : Leaves f p)
    (hg : ∀ b, Brings f c (g b)) : Brings f c (p >>= g) := by
  induction p with
  | done b => exact hg b
  | fail e => trivial
  | lock ℓ m next ih => exact ih hp
  | read q next ih => exact fun b => ih b (hp b)
  | peek q next ih => exact fun b => ih b (hp b)
  | write w next ih => exact .inl ⟨hp.1, ih hp.2⟩

/-- What a program has brought about, a program after it that leaves `f` alone does not undo. -/
theorem Brings.bind {p : Tx σ κ ε β} {g : β → Tx σ κ ε α} (hp : Brings f c p)
    (hg : ∀ b, Leaves f (g b)) : Brings f c (p >>= g) := by
  induction p with
  | done b => exact hp.elim
  | fail e => trivial
  | lock ℓ m next ih => exact ih hp
  | read q next ih => exact fun b => ih b (hp b)
  | peek q next ih => exact fun b => ih b (hp b)
  | write w next ih =>
      rcases hp with ⟨hw, hnext⟩ | ⟨hw, hnext⟩
      · exact .inl ⟨hw, ih hnext⟩
      · exact .inr ⟨hw, hnext.bind hg⟩

theorem brings_insertRow {ℓ : κ} {taken : σ → Bool} {e : ε} {w : σ → σ} (hw : ∀ s, f (w s) = c) :
    Brings f c (Tx.insertRow ℓ taken e w) := by
  show ∀ dup : Bool, Brings f c (if dup then Tx.fail e else Tx.update w)
  intro dup
  split
  · trivial
  · exact .inr ⟨hw, trivial⟩

theorem framed_equivalence (h : ∀ lk, Equivalence (agree lk)) (lk : κ × Mode) :
    Equivalence (Framed agree f lk) where
  refl s := ⟨(h lk).refl s, rfl⟩
  symm hs := ⟨(h lk).symm hs.1, hs.2.symm⟩
  trans hs hs' := ⟨(h lk).trans hs.1 hs'.1, hs.2.trans hs'.2⟩

/-- A program that tracks `f` stays disciplined when agreement on `f` is asked for as well. -/
theorem Disciplined.framed {p : Tx σ κ ε α} {Q : α → Held κ → Prop}
    (h : Disciplined agree p H Q) (hp : Tracks f p) : Disciplined (Framed agree f) p H Q := by
  induction p generalizing H with
  | done a => exact h
  | fail e => trivial
  | lock ℓ m next ih => exact ih h hp
  | read q next ih =>
      refine ⟨fun s s' hs => ?_, fun s => ih _ (h.2 s) (hp _)⟩
      exact h.1 s s' fun lk hlk => (hs lk hlk).1
  | peek q next ih => exact fun s => ih _ (h s) (hp _)
  | write w next ih =>
      refine ⟨fun s s' hs lk hlk => ⟨?_, hp.1 s s' hlk.2⟩, ih h.2 hp.2⟩
      exact h.1 s s' (fun lk' hlk' => (hs lk' hlk').1) lk hlk.1

end

section
variable [DecidableEq T] {prog : Op → Tx σ κ ε α} {s₀ : σ} {agree : κ × Mode → σ → σ → Prop}
  {I : σ → Prop} {E : ε → Prop} {f : σ → γ} {c : γ} {P : T → Op → Prop}
  {S₁ S S' : Sys σ κ ε α Op T} {t : T} {op : Op} {a : α}

/-- A run through which `f` sees `c` throughout. -/
abbrev Settled (prog : Op → Tx σ κ ε α) (f : σ → γ) (c : γ) (S S' : Sys σ κ ε α Op T) : Prop :=
  Relation.ReflTransGen (fun S S' => Step prog S S' ∧ f S'.db = c) S S'

/-- As long as `f` sees `c`, a transaction that begins has read the truth about it. -/
theorem replay_framed (hsound : Sound prog agree I E) (h0 : I s₀)
    (h₁ : Reachable prog s₀ S₁) (hc : f S₁.db = c)
    (hP : ∀ t op, P t op → Tracks f (prog op))
    (hfresh : ∀ t x, S₁.live t = some x → ¬P t x.op) (hr : Settled prog f c S₁ S) :
    Reachable prog s₀ S ∧ f S.db = c ∧ ∀ t x, S.live t = some x → P t x.op →
      Replay (Framed agree f) (prog x.op) S.db x.prog x.upd x.held := by
  have hrefl : ∀ lk s, Framed agree f lk s s := fun lk s => ⟨(hsound.equivalence lk).refl s, rfl⟩
  induction hr with
  | refl => exact ⟨h₁, hc, fun t x hx hop => absurd hop (hfresh t x hx)⟩
  | @tail S S' _ hnext ih =>
      obtain ⟨hreach, hsees, ih⟩ := ih
      obtain ⟨hstep, hafter⟩ := hnext
      have hinv := hreach.sysInv hsound h0
      -- the transaction that takes the statement, and the others
      have hput : ∀ {t₀ : T} {z : Live σ κ ε α Op}, (P t₀ z.op →
          Replay (Framed agree f) (prog z.op) S.db z.prog z.upd z.held) → ∀ t x,
            (S.put t₀ (some z)).live t = some x → P t x.op →
              Replay (Framed agree f) (prog x.op) S.db x.prog x.upd x.held := by
        intro t₀ z hz t x hx hop
        by_cases ht : t = t₀
        · subst ht
          obtain rfl : z = x := by simpa using hx
          exact hz hop
        · rw [S.put_live_ne t₀ _ ht] at hx
          exact ih t x hx hop
      refine ⟨hreach.step hstep, hafter, ?_⟩
      cases hstep with
      | start op hl => exact hput fun _ => .start
      | lock hl hg => exact hput fun hp => (ih _ _ hl hp).lock
      | read hl => exact hput fun hp => (ih _ _ hl hp).read
      | peek hl => exact hput fun hp => (ih _ _ hl hp).peek _ fun lk _ => hrefl lk _
      | write hl => exact hput fun hp => (ih _ _ hl hp).write
      | @commit t₀ op a u H hl =>
          intro t x hx hop
          obtain ⟨ht, hx⟩ := live_of_put_none hx
          refine (ih t x hx hop).transfer (framed_equivalence hsound.equivalence)
            ((hsound.disciplined _).framed (hP t _ hop)) fun lk hlk => ⟨?_, hsees.trans hafter.symm⟩
          exact hinv.agrees hsound hl ht hx lk hlk
      | rollback => exact fun t x hx hop => ih t x (live_of_put_none hx).2 hop

/-- What `f` sees does not change once it is `c`. -/
theorem settled_of_kept (hsound : Sound prog agree I E) (h0 : I s₀) (h₁ : Reachable prog s₀ S₁)
    (hc : f S₁.db = c)
    (hkeep : ∀ op s, I s → f s = c → wp (prog op) [] s E fun _ _ s' => f s' = c)
    (hr : Relation.ReflTransGen (Step prog) S₁ S) : Settled prog f c S₁ S := by
  suffices Reachable prog s₀ S ∧ f S.db = c ∧ Settled prog f c S₁ S from this.2.2
  induction hr with
  | refl => exact ⟨h₁, hc, .refl⟩
  | tail _ hstep ih =>
      obtain ⟨hreach, hsees, hsettled⟩ := ih
      have hafter := hreach.commits hsound h0 hstep (fun _ _ s s' => f s = c → f s' = c)
        fun op s hs => by
          by_cases hfs : f s = c
          · exact wpHeld_mono (wpHeld_of_wp (hkeep op s hs hfs)) fun _ _ _ h _ => h
          · exact wpHeld_of_wp (wp_mono (hsound.commits op s hs) (fun _ h => h)
              fun _ _ _ _ h => absurd h hfs)
      rcases hafter with ⟨hdb, -⟩ | ⟨-, -, hkept, -⟩
      · rw [← hdb] at hsees
        exact ⟨hreach.step hstep, hsees, hsettled.tail ⟨hstep, hsees⟩⟩
      · exact ⟨hreach.step hstep, hkept hsees, hsettled.tail ⟨hstep, hkept hsees⟩⟩

/-- What `f` sees has been `c` from the start, if it never becomes `c` again. -/
theorem settled_of_unwritten (hsound : Sound prog agree I E) (h0 : I s₀)
    (hlost : ∀ op s, I s → f s ≠ c → wp (prog op) [] s E fun _ _ s' => f s' ≠ c)
    (h : Reachable prog s₀ S) (hc : f S.db = c) :
    f s₀ = c ∧ Settled prog f c (Sys.init s₀) S := by
  induction h with
  | init => exact ⟨hc, .refl⟩
  | @step S S' hreach hstep ih =>
      have hbefore : f S.db = c := by
        by_contra hne
        have hafter := hreach.commits hsound h0 hstep (fun _ _ s s' => f s ≠ c → f s' ≠ c)
          fun op s hs => by
            by_cases hfs : f s = c
            · exact wpHeld_of_wp (wp_mono (hsound.commits op s hs) (fun _ h => h)
                fun _ _ _ _ h => absurd hfs h)
            · exact wpHeld_mono (wpHeld_of_wp (hlost op s hs hfs)) fun _ _ _ h _ => h
        rcases hafter with ⟨hdb, -⟩ | ⟨-, -, hkept, -⟩
        · exact hne (hdb ▸ hc)
        · exact hkept hne hc
      obtain ⟨hfirst, hsettled⟩ := ih hbefore
      exact ⟨hfirst, hsettled.tail ⟨hstep, hc⟩⟩

/-- **The rule of settled rows.** What a commit does, of a transaction that begins when what `f`
sees does not change any more. -/
theorem Commit.framed (hsound : Sound prog agree I E) (h0 : I s₀)
    (h₁ : Reachable prog s₀ S₁) (hc : f S₁.db = c) (hP : ∀ t op, P t op → Tracks f (prog op))
    (hfresh : ∀ t x, S₁.live t = some x → ¬P t x.op) (hr : Settled prog f c S₁ S)
    (hcommit : Commit t op a S S') (hop : P t op) (R : α → σ → σ → Prop)
    (hR : ∀ s, I s → f s = c → wpHeld (Framed agree f) (prog op) [] s fun a _ s' => R a s s') :
    R a S.db S'.db := by
  obtain ⟨hreach, hsees, hreplay⟩ := replay_framed hsound h0 h₁ hc hP hfresh hr
  obtain ⟨hl⟩ := hcommit
  exact (hreplay t _ hl hop).wpHeld (hR _ (hreach.sysInv hsound h0).inv hsees)

theorem Reachable.runs_from_init (h : Reachable prog s₀ S) :
    Relation.ReflTransGen (Step prog) (Sys.init s₀) S := by
  induction h with
  | init => exact .refl
  | step _ hstep ih => exact ih.tail hstep

/-- The rule, for what no commit ever changes. -/
theorem Commit.constant (hsound : Sound prog agree I E) (h0 : I s₀)
    (hkeep : ∀ op s, I s → wp (prog op) [] s E fun _ _ s' => f s' = f s)
    (h : Reachable prog s₀ S) (hcommit : Commit t op a S S') (hop : Tracks f (prog op))
    (R : α → σ → σ → Prop)
    (hR : ∀ s, I s → wpHeld (Framed agree f) (prog op) [] s fun a _ s' => R a s s') :
    R a S.db S'.db := by
  refine hcommit.framed (c := f s₀) (P := fun _ op => Tracks f (prog op)) hsound h0 .init rfl
    (fun _ _ hop => hop) (fun t x hx => by cases hx) ?_ hop R fun s hs _ => hR s hs
  refine settled_of_kept hsound h0 .init rfl (fun op s hs hsees => ?_) h.runs_from_init
  exact wp_mono (hkeep op s hs) (fun _ h => h) fun _ _ _ h => h.trans hsees

/-- The rule, for what no commit has changed so far. -/
theorem Commit.unwritten (hsound : Sound prog agree I E) (h0 : I s₀)
    (hlost : ∀ op s, I s → f s ≠ c → wp (prog op) [] s E fun _ _ s' => f s' ≠ c)
    (h : Reachable prog s₀ S) (hcommit : Commit t op a S S') (hc : f S.db = c)
    (hop : Tracks f (prog op)) (R : α → σ → σ → Prop)
    (hR : ∀ s, I s → f s = c → wpHeld (Framed agree f) (prog op) [] s fun a _ s' => R a s s') :
    R a S.db S'.db := by
  obtain ⟨hfirst, hsettled⟩ := settled_of_unwritten hsound h0 hlost h hc
  exact hcommit.framed (P := fun _ op => Tracks f (prog op)) hsound h0 .init hfirst
    (fun _ _ hop => hop) (fun t x hx => by cases hx) hsettled hop R hR

end

end Txn

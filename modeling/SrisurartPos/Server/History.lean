import SrisurartPos.Server.System

/-! # Histories

What has been committed in a run, one transaction after the other. A property of a run that names
past events (a bill that *was voided by hand*, a payment that *was made*) is a property of its
history. Every reachable state has one (`Reachable.traced`), and `Traced.invariant` is the induction
over it. -/

namespace Server

open Txn

/-- A committed transaction: what it was started for, the change it made of the books, and the
committed rows before and after. -/
structure Committed where
  op : Op
  effect : Effect
  before : Db
  after : Db
  performs : Performs effect before after
  allowed : effect = .none ∨ op.Allows effect

/-- A run of the server and its history, oldest first. -/
inductive Traced {T : Type} [DecidableEq T] (s₀ : Db) : List Committed → System T → Prop where
  | init : Traced s₀ [] (Sys.init s₀)
  | quiet {cs S S'} : Traced s₀ cs S → Step prog S S' → S'.db = S.db → S'.log = S.log →
      Traced s₀ cs S'
  | commit {cs S S'} (c : Committed) (a : Reply) : Traced s₀ cs S → Step prog S S' →
      c.before = S.db → c.after = S'.db → S'.log = S.log ++ [(c.op, a)] →
      Traced s₀ (cs ++ [c]) S'

section
variable {T : Type} [DecidableEq T] {s₀ : Db} {cs : List Committed} {S S' : System T}

theorem Traced.reachable (h : Traced s₀ cs S) : Reachable prog s₀ S := by
  induction h with
  | init => exact .init
  | quiet _ hstep _ _ ih => exact ih.step hstep
  | commit _ _ _ hstep _ _ _ ih => exact ih.step hstep

/-- The history tells every transaction that was answered. -/
theorem Traced.ops (h : Traced s₀ cs S) : cs.map (·.op) = S.log.map Prod.fst := by
  induction h with
  | init => rfl
  | quiet _ _ _ hlog ih =>
      rw [hlog]
      exact ih
  | commit c a _ _ _ _ hlog ih => simp [hlog, ih]

/-- **Every reachable state has a history.** -/
theorem Reachable.traced (h₀ : s₀.Consistent) (h : Reachable prog s₀ S) :
    ∃ cs, Traced s₀ cs S := by
  induction h with
  | init => exact ⟨[], .init⟩
  | step hr hstep ih =>
      obtain ⟨cs, htr⟩ := ih
      rcases Reachable.performs h₀ hr hstep with ⟨hdb, hlog⟩ | ⟨op, a, ⟨e, hallow, hperf⟩, hlog⟩
      · exact ⟨cs, htr.quiet hstep hdb hlog⟩
      · exact ⟨_, htr.commit ⟨op, e, _, _, hperf, hallow⟩ a hstep rfl rfl hlog⟩

/-- What every program of the server does alone, every transaction of a history did. -/
theorem Traced.commits (P : Op → Db → Db → Prop) (h₀ : s₀.Consistent)
    (hP : ∀ op s, s.Consistent → wpHeld agree (prog op) [] s fun _ _ s' => P op s s')
    (h : Traced s₀ cs S) : ∀ c ∈ cs, P c.op c.before c.after := by
  induction h with
  | init => exact fun c hc => absurd hc List.not_mem_nil
  | quiet _ _ _ _ ih => exact ih
  | @commit cs S S' c a htr hstep hbefore hafter hlog ih =>
      intro d hd
      rcases List.mem_append.mp hd with hd | hd
      · exact ih d hd
      · obtain rfl := List.mem_singleton.mp hd
        rcases Txn.Reachable.commits sound h₀ htr.reachable hstep (fun op _ s s' => P op s s') hP
          with ⟨-, hsame⟩ | ⟨op, a', hdoes, hlog'⟩
        · have := congrArg List.length (hsame.symm.trans hlog)
          simp at this
        · have heq := List.append_cancel_left (hlog.symm.trans hlog')
          obtain ⟨rfl, -⟩ : d.op = op ∧ a = a' := by simpa using heq
          rw [hbefore, hafter]
          exact hdoes

/-- Every transaction of a history did what its kind does. -/
theorem Traced.does (h₀ : s₀.Consistent) (h : Traced s₀ cs S) :
    ∀ c ∈ cs, c.op.Does c.before c.after := by
  apply h.commits Op.Does h₀
  intro op s hs
  exact wpHeld_of_wp (wp_mono (wp_prog hs op) (fun _ h => h) fun _ _ _ h => h.1)

/-- **The induction rule of histories.** -/
theorem Traced.invariant (J : List Committed → Db → Prop) (h₀ : s₀.Consistent) (hJ : J [] s₀)
    (hstep : ∀ cs c, c.before.Consistent → J cs c.before → J (cs ++ [c]) c.after)
    (h : Traced s₀ cs S) : J cs S.db := by
  induction h with
  | init => exact hJ
  | quiet _ _ hdb _ ih =>
      rw [hdb]
      exact ih
  | commit c a htr _ hbefore hafter _ ih =>
      have hcons := Reachable.consistent h₀ htr.reachable
      rw [← hbefore] at ih hcons
      rw [← hafter]
      exact hstep _ c hcons ih

end

end Server

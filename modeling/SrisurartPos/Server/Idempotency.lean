import SrisurartPos.Server.AtDesk
import SrisurartPos.Txn.Frame

/-! # Idempotency keys (`idempotency.service.ts`, `maintenance.processor.ts`)

A write claims its key, does its work and stores its answer in one transaction; a retry under the
same key is answered with what is stored. A job deletes keys that are a day old. -/

namespace Server

open Txn

inductive Claim where
  /-- this request owns the key: do the work, then complete the key -/
  | claimed
  /-- the key is done, for the same request -/
  | replay (body : Reply)
  /-- the key is another request's -/
  | reused

/-- Same endpoint, same body: replay. Anything else is a reused key. -/
def decideClaim (stored : StoredResponse) (endpoint : Endpoint) (requestHash : Nat) : Claim :=
  if stored.requestHash ≠ requestHash ∨ stored.endpoint ≠ endpoint then .reused
  else .replay stored.body

/-- `INSERT … ON CONFLICT DO NOTHING`: whether this request became the owner of the key. -/
def insertClaim (env : Env) (key : Nat) (endpoint : Endpoint) (requestHash : Nat) :
    Prog Bool := do
  let there ← Tx.glance fun db => (db.idempotencyKeys.get key).isSome
  if there then return false
  else do
    -- another request that is inserting the key is waited for
    let there ← Tx.selectFor .update (.key key) fun db => (db.idempotencyKeys.get key).isSome
    if there then return false
    else do
      Tx.update fun db => db.insertKey key ⟨endpoint, requestHash, env.now, none⟩
      return true

/-- `IdempotencyService.claim` -/
def claim (env : Env) (key : Nat) (endpoint : Endpoint) (requestHash : Nat) : Prog Claim := do
  let inserted ← insertClaim env key endpoint requestHash
  if inserted then return .claimed
  else
    match env.cached with
    | some stored => return decideClaim stored endpoint requestHash
    | none        => do
        let row ← Tx.glance fun db => db.idempotencyKeys.get key
        match row with
        | none     => return .reused
        | some row => do
            let body ← Tx.orFail row.response .keyNotDone
            return decideClaim ⟨row.endpoint, row.requestHash, body⟩ endpoint requestHash

def complete (key : Nat) (body : Reply) : Prog Unit := do
  let row ← Tx.updateReturning (.key key)
    (fun db => db.modifyKey key fun row => { row with response := some body })
    fun db => db.idempotencyKeys.get key
  let _ ← Tx.orFail row .vanished
  return ()

/-- `IdempotencyService.runIdempotent` -/
def runIdempotent (env : Env) (key : Nat) (endpoint : Endpoint) (requestHash : Nat)
    (work : Prog Reply) : Prog Reply := do
  let outcome ← claim env key endpoint requestHash
  match outcome with
  | .reused      => Tx.fail .idempotencyKeyReused
  | .replay body => return body
  | .claimed     => do
      let body ← work
      complete key body
      return body

/-- `IDEMPOTENCY_TTL_SECONDS` -/
def idempotencyTtl : Nat := 86400

def KeyRow.expired (now : Nat) (row : KeyRow) : Bool := row.createdAt + idempotencyTtl < now

/-- `DELETE FROM idempotency_keys WHERE created_at < now() - …` -/
def cleanup (now : Nat) : Prog Unit := do
  let keys ← Tx.glance fun db : Db =>
    (db.idempotencyKeys.rows.filter fun e => e.2.expired now).map Prod.fst
  Tx.forEach keys fun key => do
    let row ← Tx.selectFor .update (.key key) fun db => db.idempotencyKeys.get key
    Tx.whenever (row.any (KeyRow.expired now) = true) (Tx.update fun db => db.eraseKey key)

/-! ## What they do -/

/-- The transaction does nothing to the books, or one of the changes `P` allows. -/
def Commits (P : Effect → Prop) (s s' : Db) : Prop :=
  ∃ e, (e = .none ∨ P e) ∧ Performs e s s'

section
variable {H : Held LockKey} {s s' : Db} {P : Effect → Prop}

theorem Commits.none (P : Effect → Prop) (s : Db) (desk : Desk) : Commits P s (s.withDesk desk) :=
  ⟨_, .inl rfl, Performs.none s desk⟩

theorem Commits.after_desk {desk : Desk} (h : Commits P (s.withDesk desk) s') : Commits P s s' := by
  obtain ⟨e, he, hperf⟩ := h
  exact ⟨e, he, hperf.after_desk⟩

theorem Commits.before_desk (h : Commits P s s') (desk : Desk) :
    Commits P s (s'.withDesk desk) := by
  obtain ⟨e, he, hperf⟩ := h
  exact ⟨e, he, hperf.before_desk desk⟩

theorem Commits.mono {P' : Effect → Prop} (h : Commits P s s') (hP : ∀ e, P e → P' e) :
    Commits P' s s' := by
  obtain ⟨e, he, hperf⟩ := h
  exact ⟨e, he.imp_right (hP e), hperf⟩

/-- What a service does: to the books, and at the desk. -/
structure Works (P : Effect → Prop) (s s' : Db) : Prop where
  commits : Commits P s s'
  desk : AtDesk s s'

theorem Works.before_desk {desk : Desk} (h : Works P s s') (hd : s'.Filed desk) :
    Works P s (s'.withDesk desk) :=
  ⟨h.commits.before_desk desk, h.desk.before_desk hd⟩

theorem Works.after_desk {desk : Desk} (h : Works P (s.withDesk desk) s') (hd : s.Filed desk) :
    Works P s s' :=
  ⟨h.commits.after_desk, h.desk.after_desk hd⟩

/-- What a claim leaves of the keys: it comes to own one that was not there, or it leaves them. -/
structure ClaimFiled (key : Nat) (out : Claim) (s : Db) (desk : Desk) : Prop where
  audit : desk.auditLog = s.auditLog
  owned : out = .claimed → s.idempotencyKeys.get key = none ∧
    ∃ row, desk.idempotencyKeys = s.idempotencyKeys.insert key row
  kept : out ≠ .claimed → desk.idempotencyKeys = s.idempotencyKeys

/-- The transaction of the key `key`: the books change only when the key is new, and then it is on
file afterwards; no other key comes or goes. -/
structure KeyStep (key : Nat) (s s' : Db) : Prop where
  others : ∀ k, k ≠ key → s'.idempotencyKeys.get k = s.idempotencyKeys.get k
  kept : (s.idempotencyKeys.get key).isSome = true →
    s'.idempotencyKeys.get key = s.idempotencyKeys.get key
  once : s' ≠ s.withDesk s'.desk →
    s.idempotencyKeys.get key = Option.none ∧ (s'.idempotencyKeys.get key).isSome = true

/-- What the transaction of a key does. -/
structure Transacts (key : Nat) (P : Effect → Prop) (s s' : Db) : Prop where
  commits : Commits P s s'
  noted : Noted s s'
  keys : KeyStep key s s'

/-- A transaction that leaves the keys and writes at the desk only. -/
theorem Transacts.of_desk {key : Nat} {desk : Desk} (P : Effect → Prop)
    (hkeys : desk.idempotencyKeys = s.idempotencyKeys) (haudit : desk.auditLog = s.auditLog) :
    Transacts key P s (s.withDesk desk) where
  commits := Commits.none P s desk
  noted := Noted.before_desk (AtDesk.refl s).noted haudit
  keys :=
    { others := fun k _ => by
        show desk.idempotencyKeys.get k = _
        rw [hkeys]
      kept := fun _ => by
        show desk.idempotencyKeys.get key = _
        rw [hkeys]
      once := fun hne => absurd rfl hne }

/-- A claim writes at the desk only. The owner of the key holds it locked. -/
theorem wp_claim {env : Env} {key : Nat} {endpoint : Endpoint} {requestHash : Nat}
    {Q : Claim → Held LockKey → Db → Prop}
    (h : ∀ out H' desk, H ⊆ H' → Covered agree H' s (s.withDesk desk) →
      ClaimFiled key out s desk → Q out H' (s.withDesk desk)) :
    wp (claim env key endpoint requestHash) H s Expected Q := by
  have hkept : ∀ out H', H ⊆ H' → out ≠ .claimed → Q out H' s := by
    intro out H' hH hout
    exact h out H' s.desk hH (Covered.refl _ _) ⟨rfl, fun hc => absurd hc hout, fun _ => rfl⟩
  have hdecide : ∀ stored H', H ⊆ H' → Q (decideClaim stored endpoint requestHash) H' s := by
    intro stored H' hH
    apply hkept _ _ hH
    unfold decideClaim
    split <;> exact fun hc => by cases hc
  have hrest : ∀ H', H ⊆ H' → wp (match env.cached with
      | some stored => return decideClaim stored endpoint requestHash
      | none        => do
          let row ← Tx.glance fun db => db.idempotencyKeys.get key
          match row with
          | none     => return .reused
          | some row => do
              let body ← Tx.orFail row.response .keyNotDone
              return decideClaim ⟨row.endpoint, row.requestHash, body⟩ endpoint requestHash)
      H' s Expected Q := by
    intro H' hH
    cases env.cached with
    | some stored => exact hdecide _ _ hH
    | none =>
        refine wp_bind_glance fun s₀ => ?_
        cases s₀.idempotencyKeys.get key with
        | none => exact hkept _ _ hH fun hc => by cases hc
        | some row => exact wp_bind_orFail (fun body _ => hdecide _ _ hH) fun _ => rfl
  refine (wp_bind _ _).mpr (wp_bind_glance fun s₀ => ?_)
  split
  · exact hrest H (List.Subset.refl _)
  · refine wp_bind_selectFor ?_
    split
    · exact hrest _ (List.subset_cons_self _ _)
    · rename_i hfree
      have hcov : Covered agree ((.key key, .update) :: H) s
          (s.insertKey key ⟨endpoint, requestHash, env.now, none⟩) :=
        Covered.insertKey (Covered.refl _ _) List.mem_cons_self _
      refine h .claimed _ (s.insertKey key _).desk (List.subset_cons_self _ _) hcov ?_
      exact ⟨rfl, fun _ => ⟨by simpa using hfree, _, rfl⟩, fun hc => absurd rfl hc⟩

theorem wp_complete {key : Nat} {body : Reply} {Q : Unit → Held LockKey → Db → Prop}
    (h : ∀ H' desk, H ⊆ H' → Covered agree H' s (s.withDesk desk) → desk.auditLog = s.auditLog →
      (∃ f, desk.idempotencyKeys = s.idempotencyKeys.modify key f) → Q () H' (s.withDesk desk)) :
    wp (complete key body) H s Expected Q := by
  refine wp_bind_updateReturning (wp_bind_orFail (fun _ _ => ?_) fun _ => rfl)
  have hcov : Covered agree ((.key key, .update) :: H) s
      (s.modifyKey key fun row => { row with response := some body }) :=
    Covered.modifyKey (Covered.refl _ _) List.mem_cons_self _
  exact h _ (s.modifyKey key fun row => { row with response := some body }).desk
    (List.subset_cons_self _ _) hcov rfl ⟨fun row => { row with response := some body }, rfl⟩

/-- The owner of a key does its work and completes the key. -/
theorem Transacts.of_work {key : Nat} {desk desk' : Desk} (hclaim : ClaimFiled key .claimed s desk)
    (hwork : Works P (s.withDesk desk) s') (haudit : desk'.auditLog = s'.auditLog)
    (hkeys : ∃ f, desk'.idempotencyKeys = s'.idempotencyKeys.modify key f) :
    Transacts key P s (s'.withDesk desk') := by
  obtain ⟨hfree, row, hinsert⟩ := hclaim.owned rfl
  obtain ⟨f, hmodify⟩ := hkeys
  have hget : ∀ k, (s'.withDesk desk').idempotencyKeys.get k =
      if k = key then some (f row) else s.idempotencyKeys.get k := by
    intro k
    have hs' : s'.idempotencyKeys = s.idempotencyKeys.insert key row :=
      hwork.desk.keys.trans hinsert
    show desk'.idempotencyKeys.get k = _
    rw [hmodify, hs', Table.get_modify, Table.get_insert hfree]
    split <;> rfl
  constructor
  · exact hwork.commits.after_desk.before_desk desk'
  · exact (hwork.desk.noted.after_desk hclaim.audit).before_desk haudit
  · constructor
    · intro k hk
      rw [hget, if_neg hk]
    · intro hsome
      rw [hfree] at hsome
      cases hsome
    · intro _
      rw [hget, if_pos rfl]
      exact ⟨hfree, rfl⟩

/-- **The work of a key is done in the transaction that claims it**, or not at all. -/
theorem wp_runIdempotent {env : Env} {key : Nat} {endpoint : Endpoint} {requestHash : Nat}
    {work : Prog Reply}
    (hwork : ∀ H' desk, wp work H' (s.withDesk desk) Expected fun _ H'' s' =>
      Works P (s.withDesk desk) s' ∧ Covered agree H'' (s.withDesk desk) s') :
    wp (runIdempotent env key endpoint requestHash work) H s Expected fun _ H' s' =>
      Transacts key P s s' ∧ Covered agree H' s s' := by
  refine (wp_bind _ _).mpr (wp_claim fun out H₁ desk hH₁ hcov₁ hclaim => ?_)
  cases out with
  | reused => rfl
  | replay body =>
      exact ⟨.of_desk P (hclaim.kept fun hc => by cases hc) hclaim.audit, hcov₁⟩
  | claimed =>
      refine wp_seq (wp_grow (hwork H₁ desk)) ?_
      rintro body H₂ s₂ ⟨⟨hworks, hcov₂⟩, hH₂⟩
      refine (wp_bind _ _).mpr (wp_complete fun H₃ desk₃ hH₃ hcov₃ haudit hkeys => ?_)
      refine ⟨.of_work hclaim hworks haudit hkeys, ?_⟩
      exact Covered.trans (Covered.mono (Covered.trans (Covered.mono hcov₁ hH₂) hcov₂) hH₃) hcov₃

/-- What the cleanup leaves: a key goes when it is past its time, and not otherwise. -/
structure Cleaned (now : Nat) (s : Db) (desk : Desk) : Prop where
  audit : desk.auditLog = s.auditLog
  keys : ∀ k, desk.idempotencyKeys.get k = s.idempotencyKeys.get k ∨
    desk.idempotencyKeys.get k = Option.none ∧
      (s.idempotencyKeys.get k).any (KeyRow.expired now) = true

/-- The cleanup erases keys that have expired, and nothing else. -/
theorem wp_cleanup {now : Nat} :
    wp (cleanup now) H s Expected fun _ H' s' =>
      (∃ desk, s' = s.withDesk desk ∧ Cleaned now s desk) ∧ Covered agree H' s s' := by
  refine wp_bind_glance fun s₀ => ?_
  refine wp_forEach (fun _ H₁ s₁ =>
    (∃ desk, s₁ = s.withDesk desk ∧ Cleaned now s desk) ∧ Covered agree H₁ s s₁)
    ⟨⟨s.desk, rfl, rfl, fun _ => .inl rfl⟩, Covered.refl _ _⟩ ?_ fun _ _ h => h
  rintro key rest H₁ s₁ ⟨⟨desk, rfl, hclean⟩, hcov⟩
  have hcov' := Covered.mono hcov (List.subset_cons_self (LockKey.key key, Mode.update) H₁)
  refine wp_bind_selectFor ?_
  rw [Tx.whenever]
  split
  · rename_i hexpired
    refine ⟨⟨((s.withDesk desk).eraseKey key).desk, rfl, hclean.audit, fun k => ?_⟩,
      Covered.eraseKey hcov' List.mem_cons_self⟩
    show (desk.idempotencyKeys.erase key).get k = _ ∨ (desk.idempotencyKeys.erase key).get k = _ ∧ _
    rw [Table.get_erase]
    by_cases hk : k = key
    · subst hk
      rw [if_pos rfl]
      -- the key's row, as it was before the cleanup began
      rcases hclean.keys k with hsame | ⟨-, hold⟩
      · exact .inr ⟨rfl, hsame ▸ hexpired⟩
      · exact .inr ⟨rfl, hold⟩
    · rw [if_neg hk]
      exact hclean.keys k
  · exact ⟨⟨desk, rfl, hclean⟩, hcov'⟩

/-! ## Their locks -/

theorem key_of_agree {key : Nat} {m : Mode} (s s' : Db) (h : agree (.key key, m) s s') :
    s.idempotencyKeys.get key = s'.idempotencyKeys.get key := View.key.inj h

theorem disciplined_insertClaim (env : Env) (key : Nat) (endpoint : Endpoint)
    (requestHash : Nat) :
    Disciplined agree (insertClaim env key endpoint requestHash) H fun _ _ => True := by
  refine disciplined_bind_glance fun there => ?_
  split
  · trivial
  · refine disciplined_bind_selectFor (fun s s' hs => by rw [key_of_agree s s' hs]) fun there => ?_
    split
    · trivial
    · exact disciplined_bind_update (respects_insertKey List.mem_cons_self) trivial

theorem disciplined_claim (env : Env) (key : Nat) (endpoint : Endpoint) (requestHash : Nat) :
    Disciplined agree (claim env key endpoint requestHash) H fun _ _ => True := by
  refine Disciplined.seq (disciplined_insertClaim _ _ _ _) fun inserted _ _ _ => ?_
  split
  · trivial
  · split
    · trivial
    · refine disciplined_bind_glance fun row => ?_
      cases row with
      | none => trivial
      | some row => exact disciplined_bind_orFail fun _ _ => trivial

theorem disciplined_complete (key : Nat) (body : Reply) :
    Disciplined agree (complete key body) H fun _ _ => True := by
  refine disciplined_bind_updateReturning (respects_modifyKey List.mem_cons_self) key_of_agree ?_
  exact fun row => disciplined_bind_orFail fun _ _ => trivial

theorem disciplined_runIdempotent {env : Env} {key : Nat} {endpoint : Endpoint}
    {requestHash : Nat} {work : Prog Reply}
    (hwork : ∀ H', Disciplined agree work H' fun _ _ => True) :
    Disciplined agree (runIdempotent env key endpoint requestHash work) H fun _ _ => True := by
  refine Disciplined.seq (disciplined_claim _ _ _ _) fun out _ _ _ => ?_
  cases out with
  | reused => trivial
  | replay body => trivial
  | claimed =>
      refine Disciplined.seq (hwork _) fun body _ _ _ => ?_
      exact Disciplined.seq (disciplined_complete _ _) fun _ _ _ _ => trivial

theorem disciplined_cleanup (now : Nat) : Disciplined agree (cleanup now) H fun _ _ => True := by
  refine disciplined_bind_glance fun keys => ?_
  refine disciplined_forEach (fun _ => True) trivial (fun key H₁ _ => ?_) fun _ _ => trivial
  refine disciplined_bind_selectFor key_of_agree fun row => ?_
  rw [Tx.whenever]
  split
  · exact ⟨respects_eraseKey List.mem_cons_self, trivial⟩
  · trivial

end

/-! ## What they leave alone -/

section
variable {γ : Type} {f : Db → γ} {P : ServerError → Prop}
  (hf : ∀ (s : Db) (keys : Table Nat KeyRow), f { s with idempotencyKeys := keys } = f s)
include hf

/-- A claim of a key touches no other table, and refuses only while the key's first use is not done. -/
theorem tame_claim (hP : P .keyNotDone) (env : Env) (key : Nat) (endpoint : Endpoint)
    (requestHash : Nat) : Tame f P (claim env key endpoint requestHash) := by
  refine Tame.bind ?_ fun inserted => ?_
  · refine (tame_glance _).bind fun there => ?_
    split
    · trivial
    · refine (tame_selectFor _ _ _).bind fun there => ?_
      split
      · trivial
      · exact ⟨fun s => hf s _, trivial⟩
  · split
    · trivial
    · split
      · trivial
      · refine (tame_glance _).bind fun row => ?_
        cases row with
        | none => trivial
        | some row => exact (tame_orFail hP).bind fun body => trivial

theorem tame_complete (hP : P .vanished) (key : Nat) (body : Reply) :
    Tame f P (complete key body) := by
  refine Tame.bind (tame_updateReturning fun s => hf s _) fun row => ?_
  exact Tame.bind (tame_orFail hP) fun _ => trivial

end

end Server

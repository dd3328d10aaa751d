import SrisurartPos.Txn.Interleaving
import SrisurartPos.Table

/-! # Refresh-token chains (`/auth/refresh`)

Every login starts a chain of refresh tokens. The chain's row holds the id of the one token that may
rotate next and of the one it replaced; `judgeRefresh` decides on them and on nothing else. The
refreshes of all chains run interleaved, a statement at a time, among whatever changes the accounts. -/

namespace Auth

open Txn

/-- The id of a token, a random UUID. -/
abbrev Jti := Nat

abbrev TenantId := Nat
abbrev UserId := Nat
abbrev DeviceId := Nat

/-- Times are in microseconds. -/
def seconds (n : Int) : Int := n * 1000000

/-- `REFRESH_GRACE_MAX_SEC` -/
def refreshGraceMax : Int := seconds (24 * 3600)

/-- `clockTolerance` of the verifier -/
def clockTolerance : Int := seconds 30

def day : Int := seconds (24 * 3600)

/-! ## Rows -/

/-- The key of a chain: the shop and the id of the chain's first token. -/
abbrev ChainKey := TenantId × Jti

/-- A row of `refresh_families`. -/
structure Family where
  currentJti : Jti
  previousJti : Option Jti
  rotatedAt : Int
  graceUsed : Bool
  /-- `revoked_at IS NOT NULL` -/
  revoked : Bool
  expiresAt : Int
  deriving DecidableEq, Repr

structure User where
  isActive : Bool
  passwordChangedAt : Option Int
  deriving DecidableEq, Repr

/-- What the checks before the chain read. -/
structure Accounts where
  /-- `tenants.status = 'active'` -/
  tenantActive : TenantId → Bool
  users : TenantId → UserId → Option User
  /-- the devices that are there, and whether each is retired -/
  retired : TenantId → DeviceId → Option Bool

structure AuthDb where
  families : Table ChainKey Family
  accounts : Accounts

/-- The payload of a refresh token. -/
structure RefreshToken where
  tid : TenantId
  sub : UserId
  did : Option DeviceId
  jti : Jti
  /-- absent in the token that a login issues -/
  fid : Option Jti
  iat : Int
  exp : Int
  deriving DecidableEq, Repr

/-- `payload.fid ?? payload.jti`, in its shop -/
def RefreshToken.chain (t : RefreshToken) : ChainKey := (t.tid, t.fid.getD t.jti)

/-! ## The decision -/

structure RefreshFamilyState where
  currentJti : Jti
  previousJti : Option Jti
  revoked : Bool
  graceUsed : Bool
  sinceRotation : Int

inductive RefreshVerdict where
  | rotate
  | grace (jti : Jti)
  | reused
  | revoked
  | unknown
  deriving DecidableEq, Repr

def judgeRefresh (family : Option RefreshFamilyState) (jti : Jti) : RefreshVerdict :=
  match family with
  | none => .unknown
  | some family =>
    if family.revoked then .revoked
    else if jti = family.currentJti then .rotate
    else if family.previousJti = some jti ∧ family.graceUsed = false ∧
        family.sinceRotation < refreshGraceMax then
      .grace family.currentJti
    else .reused

/-- The row as the query reads it, `now` being the start of the transaction. -/
def Family.state (f : Family) (now : Int) : RefreshFamilyState :=
  ⟨f.currentJti, f.previousJti, f.revoked, f.graceUsed, now - f.rotatedAt⟩

/-! ## The transaction -/

/-- A token as it is presented: the time the transaction begins, and the UUID drawn for it. -/
structure Presentation where
  token : RefreshToken
  now : Int
  nextJti : Jti

/-- Why a presentation is refused. -/
inductive Refusal where
  /-- `Invalid or expired refresh token`: the verifier's answer, with no transaction -/
  | expired
  | tenantInactive
  | userInactive
  | passwordChanged
  | deviceRetired
  /-- `refresh_unknown_chain` -/
  | unknownChain
  /-- `refresh_reused` -/
  | reused
  /-- `refresh_revoked` -/
  | revoked
  deriving DecidableEq, Repr

/-- Refused before the chain is looked at. -/
def Refusal.early : Refusal → Bool
  | .unknownChain | .reused | .revoked => false
  | _                                  => true

/-- How a presentation came to be answered: as the current token or as the one it replaced. -/
inductive Turn where
  | rotated
  | grace
  deriving DecidableEq, Repr

inductive Answer where
  /-- new tokens; the refresh token among them carries `jti` -/
  | tokens (jti : Jti) (turn : Turn)
  | refused (r : Refusal)
  /-- of what is no refresh -/
  | done
  deriving DecidableEq, Repr

inductive AuthError where
  /-- `User not found`: a rollback -/
  | userNotFound

abbrev AuthTx (α : Type) := Tx AuthDb ChainKey AuthError α

def AuthDb.setFamily (db : AuthDb) (k : ChainKey) (f : Family) : AuthDb :=
  { db with families := db.families.upsert k f }

def AuthDb.dropFamily (db : AuthDb) (k : ChainKey) : AuthDb :=
  { db with families := db.families.erase k }

/-- The row that the first refresh of a chain inserts. -/
def Presentation.firstFamily (p : Presentation) : Family where
  currentJti  := p.nextJti
  previousJti := some p.token.jti
  rotatedAt   := p.now
  graceUsed   := false
  revoked     := false
  expiresAt   := p.token.exp

/-- `expires_at < now() - interval '1 day'` -/
def Family.dead (f : Family) (now : Int) : Prop := f.expiresAt < now - day

instance (f : Family) (now : Int) : Decidable (f.dead now) := by
  unfold Family.dead
  infer_instance

/-- Deletes one dead chain: the row is read again once it is locked. -/
def dropDead (now : Int) (k : ChainKey) : AuthTx Unit := do
  let row ← Tx.selectFor .update k fun db => db.families.get k
  Tx.whenever (∃ f ∈ row, f.dead now) (Tx.update fun db => db.dropFamily k)

/-- `DELETE FROM refresh_families WHERE tenant_id = $1 AND expires_at < now() - interval '1 day'` -/
def pruneChains (tid : TenantId) (now : Int) : AuthTx Unit := do
  let dead ← Tx.glance fun db =>
    (db.families.rows.filter fun e => decide (e.1.1 = tid ∧ e.2.dead now)).map Prod.fst
  Tx.forEach dead (dropDead now)

/-- `INSERT … ON CONFLICT DO NOTHING RETURNING id`: a row that is there is not waited for, one that
another transaction is inserting is. -/
def createChain (p : Presentation) : AuthTx Bool := do
  let taken ← Tx.glance fun db => (db.families.get p.token.chain).isSome
  if taken then
    return false
  let taken ← Tx.selectFor .update p.token.chain fun db =>
    (db.families.get p.token.chain).isSome
  if taken then
    return false
  Tx.update fun db => db.setFamily p.token.chain p.firstFamily
  return true

/-- What the row's lock finds is judged, and the verdict written back. -/
def judgeChain (p : Presentation) : AuthTx Answer := do
  let row ← Tx.selectFor .update p.token.chain fun db => db.families.get p.token.chain
  match row, judgeRefresh (row.map fun f => f.state p.now) p.token.jti with
  | some f, .rotate =>
    Tx.update fun db => db.setFamily p.token.chain { f with
      previousJti := some f.currentJti, currentJti := p.nextJti, rotatedAt := p.now,
      graceUsed := false }
    return .tokens p.nextJti .rotated
  | some f, .grace jti =>
    Tx.update fun db => db.setFamily p.token.chain { f with graceUsed := true }
    return .tokens jti .grace
  | some f, .reused =>
    Tx.update fun db => db.setFamily p.token.chain { f with revoked := true }
    return .refused .reused
  | _, .revoked => return .refused .revoked
  | _, _ => return .refused .unknownChain

/-- `rotateRefreshChain` -/
def rotateRefreshChain (p : Presentation) : AuthTx Answer := do
  let created ← if p.token.fid = none then createChain p else pure false
  if created then
    pruneChains p.token.tid p.now
    return .tokens p.nextJti .rotated
  judgeChain p

/-- The checks of `refreshTokenPayload` that stand before the chain. -/
def Accounts.check (a : Accounts) (t : RefreshToken) : Except AuthError (Option Refusal) :=
  match a.users t.tid t.sub with
  | none => .error .userNotFound
  | some user => .ok <|
    if a.tenantActive t.tid = false then some .tenantInactive
    else if user.isActive = false then some .userInactive
    else if user.passwordChangedAt.any fun changed => decide (t.iat < changed) then
      some .passwordChanged
    else match t.did with
      | some did => if a.retired t.tid did = some false then none else some .deviceRetired
      | none     => none

/-- The verifier and `refreshTokenPayload`. -/
def refreshTokenPayload (p : Presentation) : AuthTx Answer := do
  if p.token.exp + clockTolerance < p.now then
    return .refused .expired
  let checked ← Tx.glance fun db => db.accounts.check p.token
  match checked with
  | .error e           => Tx.fail e
  | .ok (some refusal) => return .refused refusal
  | .ok none           => rotateRefreshChain p

/-! ## The system -/

inductive Op where
  /-- a login, whose token is signed without a row -/
  | login (t : RefreshToken)
  | refresh (p : Presentation)
  /-- anything that changes accounts: a suspension, a new password, a retired device -/
  | administer (w : Accounts → Accounts)

def prog : Op → AuthTx Answer
  | .login _      => return .done
  | .refresh p    => refreshTokenPayload p
  | .administer w => do
    Tx.update fun db => { db with accounts := w db.accounts }
    return .done

abbrev System (T : Type) := Sys AuthDb ChainKey AuthError Answer Op T

/-! ## What a transaction does to the chains -/

/-- What a presentation does to the row of its own chain, and how it is answered. -/
inductive Judged (p : Presentation) : Option Family → Answer → Option Family → Prop where
  | early {row : Option Family} {r : Refusal} (hr : r.early = true) :
      Judged p row (.refused r) row
  | unknown : Judged p none (.refused .unknownChain) none
  | created (hfid : p.token.fid = none) :
      Judged p none (.tokens p.nextJti .rotated) (some p.firstFamily)
  | rotated {f : Family} (hlive : f.revoked = false) (hjti : p.token.jti = f.currentJti) :
      Judged p (some f) (.tokens p.nextJti .rotated) (some { f with
        previousJti := some f.currentJti, currentJti := p.nextJti, rotatedAt := p.now,
        graceUsed := false })
  | grace {f : Family} (hlive : f.revoked = false) (hjti : p.token.jti ≠ f.currentJti)
      (hprev : f.previousJti = some p.token.jti) (hused : f.graceUsed = false)
      (htime : p.now - f.rotatedAt < refreshGraceMax) :
      Judged p (some f) (.tokens f.currentJti .grace) (some { f with graceUsed := true })
  | reused {f : Family} (hlive : f.revoked = false) (hjti : p.token.jti ≠ f.currentJti)
      (hgrace : ¬ (f.previousJti = some p.token.jti ∧ f.graceUsed = false ∧
        p.now - f.rotatedAt < refreshGraceMax)) :
      Judged p (some f) (.refused .reused) (some { f with revoked := true })
  | revoked {f : Family} (hrev : f.revoked = true) :
      Judged p (some f) (.refused .revoked) (some f)

/-- The row under `k` is as it was, unless it was long dead at `now` and is gone. -/
def KeptAt (now : Int) (k : ChainKey) (s s' : AuthDb) : Prop :=
  s'.families.get k = s.families.get k ∨
    ∃ f, s.families.get k = some f ∧ f.dead now ∧ s'.families.get k = none

theorem KeptAt.refl (now : Int) (k : ChainKey) (s : AuthDb) : KeptAt now k s s := Or.inl rfl

/-- What two steps in a row keep of a chain. -/
theorem KeptAt.trans {now : Int} {k : ChainKey} {s₁ s₂ s₃ : AuthDb} (h₁ : KeptAt now k s₁ s₂)
    (h₂ : KeptAt now k s₂ s₃) : KeptAt now k s₁ s₃ := by
  rcases h₁ with h₁ | ⟨f, hf, hdead, hnone⟩
  · rcases h₂ with h₂ | ⟨f, hf, hdead, hnone⟩
    · exact Or.inl (h₂.trans h₁)
    · exact Or.inr ⟨f, h₁ ▸ hf, hdead, hnone⟩
  · rcases h₂ with h₂ | ⟨f', hf', -, -⟩
    · exact Or.inr ⟨f, hf, hdead, h₂.trans hnone⟩
    · rw [hnone] at hf'
      cases hf'

/-- Writing one chain leaves the others as they are. -/
theorem AuthDb.get_setFamily (db : AuthDb) (k k' : ChainKey) (f : Family) :
    (db.setFamily k f).families.get k' = if k' = k then some f else db.families.get k' :=
  db.families.get_upsert k k' f

theorem AuthDb.get_dropFamily (db : AuthDb) (k k' : ChainKey) :
    (db.dropFamily k).families.get k' = if k' = k then none else db.families.get k' :=
  db.families.get_erase k k'

/-- A write of one chain keeps every other. -/
theorem KeptAt.of_ne {now : Int} {k k' : ChainKey} (hk : k' ≠ k) (s : AuthDb) (f : Family) :
    KeptAt now k' s (s.setFamily k f) := by
  rw [KeptAt, AuthDb.get_setFamily, if_neg hk]
  exact Or.inl rfl

section Spec

variable {H : Held ChainKey} {s : AuthDb} {E : AuthError → Prop}

/-- The prune takes away nothing but dead rows. -/
theorem wp_pruneChains (tid : TenantId) (now : Int) :
    wp (pruneChains tid now) H s E fun _ _ s' => ∀ k, KeptAt now k s s' := by
  refine wp_bind_glance fun s₀ => ?_
  refine wp_forEach (fun _ _ s' => ∀ k, KeptAt now k s s') (fun k => KeptAt.refl now k s) ?_
    fun _ s' h => h
  intro k rest H s' h
  refine wp_bind_selectFor ?_
  by_cases hdead : ∃ f ∈ s'.families.get k, f.dead now
  · rw [Tx.whenever, if_pos hdead, wp_update]
    intro k'
    refine (h k').trans ?_
    rw [KeptAt, AuthDb.get_dropFamily]
    by_cases hk : k' = k
    · subst hk
      obtain ⟨f, hf, hdead⟩ := hdead
      exact Or.inr ⟨f, hf, hdead, if_pos rfl⟩
    · exact Or.inl (if_neg hk)
  · rw [Tx.whenever, if_neg hdead]
    exact h

/-- A chain is created, or its row is left to be judged. -/
theorem wp_createChain (p : Presentation) :
    wp (createChain p) H s E fun created _ s' =>
      (created = false ∧ s' = s) ∨ (created = true ∧ s.families.get p.token.chain = none ∧
        s' = s.setFamily p.token.chain p.firstFamily) := by
  refine wp_bind_glance fun s₀ => ?_
  split
  · exact Or.inl ⟨rfl, rfl⟩
  · refine wp_bind_selectFor ?_
    split
    · exact Or.inl ⟨rfl, rfl⟩
    · rename_i hfree
      refine Or.inr ⟨rfl, ?_, rfl⟩
      simpa using hfree

/-- What a commit of a presentation leaves. -/
def Presented (p : Presentation) (s : AuthDb) (a : Answer) (s' : AuthDb) : Prop :=
  Judged p (s.families.get p.token.chain) a (s'.families.get p.token.chain) ∧
    (∀ k, k ≠ p.token.chain → KeptAt p.now k s s') ∧
    ((∃ r, a = .refused r ∧ r.early = true) ∨ p.now ≤ p.token.exp + clockTolerance)

/-- What judging a presentation leaves of the chain is what `Presented` says, whatever the verdict is. -/
theorem wp_judgeChain (p : Presentation) (htime : p.now ≤ p.token.exp + clockTolerance) :
    wp (judgeChain p) H s E fun a _ s' => Presented p s a s' := by
  have hother : ∀ f k, k ≠ p.token.chain → KeptAt p.now k s (s.setFamily p.token.chain f) :=
    fun f k hk => KeptAt.of_ne hk s f
  have hown : ∀ f, (s.setFamily p.token.chain f).families.get p.token.chain = some f :=
    fun f => (s.get_setFamily _ _ f).trans (if_pos rfl)
  have hsame : ∀ k, k ≠ p.token.chain → KeptAt p.now k s s := fun k _ => KeptAt.refl _ k s
  refine wp_bind_selectFor ?_
  cases hrow : s.families.get p.token.chain with
  | none =>
      show Presented p s (.refused .unknownChain) s
      exact ⟨by rw [hrow]; exact Judged.unknown, hsame, Or.inr htime⟩
  | some f =>
      simp only [Option.map_some, judgeRefresh, Family.state]
      by_cases hrev : f.revoked = true
      · rw [if_pos hrev]
        exact ⟨by rw [hrow]; exact Judged.revoked hrev, hsame, Or.inr htime⟩
      · rw [if_neg hrev]
        have hlive : f.revoked = false := by simpa using hrev
        by_cases hjti : p.token.jti = f.currentJti
        · rw [if_pos hjti]
          exact ⟨by rw [hrow, hown]; exact Judged.rotated hlive hjti, hother _, Or.inr htime⟩
        · rw [if_neg hjti]
          by_cases hgrace : f.previousJti = some p.token.jti ∧ f.graceUsed = false ∧
              p.now - f.rotatedAt < refreshGraceMax
          · rw [if_pos hgrace]
            refine ⟨?_, hother _, Or.inr htime⟩
            rw [hrow, hown]
            exact Judged.grace hlive hjti hgrace.1 hgrace.2.1 hgrace.2.2
          · rw [if_neg hgrace]
            refine ⟨?_, hother _, Or.inr htime⟩
            rw [hrow, hown]
            exact Judged.reused hlive hjti hgrace

/-- The same of the whole rotation: the pruning comes before, and a token without a chain gets one. -/
theorem wp_rotateRefreshChain (p : Presentation) (htime : p.now ≤ p.token.exp + clockTolerance) :
    wp (rotateRefreshChain p) H s E fun a _ s' => Presented p s a s' := by
  by_cases hfid : p.token.fid = none
  · simp only [rotateRefreshChain, if_pos hfid]
    refine wp_seq (wp_createChain p) ?_
    rintro created H' s₁ (⟨rfl, rfl⟩ | ⟨rfl, hfree, rfl⟩)
    · exact wp_judgeChain p htime
    · refine wp_seq (wp_pruneChains _ _) fun _ H'' s' hkept => ?_
      refine ⟨?_, fun k hk => (KeptAt.of_ne hk s p.firstFamily).trans (hkept k), Or.inr htime⟩
      -- the row it has just inserted is not a dead one
      have hown : s'.families.get p.token.chain = some p.firstFamily := by
        have hnew := (s.get_setFamily p.token.chain p.token.chain p.firstFamily).trans (if_pos rfl)
        rcases hkept p.token.chain with hsame | ⟨f, hf, hdead, -⟩
        · exact hsame.trans hnew
        · obtain rfl : p.firstFamily = f := by simpa using hnew.symm.trans hf
          have hexp : p.token.exp < p.now - day := hdead
          simp only [day, clockTolerance, seconds] at hexp htime
          omega
      rw [hfree, hown]
      exact Judged.created hfid
  · simp only [rotateRefreshChain, if_neg hfid]
    exact wp_judgeChain p htime

/-- A refusal by the checks of the account comes before the chain is looked at. -/
theorem Accounts.early_of_check {a : Accounts} {t : RefreshToken} {r : Refusal}
    (h : a.check t = .ok (some r)) : r.early = true := by
  unfold Accounts.check at h
  split at h
  · cases h
  · have h := Except.ok.inj h
    grind [Refusal.early]

/-- **The specification of a refresh**, from its first check to its commit. -/
theorem wp_refreshTokenPayload (p : Presentation) :
    wp (refreshTokenPayload p) H s (fun _ => True) fun a _ s' => Presented p s a s' := by
  have hearly : ∀ r : Refusal, r.early = true → Presented p s (.refused r) s := fun r hr =>
    ⟨Judged.early hr, fun k _ => KeptAt.refl _ k s, Or.inl ⟨r, rfl, hr⟩⟩
  unfold refreshTokenPayload
  split
  · exact hearly .expired rfl
  · rename_i htime
    refine wp_bind_glance fun s₀ => ?_
    cases hcheck : s₀.accounts.check p.token with
    | error e => trivial
    | ok refusal =>
        cases refusal with
        | some r => exact hearly r (Accounts.early_of_check hcheck)
        | none => exact wp_rotateRefreshChain p (by omega)

end Spec

/-! ## Locks -/

/-- What the lock on a chain's row protects. -/
def agree (lk : ChainKey × Mode) (s s' : AuthDb) : Prop :=
  s.families.get lk.1 = s'.families.get lk.1

theorem agree_equivalence (lk : ChainKey × Mode) : Equivalence (agree lk) :=
  ⟨fun _ => rfl, fun h => h.symm, fun h h' => h.trans h'⟩

/-- A write of a chain under its lock does the same in every state that agrees on what is locked. -/
theorem respects_setFamily {H : Held ChainKey} (k : ChainKey) (f : Family) :
    Respects agree H fun s => s.setFamily k f := by
  intro s s' _ lk hlk
  simp only [agree, AuthDb.get_setFamily]
  split
  · rfl
  · exact hlk

theorem respects_dropFamily {H : Held ChainKey} (k : ChainKey) :
    Respects agree H fun s => s.dropFamily k := by
  intro s s' _ lk hlk
  simp only [agree, AuthDb.get_dropFamily]
  split
  · rfl
  · exact hlk

/-- The rows that have changed since `s₀` are locked. -/
def Owned (s₀ : AuthDb) (H : Held ChainKey) (s : AuthDb) : Prop :=
  ∀ k, s.families.get k = s₀.families.get k ∨ (k, .update) ∈ H

section Locks

variable {s₀ s : AuthDb} {H : Held ChainKey}

theorem Owned.lock (h : Owned s₀ H s) (k : ChainKey) : Owned s₀ ((k, .update) :: H) s :=
  fun k' => (h k').imp_right (List.mem_cons_of_mem _)

theorem Owned.setFamily (h : Owned s₀ H s) {k : ChainKey} (hk : (k, .update) ∈ H) (f : Family) :
    Owned s₀ H (s.setFamily k f) := by
  intro k'
  by_cases heq : k' = k
  · exact Or.inr (heq ▸ hk)
  · rw [AuthDb.get_setFamily, if_neg heq]
    exact h k'

theorem Owned.dropFamily (h : Owned s₀ H s) {k : ChainKey} (hk : (k, .update) ∈ H) :
    Owned s₀ H (s.dropFamily k) := by
  intro k'
  by_cases heq : k' = k
  · exact Or.inr (heq ▸ hk)
  · rw [AuthDb.get_dropFamily, if_neg heq]
    exact h k'

/-- A transaction that only changes chains it has locked is covered by its locks. -/
theorem Owned.covered (h : Owned s₀ H s) : Covered agree H s₀ s := by
  intro k m hc
  rcases h k with hsame | hheld
  · exact hsame.symm
  · have := hc k m .update List.mem_cons_self hheld
    rw [Mode.conflicts_update] at this
    cases this

theorem owned_pruneChains (tid : TenantId) (now : Int) (h : Owned s₀ H s) :
    wp (pruneChains tid now) H s (fun _ => True) fun _ H' s' => Owned s₀ H' s' := by
  refine wp_bind_glance fun _ => ?_
  refine wp_forEach (fun _ H s => Owned s₀ H s) h ?_ fun _ _ h => h
  intro k rest H s h
  refine wp_bind_selectFor ?_
  rw [Tx.whenever]
  split
  · exact (h.lock k).dropFamily List.mem_cons_self
  · exact h.lock k

theorem owned_createChain (p : Presentation) (h : Owned s₀ H s) :
    wp (createChain p) H s (fun _ => True) fun _ H' s' => Owned s₀ H' s' := by
  refine wp_bind_glance fun _ => ?_
  split
  · exact h
  · refine wp_bind_selectFor ?_
    split
    · exact h.lock _
    · exact (h.lock _).setFamily List.mem_cons_self _

theorem owned_judgeChain (p : Presentation) (h : Owned s₀ H s) :
    wp (judgeChain p) H s (fun _ => True) fun _ H' s' => Owned s₀ H' s' := by
  refine wp_bind_selectFor ?_
  have hlock := h.lock p.token.chain
  split
  · exact hlock.setFamily List.mem_cons_self _
  · exact hlock.setFamily List.mem_cons_self _
  · exact hlock.setFamily List.mem_cons_self _
  · exact hlock
  · exact hlock

theorem owned_rotateRefreshChain (p : Presentation) (h : Owned s₀ H s) :
    wp (rotateRefreshChain p) H s (fun _ => True) fun _ H' s' => Owned s₀ H' s' := by
  by_cases hfid : p.token.fid = none
  · simp only [rotateRefreshChain, if_pos hfid]
    refine wp_seq (owned_createChain p h) fun created H s h => ?_
    split
    · exact wp_seq (owned_pruneChains _ _ h) fun _ H s h => h
    · exact owned_judgeChain p h
  · simp only [rotateRefreshChain, if_neg hfid]
    exact owned_judgeChain p h

/-- Every transaction of the module only changes chains that it has locked. -/
theorem owned_prog (op : Op) (s : AuthDb) :
    wp (prog op) [] s (fun _ => True) fun _ H s' => Owned s H s' := by
  have hrefl : Owned s [] s := fun _ => Or.inl rfl
  cases op with
  | login t => exact hrefl
  | administer w => exact hrefl
  | refresh p =>
      show wp (refreshTokenPayload p) _ _ _ _
      unfold refreshTokenPayload
      split
      · exact hrefl
      · refine wp_bind_glance fun s₁ => ?_
        split
        · trivial
        · exact hrefl
        · exact owned_rotateRefreshChain p hrefl

end Locks

/-! ### Discipline -/

section Discipline

variable {H : Held ChainKey}

theorem disciplined_pruneChains (tid : TenantId) (now : Int) :
    Disciplined agree (pruneChains tid now) H fun _ _ => True := by
  refine disciplined_bind_glance fun dead => ?_
  refine disciplined_forEach (fun _ => True) trivial ?_ fun _ _ => trivial
  intro k H _
  refine disciplined_bind_selectFor (fun s s' h => h) fun row => ?_
  rw [Tx.whenever]
  split
  · exact ⟨respects_dropFamily k, trivial⟩
  · trivial

theorem disciplined_createChain (p : Presentation) :
    Disciplined agree (createChain p) H fun _ _ => True := by
  refine disciplined_bind_glance fun taken => ?_
  split
  · trivial
  · refine disciplined_bind_selectFor (fun s s' h => congrArg Option.isSome h) fun taken => ?_
    split
    · trivial
    · exact ⟨respects_setFamily _ _, trivial⟩

theorem disciplined_judgeChain (p : Presentation) :
    Disciplined agree (judgeChain p) H fun _ _ => True := by
  refine disciplined_bind_selectFor (fun s s' h => h) fun row => ?_
  split
  · exact ⟨respects_setFamily _ _, trivial⟩
  · exact ⟨respects_setFamily _ _, trivial⟩
  · exact ⟨respects_setFamily _ _, trivial⟩
  · trivial
  · trivial

theorem disciplined_rotateRefreshChain (p : Presentation) :
    Disciplined agree (rotateRefreshChain p) H fun _ _ => True := by
  by_cases hfid : p.token.fid = none
  · simp only [rotateRefreshChain, if_pos hfid]
    refine Disciplined.seq (disciplined_createChain p) fun created H' _ _ => ?_
    split
    · exact Disciplined.seq (disciplined_pruneChains _ _) fun _ _ _ _ => trivial
    · exact disciplined_judgeChain p
  · simp only [rotateRefreshChain, if_neg hfid]
    exact disciplined_judgeChain p

/-- Every transaction of the module bases its writes on rows it has locked. -/
theorem disciplined_prog (op : Op) : Disciplined agree (prog op) [] fun _ _ => True := by
  cases op with
  | login t => trivial
  | administer w => exact ⟨fun _ _ _ _ h => h, trivial⟩
  | refresh p =>
      show Disciplined agree (refreshTokenPayload p) [] _
      unfold refreshTokenPayload
      split
      · trivial
      refine disciplined_bind_glance fun checked => ?_
      split
      · trivial
      · trivial
      exact disciplined_rotateRefreshChain p

end Discipline

/-- So interleavings of them are serial runs in the order of their commits. -/
theorem sound : Sound prog agree (fun _ => True) fun _ => True where
  equivalence := agree_equivalence
  disciplined := disciplined_prog
  commits op s _ := wp_mono (owned_prog op s) (fun _ h => h) fun _ _ _ h => ⟨trivial, h.covered⟩

end Auth

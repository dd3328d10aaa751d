import SrisurartPos.Auth.RefreshChain
import Mathlib.Data.List.Count

/-! # The safety of a chain

What any interleaving of presentations can get out of a chain of refresh tokens, whoever presents
them: the log of a run is read from one chain, with the ids that are in use known to have been drawn
(`Fresh`), what each id was answered (`ChainInv`), and what an honest client relies on
(`HonestInv`). -/

namespace Auth

open Txn

/-! ## What a run may bring

A token is not forged and a UUID is not drawn twice; and since each statement of a transaction is
stopped after 25 seconds and each pause after 5, one that commits first began no hour later. -/

abbrev Entry := Op × Answer

/-- The refresh tokens that are signed with an entry of the log. -/
def Entry.signed : Entry → List RefreshToken
  | (.login t, _)               => [t]
  | (.refresh p, .tokens jti _) => [{ p.token with jti, fid := some p.token.chain.2 }]
  | _                           => []

def Op.drawn : Op → List Jti
  | .login t      => [t.jti]
  | .refresh p    => [p.nextJti]
  | .administer _ => []

def signed (log : List Entry) : List RefreshToken := log.flatMap Entry.signed

def drawn (log : List Entry) : List Jti := log.flatMap fun e => e.1.drawn

/-- When the transactions of the log began. -/
def begun (log : List Entry) : List Int :=
  log.flatMap fun e => match e.1 with | .refresh p => [p.now] | _ => []

def commitLag : Int := seconds 3600

/-- What can come next. -/
def Allowed (log : List Entry) (e : Entry) : Prop :=
  (∀ jti ∈ e.1.drawn, jti ∉ drawn log) ∧
    match e.1 with
    | .login t      => t.fid = none
    | .refresh p    => (∃ t ∈ signed log, p.token = { t with iat := p.token.iat }) ∧
        ∀ now ∈ begun log, now ≤ p.now + commitLag
    | .administer _ => True

instance (log : List Entry) (e : Entry) : Decidable (Allowed log e) := by
  obtain ⟨op, a⟩ := e
  unfold Allowed
  cases op <;> infer_instance

def WorldAfter (before : List Entry) : List Entry → Prop
  | []       => True
  | e :: log => Allowed before e ∧ WorldAfter (before ++ [e]) log

instance WorldAfter.decidable :
    (before log : List Entry) → Decidable (WorldAfter before log)
  | _, []           => isTrue trivial
  | before, e :: log =>
      have := WorldAfter.decidable (before ++ [e]) log
      inferInstanceAs (Decidable (_ ∧ _))

def World (log : List Entry) : Prop := WorldAfter [] log

instance (log : List Entry) : Decidable (World log) := WorldAfter.decidable [] log

theorem WorldAfter.snoc {before log : List Entry} {e : Entry}
    (h : WorldAfter before (log ++ [e])) : WorldAfter before log ∧ Allowed (before ++ log) e := by
  induction log generalizing before with
  | nil => exact ⟨trivial, (List.append_nil before).symm ▸ h.1⟩
  | cons e' log ih =>
      obtain ⟨hfirst, hrest⟩ := h
      obtain ⟨hlog, he⟩ := ih hrest
      refine ⟨⟨hfirst, hlog⟩, ?_⟩
      rwa [List.append_assoc] at he

theorem World.snoc {log : List Entry} {e : Entry} (h : World (log ++ [e])) :
    World log ∧ Allowed log e := WorldAfter.snoc h

theorem mem_begun {log : List Entry} {q : Presentation} {a : Answer}
    (h : (Op.refresh q, a) ∈ log) : q.now ∈ begun log :=
  List.mem_flatMap.mpr ⟨_, h, List.mem_singleton.mpr rfl⟩

theorem mem_signed_snoc {log : List Entry} {e : Entry} {t : RefreshToken} :
    t ∈ signed (log ++ [e]) ↔ t ∈ signed log ∨ t ∈ e.signed := by
  simp [signed]

theorem mem_drawn_snoc {log : List Entry} {e : Entry} {jti : Jti} :
    jti ∈ drawn (log ++ [e]) ↔ jti ∈ drawn log ∨ jti ∈ e.1.drawn := by
  simp [drawn]

/-! ## Invariants of a run -/

/-- What an operation leaves: a presentation judges its chain, the others leave all chains alone. -/
def Effect (op : Op) (s : AuthDb) (a : Answer) (s' : AuthDb) : Prop :=
  match op with
  | .refresh p => Presented p s a s'
  | _          => a = .done ∧ s'.families = s.families

theorem wp_prog (op : Op) (s : AuthDb) :
    wp (prog op) [] s (fun _ => True) fun a _ s' => Effect op s a s' := by
  cases op with
  | login t => exact ⟨rfl, rfl⟩
  | administer w => exact ⟨rfl, rfl⟩
  | refresh p => exact wp_refreshTokenPayload p

/-- Ids that are in use have been drawn. -/
structure Fresh (log : List Entry) (s : AuthDb) : Prop where
  chain : ∀ t ∈ signed log, t.chain.2 ∈ drawn log
  signed : ∀ t ∈ signed log, t.jti ∈ drawn log
  presented : ∀ p a, (Op.refresh p, a) ∈ log → p.token.jti ∈ drawn log
  current : ∀ k f, s.families.get k = some f → f.currentJti ∈ drawn log
  /-- a chain's tokens all end when its login's does -/
  exp : ∀ t ∈ Auth.signed log, ∀ t' ∈ Auth.signed log, t.chain = t'.chain → t.exp = t'.exp

theorem Fresh.start {s : AuthDb} (h : s.families = Table.empty) : Fresh [] s where
  chain t ht := by cases ht
  signed t ht := by cases ht
  presented p a hp := by cases hp
  current k f hf := by
    rw [h] at hf
    cases hf
  exp t ht := by cases ht

/-- The id that an answer carries was drawn before, or is the one drawn for it. -/
theorem Judged.answer {p : Presentation} {row row' : Option Family} {jti : Jti} {turn : Turn}
    (h : Judged p row (.tokens jti turn) row') :
    jti = p.nextJti ∨ ∃ f ∈ row, jti = f.currentJti := by
  cases h with
  | created hfid => exact Or.inl rfl
  | rotated hlive hjti => exact Or.inl rfl
  | grace hlive hjti hprev hused htime => exact Or.inr ⟨_, rfl, rfl⟩

/-- The token that a chain names as current is the one just given out, or the one it named before. -/
theorem Judged.current {p : Presentation} {row row' : Option Family} {a : Answer} {f' : Family}
    (h : Judged p row a row') (hf' : row' = some f') :
    f'.currentJti = p.nextJti ∨ ∃ f ∈ row, f'.currentJti = f.currentJti := by
  cases h with
  | early | revoked => exact Or.inr ⟨f', hf', rfl⟩
  | unknown => cases hf'
  | created hfid =>
      cases hf'
      exact Or.inl rfl
  | rotated hlive hjti =>
      cases hf'
      exact Or.inl rfl
  | grace | reused =>
      cases hf'
      exact Or.inr ⟨_, rfl, rfl⟩

theorem KeptAt.some {now : Int} {k : ChainKey} {s s' : AuthDb} {f : Family} (h : KeptAt now k s s')
    (hf : s'.families.get k = .some f) : s.families.get k = .some f := by
  rcases h with h | ⟨f', -, -, hnone⟩
  · exact h.symm.trans hf
  · rw [hnone] at hf
    cases hf

theorem Fresh.step {log : List Entry} {s s' : AuthDb} {op : Op} {a : Answer} (h : Fresh log s)
    (hallow : Allowed log (op, a)) (he : Effect op s a s') : Fresh (log ++ [(op, a)]) s' := by
  have hold : ∀ {jti}, jti ∈ drawn log → jti ∈ drawn (log ++ [(op, a)]) :=
    fun hj => mem_drawn_snoc.mpr (Or.inl hj)
  -- `hnew`: what the entry draws has not been drawn before
  obtain ⟨hnew, hop⟩ := hallow
  cases op with
  -- a login signs a token without a family of its own: its chain is its own id
  | login t =>
      obtain ⟨rfl, hfam⟩ := he
      have hdrawn : t.jti ∈ drawn (log ++ [(.login t, .done)]) :=
        mem_drawn_snoc.mpr (Or.inr List.mem_cons_self)
      have hchain : t.chain.2 = t.jti := by
        rw [RefreshToken.chain, show t.fid = none from hop]
        rfl
      -- the new token's chain is new: nothing signed before is in it
      have hno : ∀ t' ∈ Auth.signed log, t.chain ≠ t'.chain := by
        intro t' ht' heq
        apply hnew t.jti List.mem_cons_self
        rw [← hchain, heq]
        exact h.chain t' ht'
      refine ⟨fun t' ht' => ?_, fun t' ht' => ?_, fun p b hp => ?_, fun k f hf => ?_,
        fun t₁ h₁ t₂ h₂ heq => ?_⟩
      · rcases mem_signed_snoc.mp ht' with ht' | ht'
        · exact hold (h.chain t' ht')
        · obtain rfl := List.mem_singleton.mp ht'
          exact hchain ▸ hdrawn
      · rcases mem_signed_snoc.mp ht' with ht' | ht'
        · exact hold (h.signed t' ht')
        · obtain rfl := List.mem_singleton.mp ht'
          exact hdrawn
      · rcases List.mem_append.mp hp with hp | hp
        · exact hold (h.presented p b hp)
        · cases List.mem_singleton.mp hp
      · exact hold (h.current k f (hfam ▸ hf))
      · rcases mem_signed_snoc.mp h₁ with old₁ | new₁ <;>
          rcases mem_signed_snoc.mp h₂ with old₂ | new₂
        · exact h.exp t₁ old₁ t₂ old₂ heq
        · obtain rfl := List.mem_singleton.mp new₂
          exact absurd heq.symm (hno t₁ old₁)
        · obtain rfl := List.mem_singleton.mp new₁
          exact absurd heq (hno t₂ old₂)
        · rw [List.mem_singleton.mp new₁, List.mem_singleton.mp new₂]
  -- nothing is signed, and no family is written
  | administer w =>
      obtain ⟨rfl, hfam⟩ := he
      have hsigned : ∀ t, t ∈ Auth.signed (log ++ [(.administer w, .done)]) → t ∈ Auth.signed log :=
        fun t ht => (mem_signed_snoc.mp ht).resolve_right (by simp [Entry.signed])
      refine ⟨fun t ht => hold (h.chain t (hsigned t ht)),
        fun t ht => hold (h.signed t (hsigned t ht)), fun p b hp => ?_,
        fun k f hf => hold (h.current k f (hfam ▸ hf)),
        fun t₁ h₁ t₂ h₂ heq => h.exp t₁ (hsigned t₁ h₁) t₂ (hsigned t₂ h₂) heq⟩
      rcases List.mem_append.mp hp with hp | hp
      · exact hold (h.presented p b hp)
      · cases List.mem_singleton.mp hp
  -- what is presented has been signed, so its chain is one of those before
  | refresh p =>
      obtain ⟨hjudged, hkept, -⟩ := he
      obtain ⟨⟨t₀, ht₀, htok⟩, -⟩ := hop
      have hchain₀ : p.token.chain = t₀.chain := by rw [htok]; rfl
      have hjti₀ : p.token.jti = t₀.jti := by rw [htok]
      have hexp₀ : p.token.exp = t₀.exp := by rw [htok]
      have hnext : p.nextJti ∈ drawn (log ++ [(.refresh p, a)]) :=
        mem_drawn_snoc.mpr (Or.inr List.mem_cons_self)
      -- what this entry signs
      have hthis : ∀ t, t ∈ Entry.signed (.refresh p, a) → t.chain = p.token.chain ∧
          t.exp = p.token.exp ∧ t.jti ∈ drawn (log ++ [(.refresh p, a)]) := by
        intro t ht
        cases a with
        | tokens jti turn =>
            obtain rfl := List.mem_singleton.mp ht
            refine ⟨rfl, rfl, ?_⟩
            rcases hjudged.answer with rfl | ⟨f, hf, rfl⟩
            · exact hnext
            · exact hold (h.current _ f hf)
        | refused r => cases ht
        | done => cases ht
      refine ⟨fun t ht => ?_, fun t ht => ?_, fun q b hq => ?_, fun k f hf => ?_,
        fun t₁ h₁ t₂ h₂ heq => ?_⟩
      · rcases mem_signed_snoc.mp ht with ht | ht
        · exact hold (h.chain t ht)
        · rw [(hthis t ht).1, hchain₀]
          exact hold (h.chain t₀ ht₀)
      · rcases mem_signed_snoc.mp ht with ht | ht
        · exact hold (h.signed t ht)
        · exact (hthis t ht).2.2
      · rcases List.mem_append.mp hq with hq | hq
        · exact hold (h.presented q b hq)
        · cases List.mem_singleton.mp hq
          exact hold (hjti₀ ▸ h.signed t₀ ht₀)
      -- only the presented chain's family is written
      · by_cases hk : k = p.token.chain
        · subst hk
          rcases hjudged.current hf with hcur | ⟨f₀, hf₀, hcur⟩
          · exact hcur ▸ hnext
          · exact hold (hcur ▸ h.current _ f₀ hf₀)
        · exact hold (h.current k f ((hkept k hk).some hf))
      -- a token signed here has the chain and the expiry of the one presented
      · have hof : ∀ t, t ∈ Auth.signed (log ++ [(.refresh p, a)]) →
            ∃ t' ∈ Auth.signed log, t.chain = t'.chain ∧ t.exp = t'.exp := by
          intro t ht
          rcases mem_signed_snoc.mp ht with ht | ht
          · exact ⟨t, ht, rfl, rfl⟩
          · exact ⟨t₀, ht₀, (hthis t ht).1.trans hchain₀, (hthis t ht).2.1.trans hexp₀⟩
        obtain ⟨u₁, hu₁, hc₁, he₁⟩ := hof t₁ h₁
        obtain ⟨u₂, hu₂, hc₂, he₂⟩ := hof t₂ h₂
        rw [he₁, he₂]
        exact h.exp u₁ hu₁ u₂ hu₂ (hc₁.symm.trans (heq.trans hc₂))

/-! ## One chain -/

/-- The entry answers the token `jti` of the chain, as the one or the other. -/
def answers (k : ChainKey) (jti : Jti) (turn : Turn) : Entry → Bool
  | (.refresh p, .tokens _ turn') =>
      decide (p.token.chain = k ∧ p.token.jti = jti ∧ turn' = turn)
  | _ => false

/-- The entry answers a token of the chain. -/
def Answers (k : ChainKey) (e : Entry) : Prop :=
  ∃ p jti turn, e = (.refresh p, .tokens jti turn) ∧ p.token.chain = k

/-- The entry revokes the chain, or finds it revoked. -/
def Burns (k : ChainKey) (e : Entry) : Prop :=
  ∃ p r, e = (.refresh p, .refused r) ∧ p.token.chain = k ∧ (r = .reused ∨ r = .revoked)

/-- The chain's tokens were long past their end when some transaction began. -/
def Expired (k : ChainKey) (log : List Entry) : Prop :=
  ∃ q a t, (Op.refresh q, a) ∈ log ∧ t ∈ signed log ∧ t.chain = k ∧ t.exp < q.now - day

/-- What a run knows of one chain. -/
structure ChainInv (k : ChainKey) (log : List Entry) (s : AuthDb) : Prop where
  once : ∀ jti turn, log.countP (answers k jti turn) ≤ 1
  gone : s.families.get k = none → Expired k log ∨
    (∀ jti turn, log.countP (answers k jti turn) = 0) ∧ ∀ e ∈ log, ¬ Burns k e
  current : ∀ f, s.families.get k = some f → ∀ turn,
    log.countP (answers k f.currentJti turn) = 0
  previous : ∀ f, s.families.get k = some f → f.graceUsed = false → ∀ jti,
    f.previousJti = some jti → log.countP (answers k jti .grace) = 0
  expires : ∀ f, s.families.get k = some f → ∃ t ∈ signed log, t.chain = k ∧ t.exp = f.expiresAt
  burnt : ∀ e ∈ log, Burns k e → ∀ f, s.families.get k = some f → f.revoked = true
  final : log.Pairwise fun e e' => Burns k e → ¬ Answers k e'

theorem ChainInv.start {k : ChainKey} {s : AuthDb} (h : s.families = Table.empty) :
    ChainInv k [] s := by
  have hnone : ∀ f, s.families.get k ≠ some f := by
    intro f hf
    rw [h] at hf
    cases hf
  exact ⟨fun _ _ => Nat.zero_le _, fun _ => Or.inr ⟨fun _ _ => rfl, by simp⟩,
    fun f hf => absurd hf (hnone f), fun f hf => absurd hf (hnone f),
    fun f hf => absurd hf (hnone f), by simp, List.Pairwise.nil⟩

theorem Expired.snoc {k : ChainKey} {log : List Entry} (h : Expired k log) (e : Entry) :
    Expired k (log ++ [e]) := by
  obtain ⟨q, a, t, hq, ht, hk, hexp⟩ := h
  exact ⟨q, a, t, List.mem_append_left _ hq, mem_signed_snoc.mpr (Or.inl ht), hk, hexp⟩

theorem countP_snoc {k : ChainKey} {jti : Jti} {turn : Turn} (log : List Entry) (e : Entry) :
    (log ++ [e]).countP (answers k jti turn) =
      log.countP (answers k jti turn) + if answers k jti turn e then 1 else 0 := by
  rw [List.countP_append, List.countP_singleton]

theorem Answers.of_answers {k : ChainKey} {jti : Jti} {turn : Turn} {e : Entry}
    (h : answers k jti turn e = true) : Answers k e := by
  unfold answers at h
  split at h
  · rename_i p jti' turn'
    exact ⟨p, jti', turn', rfl, (of_decide_eq_true h).1⟩
  · cases h

section Chain

variable {k : ChainKey} {log : List Entry} {s s' : AuthDb} {e : Entry}

/-- An entry that is not the chain's leaves its row, or takes it away when it is long dead. -/
theorem ChainInv.other (h : ChainInv k log s) (hno : ¬ Answers k e) (hburn : ¬ Burns k e)
    (hkept : s'.families.get k = s.families.get k ∨
      (s'.families.get k = none ∧ Expired k (log ++ [e]))) : ChainInv k (log ++ [e]) s' := by
  have hcount : ∀ jti turn, (log ++ [e]).countP (answers k jti turn) =
      log.countP (answers k jti turn) := by
    intro jti turn
    rw [countP_snoc, if_neg fun ha => hno (Answers.of_answers ha), Nat.add_zero]
  have hrow : ∀ f, s'.families.get k = some f → s.families.get k = some f := by
    intro f hf
    rcases hkept with hsame | ⟨hnone, -⟩
    · exact hsame.symm.trans hf
    · rw [hnone] at hf
      cases hf
  have hnoburn : ∀ e' ∈ log ++ [e], Burns k e' → e' ∈ log := by
    intro e' he' hb
    rcases List.mem_append.mp he' with he' | he'
    · exact he'
    · exact absurd (List.mem_singleton.mp he' ▸ hb) hburn
  refine ⟨fun jti turn => ?_, fun hnone => ?_, fun f hf turn => ?_, fun f hf hg jti hj => ?_,
    fun f hf => ?_, fun e' he' hb f hf => h.burnt e' (hnoburn e' he' hb) hb f (hrow f hf), ?_⟩
  · rw [hcount]
    exact h.once jti turn
  · rcases hkept with hsame | ⟨-, hexp⟩
    · rcases h.gone (hsame ▸ hnone) with hexp | ⟨hzero, hclean⟩
      · exact Or.inl (hexp.snoc e)
      · refine Or.inr ⟨fun jti turn => (hcount jti turn).trans (hzero jti turn), ?_⟩
        exact fun e' he' hb => hclean e' (hnoburn e' he' hb) hb
    · exact Or.inl hexp
  · rw [hcount]
    exact h.current f (hrow f hf) turn
  · rw [hcount]
    exact h.previous f (hrow f hf) hg jti hj
  · obtain ⟨t, ht, hk, hexp⟩ := h.expires f (hrow f hf)
    exact ⟨t, mem_signed_snoc.mpr (Or.inl ht), hk, hexp⟩
  · refine List.pairwise_append.mpr ⟨h.final, List.pairwise_singleton _ _, fun e₁ _ e₂ he₂ _ => ?_⟩
    exact List.mem_singleton.mp he₂ ▸ hno

/-- A refusal that leaves the row, or revokes it. -/
theorem ChainInv.refused (h : ChainInv k log s) {p : Presentation} {r : Refusal}
    (hrow : s'.families.get k = s.families.get k ∧ (¬ Burns k (.refresh p, .refused r) ∨
        ∃ f, s.families.get k = some f ∧ f.revoked = true) ∨
      ∃ f, s.families.get k = some f ∧ s'.families.get k = some { f with revoked := true }) :
    ChainInv k (log ++ [(.refresh p, .refused r)]) s' := by
  have hno : ¬ Answers k (.refresh p, .refused r) := by
    rintro ⟨q, jti, turn, heq, -⟩
    cases heq
  have hcount : ∀ jti turn, (log ++ [(Op.refresh p, Answer.refused r)]).countP (answers k jti turn) =
      log.countP (answers k jti turn) := by
    intro jti turn
    rw [countP_snoc, if_neg fun ha => hno (Answers.of_answers ha), Nat.add_zero]
  have hfinal := List.pairwise_append.mpr ⟨h.final,
    List.pairwise_singleton _ (Op.refresh p, Answer.refused r), fun e₁ _ e₂ he₂ _ =>
      List.mem_singleton.mp he₂ ▸ hno⟩
  rcases hrow with ⟨hsame, hburn⟩ | ⟨f₀, hf₀, hnew⟩
  · by_cases hb : Burns k (.refresh p, .refused r)
    · obtain ⟨f₀, hf₀, hrev⟩ := hburn.resolve_left (fun hn => hn hb)
      refine ⟨fun jti turn => (hcount jti turn).trans_le (h.once jti turn), fun hnone => ?_,
        fun f hf turn => (hcount _ turn).trans (h.current f (hsame ▸ hf) turn),
        fun f hf hg jti hj => (hcount jti _).trans (h.previous f (hsame ▸ hf) hg jti hj),
        fun f hf => ?_, fun e' he' hb f hf => ?_, hfinal⟩
      · rw [hsame, hf₀] at hnone
        cases hnone
      · obtain ⟨t, ht, hk, hexp⟩ := h.expires f (hsame ▸ hf)
        exact ⟨t, mem_signed_snoc.mpr (Or.inl ht), hk, hexp⟩
      · obtain rfl : f₀ = f := by simpa using hf₀.symm.trans (hsame.symm.trans hf)
        exact hrev
    · exact h.other hno hb (Or.inl hsame)
  · have hf' : ∀ f, s'.families.get k = some f → f = { f₀ with revoked := true } :=
      fun f hf => (Option.some.inj (hnew.symm.trans hf)).symm
    refine ⟨fun jti turn => (hcount jti turn).trans_le (h.once jti turn), fun hnone => ?_,
      fun f hf turn => ?_, fun f hf hg jti hj => ?_, fun f hf => ?_, fun e' he' hb f hf => ?_,
      hfinal⟩
    · rw [hnew] at hnone
      cases hnone
    · rw [hf' f hf]
      exact (hcount _ turn).trans (h.current f₀ hf₀ turn)
    · rw [hf' f hf] at hg hj
      exact (hcount jti _).trans (h.previous f₀ hf₀ hg jti hj)
    · rw [hf' f hf]
      obtain ⟨t, ht, hk, hexp⟩ := h.expires f₀ hf₀
      exact ⟨t, mem_signed_snoc.mpr (Or.inl ht), hk, hexp⟩
    · rw [hf' f hf]

/-- An answer: it takes its token's one turn, and the row's new current id is still unused. -/
theorem ChainInv.answered (h : ChainInv k log s) {p : Presentation} {jti : Jti} {turn : Turn}
    {f' : Family} (hrow : s'.families.get k = some f')
    (hclean : ∀ e ∈ log, ¬ Burns k e)
    (hzero : log.countP (answers k p.token.jti turn) = 0)
    (hcurrent : p.token.jti ≠ f'.currentJti ∧
      ∀ turn, log.countP (answers k f'.currentJti turn) = 0)
    (hprevious : f'.graceUsed = false → ∀ jti, f'.previousJti = some jti →
      log.countP (answers k jti .grace) = 0 ∧ turn ≠ .grace)
    (hexpires : ∃ t ∈ signed log, t.chain = k ∧ t.exp = f'.expiresAt) :
    ChainInv k (log ++ [(.refresh p, .tokens jti turn)]) s' := by
  have hrow' : ∀ f, s'.families.get k = some f → f = f' :=
    fun f hf => (Option.some.inj (hrow.symm.trans hf)).symm
  have hthis : ∀ {jti' turn'}, answers k jti' turn' (.refresh p, .tokens jti turn) = true →
      jti' = p.token.jti ∧ turn' = turn := by
    intro jti' turn' ha
    obtain ⟨-, hj, ht⟩ := of_decide_eq_true ha
    exact ⟨hj.symm, ht.symm⟩
  have hnoburn : ∀ e ∈ log ++ [(Op.refresh p, Answer.tokens jti turn)], ¬ Burns k e := by
    intro e he
    rcases List.mem_append.mp he with he | he
    · exact hclean e he
    · rw [List.mem_singleton.mp he]
      rintro ⟨q, r, heq, -⟩
      cases heq
  refine ⟨fun jti' turn' => ?_, fun hnone => ?_, fun f hf turn' => ?_, fun f hf hg jti' hj => ?_,
    fun f hf => ?_, fun e he hb => absurd hb (hnoburn e he), ?_⟩
  · rw [countP_snoc]
    split
    · obtain ⟨rfl, rfl⟩ := hthis ‹_›
      rw [hzero]
    · exact h.once jti' turn'
  · rw [hrow] at hnone
    cases hnone
  · rw [hrow' f hf, countP_snoc, hcurrent.2, if_neg]
    intro ha
    exact hcurrent.1 (hthis ha).1.symm
  · rw [hrow' f hf] at hg hj
    obtain ⟨hnone, hturn⟩ := hprevious hg jti' hj
    rw [countP_snoc, hnone, if_neg]
    intro ha
    exact hturn (hthis ha).2.symm
  · obtain ⟨t, ht, hk', hexp⟩ := hexpires
    rw [hrow' f hf]
    exact ⟨t, mem_signed_snoc.mpr (Or.inl ht), hk', hexp⟩
  · refine List.pairwise_append.mpr ⟨h.final, List.pairwise_singleton _ _, fun e₁ he₁ e₂ _ hb => ?_⟩
    exact absurd hb (hclean e₁ he₁)

/-- A chain whose tokens are in time is not expired, whatever transactions ran before. -/
theorem not_expired {p : Presentation} {a : Answer} (hfresh : Fresh log s)
    (hallow : Allowed log (.refresh p, a)) (htime : p.now ≤ p.token.exp + clockTolerance) :
    ¬ Expired p.token.chain log := by
  rintro ⟨q, b, t, hq, ht, hchain, hexp⟩
  obtain ⟨-, ⟨t₀, ht₀, htok⟩, hclock⟩ := hallow
  have hsame : t.exp = p.token.exp := by
    rw [htok]
    apply hfresh.exp t ht t₀ ht₀
    rw [hchain, htok]
    rfl
  have hlag := hclock q.now (mem_begun hq)
  rw [hsame] at hexp
  simp only [commitLag, day, clockTolerance, seconds] at hexp hlag htime
  omega

/-- A UUID that is drawn only now was never presented. -/
theorem countP_of_not_drawn (hfresh : Fresh log s) {jti : Jti} (hj : jti ∉ drawn log)
    (turn : Turn) : log.countP (answers k jti turn) = 0 := by
  rw [List.countP_eq_zero]
  rintro ⟨op, a⟩ he ha
  obtain ⟨p, jti', turn', heq, -⟩ := Answers.of_answers ha
  cases heq
  obtain ⟨-, rfl, -⟩ := of_decide_eq_true ha
  exact hj (hfresh.presented p _ he)

theorem not_burns_of_early {p : Presentation} {r : Refusal}
    (hr : r ≠ .reused ∧ r ≠ .revoked) : ¬ Burns k (.refresh p, .refused r) := by
  rintro ⟨q, r', heq, -, hr'⟩
  cases heq
  exact hr'.elim hr.1 hr.2

theorem ChainInv.step {op : Op} {a : Answer} (h : ChainInv k log s) (hfresh : Fresh log s)
    (hallow : Allowed log (op, a)) (he : Effect op s a s') :
    ChainInv k (log ++ [(op, a)]) s' := by
  cases op with
  -- neither refreshes: no token of the chain is answered, and its family stays
  | login | administer =>
      obtain ⟨rfl, hfam⟩ := he
      refine h.other ?_ ?_ (Or.inl (by rw [hfam]))
      · rintro ⟨p, jti, turn, heq, -⟩
        cases heq
      · rintro ⟨p, r, heq, -⟩
        cases heq
  | refresh p =>
      obtain ⟨hjudged, hkept, htime⟩ := he
      have htok : ∃ t ∈ signed log, t.chain = p.token.chain ∧ t.exp = p.token.exp := by
        obtain ⟨-, ⟨t, ht, htok⟩, -⟩ := hallow
        exact ⟨t, ht, by rw [htok]; rfl, by rw [htok]⟩
      -- a refresh of another chain leaves this one alone, at most it is pruned
      by_cases hk : p.token.chain = k
      · subst hk
        have hnext : p.nextJti ∉ drawn log := hallow.1 _ List.mem_cons_self
        have hjti : p.token.jti ∈ drawn log := by
          obtain ⟨-, ⟨t, ht, htok⟩, -⟩ := hallow
          rw [htok]
          exact hfresh.signed t ht
        have hne : p.token.jti ≠ p.nextJti := fun heq => hnext (heq ▸ hjti)
        have hfirst : ∀ turn, log.countP (answers p.token.chain p.nextJti turn) = 0 :=
          fun turn => countP_of_not_drawn hfresh hnext turn
        generalize hrow : s.families.get p.token.chain = row at hjudged
        generalize hrow' : s'.families.get p.token.chain = row' at hjudged
        cases hjudged with
        -- refused before the family is read
        | early hr =>
            refine h.refused (Or.inl ⟨hrow'.trans hrow.symm, Or.inl (not_burns_of_early ?_)⟩)
            rename_i r
            constructor <;> rintro rfl <;> cases hr
        | unknown =>
            refine h.refused (Or.inl ⟨hrow'.trans hrow.symm, Or.inl (not_burns_of_early ?_)⟩)
            constructor <;> intro hr <;> cases hr
        -- the first refresh of a chain: no answer has been given for it yet
        | created hfid =>
            have hin := htime.resolve_left (by rintro ⟨r, hr, -⟩; cases hr)
            obtain ⟨hzero, hclean⟩ :=
              (h.gone hrow).resolve_left (not_expired hfresh hallow hin)
            refine h.answered hrow' hclean (hzero _ _) ⟨hne, hfirst⟩ (fun _ jti hj => ?_) htok
            cases hj
            exact ⟨hzero _ _, by simp⟩
        -- the current token: a live family says that nothing burnt the chain
        | @rotated f hlive hcur =>
            have hclean : ∀ e ∈ log, ¬ Burns p.token.chain e := by
              intro e he hb
              have := h.burnt e he hb f hrow
              rw [hlive] at this
              cases this
            have hzero : ∀ turn, log.countP (answers p.token.chain f.currentJti turn) = 0 :=
              h.current f hrow
            refine h.answered hrow' hclean (hcur ▸ hzero _) ⟨hne, hfirst⟩
              (fun _ jti hj => ?_) (h.expires f hrow)
            cases hj
            exact ⟨hzero _, by simp⟩
        -- the token before, within the grace: the current one is handed out again
        | @grace f hlive hcur hprev hused hgrace =>
            have hclean : ∀ e ∈ log, ¬ Burns p.token.chain e := by
              intro e he hb
              have := h.burnt e he hb f hrow
              rw [hlive] at this
              cases this
            refine h.answered hrow' hclean (h.previous f hrow hused _ hprev)
              ⟨hcur, h.current f hrow⟩ (fun hg => ?_) (h.expires f hrow)
            cases hg
        -- an old token: this is what burns the chain
        | @reused f hlive hcur hgrace => exact h.refused (Or.inr ⟨f, hrow, hrow'⟩)
        | @revoked f hrev =>
            exact h.refused (Or.inl ⟨hrow'.trans hrow.symm, Or.inr ⟨f, hrow, hrev⟩⟩)
      · refine h.other ?_ ?_ ?_
        · rintro ⟨q, jti, turn, heq, hq⟩
          cases heq
          exact hk hq
        · rintro ⟨q, r, heq, hq, -⟩
          cases heq
          exact hk hq
        · rcases hkept k (fun heq => hk heq.symm) with hsame | ⟨f, hf, hdead, hnone⟩
          · exact Or.inl hsame
          · obtain ⟨t, ht, htk, hexp⟩ := h.expires f hf
            refine Or.inr ⟨hnone, p, a, t, by simp, mem_signed_snoc.mpr (Or.inl ht), htk, ?_⟩
            rw [hexp]
            exact hdead

end Chain

/-! ## An honest client

It holds one token, presents it again until it is answered, and takes the token that an answer
carries (`_executeRefresh`). It may lose the reply to an answer, but not the next one too, and comes
back within the grace period. -/

structure Client where
  jti : Jti
  /-- when the reply that it is missing was made -/
  lost : Option Int

/-- An entry of the log, seen from the client of the chain `k`. -/
inductive Client.Moves (k : ChainKey) : Client → Entry → Client → Prop where
  | other {c : Client} {e : Entry} (he : ∀ p, e.1 = .refresh p → p.token.chain ≠ k) :
      Moves k c e c
  | delivered {c : Client} {p : Presentation} {jti : Jti} {turn : Turn}
      (hk : p.token.chain = k) (hjti : p.token.jti = c.jti)
      (htime : ∀ t, c.lost = some t → p.now - t < refreshGraceMax) :
      Moves k c (.refresh p, .tokens jti turn) ⟨jti, none⟩
  | lost {c : Client} {p : Presentation} {jti : Jti} {turn : Turn}
      (hk : p.token.chain = k) (hjti : p.token.jti = c.jti) (hlast : c.lost = none) :
      Moves k c (.refresh p, .tokens jti turn) ⟨c.jti, some p.now⟩
  | refused {c : Client} {p : Presentation} {r : Refusal}
      (hk : p.token.chain = k) (hjti : p.token.jti = c.jti)
      (htime : ∀ t, c.lost = some t → p.now - t < refreshGraceMax) :
      Moves k c (.refresh p, .refused r) c

/-- All of the chain's presentations are the client's. -/
inductive Honest (k : ChainKey) : List Entry → Client → Prop where
  | login : Honest k [] ⟨k.2, none⟩
  | snoc {log : List Entry} {c c' : Client} {e : Entry} : Honest k log c → Client.Moves k c e c' →
      Honest k (log ++ [e]) c'

theorem Honest.of_snoc {k : ChainKey} {log : List Entry} {e : Entry} {c' : Client}
    (h : Honest k (log ++ [e]) c') : ∃ c, Honest k log c ∧ Client.Moves k c e c' := by
  generalize hl : log ++ [e] = l at h
  cases h with
  | login => simp at hl
  | snoc h hm =>
      obtain ⟨rfl, he⟩ := List.append_inj' hl rfl
      cases he
      exact ⟨_, h, hm⟩

/-- The row as an honest client relies on it. -/
def Client.Trusts (c : Client) (f : Family) : Prop :=
  f.revoked = false ∧
    match c.lost with
    | none   => f.currentJti = c.jti
    | some t => f.previousJti = some c.jti ∧ f.graceUsed = false ∧ f.rotatedAt = t

/-- The chain of an honest client is not revoked under it. -/
structure HonestInv (k : ChainKey) (log : List Entry) (s : AuthDb) (c : Client) : Prop where
  trusts : ∀ f, s.families.get k = some f → c.Trusts f
  never : ∀ p, (Op.refresh p, Answer.refused .reused) ∈ log → p.token.chain ≠ k

/-- One presentation keeps what the client's token and the row say of each other, whoever presents. -/
theorem HonestInv.step {k : ChainKey} {log : List Entry} {s s' : AuthDb} {op : Op} {a : Answer}
    {c c' : Client} (h : HonestInv k log s c) (he : Effect op s a s')
    (hm : Client.Moves k c (op, a) c') : HonestInv k (log ++ [(op, a)]) s' c' := by
  have hnever : (∀ p, (op, a) = (Op.refresh p, Answer.refused .reused) → p.token.chain ≠ k) →
      ∀ p, (Op.refresh p, Answer.refused .reused) ∈ log ++ [(op, a)] → p.token.chain ≠ k := by
    intro hlast p hp
    rcases List.mem_append.mp hp with hp | hp
    · exact h.never p hp
    · exact hlast p (List.mem_singleton.mp hp).symm
  cases hm with
  -- a presentation of another chain leaves this one's row
  | other hother =>
      refine ⟨fun f hf => h.trusts f ?_, hnever fun p heq => ?_⟩
      · cases op with
        | login | administer =>
            obtain ⟨-, hfam⟩ := he
            exact hfam ▸ hf
        | refresh p =>
            obtain ⟨-, hkept, -⟩ := he
            exact (hkept k (hother p rfl).symm).some hf
      · cases heq
        exact hother p rfl
  | @delivered p jti turn hk hjti htime =>
      subst hk
      obtain ⟨hjudged, -, -⟩ := he
      refine ⟨fun f' hf' => ?_, hnever fun p heq => by cases heq⟩
      generalize hrow : s.families.get p.token.chain = row at hjudged
      rw [hf'] at hjudged
      cases hjudged with
      | created hfid => exact ⟨rfl, rfl⟩
      | rotated hlive hcur => exact ⟨hlive, rfl⟩
      | grace hlive => exact ⟨hlive, rfl⟩
  -- the reply is lost: the client keeps its token, which the row now names as the one before
  | @lost p jti turn hk hjti hlast =>
      subst hk
      obtain ⟨hjudged, -, -⟩ := he
      refine ⟨fun f' hf' => ?_, hnever fun p heq => by cases heq⟩
      generalize hrow : s.families.get p.token.chain = row at hjudged
      rw [hf'] at hjudged
      cases hjudged with
      | created hfid => exact ⟨rfl, congrArg some hjti, rfl, rfl⟩
      | @rotated f hlive hcur => exact ⟨hlive, congrArg some (hcur.symm.trans hjti), rfl, rfl⟩
      | @grace f hlive hcur =>
          -- a client that misses no reply holds the current token
          have htrust := (h.trusts f hrow).2
          rw [hlast] at htrust
          exact absurd (hjti.trans htrust.symm) hcur
  -- a refusal leaves the row, but for the reuse of a token that is neither current nor in its grace
  | @refused p r hk hjti htime =>
      subst hk
      obtain ⟨hjudged, -, -⟩ := he
      generalize hrow : s.families.get p.token.chain = row at hjudged
      generalize hrow' : s'.families.get p.token.chain = row' at hjudged
      have hkeep : row' = row → ∀ f, s'.families.get p.token.chain = some f → c.Trusts f :=
        fun hsame f hf => h.trusts f (hrow.trans (hsame.symm.trans (hrow'.symm.trans hf)))
      cases hjudged with
      | early hr =>
          refine ⟨hkeep rfl, hnever fun q heq => ?_⟩
          cases heq
          cases hr
      | unknown => exact ⟨hkeep rfl, hnever fun q heq => by cases heq⟩
      | revoked => exact ⟨hkeep rfl, hnever fun q heq => by cases heq⟩
      | @reused f hlive hcur hgrace =>
          obtain ⟨-, htrust⟩ := h.trusts f hrow
          cases hlost : c.lost with
          | none =>
              rw [hlost] at htrust
              exact absurd (hjti.trans htrust.symm) hcur
          | some t =>
              rw [hlost] at htrust
              obtain ⟨hprev, hused, rfl⟩ := htrust
              exact absurd ⟨hprev.trans (congrArg some hjti.symm), hused, htime _ hlost⟩ hgrace

/-! ## Safety of the chains -/

/-- At most two ids of the chain can be answered next. -/
def TwoAnswerable {T : Type} [DecidableEq T] (k : ChainKey) (S : System T) : Prop :=
  ∃ a b, ∀ S', Step prog S S' → ∀ p jti turn,
    S'.log = S.log ++ [(Op.refresh p, Answer.tokens jti turn)] → p.token.chain = k →
      p.token.jti = a ∨ p.token.jti = b

/-- A presentation that comes as far as the chain's row and is not answered leaves it revoked. -/
def OthersRevoke {T : Type} [DecidableEq T] (k : ChainKey) (S : System T) : Prop :=
  ∀ S', Step prog S S' → ∀ p r f,
    S'.log = S.log ++ [(Op.refresh p, Answer.refused r)] → p.token.chain = k → r.early = false →
      S.db.families.get k = some f →
        ∃ f', S'.db.families.get k = some f' ∧ f'.revoked = true

/-- The safety of one chain. -/
structure ChainSafe {T : Type} [DecidableEq T] (k : ChainKey) (S : System T) : Prop where
  /-- once as the current token, once as the one just replaced -/
  twice : ∀ jti turn, S.log.countP (answers k jti turn) ≤ 1
  two : TwoAnswerable k S
  others : OthersRevoke k S
  final : S.log.Pairwise fun e e' => Burns k e → ¬ Answers k e'
  honest : ∀ c, Honest k S.log c →
    ∀ p, (Op.refresh p, Answer.refused .reused) ∈ S.log → p.token.chain ≠ k

section Run

variable {T : Type} [DecidableEq T] {s₀ : AuthDb} {S : System T}

/-- The three invariants, carried along a run together. -/
theorem Reachable.invariants (h : Reachable prog s₀ S) (hs₀ : s₀.families = Table.empty)
    (hworld : World S.log) (k : ChainKey) :
    Fresh S.log S.db ∧ ChainInv k S.log S.db ∧
      ∀ c, Honest k S.log c → HonestInv k S.log S.db c := by
  have hserial := h.serial sound trivial
  refine Serial.invariant (fun log s => World log → Fresh log s ∧ ChainInv k log s ∧
    ∀ c, Honest k log c → HonestInv k log s c) hserial ?_ ?_ hworld
  · intro _
    refine ⟨Fresh.start hs₀, ChainInv.start hs₀, fun c hc => ⟨fun f hf => ?_, fun p hp => by cases hp⟩⟩
    rw [hs₀] at hf
    cases hf
  · intro log s op _ hinv
    refine wp_mono (wp_prog op s) (fun _ h => h) fun a H' s' he hworld => ?_
    obtain ⟨hbefore, hallow⟩ := hworld.snoc
    obtain ⟨hfresh, hchain, hhonest⟩ := hinv hbefore
    refine ⟨hfresh.step hallow he, hchain.step hfresh hallow he, fun c' hc' => ?_⟩
    obtain ⟨c, hc, hm⟩ := hc'.of_snoc
    exact (hhonest c hc).step he hm

/-- What a commit of the system does. -/
theorem Reachable.effect (h : Reachable prog s₀ S) {S' : System T} (hstep : Step prog S S')
    {op : Op} {a : Answer} (hlog : S'.log = S.log ++ [(op, a)]) : Effect op S.db a S'.db := by
  rcases h.commits sound trivial hstep (fun op a s s' => Effect op s a s')
      (fun op s _ => wpHeld_of_wp (wp_prog op s)) with
    ⟨-, hsame⟩ | ⟨op', a', heff, hlog'⟩
  · rw [hsame] at hlog
    simp at hlog
  · rw [hlog'] at hlog
    cases List.append_cancel_left hlog
    exact heff

/-- In every state of a run the row's current token and the one just replaced are all that can be answered. -/
theorem Reachable.twoAnswerable (h : Reachable prog s₀ S) (k : ChainKey) : TwoAnswerable k S := by
  have hpresented : ∀ S', Step prog S S' → ∀ p jti turn,
      S'.log = S.log ++ [(Op.refresh p, Answer.tokens jti turn)] →
        Judged p (S.db.families.get p.token.chain) (.tokens jti turn)
          (S'.db.families.get p.token.chain) :=
    fun S' hstep p jti turn hlog => (Reachable.effect h hstep hlog).1
  cases hrow : S.db.families.get k with
  | none =>
      refine ⟨k.2, k.2, fun S' hstep p jti turn hlog hk => Or.inl ?_⟩
      have hj := hpresented S' hstep p jti turn hlog
      subst hk
      rw [hrow] at hj
      generalize S'.db.families.get p.token.chain = row' at hj
      cases hj with
      | created hfid =>
          rw [RefreshToken.chain, hfid]
          rfl
  | some f =>
      refine ⟨f.currentJti, f.previousJti.getD f.currentJti,
        fun S' hstep p jti turn hlog hk => ?_⟩
      have hj := hpresented S' hstep p jti turn hlog
      subst hk
      rw [hrow] at hj
      generalize S'.db.families.get p.token.chain = row' at hj
      cases hj with
      | rotated hlive hcur => exact Or.inl hcur
      | grace hlive hcur hprev =>
          rw [hprev]
          exact Or.inr rfl

/-- What is refused at the row of a chain revokes it, in every state of a run. -/
theorem Reachable.othersRevoke (h : Reachable prog s₀ S) (k : ChainKey) : OthersRevoke k S := by
  intro S' hstep p r f hlog hk hearly hrow
  have hj := (Reachable.effect h hstep hlog).1
  subst hk
  rw [hrow] at hj
  generalize S'.db.families.get p.token.chain = row' at hj ⊢
  cases hj with
  | early hr =>
      rw [hearly] at hr
      cases hr
  | reused => exact ⟨_, rfl, rfl⟩
  | revoked hrev => exact ⟨f, rfl, hrev⟩

/-- Every chain of every run is safe. -/
theorem refresh_chains_safe (h : Reachable prog s₀ S) (hs₀ : s₀.families = Table.empty)
    (hworld : World S.log) (k : ChainKey) : ChainSafe k S := by
  obtain ⟨-, hchain, hhonest⟩ := Reachable.invariants h hs₀ hworld k
  exact ⟨hchain.once, Reachable.twoAnswerable h k, Reachable.othersRevoke h k, hchain.final,
    fun c hc => (hhonest c hc).never⟩

end Run

/-- A shop with one user and no chain. -/
def oneUser : AuthDb where
  families := Table.empty
  accounts := ⟨fun _ => true, fun _ _ => some ⟨true, none⟩, fun _ _ => none⟩

private def loginToken : RefreshToken := ⟨1, 5, none, 10, none, 0, seconds 40000⟩

private def reissued (jti : Jti) : RefreshToken := { loginToken with jti, fid := some 10 }

/-- A reply is lost, the replaced token is answered, and the client goes on with the current one. -/
private def lostReply : List Entry :=
  [(.login loginToken, .done), (.refresh ⟨loginToken, seconds 60, 11⟩, .tokens 11 .rotated),
    (.refresh ⟨loginToken, seconds 90, 12⟩, .tokens 11 .grace),
    (.refresh ⟨reissued 11, seconds 120, 13⟩, .tokens 13 .rotated)]

theorem refresh_chains_safe_of_lostReply :
    ∃ S : System Nat, S.log = lostReply ∧ ChainSafe (1, 10) S := by
  obtain ⟨S, hreach, -, hlog⟩ := reachable_answered (T := Nat)
    (show runAll prog (lostReply.map Prod.fst) oneUser = .ok (lostReply, _) from rfl)
  have hworld : World lostReply := by decide
  exact ⟨S, hlog, refresh_chains_safe hreach rfl (hlog ▸ hworld) (1, 10)⟩

/-- The token was answered, and so was the token that it was answered with. -/
def Stale (k : ChainKey) (log : List Entry) (jti : Jti) : Prop :=
  ∃ q q' next next', (Op.refresh q, Answer.tokens next .rotated) ∈ log ∧ q.token.chain = k ∧
    q.token.jti = jti ∧ (Op.refresh q', Answer.tokens next' .rotated) ∈ log ∧
    q'.token.chain = k ∧ q'.token.jti = next

/-- A user whose account is closed for a while, and a token two generations old presented then. -/
private def closedAccount : List Entry :=
  [(.login loginToken, .done), (.refresh ⟨loginToken, seconds 60, 11⟩, .tokens 11 .rotated),
    (.refresh ⟨reissued 11, seconds 120, 12⟩, .tokens 12 .rotated),
    (.administer fun a => { a with users := fun _ _ => some ⟨false, none⟩ }, .done),
    (.refresh ⟨loginToken, seconds 180, 13⟩, .refused .userInactive),
    (.administer fun a => { a with users := fun _ _ => some ⟨true, none⟩ }, .done),
    (.refresh ⟨reissued 12, seconds 240, 14⟩, .tokens 14 .rotated)]

/-- Not every presentation of an old token revokes its chain: the checks of the account come first,
and a presentation that they refuse leaves the chain as it is. -/
theorem stale_token_may_leave_chain_alive :
    ¬ ∀ S : System Nat, Reachable prog oneUser S → World S.log →
      ∀ k before p r after, S.log = before ++ (Op.refresh p, Answer.refused r) :: after →
        p.token.chain = k → Stale k before p.token.jti → ∀ e ∈ after, ¬ Answers k e := by
  intro hclaim
  obtain ⟨S, hreach, -, hlog⟩ := reachable_answered (T := Nat)
    (show runAll prog (closedAccount.map Prod.fst) oneUser = .ok (closedAccount, _) from rfl)
  have hworld : World closedAccount := by decide
  have hstale : Stale (1, 10) (closedAccount.take 4) 10 :=
    ⟨⟨loginToken, seconds 60, 11⟩, ⟨reissued 11, seconds 120, 12⟩, 11, 12,
      by simp [closedAccount], rfl, rfl, by simp [closedAccount], rfl, rfl⟩
  refine hclaim S hreach (hlog ▸ hworld) (1, 10) (closedAccount.take 4)
    ⟨loginToken, seconds 180, 13⟩ .userInactive (closedAccount.drop 5) (hlog.trans rfl) rfl hstale
    (.refresh ⟨reissued 12, seconds 240, 14⟩, .tokens 14 .rotated) (by simp [closedAccount]) ?_
  exact ⟨_, _, _, rfl, rfl⟩

end Auth

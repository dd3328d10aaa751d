import SrisurartPos.Till.AttemptFacts
import Mathlib.Data.List.Pairwise
import Mathlib.Data.List.Perm.Basic
import Mathlib.Data.List.Nodup

/-! # One action, one document

All that is known of one action until it is done goes under one id and one key. It stays so as long as no
refusal makes the till forget an attempt that the server has, or that is still on its way. -/

namespace Attempts

variable {s s' : State} {w v : PendingWrite} {r : Request} {n : Nat} {a : Action} {b : Body}

/-! ## The statement -/

/-- What is there of the actions: local rows, and payments that wait to be pushed. -/
def State.effects (s : State) : List PendingWrite :=
  s.applied ++ (s.outbox.map Op.write).filter fun w => w.kind = .creditPayment

/-- The same action, done for the same time. -/
def Same (w v : PendingWrite) : Prop := w.fingerprint = v.fingerprint ∧ w.life = v.life

instance (w v : PendingWrite) : Decidable (Same w v) := inferInstanceAs (Decidable (_ ∧ _))

structure State.OneDocument (s : State) : Prop where
  /-- at most one document is on file of an action that is done once -/
  docs : ∀ w, (s.docs.filter fun d => Same d.write w).length ≤ 1
  /-- and once the counter was told that it is, it is there once, unless it was discarded -/
  effects : ∀ w ∈ s.reported, w ∉ s.discarded → (s.effects.filter fun v => Same v w).length = 1
  /-- attempts of different actions share nothing -/
  apart : ∀ w ∈ s.attempts, ∀ v ∈ s.attempts, w.fingerprint ≠ v.fingerprint → w.id ≠ v.id ∧ w.key ≠ v.key

/-- A refusal comes to an attempt that neither the server nor the way to it has; an entry that the server
has accepted is of a shift that the till knows; and a key is not cleaned up while a new mechanic is
on its way under it. -/
def MeetsOne (s : State) : Act → Prop
  | .hear a _ cached => ∀ x r reply, s.waiting a = some x → s.wire x.flight = some (.answered r reply) →
      match reply with
      | .ok            => x.write.kind = .drawerEntry → cached = true
      | .failed status => isVerdict status = true → s.Nowhere x.write
  | .giveUp a (.status code) _ => ∀ x, s.waiting a = some x → isVerdict code = true → s.Nowhere x.write
  | .cleanup key => ∀ n r, s.wire n = some (.asked r) → r.write.kind = .mechanic → r.write.key ≠ key
  | _ => True

/-! ## One attempt for each action -/

def State.Asked (s : State) (w : PendingWrite) : Prop := ∃ n r, s.wire n = some (.asked r) ∧ r.write = w

/-- Something may still come of the attempt, or has. -/
def State.Live (s : State) (w : PendingWrite) : Prop :=
  s.OnFile w ∨ s.Asked w ∨ s.IsParked w ∨ w ∈ s.outbox.map Op.write

structure Lives (s : State) : Prop where
  parked : ∀ p ∈ s.parked, p.write.life = s.lives p.write.fingerprint
  queued : ∀ op ∈ s.outbox, op.write.life < s.lives op.write.fingerprint
  past : ∀ w, s.Live w → w.life < s.lives w.fingerprint ∨ s.IsParked w
  agree : ∀ w v, s.Live w → s.Live v → Same w v → w = v

theorem Nowhere.not_asked (h : s.Nowhere w) : ¬s.Asked w := by
  rintro ⟨n, r, hn, hr⟩
  exact h.2 n r hn hr

namespace Lives

theorem life_eq (h : Lives s) (hw : s.IsParked w) : w.life = s.lives w.fingerprint := by
  obtain ⟨p, hp, rfl⟩ := hw
  exact h.parked p hp

theorem le (h : Lives s) (hw : s.Live w) : w.life ≤ s.lives w.fingerprint :=
  (h.past w hw).elim Nat.le_of_lt fun hp => (h.life_eq hp).le

/-- Nothing new is live. -/
theorem mono (h : Lives s) (hlive : ∀ w, s'.Live w → s.Live w) (hlives : s'.lives = s.lives)
    (hparked : s'.parked = s.parked) (hout : ∀ op ∈ s'.outbox, op.write ∈ s.outbox.map Op.write) :
    Lives s' where
  parked := by
    rw [hparked, hlives]
    exact h.parked
  queued := by
    intro op hop
    obtain ⟨op', hop', hsame⟩ := List.mem_map.mp (hout op hop)
    rw [← hsame, hlives]
    exact h.queued op' hop'
  past := by
    intro w hw
    rw [hlives, State.IsParked, hparked]
    exact h.past w (hlive w hw)
  agree := fun w v hw hv => h.agree w v (hlive w hw) (hlive v hv)

/-- A new attempt begins where nothing of the action is live for the same time. -/
theorem park (h : Lives s) (hnew : ∀ v, s.Live v → v.fingerprint = w.fingerprint → v.life < w.life)
    (hle : s.lives w.fingerprint ≤ w.life) : Lives (s.park w) := by
  have hold : ∀ v, (s.park w).Live v → v = w ∨ s.Live v := by
    rintro v (hv | hv | ⟨p, hp, rfl⟩ | hv)
    · exact .inr (.inl hv)
    · exact .inr (.inr (.inl hv))
    · rcases mem_park hp with rfl | ⟨hp, -⟩
      · exact .inl rfl
      · exact .inr (.inr (.inr (.inl ⟨p, hp, rfl⟩)))
    · exact .inr (.inr (.inr (.inr hv)))
  have hlives : ∀ c, c ≠ w.fingerprint → (s.park w).lives c = s.lives c := fun c hc =>
    Function.update_of_ne hc _ _
  have hself : (s.park w).lives w.fingerprint = w.life := Function.update_self _ _ _
  constructor
  · intro p hp
    rcases mem_park hp with rfl | ⟨hp, hne⟩
    · exact hself.symm
    · rw [hlives _ hne]
      exact h.parked p hp
  · intro op hop
    by_cases hfp : op.write.fingerprint = w.fingerprint
    · rw [hfp, hself]
      exact hnew _ (.inr (.inr (.inr (List.mem_map_of_mem hop)))) hfp
    · rw [hlives _ hfp]
      exact h.queued op hop
  · intro v hv
    rcases hold v hv with rfl | hv
    · exact .inr ⟨_, List.mem_cons_self, rfl⟩
    · by_cases hfp : v.fingerprint = w.fingerprint
      · rw [hfp, hself]
        exact .inl (hnew v hv hfp)
      · rw [hlives _ hfp]
        refine (h.past v hv).imp_right ?_
        rintro ⟨p, hp, rfl⟩
        exact isParked_park hp hfp
  · intro u v hu hv hsame
    rcases hold u hu with rfl | hu'
    · rcases hold v hv with rfl | hv'
      · rfl
      · exact absurd hsame.2 (hnew v hv' hsame.1.symm).ne'
    · rcases hold v hv with rfl | hv'
      · exact absurd hsame.2 (hnew u hu' hsame.1).ne
      · exact h.agree u v hu' hv' hsame

/-- An action is done: what is queued now is its attempt. -/
theorem finish (h : Lives s) (hw : s.IsParked w) (hparked : s'.parked = (s.close w).parked)
    (hdocs : s'.docs = s.docs) (hwire : s'.wire = s.wire)
    (hlives : s'.lives = Function.update s.lives w.fingerprint (s.lives w.fingerprint + 1))
    (hout : ∀ op ∈ s'.outbox, op ∈ s.outbox ∨ op.write = w) : Lives s' := by
  -- what is live now was live before: the action that is done was parked
  have hold : ∀ v, s'.Live v → s.Live v := by
    rintro v (hv | hv | ⟨p, hp, rfl⟩ | hv)
    · rw [State.OnFile, hdocs] at hv
      exact .inl hv
    · rw [State.Asked, hwire] at hv
      exact .inr (.inl hv)
    · rw [hparked] at hp
      exact .inr (.inr (.inl ⟨p, (mem_close hp).1, rfl⟩))
    · obtain ⟨op, hop, rfl⟩ := List.mem_map.mp hv
      rcases hout op hop with hop | hop
      · exact .inr (.inr (.inr (List.mem_map_of_mem hop)))
      · rw [hop]
        exact .inr (.inr (.inl hw))
  have hne : ∀ c, c ≠ w.fingerprint → s'.lives c = s.lives c := by
    intro c hc
    rw [hlives]
    exact Function.update_of_ne hc _ _
  have hself : s'.lives w.fingerprint = s.lives w.fingerprint + 1 := by
    rw [hlives]
    exact Function.update_self _ _ _
  -- the cart begins its next life, the others stay in theirs
  have hle : ∀ c, s.lives c ≤ s'.lives c := by
    intro c
    by_cases hc : c = w.fingerprint
    · subst hc
      rw [hself]
      exact Nat.le_succ _
    · rw [hne c hc]
  constructor
  · intro p hp
    rw [hparked] at hp
    rw [hne _ (mem_close hp).2]
    exact h.parked p (mem_close hp).1
  · intro op hop
    rcases hout op hop with hop | hop
    · exact (h.queued op hop).trans_le (hle _)
    · rw [hop, hself, ← h.life_eq hw]
      exact Nat.lt_succ_self _
  · intro v hv
    by_cases hfp : v.fingerprint = w.fingerprint
    · refine .inl ?_
      have hvle := h.le (hold v hv)
      rw [hfp] at hvle ⊢
      rw [hself]
      exact Nat.lt_succ_of_le hvle
    · rw [hne _ hfp]
      refine (h.past v (hold v hv)).imp_right ?_
      rintro ⟨p, hp, rfl⟩
      rw [State.IsParked, hparked]
      exact isParked_close hp hfp
  · exact fun u v hu hv => h.agree u v (hold u hu) (hold v hv)

/-- **An attempt is forgotten** for good where neither the server nor the way to it has it. -/
theorem refuse (h : Lives s) (hs : Sound s) (hw : s.IsParked w) (hno : s.Nowhere w) :
    Lives (s.refuse w) := by
  have hold : ∀ v, (s.refuse w).Live v → s.Live v := by
    rintro v (hv | hv | ⟨p, hp, rfl⟩ | hv)
    · exact .inl hv
    · exact .inr (.inl hv)
    · exact .inr (.inr (.inl ⟨p, (mem_close hp).1, rfl⟩))
    · exact .inr (.inr (.inr hv))
  constructor
  · exact fun p hp => h.parked p (mem_close hp).1
  · exact h.queued
  · intro v hv
    rcases h.past v (hold v hv) with hlt | ⟨p, hp, rfl⟩
    · exact .inl hlt
    · by_cases hfp : p.write.fingerprint = w.fingerprint
      · -- it is the one that was forgotten, of which nothing else is left
        obtain ⟨q, hq, rfl⟩ := hw
        obtain rfl := hs.single p hp q hq hfp
        rcases hv with hv | hv | ⟨p', hp', hsame⟩ | hv
        · exact absurd hv hno.1
        · exact absurd hv (Nowhere.not_asked hno)
        · exact absurd (congrArg PendingWrite.fingerprint hsame) (mem_close hp').2
        · obtain ⟨op, hop, hsame⟩ := List.mem_map.mp hv
          have hlt := h.queued op hop
          rw [hsame, h.parked p hp] at hlt
          exact absurd hlt (lt_irrefl _)
      · exact .inr (isParked_close hp hfp)
  · exact fun u v hu hv => h.agree u v (hold u hu) (hold v hv)

end Lives

/-! ## One document for each attempt -/

/-- A mechanic has no id of its own, and only the key stands against a second one. A payment that may be
on its way has its body kept. -/
structure Keyed (s : State) : Prop where
  once : s.docs.Pairwise fun d d' => d.write ≠ d'.write
  asked : ∀ n r, s.wire n = some (.asked r) → r.write.kind = .mechanic → s.OnFile r.write →
    s.keys r.write.key ≠ none
  parked : ∀ p ∈ s.parked, p.write.kind = .mechanic → s.OnFile p.write →
    s.keys p.write.key ≠ none ∨ p.since + idempotencyTtl < s.now
  since : ∀ p ∈ s.parked, p.since ≤ s.now
  created : ∀ p ∈ s.parked, ∀ row, s.keys p.write.key = some row → p.since ≤ row.createdAt
  bodied : ∀ p ∈ s.parked, p.write.kind = .creditPayment → s.OnFile p.write ∨ s.Asked p.write →
    s.bodies p.write.id ≠ none

namespace Keyed

/-- Neither the documents nor the keys change, and what is parked or on its way is fewer. -/
theorem mono (h : Keyed s) (hdocs : s'.docs = s.docs) (hkeys : s'.keys = s.keys) (hnow : s.now ≤ s'.now)
    (hwire : ∀ n r, s'.wire n = some (.asked r) → s.wire n = some (.asked r))
    (hparked : ∀ p ∈ s'.parked, p ∈ s.parked)
    (hbodies : ∀ p ∈ s'.parked, s.bodies p.write.id ≠ none → s'.bodies p.write.id ≠ none) : Keyed s' where
  once := hdocs ▸ h.once
  asked := by
    intro n r hn hkind hfile
    rw [State.OnFile, hdocs] at hfile
    rw [hkeys]
    exact h.asked n r (hwire n r hn) hkind hfile
  parked := by
    intro p hp hkind hfile
    rw [State.OnFile, hdocs] at hfile
    rw [hkeys]
    exact (h.parked p (hparked p hp) hkind hfile).imp_right fun hold => hold.trans_le hnow
  since := fun p hp => (h.since p (hparked p hp)).trans hnow
  created := by
    rw [hkeys]
    exact fun p hp => h.created p (hparked p hp)
  bodied := by
    intro p hp hkind hthere
    rw [State.OnFile, hdocs] at hthere
    refine hbodies p hp (h.bodied p (hparked p hp) hkind (hthere.imp_right ?_))
    rintro ⟨n, r, hn, hsame⟩
    exact ⟨n, r, hwire n r hn, hsame⟩

/-- A new attempt of a cart has a key that no other has. -/
theorem park (h : Keyed s) (hs : Sound s) (life : Nat) (hlive : ∀ w ∈ s.attempts, w ≠ s.mint a life) :
    Keyed (s.park (s.mint a life)) where
  once := h.once
  asked := h.asked
  parked := by
    intro p hp hkind hfile
    rcases mem_park hp with rfl | ⟨hp, -⟩
    · obtain ⟨d, hd, hsame⟩ := hfile
      exact absurd hsame (hlive _ (hs.docs d hd).attempt)
    · exact h.parked p hp hkind hfile
  since := by
    intro p hp
    rcases mem_park hp with rfl | ⟨hp, -⟩
    · exact le_refl s.now
    · exact h.since p hp
  created := by
    intro p hp row hrow
    rcases mem_park hp with rfl | ⟨hp, -⟩
    · -- no document has a key that was never given
      obtain ⟨d, hd, hkey⟩ := hs.keys _ _ hrow
      have hlt := (hs.fresh _ (hs.docs d hd).attempt).2
      rw [hkey] at hlt
      exact absurd hlt (by show ¬s.next + 1 < s.next; omega)
    · exact h.created p hp row hrow
  bodied := by
    intro p hp hkind hthere
    rcases mem_park hp with rfl | ⟨hp, -⟩
    · rcases hthere with ⟨d, hd, hsame⟩ | ⟨n, r, hn, hsame⟩
      · exact absurd hsame (hlive _ (hs.docs d hd).attempt)
      · exact absurd hsame (hlive _ (hs.wire n _ hn).attempt)
    · exact h.bodied p hp hkind hthere

/-- A request leaves: its key is on file if its document is, and a payment's body is kept. -/
theorem fly (h : Keyed s) (hkey : r.write.kind = .mechanic → s.OnFile r.write → s.keys r.write.key ≠ none)
    (hbody : r.write.kind = .creditPayment → s.IsParked r.write → s.bodies r.write.id ≠ none) :
    Keyed (s.fly (.asked r)) where
  once := h.once
  asked := by
    intro n r' hr' hkind hfile
    rcases fly_wire hr' with ⟨-, heq⟩ | ⟨-, hr'⟩
    · obtain rfl := Flight.asked.inj heq
      exact hkey hkind hfile
    · exact h.asked n r' hr' hkind hfile
  parked := h.parked
  since := h.since
  created := h.created
  bodied := by
    intro p hp hkind hthere
    rcases hthere with hfile | ⟨n, r', hr', hsame⟩
    · exact h.bodied p hp hkind (.inl hfile)
    · rcases fly_wire hr' with ⟨-, heq⟩ | ⟨-, hr'⟩
      · obtain rfl := Flight.asked.inj heq
        have hbody := hbody (hsame ▸ hkind) ⟨p, hp, hsame.symm⟩
        rw [hsame] at hbody
        exact hbody
      · exact h.bodied p hp hkind (.inr ⟨n, r', hr', hsame⟩)

/-- A key is on file from the moment on in which its document is. -/
theorem complete (h : Keyed s) {doc : Nat} : Keyed (s.complete r doc) where
  once := h.once
  asked := by
    intro n r' hr' hkind hfile
    simp only [State.complete, Function.update_apply]
    split
    · simp
    · exact h.asked n r' hr' hkind hfile
  parked := by
    intro p hp hkind hfile
    simp only [State.complete, Function.update_apply]
    split
    · simp
    · exact h.parked p hp hkind hfile
  since := h.since
  created := by
    intro p hp row hrow
    simp only [State.complete, Function.update_apply] at hrow
    split at hrow
    · obtain rfl := Option.some.inj hrow
      exact h.since p hp
    · exact h.created p hp row hrow
  bodied := h.bodied

/-- **A document is committed** only where the attempt has none. -/
theorem commit (h : Keyed s) (hs : Sound s) (hn : s.wire n = some (.asked r))
    (hkey : s.keys r.write.key = none) (hfound : s.found r = none) : Keyed (s.commit r) := by
  have hno : ¬s.OnFile r.write := by
    by_cases hkind : r.write.kind = .mechanic
    · exact fun hfile => absurd hkey (h.asked n r hn hkind hfile)
    · exact hs.not_found (hs.wire n _ hn).named hfound hkind
  have hold : ∀ w, (s.commit r).OnFile w → w = r.write ∨ s.OnFile w := by
    rintro w ⟨d, hd, rfl⟩
    rcases List.mem_cons.mp hd with rfl | hd
    · exact .inl rfl
    · exact .inr ⟨d, hd, rfl⟩
  have hself : (s.commit r).keys r.write.key ≠ none := by
    simp [State.commit, State.complete]
  have hother : ∀ k, s.keys k ≠ none → (s.commit r).keys k ≠ none := by
    intro k hk
    simp only [State.commit, State.complete, Function.update_apply]
    split
    · simp
    · exact hk
  constructor
  · refine List.pairwise_cons.mpr ⟨fun d hd heq => hno ⟨d, hd, heq.symm⟩, h.once⟩
  · intro m r' hr' hkind hfile
    rcases hold _ hfile with hsame | hfile
    · rw [hsame]
      exact hself
    · exact hother _ (h.asked m r' hr' hkind hfile)
  · intro p hp hkind hfile
    rcases hold _ hfile with hsame | hfile
    · rw [hsame]
      exact .inl hself
    · exact (h.parked p hp hkind hfile).imp_left (hother _)
  · exact h.since
  · intro p hp row hrow
    simp only [State.commit, State.complete, Function.update_apply] at hrow
    split at hrow
    · obtain rfl := Option.some.inj hrow
      exact h.since p hp
    · exact h.created p hp row hrow
  · intro p hp hkind hthere
    refine h.bodied p hp hkind ?_
    rcases hthere with hfile | hasked
    · rcases hold _ hfile with hsame | hfile
      · exact .inr ⟨n, r, hn, hsame.symm⟩
      · exact .inl hfile
    · exact .inr hasked

/-- A key that is old enough is deleted. -/
theorem cleanup (h : Keyed s) {key : Nat} {row : KeyRow} (hrow : s.keys key = some row)
    (hold : row.createdAt + idempotencyTtl < s.now)
    (hasked : ∀ n r, s.wire n = some (.asked r) → r.write.kind = .mechanic → r.write.key ≠ key) :
    Keyed { s with keys := Function.update s.keys key none } where
  once := h.once
  asked := by
    intro n r hr hkind hfile
    show Function.update s.keys key none r.write.key ≠ none
    rw [Function.update_of_ne (hasked n r hr hkind)]
    exact h.asked n r hr hkind hfile
  parked := by
    intro p hp hkind hfile
    by_cases hkey : p.write.key = key
    · have := h.created p hp row (hkey ▸ hrow)
      exact .inr (by show p.since + idempotencyTtl < s.now; omega)
    · show Function.update s.keys key none p.write.key ≠ none ∨ _
      rw [Function.update_of_ne hkey]
      exact h.parked p hp hkind hfile
  since := h.since
  created := by
    intro p hp row' hrow'
    simp only [Function.update_apply] at hrow'
    split at hrow'
    · cases hrow'
    · exact h.created p hp row' hrow'
  bodied := h.bodied

end Keyed

/-! ## What is there of an action -/

structure Effects (s : State) : Prop where
  /-- rows of what was discarded may be there still -/
  same : (s.effects.filter (· ∉ s.discarded)).Perm (s.reported.filter (· ∉ s.discarded))
  within : ∀ w ∈ s.effects, w ∈ s.reported
  lives : ∀ w ∈ s.reported, w.life < s.lives w.fingerprint
  once : s.reported.Pairwise fun w v => ¬Same w v
  queued : ∀ op ∈ s.outbox, op.write ∈ s.reported ∧ op.write ∉ s.discarded
  single : (s.outbox.map Op.write).Nodup
  discarded : ∀ w ∈ s.discarded, w ∈ s.reported

namespace Effects

/-- Nothing is done, but the lives of actions may go on. -/
theorem mono (h : Effects s) (heffects : s'.effects = s.effects) (hreported : s'.reported = s.reported)
    (hdiscarded : s'.discarded = s.discarded)
    (hout : s'.outbox.map Op.write = s.outbox.map Op.write) (hlives : ∀ c, s.lives c ≤ s'.lives c) :
    Effects s' where
  same := by
    rw [heffects, hreported, hdiscarded]
    exact h.same
  within := by
    rw [heffects, hreported]
    exact h.within
  lives := by
    rw [hreported]
    exact fun w hw => (h.lives w hw).trans_le (hlives _)
  once := hreported ▸ h.once
  queued := by
    intro op hop
    have hmem : op.write ∈ s.outbox.map Op.write := hout ▸ List.mem_map_of_mem hop
    obtain ⟨op', hop', hsame⟩ := List.mem_map.mp hmem
    rw [hreported, hdiscarded, ← hsame]
    exact h.queued op' hop'
  single := hout ▸ h.single
  discarded := by
    rw [hreported, hdiscarded]
    exact h.discarded

/-- **An action is reported as done**, and is there from then on. -/
theorem finish (h : Effects s) (hw : w.life = s.lives w.fingerprint)
    (heffects : s'.effects.Perm (w :: s.effects)) (hreported : s'.reported = w :: s.reported)
    (hdiscarded : s'.discarded = s.discarded)
    (hlives : s'.lives = Function.update s.lives w.fingerprint (s.lives w.fingerprint + 1))
    (hout : s'.outbox.map Op.write = s.outbox.map Op.write ∨
      s'.outbox.map Op.write = s.outbox.map Op.write ++ [w]) : Effects s' := by
  have hnew : w ∉ s.reported := fun hmem => absurd hw (h.lives w hmem).ne
  have hkept : w ∉ s.discarded := fun hmem => hnew (h.discarded w hmem)
  have hmem : ∀ op ∈ s'.outbox, op.write ∈ s.outbox.map Op.write ∨ op.write = w := by
    intro op hop
    have hop := List.mem_map_of_mem (f := Op.write) hop
    rcases hout with hout | hout
    · rw [hout] at hop
      exact .inl hop
    · rw [hout] at hop
      exact (List.mem_append.mp hop).imp_right List.mem_singleton.mp
  have hold : ∀ v, v ∈ s.outbox.map Op.write → v ∈ s.reported ∧ v ∉ s.discarded := by
    intro v hv
    obtain ⟨op, hop, rfl⟩ := List.mem_map.mp hv
    exact h.queued op hop
  constructor
  · have hcons := heffects.filter (· ∉ s.discarded)
    rw [List.filter_cons_of_pos (by simpa using hkept)] at hcons
    rw [hreported, hdiscarded, List.filter_cons_of_pos (by simpa using hkept)]
    exact hcons.trans (h.same.cons w)
  · intro v hv
    rw [hreported]
    rcases List.mem_cons.mp (heffects.mem_iff.mp hv) with rfl | hv
    · exact List.mem_cons_self
    · exact List.mem_cons_of_mem _ (h.within v hv)
  · intro v hv
    rw [hreported] at hv
    rw [hlives, Function.update_apply]
    rcases List.mem_cons.mp hv with rfl | hv
    · rw [if_pos rfl, hw]
      exact Nat.lt_succ_self _
    · have := h.lives v hv
      split
      · rename_i hfp
        rw [hfp] at this
        exact Nat.lt_succ_of_lt this
      · exact this
  · rw [hreported]
    refine List.pairwise_cons.mpr ⟨fun v hv hsame => ?_, h.once⟩
    have := h.lives v hv
    rw [← hsame.1, ← hsame.2, hw] at this
    exact absurd this (lt_irrefl _)
  · intro op hop
    rw [hreported, hdiscarded]
    rcases hmem op hop with hop | hop
    · exact ⟨List.mem_cons_of_mem _ (hold _ hop).1, (hold _ hop).2⟩
    · rw [hop]
      exact ⟨List.mem_cons_self, hkept⟩
  · rcases hout with hout | hout
    · rw [hout]
      exact h.single
    · rw [hout]
      exact h.single.append (List.nodup_singleton w)
        (List.disjoint_singleton.mpr fun hmem => hnew (hold w hmem).1)
  · rw [hreported, hdiscarded]
    exact fun v hv => List.mem_cons_of_mem _ (h.discarded v hv)

/-- What leaves the outbox. -/
theorem map_filter (s : State) (w : PendingWrite) :
    (s.outbox.filter (·.write ≠ w)).map Op.write = (s.outbox.map Op.write).filter (· ≠ w) :=
  (List.filter_map (f := Op.write) (p := (· ≠ w)) (l := s.outbox)).symm

theorem markRejected (h : Effects s) {f : Op → Bool} : Effects (s.markRejected w f) := by
  have hout : (s.markRejected w f).outbox.map Op.write = s.outbox.map Op.write := by
    simp only [State.markRejected, List.map_map]
    refine List.map_congr_left fun op _ => ?_
    show Op.write (if _ then _ else op) = op.write
    split
    · rfl
    · rfl
  refine h.mono ?_ rfl rfl hout fun c => le_rfl
  simp only [State.effects, hout]
  rfl

/-- A payment that was pushed becomes a row. -/
theorem settle (h : Effects s) {reply : Reply} : Effects (s.settle w reply) := by
  cases reply with
  | failed status => exact h.markRejected
  | ok =>
      have hout : (s.settle w .ok).outbox.map Op.write = (s.outbox.map Op.write).filter (· ≠ w) :=
        map_filter s w
      have hqueued : ∀ op ∈ (s.settle w .ok).outbox, op ∈ s.outbox := fun op hop =>
        List.mem_of_mem_filter hop
      have hperm : (s.settle w .ok).effects.Perm s.effects := by
        rw [State.effects, State.effects, hout, List.filter_comm]
        show List.Perm ((if _ then _ else _) ++ _) _
        have hany : s.outbox.any (·.write = w) = true ↔ w ∈ s.outbox.map Op.write := by
          simp [List.any_eq_true]
        by_cases hpay : w.kind = .creditPayment ∧ s.outbox.any (·.write = w) = true
        · rw [if_pos hpay]
          have hmem : w ∈ (s.outbox.map Op.write).filter fun v => v.kind = .creditPayment :=
            List.mem_filter.mpr ⟨hany.mp hpay.2, decide_eq_true hpay.1⟩
          have hnodup := h.single.filter fun v => v.kind = .creditPayment
          have herase : ((s.outbox.map Op.write).filter fun v => v.kind = .creditPayment).filter (· ≠ w) =
              ((s.outbox.map Op.write).filter fun v => v.kind = .creditPayment).erase w := by
            rw [hnodup.erase_eq_filter]
            exact List.filter_congr fun v _ => by simp [bne, beq_eq_decide]
          rw [herase, List.cons_append]
          exact List.perm_middle.symm.trans ((List.perm_cons_erase hmem).symm.append_left _)
        · rw [if_neg hpay]
          have hsame : ((s.outbox.map Op.write).filter fun v => v.kind = .creditPayment).filter (· ≠ w) =
              (s.outbox.map Op.write).filter fun v => v.kind = .creditPayment := by
            refine List.filter_eq_self.mpr fun v hv => decide_eq_true ?_
            rintro rfl
            obtain ⟨hv, hkind⟩ := List.mem_filter.mp hv
            exact hpay ⟨of_decide_eq_true hkind, hany.mpr hv⟩
          rw [hsame]
      refine ⟨(hperm.filter _).trans h.same, fun v hv => h.within v (hperm.mem_iff.mp hv), h.lives, h.once,
        fun op hop => h.queued op (hqueued op hop), ?_, h.discarded⟩
      rw [hout]
      exact h.single.filter _

/-- But for its own rows, discarding an operation leaves what is there. -/
theorem effects_discard {serverHasRow : Bool} :
    (s.discard w serverHasRow).effects.filter (· ≠ w) = s.effects.filter (· ≠ w) := by
  rw [State.discard]
  split
  · rw [State.effects, State.effects, List.filter_append, List.filter_append]
    congr 1
    · show List.filter _ (if _ then _ else _) = _
      split
      · rw [List.filter_filter]
        simp
      · rfl
    · show (((s.outbox.filter (·.write ≠ w)).map Op.write).filter _).filter _ = _
      rw [map_filter]
      simp only [List.filter_filter]
      refine List.filter_congr fun v _ => ?_
      by_cases hv : v = w
      · simp [hv]
      · simp [hv]
  · rfl

/-- A discard adds no effect. -/
theorem mem_effects_discard {serverHasRow : Bool} (hv : v ∈ (s.discard w serverHasRow).effects) :
    v ∈ s.effects := by
  rw [State.discard] at hv
  split at hv
  · rcases List.mem_append.mp hv with hv | hv
    · refine List.mem_append_left _ ?_
      change v ∈ (if _ then _ else _) at hv
      split at hv
      · exact List.mem_of_mem_filter hv
      · exact hv
    · refine List.mem_append_right _ ?_
      change v ∈ ((s.outbox.filter (·.write ≠ w)).map Op.write).filter _ at hv
      rw [map_filter, List.filter_comm] at hv
      exact List.mem_of_mem_filter hv
  · exact hv

/-- What is left of the effects is in order. -/
theorem discard (h : Effects s) {serverHasRow : Bool} : Effects (s.discard w serverHasRow) := by
  have heffects : (s.discard w serverHasRow).effects.filter (· ≠ w) = s.effects.filter (· ≠ w) :=
    effects_discard
  have hwithin : ∀ v ∈ (s.discard w serverHasRow).effects, v ∈ s.reported := fun v hv =>
    h.within v (mem_effects_discard hv)
  rw [State.discard] at heffects hwithin ⊢
  split
  · rename_i hany
    rw [if_pos hany] at heffects hwithin
    obtain ⟨op, hop, hw⟩ := List.any_eq_true.mp hany
    have hw : op.write = w := of_decide_eq_true hw
    have hout := map_filter s w
    have hsplit : ∀ l : List PendingWrite,
        l.filter (· ∉ w :: s.discarded) = (l.filter (· ≠ w)).filter (· ∉ s.discarded) := by
      intro l
      rw [List.filter_filter]
      refine List.filter_congr fun v _ => ?_
      simp [not_or, Bool.and_comm]
    constructor
    · show List.Perm (List.filter (· ∉ w :: s.discarded) _) (s.reported.filter (· ∉ w :: s.discarded))
      rw [hsplit, hsplit, heffects, List.filter_comm, List.filter_comm (l := s.reported)]
      exact h.same.filter _
    · exact hwithin
    · exact h.lives
    · exact h.once
    · intro op' hop'
      obtain ⟨hmem, hne⟩ := List.mem_filter.mp hop'
      refine ⟨(h.queued op' hmem).1, ?_⟩
      rintro (_ | ⟨_, hdisc⟩)
      · exact absurd rfl (of_decide_eq_true hne)
      · exact (h.queued op' hmem).2 hdisc
    · show ((s.outbox.filter (·.write ≠ w)).map Op.write).Nodup
      rw [hout]
      exact h.single.filter _
    · intro v hv
      rcases List.mem_cons.mp hv with rfl | hv
      · exact hw ▸ (h.queued op hop).1
      · exact h.discarded v hv
  · exact h

/-- An action is reported once. -/
theorem same_eq (h : Effects s) (hv : v ∈ s.reported) (hw : w ∈ s.reported) (hsame : Same v w) : v = w := by
  have : Std.Symm fun w v : PendingWrite => ¬Same w v :=
    ⟨fun _ _ hno hsame => hno ⟨hsame.1.symm, hsame.2.symm⟩⟩
  by_contra hne
  exact h.once.forall hv hw hne hsame

end Effects

/-! ## The invariant -/

structure One (s : State) : Prop where
  sound : Sound s
  lives : Lives s
  keyed : Keyed s
  effects : Effects s

/-- At the start nothing is parked and nothing is on its way. -/
theorem One.start (h : s.Start) : One s where
  sound := .start h
  lives := by
    have hlive : ∀ w, ¬s.Live w := by
      rintro w (⟨d, hd, -⟩ | ⟨n, r, hn, -⟩ | ⟨p, hp, -⟩ | hw)
      · simp [h.docs] at hd
      · simp [h.wire] at hn
      · simp [h.parked] at hp
      · simp [h.outbox] at hw
    exact ⟨by simp [h.parked], by simp [h.outbox], fun w hw => absurd hw (hlive w),
      fun w _ hw => absurd hw (hlive w)⟩
  keyed := by
    constructor
    · simp [h.docs]
    · simp [h.wire]
    · simp [h.parked]
    · simp [h.parked]
    · simp [h.parked]
    · simp [h.parked]
  effects := by
    constructor
    · simp [State.effects, h.applied, h.outbox, h.reported]
    · simp [State.effects, h.applied, h.outbox]
    · simp [h.reported]
    · simp [h.reported]
    · simp [h.outbox]
    · simp [h.outbox]
    · simp [h.discarded]

namespace One

/-- What the statement is not about. -/
theorem note (h : One s) (active : Option (Nat × Bool)) (closesAsked : Nat)
    (refused abandoned : List PendingWrite) (checked : Bool) (closes : List (Nat × Nat)) :
    One { s with
      active := active
      closesAsked := closesAsked
      refused := refused
      abandoned := abandoned
      checked := checked
      closes := closes } where
  sound := h.sound.same rfl rfl rfl rfl rfl rfl rfl rfl h.sound.outbox
  lives := h.lives.mono (fun _ hw => hw) rfl rfl fun _ hop => List.mem_map_of_mem hop
  keyed := h.keyed.mono rfl rfl le_rfl (fun _ _ hr => hr) (fun _ hp => hp) fun _ _ hb => hb
  effects := h.effects.mono rfl rfl rfl rfl fun _ => le_rfl

theorem bodies_close (h : One s) (hw : w ∈ s.attempts) {p : Parked} (hp : p ∈ (s.close w).parked) :
    (s.close w).bodies p.write.id = s.bodies p.write.id := by
  refine Function.update_of_ne (fun hid => ?_) _ _
  have hsame := h.sound.apart _ (h.sound.parked p (mem_close hp).1) _ hw (.inl hid)
  exact absurd (congrArg PendingWrite.fingerprint hsame) (mem_close hp).2

theorem attempt (h : One s) (hw : s.IsParked w) : w ∈ s.attempts := by
  obtain ⟨p, hp, rfl⟩ := hw
  exact h.sound.parked p hp

theorem refuse (h : One s) (hw : s.IsParked w) (hno : s.Nowhere w)
    (hnone : s.waiting w.fingerprint = none) : One (s.refuse w) where
  sound := (h.sound.close hnone).same rfl rfl rfl rfl rfl rfl rfl rfl (h.sound.close hnone).outbox
  lives := h.lives.refuse h.sound hw hno
  keyed := h.keyed.mono rfl rfl le_rfl (fun _ _ hr => hr) (fun _ hp => (mem_close hp).1) fun p hp hb => by
    show (s.close w).bodies p.write.id ≠ none
    rw [h.bodies_close (h.attempt hw) hp]
    exact hb
  effects := h.effects.mono rfl rfl rfl rfl fun _ => le_rfl

/-- A write succeeds. -/
theorem finish (h : One s) (hw : s.IsParked w) (hnone : s.waiting w.fingerprint = none) :
    One ({ s with applied := w :: s.applied }.finish w) where
  sound := (h.sound.close hnone).same rfl rfl rfl rfl rfl rfl rfl rfl (h.sound.close hnone).outbox
  lives := h.lives.finish hw rfl rfl rfl rfl fun _ hop => .inl hop
  keyed := h.keyed.mono rfl rfl le_rfl (fun _ _ hr => hr) (fun _ hp => (mem_close hp).1) fun p hp hb => by
    show (s.close w).bodies p.write.id ≠ none
    rw [h.bodies_close (h.attempt hw) hp]
    exact hb
  effects := h.effects.finish (h.lives.life_eq hw) (List.Perm.refl _) rfl rfl rfl (.inl rfl)

/-- A write is queued. -/
theorem enqueue (h : One s) (hw : s.IsParked w) (hnone : s.waiting w.fingerprint = none)
    (hkind : w.kind ≠ .mechanic) (hnamed : Named w b) : One ((s.enqueue w b).finish w) where
  sound := by
    have hs := (h.sound.enqueue (h.attempt hw) hkind hnamed).close (w := w) hnone
    exact hs.same rfl rfl rfl rfl rfl rfl rfl rfl hs.outbox
  lives := by
    refine h.lives.finish hw rfl rfl rfl rfl fun op hop => ?_
    rcases List.mem_append.mp hop with hop | hop
    · exact .inl hop
    · exact .inr (congrArg Op.write (List.mem_singleton.mp hop))
  keyed := h.keyed.mono rfl rfl le_rfl (fun _ _ hr => hr) (fun _ hp => (mem_close hp).1) fun p hp hb => by
    show (s.close w).bodies p.write.id ≠ none
    rw [h.bodies_close (h.attempt hw) hp]
    exact hb
  effects := by
    have hout : ((s.enqueue w b).finish w).outbox.map Op.write = s.outbox.map Op.write ++ [w] := by
      simp [State.enqueue, State.finish, State.close]
    refine h.effects.finish (h.lives.life_eq hw) ?_ rfl rfl rfl (.inr hout)
    rw [State.effects, hout, List.filter_append]
    show List.Perm ((if _ then s.applied else w :: s.applied) ++ _) _
    by_cases hpay : w.kind = .creditPayment
    · rw [if_pos hpay, List.filter_singleton, decide_eq_true hpay, cond_true, ← List.append_assoc]
      exact List.perm_append_singleton w s.effects
    · rw [if_neg hpay, List.filter_singleton, decide_eq_false hpay, cond_false, List.append_nil]
      exact List.Perm.refl _

theorem saveOffline (h : One s) (hw : s.IsParked w) (hnone : s.waiting w.fingerprint = none)
    (hnamed : Named w b) {saves : Bool} : One (s.saveOffline w b saves) := by
  rw [State.saveOffline]
  split
  · exact h
  · rename_i hqueues
    split
    · refine h.enqueue hw hnone ?_ hnamed
      intro hkind
      simp [hkind, Kind.queues] at hqueues
    · exact h.note s.active s.closesAsked _ s.abandoned s.checked s.closes

/-- A request leaves. -/
theorem ask (h : One s) {p : Parked} (hp : p ∈ s.parked) (hlive : p.live s.now = true)
    (hnamed : Named p.write b)
    (hbody : p.write.kind = .creditPayment → s.bodies p.write.id ≠ none) : One (s.ask p.write b) where
  sound := h.sound.ask ⟨p, hp, rfl⟩ hnamed
  lives := by
    refine h.lives.mono ?_ rfl rfl fun _ hop => List.mem_map_of_mem hop
    rintro w (hw | ⟨n, r, hn, rfl⟩ | hw | hw)
    · exact .inl hw
    · rcases fly_wire hn with ⟨-, heq⟩ | ⟨-, hn⟩
      · obtain rfl := Flight.asked.inj heq
        exact .inr (.inr (.inl ⟨p, hp, rfl⟩))
      · exact .inr (.inl ⟨n, r, hn, rfl⟩)
    · exact .inr (.inr (.inl hw))
    · exact .inr (.inr (.inr hw))
  keyed := by
    have hfly : Keyed (s.fly (.asked ⟨p.write, b, false⟩)) := by
      refine h.keyed.fly (fun hkind hfile => ?_) fun hkind _ => hbody hkind
      -- the attempt is young, and so is its key
      rcases h.keyed.parked p hp hkind hfile with hkey | hold
      · exact hkey
      · have hyoung : s.now < p.since + ttl := of_decide_eq_true hlive
        simp only [ttl, idempotencyTtl] at hyoung hold
        omega
    exact hfly.mono rfl rfl le_rfl (fun _ _ hr => hr) (fun _ hp => hp) fun _ _ hb => hb
  effects := h.effects.mono rfl rfl rfl rfl fun _ => le_rfl

/-- The body that is kept is one of the attempt's own. -/
theorem keepBody (h : One s) (hw : s.IsParked w) (hnamed : Named w b) : One (s.keepBody w b) where
  sound := h.sound.keepBody (h.attempt hw) hnamed
  lives := by
    rw [State.keepBody]
    split
    · exact h.lives.mono (fun _ hv => hv) rfl rfl fun _ hop => List.mem_map_of_mem hop
    · exact h.lives
  keyed := by
    rw [State.keepBody]
    split
    · refine h.keyed.mono rfl rfl le_rfl (fun _ _ hr => hr) (fun _ hp => hp) fun p _ hb => ?_
      simp only [Function.update_apply]
      split
      · simp
      · exact hb
    · exact h.keyed
  effects := by
    rw [State.keepBody]
    split
    · exact h.effects.mono rfl rfl rfl rfl fun _ => le_rfl
    · exact h.effects

/-- A new attempt. -/
theorem park (h : One s) {life : Nat} (hnone : s.waiting a = none) (hle : s.lives a ≤ life)
    (hnew : ∀ v, s.Live v → v.fingerprint = a → v.life < life) : One (s.park (s.mint a life)) := by
  refine ⟨h.sound.park life hnone, h.lives.park hnew hle, h.keyed.park h.sound life ?_, ?_⟩
  · rintro w hw rfl
    exact absurd (h.sound.fresh _ hw).1 (lt_irrefl s.next)
  · refine h.effects.mono rfl rfl rfl rfl fun c => ?_
    show s.lives c ≤ Function.update s.lives a life c
    rw [Function.update_apply]
    split
    · rename_i hc
      rw [hc]
      exact hle
    · exact le_rfl

/-- Asking for the attempt of a write finds the one that is alive, or begins a life. -/
theorem pendingOf (h : One s) (hnone : s.waiting a = none) : One (s.pendingOf a).2 := by
  rw [State.pendingOf]
  cases hlookup : s.lookup a with
  | none =>
      refine h.park hnone le_rfl fun v hv hfp => ?_
      rcases h.lives.past v hv with hlt | ⟨p, hp, rfl⟩
      · exact hfp ▸ hlt
      · exact absurd hfp (lookup_none hlookup p hp)
  | some p =>
      by_cases hlive : p.live s.now = true
      · simp only [if_pos hlive]
        exact h
      · simp only [if_neg hlive]
        have habandoned :=
          h.note s.active s.closesAsked s.refused (p.write :: s.abandoned) s.checked s.closes
        refine habandoned.park hnone (Nat.le_succ _) fun v hv hfp => ?_
        have hle := habandoned.lives.le hv
        rw [hfp] at hle
        exact Nat.lt_succ_of_le hle

/-- An answer of success comes once the document is on file. -/
theorem answer (h : One s) (hn : s.wire n = some (.asked r)) {reply : Reply}
    (hok : reply = .ok → s.OnFile r.write) : One (s.answer n r reply) := by
  have hwire : ∀ m r', (s.answer n r reply).wire m = some (.asked r') → s.wire m = some (.asked r') := by
    intro m r' hr'
    rcases answer_wire hr' with ⟨-, heq⟩ | ⟨-, hr'⟩
    · cases heq
    · exact hr'
  refine ⟨h.sound.answer hn hok, h.lives.mono ?_ rfl rfl fun _ hop => List.mem_map_of_mem hop,
    h.keyed.mono rfl rfl le_rfl hwire (fun _ hp => hp) fun _ _ hb => hb,
    h.effects.mono rfl rfl rfl rfl fun _ => le_rfl⟩
  rintro w (hw | ⟨m, r', hr', hsame⟩ | hw | hw)
  · exact .inl hw
  · exact .inr (.inl ⟨m, r', hwire m r' hr', hsame⟩)
  · exact .inr (.inr (.inl hw))
  · exact .inr (.inr (.inr hw))

theorem complete (h : One s) (hfile : s.OnFile r.write) {doc : Nat} : One (s.complete r doc) where
  sound := h.sound.complete hfile
  lives := h.lives.mono (fun _ hw => hw) rfl rfl fun _ hop => List.mem_map_of_mem hop
  keyed := h.keyed.complete
  effects := h.effects.mono rfl rfl rfl rfl fun _ => le_rfl

/-- A commit files the one document of its attempt. -/
theorem commit (h : One s) (hn : s.wire n = some (.asked r)) (hkey : s.keys r.write.key = none)
    (hfound : s.found r = none) : One (s.commit r) where
  sound := h.sound.commit (h.sound.wire n _ hn).attempt (h.sound.wire n _ hn).named
  lives := by
    refine h.lives.mono ?_ rfl rfl fun _ hop => List.mem_map_of_mem hop
    rintro w (⟨d, hd, rfl⟩ | hw | hw | hw)
    · rcases List.mem_cons.mp hd with rfl | hd
      · exact .inr (.inl ⟨n, r, hn, rfl⟩)
      · exact .inl ⟨d, hd, rfl⟩
    · exact .inr (.inl hw)
    · exact .inr (.inr (.inl hw))
    · exact .inr (.inr (.inr hw))
  keyed := h.keyed.commit h.sound hn hkey hfound
  effects := h.effects.mono rfl rfl rfl rfl fun _ => le_rfl

/-- **The server does what it is asked** at most once. -/
theorem serve (h : One s) (hn : s.wire n = some (.asked r)) {accepts : Bool} :
    One (s.serve n r accepts) := by
  rcases h.sound.serve_cases hn accepts with ⟨heq, hfile⟩ | ⟨id, heq, hfile⟩ | ⟨heq, hkey, hfound⟩ | heq
  · rw [heq]
    exact h.answer hn fun _ => hfile
  · rw [heq]
    exact (h.complete hfile).answer hn fun _ => hfile
  · rw [heq]
    exact (h.commit hn hkey hfound).answer hn fun _ => ⟨_, List.mem_cons_self, rfl⟩
  · rw [heq]
    exact h.answer hn fun heq => nomatch heq

/-- A pushed operation is sent under its attempt's key. -/
theorem push (h : One s) {op : Op} (hop : op ∈ s.outbox) : One (s.fly (.asked ⟨op.write, op.body, true⟩)) := by
  have hq := h.sound.outbox op hop
  refine ⟨h.sound.fly hq.attempt hq.named, h.lives.mono ?_ rfl rfl fun _ hop => List.mem_map_of_mem hop,
    h.keyed.fly (fun hkind => absurd hkind hq.kind) fun _ hparked => ?_,
    h.effects.mono rfl rfl rfl rfl fun _ => le_rfl⟩
  · rintro w (hw | ⟨n, r, hn, rfl⟩ | hw | hw)
    · exact .inl hw
    · rcases fly_wire hn with ⟨-, heq⟩ | ⟨-, hn⟩
      · obtain rfl := Flight.asked.inj heq
        exact .inr (.inr (.inr (List.mem_map_of_mem hop)))
      · exact .inr (.inl ⟨n, r, hn, rfl⟩)
    · exact .inr (.inr (.inl hw))
    · exact .inr (.inr (.inr hw))
  · -- what is queued is done, and no longer parked
    have hlt := h.lives.queued op hop
    rw [h.lives.life_eq hparked] at hlt
    exact absurd hlt (lt_irrefl _)

/-- A write goes out, or to the outbox, or nowhere. -/
theorem send (h : One s) {p : Parked} (hp : p ∈ s.parked) (hlive : p.live s.now = true)
    (hnone : s.waiting p.write.fingerprint = none) {printed : Nat} {degraded overpays saves : Bool} :
    One (s.send p.write printed degraded overpays saves) := by
  have hparked : s.IsParked p.write := ⟨p, hp, rfl⟩
  have hnamed : Named p.write (s.bodyOf p.write printed) := h.sound.bodyOf (h.attempt hparked) printed
  have hkept := h.keepBody hparked hnamed
  rw [State.send]
  split
  · -- a payment without a body was never sent
    rename_i hdrop
    refine h.refuse hparked ⟨fun hfile => ?_, fun n r hn hsame => ?_⟩ hnone
    · exact h.keyed.bodied p hp hdrop.1 (.inl hfile) hdrop.2.1
    · exact h.keyed.bodied p hp hdrop.1 (.inr ⟨n, r, hn, hsame⟩) hdrop.2.1
  · split
    · refine hkept.saveOffline ?_ ?_ hnamed
      · rw [keepBody_same]
        exact hparked
      · rw [keepBody_same]
        exact hnone
    · refine hkept.ask ?_ ?_ hnamed fun hpay => ?_
      · rw [keepBody_same]
        exact hp
      · rw [keepBody_same]
        exact hlive
      · simp [State.keepBody, hpay]

theorem hang (h : One s) : One (s.hang a) where
  sound := h.sound.hang
  lives := h.lives.mono (fun _ hw => hw) rfl rfl fun _ hop => List.mem_map_of_mem hop
  keyed := h.keyed.mono rfl rfl le_rfl (fun _ _ hr => hr) (fun _ hp => hp) fun _ _ hb => hb
  effects := h.effects.mono rfl rfl rfl rfl fun _ => le_rfl

/-- A verdict. -/
theorem closeIfVerdict (h : One s) (hw : s.IsParked w) (hnone : s.waiting w.fingerprint = none)
    {status : Nat} (hno : isVerdict status = true → s.Nowhere w) : One (s.closeIfVerdict w status) := by
  rw [State.closeIfVerdict]
  split
  · rename_i hverdict
    exact h.refuse hw (hno hverdict) hnone
  · exact h

/-- What leaves the outbox, or is marked in it. -/
theorem fewer (h : One s) (hsound : Sound s') (heffects : Effects s') (hdocs : s'.docs = s.docs)
    (hkeys : s'.keys = s.keys) (hnow : s'.now = s.now) (hwire : s'.wire = s.wire)
    (hparked : s'.parked = s.parked) (hbodies : s'.bodies = s.bodies) (hlives : s'.lives = s.lives)
    (hout : ∀ op ∈ s'.outbox, op.write ∈ s.outbox.map Op.write) : One s' := by
  refine ⟨hsound, h.lives.mono ?_ hlives hparked hout, h.keyed.mono hdocs hkeys hnow.ge ?_ ?_ ?_, heffects⟩
  · rintro w (hw | hw | hw | hw)
    · rw [State.OnFile, hdocs] at hw
      exact .inl hw
    · rw [State.Asked, hwire] at hw
      exact .inr (.inl hw)
    · rw [State.IsParked, hparked] at hw
      exact .inr (.inr (.inl hw))
    · obtain ⟨op, hop, rfl⟩ := List.mem_map.mp hw
      exact .inr (.inr (.inr (hout op hop)))
  · rw [hwire]
    exact fun _ _ hr => hr
  · rw [hparked]
    exact fun _ hp => hp
  · rw [hbodies]
    exact fun _ _ hb => hb

theorem markRejected (h : One s) {f : Op → Bool} : One (s.markRejected w f) := by
  refine h.fewer h.sound.markRejected h.effects.markRejected rfl rfl rfl rfl rfl rfl rfl fun op hop => ?_
  obtain ⟨op, hmem, rfl⟩ := List.mem_map.mp hop
  have hsame : (if op.write = w then { op with rejected := f op } else op).write = op.write := by
    split
    · rfl
    · rfl
  rw [hsame]
  exact List.mem_map_of_mem hmem

theorem settle (h : One s) {reply : Reply} : One (s.settle w reply) := by
  cases reply with
  | ok =>
      exact h.fewer h.sound.settle h.effects.settle rfl rfl rfl rfl rfl rfl rfl fun op hop =>
        List.mem_map_of_mem (List.mem_of_mem_filter hop)
  | failed status => exact h.markRejected

theorem discard (h : One s) {serverHasRow : Bool} : One (s.discard w serverHasRow) := by
  have hsound : Sound (s.discard w serverHasRow) := h.sound.discard
  have heffects : Effects (s.discard w serverHasRow) := h.effects.discard
  rw [State.discard] at hsound heffects ⊢
  split
  · rename_i hany
    rw [if_pos hany] at hsound heffects
    exact h.fewer hsound heffects rfl rfl rfl rfl rfl rfl rfl fun op hop =>
      List.mem_map_of_mem (List.mem_of_mem_filter hop)
  · exact h

end One

/-! ## Runs -/

/-- **One act keeps it.** -/
theorem One.step {act : Act} (h : One s) (hmeets : MeetsOne s act) : One (step act s) := by
  cases act with
  | tick d =>
      refine ⟨h.sound.same rfl rfl rfl rfl rfl rfl rfl rfl h.sound.outbox,
        h.lives.mono (fun _ hw => hw) rfl rfl fun _ hop => List.mem_map_of_mem hop,
        h.keyed.mono rfl rfl (Nat.le_add_right _ _) (fun _ _ hr => hr) (fun _ hp => hp) fun _ _ hb => hb,
        h.effects.mono rfl rfl rfl rfl fun _ => le_rfl⟩
  -- a press while the attempt is on its way does nothing; else the parked write is sent
  | press c printed degraded overpays saves =>
      simp only [Attempts.step]
      cases hwait : s.waiting c with
      | some x => exact h
      | none =>
          obtain ⟨hnow, hwaiting, p, hp, hsame, hfp, hlive⟩ := pendingOf_parked s c
          have hnext := (h.pendingOf hwait).note (s.pendingOf c).2.active (s.pendingOf c).2.closesAsked
            (s.pendingOf c).2.refused (s.pendingOf c).2.abandoned false (s.pendingOf c).2.closes
          simp only [← hsame]
          refine hnext.send hp (hnow ▸ hlive) ?_
          show (s.pendingOf c).2.waiting p.write.fingerprint = none
          rw [hwaiting, hfp]
          exact hwait
  | serve n accepts =>
      simp only [Attempts.step]
      split
      · rename_i r hn
        exact h.serve hn
      · exact h
  -- an answer that is no success files nothing
  | fail n status =>
      simp only [Attempts.step]
      split
      · rename_i r hn
        exact h.answer hn fun heq => nomatch heq
      · exact h
  | lose n =>
      -- the request is gone from the wire, and nothing else is
      have hwire : ∀ m r, Function.update s.wire n none m = some (.asked r) → s.wire m = some (.asked r) := by
        intro m r hr
        rw [Function.update_apply] at hr
        split at hr
        · cases hr
        · exact hr
      refine ⟨h.sound.lose, h.lives.mono ?_ rfl rfl fun _ hop => List.mem_map_of_mem hop,
        h.keyed.mono rfl rfl le_rfl hwire (fun _ hp => hp) fun _ _ hb => hb,
        h.effects.mono rfl rfl rfl rfl fun _ => le_rfl⟩
      rintro w (hw | ⟨m, r, hr, hsame⟩ | hw | hw)
      · exact .inl hw
      · exact .inr (.inl ⟨m, r, hwire m r hr, hsame⟩)
      · exact .inr (.inr (.inl hw))
      · exact .inr (.inr (.inr hw))
  -- only the caller that waits hears it, and only a success makes it store the row
  | hear c applies cached =>
      simp only [Attempts.step]
      cases hwait : s.waiting c with
      | none => exact h
      | some x =>
          have hx := h.sound.waiting c x hwait
          have hnone : (s.hang c).waiting x.write.fingerprint = none := hx.fingerprint ▸ hang_none
          simp only []
          split
          · rename_i r reply hn
            have hcalm := hmeets x r reply hwait hn
            cases reply with
            | failed status => exact h.hang.closeIfVerdict hx.parked hnone hcalm
            | ok =>
                show One (if _ then (State.store _ _ _).finish _ else _)
                split
                -- `MeetsOne` is used here: a drawer entry that the server took is in the cache before it is stored
                · have hstore : ¬(x.write.kind = .drawerEntry ∧ cached = false) := by
                    rintro ⟨hkind, hcached⟩
                    rw [hcalm hkind] at hcached
                    cases hcached
                  rw [State.store, if_neg hstore]
                  exact h.hang.finish hx.parked hnone
                · exact h.hang
          · exact h
  -- a verdict closes the attempt, an answer that cannot be read leaves it, a lost line saves offline
  | giveUp c f saves =>
      simp only [Attempts.step]
      cases hwait : s.waiting c with
      | none => exact h
      | some x =>
          have hx := h.sound.waiting c x hwait
          have hnone : (s.hang c).waiting x.write.fingerprint = none := hx.fingerprint ▸ hang_none
          cases f with
          | status code => exact h.hang.closeIfVerdict hx.parked hnone (hmeets x hwait)
          | unreadable => exact h.hang
          | transport => exact h.hang.saveOffline hx.parked hnone hx.named
  -- the operation that is sent is the queued one of this write
  | push w =>
      simp only [Attempts.step]
      split
      · rename_i op hop
        have hmem := List.mem_of_find?_eq_some hop
        have hw : op.write = w := by
          have := List.find?_some hop
          simp only [Bool.and_eq_true, decide_eq_true_eq] at this
          exact this.1
        subst hw
        exact h.push hmem
      · exact h
  | settle n =>
      simp only [Attempts.step]
      split
      · split
        · exact h.settle
        · exact h
      · exact h
  | resend w => exact h.markRejected
  | discard w serverHasRow => exact h.discard
  -- the key that goes is old, and by `MeetsOne` no new mechanic is on its way under it
  | cleanup key =>
      simp only [Attempts.step]
      split
      · rename_i row hrow
        split
        · rename_i hold
          exact ⟨h.sound.cleanup, h.lives.mono (fun _ hw => hw) rfl rfl fun _ hop => List.mem_map_of_mem hop,
            h.keyed.cleanup hrow hold hmeets, h.effects.mono rfl rfl rfl rfl fun _ => le_rfl⟩
        · exact h
      · exact h
  | openShift =>
      exact ⟨h.sound.openShift, h.lives.mono (fun _ hw => hw) rfl rfl fun _ hop => List.mem_map_of_mem hop,
        h.keyed.mono rfl rfl le_rfl (fun _ _ hr => hr) (fun _ hp => hp) fun _ _ hb => hb,
        h.effects.mono rfl rfl rfl rfl fun _ => le_rfl⟩
  | closeShift =>
      simp only [Attempts.step]
      split
      · exact h.note s.active _ s.refused s.abandoned _ s.closes
      · exact h
  | acceptClose =>
      simp only [Attempts.step]
      split
      · split
        · exact h.note _ _ s.refused s.abandoned s.checked _
        · exact h
      · exact h

theorem run_one {acts : List Act} (h : One s) (hmeets : AllMeet MeetsOne acts s) : One (run acts s) := by
  induction acts generalizing s with
  | nil => exact h
  | cons act acts ih => exact ih (h.step hmeets.1) hmeets.2

/-- Where any two are not in the relation that holds of any two, there is one at most. -/
theorem length_le_one {α : Type} {R : α → α → Prop} {l : List α} (h : l.Pairwise R)
    (hno : ∀ x ∈ l, ∀ y ∈ l, ¬R x y) : l.length ≤ 1 := by
  match l, h with
  | [], _ | [_], _ => simp
  | x :: y :: _, h =>
      refine absurd (List.rel_of_pairwise_cons h List.mem_cons_self) (hno x ?_ y ?_)
      · exact List.mem_cons_self
      · exact List.mem_cons_of_mem _ List.mem_cons_self

/-- **What the invariant says of the documents.** -/
theorem One.oneDocument (h : One s) : s.OneDocument where
  docs := by
    intro w
    refine length_le_one (h.keyed.once.filter _) fun d hd d' hd' hne => hne ?_
    obtain ⟨hd, hsame⟩ := List.mem_filter.mp hd
    obtain ⟨hd', hsame'⟩ := List.mem_filter.mp hd'
    have hsame := of_decide_eq_true hsame
    have hsame' := of_decide_eq_true hsame'
    exact h.lives.agree _ _ (.inl ⟨d, hd, rfl⟩) (.inl ⟨d', hd', rfl⟩)
      ⟨hsame.1.trans hsame'.1.symm, hsame.2.trans hsame'.2.symm⟩
  effects := by
    intro w hw hkept
    -- what is there of the same action is the attempt itself
    have hown : s.effects.filter (fun v => Same v w) =
        (s.effects.filter (· ∉ s.discarded)).filter fun v => Same v w := by
      rw [List.filter_comm]
      refine (List.filter_eq_self.mpr fun v hv => ?_).symm
      obtain ⟨hv, hsame⟩ := List.mem_filter.mp hv
      rw [h.effects.same_eq (h.effects.within v hv) hw (of_decide_eq_true hsame)]
      exact decide_eq_true hkept
    rw [hown, (h.effects.same.filter fun v => decide (Same v w)).length_eq]
    have hmem : w ∈ (s.reported.filter (· ∉ s.discarded)).filter fun v => Same v w :=
      List.mem_filter.mpr ⟨List.mem_filter.mpr ⟨hw, decide_eq_true hkept⟩, decide_eq_true ⟨rfl, rfl⟩⟩
    refine le_antisymm ?_ (List.length_pos_of_mem hmem)
    refine length_le_one ((h.effects.once.filter _).filter _) fun v hv u hu hne => hne ?_
    have hv := of_decide_eq_true (List.mem_filter.mp hv).2
    have hu := of_decide_eq_true (List.mem_filter.mp hu).2
    exact ⟨hv.1.trans hu.1.symm, hv.2.trans hu.2.symm⟩
  apart := by
    intro w hw v hv hne
    refine ⟨fun hid => hne ?_, fun hkey => hne ?_⟩
    · rw [h.sound.apart w hw v hv (.inl hid)]
    · rw [h.sound.apart w hw v hv (.inr hkey)]

/-- **One action, one document.** Where no refusal comes to an attempt that the server has or may yet
get, an action puts at most one document on file however often it is tried, and is there once from when
the counter was told that it is done. -/
theorem run_one_document (h : s.Start) (acts : List Act) (hmeets : AllMeet MeetsOne acts s) :
    (run acts s).OneDocument :=
  (run_one (.start h) hmeets).oneDocument

/-! ## A sale in bad weather -/

def cart : Action := ⟨.sale, 250⟩

/-- The first reply is a 504 although the bill was made, the second is lost; so the bill is queued, and
its push replays it. -/
theorem run_one_document_of_cart :
    (run [presses cart, .serve 3 true, .giveUp cart (.status 504) true, presses cart, .serve 5 true,
      .giveUp cart .transport true, .push ⟨cart, 1, 2, 0, some 0⟩, .serve 6 true, .settle 6] empty).OneDocument := by
  refine run_one_document empty_start _ ⟨trivial, trivial, ?_, trivial, trivial, trivial, trivial, trivial,
    trivial, trivial⟩
  rintro x - hverdict
  cases hverdict

/-- **A bill is made twice.** Its first reply was a 504. Then the session had expired: the refusal of
the second attempt comes from in front of the key and makes the till forget the bill that is there. -/
theorem cart_made_twice : empty.Start ∧
    ¬(run [presses cart, .serve 3 true, .giveUp cart (.status 504) true, presses cart, .fail 5 401,
      .hear cart true true, presses cart, .serve 8 true] empty).OneDocument := by
  refine ⟨empty_start, fun h => ?_⟩
  exact absurd (h.docs ⟨cart, 1, 2, 0, some 0⟩) (by decide)

end Attempts

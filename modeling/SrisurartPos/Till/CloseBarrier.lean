import SrisurartPos.Till.AttemptFacts

/-! # What is left when a shift is closed

The close is sent when the outbox is empty and no sale is parked. As far as nothing else is open then,
every attempt of the shift is on file in it, or was refused or discarded, and none lands in a later one. -/

namespace Attempts

variable {s s' : State} {w v : PendingWrite} {r : Request} {n : Nat} {a : Action} {b : Body}

/-! ## The statement -/

structure State.Barrier (s : State) : Prop where
  /-- what was begun before a close is on file by then, or was refused or discarded -/
  settled : ∀ c ∈ s.closes, ∀ w ∈ s.attempts, w.kind.stamped = true → w.id < c.2 →
    (∃ d ∈ s.docs, d.write = w ∧ d.no < c.2) ∨ w ∈ s.refused ∨ w ∈ s.discarded
  /-- and is not put on file later -/
  later : ∀ c ∈ s.closes, ∀ d ∈ s.docs, d.write.kind.stamped = true → d.write.id < c.2 → d.no < c.2
  /-- what was begun while the shift was open is on file in it -/
  shift : ∀ c ∈ s.closes, ∀ d ∈ s.docs, d.write.kind.stamped = true → d.write.shift = some c.1 →
    d.shift = some c.1

/-- Nothing awaits a reply when a close is sent. When it is accepted, nothing has been pressed since and
nothing is on its way, and what is parked, the sales that may still be pressed again apart, or was left
when its time was over, is on file or was refused. -/
def MeetsBarrier (s : State) : Act → Prop
  | .closeShift => ∀ a, a.kind.stamped = true → s.waiting a = none
  | .acceptClose => s.checked = true ∧
      (∀ n r, s.wire n = some (.asked r) → r.write.kind.stamped = false) ∧
      (∀ p ∈ s.parked, p.write.kind.stamped = true → p.write.kind ≠ .sale ∨ p.live s.now = false →
        s.OnFile p.write ∨ p.live s.now = false ∧ p.write ∈ s.refused) ∧
      ∀ w ∈ s.abandoned, w.kind.stamped = true → s.OnFile w ∨ w ∈ s.refused
  | _ => True

/-! ## No attempt is lost sight of -/

def State.IsQueued (s : State) (w : PendingWrite) : Prop := ∃ op ∈ s.outbox, op.write = w

def Placed (s : State) (w : PendingWrite) : Prop :=
  s.OnFile w ∨ w ∈ s.refused ∨ w ∈ s.discarded ∨ s.IsParked w ∨ s.IsQueued w ∨ w ∈ s.abandoned

/-- What the check of a close leaves, as long as nothing is pressed. -/
structure Checked (s : State) : Prop where
  outbox : ∀ op ∈ s.outbox, op.write.kind.stamped = false
  waiting : ∀ a, a.kind.stamped = true → s.waiting a = none
  parked : ∀ p ∈ s.parked, p.write.kind = .sale → p.live s.now = false

structure Sighted (s : State) : Prop where
  placed : ∀ w ∈ s.attempts, Placed s w
  checked : s.checked = true → Checked s

/-- What was placed stays so, wherever it goes. -/
theorem Placed.mono (h : Placed s w) (hdocs : ∀ d ∈ s.docs, d ∈ s'.docs)
    (hrefused : ∀ w ∈ s.refused, w ∈ s'.refused) (hdiscarded : ∀ w ∈ s.discarded, w ∈ s'.discarded)
    (habandoned : ∀ w ∈ s.abandoned, w ∈ s'.abandoned) (hparked : ∀ p ∈ s.parked, Placed s' p.write)
    (hout : ∀ op ∈ s.outbox, Placed s' op.write) : Placed s' w := by
  rcases h with ⟨d, hd, hsame⟩ | h | h | ⟨p, hp, rfl⟩ | ⟨op, hop, rfl⟩ | h
  · exact .inl ⟨d, hdocs d hd, hsame⟩
  · exact .inr (.inl (hrefused w h))
  · exact .inr (.inr (.inl (hdiscarded w h)))
  · exact hparked p hp
  · exact hout op hop
  · exact .inr (.inr (.inr (.inr (.inr (habandoned w h)))))

theorem Placed.parked {p : Parked} (h : p ∈ s.parked) : Placed s p.write :=
  .inr (.inr (.inr (.inl ⟨p, h, rfl⟩)))

theorem Placed.queued {op : Op} (h : op ∈ s.outbox) : Placed s op.write :=
  .inr (.inr (.inr (.inr (.inl ⟨op, h, rfl⟩))))

theorem live_mono {p : Parked} {now now' : Nat} (h : p.live now = false) (hle : now ≤ now') :
    p.live now' = false := by
  simp only [Parked.live, decide_eq_false_iff_not] at h ⊢
  omega

/-- The check of the close stays good while nothing new is parked or queued. -/
theorem Checked.mono (h : Checked s) (hnow : s.now ≤ s'.now) (hparked : ∀ p ∈ s'.parked, p ∈ s.parked)
    (hwaiting : ∀ a, s.waiting a = none → s'.waiting a = none)
    (hout : ∀ op ∈ s'.outbox, op.write.kind.stamped = true → s.IsQueued op.write) : Checked s' where
  outbox := by
    intro op hop
    cases hstamped : op.write.kind.stamped with
    | false => rfl
    | true =>
        obtain ⟨op', hop', hsame⟩ := hout op hop hstamped
        have hno := h.outbox op' hop'
        rw [hsame, hstamped] at hno
        cases hno
  waiting := fun a ha => hwaiting a (h.waiting a ha)
  parked := fun p hp hkind => live_mono (h.parked p (hparked p hp) hkind) hnow

/-! ## Nothing comes of an attempt that is over -/

/-- Something may come of the attempt, or has. -/
def State.May (s : State) (w : PendingWrite) : Prop :=
  s.OnFile w ∨ (∃ n r, s.wire n = some (.asked r) ∧ r.write = w) ∨ s.IsQueued w ∨
    (∃ a x, s.waiting a = some x ∧ x.write = w) ∨ ∃ p ∈ s.parked, p.write = w ∧ p.live s.now = true

structure Settled (s : State) : Prop where
  past : ∀ c ∈ s.closes, ∀ w ∈ s.attempts, w.kind.stamped = true → w.id < c.2 →
    (∃ d ∈ s.docs, d.write = w ∧ d.no < c.2) ∨ (w ∈ s.refused ∨ w ∈ s.discarded) ∧ ¬s.May w
  later : ∀ c ∈ s.closes, ∀ d ∈ s.docs, d.write.kind.stamped = true → d.write.id < c.2 → d.no < c.2

/-- It was on file at every close since. -/
def State.Kept (s : State) (w : PendingWrite) : Prop :=
  w.kind.stamped = true → ∀ c ∈ s.closes, w.id < c.2 → ∃ d ∈ s.docs, d.write = w ∧ d.no < c.2

/-- What something may come of was on file at every close since. -/
theorem Settled.kept (h : Settled s) (hw : w ∈ s.attempts) (hm : s.May w) : s.Kept w := by
  intro hstamped c hc hlt
  rcases h.past c hc w hw hstamped hlt with hd | hover
  · exact hd
  · exact absurd hm hover.2

/-- No document is new, and nothing comes of what nothing came of. -/
theorem Settled.mono (h : Settled s) (hcloses : s'.closes = s.closes) (hdocs : s'.docs = s.docs)
    (hattempts : ∀ w ∈ s'.attempts, w ∈ s.attempts ∨ ∀ c ∈ s.closes, c.2 ≤ w.id)
    (hrefused : ∀ w ∈ s.refused, w ∈ s'.refused) (hdiscarded : ∀ w ∈ s.discarded, w ∈ s'.discarded)
    (hmay : ∀ w ∈ s.attempts, s'.May w → s.Kept w) : Settled s' where
  past := by
    rw [hcloses, hdocs]
    intro c hc w hw hstamped hlt
    rcases hattempts w hw with hw | hnew
    · by_cases hm : s'.May w
      · exact .inl (hmay w hw hm hstamped c hc hlt)
      · refine (h.past c hc w hw hstamped hlt).imp_right fun hover => ⟨?_, hm⟩
        exact hover.1.imp (hrefused w) (hdiscarded w)
    · exact absurd hlt (not_lt.mpr (hnew c hc))
  later := by
    rw [hcloses, hdocs]
    exact h.later

/-- Nothing is put on file that was begun before a close. -/
theorem Settled.no_commit (h : Settled s) (hs : Sound s) (hn : s.wire n = some (.asked r))
    (hfound : s.found r = none) (hstamped : r.write.kind.stamped = true) :
    ∀ c ∈ s.closes, ¬r.write.id < c.2 := by
  intro c hc hlt
  have hsent := hs.wire n _ hn
  have hkind : r.write.kind ≠ .mechanic := by
    intro hm
    rw [hm] at hstamped
    cases hstamped
  rcases h.past c hc r.write hsent.attempt hstamped hlt with ⟨d, hd, hsame, -⟩ | hover
  · exact hs.not_found hsent.named hfound hkind ⟨d, hd, hsame⟩
  · exact hover.2 (.inr (.inl ⟨n, r, hn, rfl⟩))

/-! ## Shifts -/

structure Shifts (s : State) : Prop where
  /-- a shift that is open was never closed -/
  unclosed : ∀ c ∈ s.closes, s.active ≠ some (c.1, true)
  active : ∀ k o, s.active = some (k, o) → k < s.next
  closed : ∀ c ∈ s.closes, c.1 < s.next ∧ c.2 ≤ s.next
  begun : ∀ w ∈ s.attempts, ∀ k, w.shift = some k → k < s.next
  before : ∀ c ∈ s.closes, ∀ w ∈ s.attempts, w.shift = some c.1 → w.id < c.2
  /-- a document is on file in another shift than its own only if its own is neither open nor closed -/
  stray : ∀ d ∈ s.docs, d.write.kind.stamped = true → ∀ k, d.write.shift = some k → d.shift ≠ some k →
    s.active ≠ some (k, true) ∧ ∀ c ∈ s.closes, c.1 ≠ k

/-- What is known of the shifts stays good while shifts, documents and attempts stay. -/
theorem Shifts.mono (h : Shifts s) (hcloses : s'.closes = s.closes) (hactive : s'.active = s.active)
    (hdocs : s'.docs = s.docs) (hattempts : s'.attempts = s.attempts) (hnext : s.next ≤ s'.next) :
    Shifts s' where
  unclosed := by
    rw [hcloses, hactive]
    exact h.unclosed
  active := by
    rw [hactive]
    exact fun k o hk => (h.active k o hk).trans_le hnext
  closed := by
    rw [hcloses]
    exact fun c hc => ⟨(h.closed c hc).1.trans_le hnext, (h.closed c hc).2.trans hnext⟩
  begun := by
    rw [hattempts]
    exact fun w hw k hk => (h.begun w hw k hk).trans_le hnext
  before := by
    rw [hcloses, hattempts]
    exact h.before
  stray := by
    rw [hdocs, hactive, hcloses]
    exact h.stray

theorem openShift_eq {k : Nat} (h : s.openShift = some k) : s.active = some (k, true) := by
  rw [State.openShift] at h
  split at h
  · rename_i hactive
    rw [hactive, Option.some.inj h]
  · cases h

/-! ## The invariant -/

structure Held (s : State) : Prop where
  sound : Sound s
  sighted : Sighted s
  settled : Settled s
  shifts : Shifts s

theorem Held.start (h : s.Start) : Held s where
  sound := .start h
  sighted := ⟨by simp [h.attempts], by simp [h.checked]⟩
  settled := ⟨by simp [h.closes], by simp [h.closes]⟩
  shifts := ⟨by simp [h.closes], h.active, by simp [h.closes], by simp [h.attempts], by simp [h.closes],
    by simp [h.docs]⟩

theorem Held.barrier (h : Held s) : s.Barrier where
  settled := by
    intro c hc w hw hstamped hlt
    exact (h.settled.past c hc w hw hstamped hlt).imp_right And.left
  later := h.settled.later
  shift := by
    intro c hc d hd hstamped hshift
    by_contra hne
    exact (h.shifts.stray d hd hstamped c.1 hshift hne).2 c hc rfl

namespace Held

/-- A new attempt takes the place of one that was left. -/
theorem park (h : Held s) {life : Nat} (hnone : s.waiting a = none)
    (hleft : ∀ p ∈ s.parked, p.write.fingerprint = a → p.write ∈ s.abandoned) :
    Held { s.park (s.mint a life) with checked := false } where
  sound := (h.sound.park life hnone).same rfl rfl rfl rfl rfl rfl rfl rfl (h.sound.park life hnone).outbox
  sighted := by
    refine ⟨fun w hw => ?_, fun hc => nomatch hc⟩
    rcases List.mem_cons.mp hw with rfl | hw
    · exact .parked (p := ⟨s.mint a life, s.now⟩) List.mem_cons_self
    · refine (h.sighted.placed w hw).mono (fun _ hd => hd) (fun _ hw => hw) (fun _ hw => hw) (fun _ hw => hw)
        (fun p hp => ?_) fun op hop => .queued hop
      by_cases hfp : p.write.fingerprint = a
      · exact .inr (.inr (.inr (.inr (.inr (hleft p hp hfp)))))
      · exact .inr (.inr (.inr (.inl (isParked_park hp hfp))))
  settled := by
    refine h.settled.mono rfl rfl (fun w hw => ?_) (fun _ hw => hw) (fun _ hw => hw) fun w hw hm => ?_
    · rcases List.mem_cons.mp hw with rfl | hw
      · exact .inr fun c hc => (h.shifts.closed c hc).2
      · exact .inl hw
    · refine h.settled.kept hw ?_
      rcases hm with hm | hm | hm | hm | ⟨p, hp, rfl, hlive⟩
      · exact .inl hm
      · exact .inr (.inl hm)
      · exact .inr (.inr (.inl hm))
      · exact .inr (.inr (.inr (.inl hm)))
      · rcases mem_park hp with rfl | ⟨hp, -⟩
        · exact absurd (h.sound.fresh _ hw).1 (lt_irrefl s.next)
        · exact .inr (.inr (.inr (.inr ⟨p, hp, rfl, hlive⟩)))
  shifts := by
    have hnext : s.next ≤ s.next + 2 := Nat.le_add_right _ 2
    refine ⟨h.shifts.unclosed, fun k o hk => (h.shifts.active k o hk).trans_le hnext,
      fun c hc => ⟨(h.shifts.closed c hc).1.trans_le hnext, (h.shifts.closed c hc).2.trans hnext⟩, ?_, ?_,
      h.shifts.stray⟩
    · intro w hw k hk
      rcases List.mem_cons.mp hw with rfl | hw
      · exact (h.shifts.active k true (openShift_eq hk)).trans_le hnext
      · exact (h.shifts.begun w hw k hk).trans_le hnext
    · intro c hc w hw hk
      rcases List.mem_cons.mp hw with rfl | hw
      · exact absurd (openShift_eq hk) (h.shifts.unclosed c hc)
      · exact h.shifts.before c hc w hw hk

theorem uncheck (h : Held s) : Held { s with checked := false } where
  sound := h.sound.same rfl rfl rfl rfl rfl rfl rfl rfl h.sound.outbox
  sighted := by
    refine ⟨fun w hw => ?_, fun hc => nomatch hc⟩
    exact (h.sighted.placed w hw).mono (fun _ hd => hd) (fun _ hw => hw) (fun _ hw => hw) (fun _ hw => hw)
      (fun _ hp => .parked hp) fun _ hop => .queued hop
  settled := h.settled.mono rfl rfl (fun _ hw => .inl hw) (fun _ hw => hw) (fun _ hw => hw)
    fun _ hw hm => h.settled.kept hw hm
  shifts := h.shifts.mono rfl rfl rfl rfl le_rfl

/-- Asking for the attempt of a write keeps the barrier, as the check has to be made again. -/
theorem pendingOf (h : Held s) (hnone : s.waiting a = none) :
    Held { (s.pendingOf a).2 with checked := false } := by
  rw [State.pendingOf]
  cases hlookup : s.lookup a with
  | none => exact h.park hnone fun p hp hfp => absurd hfp (lookup_none hlookup p hp)
  | some p =>
      by_cases hlive : p.live s.now = true
      · simp only [if_pos hlive]
        exact h.uncheck
      · simp only [if_neg hlive]
        have habandoned : Held { s with abandoned := p.write :: s.abandoned } :=
          { sound := h.sound.same rfl rfl rfl rfl rfl rfl rfl rfl h.sound.outbox
            sighted := by
              refine ⟨fun w hw => ?_, fun hc => (h.sighted.checked hc).mono le_rfl (fun _ hp => hp)
                (fun _ hw => hw) fun op hop _ => ⟨op, hop, rfl⟩⟩
              exact (h.sighted.placed w hw).mono (fun _ hd => hd) (fun _ hw => hw) (fun _ hw => hw)
                (fun _ hw => List.mem_cons_of_mem _ hw) (fun _ hp => .parked hp) fun _ hop => .queued hop
            settled := h.settled.mono rfl rfl (fun _ hw => .inl hw) (fun _ hw => hw) (fun _ hw => hw)
              fun _ hw hm => h.settled.kept hw hm
            shifts := h.shifts.mono rfl rfl rfl rfl le_rfl }
        refine habandoned.park hnone fun q hq hfp => ?_
        obtain ⟨hp, hpa⟩ := lookup_mem hlookup
        rw [h.sound.single q hq p hp (hfp.trans hpa.symm)]
        exact List.mem_cons_self

/-- An attempt is closed: it is on file, queued or refused. -/
theorem close (h : Held s) (hw : s.IsParked w) {out : List Op} {applied reported refused : List PendingWrite}
    {lives : Action → Nat}
    (hsound : Sound { s.close w with
      outbox := out, applied := applied, reported := reported, refused := refused, lives := lives })
    (hplaced : Placed { s.close w with
      outbox := out, applied := applied, reported := reported, refused := refused, lives := lives } w)
    (hrefused : ∀ v ∈ s.refused, v ∈ refused) (hout : ∀ op ∈ s.outbox, op ∈ out)
    (hnew : ∀ op ∈ out, op ∈ s.outbox ∨ op.write = w ∧ s.Kept w ∧
      (s.checked = true → w.kind.stamped = false)) :
    Held { s.close w with
      outbox := out, applied := applied, reported := reported, refused := refused, lives := lives } where
  sound := hsound
  sighted := by
    refine ⟨fun v hv => ?_, fun hc => ?_⟩
    · refine (h.sighted.placed v hv).mono (fun _ hd => hd) hrefused (fun _ hu => hu) (fun _ hu => hu)
        (fun p hp => ?_) fun op hop => .queued (hout op hop)
      by_cases hfp : p.write.fingerprint = w.fingerprint
      · obtain ⟨q, hq, rfl⟩ := hw
        rw [h.sound.single p hp q hq hfp]
        exact hplaced
      · exact .inr (.inr (.inr (.inl (isParked_close hp hfp))))
    · refine (h.sighted.checked hc).mono le_rfl (fun p hp => (mem_close hp).1) (fun _ hn => hn)
        fun op hop hstamped => ?_
      rcases hnew op hop with hop | ⟨hw, -, hkind⟩
      · exact ⟨op, hop, rfl⟩
      · rw [hw, hkind hc] at hstamped
        cases hstamped
  settled := by
    refine h.settled.mono rfl rfl (fun u hu => .inl hu) hrefused (fun _ hu => hu) fun v hv hm => ?_
    rcases hm with hm | hm | ⟨op, hop, rfl⟩ | hm | ⟨p, hp, hsame, hlive⟩
    · exact h.settled.kept hv (.inl hm)
    · exact h.settled.kept hv (.inr (.inl hm))
    · rcases hnew op hop with hop | ⟨hw, hkept, -⟩
      · exact h.settled.kept hv (.inr (.inr (.inl ⟨op, hop, rfl⟩)))
      · rw [hw]
        exact hkept
    · exact h.settled.kept hv (.inr (.inr (.inr (.inl hm))))
    · exact h.settled.kept hv (.inr (.inr (.inr (.inr ⟨p, (mem_close hp).1, hsame, hlive⟩))))
  shifts := h.shifts.mono rfl rfl rfl rfl le_rfl

theorem refuse (h : Held s) (hw : s.IsParked w) (hnone : s.waiting w.fingerprint = none) :
    Held (s.refuse w) := by
  have hs := h.sound.close hnone
  exact h.close hw (hs.same rfl rfl rfl rfl rfl rfl rfl rfl hs.outbox) (.inr (.inl List.mem_cons_self))
    (fun _ hv => List.mem_cons_of_mem _ hv) (fun _ hop => hop) fun _ hop => .inl hop

theorem finish (h : Held s) (hw : s.IsParked w) (hnone : s.waiting w.fingerprint = none)
    (hfile : s.OnFile w) {applied : List PendingWrite} : Held ({ s with applied := applied }.finish w) := by
  have hs := h.sound.close hnone
  exact h.close hw (hs.same rfl rfl rfl rfl rfl rfl rfl rfl hs.outbox) (.inl hfile) (fun _ hv => hv)
    (fun _ hop => hop) fun _ hop => .inl hop

theorem enqueue (h : Held s) (hw : s.IsParked w) (hnone : s.waiting w.fingerprint = none)
    (hkind : w.kind ≠ .mechanic) (hnamed : Named w b) (hkept : s.Kept w)
    (hchecked : s.checked = true → w.kind.stamped = false) : Held ((s.enqueue w b).finish w) := by
  obtain ⟨p, hp, rfl⟩ := hw
  have hs := (h.sound.enqueue (h.sound.parked p hp) hkind hnamed).close (w := p.write) hnone
  refine h.close ⟨p, hp, rfl⟩ (hs.same rfl rfl rfl rfl rfl rfl rfl rfl hs.outbox) ?_ (fun _ hv => hv)
    (fun _ hop => List.mem_append_left _ hop) fun op hop => ?_
  · exact .inr (.inr (.inr (.inr (.inl ⟨_, List.mem_append_right _ List.mem_cons_self, rfl⟩))))
  · rcases List.mem_append.mp hop with hop | hop
    · exact .inl hop
    · exact .inr ⟨congrArg Op.write (List.mem_singleton.mp hop), hkept, hchecked⟩

/-- What is parked, queued, on file, closed or begun stays as it is, and what is waited for or on its way
is fewer. -/
theorem same (h : Held s) (hsound : Sound s') (hnow : s.now ≤ s'.now) (hnext : s.next ≤ s'.next)
    (hparked : s'.parked = s.parked) (hout : s'.outbox = s.outbox) (hdocs : s'.docs = s.docs)
    (hattempts : s'.attempts = s.attempts) (hcloses : s'.closes = s.closes)
    (hactive : s'.active = s.active) (hchecked : s'.checked = s.checked)
    (habandoned : s'.abandoned = s.abandoned) (hdiscarded : s'.discarded = s.discarded)
    (hrefused : ∀ w ∈ s.refused, w ∈ s'.refused)
    (hwaiting : ∀ a x, s'.waiting a = some x → s.waiting a = some x)
    (hwire : ∀ n r, s'.wire n = some (.asked r) → s.wire n = some (.asked r) ∨ s.IsQueued r.write) :
    Held s' where
  sound := hsound
  sighted := by
    refine ⟨fun w hw => ?_, fun hc => ?_⟩
    · rw [hattempts] at hw
      exact (h.sighted.placed w hw).mono (fun d hd => hdocs ▸ hd) hrefused (fun v hv => hdiscarded ▸ hv)
        (fun v hv => habandoned ▸ hv) (fun p hp => .parked (hparked ▸ hp)) fun op hop => .queued (hout ▸ hop)
    · rw [hchecked] at hc
      refine (h.sighted.checked hc).mono hnow (fun p hp => hparked ▸ hp) (fun a ha => ?_)
        fun op hop _ => ⟨op, hout ▸ hop, rfl⟩
      cases hx : s'.waiting a with
      | none => rfl
      | some x => exact absurd ((hwaiting a x hx).symm.trans ha) (by simp)
  settled := by
    refine h.settled.mono hcloses hdocs (fun w hw => .inl (hattempts ▸ hw)) hrefused
      (fun w hw => hdiscarded ▸ hw) fun w hw hm => h.settled.kept hw ?_
    rcases hm with hm | ⟨n, r, hn, rfl⟩ | hm | ⟨a, x, hx, hsame⟩ | ⟨p, hp, hsame, hlive⟩
    · rw [State.OnFile, hdocs] at hm
      exact .inl hm
    · rcases hwire n r hn with hn | hq
      · exact .inr (.inl ⟨n, r, hn, rfl⟩)
      · exact .inr (.inr (.inl hq))
    · rw [State.IsQueued, hout] at hm
      exact .inr (.inr (.inl hm))
    · exact .inr (.inr (.inr (.inl ⟨a, x, hwaiting a x hx, hsame⟩)))
    · refine .inr (.inr (.inr (.inr ⟨p, hparked ▸ hp, hsame, ?_⟩)))
      cases hlive' : p.live s.now with
      | true => rfl
      | false => exact absurd hlive (by simp [live_mono hlive' hnow])
  shifts := h.shifts.mono hcloses hactive hdocs hattempts hnext

theorem keepBody (h : Held s) (hw : w ∈ s.attempts) (hnamed : Named w b) : Held (s.keepBody w b) := by
  have hs := h.sound.keepBody hw hnamed
  rw [keepBody_same] at hs ⊢
  exact h.same hs le_rfl le_rfl rfl rfl rfl rfl rfl rfl rfl rfl rfl (fun _ hw => hw) (fun _ _ hx => hx)
    fun _ _ hn => .inl hn

theorem hang (h : Held s) : Held (s.hang a) :=
  h.same h.sound.hang le_rfl le_rfl rfl rfl rfl rfl rfl rfl rfl rfl rfl (fun _ hw => hw)
    (fun _ _ hx => (hang_waiting hx).2) fun _ _ hn => .inl hn

/-- A write that is saved offline goes from the parked ones to the outbox, where the barrier sees it too. -/
theorem saveOffline (h : Held s) (hw : s.IsParked w) (hnone : s.waiting w.fingerprint = none)
    (hnamed : Named w b) (hkept : s.Kept w) (hchecked : s.checked = true → w.kind.stamped = false)
    {saves : Bool} : Held (s.saveOffline w b saves) := by
  rw [State.saveOffline]
  split
  · exact h
  · rename_i hqueues
    split
    · refine h.enqueue hw hnone ?_ hnamed hkept hchecked
      intro hkind
      simp [hkind, Kind.queues] at hqueues
    · exact h.same (h.sound.same rfl rfl rfl rfl rfl rfl rfl rfl h.sound.outbox) le_rfl le_rfl rfl rfl rfl rfl
        rfl rfl rfl rfl rfl (fun _ hv => List.mem_cons_of_mem _ hv) (fun _ _ hx => hx) fun _ _ hn => .inl hn

/-- A request leaves, of an attempt that may still be made. -/
theorem ask (h : Held s) {p : Parked} (hp : p ∈ s.parked) (hlive : p.live s.now = true)
    (hnamed : Named p.write b) (hchecked : s.checked = false) : Held (s.ask p.write b) where
  sound := h.sound.ask ⟨p, hp, rfl⟩ hnamed
  sighted := by
    refine ⟨fun w hw => ?_, fun hc => absurd (hchecked.symm.trans hc) (by decide)⟩
    exact (h.sighted.placed w hw).mono (fun _ hd => hd) (fun _ hw => hw) (fun _ hw => hw) (fun _ hw => hw)
      (fun _ hp => .parked hp) fun _ hop => .queued hop
  settled := by
    refine h.settled.mono rfl rfl (fun _ hw => .inl hw) (fun _ hw => hw) (fun _ hw => hw) fun w hw hm =>
      h.settled.kept hw ?_
    have hmay : s.May p.write := .inr (.inr (.inr (.inr ⟨p, hp, rfl, hlive⟩)))
    rcases hm with hm | ⟨n, r, hn, rfl⟩ | hm | ⟨a, x, hx, rfl⟩ | hm
    · exact .inl hm
    · rcases fly_wire hn with ⟨-, heq⟩ | ⟨-, hn⟩
      · obtain rfl := Flight.asked.inj heq
        exact hmay
      · exact .inr (.inl ⟨n, r, hn, rfl⟩)
    · exact .inr (.inr (.inl hm))
    · simp only [State.ask, Function.update_apply] at hx
      split at hx
      · obtain rfl := Option.some.inj hx
        exact hmay
      · exact .inr (.inr (.inr (.inl ⟨a, x, hx, rfl⟩)))
    · exact .inr (.inr (.inr (.inr hm)))
  shifts := h.shifts.mono rfl rfl rfl rfl (Nat.le_succ _)

/-- Sending a parked write keeps the barrier, while no close has checked. -/
theorem send (h : Held s) {p : Parked} (hp : p ∈ s.parked) (hlive : p.live s.now = true)
    (hnone : s.waiting p.write.fingerprint = none) (hchecked : s.checked = false) {printed : Nat}
    {degraded overpays saves : Bool} : Held (s.send p.write printed degraded overpays saves) := by
  have hattempt := h.sound.parked p hp
  have hnamed : Named p.write (s.bodyOf p.write printed) := h.sound.bodyOf hattempt printed
  have hkept := h.keepBody hattempt hnamed
  have hmay : s.May p.write := .inr (.inr (.inr (.inr ⟨p, hp, rfl, hlive⟩)))
  rw [State.send]
  split
  · exact h.refuse ⟨p, hp, rfl⟩ hnone
  · rw [keepBody_same] at hkept ⊢
    split
    · exact hkept.saveOffline ⟨p, hp, rfl⟩ hnone hnamed (h.settled.kept hattempt hmay) fun hc =>
        absurd (hchecked.symm.trans hc) (by decide)
    · exact hkept.ask hp hlive hnamed hchecked

theorem answer (h : Held s) (hn : s.wire n = some (.asked r)) {reply : Reply}
    (hok : reply = .ok → s.OnFile r.write) : Held (s.answer n r reply) := by
  refine h.same (h.sound.answer hn hok) le_rfl le_rfl rfl rfl rfl rfl rfl rfl rfl rfl rfl (fun _ hw => hw)
    (fun _ _ hx => hx) fun m r' hr' => ?_
  rcases answer_wire hr' with ⟨-, heq⟩ | ⟨-, hr'⟩
  · cases heq
  · exact .inl hr'

theorem complete (h : Held s) (hfile : s.OnFile r.write) {doc : Nat} : Held (s.complete r doc) :=
  h.same (h.sound.complete hfile) le_rfl le_rfl rfl rfl rfl rfl rfl rfl rfl rfl rfl (fun _ hw => hw)
    (fun _ _ hx => hx) fun _ _ hn => .inl hn

/-- **A document is put on file** in the shift that is open, and never of an attempt from before a
close. -/
theorem commit (h : Held s) (hn : s.wire n = some (.asked r)) (hfound : s.found r = none) :
    Held (s.commit r) := by
  have hsent := h.sound.wire n _ hn
  have hno := h.settled.no_commit h.sound hn hfound
  have hdocs : ∀ d ∈ s.docs, d ∈ (s.commit r).docs := fun d hd => List.mem_cons_of_mem _ hd
  refine ⟨h.sound.commit hsent.attempt hsent.named, ?_, ?_, ?_⟩
  · refine ⟨fun w hw => ?_, fun hc => (h.sighted.checked hc).mono le_rfl (fun _ hp => hp) (fun _ ha => ha)
      fun op hop _ => ⟨op, hop, rfl⟩⟩
    exact (h.sighted.placed w hw).mono hdocs (fun _ hw => hw) (fun _ hw => hw) (fun _ hw => hw)
      (fun _ hp => .parked hp) fun _ hop => .queued hop
  · constructor
    · intro c hc w hw hstamped hlt
      rcases h.settled.past c hc w hw hstamped hlt with ⟨d, hd, hsame⟩ | ⟨hended, hover⟩
      · exact .inl ⟨d, hdocs d hd, hsame⟩
      · refine .inr ⟨hended, fun hm => hover ?_⟩
        rcases hm with ⟨d, hd, rfl⟩ | hm
        · rcases List.mem_cons.mp hd with rfl | hd
          · exact .inr (.inl ⟨n, r, hn, rfl⟩)
          · exact .inl ⟨d, hd, rfl⟩
        · exact .inr hm
    · intro c hc d hd hstamped hlt
      rcases List.mem_cons.mp hd with rfl | hd
      · exact absurd hlt (hno hstamped c hc)
      · exact h.settled.later c hc d hd hstamped hlt
  · have hnext : s.next ≤ (s.commit r).next := Nat.le_succ _
    refine ⟨h.shifts.unclosed, fun k o hk => (h.shifts.active k o hk).trans_le hnext,
      fun c hc => ⟨(h.shifts.closed c hc).1.trans_le hnext, (h.shifts.closed c hc).2.trans hnext⟩,
      fun w hw k hk => (h.shifts.begun w hw k hk).trans_le hnext, h.shifts.before, ?_⟩
    intro d hd hstamped k hk hne
    rcases List.mem_cons.mp hd with rfl | hd
    · refine ⟨fun hactive => hne ?_, fun c hc hck => ?_⟩
      · have hactive : s.active = some (k, true) := hactive
        show (if _ then s.openShift else none) = some k
        rw [if_pos hstamped, State.openShift, hactive]
      · exact hno hstamped c hc (h.shifts.before c hc _ hsent.attempt (hck ▸ hk))
    · exact h.shifts.stray d hd hstamped k hk hne

theorem serve (h : Held s) (hn : s.wire n = some (.asked r)) {accepts : Bool} :
    Held (s.serve n r accepts) := by
  rcases h.sound.serve_cases hn accepts with ⟨heq, hfile⟩ | ⟨id, heq, hfile⟩ | ⟨heq, -, hfound⟩ | heq
  · rw [heq]
    exact h.answer hn fun _ => hfile
  · rw [heq]
    exact (h.complete hfile).answer hn fun _ => hfile
  · rw [heq]
    exact (h.commit hn hfound).answer hn fun _ => ⟨_, List.mem_cons_self, rfl⟩
  · rw [heq]
    exact h.answer hn fun heq => nomatch heq

/-- What leaves the outbox is on file, or discarded. -/
theorem leave (h : Held s) (hsound : Sound s') (hstate : s' = { s with
      outbox := s'.outbox, applied := s'.applied, discarded := s'.discarded })
    (hout : ∀ op ∈ s'.outbox, s.IsQueued op.write) (hplaced : ∀ op ∈ s.outbox, Placed s' op.write)
    (hdiscarded : ∀ w ∈ s.discarded, w ∈ s'.discarded) : Held s' := by
  have hdocs : s'.docs = s.docs := by rw [hstate]
  refine ⟨hsound, ⟨fun w hw => ?_, fun hc => ?_⟩, ?_, ?_⟩
  · rw [hstate] at hw
    refine (h.sighted.placed w hw).mono (fun d hd => hdocs ▸ hd) ?_ hdiscarded ?_ (fun p hp => ?_) hplaced
    · rw [hstate]
      exact fun _ hw => hw
    · rw [hstate]
      exact fun _ hw => hw
    · refine .parked ?_
      rw [hstate]
      exact hp
  · rw [hstate] at hc
    refine (h.sighted.checked hc).mono ?_ ?_ ?_ fun op hop _ => hout op hop
    · rw [hstate]
    · rw [hstate]
      exact fun _ hp => hp
    · rw [hstate]
      exact fun _ ha => ha
  · refine h.settled.mono ?_ hdocs ?_ ?_ hdiscarded fun w hw hm => h.settled.kept hw ?_
    · rw [hstate]
    · rw [hstate]
      exact fun _ hw => .inl hw
    · rw [hstate]
      exact fun _ hw => hw
    · rcases hm with hm | hm | ⟨op, hop, rfl⟩ | hm | hm
      · rw [State.OnFile, hdocs] at hm
        exact .inl hm
      · rw [hstate] at hm
        exact .inr (.inl hm)
      · exact .inr (.inr (.inl (hout op hop)))
      · rw [hstate] at hm
        exact .inr (.inr (.inr (.inl hm)))
      · rw [hstate] at hm
        exact .inr (.inr (.inr (.inr hm)))
  · refine h.shifts.mono ?_ ?_ hdocs ?_ ?_
    · rw [hstate]
    · rw [hstate]
    · rw [hstate]
    · rw [hstate]

theorem markRejected (h : Held s) {f : Op → Bool} : Held (s.markRejected w f) := by
  have hwrite : ∀ op : Op, (if op.write = w then { op with rejected := f op } else op).write = op.write := by
    intro op
    split
    · rfl
    · rfl
  refine h.leave h.sound.markRejected rfl (fun op hop => ?_) (fun op hop => ?_) fun _ hv => hv
  · obtain ⟨op, hmem, rfl⟩ := List.mem_map.mp hop
    exact ⟨op, hmem, (hwrite op).symm⟩
  · rw [← hwrite op]
    exact .queued (List.mem_map_of_mem hop)

theorem settle (h : Held s) {reply : Reply} (hok : reply = .ok → s.OnFile w) : Held (s.settle w reply) := by
  have hs : Sound (s.settle w reply) := h.sound.settle
  cases reply with
  | ok =>
      refine h.leave hs rfl (fun op hop => ⟨op, List.mem_of_mem_filter hop, rfl⟩) (fun op hop => ?_)
        fun _ hv => hv
      by_cases hw : op.write = w
      · rw [hw]
        exact .inl (hok rfl)
      · exact .queued (List.mem_filter.mpr ⟨hop, decide_eq_true hw⟩)
  | failed status => exact h.markRejected

/-- A discarded operation is no longer in the way of the close. -/
theorem discard (h : Held s) {serverHasRow : Bool} : Held (s.discard w serverHasRow) := by
  have hs : Sound (s.discard w serverHasRow) := h.sound.discard
  rw [State.discard] at hs ⊢
  split
  · rename_i hany
    rw [if_pos hany] at hs
    refine h.leave hs rfl (fun op hop => ⟨op, List.mem_of_mem_filter hop, rfl⟩) (fun op hop => ?_)
      fun _ hv => List.mem_cons_of_mem _ hv
    by_cases hw : op.write = w
    · rw [hw]
      exact .inr (.inr (.inl List.mem_cons_self))
    · exact .queued (List.mem_filter.mpr ⟨hop, decide_eq_true hw⟩)
  · exact h

theorem closeIfVerdict (h : Held s) (hw : s.IsParked w) (hnone : s.waiting w.fingerprint = none)
    {status : Nat} : Held (s.closeIfVerdict w status) := by
  rw [State.closeIfVerdict]
  split
  · exact h.refuse hw hnone
  · exact h

/-! ## Every act -/

/-- A call that gives up parks its write, or saves it offline. -/
theorem giveUp (h : Held s) {x : Waiting} (hx : s.waiting a = some x) {f : Failure} {saves : Bool} :
    Held ((s.hang a).giveUp x f saves) := by
  obtain ⟨hfp, hparked, hnamed, -, -⟩ := h.sound.waiting a x hx
  have hnone : (s.hang a).waiting x.write.fingerprint = none := by
    rw [hfp]
    exact hang_none
  have hattempt : x.write ∈ s.attempts := by
    obtain ⟨p, hp, hpx⟩ := hparked
    exact hpx ▸ h.sound.parked p hp
  have hkept : s.Kept x.write := h.settled.kept hattempt (.inr (.inr (.inr (.inl ⟨a, x, hx, rfl⟩))))
  have hchecked : s.checked = true → x.write.kind.stamped = false := by
    intro hc
    by_contra hstamped
    rw [Bool.not_eq_false, PendingWrite.kind, hfp] at hstamped
    rw [(h.sighted.checked hc).waiting a hstamped] at hx
    cases hx
  cases f with
  | status code => exact h.hang.closeIfVerdict hparked hnone
  | unreadable => exact h.hang
  | transport => exact h.hang.saveOffline hparked hnone hnamed hkept hchecked

/-- A call that hears its answer is done with its write, or parks it again. -/
theorem hear (h : Held s) {x : Waiting} (hx : s.waiting a = some x) {reply : Reply}
    (hr : s.wire x.flight = some (.answered r reply)) {applies cached : Bool} :
    Held ((s.hang a).hear x.write applies cached reply) := by
  obtain ⟨hfp, hparked, -, -, hflight⟩ := h.sound.waiting a x hx
  have hnone : (s.hang a).waiting x.write.fingerprint = none := by
    rw [hfp]
    exact hang_none
  cases reply with
  | failed status => exact h.hang.closeIfVerdict hparked hnone
  | ok =>
      have hfile : s.OnFile x.write := hflight _ hr ▸ h.sound.done _ r hr
      rw [State.hear]
      split
      · rw [State.store]
        split
        · exact h.hang.finish hparked hnone hfile
        · exact h.hang.finish hparked hnone hfile
      · exact h.hang

theorem push (h : Held s) {op : Op} (hop : op ∈ s.outbox) : Held (s.fly (.asked ⟨op.write, op.body, true⟩)) := by
  have hq := h.sound.outbox op hop
  refine h.same (h.sound.fly hq.attempt hq.named) le_rfl (Nat.le_succ _) rfl rfl rfl rfl rfl rfl rfl rfl rfl
    (fun _ hw => hw) (fun _ _ hx => hx) fun n r hn => ?_
  rcases fly_wire hn with ⟨-, heq⟩ | ⟨-, hn⟩
  · obtain rfl := Flight.asked.inj heq
    exact .inr ⟨op, hop, rfl⟩
  · exact .inl hn

theorem lose (h : Held s) : Held { s with wire := Function.update s.wire n none } := by
  refine h.same h.sound.lose le_rfl le_rfl rfl rfl rfl rfl rfl rfl rfl rfl rfl (fun _ hw => hw)
    (fun _ _ hx => hx) fun m r hm => ?_
  simp only [Function.update_apply] at hm
  split at hm
  · cases hm
  · exact .inl hm

/-- A new shift has a number that no attempt was begun under, and no close was of. -/
theorem openShift (h : Held s) : Held { s with active := some (s.next, true), next := s.next + 1 } where
  sound := h.sound.openShift
  sighted := by
    refine ⟨fun w hw => ?_, fun hc => (h.sighted.checked hc).mono le_rfl (fun _ hp => hp) (fun _ ha => ha)
      fun op hop _ => ⟨op, hop, rfl⟩⟩
    exact (h.sighted.placed w hw).mono (fun _ hd => hd) (fun _ hw => hw) (fun _ hw => hw) (fun _ hw => hw)
      (fun _ hp => .parked hp) fun _ hop => .queued hop
  settled := h.settled.mono rfl rfl (fun _ hw => .inl hw) (fun _ hw => hw) (fun _ hw => hw)
    fun _ hw hm => h.settled.kept hw hm
  shifts := by
    have hnext : s.next ≤ s.next + 1 := Nat.le_succ _
    refine ⟨fun c hc heq => ?_, fun k o hk => ?_,
      fun c hc => ⟨(h.shifts.closed c hc).1.trans_le hnext, (h.shifts.closed c hc).2.trans hnext⟩,
      fun w hw k hk => (h.shifts.begun w hw k hk).trans_le hnext, h.shifts.before,
      fun d hd hstamped k hk hne => ⟨fun heq => ?_, (h.shifts.stray d hd hstamped k hk hne).2⟩⟩
    · have hlt := (h.shifts.closed c hc).1
      rw [← (Prod.mk.inj (Option.some.inj heq)).1] at hlt
      exact absurd hlt (lt_irrefl _)
    · obtain rfl := (Prod.mk.inj (Option.some.inj hk)).1
      exact Nat.lt_succ_self _
    · have hlt := h.shifts.begun d.write (h.sound.docs d hd).attempt k hk
      obtain rfl := (Prod.mk.inj (Option.some.inj heq)).1
      exact absurd hlt (lt_irrefl _)

/-- A close is sent. -/
theorem check (h : Held s) (hout : s.outbox = []) (hsale : s.hasParkedSale = false)
    (hwaiting : ∀ a : Action, a.kind.stamped = true → s.waiting a = none) {closesAsked : Nat} :
    Held { s with closesAsked := closesAsked, checked := true } where
  sound := h.sound.same rfl rfl rfl rfl rfl rfl rfl rfl h.sound.outbox
  sighted := by
    refine ⟨fun w hw => ?_, fun _ => ⟨?_, hwaiting, fun p hp hkind => ?_⟩⟩
    · exact (h.sighted.placed w hw).mono (fun _ hd => hd) (fun _ hw => hw) (fun _ hw => hw) (fun _ hw => hw)
        (fun _ hp => .parked hp) fun _ hop => .queued hop
    · simp [hout]
    · have hno := List.any_eq_false.mp hsale p hp
      simpa [hkind] using hno
  settled := h.settled.mono rfl rfl (fun _ hw => .inl hw) (fun _ hw => hw) (fun _ hw => hw)
    fun _ hw hm => h.settled.kept hw hm
  shifts := h.shifts.mono rfl rfl rfl rfl le_rfl

/-- Where a close meets the barrier, nothing may come any more of what is not on file. -/
theorem no_may (h : Held s) (hmeets : MeetsBarrier s .acceptClose) (hstamped : w.kind.stamped = true)
    (hfile : ¬s.OnFile w) : ¬s.May w := by
  obtain ⟨hchecked, hwire, hparked, -⟩ := hmeets
  have hc := h.sighted.checked hchecked
  rintro (hf | ⟨n, r, hn, rfl⟩ | ⟨op, hop, rfl⟩ | ⟨a, x, hx, rfl⟩ | ⟨p, hp, rfl, hlive⟩)
  · exact hfile hf
  · rw [hwire n r hn] at hstamped
    cases hstamped
  · rw [hc.outbox op hop] at hstamped
    cases hstamped
  · have hkind : a.kind.stamped = true := by
      rw [← (h.sound.waiting a x hx).fingerprint]
      exact hstamped
    rw [hc.waiting a hkind] at hx
    cases hx
  · by_cases hsale : p.write.kind = .sale
    · rw [hc.parked p hp hsale] at hlive
      cases hlive
    · rcases hparked p hp hstamped (.inl hsale) with hf | ⟨hdead, -⟩
      · exact hfile hf
      · rw [hdead] at hlive
        cases hlive

/-- And it was refused or discarded. -/
theorem ended (h : Held s) (hmeets : MeetsBarrier s .acceptClose) (hw : w ∈ s.attempts)
    (hstamped : w.kind.stamped = true) (hfile : ¬s.OnFile w) : w ∈ s.refused ∨ w ∈ s.discarded := by
  obtain ⟨hchecked, -, hparked, habandoned⟩ := hmeets
  have hc := h.sighted.checked hchecked
  rcases h.sighted.placed w hw with hf | hr | hd | ⟨p, hp, rfl⟩ | ⟨op, hop, rfl⟩ | hleft
  · exact absurd hf hfile
  · exact .inl hr
  · exact .inr hd
  · have hover : p.write.kind ≠ .sale ∨ p.live s.now = false := by
      by_cases hsale : p.write.kind = .sale
      · exact .inr (hc.parked p hp hsale)
      · exact .inl hsale
    rcases hparked p hp hstamped hover with hf | ⟨-, hr⟩
    · exact absurd hf hfile
    · exact .inl hr
  · rw [hc.outbox op hop] at hstamped
    cases hstamped
  · exact .inl ((habandoned w hleft hstamped).resolve_left hfile)

/-- **A close is accepted** that meets the barrier. -/
theorem acceptClose (h : Held s) (hmeets : MeetsBarrier s .acceptClose) {k : Nat}
    (hactive : s.active = some (k, true)) {closesAsked : Nat} :
    Held { s with active := some (k, false), closesAsked := closesAsked, closes := (k, s.next) :: s.closes } where
  sound := h.sound.same rfl rfl rfl rfl rfl rfl rfl rfl h.sound.outbox
  sighted := by
    refine ⟨fun w hw => ?_, fun hc => (h.sighted.checked hc).mono le_rfl (fun _ hp => hp) (fun _ ha => ha)
      fun op hop _ => ⟨op, hop, rfl⟩⟩
    exact (h.sighted.placed w hw).mono (fun _ hd => hd) (fun _ hw => hw) (fun _ hw => hw) (fun _ hw => hw)
      (fun _ hp => .parked hp) fun _ hop => .queued hop
  settled := by
    constructor
    · intro c hc w hw hstamped hlt
      rcases List.mem_cons.mp hc with rfl | hc
      · by_cases hfile : s.OnFile w
        · obtain ⟨d, hd, hsame⟩ := hfile
          exact .inl ⟨d, hd, hsame, (h.sound.docs d hd).lt⟩
        · exact .inr ⟨h.ended hmeets hw hstamped hfile, h.no_may hmeets hstamped hfile⟩
      · exact h.settled.past c hc w hw hstamped hlt
    · intro c hc d hd hstamped hlt
      rcases List.mem_cons.mp hc with rfl | hc
      · exact (h.sound.docs d hd).lt
      · exact h.settled.later c hc d hd hstamped hlt
  shifts := by
    refine ⟨fun c _ heq => ?_, fun k' o hk => ?_, fun c hc => ?_, h.shifts.begun, fun c hc w hw hk => ?_,
      fun d hd hstamped k' hk hne => ⟨fun heq => ?_, fun c hc => ?_⟩⟩
    · simp at heq
    · obtain rfl := (Prod.mk.inj (Option.some.inj hk)).1
      exact h.shifts.active k true hactive
    · rcases List.mem_cons.mp hc with rfl | hc
      · exact ⟨h.shifts.active k true hactive, le_rfl⟩
      · exact h.shifts.closed c hc
    · rcases List.mem_cons.mp hc with rfl | hc
      · exact (h.sound.fresh w hw).1
      · exact h.shifts.before c hc w hw hk
    · simp at heq
    · obtain ⟨hopen, hclosed⟩ := h.shifts.stray d hd hstamped k' hk hne
      rcases List.mem_cons.mp hc with rfl | hc
      · rintro rfl
        exact hopen hactive
      · exact hclosed c hc

/-- **One act keeps it**, as far as the closes meet the barrier. -/
theorem step (h : Held s) (act : Act) (hmeets : MeetsBarrier s act) : Held (step act s) := by
  cases act with
  | tick d =>
      exact h.same (h.sound.same rfl rfl rfl rfl rfl rfl rfl rfl h.sound.outbox) (Nat.le_add_right _ d) le_rfl
        rfl rfl rfl rfl rfl rfl rfl rfl rfl (fun _ hw => hw) (fun _ _ hx => hx) fun _ _ hn => .inl hn
  -- a press while the attempt waits does nothing; else the parked write is sent
  | press a printed degraded overpays saves =>
      rw [Attempts.step]
      cases hnone : s.waiting a with
      | some x => exact h
      | none =>
          obtain ⟨hnow, hwaiting, p, hp, hpw, hfp, hlive⟩ := pendingOf_parked s a
          rw [← hpw]
          refine (h.pendingOf hnone).send hp ?_ ?_ rfl
          · show p.live (s.pendingOf a).2.now = true
            rw [hnow]
            exact hlive
          · show (s.pendingOf a).2.waiting p.write.fingerprint = none
            rw [hwaiting, hfp]
            exact hnone
  | serve n accepts =>
      rw [Attempts.step]
      split
      · rename_i r hn
        exact h.serve hn
      · exact h
  | fail n status =>
      rw [Attempts.step]
      split
      · rename_i r hn
        exact h.answer hn fun heq => nomatch heq
      · exact h
  | lose n => exact h.lose
  -- the caller that waits hears the reply, nobody else
  | hear a applies cached =>
      rw [Attempts.step]
      cases hx : s.waiting a with
      | none => exact h
      | some x =>
          simp only []
          split
          · rename_i r reply hr
            exact h.hear hx hr
          · exact h
  | giveUp a f saves =>
      rw [Attempts.step]
      cases hx : s.waiting a with
      | none => exact h
      | some x => exact h.giveUp hx
  | push w =>
      rw [Attempts.step]
      split
      · rename_i op hfind
        obtain ⟨hop, hsame⟩ : op ∈ s.outbox ∧ op.write = w := by
          have hmem := List.mem_of_find?_eq_some hfind
          have hthis := List.find?_some hfind
          simp only [Bool.and_eq_true, decide_eq_true_eq] at hthis
          exact ⟨hmem, hthis.1⟩
        rw [← hsame]
        exact h.push hop
      · exact h
  -- a result that settles an operation as done tells of a write the server has
  | settle n =>
      rw [Attempts.step]
      split
      · rename_i r reply hn
        split
        · refine h.settle fun hok => ?_
          subst hok
          exact h.sound.done n r hn
        · exact h
      · exact h
  | resend w => exact h.markRejected
  | discard w serverHasRow => exact h.discard
  -- an old idempotency key goes; nothing that the barrier counts
  | cleanup key =>
      rw [Attempts.step]
      split
      · split
        · exact h.same h.sound.cleanup le_rfl le_rfl rfl rfl rfl rfl rfl rfl rfl rfl rfl (fun _ hw => hw)
            (fun _ _ hx => hx) fun _ _ hn => .inl hn
        · exact h
      · exact h
  | openShift => exact h.openShift
  -- the barrier is checked here
  | closeShift =>
      rw [Attempts.step]
      split
      · rename_i hask
        simp only [Bool.and_eq_true, List.isEmpty_iff, Bool.not_eq_true'] at hask
        exact h.check hask.1 hask.2 hmeets
      · exact h
  | acceptClose =>
      rw [Attempts.step]
      split
      · rename_i k hactive
        split
        · exact h.acceptClose hmeets hactive
        · exact h
      · exact h

end Held

/-- By induction on the run. -/
theorem run_held (h : Held s) (acts : List Act) (hmeets : AllMeet MeetsBarrier acts s) : Held (run acts s) := by
  induction acts generalizing s with
  | nil => exact h
  | cons a acts ih => exact ih (h.step a hmeets.1) hmeets.2

/-- **What is begun before a close ends before it**: in every run whose closes meet the barrier. -/
theorem run_barrier (h : s.Start) (acts : List Act) (hmeets : AllMeet MeetsBarrier acts s) :
    (run acts s).Barrier :=
  (run_held (.start h) acts hmeets).barrier

/-! ## An evening -/

def entry : Action := ⟨.drawerEntry, 100⟩

/-- Nothing is left of the entry when the shift is closed. -/
theorem run_barrier_of_evening :
    (run [presses entry, .serve 3 true, .hear entry true true, .closeShift, .acceptClose, .openShift]
      empty).Barrier := by
  refine run_barrier empty_start _ ⟨trivial, trivial, trivial, ?_, ⟨rfl, ?_, ?_, ?_⟩, trivial, trivial⟩
  · intro a ha
    by_cases heq : a = entry
    · subst heq
      rfl
    · exact (Function.update_of_ne heq _ _).trans (Function.update_of_ne heq _ _)
  · intro n r hn
    by_cases heq : n = 3
    · subst heq
      cases hn
    · refine absurd hn ?_
      refine ((Function.update_of_ne heq _ _).trans (Function.update_of_ne heq _ _)).trans_ne ?_
      exact (Option.some_ne_none _).symm
  · rintro p ⟨⟩
  · rintro w ⟨⟩

/-- **An entry goes into the next shift.** Its first attempt came back with a 504 and was not committed.
The close asks for parked sales only, so the shift is closed; pressed again under the same key, the entry
is stamped with the shift that was opened then. -/
theorem entry_after_close : empty.Start ∧
    ¬(run [presses entry, .giveUp entry (.status 504) true, .closeShift, .acceptClose, .openShift,
      presses entry, .serve 5 true] empty).Barrier := by
  refine ⟨empty_start, fun h => ?_⟩
  exact absurd (h.later (0, 4) List.mem_cons_self _ List.mem_cons_self rfl (by decide)) (by decide)

end Attempts

import SrisurartPos.Till.Attempts
import Mathlib.Order.Basic
import Mathlib.Algebra.Order.Group.Nat

/-! # What an attempt is sent under

No two attempts share an id or a key, and whatever is on its way, queued, on file or parked goes back to
one attempt, under the attempt's own id and key. -/

namespace Attempts

variable {s : State} {w v : PendingWrite} {r : Request} {n : Nat} {a : Action} {b : Body}

/-! ## The invariant -/

/-- The body names the document of the attempt. A mechanic's is named by the server. -/
def Named (w : PendingWrite) (b : Body) : Prop := b.id = if w.kind = .mechanic then none else some w.id

def State.IsParked (s : State) (w : PendingWrite) : Prop := ∃ p ∈ s.parked, p.write = w

section
variable (attempts : List PendingWrite) (next : Nat)

structure WaitsFor (parked : List Parked) (wire : Nat → Option Flight) (a : Action) (x : Waiting) :
    Prop where
  fingerprint : x.write.fingerprint = a
  parked : ∃ p ∈ parked, p.write = x.write
  named : Named x.write x.body
  lt : x.flight < next
  flight : ∀ f, wire x.flight = some f → f.request.write = x.write

structure Sent (n : Nat) (f : Flight) : Prop where
  lt : n < next
  attempt : f.request.write ∈ attempts
  named : Named f.request.write f.request.body

structure Queued (op : Op) : Prop where
  attempt : op.write ∈ attempts
  kind : op.write.kind ≠ .mechanic
  named : Named op.write op.body

structure Filed (d : Doc) : Prop where
  attempt : d.write ∈ attempts
  id : d.write.kind ≠ .mechanic → d.id = d.write.id
  lt : d.no < next

end

structure Sound (s : State) : Prop where
  fresh : ∀ w ∈ s.attempts, w.id < s.next ∧ w.key < s.next
  apart : ∀ w ∈ s.attempts, ∀ v ∈ s.attempts, w.id = v.id ∨ w.key = v.key → w = v
  parked : ∀ p ∈ s.parked, p.write ∈ s.attempts
  single : ∀ p ∈ s.parked, ∀ q ∈ s.parked, p.write.fingerprint = q.write.fingerprint → p = q
  waiting : ∀ a x, s.waiting a = some x → WaitsFor s.next s.parked s.wire a x
  wire : ∀ n f, s.wire n = some f → Sent s.attempts s.next n f
  done : ∀ n r, s.wire n = some (.answered r .ok) → s.OnFile r.write
  outbox : ∀ op ∈ s.outbox, Queued s.attempts op
  docs : ∀ d ∈ s.docs, Filed s.attempts s.next d
  keys : ∀ k row, s.keys k = some row → ∃ d ∈ s.docs, d.write.key = k
  bodies : ∀ id b, s.bodies id = some b → ∃ w ∈ s.attempts, w.id = id ∧ Named w b

/-- At the start nothing is parked and nothing is under way. -/
theorem Sound.start (h : s.Start) : Sound s where
  fresh := by simp [h.attempts]
  apart := by simp [h.attempts]
  parked := by simp [h.parked]
  single := by simp [h.parked]
  waiting := by simp [h.waiting]
  wire := by simp [h.wire]
  done := by simp [h.wire]
  outbox := by simp [h.outbox]
  docs := by simp [h.docs]
  keys := by simp [h.keys]
  bodies := by simp [h.bodies]

/-! ## Small facts -/

theorem mem_park {p : Parked} (h : p ∈ (s.park w).parked) :
    p = ⟨w, s.now⟩ ∨ p ∈ s.parked ∧ p.write.fingerprint ≠ w.fingerprint := by
  rcases List.mem_cons.mp h with h | h
  · exact .inl h
  · exact .inr ⟨(List.mem_filter.mp h).1, of_decide_eq_true (List.mem_filter.mp h).2⟩

theorem mem_close {p : Parked} (h : p ∈ (s.close w).parked) :
    p ∈ s.parked ∧ p.write.fingerprint ≠ w.fingerprint :=
  ⟨(List.mem_filter.mp h).1, of_decide_eq_true (List.mem_filter.mp h).2⟩

theorem isParked_park {p : Parked} (hp : p ∈ s.parked) (hne : p.write.fingerprint ≠ w.fingerprint) :
    (s.park w).IsParked p.write :=
  ⟨p, List.mem_cons_of_mem _ (List.mem_filter.mpr ⟨hp, decide_eq_true hne⟩), rfl⟩

theorem isParked_close {p : Parked} (hp : p ∈ s.parked) (hne : p.write.fingerprint ≠ w.fingerprint) :
    (s.close w).IsParked p.write :=
  ⟨p, List.mem_filter.mpr ⟨hp, decide_eq_true hne⟩, rfl⟩

theorem lookup_mem {p : Parked} (h : s.lookup a = some p) : p ∈ s.parked ∧ p.write.fingerprint = a := by
  rw [State.lookup, List.find?_eq_some_iff_append] at h
  obtain ⟨hp, ps, qs, heq, -⟩ := h
  exact ⟨by simp [heq], of_decide_eq_true hp⟩

theorem lookup_none (h : s.lookup a = none) : ∀ p ∈ s.parked, p.write.fingerprint ≠ a := by
  intro p hp heq
  exact absurd (decide_eq_true heq) (List.find?_eq_none.mp h p hp)

/-- What an attempt is sent under is parked, and young: it was before, or it is new. -/
theorem pendingOf_parked (s : State) (a : Action) :
    (s.pendingOf a).2.now = s.now ∧ (s.pendingOf a).2.waiting = s.waiting ∧
      ∃ p ∈ (s.pendingOf a).2.parked, p.write = (s.pendingOf a).1 ∧ p.write.fingerprint = a ∧
        p.live s.now = true := by
  have hyoung : s.now < s.now + ttl := Nat.lt_add_of_pos_right (by decide)
  rw [State.pendingOf]
  cases hlookup : s.lookup a with
  | none => exact ⟨rfl, rfl, _, List.mem_cons_self, rfl, rfl, decide_eq_true hyoung⟩
  | some p =>
      obtain ⟨hp, hfp⟩ := lookup_mem hlookup
      by_cases hlive : p.live s.now = true
      · simp only [if_pos hlive]
        exact ⟨trivial, trivial, p, hp, rfl, hfp, hlive⟩
      · simp only [if_neg hlive]
        exact ⟨rfl, rfl, _, List.mem_cons_self, rfl, rfl, decide_eq_true hyoung⟩

/-- A new flight, and the old ones. -/
theorem fly_wire {f g : Flight} (h : (s.fly f).wire n = some g) :
    n = s.next ∧ g = f ∨ n ≠ s.next ∧ s.wire n = some g := by
  simp only [State.fly, Function.update_apply] at h
  split at h
  · rename_i hn
    exact .inl ⟨hn, (Option.some.inj h).symm⟩
  · rename_i hn
    exact .inr ⟨hn, h⟩

theorem answer_wire {reply : Reply} {m : Nat} {g : Flight} (h : (s.answer n r reply).wire m = some g) :
    m = n ∧ g = .answered r reply ∨ m ≠ n ∧ s.wire m = some g := by
  simp only [State.answer, Function.update_apply] at h
  split at h
  · rename_i hm
    exact .inl ⟨hm, (Option.some.inj h).symm⟩
  · rename_i hm
    exact .inr ⟨hm, h⟩

theorem hang_waiting {x : Waiting} {c : Action} (h : (s.hang a).waiting c = some x) :
    c ≠ a ∧ s.waiting c = some x := by
  simp only [State.hang, Function.update_apply] at h
  split at h
  · cases h
  · rename_i hc
    exact ⟨hc, h⟩

theorem hang_none : (s.hang a).waiting a = none := by simp [State.hang]

/-- The body that is sent names the attempt, kept or new. -/
theorem Sound.bodyOf (h : Sound s) (hw : w ∈ s.attempts) (printed : Nat) :
    Named w (s.bodyOf w printed) := by
  have hnew : Named w (s.newBody w printed) := rfl
  rw [State.bodyOf]
  split
  · cases hb : s.bodies w.id with
    | none => exact hnew
    | some b =>
        obtain ⟨v, hv, hid, hnamed⟩ := h.bodies _ _ hb
        obtain rfl := h.apart v hv w hw (.inl hid)
        exact hnamed
  · exact hnew

/-- To keep a body changes nothing else. -/
theorem keepBody_same (s : State) (w : PendingWrite) (b : Body) :
    s.keepBody w b = { s with bodies := (s.keepBody w b).bodies } := by
  rw [State.keepBody]
  split
  · rfl
  · rfl

/-- A document that is found under the id of a request is that of its attempt. -/
theorem Sound.found (h : Sound s) (hr : r.write ∈ s.attempts) (hnamed : Named r.write r.body) {id : Nat}
    (hfound : s.found r = some id) : ∃ d ∈ s.docs, d.write = r.write := by
  obtain ⟨hid, hany⟩ := Option.filter_eq_some_iff.mp hfound
  obtain ⟨d, hd, hsame⟩ := List.any_eq_true.mp hany
  simp only [Bool.and_eq_true, decide_eq_true_eq] at hsame
  have hfiled := h.docs d hd
  have hkind : r.write.kind ≠ .mechanic := by
    intro hm
    rw [Named, if_pos hm, hid] at hnamed
    cases hnamed
  rw [Named, if_neg hkind, hid] at hnamed
  refine ⟨d, hd, h.apart _ hfiled.attempt _ hr (.inl ?_)⟩
  rw [← hfiled.id (hsame.1 ▸ hkind), hsame.2]
  exact Option.some.inj hnamed

/-- Where none is found, the attempt has no document, unless it is a mechanic's. -/
theorem Sound.not_found (h : Sound s) (hnamed : Named r.write r.body) (hfound : s.found r = none)
    (hkind : r.write.kind ≠ .mechanic) : ¬s.OnFile r.write := by
  rintro ⟨d, hd, hsame⟩
  rw [Named, if_neg hkind] at hnamed
  rw [State.found, hnamed] at hfound
  have hno := Option.filter_eq_none_iff.mp hfound r.write.id rfl
  refine hno (List.any_eq_true.mpr ⟨d, hd, ?_⟩)
  have hid : d.id = r.write.id := hsame ▸ (h.docs d hd).id (hsame ▸ hkind)
  simp [hsame, hid]

/-- What the server may do with a request. -/
theorem Sound.serve_cases (h : Sound s) (hn : s.wire n = some (.asked r)) (accepts : Bool) :
    s.serve n r accepts = s.answer n r .ok ∧ s.OnFile r.write ∨
      (∃ id, s.serve n r accepts = (s.complete r id).answer n r .ok ∧ s.OnFile r.write) ∨
      s.serve n r accepts = (s.commit r).answer n r .ok ∧ s.keys r.write.key = none ∧ s.found r = none ∨
      s.serve n r accepts = s.answer n r (.failed 409) := by
  have hsent := h.wire n _ hn
  rw [State.serve]
  cases hkey : s.keys r.write.key with
  | some row =>
      obtain ⟨d, hd, hsame⟩ := h.keys _ _ hkey
      have hfile : s.OnFile r.write :=
        ⟨d, hd, h.apart _ (h.docs d hd).attempt _ hsent.attempt (.inr hsame)⟩
      simp only []
      split
      · exact .inl ⟨rfl, hfile⟩
      · exact .inr (.inr (.inr rfl))
  | none =>
      cases hfound : s.found r with
      | some id =>
          simp only []
          split
          · exact .inr (.inl ⟨id, rfl, h.found hsent.attempt hsent.named hfound⟩)
          · exact .inr (.inr (.inr rfl))
      | none =>
          simp only []
          split
          · exact .inr (.inr (.inl ⟨rfl, trivial, trivial⟩))
          · exact .inr (.inr (.inr rfl))

/-! ## What keeps it -/

namespace Sound

/-- A new attempt is parked, where nobody waits for the last one. -/
theorem park (h : Sound s) (life : Nat) (hnone : s.waiting a = none) : Sound (s.park (s.mint a life)) where
  fresh := by
    intro w hw
    rcases List.mem_cons.mp hw with rfl | hw
    · exact ⟨by show s.next < s.next + 2; omega, by show s.next + 1 < s.next + 2; omega⟩
    · have := h.fresh w hw
      exact ⟨by show w.id < s.next + 2; omega, by show w.key < s.next + 2; omega⟩
  apart := by
    -- both numbers are drawn here for the first time
    have hnew : ∀ v ∈ s.attempts, ¬(s.next = v.id ∨ s.next + 1 = v.key) := by
      intro v hv
      have := h.fresh v hv
      omega
    intro w hw v hv hsame
    rcases List.mem_cons.mp hw with rfl | hw
    · rcases List.mem_cons.mp hv with rfl | hv
      · rfl
      · exact absurd hsame (hnew v hv)
    · rcases List.mem_cons.mp hv with rfl | hv
      · exact absurd (hsame.imp Eq.symm Eq.symm) (hnew w hw)
      · exact h.apart w hw v hv hsame
  parked := by
    intro p hp
    rcases mem_park hp with rfl | ⟨hp, -⟩
    · exact List.mem_cons_self
    · exact List.mem_cons_of_mem _ (h.parked p hp)
  single := by
    intro p hp q hq hsame
    rcases mem_park hp with rfl | ⟨hp, hne⟩
    · rcases mem_park hq with rfl | ⟨-, hne⟩
      · rfl
      · exact absurd hsame.symm hne
    · rcases mem_park hq with rfl | ⟨hq, -⟩
      · exact absurd hsame hne
      · exact h.single p hp q hq hsame
  waiting := by
    intro c x hx
    obtain ⟨hfp, ⟨p, hp, hpx⟩, hnamed, hlt, hflight⟩ := h.waiting c x hx
    refine ⟨hfp, ?_, hnamed, by show x.flight < s.next + 2; omega, hflight⟩
    rw [← hpx]
    refine isParked_park hp ?_
    rw [hpx, hfp]
    rintro rfl
    -- the cart that is parked over is the one that waits for nothing
    exact absurd (hx.symm.trans hnone) (by simp)
  wire := by
    intro n f hf
    obtain ⟨hlt, hatt, hnamed⟩ := h.wire n f hf
    exact ⟨by show n < s.next + 2; omega, List.mem_cons_of_mem _ hatt, hnamed⟩
  done := h.done
  outbox := fun op hop => ⟨List.mem_cons_of_mem _ (h.outbox op hop).attempt, (h.outbox op hop).kind,
    (h.outbox op hop).named⟩
  docs := by
    intro d hd
    obtain ⟨hatt, hid, hlt⟩ := h.docs d hd
    exact ⟨List.mem_cons_of_mem _ hatt, hid, by show d.no < s.next + 2; omega⟩
  keys := h.keys
  bodies := by
    intro id b hb
    obtain ⟨w, hw, hid, hnamed⟩ := h.bodies id b hb
    exact ⟨w, List.mem_cons_of_mem _ hw, hid, hnamed⟩

/-- An attempt is closed, where nobody waits for it. -/
theorem close (h : Sound s) (hnone : s.waiting w.fingerprint = none) : Sound (s.close w) :=
  { h with
    parked := fun p hp => h.parked p (mem_close hp).1
    single := fun p hp q hq => h.single p (mem_close hp).1 q (mem_close hq).1
    waiting := by
      intro c x hx
      obtain ⟨hfp, ⟨p, hp, hpx⟩, hnamed, hlt, hflight⟩ := h.waiting c x hx
      refine ⟨hfp, ?_, hnamed, hlt, hflight⟩
      rw [← hpx]
      refine isParked_close hp ?_
      rw [hpx, hfp]
      rintro rfl
      exact absurd (hx.symm.trans hnone) (by simp)
    bodies := by
      intro id b hb
      simp only [State.close, Function.update_apply] at hb
      split at hb
      · cases hb
      · exact h.bodies id b hb }

/-- Only what the invariant does not speak of changes. -/
theorem same {s' : State} (h : Sound s) (hnext : s'.next = s.next) (hparked : s'.parked = s.parked)
    (hbodies : s'.bodies = s.bodies) (hwaiting : s'.waiting = s.waiting) (hwire : s'.wire = s.wire)
    (hdocs : s'.docs = s.docs) (hkeys : s'.keys = s.keys) (hattempts : s'.attempts = s.attempts)
    (houtbox : ∀ op ∈ s'.outbox, Queued s.attempts op) : Sound s' := by
  obtain ⟨now, next, parked, bodies, waiting, outbox, applied, active, docs, keys, wire, closesAsked,
    attempts, reported, refused, discarded, abandoned, lives, checked, closes⟩ := s'
  subst hnext hparked hbodies hwaiting hwire hdocs hkeys hattempts
  exact { h with outbox := houtbox }

/-- The body of a parked attempt is kept under its own names. -/
theorem keepBody (h : Sound s) (hw : w ∈ s.attempts) (hnamed : Named w b) : Sound (s.keepBody w b) := by
  rw [State.keepBody]
  split
  · exact
      { h with
        bodies := by
          intro id b' hb
          simp only [Function.update_apply] at hb
          split at hb
          · rename_i hid
            obtain rfl := Option.some.inj hb
            exact ⟨w, hw, hid.symm, hnamed⟩
          · exact h.bodies id b' hb }
  · exact h

/-- A request leaves. -/
theorem fly (h : Sound s) (hw : r.write ∈ s.attempts) (hnamed : Named r.write r.body) :
    Sound (s.fly (.asked r)) :=
  { h with
    fresh := by
      intro w hw
      have := h.fresh w hw
      exact ⟨by show w.id < s.next + 1; omega, by show w.key < s.next + 1; omega⟩
    waiting := by
      intro c x hx
      obtain ⟨hfp, hparked, hnamed, hlt, hflight⟩ := h.waiting c x hx
      refine ⟨hfp, hparked, hnamed, by show x.flight < s.next + 1; omega, fun f hf => ?_⟩
      rcases fly_wire hf with ⟨hn, -⟩ | ⟨-, hf⟩
      · omega
      · exact hflight f hf
    wire := by
      intro n f hf
      rcases fly_wire hf with ⟨rfl, rfl⟩ | ⟨-, hf⟩
      · exact ⟨by show s.next < s.next + 1; omega, hw, hnamed⟩
      · obtain ⟨hlt, hatt, hnamed⟩ := h.wire n f hf
        exact ⟨by show n < s.next + 1; omega, hatt, hnamed⟩
    done := by
      intro n r' hr'
      rcases fly_wire hr' with ⟨-, heq⟩ | ⟨-, hr'⟩
      · cases heq
      · exact h.done n r' hr'
    docs := by
      intro d hd
      obtain ⟨hatt, hid, hlt⟩ := h.docs d hd
      exact ⟨hatt, hid, by show d.no < s.next + 1; omega⟩ }

/-- It is waited for. -/
theorem ask (h : Sound s) (hw : s.IsParked w) (hnamed : Named w b) : Sound (s.ask w b) := by
  obtain ⟨p, hp, rfl⟩ := hw
  have hfly : Sound (s.fly (.asked ⟨p.write, b, false⟩)) := h.fly (h.parked p hp) hnamed
  exact
    { hfly with
      waiting := by
        intro c x hx
        simp only [State.ask, Function.update_apply] at hx
        split at hx
        · rename_i hc
          obtain rfl := Option.some.inj hx
          refine ⟨hc.symm, ⟨p, hp, rfl⟩, hnamed, by show s.next < s.next + 1; omega, fun f hf => ?_⟩
          rcases fly_wire hf with ⟨-, rfl⟩ | ⟨hne, -⟩
          · rfl
          · exact absurd rfl hne
        · obtain ⟨hfp, hparked, hnamed, hlt, hflight⟩ := hfly.waiting c x hx
          exact ⟨hfp, hparked, hnamed, hlt, hflight⟩ }

/-- A request is answered. -/
theorem answer (h : Sound s) {reply : Reply} (hn : s.wire n = some (.asked r))
    (hok : reply = .ok → s.OnFile r.write) : Sound (s.answer n r reply) :=
  { h with
    waiting := by
      intro c x hx
      obtain ⟨hfp, hparked, hnamed, hlt, hflight⟩ := h.waiting c x hx
      refine ⟨hfp, hparked, hnamed, hlt, fun f hf => ?_⟩
      rcases answer_wire hf with ⟨hm, rfl⟩ | ⟨-, hf⟩
      · exact hflight (.asked r) (hm ▸ hn)
      · exact hflight f hf
    wire := by
      intro m f hf
      rcases answer_wire hf with ⟨rfl, rfl⟩ | ⟨-, hf⟩
      · exact ⟨(h.wire m _ hn).lt, (h.wire m _ hn).attempt, (h.wire m _ hn).named⟩
      · exact ⟨(h.wire m f hf).lt, (h.wire m f hf).attempt, (h.wire m f hf).named⟩
    done := by
      intro m r' hr'
      rcases answer_wire hr' with ⟨-, heq⟩ | ⟨-, hr'⟩
      · obtain ⟨rfl, rfl⟩ := Flight.answered.inj heq
        exact hok rfl
      · exact h.done m r' hr' }

theorem complete (h : Sound s) {doc : Nat} (hfile : s.OnFile r.write) : Sound (s.complete r doc) :=
  { h with
    keys := by
      intro k row hk
      simp only [State.complete, Function.update_apply] at hk
      split at hk
      · rename_i hkey
        obtain ⟨d, hd, hsame⟩ := hfile
        exact ⟨d, hd, by rw [hsame, hkey]⟩
      · exact h.keys k row hk }

/-- The work of a request is done, under its own id. -/
theorem commit (h : Sound s) (hatt : r.write ∈ s.attempts) (hnamed : Named r.write r.body) :
    Sound (s.commit r) := by
  have hid : r.write.kind ≠ .mechanic → r.body.id.getD s.next = r.write.id := by
    intro hkind
    rw [hnamed, if_neg hkind]
    rfl
  have hdocs : Sound { s with
      next := s.next + 1
      docs := ⟨r.body.id.getD s.next, r.write, if r.write.kind.stamped then s.openShift else none,
        s.next⟩ :: s.docs } :=
    { h with
      fresh := by
        intro w hw
        have := h.fresh w hw
        exact ⟨by show w.id < s.next + 1; omega, by show w.key < s.next + 1; omega⟩
      waiting := by
        intro c x hx
        obtain ⟨hfp, hparked, hnamed, hlt, hflight⟩ := h.waiting c x hx
        exact ⟨hfp, hparked, hnamed, by show x.flight < s.next + 1; omega, hflight⟩
      wire := by
        intro n f hf
        obtain ⟨hlt, hatt, hnamed⟩ := h.wire n f hf
        exact ⟨by show n < s.next + 1; omega, hatt, hnamed⟩
      done := by
        intro n r' hr'
        obtain ⟨d, hd, hsame⟩ := h.done n r' hr'
        exact ⟨d, List.mem_cons_of_mem _ hd, hsame⟩
      docs := by
        intro d hd
        rcases List.mem_cons.mp hd with rfl | hd
        · exact ⟨hatt, hid, by show s.next < s.next + 1; omega⟩
        · obtain ⟨hatt, hid, hlt⟩ := h.docs d hd
          exact ⟨hatt, hid, by show d.no < s.next + 1; omega⟩
      keys := by
        intro k row hk
        obtain ⟨d, hd, hkey⟩ := h.keys k row hk
        exact ⟨d, List.mem_cons_of_mem _ hd, hkey⟩ }
  exact hdocs.complete ⟨_, List.mem_cons_self, rfl⟩

/-- What was on its way is lost, or the wait for it is over. -/
theorem lose (h : Sound s) : Sound { s with wire := Function.update s.wire n none } := by
  have hold : ∀ m f, Function.update s.wire n none m = some f → s.wire m = some f := by
    intro m f hf
    rw [Function.update_apply] at hf
    split at hf
    · cases hf
    · exact hf
  exact
    { h with
      waiting := fun c x hx =>
        { h.waiting c x hx with flight := fun f hf => (h.waiting c x hx).flight f (hold _ f hf) }
      wire := fun m f hf => h.wire m f (hold m f hf)
      done := fun m r hr => h.done m r (hold m _ hr) }

theorem hang (h : Sound s) : Sound (s.hang a) :=
  { h with waiting := fun c x hx => h.waiting c x (hang_waiting hx).2 }

theorem enqueue (h : Sound s) (hatt : w ∈ s.attempts) (hkind : w.kind ≠ .mechanic) (hnamed : Named w b) :
    Sound (s.enqueue w b) := by
  refine h.same rfl rfl rfl rfl rfl rfl rfl rfl fun op hop => ?_
  rcases List.mem_append.mp hop with hop | hop
  · exact h.outbox op hop
  · obtain rfl := List.mem_singleton.mp hop
    refine ⟨hatt, hkind, ?_⟩
    show Named w (if _ then _ else b)
    split
    · exact hnamed
    · exact hnamed

theorem cleanup (h : Sound s) {key : Nat} : Sound { s with keys := Function.update s.keys key none } :=
  { h with
    keys := by
      intro k row hk
      simp only [Function.update_apply] at hk
      split at hk
      · cases hk
      · exact h.keys k row hk }

/-- A new shift takes an id that nothing has. -/
theorem openShift (h : Sound s) {active : Option (Nat × Bool)} :
    Sound { s with active := active, next := s.next + 1 } :=
  { h with
    fresh := by
      intro w hw
      have := h.fresh w hw
      exact ⟨by show w.id < s.next + 1; omega, by show w.key < s.next + 1; omega⟩
    waiting := by
      intro c x hx
      obtain ⟨hfp, hparked, hnamed, hlt, hflight⟩ := h.waiting c x hx
      exact ⟨hfp, hparked, hnamed, by show x.flight < s.next + 1; omega, hflight⟩
    wire := by
      intro n f hf
      obtain ⟨hlt, hatt, hnamed⟩ := h.wire n f hf
      exact ⟨by show n < s.next + 1; omega, hatt, hnamed⟩
    docs := by
      intro d hd
      obtain ⟨hatt, hid, hlt⟩ := h.docs d hd
      exact ⟨hatt, hid, by show d.no < s.next + 1; omega⟩ }

/-- The answer to a request is right: what it says is done is on file. -/
theorem markRejected (h : Sound s) {f : Op → Bool} : Sound (s.markRejected w f) := by
  refine h.same rfl rfl rfl rfl rfl rfl rfl rfl fun op hop => ?_
  obtain ⟨op, hmem, rfl⟩ := List.mem_map.mp hop
  have hq := h.outbox op hmem
  split
  · exact ⟨hq.attempt, hq.kind, hq.named⟩
  · exact hq

theorem settle (h : Sound s) {reply : Reply} : Sound (s.settle w reply) := by
  cases reply with
  | ok =>
      exact h.same rfl rfl rfl rfl rfl rfl rfl rfl fun op hop => h.outbox op (List.mem_of_mem_filter hop)
  | failed status => exact h.markRejected

theorem discard (h : Sound s) {serverHasRow : Bool} : Sound (s.discard w serverHasRow) := by
  rw [State.discard]
  split
  · exact h.same rfl rfl rfl rfl rfl rfl rfl rfl fun op hop => h.outbox op (List.mem_of_mem_filter hop)
  · exact h

end Sound

/-! ## A till that was just started -/

/-- A shift is open, and nothing was done yet. -/
def empty : State :=
  { now := 0
    next := 1
    parked := []
    bodies := fun _ => none
    waiting := fun _ => none
    outbox := []
    applied := []
    active := some (0, true)
    docs := []
    keys := fun _ => none
    wire := fun _ => none
    closesAsked := 0
    attempts := []
    reported := []
    refused := []
    discarded := []
    abandoned := []
    lives := fun _ => 0
    checked := false
    closes := [] }

theorem empty_start : empty.Start where
  parked := rfl
  bodies := fun _ => rfl
  waiting := fun _ => rfl
  outbox := rfl
  applied := rfl
  docs := rfl
  keys := fun _ => rfl
  wire := fun _ => rfl
  attempts := rfl
  reported := rfl
  discarded := rfl
  checked := rfl
  closes := rfl
  active := by
    intro k o hk
    obtain ⟨rfl, -⟩ := Prod.mk.inj (Option.some.inj hk)
    exact Nat.one_pos

/-- The button is pressed, with the server in reach. -/
def presses (a : Action) : Act := .press a 0 false false true

end Attempts

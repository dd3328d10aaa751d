import SrisurartPos.Till.ShopCache
import Mathlib.Order.Basic
import Mathlib.Algebra.Order.Group.Nat

/-! # One shop's rows in the local database

What is compared in the transaction that writes never brings another shop's row, as far as no request
leaves, and no reply lands, in the middle of a login. What is compared with nothing brings one whenever
another shop was admitted since it was begun. -/

namespace ShopCache

variable {s s' : State} {k : Nat} {f : Flow} {r : Row} {rows : List Row} {t : ShopId}

/-! ## The rows that are left -/

theorem Of.none : Of t none := fun _ h => nomatch h

theorem seeds_of (h : r ∈ seeds) : r.shop = none ∧ r.table ≠ .outboxOps := by
  simp only [seeds, List.mem_cons, List.not_mem_nil, or_false] at h
  rcases h with rfl | rfl
  · exact ⟨rfl, by decide⟩
  · exact ⟨rfl, by decide⟩

theorem mem_resetPulledCache {keep : Bool} (h : r ∈ resetPulledCache keep rows) :
    r ∈ rows ∨ r ∈ seeds := by
  rcases List.mem_append.mp h with h | h
  · exact .inl (List.mem_of_mem_filter h)
  · exact .inr h

theorem mem_resetAfterServerImport (h : r ∈ resetAfterServerImport rows) : r ∈ rows ∨ r ∈ seeds := by
  rcases List.mem_append.mp h with h | h
  · exact .inl (List.mem_of_mem_filter h)
  · exact .inr h

theorem mem_upsert {r' : Row} (h : r' ∈ upsert r rows) : r' = r ∨ r' ∈ rows := by
  rcases List.mem_cons.mp h with h | h
  · exact .inl h
  · exact .inr (List.mem_of_mem_filter h)

theorem hasLocalWork_eq : hasLocalWork rows = rows.any Row.isWork := by
  rw [Bool.eq_iff_iff]
  simp only [hasLocalWork, hasUnsentWork, Row.isWork, Bool.or_eq_true, List.any_eq_true]
  constructor
  · rintro (⟨r, hr, h⟩ | ⟨r, hr, h⟩)
    · exact ⟨r, hr, .inl h⟩
    · exact ⟨r, hr, .inr h⟩
  · rintro ⟨r, hr, h | h⟩
    · exact .inl ⟨r, hr, h⟩
    · exact .inr ⟨r, hr, h⟩

/-- The whole cache is emptied only where that deletes no work. -/
theorem filter_isWork (h : hasLocalWork rows = false) : rows.filter Row.isWork = [] := by
  rw [hasLocalWork_eq, List.any_eq_false] at h
  exact List.filter_eq_nil_iff.mpr h

/-- What is pulled is nobody's work. -/
theorem isWork_of_pulled {keep : Bool} (h : r.table.pulled keep = true) : r.isWork = false := by
  obtain ⟨table, id, shop⟩ := r
  cases table <;> first | rfl | exact nomatch h

theorem filter_pulled {keep : Bool} :
    rows.filter (fun r => r.isWork && r.table.pulled keep) = [] := by
  refine List.filter_eq_nil_iff.mpr fun r _ => ?_
  cases hpulled : r.table.pulled keep with
  | false => simp
  | true => simp [isWork_of_pulled hpulled]

/-! ## The invariant -/

/-- A reply that is still current is of the shop that was admitted last, unless its login has yet to
void it; and what was read to be pushed may go out with the device token. -/
def FlowOk (s : State) : Flow → Prop
  | .begun _ gen _ => gen ≤ s.cacheGeneration
  | .requested _ gen shop =>
      gen ≤ s.cacheGeneration ∧ (gen = s.cacheGeneration → ¬s.Resetting →
        ∀ t, s.tenantId = some t → shop = t)
  | .pushing ops => ∀ d, s.deviceToken = some d → ∀ r ∈ ops, Of d r.shop
  | _ => True

structure Inv (s : State) : Prop extends s.Isolated where
  accessToken : ¬s.Resetting → ¬s.Storing → ∀ t, s.tenantId = some t → Of t s.accessToken
  work : ∀ d, s.deviceToken = some d → ∀ r ∈ s.rows, r.table = .outboxOps → Of d r.shop
  flows : ∀ k f, s.flows k = some f → FlowOk s f

theorem Inv.start (h : s.Start) : Inv s where
  toIsolated := h.isolated
  accessToken := fun _ _ => h.accessToken
  work := h.work
  flows := by
    intro k f hf
    rw [h.flows k] at hf
    cases hf

/-- What keeps a flow: a younger generation, and the same or no device token. -/
theorem FlowOk.same (h : FlowOk s f) (hgen : s.cacheGeneration ≤ s'.cacheGeneration)
    (hresetting : s.cacheGeneration = s'.cacheGeneration → s.Resetting → s'.Resetting)
    (htenant : s.cacheGeneration = s'.cacheGeneration → s'.tenantId = s.tenantId)
    (hdevice : ∀ d, s'.deviceToken = some d → s.deviceToken = some d) : FlowOk s' f := by
  cases f with
  | begun w gen n => exact h.trans hgen
  | requested w gen shop =>
      refine ⟨h.1.trans hgen, fun heq hnot t ht => ?_⟩
      have hsame : s.cacheGeneration = s'.cacheGeneration := le_antisymm hgen (heq ▸ h.1)
      refine h.2 (heq.trans hsame.symm) (fun hreset => hnot (hresetting hsame hreset)) t ?_
      rw [← htenant hsame]
      exact ht
  | pushing ops => exact fun d hd => h d (hdevice d hd)
  | answered | admitted | storing | recording | pressed | pushed | enrolling => trivial

theorem State.flows_flow {g : Option Flow} {j : Nat} (h : (s.flow k g).flows j = some f) :
    g = some f ∨ s.flows j = some f := by
  simp only [State.flow, Function.update_apply] at h
  split at h
  · exact .inl h
  · exact .inr h

theorem State.Resetting.flow {g : Option Flow} (h : s.Resetting)
    (hold : ∀ t, s.flows k ≠ some (.admitted t true)) : (s.flow k g).Resetting := by
  obtain ⟨j, t, hj⟩ := h
  refine ⟨j, t, ?_⟩
  have hjk : j ≠ k := fun heq => hold t (heq ▸ hj)
  exact (Function.update_of_ne hjk _ _).trans hj

theorem State.Storing.flow {g : Option Flow} (h : s.Storing)
    (hold : ∀ t, s.flows k ≠ some (.storing t)) : (s.flow k g).Storing := by
  obtain ⟨j, t, hj⟩ := h
  refine ⟨j, t, ?_⟩
  have hjk : j ≠ k := fun heq => hold t (heq ▸ hj)
  exact (Function.update_of_ne hjk _ _).trans hj

/-- A flow goes on, is over or is new, where it is not the login that others wait for. -/
theorem Inv.flow {g : Option Flow} (h : Inv s) (hreset : ∀ t, s.flows k ≠ some (.admitted t true))
    (hstore : ∀ t, s.flows k ≠ some (.storing t)) (hg : ∀ f, g = some f → FlowOk s f) :
    Inv (s.flow k g) where
  rows := h.rows
  pushes := h.pushes
  resent := h.resent
  lost := h.lost
  accessToken := fun hnot hnot' =>
    h.accessToken (fun hr => hnot (hr.flow hreset)) fun hs => hnot' (hs.flow hstore)
  work := h.work
  flows := by
    intro j f hf
    have hok : FlowOk s f := (State.flows_flow hf).elim (hg f) (h.flows j f)
    exact hok.same le_rfl (fun _ hr => hr.flow hreset) (fun _ => rfl) fun _ hd => hd

/-- Nothing is on its way that was not, and the rows and the tokens are fewer. -/
theorem Inv.fewer (h : Inv s) (hflows : s'.flows = s.flows) (htenant : s'.tenantId = s.tenantId)
    (hgen : s.cacheGeneration ≤ s'.cacheGeneration) (hpushes : s'.pushes = s.pushes)
    (hresent : s'.resent = s.resent) (hlost : s'.lost = s.lost)
    (hrows : ∀ r ∈ s'.rows, r ∈ s.rows ∨ r ∈ seeds)
    (htoken : ∀ t, s'.accessToken = some t → s.accessToken = some t)
    (hdevice : ∀ d, s'.deviceToken = some d → s.deviceToken = some d) : Inv s' where
  rows := by
    intro t ht r hr
    rcases hrows r hr with hr | hr
    · exact h.rows t (htenant ▸ ht) r hr
    · rw [(seeds_of hr).1]
      exact .none
  pushes := hpushes ▸ h.pushes
  resent := hresent ▸ h.resent
  lost := hlost ▸ h.lost
  accessToken := by
    intro hnot hnot' t ht t' ht'
    rw [State.Resetting, hflows] at hnot
    rw [State.Storing, hflows] at hnot'
    exact h.accessToken hnot hnot' t (htenant ▸ ht) t' (htoken t' ht')
  work := by
    intro d hd r hr hop
    rcases hrows r hr with hr | hr
    · exact h.work d (hdevice d hd) r hr hop
    · exact absurd hop (seeds_of hr).2
  flows := by
    intro k f hf
    rw [hflows] at hf
    refine (h.flows k f hf).same hgen (fun _ hr => ?_) (fun _ => htenant) hdevice
    rw [State.Resetting, hflows]
    exact hr

/-- A row is written. -/
theorem Inv.upsert (h : Inv s) (hrow : ∀ t, s.tenantId = some t → Of t r.shop)
    (hwork : r.table = .outboxOps → ∀ d, s.deviceToken = some d → Of d r.shop) : Inv (s.upsert r) where
  rows := by
    intro t ht r' hr'
    rcases mem_upsert hr' with rfl | hr'
    · exact hrow t ht
    · exact h.rows t ht r' hr'
  pushes := h.pushes
  resent := h.resent
  lost := h.lost
  accessToken := h.accessToken
  work := by
    intro d hd r' hr' hop
    rcases mem_upsert hr' with rfl | hr'
    · exact hwork hop d hd
    · exact h.work d hd r' hr' hop
  flows := h.flows

/-! ## The steps of a login -/

namespace Inv

/-- **The cache is emptied** for a shop. -/
theorem reset (h : Inv s) {rows lost : List Row}
    (hrows : ∀ r ∈ rows, r ∈ s.rows ∧ Of t r.shop ∨ r ∈ seeds) (hlost : lost = []) :
    Inv (State.flow
      { s with
        rows := rows
        cacheGeneration := s.cacheGeneration + 1
        tenantId := some t
        lost := s.lost ++ lost } k (some (.admitted t true))) where
  rows := by
    rintro _ ⟨⟩ r hr
    rcases hrows r hr with ⟨-, hr⟩ | hr
    · exact hr
    · rw [(seeds_of hr).1]
      exact .none
  pushes := h.pushes
  resent := h.resent
  lost := by
    show s.lost ++ lost = []
    rw [h.lost, hlost]
    rfl
  accessToken := fun hnot => absurd ⟨k, t, Function.update_self _ _ _⟩ hnot
  work := by
    intro d hd r hr hop
    rcases hrows r hr with ⟨hr, -⟩ | hr
    · exact h.work d hd r hr hop
    · exact absurd hop (seeds_of hr).2
  flows := by
    intro j f hf
    rcases State.flows_flow hf with hnew | hold
    · obtain rfl := Option.some.inj hnew
      trivial
    · have hok := h.flows j f hold
      have hlt : s.cacheGeneration ≠ s.cacheGeneration + 1 := (Nat.lt_succ_self _).ne
      exact hok.same (Nat.le_succ _) (fun heq => absurd heq hlt) (fun heq => absurd heq hlt)
        fun _ hd => hd

/-- The guard admits a shop only where nothing of another is left. -/
theorem admitTenant (h : Inv s) {tid : Option ShopId} {via : Bool}
    (hf : s.flows k = some (.answered tid via))
    (hadopt : ∀ t, tid = some t → via = true → s.tenantId = none → ∀ r ∈ s.rows, Of t r.shop) :
    Inv (s.act (.admitTenant k) (.answered tid via)) := by
  have hreset : ∀ t, s.flows k ≠ some (.admitted t true) := by simp [hf]
  have hstore : ∀ t, s.flows k ≠ some (.storing t) := by simp [hf]
  have hgone : Inv (s.flow k none) := h.flow hreset hstore fun f hf => by cases hf
  dsimp only [State.act]
  cases tid with
  | none => exact hgone
  | some t =>
      rw [State.admitTenant]
      by_cases hsame : s.tenantId = some t
      · rw [if_pos hsame]
        refine h.flow hreset hstore fun f hf => ?_
        obtain rfl := Option.some.inj hf
        trivial
      · rw [if_neg hsame]
        by_cases hnone : s.tenantId = none ∧ via = true
        · rw [if_pos hnone]
          refine h.reset (fun r hr => ?_) filter_pulled
          rcases mem_resetPulledCache hr with hr | hr
          · exact .inl ⟨hr, hadopt t rfl hnone.2 hnone.1 r hr⟩
          · exact .inr hr
        · rw [if_neg hnone]
          cases hwork : hasLocalWork s.rows with
          | true => exact hgone
          | false => exact h.reset (fun r hr => .inr hr) (filter_isWork hwork)

/-- A session of the admitted shop begins. -/
theorem beginSession (h : Inv s) {cacheReset : Bool} (hf : s.flows k = some (.admitted t cacheReset)) :
    Inv (s.act (.beginSession k) (.admitted t cacheReset)) where
  rows := h.rows
  pushes := h.pushes
  resent := h.resent
  lost := h.lost
  accessToken := fun _ hnot => absurd ⟨k, t, Function.update_self _ _ _⟩ hnot
  work := h.work
  flows := by
    intro j f hj
    rcases State.flows_flow hj with hnew | hold
    · obtain rfl := Option.some.inj hnew
      trivial
    · have hok := h.flows j f hold
      cases cacheReset with
      | true =>
          have hlt : s.cacheGeneration ≠ s.cacheGeneration + 1 := (Nat.lt_succ_self _).ne
          exact hok.same (Nat.le_succ _) (fun heq => absurd heq hlt) (fun _ => rfl) fun _ hd => hd
      | false =>
          have hreset : ∀ t, s.flows k ≠ some (.admitted t true) := by simp [hf]
          exact hok.same le_rfl (fun _ hr => State.Resetting.flow hr hreset) (fun _ => rfl)
            fun _ hd => hd

/-- The token that is stored is of the shop that was admitted. -/
theorem setAccessToken (h : Inv s) (hf : s.flows k = some (.storing t)) (htenant : s.tenantId = some t) :
    Inv (s.act (.setAccessToken k) (.storing t)) where
  rows := h.rows
  pushes := h.pushes
  resent := h.resent
  lost := h.lost
  accessToken := by
    intro _ _ t' ht' u hu
    obtain rfl : t = u := Option.some.inj hu
    exact Option.some.inj (htenant.symm.trans ht')
  work := h.work
  flows := by
    intro j f hj
    have hreset : ∀ t, s.flows k ≠ some (.admitted t true) := by simp [hf]
    rcases State.flows_flow hj with hnew | hold
    · obtain rfl := Option.some.inj hnew
      trivial
    · have hok := h.flows j f hold
      exact hok.same le_rfl (fun _ hr => State.Resetting.flow hr hreset) (fun _ => rfl) fun _ hd => hd

/-! ## The steps of the others -/

/-- A request leaves with the token that is stored, where no login is about to replace it. -/
theorem send (h : Inv s) {w : Writer} {gen n : Nat} (hf : s.flows k = some (.begun w gen n))
    (hcalm : s.Storing → ∀ t, s.tenantId = some t → Of t s.accessToken) :
    Inv (s.act (.send k) (.begun w gen n)) := by
  have hreset : ∀ t, s.flows k ≠ some (.admitted t true) := by simp [hf]
  have hstore : ∀ t, s.flows k ≠ some (.storing t) := by simp [hf]
  dsimp only [State.act]
  split
  · rename_i shop hshop
    refine h.flow hreset hstore fun f hf' => ?_
    split at hf'
    · obtain rfl := Option.some.inj hf'
      refine ⟨h.flows k _ hf, fun _ hnot t ht => ?_⟩
      have hof : Of t s.accessToken := by
        by_cases hs : s.Storing
        · exact hcalm hs t ht
        · exact h.accessToken hnot hs t ht
      exact hof shop hshop
    · cases hf'
  · exact h.flow hreset hstore fun f hf' => by cases hf'

/-- **A reply is written.** -/
theorem receive (h : Inv s) {w : Writer} {gen : Nat} {shop : ShopId} {table : TableName} {id : Nat}
    (hf : s.flows k = some (.requested w gen shop))
    (hcalm : w.guarded = false ∨ s.Resetting → ∀ t, s.tenantId = some t → shop = t) :
    Inv (s.act (.receive k table id) (.requested w gen shop)) := by
  show Inv (if _ then _ else _)
  split
  · rename_i hwrites
    have hrow : ∀ t, s.tenantId = some t → Of t (some shop) := by
      rintro t ht u ⟨⟩
      cases hguarded : w.guarded with
      | false => exact hcalm (.inl hguarded) t ht
      | true =>
          by_cases hreset : s.Resetting
          · exact hcalm (.inr hreset) t ht
          · exact (h.flows k _ hf).2 (hwrites.2 hguarded).symm hreset t ht
    refine h.upsert hrow fun hop => ?_
    -- nobody writes an operation but the screen
    have hno : TableName.outboxOps ∉ w.tables := by cases w <;> decide
    obtain rfl : table = .outboxOps := hop
    exact absurd hwrites.1 hno
  · exact h

/-- What is pushed are rows of the shop. -/
theorem sendPush (h : Inv s) {ops : List Row} (hf : s.flows k = some (.pushing ops)) :
    Inv (s.act (.sendPush k) (.pushing ops)) := by
  have hreset : ∀ t, s.flows k ≠ some (.admitted t true) := by simp [hf]
  have hstore : ∀ t, s.flows k ≠ some (.storing t) := by simp [hf]
  dsimp only [State.act]
  split
  · rename_i d hd
    have hpushes : ∀ p ∈ ops.map (fun op => (⟨op, d⟩ : Push)) ++ s.pushes, Of p.token p.op.shop := by
      intro p hp
      rcases List.mem_append.mp hp with hp | hp
      · obtain ⟨op, hop, rfl⟩ := List.mem_map.mp hp
        exact h.flows k _ hf d hd op hop
      · exact h.pushes p hp
    refine Inv.flow
      (s := { s with pushes := ops.map (fun op => (⟨op, d⟩ : Push)) ++ s.pushes })
      ⟨⟨h.rows, hpushes, h.resent, h.lost⟩, h.accessToken, h.work, fun j f hj => ?_⟩ hreset hstore
      fun f hf' => ?_
    · exact (h.flows j f hj).same le_rfl (fun _ hr => hr) (fun _ => rfl) fun _ hd => hd
    · obtain rfl := Option.some.inj hf'
      trivial
  · exact h.flow hreset hstore fun f hf' => by cases hf'

theorem applied (h : Inv s) {token : ShopId} {table : TableName} {id : Nat}
    (htenant : s.tenantId = some token) : Inv (s.act (.applied k table id) (.pushed token)) := by
  show Inv (if _ then _ else _)
  split
  · rename_i htable
    refine h.upsert (fun t ht u hu => ?_) fun hop => ?_
    · obtain rfl : token = u := Option.some.inj hu
      exact Option.some.inj (htenant.symm.trans ht)
    · obtain rfl : table = .outboxOps := hop
      exact absurd htable (by decide)
  · exact h

/-- An enrolment takes over an outbox of its own shop. -/
theorem setDeviceToken (h : Inv s) (hf : s.flows k = some (.enrolling t))
    (hrows : ∀ r ∈ s.rows, r.table = .outboxOps → Of t r.shop)
    (hops : ∀ j ops, s.flows j = some (.pushing ops) → ∀ r ∈ ops, Of t r.shop) :
    Inv (s.act (.setDeviceToken k) (.enrolling t)) := by
  have hreset : ∀ t, s.flows k ≠ some (.admitted t true) := by simp [hf]
  have hstore : ∀ t, s.flows k ≠ some (.storing t) := by simp [hf]
  refine Inv.flow (s := { s with deviceToken := some t })
    ⟨⟨h.rows, h.pushes, h.resent, h.lost⟩, h.accessToken, ?_, fun j f hj => ?_⟩ hreset hstore
    fun f hf' => nomatch hf'
  · rintro _ ⟨⟩ r hr hop
    exact hrows r hr hop
  · have hok := h.flows j f hj
    cases f with
    | pushing ops =>
        rintro _ ⟨⟩ r hr
        exact hops j ops hj r hr
    | begun | requested => exact hok
    | answered | admitted | storing | recording | pressed | pushed | enrolling => trivial

theorem done (h : Inv s) (hreset : ∀ t, s.flows k ≠ some (.admitted t true))
    (hstore : ∀ t, s.flows k ≠ some (.storing t)) : Inv (s.flow k none) :=
  h.flow hreset hstore fun _ hf => nomatch hf

/-- Something new begins. -/
theorem begins (h : Inv s) {g : Flow} (hf : s.flows k = none) (hg : FlowOk s g) :
    Inv (s.flow k (some g)) := by
  refine h.flow (by simp [hf]) (by simp [hf]) fun f hf' => ?_
  obtain rfl := Option.some.inj hf'
  exact hg

/-- What does not wait for `a` stays as it is. -/
theorem waiting {a : Act} (h : Inv s) (hact : ∀ f, s.flows k = some f → Inv (s.act a f)) :
    Inv (match s.flows k with
      | none   => s
      | some f => s.act a f) := by
  split
  · exact h
  · rename_i f hf
    exact hact f hf

/-- What is taken by something else does not begin. -/
theorem starting {a : Act} (h : Inv s) (hstart : s.flows k = none → Inv (s.start a)) :
    Inv (match s.flows k with
      | none   => s.start a
      | some _ => s) := by
  split
  · rename_i hf
    exact hstart hf
  · exact h

end Inv

/-! ## Runs -/

/-- **One act keeps the isolation.** -/
theorem Inv.step {a : Act} (h : Inv s) (hmeets : Meets s a) : Inv (step a s) := by
  cases a with
  -- what begins holds nothing of a shop yet, or what the till holds at this moment
  | login k tid via => exact h.starting fun hf => h.begins hf trivial
  | request k w => exact h.starting fun hf => h.begins hf (le_refl s.cacheGeneration)
  | press k => exact h.starting fun hf => h.begins hf trivial
  | push k =>
      -- the operations of the queue belong to the device's shop
      refine h.starting fun hf => h.begins hf fun d hd r hr => ?_
      obtain ⟨hr, hop⟩ := List.mem_filter.mp hr
      exact h.work d hd r hr (of_decide_eq_true hop)
  | checkEnrolment k t =>
      refine h.starting fun hf => ?_
      show Inv (if _ then s else _)
      split
      · exact h
      · exact h.begins hf trivial
  -- the answer is of the shop that the session is still in when it is admitted
  | admitTenant k =>
      refine h.waiting fun f hf => ?_
      have hcalm := hmeets f hf
      cases f with
      | answered tid via =>
          refine h.admitTenant hf ?_
          rintro t rfl rfl
          exact hcalm
      | _ => exact h
  | beginSession k =>
      refine h.waiting fun f hf => ?_
      cases f with
      | admitted t cacheReset => exact h.beginSession hf
      | _ => exact h
  -- `hcalm`: this act finds the session as its flow began it
  | setAccessToken k =>
      refine h.waiting fun f hf => ?_
      have hcalm := hmeets f hf
      cases f with
      | storing t => exact h.setAccessToken hf hcalm
      | _ => exact h
  | recordOnlineLogin k id =>
      refine h.waiting fun f hf => ?_
      have hcalm := hmeets f hf
      cases f with
      | recording t =>
          refine h.upsert (fun t' ht' u hu => ?_) fun hop => nomatch hop
          obtain rfl : t = u := Option.some.inj hu
          exact Option.some.inj (hcalm.symm.trans ht')
      | _ => exact h
  | send k =>
      refine h.waiting fun f hf => ?_
      have hcalm := hmeets f hf
      cases f with
      | begun w gen n => exact h.send hf hcalm
      | _ => exact h
  -- an unguarded answer, or one that comes within a reset, is of the shop signed in
  | receive k table id =>
      refine h.waiting fun f hf => ?_
      have hcalm := hmeets f hf
      cases f with
      | requested w gen shop => exact h.receive hf hcalm
      | _ => exact h
  | queue k table id =>
      refine h.waiting fun f hf => ?_
      have hcalm := hmeets f hf
      cases f with
      | pressed shop => exact h.upsert hcalm.1 hcalm.2
      | _ => exact h
  | sendPush k =>
      refine h.waiting fun f hf => ?_
      cases f with
      | pushing ops => exact h.sendPush hf
      | _ => exact h
  | applied k table id =>
      refine h.waiting fun f hf => ?_
      have hcalm := hmeets f hf
      cases f with
      | pushed token => exact h.applied hcalm
      | _ => exact h
  | setDeviceToken k =>
      refine h.waiting fun f hf => ?_
      have hcalm := hmeets f hf
      cases f with
      | enrolling t => exact h.setDeviceToken hf hcalm.1 hcalm.2
      | _ => exact h
  | done k =>
      refine h.waiting fun f hf => ?_
      cases f with
      | recording | requested | pressed | pushed => exact h.done (by simp [hf]) (by simp [hf])
      | _ => exact h
  -- the rest only forgets, or counts the generation up
  | logout => exact h.fewer rfl rfl le_rfl rfl rfl rfl (fun _ hr => .inl hr) (fun _ ht => ht) fun _ hd => hd
  | clearAuthTokens =>
      exact h.fewer rfl rfl le_rfl rfl rfl rfl (fun _ hr => .inl hr) (fun _ ht => nomatch ht) fun _ hd => hd
  | forget r =>
      exact h.fewer rfl rfl le_rfl rfl rfl rfl (fun _ hr => .inl (List.mem_of_mem_filter hr))
        (fun _ ht => ht) fun _ hd => hd
  | closeAttempt f =>
      exact h.fewer rfl rfl le_rfl rfl rfl rfl (fun _ hr => .inl hr) (fun _ ht => ht) fun _ hd => hd
  | forgetDeviceToken =>
      exact h.fewer rfl rfl le_rfl rfl rfl rfl (fun _ hr => .inl hr) (fun _ ht => ht) fun _ hd => nomatch hd
  | importedOnServer =>
      exact h.fewer rfl rfl (Nat.le_succ _) rfl rfl rfl (fun _ hr => mem_resetAfterServerImport hr)
        (fun _ ht => ht) fun _ hd => hd
  -- an attempt kept for an owner is sent again by the same one
  | attempt f =>
      dsimp only [ShopCache.step]
      split
      · rename_i t owner ht howner
        have hresent : ∀ p ∈ (owner, t) :: s.resent, p.1 = p.2 :=
          List.forall_mem_cons.mpr ⟨hmeets t owner ht howner, h.resent⟩
        exact ⟨⟨h.rows, h.pushes, hresent, h.lost⟩, h.accessToken, h.work, fun j f hj =>
          (h.flows j f hj).same le_rfl (fun _ hr => hr) (fun _ => rfl) fun _ hd => hd⟩
      · exact h.fewer rfl rfl le_rfl rfl rfl rfl (fun _ hr => .inl hr) (fun _ ht => ht) fun _ hd => hd
      · exact h

theorem run_inv {acts : List Act} (h : Inv s) (hmeets : AllMeet Meets acts s) : Inv (run acts s) := by
  induction acts generalizing s with
  | nil => exact h
  | cons a acts ih => exact ih (h.step hmeets.1) hmeets.2

/-- **One shop's rows.** As long as nothing that compares no generation lands in another shop's cache,
and nothing lands or leaves in the middle of a login, the local database holds the rows of one shop, and
its work is neither lost nor sent as another's. -/
theorem run_one_shop (h : s.Start) (acts : List Act) (hmeets : AllMeet Meets acts s) :
    (run acts s).Isolated :=
  (run_inv (.start h) hmeets).toIsolated

/-! ## Two shops at one counter -/

/-- A new browser. -/
def empty : State :=
  { rows := seeds
    tenantId := none
    cacheGeneration := 0
    session := 0
    accessToken := none
    deviceToken := none
    flows := fun _ => none
    parked := fun _ => none
    pushes := []
    resent := []
    lost := [] }

theorem empty_start : empty.Start where
  flows := fun _ => rfl
  parked := fun _ => rfl
  isolated := ⟨fun _ h => (nomatch h), fun _ h => (nomatch h), fun _ h => (nomatch h), rfl⟩
  accessToken := fun _ h => nomatch h
  work := fun _ h => nomatch h

def signsIn (k : Nat) (t : ShopId) : List Act :=
  [.login k (some t) false, .admitTenant k, .beginSession k, .setAccessToken k, .done k]

def signsOut : List Act := [.logout, .clearAuthTokens]

/-- A request is sent. -/
def sends (k : Nat) (w : Writer) : List Act := [.request k w, .send k]

theorem meets_of {a : Act} (hf : s.flows k = some f) (hcalm : s.Undisturbed a f) :
    ∀ f, s.flows k = some f → s.Undisturbed a f := by
  intro f' hf'
  obtain rfl := Option.some.inj (hf.symm.trans hf')
  exact hcalm

theorem run_one_shop_of_turns :
    (run (signsIn 0 0 ++ sends 1 .pullProducts ++ [Act.receive 1 .products 7, .receive 1 .syncCursors 0,
      .done 1, .press 2, .queue 2 .parkedSales 3, .done 2, .forget ⟨.parkedSales, 3, some 0⟩] ++
      sends 3 .pullCustomers ++ signsOut ++ signsIn 4 1 ++
      [Act.receive 3 .customers 5, .done 3] ++ sends 5 .addProduct ++ [Act.receive 5 .products 8]) empty).Isolated := by
  have hown : ∀ t u : ShopId, some t = some u → Of u (some t) := by
    rintro t _ ⟨⟩ u ⟨⟩
    rfl
  refine run_one_shop empty_start _ ⟨trivial, meets_of rfl trivial, trivial, meets_of rfl rfl, trivial,
    trivial, meets_of rfl fun _ => hown 0, meets_of rfl fun _ _ ht => Option.some.inj ht,
    meets_of rfl fun _ _ ht => Option.some.inj ht, trivial, trivial,
    meets_of rfl ⟨hown 0, fun h => nomatch h⟩, trivial, trivial,
    trivial, meets_of rfl fun _ => hown 0, trivial, trivial,
    trivial, meets_of rfl trivial, trivial, meets_of rfl rfl, trivial,
    meets_of rfl ?_, trivial, trivial, meets_of rfl fun _ => hown 1,
    meets_of rfl fun _ _ ht => Option.some.inj ht, trivial⟩
  -- the login is over when the reply of the first shop lands
  rintro (h | ⟨j, t, h⟩)
  · cases h
  · match j, h with
    | 0, h | 1, h | 2, h | 3, h | 4, h => cases h
    | _ + 5, h => cases h

/-- **Five ways to mix shops.** The reply to a new product lands in the next shop's cache; so does a
write that was begun before; the reply to a pull lands between the reset of the cache and the session
of the login; an operation that is made while the device is enrolled anew goes out with another
shop's device token; and an attempt that was parked is sent again in another shop's session. -/
theorem shops_mixed : empty.Start ∧
    ¬(run (signsIn 0 0 ++ sends 1 .addProduct ++ signsOut ++ signsIn 2 1 ++ [Act.receive 1 .products 7])
      empty).Isolated ∧
    ¬(run (signsIn 0 0 ++ [Act.press 1] ++ signsOut ++ signsIn 2 1 ++ [Act.queue 1 .outboxOps 3])
      empty).Isolated ∧
    ¬(run (signsIn 0 0 ++ [Act.login 2 (some 1) false, .admitTenant 2] ++ sends 1 .pullProducts ++
      [Act.receive 1 .products 7]) empty).Isolated ∧
    ¬(run (signsIn 0 0 ++ [Act.checkEnrolment 1 1, .press 2, .queue 2 .outboxOps 3, .setDeviceToken 1,
      .push 3, .sendPush 3]) empty).Isolated ∧
    ¬(run (signsIn 0 0 ++ [Act.attempt 4] ++ signsOut ++ signsIn 2 1 ++ [Act.attempt 4]) empty).Isolated := by
  refine ⟨empty_start, fun h => ?_, fun h => ?_, fun h => ?_, fun h => ?_, fun h => ?_⟩
  · exact absurd (h.rows 1 rfl ⟨.products, 7, some 0⟩ (by decide) 0 rfl) (by decide)
  · exact absurd (h.rows 1 rfl ⟨.outboxOps, 3, some 0⟩ (by decide) 0 rfl) (by decide)
  · exact absurd (h.rows 1 rfl ⟨.products, 7, some 0⟩ (by decide) 0 rfl) (by decide)
  · exact absurd (h.pushes ⟨⟨.outboxOps, 3, some 0⟩, 1⟩ List.mem_cons_self 0 rfl) (by decide)
  · exact absurd (h.resent (0, 1) List.mem_cons_self) (by decide)

end ShopCache

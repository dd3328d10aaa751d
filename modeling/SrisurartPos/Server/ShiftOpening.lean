import SrisurartPos.Server.DeviceDrawers

/-! # Opening the till's drawer

Only the till may open drawers, and there is one till. So the device's lock tells an open the truth
about the client's id: nobody else has opened a drawer under it meanwhile. -/

namespace Server

open Txn

/-! ## The guards -/

/-- `devices.role` -/
inductive DeviceRole where
  | pos
  | backoffice
  deriving DecidableEq, Repr

/-- The requests `@RequireDeviceRole('pos')` lets only the till make. -/
def Request.requiresPos : Request → Bool
  | .adjustStock _ _    => false
  | .receivePo _        => false
  | .retireDevice _ _ _ => false
  | .updateMechanic _ _ => false
  | _                   => true

/-- The device that has to be the till for the operation to be let through. -/
def Op.posDevice : Op → Option DeviceId
  | .post _ actor _ _ req => if req.requiresPos then some actor.deviceId else none
  | .push _ actor _ _ _   => some actor.deviceId
  | .reportUnsynced d _   => some d
  | .cleanup _            => none

/-- An operation behind the guards. -/
def guarded (role : DeviceId → DeviceRole) (op : Op) : Prog Reply := do
  Tx.require (op.posDevice.all (fun d => role d = .pos) = true) .deviceRoleForbidden
  prog op

/-- Drawers are opened on tills. -/
theorem posDevice_of_opening {op : Op} {d : DeviceId} {clientId : Option ShiftId} {k : ShiftId}
    (hop : op.opening = some (d, clientId, k)) : op.posDevice = some d := by
  cases op with
  | post env actor key requestHash req =>
      cases req with
      | openShift input =>
          obtain ⟨rfl, -⟩ := Prod.mk.inj (Option.some.inj hop)
          rfl
      | _ => cases hop
  | push env actor key requestHash op =>
      cases op with
      | shiftOpen input openedAt opId =>
          obtain ⟨rfl, -⟩ := Prod.mk.inj (Option.some.inj hop)
          rfl
      | _ => cases hop
  | reportUnsynced d n => cases hop
  | cleanup now => cases hop

section
variable {role : DeviceId → DeviceRole} {s : Db} {op : Op} {ag : LockKey × Mode → Db → Db → Prop}

theorem wp_guarded {E : ServerError → Prop} {Q : Reply → Held LockKey → Db → Prop}
    (hE : E .deviceRoleForbidden)
    (h : (∀ d, op.posDevice = some d → role d = .pos) → wp (prog op) [] s E Q) :
    wp (guarded role op) [] s E Q := by
  refine wp_bind_require (fun hrole => h fun d hd => ?_) fun _ => hE
  simpa [hd] using hrole

theorem wpHeld_guarded {Q : Reply → Held LockKey → Db → Prop}
    (h : (∀ d, op.posDevice = some d → role d = .pos) → wpHeld ag (prog op) [] s Q) :
    wpHeld ag (guarded role op) [] s Q := by
  refine wpHeld_bind_require fun hrole => h fun d hd => ?_
  simpa [hd] using hrole

theorem tracks_guarded {γ : Type} {f : Db → γ} (h : Tracks f (prog op)) :
    Tracks f (guarded role op) :=
  (leaves_require _ _).tracks.bind fun _ => h

end

/-! ## The till -/

/-- `till` is the one device in use that the guards let through. -/
structure HasTill (role : DeviceId → DeviceRole) (till : DeviceId) (s : Db) : Prop where
  consistent : s.Consistent
  oneDrawer : s.OneDrawer
  only : ∀ d, role d = .pos → s.Live d → d = till

section
variable {role : DeviceId → DeviceRole} {till d : DeviceId} {s s' : Db} {op : Op}
  {clientId : Option ShiftId} {k : ShiftId} {ag : LockKey × Mode → Db → Db → Prop}

/-- No transaction brings a retired device back. -/
theorem wpHeld_live (hs : s.Consistent) (hone : s.OneDrawer) (op : Op) :
    wpHeld ag (prog op) [] s fun _ _ s' => ∀ d, s'.Live d → s.Live d := by
  cases hop : op.opening with
  | none => exact wpHeld_mono (wpHeld_calm hs hone hop) fun _ _ _ h => h.live
  | some o =>
      obtain ⟨d, clientId, k⟩ := o
      refine wpHeld_open hop (fun _ _ h => h) ?_
      rintro env actor input H' flag keys rfl - - -
      refine wpHeld_of_wp (wp_mono wp_openShift (fun _ h => h) ?_)
      rintro r H'' s' ⟨hopened, -⟩ keys' d' hd'
      have hdev : s'.devices = s.devices := by
        cases hopened with
        | replay hid => rfl
        | conflict =>
            rw [Db.archiveActive_eq]
            rfl
        | fresh k hk hfree =>
            rw [Db.archiveActive_eq]
            rfl
      have hlive : s'.Live d' := hd'
      rwa [Db.Live, hdev] at hlive

theorem disciplined_guarded (op : Op) : Disciplined agree (guarded role op) [] fun _ _ => True :=
  disciplined_bind_require fun _ => disciplined_prog op

theorem sound_guarded : Sound (guarded role) agree (HasTill role till) Expected where
  equivalence := agree_equivalence
  disciplined := disciplined_guarded
  commits op s hs := by
    refine wp_guarded rfl fun _ => ?_
    have hlive : wp (prog op) [] s (fun _ => True) fun _ _ s' => ∀ d, s'.Live d → s.Live d :=
      wp_of_wpHeld (wpHeld_live hs.consistent hs.oneDrawer op)
    refine wp_mono (wp_and (wp_prog hs.consistent op) hlive) (fun _ h => h.1) ?_
    rintro a H s' ⟨⟨⟨⟨e, -, hperf⟩, -, -⟩, hcov⟩, hlive⟩
    refine ⟨⟨hperf.consistent hs.consistent, hperf.oneDrawer hs.oneDrawer, ?_⟩, hcov⟩
    exact fun d hrole hd => hs.only d hrole (hlive d hd)

/-! ## Whose drawers they are -/

theorem others_modify {f : Shift → Shift} (hf : ∀ row, (f row).deviceId = row.deviceId)
    (shifts : Table ShiftId Shift) (k j : ShiftId) :
    ((shifts.modify k f).get j).any (fun row => row.deviceId ≠ till) =
      (shifts.get j).any fun row => row.deviceId ≠ till := by
  rw [Table.get_modify]
  split
  · rw [Option.any_map]
    simp only [hf]
  · rfl

theorem others_archiveShift (s : Db) (k : ShiftId) (b : Bool) :
    (s.archiveShift k b).others till = s.others till := by
  funext j
  refine others_modify ?_ s.shifts k j
  exact fun _ => rfl

theorem others_closeShift (s : Db) (k : ShiftId) (cash : Int) :
    (s.closeShift k cash).others till = s.others till := by
  funext j
  refine others_modify ?_ s.shifts k j
  exact fun _ => rfl

theorem others_insertShift (s : Db) (k : ShiftId) (cash : Int) (openedAt : Nat) :
    (s.insertShift k (newShift till cash openedAt)).others till = s.others till := by
  funext j
  show ((s.shifts.insert k (newShift till cash openedAt)).get j).any _ = (s.shifts.get j).any _
  cases hk : s.shifts.get k with
  | none =>
      rw [Table.get_insert hk]
      split
      · rename_i hj
        rw [hj, hk]
        simp [newShift]
      · rfl
  | some row => rw [Table.insert_of_mem hk]

theorem others_archiveActive (s : Db) (d : DeviceId) :
    (s.archiveActive d).others till = s.others till := by
  rw [Db.archiveActive]
  cases (s.activeShifts d).head? with
  | none => rfl
  | some k =>
      dsimp only
      cases s.shifts.get k with
      | none => rfl
      | some row =>
          dsimp only
          split <;> exact others_archiveShift s k _

/-- Nobody but another device changes which drawers are another device's. -/
theorem Changes.others {e : Effect} (h : Changes s e s')
    (hopen : ∀ d next, e = .openShift d next → d = till) : s'.others till = s.others till := by
  cases h with
  | openShift d next openedAt hnew =>
      obtain rfl := hopen d next rfl
      cases next with
      | none => exact others_archiveActive s d
      | some kc => exact (others_insertShift _ kc.1 kc.2 openedAt).trans (others_archiveActive s d)
  | closeShift d k row cash hrow hclosed => exact others_closeShift s k cash
  | retire s₁ d hclosed =>
      cases hclosed with
      | none => rfl
      | archived k row hrow hc => exact others_archiveShift s k false
      | counted j k row cash hrow hclosed =>
          exact (others_archiveShift _ k false).trans (others_closeShift s j cash)
  | _ => rfl

/-- An effect that opens a drawer is of an operation that does. -/
theorem Op.Allows.opens {op : Op} {next : Option (ShiftId × Int)} (h : op.Allows (.openShift d next)) :
    ∃ clientId k, op.opening = some (d, clientId, k) := by
  cases hop : op.opening with
  | none => exact absurd rfl (h.not_open hop d next)
  | some o =>
      cases op with
      | post env actor key requestHash req =>
          cases req with
          | openShift input =>
              rcases h with heq | heq
              · cases heq
                exact ⟨_, _, hop.symm.trans rfl⟩
              · cases heq
                exact ⟨_, _, hop.symm.trans rfl⟩
          | _ => cases hop
      | push env actor key requestHash op =>
          cases op with
          | shiftOpen input openedAt opId =>
              rcases h with heq | heq
              · cases heq
                exact ⟨_, _, hop.symm.trans rfl⟩
              · cases heq
                exact ⟨_, _, hop.symm.trans rfl⟩
          | _ => cases hop
      | reportUnsynced d n => cases hop
      | cleanup now => cases hop

/-- **No commit changes which drawers are another device's than the till's.** -/
theorem wp_others (hs : HasTill role till s) (op : Op) :
    wp (guarded role op) [] s Expected fun _ _ s' => s'.others till = s.others till := by
  refine wp_guarded rfl fun hrole => ?_
  by_cases hdead : ∃ d clientId k, op.opening = some (d, clientId, k) ∧ d ≠ till
  · obtain ⟨d, clientId, k, hop, hne⟩ := hdead
    -- the other device is retired, or no till
    have hnot : ¬s.Live d := fun hlive => hne (hs.only d (hrole d (posDevice_of_opening hop)) hlive)
    have hkept : wp (prog op) [] s (fun _ => True) fun _ _ s' =>
        Opening d clientId k op.dateFlags s s' := wp_of_wpHeld (wpHeld_dead hnot hop)
    refine wp_mono (wp_and (wp_prog hs.consistent op) hkept) (fun _ h => h.1) ?_
    rintro a H s' ⟨-, hopening⟩
    cases hopening with
    | kept keys => rfl
    | there keys flag hid hthere hflag => rfl
    | opened keys flag cash openedAt hlive hfree hflag => exact absurd hlive hnot
  · refine wp_mono (wp_prog hs.consistent op) (fun _ h => h) ?_
    rintro a H s' ⟨⟨⟨e, hallow, t, desk, hch, rfl⟩, -, -⟩, -⟩
    refine hch.others fun d next he => ?_
    by_contra hne
    subst he
    rcases hallow with hnone | hallow
    · cases hnone
    · obtain ⟨clientId, k, hop⟩ := hallow.opens
      exact hdead ⟨d, clientId, k, hop, hne⟩

theorem isSome_iff_drawersOf (till : DeviceId) {id : ShiftId} : (s.shifts.get id).isSome = true ↔
    id ∈ s.drawersOf till ∨ s.others till id = true := by
  rw [Db.mem_drawersOf, Db.others]
  cases s.shifts.get id with
  | none => simp
  | some row => simp [em]

/-- The drawers of the till are under its lock, and those of the others do not change. -/
theorem told_of_framed {id : ShiftId} {s₀ s₁ : Db}
    (h : Framed agree (Db.others till) (.device till, .update) s₀ s₁) :
    (s₀.shifts.get id).isSome = (s₁.shifts.get id).isSome := by
  obtain ⟨hlock, hothers⟩ := h
  have hown : s₀.drawersOf till = s₁.drawersOf till := (View.device.inj hlock).2.2
  rw [Bool.eq_iff_iff, isSome_iff_drawersOf till, isSome_iff_drawersOf till, hown, hothers]

end

/-! ## What a commit does to the drawers -/

section
variable {T : Type} [DecidableEq T] {role : DeviceId → DeviceRole} {till : DeviceId} {s₀ : Db}
  {S S' : System T} {t : T} {op : Op} {a : Reply} {d : DeviceId} {clientId : Option ShiftId}
  {k : ShiftId}

/-- **An open is told the truth about the client's id.** -/
theorem Commit.opening (h₀ : HasTill role till s₀) (h : Reachable (guarded role) s₀ S)
    (hc : Commit t op a S S') (hop : op.opening = some (d, clientId, k)) :
    Opening d clientId k op.dateFlags S.db S'.db := by
  by_cases hd : d = till
  · subst hd
    have htracks : Tracks (Db.others d) (guarded role op) := by
      refine tracks_guarded (tracks_open (fun _ _ => rfl) (fun _ _ => rfl) others_archiveShift ?_ hop)
      intro k cash openedAt s s' hs
      rw [others_insertShift, others_insertShift, hs]
    refine hc.constant sound_guarded h₀ (fun op s hs => wp_others hs op) h htracks
      (fun _ s s' => Opening d clientId k op.dateFlags s s') fun s hs => ?_
    exact wpHeld_guarded fun _ => wpHeld_opening hs.oneDrawer hop fun id _ s₀ s₁ => told_of_framed
  · refine hc.does sound_guarded h₀ h (fun _ s s' => Opening d clientId k op.dateFlags s s') ?_
    intro s hs
    refine wpHeld_guarded fun hrole => wpHeld_dead (fun hlive => hd ?_) hop
    exact hs.only d (hrole d (posDevice_of_opening hop)) hlive

theorem Commit.calm (h₀ : HasTill role till s₀) (h : Reachable (guarded role) s₀ S)
    (hc : Commit t op a S S') (hop : op.opening = none) : Calm S.db S'.db :=
  hc.does sound_guarded h₀ h (fun _ s s' => Calm s s') fun _ hs =>
    wpHeld_guarded fun _ => wpHeld_calm hs.consistent hs.oneDrawer hop

theorem Commit.kept (h₀ : HasTill role till s₀) (h : Reachable (guarded role) s₀ S)
    (hc : Commit t op a S S') : Kept S.db S'.db := by
  refine hc.does sound_guarded h₀ h (fun _ s s' => Kept s s') fun s hs =>
    wpHeld_guarded fun _ => wpHeld_of_wp (wp_mono (wp_prog hs.consistent op) (fun _ h => h) ?_)
  rintro a H s' ⟨⟨⟨e, -, hperf⟩, -, -⟩, -⟩
  exact hperf.kept

end

/-! ## Drawers and the owner's list, over a run -/

/-- A retired device has no drawer that is not archived. -/
def Db.RetiredHoldNone (db : Db) : Prop := ∀ d, db.Retired d → db.activeShifts d = []

/-- The owner is told of archived drawers only. -/
def Db.ToldOfArchived (db : Db) : Prop :=
  ∀ k, db.uncounted k = 0 ∨ (db.shifts.get k).any (!·.isActive) = true

section
variable {T : Type} [DecidableEq T] {role : DeviceId → DeviceRole} {till : DeviceId} {s₀ : Db}
  {S S' : System T} {t : T} {op : Op} {a : Reply} {j : ShiftId}

/-- Retired devices stay without a drawer. -/
theorem Commit.retiredHoldNone (h₀ : HasTill role till s₀) (h : Reachable (guarded role) s₀ S)
    (hc : Commit t op a S S') (hnone : S.db.RetiredHoldNone) : S'.db.RetiredHoldNone := by
  intro d hd
  have hempty : ∀ {l : List ShiftId}, S.db.activeShifts d = [] → l ⊆ S.db.activeShifts d → l = [] := by
    intro l hnil hsub
    rw [hnil] at hsub
    exact List.subset_nil.mp hsub
  cases hop : op.opening with
  | none =>
      have hcalm := Commit.calm h₀ h hc hop
      rcases hcalm.retired d hd with hretired | hnil
      · exact hempty (hnone d hretired) (hcalm.active d)
      · exact hnil
  | some o =>
      obtain ⟨d', clientId, k⟩ := o
      have hopening := Commit.opening h₀ h hc hop
      rw [Db.Retired, hopening.devices] at hd
      refine hempty (hnone d hd) (hopening.active ?_)
      rintro ⟨row, hrow, hlive⟩
      obtain ⟨row', hrow', hretired⟩ := hd
      obtain rfl := Option.some.inj (hrow.symm.trans hrow')
      rw [hlive] at hretired
      cases hretired

/-- An archived drawer is not archived again. -/
theorem Commit.uncounted (h₀ : HasTill role till s₀) (h : Reachable (guarded role) s₀ S)
    (hc : Commit t op a S S') (hj : (S.db.shifts.get j).any (!·.isActive) = true) :
    S'.db.uncounted j = S.db.uncounted j := by
  cases hop : op.opening with
  | none => exact (Commit.calm h₀ h hc hop).uncounted j
  | some o =>
      obtain ⟨d, clientId, k⟩ := o
      refine (Commit.opening h₀ h hc hop).uncounted fun row hrow => ?_
      simpa [hrow] using hj

theorem Commit.toldOfArchived (h₀ : HasTill role till s₀) (h : Reachable (guarded role) s₀ S)
    (hc : Commit t op a S S') (htold : S.db.ToldOfArchived) : S'.db.ToldOfArchived := by
  intro j
  rcases htold j with hzero | harchived
  · cases hop : op.opening with
    | none => exact .inl (((Commit.calm h₀ h hc hop).uncounted j).trans hzero)
    | some o =>
        obtain ⟨d, clientId, k⟩ := o
        exact ((Commit.opening h₀ h hc hop).told j).imp_left fun hsame => hsame.trans hzero
  · exact .inr ((Commit.kept h₀ h hc).archived j harchived)

theorem Reachable.drawers (h₀ : HasTill role till s₀) (hnone : s₀.RetiredHoldNone)
    (htold : s₀.ToldOfArchived) (h : Reachable (guarded role) s₀ S) :
    S.db.RetiredHoldNone ∧ S.db.ToldOfArchived := by
  induction h with
  | init => exact ⟨hnone, htold⟩
  | step hr hstep ih =>
      rcases hstep.commit_or_quiet with ⟨hdb, -⟩ | ⟨t, op, a, hc⟩
      · rw [hdb]
        exact ih
      · exact ⟨Commit.retiredHoldNone h₀ hr hc ih.1, Commit.toldOfArchived h₀ hr hc ih.2⟩

/-- What the owner is told of an archived drawer stays what it is. -/
theorem Reachable.uncounted_stays (h₀ : HasTill role till s₀) (h : Reachable (guarded role) s₀ S)
    (hj : (S.db.shifts.get j).any (!·.isActive) = true)
    (hr : Relation.ReflTransGen (Step (guarded role)) S S') :
    Reachable (guarded role) s₀ S' ∧ (S'.db.shifts.get j).any (!·.isActive) = true ∧
      S'.db.uncounted j = S.db.uncounted j := by
  induction hr with
  | refl => exact ⟨h, hj, rfl⟩
  | tail _ hstep ih =>
      obtain ⟨hreach, harchived, hsame⟩ := ih
      refine ⟨hreach.step hstep, ?_⟩
      rcases hstep.commit_or_quiet with ⟨hdb, -⟩ | ⟨t, op, a, hc⟩
      · rw [hdb]
        exact ⟨harchived, hsame⟩
      · exact ⟨(Commit.kept h₀ hreach hc).archived j harchived,
          (Commit.uncounted h₀ hreach hc harchived).trans hsame⟩

end

/-! ## Main result -/

/-- `one_pos_per_tenant`: of the devices that are in use one is a till. -/
def Db.OnePos (role : DeviceId → DeviceRole) (db : Db) : Prop :=
  ∀ d d', role d = .pos → role d' = .pos → db.Live d → db.Live d' → d = d'

/-- The shop's drawers are in order. -/
structure Db.DrawersInOrder (role : DeviceId → DeviceRole) (db : Db) : Prop where
  consistent : db.Consistent
  onePos : db.OnePos role
  oneDrawer : db.OneDrawer
  retiredHoldNone : db.RetiredHoldNone
  toldOfArchived : db.ToldOfArchived

section
variable {T : Type} [DecidableEq T] {role : DeviceId → DeviceRole} {till : DeviceId} {s₀ : Db}

theorem Db.DrawersInOrder.hasTill (h : s₀.DrawersInOrder role) : ∃ till, HasTill role till s₀ := by
  by_cases hpos : ∃ d, role d = .pos ∧ s₀.Live d
  · obtain ⟨till, hrole, hlive⟩ := hpos
    exact ⟨till, h.consistent, h.oneDrawer, fun d hd hl => h.onePos d till hd hrole hl hlive⟩
  · exact ⟨0, h.consistent, h.oneDrawer, fun d hd hl => absurd ⟨d, hd, hl⟩ hpos⟩

/-- An open that begins when its drawer is on file leaves everything but its key. -/
theorem Commit.there {S₁ S S' : System T} {t : T} {op : Op} {a : Reply} {d : DeviceId} {k : ShiftId}
    (h₀ : HasTill role till s₀) (h₁ : Reachable (guarded role) s₀ S₁)
    (hthere : (S₁.db.shifts.get k).isSome = true) (hfresh : S₁.live t = none)
    (hr : Relation.ReflTransGen (Step (guarded role)) S₁ S) (hc : Commit t op a S S')
    (hop : op.opening = some (d, some k, k)) : ∃ keys, S'.db = S.db.withKeys keys := by
  have hkeep : ∀ op s, HasTill role till s → (s.shifts.get k).isSome = true →
      wp (guarded role op) [] s Expected fun _ _ s' => (s'.shifts.get k).isSome = true := by
    intro op s hs hk
    refine wp_guarded rfl fun _ => wp_mono (wp_prog hs.consistent op) (fun _ h => h) ?_
    rintro a H s' ⟨⟨⟨e, -, hperf⟩, -, -⟩, -⟩
    exact hperf.kept.shift k hk
  refine hc.framed (f := fun db : Db => (db.shifts.get k).isSome)
    (P := fun t' op => t' = t ∧ ∃ d, op.opening = some (d, some k, k)) sound_guarded h₀ h₁ hthere
    ?_ ?_ (settled_of_kept sound_guarded h₀ h₁ hthere hkeep hr) ⟨rfl, d, hop⟩
    (fun _ s s' => ∃ keys, s' = s.withKeys keys) ?_
  · rintro t' op ⟨-, d, hop⟩
    refine tracks_guarded (tracks_open (fun _ _ => rfl) (fun _ _ => rfl) ?_ ?_ hop)
    · exact fun db j b => Table.isSome_modify _ _ _ _
    · intro j cash openedAt s s' hs
      show ((s.shifts.insert j _).get k).isSome = ((s'.shifts.insert j _).get k).isSome
      rw [Table.isSome_get_insert, Table.isSome_get_insert, hs]
  · rintro t' x hx ⟨rfl, -⟩
    rw [hfresh] at hx
    cases hx
  · intro s hs hk
    exact wpHeld_guarded fun _ => wpHeld_open_there hop hk fun lk s₀ s₁ h => h.2

/-- **A device's drawer is opened once, and nothing is archived for nothing.** In every run a device
has at most one drawer that is not archived, and a retired device has none. An open that finds the
client's id on file leaves the drawers and what the owner is told of them; a push may just have said
that the till dates the drawer too far ahead. One that begins when the id is on file leaves everything
but its key. Of a drawer nobody counted that an open archives, the owner is told once and for all.
And the index on the active drawers stands in no open's way. -/
theorem shifts_opened_once (h₀ : s₀.DrawersInOrder role) :
    (∀ S : System T, Reachable (guarded role) s₀ S → S.db.OneDrawer ∧ S.db.RetiredHoldNone) ∧
    (∀ (S S' : System T) t op a d clientId k, Reachable (guarded role) s₀ S → Commit t op a S S' →
      op.opening = some (d, clientId, k) →
        ((S.db.shifts.get k).isSome = true →
          ∃ keys flag, flag ⊆ op.dateFlags ∧ S'.db = (S.db.flagged flag).withKeys keys) ∧
        ∀ j row, S.db.shifts.get j = some row → row.isActive = true → row.closed = false →
          (S'.db.shifts.get j).any (!·.isActive) = true →
            ∀ S'', Relation.ReflTransGen (Step (guarded role)) S' S'' → S''.db.uncounted j = 1) ∧
    (∀ (S₁ S S' : System T) t op a d k, Reachable (guarded role) s₀ S₁ →
      (S₁.db.shifts.get k).isSome = true → S₁.live t = none →
        Relation.ReflTransGen (Step (guarded role)) S₁ S → Commit t op a S S' →
          op.opening = some (d, some k, k) → ∃ keys, S'.db = S.db.withKeys keys) ∧
    ∀ (S : System T) t x d clientId k, Reachable (guarded role) s₀ S → S.live t = some x →
      x.op.opening = some (d, clientId, k) → x.prog = .fail .uniqueViolation →
        clientId = none ∧ (S.db.shifts.get k).isSome = true := by
  obtain ⟨till, htill⟩ := h₀.hasTill
  have hdrawers := fun {S : System T} h =>
    Reachable.drawers (S := S) htill h₀.retiredHoldNone h₀.toldOfArchived h
  refine ⟨fun S h => ?_, fun S S' t op a d clientId k h hc hop => ⟨fun hthere => ?_, ?_⟩,
    fun S₁ S S' t op a d k h₁ hthere hfresh hr hc hop => ?_, fun S t x d clientId k h hx hop hfail => ?_⟩
  · exact ⟨(h.sysInv sound_guarded htill).inv.oneDrawer, (hdrawers h).1⟩
  · exact (Commit.opening htill h hc hop).found hthere
  · intro j row hrow hactive hopen hafter S'' hr
    obtain ⟨-, hcount⟩ := (Commit.opening htill h hc hop).archives hrow hactive hafter
    have hzero : S.db.uncounted j = 0 := by
      rcases (hdrawers h).2 j with hzero | harchived
      · exact hzero
      · simp [hrow, hactive] at harchived
    rw [hzero, if_pos hopen] at hcount
    have hstays := Reachable.uncounted_stays htill (h.step hc.step) hafter hr
    exact hstays.2.2.trans hcount
  · exact Commit.there htill h₁ hthere hfresh hr hc hop
  · have hviolates := h.refuses sound_guarded htill (fun op e s => ∀ d clientId k,
      op.opening = some (d, clientId, k) → Violates clientId k s e) ?_ hx hfail
    · exact hviolates d clientId k hop rfl
    · intro op s hs
      refine wp_guarded (fun _ _ _ _ => nofun) fun _ => ?_
      cases hopen : op.opening with
      | none =>
          refine wp_mono (wp_prog hs.consistent op) (fun _ _ d clientId k h => by cases h) ?_
          exact fun _ _ _ _ => trivial
      | some o =>
          obtain ⟨d', clientId', k'⟩ := o
          refine wp_mono (wp_open_violates hs.oneDrawer hopen) ?_ fun _ _ _ _ => trivial
          rintro e he d clientId k heq
          cases heq
          exact he

end

/-! ## Two opens of one drawer

The till opens a drawer at the counter and, the answer being lost, queues the open as well. The queue
is pushed while the first open is under way, with the date of a clock that runs ahead. -/

def openAtCounter : Op := .post (plainEnv 0 90) ⟨1⟩ 1 0 (.openShift ⟨some 12, 500⟩)

def openQueued : Op := .push (plainEnv 0 91) ⟨1⟩ 2 0 (.shiftOpen ⟨some 12, 500⟩ (some 1000) 7)

/-- The push has looked for the drawer, and waits for the device while the counter commits. -/
def queuedAcrossCounter : List (Turn Op Bool) :=
  [.begins false openAtCounter, .goes false 7, .begins true openQueued, .goes true 7, .goes false 12]

theorem smallShop_drawersInOrder : smallShop.DrawersInOrder fun _ => .pos where
  consistent := smallShop_consistent
  onePos := by
    have hone : ∀ d, smallShop.Live d → d = 1 := by
      rintro d ⟨row, hrow, -⟩
      have := (Table.mem_rows _).mpr hrow
      simp [smallShop, Table.insert, Table.empty] at this
      exact this.1
    exact fun d d' _ _ hd hd' => (hone d hd).trans (hone d' hd').symm
  oneDrawer d := by
    rw [Db.activeShifts, List.length_map]
    exact List.length_filter_le _ _
  retiredHoldNone := by
    rintro d ⟨row, hrow, hretired⟩
    have := (Table.mem_rows _).mpr hrow
    simp [smallShop, Table.insert, Table.empty] at this
    rw [this.2] at hretired
    cases hretired
  toldOfArchived k := .inl rfl

/-- The counter's open archives the drawer of the day before, and the owner is told once. -/
theorem shifts_opened_once_of_day_before : ∃ S S' : System Bool,
    Reachable (guarded fun _ => .pos) smallShop S ∧ S.db.activeShifts 1 = [11] ∧
      S'.db.activeShifts 1 = [12] ∧
        ∀ S'', Relation.ReflTransGen (Step (guarded fun _ => .pos)) S' S'' →
          S''.db.uncounted 11 = 1 := by
  have hrun : (((Sys.init smallShop).follow (guarded fun _ => .pos) queuedAcrossCounter).bind fun S =>
      (S.done false).bind fun d => (S.next false).map fun S' => (d.1.opening, S.db.activeShifts 1,
        S'.db.activeShifts 1, (S.db.shifts.get 11).any (fun row => row.isActive && !row.closed) &&
          (S'.db.shifts.get 11).any (!·.isActive))) =
            some (some (1, some 12, 12), [11], [12], true) := by
    decide +kernel
  obtain ⟨S, S', op, a, hreach, hc, hop, hlook⟩ := commit_of_turns (f := Op.opening)
    (g := fun db db' : Db => (db.activeShifts 1, db'.activeShifts 1,
      (db.shifts.get 11).any (fun row => row.isActive && !row.closed) &&
        (db'.shifts.get 11).any (!·.isActive))) hrun
  obtain ⟨hbefore, hafter, hboth⟩ : _ ∧ _ ∧ _ := by simpa only [Prod.mk.injEq] using hlook
  obtain ⟨hopen, harchived⟩ := Bool.and_eq_true_iff.mp hboth
  refine ⟨S, S', hreach, hbefore, hafter, ?_⟩
  cases hrow : S.db.shifts.get 11 with
  | none =>
      rw [hrow] at hopen
      cases hopen
  | some row =>
      rw [hrow, Option.any_some, Bool.and_eq_true, Bool.not_eq_true'] at hopen
      obtain ⟨hactive, hclosed⟩ := hopen
      have honce := (shifts_opened_once (T := Bool) smallShop_drawersInOrder).2.1 S S' false op a 1
        (some 12) 12 hreach hc hop
      exact honce.2 11 row hrow hactive hclosed harchived

/-- The push then finds the drawer on file, and leaves a date flag all the same. -/
theorem open_on_file_leaves_date_flag : ∃ (S S' : System Bool) (op : Op) (a : Reply),
    Reachable (guarded fun _ => .pos) smallShop S ∧ Commit true op a S S' ∧
      op.opening = some (1, some 12, 12) ∧ (S.db.shifts.get 12).isSome = true ∧
        S'.db.reviewItems = S.db.reviewItems ++ [⟨.dateFlag, 12⟩] := by
  have hrun : (((Sys.init smallShop).follow (guarded fun _ => .pos)
      (queuedAcrossCounter ++ [.goes false 1, .goes true 6])).bind fun S =>
        (S.done true).bind fun d => (S.next true).map fun S' => (d.1.opening,
          (S.db.shifts.get 12).isSome,
          decide (S'.db.reviewItems = S.db.reviewItems ++ [⟨.dateFlag, 12⟩]))) =
            some (some (1, some 12, 12), true, true) := by
    decide +kernel
  obtain ⟨S, S', op, a, hreach, hc, hop, hlook⟩ := commit_of_turns (f := Op.opening)
    (g := fun db db' : Db => ((db.shifts.get 12).isSome,
      decide (db'.reviewItems = db.reviewItems ++ [⟨.dateFlag, 12⟩]))) hrun
  obtain ⟨hthere, hflag⟩ := Prod.mk.inj hlook
  exact ⟨S, S', op, a, hreach, hc, hop, hthere, of_decide_eq_true hflag⟩

end Server

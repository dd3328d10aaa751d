import SrisurartPos.Server.Program

/-! # Drawers (`shifts.service.ts`)

A device has at most one drawer that is not archived; it is open until it is closed. A document
that takes or gives money is stamped with the device's open drawer, which it locks `FOR SHARE`;
opening, closing, retiring and the drawer's own entries lock it `FOR UPDATE`. -/

namespace Server

open Txn

/-- `device_id = … AND is_active AND closed_at IS NULL` -/
def Shift.isOpenOn (d : DeviceId) (row : Shift) : Bool :=
  row.deviceId = d && row.isActive && !row.closed

namespace Db

/-- The device's open drawer, as a query without locks finds it. -/
def openShift (db : Db) (d : DeviceId) : Option ShiftId :=
  (db.activeShifts d).find? fun k => (db.shifts.get k).any (Shift.isOpenOn d)

/-- The database once the device's drawer is archived. -/
def archiveActive (db : Db) (d : DeviceId) : Db :=
  match (db.activeShifts d).head? with
  | none   => db
  | some k =>
      match db.shifts.get k with
      | none       => db
      | some shift =>
          let archived := db.archiveShift k (!shift.closed)
          if shift.closed = false then archived.addReview ⟨.shiftUncounted, k⟩ else archived

/-- Archiving touches the drawers and the owner's list only. -/
theorem archiveActive_eq (db : Db) (d : DeviceId) :
    db.archiveActive d = { db with
      shifts := (db.archiveActive d).shifts
      reviewItems := (db.archiveActive d).reviewItems } := by
  rw [archiveActive]
  cases (db.activeShifts d).head? with
  | none => rfl
  | some k =>
      cases hk : db.shifts.get k with
      | none => simp only [hk]
      | some row =>
          simp only [hk]
          split <;> rfl

theorem mem_drawersOf {db : Db} {d : DeviceId} {k : ShiftId} :
    k ∈ db.drawersOf d ↔ ∃ row, db.shifts.get k = some row ∧ row.deviceId = d := by
  simp only [drawersOf, List.mem_map, List.mem_filter, Prod.exists, exists_and_right,
    exists_eq_right, Table.mem_rows, decide_eq_true_eq]

theorem mem_activeShifts {db : Db} {d : DeviceId} {k : ShiftId} :
    k ∈ db.activeShifts d ↔
      ∃ row, db.shifts.get k = some row ∧ row.deviceId = d ∧ row.isActive = true := by
  simp only [activeShifts, List.mem_map, List.mem_filter, Prod.exists, exists_and_right,
    exists_eq_right, Table.mem_rows, Bool.and_eq_true, decide_eq_true_eq]

end Db

/-! ## The open drawer of a document -/

/-- The id of the device's open drawer, which is then locked `FOR SHARE`: a drawer closed while
this waited is no longer open. -/
def currentShiftIdFor (d : DeviceId) : Prog (Option ShiftId) := do
  let seen ← Tx.glance fun db => db.openShift d
  match seen with
  | none   => return none
  | some k => do
      let row ← Tx.selectFor .share (.shift k) fun db => db.shifts.get k
      return if row.any (Shift.isOpenOn d) then some k else none

def requireOpenShiftIdFor (d : DeviceId) : Prog ShiftId := do
  let k ← currentShiftIdFor d
  Tx.orFail k .noOpenShift

/-- The device's drawer, closed or not, locked for update. -/
def lockActive (d : DeviceId) : Prog (ShiftId × Shift) := do
  let seen ← Tx.glance fun db => (db.activeShifts d).head?
  let k ← Tx.orFail seen .noOpenShift
  let row ← Tx.selectFor .update (.shift k) fun db => db.shifts.get k
  let shift ← Tx.orFail row .noOpenShift
  Tx.require (shift.deviceId = d ∧ shift.isActive = true) .noOpenShift
  return (k, shift)

/-! ## Opening, closing, retiring -/

structure ShiftOpenBody where
  id : Option ShiftId
  startingCashSatang : Int

/-- A drawer that a till opened offline brings the till's own date. -/
structure OpenShiftInput extends ShiftOpenBody where
  openedAt : Option Nat

def ShiftOpenBody.at (body : ShiftOpenBody) (openedAt : Option Nat) : OpenShiftInput := { body with openedAt }

/-- Archives the drawer the device still has. The caller holds the device's row, so that no other
drawer of the device comes or goes. -/
def archive (d : DeviceId) : Prog Unit := do
  let active ← Tx.query fun db => (db.activeShifts d).head?
  match active with
  | none   => return ()
  | some k => do
      let row ← Tx.selectFor .update (.shift k) fun db => db.shifts.get k
      match row with
      | none       => return ()
      | some shift => do
          Tx.update fun db => db.archiveShift k (!shift.closed)
          -- a drawer nobody counted goes on the owner's list
          Tx.whenever (shift.closed = false) (Tx.update fun db => db.addReview ⟨.shiftUncounted, k⟩)

/-- `INSERT INTO shifts … ON CONFLICT DO NOTHING`: on the id when the client brought one, else on
the device's one active drawer. A conflict answers the row that was there first. -/
def insertShiftRow (d : DeviceId) (clientId : Option ShiftId) (k : ShiftId) (row : Shift) :
    Prog (ShiftId × Shift) := do
  let there ← Tx.selectFor .update (.shift k) fun db => db.shifts.get k
  let active ← Tx.query fun db => (db.activeShifts d).head?
  match there, active, clientId with
  | none, none, _           => do
      Tx.update fun db => db.insertShift k row
      return (k, row)
  | some winner, _, some _  => return (k, winner)
  | some _, none, none      => Tx.fail .uniqueViolation
  | none, some _, some _    => Tx.fail .uniqueViolation
  | _, some j, none         => do
      let winner ← Tx.glance fun db => db.shifts.get j
      let winner ← Tx.orFail winner .vanished
      return (j, winner)

def openNew (env : Env) (d : DeviceId) (input : OpenShiftInput) : Prog (ShiftId × Shift) := do
  archive d
  insertShiftRow d input.id (input.id.getD env.newUuid)
    { deviceId := d, startingCash := input.startingCashSatang, openedAt := input.openedAt.getD env.now
      isActive := true, closed := false, physicalCash := none, autoArchived := false }

def openShift (env : Env) (actor : Actor) (input : OpenShiftInput) : Prog (ShiftId × Shift) := do
  let row ← Tx.selectFor .update (.device actor.deviceId) fun db =>
    db.devices.get actor.deviceId
  let device ← Tx.orFail row .deviceRoleForbidden
  Tx.require (device.retired = false) .deviceRoleForbidden
  match input.id with
  | none    => openNew env actor.deviceId input
  | some id => do
      let existing ← Tx.glance fun db => db.shifts.get id
      match existing with
      | none     => openNew env actor.deviceId input
      | some row => do
          Tx.require (row.startingCash = input.startingCashSatang) (.clientIdReused id)
          return (id, row)

def close (d : DeviceId) (physicalCashSatang : Int) : Prog (ShiftId × Shift) := do
  let (k, shift) ← lockActive d
  Tx.require (shift.closed = false) .shiftAlreadyClosed
  Tx.update fun db => db.closeShift k physicalCashSatang
  return (k, { shift with closed := true, physicalCash := some physicalCashSatang })

/-- Closes and archives what the device still holds. The caller holds the device's row. -/
def closeForRetirement (d : DeviceId) (physicalCashSatang : Option Int) :
    Prog (Option ShiftId) := do
  let active ← Tx.query fun db => (db.activeShifts d).head?
  match active with
  | none   => return none
  | some k => do
      let row ← Tx.selectFor .update (.shift k) fun db => db.shifts.get k
      let shift ← Tx.orFail row .vanished
      Tx.whenever (shift.closed = false) do
        let cash ← Tx.orFail physicalCashSatang (.physicalCashRequired k)
        let _ ← close d cash
        return ()
      Tx.update fun db => db.archiveShift k false
      return some k

/-- `DevicesService.retire` -/
def retire (d : DeviceId) (physicalCashSatang : Option Int) (force : Bool) :
    Prog (Option ShiftId) := do
  let row ← Tx.selectFor .update (.device d) fun db => db.devices.get d
  let device ← Tx.orFail row .deviceNotFound
  Tx.require (device.retired = false) .deviceAlreadyRetired
  Tx.whenever (device.unsyncedOps ≠ 0) do
    Tx.require (force = true) (.deviceHasUnsyncedOps device.unsyncedOps)
    Tx.update fun db => db.addReview ⟨.deviceForceRetired, d⟩
  let shift ← closeForRetirement d physicalCashSatang
  Tx.update fun db => db.modifyDevice d fun row => { row with retired := true }
  Tx.update fun db => db.addAudit ⟨.deviceRetire, d, none⟩
  return shift

/-! ## Entries -/

structure DrawerEntryBody where
  id : Option EntryId
  type : EntryType
  amountSatang : Int

def addNewEntry (env : Env) (d : DeviceId) (entry : DrawerEntryBody) (offlineReplay : Bool) :
    Prog (EntryId × DrawerEntry) := do
  let (k, shift) ← lockActive d
  Tx.require (shift.closed = false) .drawerClosed
  Tx.whenever (entry.type = .cashOut ∧ offlineReplay = false) do
    let expected ← Tx.query fun db => db.expectedCash k
    Tx.require (entry.amountSatang ≤ expected) (.drawerInsufficientCash expected)
  let entryId := entry.id.getD env.newUuid
  let row : DrawerEntry := ⟨k, entry.type, entry.amountSatang⟩
  Tx.insertRow (.entry entryId) (fun db => (db.drawerEntries.get entryId).isSome)
    (.clientIdReused entryId) fun db => db.insertEntry entryId row
  return (entryId, row)

def addEntry (env : Env) (actor : Actor) (entry : DrawerEntryBody) (offlineReplay : Bool) :
    Prog (EntryId × DrawerEntry) := do
  match entry.id with
  | none    => addNewEntry env actor.deviceId entry offlineReplay
  | some id => do
      let existing ← Tx.glance fun db => db.drawerEntries.get id
      match existing with
      | none     => addNewEntry env actor.deviceId entry offlineReplay
      | some row => do
          Tx.require (row.type = entry.type ∧ row.amount = entry.amountSatang) (.clientIdReused id)
          return (id, row)

/-! ## What they do -/

section
variable {H : Held LockKey} {s : Db}

/-- The drawer a document is stamped with is open, and stays open until the document commits. -/
theorem wp_currentShiftIdFor {d : DeviceId} {Q : Option ShiftId → Held LockKey → Db → Prop}
    (hnone : ∀ H', H ⊆ H' → Q none H' s)
    (hsome : ∀ k row H', H ⊆ H' → (.shift k, .share) ∈ H' → s.shifts.get k = some row →
      row.isOpenOn d = true → Q (some k) H' s) :
    wp (currentShiftIdFor d) H s Expected Q := by
  refine wp_bind_glance fun s₀ => ?_
  cases s₀.openShift d with
  | none => exact hnone _ (List.Subset.refl _)
  | some k =>
      refine wp_bind_selectFor ?_
      show Q (if (s.shifts.get k).any (Shift.isOpenOn d) then some k else none) _ s
      cases hrow : s.shifts.get k with
      | none => exact hnone _ (List.subset_cons_self _ _)
      | some row =>
          simp only [Option.any_some]
          split
          · exact hsome k row _ (List.subset_cons_self _ _) List.mem_cons_self hrow ‹_›
          · exact hnone _ (List.subset_cons_self _ _)

theorem wp_requireOpenShiftIdFor {d : DeviceId} {Q : ShiftId → Held LockKey → Db → Prop}
    (h : ∀ k row H', H ⊆ H' → (.shift k, .share) ∈ H' → s.shifts.get k = some row →
      row.isOpenOn d = true → Q k H' s) :
    wp (requireOpenShiftIdFor d) H s Expected Q := by
  refine (wp_bind _ _).mpr (wp_currentShiftIdFor (fun _ _ => ?_) fun k row H' hH hl hrow hopen => ?_)
  · exact wp_orFail (fun _ hk => by cases hk) fun _ => rfl
  · refine wp_orFail (fun k' hk => ?_) fun hk => by cases hk
    cases hk
    exact h _ row H' hH hl hrow hopen

theorem wp_lockActive {d : DeviceId} {Q : ShiftId × Shift → Held LockKey → Db → Prop}
    (h : ∀ k row, s.shifts.get k = some row → row.deviceId = d → row.isActive = true →
      Q (k, row) ((.shift k, .update) :: H) s) :
    wp (lockActive d) H s Expected Q := by
  refine wp_bind_glance fun s₀ => wp_bind_orFail (fun k _ => ?_) fun _ => rfl
  refine wp_bind_selectFor (wp_bind_orFail (fun row hrow => ?_) fun _ => rfl)
  exact wp_bind_require (fun hc => h k row hrow hc.1 hc.2) fun _ => rfl

/-- The device's drawers other than `k` do not change when `k` is archived. -/
private theorem device_of_active {d d' : DeviceId} {k : ShiftId} (h : k ∈ s.activeShifts d)
    (h' : k ∈ s.activeShifts d') : d' = d := by
  obtain ⟨row, hrow, hd, _⟩ := Db.mem_activeShifts.mp h
  obtain ⟨row', hrow', hd', _⟩ := Db.mem_activeShifts.mp h'
  rw [hrow] at hrow'
  cases hrow'
  exact hd'.symm.trans hd

/-- The device's active drawers are archived one by one, each under its lock. -/
theorem wp_archive {d : DeviceId} {Q : Unit → Held LockKey → Db → Prop}
    (hd : (.device d, .update) ∈ H)
    (h : ∀ H', H ⊆ H' → Covered agree H' s (s.archiveActive d) → Q () H' (s.archiveActive d)) :
    wp (archive d) H s Expected Q := by
  refine wp_bind_query ?_
  rw [Db.archiveActive] at h
  cases hk : (s.activeShifts d).head? with
  | none =>
      rw [hk] at h
      exact h _ (List.Subset.refl _) (Covered.refl _ _)
  | some k =>
      rw [hk] at h
      have hmem : k ∈ s.activeShifts d := List.mem_of_mem_head? hk
      refine wp_bind_selectFor ?_
      cases hrow : s.shifts.get k with
      | none =>
          simp only [hrow] at h
          exact h _ (List.subset_cons_self _ _) (Covered.refl _ _)
      | some shift =>
          simp only [hrow] at h
          refine wp_bind_update ?_
          have hcov : Covered agree ((.shift k, .update) :: H) s (s.archiveShift k (!shift.closed)) := by
            refine Covered.archiveShift (Covered.refl _ _) List.mem_cons_self (fun d' hd' => ?_) _
            rw [device_of_active hmem hd']
            exact List.mem_cons_of_mem _ hd
          show wp (Tx.whenever _ _) _ _ _ _
          rw [Tx.whenever]
          split
          · rename_i hc
            rw [if_pos hc] at h
            exact h _ (List.subset_cons_self _ _) (Covered.of_view hcov fun lk db => view_addReview _ _ _)
          · rename_i hc
            rw [if_neg hc] at h
            exact h _ (List.subset_cons_self _ _) hcov

/-- What opening a drawer may have done to the database. -/
inductive Opened (env : Env) (d : DeviceId) (input : OpenShiftInput) (s : Db) : Db → Prop where
  /-- the shift was there already -/
  | replay : input.id.isSome → Opened env d input s s
  /-- the id or the drawer was taken meanwhile -/
  | conflict : Opened env d input s (s.archiveActive d)
  | fresh (k : ShiftId) : k = input.id.getD env.newUuid →
      (s.archiveActive d).shifts.get k = none →
      Opened env d input s ((s.archiveActive d).insertShift k
        { deviceId := d, startingCash := input.startingCashSatang, openedAt := input.openedAt.getD env.now
          isActive := true, closed := false, physicalCash := none, autoArchived := false })

/-- A new drawer is opened once those that were active are archived. -/
theorem wp_openNew {env : Env} {d : DeviceId} {input : OpenShiftInput}
    (hd : (.device d, .update) ∈ H) :
    wp (openNew env d input) H s Expected fun _ H' s' =>
      Opened env d input s s' ∧ Covered agree H' s s' := by
  refine (wp_bind _ _).mpr (wp_archive hd fun H' hH hcov => ?_)
  refine wp_bind_selectFor (wp_bind_query ?_)
  have hcov' : Covered agree ((.shift (input.id.getD env.newUuid), .update) :: H') s
      (s.archiveActive d) := Covered.mono hcov (List.subset_cons_self _ _)
  cases hthere : (s.archiveActive d).shifts.get (input.id.getD env.newUuid) with
  | none =>
      cases ((s.archiveActive d).activeShifts d).head? with
      | none =>
          refine wp_bind_update ⟨.fresh _ rfl hthere, ?_⟩
          exact Covered.insertShift hcov' hthere List.mem_cons_self (List.mem_cons_of_mem _ (hH hd))
      | some j =>
          cases hid : input.id with
          | some _ => rfl
          | none =>
              refine wp_bind_glance fun s₀ => wp_bind_orFail (fun w _ => ?_) fun _ => rfl
              exact ⟨.conflict, by rw [hid] at hcov'; exact hcov'⟩
  | some winner =>
      cases hid : input.id with
      | some _ => exact ⟨.conflict, by rw [hid] at hcov'; exact hcov'⟩
      | none =>
          cases ((s.archiveActive d).activeShifts d).head? with
          | none => rfl
          | some j =>
              refine wp_bind_glance fun s₀ => wp_bind_orFail (fun w _ => ?_) fun _ => rfl
              exact ⟨.conflict, by rw [hid] at hcov'; exact hcov'⟩

/-- Opening a drawer, also when the same drawer is on file already. -/
theorem wp_openShift {env : Env} {actor : Actor} {input : OpenShiftInput} :
    wp (openShift env actor input) H s Expected fun _ H' s' =>
      Opened env actor.deviceId input s s' ∧ Covered agree H' s s' := by
  refine wp_bind_selectFor (wp_bind_orFail (fun device _ => ?_) fun _ => rfl)
  refine wp_bind_require (fun _ => ?_) fun _ => rfl
  have hnew : wp (openNew env actor.deviceId input) ((.device actor.deviceId, .update) :: H) s
      Expected fun _ H' s' => Opened env actor.deviceId input s s' ∧ Covered agree H' s s' :=
    wp_openNew List.mem_cons_self
  cases hid : input.id with
  | none => exact hnew
  | some id =>
      refine wp_bind_glance fun s₀ => ?_
      cases s₀.shifts.get id with
      | none => exact hnew
      | some row =>
          refine wp_bind_require (fun _ => ?_) fun _ => rfl
          exact ⟨.replay (by rw [hid]; rfl), Covered.refl _ _⟩

theorem wp_close {d : DeviceId} {cash : Int} {Q : ShiftId × Shift → Held LockKey → Db → Prop}
    (h : ∀ k row, s.shifts.get k = some row → row.isOpenOn d = true →
      Q (k, { row with closed := true, physicalCash := some cash }) ((.shift k, .update) :: H)
        (s.closeShift k cash)) :
    wp (close d cash) H s Expected Q := by
  refine (wp_bind _ _).mpr (wp_lockActive fun k row hrow hd ha => ?_)
  refine wp_bind_require (fun hc => wp_bind_update ?_) fun _ => rfl
  exact h k row hrow (by simp [Shift.isOpenOn, hd, ha, hc])

/-- What retiring a device does to its drawer. -/
inductive ClosedForRetirement (d : DeviceId) (s : Db) : Db → Prop where
  | none : ClosedForRetirement d s s
  /-- closed before, now archived -/
  | archived (k : ShiftId) (row : Shift) : s.shifts.get k = some row → row.closed = true →
      ClosedForRetirement d s (s.archiveShift k false)
  | counted (j k : ShiftId) (row : Shift) (cash : Int) : s.shifts.get j = some row →
      row.isOpenOn d = true → ClosedForRetirement d s ((s.closeShift j cash).archiveShift k false)

/-- A device that is retired has its open drawer counted out and closed. -/
theorem wp_closeForRetirement {d : DeviceId} {cash : Option Int}
    (hd : (.device d, .update) ∈ H) :
    wp (closeForRetirement d cash) H s Expected fun _ H' s' =>
      ClosedForRetirement d s s' ∧ Covered agree H' s s' := by
  refine wp_bind_query ?_
  cases hk : (s.activeShifts d).head? with
  | none => exact ⟨.none, Covered.refl _ _⟩
  | some k =>
      have hmem : k ∈ s.activeShifts d := List.mem_of_mem_head? hk
      refine wp_bind_selectFor (wp_bind_orFail (fun row hrow => ?_) fun _ => rfl)
      refine wp_bind_whenever (fun hc => ?_) fun hc => ?_
      · refine wp_bind_orFail (fun c _ => ?_) fun _ => rfl
        refine (wp_bind _ _).mpr (wp_close fun j row' hrow' hopen => ?_)
        refine ⟨.counted j k row' c hrow' hopen, ?_⟩
        refine Covered.archiveShift (Covered.closeShift (Covered.refl _ _) List.mem_cons_self c)
          (by simp) (fun d' hd' => ?_) _
        rw [activeShifts_closeShift] at hd'
        rw [device_of_active hmem hd']
        exact List.mem_cons_of_mem _ (List.mem_cons_of_mem _ hd)
      · refine ⟨.archived k row hrow (by simpa using hc), ?_⟩
        refine Covered.archiveShift (Covered.refl _ _) List.mem_cons_self (fun d' hd' => ?_) _
        rw [device_of_active hmem hd']
        exact List.mem_cons_of_mem _ hd

/-- What retiring a device does. -/
inductive Retired (d : DeviceId) (s : Db) : Db → Prop where
  | mk (s₁ s₂ : Db) : (s₁ = s ∨ s₁ = s.addReview ⟨.deviceForceRetired, d⟩) →
      ClosedForRetirement d s₁ s₂ →
      Retired d s ((s₂.modifyDevice d fun row => { row with retired := true }).addAudit
        ⟨.deviceRetire, d, none⟩)

/-- **The specification of retiring a device.** -/
theorem wp_retire {d : DeviceId} {cash : Option Int} {force : Bool} :
    wp (retire d cash force) H s Expected fun _ H' s' =>
      Retired d s s' ∧ Covered agree H' s s' := by
  refine wp_bind_selectFor (wp_bind_orFail (fun device _ => ?_) fun _ => rfl)
  refine wp_bind_require (fun _ => ?_) fun _ => rfl
  have hrest : ∀ s₁ : Db, (s₁ = s ∨ s₁ = s.addReview ⟨.deviceForceRetired, d⟩) →
      Covered agree ((.device d, .update) :: H) s s₁ →
      wp (closeForRetirement d cash >>= fun shift => do
        Tx.update fun db => db.modifyDevice d fun row => { row with retired := true }
        Tx.update fun db => db.addAudit ⟨.deviceRetire, d, none⟩
        return shift) ((.device d, .update) :: H) s₁ Expected fun _ H' s' =>
          Retired d s s' ∧ Covered agree H' s s' := by
    intro s₁ hs₁ hcov
    refine wp_seq (wp_grow (wp_closeForRetirement List.mem_cons_self)) ?_
    rintro shift H' s₂ ⟨⟨hclosed, hcov₂⟩, hsub⟩
    refine ⟨.mk s₁ s₂ hs₁ hclosed, ?_⟩
    have hcov' : Covered agree H' s s₂ := Covered.trans (Covered.mono hcov hsub) hcov₂
    refine Covered.of_view ?_ fun lk db => view_addAudit _ _ _
    exact Covered.modifyDevice hcov' (hsub List.mem_cons_self) _
  refine wp_bind_whenever (fun _ => ?_) fun _ => ?_
  · refine wp_bind_require (fun _ => ?_) fun _ => rfl
    exact hrest _ (.inr rfl) (Covered.of_view (Covered.refl _ _) fun lk db => view_addReview _ _ _)
  · exact hrest _ (.inl rfl) (Covered.refl _ _)

/-- What a drawer entry does. -/
inductive EntryAdded (env : Env) (d : DeviceId) (entry : DrawerEntryBody) (offlineReplay : Bool)
    (s : Db) : EntryId × DrawerEntry → Db → Prop where
  | replay (r : EntryId × DrawerEntry) : entry.id.isSome →
      EntryAdded env d entry offlineReplay s r s
  | fresh (k : ShiftId) (row : Shift) (e : EntryId) : e = entry.id.getD env.newUuid →
      s.shifts.get k = some row → row.isOpenOn d = true → s.drawerEntries.get e = none →
      (entry.type = .cashOut ∧ offlineReplay = false → entry.amountSatang ≤ s.expectedCash k) →
      EntryAdded env d entry offlineReplay s (e, ⟨k, entry.type, entry.amountSatang⟩)
        (s.insertEntry e ⟨k, entry.type, entry.amountSatang⟩)

/-- A new drawer entry is written under the drawer's lock, after the cash was checked there. -/
theorem wp_addNewEntry {env : Env} {d : DeviceId} {entry : DrawerEntryBody}
    {offlineReplay : Bool} :
    wp (addNewEntry env d entry offlineReplay) H s Expected fun r H' s' =>
      EntryAdded env d entry offlineReplay s r s' ∧ Covered agree H' s s' := by
  refine (wp_bind _ _).mpr (wp_lockActive fun k row hrow hd ha => ?_)
  refine wp_bind_require (fun hc => ?_) fun _ => rfl
  have hopen : row.isOpenOn d = true := by simp [Shift.isOpenOn, hd, ha, hc]
  have hinsert : (entry.type = .cashOut ∧ offlineReplay = false →
        entry.amountSatang ≤ s.expectedCash k) →
      wp (do
        Tx.insertRow (.entry (entry.id.getD env.newUuid))
          (fun db => (db.drawerEntries.get (entry.id.getD env.newUuid)).isSome)
          (.clientIdReused (entry.id.getD env.newUuid)) fun db =>
            db.insertEntry (entry.id.getD env.newUuid) ⟨k, entry.type, entry.amountSatang⟩
        return (entry.id.getD env.newUuid, (⟨k, entry.type, entry.amountSatang⟩ : DrawerEntry)))
        ((.shift k, .update) :: H) s Expected fun r H' s' =>
          EntryAdded env d entry offlineReplay s r s' ∧ Covered agree H' s s' := by
    intro hcash
    refine wp_bind_insertRow (fun hfree => ?_) fun _ => rfl
    have hnew : s.drawerEntries.get (entry.id.getD env.newUuid) = none := by simpa using hfree
    refine ⟨.fresh k row _ rfl hrow hopen hnew hcash, ?_⟩
    exact Covered.insertEntry (Covered.refl _ _) hnew List.mem_cons_self
      (List.mem_cons_of_mem _ List.mem_cons_self)
  refine wp_bind_whenever (fun _ => ?_) fun hno => hinsert fun h => absurd h hno
  exact wp_bind_query (wp_require (fun hle => hinsert fun _ => hle) fun _ => rfl)

/-- **The specification of a drawer entry**: a new one, or the one on file under its id. -/
theorem wp_addEntry {env : Env} {actor : Actor} {entry : DrawerEntryBody} {offlineReplay : Bool} :
    wp (addEntry env actor entry offlineReplay) H s Expected fun r H' s' =>
      EntryAdded env actor.deviceId entry offlineReplay s r s' ∧ Covered agree H' s s' := by
  rw [addEntry]
  cases hid : entry.id with
  | none => exact wp_addNewEntry
  | some id =>
      refine wp_bind_glance fun s₀ => ?_
      cases s₀.drawerEntries.get id with
      | none => exact wp_addNewEntry
      | some row =>
          refine wp_bind_require (fun _ => ?_) fun _ => rfl
          exact ⟨.replay _ (by rw [hid]; rfl), Covered.refl _ _⟩

/-! ## Their locks -/

theorem disciplined_currentShiftIdFor (d : DeviceId) :
    Disciplined agree (currentShiftIdFor d) H fun _ _ => True := by
  refine disciplined_bind_glance fun seen => ?_
  cases seen with
  | none => trivial
  | some k => exact disciplined_bind_selectFor (fun s s' hs => View.shift.inj hs) fun row => trivial

theorem disciplined_requireOpenShiftIdFor (d : DeviceId) :
    Disciplined agree (requireOpenShiftIdFor d) H fun _ _ => True :=
  Disciplined.seq (disciplined_currentShiftIdFor d) fun _ _ _ _ =>
    disciplined_orFail fun _ _ => trivial

/-- The row of a drawer locked for update. -/
theorem shift_of_agree {k : ShiftId} (s s' : Db) (h : agree (.shift k, .update) s s') :
    s.shifts.get k = s'.shifts.get k := (View.drawer.inj h).1

theorem disciplined_lockActive (d : DeviceId) :
    Disciplined agree (lockActive d) H fun r H' => (.shift r.1, .update) ∈ H' := by
  refine disciplined_bind_glance fun seen => disciplined_bind_orFail fun k _ => ?_
  refine disciplined_bind_selectFor shift_of_agree fun row => ?_
  exact disciplined_bind_orFail fun shift _ => disciplined_bind_require fun _ => List.mem_cons_self

/-- The device's row protects the list of its drawers. -/
theorem guarded_activeShifts {d : DeviceId} (hd : (.device d, .update) ∈ H) :
    Guarded agree H fun db : Db => (db.activeShifts d).head? := by
  intro s s' hs
  have := (View.device.inj (hs _ hd)).2.1
  simp only [this]

theorem disciplined_archive {d : DeviceId} (hd : (.device d, .update) ∈ H) :
    Disciplined agree (archive d) H fun _ _ => True := by
  refine disciplined_bind_query (guarded_activeShifts hd) fun active => ?_
  cases active with
  | none => trivial
  | some k =>
      refine disciplined_bind_selectFor shift_of_agree fun row => ?_
      cases row with
      | none => trivial
      | some shift =>
          refine disciplined_bind_update (respects_archiveShift _ _) ?_
          show Disciplined agree (Tx.whenever _ _) _ _
          rw [Tx.whenever]
          split
          · exact ⟨respects_of_view fun lk db => view_addReview _ _ _, trivial⟩
          · trivial

theorem disciplined_openNew {env : Env} {d : DeviceId} {input : OpenShiftInput}
    (hd : (.device d, .update) ∈ H) :
    Disciplined agree (openNew env d input) H fun _ _ => True := by
  refine Disciplined.seq (disciplined_archive hd) fun _ H' hsub _ => ?_
  refine disciplined_bind_selectFor shift_of_agree fun there => ?_
  refine disciplined_bind_query (guarded_activeShifts (List.mem_cons_of_mem _ (hsub hd))) ?_
  intro active
  have hwinner : ∀ (j : ShiftId) (H'' : Held LockKey), Disciplined agree (do
      let winner ← Tx.glance fun db : Db => db.shifts.get j
      let winner ← Tx.orFail winner ServerError.vanished
      return (j, winner)) H'' fun (_ : ShiftId × Shift) _ => True := fun j H'' =>
    disciplined_bind_glance fun w => disciplined_bind_orFail fun _ _ => trivial
  cases there with
  | none =>
      cases active with
      | none => exact disciplined_bind_update (respects_insertShift List.mem_cons_self) trivial
      | some j =>
          cases input.id with
          | none => exact hwinner j _
          | some _ => trivial
  | some winner =>
      cases input.id with
      | some _ => trivial
      | none =>
          cases active with
          | none => trivial
          | some j => exact hwinner j _

theorem disciplined_openShift (env : Env) (actor : Actor) (input : OpenShiftInput) :
    Disciplined agree (openShift env actor input) H fun _ _ => True := by
  refine disciplined_bind_selectFor (fun s s' hs => (View.device.inj hs).1) fun row => ?_
  refine disciplined_bind_orFail fun device _ => disciplined_bind_require fun _ => ?_
  have hnew : Disciplined agree (openNew env actor.deviceId input)
      ((.device actor.deviceId, .update) :: H) fun _ _ => True :=
    disciplined_openNew List.mem_cons_self
  cases input.id with
  | none => exact hnew
  | some id =>
      refine disciplined_bind_glance fun existing => ?_
      cases existing with
      | none => exact hnew
      | some row => exact disciplined_bind_require fun _ => trivial

theorem disciplined_close (d : DeviceId) (cash : Int) :
    Disciplined agree (close d cash) H fun _ _ => True := by
  refine Disciplined.seq (disciplined_lockActive d) fun r H' _ _ => ?_
  exact disciplined_bind_require fun _ => ⟨respects_closeShift _ _, trivial⟩

theorem disciplined_closeForRetirement {d : DeviceId} (cash : Option Int)
    (hd : (.device d, .update) ∈ H) :
    Disciplined agree (closeForRetirement d cash) H fun _ _ => True := by
  refine disciplined_bind_query (guarded_activeShifts hd) fun active => ?_
  cases active with
  | none => trivial
  | some k =>
      refine disciplined_bind_selectFor shift_of_agree fun row => disciplined_bind_orFail fun _ _ => ?_
      refine disciplined_bind_whenever (fun _ => ?_) fun _ => ⟨respects_archiveShift _ _, trivial⟩
      refine disciplined_bind_orFail fun c _ => ?_
      refine Disciplined.seq (disciplined_close d c) fun _ H' _ _ => ?_
      exact ⟨respects_archiveShift _ _, trivial⟩

theorem disciplined_retire (d : DeviceId) (cash : Option Int) (force : Bool) :
    Disciplined agree (retire d cash force) H fun _ _ => True := by
  refine disciplined_bind_selectFor (fun s s' hs => (View.device.inj hs).1) fun row => ?_
  refine disciplined_bind_orFail fun device _ => disciplined_bind_require fun _ => ?_
  have hrest : Disciplined agree (closeForRetirement d cash >>= fun shift => do
      Tx.update fun db => db.modifyDevice d fun row => { row with retired := true }
      Tx.update fun db => db.addAudit ⟨.deviceRetire, d, none⟩
      return shift) ((.device d, .update) :: H) fun _ _ => True := by
    refine Disciplined.seq (disciplined_closeForRetirement cash List.mem_cons_self) ?_
    intro shift H' _ _
    refine disciplined_bind_update (respects_modifyDevice _ _) ?_
    exact ⟨respects_of_view fun lk db => view_addAudit _ _ _, trivial⟩
  refine disciplined_bind_whenever (fun _ => ?_) fun _ => hrest
  exact disciplined_bind_require fun _ => ⟨respects_of_view fun lk db => view_addReview _ _ _, hrest⟩

/-- A drawer locked for update protects the cash in it. -/
theorem guarded_expectedCash {k : ShiftId} (hk : (.shift k, .update) ∈ H) :
    Guarded agree H fun db : Db => db.expectedCash k := by
  intro s s' hs
  obtain ⟨hrow, hcash⟩ := View.drawer.inj (hs _ hk)
  simp only [Db.expectedCash, hrow, hcash]

theorem disciplined_addNewEntry (env : Env) (d : DeviceId) (entry : DrawerEntryBody)
    (offlineReplay : Bool) :
    Disciplined agree (addNewEntry env d entry offlineReplay) H fun _ _ => True := by
  refine Disciplined.seq (disciplined_lockActive d) fun r H' _ hr => ?_
  refine disciplined_bind_require fun _ => ?_
  have hinsert : ∀ H'' : Held LockKey, Disciplined agree ((do
      Tx.insertRow (.entry (entry.id.getD env.newUuid))
        (fun db => (db.drawerEntries.get (entry.id.getD env.newUuid)).isSome)
        (.clientIdReused (entry.id.getD env.newUuid)) fun db =>
          db.insertEntry (entry.id.getD env.newUuid) ⟨r.1, entry.type, entry.amountSatang⟩
      return (entry.id.getD env.newUuid, ⟨r.1, entry.type, entry.amountSatang⟩) :
        Prog (EntryId × DrawerEntry))) H'' fun _ _ => True := by
    intro H''
    refine disciplined_bind_insertRow (fun s s' hs => ?_) (respects_insertEntry List.mem_cons_self)
      trivial
    rw [View.entry.inj hs]
  refine disciplined_bind_whenever (fun _ => ?_) fun _ => hinsert _
  exact disciplined_bind_query (guarded_expectedCash hr) fun _ => disciplined_require fun _ => hinsert _

theorem disciplined_addEntry (env : Env) (actor : Actor) (entry : DrawerEntryBody)
    (offlineReplay : Bool) :
    Disciplined agree (addEntry env actor entry offlineReplay) H fun _ _ => True := by
  rw [addEntry]
  cases entry.id with
  | none => exact disciplined_addNewEntry env actor.deviceId entry offlineReplay
  | some id =>
      refine disciplined_bind_glance fun existing => ?_
      cases existing with
      | none => exact disciplined_addNewEntry env actor.deviceId entry offlineReplay
      | some row => exact disciplined_bind_require fun _ => trivial

end

end Server

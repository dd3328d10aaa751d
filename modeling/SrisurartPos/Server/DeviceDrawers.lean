import SrisurartPos.Server.DrawerOpens
import SrisurartPos.Server.DrawerList
import SrisurartPos.Txn.Constant
import SrisurartPos.Txn.Schedule

/-! # The drawers of a device (`ShiftsService.open`, `DevicesService.retire`)

An open looks for the client's id while it holds the device's row. What the device itself has opened
it finds; what another device has opened meanwhile it would not, and would archive a drawer for
nothing. That no other device opens drawers is `one_pos_per_tenant`: the guards let only the till
through, and there is one till that is not retired. -/

namespace Server

open Txn

namespace Db

/-- The device is on file, and not retired. -/
def Live (d : DeviceId) (db : Db) : Prop :=
  ∃ row, db.devices.get d = some row ∧ row.retired = false

/-- The device is on file as retired. -/
def Retired (d : DeviceId) (db : Db) : Prop :=
  ∃ row, db.devices.get d = some row ∧ row.retired = true

/-- How often the owner is told that nobody counted the drawer. -/
def uncounted (k : ShiftId) (db : Db) : Nat := db.reviewItems.count ⟨.shiftUncounted, k⟩

/-- The database once the owner's list has the items `flag` as well. -/
def flagged (flag : List ReviewItem) (db : Db) : Db :=
  { db with reviewItems := db.reviewItems ++ flag }

/-- Which drawers are another device's than `d`. -/
def others (d : DeviceId) (db : Db) (k : ShiftId) : Bool :=
  (db.shifts.get k).any fun row => row.deviceId ≠ d

end Db

/-! ## What an open does -/

/-- What `ShiftsService.open` does when it finds out whether the client's id is on file. -/
inductive DrawerOpened (d : DeviceId) (clientId : Option ShiftId) (k : ShiftId) (s : Db) :
    Db → Prop where
  | there : clientId = some k → (s.shifts.get k).isSome = true → DrawerOpened d clientId k s s
  | opened (cash : Int) (openedAt : Nat) : s.Live d → s.shifts.get k = none →
      DrawerOpened d clientId k s ((s.archiveActive d).insertShift k (newShift d cash openedAt))

section
variable {H : Held LockKey} {s s' : Db} {d : DeviceId} {clientId : Option ShiftId} {k : ShiftId}
  {env : Env} {input : OpenShiftInput} {ag : LockKey × Mode → Db → Db → Prop}

theorem get_archiveActive_none (h : (s.archiveActive d).shifts.get k = none) :
    s.shifts.get k = none := by
  cases hrow : s.shifts.get k with
  | none => rfl
  | some row =>
      have := (kept_archiveActive s d).shift k (by rw [hrow]; rfl)
      rw [h] at this
      cases this

theorem get_archiveActive_isSome (h : ((s.archiveActive d).shifts.get k).isSome = true) :
    (s.shifts.get k).isSome = true := by
  obtain ⟨row, hrow⟩ := Option.isSome_iff_exists.mp h
  have hmem : k ∈ (s.archiveActive d).drawersOf row.deviceId := Db.mem_drawersOf.mpr ⟨row, hrow, rfl⟩
  rw [drawersOf_archiveActive] at hmem
  obtain ⟨row', hrow', -⟩ := Db.mem_drawersOf.mp hmem
  rw [hrow']
  rfl

/-- Once its one drawer is archived, the device has none. -/
theorem activeShifts_archiveActive_self (hone : s.OneDrawer) :
    (s.archiveActive d).activeShifts d = [] := by
  cases hhead : ((s.archiveActive d).activeShifts d).head? with
  | none => exact List.head?_eq_none_iff.mp hhead
  | some j =>
      have := crowded_of_archived hhead
      have := hone d
      omega

/-- An open of a drawer that is not on file inserts it. -/
theorem wpHeld_openNew_free (hone : s.OneDrawer) (hlive : s.Live d)
    (hd : (.device d, .update) ∈ H) (hfree : ∀ id, input.id = some id → s.shifts.get id = none) :
    wpHeld ag (openNew env d input) H s fun _ _ s' =>
      DrawerOpened d input.id (input.id.getD env.newUuid) s s' := by
  refine wpHeld_bind.mpr (wpHeld_of_wp (wp_archive hd fun H' hH hcov => ?_))
  refine wpHeld_bind_selectFor (wpHeld_bind_query ?_)
  rw [activeShifts_archiveActive_self hone]
  cases hthere : (s.archiveActive d).shifts.get (input.id.getD env.newUuid) with
  | none =>
      exact .opened input.startingCashSatang (input.openedAt.getD env.now) hlive (get_archiveActive_none hthere)
  | some winner =>
      cases hid : input.id with
      | none => trivial
      | some k =>
          rw [hid, Option.getD_some] at hthere
          have hkept := get_archiveActive_isSome (by rw [hthere]; rfl)
          rw [hfree k hid] at hkept
          cases hkept

/-- **An open that is told the truth about the client's id** leaves the drawer that is there, or
archives the device's drawer and opens one that is not. -/
theorem wpHeld_openShift_told {actor : Actor} (hone : s.OneDrawer)
    (htold : ∀ id, input.id = some id → ∀ s₀ s₁, ag (.device actor.deviceId, .update) s₀ s₁ →
      (s₀.shifts.get id).isSome = (s₁.shifts.get id).isSome) :
    wpHeld ag (openShift env actor input) H s fun _ _ s' =>
      DrawerOpened actor.deviceId input.id (input.id.getD env.newUuid) s s' := by
  refine wpHeld_bind_selectFor (wpHeld_bind_orFail fun device hdevice => ?_)
  refine wpHeld_bind_require fun hretired => ?_
  have hlive : s.Live actor.deviceId := ⟨device, hdevice, hretired⟩
  cases hid : input.id with
  | none =>
      have hopen : wpHeld ag (openNew env actor.deviceId input)
          ((.device actor.deviceId, .update) :: H) s _ :=
        wpHeld_openNew_free hone hlive List.mem_cons_self fun id hsome => by rw [hid] at hsome; cases hsome
      rw [hid] at hopen
      exact hopen
  | some id =>
      refine wpHeld_bind_glance fun s₀ hs₀ => ?_
      have hsame := htold id hid s₀ s (hs₀ _ List.mem_cons_self)
      cases hexisting : s₀.shifts.get id with
      | none =>
          rw [hexisting] at hsame
          have hfree : s.shifts.get id = none := by simpa using hsame.symm
          have hopen : wpHeld ag (openNew env actor.deviceId input)
              ((.device actor.deviceId, .update) :: H) s _ :=
            wpHeld_openNew_free hone hlive List.mem_cons_self fun id' hsome => by
              obtain rfl := Option.some.inj (hid.symm.trans hsome)
              exact hfree
          rw [hid] at hopen
          exact hopen
      | some row =>
          rw [hexisting] at hsame
          exact wpHeld_bind_require fun _ => .there rfl hsame.symm

/-- A device that is retired opens nothing. -/
theorem wpHeld_openShift_dead {actor : Actor} {Q : ShiftId × Shift → Held LockKey → Db → Prop}
    (hdead : ¬s.Live actor.deviceId) : wpHeld ag (openShift env actor input) H s Q := by
  refine wpHeld_bind_selectFor (wpHeld_bind_orFail fun device hdevice => ?_)
  exact wpHeld_bind_require fun hretired => absurd ⟨device, hdevice, hretired⟩ hdead

/-! ## The transaction of an open -/

/-- What a push may write on the owner's list before it opens the drawer: that the till dates it too
far ahead. -/
def Op.dateFlags : Op → List ReviewItem
  | .push _ _ _ _ (.shiftOpen input _ opId) => [⟨.dateFlag, input.id.getD opId⟩]
  | _                                       => []

/-- What the transaction of an open does, with the date flags `due`. -/
inductive Opening (d : DeviceId) (clientId : Option ShiftId) (k : ShiftId) (due : List ReviewItem)
    (s : Db) : Db → Prop where
  | kept (keys : Table Nat KeyRow) : Opening d clientId k due s (s.withKeys keys)
  | there (keys : Table Nat KeyRow) (flag : List ReviewItem) : clientId = some k →
      (s.shifts.get k).isSome = true → flag ⊆ due →
      Opening d clientId k due s ((s.flagged flag).withKeys keys)
  | opened (keys : Table Nat KeyRow) (flag : List ReviewItem) (cash : Int) (openedAt : Nat) : s.Live d →
      s.shifts.get k = none → flag ⊆ due →
      Opening d clientId k due s
        ((((s.flagged flag).archiveActive d).insertShift k (newShift d cash openedAt)).withKeys keys)

/-- **The rule of opens**, of the counter and of a push: besides its key the transaction writes what
`ShiftsService.open` writes, after a flag perhaps. -/
theorem wpHeld_open {op : Op} {Q : Db → Prop} (hop : op.opening = some (d, clientId, k))
    (hkept : ∀ keys, Q (s.withKeys keys))
    (hwork : ∀ env actor input H' flag keys, actor.deviceId = d → input.id = clientId →
      input.id.getD env.newUuid = k → flag ⊆ op.dateFlags →
        wpHeld ag (openShift env actor input) H' ((s.flagged flag).withKeys keys) fun _ _ s' =>
          ∀ keys, Q (s'.withKeys keys)) :
    wpHeld ag (prog op) [] s fun _ _ s' => Q s' := by
  have hnoflag : ∀ keys, (s.flagged []).withKeys keys = s.withKeys keys := by
    intro keys
    simp [Db.flagged, Db.withKeys]
  have hself : ∃ keys, s = s.withKeys keys := ⟨s.idempotencyKeys, rfl⟩
  have hstep : ∀ t keys, (∃ keys, t = s.withKeys keys) → ∃ keys', t.withKeys keys = s.withKeys keys' := by
    rintro t keys ⟨keys₀, rfl⟩
    exact ⟨keys, rfl⟩
  have hdone : ∀ t, (∃ keys, t = s.withKeys keys) → Q t := by
    rintro t ⟨keys, rfl⟩
    exact hkept keys
  cases op with
  | post env actor key requestHash req =>
      cases req with
      | openShift input =>
          obtain ⟨rfl, hrest⟩ := Prod.mk.inj (Option.some.inj hop)
          obtain ⟨rfl, rfl⟩ := Prod.mk.inj hrest
          refine wpHeld_runIdempotent_keys hself hstep hdone ?_
          rintro H' t ⟨keys, rfl⟩ -
          show wpHeld ag (Tx.ofExcept (parseCash _ _) >>= _) _ _ _
          cases parseCash input.startingCashSatang "startingCash" with
          | error e => trivial
          | ok u =>
              show wpHeld ag (openShift env actor (input.at none) >>= _) _ _ _
              have hopen := hwork env actor (input.at none) H' [] keys rfl rfl rfl (List.nil_subset _)
              rw [hnoflag] at hopen
              exact wpHeld_bind.mpr hopen
      | _ => cases hop
  | push env actor key requestHash op =>
      cases op with
      | shiftOpen input openedAt opId =>
          obtain ⟨rfl, hrest⟩ := Prod.mk.inj (Option.some.inj hop)
          obtain ⟨rfl, rfl⟩ := Prod.mk.inj hrest
          refine wpHeld_processSingleOp_keys hself hstep hdone
            (fun H' t ht => wp_probe_open fun _ => ht) ?_
          rintro H' t ⟨keys, rfl⟩
          refine wpHeld_bind_glance fun s₀ _ => ?_
          show wpHeld ag (flagFutureOpen _ _ _ >>= _) _ _ _
          -- the drawer is opened as of the date that the clock leaves
          let dated := input.at (clampDate env.now none openedAt)
          rw [flagFutureOpen, Tx.whenever]
          split
          · show wpHeld ag (openShift env actor dated >>= _) _ _ _
            exact wpHeld_bind.mpr (hwork env actor dated H' [⟨.dateFlag, input.id.getD opId⟩] keys
              rfl rfl rfl (List.Subset.refl _))
          · show wpHeld ag (openShift env actor dated >>= _) _ _ _
            have hopen := hwork env actor dated H' [] keys rfl rfl rfl (List.nil_subset _)
            rw [hnoflag] at hopen
            exact wpHeld_bind.mpr hopen
      | _ => cases hop
  | reportUnsynced d n => cases hop
  | cleanup now => cases hop

theorem archiveActive_withKeys (s : Db) (keys : Table Nat KeyRow) (d : DeviceId) :
    (s.withKeys keys).archiveActive d = (s.archiveActive d).withKeys keys := by
  have hactive : (s.withKeys keys).activeShifts d = s.activeShifts d := rfl
  have hshifts : (s.withKeys keys).shifts = s.shifts := rfl
  simp only [Db.archiveActive, hactive, hshifts]
  cases (s.activeShifts d).head? with
  | none => rfl
  | some k =>
      dsimp only
      cases s.shifts.get k with
      | none => rfl
      | some row =>
          dsimp only
          split <;> rfl

/-- **What an open does that is told the truth about the client's id.** -/
theorem wpHeld_opening {op : Op} (hone : s.OneDrawer) (hop : op.opening = some (d, clientId, k))
    (htold : ∀ id, clientId = some id → ∀ s₀ s₁, ag (.device d, .update) s₀ s₁ →
      (s₀.shifts.get id).isSome = (s₁.shifts.get id).isSome) :
    wpHeld ag (prog op) [] s fun _ _ s' => Opening d clientId k op.dateFlags s s' := by
  refine wpHeld_open hop .kept ?_
  rintro env actor input H' flag keys rfl rfl rfl hflag
  have hone' : ((s.flagged flag).withKeys keys).OneDrawer := hone
  refine wpHeld_mono (wpHeld_openShift_told hone' htold) ?_
  rintro r H'' s' hopened keys'
  cases hopened with
  | there hid hthere => exact .there keys' flag hid hthere hflag
  | opened cash openedAt hlive hfree =>
      rw [archiveActive_withKeys]
      exact .opened keys' flag cash openedAt hlive hfree hflag

/-- A device that is retired opens nothing. -/
theorem wpHeld_dead {op : Op} (hdead : ¬s.Live d) (hop : op.opening = some (d, clientId, k)) :
    wpHeld ag (prog op) [] s fun _ _ s' => Opening d clientId k op.dateFlags s s' := by
  refine wpHeld_open hop .kept ?_
  rintro env actor input H' flag keys rfl - - -
  exact wpHeld_openShift_dead hdead

/-- An open that finds its drawer on file leaves everything but its key. -/
theorem wpHeld_open_there {op : Op} (hop : op.opening = some (d, some k, k))
    (hthere : (s.shifts.get k).isSome = true)
    (htold : ∀ lk s₀ s₁, ag lk s₀ s₁ → (s₀.shifts.get k).isSome = (s₁.shifts.get k).isSome) :
    wpHeld ag (prog op) [] s fun _ _ s' => ∃ keys, s' = s.withKeys keys := by
  have hself : ∃ keys, s = s.withKeys keys := ⟨s.idempotencyKeys, rfl⟩
  have hstep : ∀ t keys, (∃ keys, t = s.withKeys keys) → ∃ keys', t.withKeys keys = s.withKeys keys' := by
    rintro t keys ⟨keys₀, rfl⟩
    exact ⟨keys, rfl⟩
  have hfound : ∀ {lk} {H' : Held LockKey} {s₀ : Db} {keys}, lk ∈ H' →
      (∀ lk ∈ H', ag lk s₀ (s.withKeys keys)) → ∃ row, s₀.shifts.get k = some row := by
    intro lk H' s₀ keys hlk hag
    have hsame := htold lk s₀ (s.withKeys keys) (hag lk hlk)
    exact Option.isSome_iff_exists.mp (hsame.trans hthere)
  cases op with
  | post env actor key requestHash req =>
      cases req with
      | openShift input =>
          obtain ⟨-, hid, -⟩ : actor.deviceId = d ∧ input.id = some k ∧ _ := by
            simpa [Op.opening] using hop
          refine wpHeld_runIdempotent_keys hself hstep (fun t ht => ht) ?_
          rintro H' t ⟨keys, rfl⟩ -
          show wpHeld ag (Tx.ofExcept (parseCash _ _) >>= _) _ _ _
          cases parseCash input.startingCashSatang "startingCash" with
          | error e => trivial
          | ok u =>
              show wpHeld ag (openShift env actor (input.at none) >>= _) _ _ _
              refine wpHeld_bind.mpr ?_
              refine wpHeld_bind_selectFor (wpHeld_bind_orFail fun device _ => ?_)
              refine wpHeld_bind_require fun _ => ?_
              rw [show (input.at none).id = some k from hid]
              refine wpHeld_bind_glance fun s₀ hs₀ => ?_
              obtain ⟨row, hrow⟩ := hfound List.mem_cons_self hs₀
              rw [hrow]
              exact wpHeld_bind_require fun _ keys' => ⟨keys', rfl⟩
      | _ => cases hop
  | push env actor key requestHash op =>
      cases op with
      | shiftOpen input openedAt opId =>
          obtain ⟨-, hid, -⟩ : actor.deviceId = d ∧ input.id = some k ∧ _ := by
            simpa [Op.opening] using hop
          refine wpHeld_processSingleOp_probed hself hstep (fun t ht => ht)
            (fun H' t ht => wp_probe_open fun _ => ht) ?_
          rintro H' t ⟨keys, rfl⟩ hkey
          simp only [checkClientIdReplay, hid]
          refine wpHeld_bind_glance fun s₀ hs₀ => ?_
          obtain ⟨row, hrow⟩ := hfound hkey hs₀
          rw [hrow]
          exact wpHeld_bind_require fun _ => ⟨⟨keys, rfl⟩, fun hnone => by cases hnone⟩
      | _ => cases hop
  | reportUnsynced d n => cases hop
  | cleanup now => cases hop

/-! ### What it leaves -/

/-- Archiving writes the device's first active drawer alone. -/
theorem get_archiveActive (j : ShiftId) : (s.archiveActive d).shifts.get j =
    if (s.activeShifts d).head? = some j then
      (s.shifts.get j).map fun row =>
        { row with isActive := false, autoArchived := row.autoArchived || !row.closed }
    else s.shifts.get j := by
  rw [Db.archiveActive]
  cases hhead : (s.activeShifts d).head? with
  | none => simp
  | some i =>
      obtain ⟨row, hrow, -, -⟩ := Db.mem_activeShifts.mp (List.mem_of_mem_head? hhead)
      have hget : (s.archiveShift i (!row.closed)).shifts.get j = if i = j then
          (s.shifts.get j).map fun row =>
            { row with isActive := false, autoArchived := row.autoArchived || !row.closed }
          else s.shifts.get j := by
        show (s.shifts.modify i _).get j = _
        rw [Table.get_modify]
        by_cases hij : j = i
        · subst hij
          simp [hrow]
        · rw [if_neg hij, if_neg (Ne.symm hij)]
      simp only [hrow, Option.some.injEq]
      split <;> exact hget

/-- It files a review item for that drawer, where nobody has counted it. -/
theorem uncounted_archiveActive (j : ShiftId) : (s.archiveActive d).uncounted j =
    s.uncounted j + if (s.activeShifts d).head? = some j ∧ (s.shifts.get j).any (!·.closed) = true
      then 1 else 0 := by
  rw [Db.archiveActive]
  cases hhead : (s.activeShifts d).head? with
  | none => simp
  | some i =>
      obtain ⟨row, hrow, -, -⟩ := Db.mem_activeShifts.mp (List.mem_of_mem_head? hhead)
      simp only [hrow, Option.some.injEq]
      by_cases hclosed : row.closed = false
      · rw [if_pos hclosed]
        show (s.reviewItems ++ [(⟨.shiftUncounted, i⟩ : ReviewItem)]).count _ = _
        rw [List.count_append, List.count_singleton]
        by_cases hij : i = j
        · subst hij
          simp [hrow, hclosed, Db.uncounted]
        · simp [hij, Db.uncounted]
      · rw [if_neg hclosed]
        by_cases hij : i = j
        · subst hij
          simp only [Bool.not_eq_false] at hclosed
          simp [hrow, hclosed, Db.archiveShift, Db.uncounted]
        · simp [hij, Db.archiveShift, Db.uncounted]

theorem Op.dateFlags_kind {op : Op} {r : ReviewItem} (h : r ∈ op.dateFlags) : r.kind = .dateFlag := by
  cases op with
  | push env actor key requestHash op =>
      cases op with
      | shiftOpen input openedAt opId =>
          rw [List.mem_singleton.mp h]
      | _ => cases h
  | _ => cases h

theorem uncounted_flagged {op : Op} {flag : List ReviewItem} (hflag : flag ⊆ op.dateFlags)
    (j : ShiftId) : (s.flagged flag).uncounted j = s.uncounted j := by
  have hnone : flag.count ⟨.shiftUncounted, j⟩ = 0 := by
    refine List.count_eq_zero.mpr fun hmem => ?_
    cases Op.dateFlags_kind (hflag hmem)
  show (s.reviewItems ++ flag).count _ = _
  rw [List.count_append, hnone]
  rfl

section
variable {op : Op} (h : Opening d clientId k op.dateFlags s s')
include h

theorem Opening.devices : s'.devices = s.devices := by
  cases h with
  | kept keys => rfl
  | there keys flag hid hthere hflag => rfl
  | opened keys flag cash openedAt hlive hfree hflag =>
      show ((s.flagged flag).archiveActive d).devices = _
      rw [Db.archiveActive_eq]
      rfl

/-- A drawer that is on file is left alone, but for the date flags. -/
theorem Opening.found (hthere : (s.shifts.get k).isSome = true) :
    ∃ keys flag, flag ⊆ op.dateFlags ∧ s' = (s.flagged flag).withKeys keys := by
  cases h with
  | kept keys => exact ⟨keys, [], List.nil_subset _, by simp [Db.flagged]⟩
  | there keys flag _ _ hflag => exact ⟨keys, flag, hflag, rfl⟩
  | opened keys flag cash openedAt hlive hfree hflag =>
      rw [hfree] at hthere
      cases hthere

/-- It archives a drawer of its own device only, and says so when nobody counted it. -/
theorem Opening.archives {j : ShiftId} {row : Shift} (hrow : s.shifts.get j = some row)
    (hactive : row.isActive = true) (hafter : (s'.shifts.get j).any (!·.isActive) = true) :
    row.deviceId = d ∧ s'.uncounted j = s.uncounted j + if row.closed = false then 1 else 0 := by
  have hstill : ¬(s.shifts.get j).any (!·.isActive) = true := by simp [hrow, hactive]
  cases h with
  | kept keys => exact absurd hafter hstill
  | there keys flag hid hthere hflag => exact absurd hafter hstill
  | opened keys flag cash openedAt hlive hfree hflag =>
      have hne : j ≠ k := by
        rintro rfl
        rw [hrow] at hfree
        cases hfree
      have hbefore : ((s.flagged flag).archiveActive d).shifts.get j =
          if (s.activeShifts d).head? = some j then (s.shifts.get j).map fun row =>
            { row with isActive := false, autoArchived := row.autoArchived || !row.closed }
          else s.shifts.get j := get_archiveActive j
      have hcount : ((s.flagged flag).archiveActive d).uncounted j = (s.flagged flag).uncounted j +
          if (s.activeShifts d).head? = some j ∧ (s.shifts.get j).any (!·.closed) = true
            then 1 else 0 := uncounted_archiveActive j
      rw [uncounted_flagged hflag, hrow] at hcount
      change ((((s.flagged flag).archiveActive d).shifts.insert k _).get j).any _ = true at hafter
      rw [Table.get_insert_ne _ hne, hbefore] at hafter
      split at hafter
      · rename_i hhead
        obtain ⟨row', hrow', hdev, -⟩ := Db.mem_activeShifts.mp (List.mem_of_mem_head? hhead)
        obtain rfl := Option.some.inj (hrow.symm.trans hrow')
        refine ⟨hdev, hcount.trans ?_⟩
        simp [hhead]
      · exact absurd hafter hstill

/-- A drawer that is not active is not archived again. -/
theorem Opening.uncounted {j : ShiftId} (hnot : ∀ row, s.shifts.get j = some row →
    row.isActive = false) : s'.uncounted j = s.uncounted j := by
  cases h with
  | kept keys => rfl
  | there keys flag hid hthere hflag => exact uncounted_flagged hflag j
  | opened keys flag cash openedAt hlive hfree hflag =>
      have hcount := uncounted_archiveActive (s := s.flagged flag) (d := d) j
      rw [uncounted_flagged hflag, if_neg, Nat.add_zero] at hcount
      · exact hcount
      · rintro ⟨hhead, -⟩
        obtain ⟨row, hrow, -, hactive⟩ := Db.mem_activeShifts.mp (List.mem_of_mem_head? hhead)
        rw [hnot row hrow] at hactive
        cases hactive

/-- What the owner is told of a drawer anew is that it is archived. -/
theorem Opening.told (j : ShiftId) :
    s'.uncounted j = s.uncounted j ∨ (s'.shifts.get j).any (!·.isActive) = true := by
  cases h with
  | kept keys => exact .inl rfl
  | there keys flag hid hthere hflag => exact .inl (uncounted_flagged hflag j)
  | opened keys flag cash openedAt hlive hfree hflag =>
      have hcount := uncounted_archiveActive (s := s.flagged flag) (d := d) j
      rw [uncounted_flagged hflag] at hcount
      by_cases hhead : ((s.flagged flag).activeShifts d).head? = some j
      · obtain ⟨row, hrow, -, -⟩ := Db.mem_activeShifts.mp (List.mem_of_mem_head? hhead)
        have hne : j ≠ k := by
          rintro rfl
          have hsome : s.shifts.get j = some row := hrow
          rw [hsome] at hfree
          cases hfree
        right
        show ((((s.flagged flag).archiveActive d).shifts.insert k _).get j).any _ = true
        rw [Table.get_insert_ne _ hne, get_archiveActive, if_pos hhead, hrow]
        rfl
      · rw [if_neg fun h => hhead h.1, Nat.add_zero] at hcount
        exact .inl hcount

/-- Every drawer that becomes active is the device's, which is in use. -/
theorem Opening.active {d' : DeviceId} (hd : ¬s.Live d') : s'.activeShifts d' ⊆ s.activeShifts d' := by
  cases h with
  | kept keys => exact List.Subset.refl _
  | there keys flag hid hthere hflag => exact List.Subset.refl _
  | opened keys flag cash openedAt hlive hfree hflag =>
      have hne : d ≠ d' := by
        rintro rfl
        exact hd hlive
      have hfree' : ((s.flagged flag).archiveActive d).shifts.get k = none := by
        have := get_archiveActive (s := s.flagged flag) (d := d) k
        rw [this]
        split
        · show (s.shifts.get k).map _ = none
          rw [hfree]
          rfl
        · exact hfree
      show (((s.flagged flag).archiveActive d).insertShift k (newShift d cash openedAt)).activeShifts d' ⊆ _
      rw [activeShifts_insertShift hfree', activeShifts_archiveActive]
      simp only [newShift, hne, decide_false, Bool.false_and, if_false, List.append_nil,
        Bool.false_eq_true]
      exact List.filter_subset_self _

end

/-! ### Which errors it ends in -/

theorem tame_archive : Tame (fun _ : Db => ()) (fun _ => False) (archive d) := by
  refine (tame_query _).bind fun active => ?_
  cases active with
  | none => trivial
  | some j =>
      refine (tame_selectFor _ _ _).bind fun row => ?_
      cases row with
      | none => trivial
      | some shift =>
          exact ⟨fun _ => rfl, Tame.whenever (tame_update fun _ => rfl)⟩

/-- A unique violation is the primary key's, on an id the server has drawn itself. -/
def Violates (clientId : Option ShiftId) (k : ShiftId) (s : Db) (e : ServerError) : Prop :=
  e = .uniqueViolation → clientId = none ∧ (s.shifts.get k).isSome = true

/-- A new drawer fails on a unique index only where its id is taken, or the device has a drawer. -/
theorem wp_openNew_violates (hone : s.OneDrawer) (hd : (.device d, .update) ∈ H) :
    wp (openNew env d input) H s (Violates input.id (input.id.getD env.newUuid) s)
      fun _ _ _ => True := by
  have harchive : wp (archive d) H s (Violates input.id (input.id.getD env.newUuid) s)
      fun _ _ s' => s' = s.archiveActive d := by
    refine wp_mono (wp_and (wp_archive (Q := fun _ _ s' => s' = s.archiveActive d) hd
      fun _ _ _ => rfl) tame_archive.wp) (fun e he => he.2.elim) fun _ _ _ h => h.1
  refine wp_seq harchive ?_
  rintro _ H' _ rfl
  refine wp_bind_selectFor (wp_bind_query ?_)
  rw [activeShifts_archiveActive_self hone]
  cases hthere : (s.archiveActive d).shifts.get (input.id.getD env.newUuid) with
  | none => trivial
  | some winner =>
      cases hid : input.id with
      | some id => trivial
      | none =>
          rw [hid] at hthere
          exact fun _ => ⟨rfl, get_archiveActive_isSome (by rw [hthere]; rfl)⟩

/-- The same of the whole request. -/
theorem wp_openShift_violates {actor : Actor} (hone : s.OneDrawer) :
    wp (openShift env actor input) H s (Violates input.id (input.id.getD env.newUuid) s)
      fun _ _ _ => True := by
  refine wp_bind_selectFor (wp_bind_orFail (fun device _ => ?_) fun _ => nofun)
  refine wp_bind_require (fun _ => ?_) fun _ => nofun
  have hnew : wp (openNew env actor.deviceId input) ((.device actor.deviceId, .update) :: H) s
      (Violates input.id (input.id.getD env.newUuid) s) fun _ _ _ => True :=
    wp_openNew_violates hone List.mem_cons_self
  cases hid : input.id with
  | none =>
      rw [hid] at hnew
      exact hnew
  | some id =>
      refine wp_bind_glance fun s₀ => ?_
      cases s₀.shifts.get id with
      | none =>
          rw [hid] at hnew
          exact hnew
      | some row => exact wp_bind_require (fun _ => trivial) fun _ => nofun

/-- **No open violates the index on the active drawers.** -/
theorem wp_open_violates {op : Op} (hone : s.OneDrawer) (hop : op.opening = some (d, clientId, k)) :
    wp (prog op) [] s (Violates clientId k s) fun _ _ _ => True := by
  have hother : ∀ e, e ≠ .uniqueViolation → Violates clientId k s e := fun e hne he => absurd he hne
  -- the drawers are all that the open looks at
  have hopen : ∀ {env actor input H'} {t : Db}, t.shifts = s.shifts → input.id = clientId →
      input.id.getD env.newUuid = k →
        wp (openShift env actor input) H' t (Violates clientId k s) fun _ _ _ => True := by
    rintro env actor input H' t hshifts rfl rfl
    have hone' : t.OneDrawer := by
      intro d'
      rw [Db.activeShifts, hshifts]
      exact hone d'
    refine wp_mono (wp_openShift_violates hone') (fun e he hviolates => ?_) fun _ _ _ h => h
    rw [← hshifts]
    exact he hviolates
  -- an amount that is refused is a check of the request
  have hcash : ∀ c field e, parseCash c field = .error e → Violates clientId k s e := by
    intro c field e he
    exact hother e (Errors.check (P := (· ≠ .uniqueViolation)) (fun _ h => by cases h) _ _ e he)
  have hcomplete : ∀ {key : Nat} {body : Reply} {H'} {t : Db},
      wp (complete key body >>= fun _ => return body) H' t (Violates clientId k s)
        fun _ _ _ => True := by
    intro key body H' t
    refine Tame.last (f := Db.shifts) ?_ hother
    exact (tame_complete (fun _ _ => rfl) (fun h => by cases h) key body).bind fun _ => trivial
  cases op with
  | post env actor key requestHash req =>
      cases req with
      -- the route: the claim writes no drawer, then the open judges
      | openShift input =>
          obtain ⟨rfl, hrest⟩ := Prod.mk.inj (Option.some.inj hop)
          obtain ⟨rfl, rfl⟩ := Prod.mk.inj hrest
          refine (tame_claim (f := Db.shifts) (fun _ _ => rfl) (fun h => by cases h) env key _ requestHash).seq
            hother fun out H₁ s₁ h₁ => ?_
          cases out with
          | reused => exact hother _ (fun h => by cases h)
          | replay body => trivial
          | claimed =>
              refine wp_seq (R := fun _ _ _ => True) ?_ fun body H₂ s₂ _ => hcomplete
              refine wp_bind_ofExcept (fun _ _ => ?_) (hcash _ _)
              exact wp_seq (hopen h₁ rfl rfl) fun _ _ _ _ => trivial
      | _ => cases hop
  | push env actor key requestHash op =>
      cases op with
      | shiftOpen input openedAt opId =>
          obtain ⟨rfl, hrest⟩ := Prod.mk.inj (Option.some.inj hop)
          obtain ⟨rfl, rfl⟩ := Prod.mk.inj hrest
          -- the look for a shift of this id writes nothing
          have hprobe : Tame Db.shifts (· ≠ .uniqueViolation)
              (checkClientIdReplay (.shiftOpen input openedAt opId)) := by
            simp only [checkClientIdReplay]
            cases input.id with
            | none => trivial
            | some id =>
                refine (tame_glance _).bind fun row => ?_
                cases row with
                | none => trivial
                | some row => exact (tame_require (fun h => by cases h)).bind fun _ => trivial
          refine (tame_claim (f := Db.shifts) (fun _ _ => rfl) (fun h => by cases h) env key _ requestHash).seq
            hother fun out H₁ s₁ h₁ => ?_
          cases out with
          | replay body => trivial
          | reused =>
              -- a key used before only looks at what it stored
              have hown : Tame Db.shifts (· ≠ .uniqueViolation)
                  (replayKeyOfSameDocument key (.shiftOpen input openedAt opId)) := by
                rw [replayKeyOfSameDocument]
                cases (SyncOp.shiftOpen input openedAt opId).replayId with
                | none => trivial
                | some id =>
                    refine (tame_glance _).bind fun row => ?_
                    cases row with
                    | none => trivial
                    | some stored =>
                        dsimp only
                        split
                        · trivial
                        · exact hprobe
              refine hown.seq hother fun own H₂ s₂ _ => ?_
              cases own with
              | some r => trivial
              | none => exact wp_bind_ofExcept (fun _ _ => hother _ (fun h => by cases h)) (hcash _ _)
          | claimed =>
              refine hprobe.seq hother fun existing H₂ s₂ h₂ => ?_
              cases existing with
              | some r => exact hcomplete
              | none =>
                  refine wp_bind_ofExcept (fun _ _ => ?_) (hcash _ _)
                  refine wp_seq (R := fun _ _ _ => True) ?_ fun r H₃ s₃ _ => hcomplete
                  refine wp_bind_glance fun s₀ => ?_
                  -- the date flag is a review item
                  have hflag : Tame Db.shifts (· ≠ .uniqueViolation)
                      (flagFutureOpen env (input.id.getD opId) openedAt) :=
                    Tame.whenever (tame_update fun _ => rfl)
                  refine hflag.seq hother fun _ H₃ s₃ h₃ => ?_
                  exact wp_seq (hopen (h₃.trans (h₂.trans h₁)) rfl rfl) fun _ _ _ _ => trivial
      | _ => cases hop
  | reportUnsynced d n => cases hop
  | cleanup now => cases hop

/-! ### What it makes of what is there

An open writes keys, items on the owner's list and drawers. A view of the database that no key, item
or archived drawer matters to is a view the rest of the open cannot tell from another. -/

section
variable {γ : Type} {f : Db → γ}
  (hkeys : ∀ (db : Db) keys, f { db with idempotencyKeys := keys } = f db)
  (hreview : ∀ (db : Db) r, f (db.addReview r) = f db)
  (harchive : ∀ (db : Db) j b, f (db.archiveShift j b) = f db)
  (hinsert : ∀ k cash openedAt s s', f s = f s' →
    f (s.insertShift k (newShift d cash openedAt)) = f (s'.insertShift k (newShift d cash openedAt)))

include hreview harchive in
theorem leaves_archive : Leaves f (archive d) := by
  refine Leaves.bind (fun _ => trivial) fun active => ?_
  cases active with
  | none => trivial
  | some j =>
      refine (leaves_selectFor _ _ _).bind fun row => ?_
      cases row with
      | none => trivial
      | some shift => exact ⟨fun db => harchive db j _, Leaves.whenever ⟨fun db => hreview db _, trivial⟩⟩

include hinsert in
theorem tracks_insertShiftRow {cash : Int} {openedAt : Nat} :
    Tracks f (insertShiftRow d clientId k (newShift d cash openedAt)) := by
  refine (leaves_selectFor _ _ _).tracks.bind fun there => ?_
  refine Tracks.bind (p := Tx.query _) (fun _ => trivial) fun active => ?_
  have hwinner : ∀ j, Tracks f (do
      let winner ← Tx.glance fun db : Db => db.shifts.get j
      let winner ← Tx.orFail winner ServerError.vanished
      return (j, winner) : Prog (ShiftId × Shift)) := fun j =>
    (leaves_glance _).tracks.bind fun winner => (leaves_orFail _ _).tracks.bind fun _ => trivial
  cases there with
  | none =>
      cases active with
      | none => exact ⟨hinsert k cash openedAt, trivial⟩
      | some j =>
          cases clientId with
          | none => exact hwinner j
          | some _ => trivial
  | some winner =>
      cases clientId with
      | some _ => trivial
      | none =>
          cases active with
          | none => trivial
          | some j => exact hwinner j

include hreview harchive hinsert in
theorem tracks_openShift {actor : Actor} (hd : actor.deviceId = d) :
    Tracks f (openShift env actor input) := by
  subst hd
  refine (leaves_selectFor _ _ _).tracks.bind fun row => ?_
  refine (leaves_orFail _ _).tracks.bind fun device => (leaves_require _ _).tracks.bind fun _ => ?_
  have hnew : Tracks f (openNew env actor.deviceId input) :=
    (leaves_archive hreview harchive).tracks.bind fun _ => tracks_insertShiftRow hinsert
  cases input.id with
  | none => exact hnew
  | some id =>
      refine (leaves_glance _).tracks.bind fun existing => ?_
      cases existing with
      | none => exact hnew
      | some row => exact (leaves_require _ _).tracks.bind fun _ => trivial

include hkeys hreview harchive hinsert in
/-- The transaction that opens a drawer reads of the drawers only what it has locked. -/
theorem tracks_open {op : Op} (hop : op.opening = some (d, clientId, k)) : Tracks f (prog op) := by
  have hclaim : ∀ env key endpoint requestHash, Tracks f (claim env key endpoint requestHash) :=
    fun _ _ _ _ => (tame_claim (P := fun _ => True) hkeys trivial _ _ _ _).leaves.tracks
  have hcomplete : ∀ key body, Tracks f (complete key body) :=
    fun _ _ => (tame_complete (P := fun _ => True) hkeys trivial _ _).leaves.tracks
  have honce : ∀ (db : Db) id, f (db.addReviewOnce ⟨.receiptRenumbered, id⟩) = f db := by
    intro db id
    rw [Db.addReviewOnce]
    split
    · rfl
    · exact hreview db _
  cases op with
  | post env actor key requestHash req =>
      cases req with
      | openShift input =>
          obtain ⟨hd, -⟩ := Prod.mk.inj (Option.some.inj hop)
          refine (hclaim _ _ _ _).bind fun out => ?_
          cases out with
          | reused => trivial
          | replay body => trivial
          | claimed =>
              refine Tracks.bind ?_ fun body => (hcomplete _ _).bind fun _ => trivial
              refine (leaves_ofExcept _).tracks.bind fun _ => ?_
              exact (tracks_openShift hreview harchive hinsert hd).bind fun _ => trivial
      | _ => cases hop
  | push env actor key requestHash op =>
      cases op with
      | shiftOpen input openedAt opId =>
          obtain ⟨hd, -⟩ := Prod.mk.inj (Option.some.inj hop)
          refine (hclaim _ _ _ _).bind fun out => ?_
          cases out with
          | replay body => trivial
          | reused =>
              refine (leaves_replayKeyOfSameDocument honce _).tracks.bind fun own => ?_
              cases own with
              | some r => trivial
              | none => exact (leaves_ofExcept _).tracks.bind fun _ => trivial
          | claimed =>
              refine (leaves_checkClientIdReplay honce _).tracks.bind fun existing => ?_
              cases existing with
              | some r => exact (hcomplete _ _).bind fun _ => trivial
              | none =>
                  refine (leaves_ofExcept _).tracks.bind fun _ => Tracks.bind ?_ fun r =>
                    (hcomplete _ _).bind fun _ => trivial
                  refine (leaves_glance _).tracks.bind fun previous => ?_
                  have hflag : Leaves f (flagFutureOpen env (input.id.getD opId) openedAt) :=
                    Leaves.whenever ⟨fun db => hreview db _, trivial⟩
                  refine hflag.tracks.bind fun _ => ?_
                  exact (tracks_openShift hreview harchive hinsert hd).bind fun _ => trivial
      | _ => cases hop
  | reportUnsynced d n => cases hop
  | cleanup now => cases hop

end

/-! ## What everything else does -/

/-- What a transaction that opens no drawer does to the devices, to their active drawers, and to what
the owner is told of them. -/
structure Calm (s s' : Db) : Prop where
  live : ∀ d, s'.Live d → s.Live d
  retired : ∀ d, s'.Retired d → s.Retired d ∨ s'.activeShifts d = []
  active : ∀ d, s'.activeShifts d ⊆ s.activeShifts d
  uncounted : ∀ k, s'.uncounted k = s.uncounted k

theorem uncounted_of_roll (h : s'.roll = s.roll) (k : ShiftId) :
    s'.uncounted k = s.uncounted k := by
  have hlist := congrArg (List.count ⟨.shiftUncounted, k⟩) (Prod.mk.inj h).2
  rwa [List.count_filter rfl, List.count_filter rfl] at hlist

theorem Calm.of_devices (hdev : s'.devices = s.devices)
    (hactive : ∀ d, s'.activeShifts d ⊆ s.activeShifts d)
    (huncounted : ∀ k, s'.uncounted k = s.uncounted k) : Calm s s' where
  live d hd := by rwa [Db.Live, hdev] at hd
  retired d hd := by
    rw [Db.Retired, hdev] at hd
    exact .inl hd
  active := hactive
  uncounted := huncounted

/-- Only an open makes a drawer active. -/
theorem Changes.activeShifts {e : Effect} (h : Changes s e s')
    (hopen : ∀ d next, e ≠ .openShift d next) (d : DeviceId) :
    s'.activeShifts d ⊆ s.activeShifts d := by
  have harchive : ∀ (t : Db) k b, (t.archiveShift k b).activeShifts d ⊆ t.activeShifts d := by
    intro t k b
    rw [activeShifts_archiveShift]
    exact List.filter_subset_self _
  cases h with
  | openShift d next openedAt hnew => exact absurd rfl (hopen d next)
  | closeShift d' k row cash hrow hopen =>
      rw [activeShifts_closeShift]
      exact List.Subset.refl _
  | retire s₁ d' hclosed =>
      cases hclosed with
      | none => exact List.Subset.refl _
      | archived k row hrow hc => exact harchive s k false
      | counted j k row cash hrow hopen =>
          refine List.Subset.trans (harchive _ k false) ?_
          rw [activeShifts_closeShift]
          exact List.Subset.refl _
  | _ => exact List.Subset.refl _

/-- No other operation opens a drawer. -/
theorem Op.Allows.not_open {op : Op} {e : Effect} (h : op.Allows e) (hop : op.opening = none)
    (d : DeviceId) (next : Option (ShiftId × Int)) : e ≠ .openShift d next := by
  rintro rfl
  cases op with
  | post env actor key requestHash req =>
      cases req with
      | openShift input => cases hop
      | convertQuote q party =>
          obtain ⟨dto, -, heq⟩ := h
          cases heq
      | receivePo i =>
          obtain ⟨ids, heq⟩ := h
          cases heq
      | closeShift cash =>
          obtain ⟨k, heq⟩ := h
          cases heq
      | _ => cases h
  | push env actor key requestHash op =>
      cases op with
      | shiftOpen input openedAt opId => cases hop
      | customerCreate id body =>
          obtain ⟨input, -, heq⟩ := h
          cases heq
      | customerUpdate c body =>
          obtain ⟨patch, -, heq⟩ := h
          cases heq
      | _ => cases h
  | reportUnsynced d n => cases h
  | cleanup now => cases h

theorem wpHeld_active (hs : s.Consistent) {op : Op} (hop : op.opening = none) :
    wpHeld ag (prog op) [] s fun _ _ s' => ∀ d, s'.activeShifts d ⊆ s.activeShifts d := by
  refine wpHeld_of_wp (wp_mono (wp_prog hs op) (fun _ h => h) ?_)
  rintro a H' s' ⟨⟨⟨e, hallow, t, desk, hch, rfl⟩, -, -⟩, -⟩ d
  refine hch.activeShifts (fun d next => ?_) d
  rcases hallow with rfl | hallow
  · nofun
  · exact hallow.not_open hop d next

/-! ### Retiring -/

/-- Once its one drawer is archived, the device has none. -/
theorem activeShifts_archiveShift_head {t : Db} (hone : t.OneDrawer)
    (hhead : (t.activeShifts d).head? = some k) (b : Bool) :
    (t.archiveShift k b).activeShifts d = [] := by
  rw [activeShifts_archiveShift]
  have hlen := hone d
  cases hlist : t.activeShifts d with
  | nil => rfl
  | cons j rest =>
      rw [hlist] at hhead hlen
      obtain rfl := Option.some.inj hhead
      have : rest = [] := List.length_eq_zero_iff.mp (by simpa using hlen)
      simp [this]

/-- A device that is retired is left without an active drawer. -/
theorem wp_closeForRetirement_empties {cash : Option Int} (hone : s.OneDrawer) :
    wp (closeForRetirement d cash) H s Expected fun _ _ s' => s'.activeShifts d = [] ∧
      s'.devices = s.devices ∧ s'.reviewItems = s.reviewItems := by
  refine wp_bind_query ?_
  cases hhead : (s.activeShifts d).head? with
  | none => exact ⟨List.head?_eq_none_iff.mp hhead, rfl, rfl⟩
  | some k =>
      refine wp_bind_selectFor (wp_bind_orFail (fun row _ => ?_) fun _ => rfl)
      refine wp_bind_whenever (fun _ => ?_) fun _ => ?_
      · refine wp_bind_orFail (fun c _ => ?_) fun _ => rfl
        refine (wp_bind _ _).mpr (wp_close fun j row' _ _ => ⟨?_, rfl, rfl⟩)
        refine activeShifts_archiveShift_head (fun d' => ?_) ?_ false
        · rw [activeShifts_closeShift]
          exact hone d'
        · rw [activeShifts_closeShift]
          exact hhead
      · exact ⟨activeShifts_archiveShift_head hone hhead false, rfl, rfl⟩

/-- Retiring a device leaves it without a drawer, and tells the owner of none. -/
theorem wp_retire_empties {cash : Option Int} {force : Bool} (hone : s.OneDrawer) :
    wp (retire d cash force) H s Expected fun _ _ s' => s'.activeShifts d = [] ∧
      s'.devices = s.devices.modify d (fun row => { row with retired := true }) ∧
      ∀ k, s'.uncounted k = s.uncounted k := by
  have hrest : ∀ s₁ : Db, s₁.OneDrawer → s₁.devices = s.devices →
      (∀ k, s₁.uncounted k = s.uncounted k) → ∀ H, wp (closeForRetirement d cash >>= fun shift => do
        Tx.update fun db => db.modifyDevice d fun row => { row with retired := true }
        Tx.update fun db => db.addAudit ⟨.deviceRetire, d, none⟩
        return shift) H s₁ Expected fun _ _ s' => s'.activeShifts d = [] ∧
          s'.devices = s.devices.modify d (fun row => { row with retired := true }) ∧
          ∀ k, s'.uncounted k = s.uncounted k := by
    intro s₁ hone₁ hdev huncounted H
    refine wp_seq (wp_closeForRetirement_empties hone₁) ?_
    rintro shift H' s₂ ⟨hempty, hdev₂, hreview⟩
    refine ⟨hempty, ?_, fun k => ?_⟩
    · show s₂.devices.modify d (fun row => { row with retired := true }) = _
      rw [hdev₂, hdev]
    · show s₂.reviewItems.count _ = _
      rw [hreview]
      exact huncounted k
  refine wp_bind_selectFor (wp_bind_orFail (fun device _ => ?_) fun _ => rfl)
  refine wp_bind_require (fun _ => ?_) fun _ => rfl
  refine wp_bind_whenever (fun _ => ?_) fun _ => hrest s hone rfl (fun _ => rfl) _
  refine wp_bind_require (fun _ => ?_) fun _ => rfl
  refine hrest (s.addReview ⟨.deviceForceRetired, d⟩) hone rfl (fun k => ?_) _
  show (s.reviewItems ++ [_]).count _ = _
  rw [List.count_append, List.count_singleton]
  rfl

/-- What retiring a device does to the devices that are in use, and to the retired ones. -/
theorem live_modify_retired {d' : DeviceId}
    (hdev : s'.devices = s.devices.modify d (fun row => { row with retired := true })) :
    (s'.Live d' → s.Live d') ∧ (s'.Retired d' → s.Retired d' ∨ d' = d) := by
  by_cases hd : d' = d
  · subst hd
    refine ⟨?_, fun _ => .inr rfl⟩
    rintro ⟨row, hrow, hlive⟩
    rw [hdev, Table.get_modify_self, Option.map_eq_some_iff] at hrow
    obtain ⟨old, -, rfl⟩ := hrow
    cases hlive
  · have hget : s'.devices.get d' = s.devices.get d' := by rw [hdev, Table.get_modify_ne _ hd]
    refine ⟨fun h => ?_, fun h => .inl ?_⟩
    · rwa [Db.Live, hget] at h
    · rwa [Db.Retired, hget] at h

/-! ### The transactions -/

/-- A queued cash-out may tell the owner of the cash; it tells nothing of an uncounted drawer. -/
theorem wp_pushEntry_uncounted {actor : Actor} {entry : DrawerEntryBody} :
    wp (pushEntry env actor entry) H s Expected fun _ _ s' => s'.devices = s.devices ∧
      ∀ k, s'.uncounted k = s.uncounted k := by
  refine wp_seq wp_addEntry ?_
  rintro r H₁ s₁ ⟨hadded, -⟩
  have hroll := hadded.roll
  have hkept : s₁.devices = s.devices ∧ ∀ k, s₁.uncounted k = s.uncounted k :=
    ⟨(Prod.mk.inj hroll).1, uncounted_of_roll hroll⟩
  refine wp_bind_glance fun s₀ => wp_bind_whenever (fun _ => ?_) fun _ => hkept
  refine wp_bind_glance fun s₂ => ?_
  rw [Tx.whenever]
  split
  · refine ⟨hkept.1, fun k => ?_⟩
    rw [← hkept.2 k]
    show (s₁.addReviewOnce _).reviewItems.count _ = _
    rw [Db.addReviewOnce]
    split
    · rfl
    · rw [Db.uncounted, List.count_append, List.count_singleton]
      rfl
  · exact hkept

/-- Retiring a device leaves it without a drawer, and retires no other. -/
theorem wpHeld_retire (hone : s.OneDrawer) {env : Env} {actor : Actor} {key requestHash : Nat} {d : DeviceId}
    {cash : Option Int} {force : Bool} :
    wpHeld ag (prog (.post env actor key requestHash (.retireDevice d cash force))) [] s fun _ _ s' =>
      (∀ d', s'.Live d' → s.Live d') ∧ (∀ d', s'.Retired d' → s.Retired d' ∨ s'.activeShifts d' = []) ∧
        ∀ k, s'.uncounted k = s.uncounted k := by
  refine wpHeld_runIdempotent_keys (J := fun t => ∃ keys, t = s.withKeys keys)
    ⟨s.idempotencyKeys, rfl⟩ ?_ ?_ ?_
  · rintro t keys ⟨keys₀, rfl⟩
    exact ⟨keys, rfl⟩
  · rintro t ⟨keys, rfl⟩
    exact ⟨fun _ h => h, fun _ h => .inl h, fun _ => rfl⟩
  · rintro H' t ⟨keys, rfl⟩ -
    have hone' : (s.withKeys keys).OneDrawer := hone
    refine wpHeld_of_wp (E := Expected) (wp_bind_ofExcept (fun _ _ => ?_) ?_)
    · refine wp_seq (wp_retire_empties hone') ?_
      rintro shift H'' s' ⟨hempty, hdev, huncounted⟩ keys'
      have hdev' : s'.devices = s.devices.modify d (fun row => { row with retired := true }) := hdev
      refine ⟨fun d' => (live_modify_retired hdev').1, fun d' hd' => ?_, huncounted⟩
      rcases (live_modify_retired hdev').2 hd' with hd' | rfl
      · exact .inl hd'
      · exact .inr hempty
    · cases cash with
      | none => exact fun e he => by cases he
      | some c => exact AllExpected.check _ _

/-- A pushed entry leaves the devices. What it files for review is about its date or its drawer's cash. -/
theorem wpHeld_drawerEntry {env : Env} {actor : Actor} {key requestHash : Nat} {entry : DrawerEntryBody}
    {deviceDate : Option Nat} {opId : Nat} :
    wpHeld ag (prog (.push env actor key requestHash (.drawerEntry entry deviceDate opId))) [] s fun _ _ s' =>
      s'.devices = s.devices ∧ ∀ k, s'.uncounted k = s.uncounted k := by
  refine wpHeld_processSingleOp_keys
    (J := fun t => t.devices = s.devices ∧ ∀ k, t.uncounted k = s.uncounted k)
    ⟨rfl, fun _ => rfl⟩ (fun t keys ht => ht) (fun t ht => ht)
    (fun H' t ht => wp_probe_entry fun _ => ht) fun H' t ht => wpHeld_of_wp (E := Expected) ?_
  refine (wp_bind _ _).mpr (wp_clampOpDate fun date t₁ ht₁ => ?_)
  have hdated : t₁.devices = t.devices ∧ ∀ k, t₁.uncounted k = t.uncounted k := by
    rcases ht₁ with rfl | rfl
    · exact ⟨rfl, fun _ => rfl⟩
    · exact ⟨rfl, uncounted_of_roll (roll_addReview rfl)⟩
  refine wp_mono wp_pushEntry_uncounted (fun _ h => h) ?_
  rintro a H'' t' ⟨hdev, huncounted⟩ keys
  rw [hdated.1] at hdev
  simp only [hdated.2] at huncounted
  exact ⟨hdev.trans ht.1, fun k => (huncounted k).trans (ht.2 k)⟩

/-- The count of unsynced operations is a column of its own. -/
theorem wpHeld_reportUnsynced {d : DeviceId} {n : Nat} :
    wpHeld ag (prog (.reportUnsynced d n)) [] s fun _ _ s' =>
      (∀ d', s'.Live d' → s.Live d') ∧ (∀ d', s'.Retired d' → s.Retired d') ∧
        ∀ k, s'.uncounted k = s.uncounted k := by
  have hsame : ∀ d', ((s.devices.modify d fun row => { row with unsyncedOps := n }).get d').map
      (·.retired) = (s.devices.get d').map (·.retired) := by
    intro d'
    rw [Table.get_modify]
    split
    · rw [Option.map_map]
      rfl
    · rfl
  refine ⟨fun d' hd' => ?_, fun d' hd' => ?_, fun k => rfl⟩
  · exact Option.map_eq_some_iff.mp ((hsame d').symm.trans (Option.map_eq_some_iff.mpr hd'))
  · exact Option.map_eq_some_iff.mp ((hsame d').symm.trans (Option.map_eq_some_iff.mpr hd'))

/-- **What a transaction does that opens no drawer.** -/
theorem wpHeld_calm (hs : s.Consistent) (hone : s.OneDrawer) {op : Op} (hop : op.opening = none) :
    wpHeld ag (prog op) [] s fun _ _ s' => Calm s s' := by
  have hactive : wpHeld ag (prog op) [] s fun _ _ s' => ∀ d, s'.activeShifts d ⊆ s.activeShifts d :=
    wpHeld_active hs hop
  have hquiet : op.quiet = true → wpHeld ag (prog op) [] s fun _ _ s' => Calm s s' := by
    intro hquiet
    refine wpHeld_mono (wpHeld_and (wpHeld_quiet hs hquiet) hactive) ?_
    rintro a H' s' ⟨hroll, hsub⟩
    exact .of_devices (Prod.mk.inj hroll).1 hsub (uncounted_of_roll hroll)
  cases op with
  | post env actor key requestHash req =>
      cases req with
      | openShift input => cases hop
      | retireDevice d cash force =>
          -- of all requests only a retirement touches the devices
          refine wpHeld_mono (wpHeld_and (wpHeld_retire hone) hactive) ?_
          rintro a H' s' ⟨⟨hlive, hretired, huncounted⟩, hsub⟩
          exact ⟨hlive, hretired, hsub, huncounted⟩
      | _ => exact hquiet rfl
  | push env actor key requestHash op =>
      cases op with
      | shiftOpen input openedAt opId => cases hop
      | drawerEntry entry deviceDate opId =>
          -- the flag of a date and the flag of an overdrawn drawer are both other items
          refine wpHeld_mono (wpHeld_and wpHeld_drawerEntry hactive) ?_
          rintro a H' s' ⟨⟨hdev, huncounted⟩, hsub⟩
          exact .of_devices hdev hsub huncounted
      | _ => exact hquiet rfl
  | reportUnsynced d n =>
      refine wpHeld_mono (wpHeld_and wpHeld_reportUnsynced hactive) ?_
      rintro a H' s' ⟨⟨hlive, hretired, huncounted⟩, hsub⟩
      exact ⟨hlive, fun d' hd' => .inl (hretired d' hd'), hsub, huncounted⟩
  | cleanup now => exact hquiet rfl

end

end Server

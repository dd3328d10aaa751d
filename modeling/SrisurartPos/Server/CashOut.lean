import SrisurartPos.Server.Accepted
import SrisurartPos.Server.DeviceDrawers

/-! # Taking cash out of a drawer (`addDrawerEntry`, `flagOverdrawnOffline`)

Both ways to take cash out hold the drawer's row for update, and every document that moves its cash
holds it at least for share. So the cash counted before an entry is the cash that is there when the
entry commits. At the counter an entry that asks for more is refused. One that was queued is stored
all the same, as the cash has left, and the owner is told. -/

namespace Server

open Txn

namespace Db

/-- How often the owner is told that the queued entry took more than there was. -/
def overdrawn (e : EntryId) (db : Db) : Nat := db.reviewItems.count ⟨.drawerOverdrawnOffline, e⟩

/-- The owner is told of entries that are on file. -/
def ToldOfEntries (db : Db) : Prop :=
  ∀ e, db.overdrawn e = 0 ∨ (db.drawerEntries.get e).isSome = true

/-- The database once the queued entry is stored, and flagged when the drawer does not hold it. -/
def enterQueued (e : EntryId) (row : DrawerEntry) (db : Db) : Db :=
  if row.type = .cashOut ∧ (db.insertEntry e row).expectedCash row.shiftId < 0 then
    (db.insertEntry e row).addReviewOnce ⟨.drawerOverdrawnOffline, e⟩
  else db.insertEntry e row

end Db

/-- The id a queued entry goes by. -/
def Op.queuedEntry : Op → Option EntryId
  | .push env _ _ _ (.drawerEntry entry _ _) => some (entry.id.getD env.newUuid)
  | _                                        => none

theorem Op.of_queuedEntry {op : Op} {e : EntryId} (h : op.queuedEntry = some e) :
    ∃ env actor key requestHash entry deviceDate opId,
      op = .push env actor key requestHash (.drawerEntry entry deviceDate opId) ∧
        entry.id.getD env.newUuid = e := by
  cases op with
  | push env actor key requestHash op =>
      cases op with
      | drawerEntry entry deviceDate opId =>
          exact ⟨env, actor, key, requestHash, entry, deviceDate, opId, rfl, Option.some.inj h⟩
      | _ => cases h
  | _ => cases h

section
variable {H : Held LockKey} {s s' : Db} {env : Env} {actor : Actor} {entry : DrawerEntryBody}
  {ag : LockKey × Mode → Db → Db → Prop}

/-! ## The entry -/

theorem expectedCash_insertEntry {e : EntryId} {row : DrawerEntry} {k : ShiftId} {shift : Shift}
    (he : s.drawerEntries.get e = none) (hk : s.shifts.get k = some shift) :
    (s.insertEntry e row).expectedCash k = s.expectedCash k + Db.cashOfEntry k e row := by
  have hk' : (s.insertEntry e row).shifts.get k = some shift := hk
  simp only [Db.expectedCash, hk, hk', drawerCash_insertEntry he]
  omega

/-- **An entry at the counter is covered.** -/
theorem EntryAdded.covered {d : DeviceId} {r : EntryId × DrawerEntry}
    (h : EntryAdded env d entry false s r s') (hout : entry.type = .cashOut) {e : EntryId}
    {row : DrawerEntry} (hbefore : s.drawerEntries.get e = none)
    (hafter : s'.drawerEntries.get e = some row) : 0 ≤ s'.expectedCash row.shiftId := by
  cases h with
  | replay _ hid =>
      rw [hbefore] at hafter
      cases hafter
  | fresh k shift e' he hrow hopen hnew hcash =>
      have hinsert : (s.drawerEntries.insert e' ⟨k, entry.type, entry.amountSatang⟩).get e =
          some row := hafter
      rw [Table.get_insert hnew] at hinsert
      split at hinsert
      · obtain rfl := Option.some.inj hinsert
        rw [expectedCash_insertEntry hnew hrow]
        have := hcash ⟨hout, rfl⟩
        simp only [Db.cashOfEntry, hout, if_true]
        omega
      · rw [hbefore] at hinsert
        cases hinsert

/-- The entry goes by its id, and its drawer stays locked. -/
theorem wp_addNewEntry_locked {d : DeviceId} {offlineReplay : Bool} :
    wp (addNewEntry env d entry offlineReplay) H s Expected fun r H' s' =>
      ∃ k, r = (entry.id.getD env.newUuid, ⟨k, entry.type, entry.amountSatang⟩) ∧
        (.shift k, .update) ∈ H' ∧ s.drawerEntries.get (entry.id.getD env.newUuid) = none ∧
          s' = s.insertEntry (entry.id.getD env.newUuid) ⟨k, entry.type, entry.amountSatang⟩ := by
  refine (wp_bind _ _).mpr (wp_lockActive fun k row hrow hd ha => ?_)
  refine wp_bind_require (fun _ => ?_) fun _ => rfl
  refine wp_bind_whenever (fun _ => wp_bind_query (wp_require (fun _ => ?_) fun _ => rfl)) fun _ => ?_
  all_goals
    refine wp_bind_insertRow (fun hfree => ?_) fun _ => rfl
    exact ⟨k, rfl, List.mem_cons_of_mem _ List.mem_cons_self, by simpa using hfree, rfl⟩

/-- The entry that is answered has the id of the request, or the one that was drawn for it. -/
theorem wp_addEntry_id {offlineReplay : Bool} :
    wp (addEntry env actor entry offlineReplay) H s Expected fun r _ _ =>
      r.1 = entry.id.getD env.newUuid := by
  have hnew : wp (addNewEntry env actor.deviceId entry offlineReplay) H s Expected fun r _ _ =>
      r.1 = entry.id.getD env.newUuid := by
    refine wp_mono wp_addNewEntry_locked (fun _ h => h) ?_
    rintro r H' s' ⟨k, rfl, -⟩
    rfl
  rw [addEntry]
  cases hid : entry.id with
  | none =>
      rw [hid] at hnew
      exact hnew
  | some id =>
      refine wp_bind_glance fun s₀ => ?_
      cases s₀.drawerEntries.get id with
      | none =>
          rw [hid] at hnew
          exact hnew
      | some row => exact wp_bind_require (fun _ => rfl) fun _ => rfl

/-- **A queued entry that is not on file is stored**, and flagged when the drawer does not hold it:
what is counted then is what is there, as the drawer is locked. -/
theorem wpHeld_pushEntry {lk : LockKey × Mode} (hlk : lk ∈ H)
    (hnew : s.drawerEntries.get (entry.id.getD env.newUuid) = none)
    (htold : ∀ lk s₀ s₁, ag lk s₀ s₁ →
      (s₀.drawerEntries.get (entry.id.getD env.newUuid)).isSome =
        (s₁.drawerEntries.get (entry.id.getD env.newUuid)).isSome)
    (hcash : ∀ k s₀ s₁, ag (.shift k, .update) s₀ s₁ → s₀.expectedCash k = s₁.expectedCash k) :
    wpHeld ag (pushEntry env actor entry) H s fun _ _ s' =>
      ∃ k, s' = s.enterQueued (entry.id.getD env.newUuid) ⟨k, entry.type, entry.amountSatang⟩ := by
  have hadd : wpHeld ag (addEntry env actor entry true) H s fun r H' s' =>
      ∃ k, r = (entry.id.getD env.newUuid, ⟨k, entry.type, entry.amountSatang⟩) ∧
        (.shift k, .update) ∈ H' ∧ s.drawerEntries.get (entry.id.getD env.newUuid) = none ∧
          s' = s.insertEntry (entry.id.getD env.newUuid) ⟨k, entry.type, entry.amountSatang⟩ := by
    have hfresh : wpHeld ag (addNewEntry env actor.deviceId entry true) H s fun r H' s' =>
        ∃ k, r = (entry.id.getD env.newUuid, ⟨k, entry.type, entry.amountSatang⟩) ∧
          (.shift k, .update) ∈ H' ∧ s.drawerEntries.get (entry.id.getD env.newUuid) = none ∧
            s' = s.insertEntry (entry.id.getD env.newUuid) ⟨k, entry.type, entry.amountSatang⟩ :=
      wpHeld_of_wp wp_addNewEntry_locked
    rw [addEntry]
    cases hid : entry.id with
    | none =>
        rw [hid] at hfresh
        exact hfresh
    | some id =>
        rw [hid] at hfresh hnew htold
        refine wpHeld_bind_glance fun s₀ hs₀ => ?_
        have hsame := htold lk s₀ s (hs₀ lk hlk)
        rw [Option.getD_some] at hnew hsame
        rw [hnew, Option.isSome_none, Option.isSome_eq_false_iff, Option.isNone_iff_eq_none] at hsame
        rw [hsame]
        exact hfresh
  refine wpHeld_seq hadd ?_
  rintro r H₁ s₁ ⟨k, rfl, hheld, -, rfl⟩
  refine wpHeld_bind_glance fun s₀ _ => ?_
  rw [Tx.whenever]
  split
  · rename_i hout
    refine wpHeld_bind.mpr (wpHeld_bind_glance fun s₂ hs₂ => ?_)
    rw [hcash k s₂ _ (hs₂ _ hheld), Tx.whenever]
    split
    · rename_i hless
      refine ⟨k, ?_⟩
      rw [Db.enterQueued, if_pos ⟨hout, hless⟩]
    · rename_i hless
      refine ⟨k, ?_⟩
      rw [Db.enterQueued, if_neg fun h => hless h.2]
  · rename_i hin
    refine ⟨k, ?_⟩
    rw [Db.enterQueued, if_neg fun h => hin h.1]

end

/-! ## What the owner is told -/

section
variable {s s' : Db} {e : EntryId}

theorem overdrawn_of_roll (h : s'.roll = s.roll) (e : EntryId) :
    s'.overdrawn e = s.overdrawn e := by
  have hlist := congrArg (List.count ⟨.drawerOverdrawnOffline, e⟩) (Prod.mk.inj h).2
  rwa [List.count_filter rfl, List.count_filter rfl] at hlist

theorem overdrawn_addReview {r : ReviewItem} (h : r.kind ≠ .drawerOverdrawnOffline) :
    (s.addReview r).overdrawn e = s.overdrawn e := by
  have hne : r ≠ ⟨.drawerOverdrawnOffline, e⟩ := by
    rintro rfl
    exact h rfl
  show (s.reviewItems ++ [r]).count _ = _
  rw [List.count_append, List.count_singleton, if_neg (by simpa using hne)]
  rfl

/-- Archiving does not touch the review items of overdrawn entries. -/
theorem overdrawn_archiveActive (d : DeviceId) :
    (s.archiveActive d).overdrawn e = s.overdrawn e := by
  rw [Db.archiveActive]
  cases (s.activeShifts d).head? with
  | none => rfl
  | some k =>
      dsimp only
      cases s.shifts.get k with
      | none => rfl
      | some row =>
          dsimp only
          split
          · exact overdrawn_addReview (s := s.archiveShift k _) (by intro h; cases h)
          · rfl

theorem overdrawn_flagged {flag : List ReviewItem} (hflag : ∀ r ∈ flag, r.kind = .dateFlag) :
    (s.flagged flag).overdrawn e = s.overdrawn e := by
  have hnone : flag.count ⟨.drawerOverdrawnOffline, e⟩ = 0 := by
    refine List.count_eq_zero.mpr fun hmem => ?_
    cases hflag _ hmem
  show (s.reviewItems ++ flag).count _ = _
  rw [List.count_append, hnone]
  rfl

/-- The index on the owner's list keeps the item to one. -/
theorem overdrawn_addReviewOnce (e' : EntryId) :
    (s.addReviewOnce ⟨.drawerOverdrawnOffline, e'⟩).overdrawn e = s.overdrawn e ∨
      e' = e ∧ s.overdrawn e = 0 ∧
        (s.addReviewOnce ⟨.drawerOverdrawnOffline, e'⟩).overdrawn e = 1 := by
  have hunfold : (s.addReviewOnce ⟨.drawerOverdrawnOffline, e'⟩).overdrawn e =
      (if ⟨.drawerOverdrawnOffline, e'⟩ ∈ s.reviewItems then s.reviewItems
        else s.reviewItems ++ [⟨.drawerOverdrawnOffline, e'⟩]).count
          ⟨.drawerOverdrawnOffline, e⟩ := rfl
  by_cases hmem : ⟨.drawerOverdrawnOffline, e'⟩ ∈ s.reviewItems
  · rw [hunfold, if_pos hmem]
    exact .inl rfl
  · rw [hunfold, if_neg hmem, List.count_append]
    by_cases he : e' = e
    · subst he
      have hzero : s.overdrawn e' = 0 := List.count_eq_zero.mpr hmem
      refine .inr ⟨rfl, hzero, ?_⟩
      rw [Db.overdrawn] at hzero
      rw [hzero, List.count_singleton_self]
    · refine .inl ?_
      rw [List.count_singleton, if_neg (by simpa using he)]
      rfl

/-- A new entry the drawer does not hold is flagged once. -/
theorem overdrawn_enterQueued {row : DrawerEntry} (hzero : s.overdrawn e = 0)
    (hout : row.type = .cashOut) (hless : (s.enterQueued e row).expectedCash row.shiftId < 0) :
    (s.enterQueued e row).overdrawn e = 1 := by
  have hsame : (s.enterQueued e row).expectedCash row.shiftId =
      (s.insertEntry e row).expectedCash row.shiftId := by
    rw [Db.enterQueued]
    split <;> rfl
  rw [hsame] at hless
  rw [Db.enterQueued, if_pos ⟨hout, hless⟩]
  have hzero' : (s.insertEntry e row).overdrawn e = 0 := hzero
  rcases overdrawn_addReviewOnce (s := s.insertEntry e row) (e := e) e with hkept | ⟨-, -, hone⟩
  · have hmem : (⟨.drawerOverdrawnOffline, e⟩ : ReviewItem) ∈
        ((s.insertEntry e row).addReviewOnce ⟨.drawerOverdrawnOffline, e⟩).reviewItems := by
      show _ ∈ if _ then _ else _
      split
      · assumption
      · exact List.mem_append_right _ List.mem_cons_self
    rw [hzero'] at hkept
    exact absurd hmem (List.count_eq_zero.mp hkept)
  · exact hone

end

/-! ## The transactions -/

section
variable {H : Held LockKey} {s s' : Db} {env : Env} {actor : Actor} {entry : DrawerEntryBody}
  {key requestHash : Nat} {ag : LockKey × Mode → Db → Db → Prop}

/-- What the transaction of a queued entry does, when the entry is not on file. Its date may be on the
owner's list. -/
inductive Entered (entry : DrawerEntryBody) (e : EntryId) (s : Db) : Db → Prop where
  | kept (keys : Table Nat KeyRow) : Entered entry e s (s.withKeys keys)
  | stored (keys : Table Nat KeyRow) (flag : List ReviewItem) (k : ShiftId) :
      (∀ r ∈ flag, r.kind = .dateFlag) → Entered entry e s
        (((s.flagged flag).enterQueued e ⟨k, entry.type, entry.amountSatang⟩).withKeys keys)

/-- An entry that was not on file is either refused, or entered under its drawer with its review item. -/
theorem Entered.found {e : EntryId} (h : Entered entry e s s') (hnew : s.drawerEntries.get e = none) :
    s'.drawerEntries.get e = none ∧ s'.overdrawn e = s.overdrawn e ∨
      ∃ k keys flag, (∀ r ∈ flag, r.kind = .dateFlag) ∧
        s' = ((s.flagged flag).enterQueued e ⟨k, entry.type, entry.amountSatang⟩).withKeys keys ∧
          s'.drawerEntries.get e = some ⟨k, entry.type, entry.amountSatang⟩ := by
  cases h with
  | kept keys => exact .inl ⟨hnew, rfl⟩
  | stored keys flag k hflag =>
      refine .inr ⟨k, keys, flag, hflag, rfl, ?_⟩
      have hrows : ((s.flagged flag).enterQueued e ⟨k, entry.type, entry.amountSatang⟩).drawerEntries =
          s.drawerEntries.insert e ⟨k, entry.type, entry.amountSatang⟩ := by
        rw [Db.enterQueued]
        split <;> rfl
      show ((s.flagged flag).enterQueued e _).drawerEntries.get e = _
      rw [hrows, Table.get_insert_self hnew]

theorem enterQueued_withKeys (e : EntryId) (row : DrawerEntry) (keys : Table Nat KeyRow) :
    (s.withKeys keys).enterQueued e row = (s.enterQueued e row).withKeys keys := by
  have hcash : ((s.withKeys keys).insertEntry e row).expectedCash row.shiftId =
      (s.insertEntry e row).expectedCash row.shiftId := rfl
  rw [Db.enterQueued, Db.enterQueued, hcash]
  split <;> rfl

/-- A date flags the entry, or it does not. -/
theorem wpHeld_bind_clampOpDate {α : Type} {d : DeviceId} {docNo : Option DocNo} {refId : Nat}
    {opDate : Option Nat} {f : Option Nat → Prog α} {Q : α → Held LockKey → Db → Prop}
    (h : ∀ date flag, (∀ r ∈ flag, r.kind = .dateFlag) → wpHeld ag (f date) H (s.flagged flag) Q) :
    wpHeld ag (clampOpDate env d docNo refId opDate >>= f) H s Q := by
  refine wpHeld_bind.mpr (wpHeld_of_wp (wp_clampOpDate fun date t ht => ?_))
  rcases ht with rfl | rfl
  · have hnone := h date [] fun r hr => by cases hr
    rwa [show t.flagged [] = t by simp [Db.flagged]] at hnone
  · exact h date [⟨.dateFlag, refId⟩] fun r hr => by rw [List.mem_singleton.mp hr]

/-- **A queued entry under its drawer's lock**: it is entered on the cash that the lock protects. -/
theorem wpHeld_entered {deviceDate : Option Nat} {opId : Nat}
    (hnew : s.drawerEntries.get (entry.id.getD env.newUuid) = none)
    (htold : ∀ lk s₀ s₁, ag lk s₀ s₁ →
      (s₀.drawerEntries.get (entry.id.getD env.newUuid)).isSome =
        (s₁.drawerEntries.get (entry.id.getD env.newUuid)).isSome)
    (hcash : ∀ k s₀ s₁, ag (.shift k, .update) s₀ s₁ → s₀.expectedCash k = s₁.expectedCash k) :
    wpHeld ag (prog (.push env actor key requestHash (.drawerEntry entry deviceDate opId))) [] s
      fun _ _ s' => Entered entry (entry.id.getD env.newUuid) s s' := by
  refine wpHeld_processSingleOp_probed (J := fun t => ∃ keys, t = s.withKeys keys)
    ⟨s.idempotencyKeys, rfl⟩ ?_ ?_ (fun H' t ht => wp_probe_entry fun _ => ht) ?_
  · rintro t keys ⟨keys₀, rfl⟩
    exact ⟨keys, rfl⟩
  · rintro t ⟨keys, rfl⟩
    exact .kept keys
  · rintro H' t ⟨keys, rfl⟩ hkey
    have hwork : wpHeld ag ((SyncOp.drawerEntry entry deviceDate opId).execute env actor) H'
        (s.withKeys keys) fun _ _ t'' =>
          ∀ keys', Entered entry (entry.id.getD env.newUuid) s (t''.withKeys keys') := by
      refine wpHeld_bind_clampOpDate fun date flag hflag => ?_
      refine wpHeld_mono (wpHeld_pushEntry hkey hnew htold hcash) ?_
      rintro r H'' t'' ⟨k, rfl⟩ keys'
      have hswap : (s.withKeys keys).flagged flag = (s.flagged flag).withKeys keys := rfl
      rw [hswap, enterQueued_withKeys]
      exact .stored keys' flag k hflag
    have hself : ∃ keys', s.withKeys keys = s.withKeys keys' := ⟨keys, rfl⟩
    simp only [checkClientIdReplay]
    cases hid : entry.id with
    | none =>
        rw [hid] at hwork
        exact ⟨hself, fun _ => hwork⟩
    | some id =>
        refine wpHeld_bind_glance fun s₀ hs₀ => ?_
        have hsame := htold _ s₀ (s.withKeys keys) (hs₀ _ hkey)
        have hnew' : (s.withKeys keys).drawerEntries.get (entry.id.getD env.newUuid) = none := hnew
        rw [hnew', hid, Option.getD_some, Option.isSome_none, Option.isSome_eq_false_iff,
          Option.isNone_iff_eq_none] at hsame
        rw [hid] at hwork
        rw [hsame]
        exact ⟨hself, fun _ => hwork⟩

/-- Of a queued entry the owner is told at most once, and of nothing else. -/
theorem wp_pushEntry_overdrawn : wp (pushEntry env actor entry) H s Expected fun _ _ s' =>
    ∀ e, s'.overdrawn e = s.overdrawn e ∨
      entry.id.getD env.newUuid = e ∧ s.overdrawn e = 0 ∧ s'.overdrawn e = 1 := by
  have hadd : wp (addEntry env actor entry true) H s Expected fun r _ s' =>
      r.1 = entry.id.getD env.newUuid ∧ s'.roll = s.roll :=
    wp_mono (wp_and wp_addEntry wp_addEntry_id) (fun _ h => h.1) fun _ _ _ h => ⟨h.2, h.1.1.roll⟩
  refine wp_seq hadd ?_
  rintro r H₁ s₁ ⟨hid, hroll⟩
  have hkept : ∀ e, s₁.overdrawn e = s.overdrawn e := overdrawn_of_roll hroll
  refine wp_bind_glance fun s₀ => wp_bind_whenever (fun _ => wp_bind_glance fun s₂ => ?_)
    fun _ e => .inl (hkept e)
  rw [Tx.whenever]
  split
  · intro e
    have honce := overdrawn_addReviewOnce (s := s₁) (e := e) r.1
    rw [hkept e, hid] at honce
    rw [← hid] at honce ⊢
    exact honce
  · exact fun e => .inl (hkept e)

/-- **Only a queued entry tells the owner that it took too much**, and of itself. -/
theorem wpHeld_overdrawn (hs : s.Consistent) (op : Op) :
    wpHeld ag (prog op) [] s fun _ _ s' => ∀ e, s'.overdrawn e = s.overdrawn e ∨
      op.queuedEntry = some e ∧ s.overdrawn e = 0 ∧ s'.overdrawn e = 1 := by
  -- most operations roll no review of this kind
  have hquiet : op.quiet = true → wpHeld ag (prog op) [] s fun _ _ s' =>
      ∀ e, s'.overdrawn e = s.overdrawn e ∨
        op.queuedEntry = some e ∧ s.overdrawn e = 0 ∧ s'.overdrawn e = 1 := fun hquiet =>
    wpHeld_mono (wpHeld_quiet hs hquiet) fun _ _ _ hroll e => .inl (overdrawn_of_roll hroll e)
  -- an open may flag its date, which is another kind
  have hopen : ∀ {d clientId k}, op.opening = some (d, clientId, k) →
      wpHeld ag (prog op) [] s fun _ _ s' => ∀ e, s'.overdrawn e = s.overdrawn e ∨
        op.queuedEntry = some e ∧ s.overdrawn e = 0 ∧ s'.overdrawn e = 1 := by
    intro d clientId k hop
    refine wpHeld_open hop (fun _ _ => .inl rfl) ?_
    rintro env actor input H' flag keys rfl - - hflag
    refine wpHeld_of_wp (wp_mono wp_openShift (fun _ h => h) ?_)
    rintro r H'' s' ⟨hopened, -⟩ keys' e
    have hflagged : ((s.flagged flag).withKeys keys).overdrawn e = s.overdrawn e :=
      overdrawn_flagged fun r hr => Op.dateFlags_kind (hflag hr)
    left
    show s'.overdrawn e = s.overdrawn e
    cases hopened with
    | replay hid => exact hflagged
    | conflict => exact (overdrawn_archiveActive _).trans hflagged
    | fresh k hk hfree => exact (overdrawn_archiveActive actor.deviceId).trans hflagged
  cases op with
  | post env actor key requestHash req =>
      cases req with
      | openShift input => exact hopen rfl
      -- a device that goes by force leaves a review of another kind too
      | retireDevice d cash force =>
          refine wpHeld_runIdempotent_keys (J := fun t => ∀ e, t.overdrawn e = s.overdrawn e)
            (fun _ => rfl) (fun t keys ht => ht) (fun t ht e => .inl (ht e)) fun H' t ht _ => ?_
          refine wpHeld_of_wp (E := Expected) (wp_bind_ofExcept (fun _ _ => ?_) ?_)
          · refine wp_seq wp_retire ?_
            rintro shift H'' t' ⟨⟨s₁, s₂, hforced, hclosed⟩, -⟩ keys e
            have hforced' : s₁.overdrawn e = t.overdrawn e := by
              rcases hforced with rfl | rfl
              · rfl
              · exact overdrawn_addReview (by nofun)
            have hclosed' : s₂.overdrawn e = s₁.overdrawn e := by
              cases hclosed <;> rfl
            exact .inl (hclosed'.trans (hforced'.trans (ht e)))
          · cases cash with
            | none => exact fun e he => by cases he
            | some c => exact AllExpected.check _ _
      | _ => exact hquiet rfl
  | push env actor key requestHash op =>
      cases op with
      | shiftOpen input openedAt opId => exact hopen rfl
      -- the entry itself: the amount is judged after it is stored
      | drawerEntry entry deviceDate opId =>
          refine wpHeld_processSingleOp_keys (J := fun t => ∀ e, t.overdrawn e = s.overdrawn e)
            (fun _ => rfl) (fun t keys ht => ht) (fun t ht e => .inl (ht e))
            (fun H' t ht => wp_probe_entry fun _ => ht) fun H' t ht => wpHeld_of_wp (E := Expected) ?_
          refine (wp_bind _ _).mpr (wp_clampOpDate fun date t₁ ht₁ => ?_)
          have hdated : ∀ e, t₁.overdrawn e = t.overdrawn e := by
            rcases ht₁ with rfl | rfl
            · exact fun _ => rfl
            · exact fun e => overdrawn_addReview (by nofun)
          refine wp_mono wp_pushEntry_overdrawn (fun _ h => h) fun r H'' t' htold keys e => ?_
          rw [← ht e, ← hdated e]
          rcases htold e with hsame | ⟨hid, hzero, hone⟩
          · exact .inl hsame
          · exact .inr ⟨congrArg some hid, hzero, hone⟩
      | _ => exact hquiet rfl
  | reportUnsynced d n => exact fun e => .inl rfl
  | cleanup now => exact hquiet rfl

/-- **What the counter stores is covered.** -/
theorem wpHeld_covered (hout : entry.type = .cashOut) :
    wpHeld ag (prog (.post env actor key requestHash (.entry entry))) [] s fun _ _ s' =>
      ∀ e row, s.drawerEntries.get e = none → s'.drawerEntries.get e = some row →
        0 ≤ s'.expectedCash row.shiftId := by
  refine wpHeld_runIdempotent_keys (J := fun t => ∃ keys, t = s.withKeys keys)
    ⟨s.idempotencyKeys, rfl⟩ ?_ ?_ ?_
  · rintro t keys ⟨keys₀, rfl⟩
    exact ⟨keys, rfl⟩
  · rintro t ⟨keys, rfl⟩ e row hbefore hafter
    rw [Db.withKeys, hbefore] at hafter
    cases hafter
  · rintro H' t ⟨keys, rfl⟩ -
    refine wpHeld_of_wp (E := Expected) (wp_bind_ofExcept (fun _ _ => ?_) (AllExpected.check _ _))
    refine wp_seq wp_addEntry ?_
    rintro r H'' s' ⟨hadded, -⟩ keys' e row hbefore hafter
    exact hadded.covered hout hbefore hafter

/-- An entry is stored under its own id. -/
theorem wpHeld_entry_id (hs : s.Consistent) {deviceDate : Option Nat} {opId : Nat} {e : EntryId}
    {row : DrawerEntry} :
    wpHeld ag (prog (.push env actor key requestHash (.drawerEntry entry deviceDate opId))) [] s fun _ _ s' =>
      s.drawerEntries.get e = none → s'.drawerEntries.get e = some row →
        entry.id.getD env.newUuid = e := by
  refine wpHeld_of_wp (wp_mono (wp_prog hs _) (fun _ h => h) ?_)
  rintro a H' s' ⟨⟨⟨eff, hallow, t, desk, hch, rfl⟩, -, -⟩, -⟩ hbefore hafter
  rcases hallow with rfl | rfl
  · cases hch
    have hsame : s.drawerEntries.get e = some row := hafter
    rw [hbefore] at hsame
    cases hsame
  · cases hch with
    | entry d e' body k shift hrow hopen hnew =>
        by_contra hne
        have hinsert : (s.drawerEntries.insert (entry.id.getD env.newUuid) _).get e = some row := hafter
        rw [Table.get_insert_ne _ (Ne.symm hne), hbefore] at hinsert
        cases hinsert

end

/-! ### What it makes of what is there -/

section
variable {H : Held LockKey} {s s' : Db} {env : Env} {actor : Actor} {entry : DrawerEntryBody}
  {key requestHash : Nat}

/-- A queued entry is never refused for the cash. -/
theorem tame_queuedEntry {deviceDate : Option Nat} {opId : Nat} :
    Tame (fun _ : Db => ()) (fun e => ∀ expected, e ≠ .drawerInsufficientCash expected)
      (prog (.push env actor key requestHash (.drawerEntry entry deviceDate opId))) := by
  -- neither the look for the entry, nor the parser, nor the answer refuses for the cash
  have hprobe : Tame (fun _ : Db => ()) (fun e => ∀ expected, e ≠ .drawerInsufficientCash expected)
      (checkClientIdReplay (.drawerEntry entry deviceDate opId)) := by
    simp only [checkClientIdReplay]
    cases entry.id with
    | none => trivial
    | some id =>
        refine (tame_glance _).bind fun row => ?_
        cases row with
        | none => trivial
        | some row =>
            refine (tame_require fun _ h => by cases h).bind fun _ => ?_
            exact (tame_glance _).bind fun balance => trivial
  have hparse : ∀ e, parseDrawerEntry entry = .error e →
      ∀ expected, e ≠ .drawerInsufficientCash expected :=
    Errors.check (P := fun e => ∀ expected, e ≠ .drawerInsufficientCash expected) (fun _ _ h => by cases h) _ _
  have hcomplete : ∀ body, Tame (fun _ : Db => ())
      (fun e => ∀ expected, e ≠ .drawerInsufficientCash expected)
      (complete key body >>= fun _ => (return body : Prog Reply)) := fun body =>
    (tame_complete (fun _ _ => rfl) (fun _ h => by cases h) key body).bind fun _ => trivial
  have hnew : Tame (fun _ : Db => ()) (fun e => ∀ expected, e ≠ .drawerInsufficientCash expected)
      (addNewEntry env actor.deviceId entry true) := by
    refine Tame.bind ?_ fun r => ?_
    · refine (tame_glance _).bind fun seen => (tame_orFail fun _ h => by cases h).bind fun k => ?_
      refine (tame_selectFor _ _ _).bind fun row => (tame_orFail fun _ h => by cases h).bind fun shift => ?_
      exact (tame_require fun _ h => by cases h).bind fun _ => trivial
    · refine (tame_require fun _ h => by cases h).bind fun _ => ?_
      -- the drawer is not counted for a queued entry
      rw [Tx.whenever, if_neg (by simp), Tx.bind_done]
      refine Tame.bind ?_ fun _ => trivial
      exact tame_insertRow (fun _ h => by cases h) fun _ => rfl
  refine (tame_claim (fun _ _ => rfl) (fun _ h => by cases h) env key _ requestHash).bind fun out => ?_
  -- a key that was used before answers with what it stored
  cases out with
  | replay body => trivial
  | reused =>
      refine Tame.bind ?_ fun own => ?_
      · rw [replayKeyOfSameDocument]
        cases (SyncOp.drawerEntry entry deviceDate opId).replayId with
        | none => trivial
        | some id =>
            refine (tame_glance _).bind fun row => ?_
            cases row with
            | none => trivial
            | some stored =>
                dsimp only
                split
                · trivial
                · exact hprobe
      · cases own with
        | some r => trivial
        | none => exact (tame_ofExcept hparse).bind fun _ _ h => by cases h
  | claimed =>
      refine hprobe.bind fun existing => ?_
      cases existing with
      | some r => exact hcomplete r
      | none =>
          refine (tame_ofExcept hparse).bind fun _ => Tame.bind ?_ hcomplete
          refine (tame_clampOpDate (fun _ _ => rfl) _ _ _ _ _).bind fun date => ?_
          refine Tame.bind ?_ fun r => (tame_glance _).bind fun balance => ?_
          · rw [addEntry]
            cases entry.id with
            | none => exact hnew
            | some id =>
                refine (tame_glance _).bind fun existing => ?_
                cases existing with
                | none => exact hnew
                | some row => exact (tame_require fun _ h => by cases h).bind fun _ => trivial
          · refine (Tame.whenever ?_).bind fun _ => trivial
            exact (tame_glance _).bind fun after => Tame.whenever (tame_update fun _ => rfl)

end

/-! ## Main result -/

section
variable {T : Type} [DecidableEq T] {s₀ : Db} {S S' : System T} {t : T} {op : Op} {a : Reply}
  {env : Env} {actor : Actor} {key requestHash : Nat} {entry : DrawerEntryBody} {deviceDate : Option Nat}
  {opId : Nat} {e : EntryId}

/-- What a queued entry does that is not on file when it commits. -/
theorem Commit.entered (h₀ : s₀.Consistent) (h : Reachable prog s₀ S)
    (hc : Commit t (.push env actor key requestHash (.drawerEntry entry deviceDate opId)) a S S')
    (hnew : S.db.drawerEntries.get (entry.id.getD env.newUuid) = none) :
    Entered entry (entry.id.getD env.newUuid) S.db S'.db := by
  have hhas : ∀ db : Db, db.has (.entry (entry.id.getD env.newUuid)) =
      (db.drawerEntries.get (entry.id.getD env.newUuid)).isSome := fun db => by
    rw [Bool.eq_iff_iff]
    exact decide_eq_true_iff
  refine hc.unwritten (f := Db.has (.entry (entry.id.getD env.newUuid)))
    (c := false) sound h₀ (fun op s hs hfile => ?_) h (by rw [hhas, hnew]; rfl) (tracks_prog rfl)
    (fun _ s s' => Entered entry (entry.id.getD env.newUuid) s s') fun s hs hfree => ?_
  · refine wp_mono (wp_prog hs op) (fun _ h => h) ?_
    rintro a H s' ⟨⟨⟨e, -, hperf⟩, -, -⟩, -⟩
    rw [hhas] at hfile
    have hkept := hperf.kept.entry (entry.id.getD env.newUuid) (eq_true_of_ne_false hfile)
    simp [hhas, hkept]
  · rw [hhas] at hfree
    refine wpHeld_entered (by simpa using hfree) (fun lk s₀ s₁ h => ?_) fun k s₀ s₁ h => ?_
    · rw [← hhas, ← hhas]
      exact h.2
    obtain ⟨hrow, hcash⟩ := View.drawer.inj h.1
    simp only [Db.expectedCash, hrow, hcash]

theorem Commit.overdrawn (h₀ : s₀.Consistent) (h : Reachable prog s₀ S) (hc : Commit t op a S S')
    (e : EntryId) : S'.db.overdrawn e = S.db.overdrawn e ∨
      op.queuedEntry = some e ∧ S.db.overdrawn e = 0 ∧ S'.db.overdrawn e = 1 :=
  hc.does sound h₀ h (fun _ s s' => ∀ e, s'.overdrawn e = s.overdrawn e ∨
    op.queuedEntry = some e ∧ s.overdrawn e = 0 ∧ s'.overdrawn e = 1)
    (fun _ hs => wpHeld_overdrawn hs op) e

theorem Commit.entry_stays (h₀ : s₀.Consistent) (h : Reachable prog s₀ S) (hc : Commit t op a S S')
    (he : (S.db.drawerEntries.get e).isSome = true) :
    (S'.db.drawerEntries.get e).isSome = true := by
  refine hc.does sound h₀ h (fun _ s s' => (s.drawerEntries.get e).isSome = true →
    (s'.drawerEntries.get e).isSome = true) (fun s hs =>
      wpHeld_of_wp (wp_mono (wp_prog hs op) (fun _ h => h) ?_)) he
  rintro a H s' ⟨⟨⟨e', -, hperf⟩, -, -⟩, -⟩
  exact hperf.kept.entry e

/-- The owner is told of entries that are on file. -/
theorem Reachable.toldOfEntries (h₀ : s₀.Consistent) (htold : s₀.ToldOfEntries)
    (h : Reachable prog s₀ S) : S.db.ToldOfEntries := by
  induction h with
  | init => exact htold
  | @step S S' hr hstep ih =>
      rcases hstep.commit_or_quiet with ⟨hdb, -⟩ | ⟨t, op, a, hc⟩
      · rw [hdb]
        exact ih
      · intro e
        rcases ih e with hzero | hfile
        · rcases Commit.overdrawn h₀ hr hc e with hsame | ⟨hop, -, hone⟩
          · exact .inl (hsame.trans hzero)
          · cases hfree : S.db.drawerEntries.get e with
            | some row => exact .inr (Commit.entry_stays h₀ hr hc (by rw [hfree]; rfl))
            | none =>
                obtain ⟨env, actor, key, requestHash, entry, deviceDate, opId, rfl, rfl⟩ :=
                  Op.of_queuedEntry hop
                rcases (Commit.entered h₀ hr hc hfree).found hfree with
                  ⟨-, hsame⟩ | ⟨k, keys, flag, -, -, hrow⟩
                · exact .inl (hsame.trans hzero)
                · exact .inr (by rw [hrow]; rfl)
        · exact .inr (Commit.entry_stays h₀ hr hc hfile)

/-- The owner is told of an overdrawn entry once, for good. -/
theorem Reachable.overdrawn_stays (h₀ : s₀.Consistent) (h : Reachable prog s₀ S)
    (hone : S.db.overdrawn e = 1) (hr : Runs S S') : S'.db.overdrawn e = 1 := by
  suffices Reachable prog s₀ S' ∧ S'.db.overdrawn e = 1 from this.2
  induction hr with
  | refl => exact ⟨h, hone⟩
  | tail _ hstep ih =>
      obtain ⟨hreach, hone⟩ := ih
      refine ⟨hreach.step hstep, ?_⟩
      rcases hstep.commit_or_quiet with ⟨hdb, -⟩ | ⟨t, op, a, hc⟩
      · rw [hdb]
        exact hone
      · rcases Commit.overdrawn h₀ hreach hc e with hsame | ⟨-, -, hstill⟩
        · exact hsame.trans hone
        · exact hstill

/-- **The drawer covers what is taken out of it at the counter, and the owner is told of what was not
covered.** Whatever else moves the drawer's cash meanwhile: a cash-out the counter stores leaves at
least nothing in the drawer when it commits. A queued one is never refused for the cash, and is on file
when it commits, unless its key had the answer. When it is stored and leaves less than nothing, the
owner is told of it once and for all. -/
theorem cash_out_covered (h₀ : s₀.Consistent) (htold : s₀.ToldOfEntries) :
    (∀ (S S' : System T) t env actor key requestHash body a, Reachable prog s₀ S →
      Commit t (.post env actor key requestHash (.entry body)) a S S' → body.type = .cashOut →
        ∀ e row, S.db.drawerEntries.get e = none → S'.db.drawerEntries.get e = some row →
          0 ≤ S'.db.expectedCash row.shiftId) ∧
    (∀ (S : System T) t env actor key requestHash entry deviceDate opId p u H expected,
      Reachable prog s₀ S →
        S.live t = some ⟨.push env actor key requestHash (.drawerEntry entry deviceDate opId), p, u, H⟩ →
          p ≠ .fail (.drawerInsufficientCash expected)) ∧
    (∀ (S S' : System T) t env actor key requestHash entry deviceDate opId a, Reachable prog s₀ S →
      Commit t (.push env actor key requestHash (.drawerEntry entry deviceDate opId)) a S S' →
        S'.db.unflagged = S.db.unflagged ∨
          (S'.db.drawerEntries.get (entry.id.getD env.newUuid)).isSome = true) ∧
    ∀ (S S' : System T) t env actor key requestHash entry deviceDate opId a, Reachable prog s₀ S →
      Commit t (.push env actor key requestHash (.drawerEntry entry deviceDate opId)) a S S' →
        entry.type = .cashOut → ∀ e row, S.db.drawerEntries.get e = none →
          S'.db.drawerEntries.get e = some row → S'.db.expectedCash row.shiftId < 0 →
            ∀ S'', Runs S' S'' → S''.db.overdrawn e = 1 := by
  refine ⟨fun S S' t env actor key requestHash body a h hc hout e row hbefore hafter => ?_,
    fun S t env actor key requestHash entry deviceDate opId p u H expected h hx hfail => ?_,
    fun S S' t env actor key requestHash entry deviceDate opId a h hc => Commit.filed h₀ h hc rfl,
    fun S S' t env actor key requestHash entry deviceDate opId a h hc hout e row hbefore hafter hless S'' hr => ?_⟩
  · exact hc.does sound h₀ h (fun _ s s' => ∀ e row, s.drawerEntries.get e = none →
      s'.drawerEntries.get e = some row → 0 ≤ s'.expectedCash row.shiftId)
      (fun s _ => wpHeld_covered hout) e row hbefore hafter
  · have hrefuses := h.refuses sound h₀ (fun op e _ => op.queuedEntry.isSome = true →
      ∀ expected, e ≠ .drawerInsufficientCash expected) ?_ hx hfail
    · exact hrefuses rfl expected rfl
    · intro op s hs
      cases hop : op.queuedEntry with
      | none =>
          exact wp_mono (wp_prog hs op) (fun _ _ hsome => by cases hsome) fun _ _ _ _ => trivial
      | some e =>
          obtain ⟨env, actor, key, requestHash, entry, deviceDate, opId, rfl, -⟩ := Op.of_queuedEntry hop
          exact wp_mono tame_queuedEntry.wp (fun _ he _ => he) fun _ _ _ _ => trivial
  · have hid := hc.does sound h₀ h (fun _ s s' => s.drawerEntries.get e = none →
      s'.drawerEntries.get e = some row → entry.id.getD env.newUuid = e)
      (fun s hs => wpHeld_entry_id hs) hbefore hafter
    subst hid
    have hzero : S.db.overdrawn (entry.id.getD env.newUuid) = 0 := by
      rcases Reachable.toldOfEntries h₀ htold h (entry.id.getD env.newUuid) with hzero | hfile
      · exact hzero
      · rw [hbefore] at hfile
        cases hfile
    refine Reachable.overdrawn_stays h₀ (h.step hc.step) ?_ hr
    rcases (Commit.entered h₀ h hc hbefore).found hbefore with
      ⟨hnone, -⟩ | ⟨k, keys, flag, hflag, hdb, hrow⟩
    · rw [hnone] at hafter
      cases hafter
    · rw [hrow] at hafter
      obtain rfl := Option.some.inj hafter
      rw [hdb] at hless ⊢
      exact overdrawn_enterQueued ((overdrawn_flagged hflag).trans hzero) hout hless

end

/-! ## Two cash-outs of one drawer

There are 500 in the drawer. The counter takes 400 while a queued cash-out of 300 is pushed. -/

def putIn : Op := .post (plainEnv 0 90) ⟨1⟩ 1 0 (.entry ⟨none, .cashIn, 500⟩)

def takeAtCounter : Op := .post (plainEnv 0 91) ⟨1⟩ 2 0 (.entry ⟨none, .cashOut, 400⟩)

def takeQueued : Op := .push (plainEnv 0 93) ⟨1⟩ 3 0 (.drawerEntry ⟨some 92, .cashOut, 300⟩ none 0)

/-- The push waits for the drawer while the counter commits. -/
def queuedAcrossCashOut : List (Turn Op Bool) :=
  [.begins false putIn, .goes false 15, .begins false takeAtCounter, .begins true takeQueued,
   .goes true 7, .goes false 15, .goes true 12]

/-- The type of the entry an operation of a push is to store. -/
def Op.queuedType : Op → Option EntryType
  | .push _ _ _ _ (.drawerEntry entry _ _) => some entry.type
  | _                                      => none

theorem Op.of_queuedType {op : Op} {type : EntryType} (h : op.queuedType = some type) :
    ∃ env actor key requestHash entry deviceDate opId,
      op = .push env actor key requestHash (.drawerEntry entry deviceDate opId) ∧ entry.type = type := by
  cases op with
  | push env actor key requestHash op =>
      cases op with
      | drawerEntry entry deviceDate opId =>
          exact ⟨env, actor, key, requestHash, entry, deviceDate, opId, rfl, Option.some.inj h⟩
      | _ => cases h
  | _ => cases h

/-- What the queue takes then is not there, and the owner is told once. -/
theorem cash_out_covered_of_queued : ∃ S S' : System Bool, Reachable prog smallShop S ∧
    Step prog S S' ∧ S.db.expectedCash 11 = 100 ∧ S'.db.expectedCash 11 = -200 ∧
      ∀ S'', Runs S' S'' → S''.db.overdrawn 92 = 1 := by
  have hrun : (((Sys.init smallShop).follow prog queuedAcrossCashOut).bind fun S =>
      (S.done true).bind fun d => (S.next true).map fun S' => (d.1.queuedType,
        S.db.expectedCash 11, S'.db.expectedCash 11, (S.db.drawerEntries.get 92).isNone &&
          (S'.db.drawerEntries.get 92).any (·.shiftId = 11))) =
            some (some .cashOut, 100, -200, true) := by
    decide +kernel
  obtain ⟨S, S', op, a, hreach, hc, htype, hlook⟩ := commit_of_turns (f := Op.queuedType)
    (g := fun db db' : Db => (db.expectedCash 11, db'.expectedCash 11,
      (db.drawerEntries.get 92).isNone && (db'.drawerEntries.get 92).any (·.shiftId = 11))) hrun
  obtain ⟨hbefore, hafter, hboth⟩ : _ ∧ _ ∧ _ := by simpa only [Prod.mk.injEq] using hlook
  obtain ⟨hnone, hstored⟩ := Bool.and_eq_true_iff.mp hboth
  refine ⟨S, S', hreach, hc.step, hbefore, hafter, ?_⟩
  obtain ⟨env, actor, key, requestHash, entry, deviceDate, opId, rfl, hout⟩ := Op.of_queuedType htype
  cases hrow : S'.db.drawerEntries.get 92 with
  | none =>
      rw [hrow] at hstored
      cases hstored
  | some row =>
      rw [hrow, Option.any_some, decide_eq_true_eq] at hstored
      refine (cash_out_covered (T := Bool) smallShop_consistent fun e => .inl rfl).2.2.2 S S' true env
        actor key requestHash entry deviceDate opId a hreach hc hout 92 row (Option.isNone_iff_eq_none.mp hnone) hrow ?_
      rw [hstored, hafter]
      decide

end Server

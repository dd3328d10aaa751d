import SrisurartPos.Server.History

/-! # Drawers are opened once

An open archives the drawer the device has and inserts the next one. `ShiftsService.open` looks for
the client's id while it holds the device's row: an earlier open of the same drawer by the same
device has committed by then, so it is found, and the second one changes nothing. -/

namespace Server

open Txn

/-- What an open of the drawer `k` by the device `d` does to the drawers. -/
inductive OpensDrawer (d : DeviceId) (clientId : Option ShiftId) (k : ShiftId) (s s' : Db) :
    Prop where
  | nothing : s'.shifts = s.shifts → OpensDrawer d clientId k s s'
  | opened : s.shifts.get k = none → (s'.shifts.get k).isSome = true → OpensDrawer d clientId k s s'
  /-- another device has opened a drawer under the id the client chose -/
  | taken (row : Shift) : clientId = some k → s.shifts.get k = some row → row.deviceId ≠ d →
      OpensDrawer d clientId k s s'
  /-- without an id: the device has another active drawer -/
  | crowded : clientId = none → 2 ≤ (s.activeShifts d).length → OpensDrawer d clientId k s s'

/-- A device has one drawer that is not archived (`uq_shift_active`). -/
def Db.OneDrawer (db : Db) : Prop := ∀ d, (db.activeShifts d).length ≤ 1

/-! ## Archiving -/

section
variable {s s' : Db} {d : DeviceId} {k : ShiftId}

/-- Archiving neither adds nor removes a drawer. -/
theorem drawersOf_archiveActive (s : Db) (d d' : DeviceId) :
    (s.archiveActive d).drawersOf d' = s.drawersOf d' := by
  rw [Db.archiveActive]
  cases (s.activeShifts d).head? with
  | none => rfl
  | some k =>
      dsimp only
      cases s.shifts.get k with
      | none => rfl
      | some row =>
          dsimp only
          split
          · exact drawersOf_archiveShift k (!row.closed) d'
          · exact drawersOf_archiveShift k (!row.closed) d'

/-- Archiving takes the device's one active drawer off the list. -/
theorem activeShifts_archiveActive (s : Db) (d d' : DeviceId) :
    (s.archiveActive d).activeShifts d' =
      (s.activeShifts d').filter fun j => (s.activeShifts d).head? ≠ some j := by
  rw [Db.archiveActive]
  cases hk : (s.activeShifts d).head? with
  | none => simp
  | some k =>
      have hmem : k ∈ s.activeShifts d := List.mem_of_mem_head? hk
      obtain ⟨row, hrow, -, -⟩ := Db.mem_activeShifts.mp hmem
      have harchived := activeShifts_archiveShift (s := s) k (!row.closed) d'
      have hfilter : ((s.activeShifts d').filter fun j => j ≠ k) =
          (s.activeShifts d').filter fun j => (some k : Option ShiftId) ≠ some j := by
        apply List.filter_congr
        intro j _
        simp [eq_comm]
      simp only [hrow]
      rw [← hfilter, ← harchived]
      split <;> rfl

/-- Where archiving leaves a drawer active, the device had two. -/
theorem crowded_of_archived {j : ShiftId}
    (h : ((s.archiveActive d).activeShifts d).head? = some j) :
    2 ≤ (s.activeShifts d).length := by
  have hmem := List.mem_of_mem_head? h
  rw [activeShifts_archiveActive, List.mem_filter] at hmem
  obtain ⟨hj, hne⟩ := hmem
  have hnot : (s.activeShifts d).head? ≠ some j := by simpa using hne
  cases hlist : s.activeShifts d with
  | nil =>
      rw [hlist] at hj
      cases hj
  | cons k rest =>
      rw [hlist] at hj hnot
      rcases List.mem_cons.mp hj with rfl | hrest
      · exact absurd rfl hnot
      · have := List.length_pos_of_mem hrest
        rw [List.length_cons]
        omega

/-! ## The open, under the device's lock -/

variable {H : Held LockKey} {env : Env} {input : OpenShiftInput}

/-- The drawer is not the device's already, so it is inserted, or its id is another device's. -/
theorem wpHeld_openNew (hd : (.device d, .update) ∈ H)
    (hnew : ∀ id, input.id = some id → id ∉ s.drawersOf d) :
    wpHeld agree (openNew env d input) H s fun _ _ s' =>
      OpensDrawer d input.id (input.id.getD env.newUuid) s s' := by
  refine wpHeld_bind.mpr (wpHeld_of_wp (wp_archive hd fun H' hH hcov => ?_))
  have hfree : (s.archiveActive d).shifts.get (input.id.getD env.newUuid) = none →
      s.shifts.get (input.id.getD env.newUuid) = none := by
    intro hnone
    cases hrow : s.shifts.get (input.id.getD env.newUuid) with
    | none => rfl
    | some row =>
        have := (kept_archiveActive s d).shift _ (by rw [hrow]; rfl)
        rw [hnone] at this
        cases this
  refine wpHeld_bind_selectFor (wpHeld_bind_query ?_)
  cases hthere : (s.archiveActive d).shifts.get (input.id.getD env.newUuid) with
  | none =>
      cases hactive : ((s.archiveActive d).activeShifts d).head? with
      | none =>
          refine .opened (hfree hthere) ?_
          show (((s.archiveActive d).shifts.insert _ _).get _).isSome = true
          rw [Table.get_insert_self hthere]
          rfl
      | some j =>
          cases hid : input.id with
          | some _ => trivial
          | none =>
              refine wpHeld_bind_glance fun s₀ _ => ?_
              cases s₀.shifts.get j with
              | none => trivial
              | some winner => exact .crowded rfl (crowded_of_archived hactive)
  | some winner =>
      cases hid : input.id with
      | some k =>
          rw [hid] at hthere
          -- the id is on file, and not for a drawer of this device
          have hother : k ∉ s.drawersOf d := hnew k hid
          have hkept : ∃ row, s.shifts.get k = some row := by
            have hmem : k ∈ (s.archiveActive d).drawersOf winner.deviceId :=
              Db.mem_drawersOf.mpr ⟨winner, hthere, rfl⟩
            rw [drawersOf_archiveActive] at hmem
            obtain ⟨row, hrow, -⟩ := Db.mem_drawersOf.mp hmem
            exact ⟨row, hrow⟩
          obtain ⟨row, hrow⟩ := hkept
          refine .taken row rfl hrow fun hdev => ?_
          exact hother (Db.mem_drawersOf.mpr ⟨row, hrow, hdev⟩)
      | none =>
          cases hactive : ((s.archiveActive d).activeShifts d).head? with
          | none => trivial
          | some j =>
              refine wpHeld_bind_glance fun s₀ _ => ?_
              cases s₀.shifts.get j with
              | none => trivial
              | some winner => exact .crowded rfl (crowded_of_archived hactive)

/-- **An open, with the device's row held, finds every drawer the device has opened.** -/
theorem wpHeld_openShift {actor : Actor} :
    wpHeld agree (openShift env actor input) H s fun _ _ s' =>
      OpensDrawer actor.deviceId input.id (input.id.getD env.newUuid) s s' := by
  have hheld : (.device actor.deviceId, .update) ∈
      ((.device actor.deviceId, .update) :: H : Held LockKey) := List.mem_cons_self
  refine wpHeld_bind_selectFor (wpHeld_bind_orFail fun device _ => ?_)
  refine wpHeld_bind_require fun _ => ?_
  cases hid : input.id with
  | none =>
      have hopen : wpHeld agree (openNew env actor.deviceId input) _ s _ :=
        wpHeld_openNew hheld fun id hsome => by rw [hid] at hsome; cases hsome
      rw [hid] at hopen
      exact hopen
  | some id =>
      refine wpHeld_bind_glance fun s₀ hs₀ => ?_
      cases hexisting : s₀.shifts.get id with
      | none =>
          -- the device's drawers are under its lock: what was not there then is not there now
          have hsame : s₀.drawersOf actor.deviceId = s.drawersOf actor.deviceId :=
            (View.device.inj (hs₀ _ hheld)).2.2
          have hopen : wpHeld agree (openNew env actor.deviceId input) _ s _ :=
            wpHeld_openNew hheld fun id' hsome hmem => by
              obtain rfl := Option.some.inj (hid.symm.trans hsome)
              rw [← hsame] at hmem
              obtain ⟨row, hrow, -⟩ := Db.mem_drawersOf.mp hmem
              rw [hexisting] at hrow
              cases hrow
          rw [hid] at hopen
          exact hopen
      | some row => exact wpHeld_bind_require fun _ => .nothing rfl

/-! ## The transactions around it -/

/-- The drawers are the books': the desk does not matter. -/
theorem OpensDrawer.at_desk {clientId : Option ShiftId} {desk desk' : Desk}
    (h : OpensDrawer d clientId k (s.withDesk desk) s') :
    OpensDrawer d clientId k s (s'.withDesk desk') := by
  cases h with
  | nothing hsame => exact .nothing hsame
  | opened hfree hthere => exact .opened hfree hthere
  | taken row hid hrow hdev => exact .taken row hid hrow hdev
  | crowded hid hlen => exact .crowded hid hlen

/-- What the work of a request opens, the request opens: the key's row is of another table. -/
theorem wpHeld_runIdempotent {key requestHash : Nat} {endpoint : Endpoint} {work : Prog Reply}
    {clientId : Option ShiftId}
    (hwork : ∀ H' desk, wpHeld agree work H' (s.withDesk desk) fun _ _ s' =>
      OpensDrawer d clientId k (s.withDesk desk) s') :
    wpHeld agree (runIdempotent env key endpoint requestHash work) H s fun _ _ s' =>
      OpensDrawer d clientId k s s' := by
  refine wpHeld_bind.mpr (wpHeld_of_wp (wp_claim fun out H₁ desk hH hcov hclaim => ?_))
  cases out with
  | reused => trivial
  | replay body => exact .nothing rfl
  | claimed =>
      refine wpHeld_seq (hwork H₁ desk) fun body H₂ s₂ hopens => ?_
      refine wpHeld_bind.mpr (wpHeld_of_wp (wp_complete fun H₃ desk₃ _ _ _ _ => ?_))
      exact hopens.at_desk

/-- A pushed open opens the drawer of its own id, or none. -/
theorem wpHeld_pushOpen {actor : Actor} {key requestHash : Nat} {input : ShiftOpenBody} {openedAt : Option Nat}
    {opId : Nat} : wpHeld agree
      (processSingleOp env actor key requestHash (.shiftOpen input openedAt opId)) H s fun _ _ s' =>
        OpensDrawer actor.deviceId input.id (input.id.getD env.newUuid) s s' := by
  refine wpHeld_bind.mpr (wpHeld_of_wp (wp_claim fun out H₁ desk hH hcov hclaim => ?_))
  cases out with
  | replay body => exact .nothing rfl
  | reused =>
      refine wpHeld_bind.mpr (wpHeld_of_wp (wp_replayKeyOfSameDocument fun own desk₂ _ _ => ?_))
      cases own with
      | some r => exact .nothing rfl
      | none =>
          cases hparse : (SyncOp.shiftOpen input openedAt opId).parse with
          | error e => trivial
          | ok u => trivial
  | claimed =>
      refine wpHeld_bind.mpr (wpHeld_of_wp (wp_checkClientIdReplay fun existing desk₂ _ _ => ?_))
      cases existing with
      | some r =>
          refine wpHeld_bind.mpr (wpHeld_of_wp (wp_complete fun H₃ desk₃ _ _ _ _ => ?_))
          exact .nothing rfl
      | none =>
          cases hparse : (SyncOp.shiftOpen input openedAt opId).parse with
          | error e => trivial
          | ok u =>
              refine wpHeld_bind_glance fun s₀ _ => wpHeld_bind.mpr ?_
              show wpHeld agree (flagFutureOpen _ _ _ >>= _) _ _ _
              refine wpHeld_bind.mpr (wpHeld_of_wp (wp_flagFutureOpen fun desk₃ _ _ => ?_))
              refine wpHeld_seq wpHeld_openShift fun r H₂ s₂ hopens => ?_
              -- the reply is put together without another statement
              show wpHeld agree (complete key _ >>= _) _ _ _
              refine wpHeld_bind.mpr (wpHeld_of_wp (wp_complete fun H₃ desk₄ _ _ _ _ => ?_))
              have hflagged : OpensDrawer actor.deviceId input.id (input.id.getD env.newUuid)
                  (s.withDesk desk₃) s₂ := hopens
              exact hflagged.at_desk

end

/-- The drawer an operation opens: its device, the client's id, and the id it goes by. -/
def Op.opening : Op → Option (DeviceId × Option ShiftId × ShiftId)
  | .post env actor _ _ (.openShift input) =>
      some (actor.deviceId, input.id, input.id.getD env.newUuid)
  | .push env actor _ _ (.shiftOpen input _ _) =>
      some (actor.deviceId, input.id, input.id.getD env.newUuid)
  | _ => none

/-- Whatever the operation opens, it opens once. -/
def Op.Opens (op : Op) (s s' : Db) : Prop :=
  ∀ d clientId k, op.opening = some (d, clientId, k) → OpensDrawer d clientId k s s'

theorem Op.Opens.of_none {op : Op} {s s' : Db} (h : op.opening = none) : op.Opens s s' := by
  intro d clientId k hopen
  rw [h] at hopen
  cases hopen

/-- No transaction opens more than its own drawer. -/
theorem wpHeld_opens (op : Op) (s : Db) (hs : s.Consistent) :
    wpHeld agree (prog op) [] s fun _ _ s' => op.Opens s s' := by
  have hother : op.opening = none → wpHeld agree (prog op) [] s fun _ _ s' => op.Opens s s' :=
    fun hnone => wpHeld_of_wp (wp_mono (wp_prog hs op) (fun _ h => h) fun _ _ _ _ => .of_none hnone)
  have hwrap : ∀ {p : Prog Reply} {d clientId k}, op.opening = some (d, clientId, k) →
      (wpHeld agree p [] s fun _ _ s' => OpensDrawer d clientId k s s') →
        wpHeld agree p [] s fun _ _ s' => op.Opens s s' := by
    intro p d clientId k hopen hp
    refine wpHeld_mono hp fun _ _ s' hopens => ?_
    intro d' clientId' k' hopen'
    obtain ⟨rfl, hrest⟩ := Prod.mk.inj (Option.some.inj (hopen.symm.trans hopen'))
    obtain ⟨rfl, rfl⟩ := Prod.mk.inj hrest
    exact hopens
  cases op with
  | post env actor key requestHash req =>
      cases req with
      | openShift input =>
          refine hwrap rfl (wpHeld_runIdempotent fun H' desk => ?_)
          show wpHeld agree (Tx.ofExcept (parseCash _ _) >>= _) _ _ _
          cases parseCash input.startingCashSatang "startingCash" with
          | error e => trivial
          | ok u =>
              show wpHeld agree (openShift env actor (input.at none) >>= _) _ _ _
              exact wpHeld_seq wpHeld_openShift fun r H₂ s₂ hopens => hopens
      | _ => exact hother rfl
  | push env actor key requestHash op =>
      cases op with
      | shiftOpen input openedAt opId => exact hwrap rfl wpHeld_pushOpen
      | _ => exact hother rfl
  | reportUnsynced d n => exact hother rfl
  | cleanup now => exact hother rfl

/-- **Every open of a history opens its drawer once.** -/
theorem Traced.opens {T : Type} [DecidableEq T] {s₀ : Db} {cs : List Committed} {S : System T}
    (h₀ : s₀.Consistent) (h : Traced s₀ cs S) : ∀ c ∈ cs, c.op.Opens c.before c.after :=
  h.commits Op.Opens h₀ wpHeld_opens

/-! ## One active drawer -/

/-- A device that has one drawer has one after every change. -/
theorem Changes.oneDrawer {e : Effect} {s s' : Db} (h : Changes s e s') (hs : s.OneDrawer) :
    s'.OneDrawer := by
  have harchive : ∀ (t : Db) k b, t.OneDrawer → (t.archiveShift k b).OneDrawer := by
    intro t k b ht d
    rw [activeShifts_archiveShift]
    exact (List.length_filter_le _ _).trans (ht d)
  have hclose : ∀ (t : Db) k cash, t.OneDrawer → (t.closeShift k cash).OneDrawer := by
    intro t k cash ht d
    rw [activeShifts_closeShift]
    exact ht d
  cases h with
  | openShift d next openedAt hnew =>
      have harchived : (s.archiveActive d).OneDrawer := by
        intro d'
        rw [activeShifts_archiveActive]
        exact (List.length_filter_le _ _).trans (hs d')
      have hempty : (s.archiveActive d).activeShifts d = [] := by
        cases hhead : ((s.archiveActive d).activeShifts d).head? with
        | none => exact List.head?_eq_none_iff.mp hhead
        | some j =>
            have := crowded_of_archived hhead
            have := hs d
            omega
      cases next with
      | none => exact harchived
      | some kc =>
          obtain ⟨k, c⟩ := kc
          intro d'
          show (((s.archiveActive d).insertShift k (newShift d c openedAt)).activeShifts d').length ≤ 1
          rw [activeShifts_insertShift (hnew k c rfl)]
          by_cases hd : d = d'
          · subst hd
            simp [hempty, newShift]
          · have := harchived d'
            simpa [newShift, hd] using this
  | closeShift d k row cash hrow hopen => exact hclose s k cash hs
  | retire s₁ d hclosed =>
      cases hclosed with
      | none => exact hs
      | archived k row hrow hc => exact harchive s k false hs
      | counted j k row cash hrow hopen => exact harchive _ k false (hclose s j cash hs)
  | _ => exact hs

theorem Performs.oneDrawer {e : Effect} {s s' : Db} (h : Performs e s s') (hs : s.OneDrawer) :
    s'.OneDrawer := by
  obtain ⟨t, desk, hch, rfl⟩ := h
  exact hch.oneDrawer hs

end Server

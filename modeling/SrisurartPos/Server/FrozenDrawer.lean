import SrisurartPos.Server.System

/-! # A closed drawer is frozen

The cash a drawer should hold is added up from four tables whenever somebody asks. Still it does not
change once the drawer is closed or archived: every document that moves cash is stamped with an open
drawer, which it holds locked, and a bill is only undone in a way that leaves the drawer it was sold
from alone. -/

namespace Server

open Txn

/-- The drawer is there and no longer takes documents. -/
def Db.Frozen (k : ShiftId) (db : Db) : Prop :=
  ∃ row, db.shifts.get k = some row ∧ (row.closed = true ∨ row.isActive = false)

section
variable {s s' : Db} {k : ShiftId}

/-- An open drawer is another one. -/
theorem Db.Frozen.ne (h : s.Frozen k) {j : ShiftId} {d : DeviceId}
    (hopen : ∃ shift, s.shifts.get j = some shift ∧ shift.isOpenOn d = true) : k ≠ j := by
  rintro rfl
  obtain ⟨row, hrow, hclosed⟩ := h
  obtain ⟨shift, hshift, hopen⟩ := hopen
  obtain rfl := Option.some.inj (hrow.symm.trans hshift)
  unfold Shift.isOpenOn at hopen
  rcases hclosed with hc | ha
  · simp [hc] at hopen
  · simp [ha] at hopen

/-- A frozen drawer stays frozen. -/
theorem Db.Frozen.kept (h : s.Frozen k) (hk : Kept s s') : s'.Frozen k := by
  obtain ⟨row, hrow, hclosed⟩ := h
  rcases hclosed with hc | ha
  · have hany := hk.closed k (by simp [hrow, hc])
    obtain ⟨row', hrow', hc'⟩ := (Option.any_eq_true _ _).mp hany
    exact ⟨row', hrow', .inl hc'⟩
  · have hany := hk.archived k (by simp [hrow, ha])
    obtain ⟨row', hrow', ha'⟩ := (Option.any_eq_true _ _).mp hany
    exact ⟨row', hrow', .inr (by simpa using ha')⟩

/-- The expected cash is made of the cash the drawer started with and what has moved since. -/
theorem expectedCash_congr (hstart : (s'.shifts.get k).map (·.startingCash) =
    (s.shifts.get k).map (·.startingCash)) (hcash : s'.drawerCash k = s.drawerCash k) :
    s'.expectedCash k = s.expectedCash k := by
  unfold Db.expectedCash
  rw [hcash]
  cases hrow : s.shifts.get k with
  | none =>
      rw [hrow] at hstart
      rw [Option.map_eq_none_iff.mp hstart]
  | some row =>
      rw [hrow] at hstart
      obtain ⟨row', hrow', heq⟩ := Option.map_eq_some_iff.mp hstart
      rw [hrow']
      simp only [heq]

/-! ## What leaves it alone -/

theorem startingCash_modify {t : Table ShiftId Shift} {j : ShiftId} {f : Shift → Shift}
    (hf : ∀ row, (f row).startingCash = row.startingCash) :
    ((t.modify j f).get k).map (·.startingCash) = (t.get k).map (·.startingCash) := by
  rw [Table.get_modify]
  split
  · rw [Option.map_map]
    congr 1
    funext row
    exact hf row
  · rfl

theorem expectedCash_archiveShift (j : ShiftId) (neverClosed : Bool) :
    (s.archiveShift j neverClosed).expectedCash k = s.expectedCash k := by
  apply expectedCash_congr
  · exact startingCash_modify fun _ => rfl
  · rfl

theorem expectedCash_closeShift (j : ShiftId) (cash : Int) :
    (s.closeShift j cash).expectedCash k = s.expectedCash k := by
  apply expectedCash_congr
  · exact startingCash_modify fun _ => rfl
  · rfl

/-- Archiving does not change the cash of a drawer. -/
theorem expectedCash_archiveActive (d : DeviceId) :
    (s.archiveActive d).expectedCash k = s.expectedCash k := by
  rw [Db.archiveActive]
  cases (s.activeShifts d).head? with
  | none => rfl
  | some j =>
      dsimp only
      cases s.shifts.get j with
      | none => rfl
      | some row =>
          dsimp only
          split
          · exact expectedCash_archiveShift j (!row.closed)
          · exact expectedCash_archiveShift j (!row.closed)

/-- A bill is counted in its own drawer. -/
theorem cashOfSale_ne {x : SaleId} {sale : Sale} (h : sale.shiftId ≠ some k) :
    s.cashOfSale k x sale = 0 := by
  rw [Db.cashOfSale, if_neg]
  rintro ⟨hk, -⟩
  exact h hk

theorem drawerCash_recordSale {x : SaleId} {row : Sale} {moves : List (ProductId × Int)}
    (hx : s.sales.get x = none) (hshift : row.shiftId ≠ some k) :
    (s.recordSale x row moves).drawerCash k = s.drawerCash k := by
  have hins := drawerCash_insertSale hx row k
  rw [cashOfSale_ne hshift, add_zero] at hins
  exact hins

/-- A note against a bill that is not voided moves the cash of the drawer it is paid from only. -/
theorem drawerCash_insertNote {r : ReturnId} {note : Return} {sale : Sale}
    (hr : s.returns.get r = none) (hx : s.sales.get note.saleId = some sale)
    (hlive : sale.voided = false) (hshift : note.shiftId ≠ some k) :
    (s.insertReturn r note).drawerCash k = s.drawerCash k := by
  have hpaid : Db.cashOfReturn k r note = 0 := by
    rw [Db.cashOfReturn, if_neg]
    rintro ⟨hk, -⟩
    exact hshift hk
  -- it was counted before the note, and it still is
  have hcounted : (s.insertReturn r note).cashOfSale k note.saleId sale =
      s.cashOfSale k note.saleId sale := by
    simp [Db.cashOfSale, Db.counted, hlive]
  rw [drawerCash_insertReturn hr, hpaid, hx]
  simp only [Option.elim_some, hcounted]
  omega

theorem drawerCash_autoVoid {x : SaleId} {items : List SaleItem} (hn : s.notesOf x ≠ []) :
    (s.autoVoid x items).drawerCash k = s.drawerCash k := by
  by_cases hlt : refundedTotal (noteLines (s.notesOf x)) < soldTotal items
  · rw [Db.autoVoid, if_pos hlt]
  · rw [Db.autoVoid, if_neg hlt]
    exact drawerCash_voided (f := fun sale => { sale with voided := true }) hn
      (fun v => ⟨rfl, rfl, rfl⟩) k

/-! ## One step -/

/-- **No change of the books moves the cash of a frozen drawer.** -/
theorem Changes.frozen {e : Effect} (h : Changes s e s') (hk : s.Frozen k) :
    s'.expectedCash k = s.expectedCash k := by
  cases h with
  | none => rfl
  -- a bill goes into an open drawer, and this one is not open
  | sale actor dto j row hsrc hadm =>
      have hne := hk.ne hadm.drawer
      obtain ⟨n, account, locked, rfl⟩ := hadm.stored
      apply expectedCash_congr
      · rfl
      · apply drawerCash_recordSale hadm.insertable.fresh
        intro heq
        exact hne (Option.some.inj heq).symm
  -- the note's drawer is open; the bill's may be frozen, and its void takes nothing more
  | creditNote actor r dto sale note hparse hadm hnew =>
      obtain ⟨n, j, hnote⟩ := hadm.stored
      have hx : s.sales.get note.saleId = some sale := by
        rw [hnote]
        exact hadm.bill
      have hshift : note.shiftId ≠ some k := by
        intro heq
        exact hk.ne (hadm.drawer k heq) rfl
      have hins := drawerCash_insertNote (k := k) hnew hx hadm.live hshift
      -- a bill with a note counts in its drawer, voided or not
      have hn : (s.recordReturn r note (aggregateReturn dto.items) sale).notesOf dto.saleId ≠ [] := by
        show (s.insertReturn r note).notesOf dto.saleId ≠ []
        rw [notesOf_insertReturn hnew, hnote]
        simp [noteRow]
      apply expectedCash_congr
      · rfl
      · rw [drawerCash_autoVoid hn]
        exact hins
  -- a void by hand asks for the bill's own drawer, open
  | voidSale actor x reason sale j hadm =>
      have hne := hk.ne hadm.drawer
      apply expectedCash_congr
      · rfl
      · exact drawerCash_void hadm.bill hadm.shift hne
  | creditPayment actor i m dto row hparse hadm hnew =>
      obtain ⟨j, shift, hj, hshift, hopen⟩ := hadm.drawer
      have hne := hk.ne ⟨shift, hshift, hopen⟩
      have hpaid : Db.cashOfPayment k i row = 0 := by
        rw [Db.cashOfPayment, if_neg]
        rintro ⟨hk', -⟩
        rw [hj] at hk'
        exact hne (Option.some.inj hk').symm
      have hins := drawerCash_insertPayment hnew row k
      rw [hpaid, add_zero] at hins
      exact expectedCash_congr rfl hins
  | adjustStock p input row hparse hrow hmax => rfl
  | receivePo lower i ids po states unmatched hpo hopen hids hstates => rfl
  -- the drawer before is archived, and the one that opens is new
  | openShift d next openedAt hnew =>
      rw [← expectedCash_archiveActive (s := s) d]
      cases next with
      | none => rfl
      | some kc =>
          have hfree := hnew kc.1 kc.2 rfl
          have hne : k ≠ kc.1 := by
            rintro rfl
            obtain ⟨row, hrow, -⟩ := hk.kept (kept_archiveActive s d)
            rw [hfree] at hrow
            cases hrow
          apply expectedCash_congr
          · show (((s.archiveActive d).shifts.insert kc.1 _).get k).map _ = _
            rw [Table.get_insert_ne _ hne]
          · rfl
  | closeShift d j row cash hrow hopen => exact expectedCash_closeShift j cash
  -- what was counted before the device went stays as it was counted
  | retire s₁ d hclosed =>
      cases hclosed with
      | none => rfl
      | archived j row hrow hc => exact expectedCash_archiveShift j false
      | counted i j row cash hrow hopen =>
          rw [expectedCash_archiveShift]
          exact expectedCash_closeShift i cash
  | entry d e entry j row hrow hopen hnew =>
      have hne := hk.ne ⟨row, hrow, hopen⟩
      have hcash : Db.cashOfEntry k e ⟨j, entry.type, entry.amountSatang⟩ = 0 := by
        rw [Db.cashOfEntry, if_neg]
        exact fun heq => hne heq.symm
      have hins := drawerCash_insertEntry hnew ⟨j, entry.type, entry.amountSatang⟩ k
      rw [hcash, add_zero] at hins
      exact expectedCash_congr rfl hins
  | editMechanic m patch row hrow halive => rfl
  | createCustomer c input code hnew => rfl
  | editCustomer c patch row hrow halive => rfl

theorem Performs.frozen {e : Effect} (h : Performs e s s') (hk : s.Frozen k) :
    s'.expectedCash k = s.expectedCash k := by
  obtain ⟨t, desk, hch, rfl⟩ := h
  exact hch.frozen hk

/-- What a close does to the drawer's row. The expected cash is not stored. -/
theorem Performs.closeShift_row {d : DeviceId} {cash : Int}
    (h : Performs (.closeShift d k cash) s s') : s'.shifts.get k =
      (s.shifts.get k).map fun row => { row with closed := true, physicalCash := some cash } := by
  obtain ⟨t, desk, hch, rfl⟩ := h
  cases hch with
  | closeShift _ _ row _ hrow hopen => exact Table.get_modify_self _ _ _

theorem Performs.closeShift_cash {d : DeviceId} {cash : Int}
    (h : Performs (.closeShift d k cash) s s') : s'.expectedCash k = s.expectedCash k := by
  obtain ⟨t, desk, hch, rfl⟩ := h
  cases hch with
  | closeShift _ _ row _ hrow hopen => exact expectedCash_closeShift k cash

end

/-! ## Main result -/

section
variable {T : Type} [DecidableEq T] {s₀ : Db} {S S' : System T} {k : ShiftId}

/-- **A closed drawer is frozen.** Whatever runs after the transaction that closed or archived it,
its expected cash stays what it was; and a close stores what was counted, and changes nothing of
what was expected. -/
theorem closed_drawer_frozen (h₀ : s₀.Consistent) (h : Reachable prog s₀ S) :
    (S.db.Frozen k → Runs S S' → S'.db.expectedCash k = S.db.expectedCash k) ∧
      ∀ d cash s', Performs (.closeShift d k cash) S.db s' →
        s'.Frozen k ∧ s'.expectedCash k = S.db.expectedCash k ∧
          s'.shifts.get k = (S.db.shifts.get k).map fun row =>
            { row with closed := true, physicalCash := some cash } := by
  constructor
  · intro hk hr
    have hJ : S'.db.Frozen k ∧ S'.db.expectedCash k = S.db.expectedCash k := by
      apply Reachable.stable (fun db => db.Frozen k ∧ db.expectedCash k = S.db.expectedCash k)
        h₀ h ⟨hk, rfl⟩ _ hr
      rintro e s s' _ ⟨hfrozen, hcash⟩ hperf
      exact ⟨hfrozen.kept hperf.kept, (hperf.frozen hfrozen).trans hcash⟩
    exact hJ.2
  · intro d cash s' hperf
    have hrow := hperf.closeShift_row
    refine ⟨?_, hperf.closeShift_cash, hrow⟩
    obtain ⟨t, desk, hch, rfl⟩ := hperf
    cases hch with
    | closeShift _ _ row _ hget hopen =>
        rw [hget] at hrow
        exact ⟨_, hrow, .inl rfl⟩

/-- A drawer that is closed after one cash bill, with a count that does not agree. -/
def countedDay : List Op :=
  [.post (plainEnv 0 90) ⟨1⟩ 1 0 (.sale (cashBill 21 2 (by decide)) none),
   .post (plainEnv 1 91) ⟨1⟩ 2 0 (.closeShift 150)]

/-- No column of the closed drawer holds the expected cash. -/
theorem close_stores_the_count : ∃ S : System Nat, Reachable prog smallShop S ∧
    S.db.expectedCash 11 = 200 ∧ S.db.shifts.get 11 = some
      { deviceId := 1, startingCash := 0, openedAt := 0, isActive := true, closed := true,
        physicalCash := some 150, autoArchived := false } := by
  obtain ⟨S, hreach, hdb⟩ : ∃ S : System Nat, Reachable prog smallShop S ∧
      S.db = rowsAfter prog countedDay smallShop := reachable_rowsAfter (by decide +kernel)
  refine ⟨S, hreach, ?_, ?_⟩
  · rw [hdb]
    decide +kernel
  · rw [hdb]
    decide +kernel

/-- The day after the drawer was closed. -/
theorem closed_drawer_frozen_of_countedDay : ∃ S : System Nat, Reachable prog smallShop S ∧
    S.db.Frozen 11 ∧ ∀ S' : System Nat, Runs S S' → S'.db.expectedCash 11 = S.db.expectedCash 11 := by
  obtain ⟨S, hreach, hdb⟩ : ∃ S : System Nat, Reachable prog smallShop S ∧
      S.db = rowsAfter prog countedDay smallShop := reachable_rowsAfter (by decide +kernel)
  have hfrozen : S.db.Frozen 11 := by
    have hany : ((rowsAfter prog countedDay smallShop).shifts.get 11).any (·.closed) = true := by
      decide +kernel
    obtain ⟨row, hrow, hc⟩ := (Option.any_eq_true _ _).mp hany
    exact ⟨row, hdb ▸ hrow, .inl hc⟩
  exact ⟨S, hreach, hfrozen, fun S' hr => (closed_drawer_frozen smallShop_consistent hreach).1 hfrozen hr⟩

end

end Server

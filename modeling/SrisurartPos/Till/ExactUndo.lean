import SrisurartPos.Till.LedgerRows

/-! # What a discard gives back -/

namespace Cache

open Server Money

/-- No note and no queued void names the bill. -/
structure AppDatabase.Unheard (x : SaleId) (db : AppDatabase) : Prop where
  returns : ∀ {r note}, db.returns.get r = some note → note.saleId ≠ x
  voids : db.queuedVoidsOf x = []

/-! ## Rows in whole satang -/

section
variable {db db' db₁ db₂ : AppDatabase} {opId key now : Nat} {x : SaleId} {r : ReturnId}
  {kind : OpKind}

/-! ## The queue -/

namespace AppDatabase

theorem taken_false (h : ¬db.taken opId = true) : (∀ op ∈ db.outboxOps, op.opId ≠ opId) ∧
    (∀ op ∈ db.otherOps, op.opId ≠ opId) ∧ db.opEffects.get opId = none := by
  simp only [taken, Bool.or_eq_true, not_or, List.any_eq_true, decide_eq_true_eq, not_exists,
    not_and] at h
  obtain ⟨⟨hbills, hothers⟩, heffects⟩ := h
  exact ⟨hbills, hothers, by simpa using heffects⟩

section
variable {P : Type} {ops : List (Till.OutboxOp P)} {op : Till.OutboxOp P}

end

end AppDatabase

/-! ## A bill -/

section
variable {input : SaleInput} {byId : Table ProductId ProductRow} {shiftId : Option ShiftId}
  {no : Option DocNo} {sale : SaleRow} {t t' : Db}

namespace AppDatabase

/-- What an offline sale writes: its tables, and the record of their effects. -/
theorem of_saveOfflineTx
    (h : db.saveOfflineTx opId key x input byId shiftId no now = .ok (sale, db')) :
    ¬db.taken opId = true ∧ ∃ tables,
      Cache.saveOfflineTx opId key x input byId shiftId no now db.toDb = .ok (sale, tables) ∧
        db' = db.record opId (saleEffects input db.toDb) tables := by
  rw [saveOfflineTx] at h
  cases hsave : Cache.saveOfflineTx opId key x input byId shiftId no now db.toDb with
  | error e =>
      rw [hsave] at h
      cases h
  | ok r =>
      rw [hsave] at h
      simp only at h
      split at h
      · cases h
      · rename_i hfree
        obtain ⟨rfl, rfl⟩ := Prod.mk.inj (Except.ok.inj h)
        exact ⟨hfree, r.2, rfl, rfl⟩

end AppDatabase

end

/-! ## The void of a bill -/

section
variable {reason : String} {sale voided : SaleRow} {t t' : Db}

theorem live_of_voidSaleOffline (hrow : t.sales.get x = some sale)
    (h : Cache.voidSaleOffline opId key x reason now t = .ok (voided, t')) : sale.voided = false := by
  simp only [Cache.voidSaleOffline, hrow] at h
  split at h
  · cases h
  · split at h
    · cases h
    · rename_i hlive
      simpa using hlive

namespace AppDatabase

/-- What an offline void writes. -/
theorem of_voidSaleOffline
    (h : db.voidSaleOffline opId key x reason now = .ok (voided, db')) :
    ¬db.taken opId = true ∧ ∃ sale tables, db.sales.get x = some sale ∧
      Cache.voidSaleOffline opId key x reason now db.toDb = .ok (voided, tables) ∧
        db' = db.record opId (voidEffects x sale db.toDb) tables := by
  rw [voidSaleOffline] at h
  cases hvoid : Cache.voidSaleOffline opId key x reason now db.toDb with
  | error e =>
      rw [hvoid] at h
      cases h
  | ok r =>
      cases hrow : db.sales.get x with
      | none =>
          rw [hvoid] at h
          simp only [hrow] at h
          cases h
      | some sale =>
          rw [hvoid] at h
          simp only [hrow] at h
          split at h
          · cases h
          · rename_i hfree
            obtain ⟨rfl, rfl⟩ := Prod.mk.inj (Except.ok.inj h)
            exact ⟨hfree, sale, r.2, rfl, rfl, rfl⟩

end AppDatabase

end

/-! ## A credit note -/

section
variable {input : ReturnInput} {no : Option DocNo} {note : ReturnRow} {sale : SaleRow}
  {plan : ReturnPlan} {t : Db}

namespace AppDatabase

/-- What an offline note writes: the note, its bill, the ledgers and the record. -/
theorem of_createOffline
    (h : db.createOffline opId key r x input no now = .ok (note, db')) :
    ¬db.taken opId = true ∧ db.returns.get r = none ∧ ∃ sale plan, db.sales.get x = some sale ∧
      sale.voided = false ∧ note = noteRow x sale input plan now ∧
      planReturn sale (db.refundedQty x) input (sale.customerId.bind db.customers.get)
        (sale.mechanicId.bind db.mechanics.get) = .ok plan ∧
      db' = { db.record opId (returnEffects x sale input plan db.toDb)
                (writeNote r x sale input plan now db.toDb) with
              otherOps := db.otherOps ++ [⟨opId, ⟨key, .returnCreate r⟩,
                Till.returnAggregates r x db.openShift, now, .pending, 0⟩] } := by
  rw [createOffline] at h
  simp only at h
  split at h
  · cases h
  · cases hrow : db.sales.get x with
    | none =>
        rw [hrow] at h
        cases h
    | some sale =>
        rw [hrow] at h
        simp only at h
        split at h
        · cases h
        · rename_i hlive
          split at h
          · cases h
          · cases hplan : planReturn sale (db.refundedQty x) input
                (sale.customerId.bind db.customers.get) (sale.mechanicId.bind db.mechanics.get) with
            | error lines =>
                rw [hplan] at h
                cases h
            | ok plan =>
                rw [hplan] at h
                simp only at h
                split at h
                · cases h
                · split at h
                  · cases h
                  · rename_i hfree
                    obtain ⟨hr, hfree⟩ := not_or.mp hfree
                    obtain ⟨rfl, rfl⟩ := Prod.mk.inj (Except.ok.inj h)
                    exact ⟨hfree, by simpa using hr, sale, plan, rfl, by simpa using hlive, rfl,
                      hplan, rfl⟩

end AppDatabase

end

/-! ## A new customer and an edit of one

Their discard takes the operation out and undoes nothing: the row stays as it was written. -/

namespace AppDatabase

end AppDatabase

/-! ## A bill with its void -/

section
variable {input : SaleInput} {shiftId : Option ShiftId} {receiptNo : DocNo}

end

theorem shiftOf_offlineRow {input : SaleInput} {receiptNo : DocNo} {shiftId : Option ShiftId}
    (p : ProductId) :
    shiftOf (offlineRow input receiptNo shiftId now).moves p = wantedQty input.items p := by
  rw [shiftOf, SaleRow.moves, offlineRow, List.map_map, List.map_map]
  rfl

section
variable {input : SaleInput} {byId : Table ProductId ProductRow} {shiftId : Option ShiftId}
  {no : Option DocNo} {sale voided : SaleRow} {opId' key' now' : Nat} {reason : String}

section
variable {t t₁ t₁' t₂ : Db}
  (hsave : saveOfflineTx opId key x input byId shiftId no now t = .ok (sale, t₁))
  (hleft : input.ledgerRows.Same t₁ t₁') (hrow : t₁'.sales.get x = some sale)
  (hvoid : Cache.voidSaleOffline opId' key' x reason now' t₁' = .ok (voided, t₂))
include hsave hleft hrow hvoid

end

namespace AppDatabase

end AppDatabase

end

/-! ## What a bill takes -/

section
variable {input : SaleInput}

end

end

end Cache

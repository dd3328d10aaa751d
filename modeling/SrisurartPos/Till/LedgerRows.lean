import SrisurartPos.Till.Discard

/-! # The rows of an operation

A document made offline names products, a customer and a mechanic, and moves their rows alone; the
undo of its record moves the same rows back. So what other operations do to other rows in between
neither stops a discard nor is lost by it. -/

namespace Cache

open Server Money

/-- The rows with running totals that a document names. -/
structure LedgerRows where
  products : List ProductId
  customerId : Option CustomerId
  mechanicId : Option MechanicId

def SaleInput.ledgerRows (input : SaleInput) : LedgerRows :=
  ⟨input.items.map (·.productId), input.customerId, input.mechanicId⟩

def SaleRow.ledgerRows (sale : SaleRow) : LedgerRows :=
  ⟨sale.moves.map Prod.fst, sale.customerId, sale.mechanicId⟩

def ReturnInput.ledgerRows (sale : SaleRow) (input : ReturnInput) : LedgerRows :=
  ⟨input.moves.map Prod.fst, sale.customerId, sale.mechanicId⟩

namespace LedgerRows

/-- These rows are in the second as they are in the first. -/
structure Same (rows : LedgerRows) (db db' : Db) : Prop where
  products : ∀ p ∈ rows.products, db'.products.get p = db.products.get p
  customers : ∀ c ∈ rows.customerId, db'.customers.get c = db.customers.get c
  mechanics : ∀ m ∈ rows.mechanicId, db'.mechanics.get m = db.mechanics.get m

/-- And so are all others. -/
structure SameElse (rows : LedgerRows) (db db' : Db) : Prop where
  products : ∀ p ∉ rows.products, db'.products.get p = db.products.get p
  customers : ∀ c ∉ rows.customerId, db'.customers.get c = db.customers.get c
  mechanics : ∀ m ∉ rows.mechanicId, db'.mechanics.get m = db.mechanics.get m

/-- No row is named by both. -/
structure Disjoint (rows rows' : LedgerRows) : Prop where
  products : ∀ p ∈ rows.products, p ∉ rows'.products
  customers : ∀ c ∈ rows.customerId, c ∉ rows'.customerId
  mechanics : ∀ m ∈ rows.mechanicId, m ∉ rows'.mechanicId

variable {rows : LedgerRows} {db db' db'' : Db}

theorem Same.refl (rows : LedgerRows) (db : Db) : rows.Same db db :=
  ⟨fun _ _ => rfl, fun _ _ => rfl, fun _ _ => rfl⟩

theorem Same.trans (h : rows.Same db db') (h' : rows.Same db' db'') : rows.Same db db'' where
  products := fun p hp => (h'.products p hp).trans (h.products p hp)
  customers := fun c hc => (h'.customers c hc).trans (h.customers c hc)
  mechanics := fun m hm => (h'.mechanics m hm).trans (h.mechanics m hm)

theorem SameElse.trans (h : rows.SameElse db db') (h' : rows.SameElse db' db'') :
    rows.SameElse db db'' where
  products := fun p hp => (h'.products p hp).trans (h.products p hp)
  customers := fun c hc => (h'.customers c hc).trans (h.customers c hc)
  mechanics := fun m hm => (h'.mechanics m hm).trans (h.mechanics m hm)

end LedgerRows

/-! ## The undo of a record -/

/-- The record is of these rows alone. -/
structure AppliedEffects.Within (rows : LedgerRows) (e : AppliedEffects) : Prop where
  products : ∀ p ∉ rows.products, e.moved p = 0
  customer : ∀ u ∈ e.customer, u.id ∈ rows.customerId
  mechanic : ∀ u ∈ e.mechanic, u.id ∈ rows.mechanicId

section
variable {e : AppliedEffects} {rows : LedgerRows} {db db' : Db}

/-- What the undo makes of a row is up to that row alone. -/
theorem LedgerRows.Same.undo (h : rows.Same db db') : rows.Same (e.undo db) (e.undo db') where
  products := by
    intro p hp
    show (undoStock e.stock db'.products).get p = (undoStock e.stock db.products).get p
    rw [get_undoStock, get_undoStock, h.products p hp]
  customers := by
    intro c hc
    show (e.customer.elim db'.customers _).get c = (e.customer.elim db.customers _).get c
    cases e.customer with
    | none => exact h.customers c hc
    | some u => simp only [Option.elim_some, Table.get_modify, h.customers c hc]
  mechanics := by
    intro m hm
    show (e.mechanic.elim db'.mechanics _).get m = (e.mechanic.elim db.mechanics _).get m
    cases e.mechanic with
    | none => exact h.mechanics m hm
    | some u => simp only [Option.elim_some, Table.get_modify, h.mechanics m hm]

/-- And it leaves the rows alone that the record is not of. -/
theorem AppliedEffects.Within.undo (h : e.Within rows) (db : Db) : rows.SameElse db (e.undo db) where
  products := by
    intro p hp
    show (undoStock e.stock db.products).get p = _
    rw [get_undoStock, h.products p hp]
    cases db.products.get p with
    | none => rfl
    | some row => simp
  customers := by
    intro c hc
    show (e.customer.elim db.customers _).get c = _
    cases hu : e.customer with
    | none => rfl
    | some u =>
        refine Table.get_modify_ne _ ?_ _
        rintro rfl
        exact hc (h.customer u hu)
  mechanics := by
    intro m hm
    show (e.mechanic.elim db.mechanics _).get m = _
    cases hu : e.mechanic with
    | none => rfl
    | some u =>
        refine Table.get_modify_ne _ ?_ _
        rintro rfl
        exact hm (h.mechanic u hu)

/-! ### The records of the three documents -/

theorem moved_saleEffects (input : SaleInput) (t : Db) (p : ProductId) :
    (saleEffects input t).moved p = -wantedQty input.items p := by
  rw [moved_addStock _ rfl, shiftOf, List.map_map, wantedQty, List.sum_neg, List.map_map]
  congr 1
  apply List.map_congr_left
  intro i _
  show (if i.productId = p then -i.qty else 0) = -(if i.productId = p then i.qty else 0)
  split
  · rfl
  · exact neg_zero.symm

end

/-! ## What comes between an operation and its discard -/

namespace AppDatabase

/-- It leaves alone the rows that the operation `opId` moved, the bill it is about, and its own. -/
structure LeavesAlone (opId : Nat) (x : SaleId) (rows : LedgerRows) (db db' : AppDatabase) : Prop where
  ledgers : rows.Same db.toDb db'.toDb
  bill : db'.sales.get x = db.sales.get x
  kind : db'.kindOf opId = db.kindOf opId
  record : db'.opEffects.get opId = db.opEffects.get opId

/-- And it adds no note of the bill, and neither queues a void of it nor takes one from the queue. -/
structure LeavesBillAlone (opId : Nat) (x : SaleId) (rows : LedgerRows) (db db' : AppDatabase) : Prop
    extends LeavesAlone opId x rows db db' where
  notes : ∀ {r note}, db'.returns.get r = some note → note.saleId = x → db.returns.get r = some note
  voids : db'.queuedVoidsOf x = db.queuedVoidsOf x

/-- What the operations `ops` write: their own rows, those of their document and of its bill, and the
rows it names. -/
structure Applied (ops : List Nat) (rows : LedgerRows) (x : SaleId) (note : Option ReturnId)
    (before after : AppDatabase) : Prop where
  ledgers : rows.SameElse before.toDb after.toDb
  sales : ∀ y ≠ x, after.sales.get y = before.sales.get y
  returns : ∀ r ∉ note, after.returns.get r = before.returns.get r
  ownNote : ∀ r ∈ note, before.returns.get r = none ∧
    ∀ row, after.returns.get r = some row → row.saleId = x
  voids : ∀ y ≠ x, after.queuedVoidsOf y = before.queuedVoidsOf y
  shifts : after.shifts = before.shifts
  outboxOps : after.outboxOps.filter (·.opId ∉ ops) = before.outboxOps
  otherOps : after.otherOps.filter (·.opId ∉ ops) = before.otherOps
  opEffects : ∀ i, before.opEffects.get i = if i ∈ ops then none else after.opEffects.get i
  contacts : after.contacts = before.contacts
  movements : after.movements = before.movements

/-- What their discard leaves: the rows of the document as they were before it, everything else as it
is `now`, and the operations gone. -/
structure TakenBack (ops : List Nat) (rows : LedgerRows) (x : SaleId) (note : Option ReturnId)
    (before now after : AppDatabase) : Prop where
  ledgers : rows.Same before.toDb after.toDb
  others : rows.SameElse now.toDb after.toDb
  sales : ∀ y, after.sales.get y = if y = x then before.sales.get x else now.sales.get y
  returns : ∀ r, after.returns.get r = if r ∈ note then none else now.returns.get r
  shifts : after.shifts = now.shifts
  outboxOps : after.outboxOps = now.outboxOps.filter (·.opId ∉ ops)
  otherOps : after.otherOps = now.otherOps.filter (·.opId ∉ ops)
  opEffects : ∀ i, after.opEffects.get i = if i ∈ ops then none else now.opEffects.get i
  contacts : after.contacts = now.contacts
  movements : after.movements = now.movements

/-- Row by row the database is as it was. -/
structure Restored (db db' : AppDatabase) : Prop where
  products : ∀ p, db'.products.get p = db.products.get p
  customers : ∀ c, db'.customers.get c = db.customers.get c
  mechanics : ∀ m, db'.mechanics.get m = db.mechanics.get m
  sales : ∀ x, db'.sales.get x = db.sales.get x
  returns : ∀ r, db'.returns.get r = db.returns.get r
  shifts : db'.shifts = db.shifts
  outboxOps : db'.outboxOps = db.outboxOps
  otherOps : db'.otherOps = db.otherOps
  opEffects : ∀ i, db'.opEffects.get i = db.opEffects.get i
  contacts : db'.contacts = db.contacts
  movements : db'.movements = db.movements

variable {ops : List Nat} {rows : LedgerRows} {x : SaleId} {note : Option ReturnId}
  {db db' db'' : AppDatabase}

theorem LeavesAlone.refl (opId : Nat) (x : SaleId) (rows : LedgerRows) (db : AppDatabase) :
    LeavesAlone opId x rows db db :=
  ⟨.refl rows db.toDb, rfl, rfl, rfl⟩

theorem LeavesBillAlone.refl (opId : Nat) (x : SaleId) (rows : LedgerRows) (db : AppDatabase) :
    LeavesBillAlone opId x rows db db :=
  ⟨.refl opId x rows db, fun h _ => h, rfl⟩

/-- With nothing in between, all is as it was. -/
theorem TakenBack.restored (h : TakenBack ops rows x note db db' db'')
    (happlied : Applied ops rows x note db db') : db.Restored db'' where
  products := by
    intro p
    by_cases hp : p ∈ rows.products
    · exact h.ledgers.products p hp
    · exact (h.others.products p hp).trans (happlied.ledgers.products p hp)
  customers := by
    intro c
    by_cases hc : c ∈ rows.customerId
    · exact h.ledgers.customers c hc
    · exact (h.others.customers c hc).trans (happlied.ledgers.customers c hc)
  mechanics := by
    intro m
    by_cases hm : m ∈ rows.mechanicId
    · exact h.ledgers.mechanics m hm
    · exact (h.others.mechanics m hm).trans (happlied.ledgers.mechanics m hm)
  sales := by
    intro y
    rw [h.sales]
    split
    · rename_i hy
      rw [hy]
    · rename_i hy
      exact happlied.sales y hy
  returns := by
    intro r
    rw [h.returns]
    split
    · rename_i hr
      exact (happlied.ownNote r hr).1.symm
    · rename_i hr
      exact happlied.returns r hr
  shifts := h.shifts.trans happlied.shifts
  outboxOps := h.outboxOps.trans happlied.outboxOps
  otherOps := h.otherOps.trans happlied.otherOps
  opEffects := fun i => (h.opEffects i).trans (happlied.opEffects i).symm
  contacts := h.contacts.trans happlied.contacts
  movements := h.movements.trans happlied.movements

end AppDatabase

end Cache

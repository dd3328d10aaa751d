import SrisurartPos.Till.OfflineSales

/-! # What an offline operation applied (`applied_effects.dart`)

With every bill, void and credit note made offline the till records by how much each running total
moved: what it is after the write less what it was before, so that a clamp is recorded as what it
let through. To undo the operation is to take that off again, with the money rounded to satang. -/

namespace Cache

open Server Money

structure CustomerEffect where
  id : CustomerId
  spend : ℚ
  points : Int
  deriving DecidableEq

structure MechanicEffect where
  id : MechanicId
  sales : ℚ
  discount : ℚ
  markup : ℚ
  credit : ℚ
  deriving DecidableEq

structure AppliedEffects where
  stock : Table ProductId Int
  customer : Option CustomerEffect
  mechanic : Option MechanicEffect
  /-- the bill the operation flipped to voided -/
  voidedSaleId : Option SaleId

namespace AppliedEffects

/-- `stock[productId] = (stock[productId] ?? 0) + delta`, for each of `moves`. -/
def addStock (moves : List (ProductId × Int)) (stock : Table ProductId Int) : Table ProductId Int :=
  moves.foldl (fun t m => t.upsert m.1 ((t.get m.1).getD 0 + m.2)) stock

/-- By how much the operation moved the stock of a product. -/
def moved (e : AppliedEffects) (p : ProductId) : Int := (e.stock.get p).getD 0

end AppliedEffects

/-- `AppliedEffects.customer` -/
def CustomerEffect.of (id : CustomerId) (before after : CustomerRow) : CustomerEffect :=
  { id := id
    spend := after.totalSpend - before.totalSpend
    points := after.points - before.points }

/-- `AppliedEffects.mechanic` -/
def MechanicEffect.of (id : MechanicId) (before : MechanicRow) (after : MechanicTotals) :
    MechanicEffect :=
  { id := id
    sales := after.totalSales - before.totalSales
    discount := after.totalDiscount - before.totalDiscount
    markup := after.totalMarkup - before.totalMarkup
    credit := after.creditBalance - before.creditBalance }

def MechanicRow.totals (m : MechanicRow) : MechanicTotals :=
  ⟨m.totalSales, m.totalDiscount, m.totalMarkup, m.creditBalance⟩

def MechanicRow.withTotals (m : MechanicRow) (t : MechanicTotals) : MechanicRow :=
  { m with
    totalSales := t.totalSales
    totalDiscount := t.totalDiscount
    totalMarkup := t.totalMarkup
    creditBalance := t.creditBalance }

def CustomerEffect.undo (e : CustomerEffect) (c : CustomerRow) : CustomerRow :=
  { totalSpend := round2 (c.totalSpend - e.spend)
    points := c.points - e.points }

def MechanicEffect.undo (e : MechanicEffect) (m : MechanicRow) : MechanicRow :=
  { m with
    totalSales := round2 (m.totalSales - e.sales)
    totalDiscount := round2 (m.totalDiscount - e.discount)
    totalMarkup := round2 (m.totalMarkup - e.markup)
    creditBalance := round2 (m.creditBalance - e.credit) }

def SaleRow.unvoid (sale : SaleRow) : SaleRow :=
  { sale with voided := false, voidedAt := none, voidReason := none }

/-- Takes the recorded deltas off the products. -/
def undoStock (stock : Table ProductId Int) (products : Table ProductId ProductRow) :
    Table ProductId ProductRow :=
  stock.rows.foldl (fun t e => t.modify e.1 fun p => { p with stock := p.stock - e.2 }) products

/-- `AppliedEffects.undo` -/
def AppliedEffects.undo (e : AppliedEffects) (db : Db) : Db :=
  { db with
    products := undoStock e.stock db.products
    customers := e.customer.elim db.customers fun c => db.customers.modify c.id c.undo
    mechanics := e.mechanic.elim db.mechanics fun m => db.mechanics.modify m.id m.undo
    sales := updateNamed e.voidedSaleId SaleRow.unvoid db.sales }

/-! ## What each operation records -/

/-- The effect on the customer a document names, if there is one. -/
def customerEffect (key : Option CustomerId) (f : CustomerRow → CustomerRow)
    (customers : Table CustomerId CustomerRow) : Option CustomerEffect :=
  key.bind fun id => (customers.get id).map fun c => .of id c (f c)

def mechanicEffect (key : Option MechanicId) (f : MechanicRow → MechanicTotals)
    (mechanics : Table MechanicId MechanicRow) : Option MechanicEffect :=
  key.bind fun id => (mechanics.get id).map fun m => .of id m (f m)

/-- The products of `moves` that the till has. -/
def known (products : Table ProductId ProductRow) (moves : List (ProductId × Int)) :
    List (ProductId × Int) :=
  moves.filter fun m => (products.get m.1).isSome

/-- The lines of a bill or a note as moves of the stock. -/
def SaleRow.moves (sale : SaleRow) : List (ProductId × Int) :=
  sale.items.map fun i => (i.productId, i.qty)

def ReturnRow.moves (note : ReturnRow) : List (ProductId × Int) :=
  note.items.map fun i => (i.productId, i.qty)

/-- What `_saveOffline` applies. -/
def saleEffects (input : SaleInput) (db : Db) : AppliedEffects :=
  { stock := AppliedEffects.addStock (input.items.map fun i => (i.productId, -i.qty)) .empty
    customer := customerEffect input.customerId (CustomerRow.sell input) db.customers
    mechanic := mechanicEffect input.mechanicId (fun m => (m.sell input).totals) db.mechanics
    voidedSaleId := none }

/-- What `voidSaleOffline` applies. -/
def voidEffects (x : SaleId) (sale : SaleRow) (db : Db) : AppliedEffects :=
  { stock := AppliedEffects.addStock
      (known db.products sale.moves) .empty
    customer := customerEffect sale.customerId (CustomerRow.undo sale) db.customers
    mechanic := mechanicEffect sale.mechanicId (fun m => (m.undo sale).totals) db.mechanics
    voidedSaleId := some x }

/-! ## The database with its records -/

structure MovementRow where
  productId : ProductId
  delta : Int
  deriving DecidableEq

/-- The columns of a customer's row that no bill moves. -/
structure Contact where
  code : String
  name : String
  nameTH : String
  phone : Option String
  address : Option String
  deriving DecidableEq

/-- What an edit of a customer gives; a field it leaves out stays. -/
structure ContactPatch where
  name : Option String
  nameTH : Option String
  phone : Option (Option String)
  address : Option (Option String)
  deriving DecidableEq

def ContactPatch.write (patch : ContactPatch) (c : Contact) : Contact :=
  { c with
    name := patch.name.getD c.name
    nameTH := patch.nameTH.getD c.nameTH
    phone := patch.phone.getD c.phone
    address := patch.address.getD c.address }

/-- An operation that is neither a bill nor the void of one. -/
inductive OtherOp where
  /-- `'return.create'` -/
  | returnCreate (id : ReturnId)
  /-- `'customer.create'` -/
  | customerCreate (id : CustomerId) (contact : Contact)
  /-- `'customer.update'` -/
  | customerUpdate (id : CustomerId) (patch : ContactPatch)
  /-- `'shift.open'` -/
  | shiftOpen (id : ShiftId)
  /-- `'drawer.entry'` -/
  | drawerEntry (id : EntryId)
  /-- `'credit_payment.create'` -/
  | creditPaymentCreate (id : PaymentId)
  deriving DecidableEq

structure OtherQueued where
  idempotencyKey : Nat
  op : OtherOp
  deriving DecidableEq

/-- The database of the till. Its outbox is in two parts, the operations of bills in `outboxOps`, and
so are the rows of the customers, with their totals in `customers`. -/
structure AppDatabase extends Db where
  contacts : Table CustomerId Contact
  otherOps : List (Till.OutboxOp OtherQueued)
  opEffects : Table Nat AppliedEffects
  movements : List MovementRow

namespace AppDatabase

/-- An operation or a record is there under this id. -/
def taken (opId : Nat) (db : AppDatabase) : Bool :=
  db.outboxOps.any (·.opId = opId) || db.otherOps.any (·.opId = opId) ||
    (db.opEffects.get opId).isSome

/-- What a write to the tables leaves, with its record. -/
def record (opId : Nat) (effects : AppliedEffects) (db : AppDatabase) (tables : Db) : AppDatabase :=
  { db with toDb := tables, opEffects := db.opEffects.insert opId effects }

/-- `queueOfflineCustomer` -/
def queueOfflineCustomer (opId key : Nat) (c : CustomerId) (contact : Contact) (now : Nat)
    (db : AppDatabase) : Except PosError AppDatabase :=
  if db.taken opId then .error .constraint
  else .ok { db with
    customers := db.customers.upsert c ⟨0, 0⟩
    contacts := db.contacts.upsert c contact
    otherOps := db.otherOps ++ [⟨opId, ⟨key, .customerCreate c contact⟩, Till.customerAggregates c, now,
      .pending, 0⟩] }

/-- `queueOfflineUpdate` -/
def queueOfflineUpdate (opId key : Nat) (c : CustomerId) (patch : ContactPatch) (now : Nat)
    (db : AppDatabase) : Except PosError AppDatabase :=
  if db.taken opId then .error .constraint
  else .ok { db with
    contacts := db.contacts.modify c patch.write
    otherOps := db.otherOps ++ [⟨opId, ⟨key, .customerUpdate c patch⟩, Till.customerAggregates c, now,
      .pending, 0⟩] }

/-- The transaction of `_saveOffline` -/
def saveOfflineTx (opId key : Nat) (x : SaleId) (input : SaleInput)
    (byId : Table ProductId ProductRow) (effectiveShiftId : Option ShiftId) (receiptNo : Option DocNo)
    (now : Nat) (db : AppDatabase) : Except PosError (SaleRow × AppDatabase) :=
  match Cache.saveOfflineTx opId key x input byId effectiveShiftId receiptNo now db.toDb with
  | .error e            => .error e
  | .ok (sale, tables)  =>
      if db.taken opId then .error .constraint
      else .ok (sale, db.record opId (saleEffects input db.toDb) tables)

/-- `voidSaleOffline` -/
def voidSaleOffline (opId key : Nat) (x : SaleId) (reason : String) (now : Nat) (db : AppDatabase) :
    Except PosError (SaleRow × AppDatabase) :=
  match Cache.voidSaleOffline opId key x reason now db.toDb with
  | .error e              => .error e
  | .ok (voided, tables)  =>
      match db.sales.get x with
      | none      => .error .saleNotFound
      | some sale =>
          if db.taken opId then .error .constraint
          else .ok (voided, db.record opId (voidEffects x sale db.toDb) tables)

end AppDatabase

/-! ## Credit notes -/

/-- The errors of a credit note made offline, under their codes. -/
inductive ReturnError where
  | noOpenShift
  | saleNotFound
  | saleVoided
  | refundMethodNotAllowed
  | exceeds (lines : List OverLine)
  | offlineSeedRequired
  | constraint
  deriving DecidableEq

/-- The open shift that was opened last. -/
def Db.openShift (db : Db) : Option ShiftId :=
  ((db.shifts.rows.filter fun e => e.2.isActive && e.2.closedAt.isNone).argmax (·.2.openedAt)).map
    Prod.fst

/-- Each line is put back on the row as it is then. -/
def putBack (moves : List (ProductId × Int)) (products : Table ProductId ProductRow) :
    Table ProductId ProductRow :=
  moves.foldl (fun t m => t.modify m.1 fun p => { p with stock := p.stock + m.2 }) products

/-- The note as the till stores it. -/
def noteRow (x : SaleId) (sale : SaleRow) (input : ReturnInput) (plan : ReturnPlan) (now : Nat) :
    ReturnRow :=
  { saleId := x
    refundTotal := plan.refundTotal
    refundMethod := input.refundMethod
    customerId := sale.customerId
    mechanicId := sale.mechanicId
    date := now
    items := input.items.map fun i =>
      { productId := i.productId, name := i.name, qty := i.qty, price := i.price } }

def ReturnInput.moves (input : ReturnInput) : List (ProductId × Int) :=
  input.items.map fun i => (i.productId, i.qty)

/-- What `_createOffline` applies. -/
def returnEffects (x : SaleId) (sale : SaleRow) (input : ReturnInput) (plan : ReturnPlan) (db : Db) :
    AppliedEffects :=
  { stock := AppliedEffects.addStock (known db.products input.moves) .empty
    customer := plan.customerAfter.bind fun after => customerEffect sale.customerId (fun _ => after)
      db.customers
    mechanic := plan.mechanicAfter.bind fun after => mechanicEffect sale.mechanicId (fun _ => after)
      db.mechanics
    voidedSaleId := if plan.voidsSale then some x else none }

/-- And what it writes to the tables. -/
def writeNote (r : ReturnId) (x : SaleId) (sale : SaleRow) (input : ReturnInput) (plan : ReturnPlan)
    (now : Nat) (db : Db) : Db :=
  { db with
    returns := db.returns.insert r (noteRow x sale input plan now)
    products := putBack input.moves db.products
    customers := plan.customerAfter.elim db.customers fun after =>
      updateNamed sale.customerId (fun _ => after) db.customers
    mechanics := plan.mechanicAfter.elim db.mechanics fun after =>
      updateNamed sale.mechanicId (·.withTotals after) db.mechanics
    sales :=
      if plan.voidsSale then
        db.sales.modify x fun s => { s with voided := true, voidedAt := some now }
      else db.sales }

/-- `_createOffline`. `cnNo` is what the till's own series issues, none before it has one. -/
def AppDatabase.createOffline (opId key : Nat) (r : ReturnId) (x : SaleId) (input : ReturnInput)
    (cnNo : Option DocNo) (now : Nat) (db : AppDatabase) :
    Except ReturnError (ReturnRow × AppDatabase) :=
  let openShift := db.openShift
  if input.refundMethod = .cash ∧ openShift = none then .error .noOpenShift
  else
    match db.sales.get x with
    | none      => .error .saleNotFound
    | some sale =>
        if sale.voided then .error .saleVoided
        else if input.refundMethod = .deductFromCredit ∧ sale.mechanicId = none then
          .error .refundMethodNotAllowed
        else
          match planReturn sale (db.refundedQty x) input (sale.customerId.bind db.customers.get)
              (sale.mechanicId.bind db.mechanics.get) with
          | .error lines => .error (.exceeds lines)
          | .ok plan     =>
              if cnNo = none then .error .offlineSeedRequired
              else if (db.returns.get r).isSome ∨ db.taken opId then .error .constraint
              else
                .ok (noteRow x sale input plan now,
                  { db.record opId (returnEffects x sale input plan db.toDb)
                      (writeNote r x sale input plan now db.toDb) with
                    otherOps := db.otherOps ++
                      [⟨opId, ⟨key, .returnCreate r⟩, Till.returnAggregates r x openShift, now,
                        .pending, 0⟩] })

/-! ## What the undo leaves -/

section
variable {t : Table ProductId ProductRow} {moves : List (ProductId × Int)} {p : ProductId}

theorem shiftOf_cons (m : ProductId × Int) :
    shiftOf (m :: moves) p = (if m.1 = p then m.2 else 0) + shiftOf moves p := rfl

theorem shiftOf_nonneg (h : ∀ m ∈ moves, 0 ≤ m.2) (p : ProductId) :
    0 ≤ shiftOf moves p := by
  apply List.sum_nonneg
  intro n hn
  obtain ⟨m, hm, rfl⟩ := List.mem_map.mp hn
  split
  · exact h m hm
  · exact le_rfl

theorem shiftOf_pos (h : ∀ m ∈ moves, 0 < m.2)
    {m : ProductId × Int} (hm : m ∈ moves) : 0 < shiftOf moves m.1 := by
  refine lt_of_lt_of_le (h m hm) (List.single_le_sum (fun n hn => ?_) _
    (List.mem_map.mpr ⟨m, hm, if_pos rfl⟩))
  obtain ⟨m', hm', rfl⟩ := List.mem_map.mp hn
  split
  · exact (h m' hm').le
  · exact le_rfl

theorem shiftOf_neg (moves : List (ProductId × Int)) (p : ProductId) :
    shiftOf (moves.map fun m => (m.1, -m.2)) p = -shiftOf moves p := by
  rw [shiftOf, shiftOf, List.map_map, List.sum_neg, List.map_map]
  congr 1
  apply List.map_congr_left
  intro m _
  show (if m.1 = p then -m.2 else 0) = -(if m.1 = p then m.2 else 0)
  split
  · rfl
  · exact neg_zero.symm

/-- The record of an operation holds, for each product, the sum of its moves. -/
theorem get_addStock (stock : Table ProductId Int) :
    ((AppliedEffects.addStock moves stock).get p).getD 0 =
      (stock.get p).getD 0 + shiftOf moves p := by
  induction moves generalizing stock with
  | nil => exact (add_zero _).symm
  | cons m moves ih =>
      rw [AppliedEffects.addStock, List.foldl_cons, ← AppliedEffects.addStock, ih,
        Table.get_upsert, shiftOf_cons]
      by_cases hp : p = m.1
      · subst hp
        rw [if_pos rfl, if_pos rfl, Option.getD_some, add_assoc]
      · rw [if_neg hp, if_neg (Ne.symm hp), zero_add]

@[simp] theorem moved_addStock (e : AppliedEffects) (h : e.stock = AppliedEffects.addStock moves .empty) :
    e.moved p = shiftOf moves p := by
  rw [AppliedEffects.moved, h, get_addStock]
  exact zero_add _

/-- Undoing a record moves each product by what the record says. -/
theorem get_putBack : (putBack moves t).get p =
    (t.get p).map fun row => { row with stock := row.stock + shiftOf moves p } := by
  induction moves generalizing t with
  | nil => simp [putBack, shiftOf]
  | cons m moves ih =>
      show (putBack moves (t.modify m.1 _)).get p = _
      rw [ih, Table.get_modify, shiftOf_cons]
      by_cases hp : p = m.1
      · subst hp
        rw [if_pos rfl, if_pos rfl, Option.map_map]
        congr 1
        funext row
        simp only [Function.comp_apply, add_assoc]
      · rw [if_neg hp, if_neg (Ne.symm hp), zero_add]

/-- What is put back leaves no stock below zero. -/
theorem putBack_nonneg {moves : List (ProductId × Int)} (h : ∀ m ∈ moves, 0 ≤ m.2)
    {t : Table ProductId ProductRow} (ht : ∀ {p row}, t.get p = some row → 0 ≤ row.stock) :
    ∀ {p row}, (putBack moves t).get p = some row → 0 ≤ row.stock := by
  intro p row hrow
  rw [get_putBack] at hrow
  obtain ⟨old, hold, rfl⟩ := Option.map_eq_some_iff.mp hrow
  exact add_nonneg (ht hold) (shiftOf_nonneg h p)

theorem restoreStock_eq (sale : SaleRow) (t : Table ProductId ProductRow) :
    restoreStock sale.items t = putBack sale.moves t := by
  rw [restoreStock, putBack, SaleRow.moves, List.foldl_map]

theorem get_undoStock (e : AppliedEffects) : (undoStock e.stock t).get p =
    (t.get p).map fun row => { row with stock := row.stock - e.moved p } := by
  have hget := Table.get_foldl_modify e.stock
    (fun d row => ({ row with stock := row.stock - d } : ProductRow)) t p
  refine hget.trans ?_
  rw [AppliedEffects.moved]
  cases e.stock.get p with
  | none => simp
  | some d => rfl

/-- Of a product the till has, all its moves are known. -/
theorem shiftOf_known (hp : (t.get p).isSome = true) : shiftOf (known t moves) p = shiftOf moves p := by
  rw [shiftOf, known, Table.sum_filter_map, shiftOf]
  congr 1
  apply List.map_congr_left
  intro m _
  by_cases hm : m.1 = p
  · rw [if_pos hm, hm, if_pos hp]
  · rw [if_neg hm, ite_self]

theorem shiftOf_known_of_none (hp : t.get p = none) : shiftOf (known t moves) p = 0 := by
  apply shiftOf_of_notMem
  intro hmem
  obtain ⟨m, hm, rfl⟩ := List.mem_map.mp hmem
  have hsome := (List.mem_filter.mp hm).2
  rw [hp] at hsome
  cases hsome

end

/-! ### The totals -/

section
variable {ν : Type} {key : Option Nat} {k : Nat}

end

end Cache

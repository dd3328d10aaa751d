import SrisurartPos.Server.Reports

/-! # A shop's export and its restore (`tenant-snapshot.ts`, `tenant-import.service.ts`)

The stores that money reports are computed from: the rows as the tables hold them, what
`buildTenantSnapshot` writes of them, and what `writeSnapshot` makes of that.

A movement's product is a row of `products` (a foreign key), so that the export of a shop asks for no
tombstone. The order in which a query returns its rows is left out. -/

namespace Import

open Server Money

/-- In microseconds, as the database keeps it. -/
abbrev Timestamp := Int

/-! ## The tables -/

/-- A row of `credit_payments`. One that was imported may have no method. -/
@[ext]
structure PaymentRow where
  receiptNo : DocNo
  mechanicId : MechanicId
  amount : Int
  paymentMethod : Option PaymentMethod
  shiftId : Option ShiftId
  /-- `CHECK (amount > 0)` -/
  amount_pos : 0 < amount
  deriving Repr

instance : DecidableEq PaymentRow := fun _ _ => decidable_of_iff _ PaymentRow.ext_iff.symm

/-- A row of `shifts`. One that was imported belongs to no device. -/
structure ShiftRow where
  deviceId : Option DeviceId
  startingCash : Int
  isActive : Bool
  closed : Bool
  physicalCash : Option Int
  autoArchived : Bool
  deriving DecidableEq, Repr

/-- The books of a shop. -/
structure Books where
  products : Table ProductId Product
  sales : Table SaleId Sale
  returns : Table ReturnId Return
  creditPayments : Table PaymentId PaymentRow
  shifts : Table ShiftId ShiftRow
  drawerEntries : Table EntryId DrawerEntry
  paymentAccounts : List AccountId
  saleDate : SaleId → Timestamp
  noteDate : ReturnId → Timestamp
  paymentDate : PaymentId → Timestamp
  /-- of the settings, if the shop has any; in hundredths of a percent -/
  taxRate : Option Int
  /-- a request names a method, and an import puts cash for none -/
  refundMethod_named : ∀ r note, returns.get r = some note → note.refundMethod ≠ .other ""

/-! ## The file

An amount is written in baht with two decimals and read back alike, so it is in satang here too. A
field the export leaves out where it is `NULL`, and the import reads as `NULL` where it is absent, is
an `Option`. -/

structure ProductData where
  id : ProductId
  partNo : String
  name : String
  cost : Int
  stock : Int
  /-- there is a `deletedAt` -/
  deleted : Bool

structure SaleItemData where
  productId : ProductId
  name : String
  qty : Int
  price : Int
  cost : Option Int
  /-- what the pre-flight checks of a line -/
  qty_pos : 0 < qty

structure SaleData where
  id : SaleId
  receiptNo : DocNo
  subtotal : Int
  discount : Int
  total : Int
  paymentMethod : PaymentMethod
  customerId : Option CustomerId
  mechanicId : Option MechanicId
  mechanicDelta : Option Int
  pointsGranted : Int
  date : Timestamp
  voided : Bool
  paymentAccountId : Option AccountId
  items : List SaleItemData

structure ReturnItemData where
  productId : ProductId
  name : String
  qty : Int
  price : Int
  originalQty : Option Int
  qty_pos : 0 < qty

structure ReturnData where
  id : ReturnId
  cnNo : DocNo
  saleId : SaleId
  refundSubtotal : Int
  refundDiscount : Int
  refundTotal : Int
  refundMethod : RefundMethod
  customerId : Option CustomerId
  mechanicId : Option MechanicId
  date : Timestamp
  items : List ReturnItemData

structure CreditPaymentData where
  id : PaymentId
  receiptNo : DocNo
  mechanicId : MechanicId
  amount : Int
  method : Option PaymentMethod
  date : Timestamp
  /-- what the pre-flight checks of a payment -/
  amount_pos : 0 < amount

structure EntryData where
  id : EntryId
  type : EntryType
  amount : Int

structure ShiftData where
  id : ShiftId
  startingCash : Int
  /-- there is a `closedAt` -/
  closed : Bool
  physicalCash : Option Int
  autoArchived : Bool
  entries : List EntryData

/-- The `sa_…` stores. -/
structure Snapshot where
  products : List ProductData
  sales : List SaleData
  returns : List ReturnData
  creditPayments : List CreditPaymentData
  cashDrawer : Option ShiftData
  shiftHistory : List ShiftData
  paymentAccounts : List AccountId
  /-- of `sa_settings` -/
  taxRate : Option Int

/-! ## The export -/

/-- Milliseconds are kept. -/
def iso (t : Timestamp) : Timestamp := t / 1000 * 1000

def productToJson (p : ProductId) (row : Product) : ProductData :=
  { id := p, partNo := row.partNo, name := row.name, cost := row.cost, stock := row.stock,
    -- the query does not even read `deleted_at`
    deleted := false }

def saleItemToJson (i : SaleItem) : SaleItemData :=
  { productId := i.productId, name := i.name, qty := i.qty, price := i.price, cost := i.costAtSale,
    qty_pos := i.qty_pos }

def returnItemToJson (i : ReturnItem) : ReturnItemData :=
  { productId := i.productId, name := i.name, qty := i.qty, price := i.price,
    originalQty := i.originalQty, qty_pos := i.qty_pos }

namespace Books

variable (b : Books)

def saleToJson (x : SaleId) (s : Sale) : SaleData :=
  { id := x
    receiptNo := s.receiptNo
    subtotal := s.subtotal
    discount := s.discount
    total := s.total
    paymentMethod := s.paymentMethod
    customerId := s.customerId
    mechanicId := s.mechanicId
    mechanicDelta := s.mechanicDelta
    pointsGranted := s.pointsGranted
    date := iso (b.saleDate x)
    voided := s.voided
    paymentAccountId := s.paymentAccountId
    items := s.items.map saleItemToJson }

def returnToJson (r : ReturnId) (n : Return) : ReturnData :=
  { id := r
    cnNo := n.cnNo
    saleId := n.saleId
    refundSubtotal := n.refundSubtotal
    refundDiscount := n.refundDiscount
    refundTotal := n.refundTotal
    refundMethod := n.refundMethod
    customerId := n.customerId
    mechanicId := n.mechanicId
    date := iso (b.noteDate r)
    items := n.items.map returnItemToJson }

def creditPaymentToJson (k : PaymentId) (p : PaymentRow) : CreditPaymentData :=
  { id := k, receiptNo := p.receiptNo, mechanicId := p.mechanicId, amount := p.amount,
    -- the store has no field for it
    method := none
    date := iso (b.paymentDate k), amount_pos := p.amount_pos }

def shiftToJson (k : ShiftId) (s : ShiftRow) : ShiftData :=
  { id := k
    startingCash := s.startingCash
    closed := s.closed
    physicalCash := s.physicalCash
    autoArchived := s.autoArchived
    entries := (b.drawerEntries.rows.filter fun e => e.2.shiftId = k).map fun e =>
      ⟨e.1, e.2.type, e.2.amount⟩ }

def buildTenantSnapshot : Snapshot :=
  { products := b.products.rows.map fun e => productToJson e.1 e.2
    sales := b.sales.rows.map fun e => b.saleToJson e.1 e.2
    returns := b.returns.rows.map fun e => b.returnToJson e.1 e.2
    creditPayments := b.creditPayments.rows.map fun e => b.creditPaymentToJson e.1 e.2
    -- the first active drawer; any other goes to the history
    cashDrawer := (b.shifts.rows.find? fun e => e.2.isActive).map fun e => b.shiftToJson e.1 e.2
    shiftHistory := (b.shifts.rows.eraseP fun e => e.2.isActive).map fun e => b.shiftToJson e.1 e.2
    paymentAccounts := b.paymentAccounts
    taxRate := b.taxRate }

end Books

/-! ## The import -/

/-- `String(row.receiptNo || …)` -/
def docNo (n : DocNo) (otherwise : String) : DocNo := if n = .other "" then .other otherwise else n

def PaymentMethod.orCash (m : PaymentMethod) : PaymentMethod := if m = .other "" then .cash else m

def RefundMethod.orCash (m : RefundMethod) : RefundMethod := if m = .other "" then .cash else m

theorem RefundMethod.orCash_ne (m : RefundMethod) : RefundMethod.orCash m ≠ .other "" := by
  rw [orCash]
  split
  · exact RefundMethod.noConfusion
  · assumption

def ProductData.row (p : ProductData) : Product :=
  { partNo := if p.partNo = "" then toString p.id else p.partNo
    name := p.name
    cost := p.cost
    stock := p.stock
    deleted := p.deleted }

def SaleItemData.row (i : SaleItemData) (lineNo : Nat) : SaleItem :=
  { lineNo := lineNo, productId := i.productId, name := i.name, qty := i.qty, price := i.price,
    costAtSale := i.cost, qty_pos := i.qty_pos }

def ReturnItemData.row (i : ReturnItemData) (lineNo : Nat) : ReturnItem :=
  { lineNo := lineNo, productId := i.productId, name := i.name, qty := i.qty, price := i.price,
    originalQty := i.originalQty, costAtSale := none, qty_pos := i.qty_pos }

/-- The file's accounts are the shop's by now. -/
def SaleData.row (accounts : List AccountId) (s : SaleData) : Sale :=
  let paymentMethod := PaymentMethod.orCash s.paymentMethod
  { receiptNo := docNo s.receiptNo s!"RC-{s.id}"
    subtotal := s.subtotal
    discount := s.discount
    total := s.total
    paymentMethod := paymentMethod
    customerId := s.customerId
    mechanicId := s.mechanicId
    mechanicDelta := s.mechanicDelta
    pointsGranted := s.pointsGranted
    shiftId := none
    soldOffline := false
    paymentAccountId := s.paymentAccountId.filter fun a => a ∈ accounts ∧ paymentMethod = .qr
    voided := s.voided
    voidReason := none
    items := s.items.mapIdx fun i item => item.row (i + 1) }

def ReturnData.row (r : ReturnData) : Return :=
  { cnNo := docNo r.cnNo s!"CN-{r.id}"
    saleId := r.saleId
    refundSubtotal := r.refundSubtotal
    refundDiscount := r.refundDiscount
    refundTotal := r.refundTotal
    refundMethod := RefundMethod.orCash r.refundMethod
    customerId := r.customerId
    mechanicId := r.mechanicId
    shiftId := none
    items := r.items.mapIdx fun i item => item.row (i + 1) }

def CreditPaymentData.row (p : CreditPaymentData) : PaymentRow :=
  { receiptNo := docNo p.receiptNo s!"CP-{p.id}"
    mechanicId := p.mechanicId
    amount := p.amount
    paymentMethod := p.method.filter fun m => m ≠ .other ""
    shiftId := none
    amount_pos := p.amount_pos }

/-- Every imported drawer is archived. -/
def ShiftData.row (fromDrawer : Bool) (s : ShiftData) : ShiftRow :=
  { deviceId := none
    startingCash := s.startingCash
    isActive := false
    closed := s.closed
    physicalCash := s.physicalCash
    autoArchived := if fromDrawer then !s.closed else s.autoArchived }

def ShiftData.entryRows (s : ShiftData) : List (EntryId × DrawerEntry) :=
  s.entries.map fun e => (e.id, ⟨s.id, e.type, e.amount⟩)

/-- The date of the first row of the file under a key. -/
def dateOf (dates : List (Nat × Timestamp)) (k : Nat) : Timestamp := (dates.lookup k).getD 0

/-- `writeSnapshot`, into a shop whose rows were just deleted. Settings and payment accounts are kept
where the file has none. -/
def writeSnapshot (old : Books) (file : Snapshot) : Books :=
  let accounts := file.paymentAccounts
  let shifts := (file.cashDrawer.map (true, ·)).toList ++ file.shiftHistory.map (false, ·)
  { products := .insertAll (file.products.map fun p => (p.id, p.row))
    sales := .insertAll (file.sales.map fun s => (s.id, s.row accounts))
    returns := .insertAll (file.returns.map fun r => (r.id, r.row))
    creditPayments := .insertAll (file.creditPayments.map fun p => (p.id, p.row))
    shifts := .insertAll (shifts.map fun e => (e.2.id, e.2.row e.1))
    drawerEntries := .insertAll (shifts.flatMap fun e => e.2.entryRows)
    paymentAccounts := if accounts = [] then old.paymentAccounts else accounts
    saleDate := dateOf (file.sales.map fun s => (s.id, s.date))
    noteDate := dateOf (file.returns.map fun r => (r.id, r.date))
    paymentDate := dateOf (file.creditPayments.map fun p => (p.id, p.date))
    taxRate := file.taxRate.or old.taxRate
    refundMethod_named := by
      intro r note hr
      obtain ⟨d, -, h⟩ := List.mem_map.mp (Table.mem_of_get_insertAll hr)
      obtain ⟨-, rfl⟩ := Prod.mk.inj h
      exact RefundMethod.orCash_ne _ }

/-- An import that replaces the shop's data by its own export. -/
def Books.restored (b : Books) : Books := writeSnapshot b b.buildTenantSnapshot

end Import

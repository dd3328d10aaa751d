import SrisurartPos.Txn.Interleaving
import SrisurartPos.Table

/-! # The shop's database

The rows the server keeps for one shop, and what a row lock on them protects.

Money is in whole satang. The source computes with doubles on whole satang; every product and
quotient it forms is exact while the product stays below 2^53, which a bill reaches at about thirty
million baht, so integers stand for them. Dates and the texts a person typed are left out where no
rule below reads them. A UUID is a number. What a column `CHECK`s is a field of its row where a rule
depends on it (`qty_pos`). -/

namespace Server

abbrev ProductId := Nat
abbrev CustomerId := Nat
abbrev MechanicId := Nat
abbrev SaleId := Nat
abbrev ReturnId := Nat
abbrev PaymentId := Nat
abbrev ShiftId := Nat
abbrev EntryId := Nat
abbrev DeviceId := Nat
abbrev PoId := Nat
abbrev QuoteId := Nat
abbrev AccountId := Nat
/-- Buddhist year and month, as in `2569-08` -/
abbrev Period := Nat

/-! ## Rows -/

/-- `sales.payment_method`. The server writes the first three; an imported bill may carry another
text. -/
inductive PaymentMethod where
  /-- `'เงินสด'` -/
  | cash
  /-- `'โอน/QR'` -/
  | qr
  /-- `'เครดิตช่าง'` -/
  | mechanicCredit
  | other (text : String)
  deriving DecidableEq, Repr

/-- `returns.refund_method`, with the same provision for imported notes. -/
inductive RefundMethod where
  /-- `'เงินสด'` -/
  | cash
  /-- `'โอน'` -/
  | transfer
  /-- `'หักจากเครดิต'` -/
  | deductFromCredit
  | other (text : String)
  deriving DecidableEq, Repr

/-- `movements.type` -/
inductive MovementType where
  | sale
  /-- `'return'` -/
  | creditNote
  | receive
  | void
  | adjustmentIn
  | adjustmentOut
  deriving DecidableEq, Repr

inductive DocType where
  | receipt | po | quote | cn | cp
  deriving DecidableEq, Repr

/-- A number in the server's own format, `RC01-2569-08-0042`. -/
structure DocNumber where
  docType : DocType
  deviceNo : Nat
  period : Period
  seq : Nat
  deriving DecidableEq, Repr

/-- The number on a document: one in the server's format, or any other text. -/
inductive DocNo where
  | formatted (n : DocNumber)
  | other (text : String)
  deriving DecidableEq, Repr

structure Product where
  partNo : String
  name : String
  cost : Int
  stock : Int
  /-- `deleted_at IS NOT NULL` -/
  deleted : Bool
  deriving DecidableEq, Repr

/-- A row of the stock ledger. -/
structure Movement where
  productId : ProductId
  delta : Int
  type : MovementType
  stockAfter : Int
  /-- the document that moved the stock; none for a manual adjustment -/
  refId : Option Nat
  deriving DecidableEq, Repr

structure Customer where
  code : String
  name : String
  nameTH : String
  phone : Option String
  address : Option String
  points : Int
  totalSpend : Int
  /-- `deleted_at IS NOT NULL` -/
  deleted : Bool
  deriving DecidableEq, Repr

structure Mechanic where
  creditLimit : Int
  creditBalance : Int
  totalSales : Int
  totalDiscount : Int
  totalMarkup : Int
  /-- the old app's alias of `totalDiscount`: read by a credit note, never written -/
  totalCredit : Int
  /-- `deleted_at IS NOT NULL` -/
  deleted : Bool
  deriving DecidableEq, Repr

structure SaleItem where
  lineNo : Nat
  productId : ProductId
  name : String
  qty : Int
  price : Int
  costAtSale : Option Int
  qty_pos : 0 < qty
  deriving DecidableEq, Repr

/-- A bill with its lines (`sales` and `sale_items`). -/
structure Sale where
  receiptNo : DocNo
  subtotal : Int
  discount : Int
  total : Int
  paymentMethod : PaymentMethod
  customerId : Option CustomerId
  mechanicId : Option MechanicId
  mechanicDelta : Option Int
  pointsGranted : Int
  shiftId : Option ShiftId
  soldOffline : Bool
  paymentAccountId : Option AccountId
  voided : Bool
  voidReason : Option String
  items : List SaleItem
  deriving DecidableEq, Repr

structure ReturnItem where
  lineNo : Nat
  productId : ProductId
  name : String
  qty : Int
  price : Int
  originalQty : Option Int
  costAtSale : Option Int
  qty_pos : 0 < qty
  deriving DecidableEq, Repr

/-- A credit note with its lines (`returns` and `return_items`). -/
structure Return where
  cnNo : DocNo
  saleId : SaleId
  refundSubtotal : Int
  refundDiscount : Int
  refundTotal : Int
  refundMethod : RefundMethod
  customerId : Option CustomerId
  mechanicId : Option MechanicId
  shiftId : Option ShiftId
  items : List ReturnItem
  deriving DecidableEq, Repr

structure CreditPayment where
  receiptNo : DocNo
  mechanicId : MechanicId
  amount : Int
  paymentMethod : PaymentMethod
  shiftId : Option ShiftId
  deriving DecidableEq, Repr

structure Shift where
  deviceId : DeviceId
  startingCash : Int
  openedAt : Nat
  isActive : Bool
  /-- `closed_at IS NOT NULL` -/
  closed : Bool
  physicalCash : Option Int
  autoArchived : Bool
  deriving DecidableEq, Repr

inductive EntryType where
  /-- `'in'` -/
  | cashIn
  /-- `'out'` -/
  | cashOut
  deriving DecidableEq, Repr

structure DrawerEntry where
  shiftId : ShiftId
  type : EntryType
  amount : Int
  deriving DecidableEq, Repr

structure Device where
  deviceNo : Nat
  /-- `retired_at IS NOT NULL` -/
  retired : Bool
  unsyncedOps : Nat
  deriving DecidableEq, Repr

inductive PoStatus where
  | opened | received | cancelled
  deriving DecidableEq, Repr

structure PoLine where
  partNo : String
  qty : Int
  cost : Int
  qty_pos : 0 < qty
  deriving DecidableEq, Repr

structure PurchaseOrder where
  status : PoStatus
  lines : List PoLine
  deriving DecidableEq, Repr

inductive QuoteStatus where
  | opened | converted | expired | cancelled
  deriving DecidableEq, Repr

structure QuoteLine where
  lineNo : Nat
  /-- none on a free-text line -/
  productId : Option ProductId
  name : String
  qty : Int
  price : Int
  qty_pos : 0 < qty
  deriving DecidableEq, Repr

structure Quote where
  quoteNo : DocNo
  status : QuoteStatus
  convertedSaleId : Option SaleId
  validUntil : Nat
  subtotal : Option Int
  discount : Option Int
  total : Option Int
  customerName : Option String
  customerPhone : Option String
  notes : Option String
  validDays : Option Nat
  lines : List QuoteLine
  deriving DecidableEq, Repr

inductive ReviewKind where
  | shiftUncounted | creditOverride | voidOffline | quoteConflict | receiptRenumbered
  | drawerOverdrawnOffline | deviceForceRetired | dateFlag
  deriving DecidableEq, Repr

/-- A row of `owner_review_items`. -/
structure ReviewItem where
  kind : ReviewKind
  refId : Nat
  deriving DecidableEq, Repr

inductive AuditAction where
  | creditLimitOverride | creditPaymentOverpayment | saleVoid | stockAdjust | poReceive | deviceRetire
  deriving DecidableEq, Repr

/-- A row of `audit_log`: what was done, to which row, by way of which document. -/
structure AuditEntry where
  action : AuditAction
  entityId : Nat
  docId : Option Nat
  deriving DecidableEq, Repr

/-! ## Replies

What a request answers, and what its idempotency row stores for a retry. -/

structure CustomerAfter where
  id : CustomerId
  points : Int
  totalSpend : Int
  deriving DecidableEq, Repr

/-- The four running totals of a mechanic that the server owns. -/
structure MechanicAfter where
  id : MechanicId
  totalSales : Int
  totalDiscount : Int
  totalMarkup : Int
  creditBalance : Int
  deriving DecidableEq, Repr

structure SaleLineOut where
  lineNo : Nat
  productId : ProductId
  costAtSale : Option Int
  deriving DecidableEq, Repr

structure CreateSaleResult where
  id : SaleId
  receiptNo : DocNo
  total : Int
  pointsGranted : Int
  shiftId : Option ShiftId
  paymentAccountId : Option AccountId
  products : List (ProductId × Int)
  items : List SaleLineOut
  movements : List Movement
  mechanicAfter : Option MechanicAfter
  customerAfter : Option CustomerAfter
  deriving DecidableEq, Repr

structure SoldQuote where
  id : QuoteId
  status : QuoteStatus
  convertedSaleId : Option SaleId
  deriving DecidableEq, Repr

structure CreateReturnResult where
  id : ReturnId
  note : Return
  saleVoided : Bool
  products : List (ProductId × Int)
  movements : List Movement
  customerAfter : Option CustomerAfter
  mechanicAfter : Option MechanicAfter
  deriving DecidableEq, Repr

structure CreateCreditPaymentResult where
  id : PaymentId
  payment : CreditPayment
  mechanicCreditBalanceAfter : Int
  deriving DecidableEq, Repr

structure ReceiveResult where
  poId : PoId
  /-- product, stock after, cost after -/
  updated : List (ProductId × Int × Int)
  unmatched : List String
  deriving DecidableEq, Repr

/-- The body of a successful answer. The `pushed…` forms are those of `/sync/push`. -/
inductive Reply where
  | sale (r : CreateSaleResult)
  | quoteSale (r : CreateSaleResult) (quote : Option SoldQuote)
  | creditNote (r : CreateReturnResult)
  | voided (id : SaleId) (sale : Sale)
  | shift (id : ShiftId) (row : Shift)
  | entry (id : EntryId) (row : DrawerEntry)
  | creditPayment (r : CreateCreditPaymentResult)
  | adjusted (id : ProductId) (stockAfter : Int)
  | received (r : ReceiveResult)
  | retired (id : DeviceId) (shift : Option ShiftId)
  | mechanic (id : MechanicId) (row : Mechanic)
  | pushedReturn (id : ReturnId) (cnNo : DocNo) (saleId : SaleId) (total : Int)
      (refundMethod : RefundMethod) (stockRestored : List (ProductId × Int))
  | pushedShift (id : ShiftId) (startingCash : Int) (autoArchived : Bool)
  | pushedEntry (id : EntryId) (type : EntryType) (amount balanceAfter : Int)
  | pushedPayment (id : PaymentId) (mechanicId : MechanicId) (amount : Int)
      (paymentMethod : PaymentMethod) (balanceAfter : Int)
  | pushedCustomer (id : CustomerId) (name : String) (phone address : Option String)
      (totalSpend points : Int)
  | pushedContact (id : CustomerId) (phone : Option String)
  | pushedVoid (saleId : SaleId) (voidReason : Option String) (stockRestored : List (ProductId × Int))
  /-- what a maintenance job answers -/
  | unit
  deriving DecidableEq, Repr

/-- The field `id` of a body; for a pushed void its `saleId`. -/
def Reply.documentId : Reply → Option Nat
  | .sale r                      => some r.id
  | .quoteSale r _               => some r.id
  | .creditNote r                => some r.id
  | .voided id _                 => some id
  | .shift id _                  => some id
  | .entry id _                  => some id
  | .creditPayment r             => some r.id
  | .adjusted _ _                => none
  | .received _                  => none
  | .retired _ _                 => none
  | .mechanic id _               => some id
  | .pushedReturn id _ _ _ _ _   => some id
  | .pushedShift id _ _          => some id
  | .pushedEntry id _ _ _        => some id
  | .pushedPayment id _ _ _ _    => some id
  | .pushedCustomer id _ _ _ _ _ => some id
  | .pushedContact id _          => some id
  | .pushedVoid saleId _ _       => some saleId
  | .unit                        => none

/-- The concrete target of a write, method and path with its parameters filled in. -/
inductive Endpoint where
  | sales
  | convertQuote (id : QuoteId)
  | voidSale (id : SaleId)
  | voidOffline (id : SaleId)
  | returns
  | openShift
  | closeShift
  | entries
  | creditPayments (id : MechanicId)
  | adjustStock (id : ProductId)
  | receivePo (id : PoId)
  | retireDevice (id : DeviceId)
  | updateMechanic (id : MechanicId)
  | customers
  | updateCustomer (id : CustomerId)
  deriving DecidableEq, Repr

/-- A completed request as its key remembers it. -/
structure StoredResponse where
  endpoint : Endpoint
  requestHash : Nat
  body : Reply
  deriving DecidableEq, Repr

/-- A row of `idempotency_keys`. A committed row is `'done'`; without its response it is
`'in_progress'`. -/
structure KeyRow where
  endpoint : Endpoint
  requestHash : Nat
  createdAt : Nat
  response : Option Reply
  deriving DecidableEq, Repr

/-! ## The database -/

structure Db where
  products : Table ProductId Product
  movements : List Movement
  customers : Table CustomerId Customer
  mechanics : Table MechanicId Mechanic
  sales : Table SaleId Sale
  returns : Table ReturnId Return
  creditPayments : Table PaymentId CreditPayment
  shifts : Table ShiftId Shift
  drawerEntries : Table EntryId DrawerEntry
  devices : Table DeviceId Device
  docCounters : Table (DeviceId × DocType × Period) Nat
  purchaseOrders : Table PoId PurchaseOrder
  quotes : Table QuoteId Quote
  paymentAccounts : List AccountId
  idempotencyKeys : Table Nat KeyRow
  reviewItems : List ReviewItem
  auditLog : List AuditEntry

namespace Db

/-- A shop before its first day. -/
def empty : Db :=
  { products := .empty
    movements := []
    customers := .empty
    mechanics := .empty
    sales := .empty
    returns := .empty
    creditPayments := .empty
    shifts := .empty
    drawerEntries := .empty
    devices := .empty
    docCounters := .empty
    purchaseOrders := .empty
    quotes := .empty
    paymentAccounts := []
    idempotencyKeys := .empty
    reviewItems := []
    auditLog := [] }

variable (db : Db)

/-- The credit notes against a bill, oldest first. -/
def notesOf (x : SaleId) : List Return := db.returns.select fun r => r.saleId = x

/-- The stock ledger of a product, oldest first. -/
def movementsOf (p : ProductId) : List Movement := db.movements.filter fun m => m.productId = p

/-- The device's drawers that are not archived. `uq_shift_active` keeps them to one. -/
def activeShifts (d : DeviceId) : List ShiftId :=
  (db.shifts.rows.filter fun e => e.2.deviceId = d && e.2.isActive).map Prod.fst

/-- Every drawer the device has ever opened. -/
def drawersOf (d : DeviceId) : List ShiftId :=
  (db.shifts.rows.filter fun e => e.2.deviceId = d).map Prod.fst

def receiptTaken (n : DocNo) : Bool := (db.sales.find fun _ x => x.receiptNo = n).isSome
def cnTaken (n : DocNo) : Bool := (db.returns.find fun _ r => r.cnNo = n).isSome
def cpTaken (n : DocNo) : Bool := (db.creditPayments.find fun _ p => p.receiptNo = n).isSome

/-- A movement with this type, document and product is there already (`uq_movements_ref`). -/
def movementTaken (type : MovementType) (ref : Nat) (p : ProductId) : Bool :=
  (db.movementsOf p).any fun m => m.type = type && m.refId = some ref

/-! ### The cash of a drawer (`drawer-cash.sql.ts`) -/

/-- `COUNTED_SALE`: not voided, or voided with credit notes. -/
def counted (x : SaleId) (sale : Sale) : Bool := !(sale.voided && (db.notesOf x).isEmpty)

/-- What the bill adds to the cash sales of the shift `k`. -/
def cashOfSale (k : ShiftId) (x : SaleId) (sale : Sale) : Int :=
  if sale.shiftId = some k ∧ sale.paymentMethod = .cash ∧ db.counted x sale = true then sale.total
  else 0

def cashOfPayment (k : ShiftId) (_ : PaymentId) (p : CreditPayment) : Int :=
  if p.shiftId = some k ∧ p.paymentMethod = .cash then p.amount else 0

def cashOfReturn (k : ShiftId) (_ : ReturnId) (r : Return) : Int :=
  if r.shiftId = some k ∧ r.refundMethod = .cash then r.refundTotal else 0

def cashOfEntry (k : ShiftId) (_ : EntryId) (e : DrawerEntry) : Int :=
  if e.shiftId = k then (match e.type with | .cashIn => e.amount | .cashOut => -e.amount) else 0

/-- Everything in the drawer of the shift `k` but the cash it started with. -/
def drawerCash (k : ShiftId) : Int :=
  db.sales.total (db.cashOfSale k) + db.creditPayments.total (cashOfPayment k)
    - db.returns.total (cashOfReturn k) + db.drawerEntries.total (cashOfEntry k)

/-- `expectedCashSatangOf`: 0 when the shift does not exist. -/
def expectedCash (k : ShiftId) : Int :=
  match db.shifts.get k with
  | none       => 0
  | some shift => shift.startingCash + db.drawerCash k

end Db

/-! ## Locks -/

/-- What a transaction can lock: a row, a key another row refers to (`FOR KEY SHARE`), an entry of
a unique index. -/
inductive LockKey where
  | product (id : ProductId)
  | customer (id : CustomerId)
  | customerKey (id : CustomerId)
  /-- the advisory lock under which customers are numbered -/
  | customerCodes
  | mechanic (id : MechanicId)
  | mechanicKey (id : MechanicId)
  | sale (id : SaleId)
  | receiptNo (n : DocNo)
  | creditNote (id : ReturnId)
  | cnNo (n : DocNo)
  | payment (id : PaymentId)
  | cpNo (n : DocNo)
  | shift (id : ShiftId)
  | entry (id : EntryId)
  | device (id : DeviceId)
  | counter (c : DeviceId × DocType × Period)
  | po (id : PoId)
  | quote (id : QuoteId)
  | key (k : Nat)
  deriving DecidableEq, Repr

open Txn

/-- What a transaction sees of the database under one lock. -/
inductive View where
  | product (row : Option Product) (ledger : List Movement)
  | customer (row : Option Customer)
  | mechanic (row : Option Mechanic)
  /-- whether a key, or an entry of a unique index, is there -/
  | present (there : Bool)
  | sale (row : Option Sale) (notes : List Return)
  | creditNote (row : Option Return)
  | payment (row : Option CreditPayment)
  | shift (row : Option Shift)
  | drawer (row : Option Shift) (cash : Int)
  | entry (row : Option DrawerEntry)
  | device (row : Option Device) (activeShifts drawers : List ShiftId)
  | counter (row : Option Nat)
  | po (row : Option PurchaseOrder)
  | quote (row : Option Quote)
  | key (row : Option KeyRow)

/-- What a lock protects. A bill's row protects the notes against it, since a note is only written
under the bill's lock. A device's row protects the list of its drawers. A drawer locked for update
protects the cash in it: every write that moves that cash takes the drawer `FOR SHARE`. -/
def view : LockKey × Mode → Db → View
  | (.product p, _), s     => .product (s.products.get p) (s.movementsOf p)
  | (.customer c, _), s    => .customer (s.customers.get c)
  | (.customerKey c, _), s => .present (s.customers.get c).isSome
  | (.customerCodes, _), _ => .present true
  | (.mechanic m, _), s    => .mechanic (s.mechanics.get m)
  | (.mechanicKey m, _), s => .present (s.mechanics.get m).isSome
  | (.sale x, _), s        => .sale (s.sales.get x) (s.notesOf x)
  | (.receiptNo n, _), s   => .present (s.receiptTaken n)
  | (.creditNote r, _), s  => .creditNote (s.returns.get r)
  | (.cnNo n, _), s        => .present (s.cnTaken n)
  | (.payment i, _), s     => .payment (s.creditPayments.get i)
  | (.cpNo n, _), s        => .present (s.cpTaken n)
  | (.shift k, .share), s  => .shift (s.shifts.get k)
  | (.shift k, .update), s => .drawer (s.shifts.get k) (s.drawerCash k)
  | (.entry e, _), s       => .entry (s.drawerEntries.get e)
  | (.device d, _), s      => .device (s.devices.get d) (s.activeShifts d) (s.drawersOf d)
  | (.counter c, _), s     => .counter (s.docCounters.get c)
  | (.po i, _), s          => .po (s.purchaseOrders.get i)
  | (.quote q, _), s       => .quote (s.quotes.get q)
  | (.key k, _), s         => .key (s.idempotencyKeys.get k)

/-- The databases look alike under the lock. -/
def agree (lk : LockKey × Mode) (s s' : Db) : Prop := view lk s = view lk s'

theorem agree_equivalence (lk : LockKey × Mode) : Equivalence (agree lk) :=
  ⟨fun _ => rfl, fun h => h.symm, fun h h' => h.trans h'⟩

end Server

import SrisurartPos.Table
import SrisurartPos.Iso
import SrisurartPos.Base64
import SrisurartPos.Dyn

/-! # The local backup (`snapshot_repository.dart`)

The build that keeps its data on the till alone writes its database to a file and restores it from one.
Writing and reading go through two lists of fields, one for each direction, kept by hand. What JSON text
holds is kept as its value. The lines of a table without a key are in the order of their row ids. -/

namespace Till.Backup

open Iso Dyn

variable {D : Type}

/-! ## Coercions -/

/-- `List.sort`: a permutation in the order of `compare`, through which alone it sees the elements. Those that
compare equal come in any order. -/
structure ListSort where
  sort : {α : Type} → (α → α → Ordering) → List α → List α
  perm {α : Type} (compare : α → α → Ordering) (l : List α) : (sort compare l).Perm l
  sorted {α : Type} (compare : α → α → Ordering) (htrans : Std.TransCmp compare) (l : List α) :
    (sort compare l).Pairwise fun a b => (compare a b).isLE = true
  map {α β : Type} (f : α → β) (compare : β → β → Ordering) (l : List α) :
    sort compare (l.map f) = (sort (fun a b => compare (f a) (f b)) l).map f

/-- `sort((a, b) => b.date.compareTo(a.date))` -/
def ListSort.byDate (S : ListSort) {α : Type} (date : α → Instant) (rows : List α) : List α :=
  S.sort (fun a b => compare (date b).seconds (date a).seconds) rows

/-- Numbers and their texts, lists, the local time zone, and fresh ids. -/
structure Host (D : Type) where
  ofInt : Int → D
  toInt : D → Int
  nonzero : D → Bool
  parseInt : String → Option Int
  parseDouble : String → Option D
  /-- `toString` of what is no text -/
  shown : Dyn D → String
  lists : ListSort
  localMinutes : Int
  newUuid : Nat → String

inductive Error where
  | posException (code message : String)
  | exception (message : String)
  | outOfRange
  | badBase64
  | uniqueConstraint
  deriving DecidableEq, Repr

section Coercions
variable (H : Host D)

def iso (d : Option Instant) : Dyn D := orNull (fun i => .text (toIso8601String i)) d

def parseDate : Dyn D → Except Error (Option Moment)
  | .int n  => match Moment.ofMicros? (n * 1000) with
    | some m => .ok (some m)
    | none   => .error .outOfRange
  | .text s => .ok (if s = "" then none else tryParse H.localMinutes s)
  | _       => .ok none

def asInt (v : Dyn D) (fallback : Int) : Int :=
  match v with
  | .int n    => n
  | .double x => H.toInt x
  | .text s   => (H.parseInt s).getD fallback
  | _         => fallback

def asDouble (v : Dyn D) (fallback : D) : D :=
  match v with
  | .int n    => H.ofInt n
  | .double x => x
  | .text s   => (H.parseDouble s).getD fallback
  | _         => fallback

def asStr (v : Dyn D) (fallback : String) : String :=
  match v with
  | .null   => fallback
  | .text s => s
  | v       => H.shown v

def asNullableStr : Dyn D → Option String
  | .null   => none
  | .text s => some s
  | v       => some (H.shown v)

def asNullableDouble : Dyn D → Option D
  | .int n    => some (H.ofInt n)
  | .double x => some x
  | .text s   => H.parseDouble s
  | _         => none

/-- Null where the field is, a number otherwise. -/
def nullableDouble (v : Dyn D) : Option D := if v.isNull = true then none else some (asDouble H v (H.ofInt 0))

def nullableInt (v : Dyn D) : Option Int := if v.isNull = true then none else some (asInt H v 0)

def asBool : Dyn D → Bool
  | .bool b   => b
  | .int n    => n ≠ 0
  | .double x => H.nonzero x
  | .text s   => s = "true" || s = "1"
  | _         => false

def asObject : Dyn D → Option (Object D)
  | .object o => some o
  | _         => none

def asList : Dyn D → List (Object D)
  | .array l => l.filterMap asObject
  | _        => []

end Coercions

/-! ## Tables -/

structure ProductRow (D : Type) where
  partNo : String
  name : String
  nameTH : String
  category : String
  brand : String
  price : D
  cost : D
  stock : Int
  minStock : Int
  compat : Option String
  zone : Option String
  updatedAt : Option Instant
  deletedAt : Option Instant
  imageKey : Option String

structure CustomerRow (D : Type) where
  code : String
  name : String
  nameTH : String
  phone : Option String
  address : Option String
  points : Int
  totalSpend : D
  createdAt : String
  updatedAt : Option Instant
  deletedAt : Option Instant

structure MechanicRow (D : Type) where
  code : String
  name : String
  nameTH : Option String
  nickname : Option String
  shopName : Option String
  phone : Option String
  note : Option String
  creditLimit : D
  creditBalance : D
  totalSales : D
  totalCredit : D
  totalDiscount : D
  totalMarkup : D
  createdAt : String
  updatedAt : Option Instant
  deletedAt : Option Instant

structure SaleRow (D : Type) where
  receiptNo : String
  subtotal : D
  discount : D
  total : D
  paymentMethod : String
  customerId : Option String
  customerName : Option String
  mechanicId : Option String
  mechanicName : Option String
  mechanicDelta : Option D
  pointsGranted : Int
  date : Instant
  voided : Bool
  voidedAt : Option Instant
  shiftId : Option String
  soldOffline : Bool
  voidReason : Option String
  paymentAccountId : Option String

structure SaleItemRow (D : Type) where
  productId : String
  partNo : Option String
  name : String
  nameTH : Option String
  qty : Int
  price : D
  costAtSale : Option D

structure PurchaseOrderRow where
  poNo : String
  supplier : String
  status : String
  createdAt : Instant
  receivedAt : Option Instant
  cancelledAt : Option Instant

structure PoItemRow (D : Type) where
  partNo : String
  name : String
  qty : Int
  cost : D

structure QuoteRow (D : Type) where
  quoteNo : String
  status : String
  date : Instant
  validUntil : Instant
  convertedAt : Option Instant
  subtotal : Option D
  discount : Option D
  total : Option D
  customerName : Option String
  customerPhone : Option String
  notes : Option String
  validDays : Option Int

structure QuoteItemRow (D : Type) where
  productId : Option String
  name : String
  qty : Int
  price : D
  costAtSale : Option D

structure ReturnRow (D : Type) where
  cnNo : String
  saleId : String
  receiptNo : String
  refundSubtotal : D
  refundDiscount : D
  refundTotal : D
  refundMethod : String
  reason : String
  customerId : Option String
  mechanicId : Option String
  mechanicName : Option String
  date : Instant

structure ReturnItemRow (D : Type) where
  productId : String
  name : String
  qty : Int
  price : D
  originalQty : Option Int

structure MovementRow where
  productId : String
  partNo : String
  name : String
  delta : Int
  type : String
  note : Option String
  stockAfter : Int
  date : Instant

structure SupplierRow (D : Type) where
  productId : String
  name : String
  unitCost : D
  freight : D

structure CreditPaymentRow (D : Type) where
  receiptNo : String
  mechanicId : String
  amount : D
  date : Instant
  note : Option String

structure ShiftRow (D : Type) where
  dateStr : String
  startingCash : D
  openedAt : Instant
  closedAt : Option Instant
  physicalCash : Option D
  isActive : Bool
  autoArchived : Bool
  archivedAt : Option Instant

structure DrawerEntryRow (D : Type) where
  shiftId : String
  type : String
  amount : D
  note : Option String
  createdAt : Instant

/-- A text that is JSON, as its value, or not. -/
inductive Payload (D : Type) where
  | json (v : Dyn D)
  | other (s : String)

structure ParkedSaleRow (D : Type) where
  parkedAt : Instant
  payload : Payload D

structure PaymentAccountRow where
  nickname : String
  bankCode : String
  kind : String
  promptpayId : Option String
  image : Option (List UInt8)
  imageMime : Option String
  isDefault : Bool
  sortOrder : Int
  updatedAt : Option Instant

/-- The row of the settings, which there is from the beginning. -/
structure SettingsRow (D : Type) where
  shopName : String
  shopNameEN : String
  taxRate : D
  quoteValidDays : Int
  address : Option String
  phone : Option String
  cashierName : Option String
  taxId : Option String
  branchNo : Option String
  updatedAt : Option Instant

/-- `_knownStoreKeys` -/
def knownStoreKeys : List String :=
  ["sa_products", "sa_customers", "sa_sales", "sa_pos", "sa_settings", "sa_mechanics", "sa_quotes", "sa_returns",
    "sa_movements", "sa_suppliers", "sa_categories", "sa_credit_payments", "sa_cash_drawer", "sa_shift_history",
    "sa_parked", "sa_payment_accounts", "sa_schema_version"]

/-- `startsWith('sa_')` -/
def isStoreKey (key : String) : Bool := ['s', 'a', '_'].isPrefixOf key.toList

/-- A store of a newer version. -/
structure UnknownStore where
  key : String
  isStore : isStoreKey key = true
  unknown : key ∉ knownStoreKeys
  deriving DecidableEq

/-- What such a store holds. Null counts as absent. -/
structure Carried (D : Type) where
  value : Dyn D
  there : value.isNull = false

structure Db (D : Type) where
  products : Table String (ProductRow D)
  customers : Table String (CustomerRow D)
  mechanics : Table String (MechanicRow D)
  sales : Table String (SaleRow D)
  saleItems : List (String × SaleItemRow D)
  purchaseOrders : Table String PurchaseOrderRow
  poItems : List (String × PoItemRow D)
  quotes : Table String (QuoteRow D)
  quoteItems : List (String × QuoteItemRow D)
  returns : Table String (ReturnRow D)
  returnItems : List (String × ReturnItemRow D)
  movements : Table String MovementRow
  suppliers : Table String (SupplierRow D)
  paymentAccounts : Table String PaymentAccountRow
  /-- the positions, by name -/
  categories : Table String Int
  creditPayments : Table String (CreditPaymentRow D)
  shifts : Table String (ShiftRow D)
  drawerEntries : Table String (DrawerEntryRow D)
  parkedSales : Table String (ParkedSaleRow D)
  settings : SettingsRow D
  schemaVersion : Option String
  demoSeedPurged : Bool
  unknownStores : Table UnknownStore (Carried D)

/-! ## Export -/

/-- Newest first. Rows of one second stay in their order. -/
def newestFirst {α : Type} (date : α → Instant) (rows : List α) : List α :=
  rows.mergeSort fun a b => decide ((date b).seconds ≤ (date a).seconds)

/-- Newest first, read backwards from `idx_sales_date`: of one second the last comes first. -/
def newestFirstByIndex {α : Type} (date : α → Instant) (rows : List α) : List α := newestFirst date rows.reverse

def linesOf {ρ : Type} (lines : List (String × ρ)) (id : String) : List ρ :=
  (lines.filter fun e => e.1 = id).map Prod.snd

section Export
variable (H : Host D) (db : Db D)

def ProductRow.toMap (id : String) (p : ProductRow D) : Object D :=
  ofFields [
    field "id" (.text id),
    field "partNo" (.text p.partNo),
    field "name" (.text p.name),
    field "nameTH" (.text p.nameTH),
    field "category" (.text p.category),
    field "brand" (.text p.brand),
    field "price" (.double p.price),
    field "cost" (.double p.cost),
    field "stock" (.int p.stock),
    field "minStock" (.int p.minStock),
    fieldIf "compat" .text p.compat,
    fieldIf "zone" .text p.zone,
    fieldIf "updatedAt" (fun d => .text (toIso8601String d)) p.updatedAt]

def CustomerRow.toMap (id : String) (c : CustomerRow D) : Object D :=
  ofFields [
    field "id" (.text id),
    field "code" (.text c.code),
    field "name" (.text c.name),
    field "nameTH" (.text c.nameTH),
    fieldIf "phone" .text c.phone,
    fieldIf "address" .text c.address,
    field "points" (.int c.points),
    field "totalSpend" (.double c.totalSpend),
    field "createdAt" (.text c.createdAt),
    fieldIf "updatedAt" (fun d => .text (toIso8601String d)) c.updatedAt,
    fieldIf "deletedAt" (fun d => .text (toIso8601String d)) c.deletedAt]

def SaleItemRow.toMap (it : SaleItemRow D) : Object D :=
  ofFields [
    field "productId" (.text it.productId),
    fieldIf "partNo" .text it.partNo,
    field "name" (.text it.name),
    fieldIf "nameTH" .text it.nameTH,
    field "qty" (.int it.qty),
    field "price" (.double it.price),
    fieldIf "cost" .double it.costAtSale]

def SaleRow.toMap (items : List (SaleItemRow D)) (id : String) (s : SaleRow D) : Object D :=
  ofFields [
    field "id" (.text id),
    field "receiptNo" (.text s.receiptNo),
    field "subtotal" (.double s.subtotal),
    field "discount" (.double s.discount),
    field "total" (.double s.total),
    field "paymentMethod" (.text s.paymentMethod),
    fieldIf "customerId" .text s.customerId,
    fieldIf "customerName" .text s.customerName,
    fieldIf "mechanicId" .text s.mechanicId,
    fieldIf "mechanicName" .text s.mechanicName,
    fieldIf "mechanicDelta" .double s.mechanicDelta,
    field "pointsGranted" (.int s.pointsGranted),
    field "date" (.text (toIso8601String s.date)),
    field "voided" (.bool s.voided),
    fieldIf "voidedAt" (fun d => .text (toIso8601String d)) s.voidedAt,
    fieldIf "paymentAccountId" .text s.paymentAccountId,
    field "items" (.array (items.map fun it => .object it.toMap))]

def PoItemRow.toMap (it : PoItemRow D) : Object D :=
  ofFields [
    field "partNo" (.text it.partNo),
    field "name" (.text it.name),
    field "qty" (.int it.qty),
    field "cost" (.double it.cost)]

def PurchaseOrderRow.toMap (items : List (PoItemRow D)) (id : String) (po : PurchaseOrderRow) : Object D :=
  ofFields [
    field "id" (.text id),
    field "poNo" (.text po.poNo),
    field "supplier" (.text po.supplier),
    field "status" (.text po.status),
    field "createdAt" (.text (toIso8601String po.createdAt)),
    fieldIf "receivedAt" (fun d => .text (toIso8601String d)) po.receivedAt,
    fieldIf "cancelledAt" (fun d => .text (toIso8601String d)) po.cancelledAt,
    field "items" (.array (items.map fun it => .object it.toMap))]

def SettingsRow.toMap (s : SettingsRow D) : Object D :=
  ofFields [
    field "shopName" (.text s.shopName),
    field "shopNameEN" (.text s.shopNameEN),
    field "taxRate" (.double s.taxRate),
    field "quoteValidDays" (.int s.quoteValidDays),
    fieldIf "address" .text s.address,
    fieldIf "phone" .text s.phone,
    fieldIf "cashierName" .text s.cashierName,
    fieldIf "taxId" .text s.taxId,
    fieldIf "branchNo" .text s.branchNo,
    fieldIf "updatedAt" (fun d => .text (toIso8601String d)) s.updatedAt]

def MechanicRow.toMap (id : String) (m : MechanicRow D) : Object D :=
  ofFields [
    field "id" (.text id),
    field "code" (.text m.code),
    field "name" (.text m.name),
    fieldIf "nameTH" .text m.nameTH,
    fieldIf "nickname" .text m.nickname,
    fieldIf "shopName" .text m.shopName,
    fieldIf "phone" .text m.phone,
    fieldIf "note" .text m.note,
    field "creditLimit" (.double m.creditLimit),
    field "creditBalance" (.double m.creditBalance),
    field "totalSales" (.double m.totalSales),
    field "totalCredit" (.double m.totalCredit),
    field "totalDiscount" (.double m.totalDiscount),
    field "totalMarkup" (.double m.totalMarkup),
    field "createdAt" (.text m.createdAt),
    fieldIf "updatedAt" (fun d => .text (toIso8601String d)) m.updatedAt,
    fieldIf "deletedAt" (fun d => .text (toIso8601String d)) m.deletedAt]

def QuoteItemRow.toMap (it : QuoteItemRow D) : Object D :=
  ofFields [
    fieldIf "productId" .text it.productId,
    field "name" (.text it.name),
    field "qty" (.int it.qty),
    field "price" (.double it.price)]

def QuoteRow.toMap (items : List (QuoteItemRow D)) (id : String) (q : QuoteRow D) : Object D :=
  ofFields [
    field "id" (.text id),
    field "quoteNo" (.text q.quoteNo),
    field "status" (.text q.status),
    field "date" (.text (toIso8601String q.date)),
    field "validUntil" (.text (toIso8601String q.validUntil)),
    fieldIf "convertedAt" (fun d => .text (toIso8601String d)) q.convertedAt,
    fieldIf "subtotal" .double q.subtotal,
    fieldIf "discount" .double q.discount,
    fieldIf "total" .double q.total,
    fieldIf "customerName" .text q.customerName,
    fieldIf "customerPhone" .text q.customerPhone,
    fieldIf "notes" .text q.notes,
    fieldIf "validDays" .int q.validDays,
    field "items" (.array (items.map fun it => .object it.toMap))]

def ReturnItemRow.toMap (it : ReturnItemRow D) : Object D :=
  ofFields [
    field "productId" (.text it.productId),
    field "name" (.text it.name),
    field "qty" (.int it.qty),
    field "price" (.double it.price),
    fieldIf "originalQty" .int it.originalQty]

def ReturnRow.toMap (items : List (ReturnItemRow D)) (id : String) (r : ReturnRow D) : Object D :=
  ofFields [
    field "id" (.text id),
    field "cnNo" (.text r.cnNo),
    field "saleId" (.text r.saleId),
    field "receiptNo" (.text r.receiptNo),
    field "refundSubtotal" (.double r.refundSubtotal),
    field "refundDiscount" (.double r.refundDiscount),
    field "refundTotal" (.double r.refundTotal),
    field "refundMethod" (.text r.refundMethod),
    field "reason" (.text r.reason),
    fieldIf "customerId" .text r.customerId,
    fieldIf "mechanicId" .text r.mechanicId,
    fieldIf "mechanicName" .text r.mechanicName,
    field "date" (.text (toIso8601String r.date)),
    field "items" (.array (items.map fun it => .object it.toMap))]

def MovementRow.toMap (id : String) (m : MovementRow) : Object D :=
  ofFields [
    field "id" (.text id),
    field "productId" (.text m.productId),
    field "partNo" (.text m.partNo),
    field "name" (.text m.name),
    field "delta" (.int m.delta),
    field "type" (.text m.type),
    fieldIf "note" .text m.note,
    field "stockAfter" (.int m.stockAfter),
    field "date" (.text (toIso8601String m.date))]

def SupplierRow.toMap (id : String) (s : SupplierRow D) : Object D :=
  ofFields [
    field "id" (.text id),
    field "productId" (.text s.productId),
    field "name" (.text s.name),
    field "unitCost" (.double s.unitCost),
    field "freight" (.double s.freight)]

def PaymentAccountRow.toMap (id : String) (a : PaymentAccountRow) : Object D :=
  ofFields [
    field "id" (.text id),
    field "nickname" (.text a.nickname),
    field "bankCode" (.text a.bankCode),
    field "kind" (.text a.kind),
    field "promptpayId" (orNull .text a.promptpayId),
    field "imageBase64" (orNull (fun b => .text (String.ofList (Base64.encode b))) a.image),
    field "imageMime" (orNull .text a.imageMime),
    field "isDefault" (.bool a.isDefault),
    field "sortOrder" (.int a.sortOrder),
    fieldIf "updatedAt" (fun d => .text (toIso8601String d)) a.updatedAt]

def CreditPaymentRow.toMap (id : String) (p : CreditPaymentRow D) : Object D :=
  ofFields [
    field "id" (.text id),
    field "receiptNo" (.text p.receiptNo),
    field "mechanicId" (.text p.mechanicId),
    field "amount" (.double p.amount),
    field "date" (.text (toIso8601String p.date)),
    fieldIf "note" .text p.note]

def DrawerEntryRow.toMap (id : String) (e : DrawerEntryRow D) : Object D :=
  ofFields [
    field "id" (.text id),
    field "type" (.text e.type),
    field "amount" (.double e.amount),
    field "note" (.text (e.note.getD "")),
    field "createdAt" (.text (toIso8601String e.createdAt))]

/-- The entries of a shift, newest first. -/
def Db.entriesOf (id : String) : List (String × DrawerEntryRow D) :=
  H.lists.byDate (fun e => e.2.createdAt) (db.drawerEntries.rows.filter fun e => e.2.shiftId = id)

/-- `shiftToJson` -/
def ShiftRow.toMap (entries : List (String × DrawerEntryRow D)) (id : String) (s : ShiftRow D) : Object D :=
  ofFields [
    field "id" (.text id),
    field "date" (.text s.dateStr),
    field "startingCash" (.double s.startingCash),
    field "openedAt" (.text (toIso8601String s.openedAt)),
    field "closedAt" (iso s.closedAt),
    field "physicalCash" (orNull .double s.physicalCash),
    fieldIf "autoArchived" .bool (if s.autoArchived = true then some true else none),
    fieldIf "archivedAt" (fun d => .text (toIso8601String d)) s.archivedAt,
    field "entries" (.array (entries.map fun e => .object (e.2.toMap e.1)))]

def ParkedSaleRow.toMap (id : String) (p : ParkedSaleRow D) : Object D :=
  match p.payload with
  | .json (.object o) => o
  | .json v           =>
      [("id", .text id), ("parkedAt", .text (toIso8601String p.parkedAt)), ("payload", v)]
  | .other s          =>
      [("id", .text id), ("parkedAt", .text (toIso8601String p.parkedAt)), ("payload", .text s)]

/-- A table as an array of its rows. -/
def arrayOf {ρ : Type} (toMap : String → ρ → Object D) (rows : List (String × ρ)) : Dyn D :=
  .array (rows.map fun e => .object (toMap e.1 e.2))

/-- By position. -/
def Db.categoryRows : List (String × Int) := db.categories.rows.mergeSort fun a b => decide (a.2 ≤ b.2)

/-- By `sortOrder`, then by id. -/
def Db.accountRows : List (String × PaymentAccountRow) :=
  db.paymentAccounts.rows.mergeSort fun a b =>
    decide (a.2.sortOrder < b.2.sortOrder ∨ a.2.sortOrder = b.2.sortOrder ∧ a.1 ≤ b.1)

def Db.activeShift : Option (String × ShiftRow D) := db.shifts.rows.find? fun e => e.2.isActive

def Db.history : List (String × ShiftRow D) :=
  H.lists.byDate (fun e => e.2.openedAt) (db.shifts.rows.filter fun e => !e.2.isActive)

def Db.saleRows : List (String × SaleRow D) := newestFirstByIndex (fun e => e.2.date) db.sales.rows

def Db.shiftToMap (id : String) (s : ShiftRow D) : Object D := s.toMap (db.entriesOf H id) id

def Db.schemaVersionStr : String := db.schemaVersion.getD "2"

/-- The stores that this version knows. -/
def Db.knownStores : Object D :=
  ofFields [
    field "sa_products" (arrayOf ProductRow.toMap db.products.rows),
    field "sa_customers" (arrayOf CustomerRow.toMap db.customers.rows),
    field "sa_sales" (arrayOf (fun id s => s.toMap (linesOf db.saleItems id) id) db.saleRows),
    field "sa_pos" (arrayOf (fun id po => po.toMap (linesOf db.poItems id) id)
      (newestFirst (fun e => e.2.createdAt) db.purchaseOrders.rows)),
    field "sa_settings" (.object db.settings.toMap),
    field "sa_mechanics" (arrayOf MechanicRow.toMap db.mechanics.rows),
    field "sa_quotes" (arrayOf (fun id q => q.toMap (linesOf db.quoteItems id) id)
      (newestFirst (fun e => e.2.date) db.quotes.rows)),
    field "sa_returns" (arrayOf (fun id r => r.toMap (linesOf db.returnItems id) id)
      (newestFirst (fun e => e.2.date) db.returns.rows)),
    field "sa_movements" (arrayOf MovementRow.toMap (newestFirst (fun e => e.2.date) db.movements.rows)),
    field "sa_suppliers" (arrayOf SupplierRow.toMap db.suppliers.rows),
    field "sa_categories" (.array (db.categoryRows.map fun e => .text e.1)),
    field "sa_credit_payments"
      (arrayOf CreditPaymentRow.toMap (newestFirst (fun e => e.2.date) db.creditPayments.rows)),
    field "sa_cash_drawer" (orNull (fun e => .object (db.shiftToMap H e.1 e.2)) db.activeShift),
    field "sa_shift_history" (arrayOf (db.shiftToMap H) (db.history H)),
    field "sa_parked" (arrayOf ParkedSaleRow.toMap (newestFirst (fun e => e.2.parkedAt) db.parkedSales.rows)),
    fieldIf "sa_payment_accounts" (arrayOf PaymentAccountRow.toMap)
      (if db.accountRows = [] then none else some db.accountRows),
    field "sa_schema_version" (.text db.schemaVersionStr)]

def Db.recordCounts : Object D :=
  [("products", .int db.products.rows.length),
    ("customers", .int db.customers.rows.length),
    ("sales", .int db.sales.rows.length),
    ("purchaseOrders", .int db.purchaseOrders.rows.length),
    ("movements", .int db.movements.rows.length),
    ("suppliers", .int db.suppliers.rows.length),
    ("mechanics", .int db.mechanics.rows.length),
    ("quotes", .int db.quotes.rows.length),
    ("returns", .int db.returns.rows.length),
    ("creditPayments", .int db.creditPayments.rows.length),
    ("shiftHistory", .int (db.history H).length),
    ("parked", .int db.parkedSales.rows.length),
    ("categories", .int db.categories.rows.length),
    ("cashDrawer", .int (if db.activeShift.isSome = true then 1 else 0)),
    ("paymentAccounts", .int db.paymentAccounts.rows.length)]

def exportSnapshot (exportedAt : String) (db : Db D) : Object D :=
  db.knownStores H ++ db.unknownStores.rows.map (fun e => (e.1.key, e.2.value)) ++
    [("__meta", .object [
      ("version", .int 2),
      ("schemaVersion", .int ((H.parseInt db.schemaVersionStr).getD 1)),
      ("exportedAt", .text exportedAt),
      ("shopName", .text db.settings.shopName),
      ("recordCounts", .object (db.recordCounts H))])]

end Export

/-! ## Import -/

/-- The till's database, what it is about to mint, and the time. -/
structure Device (D : Type) where
  db : Db D
  uuids : Nat
  now : Instant

/-- Statements on the database. What was written before a failure stays, unless it is rolled back. -/
abbrev Action (D : Type) := EStateM Error (Device D)

def transaction (act : Action D Unit) : Action D Unit := fun d =>
  match act d with
  | .ok () d'   => .ok () d'
  | .error e d' => .error e { d' with db := d.db }

/-- A part of the database, which is read as it was written. -/
structure Slot (D σ : Type) where
  get : Db D → σ
  set : Db D → σ → Db D
  get_set : ∀ db s, get (set db s) = s := by intros; rfl
  set_set : ∀ db s s', set (set db s) s' = set db s' := by intros; rfl
  set_get : ∀ db, set db (get db) = db := by intros; rfl

/-- A table with a key. -/
abbrev Place (D ρ : Type) := Slot D (Table String ρ)

/-- A table of lines. -/
abbrev Lines (D ρ : Type) := Slot D (List (String × ρ))

def insertRow {ρ : Type} (P : Place D ρ) (id : String) (row : ρ) : Action D Unit := do
  let d ← get
  if ((P.get d.db).get id).isSome = true then throw .uniqueConstraint
  else set { d with db := P.set d.db ((P.get d.db).insert id row) }

def insertLine {ρ : Type} (L : Lines D ρ) (id : String) (row : ρ) : Action D Unit :=
  modify fun d => { d with db := L.set d.db (L.get d.db ++ [(id, row)]) }

def newUuid (H : Host D) : Action D String := do
  let d ← get
  set { d with uuids := d.uuids + 1 }
  return H.newUuid d.uuids

namespace Place

def products : Place D (ProductRow D) := { get := Db.products, set db t := { db with products := t } }
def customers : Place D (CustomerRow D) := { get := Db.customers, set db t := { db with customers := t } }
def mechanics : Place D (MechanicRow D) := { get := Db.mechanics, set db t := { db with mechanics := t } }
def sales : Place D (SaleRow D) := { get := Db.sales, set db t := { db with sales := t } }
def purchaseOrders : Place D PurchaseOrderRow :=
  { get := Db.purchaseOrders, set db t := { db with purchaseOrders := t } }
def quotes : Place D (QuoteRow D) := { get := Db.quotes, set db t := { db with quotes := t } }
def returns : Place D (ReturnRow D) := { get := Db.returns, set db t := { db with returns := t } }
def movements : Place D MovementRow := { get := Db.movements, set db t := { db with movements := t } }
def suppliers : Place D (SupplierRow D) := { get := Db.suppliers, set db t := { db with suppliers := t } }
def paymentAccounts : Place D PaymentAccountRow :=
  { get := Db.paymentAccounts, set db t := { db with paymentAccounts := t } }
def categories : Place D Int := { get := Db.categories, set db t := { db with categories := t } }
def creditPayments : Place D (CreditPaymentRow D) :=
  { get := Db.creditPayments, set db t := { db with creditPayments := t } }
def shifts : Place D (ShiftRow D) := { get := Db.shifts, set db t := { db with shifts := t } }
def drawerEntries : Place D (DrawerEntryRow D) :=
  { get := Db.drawerEntries, set db t := { db with drawerEntries := t } }
def parkedSales : Place D (ParkedSaleRow D) := { get := Db.parkedSales, set db t := { db with parkedSales := t } }

end Place

namespace Lines

def saleItems : Lines D (SaleItemRow D) := { get := Db.saleItems, set db l := { db with saleItems := l } }
def poItems : Lines D (PoItemRow D) := { get := Db.poItems, set db l := { db with poItems := l } }
def quoteItems : Lines D (QuoteItemRow D) := { get := Db.quoteItems, set db l := { db with quoteItems := l } }
def returnItems : Lines D (ReturnItemRow D) := { get := Db.returnItems, set db l := { db with returnItems := l } }

end Lines

section Import
variable (H : Host D)

/-- A date, where there is one. -/
def dateOf (v : Dyn D) : Action D (Option Instant) :=
  match parseDate H v with
  | .ok m    => pure (m.map Moment.toInstant)
  | .error e => throw e

/-- `_parseDate(v) ?? DateTime.now()` -/
def dateOrNow (v : Dyn D) : Action D Instant := do
  let date ← dateOf H v
  let d ← get
  return date.getD d.now

/-- `_asStr(v, newUuid())` -/
def idOf (v : Dyn D) : Action D String := if v.isNull = true then newUuid H else pure (asStr H v "")

def zero : D := H.ofInt 0

/-- Legacy zone to category. -/
def zoneMap : List (String × String) :=
  [("Engine", "เครื่องยนต์"), ("Electrical", "ไฟฟ้า"), ("Oils", "น้ำมัน"), ("Brakes", "เบรก"), ("Body", "ตัวถัง")]

def categoryOf (p : Object D) : String :=
  if (get p "category").isNull = false then asStr H (get p "category") ""
  else
    match zoneMap.lookup (asStr H (get p "zone") "") with
    | some category => category
    | none          => if (get p "zone").isNull = false then asStr H (get p "zone") "" else "เครื่องยนต์"

def importProduct (p : Object D) : Action D Unit := do
  let updatedAt ← dateOf H (get p "updatedAt")
  insertRow .products (asStr H (get p "id") "") {
    partNo := asStr H (get p "partNo") ""
    name := asStr H (get p "name") ""
    nameTH := asStr H (get p "nameTH") ""
    category := categoryOf H p
    brand := asStr H (get p "brand") ""
    price := asDouble H (get p "price") (zero H)
    cost := asDouble H (get p "cost") (zero H)
    stock := asInt H (get p "stock") 0
    minStock := asInt H (get p "minStock") 0
    compat := asNullableStr H (get p "compat")
    zone := none
    updatedAt
    deletedAt := none
    imageKey := none }

def importCustomer (c : Object D) : Action D Unit := do
  let updatedAt ← dateOf H (get c "updatedAt")
  let deletedAt ← dateOf H (get c "deletedAt")
  insertRow .customers (asStr H (get c "id") "") {
    code := asStr H (get c "code") ""
    name := asStr H (get c "name") ""
    nameTH := asStr H (get c "nameTH") ""
    phone := asNullableStr H (get c "phone")
    address := asNullableStr H (get c "address")
    points := asInt H (get c "points") 0
    totalSpend := asDouble H (get c "totalSpend") (zero H)
    createdAt := asStr H (get c "createdAt") ""
    updatedAt
    deletedAt }

def importMechanic (m : Object D) : Action D Unit := do
  let updatedAt ← dateOf H (get m "updatedAt")
  let deletedAt ← dateOf H (get m "deletedAt")
  insertRow .mechanics (asStr H (get m "id") "") {
    code := asStr H (get m "code") ""
    name := asStr H (get m "name") ""
    nameTH := asNullableStr H (get m "nameTH")
    nickname := asNullableStr H (get m "nickname")
    shopName := asNullableStr H (get m "shopName")
    phone := asNullableStr H (get m "phone")
    note := asNullableStr H (get m "note")
    creditLimit := asDouble H (get m "creditLimit") (zero H)
    creditBalance := asDouble H (get m "creditBalance") (zero H)
    totalSales := asDouble H (get m "totalSales") (zero H)
    totalCredit := asDouble H (get m "totalCredit") (zero H)
    totalDiscount := asDouble H (get m "totalDiscount") (zero H)
    totalMarkup := asDouble H (get m "totalMarkup") (zero H)
    createdAt := asStr H (get m "createdAt") ""
    updatedAt
    deletedAt }

def importSaleItem (saleId : String) (it : Object D) : Action D Unit :=
  insertLine .saleItems saleId {
    productId := asStr H (get it "productId") ""
    partNo := asNullableStr H (get it "partNo")
    name := asStr H (get it "name") ""
    nameTH := asNullableStr H (get it "nameTH")
    qty := asInt H (get it "qty") 0
    price := asDouble H (get it "price") (zero H)
    costAtSale := asNullableDouble H (get it "cost") }

def importSale (s : Object D) : Action D Unit := do
  let date ← dateOrNow H (get s "date")
  let voidedAt ← dateOf H (get s "voidedAt")
  insertRow .sales (asStr H (get s "id") "") {
    receiptNo := asStr H (get s "receiptNo") ""
    subtotal := asDouble H (get s "subtotal") (zero H)
    discount := asDouble H (get s "discount") (zero H)
    total := asDouble H (get s "total") (zero H)
    paymentMethod := asStr H (get s "paymentMethod") ""
    customerId := asNullableStr H (get s "customerId")
    customerName := asNullableStr H (get s "customerName")
    mechanicId := asNullableStr H (get s "mechanicId")
    mechanicName := asNullableStr H (get s "mechanicName")
    mechanicDelta := nullableDouble H (get s "mechanicDelta")
    pointsGranted := asInt H (get s "pointsGranted") 0
    date
    voided := asBool H (get s "voided")
    voidedAt
    shiftId := none
    soldOffline := false
    voidReason := none
    paymentAccountId := asNullableStr H (get s "paymentAccountId") }
  (asList (get s "items")).forM (importSaleItem H (asStr H (get s "id") ""))

def importPoItem (poId : String) (it : Object D) : Action D Unit :=
  insertLine .poItems poId {
    partNo := asStr H (get it "partNo") ""
    name := asStr H (get it "name") ""
    qty := asInt H (get it "qty") 0
    cost := asDouble H (get it "cost") (zero H) }

def importPurchaseOrder (po : Object D) : Action D Unit := do
  let createdAt ← dateOrNow H (get po "createdAt")
  let receivedAt ← dateOf H (get po "receivedAt")
  let cancelledAt ← dateOf H (get po "cancelledAt")
  insertRow .purchaseOrders (asStr H (get po "id") "") {
    poNo := asStr H (get po "poNo") ""
    supplier := asStr H (get po "supplier") ""
    status := asStr H (get po "status") "open"
    createdAt
    receivedAt
    cancelledAt }
  (asList (get po "items")).forM (importPoItem H (asStr H (get po "id") ""))

def importQuoteItem (quoteId : String) (it : Object D) : Action D Unit :=
  insertLine .quoteItems quoteId {
    productId := asNullableStr H (get it "productId")
    name := asStr H (get it "name") ""
    qty := asInt H (get it "qty") 0
    price := asDouble H (get it "price") (zero H)
    costAtSale := none }

def importQuote (q : Object D) : Action D Unit := do
  let date ← dateOrNow H (get q "date")
  let validUntil ← dateOrNow H (get q "validUntil")
  let convertedAt ← dateOf H (get q "convertedAt")
  insertRow .quotes (asStr H (get q "id") "") {
    quoteNo := asStr H (get q "quoteNo") ""
    status := asStr H (get q "status") "open"
    date
    validUntil
    convertedAt
    subtotal := nullableDouble H (get q "subtotal")
    discount := nullableDouble H (get q "discount")
    total := nullableDouble H (get q "total")
    customerName := asNullableStr H (get q "customerName")
    customerPhone := asNullableStr H (get q "customerPhone")
    notes := asNullableStr H (get q "notes")
    validDays := nullableInt H (get q "validDays") }
  (asList (get q "items")).forM (importQuoteItem H (asStr H (get q "id") ""))

def importReturnItem (returnId : String) (it : Object D) : Action D Unit :=
  insertLine .returnItems returnId {
    productId := asStr H (get it "productId") ""
    name := asStr H (get it "name") ""
    qty := asInt H (get it "qty") 0
    price := asDouble H (get it "price") (zero H)
    originalQty := nullableInt H (get it "originalQty") }

def importReturn (r : Object D) : Action D Unit := do
  let date ← dateOrNow H (get r "date")
  insertRow .returns (asStr H (get r "id") "") {
    cnNo := asStr H (get r "cnNo") ""
    saleId := asStr H (get r "saleId") ""
    receiptNo := asStr H (get r "receiptNo") ""
    refundSubtotal := asDouble H (get r "refundSubtotal") (zero H)
    refundDiscount := asDouble H (get r "refundDiscount") (zero H)
    refundTotal := asDouble H (get r "refundTotal") (zero H)
    refundMethod := asStr H (get r "refundMethod") ""
    reason := asStr H (get r "reason") ""
    customerId := asNullableStr H (get r "customerId")
    mechanicId := asNullableStr H (get r "mechanicId")
    mechanicName := asNullableStr H (get r "mechanicName")
    date }
  (asList (get r "items")).forM (importReturnItem H (asStr H (get r "id") ""))

def importMovement (m : Object D) : Action D Unit := do
  let date ← dateOrNow H (get m "date")
  insertRow .movements (asStr H (get m "id") "") {
    productId := asStr H (get m "productId") ""
    partNo := asStr H (get m "partNo") ""
    name := asStr H (get m "name") ""
    delta := asInt H (get m "delta") 0
    type := asStr H (get m "type") ""
    note := asNullableStr H (get m "note")
    stockAfter := asInt H (get m "stockAfter") 0
    date }

def importSupplier (s : Object D) : Action D Unit :=
  insertRow .suppliers (asStr H (get s "id") "") {
    productId := asStr H (get s "productId") ""
    name := asStr H (get s "name") ""
    unitCost := asDouble H (get s "unitCost") (zero H)
    freight := asDouble H (get s "freight") (zero H) }

/-- The picture, if there is one. -/
def imageOf : Dyn D → Action D (Option (List UInt8))
  | .text s =>
      if s = "" then pure none
      else
        match Base64.decode s.toList with
        | some bytes => pure (some bytes)
        | none       => throw .badBase64
  | _ => pure none

/-- Active rows only. -/
def importPaymentAccount (a : Object D) : Action D Unit := do
  if (get a "deletedAt").isNull = false then return
  let image ← imageOf (get a "imageBase64")
  let updatedAt ← dateOf H (get a "updatedAt")
  insertRow .paymentAccounts (asStr H (get a "id") "") {
    nickname := asStr H (get a "nickname") ""
    bankCode := asStr H (get a "bankCode") ""
    kind := asStr H (get a "kind") ""
    promptpayId := asNullableStr H (get a "promptpayId")
    image
    imageMime := asNullableStr H (get a "imageMime")
    isDefault := asBool H (get a "isDefault")
    sortOrder := asInt H (get a "sortOrder") 0
    updatedAt }

/-- A name at its place in the array. -/
def importCategory (e : Dyn D × Nat) : Action D Unit :=
  if e.1.isNull = true then return else insertRow .categories (asStr H e.1 "") (e.2 : Int)

def importCategories : Dyn D → Action D Unit
  | .array names => names.zipIdx.forM (importCategory H)
  | _            => return

def importCreditPayment (p : Object D) : Action D Unit := do
  let date ← dateOrNow H (get p "date")
  insertRow .creditPayments (asStr H (get p "id") "") {
    receiptNo := asStr H (get p "receiptNo") ""
    mechanicId := asStr H (get p "mechanicId") ""
    amount := asDouble H (get p "amount") (zero H)
    date
    note := asNullableStr H (get p "note") }

def importEntry (shiftId : String) (e : Object D) : Action D Unit := do
  let id ← idOf H (get e "id")
  let createdAt ← dateOrNow H (get e "createdAt")
  insertRow .drawerEntries id {
    shiftId
    type := asStr H (get e "type") ""
    amount := asDouble H (get e "amount") (zero H)
    note := asNullableStr H (get e "note")
    createdAt }

def importShift (isActive : Bool) (shift : Object D) : Action D Unit := do
  let shiftId ← idOf H (get shift "id")
  let openedAt ← dateOrNow H (get shift "openedAt")
  let closedAt ← dateOf H (get shift "closedAt")
  let archivedAt ← dateOf H (get shift "archivedAt")
  insertRow .shifts shiftId {
    dateStr := asStr H (get shift "date") ""
    startingCash := asDouble H (get shift "startingCash") (zero H)
    openedAt
    closedAt
    physicalCash := nullableDouble H (get shift "physicalCash")
    isActive
    autoArchived := asBool H (get shift "autoArchived")
    archivedAt }
  (asList (get shift "entries")).forM (importEntry H shiftId)

def importCashDrawer : Dyn D → Action D Unit
  | .object shift => importShift H true shift
  | _             => return

def importParked (p : Object D) : Action D Unit := do
  let id ← idOf H (get p "id")
  let parkedAt ← dateOrNow H (get p "parkedAt")
  insertRow .parkedSales id { parkedAt, payload := .json (.object p) }

def importSettings : Dyn D → Action D Unit
  | .object s => do
      let updatedAt ← dateOf H (get s "updatedAt")
      modify fun d => { d with db := { d.db with settings := {
        shopName := asStr H (get s "shopName") ""
        shopNameEN := asStr H (get s "shopNameEN") ""
        taxRate := asDouble H (get s "taxRate") (H.ofInt 7)
        quoteValidDays := asInt H (get s "quoteValidDays") 30
        address := asNullableStr H (get s "address")
        phone := asNullableStr H (get s "phone")
        cashierName := asNullableStr H (get s "cashierName")
        taxId := asNullableStr H (get s "taxId")
        branchNo := asNullableStr H (get s "branchNo")
        updatedAt } } }
  | _ => return

def importSchemaVersion (v : Dyn D) : Action D Unit :=
  if v.isNull = true then return
  else modify fun d => { d with db := { d.db with schemaVersion := some (asStr H v "") } }

/-- An entry of the file that this version does not know, and that is there. -/
def unknownStore (e : String × Dyn D) : Option (UnknownStore × Carried D) :=
  if h : e.1 ≠ "__meta" ∧ isStoreKey e.1 = true ∧ e.1 ∉ knownStoreKeys ∧ e.2.isNull = false then
    some (⟨e.1, h.2.1, h.2.2.1⟩, ⟨e.2, h.2.2.2⟩)
  else none

def carry (e : String × Dyn D) : Action D Unit :=
  match unknownStore e with
  | some (store, v) => modify fun d => { d with db := { d.db with unknownStores := d.db.unknownStores.upsert store v } }
  | none            => return

/-- The known tables are emptied: the accounts only for a file that has some. -/
def Db.wiped (db : Db D) (accounts : List (Object D)) : Db D :=
  { db with
    saleItems := []
    poItems := []
    quoteItems := []
    returnItems := []
    drawerEntries := .empty
    sales := .empty
    purchaseOrders := .empty
    quotes := .empty
    returns := .empty
    shifts := .empty
    products := .empty
    customers := .empty
    mechanics := .empty
    movements := .empty
    suppliers := .empty
    categories := .empty
    creditPayments := .empty
    parkedSales := .empty
    paymentAccounts := if accounts = [] then db.paymentAccounts else .empty }

def importStores (data : Object D) : Action D Unit := do
  let fileAccounts := asList (get data "sa_payment_accounts")
  modify fun d => { d with db := d.db.wiped fileAccounts }
  (asList (get data "sa_products")).forM (importProduct H)
  (asList (get data "sa_customers")).forM (importCustomer H)
  (asList (get data "sa_mechanics")).forM (importMechanic H)
  (asList (get data "sa_sales")).forM (importSale H)
  (asList (get data "sa_pos")).forM (importPurchaseOrder H)
  (asList (get data "sa_quotes")).forM (importQuote H)
  (asList (get data "sa_returns")).forM (importReturn H)
  (asList (get data "sa_movements")).forM (importMovement H)
  (asList (get data "sa_suppliers")).forM (importSupplier H)
  fileAccounts.forM (importPaymentAccount H)
  importCategories H (get data "sa_categories")
  (asList (get data "sa_credit_payments")).forM (importCreditPayment H)
  importCashDrawer H (get data "sa_cash_drawer")
  (asList (get data "sa_shift_history")).forM (importShift H false)
  (asList (get data "sa_parked")).forM (importParked H)
  importSettings H (get data "sa_settings")
  importSchemaVersion H (get data "sa_schema_version")
  modify fun d => { d with db := { d.db with demoSeedPurged := true } }
  modify fun d => { d with db := { d.db with unknownStores := .empty } }
  data.forM carry

def importBlockedMessage : String :=
  "ระบบนี้เก็บข้อมูลบนเซิร์ฟเวอร์ ไม่สามารถกู้คืนข้อมูลจากไฟล์ในหน้านี้ได้ — " ++
  "การนำเข้าข้อมูลเข้าระบบ ให้ผู้ดูแลแพลตฟอร์มเป็นผู้ดำเนินการ"

def importLegacyBackup (restoresViaServer : Bool) (data : Object D) : Action D Unit :=
  if restoresViaServer = true then throw (.posException "IMPORT_BLOCKED_API_BUILD" importBlockedMessage)
  else if (get data "__meta").isNull = true then
    throw (.exception "ไฟล์สำรองไม่ถูกต้อง — ไม่พบข้อมูล __meta")
  else transaction (importStores H data)

end Import

end Till.Backup

import SrisurartPos.Server.Sales
import SrisurartPos.Server.Returns
import SrisurartPos.Money

/-! # The till's own rows (`tables.dart`)

What the till caches of the shop, in its local database. Money is a `REAL` in baht: here an exact
rational, so that what the rows say is the source's arithmetic without the error of its doubles. A
row of the server has its image here (`ofServer`), which is how the till stores it when it is
pulled. -/

namespace Cache

open Server Money

structure ProductRow where
  partNo : String
  name : String
  cost : ℚ
  stock : Int
  /-- `deletedAt != null` -/
  deleted : Bool
  deriving DecidableEq

structure CustomerRow where
  points : Int
  totalSpend : ℚ
  deriving DecidableEq

structure MechanicRow where
  creditLimit : ℚ
  creditBalance : ℚ
  totalSales : ℚ
  /-- the old app's alias of `totalDiscount` -/
  totalCredit : ℚ
  totalDiscount : ℚ
  totalMarkup : ℚ
  deriving DecidableEq

structure SaleItemRow where
  productId : ProductId
  partNo : Option String
  name : String
  qty : Int
  price : ℚ
  costAtSale : Option ℚ
  deriving DecidableEq

/-- A bill with its lines (`Sales` and `SaleItems`). -/
structure SaleRow where
  receiptNo : DocNo
  subtotal : ℚ
  discount : ℚ
  total : ℚ
  paymentMethod : PaymentMethod
  customerId : Option CustomerId
  mechanicId : Option MechanicId
  mechanicDelta : Option ℚ
  pointsGranted : Int
  date : Nat
  voided : Bool
  voidedAt : Option Nat
  shiftId : Option ShiftId
  soldOffline : Bool
  voidReason : Option String
  paymentAccountId : Option AccountId
  items : List SaleItemRow
  deriving DecidableEq

structure ReturnItemRow where
  productId : ProductId
  name : String
  qty : Int
  price : ℚ
  deriving DecidableEq

/-- A credit note with its lines (`Returns` and `ReturnItems`). -/
structure ReturnRow where
  saleId : SaleId
  refundTotal : ℚ
  refundMethod : RefundMethod
  customerId : Option CustomerId
  mechanicId : Option MechanicId
  date : Nat
  items : List ReturnItemRow
  deriving DecidableEq

structure ShiftRow where
  startingCash : ℚ
  openedAt : Nat
  closedAt : Option Nat
  isActive : Bool
  deriving DecidableEq

/-! ## The server's rows as the till has them -/

def ProductRow.ofServer (p : Product) : ProductRow :=
  { partNo := p.partNo, name := p.name, cost := baht p.cost, stock := p.stock, deleted := p.deleted }

def CustomerRow.ofServer (c : Customer) : CustomerRow :=
  { points := c.points, totalSpend := baht c.totalSpend }

def MechanicRow.ofServer (m : Mechanic) : MechanicRow :=
  { creditLimit := baht m.creditLimit
    creditBalance := baht m.creditBalance
    totalSales := baht m.totalSales
    totalCredit := baht m.totalCredit
    totalDiscount := baht m.totalDiscount
    totalMarkup := baht m.totalMarkup }

def ReturnItemRow.ofServer (i : ReturnItem) : ReturnItemRow :=
  { productId := i.productId, name := i.name, qty := i.qty, price := baht i.price }

/-- A line of a bill as the till has it, which keeps its part number besides. -/
structure SaleItemRow.Caches (row : SaleItemRow) (i : SaleItem) : Prop where
  productId : row.productId = i.productId
  name : row.name = i.name
  qty : row.qty = i.qty
  price : row.price = baht i.price
  costAtSale : row.costAtSale = i.costAtSale.map baht

/-- A bill as the till has it, with the dates it keeps besides. -/
structure SaleRow.Caches (row : SaleRow) (sale : Sale) : Prop where
  receiptNo : row.receiptNo = sale.receiptNo
  subtotal : row.subtotal = baht sale.subtotal
  discount : row.discount = baht sale.discount
  total : row.total = baht sale.total
  paymentMethod : row.paymentMethod = sale.paymentMethod
  customerId : row.customerId = sale.customerId
  mechanicId : row.mechanicId = sale.mechanicId
  mechanicDelta : row.mechanicDelta = sale.mechanicDelta.map baht
  pointsGranted : row.pointsGranted = sale.pointsGranted
  voided : row.voided = sale.voided
  shiftId : row.shiftId = sale.shiftId
  soldOffline : row.soldOffline = sale.soldOffline
  voidReason : row.voidReason = sale.voidReason
  paymentAccountId : row.paymentAccountId = sale.paymentAccountId
  items : List.Forall₂ SaleItemRow.Caches row.items sale.items

@[simp] theorem ProductRow.ofServer_stock (p : Product) : (ofServer p).stock = p.stock := rfl

@[simp] theorem CustomerRow.ofServer_points (c : Customer) : (ofServer c).points = c.points := rfl

@[simp] theorem CustomerRow.ofServer_totalSpend (c : Customer) :
    (ofServer c).totalSpend = baht c.totalSpend := rfl

@[simp] theorem MechanicRow.ofServer_creditBalance (m : Mechanic) :
    (ofServer m).creditBalance = baht m.creditBalance := rfl

@[simp] theorem MechanicRow.ofServer_totalSales (m : Mechanic) :
    (ofServer m).totalSales = baht m.totalSales := rfl

@[simp] theorem MechanicRow.ofServer_totalCredit (m : Mechanic) :
    (ofServer m).totalCredit = baht m.totalCredit := rfl

@[simp] theorem MechanicRow.ofServer_totalDiscount (m : Mechanic) :
    (ofServer m).totalDiscount = baht m.totalDiscount := rfl

@[simp] theorem MechanicRow.ofServer_totalMarkup (m : Mechanic) :
    (ofServer m).totalMarkup = baht m.totalMarkup := rfl

/-- A credit note as the till has it. It keeps no cost of the lines. -/
structure ReturnRow.Caches (row : ReturnRow) (note : Return) : Prop where
  saleId : row.saleId = note.saleId
  refundTotal : row.refundTotal = baht note.refundTotal
  refundMethod : row.refundMethod = note.refundMethod
  items : row.items = note.items.map .ofServer

/-- What a sum over the lines reads of each may be read of either side. -/
theorem SaleRow.Caches.sum_items {row : SaleRow} {sale : Sale} (h : row.Caches sale)
    {M : Type} [AddCommMonoid M] {f : SaleItemRow → M} {g : SaleItem → M}
    (hfg : ∀ r i, SaleItemRow.Caches r i → f r = g i) :
    (row.items.map f).sum = (sale.items.map g).sum := by
  have hitems := h.items
  generalize row.items = rows at hitems
  generalize sale.items = items at hitems
  induction hitems with
  | nil => rfl
  | cons hri _ ih => rw [List.map_cons, List.map_cons, List.sum_cons, List.sum_cons, ih, hfg _ _ hri]

/-- So may what one line has. -/
theorem SaleRow.Caches.any_items {row : SaleRow} {sale : Sale} (h : row.Caches sale)
    {f : SaleItemRow → Bool} {g : SaleItem → Bool}
    (hfg : ∀ r i, SaleItemRow.Caches r i → f r = g i) : row.items.any f = sale.items.any g := by
  have hitems := h.items
  generalize row.items = rows at hitems
  generalize sale.items = items at hitems
  induction hitems with
  | nil => rfl
  | cons hri _ ih => rw [List.any_cons, List.any_cons, ih, hfg _ _ hri]

end Cache

import SrisurartPos.Server.Reports
import SrisurartPos.Till.OfflineSales

/-! # Gross profit at the till (`net_sales.dart`)

The till works out the gross profit of a period from its own rows. It finds the cost of a line that
has none recorded by other ways than the server does: for a bill by the line's part number, among the
products that are not deleted, for a credit note from the line of the bill. -/

namespace Cache

open Server Money

/-! ## The report -/

/-- A line for the report, with the cost that was looked up for it. -/
structure ItemLite where
  partNo : String
  name : String
  qty : Int
  price : ℚ
  costAtSale : Option ℚ
  currentCost : Option ℚ

structure SaleLite where
  id : SaleId
  subtotal : ℚ
  discount : ℚ
  total : ℚ
  paymentMethod : PaymentMethod
  voided : Bool
  items : List ItemLite
  paymentAccountId : Option AccountId

structure ReturnLite where
  id : ReturnId
  saleId : SaleId
  refundTotal : ℚ
  refundMethod : RefundMethod
  items : List ItemLite
  saleAccountId : Option AccountId

structure GrossProfitResult where
  profit : ℚ
  estimatedCostLines : Nat
  unknownCostLines : Nat
  cost : ℚ

/-- `costAtSale`, or else `currentCost`, or else nothing. -/
def ItemLite.lineCost (i : ItemLite) : ℚ := (i.costAtSale.or i.currentCost).getD 0 * i.qty

def computeGrossProfit (sales : List SaleLite) (taxRate : ℚ) (returns : List ReturnLite) :
    GrossProfitResult :=
  let vatDivisor := 1 + taxRate / 100
  let lines := sales.flatMap (·.items) ++ returns.flatMap (·.items)
  let revenue := (sales.map (·.total)).sum - (returns.map (·.refundTotal)).sum
  let cost := (sales.map fun s => (s.items.map ItemLite.lineCost).sum).sum -
    (returns.map fun r => (r.items.map ItemLite.lineCost).sum).sum
  { profit := revenue / vatDivisor - cost
    estimatedCostLines :=
      (lines.filter fun i => i.costAtSale.isNone && i.currentCost.isSome).length
    unknownCostLines :=
      (lines.filter fun i => i.costAtSale.isNone && i.currentCost.isNone).length
    cost := cost }

def countedSales (sales : List SaleLite) (returns : List ReturnLite) : List SaleLite :=
  sales.filter fun s => !s.voided || s.id ∈ returns.map (·.saleId)

/-- A map literal: of several entries for a key the last one counts. -/
def lastOf {κ ν : Type} [DecidableEq κ] (entries : List (κ × ν)) (k : κ) : Option ν :=
  entries.reverse.lookup k

/-- `costByPart[i.partNo]` -/
def costByPart (products : List (ProductId × ProductRow)) (partNo : Option String) : Option ℚ :=
  partNo.bind (lastOf (products.map fun p => (p.2.partNo, p.2.cost)))

/-- The line of the bill with the product and price of a note's line, or else with its product. -/
def originalLine (lines : List SaleItemRow) (i : ReturnItemRow) : Option SaleItemRow :=
  (lines.find? fun l => l.productId = i.productId ∧ l.price = i.price).or
    (lines.find? fun l => l.productId = i.productId)

def returnLine (products : List (ProductId × ProductRow)) (lines : List SaleItemRow)
    (i : ReturnItemRow) : ItemLite :=
  let line := originalLine lines i
  let product := lastOf products i.productId
  { partNo := ((line.bind (·.partNo)).or (product.map (·.partNo))).getD ""
    name := (line.map (·.name)).getD i.name
    qty := i.qty
    price := i.price
    costAtSale := line.bind (·.costAtSale)
    currentCost := product.map (·.cost) }

/-- `_voidedAtOrAfter` -/
def voidedAtOrAfter (x : SaleId) (row : SaleRow) (asOf : Option Nat) (laterReturned : List SaleId) :
    Bool :=
  match asOf with
  | none      => false
  | some asOf =>
      match row.voidedAt with
      | some voidedAt => decide (asOf ≤ voidedAt)
      | none          => decide (x ∈ laterReturned)

/-- A line of a bill. -/
def saleLine (products : List (ProductId × ProductRow)) (i : SaleItemRow) : ItemLite :=
  { partNo := i.partNo.getD ""
    name := i.name
    qty := i.qty
    price := i.price
    costAtSale := i.costAtSale
    currentCost := costByPart products i.partNo }

def saleLite (products : List (ProductId × ProductRow)) (asOf : Option Nat)
    (laterReturnedSaleIds : List SaleId) (s : SaleId × SaleRow) : SaleLite :=
  { id := s.1
    subtotal := s.2.subtotal
    discount := s.2.discount
    total := s.2.total
    paymentMethod := s.2.paymentMethod
    voided := s.2.voided && !voidedAtOrAfter s.1 s.2 asOf laterReturnedSaleIds
    paymentAccountId := s.2.paymentAccountId
    items := s.2.items.map (saleLine products) }

/-- A note, with the bill it is against when that is known. -/
def returnLite (products : List (ProductId × ProductRow)) (known : List (SaleId × SaleRow))
    (r : ReturnId × ReturnRow) : ReturnLite :=
  let bill := lastOf known r.2.saleId
  { id := r.1
    saleId := r.2.saleId
    refundTotal := r.2.refundTotal
    refundMethod := r.2.refundMethod
    saleAccountId := bill.bind (·.paymentAccountId)
    items := r.2.items.map (returnLine products ((bill.map (·.items)).getD [])) }

def toReportLites (sales : List (SaleId × SaleRow)) (returns : List (ReturnId × ReturnRow))
    (products : List (ProductId × ProductRow)) (originalSales : List (SaleId × SaleRow))
    (asOf : Option Nat) (laterReturnedSaleIds : List SaleId) : List SaleLite × List ReturnLite :=
  (sales.map (saleLite products asOf laterReturnedSaleIds),
    returns.map (returnLite products (originalSales ++ sales)))

namespace Db

variable (inPeriod : Nat → Bool) (db : Db)

/-- The products that are not deleted (`getAll`). -/
def liveProducts : List (ProductId × ProductRow) := db.products.rows.filter fun p => !p.2.deleted

def salesIn : List (SaleId × SaleRow) := db.sales.rows.filter fun e => inPeriod e.2.date

def returnsIn : List (ReturnId × ReturnRow) := db.returns.rows.filter fun e => inPeriod e.2.date

/-- The bills of other days that the period's notes are against. -/
def originalSales : List (SaleId × SaleRow) := db.sales.rows.filter fun e =>
  e.1 ∈ (db.returnsIn inPeriod).map (·.2.saleId) && !decide (e.1 ∈ (db.salesIn inPeriod).map Prod.fst)

/-- `_loadClosingData` -/
def closingLites : List SaleLite × List ReturnLite :=
  toReportLites (db.salesIn inPeriod) (db.returnsIn inPeriod) db.liveProducts
    (db.originalSales inPeriod) none []

def closingProfit (taxRate : ℚ) : GrossProfitResult :=
  let lites := db.closingLites inPeriod
  computeGrossProfit (countedSales lites.1 lites.2) taxRate lites.2

end Db

end Cache

import SrisurartPos.Server.Program
import SrisurartPos.Money

/-! # Gross profit (`reports.service.ts`)

What is left of the counted bills less the credit notes, without the value added tax and the cost of
the goods. A line costs what was recorded on it, or else what the product costs today, deleted or
not. -/

namespace Server

open Money

structure ReportProfit where
  grossProfit : Int
  estimatedCostRows : Nat
  unknownCostRows : Nat
  deriving DecidableEq, Repr

/-- `GET /reports/summary` -/
structure ReportSummary where
  totalRevenue : Int
  totalTransactions : Nat
  avgTicket : Int
  totalRefunds : Int
  netRevenue : Int
  totalItems : Int
  profit : ReportProfit
  deriving DecidableEq, Repr

/-- A row of `gp_lines`. -/
structure ProfitLine where
  qty : Int
  costAtSale : Option Int
  currentCost : Option Int

namespace Db

variable (saleScope : SaleId → Sale → Bool) (returnScope : ReturnId → Return → Bool) (db : Db)

def gpSales : List (SaleId × Sale) :=
  db.sales.rows.filter fun e => saleScope e.1 e.2 && db.counted e.1 e.2

def gpReturns : List (ReturnId × Return) := db.returns.rows.filter fun e => returnScope e.1 e.2

/-- `LEFT JOIN products p …` -/
def currentCost (p : ProductId) : Option Int := (db.products.get p).map (·.cost)

def gpLines : List ProfitLine :=
  ((db.gpSales saleScope).flatMap fun e => e.2.items.map fun i =>
    ⟨i.qty, i.costAtSale, db.currentCost i.productId⟩) ++
  (db.gpReturns returnScope).flatMap fun e => e.2.items.map fun i =>
    ⟨-i.qty, i.costAtSale, db.currentCost i.productId⟩

/-- `grossProfitCtes`, for the bills and the notes of two scopes. The tax rate is that of the
settings, if the shop has any. -/
def grossProfit (taxRate : Option ℚ) : ReportProfit :=
  let lines := db.gpLines saleScope returnScope
  let revenue := ((db.gpSales saleScope).map (·.2.total)).sum -
    ((db.gpReturns returnScope).map (·.2.refundTotal)).sum
  let cost := (lines.map fun l => l.qty * (l.costAtSale.or l.currentCost).getD 0).sum
  { grossProfit := toSatang (baht revenue / (1 + taxRate.getD 7 / 100) - baht cost)
    estimatedCostRows := (lines.filter fun l => l.costAtSale.isNone && l.currentCost.isSome).length
    unknownCostRows := (lines.filter fun l => l.costAtSale.isNone && l.currentCost.isNone).length }

/-- `summaryIn`. The average is of what is left after the credit notes, in whole baht. -/
def summary (taxRate : Option ℚ) : ReportSummary :=
  let revenue := ((db.gpSales saleScope).map (·.2.total)).sum
  let refunds := ((db.gpReturns returnScope).map (·.2.refundTotal)).sum
  let transactions := (db.gpSales saleScope).length
  { totalRevenue := revenue
    totalTransactions := transactions
    avgTicket := if transactions = 0 then 0 else
      100 * roundAway (baht (revenue - refunds) / transactions)
    totalRefunds := refunds
    netRevenue := revenue - refunds
    totalItems := ((db.gpLines saleScope returnScope).map (·.qty)).sum
    profit := db.grossProfit saleScope returnScope taxRate }

/-- A sum over the lines of the report is one over the bills and one over the notes. -/
theorem sum_gpLines {M : Type} [AddCommMonoid M] (f : ProfitLine → M) :
    ((db.gpLines saleScope returnScope).map f).sum =
      (db.sales.rows.map fun e => if saleScope e.1 e.2 && db.counted e.1 e.2 then
        (e.2.items.map fun i => f ⟨i.qty, i.costAtSale, db.currentCost i.productId⟩).sum else 0).sum +
      (db.returns.rows.map fun e => if returnScope e.1 e.2 then
        (e.2.items.map fun i => f ⟨-i.qty, i.costAtSale, db.currentCost i.productId⟩).sum
      else 0).sum := by
  have hitems : ∀ {α : Type} (l : List α) (g : α → ProfitLine),
      ((l.map g).map f).sum = (l.map fun i => f (g i)).sum := by
    intro α l g
    rw [List.map_map]
    rfl
  rw [gpLines, List.map_append, List.sum_append, Table.sum_flatMap_map, Table.sum_flatMap_map,
    gpSales, gpReturns, Table.sum_filter_map, Table.sum_filter_map]
  simp only [hitems]

end Db

end Server

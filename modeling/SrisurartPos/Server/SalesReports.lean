import SrisurartPos.Server.Reports
import SrisurartPos.Grouping
import Mathlib.Data.List.MinMax
import Mathlib.Order.Monotone.Basic

/-! # Reports of a range of days (`reports.service.ts`)

The summary, the products sold most and the categories are three queries, each of which derives the
lines of the range by itself. They come to the same items and the same revenue. -/

namespace Server

open Money

/-! ## What is read -/

/-- Where the days of the shop's time zone begin. -/
structure Zone where
  /-- `::date::timestamp AT TIME ZONE timezone` -/
  midnight : Nat → Nat
  midnight_mono : Monotone midnight

/-- The columns that these reports read besides. -/
structure ReportColumns where
  /-- `sales.date` -/
  saleDate : SaleId → Nat
  /-- `returns.date` -/
  noteDate : ReturnId → Nat
  /-- `sale_items.part_no`, by `line_no` -/
  linePartNo : SaleId → Nat → Option String
  /-- `products.category` -/
  category : ProductId → String
  /-- the collation of the database -/
  collates : String → String → Bool
  /-- `product_id::text` -/
  idText : ProductId → String

structure ReportDateRange where
  start : Option Nat
  toExclusive : Option Nat
  deriving DecidableEq

/-- `BOUNDS`: a day that is missing is no bound. -/
def ReportDateRange.contains (zone : Zone) (range : ReportDateRange) (date : Nat) : Bool :=
  range.start.all (fun day => zone.midnight day ≤ date) &&
    range.toExclusive.all fun day => date < zone.midnight day

structure ItemEvent where
  productId : ProductId
  partNo : Option String
  name : String
  qty : Int
  revenue : Int
  deriving DecidableEq

structure ProductSales where
  productId : ProductId
  partNo : String
  name : String
  qty : Int
  revenue : Int
  deriving DecidableEq

structure CategorySales where
  category : String
  qty : Int
  revenue : Int
  deriving DecidableEq

/-! ## The queries -/

namespace ReportColumns

variable (cols : ReportColumns)

/-- `max` of the texts that are not null. -/
def maxText (texts : List String) : Option String :=
  texts.foldl (fun top t => some (top.elim t fun m => if cols.collates m t then t else m)) none

end ReportColumns

namespace Db

variable (cols : ReportColumns) (zone : Zone) (range : ReportDateRange) (db : Db)

def salesOf (x : SaleId) (_ : Sale) : Bool := range.contains zone (cols.saleDate x)

def returnsOf (r : ReturnId) (_ : Return) : Bool := range.contains zone (cols.noteDate r)

/-- `sale_events` -/
def saleEvents : List ItemEvent :=
  (db.gpSales (salesOf cols zone range)).flatMap fun e => e.2.items.map fun i =>
    { productId := i.productId
      partNo := cols.linePartNo e.1 i.lineNo
      name := i.name
      qty := i.qty
      revenue := i.qty * i.price }

/-- The first line of the bill with the product and the price of a note's line. -/
def soldLine (x : SaleId) (i : ReturnItem) : Option SaleItem :=
  ((((db.sales.get x).map (·.items)).getD []).filter fun l =>
    l.productId = i.productId ∧ l.price = i.price).argmin (·.lineNo)

/-- `return_events` -/
def returnEvents : List ItemEvent :=
  (db.gpReturns (returnsOf cols zone range)).flatMap fun e => e.2.items.map fun i =>
    let sl := db.soldLine e.2.saleId i
    { productId := i.productId
      partNo := sl.bind fun l => cols.linePartNo e.2.saleId l.lineNo
      name := (sl.map (·.name)).getD i.name
      qty := -i.qty
      revenue := -(i.qty * i.price) }

/-- `item_events` -/
def itemEvents : List ItemEvent :=
  db.saleEvents cols zone range ++ db.returnEvents cols zone range

/-- The row of one product: what the lines call it, or else the product, or else its id. -/
def productSales (e : ProductId × List ItemEvent) : ProductSales :=
  let p := db.products.get e.1
  { productId := e.1
    partNo := ((cols.maxText (e.2.filterMap (·.partNo))).or (p.map (·.partNo))).getD (cols.idText e.1)
    name := ((cols.maxText (e.2.map (·.name))).or (p.map (·.name))).getD (cols.idText e.1)
    qty := (e.2.map (·.qty)).sum
    revenue := (e.2.map (·.revenue)).sum }

/-- `quantity DESC, revenue DESC, product_id` -/
def soldMore (a b : ProductSales) : Prop :=
  b.qty < a.qty ∨ a.qty = b.qty ∧
    (b.revenue < a.revenue ∨ a.revenue = b.revenue ∧ a.productId ≤ b.productId)

instance : DecidableRel soldMore := fun _ _ => inferInstanceAs (Decidable (_ ∨ _))

/-- `topProductsIn` -/
def topProducts (limit : Nat) : List ProductSales :=
  ((((Grouping.groupBy (·.productId) (db.itemEvents cols zone range)).map (db.productSales cols)).filter
    fun r => r.qty ≠ 0 || r.revenue ≠ 0).insertionSort soldMore).take limit

/-- The category of a product that is not deleted. -/
def categoryOf (p : ProductId) : String :=
  match db.products.get p with
  | none         => "อื่นๆ"
  | some product => if product.deleted ∨ cols.category p = "" then "อื่นๆ" else cols.category p

/-- `revenue DESC, category` -/
def earnsMore (a b : CategorySales) : Prop :=
  b.revenue < a.revenue ∨ a.revenue = b.revenue ∧ cols.collates a.category b.category

instance : DecidableRel (earnsMore cols) := fun _ _ => inferInstanceAs (Decidable (_ ∨ _))

/-- `byCategoryIn` -/
def byCategory : List CategorySales :=
  (((Grouping.groupBy (fun e => db.categoryOf cols e.productId) (db.itemEvents cols zone range)).map
    fun e => (⟨e.1, (e.2.map (·.qty)).sum, (e.2.map (·.revenue)).sum⟩ : CategorySales)).filter
      fun r => r.qty ≠ 0 || r.revenue ≠ 0).insertionSort (earnsMore cols)

/-- `summaryIn` -/
def rangeSummary (taxRate : Option ℚ) : ReportSummary :=
  db.summary (salesOf cols zone range) (returnsOf cols zone range) taxRate

/-! ## One range -/

section
variable {M : Type} [AddCommMonoid M]

/-- Rows that say nothing are left out of a list without a difference to its sums. -/
theorem sum_filter_of_zero {α : Type} {l : List α} {p : α → Bool} {f : α → M}
    (h : ∀ a ∈ l, p a = false → f a = 0) : ((l.filter p).map f).sum = (l.map f).sum := by
  rw [Table.sum_filter_map]
  congr 1
  apply List.map_congr_left
  intro a ha
  cases hp : p a with
  | false => exact (h a ha hp).symm
  | true => rfl

end

/-- Quantity and revenue of a line. -/
def eventFigures (e : ItemEvent) : Int × Int := (e.qty, e.revenue)

/-- Of a row. -/
def productFigures (r : ProductSales) : Int × Int := (r.qty, r.revenue)

def categoryFigures (r : CategorySales) : Int × Int := (r.qty, r.revenue)

/-- The lines of all bills and credit notes. -/
def lineCount : Nat :=
  (db.sales.rows.map fun e => e.2.items.length).sum + (db.returns.rows.map fun e => e.2.items.length).sum

theorem length_flatMap_filter_le {α β : Type} (l : List α) (p : α → Bool) (f : α → List β) :
    ((l.filter p).flatMap f).length ≤ (l.map fun a => (f a).length).sum := by
  induction l with
  | nil => rfl
  | cons a l ih =>
      rw [List.filter_cons]
      split
      · rw [List.flatMap_cons, List.length_append, List.map_cons, List.sum_cons]
        omega
      · rw [List.map_cons, List.sum_cons]
        omega

theorem length_itemEvents_le : (db.itemEvents cols zone range).length ≤ db.lineCount := by
  rw [itemEvents, List.length_append]
  apply Nat.add_le_add
  · refine (length_flatMap_filter_le _ _ _).trans_eq ?_
    simp only [List.length_map]
  · refine (length_flatMap_filter_le _ _ _).trans_eq ?_
    simp only [List.length_map]

variable {db cols zone range}

section
variable {M κ : Type} [AddCommMonoid M] [DecidableEq κ]

/-- A figure of the rows grouped by a key is the same figure of the lines. -/
theorem sum_grouped {F : κ → Int × Int → M} (hzero : ∀ k, F k 0 = 0)
    (hadd : ∀ k a b, F k (a + b) = F k a + F k b) (key : ItemEvent → κ) (events : List ItemEvent) :
    ((Grouping.groupBy key events).map fun e =>
      F e.1 ((e.2.map (·.qty)).sum, (e.2.map (·.revenue)).sum)).sum =
        (events.map fun e => F (key e) (eventFigures e)).sum := by
  rw [← Grouping.sum_groupBy fun k e => F k (eventFigures e)]
  congr 1
  apply List.map_congr_left
  rintro ⟨k, events⟩ -
  show F k _ = _
  induction events with
  | nil => exact hzero k
  | cons e l ih =>
      simp only [List.map_cons, List.sum_cons, ← ih, ← hadd]
      rfl

/-- What the list of products says, row by row, is what the lines of each say. -/
theorem sum_topProducts {limit : Nat} (hlimit : db.lineCount ≤ limit)
    (F : ProductId → Int × Int → M) (hzero : ∀ p, F p 0 = 0) (hadd : ∀ p a b, F p (a + b) = F p a + F p b) :
    ((db.topProducts cols zone range limit).map fun r => F r.productId (productFigures r)).sum =
      ((db.itemEvents cols zone range).map fun e => F e.productId (eventFigures e)).sum := by
  rw [topProducts, List.take_of_length_le, ((List.perm_insertionSort _ _).map _).sum_eq,
    sum_filter_of_zero, List.map_map, ← sum_grouped hzero hadd]
  · rfl
  · rintro r - hr
    have hr : r.qty = 0 ∧ r.revenue = 0 := by simpa using hr
    rw [productFigures, hr.1, hr.2]
    exact hzero _
  · rw [List.length_insertionSort]
    refine (List.length_filter_le _ _).trans ?_
    rw [List.length_map]
    exact Grouping.length_groupBy_le.trans ((length_itemEvents_le cols zone range db).trans hlimit)

/-- What is summed by category is summed over the lines. -/
theorem sum_byCategory (F : String → Int × Int → M) (hzero : ∀ k, F k 0 = 0)
    (hadd : ∀ k a b, F k (a + b) = F k a + F k b) :
    ((db.byCategory cols zone range).map fun r => F r.category (categoryFigures r)).sum =
      ((db.itemEvents cols zone range).map fun e =>
        F (db.categoryOf cols e.productId) (eventFigures e)).sum := by
  rw [byCategory, ((List.perm_insertionSort _ _).map _).sum_eq, sum_filter_of_zero, List.map_map,
    ← sum_grouped hzero hadd]
  · rfl
  · rintro r - hr
    have hr : r.qty = 0 ∧ r.revenue = 0 := by simpa using hr
    rw [categoryFigures, hr.1, hr.2]
    exact hzero _

end

/-- The summary counts the items that the lines of the range say. -/
theorem totalItems_eq (taxRate : Option ℚ) : (db.rangeSummary cols zone range taxRate).totalItems =
    ((db.itemEvents cols zone range).map (·.qty)).sum := by
  show ((db.gpLines _ _).map (·.qty)).sum = _
  rw [gpLines, itemEvents, saleEvents, returnEvents]
  simp only [List.map_append, List.sum_append, List.map_flatMap, List.map_map]
  rfl

/-! ## Two adjacent ranges -/

section
variable {a c : Option Nat} {b : Nat} {taxRate : Option ℚ}

/-- A day lies between the bounds there are. -/
def Between (a : Option Nat) (b : Nat) (c : Option Nat) : Prop := (∀ d ∈ a, d ≤ b) ∧ ∀ d ∈ c, b ≤ d

theorem contains_split (h : Between a b c) (date : Nat) :
    (ReportDateRange.mk a c).contains zone date =
      ((ReportDateRange.mk a (some b)).contains zone date ||
        (ReportDateRange.mk (some b) c).contains zone date) := by
  have hstart : ∀ d ∈ a, zone.midnight d ≤ zone.midnight b := fun d hd => zone.midnight_mono (h.1 d hd)
  have hend : ∀ d ∈ c, zone.midnight b ≤ zone.midnight d := fun d hd => zone.midnight_mono (h.2 d hd)
  cases a <;> cases c <;> grind [ReportDateRange.contains]

theorem contains_disjoint {date : Nat} (h : (ReportDateRange.mk a (some b)).contains zone date = true) :
    (ReportDateRange.mk (some b) c).contains zone date = false := by
  grind [ReportDateRange.contains]

variable {M : Type} [AddCommMonoid M]

theorem sum_gpSales_split (h : Between a b c) (f : SaleId × Sale → M) :
    ((db.gpSales (salesOf cols zone ⟨a, c⟩)).map f).sum =
      ((db.gpSales (salesOf cols zone ⟨a, some b⟩)).map f).sum +
        ((db.gpSales (salesOf cols zone ⟨some b, c⟩)).map f).sum := by
  refine Table.sum_filter_or _ (fun e _ => ?_) (fun e _ he => ?_) f
  · rw [salesOf, contains_split h, ← Bool.and_or_distrib_right]
    rfl
  · rw [salesOf, contains_disjoint (Bool.and_eq_true_iff.mp he).1, Bool.false_and]

theorem sum_gpReturns_split (h : Between a b c) (f : ReturnId × Return → M) :
    ((db.gpReturns (returnsOf cols zone ⟨a, c⟩)).map f).sum =
      ((db.gpReturns (returnsOf cols zone ⟨a, some b⟩)).map f).sum +
        ((db.gpReturns (returnsOf cols zone ⟨some b, c⟩)).map f).sum :=
  Table.sum_filter_or _ (fun _ _ => contains_split h _) (fun _ _ he => contains_disjoint he) f

theorem sum_gpLines_split (h : Between a b c) (f : ProfitLine → M) :
    ((db.gpLines (salesOf cols zone ⟨a, c⟩) (returnsOf cols zone ⟨a, c⟩)).map f).sum =
      ((db.gpLines (salesOf cols zone ⟨a, some b⟩) (returnsOf cols zone ⟨a, some b⟩)).map f).sum +
        ((db.gpLines (salesOf cols zone ⟨some b, c⟩) (returnsOf cols zone ⟨some b, c⟩)).map f).sum := by
  simp only [gpLines, List.map_append, List.sum_append, Table.sum_flatMap_map, sum_gpSales_split h,
    sum_gpReturns_split h]
  abel

theorem sum_itemEvents_split (h : Between a b c) (f : ItemEvent → M) :
    ((db.itemEvents cols zone ⟨a, c⟩).map f).sum =
      ((db.itemEvents cols zone ⟨a, some b⟩).map f).sum +
        ((db.itemEvents cols zone ⟨some b, c⟩).map f).sum := by
  simp only [itemEvents, saleEvents, returnEvents, List.map_append, List.sum_append,
    Table.sum_flatMap_map, sum_gpSales_split h, sum_gpReturns_split h]
  abel

end

end Db

/-- Every figure that adds up of `s` is the sum of those of `s₁` and `s₂`, and the gross profit, which
is rounded, is off by a satang at most. -/
structure ReportSummary.IsSum (s s₁ s₂ : ReportSummary) : Prop where
  totalRevenue : s.totalRevenue = s₁.totalRevenue + s₂.totalRevenue
  totalTransactions : s.totalTransactions = s₁.totalTransactions + s₂.totalTransactions
  totalRefunds : s.totalRefunds = s₁.totalRefunds + s₂.totalRefunds
  netRevenue : s.netRevenue = s₁.netRevenue + s₂.netRevenue
  totalItems : s.totalItems = s₁.totalItems + s₂.totalItems
  estimatedCostRows :
    s.profit.estimatedCostRows = s₁.profit.estimatedCostRows + s₂.profit.estimatedCostRows
  unknownCostRows : s.profit.unknownCostRows = s₁.profit.unknownCostRows + s₂.profit.unknownCostRows
  grossProfit : |s.profit.grossProfit - (s₁.profit.grossProfit + s₂.profit.grossProfit)| ≤ 1

/-- Two roundings to the satang are off from one by a satang at most. -/
theorem toSatang_split {q q₁ q₂ : ℚ} (hq : q = q₁ + q₂) :
    |toSatang q - (toSatang q₁ + toSatang q₂)| ≤ 1 := by
  have h := abs_le.mp (abs_roundAway_sub_le (q * 100))
  have h₁ := abs_le.mp (abs_roundAway_sub_le (q₁ * 100))
  have h₂ := abs_le.mp (abs_roundAway_sub_le (q₂ * 100))
  have hlt : ((toSatang q - (toSatang q₁ + toSatang q₂) : Int) : ℚ) < 2 := by
    simp only [toSatang, Int.cast_sub, Int.cast_add]
    linarith [h.2, h₁.1, h₂.1]
  have hgt : (-2 : ℚ) < ((toSatang q - (toSatang q₁ + toSatang q₂) : Int) : ℚ) := by
    simp only [toSatang, Int.cast_sub, Int.cast_add]
    linarith [h.1, h₁.2, h₂.2]
  have hlt : toSatang q - (toSatang q₁ + toSatang q₂) < 2 := by exact_mod_cast hlt
  have hgt : -2 < toSatang q - (toSatang q₁ + toSatang q₂) := by exact_mod_cast hgt
  rw [abs_le]
  omega

namespace Db

variable {db : Db} {cols : ReportColumns} {zone : Zone} {a c : Option Nat} {b : Nat}

/-- The summary of a range is the sum of the summaries of its two parts. -/
theorem rangeSummary_isSum (h : Between a b c) (taxRate : Option ℚ) :
    (db.rangeSummary cols zone ⟨a, c⟩ taxRate).IsSum (db.rangeSummary cols zone ⟨a, some b⟩ taxRate)
      (db.rangeSummary cols zone ⟨some b, c⟩ taxRate) := by
  have hcount (p : ProfitLine → Bool) (l : List ProfitLine) :
      (l.filter p).length = (l.map fun i => if p i then 1 else 0).sum := by
    rw [← Table.sum_filter_map l p fun _ => 1]
    simp
  have hbills (l : List (SaleId × Sale)) : l.length = (l.map fun _ => 1).sum := by simp
  constructor
  · exact sum_gpSales_split h _
  · show (gpSales _ db).length = (gpSales _ db).length + (gpSales _ db).length
    rw [hbills, hbills (gpSales _ db), hbills (gpSales (salesOf cols zone ⟨some b, c⟩) db)]
    exact sum_gpSales_split h _
  · exact sum_gpReturns_split h _
  · show _ - _ = (_ - _) + (_ - _)
    rw [sum_gpSales_split h, sum_gpReturns_split h]
    ring
  · exact sum_gpLines_split h _
  · show List.length _ = List.length _ + List.length _
    rw [hcount, hcount, hcount]
    exact sum_gpLines_split h _
  · show List.length _ = List.length _ + List.length _
    rw [hcount, hcount, hcount]
    exact sum_gpLines_split h _
  · show |toSatang _ - (toSatang _ + toSatang _)| ≤ 1
    rw [sum_gpSales_split h, sum_gpReturns_split h, sum_gpLines_split h]
    apply toSatang_split
    simp only [baht_add, baht_sub]
    ring

variable (cols zone)

/-- What a list says of one product. -/
def soldOf (p : ProductId) (rows : List ProductSales) : Int × Int :=
  (rows.map fun r => if r.productId = p then productFigures r else 0).sum

/-- Of one category. -/
def earnedOf (category : String) (rows : List CategorySales) : Int × Int :=
  (rows.map fun r => if r.category = category then categoryFigures r else 0).sum

/-- **The reports of a range agree, and those of adjacent ranges add up.** -/
theorem reports_agree (db : Db) (taxRate : Option ℚ) {limit : Nat} (hlimit : db.lineCount ≤ limit) :
    (∀ range : ReportDateRange,
      ((db.byCategory cols zone range).map categoryFigures).sum =
          ((db.topProducts cols zone range limit).map productFigures).sum ∧
        ((db.topProducts cols zone range limit).map productFigures).sum =
          ((db.itemEvents cols zone range).map eventFigures).sum ∧
        (db.rangeSummary cols zone range taxRate).totalItems =
          ((db.topProducts cols zone range limit).map (·.qty)).sum) ∧
    ∀ (a c : Option Nat) (b : Nat), Between a b c →
      (db.rangeSummary cols zone ⟨a, c⟩ taxRate).IsSum (db.rangeSummary cols zone ⟨a, some b⟩ taxRate)
          (db.rangeSummary cols zone ⟨some b, c⟩ taxRate) ∧
        (∀ p, soldOf p (db.topProducts cols zone ⟨a, c⟩ limit) =
          soldOf p (db.topProducts cols zone ⟨a, some b⟩ limit) +
            soldOf p (db.topProducts cols zone ⟨some b, c⟩ limit)) ∧
        ∀ category, earnedOf category (db.byCategory cols zone ⟨a, c⟩) =
          earnedOf category (db.byCategory cols zone ⟨a, some b⟩) +
            earnedOf category (db.byCategory cols zone ⟨some b, c⟩) := by
  refine ⟨fun range => ?_, fun a c b h => ⟨rangeSummary_isSum h taxRate, fun p => ?_, fun k => ?_⟩⟩
  · have hproducts := @sum_topProducts cols zone range db _ _ _ hlimit (fun _ n => n) (fun _ => rfl)
      fun _ _ _ => rfl
    have hcategories := @sum_byCategory cols zone range db _ _ (fun _ n => n) (fun _ => rfl)
      fun _ _ _ => rfl
    have hitems := @sum_topProducts cols zone range db _ _ _ hlimit (fun _ n => n.1) (fun _ => rfl)
      fun _ _ _ => rfl
    exact ⟨hcategories.trans hproducts.symm, hproducts, (totalItems_eq taxRate).trans hitems.symm⟩
  · have hof (range : ReportDateRange) := @sum_topProducts cols zone range db _ _ _ hlimit
      (fun q n => if q = p then n else 0) (by simp) (by intro q m n; split <;> simp)
    rw [soldOf, soldOf, soldOf, hof, hof, hof]
    exact sum_itemEvents_split h _
  · have hof (range : ReportDateRange) := @sum_byCategory cols zone range db _ _
      (fun q n => if q = k then n else 0) (by simp) (by intro q m n; split <;> simp)
    rw [earnedOf, earnedOf, earnedOf, hof, hof, hof]
    exact sum_itemEvents_split h _

end Db

/-! ### One bill -/

/-- A deleted product and a bill of three pieces of it. -/
def deletedShop : Db :=
  { Db.empty with
    products := Table.empty.insert 7 ⟨"PN-7", "brake pad", 60, 5, true⟩
    sales := Table.empty.insert 50
      { receiptNo := .other "RC", subtotal := 300, discount := 0, total := 300, paymentMethod := .cash
        customerId := none, mechanicId := none, mechanicDelta := none, pointsGranted := 0
        shiftId := none, soldOffline := false, paymentAccountId := none, voided := false
        voidReason := none, items := [⟨1, 7, "brake pad", 3, 100, none, by decide⟩] } }

def utc : Zone := ⟨fun day => day * 86400, fun _ _ h => Nat.mul_le_mul_right _ h⟩

/-- Everything on the second day. -/
def secondDay : ReportColumns :=
  { saleDate := fun _ => 90000, noteDate := fun _ => 90000, linePartNo := fun _ _ => none
    category := fun _ => "brakes", collates := fun _ _ => true, idText := fun _ => "" }

theorem reports_agree_of_deletedShop :
    ((deletedShop.byCategory secondDay utc ⟨none, none⟩).map Db.categoryFigures).sum =
        ((deletedShop.topProducts secondDay utc ⟨none, none⟩ 9).map Db.productFigures).sum ∧
      (deletedShop.rangeSummary secondDay utc ⟨some 0, some 2⟩ none).IsSum
        (deletedShop.rangeSummary secondDay utc ⟨some 0, some 1⟩ none)
        (deletedShop.rangeSummary secondDay utc ⟨some 1, some 2⟩ none) := by
  have h := Db.reports_agree secondDay utc deletedShop none (show deletedShop.lineCount ≤ 9 by decide)
  exact ⟨(h.1 _).1, (h.2 (some 0) (some 2) 1 ⟨by simp, by simp⟩).1⟩

end Server

import SrisurartPos.Import.Snapshot

/-! # The money reports after a restore

The export keeps what the revenue and the refunds are computed from, and what the goods of a bill
cost. It has no field for the cost recorded on a credit note's line, for the method of a credit
payment and for the shift of any document, so that the figures that rest on these come back only where
they do not matter. -/

namespace Import

open Server Money

/-! ## The reports -/

/-- A range of local days, by the second each end begins at. -/
structure ReportDateRange where
  fromAt : Option Int
  toExclusive : Option Int

def ReportDateRange.covers (r : ReportDateRange) (t : Timestamp) : Bool :=
  (r.fromAt.all fun s => s * 1000000 ≤ t) && r.toExclusive.all fun s => t < s * 1000000

namespace Books

variable (b : Books) (range : ReportDateRange) (k : ShiftId)

/-- The tables that the server's own reports read. -/
def db : Db :=
  { Db.empty with
    products := b.products
    sales := b.sales
    returns := b.returns
    drawerEntries := b.drawerEntries }

def saleScope (x : SaleId) (_ : Sale) : Bool := range.covers (b.saleDate x)
def returnScope (r : ReturnId) (_ : Return) : Bool := range.covers (b.noteDate r)

def summary : ReportSummary :=
  b.db.summary (b.saleScope range) (b.returnScope range) (b.taxRate.map baht)

def refundsBy (m : RefundMethod) : Int :=
  b.returns.total fun r note =>
    if range.covers (b.noteDate r) && note.refundMethod = m then note.refundTotal else 0

def creditPaymentsBy (m : PaymentMethod) : Int :=
  b.creditPayments.total fun i p =>
    if range.covers (b.paymentDate i) && p.paymentMethod = some m then p.amount else 0

def cashSales : Int := b.sales.total (b.db.cashOfSale k)

def cashCreditPayments : Int :=
  b.creditPayments.total fun _ p =>
    if p.shiftId = some k ∧ p.paymentMethod = some .cash then p.amount else 0

def cashRefunds : Int := b.returns.total (Db.cashOfReturn k)

/-- What was put into the drawer, less what was taken out. -/
def drawerEntriesOf : Int := b.drawerEntries.total (Db.cashOfEntry k)

/-- `DRAWER_CASH_CTES` -/
def expectedCash : Int :=
  match b.shifts.get k with
  | none       => 0
  | some shift => shift.startingCash +
      (b.cashSales k + b.cashCreditPayments k - b.cashRefunds k + b.drawerEntriesOf k)

/-- The lines of the credit notes of a range … -/
def noteLines : List ReturnItem :=
  (b.returns.rows.filter fun e => range.covers (b.noteDate e.1)).flatMap (·.2.items)

/-- … those that have their cost recorded … -/
def recordedLines : List ReturnItem := (b.noteLines range).filter (·.costAtSale.isSome)

/-- … and what they take off the cost of the goods, … -/
def noteCost : Int :=
  ((b.noteLines range).map fun i =>
    i.qty * (i.costAtSale.or (b.db.currentCost i.productId)).getD 0).sum

/-- … or would, if nothing was recorded on them. -/
def noteCostToday : Int :=
  ((b.noteLines range).map fun i => i.qty * (b.db.currentCost i.productId).getD 0).sum

end Books

/-! ## The books of a shop -/

/-- The books are those of the database. -/
structure Books.Of (b : Books) (s : Db) : Prop where
  products : b.products = s.products
  sales : b.sales = s.sales
  returns : b.returns = s.returns
  drawerEntries : b.drawerEntries = s.drawerEntries
  creditPayments : ∀ i, Option.Rel (fun (p : PaymentRow) (p' : CreditPayment) =>
    p.amount = p'.amount ∧ p.paymentMethod = some p'.paymentMethod ∧ p.shiftId = p'.shiftId)
    (b.creditPayments.get i) (s.creditPayments.get i)
  shifts : ∀ k, (b.shifts.get k).map (·.startingCash) = (s.shifts.get k).map (·.startingCash)

section
variable {b : Books} {s : Db}

theorem Books.Of.grossProfit (h : b.Of s) (saleScope : SaleId → Sale → Bool)
    (returnScope : ReturnId → Return → Bool) (taxRate : Option ℚ) :
    b.db.grossProfit saleScope returnScope taxRate = s.grossProfit saleScope returnScope taxRate := by
  simp only [Db.grossProfit, Db.gpLines, Db.gpSales, Db.gpReturns, Db.counted, Db.notesOf,
    Db.currentCost, Books.db, h.products, h.sales, h.returns]

/-- A drawer's cash is what the closing report counts. -/
theorem Books.Of.expectedCash (h : b.Of s) (k : ShiftId) : b.expectedCash k = s.expectedCash k := by
  have hpayments : b.cashCreditPayments k = s.creditPayments.total (Db.cashOfPayment k) := by
    refine Table.sum_paired h.creditPayments
      (f := fun _ p => if p.shiftId = some k ∧ p.paymentMethod = some .cash then p.amount else 0)
      (g := Db.cashOfPayment k) fun i p p' _ _ hp => ?_
    obtain ⟨hamount, hmethod, hshift⟩ := hp
    simp only [hamount, hmethod, hshift, Option.some_inj]
    rfl
  have hsales : b.cashSales k = s.sales.total (s.cashOfSale k) := by
    have hcounted : b.db.counted = s.counted := by
      funext x sale
      rw [Db.counted, Db.notesOf, db, h.returns]
      rfl
    rw [cashSales, h.sales]
    apply Table.total_congr
    intro x sale _
    rw [Db.cashOfSale, hcounted]
    rfl
  have hstart := h.shifts k
  rw [Books.expectedCash, Db.expectedCash, Db.drawerCash, hpayments, hsales, cashRefunds,
    drawerEntriesOf, h.returns, h.drawerEntries]
  cases hk : b.shifts.get k with
  | none =>
      rw [hk, Option.map_none, eq_comm, Option.map_eq_none_iff] at hstart
      rw [hstart]
  | some row =>
      rw [hk, Option.map_some, eq_comm, Option.map_eq_some_iff] at hstart
      obtain ⟨row', hk', hcash⟩ := hstart
      simp only [hk', hcash]

end

/-! ## What comes back -/

section
variable {b : Books} {range : ReportDateRange} {k : ShiftId}

/-- A day begins with a whole millisecond. -/
theorem covers_iso (t : Timestamp) : range.covers (iso t) = range.covers t := by
  have hfrom : ∀ s t : Int, s * 1000000 ≤ t / 1000 * 1000 ↔ s * 1000000 ≤ t := by omega
  have hto : ∀ s t : Int, t / 1000 * 1000 < s * 1000000 ↔ t < s * 1000000 := by omega
  simp only [ReportDateRange.covers, iso, hfrom, hto]

theorem dateOf_rows {ν : Type} (t : Table Nat ν) (f : Nat → Timestamp) {i : Nat} {v : ν}
    (h : t.get i = some v) : dateOf (t.rows.map fun e => (e.1, f e.1)) i = f i := by
  rw [dateOf, t.lookup_rows fun i _ => f i, h]
  rfl

theorem restored_product (p : ProductId) :
    b.restored.products.get p = (b.products.get p).map fun row => (productToJson p row).row :=
  @Table.get_insertAll_rows _ _ _ _ _ b.products _ ProductData.row productToJson (fun _ _ => rfl) p

theorem restored_sale (x : SaleId) : b.restored.sales.get x =
    (b.sales.get x).map fun row => (b.saleToJson x row).row b.paymentAccounts :=
  Table.get_insertAll_rows b.sales (fun _ _ => rfl) x

theorem restored_return (r : ReturnId) :
    b.restored.returns.get r = (b.returns.get r).map fun note => (b.returnToJson r note).row :=
  Table.get_insertAll_rows b.returns (fun _ _ => rfl) r

theorem restored_payment (i : PaymentId) : b.restored.creditPayments.get i =
    (b.creditPayments.get i).map fun p => (b.creditPaymentToJson i p).row :=
  Table.get_insertAll_rows b.creditPayments (fun _ _ => rfl) i

theorem restored_saleDate {x : SaleId} {row : Sale} (h : b.sales.get x = some row) :
    b.restored.saleDate x = iso (b.saleDate x) := by
  rw [← dateOf_rows b.sales (fun x => iso (b.saleDate x)) h]
  show dateOf (List.map _ (List.map _ b.sales.rows)) x = _
  rw [List.map_map]
  rfl

theorem restored_noteDate {r : ReturnId} {note : Return} (h : b.returns.get r = some note) :
    b.restored.noteDate r = iso (b.noteDate r) := by
  rw [← dateOf_rows b.returns (fun r => iso (b.noteDate r)) h]
  show dateOf (List.map _ (List.map _ b.returns.rows)) r = _
  rw [List.map_map]
  rfl

theorem restored_currentCost (p : ProductId) :
    b.restored.db.currentCost p = b.db.currentCost p := by
  show (b.restored.products.get p).map (·.cost) = (b.products.get p).map (·.cost)
  rw [restored_product, Option.map_map]
  rfl

theorem restored_taxRate : b.restored.taxRate = b.taxRate := Option.or_self

/-- The same bills count: which notes are against a bill is in the file. -/
theorem restored_counted (x : SaleId) (row : Sale) :
    b.restored.db.counted x ((b.saleToJson x row).row b.paymentAccounts) = b.db.counted x row := by
  have hnotes : (b.restored.db.notesOf x).isEmpty = (b.db.notesOf x).isEmpty := by
    rw [Bool.eq_iff_iff, List.isEmpty_iff, List.isEmpty_iff, List.eq_nil_iff_forall_not_mem,
      List.eq_nil_iff_forall_not_mem, not_iff_not.symm, not_forall_not, not_forall_not]
    simp only [Db.notesOf, Table.mem_select, decide_eq_true_eq]
    show (∃ note, (∃ r, b.restored.returns.get r = some note) ∧ note.saleId = x) ↔
      ∃ note, (∃ r, b.returns.get r = some note) ∧ note.saleId = x
    constructor
    · rintro ⟨note, ⟨r, hr⟩, hx⟩
      rw [restored_return] at hr
      obtain ⟨note', hnote, rfl⟩ := Option.map_eq_some_iff.mp hr
      exact ⟨note', ⟨r, hnote⟩, hx⟩
    · rintro ⟨note, ⟨r, hr⟩, hx⟩
      refine ⟨(b.returnToJson r note).row, ⟨r, ?_⟩, hx⟩
      rw [restored_return, hr, Option.map_some]
  rw [Db.counted, Db.counted, hnotes]
  rfl

/-! ## Sums -/

/-- The lines of a document are written out and numbered anew. -/
theorem map_renumbered {α β γ δ : Type} {l : List α} {f : α → β} {g : β → Nat → γ} {h : γ → δ}
    {h' : α → δ} (hh : ∀ a i, h (g (f a) i) = h' a) :
    (((l.map f).mapIdx fun i b => g b (i + 1)).map h) = l.map h' := by
  apply List.ext_getElem
  · simp
  · intro i _ _
    simp [hh]

/-- A sum over the counted bills of a range is the same after the restore, where it does not look at what
changes. -/
theorem sum_restored_sales {M : Type} [AddCommMonoid M] {f : Sale → M}
    (hf : ∀ x row, f ((b.saleToJson x row).row b.paymentAccounts) = f row) :
    (b.restored.sales.rows.map fun e =>
      if b.restored.saleScope range e.1 e.2 && b.restored.db.counted e.1 e.2 then f e.2 else 0).sum =
    (b.sales.rows.map fun e =>
      if b.saleScope range e.1 e.2 && b.db.counted e.1 e.2 then f e.2 else 0).sum := by
  refine Table.sum_mapped restored_sale
    (f := fun x row => if b.saleScope range x row && b.db.counted x row then f row else 0)
    (g := fun x row =>
      if b.restored.saleScope range x row && b.restored.db.counted x row then f row else 0)
    fun x row hrow => ?_
  have hscope : b.restored.saleScope range x ((b.saleToJson x row).row b.paymentAccounts) =
      b.saleScope range x row := by
    rw [Books.saleScope, Books.saleScope, restored_saleDate hrow, covers_iso]
  rw [hscope, restored_counted, hf]

/-- So is a sum over the notes of a range, where each note has the same share. -/
theorem sum_restored_returns {M : Type} [AddCommMonoid M] {f g : Return → M}
    (hfg : ∀ r note, b.returns.get r = some note → g (b.returnToJson r note).row = f note) :
    (b.restored.returns.rows.map fun e =>
      if b.restored.returnScope range e.1 e.2 then g e.2 else 0).sum =
    (b.returns.rows.map fun e => if b.returnScope range e.1 e.2 then f e.2 else 0).sum := by
  refine Table.sum_mapped restored_return
    (f := fun r note => if b.returnScope range r note then f note else 0)
    (g := fun r note => if b.restored.returnScope range r note then g note else 0)
    fun r note hr => ?_
  have hscope : b.restored.returnScope range r (b.returnToJson r note).row =
      b.returnScope range r note := by
    rw [Books.returnScope, Books.returnScope, restored_noteDate hr, covers_iso]
  rw [hscope, hfg r note hr]

/-- A sum over the lines of the report after the restore: the notes' lines have nothing recorded. -/
theorem sum_restored_lines {M : Type} [AddCommMonoid M] (f : ProfitLine → M) :
    ((b.restored.db.gpLines (b.restored.saleScope range) (b.restored.returnScope range)).map f).sum =
      (b.sales.rows.map fun e => if b.saleScope range e.1 e.2 && b.db.counted e.1 e.2 then
        (e.2.items.map fun i => f ⟨i.qty, i.costAtSale, b.db.currentCost i.productId⟩).sum else 0).sum +
      ((b.noteLines range).map fun i => f ⟨-i.qty, none, b.db.currentCost i.productId⟩).sum := by
  rw [Db.sum_gpLines]
  simp only [restored_currentCost]
  congr 1
  · refine sum_restored_sales (f := fun row =>
      (row.items.map fun i => f ⟨i.qty, i.costAtSale, b.db.currentCost i.productId⟩).sum)
      fun x row => ?_
    exact congrArg List.sum (map_renumbered fun i n => rfl)
  · rw [Books.noteLines, Table.sum_flatMap_map, Table.sum_filter_map]
    refine sum_restored_returns
      (f := fun note => (note.items.map fun i => f ⟨-i.qty, none, b.db.currentCost i.productId⟩).sum)
      (g := fun note =>
        (note.items.map fun i => f ⟨-i.qty, i.costAtSale, b.db.currentCost i.productId⟩).sum)
      fun r note _ => ?_
    exact congrArg List.sum (map_renumbered fun i n => rfl)

theorem sum_lines {M : Type} [AddCommMonoid M] (f : ProfitLine → M) :
    ((b.db.gpLines (b.saleScope range) (b.returnScope range)).map f).sum =
      (b.sales.rows.map fun e => if b.saleScope range e.1 e.2 && b.db.counted e.1 e.2 then
        (e.2.items.map fun i => f ⟨i.qty, i.costAtSale, b.db.currentCost i.productId⟩).sum else 0).sum +
      ((b.noteLines range).map fun i =>
        f ⟨-i.qty, i.costAtSale, b.db.currentCost i.productId⟩).sum := by
  rw [Db.sum_gpLines, Books.noteLines, Table.sum_flatMap_map, Table.sum_filter_map]
  rfl

theorem length_eq_sum {α : Type} (l : List α) : l.length = (l.map fun _ => 1).sum := by
  simp

/-! ## The figures -/

theorem restored_revenue :
    ((b.restored.db.gpSales (b.restored.saleScope range)).map (·.2.total)).sum =
      ((b.db.gpSales (b.saleScope range)).map (·.2.total)).sum := by
  rw [Db.gpSales, Db.gpSales, Table.sum_filter_map, Table.sum_filter_map]
  exact sum_restored_sales fun x row => rfl

theorem restored_transactions :
    (b.restored.db.gpSales (b.restored.saleScope range)).length =
      (b.db.gpSales (b.saleScope range)).length := by
  rw [length_eq_sum, length_eq_sum, Db.gpSales, Db.gpSales, Table.sum_filter_map, Table.sum_filter_map]
  exact sum_restored_sales (f := fun _ => 1) fun x row => rfl

theorem restored_refunds :
    ((b.restored.db.gpReturns (b.restored.returnScope range)).map (·.2.refundTotal)).sum =
      ((b.db.gpReturns (b.returnScope range)).map (·.2.refundTotal)).sum := by
  rw [Db.gpReturns, Db.gpReturns, Table.sum_filter_map, Table.sum_filter_map]
  exact sum_restored_returns (f := (·.refundTotal)) fun r note _ => rfl

theorem restored_items :
    ((b.restored.db.gpLines (b.restored.saleScope range) (b.restored.returnScope range)).map
        (·.qty)).sum =
      ((b.db.gpLines (b.saleScope range) (b.returnScope range)).map (·.qty)).sum := by
  rw [sum_restored_lines, sum_lines]

/-- The goods of the credit notes are taken off at another cost. -/
theorem restored_cost :
    ((b.restored.db.gpLines (b.restored.saleScope range) (b.restored.returnScope range)).map
        fun l => l.qty * (l.costAtSale.or l.currentCost).getD 0).sum =
      ((b.db.gpLines (b.saleScope range) (b.returnScope range)).map
        fun l => l.qty * (l.costAtSale.or l.currentCost).getD 0).sum +
      (b.noteCost range - b.noteCostToday range) := by
  have hneg : ∀ f : ReturnItem → Int, ((b.noteLines range).map fun i => -i.qty * f i).sum =
      -((b.noteLines range).map fun i => i.qty * f i).sum := by
    intro f
    rw [List.sum_neg, List.map_map]
    congr 1
    apply List.map_congr_left
    intro i _
    exact neg_mul ..
  rw [sum_restored_lines, sum_lines, hneg, hneg]
  simp only [Option.none_or]
  rw [Books.noteCost, Books.noteCostToday]
  ring

/-- The gross profit is restored exactly where the goods that came back cost today what they did then. -/
theorem restored_grossProfit : (b.restored.summary range).profit.grossProfit =
    (b.summary range).profit.grossProfit ↔ b.noteCost range = b.noteCostToday range := by
  have hwhole : Whole (baht (b.noteCost range - b.noteCostToday range)) := whole_baht _
  have hiff := @toSatang_sub_whole_iff (baht (((b.db.gpSales (b.saleScope range)).map (·.2.total)).sum -
      ((b.db.gpReturns (b.returnScope range)).map (·.2.refundTotal)).sum) /
        (1 + (b.taxRate.map baht).getD 7 / 100) -
      baht ((b.db.gpLines (b.saleScope range) (b.returnScope range)).map
        fun l => l.qty * (l.costAtSale.or l.currentCost).getD 0).sum) _ hwhole
  rw [sub_sub, ← baht_add, ← restored_cost, ← baht_zero, baht_inj, sub_eq_zero] at hiff
  rw [← hiff]
  show toSatang _ = toSatang _ ↔ _
  rw [restored_revenue, restored_refunds, restored_taxRate]

/-- Lines of one kind, counted. -/
theorem length_filter_eq_sum {α : Type} (l : List α) (p : α → Bool) :
    (l.filter p).length = (l.map fun a => if p a then 1 else 0).sum := by
  rw [length_eq_sum, Table.sum_filter_map]

/-- A line of a note whose cost was recorded counts as one without. -/
theorem restored_unrecorded (q : Option Int → Bool) :
    ((b.restored.db.gpLines (b.restored.saleScope range) (b.restored.returnScope range)).filter
        fun l => l.costAtSale.isNone && q l.currentCost).length =
      ((b.db.gpLines (b.saleScope range) (b.returnScope range)).filter
        fun l => l.costAtSale.isNone && q l.currentCost).length +
      ((b.recordedLines range).filter fun i => q (b.db.currentCost i.productId)).length := by
  rw [length_filter_eq_sum, length_filter_eq_sum, sum_restored_lines, sum_lines, Books.recordedLines,
    List.filter_filter, length_filter_eq_sum, add_assoc, ← List.sum_map_add]
  congr 2
  apply List.map_congr_left
  intro i _
  cases i.costAtSale with
  | none => simp
  | some c => simp

/-! ## The restore -/

/-- What becomes of the figures of the reports. -/
structure Books.Restores (b : Books) : Prop where
  /-- Revenue, bills, refunds and goods of every range come back, … -/
  totals : ∀ range, { b.restored.summary range with profit := (b.summary range).profit } =
    b.summary range
  /-- … the gross profit exactly when what was recorded on the notes comes to what the goods cost
  today, … -/
  grossProfit : ∀ range, (b.restored.summary range).profit.grossProfit =
    (b.summary range).profit.grossProfit ↔ b.noteCost range = b.noteCostToday range
  /-- … whose lines count among those without a recorded cost, … -/
  estimatedCostRows : ∀ range, (b.restored.summary range).profit.estimatedCostRows =
    (b.summary range).profit.estimatedCostRows +
      ((b.recordedLines range).filter fun i => (b.db.currentCost i.productId).isSome).length
  unknownCostRows : ∀ range, (b.restored.summary range).profit.unknownCostRows =
    (b.summary range).profit.unknownCostRows +
      ((b.recordedLines range).filter fun i => (b.db.currentCost i.productId).isNone).length
  /-- … and the refunds by each method. -/
  refunds : ∀ range m, b.restored.refundsBy range m = b.refundsBy range m
  /-- The credit payments by a method come back exactly when there are none. -/
  creditPayments : ∀ range m, b.restored.creditPaymentsBy range m = b.creditPaymentsBy range m ↔
    ∀ i p, b.creditPayments.get i = some p → range.covers (b.paymentDate i) = true →
      p.paymentMethod ≠ some m
  /-- The cash of a drawer comes back exactly when its bills and payments took in what its refunds
  gave back. -/
  expectedCash : ∀ k row, b.shifts.get k = some row →
    (b.restored.expectedCash k = b.expectedCash k ↔
      b.cashSales k + b.cashCreditPayments k = b.cashRefunds k)

theorem restored_totals (range : ReportDateRange) :
    { b.restored.summary range with profit := (b.summary range).profit } = b.summary range := by
  simp only [Books.summary, Db.summary, restored_revenue, restored_refunds, restored_transactions,
    restored_items]

/-- The refunds of each method are restored. -/
theorem restored_refundsBy (range : ReportDateRange) (m : RefundMethod) :
    b.restored.refundsBy range m = b.refundsBy range m := by
  refine Table.sum_mapped restored_return
    (f := fun r note => if range.covers (b.noteDate r) && note.refundMethod = m then
      note.refundTotal else 0)
    (g := fun r note => if range.covers (b.restored.noteDate r) && note.refundMethod = m then
      note.refundTotal else 0)
    fun r note hr => ?_
  have hmethod : (b.returnToJson r note).row.refundMethod = note.refundMethod :=
    if_neg (b.refundMethod_named r note hr)
  rw [restored_noteDate hr, covers_iso, hmethod]
  rfl

/-- A restored credit payment has no method, so none is counted under one. -/
theorem restored_creditPaymentsBy (range : ReportDateRange) (m : PaymentMethod) :
    b.restored.creditPaymentsBy range m = 0 := by
  have hzero : ∀ e ∈ b.restored.creditPayments.rows.map fun e =>
      if range.covers (b.restored.paymentDate e.1) && e.2.paymentMethod = some m then e.2.amount else 0,
      e = (0 : Int) := by
    intro n hn
    obtain ⟨⟨i, p⟩, hp, rfl⟩ := List.mem_map.mp hn
    rw [Table.mem_rows, restored_payment] at hp
    obtain ⟨p', -, rfl⟩ := Option.map_eq_some_iff.mp hp
    rw [if_neg]
    rw [Bool.and_eq_true, decide_eq_true_eq]
    rintro ⟨-, hm⟩
    cases hm
  exact List.sum_eq_zero hzero

/-- Amounts are above nothing, so none of a kind means there is no row of it. -/
theorem creditPaymentsBy_eq_zero (range : ReportDateRange) (m : PaymentMethod) :
    b.creditPaymentsBy range m = 0 ↔ ∀ i p, b.creditPayments.get i = some p →
      range.covers (b.paymentDate i) = true → p.paymentMethod ≠ some m := by
  have hnonneg : ∀ n ∈ b.creditPayments.rows.map fun e =>
      if range.covers (b.paymentDate e.1) && e.2.paymentMethod = some m then e.2.amount else 0,
      0 ≤ n := by
    intro n hn
    obtain ⟨e, -, rfl⟩ := List.mem_map.mp hn
    split
    · exact e.2.amount_pos.le
    · exact le_rfl
  constructor
  · intro h i p hp hcovers hm
    have hle := List.single_le_sum hnonneg _ (List.mem_map.mpr ⟨_, b.creditPayments.mem_rows.mpr hp, rfl⟩)
    rw [if_pos (by rw [hcovers, hm, decide_eq_true rfl, Bool.true_and])] at hle
    rw [Books.creditPaymentsBy, Table.total] at h
    exact absurd (h ▸ hle) (not_le.mpr p.amount_pos)
  · intro h
    apply List.sum_eq_zero
    intro n hn
    obtain ⟨⟨i, p⟩, hp, rfl⟩ := List.mem_map.mp hn
    refine if_neg ?_
    rw [Bool.and_eq_true, decide_eq_true_eq]
    rintro ⟨hcovers, hm⟩
    exact h i p (b.creditPayments.mem_rows.mp hp) hcovers hm

/-! ### The drawers -/

/-- What `find?` finds and what `eraseP` leaves. -/
theorem mem_find_or_eraseP {α : Type} {l : List α} {p : α → Bool} {a : α} :
    l.find? p = some a ∨ a ∈ l.eraseP p ↔ a ∈ l := by
  induction l with
  | nil => simp
  | cons c l ih =>
      cases hc : p c with
      | true => simp [hc, List.eraseP_cons_of_pos, eq_comm]
      | false =>
          simp only [List.find?_cons_of_neg, List.eraseP_cons_of_neg, hc, Bool.false_eq_true,
            not_false_eq_true, List.mem_cons, ← ih]
          exact or_left_comm

/-- The drawers of the file, with whether they are its `sa_cash_drawer`. -/
def Books.fileShifts (b : Books) : List (Bool × ShiftData) :=
  (b.buildTenantSnapshot.cashDrawer.map (true, ·)).toList ++
    b.buildTenantSnapshot.shiftHistory.map (false, ·)

/-- They are those of the shop. -/
theorem mem_fileShifts {d : ShiftData} : (∃ fromDrawer, (fromDrawer, d) ∈ b.fileShifts) ↔
    ∃ k row, b.shifts.get k = some row ∧ d = b.shiftToJson k row := by
  have hshift : ∀ k row, b.shifts.get k = some row ↔
      (b.shifts.rows.find? fun e => e.2.isActive) = some (k, row) ∨
        (k, row) ∈ b.shifts.rows.eraseP fun e => e.2.isActive := by
    intro k row
    rw [mem_find_or_eraseP, Table.mem_rows]
  simp only [Books.fileShifts, Books.buildTenantSnapshot, List.mem_append, Option.mem_toList, hshift,
    Option.map_map, Option.map_eq_some_iff, List.map_map, List.mem_map, Prod.exists,
    Function.comp_apply, Prod.mk.injEq]
  constructor
  · rintro ⟨fromDrawer, ⟨k, row, hfind, -, rfl⟩ | ⟨k, row, hmem, -, rfl⟩⟩
    · exact ⟨k, row, .inl hfind, rfl⟩
    · exact ⟨k, row, .inr hmem, rfl⟩
  · rintro ⟨k, row, hfind | hmem, rfl⟩
    · exact ⟨true, .inl ⟨k, row, hfind, rfl, rfl⟩⟩
    · exact ⟨false, .inr ⟨k, row, hmem, rfl, rfl⟩⟩

/-- A drawer starts with the cash it started with. -/
theorem restored_startingCash {row : ShiftRow} (h : b.shifts.get k = some row) :
    ∃ row', b.restored.shifts.get k = some row' ∧ row'.startingCash = row.startingCash := by
  obtain ⟨fromDrawer, hmem⟩ := mem_fileShifts.mpr ⟨k, row, h, rfl⟩
  have hsome : (b.restored.shifts.get k).isSome = true := Table.isSome_get_insertAll
    (List.mem_map.mpr ⟨(fromDrawer, b.shiftToJson k row), hmem, rfl⟩)
  obtain ⟨row', hrow'⟩ := Option.isSome_iff_exists.mp hsome
  refine ⟨row', hrow', ?_⟩
  obtain ⟨⟨fromDrawer', d⟩, hd, heq⟩ := List.mem_map.mp (Table.mem_of_get_insertAll hrow')
  obtain ⟨k', row'', hk', rfl⟩ := mem_fileShifts.mp ⟨fromDrawer', hd⟩
  obtain ⟨rfl, rfl⟩ := Prod.mk.inj heq
  obtain rfl := Option.some.inj (hk'.symm.trans h)
  rfl

/-- The entries of the drawers that are there. -/
theorem restored_entry (i : EntryId) : b.restored.drawerEntries.get i =
    (b.drawerEntries.get i).filter fun e => (b.shifts.get e.shiftId).isSome := by
  refine Table.get_insertAll
    (g := fun i => (b.drawerEntries.get i).filter fun e => (b.shifts.get e.shiftId).isSome)
    (fun i e => ?_) i
  rw [List.mem_flatMap, Option.filter_eq_some_iff, Option.isSome_iff_exists, ← Table.mem_rows]
  constructor
  · rintro ⟨⟨fromDrawer, d⟩, hd, he⟩
    obtain ⟨k, row, hk, rfl⟩ := mem_fileShifts.mp ⟨fromDrawer, hd⟩
    obtain ⟨c, hc, heq⟩ := List.mem_map.mp he
    obtain ⟨⟨i', e'⟩, hi', rfl⟩ := List.mem_map.mp hc
    obtain ⟨rfl, rfl⟩ := Prod.mk.inj heq
    obtain ⟨hrows, hk'⟩ := List.mem_filter.mp hi'
    obtain rfl := of_decide_eq_true hk'
    exact ⟨hrows, row, hk⟩
  · rintro ⟨hrows, row, hk⟩
    obtain ⟨fromDrawer, hd⟩ := mem_fileShifts.mpr ⟨e.shiftId, row, hk, rfl⟩
    refine ⟨(fromDrawer, b.shiftToJson e.shiftId row), hd, List.mem_map.mpr
      ⟨⟨i, e.type, e.amount⟩, List.mem_map.mpr ⟨(i, e), ?_, rfl⟩, rfl⟩⟩
    exact List.mem_filter.mpr ⟨hrows, decide_eq_true rfl⟩

/-- The entries of a drawer sum to what they did. -/
theorem restored_drawerEntriesOf {row : ShiftRow} (h : b.shifts.get k = some row) :
    b.restored.drawerEntriesOf k = b.drawerEntriesOf k := by
  refine Table.sum_matched (f := Db.cashOfEntry k) (g := Db.cashOfEntry k) fun i => ?_
  rw [restored_entry]
  cases b.drawerEntries.get i with
  | none => rfl
  | some e =>
      rw [Option.filter_some]
      split
      · rfl
      · rename_i hno
        rw [Option.elim_none, Option.elim_some, Db.cashOfEntry, if_neg]
        rintro rfl
        rw [h] at hno
        exact hno rfl

/-- No document comes back with a shift. -/
theorem restored_documents (k : ShiftId) : b.restored.cashSales k = 0 ∧
    b.restored.cashCreditPayments k = 0 ∧ b.restored.cashRefunds k = 0 := by
  refine ⟨?_, ?_, ?_⟩
  · apply List.sum_eq_zero
    intro n hn
    obtain ⟨⟨x, sale⟩, hx, rfl⟩ := List.mem_map.mp hn
    rw [Table.mem_rows, restored_sale] at hx
    obtain ⟨row, -, rfl⟩ := Option.map_eq_some_iff.mp hx
    exact if_neg fun hshift => nomatch hshift.1
  · apply List.sum_eq_zero
    intro n hn
    obtain ⟨⟨i, p⟩, hp, rfl⟩ := List.mem_map.mp hn
    rw [Table.mem_rows, restored_payment] at hp
    obtain ⟨row, -, rfl⟩ := Option.map_eq_some_iff.mp hp
    exact if_neg fun hshift => nomatch hshift.1
  · apply List.sum_eq_zero
    intro n hn
    obtain ⟨⟨r, note⟩, hr, rfl⟩ := List.mem_map.mp hn
    rw [Table.mem_rows, restored_return] at hr
    obtain ⟨row, -, rfl⟩ := Option.map_eq_some_iff.mp hr
    exact if_neg fun hshift => nomatch hshift.1

theorem restored_expectedCash {row : ShiftRow} (h : b.shifts.get k = some row) :
    b.restored.expectedCash k = row.startingCash + b.drawerEntriesOf k := by
  obtain ⟨row', hrow', hcash⟩ := restored_startingCash h
  obtain ⟨hsales, hpayments, hrefunds⟩ := @restored_documents b k
  simp only [Books.expectedCash, hrow', hsales, hpayments, hrefunds, restored_drawerEntriesOf h, hcash]
  ring

/-- **The reports of a shop that was restored from its own export.** -/
theorem reports_after_restore (b : Books) : b.Restores where
  totals := restored_totals
  grossProfit _ := restored_grossProfit
  estimatedCostRows _ := restored_unrecorded Option.isSome
  unknownCostRows _ := restored_unrecorded Option.isNone
  refunds := restored_refundsBy
  creditPayments range m := by
    rw [restored_creditPaymentsBy, eq_comm]
    exact creditPaymentsBy_eq_zero range m
  expectedCash k row hrow := by
    rw [restored_expectedCash hrow]
    simp only [Books.expectedCash, hrow]
    omega

end

/-! ### A shop with a drawer -/

/-- A product that cost 60 and costs 80 now. One piece was sold for cash, 100, and came back; a
mechanic paid 30 in cash. The drawer is closed. -/
def soldAndReturned : Books :=
  { products := Table.empty.insert 7 ⟨"PN-7", "brake pad", 80, 5, false⟩
    sales := Table.empty.insert 50
      { receiptNo := .formatted ⟨.receipt, 1, 5, 1⟩, subtotal := 100, discount := 0, total := 100,
        paymentMethod := .cash, customerId := none, mechanicId := none, mechanicDelta := none,
        pointsGranted := 0, shiftId := some 1, soldOffline := false, paymentAccountId := none,
        voided := true, voidReason := none,
        items := [⟨1, 7, "brake pad", 1, 100, some 60, by decide⟩] }
    returns := Table.empty.insert 60
      { cnNo := .formatted ⟨.cn, 1, 5, 1⟩, saleId := 50, refundSubtotal := 100, refundDiscount := 0,
        refundTotal := 100, refundMethod := .cash, customerId := none, mechanicId := none,
        shiftId := some 1,
        items := [⟨1, 7, "brake pad", 1, 100, some 1, some 60, by decide⟩] }
    creditPayments := Table.empty.insert 70 ⟨.formatted ⟨.cp, 1, 5, 1⟩, 3, 30, some .cash, some 1, by decide⟩
    shifts := Table.empty.insert 1 ⟨some 2, 500, false, true, some 530, false⟩
    drawerEntries := .empty
    paymentAccounts := []
    saleDate := fun _ => 1000
    noteDate := fun _ => 2000
    paymentDate := fun _ => 3000
    taxRate := none
    refundMethod_named := by
      intro r note hr
      rw [Table.get_insert rfl] at hr
      split at hr
      · obtain rfl := Option.some.inj hr
        exact RefundMethod.noConfusion
      · cases hr }

/-- Its gross profit, its cash payments and the cash of its drawer are others afterwards. -/
theorem reports_differ_after_restore :
    (soldAndReturned.summary ⟨none, none⟩).profit.grossProfit = 0 ∧
      (soldAndReturned.restored.summary ⟨none, none⟩).profit.grossProfit = 20 ∧
      soldAndReturned.creditPaymentsBy ⟨none, none⟩ .cash = 30 ∧
      soldAndReturned.restored.creditPaymentsBy ⟨none, none⟩ .cash = 0 ∧
      soldAndReturned.expectedCash 1 = 530 ∧ soldAndReturned.restored.expectedCash 1 = 500 := by
  decide +kernel

end Import

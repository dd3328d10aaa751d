import SrisurartPos.Till.Outbox
import SrisurartPos.Till.ReturnPlan

/-! # Bills sold offline (`api_sales_repository.dart`)

Without the server the till writes a bill into its own database, moves the stock and the running
totals there by itself, and queues the operation that will make the server do the same. So it does
with the void of such a bill. Once the operation is applied the two should hold the same rows. -/

namespace Cache

open Server Money

/-! ## The database -/

/-- A line of the body as it is sent, with its amounts as two-decimal strings. -/
structure SaleBodyLine where
  lineNo : Nat
  productId : ProductId
  partNo : Option String
  name : String
  qty : Int
  price : Int
  deriving DecidableEq

/-- What `_saleBody` sends of a bill. -/
structure SaleBody where
  id : SaleId
  receiptNo : Option DocNo
  date : Option Nat
  subtotal : Int
  discount : Int
  total : Int
  paymentMethod : PaymentMethod
  customerId : Option CustomerId
  mechanicId : Option MechanicId
  mechanicDelta : Option Int
  overrideCreditLimit : Bool
  quoteId : Option QuoteId
  paymentAccountId : Option AccountId
  items : List SaleBodyLine
  deriving DecidableEq

/-- The type of a queued operation with its payload. -/
inductive Payload where
  /-- `'sale.create'` -/
  | saleCreate (body : SaleBody)
  /-- `'sale.void_offline'` -/
  | saleVoidOffline (saleId : SaleId) (reason : String)
  deriving DecidableEq

structure Queued where
  idempotencyKey : Nat
  payload : Payload
  deriving DecidableEq

/-- The tables that a bill sold offline is written to. -/
structure Db where
  products : Table ProductId ProductRow
  customers : Table CustomerId CustomerRow
  mechanics : Table MechanicId MechanicRow
  sales : Table SaleId SaleRow
  returns : Table ReturnId ReturnRow
  shifts : Table ShiftId ShiftRow
  outboxOps : List (Till.OutboxOp Queued)

/-- The first shift that is active and not closed. -/
def Db.activeShift (db : Db) : Option ShiftId :=
  (db.shifts.find fun _ row => row.isActive && row.closedAt.isNone).map Prod.fst

/-- Adds a pending operation. -/
def Db.enqueue (opId : Nat) (op : Queued) (aggregates : List Till.Aggregate) (now : Nat) (db : Db) :
    Db :=
  { db with outboxOps := db.outboxOps ++ [⟨opId, op, aggregates, now, .pending, 0⟩] }

/-- The errors, under their codes. -/
inductive PosError where
  | insufficientStock (lines : List ShortLine)
  | offlineSeedRequired
  /-- `Stock underflow on … — race condition?` -/
  | stockUnderflow
  /-- a row is there already -/
  | constraint
  | voidReasonRequired
  | saleNotFound
  | saleAlreadyVoided
  | voidNeedsOnline
  | saleHasReturns
  deriving DecidableEq

/-! ## Selling -/

structure SaleLineInput where
  productId : ProductId
  partNo : Option String
  name : String
  qty : Int
  price : ℚ

structure SaleInput where
  subtotal : ℚ
  discount : ℚ
  total : ℚ
  paymentMethod : PaymentMethod
  customerId : Option CustomerId
  mechanicId : Option MechanicId
  mechanicDelta : Option ℚ
  items : List SaleLineInput
  overrideCreditLimit : Bool
  quoteId : Option QuoteId
  paymentAccountId : Option AccountId

def SaleInput.effectivePaymentAccountId (input : SaleInput) : Option AccountId :=
  if input.paymentMethod = .qr then input.paymentAccountId else none

/-- The lines for which the stock does not suffice, each looked at alone. -/
def insufficient (byId : Table ProductId ProductRow) (items : List SaleLineInput) : List ShortLine :=
  items.filterMap fun item =>
    match byId.get item.productId with
    | none   => some ⟨item.name, some item.productId, none, item.qty⟩
    | some p =>
        if p.stock < item.qty then some ⟨p.name, some item.productId, some p.stock, item.qty⟩ else none

/-- The stock is taken off the rows as they were read before the loop. -/
def decrementStock (byId : Table ProductId ProductRow) :
    List SaleLineInput → Table ProductId ProductRow → Except PosError (Table ProductId ProductRow)
  | [], products            => .ok products
  | item :: items, products =>
      match byId.get item.productId with
      | none   => .error .stockUnderflow
      | some p =>
          let newStock := p.stock - item.qty
          if newStock < 0 then .error .stockUnderflow
          else decrementStock byId items
            (products.modify item.productId fun row => { row with stock := newStock })

/-- `delta < 0 ? -delta : 0` -/
def discountGiven (mechanicDelta : Option ℚ) : ℚ :=
  let delta := mechanicDelta.getD 0
  if delta < 0 then -delta else 0

/-- `delta > 0 ? delta : 0` -/
def markupGiven (mechanicDelta : Option ℚ) : ℚ :=
  let delta := mechanicDelta.getD 0
  if delta > 0 then delta else 0

/-- `isCredit ? total : 0` -/
def onCredit (paymentMethod : PaymentMethod) (total : ℚ) : ℚ :=
  if paymentMethod = .mechanicCredit then total else 0

def CustomerRow.sell (input : SaleInput) (c : CustomerRow) : CustomerRow :=
  { totalSpend := c.totalSpend + input.total
    points := c.points + pointsFor input.total }

def MechanicRow.sell (input : SaleInput) (m : MechanicRow) : MechanicRow :=
  { m with
    totalSales := m.totalSales + input.total
    totalDiscount := m.totalDiscount + discountGiven input.mechanicDelta
    totalMarkup := m.totalMarkup + markupGiven input.mechanicDelta
    creditBalance := m.creditBalance + onCredit input.paymentMethod input.total }

/-- Changes the row a bill names, if it names one. -/
def updateNamed {ν : Type} (key : Option Nat) (f : ν → ν) (rows : Table Nat ν) : Table Nat ν :=
  key.elim rows fun k => rows.modify k f

/-- `wireMoney` -/
def wireMoney (amount : ℚ) : Int := toSatang amount

def saleBody (saleId : SaleId) (input : SaleInput) (receiptNo : Option DocNo) (date : Option Nat) :
    SaleBody :=
  { id := saleId
    receiptNo := receiptNo
    date := date
    subtotal := wireMoney input.subtotal
    discount := wireMoney input.discount
    total := wireMoney input.total
    paymentMethod := input.paymentMethod
    customerId := input.customerId
    mechanicId := input.mechanicId
    mechanicDelta := input.mechanicDelta.map wireMoney
    overrideCreditLimit := input.overrideCreditLimit
    quoteId := input.quoteId
    paymentAccountId := input.effectivePaymentAccountId
    items := input.items.zipIdx.map fun i =>
      { lineNo := i.2 + 1
        productId := i.1.productId
        partNo := i.1.partNo
        name := i.1.name
        qty := i.1.qty
        price := wireMoney i.1.price } }

/-- The bill as the till stores it. -/
def offlineRow (input : SaleInput) (receiptNo : DocNo) (shiftId : Option ShiftId) (now : Nat) :
    SaleRow :=
  { receiptNo := receiptNo
    subtotal := input.subtotal
    discount := input.discount
    total := input.total
    paymentMethod := input.paymentMethod
    customerId := input.customerId
    mechanicId := input.mechanicId
    mechanicDelta := input.mechanicDelta
    pointsGranted := pointsFor input.total
    date := now
    voided := false
    voidedAt := none
    shiftId := shiftId
    soldOffline := true
    voidReason := none
    paymentAccountId := input.effectivePaymentAccountId
    items := input.items.map fun item =>
      { productId := item.productId
        partNo := item.partNo
        name := item.name
        qty := item.qty
        price := item.price
        costAtSale := none } }

/-- What `_saveOffline` reads of the products, and looks at, before its transaction. -/
def preValidate (input : SaleInput) (db : Db) : Except PosError (Table ProductId ProductRow) :=
  let short := insufficient db.products input.items
  if short ≠ [] then .error (.insufficientStock short) else .ok db.products

/-- Its transaction. `receiptNo` is what the till's own series issues, none before it has one. -/
def saveOfflineTx (opId key : Nat) (saleId : SaleId) (input : SaleInput)
    (byId : Table ProductId ProductRow) (effectiveShiftId : Option ShiftId) (receiptNo : Option DocNo)
    (now : Nat) (db : Db) : Except PosError (SaleRow × Db) :=
  match receiptNo with
  | none           => .error .offlineSeedRequired
  | some receiptNo =>
      if (db.sales.get saleId).isSome then .error .constraint
      else
        let sale := offlineRow input receiptNo effectiveShiftId now
        match decrementStock byId input.items db.products with
        | .error e     => .error e
        | .ok products =>
            .ok (sale, Db.enqueue opId
              ⟨key, .saleCreate (saleBody saleId input (some receiptNo) (some now))⟩
              (Till.saleAggregates saleId effectiveShiftId input.customerId input.mechanicId) now
              { db with
                sales := db.sales.insert saleId sale
                products := products
                customers := updateNamed input.customerId (CustomerRow.sell input) db.customers
                mechanics := updateNamed input.mechanicId (MechanicRow.sell input) db.mechanics })

/-- `_saveOffline`, where nothing is written between its reads and its transaction. -/
def saveOffline (opId key : Nat) (saleId : SaleId) (input : SaleInput) (shiftId : Option ShiftId)
    (receiptNo : Option DocNo) (now : Nat) (db : Db) : Except PosError (SaleRow × Db) :=
  match preValidate input db with
  | .error e => .error e
  | .ok byId =>
      saveOfflineTx opId key saleId input byId (shiftId.or db.activeShift) receiptNo now db

/-! ## Voiding -/

/-- The quantity the notes of a bill took back, by product. -/
def Db.refundedQty (x : SaleId) (db : Db) : List (ProductId × Int) :=
  refundedQtyOf ((db.returns.select fun r => r.saleId = x).flatMap (·.items))

/-- Each line is put back on the row as it is then. -/
def restoreStock (items : List SaleItemRow) (products : Table ProductId ProductRow) :
    Table ProductId ProductRow :=
  items.foldl (fun t item => t.modify item.productId fun p => { p with stock := p.stock + item.qty })
    products

/-- The upper bound of the points after a void. -/
def maxPoints : Int := 999999999

def CustomerRow.undo (sale : SaleRow) (c : CustomerRow) : CustomerRow :=
  { totalSpend := max 0 (c.totalSpend - sale.total)
    points := min maxPoints (max 0 (c.points - sale.pointsGranted)) }

def MechanicRow.undo (sale : SaleRow) (m : MechanicRow) : MechanicRow :=
  { m with
    totalSales := max 0 (m.totalSales - sale.total)
    totalDiscount := max 0 (m.discountBase - discountGiven sale.mechanicDelta)
    totalMarkup := max 0 (m.totalMarkup - markupGiven sale.mechanicDelta)
    creditBalance := max 0 (m.creditBalance - onCredit sale.paymentMethod sale.total) }

def SaleRow.void (reason : String) (now : Nat) (sale : SaleRow) : SaleRow :=
  { sale with voided := true, voidedAt := some now, voidReason := some reason }

/-- `voidSaleOffline`, whose `reason` is the trimmed one. -/
def voidSaleOffline (opId key : Nat) (x : SaleId) (reason : String) (now : Nat) (db : Db) :
    Except PosError (SaleRow × Db) :=
  if reason = "" then .error .voidReasonRequired
  else
    match db.sales.get x with
    | none      => .error .saleNotFound
    | some sale =>
        if sale.voided then .error .saleAlreadyVoided
        else if !sale.soldOffline then .error .voidNeedsOnline
        else if (db.refundedQty x).any fun r => r.2 > 0 then .error .saleHasReturns
        else
          .ok (sale.void reason now, Db.enqueue opId ⟨key, .saleVoidOffline x reason⟩
            (Till.voidAggregates x sale.shiftId) now
            { db with
              sales := db.sales.modify x (SaleRow.void reason now)
              products := restoreStock sale.items db.products
              customers := updateNamed sale.customerId (CustomerRow.undo sale) db.customers
              mechanics := updateNamed sale.mechanicId (MechanicRow.undo sale) db.mechanics })

/-! ## What the server reads of an operation -/

/-- A line with a quantity that is not positive is refused. -/
def SaleBodyLine.read (l : SaleBodyLine) : Option SaleLine :=
  if h : 0 < l.qty then
    some { lineNo := l.lineNo, productId := l.productId, name := l.name, qty := l.qty,
           price := l.price, qty_pos := h }
  else none

def SaleBody.read (body : SaleBody) : Option SaleWrite :=
  (body.items.mapM SaleBodyLine.read).map fun items =>
    { id := body.id
      receiptNo := body.receiptNo
      subtotal := body.subtotal
      discount := body.discount
      total := body.total
      paymentMethod := body.paymentMethod
      customerId := body.customerId
      mechanicId := body.mechanicId
      mechanicDelta := body.mechanicDelta
      overrideCreditLimit := body.overrideCreditLimit
      paymentAccountId := body.paymentAccountId
      soldOffline := true
      items := items }

def Payload.read : Payload → Option SyncOp
  | .saleCreate body           => body.read.map fun dto => .saleCreate dto body.quoteId body.date
  | .saleVoidOffline x reason  => some (.saleVoidOffline x reason)

/-! ## What the loops do -/

/-- How much of a product the lines want together. -/
def wantedQty (items : List SaleLineInput) (p : ProductId) : Int :=
  (items.map fun i => if i.productId = p then i.qty else 0).sum

/-- How much of it the last line that names it wants. -/
def lastQty : List SaleLineInput → ProductId → Int
  | [], _             => 0
  | item :: items, p =>
      if p ∈ items.map (·.productId) then lastQty items p
      else if item.productId = p then item.qty else 0

section
variable {items : List SaleLineInput} {p : ProductId}

theorem wantedQty_cons (item : SaleLineInput) : wantedQty (item :: items) p =
    (if item.productId = p then item.qty else 0) + wantedQty items p := rfl

theorem wantedQty_of_notMem (hp : p ∉ items.map (·.productId)) : wantedQty items p = 0 :=
  Grouping.sum_of_key_notMem hp SaleLineInput.qty

/-- With no product on two lines, the last line wants all there is to want. -/
theorem lastQty_eq_wantedQty (h : (items.map (·.productId)).Nodup) :
    lastQty items p = wantedQty items p := by
  induction items with
  | nil => rfl
  | cons item items ih =>
      obtain ⟨hnew, hrest⟩ := List.nodup_cons.mp h
      rw [lastQty, wantedQty_cons]
      split
      · rename_i hp
        have hne : item.productId ≠ p := by
          rintro rfl
          exact hnew hp
        rw [if_neg hne, zero_add, ih hrest]
      · rename_i hp
        rw [wantedQty_of_notMem hp, add_zero]

/-- The stock that is written for a line is the stock as read, less that line. -/
theorem decrementStock_cons {byId t t' : Table ProductId ProductRow} {item : SaleLineInput}
    (h : decrementStock byId (item :: items) t = .ok t') :
    ∃ p, byId.get item.productId = some p ∧ decrementStock byId items
      (t.modify item.productId fun row => { row with stock := p.stock - item.qty }) = .ok t' := by
  rw [decrementStock] at h
  cases hp : byId.get item.productId with
  | none =>
      rw [hp] at h
      cases h
  | some p =>
      simp only [hp] at h
      split at h
      · cases h
      · exact ⟨p, rfl, h⟩

/-- Of the lines that name a product only the last one has its effect. -/
theorem get_decrementStock {byId t t' : Table ProductId ProductRow}
    (h : decrementStock byId items t = .ok t') (p : ProductId) : t'.get p = (t.get p).map fun row =>
      if p ∈ items.map (·.productId) then
        { row with stock := (byId.get p).elim 0 (·.stock) - lastQty items p }
      else row := by
  induction items generalizing t with
  | nil =>
      obtain rfl := Except.ok.inj h
      simp
  | cons item items ih =>
      obtain ⟨p', hp', hrest⟩ := decrementStock_cons h
      rw [ih hrest, Table.get_modify]
      by_cases hmem : p ∈ items.map (·.productId)
      · have hmem' : p ∈ (item :: items).map (·.productId) := List.mem_cons_of_mem _ hmem
        simp only [if_pos hmem, if_pos hmem', lastQty]
        split
        · rw [Option.map_map]
          rfl
        · rfl
      · by_cases heq : p = item.productId
        · subst heq
          have hmem' : item.productId ∈ (item :: items).map (·.productId) := List.mem_cons_self
          simp only [if_pos, if_neg hmem, if_pos hmem', lastQty, hp', Option.elim_some, Option.map_map]
          rfl
        · have hmem' : p ∉ (item :: items).map (·.productId) :=
            fun h => (List.mem_cons.mp h).elim heq hmem
          simp only [if_neg hmem, if_neg hmem', if_neg heq]

/-- No stock is taken below zero. -/
theorem decrementStock_nonneg {byId t t' : Table ProductId ProductRow}
    (ht : ∀ {p row}, t.get p = some row → 0 ≤ row.stock) (h : decrementStock byId items t = .ok t') :
    ∀ {p row}, t'.get p = some row → 0 ≤ row.stock := by
  induction items generalizing t with
  | nil =>
      obtain rfl := Except.ok.inj h
      exact ht
  | cons item items ih =>
      rw [decrementStock] at h
      cases hp : byId.get item.productId with
      | none =>
          rw [hp] at h
          cases h
      | some known =>
          simp only [hp] at h
          split at h
          · cases h
          · rename_i hnonneg
            refine ih ?_ h
            intro p row hrow
            rw [Table.get_modify] at hrow
            split at hrow
            · obtain ⟨old, -, rfl⟩ := Option.map_eq_some_iff.mp hrow
              exact not_lt.mp hnonneg
            · exact ht hrow

theorem get_updateNamed {ν : Type} (key : Option Nat) (f : ν → ν) (rows : Table Nat ν) (k : Nat) :
    (updateNamed key f rows).get k = if key = some k then (rows.get k).map f else rows.get k := by
  cases key with
  | none => rfl
  | some k' =>
      rw [updateNamed, Option.elim_some, Table.get_modify]
      simp only [Option.some.injEq, eq_comm]

end

/-! ## What is written -/

section
variable {x : SaleId} {input : SaleInput} {t t' : Db} {row : SaleRow}

/-- What a bill sold offline leaves on the till. -/
theorem of_saveOfflineTx {opId key : Nat} {byId : Table ProductId ProductRow}
    {shiftId : Option ShiftId} {no : Option DocNo} {now : Nat}
    (h : saveOfflineTx opId key x input byId shiftId no now t = .ok (row, t')) :
    ∃ receiptNo products, row = offlineRow input receiptNo shiftId now ∧
      t.sales.get x = none ∧ decrementStock byId input.items t.products = .ok products ∧
      t' = Db.enqueue opId
        ⟨key, .saleCreate (saleBody x input (some receiptNo) (some now))⟩
        (Till.saleAggregates x shiftId input.customerId input.mechanicId) now
        { t with
          sales := t.sales.insert x row
          products := products
          customers := updateNamed input.customerId (CustomerRow.sell input) t.customers
          mechanics := updateNamed input.mechanicId (MechanicRow.sell input) t.mechanics } := by
  cases no with
  | none => cases h
  | some receiptNo =>
      simp only [saveOfflineTx] at h
      split at h
      · cases h
      · rename_i hnone
        cases hproducts : decrementStock byId input.items t.products with
        | error e =>
            rw [hproducts] at h
            cases h
        | ok products =>
            rw [hproducts] at h
            obtain ⟨rfl, rfl⟩ := Prod.mk.inj (Except.ok.inj h)
            exact ⟨receiptNo, products, rfl, by simpa using hnone, rfl, rfl⟩

/-- What the void of one leaves. -/
theorem of_voidSaleOffline {opId key : Nat} {reason : String} {now : Nat} {row' : SaleRow}
    (hrow : t.sales.get x = some row) (h : voidSaleOffline opId key x reason now t = .ok (row', t')) :
    t' = Db.enqueue opId ⟨key, .saleVoidOffline x reason⟩ (Till.voidAggregates x row.shiftId) now
      { t with
        sales := t.sales.modify x (SaleRow.void reason now)
        products := restoreStock row.items t.products
        customers := updateNamed row.customerId (CustomerRow.undo row) t.customers
        mechanics := updateNamed row.mechanicId (MechanicRow.undo row) t.mechanics } := by
  simp only [voidSaleOffline, hrow] at h
  split at h
  · cases h
  · split at h
    · cases h
    · split at h
      · cases h
      · split at h
        · cases h
        · exact (Prod.mk.inj (Except.ok.inj h)).2.symm

end

end Cache

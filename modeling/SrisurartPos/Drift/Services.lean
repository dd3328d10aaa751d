import SrisurartPos.Till.Effects

/-! # The services of the Drift-only build

Without a server the till's own database is the shop's only one, and these services are all that
writes to it: `sales_repository.dart`, `returns_repository.dart`, `purchase_orders_repository.dart`,
`products_repository.dart` and `mechanics_repository.dart`. Some read before their transaction what
they write in it, and one has no transaction at all; such a service is in several parts here. -/

namespace Drift

open Server Money Cache

abbrev OrderId := Nat

inductive PoStatus where
  /-- `'open'` -/
  | opened
  | received
  | cancelled
  deriving DecidableEq

structure PoItemRow where
  partNo : String
  name : String
  qty : Int
  cost : ℚ
  deriving DecidableEq

/-- A purchase order with its lines. -/
structure PurchaseOrderRow where
  status : PoStatus
  receivedAt : Option Nat
  cancelledAt : Option Nat
  items : List PoItemRow
  deriving DecidableEq

structure QuoteRow where
  converted : Bool
  convertedAt : Option Nat
  deriving DecidableEq

structure CreditPaymentRow where
  mechanicId : MechanicId
  amount : ℚ
  date : Nat
  deriving DecidableEq

/-- The tables that the services write to. -/
structure Db where
  products : Table ProductId ProductRow
  customers : Table CustomerId CustomerRow
  mechanics : Table MechanicId MechanicRow
  sales : Table SaleId SaleRow
  returns : Table ReturnId ReturnRow
  purchaseOrders : Table OrderId PurchaseOrderRow
  creditPayments : Table PaymentId CreditPaymentRow
  quotes : Table QuoteId QuoteRow
  movements : List MovementRow

inductive Refusal where
  | insufficientStock (lines : List ShortLine)
  | stockUnderflow
  | constraint
  | voidReasonRequired
  | saleNotFound
  | alreadyVoided
  | hasReturns
  | exceeds (lines : List OverLine)
  deriving DecidableEq

/-! ## `saveSale` -/

/-- What is read of the products and looked at before the transaction. -/
def preValidate (input : SaleInput) (db : Db) : Except Refusal (Table ProductId ProductRow) :=
  let short := insufficient db.products input.items
  if short ≠ [] then .error (.insufficientStock short) else .ok db.products

/-- The bill, with the costs as they were read. -/
def saleRow (byId : Table ProductId ProductRow) (input : SaleInput) (receiptNo : DocNo) (date : Nat) :
    SaleRow :=
  { receiptNo := receiptNo
    subtotal := input.subtotal
    discount := input.discount
    total := input.total
    paymentMethod := input.paymentMethod
    customerId := input.customerId
    mechanicId := input.mechanicId
    mechanicDelta := input.mechanicDelta
    pointsGranted := pointsFor input.total
    date := date
    voided := false
    voidedAt := none
    shiftId := none
    soldOffline := true
    voidReason := none
    paymentAccountId := input.effectivePaymentAccountId
    items := input.items.map fun item =>
      { productId := item.productId
        partNo := item.partNo
        name := item.name
        qty := item.qty
        price := item.price
        costAtSale := (byId.get item.productId).map (·.cost) } }

/-- An open quote is converted, a converted one left as it is. -/
def convertQuote (date : Nat) (q : QuoteRow) : QuoteRow :=
  if q.converted then q else ⟨true, some date⟩

/-- The transaction of `saveSale`. -/
def saveSale (x : SaleId) (input : SaleInput) (byId : Table ProductId ProductRow) (receiptNo : DocNo)
    (date : Nat) (db : Db) : Except Refusal (SaleRow × Db) :=
  match decrementStock byId input.items db.products with
  | .error _     => .error .stockUnderflow
  | .ok products =>
      if (db.sales.get x).isSome then .error .constraint
      else
        let sale := saleRow byId input receiptNo date
        .ok (sale, { db with
          products := products
          customers := updateNamed input.customerId (CustomerRow.sell input) db.customers
          mechanics := updateNamed input.mechanicId (MechanicRow.sell input) db.mechanics
          sales := db.sales.insert x sale
          quotes := updateNamed input.quoteId (convertQuote date) db.quotes })

/-! ## `voidSaleOffline` -/

/-- The bill is read, and must not be voided. `reason` is the trimmed one. -/
def readBill (x : SaleId) (reason : String) (db : Db) : Except Refusal SaleRow :=
  if reason = "" then .error .voidReasonRequired
  else
    match db.sales.get x with
    | none      => .error .saleNotFound
    | some sale => if sale.voided then .error .alreadyVoided else .ok sale

/-- Then its notes, of which there must be none. -/
def readNotes (x : SaleId) (db : Db) : Except Refusal Unit :=
  if db.returns.select (fun r => r.saleId = x) ≠ [] then .error .hasReturns else .ok ()

def undoCustomer (sale : SaleRow) (c : CustomerRow) : CustomerRow :=
  { totalSpend := max 0 (c.totalSpend - sale.total)
    points := max 0 (c.points - sale.pointsGranted) }

/-- The transaction of `voidSaleOffline`. -/
def voidSaleOffline (x : SaleId) (reason : String) (sale : SaleRow) (now : Nat) (db : Db) : Db :=
  { db with
    sales := db.sales.modify x (SaleRow.void reason now)
    products := restoreStock sale.items db.products
    customers := updateNamed sale.customerId (undoCustomer sale) db.customers
    mechanics := updateNamed sale.mechanicId (MechanicRow.undo sale) db.mechanics }

/-! ## `createReturn` -/

def createReturn (r : ReturnId) (x : SaleId) (input : ReturnInput) (now : Nat) (db : Db) :
    Except Refusal (ReturnPlan × Db) :=
  match db.sales.get x with
  | none      => .error .saleNotFound
  | some sale =>
      if sale.voided then .error .alreadyVoided
      else
        let refundedSoFar :=
          refundedQtyOf ((db.returns.select fun n => n.saleId = x).flatMap (·.items))
        match planReturn sale refundedSoFar input (sale.customerId.bind db.customers.get)
            (sale.mechanicId.bind db.mechanics.get) with
        | .error lines => .error (.exceeds lines)
        | .ok plan     =>
            if (db.returns.get r).isSome then .error .constraint
            else
              .ok (plan, { db with
                returns := db.returns.insert r (noteRow x sale input plan now)
                products := putBack input.moves db.products
                customers := plan.customerAfter.elim db.customers fun after =>
                  updateNamed sale.customerId (fun _ => after) db.customers
                mechanics := plan.mechanicAfter.elim db.mechanics fun after =>
                  updateNamed sale.mechanicId (·.withTotals after) db.mechanics
                sales :=
                  if plan.voidsSale then
                    db.sales.modify x fun s => { s with voided := true, voidedAt := some now }
                  else db.sales })

/-! ## Purchase orders

`toLowerCase` of a part number is a parameter: what follows holds of any. -/

section
variable (toLowerCase : String → String)

/-- `byLowerPartNo`: the first product of each part number. -/
def byLowerPartNo (products : Table ProductId ProductRow) : Table String (ProductId × ProductRow) :=
  .insertAll (products.rows.map fun e => (toLowerCase e.2.partNo, e))

/-- The average cost once `item` has come in. -/
def weightedCost (p : ProductRow) (item : PoItemRow) : ℚ :=
  let newCost := if item.cost > 0 then item.cost else p.cost
  let totalQty := p.stock + item.qty
  if totalQty > 0 then round2 ((p.stock * p.cost + item.qty * newCost) / totalQty) else newCost

/-- The loop of `receivePO`. A line without a product is left out. -/
def receiveLines : List PoItemRow → Table String (ProductId × ProductRow) → Table ProductId ProductRow →
    List MovementRow → Table ProductId ProductRow × List MovementRow
  | [], _, products, movements                => (products, movements)
  | item :: items, byPartNo, products, movements =>
      match byPartNo.get (toLowerCase item.partNo) with
      | none        => receiveLines items byPartNo products movements
      | some (id, p) =>
          let received := { p with stock := p.stock + item.qty, cost := weightedCost p item }
          receiveLines items (byPartNo.upsert (toLowerCase item.partNo) (id, received))
            (products.modify id fun row =>
              { row with stock := received.stock, cost := received.cost })
            (movements ++ [⟨id, item.qty⟩])

/-- `receivePO`. An order that is gone brings nothing. -/
def receivePO (id : OrderId) (now : Nat) (db : Db) : Db :=
  match db.purchaseOrders.get id with
  | none    => db
  | some po =>
      let received := receiveLines toLowerCase po.items (byLowerPartNo toLowerCase db.products)
        db.products db.movements
      { db with
        products := received.1
        movements := received.2
        purchaseOrders := db.purchaseOrders.modify id fun row =>
          { row with status := .received, receivedAt := some now } }

end

def cancelPO (id : OrderId) (now : Nat) (db : Db) : Db :=
  { db with
    purchaseOrders := db.purchaseOrders.modify id fun row =>
      { row with status := .cancelled, cancelledAt := some now } }

def deletePO (id : OrderId) (db : Db) : Db :=
  { db with purchaseOrders := db.purchaseOrders.erase id }

/-! ## `adjustStock` -/

/-- A stock below zero is written as zero. -/
def clampedStock (p : ProductRow) (delta : Int) : Int :=
  if p.stock + delta < 0 then 0 else p.stock + delta

/-- The write of `adjustStock`, to the product as it was read. -/
def adjustStock (id : ProductId) (delta : Int) (p : ProductRow) (db : Db) : Db :=
  { db with
    products := db.products.modify id fun row => { row with stock := clampedStock p delta } }

/-- `addMovement` -/
def addMovement (m : MovementRow) (db : Db) : Db := { db with movements := db.movements ++ [m] }

/-! ## `addCreditPayment` -/

def addCreditPayment (i : PaymentId) (m : MechanicId) (amount : ℚ) (now : Nat) (db : Db) :
    Except Refusal Db :=
  if (db.creditPayments.get i).isSome then .error .constraint
  else
    .ok { db with
      creditPayments := db.creditPayments.insert i ⟨m, amount, now⟩
      mechanics := db.mechanics.modify m fun row =>
        { row with
          creditBalance :=
            if row.creditBalance - amount < 0 then 0 else row.creditBalance - amount } }

/-! ## What they do to the stock -/

/-- The stock of a product, if there is one. -/
def Db.stockOf (db : Db) (p : ProductId) : Option Int := (db.products.get p).map (·.stock)

theorem stock_modify {t : Table ProductId ProductRow} {id p : ProductId}
    {f : ProductRow → ProductRow} : ((t.modify id f).get p).map (·.stock) =
      if p = id then (t.get p).map fun row => (f row).stock else (t.get p).map (·.stock) := by
  rw [Table.get_modify]
  split
  · rw [Option.map_map]
    rfl
  · rfl

theorem stock_putBack {moves : List (ProductId × Int)} {t : Table ProductId ProductRow}
    (p : ProductId) : ((putBack moves t).get p).map (·.stock) =
      ((t.get p).map (·.stock)).map (· + shiftOf moves p) := by
  rw [get_putBack, Option.map_map, Option.map_map]
  rfl

/-- A cart with each product on one line, that finds the stock as it was read, takes what it wants. -/
theorem stock_sold {byId t t' : Table ProductId ProductRow} {items : List SaleLineInput}
    (honce : (items.map (·.productId)).Nodup) (hread : ∀ i ∈ items,
      (t.get i.productId).map (·.stock) = (byId.get i.productId).map (·.stock))
    (h : decrementStock byId items t = .ok t') (p : ProductId) : (t'.get p).map (·.stock) =
      ((t.get p).map (·.stock)).map (· - wantedQty items p) := by
  rw [get_decrementStock h, Option.map_map, Option.map_map]
  cases hrow : t.get p with
  | none => rfl
  | some row =>
      simp only [Option.map_some, Function.comp_apply]
      split
      · rename_i hmem
        obtain ⟨i, hi, rfl⟩ := List.mem_map.mp hmem
        have hsame := hread i hi
        rw [hrow] at hsame
        obtain ⟨read, hread, hstock⟩ := Option.map_eq_some_iff.mp hsame.symm
        have hstock : read.stock = row.stock := hstock
        rw [hread, Option.elim_some, hstock, lastQty_eq_wantedQty honce]
      · rename_i hmem
        rw [wantedQty_of_notMem hmem, sub_zero]

section
variable {toLowerCase : String → String}

/-- Each entry is a product of the table, under its own part number. -/
def Indexed (toLowerCase : String → String) (m : Table String (ProductId × ProductRow))
    (t : Table ProductId ProductRow) : Prop :=
  ∀ {k id row}, m.get k = some (id, row) → t.get id = some row ∧ toLowerCase row.partNo = k

theorem indexed_byLowerPartNo (t : Table ProductId ProductRow) :
    Indexed toLowerCase (byLowerPartNo toLowerCase t) t := by
  intro k id row hk
  obtain ⟨e, he, heq⟩ := List.mem_map.mp (Table.mem_of_get_insertAll hk)
  obtain ⟨rfl, rfl⟩ := Prod.mk.inj heq
  exact ⟨t.mem_rows.mp he, rfl⟩

/-- The lines of an order that find a product. -/
def matched (toLowerCase : String → String) (m : Table String (ProductId × ProductRow))
    (items : List PoItemRow) : List (ProductId × Int) :=
  items.filterMap fun i => (m.get (toLowerCase i.partNo)).map fun e => (e.1, i.qty)

/-- The rows that an order's lines match do not change when one of them is written again. -/
theorem matched_upsert {m : Table String (ProductId × ProductRow)} {k : String} {id : ProductId}
    {row row' : ProductRow} (hk : m.get k = some (id, row)) (items : List PoItemRow) :
    matched toLowerCase (m.upsert k (id, row')) items = matched toLowerCase m items := by
  rw [matched, matched]
  congr 1
  funext i
  rw [Table.get_upsert]
  split
  · rename_i hi
    rw [hi, hk]
    rfl
  · rfl

/-- Each product's stock moves by the units of the lines that match it. -/
theorem stock_receiveLines {items : List PoItemRow} {m : Table String (ProductId × ProductRow)}
    {t : Table ProductId ProductRow} {movements : List MovementRow} (h : Indexed toLowerCase m t)
    (p : ProductId) :
    ((receiveLines toLowerCase items m t movements).1.get p).map (·.stock) =
      ((t.get p).map (·.stock)).map (· + shiftOf (matched toLowerCase m items) p) := by
  induction items generalizing m t movements with
  | nil => simp [receiveLines, matched, shiftOf, Function.comp_def]
  | cons item items ih =>
      rw [receiveLines]
      cases hk : m.get (toLowerCase item.partNo) with
      | none =>
          have hskip : matched toLowerCase m (item :: items) = matched toLowerCase m items := by
            rw [matched, List.filterMap_cons, hk]
            rfl
          rw [hskip]
          exact ih h
      | some e =>
          obtain ⟨id, row⟩ := e
          obtain ⟨hrow, hlower⟩ := h hk
          have htake : matched toLowerCase m (item :: items) =
              (id, item.qty) :: matched toLowerCase m items := by
            rw [matched, List.filterMap_cons, hk]
            rfl
          -- the entry is kept as the row is, and no other entry is about that row
          have hnext : Indexed toLowerCase
              (m.upsert (toLowerCase item.partNo) (id, { row with
                stock := row.stock + item.qty, cost := weightedCost row item }))
              (t.modify id fun r =>
                { r with stock := row.stock + item.qty, cost := weightedCost row item }) := by
            intro k id' row' hk'
            rw [Table.get_upsert] at hk'
            split at hk'
            · rename_i hkey
              obtain ⟨rfl, rfl⟩ := Prod.mk.inj (Option.some.inj hk')
              rw [Table.get_modify_self, hrow]
              exact ⟨rfl, hlower.trans hkey.symm⟩
            · rename_i hkey
              obtain ⟨hrow', hlower'⟩ := h hk'
              rw [Table.get_modify_ne _ _ _]
              · exact ⟨hrow', hlower'⟩
              · rintro rfl
                rw [hrow] at hrow'
                obtain rfl := Option.some.inj hrow'
                exact hkey (hlower'.symm.trans hlower)
          refine (ih hnext).trans ?_
          rw [matched_upsert hk, htake, shiftOf_cons, stock_modify]
          by_cases hp : p = id
          · subst hp
            simp only [hrow, if_true, Option.map_some]
            congr 1
            omega
          · rw [if_neg hp, if_neg (Ne.symm hp), zero_add]

end

end Drift

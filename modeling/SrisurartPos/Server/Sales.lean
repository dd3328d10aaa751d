import SrisurartPos.Server.DocNumbers
import SrisurartPos.Server.Shifts
import SrisurartPos.Server.Ledgers
import Mathlib.Data.List.Sort

/-! # Bills (`sales.service.ts`, `sales.dto.ts`)

One transaction writes a bill: it checks the arithmetic, replays a bill that is there already, locks
the drawer, the mechanic and the products in that order, and then deducts the stock, numbers and
inserts the bill, and moves the running totals. -/

namespace Server

open Txn

/-! ## The body -/

@[ext]
structure SaleLine where
  lineNo : Nat
  productId : ProductId
  name : String
  qty : Int
  price : Int
  qty_pos : 0 < qty
  deriving Repr

instance : DecidableEq SaleLine := fun _ _ => decidable_of_iff _ SaleLine.ext_iff.symm

/-- What `SalesService.create` takes. `soldOffline` is set by `/sync/push` only. -/
structure SaleWrite where
  id : SaleId
  receiptNo : Option DocNo
  subtotal : Int
  discount : Int
  total : Int
  paymentMethod : PaymentMethod
  customerId : Option CustomerId
  mechanicId : Option MechanicId
  mechanicDelta : Option Int
  overrideCreditLimit : Bool
  paymentAccountId : Option AccountId
  soldOffline : Bool
  items : List SaleLine

/-- A check of a parser. -/
def check (c : Prop) [Decidable c] (message : String) : Except ServerError Unit :=
  if c then .ok () else .error (.badRequest message)

def maxLines : Nat := 200

/-- The upper bound of `parseLineQty`. -/
def maxLineQty : Int := 1000000

def assertMoneyMakesSense (dto : SaleWrite) : Except ServerError Unit := do
  check (0 ≤ dto.discount) "discount must not be negative"
  check (0 ≤ dto.subtotal) "subtotal must not be negative"
  check (0 ≤ dto.total) "total must not be negative"
  check (dto.discount ≤ dto.subtotal) "discount must not exceed subtotal"

def parseItemsArray {α : Type} (items : List α) : Except ServerError Unit := do
  check (items ≠ []) "items must not be empty"
  check (items.length ≤ maxLines) "items must hold at most 200 lines"

def parseLine (l : SaleLine) : Except ServerError Unit := do
  check (l.qty ≤ maxLineQty) "items[].qty must be a positive integer"
  check (1 ≤ l.lineNo) "items[].lineNo must be a positive integer"
  check (0 ≤ l.price) "items[].price must not be negative"

/-- The three literals a sale can be created with. -/
def PaymentMethod.offered : PaymentMethod → Bool
  | .cash | .qr | .mechanicCredit => true
  | .other _                      => false

def parseSaleParty (paymentMethod : PaymentMethod) (paymentAccountId : Option AccountId) :
    Except ServerError Unit := do
  check (paymentMethod.offered = true) "paymentMethod must be one of เงินสด, โอน/QR, เครดิตช่าง"
  check (paymentAccountId = none ∨ paymentMethod = .qr)
    "paymentAccountId is only allowed when paymentMethod is โอน/QR"

def parseLines (items : List SaleLine) : Except ServerError Unit := do
  items.forM parseLine
  check (items.map (·.lineNo)).Nodup "items[].lineNo must be unique"

/-- What the parser refuses of a body whose fields have the right types. -/
def parseCreateSale (dto : SaleWrite) : Except ServerError Unit := do
  parseItemsArray dto.items
  parseSaleParty dto.paymentMethod dto.paymentAccountId
  parseLines dto.items
  assertMoneyMakesSense dto

/-- The client's arithmetic may be off by one satang. -/
def totalTolerance : Nat := 1

def computedSubtotal (items : List SaleLine) : Int := (items.map fun i => i.qty * i.price).sum

def assertSaleTotals (items : List SaleLine) (subtotal discount total : Int) :
    Except ServerError Unit :=
  let computedTotal := computedSubtotal items - discount
  if (computedSubtotal items - subtotal).natAbs > totalTolerance ∨
      (computedTotal - total).natAbs > totalTolerance then
    .error (.totalMismatch (computedSubtotal items) computedTotal)
  else .ok ()

/-! ## Demands -/

/-- How much of one product the whole bill wants, and where it was first asked for. -/
structure Demand where
  productId : ProductId
  qty : Int
  requestedName : String
  firstLineIndex : Nat
  deriving DecidableEq, Repr

def Demand.merge (d e : Demand) : Demand := { d with qty := d.qty + e.qty }

/-- One demand for each product, in the order the lines were asked for. -/
def aggregate (items : List SaleLine) : List Demand :=
  (Grouping.collapse Demand.productId Demand.merge
    (items.zipIdx.map fun e => ⟨e.1.productId, e.1.qty, e.1.name, e.2⟩)).insertionSort
      fun d e => d.firstLineIndex ≤ e.firstLineIndex

/-- What a bill takes off the shelf. -/
def saleMoves (items : List SaleLine) : List (ProductId × Int) :=
  (aggregate items).map fun d => (d.productId, -d.qty)

/-! ## Replaying a bill -/

/-- The products of a stored bill, in the order of its lines. -/
def distinctProducts (items : List SaleItem) : List ProductId :=
  Grouping.collapse id (fun p _ => p)
    ((items.insertionSort fun i j => i.lineNo ≤ j.lineNo).map (·.productId))

def saleLineOut (i : SaleItem) : SaleLineOut := ⟨i.lineNo, i.productId, i.costAtSale⟩

/-- The bill already written under this id, replayed, or none. With the request's lines the answer
keeps their order, without them that of the stored lines. -/
def existingSale (id : SaleId) (total : Int) (soldOffline : Bool)
    (items : Option (List SaleLine)) : Prog (Option CreateSaleResult) := do
  let row ← Tx.glance fun db => db.sales.get id
  match row with
  | none      => return none
  | some sale => do
      Tx.require (sale.total = total) .saleIdReused
      Tx.require (¬(sale.voided = true ∧ soldOffline = false)) .saleVoided
      let productIds : List ProductId := match items with
        | some items => (aggregate items).map Demand.productId
        | none       => distinctProducts sale.items
      let products ← Tx.glance fun db : Db => productIds.filterMap fun p =>
        (db.products.get p).map fun row => (p, row.stock)
      let movements ← Tx.glance fun db : Db => productIds.filterMap fun p =>
        (db.movementsOf p).find? fun m => m.type = .sale && m.refId = some id
      let customer ← Tx.glance fun db => sale.customerId.bind fun c =>
        (db.customers.get c).map (customerAfter c)
      let mechanic ← Tx.glance fun db => sale.mechanicId.bind fun m =>
        (db.mechanics.get m).map (mechanicAfter m)
      return some
        { id := id
          receiptNo := sale.receiptNo
          total := sale.total
          pointsGranted := sale.pointsGranted
          shiftId := sale.shiftId
          paymentAccountId := sale.paymentAccountId
          products := products
          items := (sale.items.insertionSort fun i j => i.lineNo ≤ j.lineNo).map saleLineOut
          movements := movements
          mechanicAfter := mechanic
          customerAfter := customer }

/-! ## Writing a bill -/

/-- The QR account to store. An unknown one refuses an online bill and is dropped from a replay. -/
def resolvePaymentAccount (dto : SaleWrite) : Prog (Option AccountId) :=
  match dto.paymentAccountId with
  | none   => return none
  | some a =>
      if dto.paymentMethod ≠ .qr then return none
      else do
        let there ← Tx.glance fun db => decide (a ∈ db.paymentAccounts)
        if there then return some a
        else if dto.soldOffline then return none
        else Tx.fail .paymentAccountNotFound

/-- A bill that went past the credit limit on the flag. -/
structure CreditOverride where
  creditLimit : Int
  creditBalanceBefore : Int
  deriving DecidableEq, Repr

/-- `newBalance > creditLimit`, with no special case for a limit of 0. -/
def checkLimit (dto : SaleWrite) (row : Option Mechanic) :
    Except ServerError (Option CreditOverride) :=
  match row with
  | none     => .ok none
  | some row =>
      let newBalance := row.creditBalance + dto.total
      if dto.paymentMethod ≠ .mechanicCredit ∨ newBalance ≤ row.creditLimit then .ok none
      else if dto.overrideCreditLimit then .ok (some ⟨row.creditLimit, row.creditBalance⟩)
      else .error (.creditLimitExceeded row.creditLimit row.creditBalance newBalance)

def lockMechanicAndCheckLimit (dto : SaleWrite) : Prog (Option CreditOverride) := do
  let row ← lockMechanic dto.mechanicId
  Tx.ofExcept (checkLimit dto row)

/-- Locks every product on the bill, in id order. A deleted product is locked and left out. -/
def lockProducts (ids : List ProductId) : Prog (List (ProductId × Product)) := do
  let rows ← Tx.selectAll .update LockKey.product (fun p db => (p, db.products.get p))
    (ids.insertionSort fun p q => p ≤ q)
  return rows.filterMap fun r =>
    (r.2.filter fun row => !row.deleted).map fun row => (r.1, row)

/-- Every demand that the locked rows do not meet. -/
def shortLines (demands : List Demand) (locked : List (ProductId × Product)) : List ShortLine :=
  demands.filterMap fun d =>
    match locked.lookup d.productId with
    | none     => some ⟨d.requestedName, some d.productId, none, d.qty⟩
    | some row =>
        if row.stock < d.qty then some ⟨row.name, some d.productId, some row.stock, d.qty⟩
        else none

def assertStock (demands : List Demand) (locked : List (ProductId × Product)) : Prog Unit :=
  Tx.require (shortLines demands locked = []) (.insufficientStock (shortLines demands locked))

/-- `SET stock = stock - … WHERE … AND stock >= … RETURNING stock` -/
def deductOne (d : Demand) : Prog (ProductId × Int) := do
  let row ← Tx.selectFor .update (.product d.productId) fun db => db.products.get d.productId
  let row ← Tx.orFail (row.filter fun row => d.qty ≤ row.stock) .stockUnderflow
  Tx.update fun db => db.modifyProduct d.productId (Product.addStock (-d.qty))
  return (d.productId, row.stock - d.qty)

def deduct (demands : List Demand) : Prog (List (ProductId × Int)) := Tx.collect demands deductOne

/-- A foreign key of the bill: a row that is not there is the client's mistake. -/
def referenceExists (ref : Option Nat) (ℓ : Nat → LockKey) (there : Nat → Db → Bool) : Prog Unit :=
  match ref with
  | none   => return ()
  | some i => do
      let found ← Tx.selectFor .share (ℓ i) (there i)
      Tx.require (found = true) (.badRequest "Unknown reference on this sale (foreign key).")

/-- The header with its lines. -/
def insertSale (x : SaleId) (row : Sale) : Prog Unit := do
  let taken ← Tx.selectFor .update (.sale x) fun db => (db.sales.get x).isSome
  Tx.require (taken = false) .saleIdReused
  let taken ← Tx.selectFor .update (.receiptNo row.receiptNo) fun db =>
    db.receiptTaken row.receiptNo
  Tx.require (taken = false) .receiptNoConflict
  referenceExists row.customerId .customerKey fun c db => (db.customers.get c).isSome
  referenceExists row.mechanicId .mechanicKey fun m db => (db.mechanics.get m).isSome
  Tx.require (row.items.map (·.lineNo)).Nodup .uniqueViolation
  Tx.update fun db => db.insertSale x row

def insertMovements (x : SaleId) (demands : List Demand) (stockAfter : List (ProductId × Int)) :
    Prog (List Movement) :=
  Tx.collect demands fun d => do
    let mv : Movement := ⟨d.productId, -d.qty, .sale, (stockAfter.lookup d.productId).getD 0, some x⟩
    insertMovement mv
    return mv

/-- A negative delta is a discount given to the mechanic … -/
def discountOf (mechanicDelta : Option Int) : Int :=
  let delta := mechanicDelta.getD 0
  if delta < 0 then -delta else 0

/-- … and a positive one a markup. -/
def markupOf (mechanicDelta : Option Int) : Int :=
  let delta := mechanicDelta.getD 0
  if delta > 0 then delta else 0

/-- Only a bill paid with `'เครดิตช่าง'` goes on the tab. -/
def onTab (paymentMethod : PaymentMethod) (total : Int) : Int :=
  if paymentMethod = .mechanicCredit then total else 0

def applyCustomer (dto : SaleWrite) (pointsGranted : Int) : Prog (Option CustomerAfter) :=
  updateCustomer dto.customerId (Customer.move pointsGranted dto.total)

def applyMechanic (dto : SaleWrite) : Prog (Option MechanicAfter) :=
  updateMechanic dto.mechanicId
    (Mechanic.move dto.total (discountOf dto.mechanicDelta) (markupOf dto.mechanicDelta)
      (onTab dto.paymentMethod dto.total))

/-- The bill as it is stored. The cost of a line is that of the locked read. -/
def saleRow (dto : SaleWrite) (receiptNo : DocNo) (shiftId : ShiftId)
    (paymentAccountId : Option AccountId) (locked : List (ProductId × Product)) : Sale :=
  { receiptNo := receiptNo
    subtotal := dto.subtotal
    discount := dto.discount
    total := dto.total
    paymentMethod := dto.paymentMethod
    customerId := dto.customerId
    mechanicId := dto.mechanicId
    mechanicDelta := dto.mechanicDelta
    pointsGranted := pointsFor dto.total
    shiftId := some shiftId
    soldOffline := dto.soldOffline
    paymentAccountId := paymentAccountId
    voided := false
    voidReason := none
    items := dto.items.map fun l =>
      { lineNo := l.lineNo
        productId := l.productId
        name := l.name
        qty := l.qty
        price := l.price
        costAtSale := (locked.lookup l.productId).map (·.cost)
        qty_pos := l.qty_pos } }

/-- The database once the bill is stored, its goods have left and the totals have moved. -/
def Db.recordSale (x : SaleId) (sale : Sale) (moves : List (ProductId × Int)) (db : Db) : Db :=
  (((db.insertSale x sale).moveStock .sale x moves).updateCustomer sale.customerId
    (Customer.move sale.pointsGranted sale.total)).updateMechanic sale.mechanicId
      (Mechanic.move sale.total (discountOf sale.mechanicDelta) (markupOf sale.mechanicDelta)
        (onTab sale.paymentMethod sale.total))

/-- The audit row, and for an offline bill the owner's review item, of a bill past the limit. -/
def Db.noteOverride (dto : SaleWrite) (noted : Bool) (db : Db) : Db :=
  { db with
    auditLog := db.auditLog ++
      if noted then [⟨.creditLimitOverride, dto.mechanicId.getD 0, some dto.id⟩] else []
    reviewItems := db.reviewItems ++
      if noted && dto.soldOffline then [⟨.creditOverride, dto.id⟩] else [] }

def writeSale (env : Env) (actor : Actor) (dto : SaleWrite) : Prog CreateSaleResult := do
  let shiftId ← requireOpenShiftIdFor actor.deviceId
  let paymentAccountId ← resolvePaymentAccount dto
  let override ← lockMechanicAndCheckLimit dto
  let demands := aggregate dto.items
  let locked ← lockProducts (demands.map (·.productId))
  assertStock demands locked
  let stockAfter ← deduct demands
  let receiptNo ← resolveDocNumber env actor.deviceId .receipt dto.receiptNo
  let row := saleRow dto receiptNo shiftId paymentAccountId locked
  insertSale dto.id row
  let movements ← insertMovements dto.id demands stockAfter
  let customer ← applyCustomer dto (pointsFor dto.total)
  let mechanic ← applyMechanic dto
  Tx.update (Db.noteOverride dto (override.isSome && mechanic.isSome))
  return { id := dto.id
           receiptNo := receiptNo
           total := dto.total
           pointsGranted := pointsFor dto.total
           shiftId := some shiftId
           paymentAccountId := paymentAccountId
           products := stockAfter
           items := (row.items.insertionSort fun i j => i.lineNo ≤ j.lineNo).map saleLineOut
           movements := movements
           mechanicAfter := mechanic
           customerAfter := customer }

/-- `SalesService.create` -/
def createSale (env : Env) (actor : Actor) (dto : SaleWrite) : Prog CreateSaleResult := do
  Tx.ofExcept (assertSaleTotals dto.items dto.subtotal dto.discount dto.total)
  let existing ← existingSale dto.id dto.total dto.soldOffline (some dto.items)
  match existing with
  | some r => return r
  | none   => writeSale env actor dto

/-! ## Demands and moves -/

section
variable (items : List SaleLine)

private theorem demand_key (d e : Demand) : (Demand.merge d e).productId = d.productId := rfl

theorem aggregate_perm : (aggregate items).Perm
    (Grouping.collapse Demand.productId Demand.merge
      (items.zipIdx.map fun e => ⟨e.1.productId, e.1.qty, e.1.name, e.2⟩)) :=
  List.perm_insertionSort _ _

theorem nodup_aggregate : ((aggregate items).map Demand.productId).Nodup :=
  ((aggregate_perm items).map _).nodup_iff.mpr (Grouping.nodup_collapse demand_key _)

theorem mem_aggregate {p : ProductId} :
    p ∈ (aggregate items).map Demand.productId ↔ p ∈ items.map SaleLine.productId := by
  rw [((aggregate_perm items).map _).mem_iff, Grouping.mem_collapse demand_key, List.map_map]
  show p ∈ items.zipIdx.map (SaleLine.productId ∘ Prod.fst) ↔ _
  rw [← List.map_map, List.zipIdx_map_fst]

/-- The demands of one product add up to its lines. -/
theorem sum_aggregate (f : ProductId → Int) :
    ((aggregate items).map fun d => f d.productId * d.qty).sum =
      (items.map fun l => f l.productId * l.qty).sum := by
  rw [((aggregate_perm items).map _).sum_eq, Grouping.sum_collapse demand_key ?_, List.map_map]
  · show (items.zipIdx.map ((fun l : SaleLine => f l.productId * l.qty) ∘ Prod.fst)).sum = _
    rw [← List.map_map, List.zipIdx_map_fst]
  · intro d e hde
    show f d.productId * (d.qty + e.qty) = _
    rw [mul_add, hde]

/-- A bill moves each product by what its lines name. -/
theorem shiftOf_saleMoves (p : ProductId) :
    shiftOf (saleMoves items) p = -(items.map fun l => if l.productId = p then l.qty else 0).sum := by
  have h := sum_aggregate items fun q => if q = p then 1 else 0
  simp only [ite_mul, one_mul, zero_mul] at h
  rw [← h, shiftOf, saleMoves, List.map_map, List.sum_neg, List.map_map]
  congr 1
  apply List.map_congr_left
  intro d _
  by_cases hd : d.productId = p <;> simp [hd]

theorem keys_saleMoves : (saleMoves items).map Prod.fst = (aggregate items).map Demand.productId := by
  rw [saleMoves, List.map_map]
  rfl

end

/-! ## What they do -/

section
variable {H : Held LockKey} {s : Db}

/-- A replay changes nothing and answers the bill under the id that was asked for. -/
theorem wp_existingSale {id : SaleId} {total : Int} {soldOffline : Bool}
    {items : Option (List SaleLine)} {Q : Option CreateSaleResult → Held LockKey → Db → Prop}
    (hnone : Q none H s) (hsome : ∀ r, r.id = id → Q (some r) H s) :
    wp (existingSale id total soldOffline items) H s Expected Q := by
  refine wp_bind_glance fun s₀ => ?_
  cases s₀.sales.get id with
  | none => exact hnone
  | some sale =>
      refine wp_bind_require (fun _ => wp_bind_require (fun _ => ?_) fun _ => rfl) fun _ => rfl
      refine wp_bind_glance fun s₁ => wp_bind_glance fun s₂ => wp_bind_glance fun s₃ => ?_
      exact wp_bind_glance fun s₄ => hsome _ rfl

/-- The look-up of the account that was paid to reads, and changes nothing. -/
theorem wp_resolvePaymentAccount {dto : SaleWrite}
    {Q : Option AccountId → Held LockKey → Db → Prop} (h : ∀ a, Q a H s) :
    wp (resolvePaymentAccount dto) H s Expected Q := by
  rw [resolvePaymentAccount]
  split
  · exact h none
  · split
    · exact h none
    · refine wp_bind_glance fun s₀ => ?_
      split
      · exact h _
      · split
        · exact h none
        · rfl

/-- The mechanic's limit is checked on the row that was locked. -/
theorem wp_lockMechanicAndCheckLimit {dto : SaleWrite}
    {Q : Option CreditOverride → Held LockKey → Db → Prop}
    (h : ∀ override H', H ⊆ H' → checkLimit dto (dto.mechanicId.bind s.mechanics.get) = .ok override →
      Q override H' s) :
    wp (lockMechanicAndCheckLimit dto) H s Expected Q := by
  refine (wp_bind _ _).mpr (wp_lockMechanic fun H' hH => ?_)
  refine wp_ofExcept (fun override hover => h override H' hH hover) fun e he => ?_
  cases hrow : dto.mechanicId.bind s.mechanics.get with
  | none =>
      rw [hrow] at he
      cases he
  | some row =>
      rw [hrow] at he
      simp only [checkLimit] at he
      split_ifs at he
      cases he
      rfl

/-- The locked rows are those of the products that are there and not deleted. -/
theorem wp_lockProducts {ids : List ProductId}
    {Q : List (ProductId × Product) → Held LockKey → Db → Prop}
    (h : ∀ locked H', H ⊆ H' → (∀ p ∈ ids, (.product p, .update) ∈ H') →
      (∀ p row, locked.lookup p = some row → s.products.get p = some row ∧ row.deleted = false) →
      Q locked H' s) :
    wp (lockProducts ids) H s Expected Q := by
  refine wp_bind_selectAll (h _ _ (fun lk hlk => mem_lockAll.mpr (.inl hlk)) (fun p hp => ?_) ?_)
  · exact mem_lockAll.mpr (.inr ⟨p, (List.mem_insertionSort _).mpr hp, rfl⟩)
  · intro p row hlook
    obtain ⟨l₁, l₂, heq, -⟩ := List.lookup_eq_some_iff.mp hlook
    have hmem : (p, row) ∈ l₁ ++ (p, row) :: l₂ := by simp
    rw [← heq] at hmem
    simp only [List.mem_filterMap, List.mem_map, Option.map_eq_some_iff, Option.filter_eq_some_iff,
      Prod.mk.injEq] at hmem
    obtain ⟨r, ⟨q, _, rfl⟩, row', ⟨hrow, hdel⟩, rfl, rfl⟩ := hmem
    exact ⟨hrow, by simpa using hdel⟩

theorem covered_of_shortLines {demands : List Demand} {locked : List (ProductId × Product)}
    (h : shortLines demands locked = []) {d : Demand} (hd : d ∈ demands) :
    ∃ row, locked.lookup d.productId = some row ∧ d.qty ≤ row.stock := by
  rw [shortLines, List.filterMap_eq_nil_iff] at h
  have := h d hd
  cases hl : locked.lookup d.productId with
  | none => simp [hl] at this
  | some row =>
      simp only [hl, ite_eq_right_iff, reduceCtorEq, imp_false, not_lt] at this
      exact ⟨row, rfl, this⟩

/-- The deduction leaves the products restocked by what the demands take, and answers the stock
after it for each. -/
theorem wp_deduct {demands : List Demand} {Q : List (ProductId × Int) → Held LockKey → Db → Prop}
    (hkeys : (demands.map Demand.productId).Nodup)
    (hstock : ∀ d ∈ demands, ∃ row, s.products.get d.productId = some row ∧ d.qty ≤ row.stock)
    (h : ∀ after H', H ⊆ H' →
      (∀ d ∈ demands, ∃ row, s.products.get d.productId = some row ∧
        after.lookup d.productId = some (row.stock - d.qty)) →
      Covered agree H' s (s.withProducts
        (Db.restock (demands.map fun d => (d.productId, -d.qty)) s.products)) →
      Q after H' (s.withProducts
        (Db.restock (demands.map fun d => (d.productId, -d.qty)) s.products))) :
    wp (deduct demands) H s Expected Q := by
  refine wp_collect (fun as rest H₁ s₁ => ∃ done, done ++ rest = demands ∧
      as.map Prod.fst = done.map Demand.productId ∧
      (∀ d ∈ done, ∃ row, s.products.get d.productId = some row ∧
        as.lookup d.productId = some (row.stock - d.qty)) ∧
      s₁ = s.withProducts
        (Db.restock (done.map fun d => (d.productId, -d.qty)) s.products) ∧
      H ⊆ H₁ ∧ Covered agree H₁ s s₁)
    ⟨[], rfl, rfl, by simp, rfl, List.Subset.refl _, Covered.refl _ _⟩ ?_ ?_
  -- each product occurs once, so its row is still the one that was checked
  · rintro as d rest H₁ s₁ ⟨done, rfl, has, hafter, rfl, hH, hcov⟩
    have hnew : d.productId ∉ done.map Demand.productId := by
      rw [List.map_append, List.nodup_append] at hkeys
      exact fun hmem => hkeys.2.2 _ hmem _ List.mem_cons_self rfl
    obtain ⟨row, hrow, hle⟩ := hstock d (by simp)
    have hget : (Db.restock (done.map fun d => (d.productId, -d.qty)) s.products).get d.productId =
        some row := by
      have hzero : shiftOf (done.map fun d => (d.productId, -d.qty)) d.productId = 0 :=
        shiftOf_of_notMem _ (by simpa [List.map_map, Function.comp_def] using hnew)
      rw [get_restock, hzero, hrow]
      simp [Product.addStock]
    refine wp_bind_selectFor (wp_bind_orFail (fun row' hrow' => wp_bind_update ?_) fun hnone => ?_)
    · simp only [Db.withProducts] at hrow'
      rw [hget, Option.filter_some, if_pos (by simpa using hle)] at hrow'
      cases hrow'
      refine ⟨done ++ [d], by simp, by simp [has], fun e he => ?_, ?_, ?_, ?_⟩
      · rcases List.mem_append.mp he with he | he
        · obtain ⟨row', hrow', hl⟩ := hafter e he
          exact ⟨row', hrow', by rw [List.lookup_append, hl, Option.some_or]⟩
        · obtain rfl := List.mem_singleton.mp he
          have hno : as.lookup e.productId = none := by
            rw [List.lookup_eq_none_iff]
            intro q hq
            have hq' : q.1 ∈ done.map Demand.productId := has ▸ List.mem_map_of_mem hq
            have hne : e.productId ≠ q.1 := fun heq => hnew (heq ▸ hq')
            simpa using hne
          exact ⟨row, hrow, by simp [List.lookup_append, hno]⟩
      · rw [Db.modifyProduct, List.map_append, Db.restock, Db.restock, List.foldl_append]
        rfl
      · exact List.Subset.trans hH (List.subset_cons_self _ _)
      · exact Covered.modifyProduct (Covered.mono hcov (List.subset_cons_self _ _))
          List.mem_cons_self _
    · -- the row was locked when the stock was checked
      simp only [Db.withProducts] at hnone
      rw [hget, Option.filter_some, if_pos (by simpa using hle)] at hnone
      cases hnone
  · rintro as H' s' ⟨done, hdone, has, hafter, rfl, hH, hcov⟩
    rw [List.append_nil] at hdone
    subst hdone
    exact h as H' hH hafter hcov

/-- A foreign key passes only where its row is there. -/
theorem wp_referenceExists {ref : Option Nat} {ℓ : Nat → LockKey} {there : Nat → Db → Bool}
    {Q : Unit → Held LockKey → Db → Prop}
    (h : ∀ H', H ⊆ H' → (∀ i, ref = some i → there i s = true) → Q () H' s) :
    wp (referenceExists ref ℓ there) H s Expected Q := by
  cases ref with
  | none => exact h H (List.Subset.refl _) (by simp)
  | some i =>
      refine wp_bind_selectFor (wp_require (fun hi => ?_) fun _ => rfl)
      refine h _ (List.subset_cons_self _ _) ?_
      rintro j hj
      cases hj
      exact hi

/-- The bill is new, its number is new, and the rows it names are there. -/
structure SaleInsertable (s : Db) (x : SaleId) (row : Sale) : Prop where
  fresh : s.sales.get x = none
  number : s.receiptTaken row.receiptNo = false
  customer : ∀ c, row.customerId = some c → (s.customers.get c).isSome = true
  mechanic : ∀ m, row.mechanicId = some m → (s.mechanics.get m).isSome = true

/-- A bill is inserted only where its id and its number are free and its references exist. -/
theorem wp_insertSale {x : SaleId} {row : Sale} {Q : Unit → Held LockKey → Db → Prop}
    (hk : ∀ k, row.shiftId = some k → (.shift k, .share) ∈ H)
    (h : ∀ H', H ⊆ H' → SaleInsertable s x row → Covered agree H' s (s.insertSale x row) →
      Q () H' (s.insertSale x row)) :
    wp (insertSale x row) H s Expected Q := by
  refine wp_bind_selectFor (wp_bind_require (fun hx => ?_) fun _ => rfl)
  refine wp_bind_selectFor (wp_bind_require (fun hn => ?_) fun _ => rfl)
  refine (wp_bind _ _).mpr (wp_referenceExists fun H₁ hH₁ hcust => ?_)
  refine (wp_bind _ _).mpr (wp_referenceExists fun H₂ hH₂ hmech => ?_)
  refine wp_bind_require (fun _ => ?_) fun _ => rfl
  have hfresh : s.sales.get x = none := by simpa using hx
  have hsub : ((.receiptNo row.receiptNo, .update) :: (.sale x, .update) :: H) ⊆ H₂ :=
    List.Subset.trans hH₁ hH₂
  refine h H₂ (fun lk hlk => hsub (by simp [hlk])) ⟨hfresh, hn, hcust, hmech⟩ ?_
  exact Covered.insertSale (Covered.refl _ _) hfresh (hsub (by simp)) (hsub (by simp))
    fun k hrk => hsub (by simp [hk k hrk])

/-- The bill's ledger rows, one for each product. -/
theorem wp_insertMovements {x : SaleId} {demands : List Demand} {after : List (ProductId × Int)}
    {t : Table ProductId Product} {Q : List Movement → Held LockKey → Db → Prop}
    (hkeys : (demands.map Demand.productId).Nodup)
    (hlocked : ∀ d ∈ demands, (.product d.productId, .update) ∈ H)
    (hfree : ∀ p, s.movementTaken .sale x p = false)
    (hafter : ∀ d ∈ demands, ∃ row, t.get d.productId = some row ∧
      after.lookup d.productId = some (row.stock - d.qty))
    (h : ∀ mvs H', H ⊆ H' →
      Covered agree H' s (s.appendMovements
        (Db.ledgerRows .sale x (demands.map fun d => (d.productId, -d.qty)) t)) →
      Q mvs H' (s.appendMovements
        (Db.ledgerRows .sale x (demands.map fun d => (d.productId, -d.qty)) t))) :
    wp (insertMovements x demands after) H s Expected Q := by
  refine wp_collect (fun _ rest H₁ s₁ => ∃ done, done ++ rest = demands ∧
      s₁ = s.appendMovements
        (Db.ledgerRows .sale x (done.map fun d => (d.productId, -d.qty)) t) ∧
      H ⊆ H₁ ∧ Covered agree H₁ s s₁)
    ⟨[], rfl, by simp [Db.ledgerRows, Db.appendMovements], List.Subset.refl _, Covered.refl _ _⟩
    ?_ ?_
  · rintro as d rest H₁ s₁ ⟨done, rfl, rfl, hH, hcov⟩
    have hnew : d.productId ∉ done.map Demand.productId := by
      rw [List.map_append, List.nodup_append] at hkeys
      exact fun hmem => hkeys.2.2 _ hmem _ List.mem_cons_self rfl
    obtain ⟨row, hrow, hlook⟩ := hafter d (by simp)
    refine (wp_bind _ _).mpr (wp_insertMovement ?_ ⟨done ++ [d], by simp, ?_, hH, ?_⟩)
    · -- the rows written so far are of other products
      have hrest : (Db.ledgerRows .sale x (done.map fun d => (d.productId, -d.qty)) t).filter
          (fun m => m.productId = d.productId) = [] := by
        rw [List.filter_eq_nil_iff]
        intro mv hmv
        simp only [Db.ledgerRows, List.mem_filterMap, List.mem_map, Option.map_eq_some_iff] at hmv
        obtain ⟨m, ⟨e, he, rfl⟩, row', _, rfl⟩ := hmv
        have hne : e.productId ≠ d.productId := fun heq => hnew (heq ▸ List.mem_map_of_mem he)
        simpa using hne
      have := hfree d.productId
      rw [Db.movementTaken, Db.movementsOf] at this
      simp only [Db.movementDup, Db.movementTaken, Db.movementsOf, Db.appendMovements,
        List.filter_append, hrest, List.append_nil]
      exact this
    · have hsingle : Db.ledgerRows .sale x [(d.productId, -d.qty)] t =
          [⟨d.productId, -d.qty, .sale, (after.lookup d.productId).getD 0, some x⟩] := by
        simp only [Db.ledgerRows, List.filterMap_cons, List.filterMap_nil, hrow, hlook,
          Option.map_some, Option.getD_some, sub_eq_add_neg]
      simp only [Db.addMovement, Db.appendMovements]
      rw [List.append_assoc, ← hsingle, List.map_append, Db.ledgerRows,
        Db.ledgerRows, ← List.filterMap_append]
      rfl
    · exact Covered.addMovement hcov (hH (hlocked d (by simp)))
  · rintro as H' s' ⟨done, hdone, rfl, hH, hcov⟩
    rw [List.append_nil] at hdone
    subst hdone
    exact h as H' hH hcov

/-- What a bill has met when it is written as `row` in the drawer `k`. -/
structure SaleAdmitted (actor : Actor) (dto : SaleWrite) (s : Db) (k : ShiftId) (row : Sale) :
    Prop where
  totals : assertSaleTotals dto.items dto.subtotal dto.discount dto.total = .ok ()
  drawer : ∃ shift, s.shifts.get k = some shift ∧ shift.isOpenOn actor.deviceId = true
  insertable : SaleInsertable s dto.id row
  stock : ∀ d ∈ aggregate dto.items, ∃ p, s.products.get d.productId = some p ∧
    p.deleted = false ∧ d.qty ≤ p.stock
  limit : ∃ override, checkLimit dto (dto.mechanicId.bind s.mechanics.get) = .ok override
  stored : ∃ n account locked, row = saleRow dto n k account locked

/-- A bill on credit that takes its mechanic past the limit. -/
def Sale.pastLimit (db : Db) (sale : Sale) : Bool :=
  (sale.mechanicId.bind db.mechanics.get).any fun row =>
    decide (sale.paymentMethod = .mechanicCredit ∧
      row.creditLimit < row.creditBalance + sale.total)

/-- What the limit check finds, and whether it lets the bill pass on the flag. -/
theorem of_checkLimit {dto : SaleWrite} {o : Option CreditOverride} {db : Db} {n : DocNo}
    {k : ShiftId} {account : Option AccountId} {locked : List (ProductId × Product)}
    (h : checkLimit dto (dto.mechanicId.bind db.mechanics.get) = .ok o) :
    (saleRow dto n k account locked).pastLimit db =
        (o.isSome && (dto.mechanicId.bind db.mechanics.get).isSome) ∧
      ((saleRow dto n k account locked).pastLimit db = true → dto.overrideCreditLimit = true) := by
  unfold Sale.pastLimit
  show ((dto.mechanicId.bind db.mechanics.get).any fun row =>
    decide (dto.paymentMethod = .mechanicCredit ∧
      row.creditLimit < row.creditBalance + dto.total)) = _ ∧
    (((dto.mechanicId.bind db.mechanics.get).any fun row =>
      decide (dto.paymentMethod = .mechanicCredit ∧
        row.creditLimit < row.creditBalance + dto.total)) = true → _)
  cases hrow : dto.mechanicId.bind db.mechanics.get with
  | none => simp
  | some row =>
      rw [hrow] at h
      simp only [checkLimit] at h
      split_ifs at h with hwithin hflag
      · cases h
        have hnot : ¬(dto.paymentMethod = .mechanicCredit ∧
            row.creditLimit < row.creditBalance + dto.total) := by
          rintro ⟨hmethod, hlt⟩
          rcases hwithin with hother | hle
          · exact hother hmethod
          · omega
        rw [Option.any_some, decide_eq_false hnot]
        exact ⟨rfl, fun h => by cases h⟩
      · cases h
        have hpast : dto.paymentMethod = .mechanicCredit ∧
            row.creditLimit < row.creditBalance + dto.total := by
          constructor
          · by_contra hother
            exact hwithin (.inl hother)
          · by_contra hle
            exact hwithin (.inr (by omega))
        rw [Option.any_some, decide_eq_true hpast]
        exact ⟨rfl, fun _ => hflag⟩

/-- What `SalesService.create` does: it replays a bill, or it writes one. -/
inductive SaleCreated (actor : Actor) (dto : SaleWrite) (s : Db) :
    CreateSaleResult → Db → Prop where
  | replay (r : CreateSaleResult) : r.id = dto.id → SaleCreated actor dto s r s
  | written (r : CreateSaleResult) (k : ShiftId) (row : Sale)
      (c : DeviceId × DocType × Period) (v : Nat) (noted : Bool) :
      SaleAdmitted actor dto s k row → noted = row.pastLimit s → r.id = dto.id →
      SaleCreated actor dto s r
        (((s.setCounter c v).recordSale dto.id row (saleMoves dto.items)).noteOverride dto noted)

theorem view_noteOverride (lk : LockKey × Mode) (db : Db) (dto : SaleWrite) (noted : Bool) :
    view lk (db.noteOverride dto noted) = view lk db := by
  obtain ⟨ℓ, m⟩ := lk
  cases ℓ <;> cases m <;> rfl

/-- **The specification of the body of a sale**: stock, customer, mechanic and bill, all under their locks. -/
theorem wp_writeSale {env : Env} {actor : Actor} {dto : SaleWrite} (hs : s.Consistent)
    (htotals : assertSaleTotals dto.items dto.subtotal dto.discount dto.total = .ok ()) :
    wp (writeSale env actor dto) H s Expected fun r H' s' =>
      SaleCreated actor dto s r s' ∧ Covered agree H' s s' := by
  have hkeys := nodup_aggregate dto.items
  refine (wp_bind _ _).mpr (wp_requireOpenShiftIdFor fun k shift H₁ _ hk hshift hopen => ?_)
  refine (wp_bind _ _).mpr (wp_resolvePaymentAccount fun account => ?_)
  refine (wp_bind _ _).mpr (wp_lockMechanicAndCheckLimit fun override H₂ hH₂ hlimit => ?_)
  refine (wp_bind _ _).mpr (wp_lockProducts fun locked H₃ hH₃ hheld hlocked => ?_)
  refine wp_bind_require (fun hshort => ?_) fun _ => rfl
  -- the demand of every product is met by the row that was locked
  have hstock : ∀ d ∈ aggregate dto.items, ∃ p, s.products.get d.productId = some p ∧
      p.deleted = false ∧ d.qty ≤ p.stock := by
    intro d hd
    obtain ⟨p, hp, hle⟩ := covered_of_shortLines hshort hd
    exact ⟨p, (hlocked _ _ hp).1, (hlocked _ _ hp).2, hle⟩
  have henough : ∀ d ∈ aggregate dto.items, ∃ p, s.products.get d.productId = some p ∧
      d.qty ≤ p.stock := by
    intro d hd
    obtain ⟨p, hp, -, hle⟩ := hstock d hd
    exact ⟨p, hp, hle⟩
  refine (wp_bind _ _).mpr (wp_deduct hkeys henough fun after H₄ hH₄ hafter hcov₄ => ?_)
  refine (wp_bind _ _).mpr (wp_resolveDocNumber fun n c v => ?_)
  have hsub : H₁ ⊆ (.counter c, .update) :: H₄ := fun lk hlk =>
    List.mem_cons_of_mem _ (hH₄ (hH₃ (hH₂ hlk)))
  have hcov₅ := Covered.setCounter (Covered.mono hcov₄ (List.subset_cons_self _ _))
    List.mem_cons_self (c := c) v
  refine (wp_bind _ _).mpr (wp_insertSale ?_ fun H₆ hH₆ hins hcov₆ => ?_)
  · rintro k' hk'
    cases hk'
    exact hsub hk
  -- all that has been checked so far is what admits the bill
  have hadm : SaleAdmitted actor dto s k (saleRow dto n k account locked) :=
    ⟨htotals, ⟨shift, hshift, hopen⟩, ⟨hins.fresh, hins.number, hins.customer, hins.mechanic⟩,
      hstock, ⟨override, hlimit⟩, n, account, locked, rfl⟩
  refine (wp_bind _ _).mpr (wp_insertMovements (t := s.products) hkeys (fun d hd => ?_)
    (hs.sale_free hins.fresh) hafter fun mvs H₇ hH₇ hcov₇ => ?_)
  · exact hH₆ (List.mem_cons_of_mem _ (hH₄ (hheld _ (List.mem_map_of_mem hd))))
  -- the ledger rows complete the deduction to one move of stock
  have hmoved : (((s.withProducts (Db.restock
        ((aggregate dto.items).map fun d => (d.productId, -d.qty)) s.products)).setCounter c
        v).insertSale dto.id (saleRow dto n k account locked)).appendMovements
          (Db.ledgerRows .sale dto.id ((aggregate dto.items).map fun d => (d.productId, -d.qty))
            s.products) =
      ((s.setCounter c v).insertSale dto.id (saleRow dto n k account locked)).moveStock .sale
        dto.id (saleMoves dto.items) := by
    rw [moveStock_eq _ _ _ _ (by rw [keys_saleMoves]; exact hkeys)]
    rfl
  rw [hmoved] at hcov₇ ⊢
  have hcov : Covered agree H₇ s _ := Covered.trans
    (Covered.mono (Covered.trans (Covered.mono hcov₅ hH₆) hcov₆) hH₇) hcov₇
  refine (wp_bind _ _).mpr (wp_updateCustomer fun cust H₈ hH₈ hcov₈ => ?_)
  refine (wp_bind _ _).mpr (wp_updateMechanic fun mech H₉ hmech hH₉ hcov₉ => ?_)
  have hcov' : Covered agree H₉ s _ := Covered.trans
    (Covered.mono (Covered.trans (Covered.mono hcov hH₈) hcov₈) hH₉) hcov₉
  -- the mechanics' rows are still those the limit was checked against
  have hrows : (((s.setCounter c v).insertSale dto.id (saleRow dto n k account locked)).moveStock
      .sale dto.id (saleMoves dto.items)).mechanics = s.mechanics := by
    rw [moveStock_eq _ _ _ _ (by rw [keys_saleMoves]; exact hkeys)]
    rfl
  have hnoted : (override.isSome && mech.isSome) = (saleRow dto n k account locked).pastLimit s := by
    rw [(of_checkLimit hlimit).1, hmech]
    show _ = (override.isSome && (dto.mechanicId.bind s.mechanics.get).isSome)
    rw [← hrows]
    rfl
  refine ⟨.written _ k _ c v _ hadm hnoted rfl, ?_⟩
  exact Covered.of_view hcov' fun lk db => view_noteOverride lk db dto _

/-- **Specification of a bill.** -/
theorem wp_createSale {env : Env} {actor : Actor} {dto : SaleWrite} (hs : s.Consistent) :
    wp (createSale env actor dto) H s Expected fun r H' s' =>
      SaleCreated actor dto s r s' ∧ Covered agree H' s s' := by
  refine wp_bind_ofExcept (fun _ htotals => ?_) fun e he => ?_
  · refine (wp_bind _ _).mpr (wp_existingSale ?_ fun r hr => ?_)
    · exact wp_writeSale hs htotals
    · exact ⟨.replay r hr, Covered.refl _ _⟩
  · simp only [assertSaleTotals] at he
    split_ifs at he
    cases he
    rfl

/-! ## Their locks -/

theorem disciplined_existingSale (id : SaleId) (total : Int) (soldOffline : Bool)
    (items : Option (List SaleLine)) :
    Disciplined agree (existingSale id total soldOffline items) H fun _ _ => True := by
  refine disciplined_bind_glance fun row => ?_
  cases row with
  | none => trivial
  | some sale =>
      refine disciplined_bind_require fun _ => disciplined_bind_require fun _ => ?_
      refine disciplined_bind_glance fun _ => disciplined_bind_glance fun _ => ?_
      exact disciplined_bind_glance fun _ => disciplined_bind_glance fun _ => trivial

theorem disciplined_resolvePaymentAccount (dto : SaleWrite) :
    Disciplined agree (resolvePaymentAccount dto) H fun _ _ => True := by
  rw [resolvePaymentAccount]
  split
  · trivial
  · split
    · trivial
    · refine disciplined_bind_glance fun there => ?_
      split
      · trivial
      · split <;> trivial

theorem disciplined_lockMechanicAndCheckLimit (dto : SaleWrite) :
    Disciplined agree (lockMechanicAndCheckLimit dto) H fun _ _ => True :=
  Disciplined.seq (disciplined_lockMechanic _) fun _ _ _ _ => disciplined_ofExcept fun _ _ => trivial

theorem disciplined_lockProducts (ids : List ProductId) :
    Disciplined agree (lockProducts ids) H fun _ H' => ∀ p ∈ ids, (.product p, .update) ∈ H' := by
  refine disciplined_bind_selectAll (fun p _ s s' hs => by rw [product_of_agree s s' hs]) ?_
  intro rows p hp
  exact mem_lockAll.mpr (.inr ⟨p, (List.mem_insertionSort _).mpr hp, rfl⟩)

theorem disciplined_deduct (demands : List Demand) :
    Disciplined agree (deduct demands) H fun _ _ => True := by
  refine disciplined_collect (fun _ => True) trivial (fun d _ H _ => ?_) fun _ _ _ => trivial
  refine disciplined_bind_selectFor product_of_agree fun row => disciplined_bind_orFail fun _ _ => ?_
  exact ⟨respects_modifyProduct _ _, trivial⟩

theorem disciplined_referenceExists {ref : Option Nat} {ℓ : Nat → LockKey}
    {there : Nat → Db → Bool}
    (h : ∀ i s s', agree (ℓ i, .share) s s' → there i s = there i s') :
    Disciplined agree (referenceExists ref ℓ there) H fun _ _ => True := by
  cases ref with
  | none => trivial
  | some i => exact disciplined_bind_selectFor (h i) fun _ => disciplined_require fun _ => trivial

theorem disciplined_insertSale (x : SaleId) (row : Sale) :
    Disciplined agree (insertSale x row) H fun _ _ => True := by
  refine disciplined_bind_selectFor (fun s s' hs => ?_) fun _ => disciplined_bind_require fun _ => ?_
  · rw [(View.sale.inj hs).1]
  refine disciplined_bind_selectFor (fun s s' hs => View.present.inj hs) fun _ => ?_
  refine disciplined_bind_require fun _ => ?_
  refine Disciplined.seq (disciplined_referenceExists fun i s s' hs => View.present.inj hs) ?_
  intro _ H₁ hH₁ _
  refine Disciplined.seq (disciplined_referenceExists fun i s s' hs => View.present.inj hs) ?_
  intro _ H₂ hH₂ _
  refine disciplined_bind_require fun _ => ⟨respects_insertSale ?_, trivial⟩
  exact hH₂ (hH₁ (by simp))

theorem disciplined_insertMovements {x : SaleId} {demands : List Demand}
    {after : List (ProductId × Int)}
    (hlocked : ∀ d ∈ demands, (.product d.productId, .update) ∈ H) :
    Disciplined agree (insertMovements x demands after) H fun _ _ => True := by
  refine disciplined_collect (fun H' => H ⊆ H') (List.Subset.refl _) (fun d hd H' hH => ?_)
    fun _ _ _ => trivial
  refine Disciplined.seq (disciplined_insertMovement (hH (hlocked d hd))) fun _ H'' hH' _ => ?_
  exact List.Subset.trans hH hH'

/-- The sale bases every write on a row that it has locked. -/
theorem disciplined_writeSale (env : Env) (actor : Actor) (dto : SaleWrite) :
    Disciplined agree (writeSale env actor dto) H fun _ _ => True := by
  refine Disciplined.seq (disciplined_requireOpenShiftIdFor _) fun k H₁ _ _ => ?_
  refine Disciplined.seq (disciplined_resolvePaymentAccount _) fun account H₂ _ _ => ?_
  refine Disciplined.seq (disciplined_lockMechanicAndCheckLimit _) fun override H₃ _ _ => ?_
  refine Disciplined.seq (disciplined_lockProducts _) fun locked H₄ _ hlocked => ?_
  refine disciplined_bind_require fun _ => ?_
  refine Disciplined.seq (disciplined_deduct _) fun after H₅ hH₅ _ => ?_
  refine Disciplined.seq (disciplined_resolveDocNumber _ _ _ _) fun n H₆ hH₆ _ => ?_
  refine Disciplined.seq (disciplined_insertSale _ _) fun _ H₇ hH₇ _ => ?_
  refine Disciplined.seq (disciplined_insertMovements fun d hd => ?_) fun mvs H₈ _ _ => ?_
  · exact hH₇ (hH₆ (hH₅ (hlocked _ (List.mem_map_of_mem hd))))
  refine Disciplined.seq (disciplined_updateCustomer _ _) fun cust H₉ _ _ => ?_
  refine Disciplined.seq (disciplined_updateMechanic _ _) fun mech H₁₀ _ _ => ?_
  exact ⟨respects_of_view fun lk db => view_noteOverride lk db dto _, trivial⟩

theorem disciplined_createSale (env : Env) (actor : Actor) (dto : SaleWrite) :
    Disciplined agree (createSale env actor dto) H fun _ _ => True := by
  refine disciplined_bind_ofExcept fun _ _ => ?_
  refine Disciplined.seq (disciplined_existingSale _ _ _ _) fun existing H' _ _ => ?_
  cases existing with
  | some r => trivial
  | none => exact disciplined_writeSale env actor dto

end

end Server

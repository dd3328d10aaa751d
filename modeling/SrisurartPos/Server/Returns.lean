import SrisurartPos.Server.Sales

/-! # Credit notes (`returns.service.ts`, `returns.dto.ts`)

A credit note locks its bill, so that two notes against one bill run one after the other; it is
priced by the bill, bounded by what the bill sold and what earlier notes took back, and it voids the
bill once every unit on it has come back. -/

namespace Server

open Txn

/-! ## The body -/

@[ext]
structure ReturnLine where
  productId : ProductId
  name : String
  qty : Int
  price : Int
  originalQty : Option Int
  qty_pos : 0 < qty
  deriving Repr

instance : DecidableEq ReturnLine := fun _ _ => decidable_of_iff _ ReturnLine.ext_iff.symm

structure ReturnWrite where
  id : Option ReturnId
  saleId : SaleId
  cnNo : Option DocNo
  refundMethod : RefundMethod
  items : List ReturnLine

/-- The three methods the Returns screen offers. -/
def RefundMethod.offered : RefundMethod → Bool
  | .cash | .transfer | .deductFromCredit => true
  | .other _                              => false

def parseReturnLine (l : ReturnLine) : Except ServerError Unit := do
  check (l.qty ≤ maxLineQty) "items[].qty must be a positive integer"
  check (0 ≤ l.price) "items[].price must not be negative"
  check (0 ≤ l.originalQty.getD 0) "items[].originalQty must be a non-negative integer"

/-- What the parser refuses of a body whose fields have the right types. -/
def parseCreateReturn (dto : ReturnWrite) : Except ServerError Unit := do
  parseItemsArray dto.items
  check (dto.refundMethod.offered = true) "refundMethod must be one of เงินสด, โอน, หักจากเครดิต"
  dto.items.forM parseReturnLine

/-- How much of one product at one price the note takes back. -/
@[ext]
structure ReturnDemand where
  productId : ProductId
  qty : Int
  price : Int
  originalQty : Option Int
  requestedName : String
  firstLineIndex : Nat
  qty_pos : 0 < qty
  deriving Repr

instance : DecidableEq ReturnDemand := fun _ _ => decidable_of_iff _ ReturnDemand.ext_iff.symm

/-- `priceKey` -/
def ReturnDemand.key (d : ReturnDemand) : ProductId × Int := (d.productId, d.price)

def ReturnDemand.merge (d e : ReturnDemand) : ReturnDemand :=
  { d with qty := d.qty + e.qty, qty_pos := add_pos d.qty_pos e.qty_pos }

/-- One demand for each product and price, in the order the lines were asked for. -/
def aggregateReturn (items : List ReturnLine) : List ReturnDemand :=
  (Grouping.collapse ReturnDemand.key ReturnDemand.merge
    (items.zipIdx.map fun e =>
      ⟨e.1.productId, e.1.qty, e.1.price, e.1.originalQty, e.1.name, e.2, e.1.qty_pos⟩)).insertionSort
        fun d e => d.firstLineIndex ≤ e.firstLineIndex

/-! ## What the bill sold, and what its notes took back -/

/-- `soldLines(…).qtyByProduct`, as `SUM(qty) … GROUP BY` has it. -/
def soldQty (items : List SaleItem) (p : ProductId) : Int :=
  (items.map fun i => if i.productId = p then i.qty else 0).sum

/-- `soldLines(…).byPrice` -/
def soldQtyAt (items : List SaleItem) (p : ProductId) (price : Int) : Int :=
  (items.map fun i => if i.productId = p ∧ i.price = price then i.qty else 0).sum

def onBill (items : List SaleItem) (p : ProductId) : Bool := items.any fun i => i.productId = p

def onBillAt (items : List SaleItem) (p : ProductId) (price : Int) : Bool :=
  items.any fun i => i.productId = p && i.price = price

/-- `soldLines(…).pricesByProduct` -/
def pricesOf (items : List SaleItem) (p : ProductId) : List Int :=
  (Grouping.collapse id (fun a _ => a)
    ((items.filter fun i => i.productId = p).map (·.price))).insertionSort (· ≤ ·)

/-- The cost of the first line of its product and price. -/
def soldCost (items : List SaleItem) (p : ProductId) (price : Int) : Option Int :=
  ((items.insertionSort fun i j => i.lineNo ≤ j.lineNo).find? fun i =>
    i.productId = p && i.price = price).bind (·.costAtSale)

/-- The lines of the notes against a bill. -/
def noteLines (notes : List Return) : List ReturnItem := notes.flatMap (·.items)

/-- `refundedSoFar(…).byProduct` -/
def refundedQty (lines : List ReturnItem) (p : ProductId) : Int :=
  (lines.map fun i => if i.productId = p then i.qty else 0).sum

/-- `refundedSoFar(…).byPrice` -/
def refundedQtyAt (lines : List ReturnItem) (p : ProductId) (price : Int) : Int :=
  (lines.map fun i => if i.productId = p ∧ i.price = price then i.qty else 0).sum

def soldTotal (items : List SaleItem) : Int := (items.map (·.qty)).sum

def refundedTotal (lines : List ReturnItem) : Int := (lines.map (·.qty)).sum

/-! ## Guards and amounts -/

/-- A line priced at something this bill never charged. -/
def mispriced (demands : List ReturnDemand) (items : List SaleItem) : List MispricedLine :=
  (demands.filter fun d => onBill items d.productId && !onBillAt items d.productId d.price).map
    fun d => ⟨d.productId, d.price, pricesOf items d.productId⟩

/-- What is left to refund of a product at a price, and never above what the product has left. -/
def remaining (items : List SaleItem) (lines : List ReturnItem) (d : ReturnDemand) : Int :=
  min (soldQtyAt items d.productId d.price - refundedQtyAt lines d.productId d.price)
    (soldQty items d.productId - refundedQty lines d.productId)

def overLines (demands : List ReturnDemand) (items : List SaleItem) (lines : List ReturnItem) :
    List OverLine :=
  demands.filterMap fun d =>
    if onBillAt items d.productId d.price = false then some ⟨d.requestedName, none, d.qty⟩
    else if d.qty > remaining items lines d then
      some ⟨d.requestedName, some (remaining items lines d), d.qty⟩
    else none

/-- Price before quantity, each built whole. -/
def assertRefundable (demands : List ReturnDemand) (items : List SaleItem)
    (lines : List ReturnItem) : Except ServerError Unit :=
  if mispriced demands items ≠ [] then .error (.returnPriceMismatch (mispriced demands items))
  else if overLines demands items lines ≠ [] then .error (.overRefund (overLines demands items lines))
  else .ok ()

structure RefundAmounts where
  refundSubtotal : Int
  refundDiscount : Int
  refundTotal : Int
  saleTotal : Int
  deriving DecidableEq, Repr

def refundSubtotalOf (demands : List ReturnDemand) : Int :=
  (demands.map fun d => d.qty * d.price).sum

/-- The note carries the bill's discount at the rate it was given. -/
def refundAmounts (demands : List ReturnDemand) (sale : Sale) : RefundAmounts :=
  let refundSubtotal := refundSubtotalOf demands
  let refundDiscount :=
    if sale.subtotal > 0 then Rounding.roundDiv (refundSubtotal * sale.discount) sale.subtotal else 0
  ⟨refundSubtotal, refundDiscount, refundSubtotal - refundDiscount, sale.total⟩

/-- The points a note takes back: the bill's, in the proportion of the refund, rounded down. A bill
that recorded none falls back to what its total would have earned. -/
def pointsToReverse (sale : Sale) (money : RefundAmounts) : Int :=
  let basePoints := if sale.pointsGranted > 0 then sale.pointsGranted else money.saleTotal / 1000
  if money.saleTotal > 0 then basePoints * money.refundTotal / money.saleTotal else 0

/-- The part of an amount of the bill that a note stands for. -/
def inProportion (money : RefundAmounts) (satang : Int) : Int :=
  if money.saleTotal > 0 then Rounding.roundDiv (satang * money.refundTotal) money.saleTotal else 0

/-- `total_discount || total_credit` -/
def Mechanic.discountBase (m : Mechanic) : Int :=
  if m.totalDiscount ≠ 0 then m.totalDiscount else m.totalCredit

/-- What a note changes on the mechanic. The discount is assigned, from `base`; the tab moves for a
deduction from credit only. -/
def Mechanic.refund (sale : Sale) (method : RefundMethod) (money : RefundAmounts) (base : Int)
    (m : Mechanic) : Mechanic :=
  let reverseCredit := inProportion money (discountOf sale.mechanicDelta)
  let reverseMarkup := inProportion money (markupOf sale.mechanicDelta)
  let reduceBalance := if method = .deductFromCredit then money.refundTotal else 0
  { m with
    totalSales := max 0 (m.totalSales - money.refundTotal)
    totalDiscount := max 0 (base - reverseCredit)
    totalMarkup := max 0 (m.totalMarkup - reverseMarkup)
    creditBalance := max 0 (m.creditBalance - reduceBalance) }

/-! ## The service -/

/-- `insertLines` stored one row for each demand, in their order. -/
def sameLines (lines : List ReturnItem) (demands : List ReturnDemand) : Bool :=
  (lines.insertionSort fun i j => i.lineNo ≤ j.lineNo).map (fun i => (i.productId, i.qty, i.price)) =
    demands.map fun d => (d.productId, d.qty, d.price)

/-- The credit note already stored under this id, replayed, or none. -/
def existingReturn (r : ReturnId) (dto : ReturnWrite) : Prog (Option CreateReturnResult) := do
  let row ← Tx.glance fun db => db.returns.get r
  match row with
  | none      => return none
  | some note => do
      let demands := aggregateReturn dto.items
      Tx.require (note.saleId = dto.saleId ∧ note.refundMethod = dto.refundMethod ∧
        sameLines note.items demands = true) (.clientIdReused r)
      let productIds := Grouping.collapse id (fun p _ => p) (demands.map (·.productId))
      let products ← Tx.glance fun db : Db => productIds.filterMap fun p =>
        (db.products.get p).map fun row => (p, row.stock)
      let movements ← Tx.glance fun db : Db => productIds.filterMap fun p =>
        (db.movementsOf p).find? fun m => m.type = .creditNote && m.refId = some r
      let saleVoided ← Tx.glance fun db => (db.sales.get note.saleId).any (·.voided)
      let customer ← Tx.glance fun db => note.customerId.bind fun c =>
        (db.customers.get c).map (customerAfter c)
      let mechanic ← Tx.glance fun db => note.mechanicId.bind fun m =>
        (db.mechanics.get m).map (mechanicAfter m)
      return some ⟨r, note, saleVoided, products, movements, customer, mechanic⟩

/-- The bill, locked for the rest of the transaction. -/
def lockSale (x : SaleId) : Prog Sale := do
  let row ← Tx.selectFor .update (.sale x) fun db => db.sales.get x
  let sale ← Tx.orFail row .saleNotFound
  Tx.require (sale.voided = false) .saleVoided
  return sale

/-- A cash refund needs an open drawer, any other takes the one there is. -/
def refundShift (d : DeviceId) (method : RefundMethod) : Prog (Option ShiftId) :=
  if method = .cash then do
    let k ← requireOpenShiftIdFor d
    return some k
  else currentShiftIdFor d

/-- Locks every product of the note that is there, deleted ones included, in id order. -/
def lockReturned (ids : List ProductId) : Prog (List ProductId) := do
  let rows ← Tx.selectAll .update LockKey.product (fun p db => (p, (db.products.get p).isSome))
    (ids.insertionSort fun p q => p ≤ q)
  return (rows.filter (·.2)).map (·.1)

/-- The note's lines, numbered from 1, each with the cost of its line on the bill. -/
def noteItems (demands : List ReturnDemand) (items : List SaleItem) : List ReturnItem :=
  demands.zipIdx.map fun e =>
    { lineNo := e.2 + 1
      productId := e.1.productId
      name := e.1.requestedName
      qty := e.1.qty
      price := e.1.price
      originalQty := e.1.originalQty
      costAtSale := soldCost items e.1.productId e.1.price
      qty_pos := e.1.qty_pos }

/-- The note as it is stored. -/
def noteRow (dto : ReturnWrite) (sale : Sale) (cnNo : DocNo) (shiftId : Option ShiftId) : Return :=
  let demands := aggregateReturn dto.items
  let money := refundAmounts demands sale
  { cnNo := cnNo
    saleId := dto.saleId
    refundSubtotal := money.refundSubtotal
    refundDiscount := money.refundDiscount
    refundTotal := money.refundTotal
    refundMethod := dto.refundMethod
    customerId := sale.customerId
    mechanicId := sale.mechanicId
    shiftId := shiftId
    items := noteItems demands sale.items }

/-- The header with its lines. The rows it refers to are those of the bill it holds locked. -/
def insertReturn (r : ReturnId) (note : Return) : Prog Unit := do
  let taken ← Tx.selectFor .update (.creditNote r) fun db => (db.returns.get r).isSome
  Tx.require (taken = false) (.clientIdReused r)
  let taken ← Tx.selectFor .update (.cnNo note.cnNo) fun db => db.cnTaken note.cnNo
  Tx.require (taken = false) .receiptNoConflict
  Tx.update fun db => db.insertReturn r note

/-- What a note puts back on the shelf, one entry for each product. -/
def returnMoves (demands : List ReturnDemand) : List (ProductId × Int) :=
  groupMoves (demands.map fun d => (d.productId, d.qty))

def restoreStock (r : ReturnId) (demands : List ReturnDemand) (alive : List ProductId) :
    Prog (List Movement) := do
  let movements ← Tx.collect ((returnMoves demands).filter fun m => decide (m.1 ∈ alive))
    (restoreOne .creditNote r)
  return movements.filterMap id

def reverseCustomer (sale : Sale) (money : RefundAmounts) : Prog (Option CustomerAfter) :=
  updateCustomer sale.customerId (Customer.move (-pointsToReverse sale money) (-money.refundTotal))

def reverseMechanic (sale : Sale) (mechanic : Option Mechanic) (method : RefundMethod)
    (money : RefundAmounts) : Prog (Option MechanicAfter) :=
  match mechanic with
  | none     => return none
  | some row => updateMechanic sale.mechanicId (Mechanic.refund sale method money row.discountBase)

/-- Voids the bill once every unit on it has come back. -/
def autoVoid (x : SaleId) (items : List SaleItem) : Prog Bool := do
  let notes ← Tx.query fun db => db.notesOf x
  if refundedTotal (noteLines notes) < soldTotal items then return false
  else do
    Tx.update fun db => db.modifySale x fun sale => { sale with voided := true }
    return true

def writeReturn (env : Env) (actor : Actor) (dto : ReturnWrite) : Prog CreateReturnResult := do
  let sale ← lockSale dto.saleId
  Tx.require (¬(dto.refundMethod = .deductFromCredit ∧ sale.mechanicId = none))
    .refundMethodNotAllowed
  let notes ← Tx.query fun db => db.notesOf dto.saleId
  let demands := aggregateReturn dto.items
  Tx.ofExcept (assertRefundable demands sale.items (noteLines notes))
  let money := refundAmounts demands sale
  let shiftId ← refundShift actor.deviceId dto.refundMethod
  let mechanic ← lockMechanic sale.mechanicId
  let alive ← lockReturned (demands.map (·.productId))
  let cnNo ← resolveDocNumber env actor.deviceId .cn dto.cnNo
  let returnId := dto.id.getD env.newUuid
  let note := noteRow dto sale cnNo shiftId
  insertReturn returnId note
  let movements ← restoreStock returnId demands alive
  let customer ← reverseCustomer sale money
  let mechanicAfter ← reverseMechanic sale mechanic dto.refundMethod money
  let saleVoided ← autoVoid dto.saleId sale.items
  return ⟨returnId, note, saleVoided, movements.map fun m => (m.productId, m.stockAfter), movements,
    customer, mechanicAfter⟩

/-- `ReturnsService.create` -/
def createReturn (env : Env) (actor : Actor) (dto : ReturnWrite) : Prog CreateReturnResult :=
  match dto.id with
  | none   => writeReturn env actor dto
  | some r => do
      let existing ← existingReturn r dto
      match existing with
      | some res => return res
      | none     => writeReturn env actor dto

/-! ## Demands and moves -/

section
variable (items : List ReturnLine)

private theorem returnDemand_key (d e : ReturnDemand) :
    (ReturnDemand.merge d e).key = d.key := rfl

theorem aggregateReturn_perm : (aggregateReturn items).Perm
    (Grouping.collapse ReturnDemand.key ReturnDemand.merge
      (items.zipIdx.map fun e =>
        ⟨e.1.productId, e.1.qty, e.1.price, e.1.originalQty, e.1.name, e.2, e.1.qty_pos⟩)) :=
  List.perm_insertionSort _ _

/-- No product and price is demanded twice. -/
theorem nodup_aggregateReturn : ((aggregateReturn items).map ReturnDemand.key).Nodup :=
  ((aggregateReturn_perm items).map _).nodup_iff.mpr (Grouping.nodup_collapse returnDemand_key _)

/-- The demands of one product and price add up to the lines asked for. -/
theorem sum_aggregateReturn (f : ProductId → Int → Int) :
    ((aggregateReturn items).map fun d => f d.productId d.price * d.qty).sum =
      (items.map fun l => f l.productId l.price * l.qty).sum := by
  rw [((aggregateReturn_perm items).map _).sum_eq, Grouping.sum_collapse returnDemand_key ?_,
    List.map_map]
  · show (items.zipIdx.map ((fun l : ReturnLine => f l.productId l.price * l.qty) ∘ Prod.fst)).sum = _
    rw [← List.map_map, List.zipIdx_map_fst]
  · intro d e hde
    have hp : d.productId = e.productId := congrArg Prod.fst hde
    have hq : d.price = e.price := congrArg Prod.snd hde
    show f d.productId d.price * (d.qty + e.qty) = _
    rw [mul_add, hp, hq]

end

/-- The note moves each product by what its demands take back. -/
theorem shiftOf_returnMoves (demands : List ReturnDemand) (p : ProductId) :
    shiftOf (returnMoves demands) p =
      (demands.map fun d => if d.productId = p then d.qty else 0).sum := by
  rw [returnMoves, shiftOf_groupMoves, shiftOf, List.map_map]
  rfl

theorem nonneg_returnMoves (demands : List ReturnDemand) : ∀ m ∈ returnMoves demands, 0 ≤ m.2 := by
  apply nonneg_groupMoves
  intro m hm
  obtain ⟨d, -, rfl⟩ := List.mem_map.mp hm
  exact d.qty_pos.le

/-- Moves of products without a row move nothing. -/
theorem moveStock_filter (type : MovementType) (ref : Nat) (moves : List (ProductId × Int))
    (db : Db) {alive : List ProductId}
    (h : ∀ m ∈ moves, m.1 ∉ alive → db.products.get m.1 = none) :
    db.moveStock type ref (moves.filter fun m => decide (m.1 ∈ alive)) =
      db.moveStock type ref moves := by
  induction moves generalizing db with
  | nil => rfl
  | cons m moves ih =>
      by_cases hm : m.1 ∈ alive
      · rw [List.filter_cons_of_pos (by simpa using hm)]
        rw [moveStock_cons, moveStock_cons]
        refine ih (db.moveOne type ref m) fun m' hm' hno => ?_
        have hnone := h m' (List.mem_cons_of_mem _ hm') hno
        rw [moveOne_eq]
        show (db.products.modify _ _).get _ = none
        rw [Table.get_modify, hnone]
        split <;> rfl
      · rw [List.filter_cons_of_neg (by simpa using hm)]
        have hskip : db.moveOne type ref m = db := by
          rw [Db.moveOne, h m List.mem_cons_self hm]
        rw [moveStock_cons, hskip]
        exact ih db fun m' hm' => h m' (List.mem_cons_of_mem _ hm')

/-! ## What they do -/

namespace Db

/-- The database once the note is stored, its goods are back and the totals have moved. -/
def recordReturn (r : ReturnId) (note : Return) (demands : List ReturnDemand) (sale : Sale)
    (db : Db) : Db :=
  let money := refundAmounts demands sale
  (((db.insertReturn r note).moveStock .creditNote r (returnMoves demands)).updateCustomer
    sale.customerId (Customer.move (-pointsToReverse sale money) (-money.refundTotal))).updateMechanic
      sale.mechanicId fun m => m.refund sale note.refundMethod money m.discountBase

/-- The database once the bill is voided, if everything on it has come back. -/
def autoVoid (x : SaleId) (items : List SaleItem) (db : Db) : Db :=
  { db with
    sales := if refundedTotal (noteLines (db.notesOf x)) < soldTotal items then db.sales
      else db.sales.modify x fun sale => { sale with voided := true } }

end Db

/-- What a credit note has met when it is written as `note` against `sale`. -/
structure ReturnAdmitted (actor : Actor) (dto : ReturnWrite) (s : Db) (sale : Sale)
    (note : Return) : Prop where
  bill : s.sales.get dto.saleId = some sale
  live : sale.voided = false
  method : ¬(dto.refundMethod = .deductFromCredit ∧ sale.mechanicId = none)
  refundable : assertRefundable (aggregateReturn dto.items) sale.items
    (noteLines (s.notesOf dto.saleId)) = .ok ()
  drawer : ∀ k, note.shiftId = some k →
    ∃ shift, s.shifts.get k = some shift ∧ shift.isOpenOn actor.deviceId = true
  cash : dto.refundMethod = .cash → note.shiftId.isSome = true
  number : s.cnTaken note.cnNo = false
  stored : ∃ n k, note = noteRow dto sale n k

/-- What `ReturnsService.create` does: it replays a note, or it writes one. -/
inductive ReturnCreated (env : Env) (actor : Actor) (dto : ReturnWrite) (s : Db) :
    CreateReturnResult → Db → Prop where
  | replay (res : CreateReturnResult) : dto.id = some res.id →
      ReturnCreated env actor dto s res s
  | written (res : CreateReturnResult) (r : ReturnId) (note : Return) (sale : Sale)
      (c : DeviceId × DocType × Period) (v : Nat) :
      ReturnAdmitted actor dto s sale note → r = dto.id.getD env.newUuid →
      s.returns.get r = none → res.id = r →
      ReturnCreated env actor dto s res
        (((s.setCounter c v).recordReturn r note (aggregateReturn dto.items) sale).autoVoid
          dto.saleId sale.items)

section
variable {H : Held LockKey} {s : Db}

theorem wp_existingReturn {r : ReturnId} {dto : ReturnWrite}
    {Q : Option CreateReturnResult → Held LockKey → Db → Prop} (hnone : Q none H s)
    (hsome : ∀ res, res.id = r → Q (some res) H s) :
    wp (existingReturn r dto) H s Expected Q := by
  refine wp_bind_glance fun s₀ => ?_
  cases s₀.returns.get r with
  | none => exact hnone
  | some note =>
      refine wp_bind_require (fun _ => ?_) fun _ => rfl
      refine wp_bind_glance fun s₁ => wp_bind_glance fun s₂ => wp_bind_glance fun s₃ => ?_
      exact wp_bind_glance fun s₄ => wp_bind_glance fun s₅ => hsome _ rfl

theorem wp_lockSale {x : SaleId} {Q : Sale → Held LockKey → Db → Prop}
    (h : ∀ sale, s.sales.get x = some sale → sale.voided = false →
      Q sale ((.sale x, .update) :: H) s) :
    wp (lockSale x) H s Expected Q := by
  refine wp_bind_selectFor (wp_bind_orFail (fun sale hsale => ?_) fun _ => rfl)
  exact wp_bind_require (fun hv => h sale hsale hv) fun _ => rfl

/-- A cash refund counts in the drawer that is open on the device, which stays locked against its close. -/
theorem wp_refundShift {d : DeviceId} {method : RefundMethod}
    {Q : Option ShiftId → Held LockKey → Db → Prop}
    (h : ∀ k H', H ⊆ H' → (method = .cash → k.isSome = true) →
      (∀ j, k = some j → (.shift j, .share) ∈ H' ∧
        ∃ shift, s.shifts.get j = some shift ∧ shift.isOpenOn d = true) → Q k H' s) :
    wp (refundShift d method) H s Expected Q := by
  rw [refundShift]
  split
  · refine (wp_bind _ _).mpr (wp_requireOpenShiftIdFor fun k row H' hH hk hrow hopen => ?_)
    refine h (some k) H' hH (fun _ => rfl) ?_
    rintro j hj
    cases hj
    exact ⟨hk, row, hrow, hopen⟩
  · rename_i hcash
    refine wp_currentShiftIdFor (fun H' hH => ?_) fun k row H' hH hk hrow hopen => ?_
    · exact h none H' hH (fun hc => absurd hc hcash) fun j hj => by cases hj
    · refine h (some k) H' hH (fun _ => rfl) ?_
      rintro j hj
      cases hj
      exact ⟨hk, row, hrow, hopen⟩

theorem wp_lockReturned {ids : List ProductId} {Q : List ProductId → Held LockKey → Db → Prop}
    (h : ∀ alive H', H ⊆ H' → (∀ p ∈ ids, p ∉ alive → s.products.get p = none) → Q alive H' s) :
    wp (lockReturned ids) H s Expected Q := by
  refine wp_bind_selectAll (h _ _ (fun lk hlk => mem_lockAll.mpr (.inl hlk)) fun p hp hno => ?_)
  by_contra hsome
  refine hno (List.mem_map.mpr ⟨(p, true), List.mem_filter.mpr ⟨List.mem_map.mpr ⟨p, ?_, ?_⟩, rfl⟩,
    rfl⟩)
  · exact (List.mem_insertionSort _).mpr hp
  · rw [Option.isSome_iff_ne_none.mpr hsome]

/-- A credit note is inserted only for a bill that is not voided, with an id and a number that are free. -/
theorem wp_insertReturn {r : ReturnId} {note : Return} {Q : Unit → Held LockKey → Db → Prop}
    (hx : (.sale note.saleId, .update) ∈ H)
    (hk : ∀ k, note.shiftId = some k → (.shift k, .share) ∈ H)
    (hvoid : ∀ sale, s.sales.get note.saleId = some sale → sale.voided = false)
    (h : ∀ H', H ⊆ H' → s.returns.get r = none → s.cnTaken note.cnNo = false →
      Covered agree H' s (s.insertReturn r note) → Q () H' (s.insertReturn r note)) :
    wp (insertReturn r note) H s Expected Q := by
  refine wp_bind_selectFor (wp_bind_require (fun hr => ?_) fun _ => rfl)
  refine wp_bind_selectFor (wp_bind_require (fun hn => ?_) fun _ => rfl)
  have hnew : s.returns.get r = none := by simpa using hr
  refine h _ (fun lk hlk => by simp [hlk]) hnew hn ?_
  exact Covered.insertReturn (Covered.refl _ _) hnew (by simp) (by simp [hx]) (by simp)
    (fun k hrk => by simp [hk k hrk]) hvoid

/-- The base of the discount is read from the row that is then changed. -/
theorem updateMechanic_refund {sale : Sale} {method : RefundMethod} {money : RefundAmounts}
    {db : Db} {row : Mechanic} (h : sale.mechanicId.bind db.mechanics.get = some row) :
    db.updateMechanic sale.mechanicId (Mechanic.refund sale method money row.discountBase) =
      db.updateMechanic sale.mechanicId fun m => m.refund sale method money m.discountBase := by
  cases hm : sale.mechanicId with
  | none => rfl
  | some m =>
      rw [hm] at h
      simp only [Db.updateMechanic, Option.elim_some]
      rw [Table.modify_congr fun v hv => ?_]
      rw [show v = row from Option.some.inj (hv.symm.trans h)]

/-- The mechanic's totals are taken back on the row that was locked before. -/
theorem wp_reverseMechanic {sale : Sale} {mechanic : Option Mechanic} {method : RefundMethod}
    {money : RefundAmounts} {Q : Option MechanicAfter → Held LockKey → Db → Prop}
    (hmechanic : mechanic = sale.mechanicId.bind s.mechanics.get)
    (h : ∀ out H', H ⊆ H' →
      Covered agree H' s (s.updateMechanic sale.mechanicId fun m =>
        m.refund sale method money m.discountBase) →
      Q out H' (s.updateMechanic sale.mechanicId fun m =>
        m.refund sale method money m.discountBase)) :
    wp (reverseMechanic sale mechanic method money) H s Expected Q := by
  cases mechanic with
  | none =>
      have hsame : (s.updateMechanic sale.mechanicId fun m =>
          m.refund sale method money m.discountBase) = s := by
        cases hm : sale.mechanicId with
        | none => rfl
        | some m =>
            rw [hm] at hmechanic
            simp only [Db.updateMechanic, Option.elim_some]
            rw [Table.modify_of_none hmechanic.symm]
      rw [hsame] at h
      exact h none H (List.Subset.refl _) (Covered.refl _ _)
  | some row =>
      refine wp_updateMechanic fun out H' _ hH hcov => ?_
      rw [updateMechanic_refund hmechanic.symm] at hcov ⊢
      exact h out H' hH hcov

/-- Voiding a bill that has notes moves no cash: it stays counted. -/
theorem drawerCash_voided {x : SaleId} {f : Sale → Sale} (hn : s.notesOf x ≠ [])
    (hf : ∀ v, (f v).shiftId = v.shiftId ∧ (f v).paymentMethod = v.paymentMethod ∧
      (f v).total = v.total) (k : ShiftId) : (s.modifySale x f).drawerCash k = s.drawerCash k := by
  cases hx : s.sales.get x with
  | none => rw [Db.modifySale, Table.modify_of_none hx]
  | some v =>
      have hcash : s.cashOfSale k x (f v) = s.cashOfSale k x v := by
        obtain ⟨h₁, h₂, h₃⟩ := hf v
        have hcounted : ∀ w : Sale, s.counted x w = true := by
          intro w
          simp [Db.counted, hn]
        simp only [Db.cashOfSale, h₁, h₂, h₃, hcounted]
      rw [drawerCash_modifySale hx, hcash]
      omega

/-- A bill is voided by its notes once every unit of it has come back. -/
theorem wp_autoVoid {x : SaleId} {items : List SaleItem} {Q : Bool → Held LockKey → Db → Prop}
    (hx : (.sale x, .update) ∈ H) (hn : s.notesOf x ≠ [])
    (h : ∀ b, Covered agree H s (s.autoVoid x items) → Q b H (s.autoVoid x items)) :
    wp (autoVoid x items) H s Expected Q := by
  refine wp_bind_query ?_
  simp only [Db.autoVoid] at h
  split
  · rename_i hlt
    simp only [if_pos hlt] at h
    exact h false (Covered.refl _ _)
  · rename_i hlt
    simp only [if_neg hlt] at h
    refine h true (Covered.modifySale (Covered.refl _ _) hx (fun _ => rfl) fun k _ => ?_)
    refine drawerCash_voided hn (fun v => ⟨?_, ?_, ?_⟩) k <;> rfl

/-- **The specification of the body of a credit note.** -/
theorem wp_writeReturn {env : Env} {actor : Actor} {dto : ReturnWrite} (hs : s.Consistent) :
    wp (writeReturn env actor dto) H s Expected fun res H' s' =>
      ReturnCreated env actor dto s res s' ∧ Covered agree H' s s' := by
  refine (wp_bind _ _).mpr (wp_lockSale fun sale hsale hlive => ?_)
  refine wp_bind_require (fun hmethod => wp_bind_query ?_) fun _ => rfl
  refine wp_bind_ofExcept (fun _ hrefundable => ?_) fun e he => ?_
  case refine_2 =>
    simp only [assertRefundable] at he
    split_ifs at he <;> cases he <;> rfl
  refine (wp_bind _ _).mpr (wp_refundShift fun k H₁ hH₁ hcash hopen => ?_)
  refine (wp_bind _ _).mpr (wp_lockMechanic fun H₂ hH₂ => ?_)
  refine (wp_bind _ _).mpr (wp_lockReturned fun alive H₃ hH₃ halive => ?_)
  refine (wp_bind _ _).mpr (wp_resolveDocNumber fun n c v => ?_)
  have hsub : H₁ ⊆ (.counter c, .update) :: H₃ := fun lk hlk =>
    List.mem_cons_of_mem _ (hH₃ (hH₂ hlk))
  have hx : (.sale dto.saleId, .update) ∈ (LockKey.counter c, Mode.update) :: H₃ :=
    hsub (hH₁ List.mem_cons_self)
  have hcov₄ : Covered agree ((.counter c, .update) :: H₃) s (s.setCounter c v) :=
    Covered.setCounter (Covered.refl _ _) List.mem_cons_self v
  refine (wp_bind _ _).mpr (wp_insertReturn hx (fun j hj => hsub (hopen j hj).1) ?_
    fun H₅ hH₅ hnew hnumber hcov₅ => ?_)
  · intro sale' hsale'
    obtain rfl : sale = sale' := Option.some.inj (hsale.symm.trans hsale')
    exact hlive
  have hadm : ReturnAdmitted actor dto s sale (noteRow dto sale n k) :=
    ⟨hsale, hlive, hmethod, hrefundable, fun j hj => (hopen j hj).2, hcash, hnumber, n, k, rfl⟩
  refine (wp_bind _ _).mpr ((wp_bind _ _).mpr (wp_restoreAll ?_ (hs.note_free hnew)
    fun mvs H₆ hH₆ hcov₆ => ?_))
  · exact (nodup_groupMoves _).sublist (List.filter_sublist.map _)
  have hskip : ∀ m ∈ returnMoves (aggregateReturn dto.items), m.1 ∉ alive →
      s.products.get m.1 = none := by
    intro m hm hno
    refine halive m.1 ?_ hno
    have : m.1 ∈ (returnMoves (aggregateReturn dto.items)).map Prod.fst := List.mem_map_of_mem hm
    rw [returnMoves, mem_groupMoves, List.map_map] at this
    exact this
  have hmoves := moveStock_filter .creditNote (dto.id.getD env.newUuid) _
    ((s.setCounter c v).insertReturn (dto.id.getD env.newUuid) (noteRow dto sale n k)) hskip
  rw [hmoves] at hcov₆ ⊢
  refine (wp_bind _ _).mpr (wp_updateCustomer fun cust H₇ hH₇ hcov₇ => ?_)
  refine (wp_bind _ _).mpr (wp_reverseMechanic rfl fun mech H₈ hH₈ hcov₈ => ?_)
  have hcov : Covered agree H₈ s _ :=
    Covered.trans (Covered.mono (Covered.trans (Covered.mono (Covered.trans (Covered.mono
      (Covered.trans (Covered.mono hcov₄ hH₅) hcov₅) hH₆) hcov₆) hH₇) hcov₇) hH₈) hcov₈
  refine (wp_bind _ _).mpr (wp_autoVoid (hH₈ (hH₇ (hH₆ (hH₅ hx)))) ?_ fun b hcov₉ => ?_)
  · have hnotes : ((s.setCounter c v).insertReturn (dto.id.getD env.newUuid)
        (noteRow dto sale n k)).notesOf dto.saleId ≠ [] := by
      rw [notesOf_insertReturn hnew]
      simp [noteRow]
    exact hnotes
  · exact ⟨.written _ _ _ sale c v hadm rfl hnew rfl, Covered.trans hcov hcov₉⟩

/-- **Specification of a credit note.** -/
theorem wp_createReturn {env : Env} {actor : Actor} {dto : ReturnWrite} (hs : s.Consistent) :
    wp (createReturn env actor dto) H s Expected fun res H' s' =>
      ReturnCreated env actor dto s res s' ∧ Covered agree H' s s' := by
  rw [createReturn]
  cases hid : dto.id with
  | none => exact wp_writeReturn hs
  | some r =>
      refine (wp_bind _ _).mpr (wp_existingReturn ?_ fun res hres => ?_)
      · exact wp_writeReturn hs
      · exact ⟨.replay res (by rw [hid, hres]), Covered.refl _ _⟩

/-! ## Their locks -/

/-- A bill's lock protects the notes against it. -/
theorem guarded_notesOf {x : SaleId} (hx : (.sale x, .update) ∈ H) :
    Guarded agree H fun db : Db => db.notesOf x :=
  fun _ _ hs => (View.sale.inj (hs _ hx)).2

theorem sale_of_agree {x : SaleId} {m : Mode} (s s' : Db) (h : agree (.sale x, m) s s') :
    s.sales.get x = s'.sales.get x := (View.sale.inj h).1

theorem disciplined_existingReturn (r : ReturnId) (dto : ReturnWrite) :
    Disciplined agree (existingReturn r dto) H fun _ _ => True := by
  refine disciplined_bind_glance fun row => ?_
  cases row with
  | none => trivial
  | some note =>
      refine disciplined_bind_require fun _ => ?_
      refine disciplined_bind_glance fun _ => disciplined_bind_glance fun _ => ?_
      refine disciplined_bind_glance fun _ => disciplined_bind_glance fun _ => ?_
      exact disciplined_bind_glance fun _ => trivial

theorem disciplined_lockSale (x : SaleId) :
    Disciplined agree (lockSale x) H fun _ H' => (.sale x, .update) ∈ H' := by
  refine disciplined_bind_selectFor sale_of_agree fun row => disciplined_bind_orFail fun _ _ => ?_
  exact disciplined_bind_require fun _ => List.mem_cons_self

theorem disciplined_refundShift (d : DeviceId) (method : RefundMethod) :
    Disciplined agree (refundShift d method) H fun _ _ => True := by
  rw [refundShift]
  split
  · exact Disciplined.seq (disciplined_requireOpenShiftIdFor d) fun _ _ _ _ => trivial
  · exact disciplined_currentShiftIdFor d

theorem disciplined_lockReturned (ids : List ProductId) :
    Disciplined agree (lockReturned ids) H fun _ _ => True :=
  disciplined_bind_selectAll (fun p _ s s' hs => by rw [product_of_agree s s' hs]) fun _ => trivial

theorem disciplined_insertReturn {r : ReturnId} {note : Return}
    (hx : (.sale note.saleId, .update) ∈ H) :
    Disciplined agree (insertReturn r note) H fun _ _ => True := by
  refine disciplined_bind_selectFor (fun s s' hs => ?_) fun _ => disciplined_bind_require fun _ => ?_
  · rw [View.creditNote.inj hs]
  refine disciplined_bind_selectFor (fun s s' hs => View.present.inj hs) fun _ => ?_
  exact disciplined_bind_require fun _ => ⟨respects_insertReturn (by simp) (by simp [hx]), trivial⟩

theorem disciplined_restoreStock (r : ReturnId) (demands : List ReturnDemand)
    (alive : List ProductId) :
    Disciplined agree (restoreStock r demands alive) H fun _ _ => True :=
  Disciplined.seq (disciplined_restoreAll _ _ _) fun _ _ _ _ => trivial

theorem disciplined_reverseMechanic (sale : Sale) (mechanic : Option Mechanic)
    (method : RefundMethod) (money : RefundAmounts) :
    Disciplined agree (reverseMechanic sale mechanic method money) H fun _ _ => True := by
  cases mechanic with
  | none => trivial
  | some row => exact disciplined_updateMechanic _ _

theorem disciplined_autoVoid {x : SaleId} (items : List SaleItem)
    (hx : (.sale x, .update) ∈ H) :
    Disciplined agree (autoVoid x items) H fun _ _ => True := by
  refine disciplined_bind_query (guarded_notesOf hx) fun notes => ?_
  split
  · trivial
  · exact ⟨respects_modifySale hx fun _ => rfl, trivial⟩

/-- The credit note bases every write on a row that it has locked. -/
theorem disciplined_writeReturn (env : Env) (actor : Actor) (dto : ReturnWrite) :
    Disciplined agree (writeReturn env actor dto) H fun _ _ => True := by
  refine Disciplined.seq (disciplined_lockSale _) fun sale H₁ _ hx => ?_
  refine disciplined_bind_require fun _ => disciplined_bind_query (guarded_notesOf hx) fun notes => ?_
  refine disciplined_bind_ofExcept fun _ _ => ?_
  refine Disciplined.seq (disciplined_refundShift _ _) fun k H₂ hH₂ _ => ?_
  refine Disciplined.seq (disciplined_lockMechanic _) fun mechanic H₃ hH₃ _ => ?_
  refine Disciplined.seq (disciplined_lockReturned _) fun alive H₄ hH₄ _ => ?_
  refine Disciplined.seq (disciplined_resolveDocNumber _ _ _ _) fun n H₅ hH₅ _ => ?_
  have hx₅ : (.sale dto.saleId, .update) ∈ H₅ := hH₅ (hH₄ (hH₃ (hH₂ hx)))
  refine Disciplined.seq (disciplined_insertReturn hx₅) fun _ H₆ hH₆ _ => ?_
  refine Disciplined.seq (disciplined_restoreStock _ _ _) fun mvs H₇ hH₇ _ => ?_
  refine Disciplined.seq (disciplined_updateCustomer _ _) fun cust H₈ hH₈ _ => ?_
  refine Disciplined.seq (disciplined_reverseMechanic _ _ _ _) fun mech H₉ hH₉ _ => ?_
  refine Disciplined.seq (disciplined_autoVoid _ ?_) fun _ _ _ _ => trivial
  exact hH₉ (hH₈ (hH₇ (hH₆ hx₅)))

theorem disciplined_createReturn (env : Env) (actor : Actor) (dto : ReturnWrite) :
    Disciplined agree (createReturn env actor dto) H fun _ _ => True := by
  rw [createReturn]
  cases dto.id with
  | none => exact disciplined_writeReturn env actor dto
  | some r =>
      refine Disciplined.seq (disciplined_existingReturn _ _) fun existing H' _ _ => ?_
      cases existing with
      | some res => trivial
      | none => exact disciplined_writeReturn env actor dto

end

end Server

import SrisurartPos.Drift.Services

/-! # Runs of the Drift-only build

A call goes on where another one waits, at an `await` outside a transaction, so that what a service
has read may be old when it writes. A call that finds the stock as it read it moves the stock by what
it is about, and a run of such calls balances: each product has what it had, plus what came in, minus
what was sold. -/

namespace Drift

open Server Money Cache

/-! ## Calls -/

/-- Where a call waits, with what it has read. -/
inductive Call where
  | selling (x : SaleId) (input : SaleInput) (byId : Table ProductId ProductRow)
  | billRead (x : SaleId) (reason : String) (sale : SaleRow)
  | notesRead (x : SaleId) (reason : String) (sale : SaleRow)
  | stockRead (p : ProductId) (delta : Int) (row : ProductRow)
  | movementDue (m : MovementRow)

/-- What a call has done to the shop. -/
inductive Event where
  | sold (x : SaleId) (sale : SaleRow)
  | returned (x : SaleId) (sale : SaleRow) (input : ReturnInput) (plan : ReturnPlan)
  | voided (x : SaleId) (sale : SaleRow)
  | received (id : OrderId) (moves : List (ProductId × Int))
  | adjusted (p : ProductId) (delta : Int)
  | paid (m : MechanicId) (amount : ℚ)

structure State where
  db : Db
  calls : Nat → Option Call
  /-- what has been done, oldest first -/
  log : List Event

namespace State

def waits (c : Nat) (call : Option Call) (s : State) : State :=
  { s with calls := Function.update s.calls c call }

def writes (db : Db) (e : Event) (s : State) : State := { s with db := db, log := s.log ++ [e] }

end State

/-- The part of a call between two switches. -/
inductive Act where
  | preValidate (c : Nat) (x : SaleId) (input : SaleInput)
  | saveSale (c : Nat) (receiptNo : DocNo) (date : Nat)
  | readBill (c : Nat) (x : SaleId) (reason : String)
  | readNotes (c : Nat)
  | voidSale (c : Nat) (now : Nat)
  | readStock (c : Nat) (p : ProductId) (delta : Int)
  | writeStock (c : Nat)
  | addMovement (c : Nat)
  | createReturn (r : ReturnId) (x : SaleId) (input : ReturnInput) (now : Nat)
  | receivePO (id : OrderId) (now : Nat)
  | cancelPO (id : OrderId) (now : Nat)
  | deletePO (id : OrderId)
  | addCreditPayment (i : PaymentId) (m : MechanicId) (amount : ℚ) (now : Nat)

/-- The call an act is a part of, when it has several. -/
def Act.call : Act → Option Nat
  | .preValidate c _ _ | .saveSale c _ _ | .readBill c _ _ | .readNotes c | .voidSale c _ => some c
  | .readStock c _ _ | .writeStock c | .addMovement c => some c
  | _ => none

section
variable (toLowerCase : String → String)

/-- One act. Where the call is not at that point, nothing happens. -/
def exec : Act → State → Except Refusal State
  | .preValidate c x input, s =>
      match s.calls c, preValidate input s.db with
      | some _, _      => .ok s
      | none, .error e => .error e
      | none, .ok byId => .ok (s.waits c (some (.selling x input byId)))
  | .saveSale c receiptNo date, s =>
      match s.calls c with
      | some (.selling x input byId) =>
          match saveSale x input byId receiptNo date s.db with
          | .error e       => .error e
          | .ok (sale, db) => .ok ((s.writes db (.sold x sale)).waits c none)
      | _ => .ok s
  | .readBill c x reason, s =>
      match s.calls c, readBill x reason s.db with
      | some _, _      => .ok s
      | none, .error e => .error e
      | none, .ok sale => .ok (s.waits c (some (.billRead x reason sale)))
  | .readNotes c, s =>
      match s.calls c with
      | some (.billRead x reason sale) =>
          match readNotes x s.db with
          | .error e => .error e
          | .ok ()   => .ok (s.waits c (some (.notesRead x reason sale)))
      | _ => .ok s
  | .voidSale c now, s =>
      match s.calls c with
      | some (.notesRead x reason sale) =>
          .ok ((s.writes (voidSaleOffline x reason sale now s.db) (.voided x sale)).waits c none)
      | _ => .ok s
  | .readStock c p delta, s =>
      match s.calls c, s.db.products.get p with
      | none, some row => .ok (s.waits c (some (.stockRead p delta row)))
      | _, _           => .ok s
  | .writeStock c, s =>
      match s.calls c with
      | some (.stockRead p delta row) =>
          .ok ((s.writes (adjustStock p delta row s.db)
            (.adjusted p (clampedStock row delta - row.stock))).waits c (some (.movementDue ⟨p, delta⟩)))
      | _ => .ok s
  | .addMovement c, s =>
      match s.calls c with
      | some (.movementDue m) => .ok ({ s with db := addMovement m s.db }.waits c none)
      | _                     => .ok s
  | .createReturn r x input now, s =>
      match s.db.sales.get x, createReturn r x input now s.db with
      | some sale, .ok (plan, db) => .ok (s.writes db (.returned x sale input plan))
      | none, .ok _               => .error .saleNotFound
      | _, .error e               => .error e
  | .receivePO id now, s =>
      match s.db.purchaseOrders.get id with
      | none    => .ok s
      | some po =>
          .ok (s.writes (receivePO toLowerCase id now s.db)
            (.received id (matched toLowerCase (byLowerPartNo toLowerCase s.db.products) po.items)))
  | .cancelPO id now, s => .ok { s with db := cancelPO id now s.db }
  | .deletePO id, s     => .ok { s with db := deletePO id s.db }
  | .addCreditPayment i m amount now, s =>
      match addCreditPayment i m amount now s.db with
      | .error e => .error e
      | .ok db   => .ok (s.writes db (.paid m amount))

/-- A refused call is over, and its transaction rolled back. -/
def step (a : Act) (s : State) : State :=
  match exec toLowerCase a s with
  | .ok s'   => s'
  | .error _ => a.call.elim s fun c => s.waits c none

def run (acts : List Act) (s : State) : State := acts.foldl (fun s a => step toLowerCase a s) s

/-- Every act of the run meets `P`. -/
def AllMeet (P : State → Act → Prop) : List Act → State → Prop
  | [], _        => True
  | a :: acts, s => P s a ∧ AllMeet P acts (step toLowerCase a s)

end

/-! ## What the log comes to -/

namespace Event

def soldUnits (p : ProductId) : Event → Int
  | .sold _ sale => shiftOf sale.moves p
  | _            => 0

def returnedUnits (p : ProductId) : Event → Int
  | .returned _ _ input _ => shiftOf input.moves p
  | _                     => 0

def voidedUnits (p : ProductId) : Event → Int
  | .voided _ sale => shiftOf sale.moves p
  | _              => 0

def receivedUnits (p : ProductId) : Event → Int
  | .received _ moves => shiftOf moves p
  | _                 => 0

def adjustedUnits (p : ProductId) : Event → Int
  | .adjusted q delta => if q = p then delta else 0
  | _                 => 0

/-- What the event adds to the stock. -/
def net (p : ProductId) (e : Event) : Int :=
  e.receivedUnits p + e.returnedUnits p + e.voidedUnits p + e.adjustedUnits p - e.soldUnits p

/-- The order that was received. -/
def order : Event → Option OrderId
  | .received id _ => some id
  | _              => none

end Event

/-- The sum of `f` over the log. -/
def total {M : Type} [AddCommMonoid M] (f : Event → M) (log : List Event) : M := (log.map f).sum

/-- The orders received so far. -/
def State.orders (s : State) : List OrderId := s.log.filterMap Event.order

/-! ### Running totals -/

/-- A customer's spend and points. -/
def customerSums (c : CustomerRow) : ℚ × Int := (c.totalSpend, c.points)

/-- A mechanic's sales, discount, markup and balance. -/
def mechanicSums (m : MechanicRow) : ℚ × ℚ × ℚ × ℚ :=
  (m.totalSales, m.totalDiscount, m.totalMarkup, m.creditBalance)

/-- What a bill gives its customer. -/
def saleSpend (sale : SaleRow) : ℚ × Int := (sale.total, sale.pointsGranted)

/-- And its mechanic. -/
def saleCredit (sale : SaleRow) : ℚ × ℚ × ℚ × ℚ :=
  (sale.total, discountGiven sale.mechanicDelta, markupGiven sale.mechanicDelta,
    onCredit sale.paymentMethod sale.total)

def refundTotalOf (sale : SaleRow) (input : ReturnInput) : ℚ :=
  round2 (input.refundSubtotal - refundDiscountOf sale input.refundSubtotal)

/-- What a note takes from the customer. -/
def refundSpend (sale : SaleRow) (input : ReturnInput) : ℚ × Int :=
  let ratio := refundRatio sale (refundTotalOf sale input)
  let basePoints := if sale.pointsGranted > 0 then sale.pointsGranted else pointsFor sale.total
  (refundTotalOf sale input, ⌊basePoints * ratio⌋)

/-- And from the mechanic. -/
def refundCredit (sale : SaleRow) (input : ReturnInput) : ℚ × ℚ × ℚ × ℚ :=
  let ratio := refundRatio sale (refundTotalOf sale input)
  (refundTotalOf sale input, reverseCredit sale ratio, reverseMarkup sale ratio,
    if input.refundMethod = .deductFromCredit then refundTotalOf sale input else 0)

namespace Event

/-- What the event adds to the totals of a customer. -/
def toCustomer (c : CustomerId) : Event → ℚ × Int
  | .sold _ sale             => if sale.customerId = some c then saleSpend sale else 0
  | .voided _ sale           => if sale.customerId = some c then -saleSpend sale else 0
  | .returned _ sale input _ => if sale.customerId = some c then -refundSpend sale input else 0
  | _                        => 0

/-- And to those of a mechanic. -/
def toMechanic (m : MechanicId) : Event → ℚ × ℚ × ℚ × ℚ
  | .sold _ sale             => if sale.mechanicId = some m then saleCredit sale else 0
  | .voided _ sale           => if sale.mechanicId = some m then -saleCredit sale else 0
  | .returned _ sale input _ => if sale.mechanicId = some m then -refundCredit sale input else 0
  | .paid k amount           => if k = m then (0, 0, 0, -amount) else 0
  | _                        => 0

end Event

/-! ## The condition -/

/-- The discount of the mechanic is not read off the old alias. -/
def ownDiscount (key : Option MechanicId) (db : Db) : Prop :=
  ∀ m row, key = some m → db.mechanics.get m = some row → row.discountBase = row.totalDiscount

/-- The act finds what its call has read, the cart names no product twice, the order has not been
received yet, no quantity is negative, and a discount is taken back from where it was put. -/
def Meets (s : State) : Act → Prop
  | .saveSale c _ _ => ∀ x input byId, s.calls c = some (.selling x input byId) →
      (input.items.map (·.productId)).Nodup ∧ ∀ i ∈ input.items, 0 ≤ i.qty ∧
        s.db.stockOf i.productId = (byId.get i.productId).map (·.stock)
  | .voidSale c _ => ∀ x reason sale, s.calls c = some (.notesRead x reason sale) →
      s.db.sales.get x = some sale ∧ (∀ r note, s.db.returns.get r = some note → note.saleId ≠ x) ∧
        ownDiscount sale.mechanicId s.db
  | .writeStock c => ∀ p delta row, s.calls c = some (.stockRead p delta row) →
      s.db.stockOf p = some row.stock
  | .createReturn _ x input _ => (∀ i ∈ input.items, 0 ≤ i.qty) ∧
      ∀ sale, s.db.sales.get x = some sale → ownDiscount sale.mechanicId s.db
  | .receivePO id _ => ∀ po, s.db.purchaseOrders.get id = some po → po.receivedAt = none
  | _ => True

/-- What the event takes off the totals is there to be taken. -/
def Event.Covered (db : Db) : Event → Prop
  | .voided _ sale =>
      (∀ c row, sale.customerId = some c → db.customers.get c = some row → saleSpend sale ≤ customerSums row) ∧
        ∀ m row, sale.mechanicId = some m → db.mechanics.get m = some row → saleCredit sale ≤ mechanicSums row
  | .returned _ sale input _ =>
      (∀ c row, sale.customerId = some c → db.customers.get c = some row →
        refundSpend sale input ≤ customerSums row) ∧
        ∀ m row, sale.mechanicId = some m → db.mechanics.get m = some row →
          refundCredit sale input ≤ mechanicSums row
  | .paid m amount => ∀ row, db.mechanics.get m = some row → amount ≤ row.creditBalance
  | _ => True

/-- Before the run: no call is on its way, and no quantity is negative. -/
structure State.Start (s : State) : Prop where
  calls : ∀ c, s.calls c = none
  log : s.log = []
  stock : ∀ {p row}, s.db.products.get p = some row → 0 ≤ row.stock
  lines : ∀ {x sale}, s.db.sales.get x = some sale → ∀ i ∈ sale.items, 0 ≤ i.qty
  orders : ∀ {id po}, s.db.purchaseOrders.get id = some po → ∀ i ∈ po.items, 0 ≤ i.qty

end Drift

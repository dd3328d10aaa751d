import SrisurartPos.Till.Effects

/-! # Discarding a queued operation (`SyncService.discard`)

An operation the server will not take is discarded by the owner: the server is told, the operation
leaves the outbox, and unless the server turns out to have the document after all, what the till did
for it is undone. -/

namespace Cache

open Server Money

inductive DiscardError where
  | notFound
  /-- `'DISCARD_HAS_LOCAL_DEPENDENTS'` -/
  | hasLocalDependents
  /-- `'DISCARD_STOCK_ALREADY_SOLD'` -/
  | stockAlreadySold
  /-- the server could not be told -/
  | notPosted
  deriving DecidableEq

/-- What `discard` reads of an operation's type and payload. -/
inductive OpKind where
  | saleCreate (x : SaleId)
  | saleVoidOffline (x : SaleId)
  | returnCreate (r : ReturnId)
  | other
  deriving DecidableEq

def Payload.kind : Payload → OpKind
  | .saleCreate body       => .saleCreate body.id
  | .saleVoidOffline x _   => .saleVoidOffline x

def OtherOp.kind : OtherOp → OpKind
  | .returnCreate r => .returnCreate r
  | _               => .other

/-- Takes each line off the row as it is then. -/
def takeOff (moves : List (ProductId × Int)) (products : Table ProductId ProductRow) :
    Table ProductId ProductRow :=
  putBack (moves.map fun m => (m.1, -m.2)) products

/-! ## Operations without a record -/

/-- `_legacyReverseOfflineSale` -/
def legacyReverseOfflineSale (x : SaleId) (db : Db) : Db :=
  match db.sales.get x with
  | none      => db
  | some sale =>
      { db with
        products := putBack sale.moves db.products
        customers := updateNamed sale.customerId (fun c =>
          { totalSpend := max 0 (c.totalSpend - sale.total)
            points := max 0 (c.points - sale.pointsGranted) }) db.customers
        mechanics := updateNamed sale.mechanicId (fun m =>
          { m with
            totalSales := max 0 (m.totalSales - sale.total)
            totalDiscount := max 0 (m.totalDiscount - discountGiven sale.mechanicDelta)
            totalMarkup := max 0 (m.totalMarkup - markupGiven sale.mechanicDelta)
            creditBalance := max 0 (m.creditBalance - onCredit sale.paymentMethod sale.total) })
          db.mechanics }

def CustomerRow.legacyReverseReturn (sale : SaleRow) (note : ReturnRow) (ratio : ℚ)
    (c : CustomerRow) : CustomerRow :=
  let basePoints := if sale.pointsGranted > 0 then sale.pointsGranted else pointsFor sale.total
  { totalSpend := c.totalSpend + note.refundTotal
    points := c.points + ⌊basePoints * ratio⌋ }

def MechanicRow.legacyReverseReturn (sale : SaleRow) (note : ReturnRow) (ratio : ℚ)
    (m : MechanicRow) : MechanicRow :=
  let reverseCredit := reverseCredit sale ratio
  let usedCreditBase :=
    m.totalCredit ≠ 0 ∧ m.totalDiscount = max 0 (m.totalCredit - reverseCredit)
  { m with
    totalSales := m.totalSales + note.refundTotal
    totalDiscount := if usedCreditBase then 0 else m.totalDiscount + reverseCredit
    totalMarkup := m.totalMarkup + reverseMarkup sale ratio
    creditBalance := m.creditBalance +
      if note.refundMethod = .deductFromCredit then note.refundTotal else 0 }

/-- `_legacyReverseOfflineReturn` -/
def legacyReverseOfflineReturn (r : ReturnId) (db : Db) : Db :=
  match db.returns.get r with
  | none      => db
  | some note =>
      let db := { db with products := takeOff note.moves db.products }
      match db.sales.get note.saleId with
      | none      => db
      | some sale =>
          let ratio := refundRatio sale note.refundTotal
          { db with
            customers := updateNamed note.customerId
              (CustomerRow.legacyReverseReturn sale note ratio) db.customers
            mechanics := updateNamed note.mechanicId
              (MechanicRow.legacyReverseReturn sale note ratio) db.mechanics
            sales :=
              if sale.voided then
                db.sales.modify note.saleId fun s => { s with voided := false, voidedAt := none }
              else db.sales }

/-- `_legacyReapplyVoidedSale` -/
def legacyReapplyVoidedSale (x : SaleId) (db : Db) : Db :=
  match db.sales.get x with
  | none      => db
  | some sale =>
      { db with
        products := takeOff sale.moves db.products
        customers := updateNamed sale.customerId (fun c =>
          { totalSpend := c.totalSpend + sale.total
            points := c.points + sale.pointsGranted }) db.customers
        mechanics := updateNamed sale.mechanicId (fun m =>
          { m with
            totalSales := m.totalSales + sale.total
            totalDiscount := m.totalDiscount + discountGiven sale.mechanicDelta
            totalMarkup := m.totalMarkup + markupGiven sale.mechanicDelta
            creditBalance := m.creditBalance + onCredit sale.paymentMethod sale.total }) db.mechanics
        sales := db.sales.modify x SaleRow.unvoid }

/-! ## Helpers -/

/-- `_unvoidIfNoLongerFullyReturned` -/
def unvoidIfNoLongerFullyReturned (x : SaleId) (db : Db) : Db :=
  match db.sales.get x with
  | none      => db
  | some sale =>
      if sale.voided then
        let sold : Int := (sale.items.map (·.qty)).sum
        let refunded : Int := ((db.refundedQty x).map (·.2)).sum
        if refunded < sold then
          { db with sales := db.sales.modify x fun s => { s with voided := false, voidedAt := none } }
        else db
      else db

namespace AppDatabase

/-- The operation under this id. -/
def kindOf (opId : Nat) (db : AppDatabase) : Option OpKind :=
  ((db.outboxOps.find? (·.opId = opId)).map (·.payload.payload.kind)).or
    ((db.otherOps.find? (·.opId = opId)).map (·.payload.op.kind))

/-- `_queuedVoidsOf`: the queued voids of a bill, by their ids. -/
def queuedVoidsOf (x : SaleId) (db : AppDatabase) : List Nat :=
  (db.outboxOps.filter fun op => op.payload.payload.kind = .saleVoidOffline x).map (·.opId)

/-- What `_refuseIfSaleHasLocalDependents` refuses. -/
def hasLocalDependents (x : SaleId) (voidQueued : Bool) (db : AppDatabase) : Bool :=
  ((db.sales.get x).any (·.voided) && !voidQueued) ||
    (db.returns.find fun _ note => note.saleId = x).isSome

/-- What the undo of a credit note or of a void takes off the shelf. -/
def take (opId : Nat) (kind : OpKind) (db : AppDatabase) : List (ProductId × Int) :=
  match kind with
  | .returnCreate r =>
      match db.opEffects.get opId with
      | some effects => effects.stock.rows.filter (·.2 > 0)
      | none         => groupMoves ((db.returns.get r).elim [] ReturnRow.moves)
  | .saleVoidOffline x =>
      match db.opEffects.get opId with
      | some effects => effects.stock.rows.filter (·.2 > 0)
      | none         => groupMoves ((db.sales.get x).elim [] SaleRow.moves)
  | _ => []

/-- What `_refuseIfStockAlreadySold` refuses. -/
def stockAlreadySold (opId : Nat) (kind : OpKind) (db : AppDatabase) : Bool :=
  (db.take opId kind).any fun m => (db.products.get m.1).any fun p => p.stock - m.2 < 0

/-- `_undoOrLegacy` -/
def undoOrLegacy (opId : Nat) (legacy : Db → Db) (db : AppDatabase) : AppDatabase :=
  match db.opEffects.get opId with
  | some effects => { db with toDb := effects.undo db.toDb }
  | none         => { db with toDb := legacy db.toDb }

/-- Deletes an operation. -/
def dequeue (opId : Nat) (db : AppDatabase) : AppDatabase :=
  { db with
    outboxOps := db.outboxOps.filter (·.opId ≠ opId)
    otherOps := db.otherOps.filter (·.opId ≠ opId) }

/-- `AppliedEffects.forget` -/
def forget (opId : Nat) (db : AppDatabase) : AppDatabase :=
  { db with opEffects := db.opEffects.erase opId }

/-- `_discardSaleWithVoids` -/
def discardSaleWithVoids (saleOpId : Nat) (voids : List Nat) (db : AppDatabase) : AppDatabase :=
  let undone : AppDatabase :=
    match (saleOpId :: voids).mapM db.opEffects.get with
    | some records => { db with toDb := records.foldl (fun d effects => effects.undo d) db.toDb }
    | none         => db
  voids.foldl (fun d v => (d.dequeue v).forget v) undone

/-! ## The discard -/

/-- What is checked before the server is told. -/
def mayDiscard (opId : Nat) (kind : OpKind) (db : AppDatabase) : Except DiscardError Unit :=
  match kind with
  | .saleCreate x =>
      if db.hasLocalDependents x (db.queuedVoidsOf x ≠ []) then .error .hasLocalDependents else .ok ()
  | _ => if db.stockAlreadySold opId kind then .error .stockAlreadySold else .ok ()

/-- The undoing of an operation the server has no row of, inside the transaction. -/
def reverse (opId : Nat) (kind : OpKind) (db : AppDatabase) : Except DiscardError AppDatabase :=
  match kind with
  | .saleCreate x =>
      let voids := db.queuedVoidsOf x
      if db.hasLocalDependents x (voids ≠ []) then .error .hasLocalDependents
      else
        let undone :=
          if voids = [] then db.undoOrLegacy opId (legacyReverseOfflineSale x)
          else db.discardSaleWithVoids opId voids
        .ok { undone with sales := undone.sales.erase x }
  | .returnCreate r =>
      if db.stockAlreadySold opId kind then .error .stockAlreadySold
      else
        let undone := db.undoOrLegacy opId (legacyReverseOfflineReturn r)
        let gone := { undone.toDb with returns := undone.returns.erase r }
        .ok { undone with
              toDb := (db.returns.get r).elim gone fun note =>
                unvoidIfNoLongerFullyReturned note.saleId gone }
  | .saleVoidOffline x =>
      if db.stockAlreadySold opId kind then .error .stockAlreadySold
      else .ok (db.undoOrLegacy opId (legacyReapplyVoidedSale x))
  | .other => .ok db

/-- The transaction of `discard`, once the server has answered whether it has the row. -/
def discardTx (opId : Nat) (kind : OpKind) (serverHasRow : Bool) (db : AppDatabase) :
    Except DiscardError AppDatabase :=
  if serverHasRow then .ok ((db.dequeue opId).forget opId)
  else
    match (db.dequeue opId).reverse opId kind with
    | .error e => .error e
    | .ok db'  => .ok (db'.forget opId)

/-- `discard`. `reply` is what the server answers; it is none when it cannot be told. -/
def discard (opId : Nat) (reply : Option Bool) (db : AppDatabase) :
    Except DiscardError AppDatabase :=
  match db.kindOf opId with
  | none      => .error .notFound
  | some kind =>
      match db.mayDiscard opId kind, reply with
      | .error e, _              => .error e
      | .ok (), none             => .error .notPosted
      | .ok (), some serverHasRow => db.discardTx opId kind serverHasRow

end AppDatabase

end Cache

import SrisurartPos.Server.Idempotency
import SrisurartPos.Server.NumberText

/-! # Requests (the controllers, `sync.service.ts`)

A write reaches the server in two ways: as a request of the counter, with an idempotency key, or as
an operation a till queued while it was offline, in a batch of `/sync/push`. Every operation of a
batch is a transaction of its own. Such an operation is replayed by its key or by its document's id
before it is parsed. -/

namespace Server

open Txn

/-! ## The counter -/

inductive Request where
  | sale (dto : SaleWrite) (quoteId : Option QuoteId)
  | convertQuote (q : QuoteId) (party : SaleParty)
  | voidSale (x : SaleId) (reason : String)
  | creditNote (dto : ReturnWrite)
  | openShift (input : ShiftOpenBody)
  | closeShift (physicalCashSatang : Int)
  | entry (entry : DrawerEntryBody)
  | creditPayment (m : MechanicId) (dto : CreateCreditPayment)
  | adjustStock (p : ProductId) (input : StockAdjustment)
  | receivePo (i : PoId)
  | retireDevice (d : DeviceId) (physicalCashSatang : Option Int) (force : Bool)
  | updateMechanic (m : MechanicId) (patch : MechanicPatch)

def Request.endpoint : Request → Endpoint
  | .sale _ _           => .sales
  | .convertQuote q _   => .convertQuote q
  | .voidSale x _       => .voidSale x
  | .creditNote _       => .returns
  | .openShift _        => .openShift
  | .closeShift _       => .closeShift
  | .entry _            => .entries
  | .creditPayment m _  => .creditPayments m
  | .adjustStock p _    => .adjustStock p
  | .receivePo i        => .receivePo i
  | .retireDevice d _ _ => .retireDevice d
  | .updateMechanic m _ => .updateMechanic m

def parseVoidReason (reason : String) : Except ServerError Unit :=
  check (reason ≠ "") "Void reason is required"

def parseCash (satang : Int) (field : String) : Except ServerError Unit :=
  check (0 ≤ satang) (field ++ " must not be negative")

def parseDrawerEntry (entry : DrawerEntryBody) : Except ServerError Unit :=
  check (0 < entry.amountSatang) "amount must be greater than zero"

/-- What an online body can say: it never claims to have been sold offline. -/
def SaleWrite.online (dto : SaleWrite) : SaleWrite := { dto with soldOffline := false }

/-- The handler of a request. -/
def Request.handle (env : Env) (actor : Actor) : Request → Prog Reply
  | .sale dto quoteId => do
      Tx.ofExcept (parseCreateSale dto.online)
      match quoteId with
      | none   => do
          let r ← createSale env actor dto.online
          return .sale r
      | some q => do
          let r ← sell env actor q dto.online
          return .quoteSale r.1 r.2
  | .convertQuote q party => do
      Tx.ofExcept (parseSaleParty party.paymentMethod party.paymentAccountId)
      let r ← convert env actor q party
      return .quoteSale r.1 r.2
  | .voidSale x reason => do
      Tx.ofExcept (parseVoidReason reason)
      let sale ← Server.voidSale actor x reason
      return .voided x sale
  | .creditNote dto => do
      Tx.ofExcept (parseCreateReturn dto)
      let r ← createReturn env actor dto
      return .creditNote r
  | .openShift input => do
      Tx.ofExcept (parseCash input.startingCashSatang "startingCash")
      let r ← Server.openShift env actor (input.at none)
      return .shift r.1 r.2
  | .closeShift cash => do
      Tx.ofExcept (parseCash cash "physicalCash")
      let r ← close actor.deviceId cash
      return .shift r.1 r.2
  | .entry body => do
      Tx.ofExcept (parseDrawerEntry body)
      let r ← addEntry env actor body false
      return .entry r.1 r.2
  | .creditPayment m dto => do
      Tx.ofExcept (parseCreateCreditPayment dto)
      let r ← createCreditPayment env actor m dto
      return .creditPayment r
  | .adjustStock p input => do
      Tx.ofExcept (parseStockAdjustment input)
      let after ← Server.adjustStock p input
      return .adjusted p after
  | .receivePo i => do
      let r ← receive env i
      return .received r
  | .retireDevice d cash force => do
      Tx.ofExcept (match cash with
        | none   => .ok ()
        | some c => parseCash c "physicalCash")
      let shift ← retire d cash force
      return .retired d shift
  | .updateMechanic m patch => do
      Tx.ofExcept (parseMechanicPatch patch)
      let row ← editMechanic m patch
      return .mechanic m row

/-! ## `/sync/push` -/

/-- An operation of a batch. What the till dates comes with its date; a date that is moved is noted under
the document's id, or else the operation's own. -/
inductive SyncOp where
  | saleCreate (dto : SaleWrite) (quoteId : Option QuoteId) (deviceDate : Option Nat)
  | returnCreate (dto : ReturnWrite) (deviceDate : Option Nat) (opId : Nat)
  | shiftOpen (input : ShiftOpenBody) (openedAt : Option Nat) (opId : Nat)
  | drawerEntry (entry : DrawerEntryBody) (deviceDate : Option Nat) (opId : Nat)
  | creditPaymentCreate (m : MechanicId) (dto : CreateCreditPayment)
  | customerCreate (id : Option CustomerId) (body : CustomerBody)
  | customerUpdate (c : CustomerId) (body : CustomerBody)
  | saleVoidOffline (x : SaleId) (reason : String)

/-- `endpointForOp`: the online route the operation stands for. -/
def SyncOp.endpoint : SyncOp → Endpoint
  | .saleCreate _ _ _         => .sales
  | .returnCreate _ _ _       => .returns
  | .shiftOpen _ _ _          => .openShift
  | .drawerEntry _ _ _        => .entries
  | .creditPaymentCreate m _  => .creditPayments m
  | .customerCreate _ _       => .customers
  | .customerUpdate c _       => .updateCustomer c
  | .saleVoidOffline x _      => .voidOffline x

/-- The document the operation names; for a void its bill. -/
def SyncOp.clientId : SyncOp → Option Nat
  | .saleCreate dto _ _         => some dto.id
  | .returnCreate dto _ _       => dto.id
  | .shiftOpen input _ _        => input.id
  | .drawerEntry entry _ _      => entry.id
  | .creditPaymentCreate _ dto  => dto.id
  | .customerCreate id _        => id
  | .customerUpdate c _         => some c
  | .saleVoidOffline x _        => some x

/-- `replayProbeOf`: the id a replay goes by. An update is none. -/
def SyncOp.replayId : SyncOp → Option Nat
  | .customerUpdate _ _ => none
  | op                  => op.clientId

/-- The bill as the parser of a push leaves it: sold offline, and with an account only when it was
paid by QR. -/
def SaleWrite.offline (dto : SaleWrite) : SaleWrite :=
  { dto with
    soldOffline := true
    paymentAccountId := if dto.paymentMethod = .qr then dto.paymentAccountId else none }

/-- `parseOpPayload` -/
def SyncOp.parse : SyncOp → Except ServerError Unit
  | .saleCreate dto _ _         => parseCreateSale { dto with paymentAccountId := none }
  | .returnCreate dto _ _       => parseCreateReturn dto
  | .shiftOpen input _ _        => parseCash input.startingCashSatang "startingCash"
  | .drawerEntry entry _ _      => parseDrawerEntry entry
  | .creditPaymentCreate _ dto  => parseCreateCreditPayment dto
  | .customerCreate id body     => (parseCustomerCreate id body).map fun _ => ()
  | .customerUpdate _ body      => (parseCustomerPatch body).map fun _ => ()
  | .saleVoidOffline _ reason   => parseVoidReason reason

/-- `flagRenumbered`: the till printed one number and the server stored another. Only a number in
the server's own format counts. -/
def flagRenumbered (id : Nat) (offlineNo : Option DocNo) (serverNo : DocNo) : Prog Unit :=
  match offlineNo with
  | some (.formatted n) =>
      if .formatted n = serverNo then return ()
      else Tx.update fun db => db.addReviewOnce ⟨.receiptRenumbered, id⟩
  | _                   => return ()

/-- The stock of some products, as they stand. -/
def stockOf (ps : List ProductId) (db : Db) : List (ProductId × Int) :=
  ps.filterMap fun p => (db.products.get p).map fun row => (p, row.stock)

def voidedReply (x : SaleId) (voidReason : Option String) (items : List SaleItem) : Prog Reply := do
  let products ← Tx.glance (stockOf (items.map (·.productId)))
  return .pushedVoid x voidReason products

/-- `checkClientIdReplay`: the answer from the document the server already has, or none. A document
that says something else is a reused id. -/
def checkClientIdReplay (op : SyncOp) : Prog (Option Reply) :=
  match op with
  | .saleCreate dto _ _ => do
      let existing ← existingSale dto.id dto.total true none
      match existing with
      | none   => return none
      | some r => do
          flagRenumbered r.id dto.receiptNo r.receiptNo
          return some (.sale r)
  | .returnCreate dto _ _ =>
      match dto.id with
      | none   => return none
      | some r => do
          let row ← Tx.glance fun db => db.returns.get r
          match row with
          | none      => return none
          | some note => do
              let lines := note.items.insertionSort fun i j => i.lineNo ≤ j.lineNo
              Tx.require (note.saleId = dto.saleId ∧
                lines.map (fun i => (i.productId, i.qty, i.price)) =
                  dto.items.map fun l => (l.productId, l.qty, l.price)) (.clientIdReused r)
              flagRenumbered r dto.cnNo note.cnNo
              let products ← Tx.glance (stockOf (lines.map (·.productId)))
              return some (.pushedReturn r note.cnNo note.saleId note.refundTotal note.refundMethod
                products)
  | .shiftOpen input _ _ =>
      match input.id with
      | none   => return none
      | some k => do
          let row ← Tx.glance fun db => db.shifts.get k
          match row with
          | none     => return none
          | some row => do
              Tx.require (row.startingCash = input.startingCashSatang) (.clientIdReused k)
              return some (.pushedShift k row.startingCash row.autoArchived)
  | .drawerEntry entry _ _ =>
      match entry.id with
      | none   => return none
      | some e => do
          let row ← Tx.glance fun db => db.drawerEntries.get e
          match row with
          | none     => return none
          | some row => do
              Tx.require (row.type = entry.type ∧ row.amount = entry.amountSatang) (.clientIdReused e)
              let balanceAfter ← Tx.glance fun db => db.expectedCash row.shiftId
              return some (.pushedEntry e row.type row.amount balanceAfter)
  | .creditPaymentCreate m dto =>
      match dto.id with
      | none   => return none
      | some i => do
          let row ← Tx.glance fun db => db.creditPayments.get i
          match row with
          | none     => return none
          | some row => do
              Tx.require (row.mechanicId = m ∧ row.amount = dto.amountSatang ∧
                row.paymentMethod = dto.paymentMethod) (.clientIdReused i)
              let balanceAfter ← Tx.glance fun db : Db =>
                (db.mechanics.get row.mechanicId).elim 0 (·.creditBalance)
              return some (.pushedPayment i row.mechanicId row.amount row.paymentMethod balanceAfter)
  | .customerCreate id _ =>
      match id with
      | none   => return none
      | some c => do
          let row ← Tx.glance fun db => (db.customers.get c).filter fun row => !row.deleted
          return row.map fun row =>
            .pushedCustomer c row.name row.phone row.address row.totalSpend row.points
  | .customerUpdate _ _ => return none
  | .saleVoidOffline x reason => do
      let row ← Tx.glance fun db => db.sales.get x
      match row with
      | none      => return none
      | some sale =>
          if sale.voided = false then return none
          else do
            let r ← voidedReply x (some (sale.voidReason.getD reason)) sale.items
            return some r

/-- `replayKeyOfSameDocument`: the key is recorded for another body, but for this operation's own
document. -/
def replayKeyOfSameDocument (key : Nat) (op : SyncOp) : Prog (Option Reply) :=
  match op.replayId with
  | none    => return none
  | some id => do
      let row ← Tx.glance fun db => db.idempotencyKeys.get key
      match row with
      | none        => return none
      | some stored =>
          if stored.endpoint ≠ op.endpoint ∨ (stored.response.bind Reply.documentId) ≠ some id then
            return none
          else checkClientIdReplay op

/-- `settleOfflineQuote`: the money was taken, so the bill stands whatever became of the quote. -/
def settleOfflineQuote (q : QuoteId) (x : SaleId) (state : QuoteState) : Prog Unit :=
  match state with
  | .fresh       => markConverted q x
  | .replay      => return ()
  | .saleIdTaken => return ()
  | _            => Tx.update fun db => db.addReviewOnce ⟨.quoteConflict, x⟩

def pushSale (env : Env) (actor : Actor) (dto : SaleWrite) (quoteId : Option QuoteId)
    (soldAt : Option Nat) : Prog Reply :=
  match quoteId with
  | none   => do
      let r ← createSale env actor dto
      return .sale r
  | some q => do
      let state ← lockAndClassify env q dto.id soldAt
      let r ← createSale env actor dto
      settleOfflineQuote q r.id state
      return .sale r

/-- `flagOverdrawnOffline` -/
def flagOverdrawnOffline (e : EntryId) (k : ShiftId) : Prog Unit := do
  let after ← Tx.glance fun db => db.expectedCash k
  Tx.whenever (after < 0) (Tx.update fun db => db.addReviewOnce ⟨.drawerOverdrawnOffline, e⟩)

def pushEntry (env : Env) (actor : Actor) (entry : DrawerEntryBody) : Prog Reply := do
  let r ← addEntry env actor entry true
  let balanceAfter ← Tx.glance fun db => db.expectedCash r.2.shiftId
  Tx.whenever (r.2.type = .cashOut) (flagOverdrawnOffline r.1 r.2.shiftId)
  return .pushedEntry r.1 r.2.type r.2.amount balanceAfter

/-! ### The till's dates -/

/-- `DATE_TOLERANCE_MS` -/
def dateTolerance : Nat := 5 * 60

def insertDateFlag (refId : Nat) : Prog Unit := Tx.update fun db => db.addReview ⟨.dateFlag, refId⟩

/-- The till's date, inside the window that the clock and the open drawer leave. -/
def clampDate (now : Nat) (openedAt : Option Nat) (opDate : Option Nat) : Option Nat :=
  opDate.map fun date =>
    if now + dateTolerance < date then now
    else match openedAt with
      | some opened => if date + dateTolerance < opened then opened else date
      | none        => date

/-- `periodMismatch`: the number the till printed is of another month than the date it is stored under. -/
def periodMismatch (env : Env) (docNo : Option DocNo) (date : Nat) : Bool :=
  (docNo.bind fun n => docNumberRegex (JsString.trim n.text).toList).any fun m => m.period ≠ env.periodOf date

/-- When the device's open drawer was opened. -/
def Db.openedAt (d : DeviceId) (db : Db) : Option Nat :=
  (db.openShift d).bind fun k => (db.shifts.get k).map (·.openedAt)

/-- `clampOpDate`: the date that a queued write is stored under. One that is moved, or that the printed
number contradicts, goes on the owner's list. -/
def clampOpDate (env : Env) (d : DeviceId) (docNo : Option DocNo) (refId : Nat) (opDate : Option Nat) :
    Prog (Option Nat) := do
  let openedAt ← Tx.glance (Db.openedAt d)
  let stored := clampDate env.now openedAt opDate
  Tx.whenever (stored ≠ opDate ∨ periodMismatch env docNo (stored.getD env.now) = true) (insertDateFlag refId)
  return stored

/-- A drawer is dated before the one that is open, so that only the future side is looked at. -/
def flagFutureOpen (env : Env) (refId : Nat) (openedAt : Option Nat) : Prog Unit :=
  Tx.whenever (clampDate env.now none openedAt ≠ openedAt) (insertDateFlag refId)

def pushShift (env : Env) (actor : Actor) (input : ShiftOpenBody) (openedAt : Option Nat)
    (opId : Nat) : Prog Reply := do
  let previousActive ← Tx.glance fun db => (db.activeShifts actor.deviceId).head?
  flagFutureOpen env (input.id.getD opId) openedAt
  let r ← openShift env actor (input.at (clampDate env.now none openedAt))
  return .pushedShift r.1 r.2.startingCash previousActive.isSome

def pushVoid (actor : Actor) (x : SaleId) (reason : String) : Prog Reply := do
  let row ← Tx.glance fun db => db.sales.get x
  let sale ← Tx.orFail row .saleNotFound
  Tx.require (sale.soldOffline = true) .voidNeedsOnline
  let _ ← voidSale actor x reason
  Tx.update fun db => db.addReview ⟨.voidOffline, x⟩
  voidedReply x (some reason) sale.items

/-- `executeOp` -/
def SyncOp.execute (env : Env) (actor : Actor) : SyncOp → Prog Reply
  | .saleCreate dto quoteId deviceDate => do
      let date ← clampOpDate env actor.deviceId dto.receiptNo dto.id deviceDate
      pushSale env actor dto.offline quoteId date
  | .returnCreate dto deviceDate opId => do
      let _ ← clampOpDate env actor.deviceId dto.cnNo (dto.id.getD opId) deviceDate
      let r ← createReturn env actor dto
      return .pushedReturn r.id r.note.cnNo r.note.saleId r.note.refundTotal r.note.refundMethod
        r.products
  | .shiftOpen input openedAt opId => pushShift env actor input openedAt opId
  | .drawerEntry entry deviceDate opId => do
      let _ ← clampOpDate env actor.deviceId none (entry.id.getD opId) deviceDate
      pushEntry env actor entry
  | .creditPaymentCreate m dto => do
      let r ← createCreditPayment env actor m { dto with allowOverpayment := false }
      return .pushedPayment r.id r.payment.mechanicId r.payment.amount r.payment.paymentMethod
        r.mechanicCreditBalanceAfter
  | .customerCreate id body => do
      let input ← Tx.ofExcept (parseCustomerCreate id body)
      let r ← createCustomer env input
      return .pushedCustomer r.1 r.2.name r.2.phone r.2.address r.2.totalSpend r.2.points
  | .customerUpdate c body => do
      let patch ← Tx.ofExcept (parseCustomerPatch body)
      let row ← editCustomer c patch
      return .pushedContact c row.phone
  | .saleVoidOffline x reason => pushVoid actor x reason

/-- `processSingleOp` -/
def processSingleOp (env : Env) (actor : Actor) (key : Nat) (requestHash : Nat) (op : SyncOp) :
    Prog Reply := do
  let outcome ← claim env key op.endpoint requestHash
  match outcome with
  | .replay body => return body
  | .reused      => do
      let own ← replayKeyOfSameDocument key op
      match own with
      | some r => return r
      | none   => do
          Tx.ofExcept op.parse
          Tx.fail .idempotencyKeyReused
  | .claimed     => do
      let existing ← checkClientIdReplay op
      match existing with
      | some r => do
          complete key r
          return r
      | none   => do
          Tx.ofExcept op.parse
          let r ← op.execute env actor
          complete key r
          return r

/-- `updateUnsyncedOps`: what the till says it still holds, after a batch. -/
def updateUnsyncedOps (d : DeviceId) (outboxRemaining : Nat) : Prog Unit := do
  Tx.acquire (.device d) .update
  Tx.update fun db => db.modifyDevice d fun row => { row with unsyncedOps := outboxRemaining }

/-! ## What they do to the books -/

/-- The change of the books a request may commit. -/
def Request.Allows (env : Env) (actor : Actor) : Request → Effect → Prop
  | .sale dto _, e            => e = .sale actor dto.online
  | .convertQuote _ party, e  => ∃ dto, dto.id = party.id ∧ e = .sale actor dto
  | .voidSale x reason, e     => e = .voidSale actor x reason
  | .creditNote dto, e        => e = .creditNote actor (dto.id.getD env.newUuid) dto
  | .openShift input, e       => e = .openShift actor.deviceId none ∨
      e = .openShift actor.deviceId (some (input.id.getD env.newUuid, input.startingCashSatang))
  | .closeShift cash, e       => ∃ k, e = .closeShift actor.deviceId k cash
  | .entry body, e            => e = .entry actor.deviceId (body.id.getD env.newUuid) body
  | .creditPayment m dto, e   => e = .creditPayment actor (dto.id.getD env.newUuid) m dto
  | .adjustStock p input, e   => e = .adjustStock p input
  | .receivePo i, e           => ∃ ids, e = .receivePo env.lower i ids
  | .retireDevice d _ _, e    => e = .retire d
  | .updateMechanic m patch, e => e = .editMechanic m patch

/-- The change of the books a queued operation may commit. -/
def SyncOp.Allows (env : Env) (actor : Actor) : SyncOp → Effect → Prop
  | .saleCreate dto _ _, e         => e = .sale actor dto.offline
  | .returnCreate dto _ _, e       => e = .creditNote actor (dto.id.getD env.newUuid) dto
  | .shiftOpen input _ _, e        => e = .openShift actor.deviceId none ∨
      e = .openShift actor.deviceId (some (input.id.getD env.newUuid, input.startingCashSatang))
  | .drawerEntry entry _ _, e      => e = .entry actor.deviceId (entry.id.getD env.newUuid) entry
  | .creditPaymentCreate m dto, e  =>
      e = .creditPayment actor (dto.id.getD env.newUuid) m { dto with allowOverpayment := false }
  | .customerCreate id body, e     => ∃ input, parseCustomerCreate id body = .ok input ∧
      e = .createCustomer (input.id.getD env.newUuid) input
  | .customerUpdate c body, e      => ∃ patch, parseCustomerPatch body = .ok patch ∧ e = .editCustomer c patch
  | .saleVoidOffline x reason, e   => e = .voidSale actor x reason

/-! ### Parsers answer their caller -/

/-- Every error of a computation satisfies `P`. -/
def Errors {α : Type} (P : ServerError → Prop) (r : Except ServerError α) : Prop :=
  ∀ e, r = .error e → P e

/-- Every error of a computation is an answer to the caller. -/
def AllExpected {α : Type} (r : Except ServerError α) : Prop := ∀ e, r = .error e → Expected e

section
variable {r r' : Except ServerError Unit} {P : ServerError → Prop}

theorem Errors.seq (h : Errors P r) (h' : Errors P r') : Errors P (r >>= fun _ => r') := by
  intro e he
  cases r with
  | error e' =>
      cases he
      exact h _ rfl
  | ok u => exact h' e he

theorem Errors.forM {α : Type} {f : α → Except ServerError Unit} (hf : ∀ a, Errors P (f a))
    (as : List α) : Errors P (as.forM f) := by
  induction as with
  | nil => exact fun e he => by cases he
  | cons a as ih => exact (hf a).seq ih

theorem AllExpected.seq (h : AllExpected r) (h' : AllExpected r') :
    AllExpected (r >>= fun _ => r') := Errors.seq h h'

theorem AllExpected.forM {α : Type} {f : α → Except ServerError Unit} (hf : ∀ a, AllExpected (f a))
    (as : List α) : AllExpected (as.forM f) := Errors.forM hf as

variable (hP : ∀ message, P (.badRequest message))
include hP

theorem Errors.check (c : Prop) [Decidable c] (message : String) : Errors P (check c message) := by
  intro e h
  rw [Server.check] at h
  split at h
  · cases h
  · cases h
    exact hP message

theorem parseItemsArray_errors {α : Type} (items : List α) : Errors P (parseItemsArray items) :=
  (Errors.check hP _ _).seq (Errors.check hP _ _)

theorem parseSaleParty_errors (method : PaymentMethod) (account : Option AccountId) :
    Errors P (parseSaleParty method account) :=
  (Errors.check hP _ _).seq (Errors.check hP _ _)

/-- What the parser of a bill finds wrong is always the body. -/
theorem parseCreateSale_errors (dto : SaleWrite) : Errors P (parseCreateSale dto) := by
  have hcheck : ∀ (c : Prop) [Decidable c] (message : String), Errors P (Server.check c message) :=
    Errors.check hP
  have hline : ∀ l, Errors P (parseLine l) := fun l =>
    (hcheck _ _).seq ((hcheck _ _).seq (hcheck _ _))
  have hlines : Errors P (parseLines dto.items) := (Errors.forM hline _).seq (hcheck _ _)
  have hmoney : Errors P (assertMoneyMakesSense dto) :=
    (hcheck _ _).seq ((hcheck _ _).seq ((hcheck _ _).seq (hcheck _ _)))
  exact (parseItemsArray_errors hP _).seq
    ((parseSaleParty_errors hP _ _).seq (hlines.seq hmoney))

omit hP

theorem AllExpected.check (c : Prop) [Decidable c] (message : String) :
    AllExpected (check c message) := Errors.check (fun _ => rfl) c message

theorem parseItemsArray_expected {α : Type} (items : List α) :
    AllExpected (parseItemsArray items) := parseItemsArray_errors (fun _ => rfl) items

theorem parseSaleParty_expected (method : PaymentMethod) (account : Option AccountId) :
    AllExpected (parseSaleParty method account) := parseSaleParty_errors (fun _ => rfl) method account

theorem parseCreateSale_expected (dto : SaleWrite) : AllExpected (parseCreateSale dto) :=
  parseCreateSale_errors (fun _ => rfl) dto

theorem parseCreateReturn_expected (dto : ReturnWrite) : AllExpected (parseCreateReturn dto) := by
  have hline : ∀ l, AllExpected (parseReturnLine l) := fun l =>
    (AllExpected.check _ _).seq ((AllExpected.check _ _).seq (.check _ _))
  exact (parseItemsArray_expected _).seq
    ((AllExpected.check _ _).seq (AllExpected.forM hline _))

theorem parseCreateCreditPayment_expected (dto : CreateCreditPayment) :
    AllExpected (parseCreateCreditPayment dto) := (AllExpected.check _ _).seq (.check _ _)

theorem parseStockAdjustment_expected (input : StockAdjustment) :
    AllExpected (parseStockAdjustment input) := by
  intro e he
  rw [parseStockAdjustment] at he
  split_ifs at he <;> cases he <;> rfl

section
variable {α β : Type} {r : Except ServerError α} {f : α → Except ServerError β}

theorem AllExpected.ok (a : α) : AllExpected (.ok a) := fun _ he => by cases he

theorem AllExpected.bind (h : AllExpected r) (hf : ∀ a, AllExpected (f a)) : AllExpected (r >>= f) := by
  intro e he
  cases r with
  | error e' =>
      cases he
      exact h _ rfl
  | ok a => exact hf a e he

theorem AllExpected.map (h : AllExpected r) (g : α → β) : AllExpected (r.map g) := by
  have hbind := h.bind fun a => AllExpected.ok (g a)
  cases r with
  | error e => exact hbind
  | ok a => exact hbind

end

theorem oneOrOther_expected (field : String) (one other : Option (Option String)) :
    AllExpected (oneOrOther field one other) := by
  intro e he
  rw [oneOrOther] at he
  split at he <;> cases he
  rfl

theorem whenPresent_expected {value : Except ServerError String} (there : Bool) (h : AllExpected value) :
    AllExpected (whenPresent there value) := by
  cases there with
  | false => exact .ok none
  | true => exact h.map some

theorem parseCustomerCreate_expected (id : Option CustomerId) (body : CustomerBody) :
    AllExpected (parseCustomerCreate id body) :=
  (oneOrOther_expected _ _ _).bind fun _ => .ok _

theorem parseCustomerPatch_expected (body : CustomerBody) : AllExpected (parseCustomerPatch body) :=
  (whenPresent_expected _ (oneOrOther_expected _ _ _)).bind fun _ =>
    (whenPresent_expected _ (oneOrOther_expected _ _ _)).bind fun _ => .ok _

theorem SyncOp.parse_expected (op : SyncOp) : AllExpected op.parse := by
  cases op with
  | saleCreate dto quoteId deviceDate => exact parseCreateSale_expected _
  | returnCreate dto deviceDate opId => exact parseCreateReturn_expected _
  | shiftOpen input openedAt opId => exact .check _ _
  | drawerEntry entry deviceDate opId => exact .check _ _
  | creditPaymentCreate m dto => exact parseCreateCreditPayment_expected _
  | customerCreate id body => exact (parseCustomerCreate_expected id body).map _
  | customerUpdate c body => exact (parseCustomerPatch_expected body).map _
  | saleVoidOffline x reason => exact .check _ _

/-- A bill that passes the parser passes it without its QR account. -/
theorem parseCreateSale_dropAccount {dto : SaleWrite} (h : parseCreateSale dto = .ok ()) :
    parseCreateSale { dto with paymentAccountId := none } = .ok () := by
  simp only [parseCreateSale, parseSaleParty, bind, Except.bind] at h ⊢
  cases hitems : parseItemsArray dto.items with
  | error e => simp [hitems] at h
  | ok u =>
      simp only [hitems] at h ⊢
      by_cases hm : dto.paymentMethod.offered = true
      · simp only [Server.check, hm, if_true, true_or] at h ⊢
        split at h
        · cases h
        · simpa [assertMoneyMakesSense] using h
      · simp [Server.check, hm] at h

end

/-! ### The handlers -/

section
variable {H : Held LockKey} {s : Db} {env : Env} {actor : Actor}

/-- **What a request of the counter does to the books.** -/
theorem wp_handle (hs : s.Consistent) (req : Request) :
    wp (req.handle env actor) H s Expected fun _ H' s' =>
      Works (req.Allows env actor) s s' ∧ Covered agree H' s s' := by
  cases req with
  | sale dto quoteId =>
      refine wp_bind_ofExcept (fun _ hparse => ?_) (parseCreateSale_expected _)
      have hsrc : SaleSource dto.online := .parsed (parseCreateSale_dropAccount hparse)
      cases quoteId with
      | none => exact wp_seq (wp_createSale hs) fun r H' s' h => ⟨⟨h.1.performs hsrc, h.1.atDesk⟩, h.2⟩
      | some q => exact wp_seq (wp_sell hs) fun r H' s' h => ⟨⟨h.1.performs hsrc, h.1.atDesk⟩, h.2⟩
  | convertQuote q party =>
      refine wp_bind_ofExcept (fun _ hparse => ?_) (parseSaleParty_expected _ _)
      refine wp_seq (wp_convert hs) ?_
      rintro r H' s' ⟨quote, dto, -, hdto, hsold, hcov⟩
      obtain ⟨e, he, hperf⟩ := hsold.performs (.quoted quote party hparse hdto)
      exact ⟨⟨⟨e, he.imp_right fun he => ⟨dto, id_saleFrom hdto, he⟩, hperf⟩, hsold.atDesk⟩, hcov⟩
  | voidSale x reason =>
      refine wp_bind_ofExcept (fun _ hparse => ?_) (AllExpected.check _ _)
      exact wp_seq (wp_voidSale hs) fun r H' s' h => ⟨⟨⟨_, .inr rfl, h.1.performs⟩, h.1.atDesk⟩, h.2⟩
  | creditNote dto =>
      refine wp_bind_ofExcept (fun _ hparse => ?_) (parseCreateReturn_expected _)
      exact wp_seq (wp_createReturn hs) fun r H' s' h => ⟨⟨h.1.performs hparse, h.1.atDesk⟩, h.2⟩
  | openShift input =>
      refine wp_bind_ofExcept (fun _ hparse => ?_) (AllExpected.check _ _)
      exact wp_seq wp_openShift fun r H' s' h => ⟨⟨h.1.performs, h.1.atDesk⟩, h.2⟩
  | closeShift cash =>
      refine wp_bind_ofExcept (fun _ hparse => ?_) (AllExpected.check _ _)
      refine (wp_bind _ _).mpr (wp_close fun k row hrow hopen =>
        ⟨⟨⟨_, .inr ⟨k, rfl⟩, ?_⟩, AtDesk.of_quiet rfl rfl fun _ hx => hx⟩, ?_⟩)
      · exact (Changes.closeShift _ k row cash hrow hopen).performs rfl
      · exact Covered.closeShift (Covered.refl _ _) List.mem_cons_self cash
  | entry body =>
      refine wp_bind_ofExcept (fun _ hparse => ?_) (AllExpected.check _ _)
      exact wp_seq wp_addEntry fun r H' s' h => ⟨⟨h.1.performs, h.1.atDesk⟩, h.2⟩
  | creditPayment m dto =>
      refine wp_bind_ofExcept (fun _ hparse => ?_) (parseCreateCreditPayment_expected _)
      exact wp_seq wp_createCreditPayment fun r H' s' h => ⟨⟨h.1.performs hparse, h.1.atDesk⟩, h.2⟩
  | adjustStock p input =>
      refine wp_bind_ofExcept (fun _ hparse => ?_) (parseStockAdjustment_expected _)
      exact wp_seq wp_adjustStock fun r H' s' h =>
        ⟨⟨⟨_, .inr rfl, h.1.performs hparse⟩, h.1.atDesk⟩, h.2⟩
  | receivePo i =>
      refine wp_seq (wp_receive hs) fun r H' s' h => ⟨⟨?_, h.1.atDesk⟩, h.2⟩
      obtain ⟨ids, hperf⟩ := h.1.performs
      exact ⟨_, .inr ⟨ids, rfl⟩, hperf⟩
  | retireDevice d cash force =>
      refine wp_bind_ofExcept (fun _ hparse => ?_) ?_
      · exact wp_seq wp_retire fun r H' s' h => ⟨⟨⟨_, .inr rfl, h.1.performs⟩, h.1.atDesk⟩, h.2⟩
      · cases cash with
        | none => exact fun e he => by cases he
        | some c => exact AllExpected.check _ _
  | updateMechanic m patch =>
      refine wp_bind_ofExcept (fun _ hparse => ?_) (AllExpected.check _ _)
      refine wp_seq wp_editMechanic ?_
      rintro r H' s' ⟨⟨row, hrow, halive, rfl⟩, hcov⟩
      refine ⟨⟨⟨_, .inr rfl, ?_⟩, AtDesk.of_quiet rfl rfl fun _ hx => hx⟩, hcov⟩
      exact (Changes.editMechanic m patch row hrow halive).performs rfl

/-- A step at the desk, after others. -/
theorem Works.then_desk {P : Effect → Prop} {s₁ : Db} {H' : Held LockKey} {desk : Desk}
    (h : Works P s s₁ ∧ Covered agree H s s₁) (hH : H ⊆ H') (hfiled : s₁.Filed desk)
    (hcov : Covered agree H' s₁ (s₁.withDesk desk)) :
    Works P s (s₁.withDesk desk) ∧ Covered agree H' s (s₁.withDesk desk) :=
  ⟨h.1.before_desk hfiled, Covered.trans (Covered.mono h.2 hH) hcov⟩

theorem filed_addReview (db : Db) (r : ReviewItem) : db.Filed (db.addReview r).desk := ⟨rfl, rfl⟩

theorem filed_addReviewOnce (db : Db) (r : ReviewItem) : db.Filed (db.addReviewOnce r).desk :=
  ⟨rfl, rfl⟩

theorem covered_addReviewOnce (r : ReviewItem) : Covered agree H s (s.addReviewOnce r) :=
  Covered.of_view (Covered.refl _ _) fun lk db => view_addReviewOnce lk db r

theorem covered_addReview (r : ReviewItem) : Covered agree H s (s.addReview r) :=
  Covered.of_view (Covered.refl _ _) fun lk db => view_addReview lk db r

/-- A document that got another number than the till printed leaves a review item, nothing more. -/
theorem wp_flagRenumbered {id : Nat} {offlineNo : Option DocNo} {serverNo : DocNo}
    {Q : Unit → Held LockKey → Db → Prop}
    (h : ∀ desk, s.Filed desk → Covered agree H s (s.withDesk desk) → Q () H (s.withDesk desk)) :
    wp (flagRenumbered id offlineNo serverNo) H s Expected Q := by
  have hsame := h s.desk (.refl s) (Covered.refl _ _)
  rcases offlineNo with _ | n | text
  · exact hsame
  · rw [flagRenumbered]
    split
    · exact hsame
    · exact h (s.addReviewOnce ⟨.receiptRenumbered, id⟩).desk (filed_addReviewOnce _ _)
        (covered_addReviewOnce _)
  · exact hsame

/-- A replay by the document's id writes at the desk only. -/
theorem wp_checkClientIdReplay {op : SyncOp} {Q : Option Reply → Held LockKey → Db → Prop}
    (h : ∀ out desk, s.Filed desk → Covered agree H s (s.withDesk desk) →
      Q out H (s.withDesk desk)) : wp (checkClientIdReplay op) H s Expected Q := by
  have hsame : ∀ out, Q out H s := fun out => h out s.desk (.refl s) (Covered.refl _ _)
  cases op with
  | saleCreate dto quoteId soldAt =>
      refine (wp_bind _ _).mpr (wp_existingSale (hsame none) fun r hr => ?_)
      exact (wp_bind _ _).mpr (wp_flagRenumbered fun desk hfiled hcov => h _ desk hfiled hcov)
  | returnCreate dto deviceDate opId =>
      simp only [checkClientIdReplay]
      cases dto.id with
      | none => exact hsame none
      | some r =>
          refine wp_bind_glance fun s₀ => ?_
          cases s₀.returns.get r with
          | none => exact hsame none
          | some note =>
              refine wp_bind_require (fun _ => ?_) fun _ => rfl
              refine (wp_bind _ _).mpr (wp_flagRenumbered fun desk hfiled hcov => ?_)
              exact wp_bind_glance fun s₁ => h _ desk hfiled hcov
  | shiftOpen input openedAt opId =>
      simp only [checkClientIdReplay]
      cases input.id with
      | none => exact hsame none
      | some k =>
          refine wp_bind_glance fun s₀ => ?_
          cases s₀.shifts.get k with
          | none => exact hsame none
          | some row => exact wp_bind_require (fun _ => hsame _) fun _ => rfl
  | drawerEntry entry deviceDate opId =>
      simp only [checkClientIdReplay]
      cases entry.id with
      | none => exact hsame none
      | some e =>
          refine wp_bind_glance fun s₀ => ?_
          cases s₀.drawerEntries.get e with
          | none => exact hsame none
          | some row =>
              exact wp_bind_require (fun _ => wp_bind_glance fun s₁ => hsame _) fun _ => rfl
  | creditPaymentCreate m dto =>
      simp only [checkClientIdReplay]
      cases dto.id with
      | none => exact hsame none
      | some i =>
          refine wp_bind_glance fun s₀ => ?_
          cases s₀.creditPayments.get i with
          | none => exact hsame none
          | some row =>
              exact wp_bind_require (fun _ => wp_bind_glance fun s₁ => hsame _) fun _ => rfl
  | customerCreate id body =>
      cases id with
      | none => exact hsame none
      | some c => exact wp_bind_glance fun s₀ => hsame _
  | customerUpdate c body => exact hsame none
  | saleVoidOffline x reason =>
      refine wp_bind_glance fun s₀ => ?_
      cases s₀.sales.get x with
      | none => exact hsame none
      | some sale =>
          dsimp only
          split
          · exact hsame none
          · exact (wp_bind _ _).mpr ((wp_bind_glance fun s₁ => hsame _))

/-- A quote that was sold offline is settled on the desk: by a mark, by a review item, or not at all. -/
theorem wp_settleOfflineQuote {q : QuoteId} {x : SaleId} {state : QuoteState}
    {Q : Unit → Held LockKey → Db → Prop}
    (h : ∀ H' desk, H ⊆ H' → s.Filed desk → Covered agree H' s (s.withDesk desk) →
      Q () H' (s.withDesk desk)) : wp (settleOfflineQuote q x state) H s Expected Q := by
  have hsame := h H s.desk (List.Subset.refl _) (.refl s) (Covered.refl _ _)
  have hconflict : Q () H (s.addReviewOnce ⟨.quoteConflict, x⟩) :=
    h H (s.addReviewOnce ⟨.quoteConflict, x⟩).desk (List.Subset.refl _) (filed_addReviewOnce _ _)
      (covered_addReviewOnce _)
  cases state with
  | fresh =>
      exact wp_markConverted (h _ (s.convertQuote q x).desk (List.subset_cons_self _ _)
        ⟨rfl, rfl⟩ (Covered.convertQuote (Covered.refl _ _) List.mem_cons_self x))
  | replay => exact hsame
  | saleIdTaken => exact hsame
  | missing => exact hconflict
  | converted c => exact hconflict
  | expired v => exact hconflict

theorem wp_flagOverdrawnOffline {e : EntryId} {k : ShiftId} {Q : Unit → Held LockKey → Db → Prop}
    (h : ∀ desk, s.Filed desk → Covered agree H s (s.withDesk desk) → Q () H (s.withDesk desk)) :
    wp (flagOverdrawnOffline e k) H s Expected Q := by
  refine wp_bind_glance fun s₀ => ?_
  rw [Tx.whenever]
  split
  · exact h (s.addReviewOnce ⟨.drawerOverdrawnOffline, e⟩).desk (filed_addReviewOnce _ _)
      (covered_addReviewOnce _)
  · exact h s.desk (.refl s) (Covered.refl _ _)

/-- A date changes nothing, or it puts one item on the owner's list. -/
theorem wp_clampOpDate {d : DeviceId} {docNo : Option DocNo} {refId : Nat} {opDate : Option Nat}
    {Q : Option Nat → Held LockKey → Db → Prop}
    (h : ∀ date t, t = s ∨ t = s.addReview ⟨.dateFlag, refId⟩ → Q date H t) :
    wp (clampOpDate env d docNo refId opDate) H s Expected Q :=
  wp_bind_glance fun _ => wp_bind_whenever (fun _ => h _ _ (.inr rfl)) fun _ => h _ _ (.inl rfl)

/-- What follows a date works on the same books. -/
theorem wp_bind_clampOpDate {P : Effect → Prop} {d : DeviceId} {docNo : Option DocNo} {refId : Nat}
    {opDate : Option Nat} {f : Option Nat → Prog Reply}
    (h : ∀ date desk, wp (f date) H (s.withDesk desk) Expected fun _ H' s' =>
      Works P (s.withDesk desk) s' ∧ Covered agree H' (s.withDesk desk) s') :
    wp (clampOpDate env d docNo refId opDate >>= f) H s Expected fun _ H' s' =>
      Works P s s' ∧ Covered agree H' s s' := by
  have hstays : ∀ date desk, s.Filed desk → Covered agree H s (s.withDesk desk) →
      wp (f date) H (s.withDesk desk) Expected fun _ H' s' =>
        Works P s s' ∧ Covered agree H' s s' := by
    intro date desk hfiled hcov
    refine wp_mono (wp_grow (h date desk)) (fun _ he => he) ?_
    rintro r H' s' ⟨⟨hworks, hcov'⟩, hH⟩
    exact ⟨hworks.after_desk hfiled, Covered.trans (Covered.mono hcov hH) hcov'⟩
  refine (wp_bind _ _).mpr (wp_clampOpDate fun date t ht => ?_)
  rcases ht with rfl | rfl
  · exact hstays date t.desk (.refl t) (Covered.refl _ _)
  · exact hstays date (s.addReview ⟨.dateFlag, refId⟩).desk (filed_addReview _ _) (covered_addReview _)

theorem wp_flagFutureOpen {refId : Nat} {openedAt : Option Nat}
    {Q : Unit → Held LockKey → Db → Prop}
    (h : ∀ desk, s.Filed desk → Covered agree H s (s.withDesk desk) → Q () H (s.withDesk desk)) :
    wp (flagFutureOpen env refId openedAt) H s Expected Q := by
  rw [flagFutureOpen, Tx.whenever]
  split
  · exact h (s.addReview ⟨.dateFlag, refId⟩).desk (filed_addReview _ _) (covered_addReview _)
  · exact h s.desk (.refl s) (Covered.refl _ _)

theorem wp_pushSale (hs : s.Consistent) {dto : SaleWrite} (hsrc : SaleSource dto)
    (quoteId : Option QuoteId) (soldAt : Option Nat) :
    wp (pushSale env actor dto quoteId soldAt) H s Expected fun _ H' s' =>
      Works (fun e => e = .sale actor dto) s s' ∧ Covered agree H' s s' := by
  cases quoteId with
  | none => exact wp_seq (wp_createSale hs) fun r H' s' h => ⟨⟨h.1.performs hsrc, h.1.atDesk⟩, h.2⟩
  | some q =>
      refine (wp_bind _ _).mpr (wp_lockAndClassify fun state => ?_)
      refine wp_seq (wp_createSale hs) fun r H₁ s₁ h => ?_
      refine (wp_bind _ _).mpr (wp_settleOfflineQuote fun H₂ desk hH₂ hfiled hcov => ?_)
      exact Works.then_desk ⟨⟨h.1.performs hsrc, h.1.atDesk⟩, h.2⟩ hH₂ hfiled hcov

theorem wp_pushEntry {entry : DrawerEntryBody} :
    wp (pushEntry env actor entry) H s Expected fun _ H' s' =>
      Works (fun e => e = .entry actor.deviceId (entry.id.getD env.newUuid) entry) s s' ∧
        Covered agree H' s s' := by
  refine wp_seq wp_addEntry fun r H₁ s₁ h => wp_bind_glance fun s₂ => ?_
  have hadded : Works (fun e => e = .entry actor.deviceId (entry.id.getD env.newUuid) entry) s s₁ ∧
      Covered agree H₁ s s₁ := ⟨⟨h.1.performs, h.1.atDesk⟩, h.2⟩
  refine wp_bind_whenever (fun _ => ?_) fun _ => hadded
  exact wp_flagOverdrawnOffline fun desk hfiled hcov =>
    Works.then_desk hadded (List.Subset.refl _) hfiled hcov

theorem wp_pushVoid (hs : s.Consistent) {x : SaleId} {reason : String} :
    wp (pushVoid actor x reason) H s Expected fun _ H' s' =>
      Works (fun e => e = .voidSale actor x reason) s s' ∧ Covered agree H' s s' := by
  refine wp_bind_glance fun s₀ => wp_bind_orFail (fun sale _ => ?_) fun _ => rfl
  refine wp_bind_require (fun _ => ?_) fun _ => rfl
  refine wp_seq (wp_voidSale hs) fun _ H₁ s₁ h => wp_bind_update (wp_bind_glance fun s₂ => ?_)
  have hcov : Covered agree H₁ s₁ (s₁.withDesk (s₁.addReview ⟨.voidOffline, x⟩).desk) :=
    covered_addReview _
  have hvoid : Works (fun e => e = .voidSale actor x reason) s s₁ :=
    ⟨⟨_, .inr rfl, h.1.performs⟩, h.1.atDesk⟩
  exact Works.then_desk ⟨hvoid, h.2⟩ (List.Subset.refl _) (filed_addReview _ _) hcov

/-- **What an operation of a push does to the books**, once it is not a replay. -/
theorem wp_execute (hs : s.Consistent) (op : SyncOp) (hparse : op.parse = .ok ()) :
    wp (op.execute env actor) H s Expected fun _ H' s' =>
      Works (op.Allows env actor) s s' ∧ Covered agree H' s s' := by
  cases op with
  | saleCreate dto quoteId deviceDate =>
      have hparse' : parseCreateSale { dto.offline with paymentAccountId := none } = .ok () := hparse
      refine wp_bind_clampOpDate fun date desk => ?_
      have hs' : (s.withDesk desk).Consistent := hs
      exact wp_pushSale hs' (.parsed hparse') quoteId date
  | returnCreate dto deviceDate opId =>
      refine wp_bind_clampOpDate fun date desk => ?_
      exact wp_seq (wp_createReturn hs) fun r H' s' h => ⟨⟨h.1.performs hparse, h.1.atDesk⟩, h.2⟩
  | shiftOpen input openedAt opId =>
      refine wp_bind_glance fun s₀ => (wp_bind _ _).mpr (wp_flagFutureOpen fun desk hfiled hcov => ?_)
      refine wp_seq (wp_grow wp_openShift) ?_
      rintro r H' s' ⟨⟨hopened, hcov'⟩, hH⟩
      have hworks : Works ((SyncOp.shiftOpen input openedAt opId).Allows env actor)
          (s.withDesk desk) s' := ⟨hopened.performs, hopened.atDesk⟩
      exact ⟨hworks.after_desk hfiled, Covered.trans (Covered.mono hcov hH) hcov'⟩
  | drawerEntry entry deviceDate opId => exact wp_bind_clampOpDate fun date desk => wp_pushEntry
  | creditPaymentCreate m dto =>
      have hparse' : parseCreateCreditPayment { dto with allowOverpayment := false } = .ok () :=
        hparse
      exact wp_seq wp_createCreditPayment fun r H' s' h => ⟨⟨h.1.performs hparse', h.1.atDesk⟩, h.2⟩
  | customerCreate id body =>
      refine wp_bind_ofExcept (fun input hinput => ?_) (parseCustomerCreate_expected id body)
      refine wp_seq wp_createCustomer ?_
      rintro ⟨c, row⟩ H' s' ⟨⟨rfl, hnew, code, rfl, rfl⟩, hcov⟩
      refine ⟨⟨⟨_, .inr ⟨input, hinput, rfl⟩, ?_⟩, AtDesk.of_quiet rfl rfl fun _ hx => hx⟩, hcov⟩
      exact (Changes.createCustomer _ input code hnew).performs rfl
  | customerUpdate c body =>
      refine wp_bind_ofExcept (fun patch hpatch => ?_) (parseCustomerPatch_expected body)
      refine wp_seq wp_editCustomer ?_
      rintro r H' s' ⟨⟨row, hrow, halive, -, rfl⟩, hcov⟩
      refine ⟨⟨⟨_, .inr ⟨patch, hpatch, rfl⟩, ?_⟩, AtDesk.of_quiet rfl rfl fun _ hx => hx⟩, hcov⟩
      exact (Changes.editCustomer c patch row hrow halive).performs rfl
  | saleVoidOffline x reason => exact wp_pushVoid hs

/-- A key of the same document answers with the stored reply and writes the desk alone. -/
theorem wp_replayKeyOfSameDocument {key : Nat} {op : SyncOp}
    {Q : Option Reply → Held LockKey → Db → Prop}
    (h : ∀ out desk, s.Filed desk → Covered agree H s (s.withDesk desk) →
      Q out H (s.withDesk desk)) : wp (replayKeyOfSameDocument key op) H s Expected Q := by
  have hsame : Q none H s := h none s.desk (.refl s) (Covered.refl _ _)
  rw [replayKeyOfSameDocument]
  cases op.replayId with
  | none => exact hsame
  | some id =>
      refine wp_bind_glance fun s₀ => ?_
      cases s₀.idempotencyKeys.get key with
      | none => exact hsame
      | some stored =>
          dsimp only
          split
          · exact hsame
          · exact wp_checkClientIdReplay h

/-- **One operation of a push is one transaction**: its key, its replay and its work. -/
theorem wp_processSingleOp (hs : s.Consistent) {key requestHash : Nat} (op : SyncOp) :
    wp (processSingleOp env actor key requestHash op) H s Expected fun _ H' s' =>
      Transacts key (op.Allows env actor) s s' ∧ Covered agree H' s s' := by
  refine (wp_bind _ _).mpr (wp_claim fun out H₁ desk₁ hH₁ hcov₁ hclaim => ?_)
  cases out with
  | replay body =>
      exact ⟨.of_desk _ (hclaim.kept fun hc => by cases hc) hclaim.audit, hcov₁⟩
  | reused =>
      have hkept := hclaim.kept fun hc => by cases hc
      refine (wp_bind _ _).mpr (wp_replayKeyOfSameDocument fun own desk₂ hfiled hcov₂ => ?_)
      cases own with
      | some r =>
          refine ⟨.of_desk _ (hfiled.keys.trans hkept) (hfiled.audit.trans hclaim.audit), ?_⟩
          exact Covered.trans hcov₁ hcov₂
      | none => exact wp_bind_ofExcept (fun _ _ => rfl) op.parse_expected
  | claimed =>
      refine (wp_bind _ _).mpr (wp_checkClientIdReplay fun existing desk₂ hfiled hcov₂ => ?_)
      -- the replay may have filed something; the books are as they were
      have hprobed : Works (op.Allows env actor) (s.withDesk desk₁)
          ((s.withDesk desk₁).withDesk desk₂) :=
        ⟨Commits.none _ _ desk₂, (AtDesk.refl _).before_desk hfiled⟩
      cases existing with
      | some r =>
          refine (wp_bind _ _).mpr (wp_complete fun H₃ desk₃ hH₃ hcov₃ haudit hkeys => ?_)
          refine ⟨.of_work hclaim hprobed haudit hkeys, ?_⟩
          exact Covered.trans (Covered.mono (Covered.trans hcov₁ hcov₂) hH₃) hcov₃
      | none =>
          refine wp_bind_ofExcept (fun _ hparse => ?_) op.parse_expected
          have hs' : ((s.withDesk desk₁).withDesk desk₂).Consistent := hs
          refine wp_seq (wp_grow (wp_execute hs' op hparse)) ?_
          rintro r H₃ s₃ ⟨⟨hworks, hcov₃⟩, hH₃⟩
          refine (wp_bind _ _).mpr (wp_complete fun H₄ desk₄ hH₄ hcov₄ haudit hkeys => ?_)
          refine ⟨.of_work hclaim (hworks.after_desk hfiled) haudit hkeys, ?_⟩
          have hcov := Covered.trans (Covered.mono (Covered.trans hcov₁ hcov₂) hH₃) hcov₃
          exact Covered.trans (Covered.mono hcov hH₄) hcov₄

theorem wp_updateUnsyncedOps {d : DeviceId} {n : Nat} :
    wp (updateUnsyncedOps d n) H s Expected fun _ H' s' =>
      (∃ desk, s' = s.withDesk desk ∧ s.Filed desk) ∧ Covered agree H' s s' :=
  ⟨⟨(s.modifyDevice d fun row => { row with unsyncedOps := n }).desk, rfl, rfl, rfl⟩,
    Covered.modifyDevice (Covered.refl _ _) List.mem_cons_self _⟩

/-! ### Their locks -/

/-- A program that ends in a pure answer keeps the discipline of what comes before. -/
theorem Disciplined.answer {α β : Type} {p : Prog α} {f : α → β}
    (h : Disciplined agree p H fun _ _ => True) :
    Disciplined agree (p >>= fun a => pure (f a)) H fun _ _ => True :=
  Disciplined.seq h fun _ _ _ _ => trivial

/-- Every request bases its writes on rows that it has locked. -/
theorem disciplined_handle (env : Env) (actor : Actor) (req : Request) :
    Disciplined agree (req.handle env actor) H fun _ _ => True := by
  cases req with
  | sale dto quoteId =>
      refine disciplined_bind_ofExcept fun _ _ => ?_
      cases quoteId with
      | none => exact Disciplined.answer (disciplined_createSale _ _ _)
      | some q => exact Disciplined.answer (disciplined_sell _ _ _ _)
  | convertQuote q party =>
      exact disciplined_bind_ofExcept fun _ _ => Disciplined.answer (disciplined_convert _ _ _ _)
  | voidSale x reason =>
      exact disciplined_bind_ofExcept fun _ _ => Disciplined.answer (disciplined_voidSale _ _ _)
  | creditNote dto =>
      exact disciplined_bind_ofExcept fun _ _ => Disciplined.answer (disciplined_createReturn _ _ _)
  | openShift input =>
      exact disciplined_bind_ofExcept fun _ _ => Disciplined.answer (disciplined_openShift _ _ _)
  | closeShift cash =>
      exact disciplined_bind_ofExcept fun _ _ => Disciplined.answer (disciplined_close _ _)
  | entry body =>
      exact disciplined_bind_ofExcept fun _ _ => Disciplined.answer (disciplined_addEntry _ _ _ _)
  | creditPayment m dto =>
      exact disciplined_bind_ofExcept fun _ _ =>
        Disciplined.answer (disciplined_createCreditPayment _ _ _ _)
  | adjustStock p input =>
      exact disciplined_bind_ofExcept fun _ _ => Disciplined.answer (disciplined_adjustStock _ _)
  | receivePo i => exact Disciplined.answer (disciplined_receive _ _)
  | retireDevice d cash force =>
      exact disciplined_bind_ofExcept fun _ _ => Disciplined.answer (disciplined_retire _ _ _)
  | updateMechanic m patch =>
      exact disciplined_bind_ofExcept fun _ _ => Disciplined.answer (disciplined_editMechanic _ _)

theorem respects_addReviewOnce (r : ReviewItem) :
    Respects agree H fun db : Db => db.addReviewOnce r :=
  respects_of_view fun lk db => view_addReviewOnce lk db r

theorem disciplined_flagRenumbered (id : Nat) (offlineNo : Option DocNo) (serverNo : DocNo) :
    Disciplined agree (flagRenumbered id offlineNo serverNo) H fun _ _ => True := by
  rcases offlineNo with _ | n | text
  · trivial
  · rw [flagRenumbered]
    split
    · trivial
    · exact ⟨respects_addReviewOnce _, trivial⟩
  · trivial

/-- The look-ups of documents on file, one for each kind of operation, write nothing. -/
theorem disciplined_checkClientIdReplay (op : SyncOp) :
    Disciplined agree (checkClientIdReplay op) H fun _ _ => True := by
  cases op with
  | saleCreate dto quoteId soldAt =>
      refine Disciplined.seq (disciplined_existingSale _ _ _ _) fun existing _ _ _ => ?_
      cases existing with
      | none => trivial
      | some r => exact Disciplined.answer (disciplined_flagRenumbered _ _ _)
  | returnCreate dto deviceDate opId =>
      simp only [checkClientIdReplay]
      cases dto.id with
      | none => trivial
      | some r =>
          refine disciplined_bind_glance fun row => ?_
          cases row with
          | none => trivial
          | some note =>
              refine disciplined_bind_require fun _ => ?_
              refine Disciplined.seq (disciplined_flagRenumbered _ _ _) fun _ _ _ _ => ?_
              exact disciplined_bind_glance fun _ => trivial
  | shiftOpen input openedAt opId =>
      simp only [checkClientIdReplay]
      cases input.id with
      | none => trivial
      | some k =>
          refine disciplined_bind_glance fun row => ?_
          cases row with
          | none => trivial
          | some row => exact disciplined_bind_require fun _ => trivial
  | drawerEntry entry deviceDate opId =>
      simp only [checkClientIdReplay]
      cases entry.id with
      | none => trivial
      | some e =>
          refine disciplined_bind_glance fun row => ?_
          cases row with
          | none => trivial
          | some row =>
              exact disciplined_bind_require fun _ => disciplined_bind_glance fun _ => trivial
  | creditPaymentCreate m dto =>
      simp only [checkClientIdReplay]
      cases dto.id with
      | none => trivial
      | some i =>
          refine disciplined_bind_glance fun row => ?_
          cases row with
          | none => trivial
          | some row =>
              exact disciplined_bind_require fun _ => disciplined_bind_glance fun _ => trivial
  | customerCreate id body =>
      cases id with
      | none => trivial
      | some c => exact disciplined_bind_glance fun _ => trivial
  | customerUpdate c body => trivial
  | saleVoidOffline x reason =>
      refine disciplined_bind_glance fun row => ?_
      cases row with
      | none => trivial
      | some sale =>
          dsimp only
          split
          · trivial
          · exact Disciplined.answer (disciplined_bind_glance fun _ => trivial)

theorem disciplined_settleOfflineQuote (q : QuoteId) (x : SaleId) (state : QuoteState) :
    Disciplined agree (settleOfflineQuote q x state) H fun _ _ => True := by
  cases state with
  | fresh => exact disciplined_markConverted q x
  | replay => trivial
  | saleIdTaken => trivial
  | missing => exact ⟨respects_addReviewOnce _, trivial⟩
  | converted c => exact ⟨respects_addReviewOnce _, trivial⟩
  | expired v => exact ⟨respects_addReviewOnce _, trivial⟩

theorem disciplined_insertDateFlag (refId : Nat) :
    Disciplined agree (insertDateFlag refId) H fun _ _ => True :=
  ⟨respects_of_view fun _ _ => view_addReview _ _ _, trivial⟩

theorem disciplined_bind_clampOpDate {α : Type} {f : Option Nat → Prog α} (env : Env) (d : DeviceId)
    (docNo : Option DocNo) (refId : Nat) (opDate : Option Nat)
    (h : ∀ date, Disciplined agree (f date) H fun _ _ => True) :
    Disciplined agree (clampOpDate env d docNo refId opDate >>= f) H fun _ _ => True := by
  refine disciplined_bind_glance fun _ => ?_
  show Disciplined agree ((Tx.whenever _ _ >>= fun _ => pure _) >>= f) H fun _ _ => True
  rw [Tx.whenever]
  split
  · exact ⟨respects_of_view fun lk db => view_addReview _ _ _, h _⟩
  · exact h _

/-- Every operation of a push bases its writes on rows that it has locked. -/
theorem disciplined_execute (env : Env) (actor : Actor) (op : SyncOp) :
    Disciplined agree (op.execute env actor) H fun _ _ => True := by
  cases op with
  | saleCreate dto quoteId deviceDate =>
      refine disciplined_bind_clampOpDate _ _ _ _ _ fun date => ?_
      cases quoteId with
      | none => exact Disciplined.answer (disciplined_createSale _ _ _)
      | some q =>
          refine Disciplined.seq (disciplined_lockAndClassify _ _ _ _) fun state _ _ _ => ?_
          refine Disciplined.seq (disciplined_createSale _ _ _) fun r _ _ _ => ?_
          exact Disciplined.answer (disciplined_settleOfflineQuote _ _ _)
  | returnCreate dto deviceDate opId =>
      refine disciplined_bind_clampOpDate _ _ _ _ _ fun date => ?_
      exact Disciplined.answer (disciplined_createReturn _ _ _)
  | shiftOpen input openedAt opId =>
      refine disciplined_bind_glance fun _ => disciplined_bind_whenever (fun _ => ?_) fun _ => ?_
      · refine (disciplined_insertDateFlag _).mono fun _ _ _ => ?_
        exact Disciplined.answer (disciplined_openShift _ _ _)
      · exact Disciplined.answer (disciplined_openShift _ _ _)
  | drawerEntry entry deviceDate opId =>
      refine disciplined_bind_clampOpDate _ _ _ _ _ fun date => ?_
      refine Disciplined.seq (disciplined_addEntry _ _ _ _) fun r _ _ _ => ?_
      refine disciplined_bind_glance fun _ => disciplined_bind_whenever (fun _ => ?_) fun _ => trivial
      refine disciplined_bind_glance fun after => ?_
      rw [Tx.whenever]
      split
      · exact ⟨respects_addReviewOnce _, trivial⟩
      · trivial
  | creditPaymentCreate m dto => exact Disciplined.answer (disciplined_createCreditPayment _ _ _ _)
  | customerCreate id body =>
      exact disciplined_bind_ofExcept fun _ _ => Disciplined.answer (disciplined_createCustomer _ _)
  | customerUpdate c body =>
      exact disciplined_bind_ofExcept fun _ _ => Disciplined.answer (disciplined_editCustomer _ _)
  | saleVoidOffline x reason =>
      refine disciplined_bind_glance fun row => disciplined_bind_orFail fun sale _ => ?_
      refine disciplined_bind_require fun _ => ?_
      refine Disciplined.seq (disciplined_voidSale _ _ _) fun _ _ _ _ => ?_
      refine disciplined_bind_update (respects_of_view fun lk db => view_addReview _ _ _) ?_
      exact disciplined_bind_glance fun _ => trivial

theorem disciplined_replayKeyOfSameDocument (key : Nat) (op : SyncOp) :
    Disciplined agree (replayKeyOfSameDocument key op) H fun _ _ => True := by
  rw [replayKeyOfSameDocument]
  cases op.replayId with
  | none => trivial
  | some id =>
      refine disciplined_bind_glance fun row => ?_
      cases row with
      | none => trivial
      | some stored =>
          dsimp only
          split
          · trivial
          · exact disciplined_checkClientIdReplay op

/-- So does the whole transaction of one operation, its key and its review items included. -/
theorem disciplined_processSingleOp (env : Env) (actor : Actor) (key requestHash : Nat)
    (op : SyncOp) :
    Disciplined agree (processSingleOp env actor key requestHash op) H fun _ _ => True := by
  refine Disciplined.seq (disciplined_claim _ _ _ _) fun out _ _ _ => ?_
  cases out with
  | replay body => trivial
  | reused =>
      refine Disciplined.seq (disciplined_replayKeyOfSameDocument _ _) fun own _ _ _ => ?_
      cases own with
      | some r => trivial
      | none => exact disciplined_bind_ofExcept fun _ _ => trivial
  | claimed =>
      refine Disciplined.seq (disciplined_checkClientIdReplay _) fun existing _ _ _ => ?_
      cases existing with
      | some r => exact Disciplined.answer (disciplined_complete _ _)
      | none =>
          refine disciplined_bind_ofExcept fun _ _ => ?_
          refine Disciplined.seq (disciplined_execute _ _ _) fun r _ _ _ => ?_
          exact Disciplined.answer (disciplined_complete _ _)

theorem disciplined_updateUnsyncedOps (d : DeviceId) (n : Nat) :
    Disciplined agree (updateUnsyncedOps d n) H fun _ _ => True :=
  ⟨respects_modifyDevice _ _, trivial⟩

end

/-! ### What a replay leaves alone -/

section
variable {γ : Type} {f : Db → γ}

theorem leaves_existingSale (id : SaleId) (total : Int) (soldOffline : Bool)
    (items : Option (List SaleLine)) :
    Leaves f (existingSale id total soldOffline items) := by
  refine (leaves_glance _).bind fun row => ?_
  cases row with
  | none => trivial
  | some sale =>
      refine (leaves_require _ _).bind fun _ => (leaves_require _ _).bind fun _ => ?_
      exact fun _ _ _ _ => trivial

theorem tame_clampOpDate {P : ServerError → Prop}
    (hf : ∀ (db : Db) (id : Nat), f (db.addReview ⟨.dateFlag, id⟩) = f db) (env : Env) (d : DeviceId)
    (docNo : Option DocNo) (refId : Nat) (opDate : Option Nat) :
    Tame f P (clampOpDate env d docNo refId opDate) := by
  refine (tame_glance _).bind fun openedAt => Tame.bind (Tame.whenever ?_) fun _ => trivial
  exact tame_update fun s => hf s refId

theorem leaves_clampOpDate (hf : ∀ (db : Db) (id : Nat), f (db.addReview ⟨.dateFlag, id⟩) = f db) (env : Env)
    (d : DeviceId) (docNo : Option DocNo) (refId : Nat) (opDate : Option Nat) :
    Leaves f (clampOpDate env d docNo refId opDate) :=
  (tame_clampOpDate (P := fun _ => True) hf env d docNo refId opDate).leaves

variable (hf : ∀ (db : Db) (id : Nat), f (db.addReviewOnce ⟨.receiptRenumbered, id⟩) = f db)
include hf

theorem leaves_flagRenumbered (id : Nat) (offlineNo : Option DocNo) (serverNo : DocNo) :
    Leaves f (flagRenumbered id offlineNo serverNo) := by
  rcases offlineNo with _ | n | text
  · trivial
  · rw [flagRenumbered]
    split
    · trivial
    · exact ⟨fun s => hf s id, trivial⟩
  · trivial

/-- The look-ups of documents on file change nothing. -/
theorem leaves_checkClientIdReplay (op : SyncOp) :
    Leaves f (checkClientIdReplay op) := by
  cases op with
  | saleCreate dto quoteId soldAt =>
      refine (leaves_existingSale _ _ _ _).bind fun existing => ?_
      cases existing with
      | none => trivial
      | some r => exact (leaves_flagRenumbered hf _ _ _).bind fun _ => trivial
  | returnCreate dto deviceDate opId =>
      simp only [checkClientIdReplay]
      cases dto.id with
      | none => trivial
      | some r =>
          refine (leaves_glance _).bind fun row => ?_
          cases row with
          | none => trivial
          | some note =>
              refine (leaves_require _ _).bind fun _ => (leaves_flagRenumbered hf _ _ _).bind fun _ => ?_
              exact fun _ => trivial
  | shiftOpen input openedAt opId =>
      simp only [checkClientIdReplay]
      cases input.id with
      | none => trivial
      | some k =>
          refine (leaves_glance _).bind fun row => ?_
          cases row with
          | none => trivial
          | some row => exact (leaves_require _ _).bind fun _ => trivial
  | drawerEntry entry deviceDate opId =>
      simp only [checkClientIdReplay]
      cases entry.id with
      | none => trivial
      | some e =>
          refine (leaves_glance _).bind fun row => ?_
          cases row with
          | none => trivial
          | some row => exact (leaves_require _ _).bind fun _ _ => trivial
  | creditPaymentCreate m dto =>
      simp only [checkClientIdReplay]
      cases dto.id with
      | none => trivial
      | some i =>
          refine (leaves_glance _).bind fun row => ?_
          cases row with
          | none => trivial
          | some row => exact (leaves_require _ _).bind fun _ _ => trivial
  | customerCreate id body =>
      cases id with
      | none => trivial
      | some c => exact fun _ => trivial
  | customerUpdate c body => trivial
  | saleVoidOffline x reason =>
      refine (leaves_glance _).bind fun row => ?_
      cases row with
      | none => trivial
      | some sale =>
          dsimp only
          split
          · trivial
          · exact fun _ => trivial

theorem leaves_replayKeyOfSameDocument {key : Nat} (op : SyncOp) :
    Leaves f (replayKeyOfSameDocument key op) := by
  rw [replayKeyOfSameDocument]
  cases op.replayId with
  | none => trivial
  | some id =>
      refine (leaves_glance _).bind fun row => ?_
      cases row with
      | none => trivial
      | some stored =>
          dsimp only
          split
          · trivial
          · exact leaves_checkClientIdReplay hf op

end

end Server

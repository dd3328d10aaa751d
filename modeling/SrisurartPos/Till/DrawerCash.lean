import SrisurartPos.Till.GrossProfit

/-! # The cash of a drawer at the till (`shifts_repository.dart`)

The till works out what a drawer should hold from its own rows. A bill names its shift, or else goes
by its date as the credit notes and the payments of the mechanics do, which name none. What a payment
was made in is only found in its note. -/

namespace Cache

open Server Money

/-! ## The rows -/

/-- A payment on a mechanic's tab (`CreditPayments`). There is no column for the method. -/
structure CreditPaymentRow where
  mechanicId : MechanicId
  amount : ℚ
  date : Nat
  note : Option String
  deriving DecidableEq

structure DrawerEntryRow where
  shiftId : ShiftId
  type : EntryType
  amount : ℚ
  deriving DecidableEq

/-- The tables that a drawer is counted from. -/
structure DrawerDb extends Db where
  creditPayments : Table PaymentId CreditPaymentRow
  drawerEntries : Table EntryId DrawerEntryRow

/-! ## The note of a payment -/

/-- `split(' · ').first` -/
def firstSegment : List Char → List Char
  | ' ' :: '·' :: ' ' :: _ => []
  | c :: cs                => c :: firstSegment cs
  | []                     => []

/-- What `trim` takes away. -/
def isTrimmed (c : Char) : Bool :=
  (0x09 ≤ c.val && c.val ≤ 0x0D) || (0x2000 ≤ c.val && c.val ≤ 0x200A) ||
    c.val ∈ [0x20, 0x85, 0xA0, 0x1680, 0x2028, 0x2029, 0x202F, 0x205F, 0x3000, 0xFEFF]

def trim (cs : List Char) : List Char :=
  ((cs.dropWhile isTrimmed).reverse.dropWhile isTrimmed).reverse

/-- The first segment of the note is the method. -/
def isCashCreditPayment (note : Option String) : Bool :=
  match note with
  | none      => false
  | some note => trim (firstSegment note.toList) = "เงินสด".toList

/-- `_method`, of the two that the dialog offers. -/
def methodText : PaymentMethod → String
  | .cash           => "เงินสด"
  | .qr             => "โอน/QR"
  | .mechanicCredit => "เครดิตช่าง"
  | .other text     => text

/-- `combinedNote` of the dialog, `typed` trimmed. -/
def combinedNote (method : PaymentMethod) (typed : String) : String :=
  if typed.isEmpty then methodText method else methodText method ++ " · " ++ typed

/-! ## Payments that the server took -/

/-- What an answer has of a payment; an answer without a part has `none` there. -/
structure PaymentAnswer where
  id : PaymentId
  mechanicId : MechanicId
  amount : Int
  balanceAfter : Int
  date : Option Nat
  note : Option String

/-- The answer to `credit_payment.create` of a push. -/
def PaymentAnswer.ofPush : Reply → Option PaymentAnswer
  | .pushedPayment i m amount _ balanceAfter => some ⟨i, m, amount, balanceAfter, none, none⟩
  | _                                        => none

/-- `_applyPaymentSuccess`, with the note as it was typed. -/
def applyPaymentSuccess (note : Option String) (res : PaymentAnswer) (now : Nat) (db : DrawerDb) :
    DrawerDb :=
  { db with
    creditPayments := db.creditPayments.upsert res.id
      { mechanicId := res.mechanicId, amount := baht res.amount, date := res.date.getD now, note := note }
    mechanics := db.mechanics.modify res.mechanicId fun m =>
      { m with creditBalance := baht res.balanceAfter } }

/-- The part of `_patchAppliedEntity` about a payment; unsent operations still move the mechanics
in `held`. -/
def patchAppliedPayment (response : PaymentAnswer) (held : List MechanicId) (now : Nat)
    (db : DrawerDb) : DrawerDb :=
  { db with
    creditPayments := db.creditPayments.upsert response.id
      { mechanicId := response.mechanicId, amount := baht response.amount
        date := response.date.getD now, note := response.note }
    mechanics :=
      if response.mechanicId ∈ held then db.mechanics
      else db.mechanics.modify response.mechanicId fun m =>
        { m with creditBalance := baht response.balanceAfter } }

/-! ## The drawer -/

structure DrawerCash where
  startingCash : ℚ
  cashSales : ℚ
  cashCreditPayments : ℚ
  cashRefunds : ℚ
  totalIn : ℚ
  totalOut : ℚ

def DrawerCash.expected (d : DrawerCash) : ℚ :=
  round2 (d.startingCash + d.cashSales + d.cashCreditPayments - d.cashRefunds - d.totalOut + d.totalIn)

/-- `[openedAt, closedAt]`, without an end while the shift is open. -/
def inShift (shift : ShiftRow) (date : Nat) : Bool :=
  let opened := decide (shift.openedAt ≤ date)
  match shift.closedAt with
  | none        => opened
  | some closed => opened && decide (date ≤ closed)

def drawerCashSalesOf (sales : List (SaleId × SaleRow)) (returnedSaleIds : List SaleId) : ℚ :=
  ((sales.filter fun s => decide (s.2.paymentMethod = .cash) &&
    (!s.2.voided || decide (s.1 ∈ returnedSaleIds))).map (·.2.total)).sum

namespace DrawerDb

variable (t : DrawerDb) (k : ShiftId) (shift : ShiftRow)

/-- Whether a bill is read for the shift. -/
def ofShift (row : SaleRow) : Bool :=
  decide (row.shiftId = some k) || (row.shiftId.isNone && inShift shift row.date)

/-- `_entriesFor` -/
def entriesFor : List DrawerEntryRow := t.drawerEntries.select fun e => e.shiftId = k

def drawerCash : DrawerCash :=
  let sales := t.sales.rows.filter fun s => ofShift k shift s.2
  let returnedSaleIds := (t.returns.rows.map (·.2.saleId)).filter fun x => x ∈ sales.map Prod.fst
  let sumEntries := fun type =>
    round2 (((t.entriesFor k).filter fun e => e.type = type).map (·.amount)).sum
  { startingCash := shift.startingCash
    cashSales := drawerCashSalesOf sales returnedSaleIds
    cashCreditPayments := ((t.creditPayments.rows.filter fun p => inShift shift p.2.date).filter
      fun p => isCashCreditPayment p.2.note).map (·.2.amount) |>.sum
    cashRefunds := ((t.returns.rows.filter fun r => inShift shift r.2.date).filter
      fun r => r.2.refundMethod = .cash).map (·.2.refundTotal) |>.sum
    totalIn := sumEntries .cashIn
    totalOut := sumEntries .cashOut }

end DrawerDb

end Cache

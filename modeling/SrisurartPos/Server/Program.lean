import SrisurartPos.Server.Writes
import SrisurartPos.Rounding

/-! # The services' common ground

The errors the services end in, what a request brings from its surroundings, and the type of their
programs. -/

namespace Server

open Txn

/-- A line of `INSUFFICIENT_STOCK`: no stock is a product that is not there. -/
structure ShortLine where
  name : String
  productId : Option ProductId
  stock : Option Int
  requested : Int
  deriving DecidableEq, Repr

/-- A line of `RETURN_PRICE_MISMATCH`. -/
structure MispricedLine where
  productId : ProductId
  price : Int
  soldAt : List Int
  deriving DecidableEq, Repr

/-- A line of `OVER_REFUND`: nothing remaining is a product that is not on the bill. -/
structure OverLine where
  name : String
  remaining : Option Int
  requested : Int
  deriving DecidableEq, Repr

/-- The errors of the services, under their `code`s. -/
inductive ServerError where
  | badRequest (message : String)
  | deviceRoleForbidden
  | docNumberInvalid
  | docNumberRequired
  | docNumberExhausted
  | totalMismatch (subtotal total : Int)
  | saleIdReused
  | saleVoided
  | receiptNoConflict
  | clientIdReused (id : Nat)
  | noOpenShift
  | paymentAccountNotFound
  | creditLimitExceeded (creditLimit creditBalance newBalance : Int)
  | insufficientStock (lines : List ShortLine)
  | saleNotFound
  | saleHasReturns
  | saleNotInOpenShift
  | voidNeedsOnline
  | refundMethodNotAllowed
  | returnPriceMismatch (lines : List MispricedLine)
  | overRefund (lines : List OverLine)
  | shiftAlreadyClosed
  | physicalCashRequired (shiftId : ShiftId)
  | drawerClosed
  | drawerInsufficientCash (expectedCash : Int)
  | mechanicNotFound
  | creditPaymentExceedsBalance (creditBalance amount overpayBy : Int)
  | creditPaymentIdReused
  | customerNotFound
  | productNotFound
  | poNotFound
  | poAlreadyReceived
  | poCancelled
  | quoteAlreadyConverted (convertedSaleId : Option SaleId)
  | quoteExpired (validUntil : Nat)
  | quoteNotFound
  | quoteConvertedNotDeletable (convertedSaleId : Option SaleId)
  | deviceNotFound
  | deviceAlreadyRetired
  | deviceHasUnsyncedOps (unsyncedOps : Nat)
  | idempotencyKeyReused
  /-- a unique violation that no service maps to a code of its own: a 500 -/
  | uniqueViolation
  /-- a number that the database cannot store: a 500 -/
  | outOfRange
  /-- `Shift for device … vanished between insert and read.`, and its like -/
  | vanished
  /-- `idempotency_keys row … committed as 'in_progress'` -/
  | keyNotDone
  /-- `uq_movements_ref` -/
  | movementDuplicate
  /-- `Stock underflow on …` -/
  | stockUnderflow
  deriving DecidableEq, Repr

/-- The two errors that would be a defect of a service rather than an answer to its caller. -/
def ServerError.expected : ServerError → Bool
  | .movementDuplicate => false
  | .stockUnderflow    => false
  | _                  => true

/-- What a request finds around it: the clock, a fresh UUID, the current period of the shop's
calendar and that of any moment (`tenantPeriodSql`), the configuration, the database's `lower()`, and
what Redis remembers under its key. -/
structure Env where
  now : Nat
  newUuid : Nat
  period : Period
  periodOf : Nat → Period
  docNumberFallback : Bool
  lower : String → String
  cached : Option StoredResponse

/-- Who is asking: the device of the token. -/
structure Actor where
  deviceId : DeviceId

abbrev Prog (α : Type) := Tx Db LockKey ServerError α

/-- The errors a run may end in. -/
abbrev Expected (e : ServerError) : Prop := e.expected = true

/-- `pointsFor`: `floor(total / 10)`, in satang. -/
def pointsFor (totalSatang : Int) : Int := totalSatang / 1000

end Server

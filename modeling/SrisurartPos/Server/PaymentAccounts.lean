import SrisurartPos.Server.PaymentAccountRules
import SrisurartPos.Table
import SrisurartPos.Txn.Mutex
import Mathlib.Data.List.Sort
import Mathlib.Data.Prod.Lex
import Mathlib.Data.String.Basic
import Mathlib.Logic.Relation

/-! # The QR payment accounts of a shop (`payment-accounts.service.ts`)

Every write takes the shop's advisory lock first. An account is never removed: deleting it sets the time, and
the bills that name it still find it. -/

namespace Server.PaymentAccounts

open Txn Dyn Ids

abbrev Time := Int

/-- A row of `payment_accounts`, under its id. -/
structure AccountRow where
  nickname : String
  bankCode : String
  kind : String
  promptpayId : Option String
  image : Option (List UInt8)
  imageMime : Option String
  isDefault : Bool
  sortOrder : Int
  createdAt : Time
  updatedAt : Time
  deletedAt : Option Time
  deriving DecidableEq

def AccountRow.active (r : AccountRow) : Bool := r.deletedAt.isNone

/-- The rows that `uq_payment_accounts_default` is about. -/
def AccountRow.theDefault (r : AccountRow) : Bool := r.isDefault && r.active

/-- The `CHECK`s of the table. -/
def AccountRow.checks (r : AccountRow) : Bool :=
  r.kind ∈ paymentAccountKinds &&
    (r.kind ≠ "promptpay" || r.promptpayId.isSome && r.image.isNone) &&
    (r.kind ≠ "image" || r.image.isSome && r.imageMime.isSome && r.promptpayId.isNone) &&
    r.promptpayId.all (fun id => id ≠ "" && id.toList.all isDigit) &&
    r.imageMime.all (fun mime => mime ∈ imageMimes)

/-- Who is acting. -/
structure PaymentAccountActor where
  userId : Option String
  deviceId : Option String
  ip : Option String
  deriving DecidableEq

/-- What the audit log keeps of an account. -/
structure Summary where
  nickname : String
  bankCode : String
  kind : String
  promptpayId : Option String
  isDefault : Bool
  deriving DecidableEq

inductive Action where
  | created
  | updated
  | defaultChanged
  | deleted
  deriving DecidableEq

/-- A row of `audit_log`. -/
structure AuditRow where
  actor : PaymentAccountActor
  action : Action
  entityId : String
  before : Option Summary
  after : Summary
  changedFields : Option (List String)
  previousDefaultId : Option String
  deletedAt : Option Time
  deriving DecidableEq

structure Db where
  accounts : Table String AccountRow
  audit : List AuditRow

def Db.empty : Db := ⟨Table.empty, []⟩

inductive Lock where
  | accounts
  deriving DecidableEq

/-- An account on the wire. -/
structure PaymentAccount where
  id : String
  nickname : String
  bankCode : String
  kind : String
  promptpayId : Option String
  imageBase64 : Option String
  imageMime : Option String
  isDefault : Bool
  sortOrder : Int
  updatedAt : Time

inductive Answer where
  | accounts (list : List PaymentAccount)
  | account (account : PaymentAccount)
  | deleted (account : PaymentAccount) (deletedAt : Time)

abbrev Prog (α : Type) := Tx Db Lock Error α

/-! ## What the log and the wire keep of a row -/

/-- The last four digits only. -/
def maskPromptPayId (id : String) : String :=
  if id.length ≤ 4 then String.ofList (List.replicate id.length '*')
  else String.ofList (List.replicate (id.length - 4) '*' ++ id.toList.drop (id.length - 4))

def auditSummary (r : AccountRow) : Summary where
  nickname := r.nickname
  bankCode := r.bankCode
  kind := r.kind
  promptpayId := r.promptpayId.map maskPromptPayId
  isDefault := r.isDefault

/-- The wire names of the fields that a patch changed. -/
def changedFieldsOf (before after : AccountRow) : List String :=
  ([("nickname", decide (before.nickname ≠ after.nickname)), ("bankCode", decide (before.bankCode ≠ after.bankCode)),
    ("promptpayId", decide (before.promptpayId ≠ after.promptpayId)),
    ("imageBase64", decide (before.image ≠ after.image)), ("imageMime", decide (before.imageMime ≠ after.imageMime)),
    ("isDefault", decide (before.isDefault ≠ after.isDefault)),
    ("sortOrder", decide (before.sortOrder ≠ after.sortOrder))].filter Prod.snd).map Prod.fst

def imageText (bytes : List UInt8) : String := String.ofList (Base64.encode bytes)

def toPaymentAccount (id : String) (r : AccountRow) : PaymentAccount where
  id := id
  nickname := r.nickname
  bankCode := r.bankCode
  kind := r.kind
  promptpayId := r.promptpayId
  imageBase64 := r.image.map imageText
  imageMime := r.imageMime
  isDefault := r.isDefault
  sortOrder := r.sortOrder
  updatedAt := r.updatedAt

/-! ## Statements -/

/-- `ORDER BY sort_order, created_at, id` -/
def displayKey (e : String × AccountRow) : Int ×ₗ Time ×ₗ String := toLex (e.2.sortOrder, toLex (e.2.createdAt, e.1))

/-- The active accounts in the order that they are shown in. -/
def listIn (s : Db) : List PaymentAccount :=
  ((s.accounts.rows.filter fun e => e.2.active).mergeSort fun a b => displayKey a ≤ displayKey b).map
    fun e => toPaymentAccount e.1 e.2

def activeCount (s : Db) : Int := s.accounts.total fun _ r => if r.active = true then 1 else 0

def lockAccounts : Prog Unit := Tx.acquire .accounts .update

def activeRow (id : String) : Prog AccountRow := do
  let row ← Tx.query fun s => (s.accounts.get id).filter AccountRow.active
  Tx.orFail row .paymentAccountNotFound

/-- The defaults but for `exceptId`; the index leaves one at most. -/
def Db.defaultIds (s : Db) (exceptId : Option String) : List String :=
  (s.accounts.rows.filter fun e => e.2.theDefault && exceptId ≠ some e.1).map Prod.fst

def AccountRow.cleared (now : Time) (r : AccountRow) : AccountRow := { r with isDefault := false, updatedAt := now }

def Db.clear (ids : List String) (now : Time) (s : Db) : Db :=
  { s with accounts := ids.foldl (fun t id => t.modify id (·.cleared now)) s.accounts }

/-- Clears the shop's default and answers which it was. -/
def clearDefault (now : Time) (exceptId : Option String) : Prog (Option String) := do
  let ids ← Tx.query fun s => s.defaultIds exceptId
  Tx.update (Db.clear ids now)
  return ids.head?

def clearDefaultIf (c : Prop) [Decidable c] (now : Time) (exceptId : Option String) : Prog (Option String) :=
  if c then clearDefault now exceptId else pure none

/-- What the constraints say of the row `r`, to be stored under `id`. -/
def checkRow (id : String) (r : AccountRow) : Prog Unit := do
  Tx.require (r.checks = true) .checkViolation
  let others ← Tx.query fun s => s.defaultIds (some id)
  Tx.require (r.theDefault = false ∨ others = []) .uniqueViolation

def insertAccount (id : String) (r : AccountRow) : Prog Unit := do
  checkRow id r
  let taken ← Tx.query fun s => (s.accounts.get id).isSome
  Tx.require (taken = false) .uniqueViolation
  Tx.update fun s => { s with accounts := s.accounts.insert id r }

def updateAccount (id : String) (r : AccountRow) : Prog Unit := do
  checkRow id r
  Tx.update fun s => { s with accounts := s.accounts.modify id fun _ => r }

def writeAudit (row : AuditRow) : Prog Unit := Tx.update fun s => { s with audit := s.audit ++ [row] }

/-! ## Requests -/

def PaymentAccountCreate.kind (input : PaymentAccountCreate) : String :=
  match input.payee with
  | .promptpay _ => "promptpay"
  | .image _     => "image"

def PaymentAccountCreate.row (input : PaymentAccountCreate) (now : Time) : AccountRow where
  nickname := input.nickname
  bankCode := input.bankCode
  kind := input.kind
  promptpayId := match input.payee with
    | .promptpay id => some id
    | .image _      => none
  image := match input.payee with
    | .promptpay _ => none
    | .image image => some image.bytes
  imageMime := match input.payee with
    | .promptpay _ => none
    | .image image => some image.mime
  isDefault := input.isDefault
  sortOrder := input.sortOrder
  createdAt := now
  updatedAt := now
  deletedAt := none

def createIn (actor : PaymentAccountActor) (input : PaymentAccountCreate) (now : Time) : Prog Answer := do
  lockAccounts
  let taken ← Tx.query fun s => (s.accounts.get input.id).isSome
  Tx.require (taken = false) .clientIdReused
  let active ← Tx.query activeCount
  Tx.require (active < maxActivePaymentAccounts) .paymentAccountLimit
  let previousDefaultId ← clearDefaultIf (input.isDefault = true) now none
  let row := input.row now
  insertAccount input.id row
  writeAudit
    { actor, action := .created, entityId := input.id, before := none, after := auditSummary row,
      changedFields := none, previousDefaultId, deletedAt := none }
  return .account (toPaymentAccount input.id row)

/-- The row that the patch leaves. -/
def PaymentAccountPatch.apply (patch : PaymentAccountPatch) (now : Time) (r : AccountRow) : AccountRow :=
  { r with
    nickname := patch.nickname.getD r.nickname
    bankCode := patch.bankCode.getD r.bankCode
    promptpayId := patch.promptpayId.or r.promptpayId
    image := (patch.image.map QrImage.bytes).or r.image
    imageMime := (patch.image.map QrImage.mime).or r.imageMime
    isDefault := patch.isDefault.getD r.isDefault
    sortOrder := patch.sortOrder.getD r.sortOrder
    updatedAt := now }

def updateIn (actor : PaymentAccountActor) (id : String) (patch : PaymentAccountPatch) (now : Time) :
    Prog Answer := do
  lockAccounts
  let current ← activeRow id
  Tx.require (patch.kind = none ∨ patch.kind = some current.kind)
    (.badRequest ("Field 'kind' cannot change (" ++ current.kind ++ "); delete the account and create a new one"))
  Tx.require (patch.promptpayId = none ∨ current.kind = "promptpay")
    (.badRequest "Field 'promptpayId' is only for kind 'promptpay'")
  Tx.require (patch.image.isNone = true ∨ current.kind = "image")
    (.badRequest "Fields 'imageBase64'/'imageMime' are only for kind 'image'")
  let previousDefaultId ← clearDefaultIf (patch.isDefault = some true ∧ current.isDefault = false) now (some id)
  let row := patch.apply now current
  updateAccount id row
  let changedFields := changedFieldsOf current row
  -- A patch that moves the default and nothing else is the switch of the default.
  let action := if changedFields = ["isDefault"] then Action.defaultChanged else Action.updated
  writeAudit
    { actor, action, entityId := id, before := some (auditSummary current), after := auditSummary row,
      changedFields := some changedFields, previousDefaultId, deletedAt := none }
  return .account (toPaymentAccount id row)

def removeIn (actor : PaymentAccountActor) (id : String) (now : Time) : Prog Answer := do
  lockAccounts
  let current ← activeRow id
  let row := { current with deletedAt := some now, isDefault := false, updatedAt := now }
  updateAccount id row
  writeAudit
    { actor, action := .deleted, entityId := id, before := none, after := auditSummary row,
      changedFields := none, previousDefaultId := none, deletedAt := some now }
  return .deleted (toPaymentAccount id row) now

/-- The requests of the controller: a write is the owner's. -/
inductive Request (D : Type) where
  | list
  | create (owner : Bool) (actor : PaymentAccountActor) (body : Dyn D) (now : Time)
  | update (owner : Bool) (actor : PaymentAccountActor) (id : String) (body : Dyn D) (now : Time)
  | delete (owner : Bool) (actor : PaymentAccountActor) (id : String) (now : Time)

variable {D : Type}

def program : Request D → Prog Answer
  | .list                           => do return .accounts (← Tx.glance listIn)
  | .create owner actor body now    => do
      Tx.require (owner = true) .ownerOnly
      let input ← Tx.ofExcept (parsePaymentAccountCreate body)
      createIn actor input now
  | .update owner actor id body now => do
      Tx.require (isUuid id = true) (.invalidId "id")
      Tx.require (owner = true) .ownerOnly
      let patch ← Tx.ofExcept (parsePaymentAccountPatch body)
      updateIn actor id patch now
  | .delete owner actor id now      => do
      Tx.require (isUuid id = true) (.invalidId "id")
      Tx.require (owner = true) .ownerOnly
      removeIn actor id now

end Server.PaymentAccounts

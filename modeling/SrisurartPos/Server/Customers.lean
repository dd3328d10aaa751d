import SrisurartPos.JsString
import SrisurartPos.Numeral
import SrisurartPos.Server.Stockroom

/-! # Customers (`customers.service.ts`, `people.dto.ts`)

A new customer is numbered `CUS001`, `CUS002`, … under an advisory lock of the shop. A bill moves the points and the
spending of a customer; here the name, the telephone and the address are written, and nothing else. -/

namespace Server

open Txn Numeral

/-! ## Bodies -/

/-- The fields of a customer in a body. A field is not there, or `null`, or a text. -/
structure CustomerBody where
  name : Option (Option String)
  nameTH : Option (Option String)
  phone : Option (Option String)
  address : Option (Option String)
  deriving DecidableEq, Repr

structure CustomerCreate where
  id : Option CustomerId
  name : String
  nameTH : String
  phone : Option String
  address : Option String
  deriving DecidableEq, Repr

structure CustomerPatch where
  name : Option String
  nameTH : Option String
  phone : Option (Option String)
  address : Option (Option String)
  deriving DecidableEq, Repr

/-- The text, unless it is blank. -/
def usable (text : Option (Option String)) : Option String := text.join.filter fun s => JsString.trim s ≠ ""

/-- `nameOrThai`, `thaiOrName`: the one name, or the other where it is blank. -/
def oneOrOther (field : String) (one other : Option (Option String)) : Except ServerError String :=
  match usable one, usable other with
  | some name, _    => .ok name
  | none, some name => .ok name
  | none, none      => .error (.badRequest (field ++ " is required"))

def parseCustomerCreate (id : Option CustomerId) (body : CustomerBody) : Except ServerError CustomerCreate := do
  let name ← oneOrOther "name" body.name body.nameTH
  return { id, name, nameTH := body.nameTH.join.getD name, phone := body.phone.join, address := body.address.join }

theorem id_parseCustomerCreate {id : Option CustomerId} {body : CustomerBody} {input : CustomerCreate}
    (h : parseCustomerCreate id body = .ok input) : input.id = id := by
  rw [parseCustomerCreate] at h
  cases hname : oneOrOther "name" body.name body.nameTH with
  | error e =>
      rw [hname] at h
      cases h
  | ok name =>
      rw [hname] at h
      cases h
      rfl

/-- `present(value, field) ? … : undefined` -/
def whenPresent (there : Bool) (value : Except ServerError String) : Except ServerError (Option String) :=
  if there then value.map some else .ok none

def parseCustomerPatch (body : CustomerBody) : Except ServerError CustomerPatch := do
  let name ← whenPresent body.name.isSome (oneOrOther "name" body.name body.nameTH)
  let nameTH ← whenPresent body.nameTH.isSome (oneOrOther "nameTH" body.nameTH body.name)
  return { name, nameTH, phone := body.phone, address := body.address }

/-! ## Codes -/

/-- `substring(code FROM '^CUS([0-9]+)$')` as a number -/
def customerNo (code : String) : Option Nat :=
  match code.toList with
  | 'C' :: 'U' :: 'S' :: digits => if digits ≠ [] ∧ digits.all Char.isDigit then some (value digits) else none
  | _                           => none

def customerCode (n : Nat) : String := String.ofList ('C' :: 'U' :: 'S' :: padStart 3 n)

namespace Db

/-- `COALESCE(MAX(…::int), 0)`: none where a number is not an `int`. -/
def lastCustomerNo (db : Db) : Option Nat :=
  let numbers := db.customers.rows.filterMap fun e => customerNo e.2.code
  if numbers.all (fun n => (n : Int) ≤ int4Max) then some (numbers.foldl max 0) else none

def customerCodeTaken (code : String) (db : Db) : Bool := (db.customers.find fun _ row => row.code = code).isSome

end Db

/-! ## The service -/

/-- The row of a new customer: nothing bought yet. -/
def CustomerCreate.row (input : CustomerCreate) (code : String) : Customer :=
  { code, name := input.name, nameTH := input.nameTH, phone := input.phone, address := input.address
    points := 0, totalSpend := 0, deleted := false }

/-- `CustomersService.create` -/
def createCustomer (env : Env) (input : CustomerCreate) : Prog (CustomerId × Customer) := do
  -- `lockCodeSequence`
  Tx.acquire .customerCodes .update
  let last ← Tx.glance Db.lastCustomerNo
  let n ← Tx.orFail last .outOfRange
  let row := input.row (customerCode (n + 1))
  let c := input.id.getD env.newUuid
  let taken ← Tx.glance (Db.customerCodeTaken row.code)
  Tx.require (taken = false) .uniqueViolation
  -- a document that names the customer waits for the new row
  Tx.acquire (.customerKey c) .update
  Tx.insertRow (.customer c) (fun db => (db.customers.get c).isSome) .uniqueViolation fun db =>
    db.insertCustomer c row
  return (c, row)

/-- `UPDATE customers SET … WHERE … AND deleted_at IS NULL` -/
def Customer.edit (patch : CustomerPatch) (row : Customer) : Customer :=
  if row.deleted then row
  else { row with
    name := patch.name.getD row.name
    nameTH := patch.nameTH.getD row.nameTH
    phone := patch.phone.getD row.phone
    address := patch.address.getD row.address }

/-- `CustomersService.update` -/
def editCustomer (c : CustomerId) (patch : CustomerPatch) : Prog Customer := do
  let row ← Tx.updateReturning (.customer c) (fun db => db.modifyCustomer c (Customer.edit patch)) fun db =>
    db.customers.get c
  Tx.orFail (row.filter fun row => !row.deleted) .customerNotFound

/-! ## What it does -/

section
variable {H : Held LockKey} {s : Db}

theorem Customer.deleted_edit (patch : CustomerPatch) (row : Customer) : (row.edit patch).deleted = row.deleted := by
  unfold Customer.edit
  split
  · rfl
  · rfl

/-- **Specification of a new customer**: one row, under an id that was free. -/
theorem wp_createCustomer {env : Env} {input : CustomerCreate} :
    wp (createCustomer env input) H s Expected fun r H' s' =>
      (r.1 = input.id.getD env.newUuid ∧ s.customers.get r.1 = none ∧
        ∃ code, r.2 = input.row code ∧ s' = s.insertCustomer r.1 r.2) ∧ Covered agree H' s s' := by
  refine fun s₀ => wp_bind_orFail (fun n _ => ?_) fun _ => rfl
  refine wp_bind_glance fun s₁ => wp_bind_require (fun _ => ?_) fun _ => rfl
  refine (wp_bind _ _).mpr ((wp_acquire _ _).mpr ?_)
  refine wp_bind_insertRow (fun hfree => ?_) fun _ => rfl
  have hnew : s.customers.get (input.id.getD env.newUuid) = none := by simpa using hfree
  refine ⟨⟨rfl, hnew, _, rfl, rfl⟩, ?_⟩
  exact Covered.insertCustomer (Covered.refl _ _) hnew List.mem_cons_self (by simp)

/-- **Specification of an edit.** -/
theorem wp_editCustomer {c : CustomerId} {patch : CustomerPatch} :
    wp (editCustomer c patch) H s Expected fun r H' s' =>
      (∃ row, s.customers.get c = some row ∧ row.deleted = false ∧ r = row.edit patch ∧
        s' = s.modifyCustomer c (Customer.edit patch)) ∧ Covered agree H' s s' := by
  refine wp_bind_updateReturning (wp_orFail (fun after hafter => ?_) fun _ => rfl)
  have hget : (s.modifyCustomer c (Customer.edit patch)).customers.get c =
      (s.customers.get c).map (Customer.edit patch) := Table.get_modify_self _ _ _
  rw [hget, Option.filter_eq_some_iff, Option.map_eq_some_iff] at hafter
  obtain ⟨⟨row, hrow, rfl⟩, halive⟩ := hafter
  rw [Customer.deleted_edit] at halive
  refine ⟨⟨row, hrow, by simpa using halive, rfl, rfl⟩, ?_⟩
  exact Covered.modifyCustomer (Covered.refl _ _) List.mem_cons_self _

theorem disciplined_createCustomer (env : Env) (input : CustomerCreate) :
    Disciplined agree (createCustomer env input) H fun _ _ => True := by
  refine disciplined_bind_glance fun last => disciplined_bind_orFail fun n _ => ?_
  refine disciplined_bind_glance fun taken => disciplined_bind_require fun _ => ?_
  refine disciplined_bind_insertRow (fun s s' hs => ?_) (respects_insertCustomer List.mem_cons_self) trivial
  rw [View.customer.inj hs]

theorem disciplined_editCustomer (c : CustomerId) (patch : CustomerPatch) :
    Disciplined agree (editCustomer c patch) H fun _ _ => True := by
  refine disciplined_bind_updateReturning (respects_modifyCustomer _ _) ?_ ?_
  · intro s s' hs
    exact View.customer.inj hs
  · exact fun row => disciplined_orFail fun _ _ => trivial

end

end Server

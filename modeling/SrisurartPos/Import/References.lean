import SrisurartPos.Import.Books

/-! # The references of an imported file (`tenant-import.service.ts`)

A file that the pre-flight lets through never fails on a reference: each row finds the row it names, or the tombstone
of it, or is a price row that is left out. -/

namespace Import.References

open Import.PaymentAccounts Import.Tombstones Dyn Server.Ids Server.PaymentAccounts
open JsString (isSpace)

variable {D : Type} {host : Host D} {below : Dyn D → Nat} {pg : UuidInput} {now : Time} {ν : Type}

/-! ## Ids of a file that is let through -/

section
variable {snapshot : Object D} {spec : IdSpec}

end

/-! ## What the tombstones stand for -/

section
variable {α : Type} {refs : List (Option String)} {there : List String} {nameOf : String → Option String}
  {l : List α} {f : α → String × String} {g : α → String × ν}

end

/-! ## Columns -/

section
variable {r : Object D}

/-- The references of a bill that are there, are there as rows. -/
structure Refers (customers mechanics : Table String PersonRow) (accounts : Table String AccountRow)
    (refs : SaleRefs) : Prop where
  customer : ∀ id, refs.customerId = some id → (customers.get id).isSome = true
  mechanic : ∀ id, refs.mechanicId = some id → (mechanics.get id).isSome = true
  account : ∀ id, refs.paymentAccountId = some id → (accounts.get id).isSome = true

end

/-! ## The payment accounts -/

section
variable {s s' : Books} {snapshot : Object D}

/-- Every reference that has a foreign key finds its row. -/
structure Books.Sound (s : Books) : Prop where
  suppliers : ∀ id product, s.suppliers.get id = some product → (s.products.get product).isSome = true
  sales : ∀ id refs, s.sales.rows.get id = some refs → Refers s.customers s.mechanics s.accounts refs
  returns : ∀ id refs, s.returns.rows.get id = some refs → (s.sales.rows.get refs.saleId).isSome = true
  creditPayments : ∀ id mechanic, s.creditPayments.get id = some mechanic → (s.mechanics.get mechanic).isSome = true
  movements : ∀ id refs, s.movements.get id = some refs → (s.products.get refs.productId).isSome = true
  saleItems : s.sales.Under fun k _ => k.1
  returnItems : s.returns.Under fun k _ => k.1
  poItems : s.purchaseOrders.Under fun k _ => k.1
  quoteItems : s.quotes.Under fun k _ => k.1
  drawerEntries : s.shifts.Under fun _ shift => shift

theorem sound_cleared (accounts : Table String AccountRow) : { Books.empty with accounts }.Sound := by
  refine ⟨?_, ?_, ?_, ?_, ?_, ?_, ?_, ?_, ?_, ?_⟩ <;> exact fun _ _ h => by cases h

/-- The shop has the rows of the file, their lines and the tombstones, next to what it had. -/
structure Written (host : Host D) (below : Dyn D → Nat) (pg : UuidInput) (snapshot : Object D) (s s' : Books) :
    Prop where
  products : Filled (idsOf host snapshot "sa_products") ((planTombstones host snapshot).products.map productEntry)
    s.products s'.products
  customers : Filled (idsOf host snapshot "sa_customers") ((planTombstones host snapshot).customers.map personEntry)
    s.customers s'.customers
  mechanics : Filled (idsOf host snapshot "sa_mechanics") ((planTombstones host snapshot).mechanics.map personEntry)
    s.mechanics s'.mechanics
  /-- An account of the shop goes where the file has accounts. -/
  accounts : ∀ id ∈ idsOf host snapshot "sa_payment_accounts", (s'.accounts.get id).isSome = true
  accountsKept : PaymentAccounts.elements (get snapshot "sa_payment_accounts") = [] → s'.accounts = s.accounts
  sales : PapersFilled host below (productLine host pg) (store snapshot "sa_sales") s.sales s'.sales
  returns : PapersFilled host below (productLine host pg) (store snapshot "sa_returns") s.returns s'.returns
  creditPayments : Filled (idsOf host snapshot "sa_credit_payments") [] s.creditPayments s'.creditPayments
  purchaseOrders : PapersFilled host below orderLine (store snapshot "sa_pos") s.purchaseOrders s'.purchaseOrders
  quotes : PapersFilled host below (quoteLine host pg) (store snapshot "sa_quotes") s.quotes s'.quotes
  movements : Filled (idsOf host snapshot "sa_movements") [] s.movements s'.movements
  shifts : PapersFilled host below (entryLine host pg) (Tombstones.shifts snapshot) s.shifts s'.shifts
  parked : Filled (idsOf host snapshot "sa_parked") [] s.parked s'.parked
  /-- A price row stays out only where its product is neither in the file nor a tombstone. -/
  suppliers : ∀ sup ∈ store snapshot "sa_suppliers", (s'.suppliers.get (idText host sup)).isSome = true ∨
    idText host sup ∈ (planTombstones host snapshot).droppedSuppliers

/-! ### The columns of a row that is let through -/

theorem Books.Sound.remaining (hs : s.Sound) (replace : Bool) : (remaining replace s).Sound := by
  cases replace with
  | true => exact sound_cleared s.accounts
  | false => exact hs

end

end Import.References

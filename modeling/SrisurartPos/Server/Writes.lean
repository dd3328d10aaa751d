import SrisurartPos.Server.Schema

/-! # Changes of rows

The changes that the services' `INSERT` and `UPDATE` statements make, each with the two facts that
every proof about interleavings needs: under the lock the statement takes, the change does the same
to two databases that agree on what is locked (`respects_…`), and it leaves alone whatever another
transaction may hold a lock on (`Covered.…`). -/

namespace Server

open Txn

namespace Db

variable (db : Db)

def modifyProduct (p : ProductId) (f : Product → Product) : Db :=
  { db with products := db.products.modify p f }

def addMovement (m : Movement) : Db := { db with movements := db.movements ++ [m] }

def modifyCustomer (c : CustomerId) (f : Customer → Customer) : Db :=
  { db with customers := db.customers.modify c f }

def insertCustomer (c : CustomerId) (row : Customer) : Db :=
  { db with customers := db.customers.insert c row }

def modifyMechanic (m : MechanicId) (f : Mechanic → Mechanic) : Db :=
  { db with mechanics := db.mechanics.modify m f }

def insertSale (x : SaleId) (row : Sale) : Db := { db with sales := db.sales.insert x row }

def modifySale (x : SaleId) (f : Sale → Sale) : Db := { db with sales := db.sales.modify x f }

def insertReturn (r : ReturnId) (row : Return) : Db := { db with returns := db.returns.insert r row }

def insertPayment (i : PaymentId) (row : CreditPayment) : Db :=
  { db with creditPayments := db.creditPayments.insert i row }

def insertEntry (e : EntryId) (row : DrawerEntry) : Db :=
  { db with drawerEntries := db.drawerEntries.insert e row }

def insertShift (k : ShiftId) (row : Shift) : Db := { db with shifts := db.shifts.insert k row }

/-- `SET closed_at = now(), physical_cash = …` -/
def closeShift (k : ShiftId) (cash : Int) : Db :=
  { db with shifts := db.shifts.modify k fun s => { s with closed := true, physicalCash := some cash } }

/-- `SET is_active = FALSE, auto_archived = auto_archived OR …` -/
def archiveShift (k : ShiftId) (neverClosed : Bool) : Db :=
  { db with shifts := db.shifts.modify k fun s =>
      { s with isActive := false, autoArchived := s.autoArchived || neverClosed } }

def modifyDevice (d : DeviceId) (f : Device → Device) : Db :=
  { db with devices := db.devices.modify d f }

def setCounter (c : DeviceId × DocType × Period) (n : Nat) : Db :=
  { db with docCounters := db.docCounters.upsert c n }

def modifyPo (i : PoId) (f : PurchaseOrder → PurchaseOrder) : Db :=
  { db with purchaseOrders := db.purchaseOrders.modify i f }

def modifyQuote (q : QuoteId) (f : Quote → Quote) : Db := { db with quotes := db.quotes.modify q f }

def insertKey (k : Nat) (row : KeyRow) : Db :=
  { db with idempotencyKeys := db.idempotencyKeys.insert k row }

def modifyKey (k : Nat) (f : KeyRow → KeyRow) : Db :=
  { db with idempotencyKeys := db.idempotencyKeys.modify k f }

def eraseKey (k : Nat) : Db := { db with idempotencyKeys := db.idempotencyKeys.erase k }

def addAudit (a : AuditEntry) : Db := { db with auditLog := db.auditLog ++ [a] }

def addReview (r : ReviewItem) : Db := { db with reviewItems := db.reviewItems ++ [r] }

/-- `ON CONFLICT DO NOTHING` on the item's kind and document. -/
def addReviewOnce (r : ReviewItem) : Db :=
  { db with reviewItems := if r ∈ db.reviewItems then db.reviewItems else db.reviewItems ++ [r] }

end Db

/-! ## What a change leaves alone -/

theorem Covered.refl (H : Held LockKey) (s : Db) : Covered agree H s s := fun _ _ _ => rfl

/-- More locks cover more. -/
theorem Covered.mono {H H' : Held LockKey} {s s' : Db} (h : Covered agree H s s') (hH : H ⊆ H') :
    Covered agree H' s s' :=
  fun ℓ m hc => h ℓ m fun ℓ' m₁ m₂ h₁ h₂ => hc ℓ' m₁ m₂ h₁ (hH h₂)

theorem Covered.trans {H : Held LockKey} {s s' s'' : Db} (h : Covered agree H s s')
    (h' : Covered agree H s' s'') : Covered agree H s s'' :=
  fun ℓ m hc => Eq.trans (h ℓ m hc) (h' ℓ m hc)

/-- Nobody else has a lock on a row locked for update. -/
theorem ne_of_update {ℓ ℓ' : LockKey} {m : Mode} {H : Held LockKey}
    (hc : Compatible [(ℓ, m)] H) (h : (ℓ', Mode.update) ∈ H) : ℓ ≠ ℓ' := by
  rintro rfl
  simpa using hc ℓ m .update (List.mem_singleton.mpr rfl) h

/-- Nobody else has locked for update what is locked in share mode. -/
theorem ne_of_share {ℓ ℓ' : LockKey} {m : Mode} {H : Held LockKey}
    (hc : Compatible [(ℓ, m)] H) (h : (ℓ', Mode.share) ∈ H) : (ℓ, m) ≠ (ℓ', .update) := by
  rintro heq
  cases heq
  simpa using hc ℓ .update .share (List.mem_singleton.mpr rfl) h

section
variable {H : Held LockKey} {s s' : Db}

/-! ## Products and the stock ledger -/

theorem respects_modifyProduct (p : ProductId) (f : Product → Product) :
    Respects agree H fun s => s.modifyProduct p f := by
  rintro s s' hs ⟨ℓ, m⟩ h
  cases ℓ with
  | product p' =>
      obtain ⟨h₁, h₂⟩ := View.product.inj h
      show View.product _ _ = View.product _ _
      congr 1
      simp only [Db.modifyProduct, Table.get_modify, h₁]
  | shift k => cases m <;> exact h
  | _ => exact h

/-- A product's row is written under the lock of the product. -/
theorem Covered.modifyProduct (h : Covered agree H s s') {p : ProductId}
    (hp : (.product p, .update) ∈ H) (f : Product → Product) :
    Covered agree H s (s'.modifyProduct p f) := by
  intro ℓ m hc
  have hne := ne_of_update hc hp
  refine Eq.trans (h ℓ m hc) ?_
  cases ℓ with
  | product p' =>
      have : p' ≠ p := fun hpp => hne (by rw [hpp])
      show View.product _ _ = View.product _ _
      simp [Db.modifyProduct, this, Db.movementsOf]
  | shift k => cases m <;> rfl
  | _ => rfl

theorem movementsOf_addMovement (db : Db) (mv : Movement) (p : ProductId) :
    (db.addMovement mv).movementsOf p =
      db.movementsOf p ++ if mv.productId = p then [mv] else [] := by
  rw [Db.movementsOf, Db.addMovement, List.filter_append]
  by_cases h : mv.productId = p <;> simp [Db.movementsOf, h]

theorem respects_addMovement (mv : Movement) : Respects agree H fun s => s.addMovement mv := by
  rintro s s' hs ⟨ℓ, m⟩ h
  cases ℓ with
  | product p =>
      obtain ⟨h₁, h₂⟩ := View.product.inj h
      show View.product (s.products.get p) _ = View.product (s'.products.get p) _
      rw [movementsOf_addMovement, movementsOf_addMovement, h₁, h₂]
  | shift k => cases m <;> exact h
  | _ => exact h

/-- A movement is written under the lock of its product. -/
theorem Covered.addMovement (h : Covered agree H s s') {mv : Movement}
    (hp : (.product mv.productId, .update) ∈ H) : Covered agree H s (s'.addMovement mv) := by
  intro ℓ m hc
  have hne := ne_of_update hc hp
  refine Eq.trans (h ℓ m hc) ?_
  cases ℓ with
  | product p =>
      have : mv.productId ≠ p := fun hpp => hne (by rw [hpp])
      show View.product (s'.products.get p) _ = View.product (s'.products.get p) _
      simp [movementsOf_addMovement, this]
  | shift k => cases m <;> rfl
  | _ => rfl

/-! ## Customers and mechanics -/

theorem respects_modifyCustomer (c : CustomerId) (f : Customer → Customer) :
    Respects agree H fun s => s.modifyCustomer c f := by
  rintro s s' hs ⟨ℓ, m⟩ h
  cases ℓ with
  | customer c' =>
      have h := View.customer.inj h
      show View.customer _ = View.customer _
      simp only [Db.modifyCustomer, Table.get_modify, h]
  | customerKey c' =>
      have h := View.present.inj h
      show View.present _ = View.present _
      simp only [Db.modifyCustomer, Table.isSome_modify, h]
  | shift k => cases m <;> exact h
  | _ => exact h

theorem Covered.modifyCustomer (h : Covered agree H s s') {c : CustomerId}
    (hcl : (.customer c, .update) ∈ H) (f : Customer → Customer) :
    Covered agree H s (s'.modifyCustomer c f) := by
  intro ℓ m hc
  have hne := ne_of_update hc hcl
  refine Eq.trans (h ℓ m hc) ?_
  cases ℓ with
  | customer c' =>
      have : c' ≠ c := fun hcc => hne (by rw [hcc])
      show View.customer _ = View.customer _
      simp [Db.modifyCustomer, this]
  | customerKey c' =>
      show View.present _ = View.present _
      simp only [Db.modifyCustomer, Table.isSome_modify]
  | shift k => cases m <;> rfl
  | _ => rfl

/-- A new customer is inserted under the lock that stands for its key. -/
theorem respects_insertCustomer {c : CustomerId} {row : Customer} (hc : (.customer c, .update) ∈ H) :
    Respects agree H fun s => s.insertCustomer c row := by
  rintro s s' hs ⟨ℓ, m⟩ h
  have hrow := View.customer.inj (hs _ hc)
  cases hc' : s.customers.get c with
  | some v =>
      have e : s.insertCustomer c row = s := by
        simp [Db.insertCustomer, Table.insert_of_mem hc']
      have e' : s'.insertCustomer c row = s' := by
        simp [Db.insertCustomer, Table.insert_of_mem (hrow ▸ hc')]
      show agree (ℓ, m) (s.insertCustomer c row) (s'.insertCustomer c row)
      rw [e, e']
      exact h
  | none =>
      have hc'' : s'.customers.get c = none := hrow ▸ hc'
      cases ℓ with
      | customer j =>
          have h := View.customer.inj h
          show View.customer _ = View.customer _
          simp only [Db.insertCustomer, Table.get_insert hc', Table.get_insert hc'', h]
      | customerKey j =>
          have h := View.present.inj h
          show View.present _ = View.present _
          simp only [Db.insertCustomer, Table.get_insert hc', Table.get_insert hc'']
          split
          · rfl
          · rw [h]
      | shift k => cases m <;> exact h
      | _ => exact h

/-- A document that names the customer waits for the row, or has it. -/
theorem Covered.insertCustomer (h : Covered agree H s s') {c : CustomerId} {row : Customer}
    (hnew : s'.customers.get c = none) (hc : (.customer c, .update) ∈ H)
    (hkey : (.customerKey c, .update) ∈ H) : Covered agree H s (s'.insertCustomer c row) := by
  intro ℓ m hcomp
  refine Eq.trans (h ℓ m hcomp) ?_
  cases ℓ with
  | customer j =>
      have : j ≠ c := fun hjc => ne_of_update hcomp hc (by rw [hjc])
      show View.customer _ = View.customer _
      simp [Db.insertCustomer, Table.get_insert hnew, this]
  | customerKey j =>
      have : j ≠ c := fun hjc => ne_of_update hcomp hkey (by rw [hjc])
      show View.present _ = View.present _
      simp [Db.insertCustomer, Table.get_insert hnew, this]
  | shift k => cases m <;> rfl
  | _ => rfl

theorem respects_modifyMechanic (c : MechanicId) (f : Mechanic → Mechanic) :
    Respects agree H fun s => s.modifyMechanic c f := by
  rintro s s' hs ⟨ℓ, m⟩ h
  cases ℓ with
  | mechanic c' =>
      have h := View.mechanic.inj h
      show View.mechanic _ = View.mechanic _
      simp only [Db.modifyMechanic, Table.get_modify, h]
  | mechanicKey c' =>
      have h := View.present.inj h
      show View.present _ = View.present _
      simp only [Db.modifyMechanic, Table.isSome_modify, h]
  | shift k => cases m <;> exact h
  | _ => exact h

theorem Covered.modifyMechanic (h : Covered agree H s s') {c : MechanicId}
    (hcl : (.mechanic c, .update) ∈ H) (f : Mechanic → Mechanic) :
    Covered agree H s (s'.modifyMechanic c f) := by
  intro ℓ m hc
  have hne := ne_of_update hc hcl
  refine Eq.trans (h ℓ m hc) ?_
  cases ℓ with
  | mechanic c' =>
      have : c' ≠ c := fun hcc => hne (by rw [hcc])
      show View.mechanic _ = View.mechanic _
      simp [Db.modifyMechanic, this]
  | mechanicKey c' =>
      show View.present _ = View.present _
      simp only [Db.modifyMechanic, Table.isSome_modify]
  | shift k => cases m <;> rfl
  | _ => rfl

/-! ## Bills and credit notes -/

theorem cashOfSale_congr {k : ShiftId} {x : SaleId} {sale : Sale}
    (h : s.notesOf x = s'.notesOf x) : s.cashOfSale k x sale = s'.cashOfSale k x sale := by
  rw [Db.cashOfSale, Db.cashOfSale, Db.counted, Db.counted, h]

theorem drawerCash_insertSale {x : SaleId} (hx : s.sales.get x = none) (row : Sale) (k : ShiftId) :
    (s.insertSale x row).drawerCash k = s.drawerCash k + s.cashOfSale k x row := by
  have : (s.insertSale x row).sales.total ((s.insertSale x row).cashOfSale k) =
      s.sales.total (s.cashOfSale k) + s.cashOfSale k x row :=
    Table.total_insert hx row _
  simp only [Db.drawerCash, this]
  simp only [Db.insertSale]
  omega

/-- The bill is protected by its own lock. -/
theorem respects_insertSale {x : SaleId} {row : Sale} (hx : (.sale x, .update) ∈ H) :
    Respects agree H fun s => s.insertSale x row := by
  rintro s s' hs ⟨ℓ, m⟩ h
  obtain ⟨hsale, hnotes⟩ := View.sale.inj (hs _ hx)
  cases hx' : s.sales.get x with
  | some v =>
      have e : s.insertSale x row = s := by
        simp [Db.insertSale, Table.insert_of_mem hx']
      have e' : s'.insertSale x row = s' := by
        simp [Db.insertSale, Table.insert_of_mem (hsale ▸ hx')]
      show agree (ℓ, m) (s.insertSale x row) (s'.insertSale x row)
      rw [e, e']
      exact h
  | none =>
      have hx'' : s'.sales.get x = none := hsale ▸ hx'
      cases ℓ with
      | sale y =>
          obtain ⟨h₁, h₂⟩ := View.sale.inj h
          show View.sale _ (s.notesOf y) = View.sale _ (s'.notesOf y)
          simp only [Db.insertSale, Table.get_insert hx', Table.get_insert hx'', h₁, h₂]
      | receiptNo n =>
          have h := View.present.inj h
          show View.present _ = View.present _
          simp only [Db.receiptTaken] at h
          simp only [Db.receiptTaken, Db.insertSale, Table.find_insert hx', Table.find_insert hx'', h]
      | shift k =>
          cases m with
          | share => exact h
          | update =>
              obtain ⟨h₁, h₂⟩ := View.drawer.inj h
              show View.drawer (s.shifts.get k) _ = View.drawer (s'.shifts.get k) _
              rw [h₁, drawerCash_insertSale hx', drawerCash_insertSale hx'', h₂,
                cashOfSale_congr hnotes]
      | _ => exact h

/-- A bill needs the locks of its id, of its number and, shared, of the drawer it counts in. -/
theorem Covered.insertSale (h : Covered agree H s s') {x : SaleId} {row : Sale}
    (hnew : s'.sales.get x = none) (hx : (.sale x, .update) ∈ H)
    (hn : (.receiptNo row.receiptNo, .update) ∈ H)
    (hk : ∀ k, row.shiftId = some k → (.shift k, .share) ∈ H) :
    Covered agree H s (s'.insertSale x row) := by
  intro ℓ m hc
  refine Eq.trans (h ℓ m hc) ?_
  cases ℓ with
  | sale y =>
      have : y ≠ x := fun hyx => ne_of_update hc hx (by rw [hyx])
      show View.sale _ (s'.notesOf y) = View.sale _ (s'.notesOf y)
      simp [Db.insertSale, this]
  | receiptNo n =>
      have : row.receiptNo ≠ n := fun hnn => ne_of_update hc hn (by rw [hnn])
      show View.present _ = View.present _
      simp [Db.receiptTaken, Db.insertSale, Table.find_insert hnew, this]
  | shift k =>
      cases m with
      | share => rfl
      | update =>
          have : row.shiftId ≠ some k := fun hrk => ne_of_share hc (hk k hrk) rfl
          show View.drawer (s'.shifts.get k) _ = View.drawer (s'.shifts.get k) _
          rw [drawerCash_insertSale hnew, Db.cashOfSale, if_neg fun hcash => this hcash.1, add_zero]
  | _ => rfl

theorem drawerCash_modifySale {x : SaleId} {v : Sale} (hx : s.sales.get x = some v)
    (f : Sale → Sale) (k : ShiftId) :
    (s.modifySale x f).drawerCash k =
      s.drawerCash k - s.cashOfSale k x v + s.cashOfSale k x (f v) := by
  have : (s.modifySale x f).sales.total ((s.modifySale x f).cashOfSale k) =
      s.sales.total (s.cashOfSale k) - s.cashOfSale k x v + s.cashOfSale k x (f v) :=
    Table.total_modify hx f _
  simp only [Db.drawerCash, this]
  simp only [Db.modifySale]
  omega

/-- An update of a bill that leaves its number alone reads no more than the bill. -/
theorem respects_modifySale {x : SaleId} {f : Sale → Sale} (hx : (.sale x, .update) ∈ H)
    (hf : ∀ r, (f r).receiptNo = r.receiptNo) : Respects agree H fun s => s.modifySale x f := by
  rintro s s' hs ⟨ℓ, m⟩ h
  obtain ⟨hsale, hnotes⟩ := View.sale.inj (hs _ hx)
  cases ℓ with
  | sale y =>
      obtain ⟨h₁, h₂⟩ := View.sale.inj h
      show View.sale _ (s.notesOf y) = View.sale _ (s'.notesOf y)
      simp only [Db.modifySale, Table.get_modify, h₁, h₂]
  | receiptNo n =>
      have h := View.present.inj h
      simp only [Db.receiptTaken] at h
      show View.present _ = View.present _
      congr 1
      simp only [Db.receiptTaken, Db.modifySale]
      rw [Table.find_modify_isSome fun v => by rw [hf], Table.find_modify_isSome fun v => by rw [hf], h]
  | shift k =>
      cases m with
      | share => exact h
      | update =>
          obtain ⟨h₁, h₂⟩ := View.drawer.inj h
          show View.drawer (s.shifts.get k) _ = View.drawer (s'.shifts.get k) _
          rw [h₁]
          congr 1
          cases hx' : s.sales.get x with
          | none =>
              have e : ∀ t : Db, t.sales.get x = none → t.modifySale x f = t := by
                intro t ht
                rw [Db.modifySale, Table.modify_of_none ht]
              show (s.modifySale x f).drawerCash k = (s'.modifySale x f).drawerCash k
              rw [e s hx', e s' (hsale ▸ hx'), h₂]
          | some v =>
              show (s.modifySale x f).drawerCash k = (s'.modifySale x f).drawerCash k
              rw [drawerCash_modifySale hx', drawerCash_modifySale (hsale ▸ hx'), h₂,
                cashOfSale_congr hnotes, cashOfSale_congr hnotes]
  | _ => exact h

/-- An update of a bill also changes the cash of its drawer, so the drawer is locked, or its cash stays the
same. -/
theorem Covered.modifySale (h : Covered agree H s s') {x : SaleId} {f : Sale → Sale}
    (hx : (.sale x, .update) ∈ H) (hf : ∀ r, (f r).receiptNo = r.receiptNo)
    (hk : ∀ k, (.shift k, .share) ∉ H → (s'.modifySale x f).drawerCash k = s'.drawerCash k) :
    Covered agree H s (s'.modifySale x f) := by
  intro ℓ m hc
  refine Eq.trans (h ℓ m hc) ?_
  cases ℓ with
  | sale y =>
      have : y ≠ x := fun hyx => ne_of_update hc hx (by rw [hyx])
      show View.sale _ (s'.notesOf y) = View.sale _ (s'.notesOf y)
      simp [Db.modifySale, this]
  | receiptNo n =>
      show View.present _ = View.present _
      simp only [Db.receiptTaken, Db.modifySale]
      rw [Table.find_modify_isSome fun v => by rw [hf]]
  | shift k =>
      cases m with
      | share => rfl
      | update =>
          show View.drawer (s'.shifts.get k) _ = View.drawer (s'.shifts.get k) _
          rw [hk k fun hshare => ne_of_share hc hshare rfl]
  | _ => rfl

theorem notesOf_insertReturn {r : ReturnId} (hr : s.returns.get r = none) (row : Return)
    (y : SaleId) :
    (s.insertReturn r row).notesOf y = s.notesOf y ++ if row.saleId = y then [row] else [] := by
  rw [Db.notesOf, Db.insertReturn, Table.select_insert hr]
  simp [Db.notesOf]

/-- A credit note takes its cash out of its drawer, and its bill may count otherwise from then on. -/
theorem drawerCash_insertReturn {r : ReturnId} (hr : s.returns.get r = none) (row : Return)
    (k : ShiftId) :
    (s.insertReturn r row).drawerCash k = s.drawerCash k - Db.cashOfReturn k r row +
      (s.sales.get row.saleId).elim 0 fun v =>
        (s.insertReturn r row).cashOfSale k row.saleId v - s.cashOfSale k row.saleId v := by
  have hret : (s.insertReturn r row).returns.total (Db.cashOfReturn k) =
      s.returns.total (Db.cashOfReturn k) + Db.cashOfReturn k r row :=
    Table.total_insert hr row _
  have hsales : s.sales.total ((s.insertReturn r row).cashOfSale k) =
      s.sales.total (s.cashOfSale k) + _ :=
    Table.total_of_eq_off (k := row.saleId) fun y v hy => by
      refine cashOfSale_congr ?_
      rw [notesOf_insertReturn hr, if_neg (Ne.symm hy), List.append_nil]
  have hsame : (s.insertReturn r row).sales = s.sales := rfl
  rw [Db.drawerCash, hret, hsame, hsales]
  simp only [Db.drawerCash, Db.insertReturn]
  omega

/-- The note is protected by its own lock and, among the notes of its bill, by the bill's. -/
theorem respects_insertReturn {r : ReturnId} {row : Return} (hr : (.creditNote r, .update) ∈ H)
    (hx : (.sale row.saleId, .update) ∈ H) : Respects agree H fun s => s.insertReturn r row := by
  rintro s s' hs ⟨ℓ, m⟩ h
  have hret := View.creditNote.inj (hs _ hr)
  obtain ⟨hsale, hnotes⟩ := View.sale.inj (hs _ hx)
  cases hr' : s.returns.get r with
  | some v =>
      have e : s.insertReturn r row = s := by
        simp [Db.insertReturn, Table.insert_of_mem hr']
      have e' : s'.insertReturn r row = s' := by
        simp [Db.insertReturn, Table.insert_of_mem (hret ▸ hr')]
      show agree (ℓ, m) (s.insertReturn r row) (s'.insertReturn r row)
      rw [e, e']
      exact h
  | none =>
      have hr'' : s'.returns.get r = none := hret ▸ hr'
      cases ℓ with
      | sale y =>
          obtain ⟨h₁, h₂⟩ := View.sale.inj h
          show View.sale (s.sales.get y) _ = View.sale (s'.sales.get y) _
          rw [h₁, notesOf_insertReturn hr', notesOf_insertReturn hr'', h₂]
      | creditNote r' =>
          have h := View.creditNote.inj h
          show View.creditNote _ = View.creditNote _
          simp only [Db.insertReturn, Table.get_insert hr', Table.get_insert hr'', h]
      | cnNo n =>
          have h := View.present.inj h
          simp only [Db.cnTaken] at h
          show View.present _ = View.present _
          simp only [Db.cnTaken, Db.insertReturn, Table.find_insert hr', Table.find_insert hr'', h]
      | shift k =>
          cases m with
          | share => exact h
          | update =>
              obtain ⟨h₁, h₂⟩ := View.drawer.inj h
              show View.drawer (s.shifts.get k) _ = View.drawer (s'.shifts.get k) _
              rw [h₁, drawerCash_insertReturn hr', drawerCash_insertReturn hr'', h₂, hsale]
              congr 2
              cases s'.sales.get row.saleId with
              | none => rfl
              | some v =>
                  have hn : (s.insertReturn r row).notesOf row.saleId =
                      (s'.insertReturn r row).notesOf row.saleId := by
                    rw [notesOf_insertReturn hr', notesOf_insertReturn hr'', hnotes]
                  rw [Option.elim_some, Option.elim_some, cashOfSale_congr hn, cashOfSale_congr hnotes]
      | _ => exact h

/-- A credit note needs the locks of its id, its number, its bill and, shared, its drawer. -/
theorem Covered.insertReturn (h : Covered agree H s s') {r : ReturnId} {row : Return}
    (hnew : s'.returns.get r = none) (hr : (.creditNote r, .update) ∈ H)
    (hx : (.sale row.saleId, .update) ∈ H) (hn : (.cnNo row.cnNo, .update) ∈ H)
    (hk : ∀ k, row.shiftId = some k → (.shift k, .share) ∈ H)
    (hvoid : ∀ v, s'.sales.get row.saleId = some v → v.voided = false) :
    Covered agree H s (s'.insertReturn r row) := by
  intro ℓ m hc
  refine Eq.trans (h ℓ m hc) ?_
  cases ℓ with
  | sale y =>
      have : row.saleId ≠ y := fun hyx => ne_of_update hc hx (by rw [hyx])
      show View.sale (s'.sales.get y) _ = View.sale (s'.sales.get y) _
      rw [notesOf_insertReturn hnew, if_neg this, List.append_nil]
  | creditNote r' =>
      have : r' ≠ r := fun hrr => ne_of_update hc hr (by rw [hrr])
      show View.creditNote _ = View.creditNote _
      simp [Db.insertReturn, this]
  | cnNo n =>
      have : row.cnNo ≠ n := fun hnn => ne_of_update hc hn (by rw [hnn])
      show View.present _ = View.present _
      simp [Db.cnTaken, Db.insertReturn, Table.find_insert hnew, this]
  | shift k =>
      cases m with
      | share => rfl
      | update =>
          have hrk : row.shiftId ≠ some k := fun hrk => ne_of_share hc (hk k hrk) rfl
          show View.drawer (s'.shifts.get k) _ = View.drawer (s'.shifts.get k) _
          rw [drawerCash_insertReturn hnew, Db.cashOfReturn, if_neg fun hcash => hrk hcash.1, sub_zero]
          congr 1
          cases hsale : s'.sales.get row.saleId with
          | none => simp
          | some v => simp [Db.cashOfSale, Db.counted, hvoid v hsale]
  | _ => rfl

/-! ## Credit payments -/

theorem drawerCash_insertPayment {i : PaymentId} (hi : s.creditPayments.get i = none)
    (row : CreditPayment) (k : ShiftId) :
    (s.insertPayment i row).drawerCash k = s.drawerCash k + Db.cashOfPayment k i row := by
  have : (s.insertPayment i row).creditPayments.total (Db.cashOfPayment k) =
      s.creditPayments.total (Db.cashOfPayment k) + Db.cashOfPayment k i row :=
    Table.total_insert hi row _
  have hsales : (s.insertPayment i row).cashOfSale k = s.cashOfSale k := rfl
  rw [Db.drawerCash, this, hsales]
  simp only [Db.drawerCash, Db.insertPayment]
  omega

theorem respects_insertPayment {i : PaymentId} {row : CreditPayment}
    (hi : (.payment i, .update) ∈ H) : Respects agree H fun s => s.insertPayment i row := by
  rintro s s' hs ⟨ℓ, m⟩ h
  have hpay := View.payment.inj (hs _ hi)
  cases hi' : s.creditPayments.get i with
  | some v =>
      have e : s.insertPayment i row = s := by
        simp [Db.insertPayment, Table.insert_of_mem hi']
      have e' : s'.insertPayment i row = s' := by
        simp [Db.insertPayment, Table.insert_of_mem (hpay ▸ hi')]
      show agree (ℓ, m) (s.insertPayment i row) (s'.insertPayment i row)
      rw [e, e']
      exact h
  | none =>
      have hi'' : s'.creditPayments.get i = none := hpay ▸ hi'
      cases ℓ with
      | payment j =>
          have h := View.payment.inj h
          show View.payment _ = View.payment _
          simp only [Db.insertPayment, Table.get_insert hi', Table.get_insert hi'', h]
      | cpNo n =>
          have h := View.present.inj h
          simp only [Db.cpTaken] at h
          show View.present _ = View.present _
          simp only [Db.cpTaken, Db.insertPayment, Table.find_insert hi', Table.find_insert hi'', h]
      | shift k =>
          cases m with
          | share => exact h
          | update =>
              obtain ⟨h₁, h₂⟩ := View.drawer.inj h
              show View.drawer (s.shifts.get k) _ = View.drawer (s'.shifts.get k) _
              rw [h₁, drawerCash_insertPayment hi', drawerCash_insertPayment hi'', h₂]
      | _ => exact h

/-- A credit payment needs the locks of its id, its number and, shared, its drawer. -/
theorem Covered.insertPayment (h : Covered agree H s s') {i : PaymentId} {row : CreditPayment}
    (hnew : s'.creditPayments.get i = none) (hi : (.payment i, .update) ∈ H)
    (hn : (.cpNo row.receiptNo, .update) ∈ H)
    (hk : ∀ k, row.shiftId = some k → (.shift k, .share) ∈ H) :
    Covered agree H s (s'.insertPayment i row) := by
  intro ℓ m hc
  refine Eq.trans (h ℓ m hc) ?_
  cases ℓ with
  | payment j =>
      have : j ≠ i := fun hji => ne_of_update hc hi (by rw [hji])
      show View.payment _ = View.payment _
      simp [Db.insertPayment, this]
  | cpNo n =>
      have : row.receiptNo ≠ n := fun hnn => ne_of_update hc hn (by rw [hnn])
      show View.present _ = View.present _
      simp [Db.cpTaken, Db.insertPayment, Table.find_insert hnew, this]
  | shift k =>
      cases m with
      | share => rfl
      | update =>
          have hrk : row.shiftId ≠ some k := fun hrk => ne_of_share hc (hk k hrk) rfl
          show View.drawer (s'.shifts.get k) _ = View.drawer (s'.shifts.get k) _
          rw [drawerCash_insertPayment hnew, Db.cashOfPayment, if_neg fun hcash => hrk hcash.1,
            add_zero]
  | _ => rfl

/-! ## Drawers and devices -/

theorem drawerCash_insertEntry {e : EntryId} (he : s.drawerEntries.get e = none)
    (row : DrawerEntry) (k : ShiftId) :
    (s.insertEntry e row).drawerCash k = s.drawerCash k + Db.cashOfEntry k e row := by
  have : (s.insertEntry e row).drawerEntries.total (Db.cashOfEntry k) =
      s.drawerEntries.total (Db.cashOfEntry k) + Db.cashOfEntry k e row :=
    Table.total_insert he row _
  have hsales : (s.insertEntry e row).cashOfSale k = s.cashOfSale k := rfl
  rw [Db.drawerCash, this, hsales]
  simp only [Db.drawerCash, Db.insertEntry]
  omega

theorem respects_insertEntry {e : EntryId} {row : DrawerEntry} (he : (.entry e, .update) ∈ H) :
    Respects agree H fun s => s.insertEntry e row := by
  rintro s s' hs ⟨ℓ, m⟩ h
  have hent := View.entry.inj (hs _ he)
  cases he' : s.drawerEntries.get e with
  | some v =>
      have e₁ : s.insertEntry e row = s := by
        simp [Db.insertEntry, Table.insert_of_mem he']
      have e₂ : s'.insertEntry e row = s' := by
        simp [Db.insertEntry, Table.insert_of_mem (hent ▸ he')]
      show agree (ℓ, m) (s.insertEntry e row) (s'.insertEntry e row)
      rw [e₁, e₂]
      exact h
  | none =>
      have he'' : s'.drawerEntries.get e = none := hent ▸ he'
      cases ℓ with
      | entry j =>
          have h := View.entry.inj h
          show View.entry _ = View.entry _
          simp only [Db.insertEntry, Table.get_insert he', Table.get_insert he'', h]
      | shift k =>
          cases m with
          | share => exact h
          | update =>
              obtain ⟨h₁, h₂⟩ := View.drawer.inj h
              show View.drawer (s.shifts.get k) _ = View.drawer (s'.shifts.get k) _
              rw [h₁, drawerCash_insertEntry he', drawerCash_insertEntry he'', h₂]
      | _ => exact h

/-- A drawer entry needs the lock of its id and the drawer's own lock. -/
theorem Covered.insertEntry (h : Covered agree H s s') {e : EntryId} {row : DrawerEntry}
    (hnew : s'.drawerEntries.get e = none) (he : (.entry e, .update) ∈ H)
    (hk : (.shift row.shiftId, .update) ∈ H) : Covered agree H s (s'.insertEntry e row) := by
  intro ℓ m hc
  refine Eq.trans (h ℓ m hc) ?_
  cases ℓ with
  | entry j =>
      have : j ≠ e := fun hje => ne_of_update hc he (by rw [hje])
      show View.entry _ = View.entry _
      simp [Db.insertEntry, this]
  | shift k =>
      have hrk : row.shiftId ≠ k := fun hrk => ne_of_update hc hk (by rw [hrk])
      cases m with
      | share => rfl
      | update =>
          show View.drawer (s'.shifts.get k) _ = View.drawer (s'.shifts.get k) _
          rw [drawerCash_insertEntry hnew, Db.cashOfEntry, if_neg hrk, add_zero]
  | _ => rfl

theorem activeShifts_insertShift {k : ShiftId} (hk : s.shifts.get k = none) (row : Shift)
    (d : DeviceId) :
    (s.insertShift k row).activeShifts d =
      s.activeShifts d ++ if row.deviceId = d && row.isActive then [k] else [] := by
  rw [Db.activeShifts, Db.insertShift, Table.rows_insert hk, List.filter_append, List.map_append]
  by_cases hd : (row.deviceId = d && row.isActive) = true <;> simp_all [Db.activeShifts]

theorem activeShifts_closeShift (k : ShiftId) (cash : Int) (d : DeviceId) :
    (s.closeShift k cash).activeShifts d = s.activeShifts d := by
  rw [Db.activeShifts, Db.closeShift, Table.modify, List.filter_map, List.map_map]
  simp only [Db.activeShifts]
  congr 1
  · funext e
    by_cases he : e.1 = k <;> simp [he]
  · apply List.filter_congr
    intro e _
    by_cases he : e.1 = k <;> simp [he]

theorem activeShifts_archiveShift (k : ShiftId) (neverClosed : Bool) (d : DeviceId) :
    (s.archiveShift k neverClosed).activeShifts d = (s.activeShifts d).filter fun j => j ≠ k := by
  rw [Db.activeShifts, Db.archiveShift, Table.modify, List.filter_map, List.map_map]
  simp only [Db.activeShifts, List.filter_map, List.filter_filter]
  rw [List.filter_congr (q := fun e : ShiftId × Shift =>
    decide (e.1 ≠ k) && (decide (e.2.deviceId = d) && e.2.isActive)) fun e _ => ?_]
  · apply List.map_congr_left
    intro e _
    by_cases he : e.1 = k <;> simp [he]
  · by_cases he : e.1 = k <;> simp [he]

theorem drawersOf_insertShift {k : ShiftId} (hk : s.shifts.get k = none) (row : Shift)
    (d : DeviceId) :
    (s.insertShift k row).drawersOf d = s.drawersOf d ++ if row.deviceId = d then [k] else [] := by
  rw [Db.drawersOf, Db.insertShift, Table.rows_insert hk, List.filter_append, List.map_append]
  by_cases hd : row.deviceId = d <;> simp [hd, Db.drawersOf]

/-- A drawer never changes hands. -/
private theorem drawersOf_modify {t : Table ShiftId Shift} {k : ShiftId} {f : Shift → Shift}
    (hf : ∀ row, (f row).deviceId = row.deviceId) (d : DeviceId) :
    ((t.modify k f).rows.filter fun e => e.2.deviceId = d).map Prod.fst =
      (t.rows.filter fun e => e.2.deviceId = d).map Prod.fst := by
  rw [Table.modify, List.filter_map, List.map_map]
  congr 1
  · funext e
    by_cases he : e.1 = k <;> simp [he]
  · apply List.filter_congr
    intro e _
    by_cases he : e.1 = k <;> simp [he, hf]

theorem drawersOf_closeShift (k : ShiftId) (cash : Int) (d : DeviceId) :
    (s.closeShift k cash).drawersOf d = s.drawersOf d :=
  drawersOf_modify (t := s.shifts) (k := k)
    (f := fun row => { row with closed := true, physicalCash := some cash }) (fun _ => rfl) d

theorem drawersOf_archiveShift (k : ShiftId) (neverClosed : Bool) (d : DeviceId) :
    (s.archiveShift k neverClosed).drawersOf d = s.drawersOf d :=
  drawersOf_modify (t := s.shifts) (k := k)
    (f := fun row => { row with isActive := false, autoArchived := row.autoArchived || neverClosed })
    (fun _ => rfl) d

theorem respects_insertShift {k : ShiftId} {row : Shift} (hk : (.shift k, .update) ∈ H) :
    Respects agree H fun s => s.insertShift k row := by
  rintro s s' hs ⟨ℓ, m⟩ h
  have hrow := (View.drawer.inj (hs _ hk)).1
  cases hk' : s.shifts.get k with
  | some v =>
      have e : s.insertShift k row = s := by
        simp [Db.insertShift, Table.insert_of_mem hk']
      have e' : s'.insertShift k row = s' := by
        simp [Db.insertShift, Table.insert_of_mem (hrow ▸ hk')]
      show agree (ℓ, m) (s.insertShift k row) (s'.insertShift k row)
      rw [e, e']
      exact h
  | none =>
      have hk'' : s'.shifts.get k = none := hrow ▸ hk'
      cases ℓ with
      | shift j =>
          cases m with
          | share =>
              have h := View.shift.inj h
              show View.shift _ = View.shift _
              simp only [Db.insertShift, Table.get_insert hk', Table.get_insert hk'', h]
          | update =>
              obtain ⟨h₁, h₂⟩ := View.drawer.inj h
              show View.drawer _ (s.drawerCash j) = View.drawer _ (s'.drawerCash j)
              simp only [Db.insertShift, Table.get_insert hk', Table.get_insert hk'', h₁, h₂]
      | device d =>
          obtain ⟨h₁, h₂, h₃⟩ := View.device.inj h
          show View.device (s.devices.get d) _ _ = View.device (s'.devices.get d) _ _
          rw [h₁, activeShifts_insertShift hk', activeShifts_insertShift hk'', h₂,
            drawersOf_insertShift hk', drawersOf_insertShift hk'', h₃]
      | _ => exact h

/-- A new drawer needs its own lock and the lock of its device. -/
theorem Covered.insertShift (h : Covered agree H s s') {k : ShiftId} {row : Shift}
    (hnew : s'.shifts.get k = none) (hk : (.shift k, .update) ∈ H)
    (hd : (.device row.deviceId, .update) ∈ H) : Covered agree H s (s'.insertShift k row) := by
  intro ℓ m hc
  refine Eq.trans (h ℓ m hc) ?_
  cases ℓ with
  | shift j =>
      have hne : j ≠ k := fun hjk => ne_of_update hc hk (by rw [hjk])
      cases m with
      | share =>
          show View.shift _ = View.shift _
          simp [Db.insertShift, hne]
      | update =>
          show View.drawer _ (s'.drawerCash j) = View.drawer _ (s'.drawerCash j)
          simp [Db.insertShift, hne]
  | device d =>
      have hne : row.deviceId ≠ d := fun hdd => ne_of_update hc hd (by rw [hdd])
      show View.device (s'.devices.get d) _ _ = View.device (s'.devices.get d) _ _
      rw [activeShifts_insertShift hnew, drawersOf_insertShift hnew]
      simp [hne]
  | _ => rfl

theorem respects_closeShift (k : ShiftId) (cash : Int) :
    Respects agree H fun s => s.closeShift k cash := by
  rintro s s' hs ⟨ℓ, m⟩ h
  cases ℓ with
  | shift j =>
      cases m with
      | share =>
          have h := View.shift.inj h
          show View.shift _ = View.shift _
          simp only [Db.closeShift, Table.get_modify, h]
      | update =>
          obtain ⟨h₁, h₂⟩ := View.drawer.inj h
          show View.drawer _ (s.drawerCash j) = View.drawer _ (s'.drawerCash j)
          simp only [Db.closeShift, Table.get_modify, h₁, h₂]
  | device d =>
      obtain ⟨h₁, h₂, h₃⟩ := View.device.inj h
      show View.device (s.devices.get d) _ _ = View.device (s'.devices.get d) _ _
      rw [h₁, activeShifts_closeShift, activeShifts_closeShift, h₂, drawersOf_closeShift,
        drawersOf_closeShift, h₃]
  | _ => exact h

/-- A drawer is closed under its lock. -/
theorem Covered.closeShift (h : Covered agree H s s') {k : ShiftId}
    (hk : (.shift k, .update) ∈ H) (cash : Int) : Covered agree H s (s'.closeShift k cash) := by
  intro ℓ m hc
  refine Eq.trans (h ℓ m hc) ?_
  cases ℓ with
  | shift j =>
      have hne : j ≠ k := fun hjk => ne_of_update hc hk (by rw [hjk])
      cases m with
      | share =>
          show View.shift _ = View.shift _
          simp [Db.closeShift, hne]
      | update =>
          show View.drawer _ (s'.drawerCash j) = View.drawer _ (s'.drawerCash j)
          simp [Db.closeShift, hne]
  | device d =>
      show View.device (s'.devices.get d) _ _ = View.device (s'.devices.get d) _ _
      rw [activeShifts_closeShift, drawersOf_closeShift]
  | _ => rfl

theorem respects_archiveShift (k : ShiftId) (neverClosed : Bool) :
    Respects agree H fun s => s.archiveShift k neverClosed := by
  rintro s s' hs ⟨ℓ, m⟩ h
  cases ℓ with
  | shift j =>
      cases m with
      | share =>
          have h := View.shift.inj h
          show View.shift _ = View.shift _
          simp only [Db.archiveShift, Table.get_modify, h]
      | update =>
          obtain ⟨h₁, h₂⟩ := View.drawer.inj h
          show View.drawer _ (s.drawerCash j) = View.drawer _ (s'.drawerCash j)
          simp only [Db.archiveShift, Table.get_modify, h₁, h₂]
  | device d =>
      obtain ⟨h₁, h₂, h₃⟩ := View.device.inj h
      show View.device (s.devices.get d) _ _ = View.device (s'.devices.get d) _ _
      rw [h₁, activeShifts_archiveShift, activeShifts_archiveShift, h₂, drawersOf_archiveShift,
        drawersOf_archiveShift, h₃]
  | _ => exact h

/-- A drawer is archived under its lock and the lock of the device that it was active on. -/
theorem Covered.archiveShift (h : Covered agree H s s') {k : ShiftId}
    (hk : (.shift k, .update) ∈ H)
    (hd : ∀ d, k ∈ s'.activeShifts d → (.device d, .update) ∈ H) (neverClosed : Bool) :
    Covered agree H s (s'.archiveShift k neverClosed) := by
  intro ℓ m hc
  refine Eq.trans (h ℓ m hc) ?_
  cases ℓ with
  | shift j =>
      have hne : j ≠ k := fun hjk => ne_of_update hc hk (by rw [hjk])
      cases m with
      | share =>
          show View.shift _ = View.shift _
          simp [Db.archiveShift, hne]
      | update =>
          show View.drawer _ (s'.drawerCash j) = View.drawer _ (s'.drawerCash j)
          simp [Db.archiveShift, hne]
  | device d =>
      have hno : k ∉ s'.activeShifts d := fun hkd => ne_of_update hc (hd d hkd) rfl
      show View.device (s'.devices.get d) _ _ = View.device (s'.devices.get d) _ _
      rw [drawersOf_archiveShift, activeShifts_archiveShift,
        List.filter_eq_self.mpr fun j hj => ?_]
      exact decide_eq_true fun hjk => hno (hjk ▸ hj)
  | _ => rfl

theorem respects_modifyDevice (d : DeviceId) (f : Device → Device) :
    Respects agree H fun s => s.modifyDevice d f := by
  rintro s s' hs ⟨ℓ, m⟩ h
  cases ℓ with
  | device d' =>
      obtain ⟨h₁, h₂, h₃⟩ := View.device.inj h
      show View.device _ (s.activeShifts d') (s.drawersOf d') =
        View.device _ (s'.activeShifts d') (s'.drawersOf d')
      simp only [Db.modifyDevice, Table.get_modify, h₁, h₂, h₃]
  | shift k => cases m <;> exact h
  | _ => exact h

/-- A device's row is written under the lock of the device. -/
theorem Covered.modifyDevice (h : Covered agree H s s') {d : DeviceId}
    (hd : (.device d, .update) ∈ H) (f : Device → Device) :
    Covered agree H s (s'.modifyDevice d f) := by
  intro ℓ m hc
  refine Eq.trans (h ℓ m hc) ?_
  cases ℓ with
  | device d' =>
      have hne : d' ≠ d := fun hdd => ne_of_update hc hd (by rw [hdd])
      show View.device _ (s'.activeShifts d') (s'.drawersOf d') =
        View.device _ (s'.activeShifts d') (s'.drawersOf d')
      simp [Db.modifyDevice, hne]
  | shift k => cases m <;> rfl
  | _ => rfl

/-! ## Counters, orders, quotes, keys and the logs -/

theorem respects_setCounter (c : DeviceId × DocType × Period) (n : Nat) :
    Respects agree H fun s => s.setCounter c n := by
  rintro s s' hs ⟨ℓ, m⟩ h
  cases ℓ with
  | counter c' =>
      have h := View.counter.inj h
      show View.counter _ = View.counter _
      simp only [Db.setCounter, Table.get_upsert, h]
  | shift k => cases m <;> exact h
  | _ => exact h

theorem Covered.setCounter (h : Covered agree H s s') {c : DeviceId × DocType × Period}
    (hcl : (.counter c, .update) ∈ H) (n : Nat) : Covered agree H s (s'.setCounter c n) := by
  intro ℓ m hc
  refine Eq.trans (h ℓ m hc) ?_
  cases ℓ with
  | counter c' =>
      have hne : c' ≠ c := fun hcc => ne_of_update hc hcl (by rw [hcc])
      show View.counter _ = View.counter _
      simp [Db.setCounter, Table.get_upsert, hne]
  | shift k => cases m <;> rfl
  | _ => rfl

theorem respects_modifyPo (i : PoId) (f : PurchaseOrder → PurchaseOrder) :
    Respects agree H fun s => s.modifyPo i f := by
  rintro s s' hs ⟨ℓ, m⟩ h
  cases ℓ with
  | po i' =>
      have h := View.po.inj h
      show View.po _ = View.po _
      simp only [Db.modifyPo, Table.get_modify, h]
  | shift k => cases m <;> exact h
  | _ => exact h

theorem Covered.modifyPo (h : Covered agree H s s') {i : PoId} (hi : (.po i, .update) ∈ H)
    (f : PurchaseOrder → PurchaseOrder) : Covered agree H s (s'.modifyPo i f) := by
  intro ℓ m hc
  refine Eq.trans (h ℓ m hc) ?_
  cases ℓ with
  | po i' =>
      have hne : i' ≠ i := fun hii => ne_of_update hc hi (by rw [hii])
      show View.po _ = View.po _
      simp [Db.modifyPo, hne]
  | shift k => cases m <;> rfl
  | _ => rfl

theorem respects_modifyQuote (q : QuoteId) (f : Quote → Quote) :
    Respects agree H fun s => s.modifyQuote q f := by
  rintro s s' hs ⟨ℓ, m⟩ h
  cases ℓ with
  | quote q' =>
      have h := View.quote.inj h
      show View.quote _ = View.quote _
      simp only [Db.modifyQuote, Table.get_modify, h]
  | shift k => cases m <;> exact h
  | _ => exact h

/-- A quote's row is written under the lock of the quote. -/
theorem Covered.modifyQuote (h : Covered agree H s s') {q : QuoteId}
    (hq : (.quote q, .update) ∈ H) (f : Quote → Quote) :
    Covered agree H s (s'.modifyQuote q f) := by
  intro ℓ m hc
  refine Eq.trans (h ℓ m hc) ?_
  cases ℓ with
  | quote q' =>
      have hne : q' ≠ q := fun hqq => ne_of_update hc hq (by rw [hqq])
      show View.quote _ = View.quote _
      simp [Db.modifyQuote, hne]
  | shift k => cases m <;> rfl
  | _ => rfl

/-- A change of the keys that looks at the row under `k` and nothing else. -/
private theorem respects_keys {k : Nat} (w : Table Nat KeyRow → Table Nat KeyRow)
    (hw : ∀ t t' : Table Nat KeyRow, t.get k = t'.get k → ∀ k', t.get k' = t'.get k' →
      (w t).get k' = (w t').get k') (hk : (.key k, .update) ∈ H) :
    Respects agree H fun s => { s with idempotencyKeys := w s.idempotencyKeys } := by
  rintro s s' hs ⟨ℓ, m⟩ h
  cases ℓ with
  | key k' =>
      have h := View.key.inj h
      show View.key _ = View.key _
      exact congrArg _ (hw _ _ (View.key.inj (hs _ hk)) k' h)
  | shift k => cases m <;> exact h
  | _ => exact h

/-- An idempotency key's row is written under the lock of the key. -/
private theorem Covered.keys (h : Covered agree H s s') {k : Nat}
    (w : Table Nat KeyRow → Table Nat KeyRow)
    (hw : ∀ (t : Table Nat KeyRow) (k' : Nat), k' ≠ k → (w t).get k' = t.get k')
    (hk : (.key k, .update) ∈ H) :
    Covered agree H s { s' with idempotencyKeys := w s'.idempotencyKeys } := by
  intro ℓ m hc
  refine Eq.trans (h ℓ m hc) ?_
  cases ℓ with
  | key k' =>
      have hne : k' ≠ k := fun hkk => ne_of_update hc hk (by rw [hkk])
      exact congrArg View.key (hw _ k' hne).symm
  | shift k => cases m <;> rfl
  | _ => rfl

theorem respects_insertKey {k : Nat} {row : KeyRow} (hk : (.key k, .update) ∈ H) :
    Respects agree H fun s => s.insertKey k row := by
  refine respects_keys (fun t => t.insert k row) (fun t t' hkk k' hk' => ?_) hk
  cases hg : t.get k with
  | some v => rw [Table.insert_of_mem hg, Table.insert_of_mem (hkk ▸ hg), hk']
  | none => rw [Table.get_insert hg, Table.get_insert (hkk ▸ hg), hk']

theorem Covered.insertKey (h : Covered agree H s s') {k : Nat} (hk : (.key k, .update) ∈ H)
    (row : KeyRow) : Covered agree H s (s'.insertKey k row) :=
  Covered.keys h (fun t => t.insert k row) (fun _ _ hne => Table.get_insert_ne _ hne _) hk

theorem respects_modifyKey {k : Nat} {f : KeyRow → KeyRow} (hk : (.key k, .update) ∈ H) :
    Respects agree H fun s => s.modifyKey k f :=
  respects_keys (fun t => t.modify k f)
    (fun t t' _ k' hk' => by rw [Table.get_modify, Table.get_modify, hk']) hk

theorem Covered.modifyKey (h : Covered agree H s s') {k : Nat} (hk : (.key k, .update) ∈ H)
    (f : KeyRow → KeyRow) : Covered agree H s (s'.modifyKey k f) :=
  Covered.keys h (fun t => t.modify k f) (fun _ _ hne => Table.get_modify_ne _ hne _) hk

theorem respects_eraseKey {k : Nat} (hk : (.key k, .update) ∈ H) :
    Respects agree H fun s => s.eraseKey k :=
  respects_keys (fun t => t.erase k)
    (fun t t' _ k' hk' => by rw [Table.get_erase, Table.get_erase, hk']) hk

theorem Covered.eraseKey (h : Covered agree H s s') {k : Nat} (hk : (.key k, .update) ∈ H) :
    Covered agree H s (s'.eraseKey k) :=
  Covered.keys h (fun t => t.erase k) (fun _ _ hne => by rw [Table.get_erase, if_neg hne]) hk

/-- Nothing is read back from the audit log and the review items under a lock. -/
theorem view_addAudit (lk : LockKey × Mode) (db : Db) (a : AuditEntry) :
    view lk (db.addAudit a) = view lk db := by
  obtain ⟨ℓ, m⟩ := lk
  cases ℓ <;> cases m <;> rfl

theorem view_addReview (lk : LockKey × Mode) (db : Db) (r : ReviewItem) :
    view lk (db.addReview r) = view lk db := by
  obtain ⟨ℓ, m⟩ := lk
  cases ℓ <;> cases m <;> rfl

theorem view_addReviewOnce (lk : LockKey × Mode) (db : Db) (r : ReviewItem) :
    view lk (db.addReviewOnce r) = view lk db := by
  obtain ⟨ℓ, m⟩ := lk
  cases ℓ <;> cases m <;> rfl

/-- A change that no lock shows. -/
theorem respects_of_view {w : Db → Db} (hw : ∀ lk db, view lk (w db) = view lk db) :
    Respects agree H w := by
  intro s s' _ lk h
  show view lk (w s) = view lk (w s')
  rw [hw, hw]
  exact h

theorem Covered.of_view (h : Covered agree H s s') {w : Db → Db}
    (hw : ∀ lk db, view lk (w db) = view lk db) : Covered agree H s (w s') :=
  fun ℓ m hc => Eq.trans (h ℓ m hc) (hw _ _).symm

end

end Server

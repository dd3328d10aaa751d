import SrisurartPos.Server.Quotes
import SrisurartPos.Server.Returns
import SrisurartPos.Server.Voids
import SrisurartPos.Server.CreditPayments
import SrisurartPos.Server.Customers

/-! # What a transaction can do to the books

Whatever a request goes through before it commits, it commits one of some dozen changes to the shop's
books, or none. `Performs` says once what each of them is and what it has met; the properties of
runs are derived from it, without another look at the services.

The rest of the database is the *desk*: counters, quotes, keys, the owner's list, the audit log.
The services write it as they go along and no figure of the books is computed from it. -/

namespace Server

open Txn

/-! ## The desk -/

/-- The part of the database that is not the books. -/
structure Desk where
  devices : Table DeviceId Device
  docCounters : Table (DeviceId × DocType × Period) Nat
  quotes : Table QuoteId Quote
  paymentAccounts : List AccountId
  idempotencyKeys : Table Nat KeyRow
  reviewItems : List ReviewItem
  auditLog : List AuditEntry

def Db.desk (db : Db) : Desk :=
  ⟨db.devices, db.docCounters, db.quotes, db.paymentAccounts, db.idempotencyKeys, db.reviewItems,
    db.auditLog⟩

def Db.withDesk (desk : Desk) (db : Db) : Db :=
  { db with
    devices := desk.devices
    docCounters := desk.docCounters
    quotes := desk.quotes
    paymentAccounts := desk.paymentAccounts
    idempotencyKeys := desk.idempotencyKeys
    reviewItems := desk.reviewItems
    auditLog := desk.auditLog }

section
variable (db : Db) (desk desk' : Desk)

@[simp] theorem withDesk_desk : db.withDesk db.desk = db := rfl

@[simp] theorem withDesk_withDesk : (db.withDesk desk).withDesk desk' = db.withDesk desk' := rfl

theorem moveOne_withDesk (type : MovementType) (ref : Nat) (m : ProductId × Int) :
    (db.withDesk desk).moveOne type ref m = (db.moveOne type ref m).withDesk desk := by
  rw [moveOne_eq, moveOne_eq]
  rfl

@[simp] theorem moveStock_withDesk (type : MovementType) (ref : Nat)
    (moves : List (ProductId × Int)) :
    (db.withDesk desk).moveStock type ref moves = (db.moveStock type ref moves).withDesk desk := by
  induction moves generalizing db with
  | nil => rfl
  | cons m moves ih => rw [moveStock_cons, moveStock_cons, moveOne_withDesk, ih]

@[simp] theorem receiveAll_withDesk (i : PoId) (touched : List Running) :
    (db.withDesk desk).receiveAll i touched = (db.receiveAll i touched).withDesk desk := by
  induction touched using List.reverseRecOn with
  | nil => rfl
  | append_singleton touched r ih =>
      rw [receiveAll_snoc, receiveAll_snoc, ih]
      rfl

theorem recordSale_withDesk (x : SaleId) (row : Sale) (moves : List (ProductId × Int)) :
    (db.withDesk desk).recordSale x row moves = (db.recordSale x row moves).withDesk desk := by
  have h := moveStock_withDesk (db.insertSale x row) desk .sale x moves
  have hinsert : (db.withDesk desk).insertSale x row = (db.insertSale x row).withDesk desk := rfl
  rw [Db.recordSale, hinsert, h]
  rfl

theorem recordReturn_withDesk (r : ReturnId) (note : Return) (demands : List ReturnDemand)
    (sale : Sale) : (db.withDesk desk).recordReturn r note demands sale =
      (db.recordReturn r note demands sale).withDesk desk := by
  have h := moveStock_withDesk (db.insertReturn r note) desk .creditNote r (returnMoves demands)
  have hinsert : (db.withDesk desk).insertReturn r note =
      (db.insertReturn r note).withDesk desk := rfl
  rw [Db.recordReturn, hinsert, h]
  rfl

end

/-! ## The changes -/

/-- A change of the books, with what the client asked for. -/
inductive Effect where
  /-- nothing: a replay, or bookkeeping at the desk -/
  | none
  | sale (actor : Actor) (dto : SaleWrite)
  | creditNote (actor : Actor) (r : ReturnId) (dto : ReturnWrite)
  | voidSale (actor : Actor) (x : SaleId) (reason : String)
  | creditPayment (actor : Actor) (i : PaymentId) (m : MechanicId) (dto : CreateCreditPayment)
  | adjustStock (p : ProductId) (input : StockAdjustment)
  | receivePo (lower : String → String) (i : PoId) (ids : List ProductId)
  /-- archives the drawer the device has, and opens the next one unless it lost a race -/
  | openShift (d : DeviceId) (next : Option (ShiftId × Int))
  | closeShift (d : DeviceId) (k : ShiftId) (physicalCash : Int)
  /-- archives a drawer, which is counted first when it is still open -/
  | retire (d : DeviceId)
  | entry (d : DeviceId) (e : EntryId) (entry : DrawerEntryBody)
  | editMechanic (m : MechanicId) (patch : MechanicPatch)
  | createCustomer (c : CustomerId) (input : CustomerCreate)
  | editCustomer (c : CustomerId) (patch : CustomerPatch)

/-- Where a bill's figures come from: a body that passed the parser, or a quote. -/
inductive SaleSource (dto : SaleWrite) : Prop where
  | parsed : parseCreateSale { dto with paymentAccountId := none } = .ok () → SaleSource dto
  | quoted (quote : Quote) (party : SaleParty) :
      parseSaleParty party.paymentMethod party.paymentAccountId = .ok () →
      saleFrom quote party = .ok dto → SaleSource dto

/-- The row of a drawer that has just been opened. -/
def newShift (d : DeviceId) (startingCash : Int) (openedAt : Nat) : Shift :=
  { deviceId := d, startingCash := startingCash, openedAt := openedAt, isActive := true, closed := false,
    physicalCash := none, autoArchived := false }

def Db.openNext (next : Option (ShiftId × Int)) (openedAt : Nat) (d : DeviceId) (db : Db) : Db :=
  match next with
  | none        => db
  | some (k, c) => db.insertShift k (newShift d c openedAt)

/-- What a change makes of the books, and what it has met. -/
inductive Changes (s : Db) : Effect → Db → Prop where
  | none : Changes s .none s
  | sale (actor : Actor) (dto : SaleWrite) (k : ShiftId) (row : Sale) :
      SaleSource dto → SaleAdmitted actor dto s k row →
      Changes s (.sale actor dto) (s.recordSale dto.id row (saleMoves dto.items))
  | creditNote (actor : Actor) (r : ReturnId) (dto : ReturnWrite) (sale : Sale)
      (note : Return) : parseCreateReturn dto = .ok () → ReturnAdmitted actor dto s sale note →
      s.returns.get r = none →
      Changes s (.creditNote actor r dto)
        ((s.recordReturn r note (aggregateReturn dto.items) sale).autoVoid dto.saleId sale.items)
  | voidSale (actor : Actor) (x : SaleId) (reason : String) (sale : Sale) (k : ShiftId) :
      VoidAdmitted actor x s sale k →
      Changes s (.voidSale actor x reason) (s.recordVoid x sale reason)
  | creditPayment (actor : Actor) (i : PaymentId) (m : MechanicId)
      (dto : CreateCreditPayment) (row : CreditPayment) : parseCreateCreditPayment dto = .ok () →
      PaymentAdmitted actor m dto s row → s.creditPayments.get i = Option.none →
      Changes s (.creditPayment actor i m dto) (s.recordPayment i row false)
  | adjustStock (p : ProductId) (input : StockAdjustment) (row : Product) :
      parseStockAdjustment input = .ok () → s.products.get p = some row →
      row.stock + input.delta ≤ int4Max → Changes s (.adjustStock p input) (s.adjustStock p input)
  | receivePo (lower : String → String) (i : PoId) (ids : List ProductId)
      (po : PurchaseOrder) (states : List Running) (unmatched : List String) :
      s.purchaseOrders.get i = some po → po.status = .opened → ids.Nodup →
      receipt lower po ids s = .ok (states, unmatched) →
      Changes s (.receivePo lower i ids)
        (s.receivePo i (states.filter fun r => decide (r.delta > 0)))
  | openShift (d : DeviceId) (next : Option (ShiftId × Int)) (openedAt : Nat) :
      (∀ k c, next = some (k, c) → (s.archiveActive d).shifts.get k = Option.none) →
      Changes s (.openShift d next) ((s.archiveActive d).openNext next openedAt d)
  | closeShift (d : DeviceId) (k : ShiftId) (row : Shift) (cash : Int) :
      s.shifts.get k = some row → row.isOpenOn d = true →
      Changes s (.closeShift d k cash) (s.closeShift k cash)
  | retire (s' : Db) (d : DeviceId) : ClosedForRetirement d s s' → Changes s (.retire d) s'
  | entry (d : DeviceId) (e : EntryId) (entry : DrawerEntryBody) (k : ShiftId)
      (row : Shift) : s.shifts.get k = some row → row.isOpenOn d = true →
      s.drawerEntries.get e = Option.none →
      Changes s (.entry d e entry) (s.insertEntry e ⟨k, entry.type, entry.amountSatang⟩)
  | editMechanic (m : MechanicId) (patch : MechanicPatch) (row : Mechanic) :
      s.mechanics.get m = some row → row.deleted = false →
      Changes s (.editMechanic m patch) (s.modifyMechanic m (Mechanic.edit patch))
  | createCustomer (c : CustomerId) (input : CustomerCreate) (code : String) :
      s.customers.get c = Option.none → Changes s (.createCustomer c input) (s.insertCustomer c (input.row code))
  | editCustomer (c : CustomerId) (patch : CustomerPatch) (row : Customer) :
      s.customers.get c = some row → row.deleted = false →
      Changes s (.editCustomer c patch) (s.modifyCustomer c (Customer.edit patch))

/-- **What a transaction does**: one change of the books, and whatever it writes at the desk. -/
def Performs (e : Effect) (s s' : Db) : Prop := ∃ t desk, Changes s e t ∧ s' = t.withDesk desk

/-! ## The desk does not matter -/

section
variable {s s' : Db} {e : Effect}

/-- Archiving a device's drawers looks at nothing of the desk but adds its review items there. -/
theorem archiveActive_withDesk (s : Db) (desk : Desk) (d : DeviceId) :
    (s.withDesk desk).archiveActive d =
      (s.archiveActive d).withDesk ((s.withDesk desk).archiveActive d).desk := by
  have hactive : (s.withDesk desk).activeShifts d = s.activeShifts d := rfl
  have hshifts : (s.withDesk desk).shifts = s.shifts := rfl
  simp only [Db.archiveActive, hactive, hshifts]
  cases (s.activeShifts d).head? with
  | none => rfl
  | some k =>
      cases hrow : s.shifts.get k with
      | none => simp only [hrow]; rfl
      | some row =>
          simp only [hrow]
          split <;> rfl

theorem ClosedForRetirement.withDesk {desk : Desk} {d : DeviceId}
    (h : ClosedForRetirement d (s.withDesk desk) s') :
    ∃ t, ClosedForRetirement d s t ∧ s' = t.withDesk desk := by
  cases h with
  | none => exact ⟨s, .none, rfl⟩
  | archived k row hrow hc => exact ⟨s.archiveShift k false, .archived k row hrow hc, rfl⟩
  | counted j k row cash hrow hopen =>
      exact ⟨(s.closeShift j cash).archiveShift k false, .counted j k row cash hrow hopen, rfl⟩

/-- What is written at the desk beforehand does not matter. -/
theorem Changes.after_desk {desk : Desk} (h : Changes (s.withDesk desk) e s') :
    ∃ t, Changes s e t ∧ s' = t.withDesk s'.desk := by
  cases h with
  | none =>
      exact ⟨s, .none, rfl⟩
  | sale actor dto k row hsrc hadm =>
      have hadm' : SaleAdmitted actor dto s k row := ⟨hadm.totals, hadm.drawer,
        ⟨hadm.insertable.fresh, hadm.insertable.number, hadm.insertable.customer,
          hadm.insertable.mechanic⟩, hadm.stock, hadm.limit, hadm.stored⟩
      exact ⟨_, .sale actor dto k row hsrc hadm', by rw [recordSale_withDesk]; rfl⟩
  | creditNote actor r dto sale note hparse hadm hnew =>
      have hadm' : ReturnAdmitted actor dto s sale note := ⟨hadm.bill, hadm.live, hadm.method,
        hadm.refundable, hadm.drawer, hadm.cash, hadm.number, hadm.stored⟩
      refine ⟨_, .creditNote actor r dto sale note hparse hadm' hnew, ?_⟩
      rw [recordReturn_withDesk]
      rfl
  | voidSale actor x reason sale k hadm =>
      have hadm' : VoidAdmitted actor x s sale k :=
        ⟨hadm.bill, hadm.live, hadm.noNotes, hadm.shift, hadm.drawer⟩
      refine ⟨_, .voidSale actor x reason sale k hadm', ?_⟩
      rw [Db.recordVoid, moveStock_withDesk]
      rfl
  | creditPayment actor i m dto row hparse hadm hnew =>
      have hadm' : PaymentAdmitted actor m dto s row := ⟨hadm.mechanic, hadm.drawer, hadm.stored⟩
      exact ⟨_, .creditPayment actor i m dto row hparse hadm' hnew, rfl⟩
  | adjustStock p input row hparse hrow hmax =>
      exact ⟨_, .adjustStock p input row hparse hrow hmax, rfl⟩
  | receivePo lower i ids po states unmatched hpo hopen hids hstates =>
      refine ⟨_, .receivePo lower i ids po states unmatched hpo hopen hids hstates, ?_⟩
      rw [Db.receivePo, receiveAll_withDesk]
      rfl
  | openShift d next openedAt hnew =>
      rw [archiveActive_withDesk] at hnew ⊢
      refine ⟨_, .openShift d next openedAt hnew, ?_⟩
      cases next with
      | none => rfl
      | some kc => rfl
  | closeShift d k row cash hrow hopen =>
      exact ⟨_, .closeShift d k row cash hrow hopen, rfl⟩
  | retire s₁ d hclosed =>
      obtain ⟨t, hclosed', rfl⟩ := hclosed.withDesk
      exact ⟨t, .retire t d hclosed', rfl⟩
  | entry d e entry k row hrow hopen hnew =>
      exact ⟨_, .entry d e entry k row hrow hopen hnew, rfl⟩
  | editMechanic m patch row hrow halive =>
      exact ⟨_, .editMechanic m patch row hrow halive, rfl⟩
  | createCustomer c input code hnew =>
      exact ⟨_, .createCustomer c input code hnew, rfl⟩
  | editCustomer c patch row hrow halive =>
      exact ⟨_, .editCustomer c patch row hrow halive, rfl⟩

theorem Performs.after_desk {desk : Desk} (h : Performs e (s.withDesk desk) s') :
    Performs e s s' := by
  obtain ⟨t, desk', hch, rfl⟩ := h
  obtain ⟨t', hch', ht⟩ := hch.after_desk
  exact ⟨t', desk', hch', by rw [ht, withDesk_withDesk]⟩

/-- Nor does what is written there afterwards. -/
theorem Performs.before_desk (h : Performs e s s') (desk : Desk) :
    Performs e s (s'.withDesk desk) := by
  obtain ⟨t, desk', hch, rfl⟩ := h
  exact ⟨t, desk, hch, rfl⟩

theorem Changes.performs {t : Db} (h : Changes s e t) (hs : s' = t.withDesk s'.desk) :
    Performs e s s' := ⟨t, s'.desk, h, hs⟩

theorem Performs.none (s : Db) (desk : Desk) : Performs .none s (s.withDesk desk) :=
  ⟨s, desk, .none, rfl⟩

/-! ## What the services do, as changes of the books -/

theorem SaleCreated.performs {actor : Actor} {dto : SaleWrite} {r : CreateSaleResult}
    (hsrc : SaleSource dto) (h : SaleCreated actor dto s r s') :
    ∃ e, (e = .none ∨ e = .sale actor dto) ∧ Performs e s s' := by
  cases h with
  | replay hr => exact ⟨_, .inl rfl, Performs.none s s.desk⟩
  | written k row c v noted hadm hr =>
      refine ⟨_, .inr rfl, (Changes.sale actor dto k row hsrc hadm).performs ?_⟩
      have hc : s.setCounter c v = s.withDesk (s.setCounter c v).desk := rfl
      rw [hc, recordSale_withDesk]
      rfl

theorem QuoteSettled.withDesk {q : QuoteId} {x : SaleId} (h : QuoteSettled q x s s') :
    s' = s.withDesk s'.desk := by
  cases h <;> rfl

/-- A quote's sale performs the effect of the sale. -/
theorem QuoteSold.performs {actor : Actor} {q : QuoteId} {dto : SaleWrite} {r : CreateSaleResult}
    (hsrc : SaleSource dto) (h : QuoteSold actor q dto s r s') :
    ∃ e, (e = .none ∨ e = .sale actor dto) ∧ Performs e s s' := by
  obtain ⟨s₁, s₂, hr, hq⟩ := h
  obtain ⟨e, he, hperf⟩ := hr.performs hsrc
  exact ⟨e, he, hq.withDesk ▸ hperf.before_desk _⟩

/-- A credit note performs the effect of the note, or nothing when the note was on file. -/
theorem ReturnCreated.performs {env : Env} {actor : Actor} {dto : ReturnWrite}
    {r : CreateReturnResult} (hparse : parseCreateReturn dto = .ok ())
    (h : ReturnCreated env actor dto s r s') :
    ∃ e, (e = .none ∨ e = .creditNote actor (dto.id.getD env.newUuid) dto) ∧ Performs e s s' := by
  cases h with
  | replay hr => exact ⟨_, .inl rfl, Performs.none s s.desk⟩
  | written r note sale c v hadm hr hnew hres =>
      subst hr
      refine ⟨_, .inr rfl, (Changes.creditNote actor _ dto sale note hparse hadm hnew).performs ?_⟩
      have hc : s.setCounter c v = s.withDesk (s.setCounter c v).desk := rfl
      rw [hc, recordReturn_withDesk]
      rfl

/-- A void performs the effect of the void. -/
theorem SaleVoided.performs {actor : Actor} {x : SaleId} {reason : String}
    (h : SaleVoided actor x reason s s') : Performs (.voidSale actor x reason) s s' := by
  obtain ⟨sale, k, hadm⟩ := h
  exact (Changes.voidSale actor x reason sale k hadm).performs rfl

/-- A credit payment performs its effect, or nothing when it was on file. -/
theorem PaymentCreated.performs {env : Env} {actor : Actor} {m : MechanicId}
    {dto : CreateCreditPayment} {r : CreateCreditPaymentResult}
    (hparse : parseCreateCreditPayment dto = .ok ()) (h : PaymentCreated env actor m dto s r s') :
    ∃ e, (e = .none ∨ e = .creditPayment actor (dto.id.getD env.newUuid) m dto) ∧
      Performs e s s' := by
  cases h with
  | replay hr => exact ⟨_, .inl rfl, Performs.none s s.desk⟩
  | written i row c v audited hadm hi hnew hr =>
      subst hi
      exact ⟨_, .inr rfl, (Changes.creditPayment actor _ m dto row hparse hadm hnew).performs rfl⟩

theorem StockAdjusted.performs {p : ProductId} {input : StockAdjustment} {after : Int}
    (hparse : parseStockAdjustment input = .ok ()) (h : StockAdjusted p input s after s') :
    Performs (.adjustStock p input) s s' := by
  obtain ⟨row, hrow, hmax⟩ := h
  exact (Changes.adjustStock p input row hparse hrow hmax).performs rfl

theorem GoodsReceived.performs {lower : String → String} {i : PoId} {r : ReceiveResult}
    (h : GoodsReceived lower i s r s') : ∃ ids, Performs (.receivePo lower i ids) s s' := by
  obtain ⟨po, ids, states, unmatched, hpo, hopen, hids, hstates⟩ := h
  exact ⟨ids,
    (Changes.receivePo lower i ids po states unmatched hpo hopen hids hstates).performs rfl⟩

/-- Opening a drawer performs one of three effects: none, archiving alone, or archiving and a new drawer. -/
theorem Opened.performs {env : Env} {d : DeviceId} {input : OpenShiftInput}
    (h : Opened env d input s s') :
    ∃ e, (e = .none ∨ e = .openShift d none ∨
      e = .openShift d (some (input.id.getD env.newUuid, input.startingCashSatang))) ∧
        Performs e s s' := by
  cases h with
  | replay hid => exact ⟨_, .inl rfl, Performs.none s s.desk⟩
  | conflict => exact ⟨_, .inr (.inl rfl), (Changes.openShift d none 0 (by simp)).performs rfl⟩
  | fresh k hk hnew =>
      subst hk
      refine ⟨_, .inr (.inr rfl), (Changes.openShift d (some (_, _)) _ ?_).performs rfl⟩
      rintro k c heq
      obtain ⟨rfl, -⟩ := Prod.mk.inj (Option.some.inj heq)
      exact hnew

theorem Retired.performs {d : DeviceId} (h : Retired d s s') : Performs (.retire d) s s' := by
  obtain ⟨s₁, s₂, hs₁, hclosed⟩ := h
  rcases hs₁ with rfl | rfl
  · exact (Changes.retire s₂ d hclosed).performs rfl
  · have hreview : s.addReview ⟨.deviceForceRetired, d⟩ =
        s.withDesk (s.addReview ⟨.deviceForceRetired, d⟩).desk := rfl
    rw [hreview] at hclosed
    obtain ⟨t, hclosed', rfl⟩ := hclosed.withDesk
    exact (Changes.retire t d hclosed').performs rfl

/-- A drawer entry performs its effect, or nothing when it was on file. -/
theorem EntryAdded.performs {env : Env} {d : DeviceId} {entry : DrawerEntryBody}
    {offlineReplay : Bool} {r : EntryId × DrawerEntry}
    (h : EntryAdded env d entry offlineReplay s r s') :
    ∃ e, (e = .none ∨ e = .entry d (entry.id.getD env.newUuid) entry) ∧ Performs e s s' := by
  cases h with
  | replay hr => exact ⟨_, .inl rfl, Performs.none s s.desk⟩
  | fresh k row e he hrow hopen hnew hcash =>
      subst he
      exact ⟨_, .inr rfl, (Changes.entry d _ entry k row hrow hopen hnew).performs rfl⟩

end

end Server

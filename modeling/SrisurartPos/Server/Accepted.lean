import SrisurartPos.Server.AtMostOnce
import SrisurartPos.Server.DrawerList
import SrisurartPos.Txn.Constant

/-! # What is accepted is on file

A write is answered without being done in two cases: its key remembers an answer, or its document is
there already. In both the transaction looks without a lock, so it might see what is not there. But
no document ever goes away. So a transaction that has come to own its key and commits leaves its
document on file (`Commit.filed`). -/

namespace Server

open Txn

/-! ## The statements of a bill -/

/-- Any error but a refusal for stock. -/
abbrev NotShort (e : ServerError) : Prop := ∀ lines, e ≠ .insufficientStock lines

/-- Which bills, notes, payments and entries there are. -/
def Db.papers (db : Db) :
    (SaleId → Bool) × (ReturnId → Bool) × (PaymentId → Bool) × (EntryId → Bool) :=
  (fun x => (db.sales.get x).isSome, fun r => (db.returns.get r).isSome,
    fun i => (db.creditPayments.get i).isSome, fun e => (db.drawerEntries.get e).isSome)

section
variable {γ : Type} {f : Db → γ}

theorem tame_existingSale (id : SaleId) (total : Int) (soldOffline : Bool)
    (items : Option (List SaleLine)) : Tame f NotShort (existingSale id total soldOffline items) := by
  refine (tame_glance _).bind fun row => ?_
  cases row with
  | none => trivial
  | some sale =>
      refine (tame_require nofun).bind fun _ => (tame_require nofun).bind fun _ => ?_
      exact fun _ _ _ _ => trivial

theorem tame_requireOpenShiftIdFor (d : DeviceId) :
    Tame f NotShort (requireOpenShiftIdFor d) := by
  refine Tame.bind ?_ fun k => tame_orFail nofun
  refine (tame_glance _).bind fun seen => ?_
  cases seen with
  | none => trivial
  | some k => exact (tame_selectFor _ _ _).bind fun row => trivial

theorem tame_resolvePaymentAccount (dto : SaleWrite) :
    Tame f NotShort (resolvePaymentAccount dto) := by
  rw [resolvePaymentAccount]
  split
  · trivial
  · split
    · trivial
    · refine (tame_glance _).bind fun there => ?_
      split
      · trivial
      · split
        · trivial
        · exact fun _ h => by cases h

theorem tame_lockMechanicAndCheckLimit (dto : SaleWrite) :
    Tame f NotShort (lockMechanicAndCheckLimit dto) := by
  refine Tame.bind ?_ fun row => tame_ofExcept fun e he lines hlines => ?_
  · cases dto.mechanicId with
    | none => trivial
    | some m => exact tame_selectFor _ _ _
  · subst hlines
    cases row with
    | none => cases he
    | some row =>
        simp only [checkLimit] at he
        split_ifs at he
        cases he

theorem tame_deviceNo (d : DeviceId) : Tame f NotShort (deviceNo d) := by
  refine (tame_glance _).bind fun row => (tame_orFail nofun).bind fun device => ?_
  exact (tame_require nofun).bind fun _ => trivial

theorem tame_referenceExists (ref : Option Nat) (ℓ : Nat → LockKey) (there : Nat → Db → Bool) :
    Tame f NotShort (referenceExists ref ℓ there) := by
  cases ref with
  | none => trivial
  | some i => exact (tame_selectFor _ _ _).bind fun found => tame_require nofun

theorem tame_lockAndClassify (env : Env) (q : QuoteId) (x : SaleId) (soldAt : Option Nat) :
    Tame f NotShort (lockAndClassify env q x soldAt) := by
  refine (tame_selectFor _ _ _).bind fun row => ?_
  cases row with
  | none => trivial
  | some quote =>
      dsimp only
      split
      · trivial
      · split
        · trivial
        · exact (tame_glance _).bind fun taken => trivial

theorem tame_lockForSale (env : Env) (q : QuoteId) (x : SaleId) :
    Tame f NotShort (lockForSale env q x) := by
  refine (tame_lockAndClassify env q x none).bind fun state => ?_
  refine (tame_ofExcept fun e he lines hlines => ?_).bind fun _ => trivial
  subst hlines
  cases state <;> cases he

variable (hf : ∀ {s s' : Db}, s.papers = s'.papers → s.quotes = s'.quotes → f s = f s')
include hf

theorem tame_deduct (demands : List Demand) : Tame f NotShort (deduct demands) := by
  apply Tame.collect
  intro d
  refine (tame_selectFor _ _ _).bind fun row => (tame_orFail nofun).bind fun row => ?_
  exact ⟨fun _ => hf rfl rfl, trivial⟩

theorem tame_issue (env : Env) (d : DeviceId) (docType : DocType) :
    Tame f NotShort (issue env d docType) := by
  refine (tame_deviceNo d).bind fun no => (tame_selectFor _ _ _).bind fun last => ?_
  exact (tame_require nofun).bind fun _ => ⟨fun _ => hf rfl rfl, trivial⟩

theorem tame_resolveDocNumber (env : Env) (d : DeviceId) (docType : DocType) (n : Option DocNo) :
    Tame f NotShort (resolveDocNumber env d docType n) := by
  cases n with
  | none => exact (tame_require nofun).bind fun _ => tame_issue hf env d docType
  | some n =>
      refine (tame_deviceNo d).bind fun no => (tame_ofExcept fun e he lines hlines => ?_).bind fun r => ?_
      · subst hlines
        cases n with
        | other text => cases he
        | formatted n =>
            simp only [validateDocNumber] at he
            split_ifs at he <;> cases he
      · exact (tame_selectFor _ _ _).bind fun last => ⟨fun _ => hf rfl rfl, trivial⟩

theorem tame_insertMovements (x : SaleId) (demands : List Demand)
    (after : List (ProductId × Int)) :
    Tame f NotShort (insertMovements x demands after) := by
  apply Tame.collect
  intro d
  refine Tame.bind ?_ fun _ => trivial
  refine (tame_query _).bind fun dup => (tame_require nofun).bind fun _ => ?_
  exact tame_update fun _ => hf rfl rfl

theorem tame_updateCustomer (c : Option CustomerId) (g : Customer → Customer) :
    Tame f NotShort (updateCustomer c g) := by
  cases c with
  | none => trivial
  | some c => exact tame_updateReturning fun _ => hf rfl rfl

theorem tame_updateMechanic (m : Option MechanicId) (g : Mechanic → Mechanic) :
    Tame f NotShort (updateMechanic m g) := by
  cases m with
  | none => trivial
  | some m => exact tame_updateReturning fun _ => hf rfl rfl

end

section
variable {γ : Type} {f : Db → γ}

theorem tame_insertSale (hf : ∀ (db : Db) x row, f (db.insertSale x row) = f db) (x : SaleId)
    (row : Sale) : Tame f NotShort (insertSale x row) := by
  refine (tame_selectFor _ _ _).bind fun taken => (tame_require nofun).bind fun _ => ?_
  refine (tame_selectFor _ _ _).bind fun taken => (tame_require nofun).bind fun _ => ?_
  refine (tame_referenceExists _ _ _).bind fun _ => (tame_referenceExists _ _ _).bind fun _ => ?_
  exact (tame_require nofun).bind fun _ => tame_update fun _ => hf _ _ _

variable (hf : ∀ {s s' : Db}, s.papers = s'.papers → f s = f s')
include hf

theorem tame_markConverted (q : QuoteId) (x : SaleId) : Tame f NotShort (markConverted q x) :=
  ⟨fun _ => hf rfl, trivial⟩

theorem tame_settleOfflineQuote (q : QuoteId) (x : SaleId) (state : QuoteState) :
    Tame f NotShort (settleOfflineQuote q x state) := by
  cases state with
  | fresh => exact tame_markConverted hf q x
  | replay => trivial
  | saleIdTaken => trivial
  | missing => exact tame_update fun _ => hf rfl
  | converted c => exact tame_update fun _ => hf rfl
  | expired v => exact tame_update fun _ => hf rfl

end

/-! ## Writing a document -/

/-- The document is there. -/
def Db.has (D : Document) (db : Db) : Bool := decide (db.OnFile D)

/-- The documents that are a row of their own and that every till writes. -/
def Document.isPaper : Document → Bool
  | .sale _ | .note _ | .payment _ | .entry _ => true
  | .void _ | .shift _ | .customer _          => false

/-- Whether a paper is on file depends on the tables of papers alone. -/
theorem has_of_papers {D : Document} {s s' : Db} (hD : D.isPaper = true) (h : s.papers = s'.papers) :
    s.has D = s'.has D := by
  obtain ⟨hsales, h⟩ := Prod.mk.inj h
  obtain ⟨hnotes, h⟩ := Prod.mk.inj h
  obtain ⟨hpayments, hentries⟩ := Prod.mk.inj h
  have hrow : ∀ {b b' : Bool}, b = b' → decide (b = true) = decide (b' = true) := by
    rintro b _ rfl
    rfl
  cases D with
  | sale x => exact hrow (congrFun hsales x)
  | note r => exact hrow (congrFun hnotes r)
  | payment i => exact hrow (congrFun hpayments i)
  | entry e => exact hrow (congrFun hentries e)
  | void x => cases hD
  | shift k => cases hD
  | customer c => cases hD

section
variable {env : Env} {actor : Actor}

theorem brings_insertSale (x : SaleId) (row : Sale) :
    Brings (Db.has (.sale x)) true (insertSale x row) := by
  refine (leaves_selectFor _ _ _).bind_brings fun taken => (leaves_require _ _).bind_brings fun _ => ?_
  refine (leaves_selectFor _ _ _).bind_brings fun taken => (leaves_require _ _).bind_brings fun _ => ?_
  refine (tame_referenceExists _ _ _).leaves.bind_brings fun _ => ?_
  refine (tame_referenceExists _ _ _).leaves.bind_brings fun _ => ?_
  refine (leaves_require _ _).bind_brings fun _ => .inr ⟨fun s => ?_, trivial⟩
  simp [Db.has, Db.OnFile, Db.insertSale, Table.isSome_get_insert]

/-- The body of a sale that succeeds has filed the bill. -/
theorem brings_writeSale (dto : SaleWrite) :
    Brings (Db.has (.sale dto.id)) true (writeSale env actor dto) := by
  have hf : ∀ {s s' : Db}, s.papers = s'.papers → s.quotes = s'.quotes →
      s.has (.sale dto.id) = s'.has (.sale dto.id) := fun h _ => has_of_papers rfl h
  refine (tame_requireOpenShiftIdFor _).leaves.bind_brings fun k => ?_
  refine (tame_resolvePaymentAccount _).leaves.bind_brings fun account => ?_
  refine (tame_lockMechanicAndCheckLimit _).leaves.bind_brings fun override => ?_
  refine Leaves.bind_brings (p := lockProducts _) ?_ fun locked => ?_
  · exact Leaves.bind (Leaves.collect fun p => leaves_selectFor _ _ _) fun rows => trivial
  refine (leaves_require _ _).bind_brings fun _ => (tame_deduct hf _).leaves.bind_brings fun after => ?_
  refine (tame_resolveDocNumber hf _ _ _ _).leaves.bind_brings fun n => ?_
  refine (brings_insertSale _ _).bind fun _ => (tame_insertMovements hf _ _ _).leaves.bind fun mvs => ?_
  refine (tame_updateCustomer hf _ _).leaves.bind fun customer => ?_
  exact (tame_updateMechanic hf _ _).leaves.bind fun mechanic => ⟨fun _ => hf rfl rfl, trivial⟩

theorem brings_insertReturn (r : ReturnId) (note : Return) :
    Brings (Db.has (.note r)) true (insertReturn r note) := by
  refine (leaves_selectFor _ _ _).bind_brings fun taken => (leaves_require _ _).bind_brings fun _ => ?_
  refine (leaves_selectFor _ _ _).bind_brings fun taken => (leaves_require _ _).bind_brings fun _ => ?_
  refine .inr ⟨fun s => ?_, trivial⟩
  simp [Db.has, Db.OnFile, Db.insertReturn, Table.isSome_get_insert]

/-- The body of a credit note that succeeds has filed the note. -/
theorem brings_writeReturn (dto : ReturnWrite) :
    Brings (Db.has (.note (dto.id.getD env.newUuid))) true (writeReturn env actor dto) := by
  have hf : ∀ {s s' : Db}, s.papers = s'.papers → s.quotes = s'.quotes →
      s.has (.note (dto.id.getD env.newUuid)) = s'.has (.note (dto.id.getD env.newUuid)) :=
    fun h _ => has_of_papers rfl h
  refine Leaves.bind_brings (p := lockSale _) ?_ fun sale => (leaves_require _ _).bind_brings fun _ => ?_
  · refine (leaves_selectFor _ _ _).bind fun row => (leaves_orFail _ _).bind fun sale => ?_
    exact (leaves_require _ _).bind fun _ => trivial
  refine Leaves.bind_brings (p := Tx.query _) (fun _ => trivial) fun notes => ?_
  refine (leaves_ofExcept _).bind_brings fun _ => Leaves.bind_brings (p := refundShift _ _) ?_ fun k => ?_
  · rw [refundShift]
    have hopen : Leaves (Db.has (.note (dto.id.getD env.newUuid)))
        (currentShiftIdFor actor.deviceId) := by
      refine (leaves_glance _).bind fun seen => ?_
      cases seen with
      | none => trivial
      | some k => exact (leaves_selectFor _ _ _).bind fun row => trivial
    split
    · exact Leaves.bind (hopen.bind fun k => leaves_orFail _ _) fun k => trivial
    · exact hopen
  refine Leaves.bind_brings (p := lockMechanic _) ?_ fun mechanic => ?_
  · cases sale.mechanicId with
    | none => trivial
    | some m => exact leaves_selectFor _ _ _
  refine Leaves.bind_brings (p := lockReturned _) ?_ fun alive => ?_
  · exact Leaves.bind (Leaves.collect fun p => leaves_selectFor _ _ _) fun rows => trivial
  refine (tame_resolveDocNumber hf _ _ _ _).leaves.bind_brings fun n => ?_
  refine (brings_insertReturn _ _).bind fun _ => Leaves.bind (p := restoreStock _ _ _) ?_ fun mvs => ?_
  · refine Leaves.bind (Leaves.collect fun m => ?_) fun mvs => trivial
    refine Leaves.bind (leaves_updateReturning
      (w := fun db => db.modifyProduct m.1 (Product.addStock m.2)) fun s => hf rfl rfl) fun updated => ?_
    cases updated with
    | none => trivial
    | some row =>
        refine Leaves.bind (p := insertMovement _) ?_ fun _ => trivial
        refine Leaves.bind (p := Tx.query _) (fun _ => trivial) fun dup => ?_
        exact (leaves_require _ _).bind fun _ => ⟨fun s => hf rfl rfl, trivial⟩
  refine (tame_updateCustomer hf _ _).leaves.bind fun customer => ?_
  refine Leaves.bind (p := reverseMechanic _ _ _ _) ?_ fun after => ?_
  · cases mechanic with
    | none => trivial
    | some row => exact (tame_updateMechanic hf _ _).leaves
  -- voiding the bill of the note leaves it on file
  refine Leaves.bind (p := autoVoid _ _) (fun notes => ?_) fun voided => trivial
  show Leaves _ (if _ then _ else _)
  split
  · trivial
  · refine ⟨fun s => hf ?_ rfl, trivial⟩
    simp [Db.papers, Db.modifySale]

/-- The body of a credit payment that succeeds has filed the payment. -/
theorem brings_writePayment (m : MechanicId) (dto : CreateCreditPayment) (balance : Int) :
    Brings (Db.has (.payment (dto.id.getD env.newUuid))) true
      (writePayment env actor m dto balance) := by
  have hf : ∀ {s s' : Db}, s.papers = s'.papers → s.quotes = s'.quotes →
      s.has (.payment (dto.id.getD env.newUuid)) = s'.has (.payment (dto.id.getD env.newUuid)) :=
    fun h _ => has_of_papers rfl h
  refine (tame_requireOpenShiftIdFor _).leaves.bind_brings fun k => ?_
  refine (leaves_require _ _).bind_brings fun _ => (tame_issue hf _ _ _).leaves.bind_brings fun n => ?_
  refine Brings.bind (p := insertPayment _ _) ?_ fun _ => ?_
  · refine (leaves_selectFor _ _ _).bind_brings fun taken => (leaves_require _ _).bind_brings fun _ => ?_
    refine (leaves_selectFor _ _ _).bind_brings fun taken => (leaves_require _ _).bind_brings fun _ => ?_
    refine .inr ⟨fun s => ?_, trivial⟩
    simp [Db.has, Db.OnFile, Db.insertPayment, Table.isSome_get_insert]
  · refine Leaves.bind (leaves_updateReturning
      (w := fun db => db.modifyMechanic m (Mechanic.pay dto.amountSatang)) fun s => hf rfl rfl) fun after => ?_
    refine (leaves_orFail _ _).bind fun row => ?_
    refine Leaves.bind (Leaves.whenever (p := Tx.update _) ?_) fun _ => trivial
    exact ⟨fun s => hf rfl rfl, trivial⟩

theorem brings_addNewEntry (d : DeviceId) (entry : DrawerEntryBody) (offlineReplay : Bool) :
    Brings (Db.has (.entry (entry.id.getD env.newUuid))) true
      (addNewEntry env d entry offlineReplay) := by
  refine Leaves.bind_brings (p := lockActive _) ?_ fun r => ?_
  · refine (leaves_glance _).bind fun seen => (leaves_orFail _ _).bind fun k => ?_
    refine (leaves_selectFor _ _ _).bind fun row => (leaves_orFail _ _).bind fun shift => ?_
    exact (leaves_require _ _).bind fun _ => trivial
  refine (leaves_require _ _).bind_brings fun _ => Leaves.bind_brings (Leaves.whenever ?_) fun _ => ?_
  · exact Leaves.bind (p := Tx.query _) (fun _ => trivial) fun expected => leaves_require _ _
  refine (brings_insertRow fun s => ?_).bind fun _ => trivial
  simp [Db.has, Db.OnFile, Db.insertEntry, Table.isSome_get_insert]

end

/-! ## Looking for a document -/

/-- The document a request is to leave on file. -/
def Request.filing (newUuid : Nat) : Request → Option Document
  | .sale dto _           => some (.sale dto.id)
  | .convertQuote _ party => some (.sale party.id)
  | .creditNote dto       => some (.note (dto.id.getD newUuid))
  | .entry body           => some (.entry (body.id.getD newUuid))
  | .creditPayment _ dto  => some (.payment (dto.id.getD newUuid))
  | _                     => none

/-- The document a queued operation is to leave on file. -/
def SyncOp.filing (newUuid : Nat) : SyncOp → Option Document
  | .saleCreate dto _ _        => some (.sale dto.id)
  | .returnCreate dto _ _      => some (.note (dto.id.getD newUuid))
  | .drawerEntry entry _ _     => some (.entry (entry.id.getD newUuid))
  | .creditPaymentCreate _ dto => some (.payment (dto.id.getD newUuid))
  | _                          => none

def Op.filing : Op → Option Document
  | .post env _ _ _ req => req.filing env.newUuid
  | .push env _ _ _ op  => op.filing env.newUuid
  | _                   => none

section
variable {ag : LockKey × Mode → Db → Db → Prop} {H : Held LockKey} {s : Db} {env : Env} {actor : Actor}
  {lk : LockKey × Mode} {D : Document}

/-- Under a lock a look at the document does not find what is not there. -/
theorem not_seen (hlk : lk ∈ H) (htold : ∀ lk s₀ s₁, ag lk s₀ s₁ → s₀.has D = s₁.has D)
    (hnew : s.has D = false) {s₀ : Db} (hs₀ : ∀ lk ∈ H, ag lk s₀ s) : ¬s₀.OnFile D := by
  have hsame := htold lk s₀ s (hs₀ lk hlk)
  rw [hnew] at hsame
  exact of_decide_eq_false hsame

variable (hlk : lk ∈ H)
include hlk

/-- What leaves the documents alone does so before and after the writing of one. -/
theorem wpHeld_of_leaves {α β : Type} {p : Prog β} {g : β → Prog α} (hp : Leaves (Db.has D) p)
    (hg : ∀ b H' s', lk ∈ H' → s'.has D = s.has D →
      wpHeld ag (g b) H' s' fun _ _ s'' => s''.has D = true) :
    wpHeld ag (p >>= g) H s fun _ _ s' => s'.has D = true :=
  wpHeld_seq (hp.wpHeld s) fun b H' s' h => hg b H' s' (h.1 hlk) h.2

omit hlk in
theorem wpHeld_then_leaves {α β : Type} {p : Prog β} {g : β → Prog α}
    (hp : wpHeld ag p H s fun _ _ s' => s'.has D = true) (hg : ∀ b, Leaves (Db.has D) (g b)) :
    wpHeld ag (p >>= g) H s fun _ _ s' => s'.has D = true :=
  wpHeld_seq hp fun b _ s' hs' => wpHeld_mono ((hg b).wpHeld s') fun _ _ _ h => h.2.trans hs'

theorem wpHeld_existingSale_new {id : SaleId} {total : Int} {soldOffline : Bool}
    {items : Option (List SaleLine)}
    (htold : ∀ lk s₀ s₁, ag lk s₀ s₁ → s₀.has (.sale id) = s₁.has (.sale id))
    (hnew : s.has (.sale id) = false) {Q : Option CreateSaleResult → Held LockKey → Db → Prop}
    (hnone : Q none H s) : wpHeld ag (existingSale id total soldOffline items) H s Q := by
  refine wpHeld_bind_glance fun s₀ hs₀ => ?_
  have hfree := not_seen hlk htold hnew hs₀
  cases hrow : s₀.sales.get id with
  | none => exact hnone
  | some row => exact absurd (by rw [Db.OnFile, hrow]; rfl) hfree

theorem wpHeld_createSale_filed (dto : SaleWrite)
    (htold : ∀ lk s₀ s₁, ag lk s₀ s₁ → s₀.has (.sale dto.id) = s₁.has (.sale dto.id))
    (hnew : s.has (.sale dto.id) = false) :
    wpHeld ag (createSale env actor dto) H s fun _ _ s' => s'.has (.sale dto.id) = true := by
  refine wpHeld_of_leaves hlk (leaves_ofExcept _) fun _ H' s' hlk' hs' => ?_
  refine wpHeld_bind.mpr (wpHeld_existingSale_new hlk' htold (hs'.trans hnew) ?_)
  exact (brings_writeSale dto).wpHeld s'

/-- A note that was not on file is, after a credit note that succeeds. -/
theorem wpHeld_createReturn_filed {dto : ReturnWrite}
    (htold : ∀ lk s₀ s₁, ag lk s₀ s₁ → s₀.has (.note (dto.id.getD env.newUuid)) =
      s₁.has (.note (dto.id.getD env.newUuid)))
    (hnew : s.has (.note (dto.id.getD env.newUuid)) = false) :
    wpHeld ag (createReturn env actor dto) H s fun _ _ s' =>
      s'.has (.note (dto.id.getD env.newUuid)) = true := by
  have hwrite : wpHeld ag (writeReturn env actor dto) H s fun _ _ s' =>
      s'.has (.note (dto.id.getD env.newUuid)) = true := (brings_writeReturn dto).wpHeld s
  rw [createReturn]
  cases hid : dto.id with
  | none => rwa [hid] at hwrite
  | some r =>
      refine wpHeld_bind.mpr (wpHeld_bind_glance fun s₀ hs₀ => ?_)
      have hfree := not_seen hlk htold hnew hs₀
      rw [hid] at hfree hwrite
      cases hrow : s₀.returns.get r with
      | none => exact hwrite
      | some note => exact absurd (by rw [Option.getD_some, Db.OnFile, hrow]; rfl) hfree

/-- A payment that was not on file is, after a credit payment that succeeds. -/
theorem wpHeld_createCreditPayment_filed {m : MechanicId} (dto : CreateCreditPayment)
    (htold : ∀ lk s₀ s₁, ag lk s₀ s₁ → s₀.has (.payment (dto.id.getD env.newUuid)) =
      s₁.has (.payment (dto.id.getD env.newUuid)))
    (hnew : s.has (.payment (dto.id.getD env.newUuid)) = false) :
    wpHeld ag (createCreditPayment env actor m dto) H s fun _ _ s' =>
      s'.has (.payment (dto.id.getD env.newUuid)) = true := by
  have hwrite : ∀ balance H', wpHeld ag (writePayment env actor m dto balance) H' s fun _ _ s' =>
      s'.has (.payment (dto.id.getD env.newUuid)) = true :=
    fun balance H' => (brings_writePayment m dto balance).wpHeld s
  refine wpHeld_bind.mpr (wpHeld_bind_selectFor (wpHeld_bind_orFail fun row _ => ?_))
  cases hid : dto.id with
  | none =>
      rw [hid] at hwrite
      exact hwrite _ _
  | some i =>
      refine wpHeld_bind.mpr (wpHeld_bind_glance fun s₀ hs₀ => ?_)
      have hfree := not_seen (List.mem_cons_of_mem _ hlk) htold hnew hs₀
      rw [hid] at hfree hwrite
      cases hrow : s₀.creditPayments.get i with
      | none => exact hwrite _ _
      | some row => exact absurd (by rw [Option.getD_some, Db.OnFile, hrow]; rfl) hfree

/-- An entry that was not on file is, after it was added. -/
theorem wpHeld_addEntry_filed {entry : DrawerEntryBody} {offlineReplay : Bool}
    (htold : ∀ lk s₀ s₁, ag lk s₀ s₁ → s₀.has (.entry (entry.id.getD env.newUuid)) =
      s₁.has (.entry (entry.id.getD env.newUuid)))
    (hnew : s.has (.entry (entry.id.getD env.newUuid)) = false) :
    wpHeld ag (addEntry env actor entry offlineReplay) H s fun _ _ s' =>
      s'.has (.entry (entry.id.getD env.newUuid)) = true := by
  have hwrite : wpHeld ag (addNewEntry env actor.deviceId entry offlineReplay) H s fun _ _ s' =>
      s'.has (.entry (entry.id.getD env.newUuid)) = true :=
    (brings_addNewEntry actor.deviceId entry offlineReplay).wpHeld s
  rw [addEntry]
  cases hid : entry.id with
  | none => rwa [hid] at hwrite
  | some e =>
      refine wpHeld_bind_glance fun s₀ hs₀ => ?_
      have hfree := not_seen hlk htold hnew hs₀
      rw [hid] at hfree hwrite
      cases hrow : s₀.drawerEntries.get e with
      | none => exact hwrite
      | some row => exact absurd (by rw [Option.getD_some, Db.OnFile, hrow]; rfl) hfree

end

/-! ## The work of a request -/

section
variable {D : Document} (hpaper : D.isPaper = true)
include hpaper

theorem leaves_settled (q : QuoteId) (state : QuoteState) (r : CreateSaleResult) :
    Leaves (Db.has D) (do
      Tx.whenever (state = .fresh) (markConverted q r.id)
      let row ← Tx.selectFor .update (.quote q) fun db => db.quotes.get q
      let row ← Tx.orFail row .vanished
      return (r, some (soldQuote q row)) : Prog (CreateSaleResult × Option SoldQuote)) := by
  refine (Leaves.whenever (tame_markConverted (has_of_papers hpaper) q r.id).leaves).bind fun _ => ?_
  exact (leaves_selectFor _ _ _).bind fun row => (leaves_orFail _ _).bind fun row => trivial

end

/-- A row a request is to leave on file is a document of its own. -/
theorem Request.isPaper_of_filing {req : Request} {newUuid : Nat} {D : Document}
    (h : req.filing newUuid = some D) : D.isPaper = true := by
  cases req <;> cases h <;> rfl

theorem SyncOp.isPaper_of_filing {op : SyncOp} {newUuid : Nat} {D : Document}
    (h : op.filing newUuid = some D) : D.isPaper = true := by
  cases op <;> cases h <;> rfl

section
variable {ag : LockKey × Mode → Db → Db → Prop} {H : Held LockKey} {s : Db} {env : Env} {actor : Actor}
  {lk : LockKey × Mode} {D : Document}

/-- **The work of a request leaves its document on file**, where it looked for it under a lock. -/
theorem wpHeld_handle_filed {req : Request} (hD : req.filing env.newUuid = some D) (hlk : lk ∈ H)
    (htold : ∀ lk s₀ s₁, ag lk s₀ s₁ → s₀.has D = s₁.has D) (hnew : s.has D = false) :
    wpHeld ag (req.handle env actor) H s fun _ _ s' => s'.has D = true := by
  have hpaper := Request.isPaper_of_filing hD
  -- the bill is filed first, and what follows leaves it there
  have hsell : ∀ dto q (state : QuoteState), D = .sale dto.id → ∀ H' s', lk ∈ H' → s'.has D = s.has D →
      wpHeld ag (do
        let sale ← createSale env actor dto
        Tx.whenever (state = .fresh) (markConverted q sale.id)
        let row ← Tx.selectFor .update (.quote q) fun db => db.quotes.get q
        let row ← Tx.orFail row .vanished
        return (sale, some (soldQuote q row)) : Prog (CreateSaleResult × Option SoldQuote)) H' s'
        fun _ _ s'' => s''.has D = true := by
    rintro dto q state rfl H' s' hlk' hs'
    refine wpHeld_then_leaves (wpHeld_createSale_filed hlk' _ htold (hs'.trans hnew)) fun r => ?_
    exact leaves_settled hpaper q state r
  cases req with
  | sale dto quoteId =>
      obtain rfl := Option.some.inj hD
      refine wpHeld_of_leaves hlk (leaves_ofExcept _) fun _ H' s' hlk' hs' => ?_
      cases quoteId with
      | none =>
          refine wpHeld_then_leaves ?_ fun _ => trivial
          exact wpHeld_createSale_filed hlk' dto.online htold (hs'.trans hnew)
      | some q =>
          refine wpHeld_then_leaves ?_ fun _ => trivial
          refine wpHeld_of_leaves hlk' (tame_lockForSale _ _ _).leaves fun state H'' s'' hlk'' hs'' => ?_
          have hnew' : s''.has (.sale dto.id) = false := (hs''.trans hs').trans hnew
          split
          · refine wpHeld_bind.mpr (wpHeld_existingSale_new hlk'' htold hnew' ?_)
            trivial
          · exact hsell dto.online q state rfl H'' s'' hlk'' (hs''.trans hs')
  -- the bill of a quote has the id that the request gave
  | convertQuote q party =>
      obtain rfl := Option.some.inj hD
      refine wpHeld_of_leaves hlk (leaves_ofExcept _) fun _ H₁ s₁ hlk₁ hs₁ => ?_
      refine wpHeld_then_leaves ?_ fun _ => trivial
      refine wpHeld_of_leaves hlk₁ (tame_lockForSale _ _ _).leaves fun state H₂ s₂ hlk₂ hs₂ => ?_
      refine wpHeld_bind_require fun _ => wpHeld_bind_selectFor (wpHeld_bind_orFail fun quote _ => ?_)
      cases hbill : saleFrom quote party with
      | error e => trivial
      | ok dto =>
          have hid := id_saleFrom hbill
          refine hsell dto q state (by rw [hid]) _ s₂ (List.mem_cons_of_mem _ hlk₂) ?_
          exact hs₂.trans hs₁
  | creditNote dto =>
      obtain rfl := Option.some.inj hD
      refine wpHeld_of_leaves hlk (leaves_ofExcept _) fun _ H' s' hlk' hs' => ?_
      refine wpHeld_then_leaves ?_ fun _ => trivial
      exact wpHeld_createReturn_filed hlk' htold (hs'.trans hnew)
  | entry body =>
      obtain rfl := Option.some.inj hD
      refine wpHeld_of_leaves hlk (leaves_ofExcept _) fun _ H' s' hlk' hs' => ?_
      refine wpHeld_then_leaves ?_ fun _ => trivial
      exact wpHeld_addEntry_filed hlk' htold (hs'.trans hnew)
  | creditPayment m dto =>
      obtain rfl := Option.some.inj hD
      refine wpHeld_of_leaves hlk (leaves_ofExcept _) fun _ H' s' hlk' hs' => ?_
      refine wpHeld_then_leaves ?_ fun _ => trivial
      exact wpHeld_createCreditPayment_filed hlk' _ htold (hs'.trans hnew)
  | voidSale x reason => cases hD
  | openShift input => cases hD
  | closeShift cash => cases hD
  | adjustStock p input => cases hD
  | receivePo i => cases hD
  | retireDevice d cash force => cases hD
  | updateMechanic m patch => cases hD

/-- An operation of a push whose document is not there does not find it. -/
theorem wpHeld_probe_new {op : SyncOp} (hD : op.filing env.newUuid = some D) (hlk : lk ∈ H)
    (htold : ∀ lk s₀ s₁, ag lk s₀ s₁ → s₀.has D = s₁.has D) (hnew : s.has D = false) :
    wpHeld ag (checkClientIdReplay op) H s fun out H' s' => out = none ∧ H' = H ∧ s' = s := by
  cases op with
  | saleCreate dto quoteId deviceDate =>
      obtain rfl := Option.some.inj hD
      refine wpHeld_bind.mpr (wpHeld_existingSale_new hlk htold hnew ?_)
      exact ⟨rfl, rfl, rfl⟩
  | returnCreate dto deviceDate opId =>
      obtain rfl := Option.some.inj hD
      simp only [checkClientIdReplay]
      cases hid : dto.id with
      | none => exact ⟨rfl, rfl, rfl⟩
      | some r =>
          refine wpHeld_bind_glance fun s₀ hs₀ => ?_
          have hfree := not_seen hlk htold hnew hs₀
          rw [hid] at hfree
          cases hrow : s₀.returns.get r with
          | none => exact ⟨rfl, rfl, rfl⟩
          | some note => exact absurd (by rw [Option.getD_some, Db.OnFile, hrow]; rfl) hfree
  | drawerEntry entry deviceDate opId =>
      obtain rfl := Option.some.inj hD
      simp only [checkClientIdReplay]
      cases hid : entry.id with
      | none => exact ⟨rfl, rfl, rfl⟩
      | some e =>
          refine wpHeld_bind_glance fun s₀ hs₀ => ?_
          have hfree := not_seen hlk htold hnew hs₀
          rw [hid] at hfree
          cases hrow : s₀.drawerEntries.get e with
          | none => exact ⟨rfl, rfl, rfl⟩
          | some row => exact absurd (by rw [Option.getD_some, Db.OnFile, hrow]; rfl) hfree
  | creditPaymentCreate m dto =>
      obtain rfl := Option.some.inj hD
      simp only [checkClientIdReplay]
      cases hid : dto.id with
      | none => exact ⟨rfl, rfl, rfl⟩
      | some i =>
          refine wpHeld_bind_glance fun s₀ hs₀ => ?_
          have hfree := not_seen hlk htold hnew hs₀
          rw [hid] at hfree
          cases hrow : s₀.creditPayments.get i with
          | none => exact ⟨rfl, rfl, rfl⟩
          | some row => exact absurd (by rw [Option.getD_some, Db.OnFile, hrow]; rfl) hfree
  | shiftOpen input openedAt opId => cases hD
  | customerCreate id body => cases hD
  | customerUpdate c body => cases hD
  | saleVoidOffline x reason => cases hD

/-- **The work of a queued operation leaves its document on file.** -/
theorem wpHeld_execute_filed {op : SyncOp} (hD : op.filing env.newUuid = some D) (hlk : lk ∈ H)
    (htold : ∀ lk s₀ s₁, ag lk s₀ s₁ → s₀.has D = s₁.has D) (hnew : s.has D = false) :
    wpHeld ag (op.execute env actor) H s fun _ _ s' => s'.has D = true := by
  have hf : ∀ {s s' : Db}, s.papers = s'.papers → s.has D = s'.has D :=
    has_of_papers (SyncOp.isPaper_of_filing hD)
  have hdate : ∀ docNo refId opDate, Leaves (Db.has D) (clampOpDate env actor.deviceId docNo refId opDate) :=
    leaves_clampOpDate (fun _ _ => hf rfl) env actor.deviceId
  cases op with
  | saleCreate dto quoteId deviceDate =>
      obtain rfl := Option.some.inj hD
      refine wpHeld_of_leaves hlk (hdate _ _ _) fun date H₁ s₁ hlk₁ hs₁ => ?_
      cases quoteId with
      | none =>
          refine wpHeld_then_leaves ?_ fun _ => trivial
          exact wpHeld_createSale_filed hlk₁ dto.offline htold (hs₁.trans hnew)
      | some q =>
          refine wpHeld_of_leaves hlk₁ (tame_lockAndClassify _ _ _ _).leaves fun state H' s' hlk' hs' => ?_
          refine wpHeld_then_leaves ?_ fun r => ?_
          · exact wpHeld_createSale_filed hlk' dto.offline htold ((hs'.trans hs₁).trans hnew)
          · exact (tame_settleOfflineQuote hf q r.id state).leaves.bind fun _ => trivial
  | returnCreate dto deviceDate opId =>
      obtain rfl := Option.some.inj hD
      refine wpHeld_of_leaves hlk (hdate _ _ _) fun date H' s' hlk' hs' => ?_
      exact wpHeld_then_leaves (wpHeld_createReturn_filed hlk' htold (hs'.trans hnew)) fun _ => trivial
  | drawerEntry entry deviceDate opId =>
      obtain rfl := Option.some.inj hD
      refine wpHeld_of_leaves hlk (hdate _ _ _) fun date H' s' hlk' hs' => ?_
      refine wpHeld_then_leaves (wpHeld_addEntry_filed hlk' htold (hs'.trans hnew)) fun r => ?_
      refine (leaves_glance _).bind fun balance => Leaves.bind (Leaves.whenever ?_) fun _ => trivial
      refine (leaves_glance _).bind fun after => Leaves.whenever (p := Tx.update _) ?_
      exact ⟨fun s => hf rfl, trivial⟩
  | creditPaymentCreate m dto =>
      obtain rfl := Option.some.inj hD
      refine wpHeld_then_leaves ?_ fun _ => trivial
      exact wpHeld_createCreditPayment_filed hlk { dto with allowOverpayment := false } htold hnew
  | shiftOpen input openedAt opId => cases hD
  | customerCreate id body => cases hD
  | customerUpdate c body => cases hD
  | saleVoidOffline x reason => cases hD

end

/-! ## The transaction around it -/

section
variable {env : Env} {actor : Actor} {D : Document}

theorem tracks_createSale (dto : SaleWrite) :
    Tracks (Db.has (.sale dto.id)) (createSale env actor dto) := by
  refine (leaves_ofExcept _).tracks.bind fun _ => (leaves_existingSale _ _ _ _).tracks.bind fun existing => ?_
  cases existing with
  | none => exact (brings_writeSale dto).tracks
  | some r => trivial

theorem tracks_createReturn (dto : ReturnWrite) :
    Tracks (Db.has (.note (dto.id.getD env.newUuid))) (createReturn env actor dto) := by
  have hwrite := (@brings_writeReturn env actor dto).tracks
  rw [createReturn]
  split
  · exact hwrite
  · refine Tracks.bind (Leaves.tracks ?_) fun existing => ?_
    · refine (leaves_glance _).bind fun row => ?_
      cases row with
      | none => trivial
      | some note => exact (leaves_require _ _).bind fun _ _ _ _ _ _ => trivial
    · cases existing with
      | none => exact hwrite
      | some res => trivial

theorem tracks_createCreditPayment (m : MechanicId) (dto : CreateCreditPayment) :
    Tracks (Db.has (.payment (dto.id.getD env.newUuid))) (createCreditPayment env actor m dto) := by
  have hwrite : ∀ balance, Tracks (Db.has (.payment (dto.id.getD env.newUuid)))
      (writePayment env actor m dto balance) := fun balance => (brings_writePayment m dto balance).tracks
  refine Tracks.bind (Leaves.tracks ?_) fun balance => ?_
  · exact (leaves_selectFor _ _ _).bind fun row => (leaves_orFail _ _).bind fun row => trivial
  · split
    · exact hwrite _
    · refine Tracks.bind (Leaves.tracks ?_) fun existing => ?_
      · refine (leaves_glance _).bind fun row => ?_
        cases row with
        | none => trivial
        | some row => exact (leaves_require _ _).bind fun _ => trivial
      · cases existing with
        | none => exact hwrite _
        | some r => trivial

theorem tracks_addEntry (entry : DrawerEntryBody) (offlineReplay : Bool) :
    Tracks (Db.has (.entry (entry.id.getD env.newUuid))) (addEntry env actor entry offlineReplay) := by
  have hwrite := (@brings_addNewEntry env actor.deviceId entry offlineReplay).tracks
  rw [addEntry]
  split
  · exact hwrite
  · refine (leaves_glance _).tracks.bind fun existing => ?_
    cases existing with
    | none => exact hwrite
    | some row => exact (leaves_require _ _).tracks.bind fun _ => trivial

/-- A request writes the document it files in one way only, whatever else is in the state. -/
theorem tracks_handle {req : Request} (hD : req.filing env.newUuid = some D) :
    Tracks (Db.has D) (req.handle env actor) := by
  have hsettled := leaves_settled (Request.isPaper_of_filing hD)
  cases req with
  | sale dto quoteId =>
      obtain rfl := Option.some.inj hD
      refine (leaves_ofExcept _).tracks.bind fun _ => ?_
      cases quoteId with
      | none => exact (tracks_createSale dto.online).bind fun _ => trivial
      | some q =>
          refine Tracks.bind ((tame_lockForSale _ _ _).leaves.tracks.bind fun state => ?_) fun _ => trivial
          split
          · refine (leaves_existingSale _ _ _ _).tracks.bind fun existing => ?_
            exact (leaves_orFail _ _).tracks.bind fun _ => trivial
          · exact (tracks_createSale dto.online).bind fun r => (hsettled q state r).tracks
  | convertQuote q party =>
      obtain rfl := Option.some.inj hD
      refine (leaves_ofExcept _).tracks.bind fun _ => Tracks.bind ?_ fun _ => trivial
      refine (tame_lockForSale _ _ _).leaves.tracks.bind fun state => ?_
      refine (leaves_require _ _).tracks.bind fun _ => (leaves_selectFor _ _ _).tracks.bind fun row => ?_
      refine (leaves_orFail _ _).tracks.bind fun quote => ?_
      cases hbill : saleFrom quote party with
      | error e => trivial
      | ok dto =>
          have hcreate : Tracks (Db.has (.sale dto.id)) (createSale env actor dto) :=
            tracks_createSale dto
          rw [id_saleFrom hbill] at hcreate
          exact hcreate.bind fun r => (hsettled q state r).tracks
  | creditNote dto =>
      obtain rfl := Option.some.inj hD
      exact (leaves_ofExcept _).tracks.bind fun _ => (tracks_createReturn dto).bind fun _ => trivial
  | entry body =>
      obtain rfl := Option.some.inj hD
      exact (leaves_ofExcept _).tracks.bind fun _ => (tracks_addEntry body false).bind fun _ => trivial
  | creditPayment m dto =>
      obtain rfl := Option.some.inj hD
      refine (leaves_ofExcept _).tracks.bind fun _ => Tracks.bind ?_ fun _ => trivial
      exact tracks_createCreditPayment m dto
  | voidSale x reason => cases hD
  | openShift input => cases hD
  | closeShift cash => cases hD
  | adjustStock p input => cases hD
  | receivePo i => cases hD
  | retireDevice d cash force => cases hD
  | updateMechanic m patch => cases hD

/-- So does an operation of a push. -/
theorem tracks_execute {op : SyncOp} (hD : op.filing env.newUuid = some D) :
    Tracks (Db.has D) (op.execute env actor) := by
  have hf : ∀ {s s' : Db}, s.papers = s'.papers → s.has D = s'.has D :=
    has_of_papers (SyncOp.isPaper_of_filing hD)
  have hdate : ∀ docNo refId opDate, Tracks (Db.has D) (clampOpDate env actor.deviceId docNo refId opDate) :=
    fun _ _ _ => (leaves_clampOpDate (fun _ _ => hf rfl) env actor.deviceId _ _ _).tracks
  cases op with
  | saleCreate dto quoteId deviceDate =>
      obtain rfl := Option.some.inj hD
      refine (hdate _ _ _).bind fun date => ?_
      cases quoteId with
      | none => exact (tracks_createSale dto.offline).bind fun _ => trivial
      | some q =>
          refine (tame_lockAndClassify _ _ _ _).leaves.tracks.bind fun state => ?_
          refine (tracks_createSale dto.offline).bind fun r => ?_
          exact (tame_settleOfflineQuote hf q r.id state).leaves.tracks.bind fun _ => trivial
  | returnCreate dto deviceDate opId =>
      obtain rfl := Option.some.inj hD
      exact (hdate _ _ _).bind fun date => (tracks_createReturn dto).bind fun _ => trivial
  | drawerEntry entry deviceDate opId =>
      obtain rfl := Option.some.inj hD
      refine (hdate _ _ _).bind fun date => ?_
      refine (tracks_addEntry entry true).bind fun r => (leaves_glance _).tracks.bind fun balance => ?_
      refine Tracks.bind (Leaves.whenever ?_).tracks fun _ => trivial
      refine (leaves_glance _).bind fun after => Leaves.whenever (p := Tx.update _) ?_
      exact ⟨fun s => hf rfl, trivial⟩
  | creditPaymentCreate m dto =>
      obtain rfl := Option.some.inj hD
      refine Tracks.bind ?_ fun _ => trivial
      exact tracks_createCreditPayment m { dto with allowOverpayment := false }
  | shiftOpen input openedAt opId => cases hD
  | customerCreate id body => cases hD
  | customerUpdate c body => cases hD
  | saleVoidOffline x reason => cases hD

/-- So does the whole transaction. -/
theorem tracks_prog {op : Op} (hD : op.filing = some D) : Tracks (Db.has D) (prog op) := by
  cases op with
  | post env actor key requestHash req =>
      have hf : ∀ {s s' : Db}, s.papers = s'.papers → s.has D = s'.has D :=
        has_of_papers (Request.isPaper_of_filing hD)
      refine Tracks.bind (tame_claim (P := fun _ => True) (fun _ _ => hf rfl) trivial _ _ _ _).leaves.tracks
        fun out => ?_
      cases out with
      | reused => trivial
      | replay body => trivial
      | claimed =>
          refine (tracks_handle hD).bind fun body => ?_
          exact (tame_complete (P := fun _ => True) (fun _ _ => hf rfl) trivial _ _).leaves.tracks.bind
            fun _ => trivial
  | push env actor key requestHash op =>
      have hf : ∀ {s s' : Db}, s.papers = s'.papers → s.has D = s'.has D :=
        has_of_papers (SyncOp.isPaper_of_filing hD)
      have honce : ∀ (db : Db) (id : Nat), (db.addReviewOnce ⟨.receiptRenumbered, id⟩).has D = db.has D :=
        fun db id => hf rfl
      have hcomplete : ∀ body, Tracks (Db.has D) (complete key body) := fun body =>
        (tame_complete (P := fun _ => True) (fun _ _ => hf rfl) trivial _ _).leaves.tracks
      refine Tracks.bind (tame_claim (P := fun _ => True) (fun _ _ => hf rfl) trivial _ _ _ _).leaves.tracks
        fun out => ?_
      cases out with
      | replay body => trivial
      | reused =>
          refine (leaves_replayKeyOfSameDocument honce _).tracks.bind fun own => ?_
          cases own with
          | some r => trivial
          | none => exact (leaves_ofExcept _).tracks.bind fun _ => trivial
      | claimed =>
          refine (leaves_checkClientIdReplay honce _).tracks.bind fun existing => ?_
          cases existing with
          | some r => exact (hcomplete r).bind fun _ => trivial
          | none =>
              refine (leaves_ofExcept _).tracks.bind fun _ => (tracks_execute hD).bind fun r => ?_
              exact (hcomplete r).bind fun _ => trivial
  | reportUnsynced d n => cases hD
  | cleanup now => cases hD

/-- A claim that does not come to own its key leaves the rows as they are. Its owner holds the key. -/
theorem wp_claim_owned {key requestHash : Nat} {endpoint : Endpoint} {H : Held LockKey} {s : Db} :
    wp (claim env key endpoint requestHash) H s Expected fun out H' s' =>
      (out ≠ .claimed → s' = s) ∧
        (out = .claimed → (.key key, .update) ∈ H' ∧ ∃ keys, s' = s.withKeys keys) := by
  refine wp_mono (wp_and (wp_claim_keys (R := fun out H' s' =>
    (out = .claimed → (.key key, .update) ∈ H') ∧ ∃ keys, s' = s.withKeys keys)
      fun out H' keys hheld => ⟨hheld, keys, rfl⟩) (wp_claim (Q := fun out _ s' =>
        out ≠ .claimed → s'.idempotencyKeys = s.idempotencyKeys)
          fun out H' desk _ _ hclaim => hclaim.kept)) (fun _ h => h.1) ?_
  rintro out H' s' ⟨⟨hheld, keys, rfl⟩, hkept⟩
  refine ⟨fun hout => ?_, fun hout => ⟨hheld hout, keys, rfl⟩⟩
  have hkeys : keys = s.idempotencyKeys := hkept hout
  rw [hkeys]
  rfl

/-- The rows but for the owner's list. -/
def Db.unflagged (db : Db) : Db := { db with reviewItems := [] }

/-- **What owns its key and commits is on file.** -/
theorem wpHeld_filed {op : Op} {ag : LockKey × Mode → Db → Db → Prop} {s : Db}
    (hD : op.filing = some D) (htold : ∀ lk s₀ s₁, ag lk s₀ s₁ → s₀.has D = s₁.has D)
    (hnew : s.has D = false) :
    wpHeld ag (prog op) [] s fun _ _ s' => s'.unflagged = s.unflagged ∨ s'.has D = true := by
  cases op with
  | post env actor key requestHash req =>
      have hf : ∀ {s s' : Db}, s.papers = s'.papers → s.has D = s'.has D :=
        has_of_papers (Request.isPaper_of_filing hD)
      refine wpHeld_seq (wpHeld_of_wp wp_claim_owned) ?_
      rintro out H₁ s₁ ⟨hkept, howned⟩
      cases out with
      | reused => trivial
      | replay body => exact .inl (by rw [hkept (fun h => by cases h)])
      | claimed =>
          obtain ⟨hkey, keys, rfl⟩ := howned rfl
          have hnew₁ : (s.withKeys keys).has D = false := (hf rfl).trans hnew
          refine wpHeld_seq (wpHeld_handle_filed hD hkey htold hnew₁) fun body H₂ s₂ hthere => ?_
          refine wpHeld_bind.mpr (wpHeld_of_wp (wp_complete_keys fun H₃ keys' => ?_))
          exact .inr ((hf rfl).trans hthere)
  | push env actor key requestHash op =>
      have hf : ∀ {s s' : Db}, s.papers = s'.papers → s.has D = s'.has D :=
        has_of_papers (SyncOp.isPaper_of_filing hD)
      refine wpHeld_seq (wpHeld_of_wp wp_claim_owned) ?_
      rintro out H₁ s₁ ⟨hkept, howned⟩
      cases out with
      | replay body => exact .inl (by rw [hkept (fun h => by cases h)])
      | reused =>
          obtain rfl := hkept (fun h => by cases h)
          have hown : Leaves Db.unflagged (replayKeyOfSameDocument key op) :=
            leaves_replayKeyOfSameDocument (fun db id => rfl) op
          refine wpHeld_seq (hown.wpHeld s₁) fun own H₂ s₂ hsame => ?_
          cases own with
          | some r => exact .inl hsame.2
          | none =>
              dsimp only
              cases op.parse <;> trivial
      | claimed =>
          obtain ⟨hkey, keys, rfl⟩ := howned rfl
          have hnew₁ : (s.withKeys keys).has D = false := (hf rfl).trans hnew
          refine wpHeld_seq (wpHeld_probe_new hD hkey htold hnew₁) ?_
          rintro out H₂ s₂ ⟨rfl, rfl, rfl⟩
          dsimp only
          cases op.parse with
          | error e => trivial
          | ok u =>
              show wpHeld ag (op.execute env actor >>= _) _ _ _
              refine wpHeld_seq (wpHeld_execute_filed hD hkey htold hnew₁) fun r H₃ s₃ hthere => ?_
              refine wpHeld_bind.mpr (wpHeld_of_wp (wp_complete_keys fun H₄ keys' => ?_))
              exact .inr ((hf rfl).trans hthere)
  | reportUnsynced d n => cases hD
  | cleanup now => cases hD

end

/-- Carrying out a write files its document. -/
theorem Op.document_of_filing {op : Op} {D : Document} {e : Effect} (hD : op.filing = some D)
    (he : op.Allows e) : e.document = some D := by
  cases op with
  | post env actor key requestHash req =>
      cases req with
      | convertQuote q party =>
          obtain rfl := Option.some.inj hD
          obtain ⟨dto, hid, rfl⟩ := he
          exact congrArg (fun x => some (Document.sale x)) hid
      | _ => cases hD <;> cases he <;> rfl
  | push env actor key requestHash op => cases op <;> cases hD <;> cases he <;> rfl
  | reportUnsynced d n => cases hD
  | cleanup now => cases hD

/-! ## Main result -/

section
variable {T : Type} [DecidableEq T] {s₀ : Db} {D : Document}

/-- The rule, for any system whose transactions keep the document. -/
theorem Commit.files {Op' : Type} {α : Type} {prog' : Op' → Prog α}
    (hsound : Sound prog' agree Db.Consistent Expected) (h₀ : s₀.Consistent)
    (hkept : ∀ op s, s.Consistent → s.OnFile D →
      wp (prog' op) [] s Expected fun _ _ s' => s'.OnFile D)
    {S S' : Sys Db LockKey ServerError α Op' T} {t : T} {op : Op'} {a : α}
    (h : Reachable prog' s₀ S) (hc : Commit t op a S S') (htracks : Tracks (Db.has D) (prog' op))
    (hfiled : ∀ s, s.has D = false → wpHeld (Framed agree (Db.has D)) (prog' op) [] s fun _ _ s' =>
      s'.unflagged = s.unflagged ∨ s'.has D = true) :
    S'.db.unflagged = S.db.unflagged ∨ S'.db.OnFile D := by
  by_cases hthere : S.db.OnFile D
  · refine .inr (hc.does hsound h₀ h (fun _ s s' => s.OnFile D → s'.OnFile D) (fun s hs => ?_) hthere)
    by_cases hthere : s.OnFile D
    · exact wpHeld_mono (wpHeld_of_wp (hkept op s hs hthere)) fun _ _ _ h _ => h
    · exact wpHeld_of_wp (wp_mono (hsound.commits op s hs) (fun _ h => h) fun _ _ _ _ h => absurd h hthere)
  · have hdone := hc.unwritten (f := Db.has D) (c := false) hsound h₀ (fun op s hs hfile => ?_) h
      (decide_eq_false hthere) htracks (fun _ s s' => s'.unflagged = s.unflagged ∨ s'.has D = true)
      fun s hs hfree => hfiled s hfree
    · exact hdone.imp_right of_decide_eq_true
    · have hthere : s.OnFile D := of_decide_eq_true (eq_true_of_ne_false hfile)
      refine wp_mono (hkept op s hs hthere) (fun _ h => h) fun _ _ s' h => ?_
      rw [Db.has, decide_eq_true h]
      exact fun hfalse => by cases hfalse

theorem wp_prog_onFile {op : Op} {s : Db} (hs : s.Consistent) (hthere : s.OnFile D) :
    wp (prog op) [] s Expected fun _ _ s' => s'.OnFile D := by
  refine wp_mono (wp_prog hs op) (fun _ h => h) ?_
  rintro a H s' ⟨⟨⟨e, -, hperf⟩, -, -⟩, -⟩
  exact hthere.kept hperf.kept

variable {S S' : System T} {t : T} {op : Op} {a : Reply}

/-- **A write that is not answered from its key is on file when it commits.** -/
theorem Commit.filed (h₀ : s₀.Consistent) (h : Reachable prog s₀ S) (hc : Commit t op a S S')
    (hD : op.filing = some D) : S'.db.unflagged = S.db.unflagged ∨ S'.db.OnFile D :=
  Commit.files sound h₀ (fun _ _ hs hthere => wp_prog_onFile hs hthere) h hc (tracks_prog hD)
    fun _ hnew => wpHeld_filed hD (fun _ _ _ h => h.2) hnew

/-- **What is accepted is carried out**, unless the document was there or the key had the answer. -/
theorem Commit.carriedOut (h₀ : s₀.Consistent) (h : Reachable prog s₀ S) (hc : Commit t op a S S')
    (hD : op.filing = some D) :
    ∃ e, (e = .none ∨ op.Allows e) ∧ Performs e S.db S'.db ∧ (e.document = some D ∨
      S'.db = S.db.withDesk S'.db.desk ∧
        (S.db.OnFile D ∨ S'.db.unflagged = S.db.unflagged)) := by
  obtain ⟨e, hallow, hperf⟩ := hc.does sound h₀ h (fun _ s s' => Commits op.Allows s s')
    fun s hs => wpHeld_of_wp (wp_mono (wp_prog hs op) (fun _ h => h) fun _ _ _ h => h.1.commits)
  refine ⟨e, hallow, hperf, ?_⟩
  rcases hallow with rfl | hallow
  · obtain ⟨t', desk, hch, hdb⟩ := hperf
    cases hch with
    | none =>
        refine .inr ⟨by rw [hdb]; rfl, ?_⟩
        rcases Commit.filed h₀ h hc hD with hsame | hthere
        · exact .inr hsame
        · rw [hdb] at hthere
          exact .inl (by cases D <;> exact hthere)
  · exact .inl (Op.document_of_filing hD hallow)

end

end Server

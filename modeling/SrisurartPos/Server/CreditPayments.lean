import SrisurartPos.Server.Sales

/-! # Mechanics (`credit-payments.service.ts`, `credit-payments.dto.ts`, `mechanics.service.ts`)

A mechanic pays down his tab; the owner edits a mechanic's record, the credit limit with it. -/

namespace Server

open Txn

structure CreateCreditPayment where
  id : Option PaymentId
  amountSatang : Int
  paymentMethod : PaymentMethod
  allowOverpayment : Bool

/-- The two ways a tab is settled. -/
def PaymentMethod.settles : PaymentMethod → Bool
  | .cash | .qr => true
  | _           => false

def parseCreateCreditPayment (dto : CreateCreditPayment) : Except ServerError Unit := do
  check (0 < dto.amountSatang) "amount must be greater than zero"
  check (dto.paymentMethod.settles = true) "paymentMethod must be one of เงินสด, โอน/QR"

/-- The mechanic's tab, locked. -/
def lockBalance (m : MechanicId) : Prog Int := do
  let row ← Tx.selectFor .update (.mechanic m) fun db => db.mechanics.get m
  let row ← Tx.orFail row .mechanicNotFound
  return row.creditBalance

/-- The payment already stored under the client's id, or none. -/
def existingPayment (i : PaymentId) (m : MechanicId) (dto : CreateCreditPayment) (balance : Int) :
    Prog (Option CreateCreditPaymentResult) := do
  let row ← Tx.glance fun db => db.creditPayments.get i
  match row with
  | none     => return none
  | some row => do
      Tx.require (row.mechanicId = m ∧ row.amount = dto.amountSatang ∧
        row.paymentMethod = dto.paymentMethod) .creditPaymentIdReused
      return some ⟨i, row, balance⟩

/-- `credit_balance = GREATEST(0, credit_balance - …)` -/
def Mechanic.pay (amount : Int) (m : Mechanic) : Mechanic :=
  { m with creditBalance := max 0 (m.creditBalance - amount) }

def insertPayment (i : PaymentId) (row : CreditPayment) : Prog Unit := do
  let taken ← Tx.selectFor .update (.payment i) fun db => (db.creditPayments.get i).isSome
  Tx.require (taken = false) .uniqueViolation
  let taken ← Tx.selectFor .update (.cpNo row.receiptNo) fun db => db.cpTaken row.receiptNo
  Tx.require (taken = false) .uniqueViolation
  Tx.update fun db => db.insertPayment i row

/-- `CreditPaymentsService.create` after the replay. -/
def writePayment (env : Env) (actor : Actor) (m : MechanicId) (dto : CreateCreditPayment)
    (balanceBefore : Int) : Prog CreateCreditPaymentResult := do
  let shiftId ← requireOpenShiftIdFor actor.deviceId
  Tx.require (dto.amountSatang ≤ balanceBefore ∨ dto.allowOverpayment = true)
    (.creditPaymentExceedsBalance balanceBefore dto.amountSatang (dto.amountSatang - balanceBefore))
  let receiptNo ← issue env actor.deviceId .cp
  let i := dto.id.getD env.newUuid
  let row : CreditPayment := ⟨receiptNo, m, dto.amountSatang, dto.paymentMethod, some shiftId⟩
  insertPayment i row
  let after ← Tx.updateReturning (.mechanic m)
    (fun db => db.modifyMechanic m (Mechanic.pay dto.amountSatang)) fun db => db.mechanics.get m
  let after ← Tx.orFail after .vanished
  Tx.whenever (dto.amountSatang > balanceBefore)
    (Tx.update fun db => db.addAudit ⟨.creditPaymentOverpayment, m, some i⟩)
  return ⟨i, row, after.creditBalance⟩

def createCreditPayment (env : Env) (actor : Actor) (m : MechanicId) (dto : CreateCreditPayment) :
    Prog CreateCreditPaymentResult := do
  let balanceBefore ← lockBalance m
  match dto.id with
  | none   => writePayment env actor m dto balanceBefore
  | some i => do
      let existing ← existingPayment i m dto balanceBefore
      match existing with
      | some r => return r
      | none   => writePayment env actor m dto balanceBefore

/-! ## The record -/

/-- What `PATCH /mechanics/:id` may change and a rule below reads. -/
structure MechanicPatch where
  creditLimit : Option Int
  deriving DecidableEq, Repr

def parseMechanicPatch (patch : MechanicPatch) : Except ServerError Unit :=
  check (∀ limit, patch.creditLimit = some limit → 0 ≤ limit) "creditLimit must not be negative"

/-- `UPDATE mechanics SET … WHERE … AND deleted_at IS NULL` -/
def Mechanic.edit (patch : MechanicPatch) (m : Mechanic) : Mechanic :=
  if m.deleted then m else { m with creditLimit := patch.creditLimit.getD m.creditLimit }

/-- `MechanicsService.update` -/
def editMechanic (m : MechanicId) (patch : MechanicPatch) : Prog Mechanic := do
  let row ← Tx.updateReturning (.mechanic m)
    (fun db => db.modifyMechanic m (Mechanic.edit patch)) fun db => db.mechanics.get m
  Tx.orFail (row.filter fun row => !row.deleted) .mechanicNotFound

/-! ## What it does -/

/-- The database once the payment is stored and the tab is down by it. -/
def Db.recordPayment (i : PaymentId) (row : CreditPayment) (audited : Bool) (db : Db) : Db :=
  let paid := (db.insertPayment i row).modifyMechanic row.mechanicId (Mechanic.pay row.amount)
  { paid with
    auditLog := paid.auditLog ++
      if audited then [⟨.creditPaymentOverpayment, row.mechanicId, some i⟩] else [] }

/-- What a payment has met when it is written as `row`. -/
structure PaymentAdmitted (actor : Actor) (m : MechanicId) (dto : CreateCreditPayment) (s : Db)
    (row : CreditPayment) : Prop where
  mechanic : ∃ mech, s.mechanics.get m = some mech ∧
    (dto.amountSatang ≤ mech.creditBalance ∨ dto.allowOverpayment = true)
  drawer : ∃ k shift, row.shiftId = some k ∧ s.shifts.get k = some shift ∧
    shift.isOpenOn actor.deviceId = true
  stored : ∃ n k, row = ⟨n, m, dto.amountSatang, dto.paymentMethod, some k⟩

/-- What `CreditPaymentsService.create` does. -/
inductive PaymentCreated (env : Env) (actor : Actor) (m : MechanicId) (dto : CreateCreditPayment)
    (s : Db) : CreateCreditPaymentResult → Db → Prop where
  | replay (r : CreateCreditPaymentResult) : dto.id = some r.id →
      PaymentCreated env actor m dto s r s
  | written (r : CreateCreditPaymentResult) (i : PaymentId) (row : CreditPayment)
      (c : DeviceId × DocType × Period) (v : Nat) (audited : Bool) :
      PaymentAdmitted actor m dto s row → i = dto.id.getD env.newUuid →
      s.creditPayments.get i = none → r.id = i →
      PaymentCreated env actor m dto s r ((s.setCounter c v).recordPayment i row audited)

section
variable {H : Held LockKey} {s : Db}

/-- A credit payment is inserted only where its id is free. -/
theorem wp_insertPayment {i : PaymentId} {row : CreditPayment}
    {Q : Unit → Held LockKey → Db → Prop}
    (hk : ∀ k, row.shiftId = some k → (.shift k, .share) ∈ H)
    (h : ∀ H', H ⊆ H' → s.creditPayments.get i = none →
      Covered agree H' s (s.insertPayment i row) → Q () H' (s.insertPayment i row)) :
    wp (insertPayment i row) H s Expected Q := by
  refine wp_bind_selectFor (wp_bind_require (fun hi => ?_) fun _ => rfl)
  refine wp_bind_selectFor (wp_bind_require (fun hn => ?_) fun _ => rfl)
  have hnew : s.creditPayments.get i = none := by simpa using hi
  refine h _ (fun lk hlk => by simp [hlk]) hnew ?_
  exact Covered.insertPayment (Covered.refl _ _) hnew (by simp) (by simp)
    fun k hrk => by simp [hk k hrk]

/-- **The specification of the body of a credit payment**, from the balance that was locked. -/
theorem wp_writePayment {env : Env} {actor : Actor} {m : MechanicId} {dto : CreateCreditPayment}
    {mech : Mechanic} (hm : s.mechanics.get m = some mech) :
    wp (writePayment env actor m dto mech.creditBalance) H s Expected fun r H' s' =>
      PaymentCreated env actor m dto s r s' ∧ Covered agree H' s s' := by
  refine (wp_bind _ _).mpr (wp_requireOpenShiftIdFor fun k shift H₁ hH₁ hk hshift hopen => ?_)
  refine wp_bind_require (fun hpay => ?_) fun _ => rfl
  refine (wp_bind _ _).mpr (wp_issue fun n c v => ?_)
  refine (wp_bind _ _).mpr (wp_insertPayment ?_ fun H₂ hH₂ hnew hcov₂ => ?_)
  · rintro j hj
    cases hj
    exact List.mem_cons_of_mem _ hk
  have hadm : PaymentAdmitted actor m dto s ⟨n, m, dto.amountSatang, dto.paymentMethod, some k⟩ :=
    ⟨⟨mech, hm, hpay⟩, ⟨k, shift, rfl, hshift, hopen⟩, n, k, rfl⟩
  have hcov₁ : Covered agree ((.counter c, .update) :: H₁) s (s.setCounter c v) :=
    Covered.setCounter (Covered.refl _ _) List.mem_cons_self v
  refine wp_bind_updateReturning (wp_bind_orFail (fun after _ => ?_) fun _ => rfl)
  have hcov : Covered agree ((.mechanic m, .update) :: H₂) s _ :=
    Covered.modifyMechanic (Covered.mono (Covered.trans (Covered.mono hcov₁ hH₂) hcov₂)
      (List.subset_cons_self _ _)) List.mem_cons_self (Mechanic.pay dto.amountSatang)
  refine wp_bind_whenever (fun _ => ?_) fun _ => ?_
  · refine ⟨.written _ _ _ c v true hadm rfl hnew rfl, ?_⟩
    exact Covered.of_view hcov fun lk db => view_addAudit lk db
      ⟨.creditPaymentOverpayment, m, some (dto.id.getD env.newUuid)⟩
  · have hsame : (s.setCounter c v).recordPayment (dto.id.getD env.newUuid)
        ⟨n, m, dto.amountSatang, dto.paymentMethod, some k⟩ false =
        ((s.setCounter c v).insertPayment (dto.id.getD env.newUuid)
          ⟨n, m, dto.amountSatang, dto.paymentMethod, some k⟩).modifyMechanic m
            (Mechanic.pay dto.amountSatang) := by
      simp [Db.recordPayment]
    exact ⟨hsame ▸ .written _ _ _ c v false hadm rfl hnew rfl, hcov⟩

theorem wp_existingPayment {i : PaymentId} {m : MechanicId} {dto : CreateCreditPayment}
    {balance : Int} {Q : Option CreateCreditPaymentResult → Held LockKey → Db → Prop}
    (hnone : Q none H s) (hsome : ∀ r, r.id = i → Q (some r) H s) :
    wp (existingPayment i m dto balance) H s Expected Q := by
  refine wp_bind_glance fun s₀ => ?_
  cases s₀.creditPayments.get i with
  | none => exact hnone
  | some row => exact wp_bind_require (fun _ => hsome _ rfl) fun _ => rfl

/-- **Specification of a credit payment.** -/
theorem wp_createCreditPayment {env : Env} {actor : Actor} {m : MechanicId}
    {dto : CreateCreditPayment} :
    wp (createCreditPayment env actor m dto) H s Expected fun r H' s' =>
      PaymentCreated env actor m dto s r s' ∧ Covered agree H' s s' := by
  refine (wp_bind _ _).mpr (wp_bind_selectFor (wp_bind_orFail (fun mech hmech => ?_) fun _ => rfl))
  dsimp only [Tx.pure_eq, wp_done]
  cases hid : dto.id with
  | none => exact wp_writePayment hmech
  | some i =>
      refine (wp_bind _ _).mpr (wp_existingPayment ?_ fun r hr => ?_)
      · exact wp_writePayment hmech
      · exact ⟨.replay r (by rw [hid, hr]), Covered.refl _ _⟩

/-! ## Its locks -/

theorem mechanic_of_agree {m : MechanicId} {mode : Mode} (s s' : Db)
    (h : agree (.mechanic m, mode) s s') : s.mechanics.get m = s'.mechanics.get m :=
  View.mechanic.inj h

theorem disciplined_lockBalance (m : MechanicId) :
    Disciplined agree (lockBalance m) H fun _ _ => True :=
  disciplined_bind_selectFor mechanic_of_agree fun _ => disciplined_bind_orFail fun _ _ => trivial

theorem disciplined_existingPayment (i : PaymentId) (m : MechanicId) (dto : CreateCreditPayment)
    (balance : Int) : Disciplined agree (existingPayment i m dto balance) H fun _ _ => True := by
  refine disciplined_bind_glance fun row => ?_
  cases row with
  | none => trivial
  | some row => exact disciplined_bind_require fun _ => trivial

theorem disciplined_insertPayment (i : PaymentId) (row : CreditPayment) :
    Disciplined agree (insertPayment i row) H fun _ _ => True := by
  refine disciplined_bind_selectFor (fun s s' hs => ?_) fun _ => disciplined_bind_require fun _ => ?_
  · rw [View.payment.inj hs]
  refine disciplined_bind_selectFor (fun s s' hs => View.present.inj hs) fun _ => ?_
  exact disciplined_bind_require fun _ => ⟨respects_insertPayment (by simp), trivial⟩

theorem disciplined_writePayment (env : Env) (actor : Actor) (m : MechanicId)
    (dto : CreateCreditPayment) (balance : Int) :
    Disciplined agree (writePayment env actor m dto balance) H fun _ _ => True := by
  refine Disciplined.seq (disciplined_requireOpenShiftIdFor _) fun k H₁ _ _ => ?_
  refine disciplined_bind_require fun _ => ?_
  refine Disciplined.seq (disciplined_issue _ _ _) fun n H₂ _ _ => ?_
  refine Disciplined.seq (disciplined_insertPayment _ _) fun _ H₃ _ _ => ?_
  refine disciplined_bind_updateReturning (respects_modifyMechanic _ _) mechanic_of_agree ?_
  refine fun after => disciplined_bind_orFail fun _ _ => ?_
  refine disciplined_bind_whenever (fun _ => ⟨?_, trivial⟩) fun _ => trivial
  exact respects_of_view fun lk db => view_addAudit _ _ _

theorem disciplined_createCreditPayment (env : Env) (actor : Actor) (m : MechanicId)
    (dto : CreateCreditPayment) :
    Disciplined agree (createCreditPayment env actor m dto) H fun _ _ => True := by
  refine Disciplined.seq (disciplined_lockBalance m) fun balance H₁ _ _ => ?_
  cases dto.id with
  | none => exact disciplined_writePayment env actor m dto balance
  | some i =>
      refine Disciplined.seq (disciplined_existingPayment i m dto balance) fun existing H₂ _ _ => ?_
      cases existing with
      | none => exact disciplined_writePayment env actor m dto balance
      | some r => trivial

end

/-! ## What an edit does -/

section
variable {H : Held LockKey} {s : Db} {m : MechanicId} {patch : MechanicPatch}

theorem deleted_edit (row : Mechanic) : (row.edit patch).deleted = row.deleted := by
  unfold Mechanic.edit
  split
  · rfl
  · rfl

/-- **Specification of an edit.** -/
theorem wp_editMechanic : wp (editMechanic m patch) H s Expected fun _ H' s' =>
    (∃ row, s.mechanics.get m = some row ∧ row.deleted = false ∧
      s' = s.modifyMechanic m (Mechanic.edit patch)) ∧ Covered agree H' s s' := by
  refine wp_bind_updateReturning (wp_orFail (fun after hafter => ?_) fun _ => rfl)
  have hget : (s.modifyMechanic m (Mechanic.edit patch)).mechanics.get m =
      (s.mechanics.get m).map (Mechanic.edit patch) := Table.get_modify_self _ _ _
  rw [hget, Option.filter_eq_some_iff, Option.map_eq_some_iff] at hafter
  obtain ⟨⟨row, hrow, rfl⟩, halive⟩ := hafter
  rw [deleted_edit] at halive
  refine ⟨⟨row, hrow, by simpa using halive, rfl⟩, ?_⟩
  exact Covered.modifyMechanic (Covered.refl _ _) List.mem_cons_self _

theorem disciplined_editMechanic (m : MechanicId) (patch : MechanicPatch) :
    Disciplined agree (editMechanic m patch) H fun _ _ => True := by
  refine disciplined_bind_updateReturning (respects_modifyMechanic _ _) mechanic_of_agree ?_
  exact fun row => disciplined_orFail fun _ _ => trivial

end

end Server

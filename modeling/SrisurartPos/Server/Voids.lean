import SrisurartPos.Server.Returns

/-! # Manual voids (`void.service.ts`)

A bill without credit notes, from the open drawer of the device that asks, is undone in full. -/

namespace Server

open Txn

/-- `SUM(qty) … GROUP BY product_id ORDER BY product_id` -/
def voidMoves (items : List SaleItem) : List (ProductId × Int) :=
  (groupMoves (items.map fun i => (i.productId, i.qty))).insertionSort fun m m' => m.1 ≤ m'.1

/-- The row once it is voided. -/
def Sale.void (reason : String) (sale : Sale) : Sale :=
  { sale with voided := true, voidReason := some reason }

/-- What `POST /sales` applied to the customer and the mechanic, with every sign flipped. -/
def reverseLedger (sale : Sale) : Prog Unit := do
  let _ ← updateCustomer sale.customerId (Customer.move (-sale.pointsGranted) (-sale.total))
  let _ ← updateMechanic sale.mechanicId
    (Mechanic.move (-sale.total) (-discountOf sale.mechanicDelta) (-markupOf sale.mechanicDelta)
      (-onTab sale.paymentMethod sale.total))
  return ()

/-- `VoidService.void` -/
def voidSale (actor : Actor) (x : SaleId) (reason : String) : Prog Sale := do
  let row ← Tx.selectFor .update (.sale x) fun db => db.sales.get x
  let sale ← Tx.orFail row .saleNotFound
  Tx.require (sale.voided = false) .saleVoided
  let notes ← Tx.query fun db => db.notesOf x
  Tx.require (notes = []) .saleHasReturns
  let openShiftId ← requireOpenShiftIdFor actor.deviceId
  Tx.require (sale.shiftId = some openShiftId) .saleNotInOpenShift
  let _ ← lockMechanic sale.mechanicId
  let _ ← Tx.collect (voidMoves sale.items) (restoreOne .void x)
  reverseLedger sale
  Tx.update fun db => db.modifySale x (Sale.void reason)
  Tx.update fun db => db.addAudit ⟨.saleVoid, x, none⟩
  return sale.void reason

/-! ## What it does -/

/-- The database once the bill is undone. -/
def Db.recordVoid (x : SaleId) (sale : Sale) (reason : String) (db : Db) : Db :=
  ((((db.moveStock .void x (voidMoves sale.items)).updateCustomer sale.customerId
    (Customer.move (-sale.pointsGranted) (-sale.total))).updateMechanic sale.mechanicId
      (Mechanic.move (-sale.total) (-discountOf sale.mechanicDelta) (-markupOf sale.mechanicDelta)
        (-onTab sale.paymentMethod sale.total))).modifySale x (Sale.void reason)).addAudit
          ⟨.saleVoid, x, none⟩

/-- What a bill has met when it is voided. -/
structure VoidAdmitted (actor : Actor) (x : SaleId) (s : Db) (sale : Sale) (k : ShiftId) :
    Prop where
  bill : s.sales.get x = some sale
  live : sale.voided = false
  noNotes : s.notesOf x = []
  shift : sale.shiftId = some k
  drawer : ∃ shift, s.shifts.get k = some shift ∧ shift.isOpenOn actor.deviceId = true

/-- What `VoidService.void` does. -/
inductive SaleVoided (actor : Actor) (x : SaleId) (reason : String) (s : Db) : Db → Prop where
  | mk (sale : Sale) (k : ShiftId) : VoidAdmitted actor x s sale k →
      SaleVoided actor x reason s (s.recordVoid x sale reason)

section
variable (items : List SaleItem)

theorem voidMoves_perm :
    (voidMoves items).Perm (groupMoves (items.map fun i => (i.productId, i.qty))) :=
  List.perm_insertionSort _ _

theorem nodup_voidMoves : ((voidMoves items).map Prod.fst).Nodup :=
  ((voidMoves_perm items).map _).nodup_iff.mpr (nodup_groupMoves _)

theorem nonneg_voidMoves : ∀ m ∈ voidMoves items, 0 ≤ m.2 := by
  intro m hm
  apply nonneg_groupMoves ?_ m ((voidMoves_perm items).mem_iff.mp hm)
  intro m' hm'
  obtain ⟨i, -, rfl⟩ := List.mem_map.mp hm'
  exact i.qty_pos.le

/-- A void moves each product by what the bill's lines sold. -/
theorem shiftOf_voidMoves (p : ProductId) : shiftOf (voidMoves items) p = soldQty items p := by
  rw [shiftOf, ((voidMoves_perm items).map _).sum_eq]
  show shiftOf (groupMoves _) p = _
  rw [shiftOf_groupMoves, shiftOf, List.map_map]
  rfl

end

section
variable {H : Held LockKey} {s : Db}

/-- Voiding a bill moves the cash of its own drawer only. -/
theorem drawerCash_void {x : SaleId} {sale : Sale} (hx : s.sales.get x = some sale)
    {reason : String} {j k : ShiftId} (hj : sale.shiftId = some j) (hne : k ≠ j) :
    (s.modifySale x (Sale.void reason)).drawerCash k = s.drawerCash k := by
  have hno : sale.shiftId ≠ some k := by
    rw [hj]
    exact fun h => hne (Option.some.inj h).symm
  have hzero : ∀ w : Sale, w.shiftId = sale.shiftId → s.cashOfSale k x w = 0 := by
    intro w hw
    rw [Db.cashOfSale, if_neg fun hc => hno (hw ▸ hc.1)]
  have hvoid : s.cashOfSale k x (sale.void reason) = 0 := hzero _ rfl
  rw [drawerCash_modifySale hx, hzero sale rfl, hvoid]
  omega

/-- **Specification of a void.** -/
theorem wp_voidSale {actor : Actor} {x : SaleId} {reason : String} (hs : s.Consistent) :
    wp (voidSale actor x reason) H s Expected fun _ H' s' =>
      SaleVoided actor x reason s s' ∧ Covered agree H' s s' := by
  refine wp_bind_selectFor (wp_bind_orFail (fun sale hsale => ?_) fun _ => rfl)
  refine wp_bind_require (fun hlive => wp_bind_query ?_) fun _ => rfl
  refine wp_bind_require (fun hnotes => ?_) fun _ => rfl
  refine (wp_bind _ _).mpr (wp_requireOpenShiftIdFor fun k shift H₁ hH₁ hk hshift hopen => ?_)
  refine wp_bind_require (fun hshiftId => ?_) fun _ => rfl
  refine (wp_bind _ _).mpr (wp_lockMechanic fun H₂ hH₂ => ?_)
  refine (wp_bind _ _).mpr (wp_restoreAll (nodup_voidMoves _) (hs.void_free hsale hlive)
    fun mvs H₃ hH₃ hcov₃ => ?_)
  refine (wp_bind _ _).mpr ((wp_bind _ _).mpr (wp_updateCustomer fun cust H₄ hH₄ hcov₄ => ?_))
  refine (wp_bind _ _).mpr (wp_updateMechanic fun mech H₅ _ hH₅ hcov₅ => ?_)
  have hsub : H₁ ⊆ H₅ := fun lk hlk => hH₅ (hH₄ (hH₃ (hH₂ hlk)))
  have hcov : Covered agree H₅ s _ :=
    Covered.trans (Covered.mono (Covered.trans (Covered.mono hcov₃ hH₄) hcov₄) hH₅) hcov₅
  refine ⟨.mk sale k ⟨hsale, hlive, hnotes, hshiftId, shift, hshift, hopen⟩, ?_⟩
  have hvoid : Covered agree H₅ s (Db.modifySale _ x (Sale.void reason)) :=
    Covered.modifySale hcov (hsub (hH₁ List.mem_cons_self)) (fun _ => rfl) fun j hj =>
      drawerCash_void hsale hshiftId fun hjk => hj (hjk ▸ hsub hk)
  exact Covered.of_view hvoid fun lk db => view_addAudit lk db ⟨.saleVoid, x, none⟩

theorem disciplined_reverseLedger (sale : Sale) :
    Disciplined agree (reverseLedger sale) H fun _ _ => True :=
  Disciplined.seq (disciplined_updateCustomer _ _) fun _ _ _ _ =>
    Disciplined.seq (disciplined_updateMechanic _ _) fun _ _ _ _ => trivial

theorem disciplined_voidSale (actor : Actor) (x : SaleId) (reason : String) :
    Disciplined agree (voidSale actor x reason) H fun _ _ => True := by
  refine disciplined_bind_selectFor sale_of_agree fun row => disciplined_bind_orFail fun sale _ => ?_
  refine disciplined_bind_require fun _ => ?_
  refine disciplined_bind_query (guarded_notesOf List.mem_cons_self) fun notes => ?_
  refine disciplined_bind_require fun _ => ?_
  refine Disciplined.seq (disciplined_requireOpenShiftIdFor _) fun k H₁ hH₁ _ => ?_
  refine disciplined_bind_require fun _ => ?_
  refine Disciplined.seq (disciplined_lockMechanic _) fun _ H₂ hH₂ _ => ?_
  refine Disciplined.seq (disciplined_restoreAll _ _ _) fun _ H₃ hH₃ _ => ?_
  refine Disciplined.seq (disciplined_reverseLedger _) fun _ H₄ hH₄ _ => ?_
  refine disciplined_bind_update (respects_modifySale ?_ fun _ => rfl) ?_
  · exact hH₄ (hH₃ (hH₂ (hH₁ List.mem_cons_self)))
  · exact ⟨respects_of_view fun lk db => view_addAudit _ _ _, trivial⟩

end

end Server

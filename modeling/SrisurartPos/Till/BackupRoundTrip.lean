import SrisurartPos.Till.Backup
import Mathlib.Data.List.Nodup
import Mathlib.Tactic.Common

/-! # What a backup restores

A row that is written to the file and read back is the row, less the columns that one of the two field
lists lacks. -/

namespace Till.Backup

open Iso Dyn

variable {D : Type} (H : Host D)

/-! ## Coercions -/

theorem toIso8601String_ne (i : Instant) : toIso8601String i ≠ "" := by
  intro h
  have hparse := tryParse_toIso8601String 0 i
  rw [h] at hparse
  cases hparse

@[simp] theorem dateOf_iso (i : Instant) : dateOf H (.text (toIso8601String i)) = pure (some i) := by
  simp [dateOf, parseDate, toIso8601String_ne, tryParse_toIso8601String]

@[simp] theorem dateOf_null : dateOf H .null = pure none := rfl

@[simp] theorem dateOf_optional (d : Option Instant) :
    dateOf H ((d.map fun i => Dyn.text (toIso8601String i)).getD .null) = pure d := by
  cases d with
  | none => rfl
  | some i => exact dateOf_iso H i

@[simp] theorem dateOrNow_iso (i : Instant) : dateOrNow H (.text (toIso8601String i)) = pure i := by
  rw [dateOrNow, dateOf_iso]
  rfl

@[simp] theorem asStr_text (s fallback : String) : asStr H (.text s) fallback = s := rfl

@[simp] theorem asNullableStr_optional (s : Option String) : asNullableStr H ((s.map Dyn.text).getD .null) = s := by
  cases s <;> rfl

@[simp] theorem asNullableStr_orNull (s : Option String) : asNullableStr H (orNull Dyn.text s) = s :=
  asNullableStr_optional H s

@[simp] theorem asInt_int (n fallback : Int) : asInt H (.int n) fallback = n := rfl

@[simp] theorem asDouble_double (x fallback : D) : asDouble H (.double x) fallback = x := rfl

@[simp] theorem asNullableDouble_optional (x : Option D) :
    asNullableDouble H ((x.map Dyn.double).getD .null) = x := by
  cases x <;> rfl

@[simp] theorem nullableDouble_optional (x : Option D) : nullableDouble H ((x.map Dyn.double).getD .null) = x := by
  cases x <;> rfl

@[simp] theorem nullableInt_optional (n : Option Int) : nullableInt H ((n.map Dyn.int).getD .null) = n := by
  cases n <;> rfl

@[simp] theorem asBool_flag (b : Bool) :
    asBool H ((if b = true then some (Dyn.bool true) else none).getD .null) = b := by
  cases b <;> rfl

@[simp] theorem asBool_bool (b : Bool) : asBool H (.bool b) = b := rfl

@[simp] theorem idOf_text (s : String) : idOf H (.text s) = pure s := rfl

@[simp] theorem asList_objects {α : Type} (l : List α) (f : α → Object D) :
    asList (.array (l.map fun a => .object (f a))) = l.map f := by
  induction l with
  | nil => rfl
  | cons a l ih => exact congrArg (f a :: ·) ih

@[simp] theorem asList_arrayOf {ρ : Type} (toMap : String → ρ → Object D) (rows : List (String × ρ)) :
    asList (arrayOf toMap rows) = rows.map fun e => toMap e.1 e.2 := asList_objects rows _

/-- A loop over what is written is a loop over the rows. -/
theorem forM_map {α β : Type} (f : β → Action D Unit) (g : α → β) (l : List α) :
    forM (l.map g) f = forM l fun a => f (g a) := by
  induction l with
  | nil => rfl
  | cons a l ih =>
      rw [List.map_cons, List.forM_cons, List.forM_cons, ih]

theorem forM_congr {α : Type} {f g : α → Action D Unit} {l : List α} (h : ∀ a ∈ l, f a = g a) :
    forM l f = forM l g := by
  induction l with
  | nil => rfl
  | cons a l ih =>
      rw [List.forM_cons, List.forM_cons, h a List.mem_cons_self, ih fun b hb => h b (List.mem_cons_of_mem a hb)]

/-! ## Rows -/

/-- The zone is migrated. A deletion and a picture are not in the file. -/
def ProductRow.restored (p : ProductRow D) : ProductRow D :=
  { p with zone := none, deletedAt := none, imageKey := none }

theorem importProduct_toMap (id : String) (p : ProductRow D) :
    importProduct H (p.toMap id) = insertRow .products id p.restored := by
  simp [importProduct, ProductRow.toMap, ProductRow.restored, categoryOf, Dyn.isNull]

theorem importCustomer_toMap (id : String) (c : CustomerRow D) :
    importCustomer H (c.toMap id) = insertRow .customers id c := by
  simp [importCustomer, CustomerRow.toMap]

theorem importMechanic_toMap (id : String) (m : MechanicRow D) :
    importMechanic H (m.toMap id) = insertRow .mechanics id m := by
  simp [importMechanic, MechanicRow.toMap]

/-- The shift, the sale without the server and the reason of a void are not in the file. -/
def SaleRow.restored (s : SaleRow D) : SaleRow D :=
  { s with shiftId := none, soldOffline := false, voidReason := none }

theorem importSaleItem_toMap (saleId : String) (it : SaleItemRow D) :
    importSaleItem H saleId it.toMap = insertLine .saleItems saleId it := by
  simp [importSaleItem, SaleItemRow.toMap]

theorem importSale_toMap (items : List (SaleItemRow D)) (id : String) (s : SaleRow D) :
    importSale H (s.toMap items id) =
      insertRow .sales id s.restored >>= fun _ => forM items (insertLine .saleItems id) := by
  have hitems := forM_map (importSaleItem H id) SaleItemRow.toMap items
  simp only [importSaleItem_toMap] at hitems
  simp [importSale, SaleRow.toMap, SaleRow.restored, hitems]

theorem importPoItem_toMap (poId : String) (it : PoItemRow D) :
    importPoItem H poId it.toMap = insertLine .poItems poId it := by
  simp [importPoItem, PoItemRow.toMap]

theorem importPurchaseOrder_toMap (items : List (PoItemRow D)) (id : String) (po : PurchaseOrderRow) :
    importPurchaseOrder H (po.toMap items id) =
      insertRow .purchaseOrders id po >>= fun _ => forM items (insertLine .poItems id) := by
  have hitems := forM_map (importPoItem H id) PoItemRow.toMap items
  simp only [importPoItem_toMap] at hitems
  simp [importPurchaseOrder, PurchaseOrderRow.toMap, hitems]

/-- The cost at the sale is not in the file. -/
def QuoteItemRow.restored (it : QuoteItemRow D) : QuoteItemRow D := { it with costAtSale := none }

theorem importQuoteItem_toMap (quoteId : String) (it : QuoteItemRow D) :
    importQuoteItem H quoteId it.toMap = insertLine .quoteItems quoteId it.restored := by
  simp [importQuoteItem, QuoteItemRow.toMap, QuoteItemRow.restored]

theorem importQuote_toMap (items : List (QuoteItemRow D)) (id : String) (q : QuoteRow D) :
    importQuote H (q.toMap items id) = insertRow .quotes id q >>= fun _ =>
      forM (items.map QuoteItemRow.restored) (insertLine .quoteItems id) := by
  have hitems := forM_map (importQuoteItem H id) QuoteItemRow.toMap items
  simp only [importQuoteItem_toMap] at hitems
  rw [forM_map]
  simp [importQuote, QuoteRow.toMap, hitems]

theorem importReturnItem_toMap (returnId : String) (it : ReturnItemRow D) :
    importReturnItem H returnId it.toMap = insertLine .returnItems returnId it := by
  simp [importReturnItem, ReturnItemRow.toMap]

theorem importReturn_toMap (items : List (ReturnItemRow D)) (id : String) (r : ReturnRow D) :
    importReturn H (r.toMap items id) =
      insertRow .returns id r >>= fun _ => forM items (insertLine .returnItems id) := by
  have hitems := forM_map (importReturnItem H id) ReturnItemRow.toMap items
  simp only [importReturnItem_toMap] at hitems
  simp [importReturn, ReturnRow.toMap, hitems]

theorem importMovement_toMap (id : String) (m : MovementRow) :
    importMovement H (m.toMap id) = insertRow .movements id m := by
  simp [importMovement, MovementRow.toMap]

theorem importSupplier_toMap (id : String) (s : SupplierRow D) :
    importSupplier H (s.toMap id) = insertRow .suppliers id s := by
  simp [importSupplier, SupplierRow.toMap]

/-- An empty picture is none. -/
def PaymentAccountRow.restored (a : PaymentAccountRow) : PaymentAccountRow :=
  { a with image := if a.image = some [] then none else a.image }

theorem encode_ne_nil {bytes : List UInt8} (h : bytes ≠ []) : Base64.encode bytes ≠ [] := by
  fun_cases Base64.encode bytes <;> simp_all

theorem imageOf_encode (image : Option (List UInt8)) :
    imageOf (orNull (fun b => Dyn.text (String.ofList (Base64.encode b))) image) =
      (pure (if image = some [] then none else image) : Action D _) := by
  cases image with
  | none => rfl
  | some bytes =>
      by_cases hnil : bytes = []
      · subst hnil
        rfl
      · have hne : String.ofList (Base64.encode bytes) ≠ "" := by
          intro heq
          have := congrArg String.toList heq
          rw [String.toList_ofList] at this
          exact encode_ne_nil hnil this
        show imageOf (.text (String.ofList (Base64.encode bytes))) = _
        simp [imageOf, hne, hnil, String.toList_ofList, Base64.decode_encode]

theorem importPaymentAccount_toMap (id : String) (a : PaymentAccountRow) :
    importPaymentAccount H (a.toMap id) = insertRow .paymentAccounts id a.restored := by
  simp [importPaymentAccount, PaymentAccountRow.toMap, PaymentAccountRow.restored, Dyn.isNull, imageOf_encode]

theorem importCreditPayment_toMap (id : String) (p : CreditPaymentRow D) :
    importCreditPayment H (p.toMap id) = insertRow .creditPayments id p := by
  simp [importCreditPayment, CreditPaymentRow.toMap]

/-- A note that is null becomes empty. -/
def DrawerEntryRow.restored (e : DrawerEntryRow D) : DrawerEntryRow D := { e with note := some (e.note.getD "") }

theorem importEntry_toMap (id : String) (e : DrawerEntryRow D) :
    importEntry H e.shiftId (e.toMap id) = insertRow .drawerEntries id e.restored := by
  simp [importEntry, DrawerEntryRow.toMap, DrawerEntryRow.restored, asNullableStr]

theorem importShift_toMap (entries : List (String × DrawerEntryRow D)) (id : String) (s : ShiftRow D)
    (hentries : ∀ e ∈ entries, e.2.shiftId = id) :
    importShift H s.isActive (s.toMap entries id) = insertRow .shifts id s >>= fun _ =>
      forM entries fun e => insertRow .drawerEntries e.1 e.2.restored := by
  have hrow : ∀ e ∈ entries, importEntry H id (e.2.toMap e.1) = insertRow .drawerEntries e.1 e.2.restored := by
    intro e he
    rw [← hentries e he]
    exact importEntry_toMap H e.1 e.2
  simp [importShift, ShiftRow.toMap, iso, orNull, forM_congr hrow]

theorem importSettings_toMap (s : SettingsRow D) :
    importSettings H (.object s.toMap) = modify fun d => { d with db := { d.db with settings := s } } := by
  simp [importSettings, SettingsRow.toMap]

/-- A parked sale whose payload is an object that names it. -/
theorem importParked_object {o : Object D} {id : String} (hid : get o "id" = .text id) {m : Option Moment}
    (hdate : parseDate H (get o "parkedAt") = .ok m) (d : Device D) :
    importParked H o d =
      insertRow .parkedSales id ⟨(m.map Moment.toInstant).getD d.now, .json (.object o)⟩ d := by
  have hnow : dateOrNow H (get o "parkedAt") d = .ok ((m.map Moment.toInstant).getD d.now) d := by
    simp only [dateOrNow, dateOf, hdate]
    rfl
  rw [importParked, hid, idOf_text, pure_bind]
  show EStateM.bind _ _ d = _
  rw [EStateM.bind, hnow]

/-! ## Loops -/

section Loops
variable {ρ ρ' α : Type} {H}

theorem bind_ok {β γ : Type} {act : Action D β} {f : β → Action D γ} {d d' : Device D} {b : β}
    (h : act d = .ok b d') : (act >>= f) d = f b d' := by
  show EStateM.bind act f d = _
  rw [EStateM.bind, h]

/-- Two parts do not overlap. -/
structure Apart {σ τ : Type} (S : Slot D σ) (T : Slot D τ) : Prop where
  get_left : ∀ db t, S.get (T.set db t) = S.get db
  get_right : ∀ db s, T.get (S.set db s) = T.get db
  comm : ∀ db s t, S.set (T.set db t) s = T.set (S.set db s) t

theorem insertRow_ok {P : Place D ρ} {id : String} {row : ρ} {d : Device D} (h : (P.get d.db).get id = none) :
    insertRow P id row d = .ok () { d with db := P.set d.db ((P.get d.db).insert id row) } := by
  have hget : (MonadState.get : Action D (Device D)) d = .ok d d := rfl
  rw [insertRow, bind_ok hget, h]
  rfl

/-- Rows under distinct keys, none of which is taken, are inserted in their order. -/
theorem run_rows (P : Place D ρ) (key : α → String) (row : α → ρ) (f : α → Action D Unit)
    {l : List α} (hnodup : (l.map key).Nodup) (d : Device D)
    (hf : ∀ a ∈ l, ∀ d' : Device D, d'.now = d.now → f a d' = insertRow P (key a) (row a) d')
    (hfree : ∀ a ∈ l, (P.get d.db).get (key a) = none) :
    ∃ t, forM l f d = .ok () { d with db := P.set d.db t } ∧
      t.rows = (P.get d.db).rows ++ l.map fun a => (key a, row a) := by
  induction l generalizing d with
  | nil =>
      refine ⟨P.get d.db, ?_, (List.append_nil _).symm⟩
      rw [P.set_get]
      rfl
  | cons a l ih =>
      have ha := hfree a List.mem_cons_self
      obtain ⟨hnot, hnodup⟩ := List.nodup_cons.mp hnodup
      have hstep : insertRow P (key a) (row a) d = _ := insertRow_ok ha
      rw [← hf a List.mem_cons_self d rfl] at hstep
      obtain ⟨t, hrun, hrows⟩ := ih hnodup { d with db := P.set d.db ((P.get d.db).insert (key a) (row a)) }
        (fun b hb => hf b (List.mem_cons_of_mem a hb)) fun b hb => by
          have hne : key b ≠ key a := fun heq => hnot (heq ▸ List.mem_map_of_mem hb)
          rw [P.get_set, Table.get_insert_ne _ hne]
          exact hfree b (List.mem_cons_of_mem a hb)
      refine ⟨t, ?_, ?_⟩
      · rw [List.forM_cons, bind_ok hstep, hrun, P.set_set]
      · rw [hrows, P.get_set, Table.rows_insert ha, List.append_assoc]
        rfl

theorem run_lines (L : Lines D ρ) (id : String) (rows : List ρ) (d : Device D) :
    forM rows (insertLine L id) d =
      .ok () { d with db := L.set d.db (L.get d.db ++ rows.map fun row => (id, row)) } := by
  induction rows generalizing d with
  | nil =>
      rw [List.map_nil, List.append_nil, L.set_get]
      rfl
  | cons row rows ih =>
      have hstep : insertLine L id row d = .ok () { d with db := L.set d.db (L.get d.db ++ [(id, row)]) } := rfl
      rw [List.forM_cons, bind_ok hstep, ih, L.get_set, L.set_set, List.append_assoc]
      rfl

/-- Rows with something of their own under each: what is written under them is in the order of the rows. -/
theorem run_docs {σ β : Type} {P : Place D ρ} {S : Slot D σ} (hPS : Apart P S)
    (view : σ → List β) (fits : List β → Prop) (hfits : ∀ v w, fits (v ++ w) → fits v) (out : α → List β)
    {key : α → String} {row : α → ρ} {body f : α → Action D Unit} {l : List α}
    (hf : ∀ a ∈ l, f a = insertRow P (key a) (row a) >>= fun _ => body a)
    (hbody : ∀ a ∈ l, ∀ d : Device D, fits (view (S.get d.db) ++ out a) →
      ∃ s, body a d = .ok () { d with db := S.set d.db s } ∧ view s = view (S.get d.db) ++ out a)
    (hnodup : (l.map key).Nodup) (d : Device D) (hfree : ∀ a ∈ l, (P.get d.db).get (key a) = none)
    (hview : fits (view (S.get d.db) ++ l.flatMap out)) :
    ∃ t s, forM l f d = .ok () { d with db := S.set (P.set d.db t) s } ∧
      t.rows = (P.get d.db).rows ++ l.map (fun a => (key a, row a)) ∧
      view s = view (S.get d.db) ++ l.flatMap out := by
  induction l generalizing d with
  | nil =>
      refine ⟨P.get d.db, S.get d.db, ?_, (List.append_nil _).symm, (List.append_nil _).symm⟩
      rw [P.set_get, S.set_get]
      rfl
  | cons a l ih =>
      have ha := hfree a List.mem_cons_self
      obtain ⟨hnot, hnodup⟩ := List.nodup_cons.mp hnodup
      rw [List.flatMap_cons, ← List.append_assoc] at hview
      have hrow : insertRow P (key a) (row a) d = _ := insertRow_ok ha
      obtain ⟨s, hrun, hs⟩ := hbody a List.mem_cons_self
        { d with db := P.set d.db ((P.get d.db).insert (key a) (row a)) } (by
          rw [hPS.get_right]
          exact hfits _ _ hview)
      rw [hPS.get_right] at hs
      have hstep : f a d =
          .ok () { d with db := S.set (P.set d.db ((P.get d.db).insert (key a) (row a))) s } := by
        rw [hf a List.mem_cons_self, bind_ok hrow]
        exact hrun
      obtain ⟨t, s', hrest, hrows, hs'⟩ := ih (fun b hb => hf b (List.mem_cons_of_mem a hb))
        (fun b hb => hbody b (List.mem_cons_of_mem a hb)) hnodup
        { d with db := S.set (P.set d.db ((P.get d.db).insert (key a) (row a))) s } (fun b hb => by
          have hne : key b ≠ key a := fun heq => hnot (heq ▸ List.mem_map_of_mem hb)
          rw [hPS.get_left, P.get_set, Table.get_insert_ne _ hne]
          exact hfree b (List.mem_cons_of_mem a hb)) (by
          rw [S.get_set, hs]
          exact hview)
      refine ⟨t, s', ?_, ?_, ?_⟩
      · rw [List.forM_cons, bind_ok hstep, hrest, hPS.comm, P.set_set, S.set_set]
      · rw [hrows, hPS.get_left, P.get_set, Table.rows_insert ha, List.append_assoc]
        rfl
      · rw [hs', S.get_set, hs, List.append_assoc, List.flatMap_cons]

end Loops

end Till.Backup

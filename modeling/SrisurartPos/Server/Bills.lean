import SrisurartPos.Server.History

/-! # One bill

A bill meets three services: it is sold once, it may be voided by hand, and it may be refunded a
piece at a time. `BillStep` is what a change of the books does to one bill and to the notes against
it; the properties of a bill's life are inductions over it. -/

namespace Server

open Txn

/-! ## What a request takes back -/

/-- The pieces of a product a request wants to return. -/
def requestedQty (lines : List ReturnLine) (p : ProductId) : Int :=
  (lines.map fun l => if l.productId = p then l.qty else 0).sum

/-- The pieces of a product it wants to return at one price. -/
def requestedQtyAt (lines : List ReturnLine) (p : ProductId) (price : Int) : Int :=
  (lines.map fun l => if l.productId = p ∧ l.price = price then l.qty else 0).sum

section
variable (lines : List ReturnLine)

theorem sum_demands (p : ProductId) :
    ((aggregateReturn lines).map fun d => if d.productId = p then d.qty else 0).sum =
      requestedQty lines p := by
  have h := sum_aggregateReturn lines fun q _ => if q = p then 1 else 0
  simp only [ite_mul, one_mul, zero_mul] at h
  exact h

theorem sum_demandsAt (p : ProductId) (price : Int) :
    ((aggregateReturn lines).map fun d =>
      if d.productId = p ∧ d.price = price then d.qty else 0).sum = requestedQtyAt lines p price := by
  have h := sum_aggregateReturn lines fun q pr => if q = p ∧ pr = price then 1 else 0
  simp only [ite_mul, one_mul, zero_mul] at h
  exact h

end

/-- The lines of a note, added up in any way, are the demands it was made from. -/
theorem sum_noteItems (demands : List ReturnDemand) (items : List SaleItem)
    (f : ProductId → Int → Int) :
    ((noteItems demands items).map fun i => f i.productId i.price * i.qty).sum =
      (demands.map fun d => f d.productId d.price * d.qty).sum := by
  rw [noteItems, List.map_map]
  show (demands.zipIdx.map
    ((fun d : ReturnDemand => f d.productId d.price * d.qty) ∘ Prod.fst)).sum = _
  rw [← List.map_map, List.zipIdx_map_fst]

section
variable (dto : ReturnWrite) (sale : Sale) (n : DocNo) (k : Option ShiftId)

theorem refundedQty_noteRow (p : ProductId) :
    refundedQty (noteRow dto sale n k).items p = requestedQty dto.items p := by
  have h := sum_noteItems (aggregateReturn dto.items) sale.items fun q _ => if q = p then 1 else 0
  simp only [ite_mul, one_mul, zero_mul] at h
  rw [← sum_demands]
  exact h

theorem refundedQtyAt_noteRow (p : ProductId) (price : Int) :
    refundedQtyAt (noteRow dto sale n k).items p price = requestedQtyAt dto.items p price := by
  have h := sum_noteItems (aggregateReturn dto.items) sale.items
    fun q pr => if q = p ∧ pr = price then 1 else 0
  simp only [ite_mul, one_mul, zero_mul] at h
  rw [← sum_demandsAt]
  exact h

end

/-! ## Notes add up -/

section
variable (notes : List Return) (note : Return)

theorem noteLines_snoc : noteLines (notes ++ [note]) = noteLines notes ++ note.items := by
  simp [noteLines]

theorem refundedQty_snoc (p : ProductId) : refundedQty (noteLines (notes ++ [note])) p =
    refundedQty (noteLines notes) p + refundedQty note.items p := by
  simp [noteLines_snoc, refundedQty]

theorem refundedQtyAt_snoc (p : ProductId) (price : Int) :
    refundedQtyAt (noteLines (notes ++ [note])) p price =
      refundedQtyAt (noteLines notes) p price + refundedQtyAt note.items p price := by
  simp [noteLines_snoc, refundedQtyAt]

end

theorem refundedQtyAt_nonneg (lines : List ReturnItem) (p : ProductId) (price : Int) :
    0 ≤ refundedQtyAt lines p price := by
  apply List.sum_nonneg
  intro n hn
  obtain ⟨l, -, rfl⟩ := List.mem_map.mp hn
  split
  · exact l.qty_pos.le
  · exact le_refl 0

/-- Where no product is refunded beyond what was sold, the totals agree only when every product has
come back in full. -/
theorem soldTotal_le_iff {items : List SaleItem} {lines : List ReturnItem}
    (hle : ∀ p, refundedQty lines p ≤ soldQty items p) :
    soldTotal items ≤ refundedTotal lines ↔ ∀ p, refundedQty lines p = soldQty items p := by
  constructor
  · intro hge p
    exact Grouping.parts_eq_of_sum_ge ReturnItem.qty SaleItem.qty hle hge p
  · intro hall
    exact Grouping.sum_le_of_parts SaleItem.qty ReturnItem.qty fun p => (hall p).ge

/-! ## What the guard lets through -/

section
variable {items : List SaleItem} {old : List ReturnItem} {lines : List ReturnLine}

/-- A line of goods that come back is on the bill, at its price, and no more of it than is left. -/
theorem fits_of_refundable {demands : List ReturnDemand}
    (h : assertRefundable demands items old = .ok ()) {d : ReturnDemand} (hd : d ∈ demands) :
    onBillAt items d.productId d.price = true ∧ d.qty ≤ remaining items old d := by
  unfold assertRefundable at h
  split at h
  · cases h
  · split at h
    · cases h
    · rename_i _ hover
      rw [not_not, overLines, List.filterMap_eq_nil_iff] at hover
      have hd' := hover d hd
      split at hd'
      · cases hd'
      · rename_i hbill
        split at hd'
        · cases hd'
        · rename_i hqty
          exact ⟨by simpa using hbill, by omega⟩

/-- At each price the guard looks at what is left at that price, and of the product. -/
theorem requestedQtyAt_le (h : assertRefundable (aggregateReturn lines) items old = .ok ())
    (p : ProductId) (price : Int) : requestedQtyAt lines p price = 0 ∨
      requestedQtyAt lines p price ≤ soldQtyAt items p price - refundedQtyAt old p price ∧
        requestedQtyAt lines p price ≤ soldQty items p - refundedQty old p := by
  rw [← sum_demandsAt]
  by_cases hkey : (p, price) ∈ (aggregateReturn lines).map ReturnDemand.key
  · obtain ⟨d, hd, hdkey⟩ := List.mem_map.mp hkey
    obtain ⟨rfl, rfl⟩ := Prod.mk.inj hdkey
    have hsum := Grouping.sum_of_key (nodup_aggregateReturn lines) hd ReturnDemand.qty
    simp only [ReturnDemand.key, Prod.mk.injEq] at hsum
    rw [hsum]
    have hqty := (fits_of_refundable h hd).2
    unfold remaining at hqty
    right
    omega
  · left
    have hsum := Grouping.sum_of_key_notMem hkey ReturnDemand.qty
    simpa only [ReturnDemand.key, Prod.mk.injEq] using hsum

end

/-! ## The steps of a bill -/

/-- The bill a change is about. -/
def Effect.bill : Effect → Option SaleId
  | .sale _ dto          => some dto.id
  | .creditNote _ _ dto  => some dto.saleId
  | .voidSale _ x _      => some x
  | _                    => Option.none

/-- What a change of the books does to the bill `x` and the notes against it. -/
inductive BillStep (x : SaleId) (s s' : Db) : Effect → Prop where
  | other (e : Effect) : e.bill ≠ some x → s'.sales.get x = s.sales.get x →
      s'.notesOf x = s.notesOf x → BillStep x s s' e
  | sold (actor : Actor) (dto : SaleWrite) (row : Sale) : dto.id = x → s.sales.get x = none →
      (∃ n k account locked, row = saleRow dto n k account locked) →
      s'.sales.get x = some row → s'.notesOf x = s.notesOf x → BillStep x s s' (.sale actor dto)
  | byHand (actor : Actor) (reason : String) (sale : Sale) : s.sales.get x = some sale →
      sale.voided = false → s.notesOf x = [] → s'.sales.get x = some (sale.void reason) →
      s'.notesOf x = [] →
      (∀ p, s'.products.get p =
        (s.products.get p).map (Product.addStock (soldQty sale.items p))) →
      BillStep x s s' (.voidSale actor x reason)
  | refunded (actor : Actor) (r : ReturnId) (dto : ReturnWrite) (sale : Sale) (n : DocNo)
      (k : Option ShiftId) : dto.saleId = x → s.sales.get x = some sale → sale.voided = false →
      assertRefundable (aggregateReturn dto.items) sale.items (noteLines (s.notesOf x)) = .ok () →
      s'.notesOf x = s.notesOf x ++ [noteRow dto sale n k] →
      s'.sales.get x = some { sale with
        voided := decide (soldTotal sale.items ≤ refundedTotal (noteLines (s'.notesOf x))) } →
      (∀ p, s'.products.get p =
        (s.products.get p).map (Product.addStock (requestedQty dto.items p))) →
      BillStep x s s' (.creditNote actor r dto)

/-- The bill after a note: voided once everything is back. -/
theorem get_autoVoid {db : Db} {x : SaleId} {sale : Sale} (hx : db.sales.get x = some sale)
    (hlive : sale.voided = false) : (db.autoVoid x sale.items).sales.get x = some { sale with
      voided := decide (soldTotal sale.items ≤ refundedTotal (noteLines (db.notesOf x))) } := by
  unfold Db.autoVoid
  by_cases hlt : refundedTotal (noteLines (db.notesOf x)) < soldTotal sale.items
  · have hno : ¬soldTotal sale.items ≤ refundedTotal (noteLines (db.notesOf x)) := by omega
    simp only [if_pos hlt, hx, hno, decide_false, ← hlive]
  · have hyes : soldTotal sale.items ≤ refundedTotal (noteLines (db.notesOf x)) := by omega
    simp only [if_neg hlt, Table.get_modify_self, hx, Option.map_some, hyes, decide_true]

theorem get_autoVoid_ne {db : Db} {x y : SaleId} (hxy : x ≠ y) (items : List SaleItem) :
    (db.autoVoid y items).sales.get x = db.sales.get x := by
  unfold Db.autoVoid
  dsimp only
  split
  · rfl
  · rw [Table.get_modify_ne _ hxy]

/-- **Every change of the books takes one of the steps of a bill.** -/
theorem Changes.billStep {e : Effect} {s s' : Db} (h : Changes s e s') (x : SaleId) :
    BillStep x s s' e := by
  cases h with
  | none => exact .other _ (by simp [Effect.bill]) rfl rfl
  -- a document of another bill leaves this one, its notes and its goods
  | sale actor dto k row hsrc hadm =>
      by_cases hx : dto.id = x
      · subst hx
        apply BillStep.sold actor dto row rfl hadm.insertable.fresh
        · obtain ⟨n, account, locked, hrow⟩ := hadm.stored
          exact ⟨n, k, account, locked, hrow⟩
        · exact Table.get_insert_self hadm.insertable.fresh row
        · rfl
      · apply BillStep.other _ (by simpa [Effect.bill] using hx)
        · exact Table.get_insert_ne _ (Ne.symm hx) row
        · rfl
  -- the note is filed, then the bill voided where nothing is left
  | creditNote actor r dto sale note hparse hadm hnew =>
      obtain ⟨n, k, rfl⟩ := hadm.stored
      have hnotes : ∀ y, ((s.recordReturn r (noteRow dto sale n k) (aggregateReturn dto.items)
          sale).autoVoid dto.saleId sale.items).notesOf y =
            s.notesOf y ++ if dto.saleId = y then [noteRow dto sale n k] else [] := by
        intro y
        exact notesOf_insertReturn hnew _ y
      by_cases hx : dto.saleId = x
      · subst hx
        apply BillStep.refunded actor r dto sale n k rfl hadm.bill hadm.live hadm.refundable
        · rw [hnotes, if_pos rfl]
        · exact get_autoVoid hadm.bill hadm.live
        · intro p
          rw [← sum_demands, ← shiftOf_returnMoves]
          exact get_products_moveStock _ _ _ _ p
      · apply BillStep.other _ (by simpa [Effect.bill] using hx)
        · exact get_autoVoid_ne (Ne.symm hx) _
        · rw [hnotes, if_neg hx, List.append_nil]
  | voidSale actor y reason sale k hadm =>
      by_cases hx : y = x
      · subst hx
        apply BillStep.byHand actor reason sale hadm.bill hadm.live hadm.noNotes
        · show (s.sales.modify y (Sale.void reason)).get y = _
          rw [Table.get_modify_self, hadm.bill]
          rfl
        · exact hadm.noNotes
        · intro p
          rw [← shiftOf_voidMoves]
          exact get_products_moveStock _ _ _ _ p
      · apply BillStep.other _ (by simpa [Effect.bill] using hx)
        · exact Table.get_modify_ne _ (Ne.symm hx) _
        · rfl
  | creditPayment actor i m dto row hparse hadm hnew =>
      exact .other _ (by simp [Effect.bill]) rfl rfl
  | adjustStock p input row hparse hrow hmax => exact .other _ (by simp [Effect.bill]) rfl rfl
  | receivePo lower i ids po states unmatched hpo hopen hids hstates =>
      exact .other _ (by simp [Effect.bill]) rfl rfl
  | openShift d next openedAt hnew =>
      rw [Db.archiveActive_eq]
      cases next <;> exact .other _ (by simp [Effect.bill]) rfl rfl
  | closeShift d k row cash hrow hopen => exact .other _ (by simp [Effect.bill]) rfl rfl
  | retire s₁ d hclosed => cases hclosed <;> exact .other _ (by simp [Effect.bill]) rfl rfl
  | entry d e entry k row hrow hopen hnew => exact .other _ (by simp [Effect.bill]) rfl rfl
  | editMechanic m patch row hrow halive => exact .other _ (by simp [Effect.bill]) rfl rfl
  | createCustomer c input code hnew => exact .other _ (by simp [Effect.bill]) rfl rfl
  | editCustomer c patch row hrow halive => exact .other _ (by simp [Effect.bill]) rfl rfl

/-- Each effect is one of the few things that can happen to a bill. -/
theorem Performs.billStep {e : Effect} {s s' : Db} (h : Performs e s s') (x : SaleId) :
    BillStep x s s' e := by
  obtain ⟨t, desk, hch, rfl⟩ := h
  have ht := hch.billStep x
  -- the desk holds neither bills nor notes nor goods
  have hnotes : (t.withDesk desk).notesOf x = t.notesOf x := rfl
  cases ht with
  | other e hne hsale hn => exact .other e hne hsale (hnotes.trans hn)
  | sold actor dto row hid hnone hrow hsale hn =>
      exact .sold actor dto row hid hnone hrow hsale (hnotes.trans hn)
  | byHand actor reason sale hx hlive hno hsale hn hstock =>
      exact .byHand actor reason sale hx hlive hno hsale (hnotes.trans hn) hstock
  | refunded actor r dto sale n k hid hx hlive hok hn hsale hstock =>
      exact .refunded actor r dto sale n k hid hx hlive hok (hnotes.trans hn) hsale hstock

end Server

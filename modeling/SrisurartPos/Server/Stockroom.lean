import SrisurartPos.Server.Ledgers
import SrisurartPos.Rounding

/-! # The stockroom (`products.service.ts`, `purchase-orders.service.ts`)

The two ways stock moves without a bill: a manual correction, and the receipt of a purchase
order. -/

namespace Server

open Txn

/-- The largest value of an `INT` column. -/
def int4Max : Int := 2147483647

/-! ## Manual adjustment -/

structure StockAdjustment where
  delta : Int
  type : MovementType
  deriving DecidableEq, Repr

def MovementType.isAdjustment : MovementType → Bool
  | .adjustmentIn | .adjustmentOut => true
  | _                              => false

def parseStockAdjustment (input : StockAdjustment) : Except ServerError Unit :=
  if ¬(-int4Max ≤ input.delta ∧ input.delta ≤ int4Max) then
    .error (.badRequest "delta must be an integer")
  else if input.type.isAdjustment = false then
    .error (.badRequest "type must be one of adjustment-in, adjustment-out")
  else if (input.delta > 0 ∧ input.type = .adjustmentOut) ∨
      (input.delta < 0 ∧ input.type = .adjustmentIn) then
    .error (.badRequest "type does not match the sign of delta")
  else .ok ()

/-- The stock after a correction: what was asked for, clamped at zero. -/
def adjusted (stock delta : Int) : Int := max 0 (stock + delta)

/-- `ProductsService.adjustStock`. The ledger row keeps the delta that was asked for. -/
def adjustStock (p : ProductId) (input : StockAdjustment) : Prog Int := do
  let row ← Tx.selectFor .update (.product p) fun db => db.products.get p
  let row ← Tx.orFail (row.filter fun row => !row.deleted) .productNotFound
  Tx.require (row.stock + input.delta ≤ int4Max) (.badRequest "delta would take stock past INT4_MAX")
  let stockAfter := adjusted row.stock input.delta
  Tx.update fun db => db.modifyProduct p fun row => { row with stock := stockAfter }
  insertMovement ⟨p, input.delta, input.type, stockAfter, none⟩
  Tx.update fun db => db.addAudit ⟨.stockAdjust, p, none⟩
  return stockAfter

/-! ## Receiving a purchase order -/

/-- The moving average in satang, rounded half up. A line without a cost keeps the old one. -/
def weightedAverageCost (oldStock oldCost newQty lineCost : Int) : Int :=
  let effective := if lineCost > 0 then lineCost else oldCost
  let totalQty := oldStock + newQty
  if totalQty ≤ 0 then effective
  else ((oldStock * oldCost + newQty * effective) * 2 + totalQty) / (2 * totalQty)

/-- A locked product as the lines of the order leave it. -/
structure Running where
  id : ProductId
  partNo : String
  stock : Int
  cost : Int
  delta : Int
  deriving DecidableEq, Repr

/-- The products with one of these part numbers, by id. Part numbers are compared by the database's
`lower`, among the rows that are not deleted. -/
def matching (lower : String → String) (partNos : List String) (db : Db) : List ProductId :=
  ((db.products.rows.filter fun e =>
    !e.2.deleted && decide (lower e.2.partNo ∈ partNos.map lower)).map Prod.fst).insertionSort (· ≤ ·)

/-- The locked row, when it still is one the query asks for. -/
def runningOf (lower : String → String) (partNos : List String) (p : ProductId) (db : Db) :
    Option Running :=
  match db.products.get p with
  | none     => none
  | some row =>
      if row.deleted = false ∧ lower row.partNo ∈ partNos.map lower then
        some ⟨p, row.partNo, row.stock, row.cost, 0⟩
      else none

def Running.receive (line : PoLine) (r : Running) : Running :=
  { r with
    cost := weightedAverageCost r.stock r.cost line.qty line.cost
    stock := r.stock + line.qty
    delta := r.delta + line.qty }

/-- One line applied to the stock and cost the previous lines left, or added to the unmatched. -/
def receiveLine (lower : String → String) (acc : List Running × List String) (line : PoLine) :
    Except ServerError (List Running × List String) :=
  -- the last one wins, as in the source's `byKey` map
  match (acc.1.filter fun r => lower r.partNo = lower line.partNo).getLast? with
  | none       => .ok (acc.1, acc.2 ++ [line.partNo])
  | some state =>
      if state.stock + line.qty > int4Max then
        .error (.badRequest "receiving would take stock past INT4_MAX")
      else
        .ok (acc.1.map fun r => if r.id = state.id then r.receive line else r, acc.2)

/-- The new stock and cost of one product, and its ledger row. -/
def receiveOne (i : PoId) (r : Running) : Prog Unit := do
  let row ← Tx.updateReturning (.product r.id)
    (fun db => db.modifyProduct r.id fun row => { row with stock := r.stock, cost := r.cost })
    fun db => db.products.get r.id
  let _ ← Tx.orFail row .vanished
  insertMovement ⟨r.id, r.delta, .receive, r.stock, some i⟩

/-- `PurchaseOrdersService.receive` -/
def receive (env : Env) (i : PoId) : Prog ReceiveResult := do
  let po ← Tx.selectFor .update (.po i) fun db => db.purchaseOrders.get i
  let po ← Tx.orFail po .poNotFound
  Tx.require (po.status ≠ .received) .poAlreadyReceived
  Tx.require (po.status ≠ .cancelled) .poCancelled
  let partNos := po.lines.map (·.partNo)
  let ids ← Tx.glance (matching env.lower partNos)
  let locked ← Tx.selectAll .update .product (runningOf env.lower partNos) ids
  let (states, unmatched) ← Tx.ofExcept
    (po.lines.foldlM (receiveLine env.lower) (locked.filterMap id, []))
  let touched := states.filter fun r => decide (r.delta > 0)
  Tx.forEach touched (receiveOne i)
  Tx.update fun db => db.modifyPo i fun po => { po with status := .received }
  Tx.update fun db => db.addAudit ⟨.poReceive, i, none⟩
  return ⟨i, touched.map fun r => (r.id, r.stock, r.cost), unmatched⟩

/-! ## What they do -/

/-- The database once the stock of `p` is corrected, with the ledger row that says so. -/
def Db.adjustStock (p : ProductId) (input : StockAdjustment) (db : Db) : Db :=
  { db with
    products := db.products.modify p fun row => { row with stock := adjusted row.stock input.delta }
    movements := db.movements ++ ((db.products.get p).map fun row =>
      ⟨p, input.delta, input.type, adjusted row.stock input.delta, none⟩).toList }

/-- What `ProductsService.adjustStock` does. -/
inductive StockAdjusted (p : ProductId) (input : StockAdjustment) (s : Db) : Int → Db → Prop where
  | written (row : Product) : s.products.get p = some row → row.stock + input.delta ≤ int4Max →
      StockAdjusted p input s (adjusted row.stock input.delta)
        ((s.adjustStock p input).addAudit ⟨.stockAdjust, p, none⟩)

/-- The database once `r.delta` pieces are on the shelf, at their new cost. -/
def Db.receiveOne (i : PoId) (db : Db) (r : Running) : Db :=
  { db with
    products := db.products.modify r.id fun row =>
      { row with stock := row.stock + r.delta, cost := r.cost }
    movements := db.movements ++ ((db.products.get r.id).map fun row =>
      ⟨r.id, r.delta, .receive, row.stock + r.delta, some i⟩).toList }

def Db.receiveAll (i : PoId) (touched : List Running) (db : Db) : Db :=
  let moved := touched.foldl (Db.receiveOne i) db
  { db with products := moved.products, movements := moved.movements }

/-- The database once the order is received. -/
def Db.receivePo (i : PoId) (touched : List Running) (db : Db) : Db :=
  { db.receiveAll i touched with
    purchaseOrders := db.purchaseOrders.modify i fun po => { po with status := .received } }

/-- What the order's lines make of the products found for them. -/
def receipt (lower : String → String) (po : PurchaseOrder) (ids : List ProductId) (db : Db) :
    Except ServerError (List Running × List String) :=
  po.lines.foldlM (receiveLine lower)
    (ids.filterMap fun p => runningOf lower (po.lines.map (·.partNo)) p db, [])

/-- What `PurchaseOrdersService.receive` does with the products it has found. -/
inductive GoodsReceived (lower : String → String) (i : PoId) (s : Db) : ReceiveResult → Db → Prop where
  | written (po : PurchaseOrder) (ids : List ProductId) (states : List Running)
      (unmatched : List String) : s.purchaseOrders.get i = some po → po.status = .opened →
      ids.Nodup → receipt lower po ids s = .ok (states, unmatched) →
      GoodsReceived lower i s
        ⟨i, (states.filter fun r => decide (r.delta > 0)).map fun r => (r.id, r.stock, r.cost),
          unmatched⟩
        ((s.receivePo i (states.filter fun r => decide (r.delta > 0))).addAudit ⟨.poReceive, i, none⟩)

/-! ### The running stock -/

/-- The running stock is the row's stock and what has come in. -/
def Running.Counts (s : Db) (r : Running) : Prop :=
  ∃ row, s.products.get r.id = some row ∧ r.stock = row.stock + r.delta

section
variable {lower : String → String} {s : Db}

/-- A line of an order changes the running row of its product alone, and a row that counts goes on counting. -/
theorem receiveLine_ok {acc acc' : List Running × List String} {line : PoLine}
    (h : receiveLine lower acc line = .ok acc') :
    acc'.1.map (·.id) = acc.1.map (·.id) ∧
      ((∀ r ∈ acc.1, r.Counts s) → ∀ r ∈ acc'.1, r.Counts s) := by
  rw [receiveLine] at h
  split at h
  · obtain rfl := Except.ok.inj h
    exact ⟨rfl, id⟩
  · rename_i state _
    split at h
    · cases h
    · obtain rfl := Except.ok.inj h
      refine ⟨?_, fun hall r hr => ?_⟩
      · rw [List.map_map]
        refine List.map_congr_left fun r _ => ?_
        by_cases hid : r.id = state.id <;> simp [hid, Running.receive]
      · obtain ⟨r₀, hr₀, rfl⟩ := List.mem_map.mp hr
        obtain ⟨row, hrow, hstock⟩ := hall r₀ hr₀
        by_cases hid : r₀.id = state.id
        · rw [if_pos hid]
          exact ⟨row, hrow, by simp only [Running.receive]; omega⟩
        · rw [if_neg hid]
          exact ⟨row, hrow, hstock⟩

/-- The same for all lines of the order. -/
theorem receiveLines_ok {lines : List PoLine} {acc acc' : List Running × List String}
    (h : lines.foldlM (receiveLine lower) acc = .ok acc') :
    acc'.1.map (·.id) = acc.1.map (·.id) ∧
      ((∀ r ∈ acc.1, r.Counts s) → ∀ r ∈ acc'.1, r.Counts s) := by
  induction lines generalizing acc with
  | nil =>
      obtain rfl := Except.ok.inj h
      exact ⟨rfl, id⟩
  | cons line lines ih =>
      rw [List.foldlM_cons] at h
      cases hline : receiveLine lower acc line with
      | error e =>
          rw [hline] at h
          cases h
      | ok acc₁ =>
          rw [hline] at h
          have h₁ := receiveLine_ok (s := s) hline
          have h₂ := ih h
          exact ⟨h₂.1.trans h₁.1, fun hall => h₂.2 (h₁.2 hall)⟩

theorem receiveLine_expected {acc : List Running × List String} {line : PoLine} {e : ServerError}
    (h : receiveLine lower acc line = .error e) : Expected e := by
  rw [receiveLine] at h
  split at h
  · cases h
  · split at h
    · obtain rfl := Except.error.inj h
      rfl
    · cases h

/-- Where the lines are refused, it is a refusal that the service answers. -/
theorem receiveLines_expected {lines : List PoLine} {acc : List Running × List String}
    {e : ServerError} (h : lines.foldlM (receiveLine lower) acc = .error e) : Expected e := by
  induction lines generalizing acc with
  | nil => cases h
  | cons line lines ih =>
      rw [List.foldlM_cons] at h
      cases hline : receiveLine lower acc line with
      | error e' =>
          rw [hline] at h
          obtain rfl := Except.error.inj h
          exact receiveLine_expected hline
      | ok acc₁ =>
          rw [hline] at h
          exact ih h

theorem runningOf_eq_some {partNos : List String} {p : ProductId} {r : Running}
    (h : runningOf lower partNos p s = some r) : r.id = p ∧ r.Counts s := by
  rw [runningOf] at h
  split at h
  · cases h
  · rename_i row hrow
    split at h
    · obtain rfl := Option.some.inj h
      exact ⟨rfl, row, hrow, (add_zero _).symm⟩
    · cases h

/-- The running rows are those of products that were locked, each of them once. -/
theorem keys_running (partNos : List String) (ids : List ProductId) :
    ((ids.filterMap fun p => runningOf lower partNos p s).map (·.id)).Sublist ids := by
  induction ids with
  | nil => exact List.Sublist.refl _
  | cons p ids ih =>
      cases hp : runningOf lower partNos p s with
      | none =>
          simp only [List.filterMap_cons, hp]
          exact ih.cons p
      | some r =>
          simp only [List.filterMap_cons, hp, List.map_cons, (runningOf_eq_some hp).1]
          exact ih.cons_cons p

/-- The products a receipt touches are different ones, and each of them is there. -/
theorem receipt_ok {po : PurchaseOrder} {ids : List ProductId} {states : List Running}
    {unmatched : List String} (hids : ids.Nodup)
    (h : receipt lower po ids s = .ok (states, unmatched)) :
    (states.map (·.id)).Nodup ∧ ∀ r ∈ states, r.Counts s := by
  obtain ⟨hkeys, hcounts⟩ := receiveLines_ok (s := s) h
  refine ⟨hkeys ▸ (keys_running _ ids).nodup hids, hcounts fun r hr => ?_⟩
  obtain ⟨p, -, hp⟩ := List.mem_filterMap.mp hr
  exact (runningOf_eq_some hp).2

end

/-! ### The loop over the products -/

section
variable (i : PoId) (s : Db)

theorem receiveAll_snoc (touched : List Running) (r : Running) :
    s.receiveAll i (touched ++ [r]) = (s.receiveAll i touched).receiveOne i r := by
  rw [Db.receiveAll, Db.receiveAll, List.foldl_append]
  rfl

/-- A product that no line names keeps its row and its movements. -/
theorem receiveAll_ne {p : ProductId} {touched : List Running} (hp : p ∉ touched.map (·.id)) :
    (s.receiveAll i touched).products.get p = s.products.get p ∧
      (s.receiveAll i touched).movementsOf p = s.movementsOf p := by
  induction touched using List.reverseRecOn with
  | nil => exact ⟨rfl, rfl⟩
  | append_singleton touched r ih =>
      rw [List.map_append, List.mem_append, not_or] at hp
      obtain ⟨hget, hmov⟩ := ih hp.1
      have hne : p ≠ r.id := by simpa using hp.2
      rw [receiveAll_snoc]
      refine ⟨?_, ?_⟩
      · rw [← hget]
        exact Table.get_modify_ne _ hne _
      · rw [← hmov]
        simp only [Db.movementsOf, Db.receiveOne, List.filter_append]
        rw [List.append_right_eq_self, List.filter_eq_nil_iff]
        intro mv hmv
        rw [Option.mem_toList, Option.map_eq_some_iff] at hmv
        obtain ⟨row, -, rfl⟩ := hmv
        simpa using Ne.symm hne

end

theorem mem_movements_receiveAll {i : PoId} {touched : List Running} {s : Db} {mv : Movement}
    (h : mv ∈ (s.receiveAll i touched).movements) :
    mv ∈ s.movements ∨ mv.type = .receive ∧ mv.refId = some i := by
  induction touched using List.reverseRecOn with
  | nil => exact .inl h
  | append_singleton touched r ih =>
      rw [receiveAll_snoc] at h
      rcases List.mem_append.mp h with h | h
      · exact ih h
      · obtain ⟨row, -, rfl⟩ := Option.map_eq_some_iff.mp (Option.mem_toList.mp h)
        exact .inr ⟨rfl, rfl⟩

/-! ### The specifications -/

section
variable {H : Held LockKey} {s s' : Db}

theorem Covered.receiveOne (h : Covered agree H s s') {i : PoId} {r : Running}
    (hp : (.product r.id, .update) ∈ H) : Covered agree H s (s'.receiveOne i r) := by
  have hmod := Covered.modifyProduct h hp fun row =>
    { row with stock := row.stock + r.delta, cost := r.cost }
  cases hrow : s'.products.get r.id with
  | none => simpa [Db.receiveOne, Db.modifyProduct, hrow] using hmod
  | some row =>
      have hadd : Covered agree H s (Db.addMovement _
          ⟨r.id, r.delta, .receive, row.stock + r.delta, some i⟩) := Covered.addMovement hmod hp
      simpa [Db.receiveOne, Db.modifyProduct, Db.addMovement, hrow] using hadd

/-- One product is written under its lock, with its movement. -/
theorem wp_receiveOne {i : PoId} {r : Running} {Q : Unit → Held LockKey → Db → Prop}
    (hfree : s.movementTaken .receive i r.id = false) (hr : r.Counts s)
    (h : Q () ((.product r.id, .update) :: H) (s.receiveOne i r)) :
    wp (receiveOne i r) H s Expected Q := by
  obtain ⟨row, hrow, hstock⟩ := hr
  have hproducts : s.products.modify r.id
      (fun row => { row with stock := r.stock, cost := r.cost }) =
      s.products.modify r.id fun row => { row with stock := row.stock + r.delta, cost := r.cost } :=
    Table.modify_congr fun v hv => by
      obtain rfl : row = v := by simpa [hrow] using hv
      simp [hstock]
  have hout : s.receiveOne i r =
      (s.modifyProduct r.id fun row => { row with stock := r.stock, cost := r.cost }).addMovement
        ⟨r.id, r.delta, .receive, r.stock, some i⟩ := by
    simp only [Db.receiveOne, Db.modifyProduct, Db.addMovement, hproducts, hrow]
    simp [hstock]
  refine wp_bind_updateReturning (wp_bind_orFail (fun _ _ => ?_) fun _ => rfl)
  exact wp_insertMovement hfree (hout ▸ h)

/-- All products of an order are written, each under its lock. -/
theorem wp_receiveAll {i : PoId} {touched : List Running} {Q : Unit → Held LockKey → Db → Prop}
    (hkeys : (touched.map (·.id)).Nodup) (hcounts : ∀ r ∈ touched, r.Counts s)
    (hfree : ∀ p, s.movementTaken .receive i p = false)
    (h : ∀ H', H ⊆ H' → Covered agree H' s (s.receiveAll i touched) →
      Q () H' (s.receiveAll i touched)) :
    wp (Tx.forEach touched (receiveOne i)) H s Expected Q := by
  refine wp_forEach (fun rest H₁ s₁ => ∃ done, done ++ rest = touched ∧
    s₁ = s.receiveAll i done ∧ H ⊆ H₁ ∧ Covered agree H₁ s s₁)
    ⟨[], rfl, rfl, List.Subset.refl _, Covered.refl _ _⟩ ?_ ?_
  · rintro r rest H₁ s₁ ⟨done, hdone, rfl, hH, hcov⟩
    have hr : r.id ∉ done.map (·.id) := by
      rw [← hdone, List.map_append, List.nodup_append] at hkeys
      exact fun hmem => hkeys.2.2 _ hmem _ List.mem_cons_self rfl
    obtain ⟨hget, hmov⟩ := receiveAll_ne i s hr
    refine wp_receiveOne ?_ ?_ ⟨done ++ [r], by simpa using hdone, ?_, ?_, ?_⟩
    · rw [Db.movementTaken, hmov]
      exact hfree r.id
    · rw [Running.Counts, hget]
      exact hcounts r (hdone ▸ List.mem_append_right _ List.mem_cons_self)
    · rw [receiveAll_snoc]
    · exact List.Subset.trans hH (List.subset_cons_self _ _)
    · exact Covered.receiveOne (Covered.mono hcov (List.subset_cons_self _ _)) List.mem_cons_self
  · rintro H' s' ⟨done, hdone, rfl, hH, hcov⟩
    rw [List.append_nil] at hdone
    subst hdone
    exact h H' hH hcov

/-- The end of a receipt, whatever products it has found. -/
theorem wp_receiveFound (hs : s.Consistent) {lower : String → String} {i : PoId}
    {po : PurchaseOrder} {ids : List ProductId} (hpo : s.purchaseOrders.get i = some po)
    (hopen : po.status = .opened) (hids : ids.Nodup) (hheld : (.po i, .update) ∈ H) :
    wp ((do
      let locked ← Tx.selectAll .update .product (runningOf lower (po.lines.map (·.partNo))) ids
      let (states, unmatched) ← Tx.ofExcept
        (po.lines.foldlM (receiveLine lower) (locked.filterMap id, []))
      let touched := states.filter fun r => decide (r.delta > 0)
      Tx.forEach touched (receiveOne i)
      Tx.update fun db => db.modifyPo i fun po => { po with status := .received }
      Tx.update fun db => db.addAudit ⟨.poReceive, i, none⟩
      return ⟨i, touched.map fun r => (r.id, r.stock, r.cost), unmatched⟩ : Prog ReceiveResult))
      H s Expected fun r H' s' => (∃ states unmatched,
        receipt lower po ids s = .ok (states, unmatched) ∧
        r = ⟨i, (states.filter fun r => decide (r.delta > 0)).map fun r => (r.id, r.stock, r.cost),
          unmatched⟩ ∧
        s' = (s.receivePo i (states.filter fun r => decide (r.delta > 0))).addAudit
          ⟨.poReceive, i, none⟩) ∧ Covered agree H' s s' := by
  refine wp_bind_selectAll (wp_bind_ofExcept ?_ fun e he => receiveLines_expected he)
  rintro ⟨states, unmatched⟩ hstates
  rw [List.filterMap_map, Function.id_comp] at hstates
  obtain ⟨hkeys, hcounts⟩ := receipt_ok hids hstates
  have hnew : po.status ≠ .received := by
    rw [hopen]
    decide
  have hsub : (states.filter fun r => decide (r.delta > 0)).Sublist states := List.filter_sublist
  refine (wp_bind _ _).mpr (wp_receiveAll ((hsub.map _).nodup hkeys)
    (fun r hr => hcounts r (hsub.subset hr)) (fun p => hs.receive_free hpo hnew p)
    fun H' hH hcov => ?_)
  have hmem : (.po i, .update) ∈ H' := hH (mem_lockAll.mpr (.inl hheld))
  refine ⟨⟨states, unmatched, hstates, rfl, rfl⟩, ?_⟩
  refine Covered.of_view ?_ fun lk db => view_addAudit lk db ⟨.poReceive, i, none⟩
  exact Covered.modifyPo hcov hmem fun po => { po with status := .received }

/-- An order that is neither received nor cancelled is open. -/
theorem opened_of_ne {po : PurchaseOrder} (hrec : po.status ≠ .received)
    (hcan : po.status ≠ .cancelled) : po.status = .opened := by
  cases hst : po.status with
  | opened => rfl
  | received => exact absurd hst hrec
  | cancelled => exact absurd hst hcan

theorem nodup_matching (lower : String → String) (partNos : List String) (s : Db) :
    (matching lower partNos s).Nodup :=
  (List.perm_insertionSort _ _).nodup_iff.mpr ((List.filter_sublist.map _).nodup s.products.nodup)

/-- **Specification of a receipt.** -/
theorem wp_receive (hs : s.Consistent) {env : Env} {i : PoId} :
    wp (receive env i) H s Expected fun r H' s' =>
      GoodsReceived env.lower i s r s' ∧ Covered agree H' s s' := by
  refine wp_bind_selectFor (wp_bind_orFail (fun po hpo => ?_) fun _ => rfl)
  refine wp_bind_require (fun hrec => ?_) fun _ => rfl
  refine wp_bind_require (fun hcan => ?_) fun _ => rfl
  have hopen := opened_of_ne hrec hcan
  refine wp_bind_glance fun s₀ => ?_
  have hids := nodup_matching env.lower (po.lines.map (·.partNo)) s₀
  refine wp_mono (wp_receiveFound hs hpo hopen hids List.mem_cons_self) (fun _ h => h) ?_
  rintro r H' s' ⟨⟨states, unmatched, hstates, rfl, rfl⟩, hcov⟩
  exact ⟨.written po _ states unmatched hpo hopen hids hstates, hcov⟩

/-- **The specification of a stock adjustment.** -/
theorem wp_adjustStock {p : ProductId} {input : StockAdjustment} :
    wp (adjustStock p input) H s Expected fun r H' s' =>
      StockAdjusted p input s r s' ∧ Covered agree H' s s' := by
  refine wp_bind_selectFor (wp_bind_orFail (fun row hrow => ?_) fun _ => rfl)
  obtain ⟨hget, -⟩ := Option.filter_eq_some_iff.mp hrow
  refine wp_bind_require (fun hmax => ?_) fun _ => rfl
  refine wp_bind_update ((wp_bind _ _).mpr (wp_insertMovement rfl ?_))
  have hproducts : s.products.modify p
      (fun r => { r with stock := adjusted row.stock input.delta }) =
      s.products.modify p fun r => { r with stock := adjusted r.stock input.delta } :=
    Table.modify_congr fun v hv => by
      obtain rfl : row = v := by simpa [hget] using hv
      rfl
  have hout : s.adjustStock p input =
      (s.modifyProduct p fun r => { r with stock := adjusted row.stock input.delta }).addMovement
        ⟨p, input.delta, input.type, adjusted row.stock input.delta, none⟩ := by
    simp [Db.adjustStock, Db.modifyProduct, Db.addMovement, hproducts, hget]
  refine ⟨hout ▸ .written row hget hmax, ?_⟩
  refine Covered.of_view ?_ fun lk db => view_addAudit lk db ⟨.stockAdjust, p, none⟩
  exact Covered.addMovement (Covered.modifyProduct (Covered.refl _ _) List.mem_cons_self _)
    List.mem_cons_self

/-! ## Their locks -/

theorem disciplined_receiveOne (i : PoId) (r : Running) :
    Disciplined agree (receiveOne i r) H fun _ _ => True := by
  refine disciplined_bind_updateReturning (respects_modifyProduct _ _) product_of_agree fun row => ?_
  exact disciplined_bind_orFail fun _ _ => disciplined_insertMovement List.mem_cons_self

theorem disciplined_receive (env : Env) (i : PoId) :
    Disciplined agree (receive env i) H fun _ _ => True := by
  refine disciplined_bind_selectFor (fun s s' hs => View.po.inj hs) fun po => ?_
  refine disciplined_bind_orFail fun po _ => ?_
  refine disciplined_bind_require fun _ => disciplined_bind_require fun _ => ?_
  refine disciplined_bind_glance fun ids => disciplined_bind_selectAll ?_ fun locked => ?_
  · intro p _ s s' hs
    rw [runningOf, runningOf, product_of_agree s s' hs]
  refine disciplined_bind_ofExcept fun out _ => ?_
  refine Disciplined.seq (disciplined_forEach (Q := fun _ _ => True) (fun _ => True) trivial
    (fun r _ _ => disciplined_receiveOne i r) fun _ _ => trivial) fun _ H' hH _ => ?_
  refine ⟨respects_modifyPo _ _, ?_, trivial⟩
  exact respects_of_view fun lk db => view_addAudit _ _ _

theorem disciplined_adjustStock (p : ProductId) (input : StockAdjustment) :
    Disciplined agree (adjustStock p input) H fun _ _ => True := by
  refine disciplined_bind_selectFor product_of_agree fun row => ?_
  refine disciplined_bind_orFail fun row _ => disciplined_bind_require fun _ => ?_
  refine disciplined_bind_update (respects_modifyProduct _ _) ?_
  refine Disciplined.seq (disciplined_insertMovement List.mem_cons_self) fun _ _ _ _ => ?_
  exact ⟨respects_of_view fun lk db => view_addAudit _ _ _, trivial⟩

end

end Server

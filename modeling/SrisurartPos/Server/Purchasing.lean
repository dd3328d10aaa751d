import SrisurartPos.Server.StockLedger
import SrisurartPos.Txn.Constant
import SrisurartPos.Txn.Schedule

/-! # The purchase orders' desk (`purchase-orders.service.ts`, `weighted-average.ts`)

Orders are received, cancelled and deleted by requests that lock the order first, while the server
sells the goods. A receipt goes through the lines in their order; each line finds the stock and the
cost the lines before it have left. -/

namespace Server

open Txn

/-! ## The other two requests -/

def PurchaseOrder.cancel (po : PurchaseOrder) : PurchaseOrder := { po with status := .cancelled }

def Db.erasePo (i : PoId) (db : Db) : Db := { db with purchaseOrders := db.purchaseOrders.erase i }

/-- `PurchaseOrdersService.cancel`. A cancelled order is answered as it is. -/
def cancelPo (i : PoId) : Prog PurchaseOrder := do
  let po ← Tx.selectFor .update (.po i) fun db => db.purchaseOrders.get i
  let po ← Tx.orFail po .poNotFound
  Tx.require (po.status ≠ .received) .poAlreadyReceived
  if po.status = .opened then do
    let row ← Tx.updateReturning (.po i) (fun db => db.modifyPo i PurchaseOrder.cancel)
      fun db => db.purchaseOrders.get i
    Tx.orFail row .vanished
  else return po

/-- `PurchaseOrdersService.delete`. An order that is not there is answered as deleted. -/
def deletePo (i : PoId) : Prog Unit := do
  let po ← Tx.selectFor .update (.po i) fun db => db.purchaseOrders.get i
  Tx.require (po.any (·.status = .received) = false) .poAlreadyReceived
  Tx.whenever (po.isSome = true) (Tx.update fun db => db.erasePo i)

/-- Everything of the server, and the two requests. Their idempotency keys, which only answer
repeats, are left out. -/
inductive OrderOp where
  | server (op : Op)
  | cancel (i : PoId)
  | delete (i : PoId)

inductive OrderReply where
  | server (r : Reply)
  | order (i : PoId) (po : PurchaseOrder)
  | deleted (i : PoId)

def ordersProg : OrderOp → Prog OrderReply
  | .server op => do
      let r ← prog op
      return .server r
  | .cancel i => do
      let po ← cancelPo i
      return .order i po
  | .delete i => do
      deletePo i
      return .deleted i

/-! ## The moving average -/

/-- What a line is averaged with: its cost, or without one the cost on the shelf. -/
def PoLine.effectiveCost (line : PoLine) (cost : Int) : Int := if line.cost > 0 then line.cost else cost

/-- The stock of a product and its cost, in satang. -/
structure Shelf where
  stock : Int
  cost : Int
  deriving DecidableEq, Repr

def Shelf.receive (shelf : Shelf) (line : PoLine) : Shelf :=
  ⟨shelf.stock + line.qty, weightedAverageCost shelf.stock shelf.cost line.qty line.cost⟩

/-- The shelf once some lines are received, one after the other. -/
def Shelf.after (shelf : Shelf) (lines : List PoLine) : Shelf := lines.foldl Shelf.receive shelf

def Product.shelf (row : Product) : Shelf := ⟨row.stock, row.cost⟩

/-- The exact average. -/
def Shelf.average (shelf : Shelf) (line : PoLine) : ℚ :=
  (shelf.stock * shelf.cost + line.qty * line.effectiveCost shelf.cost) / (shelf.stock + line.qty)

/-- What one line does: its pieces are added, and the cost moves to the average of the two costs, to
within half a satang and never past either of them. A line without a cost leaves it. -/
structure Averaged (line : PoLine) (was new : Shelf) : Prop where
  stock : new.stock = was.stock + line.qty
  close : |(new.cost : ℚ) - was.average line| ≤ 1 / 2
  lower : min was.cost (line.effectiveCost was.cost) ≤ new.cost
  upper : new.cost ≤ max was.cost (line.effectiveCost was.cost)
  free : line.cost ≤ 0 → new.cost = was.cost

theorem weightedAverageCost_eq {shelf : Shelf} {line : PoLine} (h : 0 < shelf.stock + line.qty) :
    weightedAverageCost shelf.stock shelf.cost line.qty line.cost =
      Rounding.roundDiv (shelf.stock * shelf.cost + line.qty * line.effectiveCost shelf.cost)
        (shelf.stock + line.qty) := by
  unfold weightedAverageCost Rounding.roundDiv PoLine.effectiveCost
  rw [if_neg (by omega)]
  congr 1
  ring

/-- **One line.** -/
theorem averaged_receive {shelf : Shelf} (hstock : 0 ≤ shelf.stock) (line : PoLine) :
    Averaged line shelf (shelf.receive line) := by
  have hqty := line.qty_pos
  have htotal : 0 < shelf.stock + line.qty := by omega
  have hcost : (shelf.receive line).cost = Rounding.roundDiv
      (shelf.stock * shelf.cost + line.qty * line.effectiveCost shelf.cost)
        (shelf.stock + line.qty) := weightedAverageCost_eq htotal
  refine ⟨rfl, ?_, ?_, ?_, fun hfree => ?_⟩
  · rw [hcost, Shelf.average]
    have := Rounding.abs_roundDiv_sub_le
      (n := shelf.stock * shelf.cost + line.qty * line.effectiveCost shelf.cost) htotal
    exact_mod_cast this
  · rw [hcost]
    apply Rounding.le_roundDiv_of_le htotal
    have h₁ := mul_le_mul_of_nonneg_left
      (min_le_left shelf.cost (line.effectiveCost shelf.cost)) hstock
    have h₂ := mul_le_mul_of_nonneg_left
      (min_le_right shelf.cost (line.effectiveCost shelf.cost)) hqty.le
    linarith
  · rw [hcost]
    apply Rounding.roundDiv_le_of_le htotal
    have h₁ := mul_le_mul_of_nonneg_left
      (le_max_left shelf.cost (line.effectiveCost shelf.cost)) hstock
    have h₂ := mul_le_mul_of_nonneg_left
      (le_max_right shelf.cost (line.effectiveCost shelf.cost)) hqty.le
    linarith
  · have heff : line.effectiveCost shelf.cost = shelf.cost := if_neg (by omega)
    rw [hcost, heff, ← add_mul, mul_comm, Rounding.roundDiv_mul htotal]

section
variable (shelf : Shelf)

theorem after_append (lines lines' : List PoLine) :
    shelf.after (lines ++ lines') = (shelf.after lines).after lines' := List.foldl_append

theorem stock_after (lines : List PoLine) :
    (shelf.after lines).stock = shelf.stock + (lines.map (·.qty)).sum := by
  induction lines generalizing shelf with
  | nil => simp [Shelf.after]
  | cons line lines ih =>
      show ((shelf.receive line).after lines).stock = _
      rw [ih, List.map_cons, List.sum_cons, Shelf.receive]
      ring

/-- **Line by line**, wherever in the order the line stands. -/
theorem averaged_after (hstock : 0 ≤ shelf.stock) (done : List PoLine) (line : PoLine) :
    Averaged line (shelf.after done) (shelf.after (done ++ [line])) := by
  rw [after_append]
  apply averaged_receive
  rw [stock_after]
  have hpos : 0 ≤ (done.map (·.qty)).sum :=
    List.sum_nonneg fun q hq => by
      obtain ⟨l, -, rfl⟩ := List.mem_map.mp hq
      exact l.qty_pos.le
  omega

end

/-! ## Which product a line is received into -/

/-- The product for sale with this part number, up to case. The unique index allows one; of several
the last by id would do. -/
def Db.takes (db : Db) (lower : String → String) (partNo : String) : Option ProductId :=
  (matching lower [partNo] db).getLast?

/-- The lines of an order that are received into the product. -/
def Db.linesFor (db : Db) (lower : String → String) (lines : List PoLine) (p : ProductId) :
    List PoLine := lines.filter fun line => db.takes lower line.partNo = some p

section
variable {lower : String → String} {s s' : Db} {partNos : List String} {p : ProductId}

theorem mem_matching : p ∈ matching lower partNos s ↔ ∃ row, s.products.get p = some row ∧
    row.deleted = false ∧ lower row.partNo ∈ partNos.map lower := by
  rw [matching, List.mem_insertionSort, List.mem_map]
  constructor
  · rintro ⟨⟨p, row⟩, he, rfl⟩
    obtain ⟨hmem, hcond⟩ := List.mem_filter.mp he
    refine ⟨row, s.products.mem_rows.mp hmem, ?_⟩
    simpa using hcond
  · rintro ⟨row, hrow, hlive, hname⟩
    refine ⟨(p, row), List.mem_filter.mpr ⟨s.products.mem_rows.mpr hrow, ?_⟩, rfl⟩
    simpa [hlive] using hname

theorem sorted_matching (lower : String → String) (partNos : List String) (s : Db) :
    (matching lower partNos s).Pairwise (· ≤ ·) := List.pairwise_insertionSort _ _

/-- The products found for one of the order's part numbers are found for the order. -/
theorem filter_matching {partNo : String} (h : partNo ∈ partNos) :
    (matching lower partNos s).filter (fun p => decide (p ∈ matching lower [partNo] s)) =
      matching lower [partNo] s := by
  have hnodup := nodup_matching lower partNos s
  refine List.Perm.eq_of_pairwise (fun a b _ _ => Nat.le_antisymm)
    ((sorted_matching lower partNos s).filter _) (sorted_matching lower [partNo] s) ?_
  rw [List.perm_ext_iff_of_nodup (hnodup.filter _) (nodup_matching _ _ _)]
  intro p
  rw [List.mem_filter, decide_eq_true_iff, and_iff_right_iff_imp]
  intro hp
  obtain ⟨row, hrow, hlive, hname⟩ := mem_matching.mp hp
  have heq : lower row.partNo = lower partNo := by simpa using hname
  exact mem_matching.mpr ⟨row, hrow, hlive, heq ▸ List.mem_map_of_mem h⟩

theorem mem_of_takes {partNo : String} (h : s.takes lower partNo = some p) :
    p ∈ matching lower [partNo] s := List.mem_of_getLast? h

theorem linesFor_snoc (lines : List PoLine) (line : PoLine) :
    s.linesFor lower (lines ++ [line]) p = s.linesFor lower lines p ++
      if s.takes lower line.partNo = some p then [line] else [] := by
  rw [Db.linesFor, List.filter_append, List.filter_singleton]
  split <;> simp_all [Db.linesFor]

end

/-! ## The loop over the lines -/

/-- The running state of a product is its row with the lines so far that are received into it. -/
def Running.Follows (lower : String → String) (s : Db) (done : List PoLine) (r : Running) : Prop :=
  ∃ row, s.products.get r.id = some row ∧ row.partNo = r.partNo ∧
    row.shelf.after (s.linesFor lower done r.id) = ⟨r.stock, r.cost⟩ ∧
      ((s.linesFor lower done r.id).map (·.qty)).sum = r.delta

section
variable {lower : String → String} {s : Db} {partNos : List String}

/-- Among the running products of an order, the one `receiveLine` picks is the one the line is
received into. -/
theorem last_running {done : List PoLine} {running : List Running} {line : PoLine}
    (hkeys : running.map (·.id) = matching lower partNos s)
    (hall : ∀ r ∈ running, r.Follows lower s done) (hline : line.partNo ∈ partNos) :
    ((running.filter fun r => lower r.partNo = lower line.partNo).getLast?).map (·.id) =
      s.takes lower line.partNo := by
  have hsame : (running.filter fun r => lower r.partNo = lower line.partNo) =
      running.filter fun r => decide (r.id ∈ matching lower [line.partNo] s) := by
    apply List.filter_congr
    intro r hr
    obtain ⟨row, hrow, hname, -⟩ := hall r hr
    have hlive : row.deleted = false := by
      have hmem : r.id ∈ matching lower partNos s := hkeys ▸ List.mem_map_of_mem hr
      obtain ⟨row', hrow', hlive, -⟩ := mem_matching.mp hmem
      obtain rfl := Option.some.inj (hrow.symm.trans hrow')
      exact hlive
    rw [decide_eq_decide, mem_matching, ← hname]
    constructor
    · intro heq
      exact ⟨row, hrow, hlive, by simpa using heq⟩
    · rintro ⟨row', hrow', -, heq⟩
      obtain rfl := Option.some.inj (hrow.symm.trans hrow')
      simpa using heq
  have hfilter : (matching lower partNos s).filter (fun p => decide (p ∈ matching lower [line.partNo] s)) =
      matching lower [line.partNo] s := filter_matching hline
  rw [← hkeys, List.filter_map] at hfilter
  rw [hsame, ← List.getLast?_map, Db.takes]
  exact congrArg List.getLast? hfilter

/-- A line of the order is averaged into the running row of its product, after the lines before it. -/
theorem receiveLine_follows {done : List PoLine} {acc acc' : List Running × List String}
    {line : PoLine} (hkeys : acc.1.map (·.id) = matching lower partNos s)
    (hall : ∀ r ∈ acc.1, r.Follows lower s done) (hline : line.partNo ∈ partNos)
    (h : receiveLine lower acc line = .ok acc') : ∀ r ∈ acc'.1, r.Follows lower s (done ++ [line]) := by
  have hlast := last_running hkeys hall hline
  have hkept : ∀ r : Running, r.Follows lower s done → s.takes lower line.partNo ≠ some r.id →
      r.Follows lower s (done ++ [line]) := by
    rintro r ⟨row, hrow, hname, hshelf, hdelta⟩ hne
    refine ⟨row, hrow, hname, ?_⟩
    rw [linesFor_snoc, if_neg hne, List.append_nil]
    exact ⟨hshelf, hdelta⟩
  rw [receiveLine] at h
  split at h
  · -- no product takes the line
    rename_i hnone
    obtain rfl := Except.ok.inj h
    rw [hnone] at hlast
    intro r hr
    refine hkept r (hall r hr) ?_
    rw [← hlast]
    intro h
    cases h
  · rename_i state hstate
    rw [hstate] at hlast
    split at h
    · cases h
    · obtain rfl := Except.ok.inj h
      intro r hr
      obtain ⟨r₀, hr₀, rfl⟩ := List.mem_map.mp hr
      by_cases hid : r₀.id = state.id
      · rw [if_pos hid]
        obtain ⟨row, hrow, hname, hshelf, hdelta⟩ := hall r₀ hr₀
        refine ⟨row, hrow, hname, ?_⟩
        show row.shelf.after (s.linesFor lower (done ++ [line]) r₀.id) = _ ∧
          ((s.linesFor lower (done ++ [line]) r₀.id).map (·.qty)).sum = _
        rw [linesFor_snoc, if_pos (by rw [← hlast, hid]; rfl), after_append, hshelf,
          List.map_append, List.sum_append, hdelta]
        exact ⟨rfl, by simp [Running.receive]⟩
      · rw [if_neg hid]
        refine hkept r₀ (hall r₀ hr₀) ?_
        rw [← hlast]
        intro heq
        exact hid (Option.some.inj heq).symm

/-- All lines are, in the order of the document. -/
theorem receiveLines_follow {todo : List PoLine} (done : List PoLine)
    {acc acc' : List Running × List String}
    (hkeys : acc.1.map (·.id) = matching lower partNos s)
    (hall : ∀ r ∈ acc.1, r.Follows lower s done) (htodo : ∀ line ∈ todo, line.partNo ∈ partNos)
    (h : todo.foldlM (receiveLine lower) acc = .ok acc') :
    acc'.1.map (·.id) = matching lower partNos s ∧ ∀ r ∈ acc'.1, r.Follows lower s (done ++ todo) := by
  induction todo generalizing acc done with
  | nil =>
      obtain rfl := Except.ok.inj h
      rw [List.append_nil]
      exact ⟨hkeys, hall⟩
  | cons line todo ih =>
      rw [List.foldlM_cons] at h
      cases hline : receiveLine lower acc line with
      | error e =>
          rw [hline] at h
          cases h
      | ok acc₁ =>
          rw [hline] at h
          have hkeys₁ : acc₁.1.map (·.id) = matching lower partNos s :=
            (receiveLine_ok (s := s) hline).1.trans hkeys
          have hall₁ := receiveLine_follows hkeys hall (htodo line List.mem_cons_self) hline
          have hrest := ih _ hkeys₁ hall₁ (fun l hl => htodo l (List.mem_cons_of_mem _ hl)) h
          rw [List.append_assoc] at hrest
          exact hrest

/-- What the lines of an order make of all products that match them. -/
theorem receipt_follows {po : PurchaseOrder} {states : List Running} {unmatched : List String}
    (h : receipt lower po (matching lower (po.lines.map (·.partNo)) s) s = .ok (states, unmatched)) :
    states.map (·.id) = matching lower (po.lines.map (·.partNo)) s ∧
      ∀ r ∈ states, r.Follows lower s po.lines := by
  have hfound : ∀ p ∈ matching lower (po.lines.map (·.partNo)) s, ∃ row,
      s.products.get p = some row ∧
        runningOf lower (po.lines.map (·.partNo)) p s = some ⟨p, row.partNo, row.stock, row.cost, 0⟩ := by
    intro p hp
    obtain ⟨row, hrow, hlive, hname⟩ := mem_matching.mp hp
    refine ⟨row, hrow, ?_⟩
    simp only [runningOf, hrow]
    exact if_pos ⟨hlive, hname⟩
  refine receiveLines_follow [] ?_ ?_ (fun line hline => List.mem_map_of_mem hline) h
  · show ((matching lower (po.lines.map (·.partNo)) s).filterMap
      fun p => runningOf lower (po.lines.map (·.partNo)) p s).map (·.id) = _
    generalize matching lower (po.lines.map (·.partNo)) s = ids at hfound
    induction ids with
    | nil => rfl
    | cons p ids ih =>
        obtain ⟨row, -, hrunning⟩ := hfound p List.mem_cons_self
        rw [List.filterMap_cons, hrunning]
        show p :: _ = _
        rw [ih fun q hq => hfound q (List.mem_cons_of_mem _ hq)]
  · intro r hr
    obtain ⟨p, hp, hrunning⟩ := List.mem_filterMap.mp hr
    obtain ⟨row, hrow, hsome⟩ := hfound p hp
    obtain rfl := Option.some.inj (hsome.symm.trans hrunning)
    exact ⟨row, hrow, rfl, rfl, rfl⟩

end

/-! ## What a receipt does -/

/-- The row of a product once these lines are received into it. -/
def Product.receive (lines : List PoLine) (row : Product) : Product :=
  { row with stock := (row.shelf.after lines).stock, cost := (row.shelf.after lines).cost }

/-- The order `i` is received: it was open, and every product took its lines, one after the other. -/
def OrderReceived (lower : String → String) (i : PoId) (s s' : Db) : Prop :=
  ∃ po, s.purchaseOrders.get i = some po ∧ po.status = .opened ∧
    s'.purchaseOrders = s.purchaseOrders.modify i (fun po => { po with status := .received }) ∧
      ∀ p, s'.products.get p =
        (s.products.get p).map (Product.receive (s.linesFor lower po.lines p))

section
variable {lower : String → String} {s s' : Db} {i : PoId}

/-- The row of a product after the receipt has the running row's units and cost. -/
theorem get_receiveAll {touched : List Running} (hkeys : (touched.map (·.id)).Nodup) {r : Running}
    (hr : r ∈ touched) : (s.receiveAll i touched).products.get r.id =
      (s.products.get r.id).map fun row => { row with stock := row.stock + r.delta, cost := r.cost } := by
  induction touched using List.reverseRecOn with
  | nil => cases hr
  | append_singleton touched r' ih =>
      rw [List.map_append, List.nodup_append] at hkeys
      have hnew : r'.id ∉ touched.map (·.id) := fun hmem => hkeys.2.2 _ hmem _ (by simp) rfl
      rw [receiveAll_snoc]
      rcases List.mem_append.mp hr with hr | hr
      · have hne : r.id ≠ r'.id := fun heq => hnew (heq ▸ List.mem_map_of_mem hr)
        exact (Table.get_modify_ne _ hne _).trans (ih hkeys.1 hr)
      · obtain rfl := List.mem_singleton.mp hr
        refine (Table.get_modify_self _ _ _).trans ?_
        rw [(receiveAll_ne i s hnew).1]

/-- A receipt that has found every product that matches does what the lines say. -/
theorem orderReceived_receivePo {po : PurchaseOrder} {states : List Running}
    {unmatched : List String} (hpo : s.purchaseOrders.get i = some po)
    (hopen : po.status = .opened)
    (h : receipt lower po (matching lower (po.lines.map (·.partNo)) s) s = .ok (states, unmatched)) :
    OrderReceived lower i s (s.receivePo i (states.filter fun r => decide (r.delta > 0))) := by
  obtain ⟨hkeys, hall⟩ := receipt_follows h
  have hnodup : (states.map (·.id)).Nodup := hkeys ▸ nodup_matching _ _ _
  have hsub : (states.filter fun r => decide (r.delta > 0)).Sublist states := List.filter_sublist
  refine ⟨po, hpo, hopen, rfl, fun p => ?_⟩
  show (s.receiveAll i _).products.get p = _
  by_cases hp : p ∈ (states.filter fun r => decide (r.delta > 0)).map (·.id)
  · obtain ⟨r, hr, rfl⟩ := List.mem_map.mp hp
    rw [get_receiveAll ((hsub.map _).nodup hnodup) hr]
    obtain ⟨row, hrow, -, hshelf, hdelta⟩ := hall r (hsub.subset hr)
    rw [hrow, Option.map_some, Option.map_some, Product.receive, ← hdelta, stock_after, hshelf]
    rfl
  · -- no line is received into the product
    have hnone : s.linesFor lower po.lines p = [] := by
      by_contra hne
      obtain ⟨line, hline⟩ := List.exists_mem_of_ne_nil _ hne
      obtain ⟨hmem, htakes⟩ := List.mem_filter.mp hline
      have htakes := mem_of_takes (of_decide_eq_true htakes)
      have hfound : p ∈ states.map (·.id) := by
        rw [hkeys]
        obtain ⟨row, hrow, hlive, hname⟩ := mem_matching.mp htakes
        have heq : lower row.partNo = lower line.partNo := by simpa using hname
        refine mem_matching.mpr ⟨row, hrow, hlive, ?_⟩
        rw [heq]
        exact List.mem_map_of_mem (List.mem_map_of_mem hmem)
      obtain ⟨r, hr, rfl⟩ := List.mem_map.mp hfound
      obtain ⟨row, -, -, -, hdelta⟩ := hall r hr
      have hpos : 0 < r.delta := by
        rw [← hdelta]
        apply List.sum_pos
        · intro q hq
          obtain ⟨l, -, rfl⟩ := List.mem_map.mp hq
          exact l.qty_pos
        · simpa using hne
      exact hp (List.mem_map_of_mem (List.mem_filter.mpr ⟨hr, decide_eq_true hpos⟩))
    rw [(receiveAll_ne i s hp).1, hnone]
    cases s.products.get p <;> rfl

end

/-! ## The catalogue -/

/-- Under which part number a product is in the catalogue, and whether it is for sale. No request
that runs here changes that. -/
def Db.listed (db : Db) (p : ProductId) : Option (String × Bool) :=
  (db.products.get p).map fun row => (row.partNo, row.deleted)

section
variable {s s' : Db}

/-- The products that an order matches depend on what is listed alone. -/
theorem matching_congr (h : s.listed = s'.listed) (lower : String → String)
    (partNos : List String) : matching lower partNos s = matching lower partNos s' := by
  have hmem : ∀ {s s' : Db}, s.listed = s'.listed → ∀ p,
      p ∈ matching lower partNos s → p ∈ matching lower partNos s' := by
    intro s s' h p hp
    obtain ⟨row, hrow, hlive, hname⟩ := mem_matching.mp hp
    have hlisted := congrFun h p
    rw [Db.listed, hrow] at hlisted
    obtain ⟨row', hrow', heq⟩ := Option.map_eq_some_iff.mp hlisted.symm
    obtain ⟨hpart, hdeleted⟩ := Prod.mk.inj heq
    exact mem_matching.mpr ⟨row', hrow', hdeleted.trans hlive, hpart ▸ hname⟩
  refine List.Perm.eq_of_pairwise (fun a b _ _ => Nat.le_antisymm) (sorted_matching _ _ _)
    (sorted_matching _ _ _) ?_
  rw [List.perm_ext_iff_of_nodup (nodup_matching _ _ _) (nodup_matching _ _ _)]
  exact fun p => ⟨hmem h p, hmem h.symm p⟩

theorem listed_modify {p : ProductId} {g : Product → Product}
    (hs : s'.products = s.products.modify p g)
    (hg : ∀ row, (g row).partNo = row.partNo ∧ (g row).deleted = row.deleted) :
    s'.listed = s.listed := by
  funext q
  rw [Db.listed, Db.listed, hs, Table.get_modify]
  split
  · rw [Option.map_map]
    congr 1
    funext row
    exact Prod.ext (hg row).1 (hg row).2
  · rfl

theorem listed_moveStock (type : MovementType) (ref : Nat) (moves : List (ProductId × Int)) :
    (s.moveStock type ref moves).listed = s.listed := by
  funext p
  rw [Db.listed, get_products_moveStock, Option.map_map]
  rfl

theorem listed_receiveAll (i : PoId) (touched : List Running) :
    (s.receiveAll i touched).listed = s.listed := by
  induction touched using List.reverseRecOn with
  | nil => rfl
  | append_singleton touched r ih =>
      rw [receiveAll_snoc, ← ih]
      have hproducts : ((s.receiveAll i touched).receiveOne i r).products =
          (s.receiveAll i touched).products.modify r.id fun row =>
            { row with stock := row.stock + r.delta, cost := r.cost } := rfl
      exact listed_modify hproducts fun _ => ⟨rfl, rfl⟩

/-- **No change of the books changes the catalogue.** -/
theorem Changes.listed {e : Effect} (h : Changes s e s') : s'.listed = s.listed := by
  cases h with
  | none => rfl
  | sale actor dto k row hsrc hadm => exact listed_moveStock _ _ _
  | creditNote actor r dto sale note hparse hadm hnew =>
      have hmoved : (s.recordReturn r note (aggregateReturn dto.items) sale).listed = s.listed :=
        listed_moveStock _ _ _
      rw [Db.autoVoid]
      split
      · exact hmoved
      · exact hmoved
  | voidSale actor x reason sale k hadm => exact listed_moveStock _ _ _
  | creditPayment actor i m dto row hparse hadm hnew => rfl
  | adjustStock p input row hparse hrow hmax =>
      have hproducts : (s.adjustStock p input).products = s.products.modify p fun row =>
          { row with stock := adjusted row.stock input.delta } := rfl
      exact listed_modify hproducts fun _ => ⟨rfl, rfl⟩
  | receivePo lower i ids po states unmatched hpo hopen hids hstates =>
      exact listed_receiveAll i _
  | openShift d next openedAt hnew =>
      rw [Db.archiveActive_eq]
      cases next <;> rfl
  | closeShift d k row cash hrow hopen => rfl
  | retire s₁ d hclosed => cases hclosed <;> rfl
  | entry d e entry k row hrow hopen hnew => rfl
  | editMechanic m patch row hrow halive => rfl
  | createCustomer c input code hnew => rfl
  | editCustomer c patch row hrow halive => rfl

end

/-! ## Runs -/

/-- What a transaction does: what it does to the server, or it cancels an order that is open, or it
deletes one that is not received. -/
def OrderOp.Does (s s' : Db) : OrderOp → Prop
  | .server op => op.Does s s'
  | .cancel i  => s' = s ∨ (∃ po, s.purchaseOrders.get i = some po ∧ po.status = .opened) ∧
      s' = s.modifyPo i PurchaseOrder.cancel
  | .delete i  => s' = s ∨ (s.purchaseOrders.get i).any (·.status = .received) = false ∧
      s' = s.erasePo i

section
variable {H : Held LockKey} {s s' : Db}

theorem respects_erasePo (i : PoId) : Respects agree H fun s => s.erasePo i := by
  rintro s s' hs ⟨ℓ, m⟩ h
  cases ℓ with
  | po i' =>
      have h := View.po.inj h
      show View.po _ = View.po _
      simp only [Db.erasePo, Table.get_erase, h]
  | shift k => cases m <;> exact h
  | _ => exact h

theorem Covered.erasePo (h : Covered agree H s s') {i : PoId} (hi : (.po i, .update) ∈ H) :
    Covered agree H s (s'.erasePo i) := by
  intro ℓ m hc
  refine Eq.trans (h ℓ m hc) ?_
  cases ℓ with
  | po i' =>
      have hne : i' ≠ i := fun hii => ne_of_update hc hi (by rw [hii])
      show View.po _ = View.po _
      simp [Db.erasePo, Table.get_erase, hne]
  | shift k => cases m <;> rfl
  | _ => rfl

theorem wp_cancelPo {i : PoId} : wp (cancelPo i) H s Expected fun _ H' s' =>
    OrderOp.Does s s' (.cancel i) ∧ Covered agree H' s s' := by
  refine wp_bind_selectFor (wp_bind_orFail (fun po hpo => ?_) fun _ => rfl)
  refine wp_bind_require (fun _ => ?_) fun _ => rfl
  split
  · rename_i hopen
    refine wp_bind_updateReturning (wp_orFail (fun row _ => ⟨.inr ⟨⟨po, hpo, hopen⟩, rfl⟩, ?_⟩)
      fun _ => rfl)
    exact Covered.modifyPo (Covered.refl _ _) List.mem_cons_self _
  · exact ⟨.inl rfl, Covered.refl _ _⟩

theorem wp_deletePo {i : PoId} : wp (deletePo i) H s Expected fun _ H' s' =>
    OrderOp.Does s s' (.delete i) ∧ Covered agree H' s s' := by
  refine wp_bind_selectFor (wp_bind_require (fun hstatus => ?_) fun _ => rfl)
  rw [Tx.whenever]
  split
  · exact ⟨.inr ⟨hstatus, rfl⟩, Covered.erasePo (Covered.refl _ _) List.mem_cons_self⟩
  · exact ⟨.inl rfl, Covered.refl _ _⟩

theorem disciplined_cancelPo (i : PoId) :
    Disciplined agree (cancelPo i) H fun _ _ => True := by
  refine disciplined_bind_selectFor (fun s s' hs => View.po.inj hs) fun po => ?_
  refine disciplined_bind_orFail fun po _ => disciplined_bind_require fun _ => ?_
  split
  · refine disciplined_bind_updateReturning (respects_modifyPo _ _)
      (fun s s' hs => View.po.inj hs) fun row => ?_
    exact disciplined_orFail fun _ _ => trivial
  · trivial

theorem disciplined_deletePo (i : PoId) :
    Disciplined agree (deletePo i) H fun _ _ => True := by
  refine disciplined_bind_selectFor (fun s s' hs => View.po.inj hs) fun po => ?_
  refine disciplined_bind_require fun _ => ?_
  rw [Tx.whenever]
  split
  · exact ⟨respects_erasePo i, trivial⟩
  · trivial

theorem wp_ordersProg (hs : s.Consistent) (op : OrderOp) :
    wp (ordersProg op) [] s Expected fun _ H s' => op.Does s s' ∧ Covered agree H s s' := by
  cases op with
  | server op => exact wp_seq (wp_prog hs op) fun _ _ _ h => h
  | cancel i => exact wp_seq wp_cancelPo fun _ _ _ h => h
  | delete i => exact wp_seq wp_deletePo fun _ _ _ h => h

end

/-- A change of the books receives one order that is open, or it leaves the orders. -/
theorem Changes.purchaseOrders {e : Effect} {s s' : Db} (h : Changes s e s') :
    s'.purchaseOrders = s.purchaseOrders ∨ ∃ lower i ids po, e = .receivePo lower i ids ∧
      s.purchaseOrders.get i = some po ∧ po.status = .opened ∧
        s'.purchaseOrders = s.purchaseOrders.modify i fun po => { po with status := .received } := by
  cases h with
  | receivePo lower i ids po states unmatched hpo hopen hids hstates =>
      exact .inr ⟨lower, i, ids, po, rfl, hpo, hopen, rfl⟩
  | creditNote actor r dto sale note hparse hadm hnew =>
      rw [Db.autoVoid]
      split <;> exact .inl rfl
  | openShift d next openedAt hnew =>
      rw [Db.archiveActive_eq]
      cases next <;> exact .inl rfl
  | retire s₁ d hclosed => cases hclosed <;> exact .inl rfl
  | _ => exact .inl rfl

section
variable {s s' : Db} {op : OrderOp}

/-- **A received order stays as it is**, whatever is asked for. -/
theorem OrderOp.Does.received (h : op.Does s s') {i : PoId} {po : PurchaseOrder}
    (hpo : s.purchaseOrders.get i = some po) (hstatus : po.status = .received) :
    s'.purchaseOrders.get i = some po := by
  cases op with
  | server op =>
      obtain ⟨e, -, t, desk, hch, rfl⟩ := h.commits
      show t.purchaseOrders.get i = some po
      rcases hch.purchaseOrders with hsame | ⟨lower, j, ids, po', -, hpo', hopen, hreceived⟩
      · rw [hsame]
        exact hpo
      · have hne : i ≠ j := by
          rintro rfl
          rw [hpo] at hpo'
          obtain rfl := Option.some.inj hpo'
          rw [hstatus] at hopen
          cases hopen
        rw [hreceived, Table.get_modify_ne _ hne]
        exact hpo
  | cancel j =>
      rcases h with rfl | ⟨⟨po', hpo', hopen⟩, rfl⟩
      · exact hpo
      · have hne : i ≠ j := by
          rintro rfl
          rw [hpo] at hpo'
          obtain rfl := Option.some.inj hpo'
          rw [hstatus] at hopen
          cases hopen
        exact (Table.get_modify_ne _ hne _).trans hpo
  | delete j =>
      rcases h with rfl | ⟨hnot, rfl⟩
      · exact hpo
      · have hne : i ≠ j := by
          rintro rfl
          rw [hpo] at hnot
          simp [hstatus] at hnot
        rw [Db.erasePo, Table.get_erase, if_neg hne]
        exact hpo

/-- A received order is still there, and received. -/
theorem OrderOp.Does.keeps_received (h : op.Does s s') (i : PoId)
    (hi : (s.purchaseOrders.get i).any (·.status = .received) = true) :
    (s'.purchaseOrders.get i).any (·.status = .received) = true := by
  cases hpo : s.purchaseOrders.get i with
  | none =>
      rw [hpo] at hi
      cases hi
  | some po =>
      rw [hpo, Option.any_some] at hi
      rw [h.received hpo (of_decide_eq_true hi)]
      exact hi

/-- Every operation on the orders keeps the state consistent. -/
theorem OrderOp.Does.consistent (h : op.Does s s') (hs : s.Consistent) : s'.Consistent := by
  have hreceived := h.keeps_received
  cases op with
  | server op =>
      obtain ⟨e, -, hperf⟩ := h.commits
      exact hperf.consistent hs
  | cancel i =>
      rcases h with rfl | ⟨-, rfl⟩
      · exact hs
      · have hkept : Kept s (s.modifyPo i PurchaseOrder.cancel) :=
          { Kept.refl s with received := hreceived }
        exact fun mv hmv => Db.Backs.kept hkept (hs mv hmv)
  | delete i =>
      rcases h with rfl | ⟨-, rfl⟩
      · exact hs
      · have hkept : Kept s (s.erasePo i) := { Kept.refl s with received := hreceived }
        exact fun mv hmv => Db.Backs.kept hkept (hs mv hmv)

theorem OrderOp.Does.inStock (h : op.Does s s') (hs : s.Consistent) (hl : InStock s) :
    InStock s' := by
  cases op with
  | server op =>
      obtain ⟨e, -, hperf⟩ := h.commits
      exact InStock.booked.performs hperf hs hl
  | cancel i => rcases h with rfl | ⟨-, rfl⟩ <;> exact hl.congr rfl
  | delete i => rcases h with rfl | ⟨-, rfl⟩ <;> exact hl.congr rfl

theorem OrderOp.Does.listed (h : op.Does s s') : s'.listed = s.listed := by
  cases op with
  | server op =>
      obtain ⟨e, -, t, desk, hch, rfl⟩ := h.commits
      exact hch.listed
  | cancel i => rcases h with rfl | ⟨-, rfl⟩ <;> rfl
  | delete i => rcases h with rfl | ⟨-, rfl⟩ <;> rfl

theorem sound_ordersProg : Sound ordersProg agree Db.Consistent Expected where
  equivalence := agree_equivalence
  disciplined op := by
    cases op with
    | server op => exact Disciplined.answer (disciplined_prog op)
    | cancel i => exact Disciplined.answer (disciplined_cancelPo i)
    | delete i =>
        exact Disciplined.answer (f := fun _ => OrderReply.deleted i) (disciplined_deletePo i)
  commits op s hs := by
    refine wp_mono (wp_ordersProg hs op) (fun _ h => h) fun _ _ _ h => ⟨?_, h.2⟩
    exact h.1.consistent hs

end

/-! ### Receiving -/

/-- The order a transaction is to receive, and the `lower()` it compares part numbers with. -/
def OrderOp.receipt : OrderOp → Option ((String → String) × PoId)
  | .server (.post env _ _ _ (.receivePo i)) => some (env.lower, i)
  | _                                        => none

/-- The goods and the orders are as they were. -/
def StockUntouched (s s' : Db) : Prop := s'.products = s.products ∧ s'.movements = s.movements ∧
  s'.purchaseOrders = s.purchaseOrders

section
variable {H : Held LockKey} {s s' : Db} {env : Env} {i : PoId}

/-- A receipt that reads the catalogue as it is finds every product that matches. -/
theorem wpHeld_receive (hs : s.Consistent) :
    wpHeld (Framed agree Db.listed) (receive env i) H s fun _ _ s' =>
      OrderReceived env.lower i s s' := by
  refine wpHeld_bind_selectFor (wpHeld_bind_orFail fun po hpo => ?_)
  refine wpHeld_bind_require fun hrec => wpHeld_bind_require fun hcan => ?_
  have hopen := opened_of_ne hrec hcan
  refine wpHeld_bind_glance fun s₀ hs₀ => ?_
  have hlisted : s₀.listed = s.listed := (hs₀ (.po i, .update) List.mem_cons_self).2
  rw [matching_congr hlisted]
  have hids := nodup_matching env.lower (po.lines.map (·.partNo)) s
  refine wpHeld_of_wp (wp_mono (wp_receiveFound hs hpo hopen hids List.mem_cons_self)
    (fun _ h => h) ?_)
  rintro r H' s' ⟨⟨states, unmatched, hstates, -, rfl⟩, -⟩
  exact orderReceived_receivePo hpo hopen hstates

theorem leaves_receive : Leaves Db.listed (receive env i) := by
  refine (leaves_selectFor _ _ _).bind fun po => (leaves_orFail _ _).bind fun po => ?_
  refine (leaves_require _ _).bind fun _ => (leaves_require _ _).bind fun _ => ?_
  refine (leaves_glance _).bind fun ids => ?_
  refine Leaves.bind ?_ fun locked => (leaves_ofExcept _).bind fun r => ?_
  · exact Leaves.collect fun p => leaves_selectFor _ _ _
  · refine Leaves.bind (Leaves.forEach fun r => ?_) fun _ => ⟨fun s => rfl, fun s => rfl, trivial⟩
    refine Leaves.bind (leaves_updateReturning fun s => ?_) fun row => ?_
    · exact listed_modify (s := s) (p := r.id)
        (g := fun row => { row with stock := r.stock, cost := r.cost }) rfl fun _ => ⟨rfl, rfl⟩
    · refine (leaves_orFail _ _).bind fun _ => ?_
      exact fun dup => (leaves_require _ _).bind fun _ => ⟨fun s => rfl, trivial⟩

/-- What the transaction of a receipt does: nothing, or it receives the order. -/
theorem wpHeld_receipt (hs : s.Consistent) {op : OrderOp} :
    wpHeld (Framed agree Db.listed) (ordersProg op) [] s fun _ _ s' =>
      ∀ lower i, op.receipt = some (lower, i) → StockUntouched s s' ∨ OrderReceived lower i s s' := by
  cases hop : op.receipt with
  | none =>
      refine wpHeld_of_wp (wp_mono (wp_ordersProg hs op) (fun _ h => h) fun _ _ _ _ => ?_)
      exact fun lower i h => by cases h
  | some r =>
      obtain ⟨env, actor, key, requestHash, i, rfl⟩ : ∃ env actor key requestHash i,
          op = .server (.post env actor key requestHash (.receivePo i)) := by
        unfold OrderOp.receipt at hop
        split at hop
        · exact ⟨_, _, _, _, _, rfl⟩
        · cases hop
      obtain rfl : (env.lower, i) = r := Option.some.inj hop
      have hnothing (desk : Desk) : ∀ lower i', some (env.lower, i) = some (lower, i') →
          StockUntouched s (s.withDesk desk) ∨ OrderReceived lower i' s (s.withDesk desk) :=
        fun _ _ _ => .inl ⟨rfl, rfl, rfl⟩
      refine wpHeld_bind.mpr ?_
      refine wpHeld_bind.mpr (wpHeld_of_wp (wp_claim fun out H₁ desk hH hcov hclaim => ?_))
      cases out with
      | reused => trivial
      | replay body => exact hnothing desk
      | claimed =>
          have hs₁ : (s.withDesk desk).Consistent := hs
          refine wpHeld_bind.mpr (wpHeld_bind.mpr (wpHeld_mono (wpHeld_receive hs₁) ?_))
          rintro r H₂ s₂ hreceived
          refine wpHeld_bind.mpr (wpHeld_of_wp (wp_complete fun H₃ desk₃ _ _ _ _ => ?_))
          rintro lower i' heq
          obtain ⟨rfl, rfl⟩ := Prod.mk.inj (Option.some.inj heq)
          exact .inr hreceived

/-- A receipt changes none of the parts that orders are matched by. -/
theorem leaves_receipt {op : OrderOp} {lower : String → String} (h : op.receipt = some (lower, i)) :
    Leaves Db.listed (ordersProg op) := by
  unfold OrderOp.receipt at h
  split at h
  · obtain ⟨-, rfl⟩ := Prod.mk.inj (Option.some.inj h)
    refine Leaves.bind (Leaves.bind ?_ fun out => ?_) fun _ => trivial
    · exact (tame_claim (P := fun _ => True) (fun _ _ => rfl) trivial _ _ _ _).leaves
    · cases out with
      | reused => trivial
      | replay body => trivial
      | claimed =>
          refine Leaves.bind (Leaves.bind leaves_receive fun r => ?_) fun body => ?_
          · trivial
          · refine Leaves.bind ?_ fun _ => trivial
            exact (tame_complete (P := fun _ => True) (fun _ _ => rfl) trivial _ _).leaves
  · cases h

end

/-! ## Main result -/

/-- What becomes of a product that these lines are received into. -/
structure Taken (lines : List PoLine) (row row' : Product) : Prop where
  stock : row'.stock = row.stock + (lines.map (·.qty)).sum
  cost : row'.cost = (row.shelf.after lines).cost
  lineByLine : ∀ done line todo, lines = done ++ line :: todo →
    Averaged line (row.shelf.after done) (row.shelf.after (done ++ [line]))
  others : row' = { row with stock := row'.stock, cost := row'.cost }

theorem taken_receive {row : Product} (hstock : 0 ≤ row.stock) (lines : List PoLine) :
    Taken lines row (row.receive lines) where
  stock := stock_after row.shelf lines
  cost := rfl
  lineByLine done line _ _ := averaged_after row.shelf hstock done line
  others := rfl

/-- The change that receives the order. -/
def Receives (i : PoId) (s s' : Db) : Prop :=
  (s.purchaseOrders.get i).any (·.status = .received) = false ∧
    (s'.purchaseOrders.get i).any (·.status = .received) = true

theorem OrderReceived.receives {lower : String → String} {i : PoId} {s s' : Db}
    (h : OrderReceived lower i s s') : Receives i s s' := by
  obtain ⟨po, hpo, hopen, horders, -⟩ := h
  refine ⟨?_, ?_⟩
  · rw [hpo, Option.any_some, hopen]
    rfl
  · rw [horders, Table.get_modify_self, hpo]
    rfl

/-- The server with its purchase orders' desk, and its transactions under way. -/
abbrev OrderSystem (T : Type) := Sys Db LockKey ServerError OrderReply OrderOp T

section
variable {T : Type} [DecidableEq T] {s₀ : Db} {S S' : OrderSystem T}

theorem Reachable.ordersDo (h₀ : s₀.Consistent) (h : Reachable ordersProg s₀ S)
    (hstep : Step ordersProg S S') : (S'.db = S.db ∧ S'.log = S.log) ∨
      ∃ op a, OrderOp.Does S.db S'.db op ∧ S'.log = S.log ++ [(op, a)] :=
  Reachable.commits sound_ordersProg h₀ h hstep (fun op _ s s' => op.Does s s') fun op _ hs =>
    wpHeld_of_wp (wp_mono (wp_ordersProg hs op) (fun _ h => h) fun _ _ _ h => h.1)

/-- In every reachable state the ledger is consistent and no stock is below zero. -/
theorem Reachable.orders_inv (h₀ : s₀.Consistent) (hl : InStock s₀)
    (h : Reachable ordersProg s₀ S) : S.db.Consistent ∧ InStock S.db := by
  induction h with
  | init => exact ⟨h₀, hl⟩
  | step hr hstep ih =>
      rcases Reachable.ordersDo h₀ hr hstep with ⟨hdb, -⟩ | ⟨op, a, hdoes, -⟩
      · rw [hdb]
        exact ih
      · exact ⟨hdoes.consistent ih.1, hdoes.inStock ih.1 ih.2⟩

/-- A received order stays received through the rest of the run. -/
theorem Reachable.stays_received (h₀ : s₀.Consistent) (h : Reachable ordersProg s₀ S)
    (hr : Relation.ReflTransGen (Step ordersProg) S S') {i : PoId}
    (hi : (S.db.purchaseOrders.get i).any (·.status = .received) = true) :
    Reachable ordersProg s₀ S' ∧
      (S'.db.purchaseOrders.get i).any (·.status = .received) = true := by
  induction hr with
  | refl => exact ⟨h, hi⟩
  | tail _ hstep ih =>
      obtain ⟨hreach, hi⟩ := ih
      refine ⟨hreach.step hstep, ?_⟩
      rcases Reachable.ordersDo h₀ hreach hstep with ⟨hdb, -⟩ | ⟨op, a, hdoes, -⟩
      · rw [hdb]
        exact hi
      · exact hdoes.keeps_received i hi

/-- Only a request to receive an order is allowed to. -/
theorem receipt_of_allows {op : Op} {lower : String → String} {i : PoId} {ids : List ProductId}
    (h : op.Allows (.receivePo lower i ids)) : (OrderOp.server op).receipt = some (lower, i) := by
  cases op with
  | post env actor key requestHash req =>
      cases req with
      | receivePo j =>
          obtain ⟨ids', heq⟩ := h
          cases heq
          rfl
      | convertQuote q party =>
          obtain ⟨dto, -, heq⟩ := h
          cases heq
      | openShift input => rcases h with heq | heq <;> cases heq
      | closeShift cash =>
          obtain ⟨k, heq⟩ := h
          cases heq
      | _ => cases h
  | push env actor key requestHash op =>
      cases op with
      | shiftOpen input openedAt opId => rcases h with heq | heq <;> cases heq
      | customerCreate id body =>
          obtain ⟨input, -, heq⟩ := h
          cases heq
      | customerUpdate c body =>
          obtain ⟨patch, -, heq⟩ := h
          cases heq
      | _ => cases h
  | reportUnsynced d n => cases h
  | cleanup now => cases h

/-- Only a transaction that is to receive an order receives it. -/
theorem OrderOp.Does.receipt {s s' : Db} {op : OrderOp} (h : op.Does s s') {i : PoId}
    (hreceives : Receives i s s') : ∃ lower, op.receipt = some (lower, i) := by
  obtain ⟨hbefore, hafter⟩ := hreceives
  have hsame : ∀ {t : Db}, t.purchaseOrders.get i = s.purchaseOrders.get i →
      (t.purchaseOrders.get i).any (·.status = .received) = true → False := by
    intro t ht hreceived
    rw [ht, hbefore] at hreceived
    cases hreceived
  cases op with
  | server op =>
      obtain ⟨e, hallow, t, desk, hch, rfl⟩ := h.commits
      rcases hch.purchaseOrders with horders | ⟨lower, j, ids, po, rfl, hpo, hopen, horders⟩
      · exact (hsame (congrArg (·.get i) horders) hafter).elim
      · obtain rfl : i = j := by
          by_contra hne
          refine hsame (t := t) ?_ hafter
          rw [horders, Table.get_modify_ne _ hne]
        have hallowed : op.Allows (.receivePo lower i ids) := by
          rcases hallow with hnone | hallow
          · cases hnone
          · exact hallow
        exact ⟨lower, receipt_of_allows hallowed⟩
  | cancel j =>
      rcases h with rfl | ⟨-, rfl⟩
      · exact (hsame rfl hafter).elim
      · by_cases hij : i = j
        · subst hij
          rw [Db.modifyPo, Table.get_modify_self, Option.any_map] at hafter
          cases hpo : s.purchaseOrders.get i with
          | none =>
              rw [hpo] at hafter
              cases hafter
          | some po =>
              rw [hpo] at hafter
              cases hafter
        · exact (hsame (Table.get_modify_ne _ hij _) hafter).elim
  | delete j =>
      rcases h with rfl | ⟨-, rfl⟩
      · exact (hsame rfl hafter).elim
      · rw [Db.erasePo, Table.get_erase] at hafter
        split at hafter
        · cases hafter
        · exact (hsame (t := s) rfl hafter).elim

/-- **An order is received once, line by line at the moving average.** In every run, whatever else
receives, cancels or deletes orders meanwhile, a transaction that is to receive an order leaves the
goods and the orders alone, or finds the order open and receives it. Then every product has its old
stock and the pieces of the lines with its part number, and each of these lines has moved its cost to
the average of what the lines before it had left and its own. No order is received twice. -/
theorem orders_received_once (h₀ : s₀.Consistent) (hl : InStock s₀) :
    (∀ S S' : OrderSystem T, Reachable ordersProg s₀ S → Step ordersProg S S' →
      S'.db = S.db ∧ S'.log = S.log ∨ ∃ op a, S'.log = S.log ++ [(op, a)] ∧
        (∀ i, Receives i S.db S'.db → ∃ lower, op.receipt = some (lower, i)) ∧
        ∀ lower i, op.receipt = some (lower, i) → StockUntouched S.db S'.db ∨
          Receives i S.db S'.db ∧ ∃ po, S.db.purchaseOrders.get i = some po ∧ po.status = .opened ∧
            ∀ p, Option.Rel (Taken (S.db.linesFor lower po.lines p)) (S.db.products.get p)
              (S'.db.products.get p)) ∧
    ∀ (i : PoId) (S₁ S₁' S₂ S₂' : OrderSystem T), Reachable ordersProg s₀ S₁ →
      Step ordersProg S₁ S₁' → Receives i S₁.db S₁'.db →
        Relation.ReflTransGen (Step ordersProg) S₁' S₂ → Step ordersProg S₂ S₂' →
          ¬Receives i S₂.db S₂'.db := by
  constructor
  · intro S S' h hstep
    have hkeep : ∀ op s, s.Consistent → wp (ordersProg op) [] s Expected fun _ _ s' =>
        s'.listed = s.listed := fun op s hs =>
      wp_mono (wp_ordersProg hs op) (fun _ h => h) fun _ _ _ h => h.1.listed
    rcases hstep.commit_or_quiet with hquiet | ⟨t, op, a, hc⟩
    · exact .inl hquiet
    · have hdoes : op.Does S.db S'.db :=
        hc.does sound_ordersProg h₀ h (fun _ s s' => op.Does s s') fun s hs =>
          wpHeld_of_wp (wp_mono (wp_ordersProg hs op) (fun _ h => h) fun _ _ _ h => h.1)
      refine .inr ⟨op, a, hc.log, fun i hi => hdoes.receipt hi, fun lower i hop => ?_⟩
      have hreceipt := hc.constant sound_ordersProg h₀ hkeep h (leaves_receipt hop).tracks
        (fun _ s s' => ∀ lower i, op.receipt = some (lower, i) →
          StockUntouched s s' ∨ OrderReceived lower i s s') fun s hs => wpHeld_receipt hs
      rcases hreceipt lower i hop with huntouched | hreceived
      · exact .inl huntouched
      · have hreceives := hreceived.receives
        obtain ⟨po, hpo, hopen, -, hproducts⟩ := hreceived
        refine .inr ⟨hreceives, po, hpo, hopen, fun p => ?_⟩
        rw [hproducts p]
        cases hrow : S.db.products.get p with
        | none => exact .none
        | some row =>
            have hstock := (Reachable.orders_inv h₀ hl h).2.nonneg p row hrow
            exact .some (taken_receive hstock _)
  · rintro i S₁ S₁' S₂ S₂' h₁ hstep₁ ⟨-, hreceived⟩ hruns hstep₂ ⟨hnot, -⟩
    have hstays := (Reachable.stays_received h₀ (h₁.step hstep₁) hruns hreceived).2
    rw [hnot] at hstays
    cases hstays

end

/-- An order that names the product on three lines, one of them without a cost, and a part the shop
does not have. -/
def padOrder : PurchaseOrder :=
  { status := .opened
    lines := [⟨"pn-7", 5, 80, five_pieces_pos⟩, ⟨"PN-9", 2, 50, two_pieces_pos⟩,
      ⟨"PN-7", 3, 0, three_pieces_pos⟩, ⟨"PN-7", 4, 91, four_pieces_pos⟩] }

def orderShop : Db := { smallShop with purchaseOrders := Table.empty.insert 61 padOrder }

/-- The surroundings of a request whose database knows the lower case of the part number. -/
def lowerEnv (now uuid : Nat) : Env :=
  { plainEnv now uuid with lower := fun s => if s = "PN-7" then "pn-7" else s }

/-- The order is about to be received while a cancellation of it waits. -/
def receiveAcrossCancel : List (Turn OrderOp Bool) :=
  [.begins false (.server (.post (lowerEnv 0 90) ⟨1⟩ 1 0 (.receivePo 61))),
   .begins true (.cancel 61), .goes false 19]

/-- An order is received once beside a cancellation, and never again after it. -/
theorem orders_received_once_of_cancel : ∃ S₁ S₁' : OrderSystem Bool,
    Reachable ordersProg orderShop S₁ ∧ Step ordersProg S₁ S₁' ∧ Receives 61 S₁.db S₁'.db ∧
      (S₁'.db.products.get 7).map Product.shelf = some ⟨17, 75⟩ ∧
      ∀ S₂ S₂', Relation.ReflTransGen (Step ordersProg) S₁' S₂ → Step ordersProg S₂ S₂' →
        ¬Receives 61 S₂.db S₂'.db := by
  have hrun : (((Sys.init orderShop).follow ordersProg receiveAcrossCancel).bind fun S =>
      (S.next false).map fun S' => ((S.db.purchaseOrders.get 61).any (·.status = .received),
        (S'.db.purchaseOrders.get 61).any (·.status = .received),
        (S'.db.products.get 7).map Product.shelf)) = some (false, true, some ⟨17, 75⟩) := by
    decide +kernel
  obtain ⟨S₁, hS₁, hnext⟩ := Option.bind_eq_some_iff.mp hrun
  obtain ⟨S₁', hS₁', hrows⟩ := Option.map_eq_some_iff.mp hnext
  obtain ⟨hbefore, hafter, hshelf⟩ : _ ∧ _ ∧ _ := by simpa only [Prod.mk.injEq] using hrows
  have hreach : Reachable ordersProg orderShop S₁ :=
    Reachable.init.runs_on (Sys.runs_of_follow hS₁)
  have hstep : Step ordersProg S₁ S₁' := Sys.step_of_next hS₁'
  have h₀ : orderShop.Consistent := by
    intro mv hmv
    cases hmv
  have hl : InStock orderShop := by
    constructor
    intro p row hrow
    obtain ⟨rfl, rfl⟩ : p = 7 ∧ row = ⟨"PN-7", "brake pad", 60, 5, false⟩ := by
      have := (Table.mem_rows _).mpr hrow
      simpa [orderShop, smallShop, Table.insert, Table.empty] using this
    decide
  refine ⟨S₁, S₁', hreach, hstep, ⟨hbefore, hafter⟩, hshelf, fun S₂ S₂' hruns hstep₂ => ?_⟩
  exact (orders_received_once h₀ hl).2 61 S₁ S₁' S₂ S₂' hreach hstep ⟨hbefore, hafter⟩ hruns
    hstep₂

end Server

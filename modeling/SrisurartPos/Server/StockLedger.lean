import SrisurartPos.Server.System

/-! # The stock ledger

The shelf and its ledger are written together by five services. Seen from one product they all do
the same thing: they set its stock and append the row that says how it came about (`book`). So the
ledger of every product stays a chain that ends in the stock, no stock is ever negative, and no
document is ever entered twice for one product. -/

namespace Server

open Txn

/-! ## The invariant -/

/-- The stock a ledger row leaves, on top of the stock before it. A manual correction stops at zero;
the row keeps the delta that was asked for. -/
def Movement.after (before : Int) (mv : Movement) : Int :=
  if mv.type.isAdjustment then adjusted before mv.delta else before + mv.delta

/-- Where a move leaves no negative stock, no row is clamped. -/
theorem Movement.after_of_nonneg {before : Int} {mv : Movement} (h : 0 ≤ before + mv.delta) :
    mv.after before = before + mv.delta := by
  unfold Movement.after adjusted
  split
  · exact max_eq_right h
  · rfl

/-- Two rows of the same type, document and product: what `uq_movements_ref` forbids. -/
def Movement.Clashes (mv mv' : Movement) : Prop :=
  mv.refId.isSome ∧ mv'.type = mv.type ∧ mv'.refId = mv.refId ∧ mv'.productId = mv.productId

/-- Each row continues the one before it, and the last one says what is on the shelf. -/
structure Ledger (rows : List Movement) (stock : Int) : Prop where
  chain : rows.IsChain fun mv mv' => mv'.stockAfter = mv'.after mv.stockAfter
  last : ∀ mv ∈ rows.getLast?, mv.stockAfter = stock

/-- No stock is below zero. -/
structure InStock (db : Db) : Prop where
  nonneg : ∀ p row, db.products.get p = some row → 0 ≤ row.stock

structure StockLedger (db : Db) : Prop extends InStock db where
  ledger : ∀ p row, db.products.get p = some row → Ledger (db.movementsOf p) row.stock
  unique : db.movements.Pairwise fun mv mv' => ¬mv.Clashes mv'

/-- A shop that has goods on its shelves and no ledger yet. -/
theorem StockLedger.opening {db : Db} (hmov : db.movements = [])
    (hstock : ∀ p row, db.products.get p = some row → 0 ≤ row.stock) :
    db.Consistent ∧ StockLedger db := by
  refine ⟨?_, ⟨hstock⟩, ?_, ?_⟩
  · intro mv hmv
    rw [hmov] at hmv
    cases hmv
  · intro p row _
    rw [Db.movementsOf, hmov]
    exact ⟨List.isChain_nil, by simp⟩
  · rw [hmov]
    exact List.Pairwise.nil

/-! ## One row at a time -/

section
variable {db db' : Db}

/-- A movement that says the stock after it goes on with the chain. -/
theorem Ledger.snoc {rows : List Movement} {stock : Int} (h : Ledger rows stock) {mv : Movement}
    (hafter : mv.stockAfter = mv.after stock) : Ledger (rows ++ [mv]) mv.stockAfter where
  chain := by
    apply h.chain.append (List.isChain_singleton mv)
    intro old hold new hnew
    obtain rfl : mv = new := by simpa using hnew
    rw [h.last old hold]
    exact hafter
  last := by
    intro new hnew
    obtain rfl : mv = new := by simpa using hnew
    rfl

/-- A row whose place in the index is free clashes with none of the others. -/
theorem not_clashes {mv old : Movement} (hfree : db.movementDup mv = false)
    (hold : old ∈ db.movements) : ¬old.Clashes mv := by
  rintro ⟨hsome, htype, href, hprod⟩
  obtain ⟨ref, hold_ref⟩ := Option.isSome_iff_exists.mp hsome
  have hmv_ref : mv.refId = some ref := href.trans hold_ref
  rw [Db.movementDup, hmv_ref] at hfree
  have hmem : old ∈ db.movementsOf mv.productId :=
    List.mem_filter.mpr ⟨hold, by simpa using hprod.symm⟩
  have := List.any_eq_false.mp hfree old hmem
  simp [htype, hold_ref] at this

theorem InStock.congr (h : InStock db) (hproducts : db'.products = db.products) : InStock db' :=
  ⟨hproducts ▸ h.nonneg⟩

/-- One product's stock is set. -/
theorem InStock.modify (h : InStock db) {p : ProductId} {f : Product → Product}
    (hproducts : db'.products = db.products.modify p f)
    (hf : ∀ row, db.products.get p = some row → 0 ≤ (f row).stock) : InStock db' := by
  constructor
  intro q row hq
  rw [hproducts] at hq
  by_cases hqp : q = p
  · subst hqp
    rw [Table.get_modify_self] at hq
    obtain ⟨old, hold, rfl⟩ := Option.map_eq_some_iff.mp hq
    exact hf old hold
  · rw [Table.get_modify_ne _ hqp] at hq
    exact h.nonneg q row hq

/-- **One product's stock is set and its ledger row appended.** -/
theorem StockLedger.book (h : StockLedger db) (mv : Movement) (f : Product → Product)
    {row : Product} (hrow : db.products.get mv.productId = some row)
    (hproducts : db'.products = db.products.modify mv.productId f)
    (hmovements : db'.movements = db.movements ++ [mv])
    (hstock : (f row).stock = mv.stockAfter) (hafter : mv.stockAfter = mv.after row.stock)
    (hnonneg : 0 ≤ mv.stockAfter) (hfree : db.movementDup mv = false) : StockLedger db' := by
  have hold : ∀ p row', db'.products.get p = some row' → p ≠ mv.productId →
      db.products.get p = some row' ∧ db'.movementsOf p = db.movementsOf p := by
    intro p row' hp hne
    rw [hproducts, Table.get_modify_ne _ hne] at hp
    refine ⟨hp, ?_⟩
    simp [Db.movementsOf, hmovements, Ne.symm hne]
  have hnew : ∀ row', db'.products.get mv.productId = some row' →
      row'.stock = mv.stockAfter ∧
        db'.movementsOf mv.productId = db.movementsOf mv.productId ++ [mv] := by
    intro row' hp
    rw [hproducts, Table.get_modify_self, hrow] at hp
    obtain rfl : f row = row' := by simpa using hp
    refine ⟨hstock, ?_⟩
    simp [Db.movementsOf, hmovements]
  refine ⟨?_, ?_, ?_⟩
  · apply h.toInStock.modify hproducts
    intro row' hrow'
    obtain rfl := Option.some.inj (hrow.symm.trans hrow')
    rw [hstock]
    exact hnonneg
  · intro p row' hp
    by_cases hpm : p = mv.productId
    · subst hpm
      obtain ⟨hs, hrows⟩ := hnew row' hp
      rw [hs, hrows]
      exact (h.ledger _ row hrow).snoc hafter
    · obtain ⟨hp', hrows⟩ := hold p row' hp hpm
      rw [hrows]
      exact h.ledger p row' hp'
  · rw [hmovements, List.pairwise_append]
    refine ⟨h.unique, List.pairwise_singleton _ _, ?_⟩
    intro old hmem new hnew
    obtain rfl : new = mv := by simpa using hnew
    exact not_clashes hfree hmem

/-- Only the products and their ledger matter. -/
theorem StockLedger.congr (h : StockLedger db) (hproducts : db'.products = db.products)
    (hmovements : db'.movements = db.movements) : StockLedger db' := by
  have hrows : ∀ p, db'.movementsOf p = db.movementsOf p := by
    intro p
    rw [Db.movementsOf, hmovements, Db.movementsOf]
  refine ⟨h.toInStock.congr hproducts, ?_, hmovements ▸ h.unique⟩
  · intro p row hp
    rw [hproducts] at hp
    rw [hrows]
    exact h.ledger p row hp

end

/-! ## What the services do -/

/-- A property of the books, of the products and their ledger alone, that the four ways of booking
goods keep: each of them leaves the stock at zero or above and takes a free place of the index. -/
structure Booked (P : Db → Prop) : Prop where
  inStock : ∀ db, P db → InStock db
  congr : ∀ db db', P db → db'.products = db.products → db'.movements = db.movements → P db'
  moveOne : ∀ db type ref (m : ProductId × Int), P db →
    (∀ row, db.products.get m.1 = some row → 0 ≤ row.stock + m.2) →
      db.movementTaken type ref m.1 = false → P (db.moveOne type ref m)
  receiveOne : ∀ db i (r : Running), P db → 0 ≤ r.delta →
    db.movementTaken .receive i r.id = false → P (db.receiveOne i r)
  adjustStock : ∀ db p input, P db → parseStockAdjustment input = .ok () → P (db.adjustStock p input)

section
variable {db : Db}

/-- Moving one product's stock keeps the ledger, where the stock suffices. -/
theorem StockLedger.moveOne (h : StockLedger db) {type : MovementType} {ref : Nat}
    {m : ProductId × Int} (henough : ∀ row, db.products.get m.1 = some row → 0 ≤ row.stock + m.2)
    (hfree : db.movementTaken type ref m.1 = false) : StockLedger (db.moveOne type ref m) := by
  unfold Db.moveOne
  split
  · exact h
  · rename_i row hrow
    have hnonneg : 0 ≤ row.stock + m.2 := henough row hrow
    apply h.book ⟨m.1, m.2, type, row.stock + m.2, some ref⟩ (Product.addStock m.2) hrow rfl rfl rfl
    · symm
      exact Movement.after_of_nonneg hnonneg
    · exact hnonneg
    · exact hfree

/-- So does receiving one product of an order. -/
theorem StockLedger.receiveOne (h : StockLedger db) {i : PoId} {r : Running} (hdelta : 0 ≤ r.delta)
    (hfree : db.movementTaken .receive i r.id = false) : StockLedger (db.receiveOne i r) := by
  cases hrow : db.products.get r.id with
  | none =>
      apply h.congr
      · simp [Db.receiveOne, Table.modify_of_none hrow]
      · simp [Db.receiveOne, hrow]
  | some row =>
      have hstock := h.nonneg r.id row hrow
      have hnonneg : 0 ≤ row.stock + r.delta := by omega
      apply h.book ⟨r.id, r.delta, .receive, row.stock + r.delta, some i⟩
        (fun row => { row with stock := row.stock + r.delta, cost := r.cost }) hrow rfl
      · simp [Db.receiveOne, hrow]
      · rfl
      · symm
        exact Movement.after_of_nonneg hnonneg
      · exact hnonneg
      · exact hfree

/-- So does an adjustment, which is clamped at nothing. -/
theorem StockLedger.adjustStock (h : StockLedger db) {p : ProductId} {input : StockAdjustment}
    (hparse : parseStockAdjustment input = .ok ()) : StockLedger (db.adjustStock p input) := by
  cases hrow : db.products.get p with
  | none =>
      apply h.congr
      · simp [Db.adjustStock, Table.modify_of_none hrow]
      · simp [Db.adjustStock, hrow]
  | some row =>
      have htype : input.type.isAdjustment = true := by
        unfold parseStockAdjustment at hparse
        split at hparse
        · cases hparse
        · split at hparse
          · cases hparse
          · rename_i hno
            simpa using hno
      apply h.book ⟨p, input.delta, input.type, adjusted row.stock input.delta, none⟩
        (fun row => { row with stock := adjusted row.stock input.delta }) hrow rfl
      · simp [Db.adjustStock, hrow]
      · rfl
      · unfold Movement.after
        rw [if_pos htype]
      · exact le_max_left _ _
      · rfl

theorem StockLedger.booked : Booked StockLedger where
  inStock _ h := h.toInStock
  congr _ _ h := h.congr
  moveOne _ _ _ _ h := h.moveOne
  receiveOne _ _ _ h := h.receiveOne
  adjustStock _ _ _ h := h.adjustStock

/-- Stock that is not negative is kept by all that the bookings do. -/
theorem InStock.booked : Booked InStock where
  inStock _ h := h
  congr _ _ h hproducts _ := h.congr hproducts
  moveOne db type ref m h henough _ := by
    unfold Db.moveOne
    split
    · exact h
    · exact h.modify (f := Product.addStock m.2) rfl henough
  receiveOne _ _ r h hdelta _ := by
    apply h.modify (f := fun row => { row with stock := row.stock + r.delta, cost := r.cost }) rfl
    intro row hrow
    exact add_nonneg (h.nonneg r.id row hrow) hdelta
  adjustStock _ _ input h _ := by
    apply h.modify (f := fun row => { row with stock := adjusted row.stock input.delta }) rfl
    intro row _
    exact le_max_left _ _

end

section
variable {db : Db} {P : Db → Prop} (hP : Booked P)

include hP

/-- The moves of one document: each product once, and none below zero. -/
theorem Booked.moveStock (h : P db) {type : MovementType} {ref : Nat}
    {moves : List (ProductId × Int)} (hkeys : (moves.map Prod.fst).Nodup)
    (henough : ∀ m ∈ moves, ∀ row, db.products.get m.1 = some row → 0 ≤ row.stock + m.2)
    (hfree : ∀ p, db.movementTaken type ref p = false) : P (db.moveStock type ref moves) := by
  induction moves using List.reverseRecOn with
  | nil => exact h
  | append_singleton moves m ih =>
      rw [List.map_append, List.nodup_append] at hkeys
      have hm : m.1 ∉ moves.map Prod.fst := by
        intro hmem
        exact hkeys.2.2 _ hmem _ List.mem_cons_self rfl
      have hmoves := ih hkeys.1 fun m' hm' => henough m' (List.mem_append_left _ hm')
      rw [moveStock_append, moveStock_cons, moveStock_nil]
      apply hP.moveOne _ _ _ _ hmoves
      · intro row hrow
        -- the moves before this one name other products
        rw [get_products_moveStock, shiftOf_of_notMem moves hm] at hrow
        obtain ⟨row₀, hrow₀, rfl⟩ := Option.map_eq_some_iff.mp hrow
        have := henough m (by simp) row₀ hrow₀
        simp only [Product.addStock]
        omega
      · rw [movementTaken_moveStock_ne _ _ _ _ hm]
        exact hfree m.1

/-- What each product of an order keeps, the order keeps. -/
theorem Booked.receiveAll (h : P db) {i : PoId} {touched : List Running}
    (hkeys : (touched.map (·.id)).Nodup) (hdelta : ∀ r ∈ touched, 0 ≤ r.delta)
    (hfree : ∀ p, db.movementTaken .receive i p = false) : P (db.receiveAll i touched) := by
  induction touched using List.reverseRecOn with
  | nil => exact h
  | append_singleton touched r ih =>
      rw [List.map_append, List.nodup_append] at hkeys
      have hr : r.id ∉ touched.map (·.id) := by
        intro hmem
        exact hkeys.2.2 _ hmem _ (by simp) rfl
      have htouched := ih hkeys.1 fun r' hr' => hdelta r' (List.mem_append_left _ hr')
      rw [receiveAll_snoc]
      apply hP.receiveOne _ _ _ htouched (hdelta r (by simp))
      rw [Db.movementTaken, (receiveAll_ne i db hr).2]
      exact hfree r.id

/-! ## What the changes do -/

/-- What has come back never takes the stock below zero. -/
private theorem Booked.enough (h : P db) {moves : List (ProductId × Int)}
    (hpos : ∀ m ∈ moves, 0 ≤ m.2) :
    ∀ m ∈ moves, ∀ row, db.products.get m.1 = some row → 0 ≤ row.stock + m.2 := by
  intro m hm row hrow
  have := (hP.inStock db h).nonneg m.1 row hrow
  have := hpos m hm
  omega

/-- **Every change of the books books its goods in these ways only.** -/
theorem Booked.changes {e : Effect} {s s' : Db} (h : Changes s e s') (hs : s.Consistent)
    (hl : P s) : P s' := by
  cases h with
  | none => exact hl
  -- goods that leave are on the shelf, goods that come back are not negative
  | sale actor dto k row hsrc hadm =>
      have hins : P (s.insertSale dto.id row) := hP.congr _ _ hl rfl rfl
      have hmoved : P ((s.insertSale dto.id row).moveStock .sale dto.id (saleMoves dto.items)) := by
        apply hP.moveStock hins
        · rw [keys_saleMoves]
          exact nodup_aggregate _
        · intro m hm product hproduct
          obtain ⟨d, hd, rfl⟩ := List.mem_map.mp hm
          obtain ⟨product', hproduct', -, henough⟩ := hadm.stock d hd
          obtain rfl := Option.some.inj (hproduct'.symm.trans hproduct)
          simp only
          omega
        · exact hs.sale_free hadm.insertable.fresh
      exact hP.congr _ _ hmoved rfl rfl
  | creditNote actor r dto sale note hparse hadm hnew =>
      have hins : P (s.insertReturn r note) := hP.congr _ _ hl rfl rfl
      have hmoved : P ((s.insertReturn r note).moveStock .creditNote r
          (returnMoves (aggregateReturn dto.items))) := by
        apply hP.moveStock hins
        · exact nodup_groupMoves _
        · apply hP.enough hins
          exact nonneg_returnMoves _
        · exact hs.note_free hnew
      exact hP.congr _ _ hmoved rfl rfl
  | voidSale actor x reason sale k hadm =>
      have hmoved : P (s.moveStock .void x (voidMoves sale.items)) := by
        apply hP.moveStock hl
        · exact nodup_voidMoves _
        · apply hP.enough hl
          exact nonneg_voidMoves _
        · exact hs.void_free hadm.bill hadm.live
      exact hP.congr _ _ hmoved rfl rfl
  | creditPayment actor i m dto row hparse hadm hnew => exact hP.congr _ _ hl rfl rfl
  | adjustStock p input row hparse hrow hmax => exact hP.adjustStock _ _ _ hl hparse
  | receivePo lower i ids po states unmatched hpo hopen hids hstates =>
      have hmoved : P (s.receiveAll i (states.filter fun r => decide (r.delta > 0))) := by
        apply hP.receiveAll hl
        · have hnodup := (receipt_ok hids hstates).1
          exact hnodup.sublist ((List.filter_sublist).map _)
        · intro r hr
          have hpos : r.delta > 0 := by simpa using (List.mem_filter.mp hr).2
          omega
        · apply hs.receive_free hpo
          rw [hopen]
          decide
      exact hP.congr _ _ hmoved rfl rfl
  | openShift d next openedAt hnew =>
      rw [Db.archiveActive_eq]
      cases next <;> exact hP.congr _ _ hl rfl rfl
  | closeShift d k row cash hrow hopen => exact hP.congr _ _ hl rfl rfl
  | retire s₁ d hclosed => cases hclosed <;> exact hP.congr _ _ hl rfl rfl
  | entry d e entry k row hrow hopen hnew => exact hP.congr _ _ hl rfl rfl
  | editMechanic m patch row hrow halive => exact hP.congr _ _ hl rfl rfl
  | createCustomer c input code hnew => exact hP.congr _ _ hl rfl rfl
  | editCustomer c patch row hrow halive => exact hP.congr _ _ hl rfl rfl

theorem Booked.performs {e : Effect} {s s' : Db} (h : Performs e s s') (hs : s.Consistent)
    (hl : P s) : P s' := by
  obtain ⟨t, desk, hch, rfl⟩ := h
  exact hP.congr _ _ (hP.changes hch hs hl) rfl rfl

end

/-! ## Main result -/

section
variable {T : Type} [DecidableEq T] {s₀ : Db} {S : System T}

/-- **In every reachable state of the server the stock ledger is in order**, and no transaction,
however the others run around it, has failed on the unique index of the ledger or on a stock that
ran below zero. -/
theorem stock_ledger_in_order (h₀ : s₀.Consistent) (hl : StockLedger s₀)
    (h : Reachable prog s₀ S) :
    StockLedger S.db ∧ ∀ t x, S.live t = some x →
      x.prog ≠ .fail .movementDuplicate ∧ x.prog ≠ .fail .stockUnderflow := by
  refine ⟨?_, ?_⟩
  · apply Reachable.invariant StockLedger h₀ hl ?_ h
    intro e s s' hs hJ hperf
    exact StockLedger.booked.performs hperf hs hJ
  · intro t x hx
    refine ⟨?_, ?_⟩
    · intro hfail
      have hexp : Expected .movementDuplicate := Reachable.error sound h₀ h hx hfail
      cases hexp
    · intro hfail
      have hexp : Expected .stockUnderflow := Reachable.error sound h₀ h hx hfail
      cases hexp

/-- A bill of two pieces, of which one comes back; then a correction that finds fewer than it
takes away. -/
def smallDay : List Op :=
  [.post (plainEnv 0 90) ⟨1⟩ 1 0 (.sale (cashBill 21 2 Nat.two_pos) none),
   .post (plainEnv 1 91) ⟨1⟩ 2 0 (.creditNote
     ⟨some 31, 21, none, .cash, [⟨7, "brake pad", 1, 100, none, Int.zero_lt_one⟩]⟩),
   .post (plainEnv 2 92) ⟨1⟩ 3 0 (.adjustStock 7 ⟨-6, .adjustmentOut⟩)]

/-- A day of a sale, a return and an adjustment. -/
theorem stock_ledger_of_small_day : ∃ S : System Nat, Reachable prog smallShop S ∧
    (S.db.movementsOf 7).map (·.stockAfter) = [3, 4, 0] ∧ StockLedger S.db := by
  have hl : smallShop.Consistent ∧ StockLedger smallShop := by
    apply StockLedger.opening rfl
    intro p row hrow
    obtain ⟨rfl, rfl⟩ : p = 7 ∧ row = ⟨"PN-7", "brake pad", 60, 5, false⟩ := by
      have := (Table.mem_rows _).mpr hrow
      simpa [smallShop, Table.insert, Table.empty] using this
    decide
  obtain ⟨S, hreach, hrows⟩ : ∃ S : System Nat, Reachable prog smallShop S ∧
      S.db = rowsAfter prog smallDay smallShop := reachable_rowsAfter (by decide +kernel)
  refine ⟨S, hreach, ?_, (stock_ledger_in_order hl.1 hl.2 hreach).1⟩
  rw [hrows]
  decide +kernel

end

end Server

import SrisurartPos.Server.Program
import SrisurartPos.Grouping

/-! # Stock and running totals

What the documents that move goods and money share: the stock of a product moves together with a
row of the stock ledger, and the running totals of a customer and of a mechanic move with every
total clamped at zero (`GREATEST(0, …)`). -/

namespace Server

open Txn

def Product.addStock (d : Int) (p : Product) : Product := { p with stock := p.stock + d }

/-- `points = GREATEST(0, points + …), total_spend = GREATEST(0, total_spend + …)` -/
def Customer.move (points spend : Int) (c : Customer) : Customer :=
  { c with points := max 0 (c.points + points), totalSpend := max 0 (c.totalSpend + spend) }

/-- The four running totals of a mechanic, each `GREATEST(0, … + …)`. -/
def Mechanic.move (sales discount markup balance : Int) (m : Mechanic) : Mechanic :=
  { m with
    totalSales := max 0 (m.totalSales + sales)
    totalDiscount := max 0 (m.totalDiscount + discount)
    totalMarkup := max 0 (m.totalMarkup + markup)
    creditBalance := max 0 (m.creditBalance + balance) }

def customerAfter (c : CustomerId) (row : Customer) : CustomerAfter :=
  ⟨c, row.points, row.totalSpend⟩

def mechanicAfter (m : MechanicId) (row : Mechanic) : MechanicAfter :=
  ⟨m, row.totalSales, row.totalDiscount, row.totalMarkup, row.creditBalance⟩

namespace Db

/-- `uq_movements_ref` stands in the way of the row. A row without a document never collides. -/
def movementDup (db : Db) (mv : Movement) : Bool :=
  match mv.refId with
  | none     => false
  | some ref => db.movementTaken mv.type ref mv.productId

/-- One product's stock moved by `m.2`, with the ledger row that says so. A product without a row
is skipped. -/
def moveOne (type : MovementType) (ref : Nat) (db : Db) (m : ProductId × Int) : Db :=
  match db.products.get m.1 with
  | none     => db
  | some row =>
      (db.modifyProduct m.1 (Product.addStock m.2)).addMovement
        ⟨m.1, m.2, type, row.stock + m.2, some ref⟩

/-- The moves made one after the other. -/
def moveStock (type : MovementType) (ref : Nat) (moves : List (ProductId × Int)) (db : Db) : Db :=
  let moved := moves.foldl (moveOne type ref) db
  { db with products := moved.products, movements := moved.movements }

def withProducts (t : Table ProductId Product) (db : Db) : Db := { db with products := t }

def appendMovements (rows : List Movement) (db : Db) : Db :=
  { db with movements := db.movements ++ rows }

/-- The products once the moves are made. -/
def restock (moves : List (ProductId × Int)) (t : Table ProductId Product) :
    Table ProductId Product :=
  moves.foldl (fun t m => t.modify m.1 (Product.addStock m.2)) t

/-- The ledger rows of moves that name each product at most once. -/
def ledgerRows (type : MovementType) (ref : Nat) (moves : List (ProductId × Int))
    (t : Table ProductId Product) : List Movement :=
  moves.filterMap fun m => (t.get m.1).map fun row => ⟨m.1, m.2, type, row.stock + m.2, some ref⟩

def updateCustomer (c : Option CustomerId) (f : Customer → Customer) (db : Db) : Db :=
  { db with customers := c.elim db.customers fun c => db.customers.modify c f }

def updateMechanic (m : Option MechanicId) (f : Mechanic → Mechanic) (db : Db) : Db :=
  { db with mechanics := m.elim db.mechanics fun m => db.mechanics.modify m f }

end Db

/-! ## Statements -/

def insertMovement (mv : Movement) : Prog Unit := do
  let dup ← Tx.query fun db => db.movementDup mv
  Tx.require (dup = false) .movementDuplicate
  Tx.update fun db => db.addMovement mv

/-- Puts `m.2` pieces of the product back and writes the ledger row. -/
def restoreOne (type : MovementType) (ref : Nat) (m : ProductId × Int) : Prog (Option Movement) := do
  let updated ← Tx.updateReturning (.product m.1)
    (fun db => db.modifyProduct m.1 (Product.addStock m.2)) fun db => db.products.get m.1
  match updated with
  | none     => return none
  | some row => do
      let mv : Movement := ⟨m.1, m.2, type, row.stock, some ref⟩
      insertMovement mv
      return some mv

/-- `UPDATE customers … RETURNING …`, when the document names a customer. -/
def updateCustomer (c : Option CustomerId) (f : Customer → Customer) :
    Prog (Option CustomerAfter) :=
  match c with
  | none   => return none
  | some c => Tx.updateReturning (.customer c) (fun db => db.modifyCustomer c f) fun db =>
      (db.customers.get c).map (customerAfter c)

/-- `UPDATE mechanics … RETURNING …`, when the document names a mechanic. -/
def updateMechanic (m : Option MechanicId) (f : Mechanic → Mechanic) :
    Prog (Option MechanicAfter) :=
  match m with
  | none   => return none
  | some m => Tx.updateReturning (.mechanic m) (fun db => db.modifyMechanic m f) fun db =>
      (db.mechanics.get m).map (mechanicAfter m)

/-- The mechanic's row, locked, when the document names a mechanic. -/
def lockMechanic (m : Option MechanicId) : Prog (Option Mechanic) :=
  match m with
  | none   => return none
  | some m => Tx.selectFor .update (.mechanic m) fun db => db.mechanics.get m

/-! ## Moves of stock -/

section
variable (type : MovementType) (ref : Nat) (moves : List (ProductId × Int)) (db : Db)

theorem moveOne_eq (m : ProductId × Int) :
    db.moveOne type ref m = { db with
      products := db.products.modify m.1 (Product.addStock m.2)
      movements := db.movements ++ Db.ledgerRows type ref [m] db.products } := by
  cases hrow : db.products.get m.1 with
  | none => simp [Db.moveOne, hrow, Db.ledgerRows, Table.modify_of_none hrow]
  | some row => simp [Db.moveOne, hrow, Db.ledgerRows, Db.addMovement, Db.modifyProduct]

/-- How far the moves shift one product. -/
def shiftOf (moves : List (ProductId × Int)) (p : ProductId) : Int :=
  (moves.map fun m => if m.1 = p then m.2 else 0).sum

@[simp] theorem moveStock_nil : db.moveStock type ref [] = db := rfl

theorem moveStock_cons (m : ProductId × Int) :
    db.moveStock type ref (m :: moves) = (db.moveOne type ref m).moveStock type ref moves := by
  simp only [Db.moveStock, List.foldl_cons]
  generalize moves.foldl (Db.moveOne type ref) (db.moveOne type ref m) = moved
  rw [moveOne_eq]

theorem moveStock_append (moves' : List (ProductId × Int)) :
    db.moveStock type ref (moves ++ moves') =
      (db.moveStock type ref moves).moveStock type ref moves' := by
  induction moves generalizing db with
  | nil => rfl
  | cons m moves ih => rw [List.cons_append, moveStock_cons, ih, moveStock_cons]

/-- Each product's stock moves by the sum of what the moves say of it. -/
theorem get_restock (t : Table ProductId Product) (p : ProductId) :
    (Db.restock moves t).get p = (t.get p).map (Product.addStock (shiftOf moves p)) := by
  induction moves generalizing t with
  | nil =>
      have : Product.addStock 0 = id := by funext row; simp [Product.addStock]
      simp [Db.restock, shiftOf, this]
  | cons m moves ih =>
      show (Db.restock moves (t.modify m.1 (Product.addStock m.2))).get p = _
      rw [ih, Table.get_modify]
      by_cases hp : p = m.1
      · subst hp
        rw [if_pos rfl, Option.map_map]
        congr 1
        funext row
        simp [Product.addStock, shiftOf, add_assoc]
      · simp [hp, Ne.symm hp, shiftOf]

theorem products_moveStock :
    (db.moveStock type ref moves).products = Db.restock moves db.products := by
  induction moves generalizing db with
  | nil => rfl
  | cons m moves ih =>
      rw [moveStock_cons, ih, moveOne_eq]
      rfl

theorem get_products_moveStock (p : ProductId) :
    (db.moveStock type ref moves).products.get p =
      (db.products.get p).map (Product.addStock (shiftOf moves p)) := by
  rw [products_moveStock, get_restock]

theorem shiftOf_of_notMem {p : ProductId} (hp : p ∉ moves.map Prod.fst) : shiftOf moves p = 0 :=
  Grouping.sum_of_key_notMem hp Prod.snd

/-- Adds up the moves of each product, in the order in which the products first occur. -/
def groupMoves (moves : List (ProductId × Int)) : List (ProductId × Int) :=
  Grouping.collapse Prod.fst (fun m m' => (m.1, m.2 + m'.2)) moves

private theorem move_key (m m' : ProductId × Int) : (m.1, m.2 + m'.2).1 = m.1 := rfl

theorem nodup_groupMoves : ((groupMoves moves).map Prod.fst).Nodup :=
  Grouping.nodup_collapse move_key _

theorem mem_groupMoves {p : ProductId} :
    p ∈ (groupMoves moves).map Prod.fst ↔ p ∈ moves.map Prod.fst :=
  Grouping.mem_collapse move_key _ _

theorem nonneg_groupMoves {moves : List (ProductId × Int)} (h : ∀ m ∈ moves, 0 ≤ m.2) :
    ∀ m ∈ groupMoves moves, 0 ≤ m.2 := by
  apply Grouping.forall_collapse ?_ h
  intro m m' hm hm'
  exact add_nonneg hm hm'

theorem shiftOf_groupMoves (p : ProductId) : shiftOf (groupMoves moves) p = shiftOf moves p := by
  refine Grouping.sum_collapse move_key (fun m m' hm => ?_) moves
  by_cases hp : m.1 = p
  · simp [hp, hm ▸ hp]
  · have hp' : m'.1 ≠ p := fun h => hp (hm.trans h)
    simp [hp, hp']

/-- Moves that name each product at most once write their ledger rows from the stock before. -/
theorem moveStock_eq (hkeys : (moves.map Prod.fst).Nodup) :
    db.moveStock type ref moves =
      (db.withProducts (Db.restock moves db.products)).appendMovements
        (Db.ledgerRows type ref moves db.products) := by
  induction moves generalizing db with
  | nil => simp [Db.restock, Db.ledgerRows, Db.withProducts, Db.appendMovements]
  | cons m moves ih =>
      rw [List.map_cons, List.nodup_cons] at hkeys
      rw [moveStock_cons, ih _ hkeys.2, moveOne_eq]
      have hrows : Db.ledgerRows type ref moves (db.products.modify m.1 (Product.addStock m.2)) =
          Db.ledgerRows type ref moves db.products := by
        apply List.filterMap_congr
        intro m' hm'
        have hne : m'.1 ≠ m.1 := fun heq => hkeys.1 (List.mem_map.mpr ⟨m', hm', heq⟩)
        rw [Table.get_modify_ne _ hne]
      simp only [Db.withProducts, Db.appendMovements]
      rw [hrows, List.append_assoc]
      have happ : Db.ledgerRows type ref [m] db.products ++ Db.ledgerRows type ref moves db.products =
          Db.ledgerRows type ref (m :: moves) db.products := by
        rw [Db.ledgerRows, Db.ledgerRows, Db.ledgerRows, ← List.filterMap_append]
        rfl
      rw [happ]
      rfl

theorem movementsOf_moveOne_ne {m : ProductId × Int} {p : ProductId} (hp : p ≠ m.1) :
    (db.moveOne type ref m).movementsOf p = db.movementsOf p := by
  rw [Db.moveOne]
  split
  · rfl
  · rw [movementsOf_addMovement, if_neg (Ne.symm hp), List.append_nil]
    rfl

theorem movementsOf_moveStock_ne {p : ProductId} (hp : p ∉ moves.map Prod.fst) :
    (db.moveStock type ref moves).movementsOf p = db.movementsOf p := by
  induction moves generalizing db with
  | nil => rfl
  | cons m moves ih =>
      rw [List.map_cons, List.mem_cons, not_or] at hp
      rw [moveStock_cons, ih _ hp.2, movementsOf_moveOne_ne type ref db hp.1]

/-- A product the moves do not name keeps its free places in the ledger. -/
theorem movementTaken_moveStock_ne {p : ProductId} (hp : p ∉ moves.map Prod.fst)
    (type' : MovementType) (ref' : Nat) :
    (db.moveStock type ref moves).movementTaken type' ref' p = db.movementTaken type' ref' p := by
  rw [Db.movementTaken, Db.movementTaken, movementsOf_moveStock_ne type ref moves db hp]

end

/-! ## What the statements do -/

section
variable {H : Held LockKey} {s s' : Db}

theorem wp_insertMovement {mv : Movement} {Q : Unit → Held LockKey → Db → Prop}
    (hfree : s.movementDup mv = false) (h : Q () H (s.addMovement mv)) :
    wp (insertMovement mv) H s Expected Q :=
  wp_bind_query (wp_bind_require (fun _ => h) fun hno => absurd hfree hno)

theorem Covered.moveOne (h : Covered agree H s s') {type : MovementType} {ref : Nat}
    {m : ProductId × Int} (hp : (.product m.1, .update) ∈ H) :
    Covered agree H s (s'.moveOne type ref m) := by
  rw [Db.moveOne]
  split
  · exact h
  · exact Covered.addMovement (Covered.modifyProduct h hp _) hp

/-- One product's stock is moved under its lock, together with the movement that says so. -/
theorem wp_restoreOne {type : MovementType} {ref : Nat} {m : ProductId × Int}
    {Q : Option Movement → Held LockKey → Db → Prop}
    (hfree : s.movementTaken type ref m.1 = false)
    (h : ∀ out, Q out ((.product m.1, .update) :: H) (s.moveOne type ref m)) :
    wp (restoreOne type ref m) H s Expected Q := by
  refine wp_bind_updateReturning ?_
  have hget : (s.modifyProduct m.1 (Product.addStock m.2)).products.get m.1 =
      (s.products.get m.1).map (Product.addStock m.2) := Table.get_modify_self _ _ _
  rw [hget]
  cases hrow : s.products.get m.1 with
  | none =>
      have hs : s.moveOne type ref m = s.modifyProduct m.1 (Product.addStock m.2) := by
        rw [Db.moveOne, hrow, Db.modifyProduct, Table.modify_of_none hrow]
      exact hs ▸ h none
  | some row =>
      have hs : s.moveOne type ref m =
          (s.modifyProduct m.1 (Product.addStock m.2)).addMovement
            ⟨m.1, m.2, type, row.stock + m.2, some ref⟩ := by
        rw [Db.moveOne, hrow]
      refine (wp_bind _ _).mpr (wp_insertMovement hfree ?_)
      exact hs ▸ h _

/-- The loop that puts goods back: one ledger row for each product named. -/
theorem wp_restoreAll {type : MovementType} {ref : Nat} {moves : List (ProductId × Int)}
    {Q : List (Option Movement) → Held LockKey → Db → Prop}
    (hkeys : (moves.map Prod.fst).Nodup)
    (hfree : ∀ p, s.movementTaken type ref p = false)
    (h : ∀ out H', H ⊆ H' → Covered agree H' s (s.moveStock type ref moves) →
      Q out H' (s.moveStock type ref moves)) :
    wp (Tx.collect moves (restoreOne type ref)) H s Expected Q := by
  refine wp_collect (fun _ rest H₁ s₁ => ∃ done, done ++ rest = moves ∧
    s₁ = s.moveStock type ref done ∧ H ⊆ H₁ ∧ Covered agree H₁ s s₁)
    ⟨[], rfl, rfl, List.Subset.refl _, Covered.refl _ _⟩ ?_ ?_
  · rintro as m rest H₁ s₁ ⟨done, hmoves, rfl, hH, hcov⟩
    have hm : m.1 ∉ done.map Prod.fst := by
      rw [← hmoves, List.map_append, List.nodup_append] at hkeys
      exact fun hmem => hkeys.2.2 _ hmem _ List.mem_cons_self rfl
    refine wp_restoreOne ?_ fun out => ⟨done ++ [m], by simpa using hmoves, ?_, ?_, ?_⟩
    · rw [movementTaken_moveStock_ne _ _ _ _ hm]
      exact hfree m.1
    · rw [moveStock_append, moveStock_cons, moveStock_nil]
    · exact List.Subset.trans hH (List.subset_cons_self _ _)
    · exact Covered.moveOne (Covered.mono hcov (List.subset_cons_self _ _)) List.mem_cons_self
  · rintro as H' s' ⟨done, hmoves, rfl, hH, hcov⟩
    rw [List.append_nil] at hmoves
    subst hmoves
    exact h as H' hH hcov

theorem wp_updateCustomer {c : Option CustomerId} {f : Customer → Customer}
    {Q : Option CustomerAfter → Held LockKey → Db → Prop}
    (h : ∀ out H', H ⊆ H' → Covered agree H' s (s.updateCustomer c f) →
      Q out H' (s.updateCustomer c f)) :
    wp (updateCustomer c f) H s Expected Q := by
  cases c with
  | none => exact h _ H (List.Subset.refl _) (Covered.refl _ _)
  | some c =>
      refine (wp_updateReturning _ _ _).mpr (h _ _ (List.subset_cons_self _ _) ?_)
      exact Covered.modifyCustomer (Covered.refl _ _) List.mem_cons_self _

/-- The answer is there when the row is. -/
theorem wp_updateMechanic {m : Option MechanicId} {f : Mechanic → Mechanic}
    {Q : Option MechanicAfter → Held LockKey → Db → Prop}
    (h : ∀ out H', out.isSome = (m.bind s.mechanics.get).isSome → H ⊆ H' →
      Covered agree H' s (s.updateMechanic m f) → Q out H' (s.updateMechanic m f)) :
    wp (updateMechanic m f) H s Expected Q := by
  cases m with
  | none => exact h _ H rfl (List.Subset.refl _) (Covered.refl _ _)
  | some m =>
      refine (wp_updateReturning _ _ _).mpr (h _ _ ?_ (List.subset_cons_self _ _) ?_)
      · show ((((s.mechanics.modify m f).get m).map (mechanicAfter m))).isSome =
          (s.mechanics.get m).isSome
        rw [Option.isSome_map, Table.isSome_modify]
      · exact Covered.modifyMechanic (Covered.refl _ _) List.mem_cons_self _

theorem wp_lockMechanic {m : Option MechanicId} {Q : Option Mechanic → Held LockKey → Db → Prop}
    (h : ∀ H', H ⊆ H' → Q (m.bind s.mechanics.get) H' s) :
    wp (lockMechanic m) H s Expected Q := by
  cases m with
  | none => exact h H (List.Subset.refl _)
  | some m => exact (wp_selectFor _ _ _).mpr (h _ (List.subset_cons_self _ _))

/-! ## Their locks -/

/-- The row of a product that is locked. -/
theorem product_of_agree {p : ProductId} {m : Mode} (s s' : Db) (h : agree (.product p, m) s s') :
    s.products.get p = s'.products.get p := (View.product.inj h).1

theorem disciplined_insertMovement {mv : Movement} (hp : (.product mv.productId, .update) ∈ H) :
    Disciplined agree (insertMovement mv) H fun _ _ => True := by
  refine disciplined_bind_query (fun s s' hs => ?_) fun dup =>
    disciplined_bind_require fun _ => ⟨respects_addMovement _, trivial⟩
  have hmov := (View.product.inj (hs _ hp)).2
  cases hr : mv.refId with
  | none => simp [Db.movementDup, hr]
  | some ref => simp only [Db.movementDup, hr, Db.movementTaken, hmov]

theorem disciplined_restoreOne (type : MovementType) (ref : Nat) (m : ProductId × Int) :
    Disciplined agree (restoreOne type ref m) H fun _ _ => True := by
  refine disciplined_bind_updateReturning (respects_modifyProduct _ _) product_of_agree ?_
  intro updated
  cases updated with
  | none => trivial
  | some row =>
      exact Disciplined.seq (disciplined_insertMovement List.mem_cons_self) fun _ _ _ _ => trivial

theorem disciplined_restoreAll (type : MovementType) (ref : Nat)
    (moves : List (ProductId × Int)) :
    Disciplined agree (Tx.collect moves (restoreOne type ref)) H fun _ _ => True :=
  disciplined_collect (fun _ => True) trivial (fun m _ _ _ => disciplined_restoreOne type ref m)
    fun _ _ _ => trivial

theorem disciplined_updateCustomer (c : Option CustomerId) (f : Customer → Customer) :
    Disciplined agree (updateCustomer c f) H fun _ _ => True := by
  cases c with
  | none => trivial
  | some c =>
      refine (disciplined_updateReturning (respects_modifyCustomer _ _) fun s s' hs => ?_).mono
        fun _ _ _ => trivial
      rw [View.customer.inj hs]

theorem disciplined_updateMechanic (m : Option MechanicId) (f : Mechanic → Mechanic) :
    Disciplined agree (updateMechanic m f) H fun _ _ => True := by
  cases m with
  | none => trivial
  | some m =>
      refine (disciplined_updateReturning (respects_modifyMechanic _ _) fun s s' hs => ?_).mono
        fun _ _ _ => trivial
      rw [View.mechanic.inj hs]

theorem disciplined_lockMechanic (m : Option MechanicId) :
    Disciplined agree (lockMechanic m) H fun _ _ => True := by
  cases m with
  | none => trivial
  | some m =>
      exact (disciplined_selectFor fun s s' hs => View.mechanic.inj hs).mono fun _ _ _ => trivial

end

/-! ## The ledger's references

A ledger row that names a document is only written together with that document, or with its being
voided or received. This is what keeps the places of `uq_movements_ref` free for the next one. -/

/-- The document a ledger row names is there. -/
def Db.Backs (db : Db) (mv : Movement) : Prop :=
  ∀ ref, mv.refId = some ref →
    match mv.type with
    | .sale       => (db.sales.get ref).isSome = true
    | .creditNote => (db.returns.get ref).isSome = true
    | .void       => (db.sales.get ref).any (·.voided) = true
    | .receive    => (db.purchaseOrders.get ref).any (·.status = .received) = true
    | _           => True

/-- Every ledger row's document is there. -/
def Db.Consistent (db : Db) : Prop := ∀ mv ∈ db.movements, db.Backs mv

section
variable {db : Db}

private theorem movementTaken_eq_false {type : MovementType} {ref : Nat} {p : ProductId}
    (h : ∀ mv ∈ db.movements, mv.type = type → mv.refId ≠ some ref) :
    db.movementTaken type ref p = false := by
  rw [Db.movementTaken, List.any_eq_false]
  intro mv hmv
  have hmem := (List.mem_filter.mp hmv).1
  simpa using h mv hmem

theorem Db.Consistent.sale_free (h : db.Consistent) {x : SaleId} (hx : db.sales.get x = none)
    (p : ProductId) : db.movementTaken .sale x p = false :=
  movementTaken_eq_false fun mv hmv ht hr => by simpa [ht, hx] using h mv hmv x hr

theorem Db.Consistent.note_free (h : db.Consistent) {r : ReturnId} (hr : db.returns.get r = none)
    (p : ProductId) : db.movementTaken .creditNote r p = false :=
  movementTaken_eq_false fun mv hmv ht hf => by simpa [ht, hr] using h mv hmv r hf

theorem Db.Consistent.void_free (h : db.Consistent) {x : SaleId} {sale : Sale}
    (hx : db.sales.get x = some sale) (hv : sale.voided = false) (p : ProductId) :
    db.movementTaken .void x p = false :=
  movementTaken_eq_false fun mv hmv ht hr => by simpa [ht, hx, hv] using h mv hmv x hr

theorem Db.Consistent.receive_free (h : db.Consistent) {i : PoId} {po : PurchaseOrder}
    (hi : db.purchaseOrders.get i = some po) (hs : po.status ≠ .received) (p : ProductId) :
    db.movementTaken .receive i p = false :=
  movementTaken_eq_false fun mv hmv ht hr => by simpa [ht, hi, hs] using h mv hmv i hr

end

/-- The rows that moves of stock add to the ledger. -/
theorem mem_movements_moveStock {type : MovementType} {ref : Nat}
    {moves : List (ProductId × Int)} {db : Db} {mv : Movement}
    (h : mv ∈ (db.moveStock type ref moves).movements) :
    mv ∈ db.movements ∨ mv.type = type ∧ mv.refId = some ref := by
  induction moves generalizing db with
  | nil => exact .inl h
  | cons m moves ih =>
      rw [moveStock_cons] at h
      refine (ih h).elim (fun hmv => ?_) .inr
      rw [moveOne_eq] at hmv
      refine (List.mem_append.mp hmv).imp_right fun hrow => ?_
      obtain ⟨m', -, hrow⟩ := List.mem_filterMap.mp hrow
      obtain ⟨row, -, rfl⟩ := Option.map_eq_some_iff.mp hrow
      exact ⟨rfl, rfl⟩

end Server

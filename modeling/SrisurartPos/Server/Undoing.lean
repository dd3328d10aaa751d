import SrisurartPos.Server.Bills

/-! # Two ways to undo a bill

A bill is undone by a manual void, which leaves no notes, or by credit notes, the last of which voids
it. No column tells the two voids apart: the reports infer it from the notes. That is right because
the two never meet on one bill, and it is what the money figures rest on. -/

namespace Server

open Txn

/-! ## Events -/

/-- The bill was voided by hand. -/
def Committed.VoidsByHand (x : SaleId) (c : Committed) : Prop :=
  ∃ actor reason, c.effect = .voidSale actor x reason

/-- The bill was voided by the note that completed its return. -/
structure Committed.AutoVoids (x : SaleId) (c : Committed) : Prop where
  note : ∃ actor r dto, c.effect = .creditNote actor r dto ∧ dto.saleId = x
  before : ∃ sale, c.before.sales.get x = some sale ∧ sale.voided = false
  after : ∃ sale, c.after.sales.get x = some sale ∧ sale.voided = true ∧
    ∀ p, refundedQty (noteLines (c.after.notesOf x)) p = soldQty sale.items p

/-- The units of a product at a price that a transaction undoes of the bill, with their money. -/
def Committed.unitsUndone (x : SaleId) (p : ProductId) (price : Int) (c : Committed) : Int :=
  match c.effect with
  | .voidSale _ y _     =>
      if y = x then (c.before.sales.get x).elim 0 fun sale => soldQtyAt sale.items p price else 0
  | .creditNote _ _ dto => if dto.saleId = x then requestedQtyAt dto.items p price else 0
  | _                   => 0

def Db.stockOf (p : ProductId) (db : Db) : Int := (db.products.get p).elim 0 (·.stock)

/-- The pieces of a product that a transaction puts back on the shelf when it undoes the bill. -/
def Committed.putBack (x : SaleId) (p : ProductId) (c : Committed) : Int :=
  match c.effect with
  | .voidSale _ y _     => if y = x then c.after.stockOf p - c.before.stockOf p else 0
  | .creditNote _ _ dto => if dto.saleId = x then c.after.stockOf p - c.before.stockOf p else 0
  | _                   => 0

/-- Nobody has touched the bill yet: it is not there, or it stands as it was sold. -/
structure Untouched (x : SaleId) (db : Db) : Prop where
  live : ∀ sale, db.sales.get x = some sale → sale.voided = false
  noNotes : db.notesOf x = []

def Db.VoidedBill (x : SaleId) (db : Db) : Prop :=
  ∃ sale, db.sales.get x = some sale ∧ sale.voided = true

/-- What is known of a bill from its history. -/
structure UndoneOnce (x : SaleId) (cs : List Committed) (db : Db) : Prop where
  /-- voided with notes: by the note that completed the return -/
  auto : (db.VoidedBill x ∧ db.notesOf x ≠ []) ↔ ∃ c ∈ cs, c.AutoVoids x
  /-- never a manual void and a note -/
  exclusive : ¬((∃ c ∈ cs, c.VoidsByHand x) ∧ db.notesOf x ≠ [])
  /-- the revenue counts unless it was undone without a note -/
  counted : ∀ sale, db.sales.get x = some sale →
    (db.counted x sale = true ↔ ¬∃ c ∈ cs, c.VoidsByHand x)
  units : ∀ sale, db.sales.get x = some sale → ∀ p price,
    (cs.map (Committed.unitsUndone x p price)).sum ≤ soldQtyAt sale.items p price
  stock : ∀ sale, db.sales.get x = some sale → ∀ p,
    (cs.map (Committed.putBack x p)).sum ≤ soldQty sale.items p

/-! ## The invariant -/

/-- What a manual void undid of the bill. -/
def undoneByHand (x : SaleId) (db : Db) (f : List SaleItem → Int) : Int :=
  match db.sales.get x with
  | none      => 0
  | some sale => if sale.voided = true ∧ db.notesOf x = [] then f sale.items else 0

structure BillLife (x : SaleId) (cs : List Committed) (db : Db) : Prop where
  absent : db.sales.get x = none → db.notesOf x = []
  auto : (db.VoidedBill x ∧ db.notesOf x ≠ []) ↔ ∃ c ∈ cs, c.AutoVoids x
  byHand : (db.VoidedBill x ∧ db.notesOf x = []) ↔ ∃ c ∈ cs, c.VoidsByHand x
  atPrice : ∀ sale, db.sales.get x = some sale → ∀ p price,
    refundedQtyAt (noteLines (db.notesOf x)) p price ≤ soldQtyAt sale.items p price
  units : ∀ p price, (cs.map (Committed.unitsUndone x p price)).sum =
    refundedQtyAt (noteLines (db.notesOf x)) p price +
      undoneByHand x db fun items => soldQtyAt items p price
  stock : ∀ p, (cs.map (Committed.putBack x p)).sum ≤
    refundedQty (noteLines (db.notesOf x)) p + undoneByHand x db fun items => soldQty items p

theorem soldQtyAt_nonneg (items : List SaleItem) (p : ProductId) (price : Int) :
    0 ≤ soldQtyAt items p price := by
  apply List.sum_nonneg
  intro n hn
  obtain ⟨i, -, rfl⟩ := List.mem_map.mp hn
  split
  · exact i.qty_pos.le
  · exact le_refl 0

/-- What holds of a product at every price holds of the product. -/
theorem refundedQty_le_of_atPrice {items : List SaleItem} {lines : List ReturnItem} {p : ProductId}
    (h : ∀ price, refundedQtyAt lines p price ≤ soldQtyAt items p price) :
    refundedQty lines p ≤ soldQty items p := by
  have hparts : ∀ price,
      (lines.map fun i => if i.price = price then (if i.productId = p then i.qty else 0) else 0).sum ≤
        (items.map fun i =>
          if i.price = price then (if i.productId = p then i.qty else 0) else 0).sum := by
    intro price
    have hle := h price
    simp only [← ite_and, refundedQtyAt, soldQtyAt] at hle ⊢
    simpa only [and_comm] using hle
  exact Grouping.sum_le_of_parts _ _ hparts

section
variable {x : SaleId} {cs : List Committed} {s s' : Db}

/-- Before its sale a bill has had no life. -/
theorem Untouched.billLife (h : Untouched x s) : BillLife x [] s := by
  have hlive : ¬s.VoidedBill x := by
    rintro ⟨sale, hsale, hv⟩
    rw [h.live sale hsale] at hv
    cases hv
  have hhand : ∀ f, undoneByHand x s f = 0 := by
    intro f
    unfold undoneByHand
    split
    · rfl
    · rename_i sale hsale
      rw [if_neg]
      rintro ⟨hv, -⟩
      exact hlive ⟨sale, hsale, hv⟩
  refine ⟨fun _ => h.noNotes, ?_, ?_, ?_, ?_, ?_⟩
  · simp [hlive]
  · simp [hlive]
  · intro sale _ p price
    rw [h.noNotes]
    exact soldQtyAt_nonneg _ _ _
  · intro p price
    rw [h.noNotes, hhand]
    rfl
  · intro p
    rw [h.noNotes, hhand]
    exact le_refl 0

/-! ## One step -/

theorem not_voidedBill {sale : Sale} (hx : s.sales.get x = some sale) (hlive : sale.voided = false) :
    ¬s.VoidedBill x := by
  rintro ⟨sale', hsale', hv⟩
  obtain rfl := Option.some.inj (hsale'.symm.trans hx)
  rw [hlive] at hv
  cases hv

theorem undoneByHand_of_live (hlive : ¬s.VoidedBill x) (f : List SaleItem → Int) :
    undoneByHand x s f = 0 := by
  unfold undoneByHand
  split
  · rfl
  · rename_i sale hsale
    rw [if_neg]
    rintro ⟨hv, -⟩
    exact hlive ⟨sale, hsale, hv⟩

theorem undoneByHand_of_notes (hnotes : s.notesOf x ≠ []) (f : List SaleItem → Int) :
    undoneByHand x s f = 0 := by
  unfold undoneByHand
  split
  · rfl
  · rw [if_neg]
    rintro ⟨-, hnil⟩
    exact hnotes hnil

/-- How the stock of a product moves with an update that adds `d` to it. -/
theorem stockOf_sub_le {p : ProductId} {d : Int} (hd : 0 ≤ d)
    (h : s'.products.get p = (s.products.get p).map (Product.addStock d)) :
    s'.stockOf p - s.stockOf p ≤ d := by
  unfold Db.stockOf
  rw [h]
  cases s.products.get p with
  | none => simpa using hd
  | some row =>
      simp only [Option.map_some, Option.elim_some, Product.addStock]
      omega

theorem requestedQty_nonneg (lines : List ReturnLine) (p : ProductId) : 0 ≤ requestedQty lines p := by
  apply List.sum_nonneg
  intro n hn
  obtain ⟨l, -, rfl⟩ := List.mem_map.mp hn
  split
  · exact l.qty_pos.le
  · exact le_refl 0

theorem soldQty_nonneg (items : List SaleItem) (p : ProductId) : 0 ≤ soldQty items p := by
  apply List.sum_nonneg
  intro n hn
  obtain ⟨i, -, rfl⟩ := List.mem_map.mp hn
  split
  · exact i.qty_pos.le
  · exact le_refl 0

/-- The events of a history that is one transaction longer. -/
private theorem exists_snoc {c : Committed} {P : Committed → Prop} :
    (∃ c' ∈ cs ++ [c], P c') ↔ (∃ c' ∈ cs, P c') ∨ P c := by
  constructor
  · rintro ⟨c', hc', hp⟩
    rcases List.mem_append.mp hc' with hc' | hc'
    · exact .inl ⟨c', hc', hp⟩
    · exact .inr (List.mem_singleton.mp hc' ▸ hp)
  · rintro (⟨c', hc', hp⟩ | hp)
    · exact ⟨c', List.mem_append_left _ hc', hp⟩
    · exact ⟨c, by simp, hp⟩

/-- A transaction that is about another bill, or sells this one, undoes nothing of it. -/
theorem BillLife.of_same {c : Committed} (h : BillLife x cs c.before)
    (hnotes : c.after.notesOf x = c.before.notesOf x)
    (hsale : c.after.sales.get x = c.before.sales.get x ∨ c.before.sales.get x = none ∧
      ∃ row, c.after.sales.get x = some row ∧ row.voided = false)
    (hauto : ¬c.AutoVoids x) (hhand : ¬c.VoidsByHand x)
    (hunits : ∀ p price, c.unitsUndone x p price = 0) (hstock : ∀ p, c.putBack x p = 0) :
    BillLife x (cs ++ [c]) c.after := by
  have hvoided : c.after.VoidedBill x ↔ c.before.VoidedBill x := by
    rcases hsale with hsame | ⟨hnone, row, hrow, hlive⟩
    · unfold Db.VoidedBill
      rw [hsame]
    · constructor
      · intro hv
        exact absurd hv (not_voidedBill hrow hlive)
      · rintro ⟨sale, hs, -⟩
        rw [hnone] at hs
        cases hs
  have hundone : ∀ f, undoneByHand x c.after f = undoneByHand x c.before f := by
    intro f
    rcases hsale with hsame | ⟨hnone, row, hrow, hlive⟩
    · unfold undoneByHand
      rw [hsame, hnotes]
    · rw [undoneByHand_of_live (not_voidedBill hrow hlive), undoneByHand_of_live]
      rintro ⟨sale, hs, -⟩
      rw [hnone] at hs
      cases hs
  refine ⟨?_, ?_, ?_, ?_, ?_, ?_⟩
  · intro hnone
    rw [hnotes]
    rcases hsale with hsame | ⟨-, row, hrow, -⟩
    · exact h.absent (hsame ▸ hnone)
    · rw [hrow] at hnone
      cases hnone
  · rw [exists_snoc, hvoided, hnotes, h.auto, or_iff_left hauto]
  · rw [exists_snoc, hvoided, hnotes, h.byHand, or_iff_left hhand]
  · intro sale hs p price
    rw [hnotes]
    rcases hsale with hsame | ⟨hnone, row, hrow, -⟩
    · exact h.atPrice sale (hsame ▸ hs) p price
    · rw [h.absent hnone]
      exact soldQtyAt_nonneg _ _ _
  · intro p price
    rw [List.map_append, List.sum_append, h.units, hnotes, hundone]
    simp [hunits]
  · intro p
    rw [List.map_append, List.sum_append, hnotes, hundone]
    simpa [hstock] using h.stock p

/-- A manual void undoes the whole bill at once. -/
theorem BillLife.byHand_step {c : Committed} (h : BillLife x cs c.before) {actor : Actor}
    {reason : String} {sale : Sale} (he : c.effect = .voidSale actor x reason)
    (hx : c.before.sales.get x = some sale) (hlive : sale.voided = false)
    (hno : c.before.notesOf x = []) (hsale : c.after.sales.get x = some (sale.void reason))
    (hnotes : c.after.notesOf x = [])
    (hstock : ∀ p, c.after.products.get p =
      (c.before.products.get p).map (Product.addStock (soldQty sale.items p))) :
    BillLife x (cs ++ [c]) c.after := by
  have hbefore := not_voidedBill hx hlive
  have hvoided : c.after.VoidedBill x := ⟨_, hsale, rfl⟩
  have hundone : ∀ f, undoneByHand x c.after f = f sale.items := by
    intro f
    unfold undoneByHand
    rw [hsale]
    exact if_pos ⟨rfl, hnotes⟩
  refine ⟨fun _ => hnotes, ?_, ?_, ?_, ?_, ?_⟩
  · rw [exists_snoc, ← h.auto]
    constructor
    · rintro ⟨-, hne⟩
      exact absurd hnotes hne
    · rintro (⟨hv, -⟩ | hauto)
      · exact absurd hv hbefore
      · obtain ⟨actor', r, dto, he', -⟩ := hauto.note
        rw [he] at he'
        cases he'
  · rw [exists_snoc]
    constructor
    · intro _
      exact .inr ⟨actor, reason, he⟩
    · intro _
      exact ⟨hvoided, hnotes⟩
  · intro sale' _ p price
    rw [hnotes]
    exact soldQtyAt_nonneg _ _ _
  · intro p price
    have hc : c.unitsUndone x p price = soldQtyAt sale.items p price := by
      simp [Committed.unitsUndone, he, hx]
    have hold := h.units p price
    rw [undoneByHand_of_live hbefore, hno] at hold
    rw [List.map_append, List.sum_append, hold, hundone, hnotes]
    simp [hc]
  · intro p
    have hc : c.putBack x p ≤ soldQty sale.items p := by
      have hle := stockOf_sub_le (soldQty_nonneg sale.items p) (hstock p)
      simpa [Committed.putBack, he] using hle
    have hold := h.stock p
    rw [undoneByHand_of_live hbefore, hno] at hold
    rw [List.map_append, List.sum_append, hundone, hnotes]
    simp only [List.map_cons, List.map_nil, List.sum_cons, List.sum_nil, add_zero] at hold ⊢
    omega

/-- A note undoes what its lines name. -/
theorem BillLife.note_step {c : Committed} (h : BillLife x cs c.before) {actor : Actor}
    {r : ReturnId} {dto : ReturnWrite} {sale : Sale} {n : DocNo} {k : Option ShiftId}
    (he : c.effect = .creditNote actor r dto) (hid : dto.saleId = x)
    (hx : c.before.sales.get x = some sale) (hlive : sale.voided = false)
    (hok : assertRefundable (aggregateReturn dto.items) sale.items
      (noteLines (c.before.notesOf x)) = .ok ())
    (hnotes : c.after.notesOf x = c.before.notesOf x ++ [noteRow dto sale n k])
    (hsale : c.after.sales.get x = some { sale with
      voided := decide (soldTotal sale.items ≤ refundedTotal (noteLines (c.after.notesOf x))) })
    (hstock : ∀ p, c.after.products.get p =
      (c.before.products.get p).map (Product.addStock (requestedQty dto.items p))) :
    BillLife x (cs ++ [c]) c.after := by
  have hbefore := not_voidedBill hx hlive
  have hne : c.after.notesOf x ≠ [] := by
    rw [hnotes]
    simp
  have hatPrice : ∀ p price,
      refundedQtyAt (noteLines (c.after.notesOf x)) p price ≤ soldQtyAt sale.items p price := by
    intro p price
    have hold := h.atPrice sale hx p price
    rw [hnotes, refundedQtyAt_snoc, refundedQtyAt_noteRow]
    rcases requestedQtyAt_le hok p price with hzero | ⟨hle, -⟩
    · omega
    · omega
  have hall : ∀ p, refundedQty (noteLines (c.after.notesOf x)) p ≤ soldQty sale.items p :=
    fun p => refundedQty_le_of_atPrice (hatPrice p)
  -- the bill is voided by this note exactly where nothing is left to return
  have hvoided : c.after.VoidedBill x ↔ c.AutoVoids x := by
    constructor
    · rintro ⟨sale', hs, hv⟩
      have heq := Option.some.inj (hsale.symm.trans hs)
      have hge : soldTotal sale.items ≤ refundedTotal (noteLines (c.after.notesOf x)) := by
        rw [← heq] at hv
        exact of_decide_eq_true hv
      refine ⟨⟨actor, r, dto, he, hid⟩, ⟨sale, hx, hlive⟩, ⟨sale', hs, hv, ?_⟩⟩
      rw [← heq]
      exact (soldTotal_le_iff hall).mp hge
    · rintro ⟨-, -, sale', hs, hv, -⟩
      exact ⟨sale', hs, hv⟩
  -- with a note on it no void by hand has undone the bill
  have hundone : ∀ f, undoneByHand x c.after f = 0 := undoneByHand_of_notes hne
  refine ⟨?_, ?_, ?_, ?_, ?_, ?_⟩
  · intro hnone
    rw [hsale] at hnone
    cases hnone
  · rw [exists_snoc, ← h.auto, hvoided]
    constructor
    · rintro ⟨hauto, -⟩
      exact .inr hauto
    · rintro (⟨hv, -⟩ | hauto)
      · exact absurd hv hbefore
      · exact ⟨hauto, hne⟩
  · rw [exists_snoc, ← h.byHand]
    constructor
    · rintro ⟨-, hnil⟩
      exact absurd hnil hne
    · rintro (⟨hv, -⟩ | ⟨actor', reason, he'⟩)
      · exact absurd hv hbefore
      · rw [he] at he'
        cases he'
  · intro sale' hs p price
    rw [hsale] at hs
    obtain rfl := Option.some.inj hs
    exact hatPrice p price
  · intro p price
    -- what this commit undoes is what the note asks for
    have hc : c.unitsUndone x p price = requestedQtyAt dto.items p price := by
      simp [Committed.unitsUndone, he, hid]
    have hold := h.units p price
    rw [undoneByHand_of_live hbefore] at hold
    rw [List.map_append, List.sum_append, hold, hundone, hnotes, refundedQtyAt_snoc,
      refundedQtyAt_noteRow]
    simp [hc]
  · intro p
    -- the limit of a stock may cut what is put back
    have hc : c.putBack x p ≤ requestedQty dto.items p := by
      have hle := stockOf_sub_le (requestedQty_nonneg dto.items p) (hstock p)
      simpa [Committed.putBack, he, hid] using hle
    have hold := h.stock p
    rw [undoneByHand_of_live hbefore] at hold
    rw [List.map_append, List.sum_append, hundone, hnotes, refundedQty_snoc, refundedQty_noteRow]
    simp only [List.map_cons, List.map_nil, List.sum_cons, List.sum_nil, add_zero] at hold ⊢
    omega

/-- **One committed transaction** carries the life of a bill on. -/
theorem BillLife.step {c : Committed} (h : BillLife x cs c.before) :
    BillLife x (cs ++ [c]) c.after := by
  have hstep := c.performs.billStep x
  generalize he : c.effect = e at hstep
  cases hstep with
  | other e hne hsale hnotes =>
      apply h.of_same hnotes (.inl hsale)
      · rintro ⟨⟨actor, r, dto, he', hid⟩, -, -⟩
        rw [← he, he'] at hne
        exact hne (congrArg some hid)
      · rintro ⟨actor, reason, he'⟩
        rw [← he, he'] at hne
        exact hne rfl
      · intro p price
        unfold Committed.unitsUndone
        rw [he]
        cases e <;> simp_all [Effect.bill]
      · intro p
        unfold Committed.putBack
        rw [he]
        cases e <;> simp_all [Effect.bill]
  | sold actor dto row hid hnone hrow hsale hnotes =>
      apply h.of_same hnotes
      · obtain ⟨n, k, account, locked, rfl⟩ := hrow
        exact .inr ⟨hnone, _, hsale, rfl⟩
      · rintro ⟨⟨actor', r, dto', he', -⟩, -, -⟩
        rw [he] at he'
        cases he'
      · rintro ⟨actor', reason, he'⟩
        rw [he] at he'
        cases he'
      · intro p price
        simp [Committed.unitsUndone, he]
      · intro p
        simp [Committed.putBack, he]
  | byHand actor reason sale hx hlive hno hsale hnotes hstock =>
      exact h.byHand_step he hx hlive hno hsale hnotes hstock
  | refunded actor r dto sale n k hid hx hlive hok hnotes hsale hstock =>
      exact h.note_step he hid hx hlive hok hnotes hsale hstock

/-- What the invariant says of the bill. -/
theorem BillLife.undoneOnce (h : BillLife x cs s) : UndoneOnce x cs s := by
  have hhand : ∀ sale, s.sales.get x = some sale →
      (s.counted x sale = true ↔ ¬∃ c ∈ cs, c.VoidsByHand x) := by
    intro sale hsale
    rw [← h.byHand]
    have hv : s.VoidedBill x ↔ sale.voided = true := by
      constructor
      · rintro ⟨sale', hs, hv⟩
        obtain rfl := Option.some.inj (hsale.symm.trans hs)
        exact hv
      · intro hv
        exact ⟨sale, hsale, hv⟩
    rw [hv, Db.counted]
    cases sale.voided <;> cases s.notesOf x <;> simp
  have hundone : ∀ sale, s.sales.get x = some sale → ∀ f : List SaleItem → Int,
      undoneByHand x s f = if sale.voided = true ∧ s.notesOf x = [] then f sale.items else 0 := by
    intro sale hsale f
    rw [undoneByHand, hsale]
  refine ⟨h.auto, ?_, hhand, ?_, ?_⟩
  · rintro ⟨hvoid, hne⟩
    exact hne (h.byHand.mpr hvoid).2
  · intro sale hsale p price
    rw [h.units, hundone sale hsale]
    split
    · rename_i hvoid
      rw [hvoid.2]
      simp [noteLines, refundedQtyAt]
    · have := h.atPrice sale hsale p price
      omega
  · intro sale hsale p
    apply (h.stock p).trans
    rw [hundone sale hsale]
    split
    · rename_i hvoid
      rw [hvoid.2]
      simp [noteLines, refundedQty]
    · have := refundedQty_le_of_atPrice (h.atPrice sale hsale p)
      omega

end

/-! ## Main result -/

section
variable {T : Type} [DecidableEq T] {x : SaleId} {s₀ : Db} {cs : List Committed} {S : System T}

/-- **The two voids of a bill stay separable**, and none of its units is undone twice. -/
theorem bill_undone_once (h₀ : s₀.Consistent) (hx : Untouched x s₀) (h : Traced s₀ cs S) :
    UndoneOnce x cs S.db := by
  have hlife : BillLife x cs S.db :=
    Traced.invariant (BillLife x) h₀ hx.billLife (fun _ _ _ ih => ih.step) h
  exact hlife.undoneOnce

/-- A bill of two pieces whose return is completed by its second note. -/
def returnedDay : List Op :=
  [.post (plainEnv 0 90) ⟨1⟩ 1 0 (.sale (cashBill 21 2 Nat.two_pos) none),
   .post (plainEnv 1 91) ⟨1⟩ 2 0 (.creditNote
     ⟨some 31, 21, none, .cash, [⟨7, "brake pad", 1, 100, none, Int.zero_lt_one⟩]⟩),
   .post (plainEnv 2 92) ⟨1⟩ 3 0 (.creditNote
     ⟨some 32, 21, none, .cash, [⟨7, "brake pad", 1, 100, none, Int.zero_lt_one⟩]⟩)]

/-- A bill all of whose units come back is voided by its last note. -/
theorem bill_undone_once_of_returnedDay : ∃ (cs : List Committed) (S : System Nat),
    Traced smallShop cs S ∧ (S.db.sales.get 21).map (·.voided) = some true ∧
      UndoneOnce 21 cs S.db := by
  have hx : Untouched 21 smallShop := by
    refine ⟨?_, rfl⟩
    intro sale hsale
    cases hsale
  obtain ⟨S, hreach, hdb⟩ : ∃ S : System Nat, Reachable prog smallShop S ∧
      S.db = rowsAfter prog returnedDay smallShop := reachable_rowsAfter (by decide +kernel)
  obtain ⟨cs, htr⟩ := Reachable.traced smallShop_consistent hreach
  refine ⟨cs, S, htr, ?_, bill_undone_once smallShop_consistent hx htr⟩
  rw [hdb]
  decide +kernel

end

end Server

import SrisurartPos.Server.Bills

/-! # No refund beyond what was sold

The guard of a credit note looks at one product and price at a time: at what is left at that price,
and at what is left of the product. Where every note is priced as the bill was, the second bound
follows from the first. Notes that were imported may be priced at something the bill never charged;
then a request that names one product at several prices can pass every single check and still take
back more of the product than was sold. `no_over_refund_iff` says when it does not. -/

namespace Server

open Txn

/-! ## Statement -/

/-- The notes against `x` that were written since `s₀`. -/
def newNotes (s₀ db : Db) (x : SaleId) : List Return := (db.notesOf x).drop (s₀.notesOf x).length

/-- Nothing is refunded beyond what was sold: of a product at a price by the server's own notes, of a
product by all of them. -/
structure RefundsKept (x : SaleId) (s₀ db : Db) : Prop where
  atPrice : ∀ sale, db.sales.get x = some sale → ∀ p price,
    refundedQtyAt (noteLines (newNotes s₀ db x)) p price ≤ soldQtyAt sale.items p price
  ofProduct : ∀ sale, db.sales.get x = some sale → ∀ p,
    refundedQty (noteLines (db.notesOf x)) p ≤ soldQty sale.items p

/-- The notes a run starts with: none beyond what was sold of any product, at whatever price. -/
structure PriorNotes (x : SaleId) (s₀ : Db) : Prop where
  absent : s₀.sales.get x = none → s₀.notesOf x = []
  ofProduct : ∀ sale, s₀.sales.get x = some sale → ∀ p,
    refundedQty (noteLines (s₀.notesOf x)) p ≤ soldQty sale.items p

/-- A note against `x` leaves it voided exactly when every unit of every product has come back. -/
def AutoVoidExact (x : SaleId) (e : Effect) (s' : Db) : Prop :=
  ∀ actor r dto, e = .creditNote actor r dto → dto.saleId = x →
    ∀ sale, s'.sales.get x = some sale →
      (sale.voided = true ↔ ∀ p, refundedQty (noteLines (s'.notesOf x)) p = soldQty sale.items p)

/-- The request names the product on lines of different prices. -/
def AtTwoPrices (lines : List ReturnLine) (p : ProductId) : Prop :=
  ∃ l ∈ lines, ∃ l' ∈ lines, l.productId = p ∧ l'.productId = p ∧ l.price ≠ l'.price

/-- What a note wants of a product it names at several prices is no more than the product has
left. -/
def SplitPricesFit (x : SaleId) (e : Effect) (s : Db) : Prop :=
  ∀ actor r dto, e = .creditNote actor r dto → dto.saleId = x →
    ∀ sale, s.sales.get x = some sale → ∀ p, AtTwoPrices dto.items p →
      requestedQty dto.items p ≤ soldQty sale.items p - refundedQty (noteLines (s.notesOf x)) p

/-! ## One request -/

theorem requestedQty_of_onePrice {lines : List ReturnLine} {p : ProductId} {price : Int}
    (h : ∀ l ∈ lines, l.productId = p → l.price = price) :
    requestedQty lines p = requestedQtyAt lines p price := by
  unfold requestedQty requestedQtyAt
  congr 1
  apply List.map_congr_left
  intro l hl
  by_cases hp : l.productId = p
  · simp [hp, h l hl hp]
  · simp [hp]

/-- What the guard and the condition leave of a product. -/
theorem requestedQty_le {items : List SaleItem} {old : List ReturnItem} {lines : List ReturnLine}
    (hok : assertRefundable (aggregateReturn lines) items old = .ok ()) {p : ProductId}
    (hold : refundedQty old p ≤ soldQty items p)
    (hfit : AtTwoPrices lines p → requestedQty lines p ≤ soldQty items p - refundedQty old p) :
    refundedQty old p + requestedQty lines p ≤ soldQty items p := by
  by_cases htwo : AtTwoPrices lines p
  · have := hfit htwo
    omega
  · by_cases hany : ∃ l ∈ lines, l.productId = p
    · obtain ⟨l, hl, hlp⟩ := hany
      have hone : ∀ l' ∈ lines, l'.productId = p → l'.price = l.price := by
        intro l' hl' hlp'
        by_contra hne
        exact htwo ⟨l', hl', l, hl, hlp', hlp, hne⟩
      rw [requestedQty_of_onePrice hone]
      rcases requestedQtyAt_le hok p l.price with hzero | ⟨-, hle⟩
      · omega
      · omega
    · have hzero : requestedQty lines p = 0 := by
        apply List.sum_eq_zero
        intro n hn
        obtain ⟨l, hl, rfl⟩ := List.mem_map.mp hn
        rw [if_neg]
        intro hlp
        exact hany ⟨l, hl, hlp⟩
      omega

/-! ## One step -/

/-- What the induction carries. -/
structure RefundState (x : SaleId) (s₀ db : Db) : Prop extends RefundsKept x s₀ db where
  grown : s₀.notesOf x <+: db.notesOf x
  absent : db.sales.get x = none → db.notesOf x = []

section
variable {x : SaleId} {s₀ s s' : Db}

theorem refundedQtyAt_newNotes (hgrown : s₀.notesOf x <+: s.notesOf x) (p : ProductId)
    (price : Int) : refundedQtyAt (noteLines (s.notesOf x)) p price =
      refundedQtyAt (noteLines (s₀.notesOf x)) p price +
        refundedQtyAt (noteLines (newNotes s₀ s x)) p price := by
  obtain ⟨rest, hrest⟩ := hgrown
  have hnew : newNotes s₀ s x = rest := by
    rw [newNotes, ← hrest, List.drop_left]
  rw [hnew, ← hrest]
  simp [noteLines, refundedQtyAt]

/-- At the start of a run a bill and its notes are in order. -/
theorem PriorNotes.state (h : PriorNotes x s₀) : RefundState x s₀ s₀ where
  atPrice sale hsale p price := by
    have hnone : newNotes s₀ s₀ x = [] := by
      rw [newNotes, List.drop_length]
    rw [hnone]
    show (0 : Int) ≤ soldQtyAt sale.items p price
    apply List.sum_nonneg
    intro n hn
    obtain ⟨i, -, rfl⟩ := List.mem_map.mp hn
    split
    · exact i.qty_pos.le
    · exact le_refl 0
  ofProduct := h.ofProduct
  grown := List.prefix_refl _
  absent := h.absent

theorem newNotes_congr (h : s'.notesOf x = s.notesOf x) : newNotes s₀ s' x = newNotes s₀ s x := by
  rw [newNotes, newNotes, h]

/-- A step that writes no note against the bill keeps what its notes have taken back. -/
theorem RefundState.of_same (h : RefundState x s₀ s) (hnotes : s'.notesOf x = s.notesOf x)
    (hsale : ∀ sale', s'.sales.get x = some sale' → s.sales.get x = none ∨
      ∃ sale, s.sales.get x = some sale ∧ sale'.items = sale.items)
    (hstays : s'.sales.get x = none → s.sales.get x = none) : RefundState x s₀ s' := by
  -- a bill that has just been sold has no notes
  have hfresh : s.sales.get x = none → s.notesOf x = [] ∧ newNotes s₀ s x = [] := by
    intro hnone
    have hnil := h.absent hnone
    refine ⟨hnil, ?_⟩
    rw [newNotes, hnil, List.drop_nil]
  have hnonneg : ∀ {items : List SaleItem} (f : SaleItem → Prop) [DecidablePred f],
      0 ≤ (items.map fun i => if f i then i.qty else 0).sum := by
    intro items f _
    apply List.sum_nonneg
    intro n hn
    obtain ⟨i, -, rfl⟩ := List.mem_map.mp hn
    split
    · exact i.qty_pos.le
    · exact le_refl 0
  refine ⟨⟨?_, ?_⟩, hnotes ▸ h.grown, ?_⟩
  · intro sale' hsale' p price
    rw [newNotes_congr hnotes]
    rcases hsale sale' hsale' with hnone | ⟨sale, hs, hitems⟩
    · rw [(hfresh hnone).2]
      exact hnonneg _
    · rw [hitems]
      exact h.atPrice sale hs p price
  · intro sale' hsale' p
    rw [hnotes]
    rcases hsale sale' hsale' with hnone | ⟨sale, hs, hitems⟩
    · rw [(hfresh hnone).1]
      exact hnonneg _
    · rw [hitems]
      exact h.ofProduct sale hs p
  · intro hnone
    rw [hnotes]
    exact h.absent (hstays hnone)

/-- **One committed change**, when the condition is met. -/
theorem BillStep.refundState {e : Effect} (hstep : BillStep x s s' e) (h : RefundState x s₀ s)
    (hfit : SplitPricesFit x e s) : RefundState x s₀ s' ∧ AutoVoidExact x e s' := by
  cases hstep with
  -- another document: the bill and its notes are as they were
  | other e hne hsale hnotes =>
      refine ⟨h.of_same hnotes ?_ ?_, ?_⟩
      · intro sale' hs
        exact .inr ⟨sale', hsale ▸ hs, rfl⟩
      · intro hnone
        rw [← hsale]
        exact hnone
      · intro actor r dto he hx
        rw [he] at hne
        exact absurd (congrArg some hx) hne
  | sold actor dto row hid hnone hrow hsale hnotes =>
      refine ⟨h.of_same hnotes (fun _ _ => .inl hnone) (fun _ => hnone), ?_⟩
      intro actor' r dto' he
      cases he
  -- a void by hand needs a bill without notes
  | byHand actor reason sale hx hlive hno hsale hnotes hstock =>
      refine ⟨h.of_same (hnotes.trans hno.symm) ?_ ?_, ?_⟩
      · intro sale' hs
        obtain rfl := Option.some.inj (hsale.symm.trans hs)
        exact .inr ⟨sale, hx, rfl⟩
      · intro hnone
        rw [hsale] at hnone
        cases hnone
      · intro actor' r dto' he
        cases he
  -- the guard judges by product and price; the condition brings it to the product
  | refunded actor r dto sale n k hid hx hlive hok hnotes hsale hstock =>
      have hfit' := hfit actor r dto rfl hid sale hx
      have hitems : ∀ sale', s'.sales.get x = some sale' → sale'.items = sale.items := by
        intro sale' hs
        obtain rfl := Option.some.inj (hsale.symm.trans hs)
        rfl
      have hkept : ∀ p, refundedQty (noteLines (s'.notesOf x)) p ≤ soldQty sale.items p := by
        intro p
        rw [hnotes, refundedQty_snoc, refundedQty_noteRow]
        exact requestedQty_le hok (h.ofProduct sale hx p) (hfit' p)
      have hgrown : s₀.notesOf x <+: s'.notesOf x := by
        rw [hnotes]
        exact h.grown.trans (List.prefix_append _ _)
      refine ⟨⟨⟨?_, ?_⟩, hgrown, ?_⟩, ?_⟩
      · intro sale' hs p price
        rw [hitems sale' hs]
        -- the guard counts the old notes at this price too
        have hall := refundedQtyAt_newNotes hgrown p price
        have hbefore := refundedQtyAt_newNotes h.grown p price
        have hprior := refundedQtyAt_nonneg (noteLines (s₀.notesOf x)) p price
        have hnew := h.atPrice sale hx p price
        rw [hnotes, refundedQtyAt_snoc, refundedQtyAt_noteRow] at hall
        rcases requestedQtyAt_le hok p price with hzero | ⟨hle, -⟩
        · omega
        · omega
      · intro sale' hs p
        rw [hitems sale' hs]
        exact hkept p
      · intro hnone
        rw [hsale] at hnone
        cases hnone
      · intro actor' r' dto' _ _ sale' hs
        rw [hsale] at hs
        obtain rfl := Option.some.inj hs
        rw [decide_eq_true_iff]
        exact soldTotal_le_iff hkept

end

/-! ## Main result -/

section
variable {T : Type} [DecidableEq T] {x : SaleId} {s₀ : Db} {cs : List Committed} {S : System T}

/-- **No over-refund, and the exact condition for it.** After every committed step of a run nothing
is refunded beyond what was sold and the bill is voided exactly when it has come back in full, if and
only if no note asks, on lines of different prices, for more of a product than it has left. -/
theorem no_over_refund_iff (h₀ : s₀.Consistent) (hprior : PriorNotes x s₀)
    (h : Traced s₀ cs S) : (∀ c ∈ cs, SplitPricesFit x c.effect c.before) ↔
      ∀ c ∈ cs, RefundsKept x s₀ c.after ∧ AutoVoidExact x c.effect c.after := by
  constructor
  · intro hfits
    let J : List Committed → Db → Prop := fun cs db => (∀ c ∈ cs, SplitPricesFit x c.effect c.before) →
      RefundState x s₀ db ∧ ∀ c ∈ cs, RefundsKept x s₀ c.after ∧ AutoVoidExact x c.effect c.after
    have hJ : J cs S.db := by
      apply Traced.invariant J h₀ _ _ h
      · intro _
        exact ⟨hprior.state, by simp⟩
      · intro cs c _ ih hall
        obtain ⟨hstate, hpast⟩ := ih fun c' hc' => hall c' (List.mem_append_left _ hc')
        obtain ⟨hnext, hexact⟩ := (c.performs.billStep x).refundState hstate (hall c (by simp))
        refine ⟨hnext, ?_⟩
        intro c' hc'
        rcases List.mem_append.mp hc' with hc' | hc'
        · exact hpast c' hc'
        · obtain rfl := List.mem_singleton.mp hc'
          exact ⟨hnext.toRefundsKept, hexact⟩
    exact (hJ hfits).2
  · intro hkept c hc actor r dto he hx sale hsale p _
    have hafter := (hkept c hc).1.ofProduct
    have hstep := c.performs.billStep x
    rw [he] at hstep
    cases hstep with
    | other _ hne _ _ => exact absurd (congrArg some hx) hne
    | refunded actor r dto sale' n k hid hx' hlive hok hnotes hsale' hstock =>
        obtain rfl := Option.some.inj (hx'.symm.trans hsale)
        have hle : refundedQty (noteLines (c.after.notesOf x)) p ≤ soldQty sale'.items p :=
          hafter _ hsale' p
        rw [hnotes, refundedQty_snoc, refundedQty_noteRow] at hle
        omega

/-! ### Where it fails

A bill of two pieces of one product, at 85 and at 70, has an imported note for one piece at 50. One
request for a piece at 85 and a piece at 70 passes: at each price one piece is left, and of the
product one piece is left. -/

/-- The bill that was imported, with its note. -/
def importedShop : Db :=
  { smallShop with
    sales := Table.empty.insert 21
      { receiptNo := .other "A-21", subtotal := 155, discount := 0, total := 155,
        paymentMethod := .cash, customerId := none, mechanicId := none, mechanicDelta := none,
        pointsGranted := 0, shiftId := none, soldOffline := false, paymentAccountId := none,
        voided := false, voidReason := none,
        items := [⟨1, 7, "brake pad", 1, 85, none, Int.zero_lt_one⟩,
          ⟨2, 7, "brake pad", 1, 70, none, Int.zero_lt_one⟩] }
    returns := Table.empty.insert 30
      { cnNo := .other "CN-30", saleId := 21, refundSubtotal := 50, refundDiscount := 0,
        refundTotal := 50, refundMethod := .cash, customerId := none, mechanicId := none,
        shiftId := none, items := [⟨1, 7, "brake pad", 1, 50, none, none, Int.zero_lt_one⟩] } }

/-- A request for the two pieces that the bill's own prices still show. -/
def bothPrices : List Op :=
  [.post (plainEnv 0 90) ⟨1⟩ 1 0 (.creditNote ⟨some 31, 21, none, .cash,
    [⟨7, "brake pad", 1, 85, none, Int.zero_lt_one⟩, ⟨7, "brake pad", 1, 70, none, Int.zero_lt_one⟩]⟩)]

theorem importedShop_prior : importedShop.Consistent ∧ PriorNotes 21 importedShop := by
  refine ⟨?_, ?_, ?_⟩
  · intro mv hmv
    cases hmv
  · intro hnone
    cases hnone
  · intro sale hsale p
    obtain rfl := Option.some.inj hsale
    show (if 7 = p then (1 : Int) else 0) + 0 ≤ (if 7 = p then 1 else 0) + ((if 7 = p then 1 else 0) + 0)
    split <;> decide

/-- Three pieces are refunded of the two that were sold. -/
theorem over_refund_at_two_prices : PriorNotes 21 importedShop ∧
    ∃ S : System Nat, Reachable prog importedShop S ∧
      refundedQty (noteLines (S.db.notesOf 21)) 7 = 3 ∧
      (S.db.sales.get 21).map (fun sale => soldQty sale.items 7) = some 2 := by
  refine ⟨importedShop_prior.2, ?_⟩
  obtain ⟨S, hreach, hdb⟩ : ∃ S : System Nat, Reachable prog importedShop S ∧
      S.db = rowsAfter prog bothPrices importedShop := reachable_rowsAfter (by decide +kernel)
  refine ⟨S, hreach, ?_, ?_⟩
  · rw [hdb]
    decide +kernel
  · rw [hdb]
    decide +kernel

/-- A request for one piece, which the product has left. -/
def onePiece : List Op :=
  [.post (plainEnv 0 90) ⟨1⟩ 1 0 (.creditNote ⟨some 31, 21, none, .cash,
    [⟨7, "brake pad", 1, 85, none, Int.zero_lt_one⟩]⟩)]

/-- The condition is met by a request for the one piece that is left. -/
theorem no_over_refund_of_one_piece : ∃ (cs : List Committed) (S : System Nat),
    Traced importedShop cs S ∧ S.log.length = 1 ∧ ((∀ c ∈ cs, SplitPricesFit 21 c.effect c.before) ↔
      ∀ c ∈ cs, RefundsKept 21 importedShop c.after ∧ AutoVoidExact 21 c.effect c.after) := by
  obtain ⟨S, hreach, -, hlog⟩ : ∃ S : System Nat, Reachable prog importedShop S ∧
      S.db = rowsAfter prog onePiece importedShop ∧ S.log.map Prod.fst = onePiece :=
    reachable_logged (by decide +kernel)
  obtain ⟨cs, htr⟩ := Reachable.traced importedShop_prior.1 hreach
  refine ⟨cs, S, htr, ?_, no_over_refund_iff importedShop_prior.1 importedShop_prior.2 htr⟩
  have hlen := congrArg List.length hlog
  rwa [List.length_map] at hlen

end

end Server

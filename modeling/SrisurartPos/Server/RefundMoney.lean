import SrisurartPos.Server.Undoing
import Mathlib.Algebra.BigOperators.Ring.List
import Mathlib.Algebra.Order.Group.Abs

/-! # The money of a return

Every note rounds its own share of the bill's discount, and its own share of the points. So the notes
against one bill add up to the bill up to half a satang for each of them, and up to the satang of
tolerance a bill is accepted with. -/

namespace Server

open Txn

/-! ## Bills that make sense -/

/-- What the parser asks of a bill's money. A converted quote brings the figures that were stored with
it. -/
structure Sale.MakesSense (sale : Sale) : Prop where
  discount : 0 ≤ sale.discount
  subtotal : sale.discount ≤ sale.subtotal
  total : 0 ≤ sale.total
  prices : ∀ i ∈ sale.items, 0 ≤ i.price

/-- The value of a bill's lines. -/
def billed (items : List SaleItem) : Int := (items.map fun i => i.qty * i.price).sum

/-- What the sale service has checked and computed of every bill it wrote. -/
structure Sale.Accepted (sale : Sale) : Prop where
  subtotal : (billed sale.items - sale.subtotal).natAbs ≤ totalTolerance
  total : (billed sale.items - sale.discount - sale.total).natAbs ≤ totalTolerance
  points : sale.pointsGranted = pointsFor sale.total

section
variable {dto : SaleWrite} {n : DocNo} {k : ShiftId} {account : Option AccountId}
  {locked : List (ProductId × Product)}

theorem billed_saleRow :
    billed (saleRow dto n k account locked).items = computedSubtotal dto.items := by
  simp only [billed, saleRow, List.map_map]
  rfl

/-- The row of a bill that passed the check of its totals is within their tolerance. -/
theorem accepted_saleRow
    (h : assertSaleTotals dto.items dto.subtotal dto.discount dto.total = .ok ()) :
    (saleRow dto n k account locked).Accepted := by
  unfold assertSaleTotals at h
  dsimp only at h
  split at h
  · cases h
  · rename_i hfar
    rw [not_or, not_lt, not_lt] at hfar
    refine ⟨?_, ?_, rfl⟩
    · rw [billed_saleRow]
      exact hfar.1
    · rw [billed_saleRow]
      exact hfar.2

/-- A check that let its body pass. -/
theorem of_check {c : Prop} [Decidable c] {message : String} {r : Except ServerError Unit}
    (h : (check c message >>= fun _ => r) = .ok ()) : c ∧ r = .ok () := by
  by_cases hc : c
  · rw [check, if_pos hc] at h
    exact ⟨hc, h⟩
  · rw [check, if_neg hc] at h
    cases h

theorem of_check_last {c : Prop} [Decidable c] {message : String}
    (h : check c message = .ok ()) : c := by
  by_contra hc
  rw [check, if_neg hc] at h
  cases h

theorem of_seq {r r' : Except ServerError Unit} (h : (r >>= fun _ => r') = .ok ()) :
    r = .ok () ∧ r' = .ok () := by
  cases r with
  | error e => cases h
  | ok u => exact ⟨rfl, h⟩

theorem of_forM {α : Type} {f : α → Except ServerError Unit} {as : List α}
    (h : as.forM f = .ok ()) : ∀ a ∈ as, f a = .ok () := by
  induction as with
  | nil => simp
  | cons a as ih =>
      have hboth : f a = .ok () ∧ as.forM f = .ok () := of_seq h
      obtain ⟨ha, has⟩ := hboth
      intro b hb
      rcases List.mem_cons.mp hb with rfl | hb
      · exact ha
      · exact ih has b hb

/-- A body that passes the parser makes sense. -/
theorem makesSense_saleRow (h : parseCreateSale { dto with paymentAccountId := none } = .ok ()) :
    (saleRow dto n k account locked).MakesSense := by
  unfold parseCreateSale at h
  obtain ⟨-, h⟩ := of_seq h
  obtain ⟨-, h⟩ := of_seq h
  obtain ⟨hlines, hmoney⟩ := of_seq h
  obtain ⟨hdiscount, hmoney⟩ := of_check hmoney
  obtain ⟨-, hmoney⟩ := of_check hmoney
  obtain ⟨htotal, hmoney⟩ := of_check hmoney
  have hsubtotal := of_check_last hmoney
  refine ⟨hdiscount, hsubtotal, htotal, ?_⟩
  intro i hi
  obtain ⟨l, hl, rfl⟩ := List.mem_map.mp hi
  have hline : parseLine l = .ok () := of_forM (of_seq hlines).1 l hl
  obtain ⟨-, hline⟩ := of_check hline
  obtain ⟨-, hline⟩ := of_check hline
  exact of_check_last hline

end

/-! ## What a note stores -/

/-- The value of a note's lines. -/
def refundedValue (lines : List ReturnItem) : Int := (lines.map fun i => i.qty * i.price).sum

/-- The discount of the bill at the rate it was given. -/
def Sale.discountShare (sale : Sale) (value : Int) : Int :=
  if sale.subtotal > 0 then Rounding.roundDiv (value * sale.discount) sale.subtotal else 0

/-- The figures of a note of the server's own. -/
structure Return.PricedBy (sale : Sale) (note : Return) : Prop where
  subtotal : note.refundSubtotal = refundedValue note.items
  discount : note.refundDiscount = sale.discountShare note.refundSubtotal
  total : note.refundTotal = note.refundSubtotal - note.refundDiscount

/-- The points a note took back. -/
def Return.pointsReversed (sale : Sale) (note : Return) : Int :=
  pointsToReverse sale
    ⟨note.refundSubtotal, note.refundDiscount, note.refundTotal, sale.total⟩

theorem pricedBy_noteRow (dto : ReturnWrite) (sale : Sale) (n : DocNo) (k : Option ShiftId) :
    (noteRow dto sale n k).PricedBy sale := by
  refine ⟨?_, rfl, rfl⟩
  have h := sum_noteItems (aggregateReturn dto.items) sale.items fun _ price => price
  simp only [mul_comm] at h
  exact h.symm

/-! ## Adding up -/

section
variable {sale : Sale} {notes : List Return}

theorem refundedValue_noteLines (h : ∀ note ∈ notes, note.PricedBy sale) :
    (notes.map (·.refundSubtotal)).sum = refundedValue (noteLines notes) := by
  induction notes with
  | nil => rfl
  | cons note notes ih =>
      have hnote := (h note List.mem_cons_self).subtotal
      have hrest := ih fun n hn => h n (List.mem_cons_of_mem _ hn)
      simp only [List.map_cons, List.sum_cons, hrest, hnote]
      simp [refundedValue, noteLines]

/-- The value of some lines at one price of one product. -/
private theorem value_at {γ : Type} (gs : List γ) (product : γ → ProductId) (price qty : γ → Int)
    (k : ProductId × Int) :
    (gs.map fun g => if (product g, price g) = k then qty g * price g else 0).sum =
      k.2 * (gs.map fun g => if product g = k.1 ∧ price g = k.2 then qty g else 0).sum := by
  obtain ⟨p, pr⟩ := k
  simp only [Prod.mk.injEq]
  induction gs with
  | nil => simp
  | cons g gs ih =>
      simp only [List.map_cons, List.sum_cons, ih, mul_add]
      split
      · rename_i hk
        rw [hk.2, mul_comm]
      · simp

/-- At a negative price a bill that makes sense has sold nothing. -/
theorem soldQtyAt_of_neg (hsense : sale.MakesSense) {p : ProductId} {price : Int}
    (hneg : price < 0) : soldQtyAt sale.items p price = 0 := by
  have hzero : (sale.items.map fun i => if i.productId = p ∧ i.price = price then i.qty else 0) =
      sale.items.map fun _ => 0 := by
    apply List.map_congr_left
    intro i hi
    have := hsense.prices i hi
    rw [if_neg]
    rintro ⟨-, rfl⟩
    omega
  rw [soldQtyAt, hzero]
  simp

/-- Of each product and price, no more money has come back than was paid. -/
private theorem parts_le (hsense : sale.MakesSense)
    (hle : ∀ p price, refundedQtyAt (noteLines notes) p price ≤ soldQtyAt sale.items p price)
    (k : ProductId × Int) :
    ((noteLines notes).map fun i =>
      if (i.productId, i.price) = k then i.qty * i.price else 0).sum ≤
        (sale.items.map fun i => if (i.productId, i.price) = k then i.qty * i.price else 0).sum := by
  rw [value_at, value_at]
  by_cases hneg : k.2 < 0
  · have hsold := soldQtyAt_of_neg hsense (p := k.1) hneg
    have hrefunded := hle k.1 k.2
    have hnonneg := refundedQtyAt_nonneg (noteLines notes) k.1 k.2
    have hzero : refundedQtyAt (noteLines notes) k.1 k.2 = 0 := by omega
    unfold soldQtyAt at hsold
    unfold refundedQtyAt at hzero
    rw [hsold, hzero]
  · exact mul_le_mul_of_nonneg_left (hle k.1 k.2) (by omega)

/-- The notes never stand for more goods than the bill. -/
theorem refundedValue_le (hsense : sale.MakesSense)
    (hle : ∀ p price, refundedQtyAt (noteLines notes) p price ≤ soldQtyAt sale.items p price) :
    refundedValue (noteLines notes) ≤ billed sale.items :=
  Grouping.sum_le_of_parts _ _ (parts_le hsense hle)

/-- Once every unit is back, they stand for all of them. -/
theorem refundedValue_eq
    (hle : ∀ p price, refundedQtyAt (noteLines notes) p price ≤ soldQtyAt sale.items p price)
    (hall : ∀ p, refundedQty (noteLines notes) p = soldQty sale.items p) :
    refundedValue (noteLines notes) = billed sale.items := by
  have hat : ∀ p price,
      refundedQtyAt (noteLines notes) p price = soldQtyAt sale.items p price := by
    intro p price
    have hparts : ((noteLines notes).map fun i => if i.price = price then
        (if i.productId = p then i.qty else 0) else 0).sum = (sale.items.map fun i =>
          if i.price = price then (if i.productId = p then i.qty else 0) else 0).sum := by
      apply Grouping.parts_eq_of_sum_ge
      · intro price'
        have := hle p price'
        simpa only [refundedQtyAt, soldQtyAt, ← ite_and, and_comm] using this
      · exact (hall p).ge
    simpa only [refundedQtyAt, soldQtyAt, ← ite_and, and_comm] using hparts
  have hvalue : ∀ k : ProductId × Int, ((noteLines notes).map fun i =>
      if (i.productId, i.price) = k then i.qty * i.price else 0).sum =
        (sale.items.map fun i => if (i.productId, i.price) = k then i.qty * i.price else 0).sum := by
    intro k
    have := hat k.1 k.2
    unfold refundedQtyAt soldQtyAt at this
    rw [value_at, value_at, this]
  exact le_antisymm (Grouping.sum_le_of_parts _ _ fun k => (hvalue k).le)
    (Grouping.sum_le_of_parts _ _ fun k => (hvalue k).ge)

/-! ## The law of the notes -/

/-- The discounts of the notes, against the discount of what they stand for. -/
theorem discounts_within (hpos : 0 < sale.subtotal) (h : ∀ note ∈ notes, note.PricedBy sale) :
    2 * sale.subtotal * (notes.map (·.refundDiscount)).sum ≤
        2 * (refundedValue (noteLines notes) * sale.discount) + notes.length * sale.subtotal ∧
      2 * (refundedValue (noteLines notes) * sale.discount) - notes.length * sale.subtotal ≤
        2 * sale.subtotal * (notes.map (·.refundDiscount)).sum := by
  have hshare : notes.map (·.refundDiscount) =
      (notes.map fun note => note.refundSubtotal * sale.discount).map fun a =>
        Rounding.roundDiv a sale.subtotal := by
    rw [List.map_map]
    apply List.map_congr_left
    intro note hnote
    rw [(h note hnote).discount, Sale.discountShare, if_pos hpos]
    rfl
  have hvalue : (notes.map fun note => note.refundSubtotal * sale.discount).sum =
      refundedValue (noteLines notes) * sale.discount := by
    rw [← refundedValue_noteLines h, List.sum_map_mul_right]
  have hle := Rounding.sum_roundDiv_le
    (notes.map fun note => note.refundSubtotal * sale.discount) hpos
  have hge := Rounding.le_sum_roundDiv
    (notes.map fun note => note.refundSubtotal * sale.discount) hpos
  rw [List.length_map, hvalue, ← hshare] at hle hge
  exact ⟨hle, hge⟩

/-- A bill without a subtotal has no discount to share. -/
theorem discounts_eq_zero (hzero : ¬0 < sale.subtotal) (h : ∀ note ∈ notes, note.PricedBy sale) :
    (notes.map (·.refundDiscount)).sum = 0 := by
  have hshare : notes.map (·.refundDiscount) = notes.map fun _ => 0 := by
    apply List.map_congr_left
    intro note hnote
    rw [(h note hnote).discount, Sale.discountShare, if_neg hzero]
  rw [hshare]
  simp

theorem refundTotals (h : ∀ note ∈ notes, note.PricedBy sale) :
    (notes.map (·.refundTotal)).sum =
      refundedValue (noteLines notes) - (notes.map (·.refundDiscount)).sum := by
  rw [← refundedValue_noteLines h]
  induction notes with
  | nil => rfl
  | cons note notes ih =>
      have hnote := (h note List.mem_cons_self).total
      have hrest := ih fun n hn => h n (List.mem_cons_of_mem _ hn)
      simp only [List.map_cons, List.sum_cons]
      omega

/-- What the notes of one bill add up to, in half satang. -/
structure RefundsWithin (sale : Sale) (notes : List Return) : Prop where
  /-- never more than the bill, up to half a satang a note and the bill's own two satang -/
  totals : 2 * (notes.map (·.refundTotal)).sum ≤ 2 * sale.total + (notes.length + 4)
  /-- never more points than the bill granted, up to one in a thousand notes -/
  points : 2000 * (notes.map (·.pointsReversed sale)).sum ≤
    2000 * sale.pointsGranted + (notes.length + 4)
  /-- once every unit is back, the bill's discount and its total, up to the same -/
  whole : (∀ p, refundedQty (noteLines notes) p = soldQty sale.items p) →
    |2 * (notes.map (·.refundDiscount)).sum - 2 * sale.discount| ≤ notes.length + 2 ∧
      |2 * (notes.map (·.refundTotal)).sum - 2 * sale.total| ≤ notes.length + 4

/-- The arithmetic of the bound: `c` is what the notes stand for of the value `v`, and `d` the
discount they carry. -/
private theorem totals_within {c v subtotal discount total d k : Int} (hpos : 0 < subtotal)
    (hd : 2 * (c * discount) - k * subtotal ≤ 2 * subtotal * d) (hc : c ≤ v)
    (h0 : 0 ≤ discount) (hle : discount ≤ subtotal) (hv : subtotal ≤ v + 1)
    (ht : v - discount - 1 ≤ total) : 2 * (c - d) ≤ 2 * total + (k + 4) := by
  have h₁ : 0 ≤ (v - c) * (subtotal - discount) := mul_nonneg (by omega) (by omega)
  have h₂ : 0 ≤ discount * (v + 1 - subtotal) := mul_nonneg h0 (by omega)
  have h₃ : 0 ≤ subtotal * (total - (v - discount - 1)) := mul_nonneg hpos.le (by omega)
  have hmul : subtotal * (2 * (c - d)) ≤ subtotal * (2 * total + (k + 4)) := by nlinarith
  exact le_of_mul_le_mul_left hmul hpos

/-- The discount of a whole return, in the same terms. -/
private theorem discount_within {v subtotal discount d k : Int} (hpos : 0 < subtotal)
    (hle : 2 * subtotal * d ≤ 2 * (v * discount) + k * subtotal)
    (hge : 2 * (v * discount) - k * subtotal ≤ 2 * subtotal * d)
    (h0 : 0 ≤ discount) (hds : discount ≤ subtotal) (hv : subtotal ≤ v + 1) (hv' : v ≤ subtotal + 1) :
    |2 * d - 2 * discount| ≤ k + 2 := by
  have h₁ : 0 ≤ discount * (v + 1 - subtotal) := mul_nonneg h0 (by omega)
  have h₂ : 0 ≤ discount * (subtotal + 1 - v) := mul_nonneg h0 (by omega)
  have hup : subtotal * (2 * d - 2 * discount) ≤ subtotal * (k + 2) := by nlinarith
  have hdown : subtotal * (-(k + 2)) ≤ subtotal * (2 * d - 2 * discount) := by nlinarith
  exact abs_le.mpr ⟨le_of_mul_le_mul_left hdown hpos, le_of_mul_le_mul_left hup hpos⟩

/-- A note takes back the bill's points in the proportion of its refund, rounded down. -/
theorem pointsReversed_eq (hacc : sale.Accepted) (note : Return) : note.pointsReversed sale =
    if 0 < sale.total then sale.pointsGranted * note.refundTotal / sale.total else 0 := by
  have hbase : (if sale.pointsGranted > 0 then sale.pointsGranted else sale.total / 1000) =
      sale.pointsGranted := by
    rw [hacc.points]
    unfold pointsFor
    exact ite_self _
  simp only [Return.pointsReversed, pointsToReverse, hbase]

/-- The points that are taken back stay within those given, but for the rounding of each note. -/
private theorem points_within (hsense : sale.MakesSense) (hacc : sale.Accepted)
    (htotals : 2 * (notes.map (·.refundTotal)).sum ≤ 2 * sale.total + (notes.length + 4)) :
    2000 * (notes.map (·.pointsReversed sale)).sum ≤
      2000 * sale.pointsGranted + (notes.length + 4) := by
  have hgranted : 0 ≤ sale.pointsGranted ∧ 1000 * sale.pointsGranted ≤ sale.total := by
    have := hsense.total
    rw [hacc.points]
    unfold pointsFor
    omega
  simp only [pointsReversed_eq hacc]
  by_cases hpos : 0 < sale.total
  · simp only [if_pos hpos]
    have hfloor := Rounding.sum_ediv_le
      (notes.map fun note => sale.pointsGranted * note.refundTotal) hpos
    rw [List.map_map, List.sum_map_mul_left] at hfloor
    have h₁ : 0 ≤ sale.pointsGranted * (2 * sale.total + (notes.length + 4) -
      2 * (notes.map (·.refundTotal)).sum) := mul_nonneg hgranted.1 (by omega)
    have h₂ : 0 ≤ (sale.total - 1000 * sale.pointsGranted) * ((notes.length : Int) + 4) :=
      mul_nonneg (by omega) (by omega)
    have hmul : sale.total * (2000 * (notes.map fun note =>
        sale.pointsGranted * note.refundTotal / sale.total).sum) ≤
          sale.total * (2000 * sale.pointsGranted + (notes.length + 4)) := by
      have hsame : (notes.map ((fun n => n / sale.total) ∘ fun note =>
          sale.pointsGranted * note.refundTotal)).sum = (notes.map fun note =>
            sale.pointsGranted * note.refundTotal / sale.total).sum := rfl
      rw [hsame] at hfloor
      nlinarith
    exact le_of_mul_le_mul_left hmul hpos
  · simp only [if_neg hpos]
    have hzero : (notes.map fun _ : Return => (0 : Int)).sum = 0 := by simp
    rw [hzero]
    omega

/-- **The law of the notes** against a bill that makes sense. -/
theorem refundsWithin (hsense : sale.MakesSense) (hacc : sale.Accepted)
    (hnotes : ∀ note ∈ notes, note.PricedBy sale)
    (hle : ∀ p price, refundedQtyAt (noteLines notes) p price ≤ soldQtyAt sale.items p price) :
    RefundsWithin sale notes := by
  have hsub := hacc.subtotal
  have htot := hacc.total
  have h0 := hsense.discount
  have hds := hsense.subtotal
  have hvalue := refundedValue_le hsense hle
  unfold totalTolerance at hsub htot
  have htotals : 2 * (notes.map (·.refundTotal)).sum ≤ 2 * sale.total + (notes.length + 4) := by
    rw [refundTotals hnotes]
    by_cases hpos : 0 < sale.subtotal
    · exact totals_within hpos (discounts_within hpos hnotes).2 hvalue h0 hds (by omega) (by omega)
    · rw [discounts_eq_zero hpos hnotes]
      omega
  refine ⟨htotals, points_within hsense hacc htotals, ?_⟩
  · intro hall
    rw [refundTotals hnotes, refundedValue_eq hle hall]
    have hdisc : |2 * (notes.map (·.refundDiscount)).sum - 2 * sale.discount| ≤
        notes.length + 2 := by
      by_cases hpos : 0 < sale.subtotal
      · obtain ⟨hup, hdown⟩ := discounts_within hpos hnotes
        rw [refundedValue_eq hle hall] at hup hdown
        exact discount_within hpos hup hdown h0 hds (by omega) (by omega)
      · rw [discounts_eq_zero hpos hnotes, abs_le]
        omega
    refine ⟨hdisc, ?_⟩
    rw [abs_le] at hdisc ⊢
    omega

end

/-! ## Whole runs -/

section
variable {x : SaleId} {s s' : Db} {e : Effect}

/-- A bill is written only when its arithmetic was checked. -/
theorem Changes.totals (h : Changes s e s') {actor : Actor} {dto : SaleWrite}
    (he : e = .sale actor dto) :
    assertSaleTotals dto.items dto.subtotal dto.discount dto.total = .ok () := by
  cases h with
  | sale actor' dto' k row hsrc hadm =>
      cases he
      exact hadm.totals
  | _ => cases he

theorem Performs.totals (h : Performs e s s') {actor : Actor} {dto : SaleWrite}
    (he : e = .sale actor dto) :
    assertSaleTotals dto.items dto.subtotal dto.discount dto.total = .ok () := by
  obtain ⟨t, desk, hch, -⟩ := h
  exact hch.totals he

/-- A bill written in the run, and its notes. -/
structure BillMoney (x : SaleId) (db : Db) : Prop where
  absent : db.sales.get x = none → db.notesOf x = []
  accepted : ∀ sale, db.sales.get x = some sale → sale.Accepted
  priced : ∀ sale, db.sales.get x = some sale → ∀ note ∈ db.notesOf x, note.PricedBy sale

/-- Every effect keeps the money of the bill and of its notes within the bounds. -/
theorem BillMoney.step (h : BillMoney x s) (hperf : Performs e s s') : BillMoney x s' := by
  cases hperf.billStep x with
  | other e hne hsale hnotes =>
      refine ⟨?_, ?_, ?_⟩
      · rw [hsale, hnotes]
        exact h.absent
      · rw [hsale]
        exact h.accepted
      · rw [hsale, hnotes]
        exact h.priced
  | sold actor dto row hid hnone hrow hsale hnotes =>
      obtain ⟨n, k, account, locked, rfl⟩ := hrow
      have hempty : s'.notesOf x = [] := hnotes.trans (h.absent hnone)
      refine ⟨fun _ => hempty, ?_, ?_⟩
      · intro sale hx
        obtain rfl := Option.some.inj (hsale.symm.trans hx)
        exact accepted_saleRow (hperf.totals rfl)
      · intro sale _ note hnote
        rw [hempty] at hnote
        cases hnote
  | byHand actor reason sale hx hlive hno hsale hnotes hstock =>
      refine ⟨fun _ => hnotes, ?_, ?_⟩
      · intro v hv
        obtain rfl := Option.some.inj (hsale.symm.trans hv)
        have hacc := h.accepted sale hx
        exact ⟨hacc.subtotal, hacc.total, hacc.points⟩
      · intro v _ note hnote
        rw [hnotes] at hnote
        cases hnote
  | refunded actor r dto sale n k hid hx hlive hok hnotes hsale hstock =>
      refine ⟨?_, ?_, ?_⟩
      · intro hnone
        rw [hsale] at hnone
        cases hnone
      · intro v hv
        obtain rfl := Option.some.inj (hsale.symm.trans hv)
        have hacc := h.accepted sale hx
        exact ⟨hacc.subtotal, hacc.total, hacc.points⟩
      · intro v hv note hnote
        obtain rfl := Option.some.inj (hsale.symm.trans hv)
        rw [hnotes] at hnote
        -- the figures of a note depend on the bill's money only, which a void leaves alone
        have hpriced : note.PricedBy sale := by
          rcases List.mem_append.mp hnote with hold | hnew
          · exact h.priced sale hx note hold
          · rw [List.mem_singleton.mp hnew]
            exact pricedBy_noteRow dto sale n k
        exact ⟨hpriced.subtotal, hpriced.discount, hpriced.total⟩

end

section
variable {T : Type} [DecidableEq T] {x : SaleId} {s₀ : Db} {S : System T}

/-- **Refunds conserve the money of the bill**, up to the rounding of each note. -/
theorem refunds_conserve_money (h₀ : s₀.Consistent) (hnone : s₀.sales.get x = none)
    (hnotes : s₀.notesOf x = []) (h : Reachable prog s₀ S) {sale : Sale}
    (hsale : S.db.sales.get x = some sale) (hsense : sale.MakesSense) :
    RefundsWithin sale (S.db.notesOf x) := by
  have huntouched : Untouched x s₀ := by
    refine ⟨?_, hnotes⟩
    intro v hv
    rw [hnone] at hv
    cases hv
  have hstart : BillMoney x s₀ := by
    refine ⟨fun _ => hnotes, ?_, ?_⟩
    · intro v hv
      rw [hnone] at hv
      cases hv
    · intro v hv
      rw [hnone] at hv
      cases hv
  have hmoney : BillMoney x S.db :=
    Reachable.invariant (BillMoney x) h₀ hstart (fun _ _ _ _ ih hperf => ih.step hperf) h
  obtain ⟨cs, htr⟩ := Reachable.traced h₀ h
  have hlife : BillLife x cs S.db :=
    Traced.invariant (BillLife x) h₀ huntouched.billLife (fun _ _ _ ih => ih.step) htr
  exact refundsWithin hsense (hmoney.accepted sale hsale) (hmoney.priced sale hsale)
    (hlife.atPrice sale hsale)

/-- Three pieces at 100 satang with a discount of one satang, which come back one at a time. -/
def threeNotes : List Op :=
  [.post (plainEnv 0 90) ⟨1⟩ 1 0
     (.sale { cashBill 21 3 three_sold_pos with discount := 1, total := 299 } none),
   .post (plainEnv 1 91) ⟨1⟩ 2 0 (.creditNote
     ⟨some 31, 21, none, .transfer, [⟨7, "brake pad", 1, 100, none, Int.zero_lt_one⟩]⟩),
   .post (plainEnv 2 92) ⟨1⟩ 3 0 (.creditNote
     ⟨some 32, 21, none, .transfer, [⟨7, "brake pad", 1, 100, none, Int.zero_lt_one⟩]⟩),
   .post (plainEnv 3 93) ⟨1⟩ 4 0 (.creditNote
     ⟨some 33, 21, none, .transfer, [⟨7, "brake pad", 1, 100, none, Int.zero_lt_one⟩]⟩)]

/-- A third of a satang is rounded away three times: 300 satang are refunded of a bill of 299. -/
theorem notes_refund_more_than_the_bill : ∃ S : System Nat, Reachable prog smallShop S ∧
    (S.db.sales.get 21).map (fun sale => (sale.total, sale.discount, soldTotal sale.items)) =
      some (299, 1, 3) ∧
    refundedTotal (noteLines (S.db.notesOf 21)) = 3 ∧
    ((S.db.notesOf 21).map (·.refundTotal)).sum = 300 ∧
    ((S.db.notesOf 21).map (·.refundDiscount)).sum = 0 := by
  obtain ⟨S, hreach, hdb⟩ : ∃ S : System Nat, Reachable prog smallShop S ∧
      S.db = rowsAfter prog threeNotes smallShop := reachable_rowsAfter (by decide +kernel)
  refine ⟨S, hreach, ?_⟩
  rw [hdb]
  decide +kernel

/-- Three notes of one bill stay within it. -/
theorem refunds_conserve_money_of_threeNotes : ∃ (S : System Nat) (sale : Sale),
    Reachable prog smallShop S ∧ S.db.sales.get 21 = some sale ∧
      RefundsWithin sale (S.db.notesOf 21) := by
  obtain ⟨S, hreach, hdb⟩ : ∃ S : System Nat, Reachable prog smallShop S ∧
      S.db = rowsAfter prog threeNotes smallShop := reachable_rowsAfter (by decide +kernel)
  have hsome : ((rowsAfter prog threeNotes smallShop).sales.get 21).isSome = true := by
    decide +kernel
  obtain ⟨sale, hsale⟩ := Option.isSome_iff_exists.mp hsome
  have hsense : sale.MakesSense := by
    have hall : ((rowsAfter prog threeNotes smallShop).sales.get 21).all (fun v =>
        decide (0 ≤ v.discount ∧ v.discount ≤ v.subtotal ∧ 0 ≤ v.total) &&
          v.items.all fun i => decide (0 ≤ i.price)) = true := by decide +kernel
    rw [hsale] at hall
    simp only [Option.all_some, Bool.and_eq_true, decide_eq_true_eq, List.all_eq_true] at hall
    exact ⟨hall.1.1, hall.1.2.1, hall.1.2.2, hall.2⟩
  rw [← hdb] at hsale
  exact ⟨S, sale, hreach, hsale,
    refunds_conserve_money smallShop_consistent rfl rfl hreach hsale hsense⟩

end

end Server

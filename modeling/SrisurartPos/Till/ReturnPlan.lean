import SrisurartPos.Server.Refunds
import SrisurartPos.Till.Rows
import Mathlib.Algebra.Order.Group.MinMax

/-! # The till's plan of a credit note (`return_plan.dart`)

Away from the server, the till works out by itself what a credit note refunds and reverses. It looks
at each line on its own, and bounds it by what the product has left; the server adds lines of one
product and price up, and bounds them by what that price has left too. What the server accepts the
till accepts, and then both come to the same figures, but for the share of a mechanic's discount or
markup, which the server rounds to whole satang. -/

namespace Cache

open Server Money

/-! ## The plan -/

structure ReturnLineInput where
  productId : ProductId
  name : String
  qty : Int
  price : ℚ

structure ReturnInput where
  items : List ReturnLineInput
  refundMethod : RefundMethod

/-- A mechanic's four running totals, as a credit note leaves them. -/
structure MechanicTotals where
  totalSales : ℚ
  totalDiscount : ℚ
  totalMarkup : ℚ
  creditBalance : ℚ
  deriving DecidableEq

structure ReturnPlan where
  refundSubtotal : ℚ
  refundDiscount : ℚ
  refundTotal : ℚ
  customerAfter : Option CustomerRow
  mechanicAfter : Option MechanicTotals
  voidsSale : Bool

/-- `refundedQtyOf`: the quantity of each product that earlier notes took back. -/
def refundedQtyOf (lines : List ReturnItemRow) : List (ProductId × Int) :=
  groupMoves (lines.map fun i => (i.productId, i.qty))

/-- The quantity the bill sold of a product, none of one it does not name. -/
def soldOf (soldItems : List SaleItemRow) (p : ProductId) : Option Int :=
  if soldItems.any (·.productId = p) then
    some (soldItems.map fun x => if x.productId = p then x.qty else 0).sum
  else none

/-- The lines that ask for more than is left, each looked at alone. -/
def overs (soldItems : List SaleItemRow) (refundedSoFar : List (ProductId × Int))
    (items : List ReturnLineInput) : List OverLine :=
  items.filterMap fun i =>
    match soldOf soldItems i.productId with
    | none      => some ⟨i.name, none, i.qty⟩
    | some sold =>
        let remaining := sold - (refundedSoFar.lookup i.productId).getD 0
        if i.qty > remaining then some ⟨i.name, some remaining, i.qty⟩ else none

def pointsFor (total : ℚ) : Int := ⌊total / 10⌋

/-- The customer once `refundTotal`, in the proportion `ratio` of the bill, is taken back. -/
def CustomerRow.refund (sale : SaleRow) (refundTotal ratio : ℚ) (c : CustomerRow) : CustomerRow :=
  let basePoints := if sale.pointsGranted > 0 then sale.pointsGranted else pointsFor sale.total
  { totalSpend := max 0 (c.totalSpend - refundTotal)
    points := max 0 (c.points - ⌊basePoints * ratio⌋) }

/-- The share of the mechanic's discount that goes back. -/
def reverseCredit (sale : SaleRow) (ratio : ℚ) : ℚ :=
  let origDelta := sale.mechanicDelta.getD 0
  if origDelta < 0 then -origDelta * ratio else 0

/-- And of his markup. -/
def reverseMarkup (sale : SaleRow) (ratio : ℚ) : ℚ :=
  let origDelta := sale.mechanicDelta.getD 0
  if origDelta > 0 then origDelta * ratio else 0

/-- `totalDiscount || totalCredit` -/
def MechanicRow.discountBase (m : MechanicRow) : ℚ :=
  if m.totalDiscount ≠ 0 then m.totalDiscount else m.totalCredit

def MechanicRow.refund (sale : SaleRow) (method : RefundMethod) (refundTotal ratio : ℚ)
    (m : MechanicRow) : MechanicTotals :=
  let reduceBalance := if method = .deductFromCredit then refundTotal else 0
  { totalSales := max 0 (m.totalSales - refundTotal)
    totalDiscount := max 0 (m.discountBase - reverseCredit sale ratio)
    totalMarkup := max 0 (m.totalMarkup - reverseMarkup sale ratio)
    creditBalance := max 0 (m.creditBalance - reduceBalance) }

def ReturnInput.refundSubtotal (input : ReturnInput) : ℚ :=
  (input.items.map fun i => i.price * (i.qty : ℚ)).sum

def refundDiscountOf (sale : SaleRow) (refundSubtotal : ℚ) : ℚ :=
  let discountRatio := if sale.subtotal > 0 then sale.discount / sale.subtotal else 0
  round2 (refundSubtotal * discountRatio)

def refundRatio (sale : SaleRow) (refundTotal : ℚ) : ℚ :=
  if sale.total > 0 then refundTotal / sale.total else 0

def planReturn (sale : SaleRow) (refundedSoFar : List (ProductId × Int)) (input : ReturnInput)
    (customer : Option CustomerRow) (mechanic : Option MechanicRow) :
    Except (List OverLine) ReturnPlan :=
  let exceeding := overs sale.items refundedSoFar input.items
  if exceeding ≠ [] then .error exceeding
  else
    let refundSubtotal := input.refundSubtotal
    let refundDiscount := refundDiscountOf sale refundSubtotal
    let refundTotal := round2 (refundSubtotal - refundDiscount)
    let ratio := refundRatio sale refundTotal
    let refundedBefore : Int := (refundedSoFar.map (·.2)).sum
    let refundedNow : Int := (input.items.map (·.qty)).sum
    let soldQty : Int := (sale.items.map (·.qty)).sum
    .ok
      { refundSubtotal := refundSubtotal
        refundDiscount := refundDiscount
        refundTotal := refundTotal
        customerAfter := customer.map (CustomerRow.refund sale refundTotal ratio)
        mechanicAfter := mechanic.map (MechanicRow.refund sale input.refundMethod refundTotal ratio)
        voidsSale := decide (refundedBefore + refundedNow ≥ soldQty) }

/-! ## One request on both sides -/

def ReturnLineInput.ofServer (l : ReturnLine) : ReturnLineInput :=
  { productId := l.productId, name := l.name, qty := l.qty, price := baht l.price }

/-- The request as the counter made it, whose body the server reads as `items`. -/
def ReturnInput.ofServer (items : List ReturnLine) (method : RefundMethod) : ReturnInput :=
  ⟨items.map ReturnLineInput.ofServer, method⟩

section
variable {row : SaleRow} {sale : Sale} {old : List ReturnItem} {items : List ReturnLine}
  {method : RefundMethod}

/-! ### Quantities -/

/-- The moves of a note, grouped by product, move each product by the sum. -/
theorem lookup_groupMoves (moves : List (ProductId × Int)) (p : ProductId) :
    ((groupMoves moves).lookup p).getD 0 = shiftOf moves p := by
  rw [← shiftOf_groupMoves]
  have hnodup := nodup_groupMoves moves
  generalize groupMoves moves = gs at hnodup
  induction gs with
  | nil => rfl
  | cons g gs ih =>
      obtain ⟨k, n⟩ := g
      obtain ⟨hk, hgs⟩ : k ∉ gs.map Prod.fst ∧ (gs.map Prod.fst).Nodup := by
        simpa only [List.map_cons, List.nodup_cons] using hnodup
      by_cases hp : p = k
      · subst hp
        rw [List.lookup_cons_self, shiftOf, List.map_cons, List.sum_cons, if_pos rfl]
        rw [show ((gs.map fun m => if m.1 = p then m.2 else 0).sum) = 0 from
          Grouping.sum_of_key_notMem hk Prod.snd]
        simp
      · have hlookup : List.lookup p ((k, n) :: gs) = gs.lookup p := by
          rw [List.lookup_cons, beq_eq_false_iff_ne.mpr hp]
        rw [hlookup, ih hgs, shiftOf, shiftOf, List.map_cons, List.sum_cons, if_neg (Ne.symm hp),
          zero_add]

theorem refundedQtyOf_lookup (p : ProductId) :
    ((refundedQtyOf (old.map .ofServer)).lookup p).getD 0 = refundedQty old p := by
  rw [refundedQtyOf, lookup_groupMoves, shiftOf, List.map_map, List.map_map]
  rfl

theorem refundedQtyOf_sum :
    ((refundedQtyOf (old.map .ofServer)).map (·.2)).sum = refundedTotal old := by
  have hsum : ((refundedQtyOf (old.map .ofServer)).map Prod.snd).sum =
      (((old.map ReturnItemRow.ofServer).map fun i => (i.productId, i.qty)).map Prod.snd).sum := by
    rw [refundedQtyOf, groupMoves]
    refine Grouping.sum_collapse (f := Prod.snd) ?_ ?_ _
    · exact fun _ _ => rfl
    · exact fun _ _ _ => rfl
  rw [hsum, List.map_map, List.map_map]
  rfl

/-- The till's count of a bill's units is the server's, where the bill is cached. -/
theorem soldOf_eq (h : row.Caches sale) (p : ProductId) :
    soldOf row.items p = if onBill sale.items p then some (soldQty sale.items p) else none := by
  have hany : row.items.any (·.productId = p) = onBill sale.items p := by
    apply h.any_items
    intro r i hri
    rw [hri.productId]
  have hsum : (row.items.map fun x => if x.productId = p then x.qty else 0).sum =
      soldQty sale.items p := by
    apply h.sum_items
    intro r i hri
    rw [hri.productId, hri.qty]
  rw [soldOf, hany, hsum]

/-! ### What the till accepts -/

/-- A line the till has no objection to. -/
def WithinProduct (sale : Sale) (old : List ReturnItem) (l : ReturnLine) : Prop :=
  onBill sale.items l.productId = true ∧
    l.qty ≤ soldQty sale.items l.productId - refundedQty old l.productId

/-- The till finds nothing too much where each line is within its product. -/
theorem overs_eq_nil_iff (h : row.Caches sale) :
    overs row.items (refundedQtyOf (old.map .ofServer)) (items.map .ofServer) = [] ↔
      ∀ l ∈ items, WithinProduct sale old l := by
  rw [overs, List.filterMap_eq_nil_iff]
  simp only [List.forall_mem_map]
  refine forall₂_congr fun l _ => ?_
  show (match soldOf row.items l.productId with
    | none => _
    | some sold => _) = none ↔ _
  rw [soldOf_eq h, WithinProduct]
  cases onBill sale.items l.productId with
  | false => simp
  | true =>
      simp only [if_true, true_and]
      rw [refundedQtyOf_lookup]
      show (if l.qty > soldQty sale.items l.productId - refundedQty old l.productId then _ else _) =
        none ↔ _
      split
      · simp; omega
      · simp; omega

/-- **What the till accepts**: lines that each stay within what their product has left. -/
theorem planReturn_ok_iff (h : row.Caches sale) {customer : Option CustomerRow}
    {mechanic : Option MechanicRow} :
    (∃ plan, planReturn row (refundedQtyOf (old.map .ofServer)) (.ofServer items method) customer
      mechanic = .ok plan) ↔ ∀ l ∈ items, WithinProduct sale old l := by
  rw [← overs_eq_nil_iff h, planReturn]
  show (∃ plan, (if overs row.items _ (items.map .ofServer) ≠ [] then _ else _) = _) ↔ _
  split
  · rename_i hover
    exact ⟨fun ⟨_, hplan⟩ => (by cases hplan), fun hnil => absurd hnil hover⟩
  · rename_i hover
    exact ⟨fun _ => not_not.mp hover, fun _ => ⟨_, rfl⟩⟩

/-! ### What the server accepts -/

/-- A line within what its price has left. -/
def WithinPrice (sale : Sale) (old : List ReturnItem) (l : ReturnLine) : Prop :=
  onBillAt sale.items l.productId l.price = true ∧
    l.qty ≤ soldQtyAt sale.items l.productId l.price - refundedQtyAt old l.productId l.price

/-- No product at one price on two lines. -/
def NoLineTwice (items : List ReturnLine) : Prop :=
  (items.map fun l => (l.productId, l.price)).Nodup

theorem onBill_of_at {sold : List SaleItem} {p : ProductId} {price : Int}
    (h : onBillAt sold p price = true) : onBill sold p = true := by
  obtain ⟨i, hi, hat⟩ := List.any_eq_true.mp h
  refine List.any_eq_true.mpr ⟨i, hi, ?_⟩
  simp only [Bool.and_eq_true, decide_eq_true_eq] at hat
  exact decide_eq_true hat.1

/-- Each line of a note is in the demand of its product and price. -/
theorem mem_aggregateReturn {l : ReturnLine} (hl : l ∈ items) :
    ∃ d ∈ aggregateReturn items, d.productId = l.productId ∧ d.price = l.price := by
  have hmerge : ∀ d e, (ReturnDemand.merge d e).key = d.key := fun _ _ => rfl
  have hkey : (l.productId, l.price) ∈ (aggregateReturn items).map ReturnDemand.key := by
    rw [((aggregateReturn_perm items).map _).mem_iff, Grouping.mem_collapse hmerge, List.map_map]
    have hmap : items.zipIdx.map (ReturnDemand.key ∘ fun e => ⟨e.1.productId, e.1.qty, e.1.price,
        e.1.originalQty, e.1.name, e.2, e.1.qty_pos⟩) =
          (items.zipIdx.map Prod.fst).map fun l => (l.productId, l.price) := by
      rw [List.map_map]
      rfl
    rw [hmap, List.zipIdx_map_fst]
    exact List.mem_map_of_mem hl
  obtain ⟨d, hd, hkey⟩ := List.mem_map.mp hkey
  exact ⟨d, hd, congrArg Prod.fst hkey, congrArg Prod.snd hkey⟩

/-- What a demand asks for is what the lines of its product and price do. -/
theorem qty_eq_requested {d : ReturnDemand} (hd : d ∈ aggregateReturn items) :
    d.qty = requestedQtyAt items d.productId d.price := by
  have hsum := Grouping.sum_of_key (nodup_aggregateReturn items) hd ReturnDemand.qty
  simp only [ReturnDemand.key, Prod.mk.injEq] at hsum
  rw [← sum_demandsAt, hsum]

theorem requestedQtyAt_of_once (h : NoLineTwice items) {l : ReturnLine} (hl : l ∈ items) :
    requestedQtyAt items l.productId l.price = l.qty := by
  have hsum := Grouping.sum_of_key h hl ReturnLine.qty
  simp only [Prod.mk.injEq] at hsum
  exact hsum

theorem le_requestedQtyAt {l : ReturnLine} (hl : l ∈ items) :
    l.qty ≤ requestedQtyAt items l.productId l.price := by
  refine List.single_le_sum (fun n hn => ?_) _ (List.mem_map.mpr ⟨l, hl, if_pos ⟨rfl, rfl⟩⟩)
  obtain ⟨l', -, rfl⟩ := List.mem_map.mp hn
  split
  · exact l'.qty_pos.le
  · exact le_refl 0

/-- **What the server accepts**, demand by demand. -/
theorem assertRefundable_ok_iff {sold : List SaleItem} {demands : List ReturnDemand} :
    assertRefundable demands sold old = .ok () ↔
      ∀ d ∈ demands, onBillAt sold d.productId d.price = true ∧ d.qty ≤ remaining sold old d := by
  refine ⟨fun h d hd => fits_of_refundable h hd, fun h => ?_⟩
  have hprice : mispriced demands sold = [] := by
    rw [mispriced, List.map_eq_nil_iff, List.filter_eq_nil_iff]
    intro d hd
    simp [(h d hd).1]
  have hover : overLines demands sold old = [] := by
    rw [overLines, List.filterMap_eq_nil_iff]
    intro d hd
    obtain ⟨hat, hqty⟩ := h d hd
    rw [if_neg (by simp [hat]), if_neg (by omega)]
  rw [assertRefundable, if_neg (by simp [hprice]), if_neg (by simp [hover])]

/-- A line the server accepts stays within what its price and its product have left. -/
theorem within_of_refundable
    (h : assertRefundable (aggregateReturn items) sale.items old = .ok ()) {l : ReturnLine}
    (hl : l ∈ items) : WithinProduct sale old l ∧ WithinPrice sale old l := by
  obtain ⟨d, hd, hp, hprice⟩ := mem_aggregateReturn hl
  obtain ⟨hat, hqty⟩ := fits_of_refundable h hd
  rw [qty_eq_requested hd] at hqty
  simp only [remaining, hp, hprice] at hat hqty
  have hle := le_requestedQtyAt hl
  exact ⟨⟨onBill_of_at hat, by omega⟩, hat, by omega⟩

/-- With no line twice, that is all the server asks. -/
theorem refundable_iff_within (honce : NoLineTwice items) :
    assertRefundable (aggregateReturn items) sale.items old = .ok () ↔
      (∀ l ∈ items, WithinProduct sale old l) ∧ ∀ l ∈ items, WithinPrice sale old l := by
  constructor
  · intro h
    exact ⟨fun l hl => (within_of_refundable h hl).1, fun l hl => (within_of_refundable h hl).2⟩
  · rintro ⟨hproduct, hprice⟩
    rw [assertRefundable_ok_iff]
    intro d hd
    -- a demand is there because of a line, which asks for the same
    obtain ⟨l, hl, hp, hpr⟩ : ∃ l ∈ items, l.productId = d.productId ∧ l.price = d.price := by
      by_contra hno
      have hzero : requestedQtyAt items d.productId d.price = 0 := by
        apply List.sum_eq_zero
        intro n hn
        obtain ⟨l, hl, rfl⟩ := List.mem_map.mp hn
        exact if_neg fun hat => hno ⟨l, hl, hat⟩
      have hpos := d.qty_pos
      rw [qty_eq_requested hd] at hpos
      omega
    have hqty : d.qty = l.qty := by
      rw [qty_eq_requested hd, ← hp, ← hpr, requestedQtyAt_of_once honce hl]
    obtain ⟨-, hleft⟩ := hproduct l hl
    obtain ⟨hat, hleftAt⟩ := hprice l hl
    rw [hp] at hleft
    rw [hp, hpr] at hat hleftAt
    exact ⟨hat, by simp only [remaining]; omega⟩

/-! ### What both come to -/

/-- The amounts the server works with. -/
abbrev amounts (items : List ReturnLine) (sale : Sale) : RefundAmounts :=
  refundAmounts (aggregateReturn items) sale

/-- The two subtotals of a note agree: the server's is of whole satang. -/
theorem refundSubtotal_eq :
    (ReturnInput.ofServer items method).refundSubtotal = baht (amounts items sale).refundSubtotal := by
  have hsum := sum_aggregateReturn items fun _ price => price
  have hdemands : refundSubtotalOf (aggregateReturn items) =
      (items.map fun l => l.price * l.qty).sum := by
    rw [← hsum, refundSubtotalOf]
    congr 1
    exact List.map_congr_left fun d _ => mul_comm _ _
  show ((items.map ReturnLineInput.ofServer).map fun i => i.price * (i.qty : ℚ)).sum =
    baht (refundSubtotalOf (aggregateReturn items))
  rw [hdemands, baht_sum, List.map_map]
  congr 1
  exact List.map_congr_left fun l _ => baht_mul.symm

theorem refundSubtotal_nonneg (hprices : ∀ l ∈ items, 0 ≤ l.price) :
    0 ≤ (amounts items sale).refundSubtotal := by
  rw [← baht_le, baht_zero, ← @refundSubtotal_eq sale items .cash]
  apply List.sum_nonneg
  intro q hq
  obtain ⟨i, hi, rfl⟩ := List.mem_map.mp hq
  obtain ⟨l, hl, rfl⟩ := List.mem_map.mp hi
  have hprice : (0 : ℚ) ≤ baht l.price := by
    rw [← baht_zero, baht_le]
    exact hprices l hl
  exact mul_nonneg hprice (Int.cast_nonneg l.qty_pos.le)

/-- So do the discounts that go back, where neither prices nor the discount are negative. -/
theorem refundDiscount_eq (h : row.Caches sale) (hprices : ∀ l ∈ items, 0 ≤ l.price)
    (hdiscount : 0 ≤ sale.discount) :
    refundDiscountOf row (baht (amounts items sale).refundSubtotal) =
      baht (amounts items sale).refundDiscount := by
  have hnonneg := @refundSubtotal_nonneg sale items hprices
  show round2 (_ * if row.subtotal > 0 then row.discount / row.subtotal else 0) =
    baht (if sale.subtotal > 0 then _ else _)
  rw [h.subtotal, h.discount]
  simp only [gt_iff_lt, baht_pos]
  split
  · rename_i hpos
    have hquot : baht (amounts items sale).refundSubtotal * ((sale.discount : ℚ) / sale.subtotal) * 100 =
        (((amounts items sale).refundSubtotal * sale.discount : Int) : ℚ) / sale.subtotal := by
      rw [baht]
      push_cast
      ring
    rw [baht_div, round2_eq, toSatang, hquot,
      roundAway_div hpos (mul_nonneg hnonneg hdiscount)]
    rfl
  · rw [mul_zero, ← baht_zero, round2_baht]

theorem refundRatio_eq (h : row.Caches sale) (refundTotal : Int) :
    refundRatio row (baht refundTotal) =
      if sale.total > 0 then (refundTotal : ℚ) / sale.total else 0 := by
  rw [refundRatio, h.total]
  simp only [gt_iff_lt, baht_pos]
  split
  · exact baht_div
  · rfl

theorem pointsFor_baht (total : Int) : pointsFor (baht total) = total / 1000 := by
  have hquot : baht total / 10 = (total : ℚ) / ((1000 : Int) : ℚ) := by
    rw [baht]
    push_cast
    ring
  rw [pointsFor, hquot, floor_div (by norm_num)]

/-- The customer is left alike. -/
theorem customer_refund_eq (h : row.Caches sale) (c : Customer) :
    CustomerRow.refund row (baht (amounts items sale).refundTotal)
        (refundRatio row (baht (amounts items sale).refundTotal)) (.ofServer c) =
      .ofServer (Customer.move (-pointsToReverse sale (amounts items sale))
        (-(amounts items sale).refundTotal) c) := by
  have hbase : (if row.pointsGranted > 0 then row.pointsGranted else pointsFor row.total) =
      if sale.pointsGranted > 0 then sale.pointsGranted else (amounts items sale).saleTotal / 1000 := by
    rw [h.pointsGranted, h.total, pointsFor_baht]
    rfl
  have hpoints : ⌊((if row.pointsGranted > 0 then row.pointsGranted else pointsFor row.total : Int) :
      ℚ) * refundRatio row (baht (amounts items sale).refundTotal)⌋ =
        pointsToReverse sale (amounts items sale) := by
    rw [hbase, refundRatio_eq h, pointsToReverse]
    generalize (if sale.pointsGranted > 0 then sale.pointsGranted else
      (amounts items sale).saleTotal / 1000) = basePoints
    show _ = if sale.total > 0 then _ * _ / sale.total else 0
    split
    · rename_i hpos
      rw [mul_div_assoc', ← Int.cast_mul, floor_div hpos]
    · rw [mul_zero, Int.floor_zero]
  simp only [CustomerRow.refund, hpoints, Customer.move, CustomerRow.ofServer,
    baht_max_zero, baht_sub, ← sub_eq_add_neg]

/-- Two amounts no further apart than half a satang. -/
def WithinHalfSatang (a b : ℚ) : Prop := |a - b| ≤ 1 / 200

/-- The server's share is the till's, to the nearest satang … -/
theorem inProportion_near (h : row.Caches sale) (satang : Int) :
    WithinHalfSatang (baht (inProportion (amounts items sale) satang))
      (baht satang * refundRatio row (baht (amounts items sale).refundTotal)) := by
  rw [refundRatio_eq h]
  show WithinHalfSatang (baht (if sale.total > 0 then
    Rounding.roundDiv (satang * (amounts items sale).refundTotal) sale.total else 0)) _
  split
  · rename_i hpos
    have hround := @abs_roundDiv_sub_le (satang * (amounts items sale).refundTotal) sale.total hpos
    generalize Rounding.roundDiv (satang * (amounts items sale).refundTotal) sale.total = k at hround
    have hquot : baht satang * (((amounts items sale).refundTotal : ℚ) / sale.total) =
        ((satang * (amounts items sale).refundTotal : Int) : ℚ) / sale.total / 100 := by
      rw [baht]
      push_cast
      ring
    rw [hquot, WithinHalfSatang, baht, ← sub_div, abs_div, abs_of_pos (by norm_num : (0 : ℚ) < 100)]
    linarith
  · rw [mul_zero, baht_zero, WithinHalfSatang, sub_zero, abs_zero]
    norm_num

/-- … and the same when that is whole. -/
theorem inProportion_whole (h : row.Caches sale) {satang : Int}
    (hwhole : Whole (baht satang * refundRatio row (baht (amounts items sale).refundTotal))) :
    baht (inProportion (amounts items sale) satang) =
      baht satang * refundRatio row (baht (amounts items sale).refundTotal) := by
  have hnear := @inProportion_near row sale items h satang
  obtain ⟨k, hk⟩ := whole_iff.mp hwhole
  rw [hk] at hnear ⊢
  rw [WithinHalfSatang, ← baht_sub, baht, abs_le] at hnear
  obtain ⟨h₁, h₂⟩ := hnear
  have hlow : (-1 : ℚ) < ((inProportion (amounts items sale) satang - k : Int) : ℚ) := by linarith
  have hhigh : ((inProportion (amounts items sale) satang - k : Int) : ℚ) < 1 := by linarith
  have hlow' : -1 < inProportion (amounts items sale) satang - k := by exact_mod_cast hlow
  have hhigh' : inProportion (amounts items sale) satang - k < 1 := by exact_mod_cast hhigh
  rw [baht_inj]
  omega

theorem reverseCredit_eq (h : row.Caches sale) (ratio : ℚ) :
    reverseCredit row ratio = baht (discountOf sale.mechanicDelta) * ratio := by
  have hdelta : row.mechanicDelta.getD 0 = baht (sale.mechanicDelta.getD 0) := by
    rw [h.mechanicDelta]
    cases sale.mechanicDelta with
    | none => exact baht_zero.symm
    | some δ => rfl
  simp only [reverseCredit, discountOf, hdelta, baht_neg_iff]
  split
  · rw [baht_neg]
  · rw [baht_zero, zero_mul]

theorem reverseMarkup_eq (h : row.Caches sale) (ratio : ℚ) :
    reverseMarkup row ratio = baht (markupOf sale.mechanicDelta) * ratio := by
  have hdelta : row.mechanicDelta.getD 0 = baht (sale.mechanicDelta.getD 0) := by
    rw [h.mechanicDelta]
    cases sale.mechanicDelta with
    | none => exact baht_zero.symm
    | some δ => rfl
  simp only [reverseMarkup, markupOf, hdelta, gt_iff_lt, baht_pos]
  split
  · rfl
  · rw [baht_zero, zero_mul]

theorem discountBase_ofServer (m : Mechanic) :
    (MechanicRow.ofServer m).discountBase = baht m.discountBase := by
  simp only [MechanicRow.discountBase, Mechanic.discountBase, MechanicRow.ofServer_totalDiscount,
    MechanicRow.ofServer_totalCredit, baht_ne_zero]
  split <;> rfl

/-- Taking away amounts that are near leaves totals that are near. -/
theorem clamped_near {n k : Int} {q : ℚ} (h : WithinHalfSatang (baht k) q) :
    WithinHalfSatang (baht (max 0 (n - k))) (max 0 (baht n - q)) := by
  rw [baht_max_zero, baht_sub, WithinHalfSatang]
  rw [max_comm 0, max_comm 0]
  refine (abs_max_sub_max_le_abs (baht n - baht k) (baht n - q) 0).trans ?_
  rw [show baht n - baht k - (baht n - q) = -(baht k - q) by ring, abs_neg]
  exact h

theorem clamped_eq {n k : Int} {q : ℚ} (h : baht k = q) :
    baht (max 0 (n - k)) = max 0 (baht n - q) := by
  rw [baht_max_zero, baht_sub, h]

/-- A total of the mechanic: the same up to the rounding of the share that is taken away, and the
same outright when that share is whole. -/
structure SameUpToRounding (server till share : ℚ) : Prop where
  near : WithinHalfSatang server till
  whole : Whole share → server = till

theorem sameUpToRounding (h : row.Caches sale) (n satang : Int) :
    SameUpToRounding (baht (max 0 (n - inProportion (amounts items sale) satang)))
      (max 0 (baht n - baht satang * refundRatio row (baht (amounts items sale).refundTotal)))
      (baht satang * refundRatio row (baht (amounts items sale).refundTotal)) where
  near := clamped_near (inProportion_near h satang)
  whole hwhole := clamped_eq (inProportion_whole h hwhole)

end

/-! ## The two agree -/

/-- The mechanic's totals on both sides. -/
structure MechanicTotals.Matches (totals : MechanicTotals) (row : SaleRow) (money : RefundAmounts)
    (after : Mechanic) : Prop where
  totalSales : totals.totalSales = baht after.totalSales
  totalDiscount : SameUpToRounding (baht after.totalDiscount) totals.totalDiscount
    (reverseCredit row (refundRatio row (baht money.refundTotal)))
  totalMarkup : SameUpToRounding (baht after.totalMarkup) totals.totalMarkup
    (reverseMarkup row (refundRatio row (baht money.refundTotal)))
  creditBalance : totals.creditBalance = baht after.creditBalance

/-- The plan says what the server does with the note. -/
structure ReturnPlan.Matches (plan : ReturnPlan) (row : SaleRow) (sale : Sale)
    (old : List ReturnItem) (items : List ReturnLine) (method : RefundMethod)
    (customer : Option Customer) (mechanic : Option Mechanic) : Prop where
  refundSubtotal : plan.refundSubtotal = baht (amounts items sale).refundSubtotal
  refundDiscount : plan.refundDiscount = baht (amounts items sale).refundDiscount
  refundTotal : plan.refundTotal = baht (amounts items sale).refundTotal
  customerAfter : plan.customerAfter = customer.map fun c =>
    .ofServer (Customer.move (-pointsToReverse sale (amounts items sale))
      (-(amounts items sale).refundTotal) c)
  mechanicAfter : ∀ m, mechanic = some m → ∃ totals, plan.mechanicAfter = some totals ∧
    totals.Matches row (amounts items sale)
      (m.refund sale method (amounts items sale) m.discountBase)
  noMechanic : mechanic = none → plan.mechanicAfter = none
  /-- what `autoVoid` decides once the note is stored -/
  voidsSale : plan.voidsSale = !decide (refundedTotal (old ++
    noteItems (aggregateReturn items) sale.items) < soldTotal sale.items)

/-- The till's decision on a request, and the server's. -/
structure ReturnsAgree (row : SaleRow) (sale : Sale) (old : List ReturnItem)
    (items : List ReturnLine) (method : RefundMethod) : Prop where
  /-- what the server accepts the till accepts, with the same figures -/
  plan : assertRefundable (aggregateReturn items) sale.items old = .ok () →
    ∀ (customer : Option Customer) (mechanic : Option Mechanic), ∃ plan,
      planReturn row (refundedQtyOf (old.map .ofServer)) (.ofServer items method) (customer.map .ofServer)
          (mechanic.map .ofServer) = .ok plan ∧
        plan.Matches row sale old items method customer mechanic
  /-- with no line twice, the server only looks at the prices besides -/
  accepts : NoLineTwice items → ∀ customer mechanic,
    (assertRefundable (aggregateReturn items) sale.items old = .ok () ↔
      (∃ plan, planReturn row (refundedQtyOf (old.map .ofServer)) (.ofServer items method)
        customer mechanic = .ok plan) ∧ ∀ l ∈ items, WithinPrice sale old l)
  /-- with no product twice, no more of it comes back than was sold -/
  bounded : (items.map (·.productId)).Nodup → ∀ customer mechanic plan,
    planReturn row (refundedQtyOf (old.map .ofServer)) (.ofServer items method) customer mechanic =
      .ok plan → ∀ p, requestedQty items p ≠ 0 →
        refundedQty old p + requestedQty items p ≤ soldQty sale.items p

section
variable {row : SaleRow} {sale : Sale} {old : List ReturnItem} {items : List ReturnLine}
  {method : RefundMethod}

/-- The mechanic's totals after the note agree. -/
theorem mechanic_refund_matches (h : row.Caches sale) (m : Mechanic) :
    ((MechanicRow.ofServer m).refund row method (baht (amounts items sale).refundTotal)
      (refundRatio row (baht (amounts items sale).refundTotal))).Matches row (amounts items sale)
        (m.refund sale method (amounts items sale) m.discountBase) where
  totalSales := by
    simp only [MechanicRow.refund, Mechanic.refund, MechanicRow.ofServer_totalSales, baht_max_zero,
      baht_sub]
  totalDiscount := by
    simp only [MechanicRow.refund, Mechanic.refund, discountBase_ofServer, reverseCredit_eq h]
    exact sameUpToRounding h _ _
  totalMarkup := by
    simp only [MechanicRow.refund, Mechanic.refund, MechanicRow.ofServer_totalMarkup,
      reverseMarkup_eq h]
    exact sameUpToRounding h _ _
  creditBalance := by
    simp only [MechanicRow.refund, Mechanic.refund, MechanicRow.ofServer_creditBalance,
      baht_max_zero, baht_sub]
    split
    · rfl
    · rw [baht_zero]

theorem refundedTotal_noteItems :
    refundedTotal (noteItems (aggregateReturn items) sale.items) = (items.map (·.qty)).sum := by
  have hsum := sum_aggregateReturn items fun _ _ => 1
  simp only [one_mul] at hsum
  rw [refundedTotal, noteItems, List.map_map, ← hsum]
  show ((aggregateReturn items).zipIdx.map (ReturnDemand.qty ∘ Prod.fst)).sum = _
  rw [← List.map_map, List.zipIdx_map_fst]

/-- **The till's plan and the server's.** What the server accepts the till accepts, and they come to
the same figures up to the rounding of the mechanic's share. -/
theorem planReturn_agrees (h : row.Caches sale) (hprices : ∀ l ∈ items, 0 ≤ l.price)
    (hdiscount : 0 ≤ sale.discount) : ReturnsAgree row sale old items method where
  plan haccepted customer mechanic := by
    have hwithin : ∀ l ∈ items, WithinProduct sale old l :=
      fun l hl => (within_of_refundable haccepted hl).1
    have hover := (overs_eq_nil_iff h).mpr hwithin
    have hsubtotal := @refundSubtotal_eq sale items method
    have hrefundDiscount := refundDiscount_eq h hprices hdiscount
    have htotal : round2 ((ReturnInput.ofServer items method).refundSubtotal - refundDiscountOf row
        (ReturnInput.ofServer items method).refundSubtotal) =
          baht (amounts items sale).refundTotal := by
      rw [hsubtotal, hrefundDiscount, ← baht_sub, round2_baht]
      rfl
    refine ⟨_, if_neg (not_not.mpr hover), hsubtotal, ?_, htotal, ?_, ?_, ?_, ?_⟩
    · rw [← hrefundDiscount, ← hsubtotal]
    · cases customer with
      | none => rfl
      | some c =>
          show some (CustomerRow.refund row (round2 _) (refundRatio row (round2 _)) (.ofServer c)) = _
          rw [htotal, customer_refund_eq h]
          rfl
    · rintro m rfl
      refine ⟨_, rfl, ?_⟩
      rw [htotal]
      exact mechanic_refund_matches h m
    · rintro rfl
      rfl
    · have hsold : (row.items.map (·.qty)).sum = soldTotal sale.items :=
        h.sum_items fun r i hri => hri.qty
      have hnow : ((ReturnInput.ofServer items method).items.map (·.qty)).sum =
          refundedTotal (noteItems (aggregateReturn items) sale.items) := by
        rw [refundedTotal_noteItems, ReturnInput.ofServer, List.map_map]
        rfl
      have hall : refundedTotal (old ++ noteItems (aggregateReturn items) sale.items) =
          refundedTotal old + refundedTotal (noteItems (aggregateReturn items) sale.items) := by
        rw [refundedTotal, List.map_append, List.sum_append]
        rfl
      rw [hsold, hnow, refundedQtyOf_sum, hall, ← decide_not]
      simp only [not_lt, ge_iff_le]
  accepts honce customer mechanic := by
    rw [planReturn_ok_iff h, refundable_iff_within honce]
  bounded honce customer mechanic plan hplan p hp := by
    have hwithin := (planReturn_ok_iff h).mp ⟨plan, hplan⟩
    obtain ⟨l, hl, hlp⟩ : ∃ l ∈ items, l.productId = p := by
      by_contra hno
      refine hp (List.sum_eq_zero fun n hn => ?_)
      obtain ⟨l, hl, rfl⟩ := List.mem_map.mp hn
      exact if_neg fun hlp => hno ⟨l, hl, hlp⟩
    have hone : requestedQty items p = l.qty := by
      rw [← hlp]
      exact Grouping.sum_of_key honce hl ReturnLine.qty
    obtain ⟨-, hle⟩ := hwithin l hl
    rw [hlp] at hle
    omega

end

/-! ### A bill of three pieces -/

/-- Sold at one baht each, with a discount of one baht to the mechanic. -/
def threePieces : Sale :=
  { receiptNo := .other "RC01-2569-08-0001", subtotal := 300, discount := 0, total := 300,
    paymentMethod := .cash, customerId := none, mechanicId := some 4, mechanicDelta := some (-100),
    pointsGranted := 0, shiftId := some 11, soldOffline := false, paymentAccountId := none,
    voided := false, voidReason := none,
    items := [⟨1, 7, "brake pad", 3, 100, some 60, Server.three_pieces_pos⟩] }

def threePiecesRow : SaleRow :=
  { receiptNo := .other "RC01-2569-08-0001", subtotal := baht 300, discount := baht 0,
    total := baht 300, paymentMethod := .cash, customerId := none, mechanicId := some 4,
    mechanicDelta := some (baht (-100)), pointsGranted := 0, date := 5, voided := false,
    voidedAt := none, shiftId := some 11, soldOffline := false, voidReason := none,
    paymentAccountId := none,
    items := [⟨7, some "PN-7", "brake pad", 3, baht 100, some (baht 60)⟩] }

theorem threePieces_cached : threePiecesRow.Caches threePieces where
  receiptNo := rfl
  subtotal := rfl
  discount := rfl
  total := rfl
  paymentMethod := rfl
  customerId := rfl
  mechanicId := rfl
  mechanicDelta := rfl
  pointsGranted := rfl
  voided := rfl
  shiftId := rfl
  soldOffline := rfl
  voidReason := rfl
  paymentAccountId := rfl
  items := .cons ⟨rfl, rfl, rfl, rfl, rfl⟩ .nil

/-- `qty` pieces at `price`. -/
def piecesBack (qty price : Int) (h : 0 < qty) : ReturnLine := ⟨7, "brake pad", qty, price, none, h⟩

/-- An imported bill of two pieces at one satang, with a discount below zero. -/
def importedBill : Sale :=
  { threePieces with
    subtotal := 2, discount := -1, total := 3, items := [⟨1, 7, "brake pad", 2, 1, none, by decide⟩] }

def importedBillRow : SaleRow :=
  { threePiecesRow with
    subtotal := baht 2, discount := baht (-1), total := baht 3,
    items := [⟨7, none, "brake pad", 2, baht 1, none⟩] }

def someMechanic : Mechanic := ⟨0, 0, 1000, 500, 0, 0, false⟩

/-- The line of an earlier credit note of the bill. -/
def pieceOfBefore : ReturnItem :=
  ⟨1, 7, "brake pad", 1, 100, some 3, some 60, Int.one_pos⟩

/-- One piece has come back before. Another one comes back: both accept it, and a third of a baht of
discount goes back with it. -/
theorem planReturn_agrees_of_onePiece :
    ReturnsAgree threePiecesRow threePieces [pieceOfBefore] [piecesBack 1 100 (by decide)] .cash ∧
      assertRefundable (aggregateReturn [piecesBack 1 100 (by decide)]) threePieces.items
        [pieceOfBefore] = .ok () :=
  ⟨planReturn_agrees threePieces_cached (by decide) (by decide), by decide +kernel⟩

/-- The till lets two lines of two pieces pass, of a bill of three, and a price the bill never
charged; the server refuses both. Of one piece that comes back the till takes a third of a baht off
the mechanic's discount, the server 33 satang. A discount below zero is rounded the other way. -/
theorem planReturn_differs :
    (planReturn threePiecesRow (refundedQtyOf [])
      (.ofServer [piecesBack 2 100 (by decide), piecesBack 2 100 (by decide)] .cash) none
        none).isOk = true ∧
    (assertRefundable (aggregateReturn [piecesBack 2 100 (by decide), piecesBack 2 100 (by decide)])
      threePieces.items []).isOk = false ∧
    (planReturn threePiecesRow (refundedQtyOf [])
      (.ofServer [piecesBack 1 90 (by decide)] .cash) none none).isOk = true ∧
    (assertRefundable (aggregateReturn [piecesBack 1 90 (by decide)]) threePieces.items []).isOk =
      false ∧
    (assertRefundable (aggregateReturn [piecesBack 1 100 (by decide)]) threePieces.items []).isOk =
      true ∧
    ((planReturn threePiecesRow (refundedQtyOf []) (.ofServer [piecesBack 1 100 (by decide)] .cash)
      none (some (.ofServer someMechanic))).toOption.bind (·.mechanicAfter)).map (·.totalDiscount) =
        some (14 / 3) ∧
    (someMechanic.refund threePieces .cash (amounts [piecesBack 1 100 (by decide)] threePieces)
      someMechanic.discountBase).totalDiscount = 467 ∧
    (planReturn importedBillRow (refundedQtyOf []) (.ofServer [piecesBack 1 1 (by decide)] .cash) none
      none).toOption.map (·.refundDiscount) = some (baht (-1)) ∧
    (amounts [piecesBack 1 1 (by decide)] importedBill).refundDiscount = 0 := by
  decide +kernel

end Cache

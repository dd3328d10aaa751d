import SrisurartPos.Till.NetSales

/-! # The two gross profits

Over the same rows the till's gross profit is the server's, to the satang, exactly when what the till
finds as the cost of lines without a recorded one comes to what the products cost. -/

namespace Cache

open Server Money

/-- The till's rows are the server's, and keep the dates of the documents besides. -/
structure SameBooks (t : Db) (s : Server.Db) (saleDate : SaleId → Nat) (noteDate : ReturnId → Nat) :
    Prop where
  products : ∀ p, t.products.get p = (s.products.get p).map .ofServer
  sales : ∀ x, Option.Rel SaleRow.Caches (t.sales.get x) (s.sales.get x)
  returns : ∀ r, Option.Rel ReturnRow.Caches (t.returns.get r) (s.returns.get r)
  saleDate : ∀ x row, t.sales.get x = some row → row.date = saleDate x
  noteDate : ∀ r note, t.returns.get r = some note → note.date = noteDate r

namespace Db

variable (t : Db) (inPeriod : Nat → Bool)

/-- A credit note of the period against the bill. -/
def notedIn (x : SaleId) : Bool := (t.returnsIn inPeriod).any fun e => e.2.saleId = x

/-- The period reaches up to now: of a void bill that has credit notes it has one. -/
def Reaches : Prop := ∀ x row, t.sales.get x = some row → inPeriod row.date = true →
  row.voided = true → ∀ r note, t.returns.get r = some note → note.saleId = x →
    t.notedIn inPeriod x = true

/-- A bill of the period that counts. -/
def countedIn (x : SaleId) (row : SaleRow) : Bool :=
  inPeriod row.date && (!row.voided || t.notedIn inPeriod x)

/-- What the till finds as the cost of a bill's line … -/
def foundCost (i : SaleItemRow) : ℚ := (i.costAtSale.or (costByPart t.liveProducts i.partNo)).getD 0

/-- … and what it is, by the line's product. -/
def lineCost (i : SaleItemRow) : ℚ :=
  (i.costAtSale.or ((t.products.get i.productId).map (·.cost))).getD 0

/-- What the till finds as the cost of a note's line. -/
def foundNoteCost (x : SaleId) (i : ReturnItemRow) : ℚ :=
  (((originalLine (((t.sales.get x).map (·.items)).getD []) i).bind (·.costAtSale)).or
    ((lastOf t.liveProducts i.productId).map (·.cost))).getD 0

/-- What the counted bills cost more than they should. -/
def saleDrift : ℚ := (t.sales.rows.map fun e =>
  if t.countedIn inPeriod e.1 e.2 then
    (e.2.items.map fun i => (t.foundCost i - t.lineCost i) * (i.qty : ℚ)).sum
  else 0).sum

/-- What the credit notes cost more than they should, by what the server recorded on them. -/
def noteDrift (s : Server.Db) (noteDate : ReturnId → Nat) : ℚ := (s.returns.rows.map fun e =>
  if inPeriod (noteDate e.1) then
    (e.2.items.map fun i => (t.foundNoteCost e.2.saleId (.ofServer i) -
      baht ((i.costAtSale.or (s.currentCost i.productId)).getD 0)) * (i.qty : ℚ)).sum
  else 0).sum

end Db

/-! ## Lists -/

section
variable {κ ν α M : Type} [AddCommMonoid M]

theorem mem_of_lastOf [DecidableEq κ] {l : List (κ × ν)} {k : κ} {v : ν}
    (h : lastOf l k = some v) : (k, v) ∈ l := by
  obtain ⟨l₁, l₂, heq, -⟩ := List.lookup_eq_some_iff.mp h
  rw [← List.mem_reverse, heq]
  exact List.mem_append_right _ List.mem_cons_self

/-- The rows of a table that satisfy `p`, and some more of its rows before them. -/
theorem lastOf_rows [DecidableEq κ] {t : Table κ ν} {l : List (κ × ν)} (hl : ∀ e ∈ l, e ∈ t.rows)
    {k : κ} (hk : ∀ v, t.get k = some v → (k, v) ∈ l) : lastOf l k = t.get k := by
  cases hv : lastOf l k with
  | some v => exact (t.mem_rows.mp (hl _ (mem_of_lastOf hv))).symm
  | none =>
      cases hget : t.get k with
      | none => rfl
      | some v =>
          have hmem := hk v hget
          rw [lastOf, List.lookup_eq_none_iff] at hv
          have hne := hv (k, v) (List.mem_reverse.mpr hmem)
          simp at hne

end

/-! ## The till's figures -/

section
variable {t : Db} {s : Server.Db} {inPeriod : Nat → Bool} {saleDate : SaleId → Nat}
  {noteDate : ReturnId → Nat}

/-- A sum over the bills the report counts, as one over the rows. -/
theorem sum_counted {M : Type} [AddCommMonoid M] {f : SaleLite → M} {g : SaleRow → M}
    (h : ∀ e, f (saleLite t.liveProducts none [] e) = g e.2) :
    ((countedSales (t.closingLites inPeriod).1 (t.closingLites inPeriod).2).map f).sum =
      (t.sales.rows.map fun e => if t.countedIn inPeriod e.1 e.2 then g e.2 else 0).sum := by
  have hreturned : (t.closingLites inPeriod).2.map (·.saleId) =
      (t.returnsIn inPeriod).map (·.2.saleId) := List.map_map ..
  rw [countedSales, hreturned]
  show (((List.map (saleLite t.liveProducts none []) (t.salesIn inPeriod)).filter _).map f).sum = _
  rw [List.filter_map, List.map_map, Db.salesIn, List.filter_filter, Table.sum_filter_map]
  congr 1
  apply List.map_congr_left
  intro e _
  have hnoted : decide (e.1 ∈ (t.returnsIn inPeriod).map (·.2.saleId)) = t.notedIn inPeriod e.1 := by
    rw [Db.notedIn, Bool.eq_iff_iff, decide_eq_true_eq, List.mem_map, List.any_eq_true]
    simp only [decide_eq_true_eq]
  have hvoided : (saleLite t.liveProducts none [] e).voided = e.2.voided := by
    rw [saleLite, voidedAtOrAfter, Bool.not_false, Bool.and_true]
  simp only [Function.comp_apply, h, hvoided]
  rw [Db.countedIn, ← hnoted, Bool.and_comm]
  rfl

/-- Every credit note of the period is against a bill that is read for it. -/
theorem bill_of_note {e : ReturnId × ReturnRow} (he : e ∈ t.returnsIn inPeriod) :
    lastOf (t.originalSales inPeriod ++ t.salesIn inPeriod) e.2.saleId = t.sales.get e.2.saleId := by
  apply lastOf_rows
  · intro b hb
    rcases List.mem_append.mp hb with hb | hb
    · exact (List.mem_filter.mp hb).1
    · exact (List.mem_filter.mp hb).1
  · intro row hrow
    rw [List.mem_append]
    by_cases hin : e.2.saleId ∈ (t.salesIn inPeriod).map Prod.fst
    · obtain ⟨⟨x, row'⟩, hx, hxe⟩ := List.mem_map.mp hin
      have hrow' := t.sales.mem_rows.mp (List.mem_filter.mp hx).1
      rw [show x = e.2.saleId from hxe, hrow] at hrow'
      rw [Option.some.inj hrow', ← show x = e.2.saleId from hxe]
      exact .inr hx
    · refine .inl (List.mem_filter.mpr ⟨t.sales.mem_rows.mpr hrow, ?_⟩)
      rw [Bool.and_eq_true, decide_eq_true_eq, Bool.not_eq_true', decide_eq_false_iff_not]
      exact ⟨List.mem_map.mpr ⟨e, he, rfl⟩, hin⟩

/-- A sum over the credit notes of the report. -/
theorem sum_noted {M : Type} [AddCommMonoid M] {f : ReturnLite → M} {g : ReturnRow → M}
    (h : ∀ e ∈ t.returnsIn inPeriod,
      f (returnLite t.liveProducts (t.originalSales inPeriod ++ t.salesIn inPeriod) e) = g e.2) :
    ((t.closingLites inPeriod).2.map f).sum =
      (t.returns.rows.map fun e => if inPeriod e.2.date then g e.2 else 0).sum := by
  have hmap : (t.closingLites inPeriod).2.map f = (t.returnsIn inPeriod).map fun e => g e.2 := by
    show ((t.returnsIn inPeriod).map (returnLite _ _)).map f = _
    rw [List.map_map]
    exact List.map_congr_left h
  rw [hmap, Db.returnsIn, Table.sum_filter_map]

/-- What the report takes as the cost of the bills. -/
theorem sum_sale_costs :
    ((countedSales (t.closingLites inPeriod).1 (t.closingLites inPeriod).2).map fun b =>
      (b.items.map ItemLite.lineCost).sum).sum = (t.sales.rows.map fun e =>
        if t.countedIn inPeriod e.1 e.2 then
          (e.2.items.map fun i => t.foundCost i * (i.qty : ℚ)).sum else 0).sum := by
  refine sum_counted (g := fun row => (row.items.map fun i => t.foundCost i * (i.qty : ℚ)).sum)
    fun e => ?_
  rw [saleLite, List.map_map]
  rfl

/-- And of the credit notes. -/
theorem sum_note_costs :
    ((t.closingLites inPeriod).2.map fun r => (r.items.map ItemLite.lineCost).sum).sum =
      (t.returns.rows.map fun e => if inPeriod e.2.date then
        (e.2.items.map fun i => t.foundNoteCost e.2.saleId i * (i.qty : ℚ)).sum else 0).sum := by
  refine sum_noted (g := fun note =>
    (note.items.map fun i => t.foundNoteCost note.saleId i * (i.qty : ℚ)).sum) fun e he => ?_
  simp only [returnLite, bill_of_note he, List.map_map]
  rfl

end

/-! ## The server's figures -/

section
variable {t : Db} {s : Server.Db} {inPeriod : Nat → Bool} {saleDate : SaleId → Nat}
  {noteDate : ReturnId → Nat}

/-- What a line costs on the server. -/
def knownCost (s : Server.Db) (costAtSale : Option Int) (p : ProductId) : Int :=
  (costAtSale.or (s.currentCost p)).getD 0

/-- The cost of the goods is that of the bills' lines less that of the notes' lines. -/
theorem sum_gpLines (saleScope : SaleId → Sale → Bool) (returnScope : ReturnId → Return → Bool) :
    ((s.gpLines saleScope returnScope).map fun l =>
      l.qty * (l.costAtSale.or l.currentCost).getD 0).sum =
    (s.sales.rows.map fun e => if saleScope e.1 e.2 && s.counted e.1 e.2 then
      (e.2.items.map fun i => i.qty * knownCost s i.costAtSale i.productId).sum else 0).sum -
    (s.returns.rows.map fun e => if returnScope e.1 e.2 then
      (e.2.items.map fun i => i.qty * knownCost s i.costAtSale i.productId).sum else 0).sum := by
  rw [Server.Db.sum_gpLines, sub_eq_add_neg, List.sum_neg, List.map_map]
  congr 2
  apply List.map_congr_left
  intro e _
  simp only [Function.comp_apply]
  split
  · rw [List.sum_neg, List.map_map]
    congr 1
    apply List.map_congr_left
    intro i _
    exact neg_mul ..
  · exact neg_zero.symm

/-- The bills that count are the same. -/
theorem counted_same (hbooks : SameBooks t s saleDate noteDate) (hreach : t.Reaches inPeriod)
    {x : SaleId} {row : SaleRow} {sale : Sale} (hrow : t.sales.get x = some row)
    (hcaches : row.Caches sale) :
    t.countedIn inPeriod x row = (inPeriod (saleDate x) && s.counted x sale) := by
  rw [Db.countedIn, Server.Db.counted, hbooks.saleDate x row hrow, hcaches.voided]
  cases hin : inPeriod (saleDate x) with
  | false => rfl
  | true =>
      cases hvoided : sale.voided with
      | false => rfl
      | true =>
          rw [Bool.true_and, Bool.true_and, Bool.not_true, Bool.false_or, Bool.true_and, Bool.eq_iff_iff,
            Bool.not_eq_true', List.isEmpty_eq_false_iff_exists_mem]
          constructor
          · intro hnoted
            obtain ⟨⟨r, note⟩, hr, hsale⟩ := List.any_eq_true.mp hnoted
            have hrel := hbooks.returns r
            rw [t.returns.mem_rows.mp (List.mem_filter.mp hr).1] at hrel
            cases hnote : s.returns.get r with
            | none =>
                rw [hnote] at hrel
                cases hrel
            | some note' =>
                rw [hnote] at hrel
                obtain ⟨hcaches'⟩ := hrel
                refine ⟨note', Table.mem_select.mpr ⟨⟨r, hnote⟩, ?_⟩⟩
                rw [← hcaches'.saleId]
                exact hsale
          · rintro ⟨note', hnote'⟩
            obtain ⟨⟨r, hr⟩, hsale⟩ := Table.mem_select.mp hnote'
            have hrel := hbooks.returns r
            rw [hr] at hrel
            cases hnote : t.returns.get r with
            | none =>
                rw [hnote] at hrel
                cases hrel
            | some note =>
                rw [hnote] at hrel
                obtain ⟨hcaches'⟩ := hrel
                refine hreach x row hrow ?_ (hcaches.voided.trans hvoided) r note hnote ?_
                · rw [hbooks.saleDate x row hrow]
                  exact hin
                · rw [hcaches'.saleId]
                  exact of_decide_eq_true hsale

/-- The revenue of the till's closing is that of the server's report, where the books are the same. -/
theorem revenue_same (hbooks : SameBooks t s saleDate noteDate) (hreach : t.Reaches inPeriod) :
    ((countedSales (t.closingLites inPeriod).1 (t.closingLites inPeriod).2).map (·.total)).sum -
      ((t.closingLites inPeriod).2.map (·.refundTotal)).sum =
    baht (((s.gpSales fun x _ => inPeriod (saleDate x)).map (·.2.total)).sum -
      ((s.gpReturns fun r _ => inPeriod (noteDate r)).map (·.2.refundTotal)).sum) := by
  rw [sum_counted (g := (·.total)) fun e => rfl, sum_noted (g := (·.refundTotal)) fun e _ => rfl,
    baht_sub, Server.Db.gpSales, Server.Db.gpReturns, Table.sum_filter_map, Table.sum_filter_map, baht_sum, baht_sum]
  congr 1
  · refine Table.sum_paired hbooks.sales
      (f := fun x row => if t.countedIn inPeriod x row then row.total else 0)
      (g := fun x sale => baht (if inPeriod (saleDate x) && s.counted x sale then sale.total else 0))
      fun x row sale hrow _ hcaches => ?_
    rw [counted_same hbooks hreach hrow hcaches, hcaches.total]
    split
    · rfl
    · exact baht_zero.symm
  · refine Table.sum_paired hbooks.returns
      (f := fun _ row => if inPeriod row.date then row.refundTotal else 0)
      (g := fun r note => baht (if inPeriod (noteDate r) then note.refundTotal else 0))
      fun r row note hrow _ hcaches => ?_
    rw [hbooks.noteDate r row hrow, hcaches.refundTotal]
    split
    · rfl
    · exact baht_zero.symm

/-- What a line of a bill costs, by its product, is the server's figure. -/
theorem lineCost_same (hbooks : SameBooks t s saleDate noteDate) {i : SaleItemRow} {j : SaleItem}
    (hij : i.Caches j) : t.lineCost i = baht (knownCost s j.costAtSale j.productId) := by
  rw [Db.lineCost, hij.costAtSale, hij.productId, hbooks.products, knownCost, Server.Db.currentCost]
  cases j.costAtSale with
  | some c => rfl
  | none =>
      cases s.products.get j.productId with
      | none => exact baht_zero.symm
      | some p => rfl

/-- The bills' costs: those of the server, and what the till's look-up adds to them. -/
theorem sale_costs_eq (hbooks : SameBooks t s saleDate noteDate) (hreach : t.Reaches inPeriod) :
    (t.sales.rows.map fun e => if t.countedIn inPeriod e.1 e.2 then
      (e.2.items.map fun i => t.foundCost i * (i.qty : ℚ)).sum else 0).sum =
    t.saleDrift inPeriod + baht (s.sales.rows.map fun e =>
      if inPeriod (saleDate e.1) && s.counted e.1 e.2 then
        (e.2.items.map fun i => i.qty * knownCost s i.costAtSale i.productId).sum else 0).sum := by
  have hserver : baht (s.sales.rows.map fun e =>
      if inPeriod (saleDate e.1) && s.counted e.1 e.2 then
        (e.2.items.map fun i => i.qty * knownCost s i.costAtSale i.productId).sum else 0).sum =
      (t.sales.rows.map fun e => if t.countedIn inPeriod e.1 e.2 then
        (e.2.items.map fun i => t.lineCost i * (i.qty : ℚ)).sum else 0).sum := by
    rw [baht_sum]
    refine (Table.sum_paired hbooks.sales
      (f := fun x row => if t.countedIn inPeriod x row then
        (row.items.map fun i => t.lineCost i * (i.qty : ℚ)).sum else 0)
      (g := fun x sale => baht (if inPeriod (saleDate x) && s.counted x sale then
        (sale.items.map fun i => i.qty * knownCost s i.costAtSale i.productId).sum else 0))
      fun x row sale hrow _ hcaches => ?_).symm
    rw [counted_same hbooks hreach hrow hcaches]
    split
    · rw [baht_sum]
      refine hcaches.sum_items fun i j hij => ?_
      rw [lineCost_same hbooks hij, hij.qty, mul_comm j.qty, baht_mul]
    · exact baht_zero.symm
  rw [hserver, Db.saleDrift, ← List.sum_map_add]
  congr 1
  apply List.map_congr_left
  intro e _
  split
  · rw [← List.sum_map_add]
    congr 1
    apply List.map_congr_left
    intro i _
    ring
  · exact (add_zero 0).symm

/-- The notes' costs likewise. -/
theorem note_costs_eq (hbooks : SameBooks t s saleDate noteDate) :
    (t.returns.rows.map fun e => if inPeriod e.2.date then
      (e.2.items.map fun i => t.foundNoteCost e.2.saleId i * (i.qty : ℚ)).sum else 0).sum =
    t.noteDrift inPeriod s noteDate + baht (s.returns.rows.map fun e =>
      if inPeriod (noteDate e.1) then
        (e.2.items.map fun i => i.qty * knownCost s i.costAtSale i.productId).sum else 0).sum := by
  rw [baht_sum, Db.noteDrift, ← List.sum_map_add]
  refine Table.sum_paired hbooks.returns
    (f := fun _ row => if inPeriod row.date then
      (row.items.map fun i => t.foundNoteCost row.saleId i * (i.qty : ℚ)).sum else 0)
    (g := fun r note => (if inPeriod (noteDate r) then
      (note.items.map fun i => (t.foundNoteCost note.saleId (.ofServer i) -
        baht (knownCost s i.costAtSale i.productId)) * (i.qty : ℚ)).sum else 0) +
      baht (if inPeriod (noteDate r) then
        (note.items.map fun i => i.qty * knownCost s i.costAtSale i.productId).sum else 0))
    fun r row note hrow _ hcaches => ?_
  rw [hbooks.noteDate r row hrow, hcaches.items, hcaches.saleId]
  split
  · rw [baht_sum, ← List.sum_map_add, List.map_map]
    congr 1
    apply List.map_congr_left
    intro i _
    rw [mul_comm i.qty, baht_mul]
    show t.foundNoteCost note.saleId (.ofServer i) * (i.qty : ℚ) = _
    ring
  · rw [baht_zero, add_zero]

/-! ## The drift is whole -/

theorem whole_product (hbooks : SameBooks t s saleDate noteDate) {p : ProductId} {row : ProductRow}
    (h : (p, row) ∈ t.liveProducts) : Whole row.cost := by
  have hget := t.products.mem_rows.mp (List.mem_filter.mp h).1
  rw [hbooks.products] at hget
  obtain ⟨row', -, rfl⟩ := Option.map_eq_some_iff.mp hget
  exact whole_baht _

/-- A cost that is recorded, or else looked up. -/
theorem whole_or {c c' : Option ℚ} (h : ∀ q, c = some q → Whole q) (h' : ∀ q, c' = some q → Whole q) :
    Whole ((c.or c').getD 0) := by
  cases c with
  | some q => exact h q rfl
  | none =>
      cases c' with
      | some q => exact h' q rfl
      | none => exact whole_zero

/-- The costs recorded on a bill are whole. -/
theorem whole_recorded (hbooks : SameBooks t s saleDate noteDate) {x : SaleId} {row : SaleRow}
    (hrow : t.sales.get x = some row) {i : SaleItemRow} (hi : i ∈ row.items) :
    ∀ q, i.costAtSale = some q → Whole q := by
  intro q hq
  have hrel := hbooks.sales x
  rw [hrow] at hrel
  cases hsale : s.sales.get x with
  | none =>
      rw [hsale] at hrel
      cases hrel
  | some sale =>
      rw [hsale] at hrel
      obtain ⟨hcaches⟩ := hrel
      obtain ⟨n, hn, hget⟩ := List.getElem_of_mem hi
      have hj := List.forall₂_iff_get.mp hcaches.items
      have hcost := (hj.2 n hn (hj.1 ▸ hn)).costAtSale
      rw [List.get_eq_getElem, hget, hq] at hcost
      obtain ⟨c, -, rfl⟩ := Option.map_eq_some_iff.mp hcost.symm
      exact whole_baht _

/-- What the costs of the sales differ by is whole satang. -/
theorem whole_saleDrift (hbooks : SameBooks t s saleDate noteDate) :
    Whole (t.saleDrift inPeriod) := by
  refine whole_sum fun e he => ?_
  split
  · refine whole_sum fun i hi => whole_mul (whole_sub ?_ ?_) _
    · refine whole_or (whole_recorded hbooks (t.sales.mem_rows.mp he) hi) fun q hq => ?_
      obtain ⟨no, -, hlast⟩ := Option.bind_eq_some_iff.mp hq
      obtain ⟨⟨p, row⟩, hp, heq⟩ := List.mem_map.mp (mem_of_lastOf hlast)
      obtain ⟨-, rfl⟩ := Prod.mk.inj heq
      exact whole_product hbooks hp
    · refine whole_or (whole_recorded hbooks (t.sales.mem_rows.mp he) hi) fun q hq => ?_
      obtain ⟨row, hrow, rfl⟩ := Option.map_eq_some_iff.mp hq
      rw [hbooks.products] at hrow
      obtain ⟨row', -, rfl⟩ := Option.map_eq_some_iff.mp hrow
      exact whole_baht _
  · exact whole_zero

/-- So is what the costs of the notes differ by. -/
theorem whole_noteDrift (hbooks : SameBooks t s saleDate noteDate) :
    Whole (t.noteDrift inPeriod s noteDate) := by
  refine whole_sum fun e _ => ?_
  split
  · refine whole_sum fun i _ => whole_mul (whole_sub ?_ (whole_baht _)) _
    refine whole_or (fun q hq => ?_) fun q hq => ?_
    · obtain ⟨l, hl, hq⟩ := Option.bind_eq_some_iff.mp hq
      cases hrow : t.sales.get e.2.saleId with
      | none =>
          rw [hrow] at hl
          cases hl
      | some row =>
          rw [hrow, Option.map_some, Option.getD_some, originalLine, Option.or_eq_some_iff] at hl
          refine whole_recorded hbooks hrow ?_ q hq
          rcases hl with hl | ⟨-, hl⟩
          · exact List.mem_of_find?_eq_some hl
          · exact List.mem_of_find?_eq_some hl
    · obtain ⟨row, hrow, rfl⟩ := Option.map_eq_some_iff.mp hq
      exact whole_product hbooks (mem_of_lastOf hrow)
  · exact whole_zero

end

/-! ## The two agree -/

/-- The server's gross profit over the documents of a period. -/
def periodProfit (s : Server.Db) (inPeriod : Nat → Bool) (saleDate : SaleId → Nat)
    (noteDate : ReturnId → Nat) (taxRate : ℚ) : Int :=
  (s.grossProfit (fun x _ => inPeriod (saleDate x)) (fun r _ => inPeriod (noteDate r))
    (some taxRate)).grossProfit

/-- Of every line the till finds the cost that the server takes. -/
structure CostsFound (t : Db) (s : Server.Db) (inPeriod : Nat → Bool) (noteDate : ReturnId → Nat) :
    Prop where
  sale : ∀ x row, t.sales.get x = some row → t.countedIn inPeriod x row = true → ∀ i ∈ row.items,
    t.foundCost i = t.lineCost i
  note : ∀ r note, s.returns.get r = some note → inPeriod (noteDate r) = true → ∀ i ∈ note.items,
    t.foundNoteCost note.saleId (.ofServer i) = baht (knownCost s i.costAtSale i.productId)

structure ProfitsAgree (t : Db) (s : Server.Db) (inPeriod : Nat → Bool) (saleDate : SaleId → Nat)
    (noteDate : ReturnId → Nat) (taxRate : ℚ) : Prop where
  /-- to the satang, exactly when what the till takes too much for the bills it takes too much for the
  notes as well -/
  iff : toSatang (t.closingProfit inPeriod taxRate).profit =
      periodProfit s inPeriod saleDate noteDate taxRate ↔
    t.saleDrift inPeriod = t.noteDrift inPeriod s noteDate
  /-- so they do when it finds the cost of every line -/
  found : CostsFound t s inPeriod noteDate →
    toSatang (t.closingProfit inPeriod taxRate).profit =
      periodProfit s inPeriod saleDate noteDate taxRate

section
variable {t : Db} {s : Server.Db} {inPeriod : Nat → Bool} {saleDate : SaleId → Nat}
  {noteDate : ReturnId → Nat}

/-- Where each cost is found under its part number, the two differences cancel. -/
theorem CostsFound.no_drift (h : CostsFound t s inPeriod noteDate) :
    t.saleDrift inPeriod = t.noteDrift inPeriod s noteDate := by
  have hsale : t.saleDrift inPeriod = 0 := by
    apply List.sum_eq_zero
    intro q hq
    obtain ⟨e, he, rfl⟩ := List.mem_map.mp hq
    split
    · rename_i hin
      apply List.sum_eq_zero
      intro q hq
      obtain ⟨i, hi, rfl⟩ := List.mem_map.mp hq
      rw [h.sale e.1 e.2 (t.sales.mem_rows.mp he) hin i hi, sub_self, zero_mul]
    · rfl
  have hnote : t.noteDrift inPeriod s noteDate = 0 := by
    apply List.sum_eq_zero
    intro q hq
    obtain ⟨e, he, rfl⟩ := List.mem_map.mp hq
    split
    · rename_i hin
      apply List.sum_eq_zero
      intro q hq
      obtain ⟨i, hi, rfl⟩ := List.mem_map.mp hq
      have hfound := h.note e.1 e.2 (s.returns.mem_rows.mp he) hin i hi
      rw [knownCost] at hfound
      rw [hfound, sub_self, zero_mul]
    · rfl
  rw [hsale, hnote]

/-- **The till's gross profit and the server's**, for a period that reaches up to now. -/
theorem gross_profits_agree (hbooks : SameBooks t s saleDate noteDate) (hreach : t.Reaches inPeriod)
    (taxRate : ℚ) : ProfitsAgree t s inPeriod saleDate noteDate taxRate := by
  have hiff : toSatang (t.closingProfit inPeriod taxRate).profit =
      periodProfit s inPeriod saleDate noteDate taxRate ↔
        t.saleDrift inPeriod = t.noteDrift inPeriod s noteDate := by
    have hprofit : (t.closingProfit inPeriod taxRate).profit =
        (baht (((s.gpSales fun x _ => inPeriod (saleDate x)).map (·.2.total)).sum -
            ((s.gpReturns fun r _ => inPeriod (noteDate r)).map (·.2.refundTotal)).sum) /
              (1 + taxRate / 100) -
          baht ((s.gpLines (fun x _ => inPeriod (saleDate x)) fun r _ => inPeriod (noteDate r)).map
            fun l => l.qty * (l.costAtSale.or l.currentCost).getD 0).sum) -
          (t.saleDrift inPeriod - t.noteDrift inPeriod s noteDate) := by
      rw [← revenue_same hbooks hreach, sum_gpLines, baht_sub, Db.closingProfit, computeGrossProfit]
      simp only
      rw [sum_sale_costs, sum_note_costs, sale_costs_eq hbooks hreach, note_costs_eq hbooks]
      ring
    rw [hprofit, periodProfit, Server.Db.grossProfit, Option.getD_some]
    rw [toSatang_sub_whole_iff (whole_sub (whole_saleDrift hbooks) (whole_noteDrift hbooks))]
    exact sub_eq_zero
  exact ⟨hiff, fun hfound => hiff.mpr hfound.no_drift⟩

end

/-! ### A renamed product -/

/-- One product, and one imported bill of three pieces with no cost recorded. -/
def importedShop : Server.Db :=
  { Server.Db.empty with
    products := Table.empty.insert 7 ⟨"PN-8", "brake pad", 60, 5, false⟩
    sales := Table.empty.insert 50
      { threePieces with items := [⟨1, 7, "brake pad", 3, 100, none, Server.three_pieces_pos⟩] } }

/-- A till that has it, with the part number the line was sold under. -/
def importedTill (partNo : String) : Db :=
  { products := Table.empty.insert 7 (.ofServer ⟨"PN-8", "brake pad", 60, 5, false⟩)
    customers := Table.empty
    mechanics := Table.empty
    sales := Table.empty.insert 50
      { threePiecesRow with items := [⟨7, some partNo, "brake pad", 3, baht 100, none⟩] }
    returns := Table.empty
    shifts := Table.empty
    outboxOps := [] }

/-- The imported shop has the same books on the till and on the server. -/
theorem importedTill_same (partNo : String) :
    SameBooks (importedTill partNo) importedShop (fun _ => 5) fun _ => 5 where
  products p := by
    rw [importedTill, importedShop, Table.get_insert rfl, Table.get_insert rfl]
    split <;> rfl
  sales x := by
    rw [importedTill, importedShop, Table.get_insert rfl, Table.get_insert rfl]
    split
    · exact .some { threePieces_cached with items := .cons ⟨rfl, rfl, rfl, rfl, rfl⟩ .nil }
    · exact .none
  returns r := .none
  saleDate x row h := by
    rw [importedTill, Table.get_insert rfl] at h
    split at h
    · obtain rfl := Option.some.inj h
      rfl
    · cases h
  noteDate r note h := by cases h

theorem importedTill_reaches (partNo : String) : (importedTill partNo).Reaches fun _ => true := by
  intro x row hrow _ _ r note hr
  cases hr

/-- Under the product's own part number the till finds its cost. -/
theorem gross_profits_agree_of_samePart :
    toSatang ((importedTill "PN-8").closingProfit (fun _ => true) 0).profit = 120 ∧
      toSatang ((importedTill "PN-8").closingProfit (fun _ => true) 0).profit =
        periodProfit importedShop (fun _ => true) (fun _ => 5) (fun _ => 5) 0 := by
  refine ⟨by decide +kernel, ?_⟩
  exact (gross_profits_agree (importedTill_same "PN-8") (importedTill_reaches "PN-8") 0).iff.mpr
    (by decide +kernel)

/-- Once the product has another part number the till takes the goods to have cost nothing. -/
theorem gross_profits_differ :
    SameBooks (importedTill "PN-7") importedShop (fun _ => 5) (fun _ => 5) ∧
      (importedTill "PN-7").Reaches (fun _ => true) ∧
      toSatang ((importedTill "PN-7").closingProfit (fun _ => true) 0).profit = 300 ∧
      periodProfit importedShop (fun _ => true) (fun _ => 5) (fun _ => 5) 0 = 120 :=
  ⟨importedTill_same _, importedTill_reaches _, by decide +kernel, by decide +kernel⟩

end Cache

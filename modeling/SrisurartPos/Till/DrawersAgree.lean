import SrisurartPos.Till.DrawerCash

/-! # The two drawers

The till and the server expect the same cash in a drawer as far as every cash refund and payment is
dated in the shift it was stamped with, its note tells that it was in cash, and no bill without a
shift is dated there. -/

namespace Cache

open Server Money

/-! ## When the two drawers are the same -/

/-- A row that either side counts is on both, as `R` has it. -/
def Matches {α β : Type} (p : α → Prop) (q : β → Prop) (R : α → β → Prop) (a : Option α)
    (b : Option β) : Prop :=
  (∃ v, a = some v ∧ p v) ∨ (∃ w, b = some w ∧ q w) → Option.Rel R a b

/-- A payment as the till has it, whatever its date and note. -/
structure CreditPaymentRow.Caches (row : CreditPaymentRow) (p : CreditPayment) : Prop where
  mechanicId : row.mechanicId = p.mechanicId
  amount : row.amount = baht p.amount

structure DrawerEntryRow.Caches (row : DrawerEntryRow) (e : DrawerEntry) : Prop where
  shiftId : row.shiftId = e.shiftId
  type : row.type = e.type
  amount : row.amount = baht e.amount

/-- One shift is closed no later than the other opens. -/
def ShiftRow.Before (a b : ShiftRow) : Prop := ∃ c, a.closedAt = some c ∧ c ≤ b.openedAt

namespace DrawerDb

variable (t : DrawerDb)

/-- Whether there is a credit note against the bill. -/
def noted (x : SaleId) : Bool := t.returns.rows.any fun e => e.2.saleId = x

/-- The rows of the shift `k` are fully synced. -/
structure Synced (s : Server.Db) (k : ShiftId) (shift : ShiftRow) : Prop where
  startingCash : ∃ row, s.shifts.get k = some row ∧ shift.startingCash = baht row.startingCash
  sales : ∀ x, Matches (fun row => ofShift k shift row = true) (fun sale => sale.shiftId = some k)
    SaleRow.Caches (t.sales.get x) (s.sales.get x)
  noted : ∀ x row, t.sales.get x = some row → ofShift k shift row = true →
    t.noted x = !(s.notesOf x).isEmpty
  returns : ∀ r, Matches (fun row => inShift shift row.date = true) (fun note => note.shiftId = some k)
    ReturnRow.Caches (t.returns.get r) (s.returns.get r)
  creditPayments : ∀ i, Matches (fun row => inShift shift row.date = true)
    (fun p => p.shiftId = some k) CreditPaymentRow.Caches (t.creditPayments.get i) (s.creditPayments.get i)
  drawerEntries : ∀ i, Matches (fun row => row.shiftId = k) (fun e => e.shiftId = k)
    DrawerEntryRow.Caches (t.drawerEntries.get i) (s.drawerEntries.get i)

/-- The shifts follow one another. -/
structure Sequential : Prop where
  opened : ∀ k shift, t.shifts.get k = some shift → ∀ c, shift.closedAt = some c → shift.openedAt ≤ c
  apart : ∀ k k' shift shift', t.shifts.get k = some shift → t.shifts.get k' = some shift' → k ≠ k' →
    shift.Before shift' ∨ shift'.Before shift

/-- The till counts what is dated so in the shift `k`. -/
def CountedIn (date : Nat) (k : ShiftId) : Prop :=
  ∃ shift, t.shifts.get k = some shift ∧ inShift shift date = true

/-- At the time one shift is closed another opens. -/
def AtSeam (date : Nat) : Prop :=
  ∃ k k' shift shift', t.shifts.get k = some shift ∧ t.shifts.get k' = some shift' ∧ k ≠ k' ∧
    shift.closedAt = some date ∧ shift'.openedAt = date

/-- Every credit note and payment is counted in exactly one shift. -/
def Partitioned : Prop :=
  (∀ r note, t.returns.get r = some note → ∃! k, t.CountedIn note.date k) ∧
    ∀ i row, t.creditPayments.get i = some row → ∃! k, t.CountedIn row.date k

/-- They are dated within a shift, and none when one shift is closed and another opens. -/
def Placed : Prop :=
  (∀ r note, t.returns.get r = some note → (∃ k, t.CountedIn note.date k) ∧ ¬ t.AtSeam note.date) ∧
    ∀ i row, t.creditPayments.get i = some row →
      (∃ k, t.CountedIn row.date k) ∧ ¬ t.AtSeam row.date

section
variable (s : Server.Db) (k : ShiftId) (shift : ShiftRow)

/-- A cash bill that names no shift and is dated in this one. -/
def billDrift (x : SaleId) (row : SaleRow) : ℚ :=
  if (row.shiftId.isNone && inShift shift row.date) && (decide (row.paymentMethod = .cash) &&
    (!row.voided || t.noted x)) then row.total else 0

/-- A payment that only one side counts. -/
def paymentDrift (i : PaymentId) (row : CreditPaymentRow) : ℚ :=
  (if inShift shift row.date && isCashCreditPayment row.note then row.amount else 0) -
    if (s.creditPayments.get i).any fun p => p.shiftId = some k ∧ p.paymentMethod = .cash then row.amount
    else 0

/-- A refund that only one side counts. -/
def refundDrift (r : ReturnId) (row : ReturnRow) : ℚ :=
  (if inShift shift row.date && decide (row.refundMethod = .cash) then row.refundTotal else 0) -
    if (s.returns.get r).any fun note => note.shiftId = some k ∧ note.refundMethod = .cash then
      row.refundTotal
    else 0

/-- What the till expects more than it should. -/
def drift : ℚ :=
  (t.sales.rows.map fun e => t.billDrift shift e.1 e.2).sum +
    (t.creditPayments.rows.map fun e => paymentDrift s k shift e.1 e.2).sum -
    (t.returns.rows.map fun e => refundDrift s k shift e.1 e.2).sum

/-- Both sides count the same refunds and payments for the shift, and the till no bill that names
none. -/
structure CountedAlike : Prop where
  bills : ∀ x row, t.sales.get x = some row → row.shiftId = none → inShift shift row.date = false
  payments : ∀ i row, t.creditPayments.get i = some row →
    (inShift shift row.date && isCashCreditPayment row.note) =
      (s.creditPayments.get i).any fun p => p.shiftId = some k ∧ p.paymentMethod = .cash
  refunds : ∀ r row, t.returns.get r = some row →
    (inShift shift row.date && decide (row.refundMethod = .cash)) =
      (s.returns.get r).any fun note => note.shiftId = some k ∧ note.refundMethod = .cash

end

end DrawerDb

/-! ## One shift for each row -/

section
variable {t : DrawerDb} {date : Nat}

theorem inShift_iff {shift : ShiftRow} : inShift shift date = true ↔
    shift.openedAt ≤ date ∧ ∀ c, shift.closedAt = some c → date ≤ c := by
  rw [inShift]
  cases shift.closedAt with
  | none => simp
  | some closed => simp

/-- A date in two shifts is where one closes and the other opens. -/
theorem ShiftRow.Before.seam {a b : ShiftRow} (h : a.Before b) (ha : inShift a date = true)
    (hb : inShift b date = true) : a.closedAt = some date ∧ b.openedAt = date := by
  obtain ⟨c, hc, hle⟩ := h
  have hdate := (inShift_iff.mp ha).2 c hc
  have hopened := (inShift_iff.mp hb).1
  have hb' : b.openedAt = date := by omega
  have hc' : c = date := by omega
  exact ⟨hc' ▸ hc, hb'⟩

/-- A payment without a drawer counts in exactly one, where it counts in any and is not at the seam of two. -/
theorem exactly_one_iff (h : t.Sequential) :
    (∃! k, t.CountedIn date k) ↔ (∃ k, t.CountedIn date k) ∧ ¬ t.AtSeam date := by
  constructor
  · rintro ⟨k, hk, huniq⟩
    refine ⟨⟨k, hk⟩, ?_⟩
    rintro ⟨j, j', a, b, ha, hb, hne, hclosed, hopened⟩
    -- both shifts have their ends
    have hina : t.CountedIn date j := by
      refine ⟨a, ha, inShift_iff.mpr ⟨h.opened j a ha date hclosed, fun c hc => ?_⟩⟩
      rw [hclosed] at hc
      exact (Option.some.inj hc).le
    have hinb : t.CountedIn date j' := by
      refine ⟨b, hb, inShift_iff.mpr ⟨hopened.le, fun c hc => ?_⟩⟩
      exact hopened ▸ h.opened j' b hb c hc
    exact hne ((huniq j hina).trans (huniq j' hinb).symm)
  · rintro ⟨⟨k, a, ha, hina⟩, hseam⟩
    refine ⟨k, ⟨a, ha, hina⟩, ?_⟩
    rintro k' ⟨b, hb, hinb⟩
    by_contra hne
    apply hseam
    rcases h.apart k' k b a hb ha hne with hbefore | hbefore
    · obtain ⟨hclosed, hopened⟩ := hbefore.seam hinb hina
      exact ⟨k', k, b, a, hb, ha, hne, hclosed, hopened⟩
    · obtain ⟨hclosed, hopened⟩ := hbefore.seam hina hinb
      exact ⟨k, k', a, b, ha, hb, Ne.symm hne, hclosed, hopened⟩

theorem partitioned_iff (h : t.Sequential) : t.Partitioned ↔ t.Placed := by
  simp only [DrawerDb.Partitioned, DrawerDb.Placed, exactly_one_iff h]

end

/-! ## Sums over rows that both sides have -/

section
variable {α β κ ν μ : Type} {M : Type} [AddCommMonoid M] {p : α → Prop} {q : β → Prop}
  {R : α → β → Prop} {a : Option α} {b : Option β}

/-- A row on the left that counts has its match on the right. -/
theorem Matches.right (h : Matches p q R a b) {v : α} (ha : a = some v) (hv : p v) :
    ∃ w, b = some w ∧ R v w := by
  have hrel := h (.inl ⟨v, ha, hv⟩)
  rw [ha] at hrel
  cases hb : b with
  | none =>
      rw [hb] at hrel
      cases hrel
  | some w =>
      rw [hb] at hrel
      obtain ⟨hr⟩ := hrel
      exact ⟨w, rfl, hr⟩

/-- And a row on the right has its match on the left. -/
theorem Matches.left (h : Matches p q R a b) {w : β} (hb : b = some w) (hw : q w) :
    ∃ v, a = some v ∧ R v w := by
  have hrel := h (.inr ⟨w, hb, hw⟩)
  rw [hb] at hrel
  cases ha : a with
  | none =>
      rw [ha] at hrel
      cases hrel
  | some v =>
      rw [ha] at hrel
      obtain ⟨hr⟩ := hrel
      exact ⟨v, rfl, hr⟩

/-- What matching rows contribute is the same, and rows that do not count contribute nothing. -/
theorem Matches.elim_eq (h : Matches p q R a b) {f : α → M} {g : β → M} (hf : ∀ v, ¬ p v → f v = 0)
    (hg : ∀ w, ¬ q w → g w = 0) (hfg : ∀ v w, a = some v → b = some w → R v w → f v = g w) :
    a.elim 0 f = b.elim 0 g := by
  by_cases hpq : (∃ v, a = some v ∧ p v) ∨ ∃ w, b = some w ∧ q w
  · cases h hpq with
    | none => rfl
    | some hr => exact hfg _ _ rfl rfl hr
  · have hzero : a.elim 0 f = 0 := by
      cases a with
      | none => rfl
      | some v => exact hf v fun hv => hpq (.inl ⟨v, rfl, hv⟩)
    have hzero' : b.elim 0 g = 0 := by
      cases b with
      | none => rfl
      | some w => exact hg w fun hw => hpq (.inr ⟨w, rfl, hw⟩)
    rw [hzero, hzero']

/-- What is stamped is summed alike over either table. -/
theorem sum_stamped [DecidableEq κ] {T : Table κ ν} {S : Table κ μ} {p : ν → Prop} {q : μ → Prop}
    {R : ν → μ → Prop} (h : ∀ k, Matches p q R (T.get k) (S.get k)) {b : μ → Bool}
    {f : ν → ℚ} {c : κ → μ → Int} (hq : ∀ w, b w = true → q w)
    (hcash : ∀ k w, b w = false → c k w = 0)
    (hR : ∀ k v w, R v w → b w = true → f v = baht (c k w)) :
    (T.rows.map fun e => if (S.get e.1).any b then f e.2 else 0).sum =
      baht (S.total c) := by
  rw [Table.total, baht_sum]
  refine Table.sum_matched (f := fun k v => if (S.get k).any b then f v else 0)
    (g := fun k w => baht (c k w)) fun k => ?_
  cases hw : S.get k with
  | none =>
      cases T.get k with
      | none => rfl
      | some v => rfl
  | some w =>
      rw [Option.any_some, Option.elim_some]
      cases hs : b w with
      | false =>
          rw [hcash k w hs, baht_zero]
          cases T.get k with
          | none => rfl
          | some v => rfl
      | true =>
          obtain ⟨v, hv, hr⟩ := (h k).left hw (hq w hs)
          rw [hv]
          exact hR k v w hr hs

/-- What the till counts is whole when all of it is matched. -/
theorem whole_counted [DecidableEq κ] {T : Table κ ν} {S : Table κ μ} {p : ν → Prop} {q : μ → Prop}
    {R : ν → μ → Prop} (h : ∀ k, Matches p q R (T.get k) (S.get k)) {counted : κ × ν → Bool}
    {f : ν → ℚ} (hp : ∀ e, counted e = true → p e.2) (hR : ∀ v w, R v w → Whole (f v)) :
    Whole (T.rows.map fun e => if counted e then f e.2 else 0).sum := by
  refine whole_sum fun e he => ?_
  split
  · rename_i hin
    obtain ⟨w, -, hr⟩ := (h e.1).right (T.mem_rows.mp he) (hp e hin)
    exact hR e.2 w hr
  · exact whole_zero

end

/-! ## The till's figures -/

section
variable {t : DrawerDb} {s : Server.Db} {k : ShiftId} {shift : ShiftRow}

/-- What a bill adds to the till's cash sales. -/
theorem cashSales_eq : (t.drawerCash k shift).cashSales = (t.sales.rows.map fun e =>
    if DrawerDb.ofShift k shift e.2 && (decide (e.2.paymentMethod = .cash) &&
      (!e.2.voided || t.noted e.1)) then e.2.total else 0).sum := by
  show drawerCashSalesOf _ _ = _
  rw [drawerCashSalesOf, List.filter_filter, Table.sum_filter_map]
  congr 1
  apply List.map_congr_left
  intro e he
  cases hof : DrawerDb.ofShift k shift e.2 with
  | false => rw [Bool.and_false, Bool.false_and]
  | true =>
      -- of the bills of the shift the notes are all read
      have hnoted : decide (e.1 ∈ (t.returns.rows.map (·.2.saleId)).filter fun x =>
          decide (x ∈ (t.sales.rows.filter fun b => DrawerDb.ofShift k shift b.2).map Prod.fst)) =
          t.noted e.1 := by
        have hmem : e.1 ∈ (t.sales.rows.filter fun b => DrawerDb.ofShift k shift b.2).map Prod.fst :=
          List.mem_map.mpr ⟨e, List.mem_filter.mpr ⟨he, hof⟩, rfl⟩
        rw [DrawerDb.noted, Bool.eq_iff_iff, decide_eq_true_eq, List.mem_filter, List.mem_map,
          List.any_eq_true]
        simp only [hmem, decide_true, and_true, decide_eq_true_eq]
      rw [hnoted, Bool.and_true, Bool.true_and]

theorem cashCreditPayments_eq : (t.drawerCash k shift).cashCreditPayments =
    (t.creditPayments.rows.map fun e =>
      if inShift shift e.2.date && isCashCreditPayment e.2.note then e.2.amount else 0).sum := by
  show (List.map _ (List.filter _ (List.filter _ _))).sum = _
  rw [List.filter_filter, Table.sum_filter_map]
  simp only [Bool.and_comm]

theorem cashRefunds_eq : (t.drawerCash k shift).cashRefunds = (t.returns.rows.map fun e =>
    if inShift shift e.2.date && decide (e.2.refundMethod = .cash) then e.2.refundTotal else 0).sum := by
  show (List.map _ (List.filter _ (List.filter _ _))).sum = _
  rw [List.filter_filter, Table.sum_filter_map]
  simp only [Bool.and_comm]

/-- The entries of a type, before they are rounded. -/
theorem entries_eq (type : EntryType) :
    (((t.entriesFor k).filter fun e => e.type = type).map (·.amount)).sum =
      (t.drawerEntries.rows.map fun e =>
        if decide (e.2.shiftId = k) && decide (e.2.type = type) then e.2.amount else 0).sum := by
  rw [DrawerDb.entriesFor, Table.select, List.filter_filter, Table.sum_filter_map, List.map_map]
  simp only [Function.comp_def, Bool.and_comm]

end

/-! ## Against the server's -/

section
variable {t : DrawerDb} {s : Server.Db} {k : ShiftId} {shift : ShiftRow}

theorem sum_split {α : Type} (l : List α) (f g : α → ℚ) :
    (l.map f).sum = (l.map g).sum + (l.map fun a => f a - g a).sum := by
  rw [← List.sum_map_add]
  simp only [add_sub_cancel]

theorem payments_drift (h : t.Synced s k shift) : (t.drawerCash k shift).cashCreditPayments =
    baht (s.creditPayments.total (Server.Db.cashOfPayment k)) +
      (t.creditPayments.rows.map fun e => DrawerDb.paymentDrift s k shift e.1 e.2).sum := by
  have hstamped := sum_stamped h.creditPayments (f := (·.amount))
    (b := fun p => p.shiftId = some k ∧ p.paymentMethod = .cash) (c := Server.Db.cashOfPayment k)
    (fun p hp => (of_decide_eq_true hp).1) (fun i p hp => if_neg (of_decide_eq_false hp))
    fun i row p hrow hp => by
      rw [Server.Db.cashOfPayment, if_pos (of_decide_eq_true hp)]
      exact hrow.amount
  rw [cashCreditPayments_eq, ← hstamped]
  exact sum_split _ _ _

/-- The cash refunds differ by the drift of each note. -/
theorem refunds_drift (h : t.Synced s k shift) : (t.drawerCash k shift).cashRefunds =
    baht (s.returns.total (Server.Db.cashOfReturn k)) +
      (t.returns.rows.map fun e => DrawerDb.refundDrift s k shift e.1 e.2).sum := by
  have hstamped := sum_stamped h.returns (f := (·.refundTotal))
    (b := fun note => note.shiftId = some k ∧ note.refundMethod = .cash)
    (c := Server.Db.cashOfReturn k)
    (fun note hn => (of_decide_eq_true hn).1) (fun r note hn => if_neg (of_decide_eq_false hn))
    fun r row note hrow hn => by
      rw [Server.Db.cashOfReturn, if_pos (of_decide_eq_true hn)]
      exact hrow.refundTotal
  rw [cashRefunds_eq, ← hstamped]
  exact sum_split _ _ _

/-- The bills of the shift that count are the same, but for those that name no shift. -/
theorem sales_drift (h : t.Synced s k shift) : (t.drawerCash k shift).cashSales =
    baht (s.sales.total (s.cashOfSale k)) +
      (t.sales.rows.map fun e => t.billDrift shift e.1 e.2).sum := by
  let stamped : SaleId → SaleRow → ℚ := fun x row =>
    if decide (row.shiftId = some k) && (decide (row.paymentMethod = .cash) &&
      (!row.voided || t.noted x)) then row.total else 0
  have hstamped : (t.sales.rows.map fun e => stamped e.1 e.2).sum =
      baht (s.sales.total (s.cashOfSale k)) := by
    rw [Table.total, baht_sum]
    refine Table.sum_matched (f := stamped) (g := fun x sale => baht (s.cashOfSale k x sale)) fun x => ?_
    refine (h.sales x).elim_eq (fun row hof => ?_) (fun sale hsale => ?_) fun row sale hrow _ hc => ?_
    · have hk : row.shiftId ≠ some k := by
        intro hk
        apply hof
        rw [DrawerDb.ofShift, decide_eq_true hk, Bool.true_or]
      simp only [stamped, hk, decide_false, Bool.false_and, Bool.false_eq_true, if_false]
    · rw [Server.Db.cashOfSale, if_neg fun hs => hsale hs.1, baht_zero]
    · simp only [stamped, Server.Db.cashOfSale, hc.shiftId, hc.paymentMethod, hc.voided, hc.total]
      by_cases hk : sale.shiftId = some k
      · have hof : DrawerDb.ofShift k shift row = true := by
          rw [DrawerDb.ofShift, hc.shiftId, decide_eq_true hk, Bool.true_or]
        have hcounted : (!sale.voided || t.noted x) = s.counted x sale := by
          rw [h.noted x row hrow hof, Server.Db.counted, Bool.not_and]
        rw [hcounted]
        by_cases hcash : sale.paymentMethod = .cash
        · cases s.counted x sale with
          | false => simp [hcash]
          | true => simp [hk, hcash]
        · simp [hcash]
      · simp [hk]
  rw [cashSales_eq, ← hstamped, ← List.sum_map_add]
  congr 1
  apply List.map_congr_left
  intro e _
  simp only [stamped, DrawerDb.billDrift, DrawerDb.ofShift]
  generalize (decide (e.2.paymentMethod = .cash) && (!e.2.voided || t.noted e.1)) = counts
  cases counts with
  | false => simp
  | true =>
      rcases Option.eq_none_or_eq_some e.2.shiftId with hshift | ⟨j, hshift⟩
      · simp [hshift]
      · simp [hshift]

/-- The money moved in and out by hand. -/
theorem entries_same (h : t.Synced s k shift) :
    (t.drawerCash k shift).totalIn - (t.drawerCash k shift).totalOut =
      baht (s.drawerEntries.total (Server.Db.cashOfEntry k)) := by
  -- of either type, summed in satang
  have htype : ∀ type, (((t.entriesFor k).filter fun e => e.type = type).map (·.amount)).sum =
      baht (s.drawerEntries.rows.map fun e =>
        if e.2.shiftId = k ∧ e.2.type = type then e.2.amount else 0).sum := by
    intro type
    rw [entries_eq, baht_sum]
    refine Table.sum_matched (f := fun _ (e : DrawerEntryRow) =>
        if decide (e.shiftId = k) && decide (e.type = type) then e.amount else 0)
      (g := fun _ (e : DrawerEntry) => baht (if e.shiftId = k ∧ e.type = type then e.amount else 0)) fun i => ?_
    refine (h.drawerEntries i).elim_eq (fun e he => ?_) (fun e he => ?_) fun row e _ _ hc => ?_
    · simp [he]
    · simp [he]
    · rw [hc.shiftId, hc.type, hc.amount, ← Bool.decide_and]
      by_cases hboth : e.shiftId = k ∧ e.type = type
      · simp [hboth]
      · simp [hboth]
  show round2 _ - round2 _ = _
  rw [htype, htype, round2_baht, round2_baht, ← baht_sub, Table.total, baht_inj, sub_eq_add_neg,
    List.sum_neg, List.map_map, ← List.sum_map_add]
  congr 1
  apply List.map_congr_left
  intro e _
  simp only [Function.comp_apply, Server.Db.cashOfEntry]
  by_cases hk : e.2.shiftId = k
  · cases htype : e.2.type with
    | cashIn => simp [hk]
    | cashOut => simp [hk]
  · simp [hk]

/-- The till's drawer is a whole number of satang. -/
theorem whole_drawer (h : t.Synced s k shift) :
    Whole (t.drawerCash k shift).cashSales ∧ Whole (t.drawerCash k shift).cashCreditPayments ∧
      Whole (t.drawerCash k shift).cashRefunds := by
  refine ⟨?_, ?_, ?_⟩
  · rw [cashSales_eq]
    refine whole_counted h.sales (f := (·.total)) (fun e he => (Bool.and_eq_true_iff.mp he).1)
      fun row sale hc => ?_
    rw [hc.total]
    exact whole_baht _
  · rw [cashCreditPayments_eq]
    refine whole_counted h.creditPayments (f := (·.amount))
      (fun e he => (Bool.and_eq_true_iff.mp he).1) fun row p hc => ?_
    rw [hc.amount]
    exact whole_baht _
  · rw [cashRefunds_eq]
    refine whole_counted h.returns (f := (·.refundTotal))
      (fun e he => (Bool.and_eq_true_iff.mp he).1) fun row note hc => ?_
    rw [hc.refundTotal]
    exact whole_baht _

/-- The till expects what the server expects, and what only one of them counts. -/
theorem expected_eq (h : t.Synced s k shift) :
    (t.drawerCash k shift).expected = baht (s.expectedCash k) + t.drift s k shift := by
  obtain ⟨row, hrow, hstart⟩ := h.startingCash
  obtain ⟨hsales, hpayments, hrefunds⟩ := whole_drawer h
  have hround : ∀ type : EntryType,
      Whole (round2 (((t.entriesFor k).filter fun e => e.type = type).map (·.amount)).sum) :=
    fun type => whole_baht _
  have hstarting : (t.drawerCash k shift).startingCash = baht row.startingCash := hstart
  have hwhole : Whole ((t.drawerCash k shift).startingCash + (t.drawerCash k shift).cashSales +
      (t.drawerCash k shift).cashCreditPayments - (t.drawerCash k shift).cashRefunds -
      (t.drawerCash k shift).totalOut + (t.drawerCash k shift).totalIn) := by
    refine whole_add (whole_sub (whole_sub (whole_add (whole_add ?_ hsales) hpayments) hrefunds) ?_) ?_
    · exact hstarting ▸ whole_baht _
    · exact hround .cashOut
    · exact hround .cashIn
  have hentries := entries_same h
  rw [DrawerCash.expected, round2_eq, show baht (toSatang _) = _ from hwhole, hstarting, sales_drift h,
    payments_drift h, refunds_drift h, Server.Db.expectedCash, hrow]
  simp only [Server.Db.drawerCash, baht_add, baht_sub, DrawerDb.drift]
  linarith

/-- When every refund and payment is counted by both sides or by none, and no bill without a shift
is, there is no drift. -/
theorem drift_eq_zero (h : t.CountedAlike s k shift) : t.drift s k shift = 0 := by
  have hb : (t.sales.rows.map fun e => t.billDrift shift e.1 e.2).sum = 0 := by
    refine List.sum_eq_zero fun q hq => ?_
    obtain ⟨e, he, rfl⟩ := List.mem_map.mp hq
    rw [DrawerDb.billDrift]
    cases hshift : e.2.shiftId with
    | some j => simp
    | none => simp [h.bills e.1 e.2 (t.sales.mem_rows.mp he) hshift]
  have hp : (t.creditPayments.rows.map fun e => DrawerDb.paymentDrift s k shift e.1 e.2).sum = 0 := by
    refine List.sum_eq_zero fun q hq => ?_
    obtain ⟨e, he, rfl⟩ := List.mem_map.mp hq
    rw [DrawerDb.paymentDrift, h.payments e.1 e.2 (t.creditPayments.mem_rows.mp he), sub_self]
  have hr : (t.returns.rows.map fun e => DrawerDb.refundDrift s k shift e.1 e.2).sum = 0 := by
    refine List.sum_eq_zero fun q hq => ?_
    obtain ⟨e, he, rfl⟩ := List.mem_map.mp hq
    rw [DrawerDb.refundDrift, h.refunds e.1 e.2 (t.returns.mem_rows.mp he), sub_self]
  rw [DrawerDb.drift, hb, hp, hr, add_zero, sub_zero]

end

/-- **Drawers.** While the shifts follow one another, every credit note and payment is counted in
exactly one of them and the till expects the server's cash in every synced one, exactly when each is
dated within a shift and not where two meet, and what only one side counts comes to nothing. It does
where both sides count the same rows. -/
theorem drawers_agree {t : DrawerDb} {s : Server.Db} (hseq : t.Sequential) :
    ((t.Partitioned ∧ ∀ k shift, t.shifts.get k = some shift → t.Synced s k shift →
        (t.drawerCash k shift).expected = baht (s.expectedCash k)) ↔
      t.Placed ∧ ∀ k shift, t.shifts.get k = some shift → t.Synced s k shift →
        t.drift s k shift = 0) ∧
    ∀ k shift, t.Synced s k shift → t.CountedAlike s k shift →
      (t.drawerCash k shift).expected = baht (s.expectedCash k) := by
  constructor
  · refine and_congr (partitioned_iff hseq) ?_
    refine forall_congr' fun k => forall_congr' fun shift => ?_
    refine imp_congr_right fun _ => imp_congr_right fun hsync => ?_
    rw [expected_eq hsync, add_eq_left]
  · intro k shift hsync halike
    rw [expected_eq hsync, drift_eq_zero halike, add_zero]

/-! ## A payment of 100 baht -/

section

/-- The shop, with a mechanic who owes 300 baht. -/
def owingShop : Server.Db :=
  { smallShop with mechanics := Table.empty.insert 4 ⟨100000, 30000, 0, 0, 0, 0, false⟩ }

/-- A till with the drawer 11 open. -/
def owingTill : DrawerDb :=
  { products := Table.empty
    customers := Table.empty
    mechanics := Table.empty.insert 4 (.ofServer ⟨100000, 30000, 0, 0, 0, 0, false⟩)
    sales := Table.empty
    returns := Table.empty
    shifts := Table.empty.insert 11 ⟨0, 0, none, true⟩
    outboxOps := []
    creditPayments := Table.empty
    drawerEntries := Table.empty }

/-- What the server stores of it. -/
def paidTab : CreditPayment :=
  { receiptNo := .formatted ⟨.cp, 1, 0, 1⟩, mechanicId := 4, amount := 10000, paymentMethod := .cash
    shiftId := some 11 }

/-- The payment is pushed, and the till takes the answer. -/
def pushPayment (t : DrawerDb) (s : Server.Db) : Option (DrawerDb × Server.Db) :=
  ((prog (.push (plainEnv 6 70) ⟨1⟩ 501 601 (.creditPaymentCreate 4 ⟨some 80, 10000, .cash, false⟩))).run
    s).toOption.bind fun a =>
      (PaymentAnswer.ofPush a.1).map fun answer => (patchAppliedPayment answer [] 6 t, a.2)

variable {t : DrawerDb} {s : Server.Db} {note : Option String}

/-- The drawers of the example are opened one after the other. -/
theorem owing_sequential (h : t.shifts = owingTill.shifts) : t.Sequential where
  opened k shift hk c hc := by
    rw [h, owingTill, Table.get_insert rfl] at hk
    split at hk
    · cases hk
      cases hc
    · cases hk
  apart k k' shift shift' hk hk' hne := by
    rw [h, owingTill, Table.get_insert rfl] at hk hk'
    split at hk
    · split at hk'
      · rename_i h₁ h₂
        exact absurd (h₁.trans h₂.symm) hne
      · cases hk'
    · cases hk

/-- The one payment, and the drawer it was made in. -/
structure PaidOnce (t : DrawerDb) (s : Server.Db) (note : Option String) : Prop where
  shifts : t.shifts = owingTill.shifts
  sales : t.sales = Table.empty
  returns : t.returns = Table.empty
  entries : t.drawerEntries = Table.empty
  payment : t.creditPayments = Table.empty.insert 80 ⟨4, baht 10000, 6, note⟩
  shopShifts : s.shifts = owingShop.shifts
  shopSales : s.sales = Table.empty
  shopReturns : s.returns = Table.empty
  shopEntries : s.drawerEntries = Table.empty
  shopPayment : s.creditPayments = Table.empty.insert 80 paidTab

theorem PaidOnce.synced (h : PaidOnce t s note) : t.Synced s 11 ⟨0, 0, none, true⟩ where
  startingCash := by
    rw [h.shopShifts]
    exact ⟨_, rfl, baht_zero.symm⟩
  sales x := by
    rw [h.sales, h.shopSales]
    exact fun _ => .none
  noted x row hrow := by
    rw [h.sales] at hrow
    cases hrow
  returns r := by
    rw [h.returns, h.shopReturns]
    exact fun _ => .none
  creditPayments i := by
    rw [h.payment, h.shopPayment, Table.get_insert rfl, Table.get_insert rfl]
    split
    · exact fun _ => .some ⟨rfl, rfl⟩
    · exact fun _ => .none
  drawerEntries i := by
    rw [h.entries, h.shopEntries]
    exact fun _ => .none

theorem PaidOnce.placed (h : PaidOnce t s note) : t.Placed := by
  refine ⟨fun r note hr => ?_, fun i row hi => ?_⟩
  · rw [h.returns] at hr
    cases hr
  · rw [h.payment, Table.get_insert rfl] at hi
    split at hi
    · obtain rfl := Option.some.inj hi
      refine ⟨⟨11, ⟨0, 0, none, true⟩, ?_, rfl⟩, ?_⟩
      · rw [h.shifts]
        rfl
      · rintro ⟨k, k', a, b, ha, -, -, hclosed, -⟩
        rw [h.shifts, owingTill, Table.get_insert rfl] at ha
        split at ha
        · cases ha
          cases hclosed
        · cases ha
    · cases hi

/-- Made online, the payment is stored with the note of the dialog. -/
def savedTill : DrawerDb :=
  applyPaymentSuccess (some (combinedNote .cash "")) ⟨80, 4, 10000, 20000, some 6, none⟩ 7 owingTill

def paidShop : Server.Db := { owingShop with creditPayments := Table.empty.insert 80 paidTab }

theorem savedTill_paid : PaidOnce savedTill paidShop (some (combinedNote .cash "")) :=
  ⟨rfl, rfl, rfl, rfl, rfl, rfl, rfl, rfl, rfl, rfl⟩

/-- Of the payment made online both know. -/
theorem drawers_agree_of_online : savedTill.Partitioned ∧
    (savedTill.drawerCash 11 ⟨0, 0, none, true⟩).expected = baht (paidShop.expectedCash 11) ∧
      paidShop.expectedCash 11 = 10000 := by
  obtain ⟨hpart, hagree⟩ := (drawers_agree (s := paidShop) (owing_sequential savedTill_paid.shifts)).1.mpr
    ⟨savedTill_paid.placed, fun k shift hk _ => by
      rw [savedTill_paid.shifts, owingTill, Table.get_insert rfl] at hk
      split at hk
      · rename_i h11
        obtain rfl := Option.some.inj hk
        subst h11
        decide +kernel
      · cases hk⟩
  refine ⟨hpart, hagree 11 ⟨0, 0, none, true⟩ ?_ savedTill_paid.synced, by decide +kernel⟩
  rw [savedTill_paid.shifts]
  rfl

/-- Made offline and pushed, it comes back without its note, and the till's drawer lacks it. -/
theorem drawers_differ : ∃ t s, pushPayment owingTill owingShop = some (t, s) ∧ t.Sequential ∧
    t.shifts.get 11 = some ⟨0, 0, none, true⟩ ∧ t.Synced s 11 ⟨0, 0, none, true⟩ ∧
      (t.drawerCash 11 ⟨0, 0, none, true⟩).expected = 0 ∧ baht (s.expectedCash 11) = 100 := by
  have hrows : ∀ {κ ν : Type} {a b : Table κ ν}, a.rows = b.rows → a = b := by
    rintro κ ν ⟨a, _⟩ ⟨b, _⟩ hab
    cases hab
    rfl
  have hrun : ((pushPayment owingTill owingShop).any fun r =>
      decide (r.1.shifts.rows = owingTill.shifts.rows) && decide (r.1.sales.rows = []) &&
      decide (r.1.returns.rows = []) && decide (r.1.drawerEntries.rows = []) &&
      decide (r.1.creditPayments.rows = [(80, ⟨4, baht 10000, 6, none⟩)]) &&
      decide (r.2.shifts.rows = owingShop.shifts.rows) && decide (r.2.sales.rows = []) &&
      decide (r.2.returns.rows = []) && decide (r.2.drawerEntries.rows = []) &&
      decide (r.2.creditPayments.rows = [(80, paidTab)])) = true := by decide +kernel
  obtain ⟨⟨t, s⟩, heq, hall⟩ := (Option.any_eq_true _ _).mp hrun
  simp only [Bool.and_eq_true, decide_eq_true_eq] at hall
  obtain ⟨⟨⟨⟨⟨⟨⟨⟨⟨h₁, h₂⟩, h₃⟩, h₄⟩, h₅⟩, h₆⟩, h₇⟩, h₈⟩, h₉⟩, h₁₀⟩ := hall
  have hpaid : PaidOnce t s none := ⟨hrows h₁, hrows h₂, hrows h₃, hrows h₄, hrows h₅, hrows h₆,
    hrows h₇, hrows h₈, hrows h₉, hrows h₁₀⟩
  refine ⟨t, s, heq, owing_sequential hpaid.shifts, ?_, hpaid.synced, ?_, ?_⟩
  · rw [hpaid.shifts]
    rfl
  · rw [DrawerDb.drawerCash, DrawerDb.entriesFor, hpaid.sales, hpaid.returns, hpaid.payment,
      hpaid.entries]
    decide +kernel
  · rw [Server.Db.expectedCash, Server.Db.drawerCash, hpaid.shopShifts, hpaid.shopSales,
      hpaid.shopReturns, hpaid.shopPayment, hpaid.shopEntries,
      show Table.total Table.empty (s.cashOfSale 11) = 0 from rfl]
    decide +kernel

end

end Cache

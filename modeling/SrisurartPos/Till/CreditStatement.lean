import SrisurartPos.Till.Rows
import SrisurartPos.Server.NumberText
import SrisurartPos.Allocation
import Mathlib.Data.List.Sort
import Mathlib.Data.Prod.Lex
import Mathlib.Data.String.Basic

/-! # A mechanic's credit statement (`credit_statement.dart`)

The balance is spread over the mechanic's credit bills, newest first, each net of the credit notes that
were taken off the balance. What no bill explains is the residual. -/

namespace Cache

open Server Money

/-! ## Ageing -/

inductive AgingBucket where
  | d0to30 | d31to60 | d61to90 | over90
  deriving DecidableEq, Repr

namespace AgingBucket

/-- The last day in the bucket. -/
def maxDays : AgingBucket → Option Int
  | .d0to30  => some 30
  | .d31to60 => some 60
  | .d61to90 => some 90
  | .over90  => none

def values : List AgingBucket := [.d0to30, .d31to60, .d61to90, .over90]

end AgingBucket

def agingBucketOf (ageDays : Int) : AgingBucket :=
  (AgingBucket.values.find? fun b => b.maxDays.all (ageDays ≤ ·)).getD .over90

/-! ## The statement -/

structure StatementLine where
  saleId : SaleId
  receiptNo : DocNo
  date : Nat
  outstanding : ℚ
  ageDays : Int
  deriving DecidableEq

def StatementLine.bucket (l : StatementLine) : AgingBucket := agingBucketOf l.ageDays

structure CreditStatement where
  lines : List StatementLine
  residual : ℚ
  total : ℚ
  buckets : AgingBucket → ℚ

section
variable (returns : List (ReturnId × ReturnRow))

/-- `returnsBySale[s.id]` -/
def returnsOf (x : SaleId) : List (ReturnId × ReturnRow) := returns.filter fun r => r.2.saleId = x

/-- The credit bills of a mechanic that are not void by hand. Only a return voids a bill by itself, so
one without a note was voided by hand. -/
def isCreditBill (mechanicId : MechanicId) (s : SaleId × SaleRow) : Bool :=
  s.2.mechanicId = some mechanicId && s.2.paymentMethod = .mechanicCredit && s.2.voidReason.isNone &&
    !(s.2.voided && (returnsOf returns s.1).isEmpty)

/-- A bill net of the notes that were taken off the balance, in satang. -/
def netSatang (s : SaleId × SaleRow) : Int :=
  toSatang s.2.total - (((returnsOf returns s.1).filter fun r => r.2.refundMethod = .deductFromCredit).map
    fun r => toSatang r.2.refundTotal).sum

end

/-- Bills are sorted by date, then by id, then by number. -/
def sortKey (s : SaleId × SaleRow) : ℕ ×ₗ ℕ ×ₗ String := toLex (s.2.date, toLex (s.1, s.2.receiptNo.text))

/-- Newest first. -/
def billsOf (mechanicId : MechanicId) (sales : List (SaleId × SaleRow))
    (returns : List (ReturnId × ReturnRow)) : List (SaleId × SaleRow) :=
  (sales.filter (isCreditBill returns mechanicId)).insertionSort fun a b => sortKey b ≤ sortKey a

/-- What the loop carries. -/
structure Spread where
  remaining : Int
  lines : List StatementLine
  bucketSatang : AgingBucket → Int

section
variable (localDay : Nat → Int) (returns : List (ReturnId × ReturnRow)) (asOf : Nat)

/-- Whole calendar days, `localDay` being the day of a moment where the till stands. -/
def calendarDaysBetween (from' to' : Nat) : Int := localDay to' - localDay from'

/-- The line of a bill. One from after the day of the statement is 0 days old. -/
def statementLine (s : SaleId × SaleRow) (take : Int) : StatementLine :=
  { saleId := s.1
    receiptNo := s.2.receiptNo
    date := s.2.date
    outstanding := baht take
    ageDays := max 0 (calendarDaysBetween localDay s.2.date asOf) }

def spread : List (SaleId × SaleRow) → Spread → Spread
  | [], acc         => acc
  | s :: bills, acc =>
      if acc.remaining ≤ 0 then acc
      else if netSatang returns s ≤ 0 then spread bills acc
      else
        let take := if netSatang returns s < acc.remaining then netSatang returns s else acc.remaining
        let line := statementLine localDay asOf s take
        spread bills
          { remaining := acc.remaining - take
            lines := acc.lines ++ [line]
            bucketSatang := fun b =>
              if b = line.bucket then acc.bucketSatang b + take else acc.bucketSatang b }

def allocateCreditStatement (mechanicId : MechanicId) (creditBalance : ℚ)
    (sales : List (SaleId × SaleRow)) : CreditStatement :=
  let acc := spread localDay returns asOf (billsOf mechanicId sales returns)
    ⟨toSatang creditBalance, [], fun _ => 0⟩
  { lines := acc.lines
    residual := if acc.remaining > 0 then baht acc.remaining else 0
    total := baht (toSatang creditBalance)
    buckets := fun b => baht (acc.bucketSatang b) }

end

/-! ## What it says -/

/-- What the statement of a mechanic with the balance `creditBalance` promises. -/
structure CreditStatement.Explains (mechanicId : MechanicId) (creditBalance : ℚ)
    (sales : List (SaleId × SaleRow)) (returns : List (ReturnId × ReturnRow)) (st : CreditStatement) :
    Prop where
  /-- the lines and the residual are the balance, to the satang … -/
  sum : 0 < creditBalance → (st.lines.map (·.outstanding)).sum + st.residual = baht (toSatang creditBalance)
  /-- … and exactly where it is one of whole satang -/
  whole : 0 < creditBalance → Whole creditBalance →
    (st.lines.map (·.outstanding)).sum + st.residual = creditBalance
  /-- a line is at most its bill's net -/
  bounded : ∀ line ∈ st.lines, 0 < line.outstanding ∧ ∃ s ∈ sales, s.1 = line.saleId ∧
    isCreditBill returns mechanicId s = true ∧ line.outstanding ≤ baht (netSatang returns s)
  newest : st.lines.Pairwise fun a b => b.date ≤ a.date
  /-- only the last line may be less than its bill's net … -/
  full : ∀ line ∈ st.lines.dropLast, ∃ s ∈ sales, s.1 = line.saleId ∧
    line.outstanding = baht (netSatang returns s)
  /-- … and a bill without a line is older than all that have one, with nothing left for it -/
  greedy : ∀ s ∈ sales, isCreditBill returns mechanicId s = true → 0 < netSatang returns s →
    (∀ line ∈ st.lines, line.saleId ≠ s.1) → (∀ line ∈ st.lines, s.2.date ≤ line.date) ∧ st.residual = 0
  /-- each bucket is the sum of its lines -/
  bucket : ∀ b, st.buckets b = ((st.lines.filter fun l => l.bucket = b).map (·.outstanding)).sum
  buckets : (AgingBucket.values.map st.buckets).sum = (st.lines.map (·.outstanding)).sum

/-! ## The loop -/

variable {localDay : Nat → Int} {sales sales' : List (SaleId × SaleRow)}
  {returns returns' : List (ReturnId × ReturnRow)} {asOf : Nat} {mechanicId : MechanicId} {creditBalance : ℚ}

/-- **The loop fills the bills in turn.** -/
theorem spread_eq (bills : List (SaleId × SaleRow)) (acc : Spread) :
    spread localDay returns asOf bills acc =
      { remaining := (Allocation.fill (netSatang returns) acc.remaining bills).2
        lines := acc.lines ++ (Allocation.fill (netSatang returns) acc.remaining bills).1.map fun e =>
          statementLine localDay asOf e.1 e.2
        bucketSatang := fun b => acc.bucketSatang b +
          (((Allocation.fill (netSatang returns) acc.remaining bills).1.filter fun e =>
            (statementLine localDay asOf e.1 e.2).bucket = b).map Prod.snd).sum } := by
  induction bills generalizing acc with
  | nil => simp [spread, Allocation.fill]
  | cons s bills ih =>
      rw [spread, Allocation.fill]
      split
      · simp
      · split
        · exact ih acc
        · rw [ih]
          have htake : (if netSatang returns s < acc.remaining then netSatang returns s else acc.remaining) =
              min (netSatang returns s) acc.remaining := by
            split
            · omega
            · omega
          simp only [htake, List.map_cons, List.append_assoc, List.singleton_append, Spread.mk.injEq, true_and]
          funext b
          rw [List.filter_cons]
          by_cases hb : (statementLine localDay asOf s (min (netSatang returns s) acc.remaining)).bucket = b
          · simp [hb, add_assoc]
          · simp [hb, Ne.symm hb]

theorem mem_billsOf {s : SaleId × SaleRow} :
    s ∈ billsOf mechanicId sales returns ↔ s ∈ sales ∧ isCreditBill returns mechanicId s = true := by
  rw [billsOf, List.mem_insertionSort, List.mem_filter]

theorem pairwise_billsOf :
    (billsOf mechanicId sales returns).Pairwise fun a b => sortKey b ≤ sortKey a := by
  have htotal : Std.Total fun a b : SaleId × SaleRow => sortKey b ≤ sortKey a :=
    ⟨fun a b => le_total (sortKey b) (sortKey a)⟩
  have htrans : IsTrans (SaleId × SaleRow) fun a b => sortKey b ≤ sortKey a :=
    ⟨fun _ _ _ hab hbc => hbc.trans hab⟩
  exact List.pairwise_insertionSort _ _

theorem date_le_of_sortKey {a b : SaleId × SaleRow} (h : sortKey b ≤ sortKey a) : b.2.date ≤ a.2.date := by
  rw [sortKey, sortKey, Prod.Lex.toLex_le_toLex] at h
  rcases h with h | h
  · exact h.le
  · exact h.1.le

/-- The buckets part the lines. -/
theorem sum_buckets (lines : List StatementLine) :
    (AgingBucket.values.map fun b => ((lines.filter fun l => l.bucket = b).map (·.outstanding)).sum).sum =
      (lines.map (·.outstanding)).sum := by
  induction lines with
  | nil => simp [AgingBucket.values]
  | cons l lines ih =>
      rw [List.map_cons, List.sum_cons, ← ih]
      cases hb : l.bucket <;> simp [AgingBucket.values, hb] <;> ring

section
variable (localDay) (sales) (returns) (asOf) (mechanicId) (creditBalance)

/-- The bills of the statement with what is taken of each, and what is left. -/
abbrev taken : List ((SaleId × SaleRow) × Int) × Int :=
  Allocation.fill (netSatang returns) (toSatang creditBalance) (billsOf mechanicId sales returns)

theorem lines_eq : (allocateCreditStatement localDay returns asOf mechanicId creditBalance sales).lines =
    (taken sales returns mechanicId creditBalance).1.map fun e => statementLine localDay asOf e.1 e.2 := by
  simp [allocateCreditStatement, spread_eq]

theorem residual_eq :
    (allocateCreditStatement localDay returns asOf mechanicId creditBalance sales).residual =
      if (taken sales returns mechanicId creditBalance).2 > 0 then
        baht (taken sales returns mechanicId creditBalance).2 else 0 := by
  simp [allocateCreditStatement, spread_eq]

theorem buckets_eq (b : AgingBucket) :
    (allocateCreditStatement localDay returns asOf mechanicId creditBalance sales).buckets b =
      ((((allocateCreditStatement localDay returns asOf mechanicId creditBalance sales).lines.filter
        fun l => l.bucket = b).map (·.outstanding)).sum) := by
  rw [lines_eq, List.filter_map, List.map_map]
  have hbaht : ∀ l : List ((SaleId × SaleRow) × Int), baht (l.map Prod.snd).sum =
      (l.map ((·.outstanding) ∘ fun e => statementLine localDay asOf e.1 e.2)).sum := fun l => baht_sum l Prod.snd
  rw [← hbaht]
  simp [allocateCreditStatement, spread_eq, Function.comp_def]

theorem sum_lines_eq :
    ((allocateCreditStatement localDay returns asOf mechanicId creditBalance sales).lines.map
      (·.outstanding)).sum = baht ((taken sales returns mechanicId creditBalance).1.map Prod.snd).sum := by
  rw [lines_eq, List.map_map, baht_sum]
  rfl

end

/-- Whatever bills and notes there are, the statement explains the balance. -/
theorem allocateCreditStatement_explains :
    (allocateCreditStatement localDay returns asOf mechanicId creditBalance sales).Explains mechanicId
      creditBalance sales returns := by
  -- the lines and the residual make up the balance
  have hsum : 0 < creditBalance →
      ((allocateCreditStatement localDay returns asOf mechanicId creditBalance sales).lines.map
        (·.outstanding)).sum +
        (allocateCreditStatement localDay returns asOf mechanicId creditBalance sales).residual =
          baht (toSatang creditBalance) := by
    intro hpos
    have hrest : 0 ≤ (taken sales returns mechanicId creditBalance).2 :=
      Allocation.rest_nonneg (toSatang_nonneg_of hpos.le)
    have hresidual : (if (taken sales returns mechanicId creditBalance).2 > 0 then
        baht (taken sales returns mechanicId creditBalance).2 else 0) =
          baht (taken sales returns mechanicId creditBalance).2 := by
      split
      · rfl
      · rw [show (taken sales returns mechanicId creditBalance).2 = 0 by omega, baht_zero]
    rw [sum_lines_eq, residual_eq, hresidual, ← baht_add, Allocation.sum_fill]
  -- the balance is given out from the newest bill on: what is listed is a prefix
  obtain ⟨hpre, hall⟩ := Allocation.fill_prefix (netSatang returns) (toSatang creditBalance)
    (billsOf mechanicId sales returns)
  have hbill : ∀ e ∈ (taken sales returns mechanicId creditBalance).1,
      e.1 ∈ sales ∧ isCreditBill returns mechanicId e.1 = true := by
    intro e he
    have hmem := List.mem_of_mem_filter (hpre.subset (List.mem_map_of_mem (f := Prod.fst) he))
    exact mem_billsOf.mp hmem
  constructor
  case sum => exact hsum
  case whole =>
    intro hpos hwhole
    rw [hsum hpos]
    exact hwhole
  case bounded =>
    intro line hline
    rw [lines_eq] at hline
    obtain ⟨e, he, rfl⟩ := List.mem_map.mp hline
    obtain ⟨hpos, hle⟩ := Allocation.share_bounds he
    exact ⟨baht_pos.mpr hpos, e.1, (hbill e he).1, rfl, (hbill e he).2, baht_le.mpr hle⟩
  case newest =>
    have hsorted := (@pairwise_billsOf sales returns mechanicId).sublist ((hpre.sublist).trans List.filter_sublist)
    rw [lines_eq, List.pairwise_map]
    rw [List.pairwise_map] at hsorted
    exact hsorted.imp date_le_of_sortKey
  -- every line but the last has the whole of its bill
  case full =>
    intro line hline
    rw [lines_eq, ← List.map_dropLast] at hline
    obtain ⟨e, he, rfl⟩ := List.mem_map.mp hline
    have hfull := (Allocation.fill_full (netSatang returns) (toSatang creditBalance) _).1 e he
    exact ⟨e.1, (hbill e (List.mem_of_mem_dropLast he)).1, rfl, congrArg baht hfull⟩
  -- a bill that is not listed is older than all that are, and nothing is left for it
  case greedy =>
    intro s hs hcredit hpos hnone
    have hmem : s ∈ (billsOf mechanicId sales returns).filter (0 < netSatang returns ·) :=
      List.mem_filter.mpr ⟨mem_billsOf.mpr ⟨hs, hcredit⟩, decide_eq_true hpos⟩
    have hnot : s ∉ (taken sales returns mechanicId creditBalance).1.map Prod.fst := by
      intro hin
      obtain ⟨e, he, rfl⟩ := List.mem_map.mp hin
      refine hnone (statementLine localDay asOf e.1 e.2) ?_ rfl
      rw [lines_eq]
      exact List.mem_map_of_mem he
    constructor
    · intro line hline
      rw [lines_eq] at hline
      obtain ⟨e, he, rfl⟩ := List.mem_map.mp hline
      obtain ⟨rest, hrest⟩ := hpre
      have hsorted : ((billsOf mechanicId sales returns).filter (0 < netSatang returns ·)).Pairwise
          fun a b => sortKey b ≤ sortKey a :=
        pairwise_billsOf.sublist List.filter_sublist
      rw [← hrest, List.mem_append] at hmem
      -- the bill is in what follows the prefix
      rw [← hrest, List.pairwise_append] at hsorted
      exact date_le_of_sortKey
        (hsorted.2.2 e.1 (List.mem_map_of_mem he) s (hmem.resolve_left hnot))
    · rw [residual_eq, if_neg]
      intro hrest
      exact hnot (hall hrest ▸ hmem)
  case bucket => exact buckets_eq _ _ _ _ _ _
  case buckets =>
    rw [← sum_buckets]
    exact congrArg List.sum (List.map_congr_left fun b _ => buckets_eq _ _ _ _ _ _ b)

/-! ## The order of the rows -/

theorem returnsOf_perm (h : returns.Perm returns') (x : SaleId) :
    (returnsOf returns x).Perm (returnsOf returns' x) := h.filter _

theorem netSatang_perm (h : returns.Perm returns') : netSatang returns = netSatang returns' := by
  funext s
  exact congrArg (toSatang s.2.total - ·) (((returnsOf_perm h s.1).filter _).map _).sum_eq

theorem isCreditBill_perm (h : returns.Perm returns') :
    isCreditBill returns mechanicId = isCreditBill returns' mechanicId := by
  funext s
  simp only [isCreditBill, (returnsOf_perm h s.1).isEmpty_eq]

/-- Bills with an id each are sorted in one way. -/
theorem billsOf_perm (hids : (sales.map Prod.fst).Nodup) (hsales : sales.Perm sales')
    (hreturns : returns.Perm returns') :
    billsOf mechanicId sales returns = billsOf mechanicId sales' returns' := by
  refine List.Perm.eq_of_pairwise (fun a b ha hb hab hba => ?_) pairwise_billsOf pairwise_billsOf ?_
  · have hkey : sortKey a = sortKey b := le_antisymm hba hab
    have hid : a.1 = b.1 := by
      simp only [sortKey, toLex_inj, Prod.mk.injEq] at hkey
      exact hkey.2.1
    exact List.inj_on_of_nodup_map hids (mem_billsOf.mp ha).1 (hsales.mem_iff.mpr (mem_billsOf.mp hb).1) hid
  · rw [billsOf, billsOf, isCreditBill_perm hreturns]
    exact (List.perm_insertionSort _ _).trans
      ((hsales.filter _).trans (List.perm_insertionSort _ _).symm)

/-- **A credit statement explains the balance**, whatever order the rows come in. -/
theorem credit_statement_explains (hids : (sales.map Prod.fst).Nodup) :
    (allocateCreditStatement localDay returns asOf mechanicId creditBalance sales).Explains mechanicId
      creditBalance sales returns ∧
    ∀ sales' returns', sales.Perm sales' → returns.Perm returns' →
      allocateCreditStatement localDay returns' asOf mechanicId creditBalance sales' =
        allocateCreditStatement localDay returns asOf mechanicId creditBalance sales := by
  refine ⟨allocateCreditStatement_explains, fun sales' returns' hsales hreturns => ?_⟩
  have hspread : spread localDay returns' asOf = spread localDay returns asOf := by
    funext bills acc
    rw [spread_eq, spread_eq, netSatang_perm hreturns]
  rw [allocateCreditStatement, allocateCreditStatement, hspread, billsOf_perm hids hsales hreturns]

/-! ## Two bills -/

/-- A bill on credit of a mechanic. -/
def creditBill (date : Nat) (total : ℚ) : SaleRow :=
  { receiptNo := .other "RC", subtotal := total, discount := 0, total := total
    paymentMethod := .mechanicCredit, customerId := none, mechanicId := some 4, mechanicDelta := none
    pointsGranted := 0, date := date, voided := false, voidedAt := none, shiftId := none
    soldOffline := false, voidReason := none, paymentAccountId := none, items := [] }

theorem credit_statement_explains_of_twoBills :
    (allocateCreditStatement (fun t => t / 86400) [] 864000 4 150
      [(1, creditBill 0 100), (2, creditBill 86400 80)]).Explains 4 150
        [(1, creditBill 0 100), (2, creditBill 86400 80)] [] :=
  (credit_statement_explains (by decide)).1

section
variable (creditBalance : ℚ) (total : ℚ)

/-- The statement of a mechanic with one bill and no note. -/
def oneBill : CreditStatement :=
  allocateCreditStatement (fun t => t / 86400) [] 864000 4 creditBalance [(1, creditBill 0 total)]

end

/-- **What is below a satang is rounded away**: of a balance of 0.004 nothing is stated, and of a balance of 1
a bill of 0.005 takes a whole satang. -/
theorem credit_statement_in_satang :
    (((oneBill (1 / 250) 100).lines.map (·.outstanding)).sum + (oneBill (1 / 250) 100).residual = 0 ∧
      (0 : ℚ) < 1 / 250) ∧
    ((oneBill 1 (1 / 200)).lines.map (·.outstanding) = [1 / 100] ∧ (1 / 200 : ℚ) < 1 / 100) := by
  decide +kernel

end Cache

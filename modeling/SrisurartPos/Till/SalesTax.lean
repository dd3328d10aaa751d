import SrisurartPos.Till.NetFigures
import SrisurartPos.Till.ExactUndo
import SrisurartPos.Drift.Balance
import SrisurartPos.Server.NumberText
import Mathlib.Data.List.Lex
import Mathlib.Data.Char

/-! # The monthly sales-tax report (`sales_tax_report.dart`)

One line for each day and series of receipts, one for each credit note. A bill counts as it stood at
the end of the month, so that a month that was filed reads the same whenever it is read again. -/

namespace Cache

open Server Money

/-! ## The local calendar -/

/-- The days and months of the device's time zone. Days and months are numbered in their order. -/
structure Calendar where
  /-- `dateKey(d.toLocal())` -/
  dateKey : Nat → Nat
  /-- the month of a day -/
  monthKey : Nat → Nat
  /-- `DateTime.parse(key)`, the local midnight -/
  midnight : Nat → Nat
  /-- `DateTime(year, month)` -/
  monthStart : Nat → Nat
  dateKey_midnight : ∀ day, dateKey (midnight day) = day
  /-- a month starts with its first instant -/
  monthStart_le : ∀ m t, monthStart m ≤ t ↔ m ≤ monthKey (dateKey t)

/-! ## The lines -/

inductive SalesTaxLineKind where
  | daily
  | creditNote
  deriving DecidableEq

def SalesTaxLineKind.index : SalesTaxLineKind → Nat
  | .daily      => 0
  | .creditNote => 1

structure SalesTaxLine where
  kind : SalesTaxLineKind
  date : Nat
  docNo : List Char
  sequential : Bool
  refReceiptNo : Option (List Char)
  billCount : Nat
  voidedReceiptNos : List (List Char)
  baseSatang : Int
  vatSatang : Int
  totalSatang : Int
  deriving DecidableEq

structure SalesTaxReport where
  month : Nat
  taxRate : ℚ
  lines : List SalesTaxLine
  deriving DecidableEq

namespace SalesTaxReport

def baseSatang (r : SalesTaxReport) : Int := (r.lines.map (·.baseSatang)).sum

def vatSatang (r : SalesTaxReport) : Int := (r.lines.map (·.vatSatang)).sum

def totalSatang (r : SalesTaxReport) : Int := (r.lines.map (·.totalSatang)).sum

end SalesTaxReport

/-- `ArgumentError` -/
inductive TaxError where
  | taxRate
  deriving DecidableEq

/-- The VAT in an amount, at a rate that has been checked. -/
def vatAt (totalSatang : Int) (taxRate : ℚ) : Int :=
  let r := roundAway (taxRate * 100)
  if r = 0 ∨ totalSatang = 0 then 0
  else
    let den := 10000 + r
    let abs := |totalSatang|
    let vat := (2 * abs * r + den) / (2 * den)
    if totalSatang < 0 then -vat else vat

def vatFromInclusiveSatang (totalSatang : Int) (taxRate : ℚ) : Except TaxError Int :=
  if taxRate < 0 then .error .taxRate else .ok (vatAt totalSatang taxRate)

/-- `_sequentialRc`: the series and the number. -/
def sequentialRc : List Char → Option (List Char × Nat)
  | 'R' :: 'C' :: cs =>
      let device := cs.takeWhile Char.isDigit
      match cs.dropWhile Char.isDigit with
      | '-' :: y₁ :: y₂ :: y₃ :: y₄ :: '-' :: m₁ :: m₂ :: '-' :: n =>
          if device ≠ [] ∧ [y₁, y₂, y₃, y₄, m₁, m₂].all Char.isDigit ∧ n ≠ [] ∧ n.all Char.isDigit then
            some ('R' :: 'C' :: device, Numeral.value n)
          else none
      | _ => none
  | _ => none

/-- `_line` -/
def salesTaxLine (kind : SalesTaxLineKind) (date : Nat) (docNo : List Char) (sequential : Bool)
    (refReceiptNo : Option (List Char)) (billCount : Nat) (voidedReceiptNos : List (List Char))
    (totalSatang : Int) (taxRate : ℚ) : SalesTaxLine :=
  let vat := vatAt totalSatang taxRate
  { kind := kind
    date := date
    docNo := docNo
    sequential := sequential
    refReceiptNo := refReceiptNo
    billCount := billCount
    voidedReceiptNos := voidedReceiptNos
    baseSatang := totalSatang - vat
    vatSatang := vat
    totalSatang := totalSatang }

/-- `receiptNo` as a text. -/
def receiptText : DocNo → List Char
  | .formatted n => formatDocNumber n
  | .other text  => text.toList

/-- What the report reads of a bill, with whether it counts. -/
structure TaxBill where
  date : Nat
  receiptNo : List Char
  total : ℚ
  counts : Bool
  deriving DecidableEq

/-- `_byTime` -/
def byTime (a b : Nat × List Char) : Prop := a.1 < b.1 ∨ a.1 = b.1 ∧ a.2 ≤ b.2

instance : DecidableRel byTime := fun _ _ => inferInstanceAs (Decidable (_ ∨ _))

def TaxBill.time (b : TaxBill) : Nat × List Char := (b.date, b.receiptNo)

def sortByTime (bills : List TaxBill) : List TaxBill :=
  bills.insertionSort fun a b => byTime a.time b.time

/-- `n` -/
def receiptSeq (receiptNo : List Char) : Nat := ((sequentialRc receiptNo).map Prod.snd).getD 0

/-- The first and the last of the numbers, as they are printed. -/
def rangeText (between : List Char) (receiptNos : List (List Char)) : List Char :=
  let first := receiptNos.headD []
  let last := receiptNos.getLastD []
  if first = last then first else first ++ between ++ last

/-- The number of a daily line, of its bills in the order of time. -/
def dailyDocNo (sequential : Bool) (receiptNos : List (List Char)) : List Char :=
  if receiptNos.isEmpty then []
  else if sequential then
    rangeText ['–'] (receiptNos.insertionSort fun a b => receiptSeq a ≤ receiptSeq b)
  else rangeText [' ', '/', ' '] receiptNos

/-- `_dailyLine` -/
def dailyLine (day : Nat) (series : Option (List Char)) (bills : List TaxBill) (taxRate : ℚ) :
    SalesTaxLine :=
  let counted := sortByTime (bills.filter fun s => s.counts)
  let voided := sortByTime (bills.filter fun s => !s.counts)
  let sequential := series.isSome
  salesTaxLine .daily day (dailyDocNo sequential (counted.map (·.receiptNo)))
    (sequential || counted.length < 2) none counted.length (voided.map (·.receiptNo))
    (counted.map fun s => toSatang s.total).sum taxRate

/-- What the report reads of a credit note. -/
structure TaxNote where
  date : Nat
  cnNo : List Char
  receiptNo : List Char
  refundTotal : ℚ
  deriving DecidableEq

def creditNoteLine (taxRate : ℚ) (r : TaxNote) : SalesTaxLine :=
  salesTaxLine .creditNote r.date r.cnNo true (some r.receiptNo) 0 [] (-toSatang r.refundTotal) taxRate

/-! ## The report -/

namespace Calendar

variable (cal : Calendar)

def inMonth (month date : Nat) : Bool := cal.monthKey (cal.dateKey date) = month

/-- `counts` -/
def counts (month : Nat) (returnedSaleIds : List SaleId) (s : SaleId × SaleRow) : Bool :=
  !s.2.voided || s.1 ∈ returnedSaleIds || s.2.voidedAt.any fun at_ => cal.monthStart (month + 1) ≤ at_

def taxBill (month : Nat) (returnedSaleIds : List SaleId) (s : SaleId × SaleRow) : TaxBill :=
  { date := s.2.date
    receiptNo := receiptText s.2.receiptNo
    total := s.2.total
    counts := cal.counts month returnedSaleIds s }

/-- `byDay`: by day, and in it by series. -/
def byDay (bills : List TaxBill) : List (Nat × List (Option (List Char) × List TaxBill)) :=
  (Grouping.groupBy (fun b => cal.dateKey b.date) bills).map fun day =>
    (day.1, Grouping.groupBy (fun b => (sequentialRc b.receiptNo).map Prod.fst) day.2)

/-- The key that the lines are ordered by. -/
def lineKey (l : SalesTaxLine) : Nat × Nat × List Char := (cal.dateKey l.date, l.kind.index, l.docNo)

def lineLe (a b : Nat × Nat × List Char) : Prop :=
  a.1 < b.1 ∨ a.1 = b.1 ∧ (a.2.1 < b.2.1 ∨ a.2.1 = b.2.1 ∧ a.2.2 ≤ b.2.2)

instance : DecidableRel lineLe := fun _ _ => inferInstanceAs (Decidable (_ ∨ _))

/-- The lines before they are ordered. -/
def taxLines (month : Nat) (taxRate : ℚ) (bills : List TaxBill) (notes : List TaxNote) :
    List SalesTaxLine :=
  ((cal.byDay (bills.filter fun s => cal.inMonth month s.date)).flatMap fun day =>
      day.2.map fun series => dailyLine (cal.midnight day.1) series.1 series.2 taxRate) ++
    (notes.filter fun r => cal.inMonth month r.date).map (creditNoteLine taxRate)

def buildSalesTaxReport (month : Nat) (taxRate : ℚ) (sales : List (SaleId × SaleRow))
    (notes : List TaxNote) (returnedSaleIds : List SaleId) : Except TaxError SalesTaxReport := do
  let _ ← vatFromInclusiveSatang 0 taxRate
  return { month := month
           taxRate := taxRate
           lines := (cal.taxLines month taxRate (sales.map (cal.taxBill month returnedSaleIds))
             notes).insertionSort fun a b => lineLe (cal.lineKey a) (cal.lineKey b) }

end Calendar

/-! ## The order of the rows -/

section
variable {bills bills' : List TaxBill} {notes notes' : List TaxNote} {cal : Calendar} {month : Nat}
  {taxRate : ℚ}

instance : Std.Total byTime := ⟨fun a b => by
  rcases lt_trichotomy a.1 b.1 with h | h | h
  · exact .inl (.inl h)
  · exact (le_total a.2 b.2).imp (fun hle => .inr ⟨h, hle⟩) fun hle => .inr ⟨h.symm, hle⟩
  · exact .inr (.inl h)⟩

instance : IsTrans (Nat × List Char) byTime := ⟨by
  rintro a b c (hab | ⟨hab, hle⟩) (hbc | ⟨hbc, hle'⟩)
  · exact .inl (hab.trans hbc)
  · exact .inl (hbc ▸ hab)
  · exact .inl (hab ▸ hbc)
  · exact .inr ⟨hab.trans hbc, hle.trans hle'⟩⟩

instance : Std.Antisymm byTime := ⟨by
  rintro ⟨d, n⟩ ⟨d', n'⟩ (h | ⟨h, hle⟩) (h' | ⟨h', hle'⟩)
  · exact absurd (h.trans h') (lt_irrefl _)
  · exact absurd h' h.ne'
  · exact absurd h h'.ne'
  · exact Prod.ext h (le_antisymm hle hle')⟩

theorem sortByTime_times (bills : List TaxBill) :
    (sortByTime bills).map TaxBill.time = (bills.map TaxBill.time).insertionSort byTime :=
  List.map_insertionSort _ _ _ _ fun _ _ _ _ => Iff.rfl

/-- The times and numbers of sorted bills do not depend on the order they come in. -/
theorem times_eq_of_perm (h : bills.Perm bills') :
    (sortByTime bills).map TaxBill.time = (sortByTime bills').map TaxBill.time := by
  rw [sortByTime_times, sortByTime_times]
  refine List.Perm.eq_of_pairwise' (List.pairwise_insertionSort _ _) (List.pairwise_insertionSort _ _) ?_
  exact ((List.perm_insertionSort _ _).trans (h.map _)).trans (List.perm_insertionSort _ _).symm

theorem receiptNos_eq_of_perm (h : bills.Perm bills') :
    (sortByTime bills).map (·.receiptNo) = (sortByTime bills').map (·.receiptNo) := by
  have := congrArg (List.map Prod.snd) (times_eq_of_perm h)
  rwa [List.map_map, List.map_map] at this

theorem sortByTime_perm (bills : List TaxBill) : (sortByTime bills).Perm bills :=
  List.perm_insertionSort _ _

theorem dailyLine_of_perm (day : Nat) (series : Option (List Char)) (h : bills.Perm bills') :
    dailyLine day series bills taxRate = dailyLine day series bills' taxRate := by
  have hcounted := h.filter fun s => s.counts
  have hvoided := h.filter fun s => !s.counts
  have hsorted : (sortByTime (bills.filter fun s => s.counts)).Perm
      (sortByTime (bills'.filter fun s => s.counts)) :=
    ((sortByTime_perm _).trans hcounted).trans (sortByTime_perm _).symm
  rw [dailyLine, dailyLine, receiptNos_eq_of_perm hcounted, receiptNos_eq_of_perm hvoided,
    hsorted.length_eq, (hsorted.map fun s => toSatang s.total).sum_eq]

theorem coe_flatMap {α β : Type} (l : List α) (f : α → List β) :
    (l.flatMap f : Multiset β) = (l.map fun a => (f a : Multiset β)).sum := by
  induction l with
  | nil => rfl
  | cons a l ih => rw [List.flatMap_cons, ← Multiset.coe_add, ih, List.map_cons, List.sum_cons]

theorem taxLines_perm (h : bills.Perm bills') (hnotes : notes.Perm notes') :
    (cal.taxLines month taxRate bills notes).Perm (cal.taxLines month taxRate bills' notes') := by
  apply List.Perm.append
  · rw [← Multiset.coe_eq_coe, coe_flatMap, coe_flatMap, Calendar.byDay, Calendar.byDay, List.map_map,
      List.map_map]
    refine (Grouping.map_groupBy_perm (h.filter _) fun day l l' hl => ?_).sum_eq
    simp only [Function.comp_apply]
    rw [Multiset.coe_eq_coe]
    exact Grouping.map_groupBy_perm hl fun series _ _ hl' => dailyLine_of_perm _ series hl'
  · exact (hnotes.filter _).map _

/-! ## Every bill is on one line -/

/-- The bills by day and series. -/
def Calendar.groups (cal : Calendar) (bills : List TaxBill) :
    List ((Nat × Option (List Char)) × List TaxBill) :=
  (cal.byDay bills).flatMap fun day => day.2.map fun series => ((day.1, series.1), series.2)

/-- The day and the series that a bill belongs to. -/
def Calendar.dayAndSeries (cal : Calendar) (b : TaxBill) : Nat × Option (List Char) :=
  (cal.dateKey b.date, (sequentialRc b.receiptNo).map Prod.fst)

theorem groups_eq (bills : List TaxBill) : cal.groups bills =
    (Grouping.groupBy (fun b => cal.dateKey b.date) bills).flatMap fun day =>
      (Grouping.groupBy (fun b => (sequentialRc b.receiptNo).map Prod.fst) day.2).map fun series =>
        ((day.1, series.1), series.2) := by
  rw [Calendar.groups, Calendar.byDay, List.flatMap_map]

/-- No day is grouped twice. -/
theorem nodup_groups : ((cal.groups bills).map Prod.fst).Nodup := by
  rw [groups_eq, List.map_flatMap, List.nodup_flatMap]
  constructor
  · intro day _
    have hnodup : ((Grouping.groupBy (fun b => (sequentialRc b.receiptNo).map Prod.fst) day.2).map
        Prod.fst).Nodup := Grouping.nodup_groupBy
    have hpair := hnodup.map (f := fun series => (day.1, series)) fun _ _ h => (Prod.mk.inj h).2
    rw [List.map_map] at hpair ⊢
    exact hpair
  · have hdays : ((Grouping.groupBy (fun b => cal.dateKey b.date) bills).map Prod.fst).Nodup :=
      Grouping.nodup_groupBy
    refine (List.pairwise_map.mp hdays).imp ?_
    intro day day' hne k hk hk'
    simp only [List.map_map, List.mem_map, Function.comp_apply] at hk hk'
    obtain ⟨_, -, rfl⟩ := hk
    obtain ⟨_, -, heq⟩ := hk'
    exact hne (Prod.mk.inj heq).1.symm

theorem key_of_mem_groups {g : (Nat × Option (List Char)) × List TaxBill} (hg : g ∈ cal.groups bills)
    {b : TaxBill} (hb : b ∈ g.2) : cal.dayAndSeries b = g.1 := by
  rw [groups_eq, List.mem_flatMap] at hg
  obtain ⟨day, hday, hg⟩ := hg
  obtain ⟨series, hseries, rfl⟩ := List.mem_map.mp hg
  have hb' : b ∈ day.2 := (List.mem_filter.mp ((Grouping.perm_of_mem_groupBy hseries).mem_iff.mp hb)).1
  exact Prod.ext (Grouping.key_of_mem_groupBy hday hb') (Grouping.key_of_mem_groupBy hseries hb)

theorem perm_groups : ((cal.groups bills).flatMap Prod.snd).Perm bills := by
  rw [groups_eq, List.flatMap_assoc]
  have hdays : ((Grouping.groupBy (fun b => cal.dateKey b.date) bills).flatMap Prod.snd).Perm bills :=
    Grouping.perm_groupBy
  refine List.Perm.trans ?_ hdays
  apply List.Perm.flatMap_left
  intro day _
  rw [List.flatMap_map]
  exact Grouping.perm_groupBy

theorem taxLines_eq : cal.taxLines month taxRate bills notes =
    (cal.groups (bills.filter fun s => cal.inMonth month s.date)).map
        (fun g => dailyLine (cal.midnight g.1.1) g.1.2 g.2 taxRate) ++
      (notes.filter fun r => cal.inMonth month r.date).map (creditNoteLine taxRate) := by
  rw [Calendar.taxLines, Calendar.groups, List.map_flatMap]
  simp only [List.map_map, Function.comp_def]

/-! ## The amounts -/

theorem total_dailyLine (day : Nat) (series : Option (List Char)) (bills : List TaxBill) :
    (dailyLine day series bills taxRate).totalSatang =
      (bills.map fun s => if s.counts then toSatang s.total else 0).sum := by
  rw [← Table.sum_filter_map]
  exact ((sortByTime_perm _).map fun s : TaxBill => toSatang s.total).sum_eq

theorem total_taxLines :
    ((cal.taxLines month taxRate bills notes).map (·.totalSatang)).sum =
      ((bills.filter fun s => s.counts && cal.inMonth month s.date).map fun s => toSatang s.total).sum -
        ((notes.filter fun r => cal.inMonth month r.date).map fun r => toSatang r.refundTotal).sum := by
  have hbills := (@perm_groups (bills.filter fun s => cal.inMonth month s.date) cal).map
    fun s => if s.counts then toSatang s.total else 0
  rw [taxLines_eq, List.map_append, List.sum_append, List.map_map, List.map_map, sub_eq_add_neg,
    List.sum_neg, List.map_map, ← List.filter_filter, Table.sum_filter_map _ TaxBill.counts,
    ← hbills.sum_eq, Table.sum_flatMap_map]
  simp only [Function.comp_def, total_dailyLine]
  rfl

/-- Base and VAT make up each line. -/
theorem split_of_mem {l : SalesTaxLine} (h : l ∈ cal.taxLines month taxRate bills notes) :
    l.baseSatang + l.vatSatang = l.totalSatang := by
  rw [taxLines_eq] at h
  rcases List.mem_append.mp h with h | h
  · obtain ⟨g, -, rfl⟩ := List.mem_map.mp h
    exact Int.sub_add_cancel _ _
  · obtain ⟨r, -, rfl⟩ := List.mem_map.mp h
    exact Int.sub_add_cancel _ _

end

/-- The report says of every bill and note of the month what it comes to, once. -/
structure SalesTaxReport.Accounts (r : SalesTaxReport) (cal : Calendar) (bills : List TaxBill)
    (notes : List TaxNote) : Prop where
  lines : ∃ groups : List ((Nat × Option (List Char)) × List TaxBill),
    (groups.map Prod.fst).Nodup ∧
    (∀ g ∈ groups, ∀ b ∈ g.2, cal.dayAndSeries b = g.1) ∧
    (groups.flatMap Prod.snd).Perm (bills.filter fun s => cal.inMonth r.month s.date) ∧
    r.lines.Perm (groups.map (fun g => dailyLine (cal.midnight g.1.1) g.1.2 g.2 r.taxRate) ++
      (notes.filter fun n => cal.inMonth r.month n.date).map (creditNoteLine r.taxRate))
  total : r.totalSatang =
    ((bills.filter fun s => s.counts && cal.inMonth r.month s.date).map fun s => toSatang s.total).sum -
      ((notes.filter fun n => cal.inMonth r.month n.date).map fun n => toSatang n.refundTotal).sum
  split : ∀ l ∈ r.lines, l.baseSatang + l.vatSatang = l.totalSatang
  whole : r.baseSatang + r.vatSatang = r.totalSatang

namespace Calendar

variable {cal : Calendar} {month : Nat} {taxRate : ℚ} {sales : List (SaleId × SaleRow)}
  {notes : List TaxNote} {returnedSaleIds : List SaleId} {report : SalesTaxReport}

/-- A report is refused for its rate only. -/
theorem of_buildSalesTaxReport
    (h : cal.buildSalesTaxReport month taxRate sales notes returnedSaleIds = .ok report) :
    report.month = month ∧ report.taxRate = taxRate ∧
      report.lines = (cal.taxLines month taxRate (sales.map (cal.taxBill month returnedSaleIds))
        notes).insertionSort fun a b => lineLe (cal.lineKey a) (cal.lineKey b) := by
  rw [buildSalesTaxReport, vatFromInclusiveSatang] at h
  split at h
  · cases h
  · obtain rfl := Except.ok.inj h
    exact ⟨rfl, rfl, rfl⟩

/-- A report that is built accounts for every bill and note of the month. -/
theorem accounts_of_build
    (h : cal.buildSalesTaxReport month taxRate sales notes returnedSaleIds = .ok report) :
    report.Accounts cal (sales.map (cal.taxBill month returnedSaleIds)) notes := by
  obtain ⟨rfl, rfl, hlines⟩ := of_buildSalesTaxReport h
  have hperm : report.lines.Perm (cal.taxLines report.month report.taxRate
      (sales.map (cal.taxBill report.month returnedSaleIds)) notes) :=
    hlines ▸ List.perm_insertionSort _ _
  have hsplit : ∀ l ∈ report.lines, l.baseSatang + l.vatSatang = l.totalSatang :=
    fun l hl => split_of_mem (hperm.mem_iff.mp hl)
  constructor
  · exact ⟨_, nodup_groups, fun g hg b hb => key_of_mem_groups hg hb, perm_groups, taxLines_eq ▸ hperm⟩
  · exact (hperm.map _).sum_eq.trans total_taxLines
  · exact hsplit
  · rw [SalesTaxReport.baseSatang, SalesTaxReport.vatSatang, SalesTaxReport.totalSatang,
      ← List.sum_map_add]
    exact sum_map_eq hsplit

/-- Rows of other months are not looked at. -/
theorem build_filter : cal.buildSalesTaxReport month taxRate sales notes returnedSaleIds =
    cal.buildSalesTaxReport month taxRate (sales.filter fun s => cal.inMonth month s.2.date)
      (notes.filter fun r => cal.inMonth month r.date) returnedSaleIds := by
  have hsales : ((sales.filter fun s => cal.inMonth month s.2.date).map
      (cal.taxBill month returnedSaleIds)).filter (fun s => cal.inMonth month s.date) =
        (sales.map (cal.taxBill month returnedSaleIds)).filter fun s => cal.inMonth month s.date := by
    rw [List.filter_map, List.filter_map, List.filter_filter]
    simp only [Function.comp_def, taxBill, Bool.and_self]
  simp only [buildSalesTaxReport, taxLines, hsales, List.filter_filter, Bool.and_self]

instance : Std.Total lineLe := ⟨fun a b => by
  rcases lt_trichotomy a.1 b.1 with h | h | h
  · exact .inl (.inl h)
  · rcases lt_trichotomy a.2.1 b.2.1 with h' | h' | h'
    · exact .inl (.inr ⟨h, .inl h'⟩)
    · exact (le_total a.2.2 b.2.2).imp (fun hle => .inr ⟨h, .inr ⟨h', hle⟩⟩) fun hle =>
        .inr ⟨h.symm, .inr ⟨h'.symm, hle⟩⟩
    · exact .inr (.inr ⟨h.symm, .inl h'⟩)
  · exact .inr (.inl h)⟩

instance : IsTrans (Nat × Nat × List Char) lineLe := ⟨by
  intro a b c hab hbc
  unfold lineLe at hab hbc ⊢
  have htrans : a.2.2 ≤ b.2.2 → b.2.2 ≤ c.2.2 → a.2.2 ≤ c.2.2 := le_trans
  grind⟩

instance : Std.Antisymm lineLe := ⟨by
  intro a b hab hba
  unfold lineLe at hab hba
  have hanti : a.2.2 ≤ b.2.2 → b.2.2 ≤ a.2.2 → a.2.2 = b.2.2 := le_antisymm
  exact Prod.ext (by grind) (Prod.ext (by grind) (hanti (by grind) (by grind)))⟩

/-- In whatever order the rows come, the report has the same lines in the order of their keys. -/
theorem build_perm {sales' : List (SaleId × SaleRow)} {notes' : List TaxNote} {report' : SalesTaxReport}
    (hsales : sales.Perm sales') (hnotes : notes.Perm notes')
    (h : cal.buildSalesTaxReport month taxRate sales notes returnedSaleIds = .ok report)
    (h' : cal.buildSalesTaxReport month taxRate sales' notes' returnedSaleIds = .ok report') :
    report.lines.Perm report'.lines ∧
      report.lines.map cal.lineKey = report'.lines.map cal.lineKey := by
  obtain ⟨-, -, hlines⟩ := of_buildSalesTaxReport h
  obtain ⟨-, -, hlines'⟩ := of_buildSalesTaxReport h'
  have hperm : report.lines.Perm report'.lines := by
    rw [hlines, hlines']
    exact ((List.perm_insertionSort _ _).trans (taxLines_perm (hsales.map _) hnotes)).trans
      (List.perm_insertionSort _ _).symm
  refine ⟨hperm, ?_⟩
  have hsorted (l : List SalesTaxLine) :
      ((l.insertionSort fun a b => lineLe (cal.lineKey a) (cal.lineKey b)).map cal.lineKey).Pairwise
        lineLe := by
    rw [List.map_insertionSort _ lineLe cal.lineKey l fun _ _ _ _ => Iff.rfl]
    exact List.pairwise_insertionSort _ _
  have hle : (report.lines.map cal.lineKey).Pairwise lineLe := hlines ▸ hsorted _
  have hle' : (report'.lines.map cal.lineKey).Pairwise lineLe := hlines' ▸ hsorted _
  exact List.Perm.eq_of_pairwise' hle hle' (hperm.map _)

end Calendar

/-! ## A closed month -/

/-- The bills and the credit notes of a till. -/
structure Books where
  sales : Table SaleId SaleRow
  returns : Table ReturnId ReturnRow

/-- A credit note, with the two numbers that are printed on it. -/
def taxNote (numbers : ReturnId → List Char × List Char) (e : ReturnId × ReturnRow) : TaxNote :=
  { date := e.2.date
    cnNo := (numbers e.1).1
    receiptNo := (numbers e.1).2
    refundTotal := e.2.refundTotal }

namespace Books

variable (books : Books) (cal : Calendar) (month : Nat)

def salesIn : List (SaleId × SaleRow) := books.sales.rows.filter fun e =>
  within (cal.monthStart month) (cal.monthStart (month + 1)) e.2.date

def returnsIn : List (ReturnId × ReturnRow) := books.returns.rows.filter fun e =>
  within (cal.monthStart month) (cal.monthStart (month + 1)) e.2.date

/-- The voided bills among `sales` with a credit note at any time. -/
def returnedSaleIds (sales : List (SaleId × SaleRow)) : List SaleId :=
  (books.returns.rows.filter fun e => e.2.saleId ∈ (sales.filter fun s => s.2.voided).map Prod.fst).map
    (·.2.saleId)

/-- `_load` -/
def salesTaxReport (taxRate : ℚ) (numbers : ReturnId → List Char × List Char) :
    Except TaxError SalesTaxReport :=
  let sales := books.salesIn cal month
  cal.buildSalesTaxReport month taxRate sales ((books.returnsIn cal month).map (taxNote numbers))
    (books.returnedSaleIds sales)

/-- Whether a bill counts, by the notes there are. -/
def counted (e : SaleId × SaleRow) : Bool :=
  !e.2.voided || books.returns.rows.any (fun r => r.2.saleId = e.1) ||
    e.2.voidedAt.any fun at_ => cal.monthStart (month + 1) ≤ at_

/-- What is written after the instant `t`. A bill that is voided was not voided by then. -/
inductive Later (t : Nat) : Books → Prop
  /-- `saveSale` -/
  | sale {x : SaleId} {row : SaleRow} (hnew : books.sales.get x = none) (hdate : t ≤ row.date) :
      Later t { books with sales := books.sales.insert x row }
  /-- `voidSaleOffline` -/
  | void {x : SaleId} {sale : SaleRow} {now : Nat} (reason : String)
      (hsale : books.sales.get x = some sale)
      (hopen : sale.voided = false ∨ ∃ v, sale.voidedAt = some v ∧ t ≤ v) (hnow : t ≤ now) :
      Later t { books with sales := books.sales.modify x (SaleRow.void reason now) }
  /-- `createReturn`, which voids the bill when all of it is taken back -/
  | note {r : ReturnId} {sale : SaleRow} {voidedAt : Nat} (note : ReturnRow) (voidsSale : Bool)
      (hnew : books.returns.get r = none) (hsale : books.sales.get note.saleId = some sale)
      (hopen : sale.voided = false) (hdate : t ≤ note.date) (hvoidedAt : t ≤ voidedAt) :
      Later t
        { sales :=
            if voidsSale then
              books.sales.modify note.saleId fun s => { s with voided := true, voidedAt := some voidedAt }
            else books.sales
          returns := books.returns.insert r note }

variable {books cal month} {books' : Books}

/-- The report counts the bills that the books count. -/
theorem counts_eq {e : SaleId × SaleRow} (he : e ∈ books.salesIn cal month) :
    cal.counts month (books.returnedSaleIds (books.salesIn cal month)) e = books.counted cal month e := by
  rw [Calendar.counts, counted]
  cases hv : e.2.voided with
  | false => rfl
  | true =>
      have hmem : e.1 ∈ ((books.salesIn cal month).filter fun s => s.2.voided).map Prod.fst :=
        List.mem_map.mpr ⟨e, List.mem_filter.mpr ⟨he, hv⟩, rfl⟩
      congr 2
      rw [Bool.eq_iff_iff, decide_eq_true_eq, returnedSaleIds, List.mem_map, List.any_eq_true]
      constructor
      · rintro ⟨r, hr, heq⟩
        exact ⟨r, (List.mem_filter.mp hr).1, decide_eq_true heq⟩
      · rintro ⟨r, hr, heq⟩
        obtain heq := of_decide_eq_true heq
        exact ⟨r, List.mem_filter.mpr ⟨hr, by simpa [heq] using hmem⟩, heq⟩

/-- The bills of the month that a change may have changed, as the report reads them. -/
structure Unchanged (books books' : Books) (cal : Calendar) (month : Nat)
    (u : SaleId × SaleRow → SaleId × SaleRow) : Prop where
  sales : books'.salesIn cal month = (books.salesIn cal month).map u
  returns : books'.returnsIn cal month = books.returnsIn cal month
  date : ∀ e ∈ books.salesIn cal month, (u e).2.date = e.2.date
  receiptNo : ∀ e ∈ books.salesIn cal month, (u e).2.receiptNo = e.2.receiptNo
  total : ∀ e ∈ books.salesIn cal month, (u e).2.total = e.2.total
  counted : ∀ e ∈ books.salesIn cal month, books'.counted cal month (u e) = books.counted cal month e

/-- Books that are unchanged in the month give the same report. -/
theorem Unchanged.report {u : SaleId × SaleRow → SaleId × SaleRow} (h : books.Unchanged books' cal month u)
    (taxRate : ℚ) (numbers : ReturnId → List Char × List Char) :
    books'.salesTaxReport cal month taxRate numbers = books.salesTaxReport cal month taxRate numbers := by
  have hbills : (books'.salesIn cal month).map
      (cal.taxBill month (books'.returnedSaleIds (books'.salesIn cal month))) =
        (books.salesIn cal month).map
          (cal.taxBill month (books.returnedSaleIds (books.salesIn cal month))) := by
    have hof (b : Books) : (b.salesIn cal month).map
        (cal.taxBill month (b.returnedSaleIds (b.salesIn cal month))) = (b.salesIn cal month).map
          fun e => ⟨e.2.date, receiptText e.2.receiptNo, e.2.total, b.counted cal month e⟩ := by
      apply List.map_congr_left
      intro e he
      rw [Calendar.taxBill, counts_eq he]
    rw [hof, hof, h.sales, List.map_map]
    apply List.map_congr_left
    intro e he
    rw [Function.comp_apply, h.date e he, h.receiptNo e he, h.total e he, h.counted e he]
  simp only [salesTaxReport, Calendar.buildSalesTaxReport, hbills, h.returns]

theorem row_of_mem {e : SaleId × SaleRow} (he : e ∈ books.salesIn cal month) {sale : SaleRow}
    (hsale : books.sales.get e.1 = some sale) : e.2 = sale := by
  have hget := books.sales.mem_rows.mp (List.mem_filter.mp he).1
  exact Option.some.inj (hget.symm.trans hsale)

theorem salesIn_modify {x : SaleId} {f : SaleRow → SaleRow} (hdate : ∀ s, (f s).date = s.date)
    {returns : Table ReturnId ReturnRow} :
    (Books.mk (books.sales.modify x f) returns).salesIn cal month =
      (books.salesIn cal month).map fun e => if e.1 = x then (e.1, f e.2) else e := by
  rw [salesIn, salesIn]
  show (List.map _ books.sales.rows).filter _ = _
  rw [List.filter_map]
  congr 1
  apply List.filter_congr
  intro e _
  by_cases hx : e.1 = x <;> simp [hx, hdate]

/-- A void or an auto-void after the month leaves its bills as they were read. -/
theorem unchanged_modify {x : SaleId} {sale : SaleRow} {f : SaleRow → SaleRow}
    {returns : Table ReturnId ReturnRow} (hsale : books.sales.get x = some sale)
    (hopen : sale.voided = false ∨ ∃ v, sale.voidedAt = some v ∧ cal.monthStart (month + 1) ≤ v)
    (hdate : ∀ s, (f s).date = s.date) (hreceiptNo : ∀ s, (f s).receiptNo = s.receiptNo)
    (htotal : ∀ s, (f s).total = s.total)
    (hvoidedAt : (f sale).voidedAt.any (fun at_ => cal.monthStart (month + 1) ≤ at_) = true)
    (hreturns : (Books.mk books.sales returns).returnsIn cal month = books.returnsIn cal month)
    (hnoted : ∀ k, k ≠ x → returns.rows.any (fun r => r.2.saleId = k) =
      books.returns.rows.any fun r => r.2.saleId = k) :
    books.Unchanged (Books.mk (books.sales.modify x f) returns) cal month
      fun e => if e.1 = x then (e.1, f e.2) else e where
  sales := salesIn_modify hdate
  returns := hreturns
  date e _ := by
    by_cases hx : e.1 = x <;> simp [hx, hdate]
  receiptNo e _ := by
    by_cases hx : e.1 = x <;> simp [hx, hreceiptNo]
  total e _ := by
    by_cases hx : e.1 = x <;> simp [hx, htotal]
  counted e he := by
    by_cases hx : e.1 = x
    · -- before it the bill was not voided by the end of the month, after it neither
      subst hx
      have hrow := row_of_mem he hsale
      rw [if_pos rfl]
      have hcounts : books.counted cal month e = true := by
        rw [counted, hrow]
        rcases hopen with hopen | ⟨v, hv, hle⟩
        · simp [hopen]
        · simp [hv, hle]
      rw [hcounts, counted, hrow, hvoidedAt, Bool.or_true]
    · rw [if_neg hx, counted, counted, hnoted e.1 hx]

/-- What is written after a month does not change what the report reads of it. -/
theorem Later.unchanged (h : books.Later (cal.monthStart (month + 1)) books') :
    ∃ u, books.Unchanged books' cal month u := by
  have houtside {d : Nat} (hd : cal.monthStart (month + 1) ≤ d) :
      within (cal.monthStart month) (cal.monthStart (month + 1)) d = false := by
    grind [within]
  cases h with
  | @sale x row hnew hdate =>
      refine ⟨id, ?_, rfl, fun _ _ => rfl, fun _ _ => rfl, fun _ _ => rfl, fun _ _ => rfl⟩
      rw [List.map_id, salesIn, salesIn, Table.rows_insert hnew, List.filter_append]
      simp [houtside hdate]
  | void reason hsale hopen hnow =>
      exact ⟨_, unchanged_modify hsale hopen (fun _ => rfl) (fun _ => rfl) (fun _ => rfl)
        (decide_eq_true hnow) rfl fun _ _ => rfl⟩
  | @note r sale voidedAt note voidsSale hnew hsale hopen hdate hvoidedAt =>
      have hrows : (books.returns.insert r note).rows = books.returns.rows ++ [(r, note)] :=
        Table.rows_insert hnew _
      have hreturns (sales : Table SaleId SaleRow) :
          (Books.mk sales (books.returns.insert r note)).returnsIn cal month =
            books.returnsIn cal month := by
        rw [returnsIn, returnsIn, hrows, List.filter_append]
        simp [houtside hdate]
      have hnoted : ∀ k, k ≠ note.saleId →
          (books.returns.insert r note).rows.any (fun r => r.2.saleId = k) =
            books.returns.rows.any fun r => r.2.saleId = k := by
        intro k hk
        rw [hrows, List.any_append]
        simp [hk.symm]
      cases voidsSale with
      | true =>
          exact ⟨_, unchanged_modify (f := fun s => { s with voided := true, voidedAt := some voidedAt })
            hsale (.inl hopen) (fun _ => rfl) (fun _ => rfl) (fun _ => rfl) (decide_eq_true hvoidedAt)
            (hreturns _) hnoted⟩
      | false =>
          refine ⟨id, (List.map_id _).symm, hreturns _, fun _ _ => rfl, fun _ _ => rfl, fun _ _ => rfl, ?_⟩
          intro e he
          show (Books.mk books.sales _).counted cal month e = _
          by_cases hx : e.1 = note.saleId
          · have hrow := row_of_mem he (hx ▸ hsale)
            rw [counted, counted, hrow, hopen]
            rfl
          · rw [counted, counted, hnoted e.1 hx]

/-- A closed month reads the same after any run of later writes. -/
theorem report_of_later (taxRate : ℚ) (numbers : ReturnId → List Char × List Char)
    (h : Relation.ReflTransGen (fun b b' => b.Later (cal.monthStart (month + 1)) b') books books') :
    books'.salesTaxReport cal month taxRate numbers = books.salesTaxReport cal month taxRate numbers := by
  induction h with
  | refl => rfl
  | tail _ hstep ih =>
      obtain ⟨u, hu⟩ := hstep.unchanged
      exact (hu.report taxRate numbers).trans ih

end Books

/-! ### What the tills write -/

def Db.books (db : Db) : Books := ⟨db.sales, db.returns⟩

/-- The books of a till without a server. -/
def Books.ofDrift (db : Drift.Db) : Books := ⟨db.sales, db.returns⟩

/-- What a till with a server writes by itself at `t` or later. -/
inductive AppDatabase.Written (t : Nat) : AppDatabase → AppDatabase → Prop where
  | sale {db db' opId key x input byId shiftId no now sale} : t ≤ now →
      db.saveOfflineTx opId key x input byId shiftId no now = .ok (sale, db') → Written t db db'
  | void {db db' opId key x reason now voided} : t ≤ now →
      db.voidSaleOffline opId key x reason now = .ok (voided, db') → Written t db db'
  | note {db db' opId key r x input no now note} : t ≤ now →
      db.createOffline opId key r x input no now = .ok (note, db') → Written t db db'

/-- What a till without one does. The bill that is voided was read as not voided, so that a void since
then is late as well. -/
inductive DriftWritten (t : Nat) : Drift.Db → Drift.Db → Prop where
  | sale {db db' x input byId no date sale} : t ≤ date →
      Drift.saveSale x input byId no date db = .ok (sale, db') → DriftWritten t db db'
  | void {db x reason sale read now} : t ≤ now → db.sales.get x = some sale →
      (sale.voided = false ∨ ∃ v, sale.voidedAt = some v ∧ t ≤ v) →
        DriftWritten t db (Drift.voidSaleOffline x reason read now db)
  | note {db db' r x input now plan} : t ≤ now →
      Drift.createReturn r x input now db = .ok (plan, db') → DriftWritten t db db'

section
variable {t : Nat}

/-- What the offline services write makes the books later books. -/
theorem AppDatabase.Written.later {db db' : AppDatabase} (h : AppDatabase.Written t db db') :
    db.toDb.books.Later t db'.toDb.books := by
  cases h with
  | sale hnow hsave =>
      obtain ⟨-, tables, hwrite, rfl⟩ := AppDatabase.of_saveOfflineTx hsave
      obtain ⟨receiptNo, products, rfl, hnew, -, rfl⟩ := Cache.of_saveOfflineTx hwrite
      exact .sale hnew hnow
  | void hnow hvoid =>
      obtain ⟨-, sale, tables, hsale, hwrite, rfl⟩ := AppDatabase.of_voidSaleOffline hvoid
      have hopen := live_of_voidSaleOffline hsale hwrite
      obtain rfl := Cache.of_voidSaleOffline hsale hwrite
      exact .void _ hsale (.inl hopen) hnow
  | note hnow hnote =>
      obtain ⟨-, hnew, sale, plan, hsale, hopen, rfl, -, rfl⟩ := AppDatabase.of_createOffline hnote
      exact .note (noteRow _ sale _ plan _) plan.voidsSale hnew hsale hopen hnow hnow

/-- So does what the local services write. -/
theorem DriftWritten.later {db db' : Drift.Db} (h : DriftWritten t db db') :
    (Books.ofDrift db).Later t (Books.ofDrift db') := by
  cases h with
  | sale hdate hsave =>
      obtain ⟨products, -, hnew, rfl, rfl⟩ := Drift.of_saveSale hsave
      exact .sale hnew hdate
  | void hnow hsale hopen => exact .void _ hsale hopen hnow
  | @note _ r x input now plan hnow hnote =>
      cases hsale : db.sales.get x with
      | none =>
          simp only [Drift.createReturn, hsale] at hnote
          cases hnote
      | some sale =>
          have hnew : db.returns.get r = none := by
            by_contra hsome
            have hsome : (db.returns.get r).isSome = true := Option.isSome_iff_ne_none.mpr hsome
            simp only [Drift.createReturn, hsale, hsome, if_true] at hnote
            split at hnote
            · cases hnote
            · split at hnote <;> cases hnote
          obtain ⟨hopen, -, rfl⟩ := Drift.of_createReturn hsale hnote
          exact .note (noteRow x sale input plan now) plan.voidsSale hnew hsale hopen hnow hnow

end

/-! ### The Gregorian calendar, seven hours ahead -/

/-- The days of a month, counted from January 1970. -/
def monthLength (m : Nat) : Nat :=
  let year := 1970 + m / 12
  match m % 12 with
  | 1              => if year % 4 = 0 ∧ (year % 100 ≠ 0 ∨ year % 400 = 0) then 29 else 28
  | 3 | 5 | 8 | 10 => 30
  | _              => 31

/-- The first day of a month. -/
def firstDay : Nat → Nat
  | 0     => 0
  | m + 1 => firstDay m + monthLength m

theorem monthLength_pos (m : Nat) : 0 < monthLength m := by
  simp only [monthLength]
  split
  · split <;> decide
  all_goals decide

theorem firstDay_strictMono : StrictMono firstDay :=
  strictMono_nat_of_lt_succ fun m => Nat.lt_add_of_pos_right (monthLength_pos m)

/-- Thailand, where every day has 86400 seconds. -/
def bangkok : Calendar where
  dateKey t := (t + 25200) / 86400
  monthKey day := Nat.findGreatest (fun m => firstDay m ≤ day) day
  midnight day := day * 86400 - 25200
  monthStart m := firstDay m * 86400 - 25200
  dateKey_midnight day := by omega
  monthStart_le m t := by
    have hself : ∀ m, m ≤ firstDay m := firstDay_strictMono.id_le
    have hday : firstDay m * 86400 - 25200 ≤ t ↔ firstDay m ≤ (t + 25200) / 86400 := by omega
    rw [hday]
    constructor
    · intro h
      exact Nat.le_findGreatest ((hself m).trans h) h
    · intro h
      have hspec : firstDay (Nat.findGreatest (fun m => firstDay m ≤ (t + 25200) / 86400)
          ((t + 25200) / 86400)) ≤ (t + 25200) / 86400 :=
        Nat.findGreatest_spec (P := fun m => firstDay m ≤ (t + 25200) / 86400) (Nat.zero_le _)
          (Nat.zero_le _)
      exact (firstDay_strictMono.monotone h).trans hspec

/-- **The report of a month.** -/
theorem sales_tax_report_stands (cal : Calendar) (month : Nat) (taxRate : ℚ) :
    (∀ sales notes returnedSaleIds report,
      cal.buildSalesTaxReport month taxRate sales notes returnedSaleIds = .ok report →
        report.Accounts cal (sales.map (cal.taxBill month returnedSaleIds)) notes) ∧
    (∀ sales notes returnedSaleIds,
      cal.buildSalesTaxReport month taxRate sales notes returnedSaleIds =
        cal.buildSalesTaxReport month taxRate (sales.filter fun s => cal.inMonth month s.2.date)
          (notes.filter fun r => cal.inMonth month r.date) returnedSaleIds) ∧
    (∀ (sales sales' : List (SaleId × SaleRow)) (notes notes' : List TaxNote) returnedSaleIds report
      report', sales.Perm sales' → notes.Perm notes' →
      cal.buildSalesTaxReport month taxRate sales notes returnedSaleIds = .ok report →
      cal.buildSalesTaxReport month taxRate sales' notes' returnedSaleIds = .ok report' →
        report.lines.Perm report'.lines ∧
          report.lines.map cal.lineKey = report'.lines.map cal.lineKey) ∧
    (∀ (books books' : Books) (numbers : ReturnId → List Char × List Char),
      Relation.ReflTransGen (fun b b' => b.Later (cal.monthStart (month + 1)) b') books books' →
        books'.salesTaxReport cal month taxRate numbers =
          books.salesTaxReport cal month taxRate numbers) ∧
    (∀ (db db' : AppDatabase), AppDatabase.Written (cal.monthStart (month + 1)) db db' →
      db.toDb.books.Later (cal.monthStart (month + 1)) db'.toDb.books) ∧
    ∀ (db db' : Drift.Db), DriftWritten (cal.monthStart (month + 1)) db db' →
      (Books.ofDrift db).Later (cal.monthStart (month + 1)) (Books.ofDrift db') :=
  ⟨fun _ _ _ _ => Calendar.accounts_of_build, fun _ _ _ => Calendar.build_filter,
    fun _ _ _ _ _ _ _ => Calendar.build_perm, fun _ _ numbers => Books.report_of_later taxRate numbers,
    fun _ _ h => h.later, fun _ _ h => h.later⟩

/-! ### Two tills on one day -/

/-- The first receipt of a till on 2 January 1970, voided that day or not. -/
def tillBill (deviceNo : Nat) (voidedAt : Option Nat) : SaleRow :=
  { threePiecesRow with
    receiptNo := .formatted ⟨.receipt, deviceNo, 251301, 1⟩, subtotal := 107, discount := 0, total := 107
    date := 86400, voided := voidedAt.isSome, voidedAt := voidedAt }

def firstBooks : Books := ⟨Table.empty.insert 1 (tillBill 1 none), Table.empty⟩

/-- The bill voided on 1 February. -/
def voidedBooks : Books := ⟨firstBooks.sales.modify 1 (SaleRow.void "wrong price" 2700000), Table.empty⟩

theorem sales_tax_report_stands_of_lateVoid :
    (∃ report, bangkok.buildSalesTaxReport 0 7 [(1, tillBill 1 none)] [] [] = .ok report ∧
      report.Accounts bangkok ([(1, tillBill 1 none)].map (bangkok.taxBill 0 [])) []) ∧
    voidedBooks.salesTaxReport bangkok 0 7 (fun _ => ([], [])) =
      firstBooks.salesTaxReport bangkok 0 7 fun _ => ([], []) := by
  refine ⟨⟨_, rfl, (sales_tax_report_stands bangkok 0 7).1 _ _ _ _ rfl⟩, ?_⟩
  refine (sales_tax_report_stands bangkok 0 7).2.2.2.1 firstBooks voidedBooks _ (.single ?_)
  exact .void "wrong price" rfl (.inl rfl) (by decide)

/-- Two voided bills of one day, each the only one of its till: their two lines stand in the order of the
bills. -/
theorem line_order_differs :
    bangkok.buildSalesTaxReport 0 7 [(1, tillBill 1 (some 90000)), (2, tillBill 2 (some 90000))] [] [] ≠
      bangkok.buildSalesTaxReport 0 7 [(2, tillBill 2 (some 90000)), (1, tillBill 1 (some 90000))] [] [] := by
  decide +kernel

end Cache

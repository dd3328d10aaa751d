import SrisurartPos.Till.DrawerCash

/-! # The sales figures of a period (`net_sales.dart`)

A sale counts by its own method and date, a refund by its method and its date. A bill that a credit
note voided still counts, and the note takes its refund off; a bill voided by hand does not. -/

namespace Cache

open Server Money

/-! ## The methods -/

/-- `_isTransfer` -/
def isTransfer (m : String) : Bool :=
  m = "โอน/QR" || m = "PromptPay" || m = "โอนเงิน" || m = "โอน"

def refundMethodText : RefundMethod → String
  | .cash             => "เงินสด"
  | .transfer         => "โอน"
  | .deductFromCredit => "หักจากเครดิต"
  | .other text       => text

/-- `_isCashRefund` -/
def isCashRefund (m : String) : Bool := m = "เงินสด"

/-- `_isQrRefund` -/
def isQrRefund (m : String) : Bool := isTransfer m

/-- `_isCreditRefund` -/
def isCreditRefund (m : String) : Bool := m = "หักจากเครดิต"

def cashSales (sales : List SaleLite) : List SaleLite :=
  sales.filter fun s => methodText s.paymentMethod = "เงินสด"

def qrSales (sales : List SaleLite) : List SaleLite :=
  sales.filter fun s => isTransfer (methodText s.paymentMethod)

def creditSales (sales : List SaleLite) : List SaleLite :=
  sales.filter fun s => methodText s.paymentMethod = "เครดิตช่าง"

/-! ## The figures -/

structure PaymentGroup where
  bills : Nat
  net : ℚ
  deriving DecidableEq

namespace PaymentGroup

instance : Add PaymentGroup := ⟨fun g g' => ⟨g.bills + g'.bills, g.net + g'.net⟩⟩

instance : Zero PaymentGroup := ⟨⟨0, 0⟩⟩

@[ext] theorem ext {g g' : PaymentGroup} (hbills : g.bills = g'.bills) (hnet : g.net = g'.net) :
    g = g' := by
  cases g
  cases g'
  simp_all

@[simp] theorem bills_add (g g' : PaymentGroup) : (g + g').bills = g.bills + g'.bills := rfl

@[simp] theorem net_add (g g' : PaymentGroup) : (g + g').net = g.net + g'.net := rfl

@[simp] theorem bills_zero : (0 : PaymentGroup).bills = 0 := rfl

@[simp] theorem net_zero : (0 : PaymentGroup).net = 0 := rfl

instance : AddCommMonoid PaymentGroup where
  add_assoc g g' g'' := ext (Nat.add_assoc ..) (add_assoc ..)
  zero_add g := ext (Nat.zero_add _) (zero_add _)
  add_zero g := ext (Nat.add_zero _) (add_zero _)
  add_comm g g' := ext (Nat.add_comm ..) (add_comm ..)
  nsmul := nsmulRec

end PaymentGroup

structure TopItem where
  name : String
  qty : Int
  revenue : ℚ
  partNo : String
  deriving DecidableEq

/-- Adds a line to the row of its part, which keeps its name. -/
def TopItem.add (t t' : TopItem) : TopItem :=
  { t with qty := t.qty + t'.qty, revenue := t.revenue + t'.revenue }

structure QrMoneyLine where
  id : SaleId ⊕ ReturnId
  accountId : Option AccountId
  amount : ℚ
  isRefund : Bool
  deriving DecidableEq

def qrMoneyLines (counted : List SaleLite) (returns : List ReturnLite) : List QrMoneyLine :=
  ((qrSales counted).map fun s => ⟨.inl s.id, s.paymentAccountId, s.total, false⟩) ++
    ((returns.filter fun r => isQrRefund (refundMethodText r.refundMethod)).map fun r =>
      ⟨.inr r.id, r.saleAccountId, -r.refundTotal, true⟩)

def sumTotal (l : List SaleLite) : ℚ := (l.map (·.total)).sum

def refunds (returns : List ReturnLite) (method : String → Bool) : ℚ :=
  ((returns.filter fun r => method (refundMethodText r.refundMethod)).map (·.refundTotal)).sum

def group (l : List SaleLite) (returns : List ReturnLite) (method : String → Bool) : PaymentGroup :=
  ⟨l.length, sumTotal l - refunds returns method⟩

/-- What one line adds to the row of its part. -/
def topLine (sign : Int) (i : ItemLite) : String × TopItem :=
  (i.partNo, ⟨i.name, sign * i.qty, sign * i.qty * i.price, i.partNo⟩)

/-- The rows by part number (`top`). -/
def topRows (counted : List SaleLite) (returns : List ReturnLite) : List (String × TopItem) :=
  Grouping.collapse Prod.fst (fun e e' => (e.1, e.2.add e'.2))
    ((counted.flatMap fun s => s.items.map (topLine 1)) ++
      returns.flatMap fun r => r.items.map (topLine (-1)))

/-- The rows by account (`byAccount`). -/
def byAccount (lines : List QrMoneyLine) : List (Option AccountId × PaymentGroup) :=
  Grouping.collapse Prod.fst (fun e e' => (e.1, e.2 + e'.2))
    (lines.map fun l => (l.accountId, ⟨if l.isRefund then 0 else 1, l.amount⟩))

structure NetSales where
  counted : List SaleLite
  netRevenue : ℚ
  cash : PaymentGroup
  qr : PaymentGroup
  credit : PaymentGroup
  qrByAccount : List (Option AccountId × PaymentGroup)
  qrLines : List QrMoneyLine
  topItems : List TopItem
  netItems : Int
  returns : List ReturnLite

/-- `NetSales.of` -/
def NetSales.of (sales : List SaleLite) (returns : List ReturnLite) : NetSales :=
  let counted := countedSales sales returns
  let qrLines := qrMoneyLines counted returns
  { counted := counted
    netRevenue := sumTotal counted - refunds returns fun _ => true
    cash := group (cashSales counted) returns isCashRefund
    qr := group (qrSales counted) returns isQrRefund
    credit := group (creditSales counted) returns isCreditRefund
    qrByAccount := byAccount qrLines
    qrLines := qrLines
    topItems := (((topRows counted returns).map Prod.snd).filter fun t => 0 < t.qty).mergeSort
      fun a b => b.revenue ≤ a.revenue
    netItems := (counted.map fun s => (s.items.map (·.qty)).sum).sum -
      (returns.map fun r => (r.items.map (·.qty)).sum).sum
    returns := returns }

namespace NetSales

def billCount (n : NetSales) : Nat := n.counted.length

def profit (n : NetSales) (taxRate : ℚ) : ℚ := (computeGrossProfit n.counted taxRate n.returns).profit

/-- The row of an account. -/
def account (n : NetSales) (a : Option AccountId) : PaymentGroup := (n.qrByAccount.lookup a).getD 0

/-- The row of a part: quantity and revenue. -/
def part (n : NetSales) (partNo : String) : Int × ℚ :=
  (((topRows n.counted n.returns).lookup partNo).map fun t => (t.qty, t.revenue)).getD 0

end NetSales

namespace Db

variable (db : Db) (products : List (ProductId × ProductRow)) (inPeriod : Nat → Bool)

/-- The bills with a credit note at the end of the period or later. -/
def laterReturned : Option Nat → List SaleId
  | none      => []
  | some asOf => (db.returnsIn fun d => asOf ≤ d).map (·.2.saleId)

end Db

/-! ## Sums over the bills and the notes -/

namespace NetSales

variable (sales : List SaleLite) (returns : List ReturnLite)

/-- What a line sells of a part. -/
def sold (partNo : String) (sign : Int) (items : List ItemLite) : Int × ℚ :=
  (items.map fun i => if i.partNo = partNo then (sign * i.qty, (sign * i.qty : ℚ) * i.price) else 0).sum

end NetSales

/-! ## The rows of one period add up -/

theorem sum_map_eq {α M : Type} [AddCommMonoid M] {l : List α} {f f' : α → M}
    (h : ∀ a ∈ l, f a = f' a) : (l.map f).sum = (l.map f').sum :=
  congrArg List.sum (List.map_congr_left h)

namespace Db

variable (db : Db) (products : List (ProductId × ProductRow)) (inPeriod : Nat → Bool)
  (asOf : Option Nat)

/-- A bill that counts in the period, read as it stood then. -/
def counts (e : SaleId × SaleRow) : Bool :=
  inPeriod e.2.date && (!(e.2.voided && !voidedAtOrAfter e.1 e.2 asOf (db.laterReturned asOf)) ||
    db.notedIn inPeriod e.1)

variable {db inPeriod}

variable {M : Type} [AddCommMonoid M]

end Db

/-! ## Two adjacent periods -/

/-- From `a` on, before `b`. -/
def within (a b : Nat) (d : Nat) : Bool := a ≤ d && d < b

/-- Every figure of `n` is the sum of those of `n₁` and `n₂`. -/
structure NetSales.IsSum (n n₁ n₂ : NetSales) : Prop where
  billCount : n.billCount = n₁.billCount + n₂.billCount
  netRevenue : n.netRevenue = n₁.netRevenue + n₂.netRevenue
  cash : n.cash = n₁.cash + n₂.cash
  qr : n.qr = n₁.qr + n₂.qr
  credit : n.credit = n₁.credit + n₂.credit
  account : ∀ a, n.account a = n₁.account a + n₂.account a
  part : ∀ partNo, n.part partNo = n₁.part partNo + n₂.part partNo
  netItems : n.netItems = n₁.netItems + n₂.netItems
  profit : ∀ taxRate, n.profit taxRate = n₁.profit taxRate + n₂.profit taxRate

section
variable {db : Db} {products : List (ProductId × ProductRow)} {a b c : Nat} {asOf asOf₁ asOf₂ : Option Nat}

end

end Cache

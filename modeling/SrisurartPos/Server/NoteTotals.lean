import SrisurartPos.Server.Accepted
import SrisurartPos.Server.CreditLimit
import SrisurartPos.Txn.Schedule

/-! # What a credit note does to the running totals

It takes its share of the bill off the totals of the bill's customer and mechanic, down to zero at
most, and touches no other row. The mechanic's discount is assigned, not subtracted: where his row
shows none, the old app's `total_credit` takes its place, and only there can a total rise. -/

namespace Server

open Txn

/-- A total that a share is taken off. -/
structure Lowered (before after share : Int) : Prop where
  le : 0 ≤ before → after ≤ before
  /-- no clamp -/
  exact : share ≤ before → after = before - share

/-- What a note for `money` takes off the rows of the bill. -/
structure NoteLowers (sale : Sale) (method : RefundMethod) (money : RefundAmounts) (s s' : Db) :
    Prop where
  customer : ∀ c row, sale.customerId = some c → s.customers.get c = some row →
    ∃ row', s'.customers.get c = some row' ∧
      Lowered row.points row'.points (pointsToReverse sale money) ∧
      Lowered row.totalSpend row'.totalSpend money.refundTotal
  mechanic : ∀ m row, sale.mechanicId = some m → s.mechanics.get m = some row →
    ∃ row', s'.mechanics.get m = some row' ∧
      Lowered row.totalSales row'.totalSales money.refundTotal ∧
      Lowered row.discountBase row'.totalDiscount (inProportion money (discountOf sale.mechanicDelta)) ∧
      Lowered row.totalMarkup row'.totalMarkup (inProportion money (markupOf sale.mechanicDelta)) ∧
      Lowered row.creditBalance row'.creditBalance
        (if method = .deductFromCredit then money.refundTotal else 0) ∧
      -- when the discount rises
      (0 ≤ row.totalDiscount → (row.totalDiscount < row'.totalDiscount ↔ row.totalDiscount = 0 ∧
        inProportion money (discountOf sale.mechanicDelta) < row.totalCredit))
  otherCustomer : ∀ c, sale.customerId ≠ some c → s'.customers.get c = s.customers.get c
  otherMechanic : ∀ m, sale.mechanicId ≠ some m → s'.mechanics.get m = s.mechanics.get m

section
variable {sale : Sale} {money : RefundAmounts} {before share : Int}

theorem Lowered.of_clamped (hshare : 0 ≤ share) :
    Lowered before (max 0 (before - share)) share := by
  constructor
  · intro h
    omega
  · intro h
    omega

/-! ## Shares -/

theorem discountOf_nonneg (delta : Option Int) : 0 ≤ discountOf delta := by
  rw [discountOf]
  split <;> omega

theorem markupOf_nonneg (delta : Option Int) : 0 ≤ markupOf delta := by
  rw [markupOf]
  split <;> omega

theorem inProportion_nonneg (hmoney : 0 ≤ money.refundTotal) {n : Int} (hn : 0 ≤ n) :
    0 ≤ inProportion money n := by
  rw [inProportion]
  split
  · rename_i hpos
    exact Rounding.roundDiv_nonneg hpos (mul_nonneg hn hmoney)
  · exact le_rfl

/-- A bill without a delta has no discount and no markup to take back. -/
@[simp] theorem inProportion_zero : inProportion money 0 = 0 := by
  rw [inProportion]
  split
  · rename_i hpos
    have h := Rounding.roundDiv_mul hpos 0
    rwa [zero_mul] at h ⊢
  · rfl

/-- A note takes back no negative points. -/
theorem pointsToReverse_nonneg (hmoney : 0 ≤ money.refundTotal) :
    0 ≤ pointsToReverse sale money := by
  rw [pointsToReverse]
  split
  · rename_i hpos
    apply Int.ediv_nonneg _ hpos.le
    apply mul_nonneg _ hmoney
    split
    · rename_i hgranted
      exact hgranted.le
    · exact Int.ediv_nonneg hpos.le (by decide)
  · exact le_rfl

/-! ## The rows -/

theorem get_updateCustomer (db : Db) (o : Option CustomerId) (f : Customer → Customer)
    (c : CustomerId) : (db.updateCustomer o f).customers.get c =
      if o = some c then (db.customers.get c).map f else db.customers.get c := by
  cases o with
  | none => rfl
  | some k =>
      show (db.customers.modify k f).get c = _
      rw [Table.get_modify]
      by_cases hk : c = k
      · rw [if_pos hk, if_pos (by rw [hk])]
      · rw [if_neg hk, if_neg fun h => hk (Option.some.inj h).symm]

/-- The discount is assigned from a base that is the total itself, unless that is nothing. -/
theorem discount_rises_iff {row : Mechanic} (hshare : 0 ≤ share) (hrow : 0 ≤ row.totalDiscount) :
    row.totalDiscount < max 0 (row.discountBase - share) ↔
      row.totalDiscount = 0 ∧ share < row.totalCredit := by
  rw [Mechanic.discountBase]
  split <;> omega

variable {actor : Actor} {r : ReturnId} {dto : ReturnWrite} {s s' : Db}

/-- What a credit note does to the totals of customer and mechanic is lower them. -/
theorem Changes.noteLowers (h : Changes s (.creditNote actor r dto) s')
    (hbill : s.sales.get dto.saleId = some sale) (hsense : sale.discount ≤ sale.subtotal) :
    NoteLowers sale dto.refundMethod (refundAmounts (aggregateReturn dto.items) sale) s s' := by
  cases h with
  | creditNote _ _ _ sale' note hparse hadm hnew =>
      obtain rfl := Option.some.inj (hbill.symm.trans hadm.bill)
      have hmethod : note.refundMethod = dto.refundMethod := by
        obtain ⟨n, k, rfl⟩ := hadm.stored
        rfl
      have hmoney := refundTotal_nonneg hparse hsense
      have hcredit : 0 ≤ inProportion (refundAmounts (aggregateReturn dto.items) sale)
          (discountOf sale.mechanicDelta) := inProportion_nonneg hmoney (discountOf_nonneg _)
      have hcustomers := get_updateCustomer s sale.customerId (Customer.move
        (-pointsToReverse sale (refundAmounts (aggregateReturn dto.items) sale))
        (-(refundAmounts (aggregateReturn dto.items) sale).refundTotal))
      have hmechanics := get_updateMechanic s sale.mechanicId fun m => m.refund sale note.refundMethod
        (refundAmounts (aggregateReturn dto.items) sale) m.discountBase
      constructor
      · intro c row hc hrow
        refine ⟨_, (hcustomers c).trans (by rw [if_pos hc, hrow, Option.map_some]), ?_, ?_⟩
        · exact .of_clamped (pointsToReverse_nonneg hmoney)
        · exact .of_clamped hmoney
      · intro m row hm hrow
        refine ⟨_, (hmechanics m).trans (by rw [if_pos hm, hrow, Option.map_some]), ?_, ?_, ?_, ?_, ?_⟩
        · exact .of_clamped hmoney
        · exact .of_clamped hcredit
        · exact .of_clamped (inProportion_nonneg hmoney (markupOf_nonneg _))
        · rw [← hmethod]
          refine .of_clamped ?_
          split
          · exact hmoney
          · exact le_rfl
        · exact discount_rises_iff hcredit
      · intro c hc
        exact (hcustomers c).trans (if_neg hc)
      · intro m hm
        exact (hmechanics m).trans (if_neg hm)

theorem Performs.noteLowers (h : Performs (.creditNote actor r dto) s s')
    (hbill : s.sales.get dto.saleId = some sale) (hsense : sale.discount ≤ sale.subtotal) :
    NoteLowers sale dto.refundMethod (refundAmounts (aggregateReturn dto.items) sale) s s' := by
  obtain ⟨t, desk, hch, rfl⟩ := h
  exact { hch.noteLowers hbill hsense with }

/-- The credit note an operation is to write. -/
def Op.note : Op → Option (Actor × ReturnId × ReturnWrite)
  | .post env actor _ _ (.creditNote dto)       => some (actor, dto.id.getD env.newUuid, dto)
  | .push env actor _ _ (.returnCreate dto _ _) => some (actor, dto.id.getD env.newUuid, dto)
  | _                                           => none

theorem Op.of_note {op : Op} (h : op.note = some (actor, r, dto)) :
    op.filing = some (.note r) ∧ ∀ e, op.Allows e → e = .creditNote actor r dto := by
  cases op with
  | post env actor' key requestHash req =>
      cases req <;> cases h
      exact ⟨rfl, fun e he => he⟩
  | push env actor' key requestHash op =>
      cases op <;> cases h
      exact ⟨rfl, fun e he => he⟩
  | reportUnsynced d n => cases h
  | cleanup now => cases h

/-- A note that is accepted is carried out, unless it was there or its key had the answer. -/
theorem Commit.note_lowers {T : Type} [DecidableEq T] {s₀ : Db} {S S' : System T} {t : T} {op : Op}
    {a : Reply} (h₀ : s₀.Consistent) (h : Reachable prog s₀ S) (hc : Commit t op a S S')
    (hop : op.note = some (actor, r, dto)) (hbill : S.db.sales.get dto.saleId = some sale)
    (hsense : sale.discount ≤ sale.subtotal) :
    NoteLowers sale dto.refundMethod (refundAmounts (aggregateReturn dto.items) sale) S.db S'.db ∨
      S'.db = S.db.withDesk S'.db.desk ∧
        (S.db.OnFile (.note r) ∨ S'.db.unflagged = S.db.unflagged) := by
  obtain ⟨hfiling, hallows⟩ := Op.of_note hop
  obtain ⟨e, hallow, hperf, hdone | hidle⟩ := Commit.carriedOut h₀ h hc hfiling
  · rcases hallow with rfl | hallow
    · cases hdone
    · obtain rfl := hallows e hallow
      exact .inl (hperf.noteLowers hbill hsense)
  · exact .inr hidle

/-- **A credit note takes its share off the totals**, whatever came before. In every run a note that is
accepted does so as it commits, unless it was on file or its key had the answer. -/
theorem credit_note_lowers {T : Type} [DecidableEq T] (hsense : sale.discount ≤ sale.subtotal) :
    (∀ s s', Performs (.creditNote actor r dto) s s' → s.sales.get dto.saleId = some sale →
      NoteLowers sale dto.refundMethod (refundAmounts (aggregateReturn dto.items) sale) s s') ∧
    ∀ (s₀ : Db) (S S' : System T) (t : T) (op : Op) (a : Reply), s₀.Consistent →
      Reachable prog s₀ S → Commit t op a S S' → op.note = some (actor, r, dto) →
        S.db.sales.get dto.saleId = some sale →
      NoteLowers sale dto.refundMethod (refundAmounts (aggregateReturn dto.items) sale) S.db S'.db ∨
        S'.db = S.db.withDesk S'.db.desk ∧
          (S.db.OnFile (.note r) ∨ S'.db.unflagged = S.db.unflagged) := by
  constructor
  · exact fun s s' h hbill => h.noteLowers hbill hsense
  · exact fun s₀ S S' t op a h₀ h hc hop hbill => Commit.note_lowers h₀ h hc hop hbill hsense

end

/-! ### A mechanic of the old app -/

/-- A bill of the old app's without a delta. -/
def legacyBill : Sale :=
  { receiptNo := .other "A-21", subtotal := 100, discount := 0, total := 100,
    paymentMethod := .qr, customerId := none, mechanicId := some 4, mechanicDelta := none,
    pointsGranted := 0, shiftId := none, soldOffline := false, paymentAccountId := none,
    voided := false, voidReason := none,
    items := [⟨1, 7, "brake pad", 1, 100, none, Int.zero_lt_one⟩] }

/-- Its mechanic has his discount in `total_credit` alone. -/
def legacyShop : Db :=
  { smallShop with
    mechanics := Table.empty.insert 4 ⟨0, 0, 100, 0, 0, 40, false⟩
    sales := Table.empty.insert 21 legacyBill }

def legacyNote : ReturnWrite :=
  ⟨some 31, 21, none, .transfer, [⟨7, "brake pad", 1, 100, none, Int.zero_lt_one⟩]⟩

/-- The note is about to commit while a second one for the same piece waits for the bill. -/
def legacyNotes : List (Turn Op Bool) :=
  [.begins true (.post (plainEnv 0 90) ⟨1⟩ 1 0 (.creditNote legacyNote)), .goes true 20,
   .begins false (.post (plainEnv 0 91) ⟨1⟩ 2 0 (.creditNote { legacyNote with id := some 32 })),
   .goes false 4, .goes true 17]

/-- It takes its share off the mechanic's other totals … -/
theorem credit_note_lowers_of_legacyNotes : ∃ (S S' : System Bool) (dto : ReturnWrite) (sale : Sale),
    Reachable prog legacyShop S ∧ Step prog S S' ∧ S.db.sales.get dto.saleId = some sale ∧
      NoteLowers sale dto.refundMethod (refundAmounts (aggregateReturn dto.items) sale) S.db S'.db := by
  have hrun : (((Sys.init legacyShop).follow prog legacyNotes).bind fun S =>
      (S.done true).bind fun d => (S.next true).map fun S' => (d.1.note.map fun note => note.2.2.saleId,
        (S.db.sales.get 21).any fun sale => sale.discount ≤ sale.subtotal,
        (S.db.mechanics.get 4).map (·.totalDiscount), (S'.db.mechanics.get 4).map (·.totalDiscount))) =
          some (some 21, true, some 0, some 40) := by
    decide +kernel
  obtain ⟨S, S', op, a, hreach, hc, hop, hlook⟩ := commit_of_turns
    (f := fun op : Op => op.note.map fun note => note.2.2.saleId)
    (g := fun db db' : Db => ((db.sales.get 21).any fun sale => sale.discount ≤ sale.subtotal,
      (db.mechanics.get 4).map (·.totalDiscount), (db'.mechanics.get 4).map (·.totalDiscount))) hrun
  obtain ⟨hbill, hbefore, hafter⟩ : _ ∧ _ ∧ _ := by simpa only [Prod.mk.injEq] using hlook
  obtain ⟨⟨actor, r, dto⟩, hnote, hsale⟩ := Option.map_eq_some_iff.mp hop
  obtain ⟨sale, hsold, hsense⟩ := (Option.any_eq_true ..).mp hbill
  have hbill : S.db.sales.get dto.saleId = some sale := by rw [hsale, hsold]
  have h₀ : legacyShop.Consistent := by
    intro mv hmv
    cases hmv
  refine ⟨S, S', dto, sale, hreach, hc.step, hbill, ?_⟩
  rcases (credit_note_lowers (of_decide_eq_true hsense)).2 legacyShop S S' true op a h₀ hreach hc hnote
    hbill with hlowers | ⟨hidle, -⟩
  · exact hlowers
  · -- his row has changed
    rw [hidle] at hafter
    have hsame : (S.db.mechanics.get 4).map (·.totalDiscount) = some 40 := hafter
    rw [hbefore] at hsame
    cases hsame

/-- … and takes his discount from nothing to 40. -/
theorem discount_rises : ∃ S : System Nat, Reachable prog legacyShop S ∧
    S.log.map Prod.fst = [.post (plainEnv 0 90) ⟨1⟩ 1 0 (.creditNote legacyNote)] ∧
    (legacyShop.mechanics.get 4).map (·.totalDiscount) = some 0 ∧
    (S.db.mechanics.get 4).map (·.totalDiscount) = some 40 := by
  obtain ⟨S, hreach, hdb, hlog⟩ : ∃ S : System Nat, Reachable prog legacyShop S ∧
      S.db = rowsAfter prog [.post (plainEnv 0 90) ⟨1⟩ 1 0 (.creditNote legacyNote)] legacyShop ∧
      S.log.map Prod.fst = [.post (plainEnv 0 90) ⟨1⟩ 1 0 (.creditNote legacyNote)] :=
    reachable_logged (by decide +kernel)
  refine ⟨S, hreach, hlog, rfl, ?_⟩
  rw [hdb]
  decide +kernel

end Server

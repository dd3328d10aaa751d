import SrisurartPos.Server.History
import Mathlib.Algebra.BigOperators.Group.List.Basic

/-! # The credit tab

What a mechanic owes is one column that four services write: a bill on credit puts its total on the
tab, a payment, a note refunded by deduction and a manual void take something off. Every one of them
writes `GREATEST(0, …)`, so the tab says what the documents say plus whatever a clamp has
swallowed. -/

namespace Server

open Txn

/-! ## What the documents say -/

/-- What a bill puts on the tab of `m`. -/
def Sale.tabOf (m : MechanicId) (sale : Sale) : Int :=
  if sale.mechanicId = some m then onTab sale.paymentMethod sale.total else 0

/-- What a payment takes off it. -/
def CreditPayment.tabOf (m : MechanicId) (p : CreditPayment) : Int :=
  if p.mechanicId = m then p.amount else 0

/-- What a note takes off it. -/
def Return.tabOf (m : MechanicId) (note : Return) : Int :=
  if note.mechanicId = some m ∧ note.refundMethod = .deductFromCredit then note.refundTotal else 0

/-- The move of the tab of `m` that a change from `s` to `s'` puts on record. -/
def Effect.recorded (m : MechanicId) (s s' : Db) : Effect → Int
  | .sale _ dto            => (s'.sales.get dto.id).elim 0 (Sale.tabOf m)
  | .creditPayment _ i _ _ => -(s'.creditPayments.get i).elim 0 (CreditPayment.tabOf m)
  | .creditNote _ r _      => -(s'.returns.get r).elim 0 (Return.tabOf m)
  | .voidSale _ x _        => -(s.sales.get x).elim 0 (Sale.tabOf m)
  | _                      => 0

def Db.tab (m : MechanicId) (db : Db) : Int := (db.mechanics.get m).elim 0 (·.creditBalance)

def Db.limit (m : MechanicId) (db : Db) : Int := (db.mechanics.get m).elim 0 (·.creditLimit)

def Committed.recorded (m : MechanicId) (c : Committed) : Int := c.effect.recorded m c.before c.after

/-- What the clamp keeps of a move that would take the tab below zero. -/
def Committed.swallowed (m : MechanicId) (c : Committed) : Int :=
  max 0 (-(c.before.tab m + c.recorded m))

/-- The changes whose move a clamp can meet. -/
inductive Effect.Clampable (m : MechanicId) : Effect → Prop where
  | note (actor : Actor) (r : ReturnId) (dto : ReturnWrite) :
      dto.refundMethod = .deductFromCredit → Clampable m (.creditNote actor r dto)
  | void (actor : Actor) (x : SaleId) (reason : String) : Clampable m (.voidSale actor x reason)
  | overpaid (actor : Actor) (i : PaymentId) (dto : CreateCreditPayment) :
      dto.allowOverpayment = true → Clampable m (.creditPayment actor i m dto)
  /-- only an imported quote can sell for less than nothing -/
  | negative (actor : Actor) (dto : SaleWrite) : dto.total < 0 → Clampable m (.sale actor dto)

/-! ## One step -/

/-- An update of a bill's mechanic touches that mechanic's row alone, where the bill has one. -/
theorem get_updateMechanic (db : Db) (o : Option MechanicId) (f : Mechanic → Mechanic)
    (m : MechanicId) : (db.updateMechanic o f).mechanics.get m =
      if o = some m then (db.mechanics.get m).map f else db.mechanics.get m := by
  cases o with
  | none => rfl
  | some k =>
      show (db.mechanics.modify k f).get m = _
      rw [Table.get_modify]
      by_cases hk : m = k
      · rw [if_pos hk, if_pos (by rw [hk])]
      · have hk' : (some k : Option MechanicId) ≠ some m := fun h => hk (Option.some.inj h).symm
        rw [if_neg hk, if_neg hk']

/-- The credit limit after a change. -/
def Effect.limitAfter (m : MechanicId) (limit : Int) : Effect → Int
  | .editMechanic k patch => if k = m then patch.creditLimit.getD limit else limit
  | _                     => limit

/-- What a change makes of one mechanic's row. -/
structure TabStep (m : MechanicId) (s s' : Db) (e : Effect) (row : Mechanic) : Prop where
  moved : ∃ row', s'.mechanics.get m = some row' ∧
    row'.creditBalance = max 0 (row.creditBalance + e.recorded m s s') ∧
      row'.creditLimit = e.limitAfter m row.creditLimit

section
variable {m : MechanicId} {s s' : Db} {e : Effect} {row : Mechanic}

theorem recorded_sale {actor : Actor} {dto : SaleWrite} {bill : Sale}
    (hnew : s.sales.get dto.id = none) : (Effect.sale actor dto).recorded m s
      (s.recordSale dto.id bill (saleMoves dto.items)) = bill.tabOf m := by
  have hbill : (s.recordSale dto.id bill (saleMoves dto.items)).sales.get dto.id = some bill :=
    Table.get_insert_self hnew bill
  simp only [Effect.recorded]
  rw [hbill, Option.elim_some]

theorem recorded_creditNote {actor : Actor} {r : ReturnId} {dto : ReturnWrite} {sale : Sale}
    {note : Return} (hnew : s.returns.get r = none) : (Effect.creditNote actor r dto).recorded m s
      ((s.recordReturn r note (aggregateReturn dto.items) sale).autoVoid dto.saleId sale.items) =
        -note.tabOf m := by
  have hnote : ((s.recordReturn r note (aggregateReturn dto.items) sale).autoVoid dto.saleId
      sale.items).returns.get r = some note := Table.get_insert_self hnew note
  simp only [Effect.recorded]
  rw [hnote, Option.elim_some]

theorem recorded_creditPayment {actor : Actor} {i : PaymentId} {k : MechanicId}
    {dto : CreateCreditPayment} {pay : CreditPayment} (hnew : s.creditPayments.get i = none) :
    (Effect.creditPayment actor i k dto).recorded m s (s.recordPayment i pay false) =
      -pay.tabOf m := by
  have hpay : (s.recordPayment i pay false).creditPayments.get i = some pay :=
    Table.get_insert_self hnew pay
  simp only [Effect.recorded]
  rw [hpay, Option.elim_some]

theorem recorded_voidSale {actor : Actor} {x : SaleId} {reason : String} {sale : Sale}
    (hx : s.sales.get x = some sale) :
    (Effect.voidSale actor x reason).recorded m s s' = -sale.tabOf m := by
  simp only [Effect.recorded]
  rw [hx, Option.elim_some]

theorem TabStep.of_same (hrow : s.mechanics.get m = some row) (hpos : 0 ≤ row.creditBalance)
    (hsame : s'.mechanics.get m = s.mechanics.get m) (hrec : e.recorded m s s' = 0)
    (hlimit : e.limitAfter m row.creditLimit = row.creditLimit) : TabStep m s s' e row := by
  refine ⟨row, hsame.trans hrow, ?_, hlimit.symm⟩
  rw [hrec]
  omega

/-- A document that names a mechanic changes his row and no other. -/
theorem TabStep.of_update {o : Option MechanicId} {f : Mechanic → Mechanic} {d : Int}
    (hrow : s.mechanics.get m = some row) (hpos : 0 ≤ row.creditBalance)
    (hupd : s'.mechanics.get m = if o = some m then (s.mechanics.get m).map f else s.mechanics.get m)
    (hf : ∀ v, (f v).creditBalance = max 0 (v.creditBalance + d) ∧ (f v).creditLimit = v.creditLimit)
    (hrec : e.recorded m s s' = if o = some m then d else 0)
    (hlimit : e.limitAfter m row.creditLimit = row.creditLimit) : TabStep m s s' e row := by
  by_cases ho : o = some m
  · rw [if_pos ho] at hupd hrec
    refine ⟨f row, by rw [hupd, hrow, Option.map_some], ?_, ?_⟩
    · rw [hrec]
      exact (hf row).1
    · rw [hlimit]
      exact (hf row).2
  · rw [if_neg ho] at hupd hrec
    exact .of_same hrow hpos hupd hrec hlimit

/-- **Every change moves a tab by what it records**, down to zero at most. -/
theorem Changes.tabStep (h : Changes s e s') (hrow : s.mechanics.get m = some row)
    (hpos : 0 ≤ row.creditBalance) : TabStep m s s' e row := by
  cases h with
  | none => exact .of_same hrow hpos rfl rfl rfl
  -- the mechanic of the bill, and what of the bill is on the tab
  | sale actor dto k bill hsrc hadm =>
      have hupd : (s.recordSale dto.id bill (saleMoves dto.items)).mechanics.get m = _ :=
        get_updateMechanic _ bill.mechanicId _ m
      apply TabStep.of_update hrow hpos hupd
      · intro v
        exact ⟨rfl, rfl⟩
      · rw [recorded_sale hadm.insertable.fresh]
        rfl
      · rfl
  -- only a note that is deducted from the credit lowers the tab
  | creditNote actor r dto sale note hparse hadm hnew =>
      have hupd : ((s.recordReturn r note (aggregateReturn dto.items) sale).autoVoid dto.saleId
          sale.items).mechanics.get m = _ := get_updateMechanic _ sale.mechanicId _ m
      apply TabStep.of_update (d := -(if note.refundMethod = .deductFromCredit then
        (refundAmounts (aggregateReturn dto.items) sale).refundTotal else 0)) hrow hpos hupd
      · intro v
        exact ⟨rfl, rfl⟩
      · obtain ⟨n, k, rfl⟩ := hadm.stored
        rw [recorded_creditNote hnew]
        simp only [Return.tabOf, noteRow]
        by_cases hm : sale.mechanicId = some m
        · simp only [hm, true_and, if_true]
          rfl
        · simp [hm]
      · rfl
  -- the void takes off what the bill had put on
  | voidSale actor x reason sale k hadm =>
      have hupd : (s.recordVoid x sale reason).mechanics.get m = _ :=
        get_updateMechanic _ sale.mechanicId _ m
      apply TabStep.of_update (d := -onTab sale.paymentMethod sale.total) hrow hpos hupd
      · intro v
        exact ⟨rfl, rfl⟩
      · rw [recorded_voidSale hadm.bill, Sale.tabOf]
        split <;> simp
      · rfl
  | creditPayment actor i k dto pay hparse hadm hnew =>
      have hupd : (s.recordPayment i pay false).mechanics.get m = _ :=
        get_updateMechanic _ (some pay.mechanicId) _ m
      apply TabStep.of_update (d := -pay.amount) hrow hpos hupd
      · intro v
        exact ⟨rfl, rfl⟩
      · rw [recorded_creditPayment hnew]
        simp only [CreditPayment.tabOf, Option.some.injEq]
        split <;> simp
      · rfl
  | adjustStock p input row' hparse hrow' hmax => exact .of_same hrow hpos rfl rfl rfl
  | receivePo lower i ids po states unmatched hpo hopen hids hstates =>
      exact .of_same hrow hpos rfl rfl rfl
  | openShift d next openedAt hnew =>
      rw [Db.archiveActive_eq]
      cases next <;> exact .of_same hrow hpos rfl rfl rfl
  | closeShift d k row' cash hrow' hopen => exact .of_same hrow hpos rfl rfl rfl
  | retire s₁ d hclosed => cases hclosed <;> exact .of_same hrow hpos rfl rfl rfl
  | entry d i entry k row' hrow' hopen hnew => exact .of_same hrow hpos rfl rfl rfl
  -- the limit may change, the balance does not
  | editMechanic k patch row' hrow' halive =>
      have hedit : (s.modifyMechanic k (Mechanic.edit patch)).mechanics.get m =
          if m = k then (s.mechanics.get m).map (Mechanic.edit patch) else s.mechanics.get m :=
        Table.get_modify _ _ _ _
      by_cases hk : m = k
      · subst hk
        obtain rfl : row = row' := Option.some.inj (hrow.symm.trans hrow')
        rw [if_pos rfl, hrow, Option.map_some] at hedit
        have hrec : (Effect.editMechanic m patch).recorded m s
            (s.modifyMechanic m (Mechanic.edit patch)) = 0 := rfl
        refine ⟨_, hedit, ?_, ?_⟩
        · rw [hrec]
          simp only [Mechanic.edit, halive, Bool.false_eq_true, if_false]
          omega
        · simp [Mechanic.edit, halive, Effect.limitAfter]
      · rw [if_neg hk] at hedit
        apply TabStep.of_same hrow hpos hedit rfl
        simp only [Effect.limitAfter, if_neg (Ne.symm hk)]
  | createCustomer c input code hnew => exact .of_same hrow hpos rfl rfl rfl
  | editCustomer c patch row' hrow' halive => exact .of_same hrow hpos rfl rfl rfl

/-- The desk holds neither mechanics nor documents. -/
theorem recorded_withDesk (m : MechanicId) (e : Effect) (s t : Db) (desk : Desk) :
    e.recorded m s (t.withDesk desk) = e.recorded m s t := by cases e <;> rfl

theorem Performs.tabStep (h : Performs e s s') (hrow : s.mechanics.get m = some row)
    (hpos : 0 ≤ row.creditBalance) : TabStep m s s' e row := by
  obtain ⟨t, desk, hch, rfl⟩ := h
  obtain ⟨row', hrow', hbal, hlimit⟩ := hch.tabStep hrow hpos
  exact ⟨row', hrow', by rw [recorded_withDesk, hbal], hlimit⟩

/-- A move below zero: one of the changes a clamp can meet. -/
theorem Changes.clampable (h : Changes s e s') (hrow : s.mechanics.get m = some row)
    (hpos : 0 ≤ row.creditBalance) (hneg : row.creditBalance + e.recorded m s s' < 0) :
    e.Clampable m := by
  cases h with
  | sale actor dto k bill hsrc hadm =>
      apply Effect.Clampable.negative
      rw [recorded_sale hadm.insertable.fresh] at hneg
      obtain ⟨n, account, locked, rfl⟩ := hadm.stored
      simp only [Sale.tabOf, saleRow, onTab] at hneg
      split_ifs at hneg <;> omega
  | creditNote actor r dto sale note hparse hadm hnew =>
      apply Effect.Clampable.note
      rw [recorded_creditNote hnew] at hneg
      obtain ⟨n, k, rfl⟩ := hadm.stored
      by_contra hmethod
      rw [Return.tabOf, if_neg fun h => hmethod h.2] at hneg
      omega
  | voidSale actor x reason sale k hadm => exact .void actor x reason
  | creditPayment actor i k dto pay hparse hadm hnew =>
      rw [recorded_creditPayment hnew] at hneg
      obtain ⟨n, j, rfl⟩ := hadm.stored
      simp only [CreditPayment.tabOf] at hneg
      split at hneg
      · rename_i hk
        subst hk
        -- the payment was more than the tab, so the guard let it through on the flag
        obtain ⟨row', hrow', hguard⟩ := hadm.mechanic
        obtain rfl : row = row' := Option.some.inj (hrow.symm.trans hrow')
        apply Effect.Clampable.overpaid
        rcases hguard with hle | hflag
        · omega
        · exact hflag
      · omega
  | _ =>
      simp only [Effect.recorded] at hneg
      omega

theorem Performs.clampable (h : Performs e s s') (hrow : s.mechanics.get m = some row)
    (hpos : 0 ≤ row.creditBalance) (hneg : row.creditBalance + e.recorded m s s' < 0) :
    e.Clampable m := by
  obtain ⟨t, desk, hch, rfl⟩ := h
  rw [recorded_withDesk] at hneg
  exact hch.clampable hrow hpos hneg

end

/-! ## Whole runs -/

/-- What is known of a tab from its history. -/
structure TabAccounts (m : MechanicId) (start : Int) (cs : List Committed) (db : Db) : Prop where
  /-- the tab is what is on record and what the clamps have swallowed -/
  balance : db.tab m = start + (cs.map (Committed.recorded m)).sum +
    (cs.map (Committed.swallowed m)).sum
  /-- every step moves the tab by what it records, or takes all that is left of it -/
  steps : ∀ c ∈ cs, c.after.tab m = max 0 (c.before.tab m + c.recorded m)
  /-- a clamp swallows the part of a note by deduction, of a void or of an overpayment that the tab
  does not hold -/
  clamps : ∀ c ∈ cs, c.swallowed m ≠ 0 →
    c.effect.Clampable m ∧ c.swallowed m = -c.recorded m - c.before.tab m

section
variable {T : Type} [DecidableEq T] {s₀ : Db} {m : MechanicId} {row : Mechanic}

/-- The row stays, and its tab is never negative. -/
private theorem tabAccounts_step {start : Int} {cs : List Committed} {c : Committed}
    (hrow : ∃ row, c.before.mechanics.get m = some row ∧ 0 ≤ row.creditBalance)
    (h : TabAccounts m start cs c.before) :
    (∃ row, c.after.mechanics.get m = some row ∧ 0 ≤ row.creditBalance) ∧
      TabAccounts m start (cs ++ [c]) c.after := by
  obtain ⟨row, hrow, hpos⟩ := hrow
  obtain ⟨row', hrow', hbal, -⟩ := c.performs.tabStep hrow hpos
  have hbefore : c.before.tab m = row.creditBalance := by rw [Db.tab, hrow, Option.elim_some]
  have hafter : c.after.tab m = row'.creditBalance := by rw [Db.tab, hrow', Option.elim_some]
  have hstep : c.after.tab m = max 0 (c.before.tab m + c.recorded m) := by
    rw [hafter, hbefore, hbal]
    rfl
  refine ⟨⟨row', hrow', by omega⟩, ?_, ?_, ?_⟩
  · have hold := h.balance
    simp only [List.map_append, List.map_cons, List.map_nil, List.sum_append, List.sum_singleton]
    rw [hstep, Committed.swallowed]
    omega
  · intro d hd
    rcases List.mem_append.mp hd with hd | hd
    · exact h.steps d hd
    · obtain rfl := List.mem_singleton.mp hd
      exact hstep
  · intro d hd hne
    rcases List.mem_append.mp hd with hd | hd
    · exact h.clamps d hd hne
    · obtain rfl := List.mem_singleton.mp hd
      have hdown : d.before.tab m + d.recorded m < 0 := by
        unfold Committed.swallowed at hne
        omega
      refine ⟨?_, ?_⟩
      · apply d.performs.clampable hrow hpos
        rw [← hbefore]
        exact hdown
      · unfold Committed.swallowed
        omega

/-- **The credit tab accounts for every satang**, those the clamps have swallowed included. -/
theorem credit_tab_accounts (h₀ : s₀.Consistent) (hrow : s₀.mechanics.get m = some row)
    (hpos : 0 ≤ row.creditBalance) {cs : List Committed} {S : System T} (h : Traced s₀ cs S) :
    TabAccounts m row.creditBalance cs S.db := by
  have hstart : TabAccounts m row.creditBalance [] s₀ := by
    refine ⟨?_, by simp, by simp⟩
    simp [Db.tab, hrow]
  have hboth := h.invariant (fun cs db => (∃ row, db.mechanics.get m = some row ∧
    0 ≤ row.creditBalance) ∧ TabAccounts m row.creditBalance cs db) h₀ ⟨⟨row, hrow, hpos⟩, hstart⟩
    fun cs c _ hJ => tabAccounts_step hJ.1 hJ.2
  exact hboth.2

/-- Two pieces on credit, paid in full, and then one of them refunded by deduction from the tab. -/
def paidDay : List Op :=
  [.post (plainEnv 0 90) ⟨1⟩ 1 0 (.sale { cashBill 21 2 Nat.two_pos with
      paymentMethod := .mechanicCredit
      mechanicId := some 4 } none),
   .post (plainEnv 1 91) ⟨1⟩ 2 0 (.creditPayment 4 ⟨some 41, 200, .cash, false⟩),
   .post (plainEnv 2 92) ⟨1⟩ 3 0 (.creditNote
     ⟨some 31, 21, none, .deductFromCredit, [⟨7, "brake pad", 1, 100, none, Int.zero_lt_one⟩]⟩)]

theorem credit_tab_accounts_of_paidDay : ∃ (cs : List Committed) (S : System Nat),
    Traced smallShop cs S ∧ (S.db.returns.get 31).isSome = true ∧ TabAccounts 4 0 cs S.db := by
  obtain ⟨S, hreach, hdb⟩ : ∃ S : System Nat, Reachable prog smallShop S ∧
      S.db = rowsAfter prog paidDay smallShop := reachable_rowsAfter (by decide +kernel)
  obtain ⟨cs, htr⟩ := Reachable.traced smallShop_consistent hreach
  refine ⟨cs, S, htr, ?_, ?_⟩
  · rw [hdb]
    decide +kernel
  · have hrow : smallShop.mechanics.get 4 = some ⟨100000, 0, 0, 0, 0, 0, false⟩ := rfl
    exact credit_tab_accounts smallShop_consistent hrow (le_refl _) htr

/-- The clamp swallows the refund: on record are a bill of 200, a payment of 200 and a refund of 100
satang, and the tab of 0 it started from stands at 0 again. -/
theorem clamp_swallows_a_refund : ∃ S : System Nat, Reachable prog smallShop S ∧
    smallShop.tab 4 = 0 ∧ S.db.tab 4 = 0 ∧
    S.db.sales.total (fun _ sale => sale.tabOf 4) = 200 ∧
    (S.db.sales.get 21).map (·.voided) = some false ∧
    S.db.creditPayments.total (fun _ p => p.tabOf 4) = 200 ∧
    S.db.returns.total (fun _ note => note.tabOf 4) = 100 := by
  obtain ⟨S, hreach, hdb⟩ : ∃ S : System Nat, Reachable prog smallShop S ∧
      S.db = rowsAfter prog paidDay smallShop := reachable_rowsAfter (by decide +kernel)
  refine ⟨S, hreach, ?_⟩
  rw [hdb]
  decide +kernel

end

end Server

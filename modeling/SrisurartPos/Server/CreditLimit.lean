import SrisurartPos.Server.CreditTab
import SrisurartPos.Server.RefundMoney

/-! # The credit limit

The limit is checked on the row that is then written, under one lock. So a tab goes past the limit in
two ways only: it was past it when the run began, or a bill took it there on the flag and left its
row in the audit log. -/

namespace Server

open Txn

/-! ## Bills without surprises -/

/-- A bill is worth something or nothing, and so is what is left of it without its discount. The parser
checks this; a bill that was imported, or that is sold from an imported quote, need not be so. -/
def Worthwhile (subtotal discount total : Int) : Prop := discount ≤ subtotal ∧ 0 ≤ total

/-- Every bill of the mechanic on file makes sense. -/
def Db.SensibleFor (m : MechanicId) (db : Db) : Prop :=
  ∀ x sale, db.sales.get x = some sale → sale.mechanicId = some m →
    Worthwhile sale.subtotal sale.discount sale.total

/-- A bill of the mechanic that is written makes sense. -/
def Effect.SensibleFor (m : MechanicId) : Effect → Prop
  | .sale _ dto => dto.mechanicId = some m → Worthwhile dto.subtotal dto.discount dto.total
  | _           => True

/-- A bill of the mechanic does not carry the flag. -/
def Effect.NoOverride (m : MechanicId) : Effect → Prop
  | .sale _ dto => dto.mechanicId = some m → dto.overrideCreditLimit = false
  | _           => True

section
variable {m : MechanicId} {s s' : Db} {e : Effect} {mech : Mechanic}

theorem tabOf_saleRow (dto : SaleWrite) (n : DocNo) (k : ShiftId) (account : Option AccountId)
    (locked : List (ProductId × Product)) : (saleRow dto n k account locked).tabOf m =
      if dto.mechanicId = some m then onTab dto.paymentMethod dto.total else 0 := rfl

/-- A bill whose body passed the parser makes sense. -/
theorem worthwhile_of_parsed {dto : SaleWrite}
    (h : parseCreateSale { dto with paymentAccountId := none } = .ok ()) :
    Worthwhile dto.subtotal dto.discount dto.total := by
  have hrow : (saleRow dto (.other "") 0 none []).MakesSense := makesSense_saleRow h
  exact ⟨hrow.subtotal, hrow.total⟩

/-- The lines of a note are worth something, or nothing. -/
theorem refundSubtotal_nonneg {dto : ReturnWrite} (h : parseCreateReturn dto = .ok ()) :
    0 ≤ refundSubtotalOf (aggregateReturn dto.items) := by
  obtain ⟨-, h⟩ := of_seq h
  obtain ⟨-, hlines⟩ := of_check h
  have hsum := sum_aggregateReturn dto.items fun _ price => price
  have hvalue : refundSubtotalOf (aggregateReturn dto.items) =
      (dto.items.map fun l => l.price * l.qty).sum := by
    rw [← hsum, refundSubtotalOf]
    simp only [mul_comm]
  rw [hvalue]
  apply List.sum_nonneg
  intro v hv
  obtain ⟨l, hl, rfl⟩ := List.mem_map.mp hv
  obtain ⟨-, hprice⟩ := of_check (of_forM hlines l hl)
  exact mul_nonneg (of_check hprice).1 l.qty_pos.le

/-- A note against a bill that makes sense gives money back, it does not take any. -/
theorem refundTotal_nonneg {dto : ReturnWrite} {sale : Sale} (h : parseCreateReturn dto = .ok ())
    (hsense : sale.discount ≤ sale.subtotal) :
    0 ≤ (refundAmounts (aggregateReturn dto.items) sale).refundTotal := by
  have hvalue := refundSubtotal_nonneg h
  show 0 ≤ refundSubtotalOf (aggregateReturn dto.items) - if sale.subtotal > 0 then
    Rounding.roundDiv (refundSubtotalOf (aggregateReturn dto.items) * sale.discount) sale.subtotal
      else 0
  split
  · rename_i hpos
    have hle := Rounding.roundDiv_le_of_le hpos
      (mul_le_mul_of_nonneg_left hsense hvalue)
    omega
  · omega

/-! ## One step -/

/-- **A change that does not carry the flag takes no tab past the limit.** -/
theorem Changes.within_limit (h : Changes s e s') (hrow : s.mechanics.get m = some mech)
    (hsense : s.SensibleFor m) (hno : e.NoOverride m) :
    e.recorded m s s' ≤ 0 ∨ mech.creditBalance + e.recorded m s s' ≤ mech.creditLimit := by
  cases h with
  -- a bill on credit without the flag has passed the check against this row
  | sale actor dto k bill hsrc hadm =>
      rw [recorded_sale hadm.insertable.fresh]
      obtain ⟨n, account, locked, rfl⟩ := hadm.stored
      rw [tabOf_saleRow]
      by_cases hm : dto.mechanicId = some m
      · obtain ⟨override, hlimit⟩ := hadm.limit
        rw [hm, Option.bind_some, hrow] at hlimit
        unfold checkLimit at hlimit
        dsimp only at hlimit
        rw [if_pos hm]
        unfold onTab
        split
        · rename_i hcredit
          right
          by_contra hpast
          have hnot : ¬(dto.paymentMethod ≠ .mechanicCredit ∨
              mech.creditBalance + dto.total ≤ mech.creditLimit) := by
            rintro (hother | hle)
            · exact hother hcredit
            · exact hpast hle
          rw [if_neg hnot, hno hm, if_neg Bool.false_ne_true] at hlimit
          cases hlimit
        · exact .inl (le_refl 0)
      · rw [if_neg hm]
        exact .inl (le_refl 0)
  -- all else only lowers the tab
  | creditNote actor r dto sale note hparse hadm hnew =>
      left
      rw [recorded_creditNote hnew]
      obtain ⟨n, k, rfl⟩ := hadm.stored
      unfold Return.tabOf
      split
      · rename_i hm
        have hback := refundTotal_nonneg hparse (hsense _ _ hadm.bill hm.1).1
        show -(refundAmounts (aggregateReturn dto.items) sale).refundTotal ≤ 0
        omega
      · omega
  | voidSale actor x reason sale k hadm =>
      left
      rw [recorded_voidSale hadm.bill]
      unfold Sale.tabOf onTab
      split
      · rename_i hm
        have := (hsense _ _ hadm.bill hm).2
        split <;> omega
      · omega
  | creditPayment actor i k dto pay hparse hadm hnew =>
      left
      rw [recorded_creditPayment hnew]
      obtain ⟨n, j, rfl⟩ := hadm.stored
      have hamount := (of_check hparse).1
      unfold CreditPayment.tabOf
      split
      · show -dto.amountSatang ≤ 0
        omega
      · omega
  | _ => exact .inl (le_refl _)

theorem Performs.within_limit (h : Performs e s s') (hrow : s.mechanics.get m = some mech)
    (hsense : s.SensibleFor m) (hno : e.NoOverride m) :
    e.recorded m s s' ≤ 0 ∨ mech.creditBalance + e.recorded m s s' ≤ mech.creditLimit := by
  obtain ⟨t, desk, hch, rfl⟩ := h
  rw [recorded_withDesk]
  exact hch.within_limit hrow hsense hno

/-- Neither a void nor a note touches the figures of a bill. -/
theorem Performs.sensible (h : Performs e s s') (hsense : s.SensibleFor m) (he : e.SensibleFor m) :
    s'.SensibleFor m := by
  intro x v hv hm
  cases h.billStep x with
  | other e hne hsale hnotes => exact hsense x v (hsale ▸ hv) hm
  | sold actor dto row hid hnone hrow hsale hnotes =>
      obtain ⟨n, k, account, locked, rfl⟩ := hrow
      obtain rfl := Option.some.inj (hsale.symm.trans hv)
      exact he hm
  | byHand actor reason sale hx hlive hno hsale hnotes hstock =>
      obtain rfl := Option.some.inj (hsale.symm.trans hv)
      exact hsense x sale hx hm
  | refunded actor r dto sale n k hid hx hlive hok hnotes hsale hstock =>
      obtain rfl := Option.some.inj (hsale.symm.trans hv)
      exact hsense x sale hx hm

/-- A bill on credit that leaves the tab past the limit was let through on the flag. -/
theorem Changes.past_limit {actor : Actor} {dto : SaleWrite} (h : Changes s (.sale actor dto) s')
    (hrow : s.mechanics.get m = some mech) (hpos : 0 ≤ mech.creditBalance)
    (hm : dto.mechanicId = some m) (hcredit : dto.paymentMethod = .mechanicCredit)
    (htotal : 0 ≤ dto.total) (hpast : s'.limit m < s'.tab m) :
    NewPastLimit dto.id s s' ∧ dto.overrideCreditLimit = true := by
  obtain ⟨mech', hmech', hbal, hlimit⟩ := h.tabStep hrow hpos
  cases h with
  | sale _ _ k bill hsrc hadm =>
      obtain ⟨n, account, locked, rfl⟩ := hadm.stored
      obtain ⟨override, hcheck⟩ := hadm.limit
      have hrec : (saleRow dto n k account locked).tabOf m = dto.total := by
        rw [tabOf_saleRow, if_pos hm, onTab, if_pos hcredit]
      rw [recorded_sale hadm.insertable.fresh, hrec] at hbal
      have hover : (saleRow dto n k account locked).pastLimit s = true := by
        unfold Sale.pastLimit
        show (dto.mechanicId.bind s.mechanics.get).any _ = true
        rw [hm, Option.bind_some, hrow, Option.any_some, decide_eq_true_eq]
        refine ⟨hcredit, ?_⟩
        rw [Db.limit, Db.tab, hmech', Option.elim_some, Option.elim_some, hbal, hlimit] at hpast
        show mech.creditLimit < mech.creditBalance + dto.total
        have hsame : (Effect.sale actor dto).limitAfter m mech.creditLimit = mech.creditLimit := rfl
        omega
      refine ⟨⟨hadm.insertable.fresh, ?_⟩, (of_checkLimit hcheck).2 hover⟩
      have hbill : (s.recordSale dto.id (saleRow dto n k account locked)
          (saleMoves dto.items)).sales.get dto.id = some (saleRow dto n k account locked) :=
        Table.get_insert_self hadm.insertable.fresh _
      rw [hbill, Option.any_some]
      exact hover

theorem Performs.past_limit {actor : Actor} {dto : SaleWrite} (h : Performs (.sale actor dto) s s')
    (hrow : s.mechanics.get m = some mech) (hpos : 0 ≤ mech.creditBalance)
    (hm : dto.mechanicId = some m) (hcredit : dto.paymentMethod = .mechanicCredit)
    (htotal : 0 ≤ dto.total) (hpast : s'.limit m < s'.tab m) :
    NewPastLimit dto.id s s' ∧ dto.overrideCreditLimit = true := by
  obtain ⟨t, desk, hch, rfl⟩ := h
  exact hch.past_limit hrow hpos hm hcredit htotal hpast

end

/-! ## Whole runs -/

/-- A bill past the limit is noted when it is written, which happens once. -/
structure OverridesNoted (s₀ : Db) (x : SaleId) (cs : List Committed) (db : Db) : Prop where
  rows : db.overrideRows x =
    s₀.overrideRows x + cs.countP fun c => NewPastLimit x c.before c.after
  once : (cs.countP fun c => NewPastLimit x c.before c.after) ≤
    if (db.sales.get x).isSome then 1 else 0

/-- A commit notes a bill past the limit once. -/
theorem OverridesNoted.step {s₀ : Db} {x : SaleId} {cs : List Committed} {c : Committed}
    (h : OverridesNoted s₀ x cs c.before) (hnoted : Noted c.before c.after) :
    OverridesNoted s₀ x (cs ++ [c]) c.after := by
  have hrows := hnoted x
  have hold := h.rows
  have honce := h.once
  by_cases hnew : NewPastLimit x c.before c.after
  · have hsome : (c.after.sales.get x).isSome = true := by
      have hpast := hnew.2
      cases hv : c.after.sales.get x with
      | none =>
          rw [hv] at hpast
          cases hpast
      | some v => rfl
    rw [hnew.1] at honce
    simp only [Option.isSome_none, Bool.false_eq_true, if_false] at honce
    rw [if_pos hnew] at hrows
    constructor
    · rw [List.countP_append, List.countP_singleton, if_pos (decide_eq_true hnew)]
      omega
    · rw [List.countP_append, List.countP_singleton, if_pos (decide_eq_true hnew), if_pos hsome]
      omega
  · have hstay := c.performs.kept.sale x
    rw [if_neg hnew] at hrows
    constructor
    · rw [List.countP_append, List.countP_singleton, if_neg (by simpa using hnew)]
      omega
    · rw [List.countP_append, List.countP_singleton, if_neg (by simpa using hnew)]
      split
      · split at honce <;> omega
      · rename_i hnone
        rw [if_neg fun hb => hnone (hstay hb)] at honce
        omega

/-- A mechanic in a run: his row, and the bills on file for him. -/
structure LimitState (m : MechanicId) (start : Int) (cs : List Committed) (db : Db) : Prop where
  row : ∃ mech, db.mechanics.get m = some mech ∧ 0 ≤ mech.creditBalance
  rows : ∀ c ∈ cs, ∃ mech, c.before.mechanics.get m = some mech ∧ 0 ≤ mech.creditBalance
  bills : (∀ c ∈ cs, c.effect.SensibleFor m) → db.SensibleFor m
  within : (∀ c ∈ cs, c.effect.SensibleFor m) →
    (∀ c ∈ cs, c.effect.NoOverride m ∧ c.before.limit m ≤ c.after.limit m) →
      db.tab m ≤ max (db.limit m) start

/-- A commit keeps the tab within the limit, as long as nothing overrides or lowers it. -/
theorem LimitState.step {m : MechanicId} {start : Int} {cs : List Committed} {c : Committed}
    (h : LimitState m start cs c.before) : LimitState m start (cs ++ [c]) c.after := by
  obtain ⟨mech, hrow, hpos⟩ := h.row
  obtain ⟨mech', hrow', hbal, hlimit⟩ := c.performs.tabStep hrow hpos
  have hbefore : ∀ {P : Committed → Prop}, (∀ d ∈ cs ++ [c], P d) → (∀ d ∈ cs, P d) ∧ P c := by
    intro P hall
    exact ⟨fun d hd => hall d (List.mem_append_left _ hd), hall c (by simp)⟩
  refine ⟨⟨mech', hrow', by omega⟩, ?_, ?_, ?_⟩
  · intro d hd
    rcases List.mem_append.mp hd with hd | hd
    · exact h.rows d hd
    · obtain rfl := List.mem_singleton.mp hd
      exact ⟨mech, hrow, hpos⟩
  · intro hsense
    obtain ⟨hold, hc⟩ := hbefore hsense
    exact c.performs.sensible (h.bills hold) hc
  · intro hsense hno
    obtain ⟨hold, -⟩ := hbefore hsense
    obtain ⟨hnoOld, hflag, hraised⟩ := hbefore hno
    have hstart := h.within hold hnoOld
    have hmove := c.performs.within_limit hrow (h.bills hold) hflag
    rw [Db.tab, Db.limit, hrow, Option.elim_some, Option.elim_some] at hstart
    rw [Db.limit, Db.limit, hrow, hrow', Option.elim_some, Option.elim_some] at hraised
    rw [Db.tab, Db.limit, hrow', Option.elim_some, Option.elim_some, hbal]
    -- the move took something off the tab, or it was checked against the limit
    rcases hmove with hdown | hchecked
    · omega
    · omega

/-- What is known of the credit of `m` from its history. -/
structure LimitKept (m : MechanicId) (start : Int) (s₀ : Db) (cs : List Committed) (db : Db) :
    Prop where
  /-- without the flag no tab passes the limit, unless it began past it -/
  within : (∀ c ∈ cs, c.effect.NoOverride m ∧ c.before.limit m ≤ c.after.limit m) →
    db.tab m ≤ max (db.limit m) start
  /-- a bill on credit that left the tab past the limit carries the flag, and one audit row -/
  overridden : ∀ c ∈ cs, ∀ actor dto, c.effect = .sale actor dto → dto.mechanicId = some m →
    dto.paymentMethod = .mechanicCredit → c.after.limit m < c.after.tab m →
      dto.overrideCreditLimit = true ∧ db.overrideRows dto.id = s₀.overrideRows dto.id + 1

section
variable {T : Type} [DecidableEq T] {s₀ : Db} {m : MechanicId} {row : Mechanic} {S : System T}
  {cs : List Committed}

theorem Traced.overridesNoted (h₀ : s₀.Consistent) (h : Traced s₀ cs S) (x : SaleId) :
    OverridesNoted s₀ x cs S.db := by
  have hall := h.invariant (fun cs db => (∀ c ∈ cs, Noted c.before c.after) →
    OverridesNoted s₀ x cs db) h₀ (fun _ => ⟨by simp, by simp⟩) ?_
  · exact hall fun c hc => (h.does h₀ c hc).noted
  · intro cs c _ ih hnoted
    have hold := ih fun d hd => hnoted d (List.mem_append_left _ hd)
    exact hold.step (hnoted c (by simp))

/-- **Credit limits are kept**, where the bills on file and those that are written make sense. -/
theorem credit_limit_kept (h₀ : s₀.Consistent) (hrow : s₀.mechanics.get m = some row)
    (hpos : 0 ≤ row.creditBalance) (hbills : s₀.SensibleFor m) (h : Traced s₀ cs S)
    (hsense : ∀ c ∈ cs, c.effect.SensibleFor m) :
    LimitKept m row.creditBalance s₀ cs S.db := by
  have hstart : LimitState m row.creditBalance [] s₀ := by
    refine ⟨⟨row, hrow, hpos⟩, by simp, fun _ => hbills, fun _ _ => ?_⟩
    rw [Db.tab, hrow, Option.elim_some]
    exact le_max_right _ _
  have hstate : LimitState m row.creditBalance cs S.db :=
    h.invariant (LimitState m row.creditBalance) h₀ hstart fun _ _ _ ih => ih.step
  refine ⟨hstate.within hsense, ?_⟩
  intro c hc actor dto heffect hm hcredit hpast
  obtain ⟨mech, hmech, hbal⟩ := hstate.rows c hc
  have hperf := c.performs
  have hdto := hsense c hc
  rw [heffect] at hperf hdto
  have hworth : Worthwhile dto.subtotal dto.discount dto.total := hdto hm
  obtain ⟨hnew, hflag⟩ := hperf.past_limit hmech hbal hm hcredit hworth.2 hpast
  have hnoted := h.overridesNoted h₀ dto.id
  have hcount : 0 < cs.countP fun c => NewPastLimit dto.id c.before c.after :=
    List.countP_pos_iff.mpr ⟨c, hc, decide_eq_true hnew⟩
  have hrows := hnoted.rows
  have honce := hnoted.once
  refine ⟨hflag, ?_⟩
  split at honce <;> omega

/-- A mechanic may owe 100 satang. -/
def tightShop : Db :=
  { smallShop with mechanics := Table.empty.insert 4 ⟨100, 0, 0, 0, 0, 0, false⟩ }

theorem tightShop_consistent : tightShop.Consistent := by
  intro mv hmv
  cases hmv

/-- A bill of the mechanic on credit, past his limit, and then one he pays in cash. -/
def creditThenCash : List Op :=
  [.post (plainEnv 0 90) ⟨1⟩ 1 0 (.sale { cashBill 21 2 Nat.two_pos with
      paymentMethod := .mechanicCredit
      mechanicId := some 4
      overrideCreditLimit := true } none),
   .post (plainEnv 1 91) ⟨1⟩ 2 0 (.sale { cashBill 22 1 Nat.one_pos with
      mechanicId := some 4 } none)]

/-- Both bills make sense: they would not have passed the parser otherwise. -/
theorem sensible_creditThenCash {op : Op} (hop : op ∈ creditThenCash) {e : Effect}
    (he : e = .none ∨ op.Allows e) : e.SensibleFor 4 := by
  have hparsed : ∀ dto : SaleWrite, parseCreateSale { dto with paymentAccountId := none } = .ok () →
      ∀ actor, (Effect.sale actor dto).SensibleFor 4 :=
    fun dto hdto actor _ => worthwhile_of_parsed hdto
  rcases he with rfl | he
  · trivial
  · rcases List.mem_cons.mp hop with rfl | hop
    · obtain rfl := he
      exact hparsed _ rfl _
    · obtain rfl := List.mem_singleton.mp hop
      obtain rfl := he
      exact hparsed _ rfl _

/-- A credit bill past the limit is noted, a cash bill after it is not. -/
theorem credit_limit_kept_of_creditThenCash : ∃ (cs : List Committed) (S : System Nat),
    Traced tightShop cs S ∧ S.db.overrideRows 21 = 1 ∧ LimitKept 4 0 tightShop cs S.db := by
  obtain ⟨S, hreach, hdb, hlog⟩ : ∃ S : System Nat, Reachable prog tightShop S ∧
      S.db = rowsAfter prog creditThenCash tightShop ∧ S.log.map Prod.fst = creditThenCash :=
    reachable_logged (by decide +kernel)
  obtain ⟨cs, htr⟩ := Reachable.traced tightShop_consistent hreach
  refine ⟨cs, S, htr, ?_, ?_⟩
  · rw [hdb]
    decide +kernel
  · have hrow : tightShop.mechanics.get 4 = some ⟨100, 0, 0, 0, 0, 0, false⟩ := rfl
    have hbills : tightShop.SensibleFor 4 := by
      intro x sale hx
      cases hx
    apply credit_limit_kept tightShop_consistent hrow (le_refl _) hbills htr
    intro c hc
    apply sensible_creditThenCash _ c.allowed
    rw [← hlog, ← htr.ops]
    exact List.mem_map_of_mem hc

/-- A bill that was imported with more discount than there is to discount. -/
def overDiscountedShop : Db :=
  { tightShop with
    sales := Table.empty.insert 21
      { receiptNo := .other "A-21", subtotal := 100, discount := 300, total := 0,
        paymentMethod := .mechanicCredit, customerId := none, mechanicId := some 4,
        mechanicDelta := none, pointsGranted := 0, shiftId := none, soldOffline := false,
        paymentAccountId := none, voided := false, voidReason := none,
        items := [⟨1, 7, "brake pad", 1, 100, none, Int.zero_lt_one⟩] } }

/-- A note against it: its share of the discount is more than its goods are worth. -/
def overDiscountedNote : List Op :=
  [.post (plainEnv 0 90) ⟨1⟩ 1 0 (.creditNote ⟨some 31, 21, none, .deductFromCredit,
    [⟨7, "brake pad", 1, 100, none, Int.zero_lt_one⟩]⟩)]

/-- A bill paid in cash leaves a tab past the limit without the flag and without an audit row; and
where an imported bill makes no sense, a note takes a tab past the limit without any bill. -/
theorem tab_past_the_limit :
    (∃ S : System Nat, Reachable prog tightShop S ∧ S.log.map Prod.fst = creditThenCash ∧
      (S.db.sales.get 22).isSome = true ∧ S.db.limit 4 < S.db.tab 4 ∧ S.db.overrideRows 22 = 0) ∧
    ∃ S : System Nat, Reachable prog overDiscountedShop S ∧
      S.log.map Prod.fst = overDiscountedNote ∧ overDiscountedShop.tab 4 = 0 ∧
      S.db.limit 4 = overDiscountedShop.limit 4 ∧ S.db.limit 4 < S.db.tab 4 := by
  constructor
  · obtain ⟨S, hreach, hdb, hlog⟩ : ∃ S : System Nat, Reachable prog tightShop S ∧
        S.db = rowsAfter prog creditThenCash tightShop ∧ S.log.map Prod.fst = creditThenCash :=
      reachable_logged (by decide +kernel)
    refine ⟨S, hreach, hlog, ?_⟩
    rw [hdb]
    decide +kernel
  · obtain ⟨S, hreach, hdb, hlog⟩ : ∃ S : System Nat, Reachable prog overDiscountedShop S ∧
        S.db = rowsAfter prog overDiscountedNote overDiscountedShop ∧
          S.log.map Prod.fst = overDiscountedNote := reachable_logged (by decide +kernel)
    refine ⟨S, hreach, hlog, ?_⟩
    rw [hdb]
    decide +kernel

end

end Server

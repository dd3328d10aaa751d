import SrisurartPos.Drift.StockRuns

/-! # The balance of the Drift-only build

What one act can do is said once (`Transition`). From it follows what it keeps, and from that what a
run keeps. -/

namespace Drift

open Server Money Cache

/-! ## What an act does -/

/-- A void that is on its way is of a bill that was not voided when it was read. -/
def Call.Live : Call → Prop
  | .billRead _ _ sale | .notesRead _ _ sale => sale.voided = false
  | _                                        => True

def State.Live (s : State) : Prop := ∀ c call, s.calls c = some call → call.Live

section
variable {x : SaleId} {input : SaleInput} {byId : Table ProductId ProductRow} {db db' : Db}
  {sale : SaleRow}

/-- What a sale has written, where it went through. -/
theorem of_saveSale {no : DocNo} {date : Nat} (h : saveSale x input byId no date db = .ok (sale, db')) :
    ∃ products, decrementStock byId input.items db.products = .ok products ∧
      db.sales.get x = none ∧ sale = saleRow byId input no date ∧
      db' = { db with
        products := products
        customers := updateNamed input.customerId (CustomerRow.sell input) db.customers
        mechanics := updateNamed input.mechanicId (MechanicRow.sell input) db.mechanics
        sales := db.sales.insert x sale
        quotes := updateNamed input.quoteId (convertQuote date) db.quotes } := by
  rw [saveSale] at h
  cases hproducts : decrementStock byId input.items db.products with
  | error e =>
      simp only [hproducts] at h
      cases h
  | ok products =>
      simp only [hproducts] at h
      split at h
      · cases h
      · rename_i hnew
        obtain ⟨rfl, rfl⟩ := Prod.mk.inj (Except.ok.inj h)
        exact ⟨products, rfl, Option.not_isSome_iff_eq_none.mp hnew, rfl, rfl⟩

theorem of_readBill {reason : String} (h : readBill x reason db = .ok sale) : sale.voided = false := by
  rw [readBill] at h
  split at h
  · cases h
  · cases hsale : db.sales.get x with
    | none =>
        simp only [hsale] at h
        cases h
    | some found =>
        simp only [hsale] at h
        split at h
        · cases h
        · rename_i hopen
          obtain rfl := Except.ok.inj h
          exact Bool.eq_false_iff.mpr hopen

/-- What a return has written: the note, and what the plan says of customer and mechanic. -/
theorem of_createReturn {r : ReturnId} {note : ReturnInput} {now : Nat} {plan : ReturnPlan}
    (hsale : db.sales.get x = some sale) (h : createReturn r x note now db = .ok (plan, db')) :
    sale.voided = false ∧ (∃ refunded, planReturn sale refunded note
      (sale.customerId.bind db.customers.get) (sale.mechanicId.bind db.mechanics.get) = .ok plan) ∧
      db' = { db with
        returns := db.returns.insert r (noteRow x sale note plan now)
        products := putBack note.moves db.products
        customers := plan.customerAfter.elim db.customers fun after =>
          updateNamed sale.customerId (fun _ => after) db.customers
        mechanics := plan.mechanicAfter.elim db.mechanics fun after =>
          updateNamed sale.mechanicId (·.withTotals after) db.mechanics
        sales :=
          if plan.voidsSale then
            db.sales.modify x fun s => { s with voided := true, voidedAt := some now }
          else db.sales } := by
  simp only [createReturn, hsale] at h
  split at h
  · cases h
  · rename_i hopen
    split at h
    · cases h
    · rename_i found hplan
      split at h
      · cases h
      · obtain ⟨rfl, rfl⟩ := Prod.mk.inj (Except.ok.inj h)
        exact ⟨Bool.eq_false_iff.mpr hopen, ⟨_, hplan⟩, rfl⟩

/-- What a credit payment has written. -/
theorem of_addCreditPayment {i : PaymentId} {m : MechanicId} {amount : ℚ} {now : Nat}
    (h : addCreditPayment i m amount now db = .ok db') :
    db' = { db with
      creditPayments := db.creditPayments.insert i ⟨m, amount, now⟩
      mechanics := db.mechanics.modify m fun row =>
        { row with
          creditBalance :=
            if row.creditBalance - amount < 0 then 0 else row.creditBalance - amount } } := by
  rw [addCreditPayment] at h
  split at h
  · cases h
  · exact (Except.ok.inj h).symm

end

/-- What an act that meets the condition can do, whatever becomes of the calls. -/
inductive Transition (toLowerCase : String → String) (s : State) : State → Prop where
  | rest {calls} : Transition toLowerCase s ⟨s.db, calls, s.log⟩
  | movement {calls m} : Transition toLowerCase s ⟨addMovement m s.db, calls, s.log⟩
  | cancelled {calls id now} : Transition toLowerCase s ⟨cancelPO id now s.db, calls, s.log⟩
  | deleted {calls id} : Transition toLowerCase s ⟨deletePO id s.db, calls, s.log⟩
  | sold {calls x input byId no date sale db}
      (honce : (input.items.map (·.productId)).Nodup)
      (hread : ∀ i ∈ input.items, 0 ≤ i.qty ∧
        s.db.stockOf i.productId = (byId.get i.productId).map (·.stock))
      (h : saveSale x input byId no date s.db = .ok (sale, db)) :
      Transition toLowerCase s ⟨db, calls, s.log ++ [.sold x sale]⟩
  | voided {calls x reason sale now} (hsale : s.db.sales.get x = some sale)
      (hopen : sale.voided = false) (hown : ownDiscount sale.mechanicId s.db) :
      Transition toLowerCase s
        ⟨voidSaleOffline x reason sale now s.db, calls, s.log ++ [.voided x sale]⟩
  | adjusted {calls p delta row} (hread : s.db.stockOf p = some row.stock) :
      Transition toLowerCase s
        ⟨adjustStock p delta row s.db, calls,
          s.log ++ [.adjusted p (clampedStock row delta - row.stock)]⟩
  | returned {calls r x sale input now plan db} (hsale : s.db.sales.get x = some sale)
      (hqty : ∀ i ∈ input.items, 0 ≤ i.qty) (hown : ownDiscount sale.mechanicId s.db)
      (h : createReturn r x input now s.db = .ok (plan, db)) :
      Transition toLowerCase s ⟨db, calls, s.log ++ [.returned x sale input plan]⟩
  | received {calls id po now} (hpo : s.db.purchaseOrders.get id = some po)
      (hnew : po.receivedAt = none) :
      Transition toLowerCase s
        ⟨receivePO toLowerCase id now s.db, calls, s.log ++
          [.received id (matched toLowerCase (byLowerPartNo toLowerCase s.db.products) po.items)]⟩
  | paid {calls i m amount now db} (h : addCreditPayment i m amount now s.db = .ok db) :
      Transition toLowerCase s ⟨db, calls, s.log ++ [.paid m amount]⟩

section
variable {toLowerCase : String → String} {s s' s₀ : State} {a : Act}

theorem transition_of_error {e : Refusal} (h : exec toLowerCase a s = .error e) :
    Transition toLowerCase s (step toLowerCase a s) := by
  rw [step, h]
  cases a.call with
  | none => exact .rest
  | some c => exact .rest

/-- **What an act does** when it meets the condition. -/
theorem step_cases (hlive : s.Live) (hmeets : Meets s a) :
    Transition toLowerCase s (step toLowerCase a s) := by
  cases hexec : exec toLowerCase a s with
  | error e => exact transition_of_error hexec
  | ok s' =>
      have hstep : step toLowerCase a s = s' := by rw [step, hexec]
      rw [hstep]
      cases a with
      -- what only reads leaves the tables
      | preValidate c x input =>
          simp only [exec] at hexec
          split at hexec <;> cases hexec <;> exact .rest
      | saveSale c no date =>
          simp only [exec] at hexec
          split at hexec
          · rename_i x input byId hcall
            -- the products were read before: the condition says that they still hold
            obtain ⟨honce, hread⟩ := hmeets x input byId hcall
            split at hexec
            · cases hexec
            · rename_i hsave
              cases hexec
              exact .sold honce hread hsave
          · cases hexec
            exact .rest
      | readBill c x reason =>
          simp only [exec] at hexec
          split at hexec <;> cases hexec <;> exact .rest
      | readNotes c =>
          simp only [exec] at hexec
          split at hexec
          · split at hexec <;> cases hexec
            exact .rest
          · cases hexec
            exact .rest
      | voidSale c now =>
          simp only [exec] at hexec
          split at hexec
          · rename_i x reason sale hcall
            -- the bill that was read is still the bill, and no other void is under way
            obtain ⟨hsale, -, hown⟩ := hmeets x reason sale hcall
            cases hexec
            exact .voided hsale (hlive c _ hcall) hown
          · cases hexec
            exact .rest
      | readStock c p delta =>
          simp only [exec] at hexec
          split at hexec <;> cases hexec <;> exact .rest
      | writeStock c =>
          simp only [exec] at hexec
          split at hexec
          · rename_i p delta row hcall
            cases hexec
            -- the stock that was read is still the stock
            exact .adjusted (hmeets p delta row hcall)
          · cases hexec
            exact .rest
      | addMovement c =>
          simp only [exec] at hexec
          split at hexec <;> cases hexec
          · exact .movement
          · exact .rest
      | createReturn r x input now =>
          simp only [exec] at hexec
          split at hexec
          · rename_i sale plan db hsale hreturn
            cases hexec
            exact .returned hsale hmeets.1 (hmeets.2 sale hsale) hreturn
          · cases hexec
          · cases hexec
      -- one transaction, and the order is read in it
      | receivePO id now =>
          simp only [exec] at hexec
          split at hexec
          · cases hexec
            exact .rest
          · rename_i po hpo
            cases hexec
            exact .received hpo (hmeets po hpo)
      | cancelPO id now =>
          cases hexec
          exact .cancelled
      | deletePO id =>
          cases hexec
          exact .deleted
      | addCreditPayment i m amount now =>
          simp only [exec] at hexec
          split at hexec
          · cases hexec
          · rename_i hpay
            cases hexec
            exact .paid hpay

theorem Live_waits {c : Nat} {call : Option Call} (h : s.Live)
    (hcall : ∀ k, call = some k → k.Live) : (s.waits c call).Live := by
  intro c' call' hc'
  have hupdate : Function.update s.calls c call c' = some call' := hc'
  rw [Function.update_apply] at hupdate
  split at hupdate
  · exact hcall call' hupdate
  · exact h c' call' hupdate

theorem Live_over {c : Nat} (h : s.Live) : (s.waits c none).Live :=
  Live_waits h fun _ hk => nomatch hk

/-- The calls stay live. -/
theorem step_live (h : s.Live) : (step toLowerCase a s).Live := by
  cases hexec : exec toLowerCase a s with
  -- a call that threw is over
  | error e =>
      rw [step, hexec]
      show (a.call.elim s fun c => s.waits c none).Live
      cases a.call with
      | none => exact h
      | some c => exact Live_over h
  | ok s' =>
      have hstep : step toLowerCase a s = s' := by rw [step, hexec]
      rw [hstep]
      cases a with
      | preValidate c x input =>
          simp only [exec] at hexec
          split at hexec <;> cases hexec
          · exact h
          · exact Live_waits h fun k hk => Option.some.inj hk ▸ trivial
      | saveSale c no date =>
          simp only [exec] at hexec
          split at hexec
          · split at hexec <;> cases hexec
            exact Live_over (s := s.writes _ _) h
          · cases hexec
            exact h
      -- the bill is refused where it is voided, so what waits is live
      | readBill c x reason =>
          simp only [exec] at hexec
          split at hexec <;> cases hexec
          · exact h
          · rename_i hread
            refine Live_waits h fun k hk => ?_
            obtain rfl := Option.some.inj hk
            exact of_readBill hread
      -- the notes change nothing of the bill that was read
      | readNotes c =>
          simp only [exec] at hexec
          split at hexec
          · rename_i hcall
            split at hexec <;> cases hexec
            refine Live_waits h fun k hk => ?_
            obtain rfl := Option.some.inj hk
            exact h c (.billRead _ _ _) hcall
          · cases hexec
            exact h
      | voidSale c now =>
          simp only [exec] at hexec
          split at hexec <;> cases hexec
          · exact Live_over (s := s.writes _ _) h
          · exact h
      | readStock c p delta =>
          simp only [exec] at hexec
          split at hexec <;> cases hexec
          · exact Live_waits h fun k hk => Option.some.inj hk ▸ trivial
          · exact h
      | writeStock c =>
          simp only [exec] at hexec
          split at hexec <;> cases hexec
          · exact Live_waits (s := s.writes _ _) h fun k hk => Option.some.inj hk ▸ trivial
          · exact h
      | addMovement c =>
          simp only [exec] at hexec
          split at hexec <;> cases hexec
          · exact Live_over (s := { s with db := addMovement _ s.db }) h
          · exact h
      | createReturn r x input now =>
          simp only [exec] at hexec
          split at hexec <;> cases hexec
          exact h
      | receivePO id now =>
          simp only [exec] at hexec
          split at hexec <;> cases hexec <;> exact h
      | cancelPO id now =>
          cases hexec
          exact h
      | deletePO id =>
          cases hexec
          exact h
      | addCreditPayment i m amount now =>
          simp only [exec] at hexec
          split at hexec <;> cases hexec
          exact h

/-! ## The stock -/

/-- What every act keeps, of the stock and of the orders. -/
structure Kept (s₀ s : State) : Prop where
  stock : ∀ p, s.db.stockOf p = (s₀.db.stockOf p).map (· + total (Event.net p) s.log)
  nonneg : ∀ {p row}, s.db.products.get p = some row → 0 ≤ row.stock
  lines : ∀ {x sale}, s.db.sales.get x = some sale → ∀ i ∈ sale.items, 0 ≤ i.qty
  orders : ∀ {id po}, s.db.purchaseOrders.get id = some po → ∀ i ∈ po.items, 0 ≤ i.qty
  once : s.orders.Nodup
  received : ∀ {id po}, id ∈ s.orders → s.db.purchaseOrders.get id = some po → po.receivedAt ≠ none

theorem total_append {M : Type} [AddCommMonoid M] (f : Event → M) (log : List Event) (e : Event) :
    total f (log ++ [e]) = total f log + f e := by
  rw [total, total, List.map_append, List.sum_append, List.map_singleton, List.sum_singleton]

/-- An event that moves the stock by what it is about. -/
theorem stock_next {s₀ s : State} {db' : Db} {e : Event} {p : ProductId}
    (h : s.db.stockOf p = (s₀.db.stockOf p).map (· + total (Event.net p) s.log))
    (hmoved : db'.stockOf p = (s.db.stockOf p).map (· + e.net p)) :
    db'.stockOf p = (s₀.db.stockOf p).map (· + total (Event.net p) (s.log ++ [e])) := by
  rw [hmoved, h, Option.map_map, total_append]
  congr 1
  funext n
  exact add_assoc _ _ _

/-- An event that is about no stock. -/
theorem stock_still {db db' : Db} {p : ProductId} {n : Int} (h : db'.stockOf p = db.stockOf p)
    (hn : n = 0) : db'.stockOf p = (db.stockOf p).map (· + n) := by
  rw [h, hn]
  cases db.stockOf p with
  | none => rfl
  | some k => exact congrArg some (add_zero k).symm

theorem orders_append (s : State) (db : Db) (calls : Nat → Option Call) (e : Event) :
    State.orders ⟨db, calls, s.log ++ [e]⟩ = s.orders ++ e.order.toList := by
  rw [State.orders, List.filterMap_append]
  cases he : e.order with
  | none => simp [State.orders, List.filterMap, he]
  | some id => simp [State.orders, List.filterMap, he]

/-! ### The parts -/

theorem net_sold {x : SaleId} {input : SaleInput} {byId : Table ProductId ProductRow} {no : DocNo}
    {date : Nat} (p : ProductId) :
    (Event.sold x (saleRow byId input no date)).net p = -wantedQty input.items p := by
  have hmoves : shiftOf (saleRow byId input no date).moves p = wantedQty input.items p := by
    rw [shiftOf, SaleRow.moves, saleRow, List.map_map, List.map_map]
    rfl
  simp only [Event.net, Event.receivedUnits, Event.returnedUnits, Event.voidedUnits,
    Event.adjustedUnits, Event.soldUnits, hmoves]
  omega

theorem total_nil {M : Type} [AddCommMonoid M] (f : Event → M) : total f [] = 0 := rfl

theorem lines_modify {t : Table SaleId SaleRow} {x : SaleId} {f : SaleRow → SaleRow}
    (hf : ∀ sale, (f sale).items = sale.items)
    (h : ∀ {y sale}, t.get y = some sale → ∀ i ∈ sale.items, 0 ≤ i.qty) {y : SaleId} {sale : SaleRow}
    (hy : (t.modify x f).get y = some sale) : ∀ i ∈ sale.items, 0 ≤ i.qty := by
  rw [Table.get_modify] at hy
  split at hy
  · obtain ⟨old, hold, rfl⟩ := Option.map_eq_some_iff.mp hy
    rw [hf]
    exact h hold
  · exact h hy

namespace Kept

variable {db' : Db} {calls : Nat → Option Call} {e : Event}

/-- What leaves the orders alone keeps the rest as well, if it moves the stock by what it says. -/
theorem next (h : Kept s₀ s)
    (hmoved : ∀ p, db'.stockOf p = (s.db.stockOf p).map (· + e.net p))
    (hnonneg : ∀ {p row}, db'.products.get p = some row → 0 ≤ row.stock)
    (hlines : ∀ {x sale}, db'.sales.get x = some sale → ∀ i ∈ sale.items, 0 ≤ i.qty)
    (horders : db'.purchaseOrders = s.db.purchaseOrders) (he : e.order = none) :
    Kept s₀ ⟨db', calls, s.log ++ [e]⟩ where
  stock := fun p => stock_next (h.stock p) (hmoved p)
  nonneg := hnonneg
  lines := hlines
  orders := by
    rw [horders]
    exact h.orders
  once := by
    rw [orders_append, he]
    exact (List.append_nil s.orders).symm ▸ h.once
  received := by
    rw [orders_append, he, horders]
    intro id po hid
    exact h.received (List.append_nil s.orders ▸ hid)

/-- A sale takes the units of its lines out of the stock, as long as the stock is still the one it has read. -/
theorem sell {x : SaleId} {input : SaleInput} {byId : Table ProductId ProductRow} {no : DocNo}
    {date : Nat} {sale : SaleRow} (h : Kept s₀ s) (honce : (input.items.map (·.productId)).Nodup)
    (hread : ∀ i ∈ input.items, 0 ≤ i.qty ∧
      s.db.stockOf i.productId = (byId.get i.productId).map (·.stock))
    (hsave : saveSale x input byId no date s.db = .ok (sale, db')) :
    Kept s₀ ⟨db', calls, s.log ++ [.sold x sale]⟩ := by
  obtain ⟨products, htaken, hnew, rfl, rfl⟩ := of_saveSale hsave
  refine h.next (fun p => ?_) ?_ ?_ rfl rfl
  · refine (stock_sold honce (fun i hi => (hread i hi).2) htaken p).trans ?_
    rw [net_sold]
    rfl
  · exact decrementStock_nonneg h.nonneg htaken
  · intro y sale hy
    have hy : (s.db.sales.insert x (saleRow byId input no date)).get y = some sale := hy
    rw [Table.get_insert hnew] at hy
    split at hy
    · obtain rfl := Option.some.inj hy
      intro i hi
      obtain ⟨line, hline, rfl⟩ := List.mem_map.mp hi
      exact (hread line hline).1
    · exact h.lines hy

/-- A void puts the units of the bill back. -/
theorem void {x : SaleId} {reason : String} {sale : SaleRow} {now : Nat} (h : Kept s₀ s)
    (hsale : s.db.sales.get x = some sale) :
    Kept s₀ ⟨voidSaleOffline x reason sale now s.db, calls, s.log ++ [.voided x sale]⟩ := by
  have hproducts : (voidSaleOffline x reason sale now s.db).products =
      putBack sale.moves s.db.products := restoreStock_eq sale _
  refine h.next (fun p => ?_) ?_ ?_ rfl rfl
  · rw [Db.stockOf, hproducts, stock_putBack]
    simp [Event.net, Event.receivedUnits, Event.returnedUnits, Event.voidedUnits,
      Event.adjustedUnits, Event.soldUnits, Db.stockOf]
  · rw [hproducts]
    refine putBack_nonneg (fun m hm => ?_) h.nonneg
    obtain ⟨i, hi, rfl⟩ := List.mem_map.mp hm
    exact h.lines hsale i hi
  · exact fun hy => lines_modify (f := SaleRow.void reason now) (fun _ => rfl) h.lines hy

/-- An adjustment moves the stock by what it could of its delta. -/
theorem adjust {p : ProductId} {delta : Int} {row : ProductRow} (h : Kept s₀ s)
    (hread : s.db.stockOf p = some row.stock) :
    Kept s₀ ⟨adjustStock p delta row s.db, calls,
      s.log ++ [.adjusted p (clampedStock row delta - row.stock)]⟩ := by
  refine h.next (fun q => ?_) ?_ h.lines rfl rfl
  · refine stock_modify.trans ?_
    have hnet : (Event.adjusted p (clampedStock row delta - row.stock)).net q =
        if q = p then clampedStock row delta - row.stock else 0 := by
      simp [Event.net, Event.receivedUnits, Event.returnedUnits, Event.voidedUnits,
        Event.adjustedUnits, Event.soldUnits, eq_comm]
    rw [hnet]
    split
    · rename_i hq
      subst hq
      obtain ⟨found, hfound, hstock⟩ := Option.map_eq_some_iff.mp hread
      rw [hread, hfound]
      simp
    · exact stock_still rfl rfl
  · intro q found hq
    have hq : (s.db.products.modify p fun r => { r with stock := clampedStock row delta }).get q =
        some found := hq
    rw [Table.get_modify] at hq
    split at hq
    · obtain ⟨old, -, rfl⟩ := Option.map_eq_some_iff.mp hq
      show 0 ≤ clampedStock row delta
      rw [clampedStock]
      split <;> omega
    · exact h.nonneg hq

/-- A return puts the units of its lines back. -/
theorem giveBack {r : ReturnId} {x : SaleId} {sale : SaleRow} {input : ReturnInput} {now : Nat}
    {plan : ReturnPlan} (h : Kept s₀ s) (hsale : s.db.sales.get x = some sale)
    (hqty : ∀ i ∈ input.items, 0 ≤ i.qty) (hreturn : createReturn r x input now s.db = .ok (plan, db')) :
    Kept s₀ ⟨db', calls, s.log ++ [.returned x sale input plan]⟩ := by
  obtain ⟨-, -, rfl⟩ := of_createReturn hsale hreturn
  refine h.next (fun p => ?_) ?_ ?_ rfl rfl
  · refine (stock_putBack p).trans ?_
    simp [Event.net, Event.receivedUnits, Event.returnedUnits, Event.voidedUnits,
      Event.adjustedUnits, Event.soldUnits, Db.stockOf]
  · refine putBack_nonneg (fun m hm => ?_) h.nonneg
    obtain ⟨i, hi, rfl⟩ := List.mem_map.mp hm
    exact hqty i hi
  · intro y row hy
    by_cases hvoids : plan.voidsSale = true
    · have hy : (s.db.sales.modify x fun s => { s with voided := true, voidedAt := some now }).get y =
          some row := by simpa only [hvoids, if_true] using hy
      exact lines_modify (f := fun s => { s with voided := true, voidedAt := some now })
        (fun _ => rfl) h.lines hy
    · have hy : s.db.sales.get y = some row := by
        simpa only [hvoids, Bool.false_eq_true, if_false] using hy
      exact h.lines hy

/-- The lines of an order bring what they say. -/
theorem receive {id : OrderId} {po : PurchaseOrderRow} {now : Nat} (h : Kept s₀ s)
    (hpo : s.db.purchaseOrders.get id = some po) (hnew : po.receivedAt = none) :
    Kept s₀ ⟨receivePO toLowerCase id now s.db, calls, s.log ++
      [.received id (matched toLowerCase (byLowerPartNo toLowerCase s.db.products) po.items)]⟩ := by
  have hproducts : (receivePO toLowerCase id now s.db).products = (receiveLines toLowerCase po.items
      (byLowerPartNo toLowerCase s.db.products) s.db.products s.db.movements).1 := by
    rw [receivePO, hpo]
  have hsales : (receivePO toLowerCase id now s.db).sales = s.db.sales := by rw [receivePO, hpo]
  have horders : (receivePO toLowerCase id now s.db).purchaseOrders =
      s.db.purchaseOrders.modify id fun row =>
        { row with status := .received, receivedAt := some now } := by
    rw [receivePO, hpo]
  -- the stocks move by the lines that name a product
  have hmoved : ∀ p, (receivePO toLowerCase id now s.db).stockOf p = (s.db.stockOf p).map
      (· + shiftOf (matched toLowerCase (byLowerPartNo toLowerCase s.db.products) po.items) p) := by
    intro p
    rw [Db.stockOf, hproducts]
    exact stock_receiveLines (indexed_byLowerPartNo _) p
  refine
    { stock := fun p => stock_next (h.stock p) ((hmoved p).trans ?_)
      nonneg := ?_
      lines := hsales ▸ h.lines
      orders := ?_
      once := ?_
      received := ?_ }
  · simp [Event.net, Event.receivedUnits, Event.returnedUnits, Event.voidedUnits,
      Event.adjustedUnits, Event.soldUnits]
  · intro p row hrow
    have hstock : (receivePO toLowerCase id now s.db).stockOf p = some row.stock := by
      rw [Db.stockOf, hrow]
      rfl
    rw [hmoved] at hstock
    obtain ⟨n, hn, hsum⟩ := Option.map_eq_some_iff.mp hstock
    obtain ⟨old, hold, rfl⟩ := Option.map_eq_some_iff.mp hn
    rw [← hsum]
    refine add_nonneg (h.nonneg hold) (shiftOf_nonneg (fun m hm => ?_) p)
    obtain ⟨i, hi, hm⟩ := List.mem_filterMap.mp hm
    obtain ⟨e, -, rfl⟩ := Option.map_eq_some_iff.mp hm
    exact h.orders hpo i hi
  · rw [horders]
    intro id' po' hpo'
    rw [Table.get_modify] at hpo'
    split at hpo'
    · obtain ⟨old, hold, rfl⟩ := Option.map_eq_some_iff.mp hpo'
      show ∀ i ∈ old.items, 0 ≤ i.qty
      exact h.orders hold
    · exact h.orders hpo'
  · rw [orders_append]
    refine List.Nodup.append h.once (List.nodup_singleton id) ?_
    rintro _ hmem (_ | ⟨_, ⟨⟩⟩)
    -- an order that was received before has its time
    exact h.received hmem hpo hnew
  · rw [orders_append, horders]
    intro id' po' hid' hpo'
    rw [Table.get_modify] at hpo'
    split at hpo'
    · obtain ⟨old, -, rfl⟩ := Option.map_eq_some_iff.mp hpo'
      exact Option.some_ne_none now
    · rename_i hne
      rcases List.mem_append.mp hid' with hold | hself
      · exact h.received hold hpo'
      · exact absurd (List.mem_singleton.mp hself) hne

end Kept

/-- **One act keeps the balance.** -/
theorem Kept.step (h : Kept s₀ s) (ht : Transition toLowerCase s s') : Kept s₀ s' := by
  cases ht with
  | rest => exact ⟨h.stock, h.nonneg, h.lines, h.orders, h.once, h.received⟩
  | movement => exact ⟨h.stock, h.nonneg, h.lines, h.orders, h.once, h.received⟩
  | @cancelled calls id now =>
      -- whatever is done to an order, it stays received, with its lines
      have hget : ∀ {id' po'}, (cancelPO id now s.db).purchaseOrders.get id' = some po' →
          ∃ po, s.db.purchaseOrders.get id' = some po ∧ po'.items = po.items ∧
            po'.receivedAt = po.receivedAt := by
        intro id' po' hpo'
        have hpo' : (s.db.purchaseOrders.modify id _).get id' = some po' := hpo'
        rw [Table.get_modify] at hpo'
        split at hpo'
        · obtain ⟨old, hold, rfl⟩ := Option.map_eq_some_iff.mp hpo'
          exact ⟨old, hold, rfl, rfl⟩
        · exact ⟨po', hpo', rfl, rfl⟩
      refine ⟨h.stock, h.nonneg, h.lines, fun hpo' => ?_, h.once, fun hid hpo' => ?_⟩
      · obtain ⟨po, hpo, hitems, -⟩ := hget hpo'
        rw [hitems]
        exact h.orders hpo
      · obtain ⟨po, hpo, -, hreceived⟩ := hget hpo'
        rw [hreceived]
        exact h.received hid hpo
  | @deleted calls id =>
      have hget : ∀ {id' po'}, (deletePO id s.db).purchaseOrders.get id' = some po' →
          s.db.purchaseOrders.get id' = some po' := by
        intro id' po' hpo'
        have hpo' : (s.db.purchaseOrders.erase id).get id' = some po' := hpo'
        rw [Table.get_erase] at hpo'
        split at hpo'
        · cases hpo'
        · exact hpo'
      exact ⟨h.stock, h.nonneg, h.lines, fun hpo' => h.orders (hget hpo'), h.once,
        fun hid hpo' => h.received hid (hget hpo')⟩
  | sold honce hread hsave => exact h.sell honce hread hsave
  | voided hsale => exact h.void hsale
  | adjusted hread => exact h.adjust hread
  | returned hsale hqty _ hreturn => exact h.giveBack hsale hqty hreturn
  | received hpo hnew => exact h.receive hpo hnew
  | paid hpay =>
      obtain rfl := of_addCreditPayment hpay
      exact h.next (fun p => stock_still rfl rfl) h.nonneg h.lines rfl rfl

theorem Kept.start (h : s.Start) : Kept s s where
  stock := by
    intro p
    rw [h.log, total_nil]
    simp
  nonneg := h.stock
  lines := h.lines
  orders := h.orders
  once := by
    rw [State.orders, h.log]
    exact List.nodup_nil
  received := by
    intro id po hid
    rw [State.orders, h.log] at hid
    cases hid

/-! ## The bills in the log -/

/-- The bills that the log sells under `x`. -/
def soldBills (x : SaleId) (log : List Event) : List SaleRow :=
  log.filterMap fun
    | .sold y sale => if x = y then some sale else none
    | _            => none

/-- And those that it voids. -/
def voidedBills (x : SaleId) (log : List Event) : List SaleRow :=
  log.filterMap fun
    | .voided y sale => if x = y then some sale else none
    | _              => none

/-- A bill is sold once and voided once, and keeps what it was sold as. -/
structure Traced (s : State) : Prop where
  sold : ∀ x, soldBills x s.log = [] ∨ ∃ a row, soldBills x s.log = [a] ∧
    s.db.sales.get x = some row ∧ a.unvoid = row.unvoid
  voided : ∀ x, voidedBills x s.log = [] ∨ ∃ a row, voidedBills x s.log = [a] ∧
    s.db.sales.get x = some row ∧ row.voided = true ∧ a.unvoid = row.unvoid

namespace Traced

variable {db' : Db} {calls : Nat → Option Call} {e : Event}

/-- An event that is not the sale or void of a bill, after which each bill is as it was sold, and
voided if it was. -/
theorem next (h : Traced s) (hsold : ∀ x, soldBills x [e] = []) (hvoided : ∀ x, voidedBills x [e] = [])
    (hkept : ∀ x row, s.db.sales.get x = some row → ∃ row', db'.sales.get x = some row' ∧
      row'.unvoid = row.unvoid ∧ (row.voided = true → row'.voided = true)) :
    Traced ⟨db', calls, s.log ++ [e]⟩ where
  sold := by
    intro x
    have hlog : soldBills x (s.log ++ [e]) = soldBills x s.log := by
      rw [soldBills, List.filterMap_append]
      exact (congrArg _ (hsold x)).trans (List.append_nil _)
    rcases h.sold x with hnil | ⟨a, row, ha, hrow, hsame⟩
    · exact .inl (hlog.trans hnil)
    · obtain ⟨row', hrow', hunvoid, -⟩ := hkept x row hrow
      exact .inr ⟨a, row', hlog.trans ha, hrow', hsame.trans hunvoid.symm⟩
  voided := by
    intro x
    have hlog : voidedBills x (s.log ++ [e]) = voidedBills x s.log := by
      rw [voidedBills, List.filterMap_append]
      exact (congrArg _ (hvoided x)).trans (List.append_nil _)
    rcases h.voided x with hnil | ⟨a, row, ha, hrow, hflag, hsame⟩
    · exact .inl (hlog.trans hnil)
    · obtain ⟨row', hrow', hunvoid, hvoid⟩ := hkept x row hrow
      exact .inr ⟨a, row', hlog.trans ha, hrow', hvoid hflag, hsame.trans hunvoid.symm⟩

/-- A sale's bill is new, so it was neither sold nor voided before. -/
theorem sell {y : SaleId} {sale : SaleRow} (h : Traced s) (hnew : s.db.sales.get y = none)
    (hsales : db'.sales = s.db.sales.insert y sale) :
    Traced ⟨db', calls, s.log ++ [.sold y sale]⟩ where
  sold := by
    intro x
    have hlog : soldBills x (s.log ++ [.sold y sale]) =
        soldBills x s.log ++ if x = y then [sale] else [] := by
      rw [soldBills, List.filterMap_append]
      congr 1
      split <;> simp_all
    show soldBills x (s.log ++ [.sold y sale]) = [] ∨ _
    rw [hlog, hsales]
    by_cases hxy : x = y
    · subst hxy
      right
      refine ⟨sale, sale, ?_, Table.get_insert_self hnew sale, rfl⟩
      rcases h.sold x with hnil | ⟨a, row, -, hrow, -⟩
      · rw [hnil, if_pos rfl]
        rfl
      · rw [hnew] at hrow
        cases hrow
    · rw [if_neg hxy, List.append_nil]
      refine (h.sold x).imp id ?_
      rintro ⟨a, row, ha, hrow, hsame⟩
      exact ⟨a, row, ha, (Table.get_insert_ne _ hxy sale).trans hrow, hsame⟩
  voided := by
    intro x
    have hlog : voidedBills x (s.log ++ [.sold y sale]) = voidedBills x s.log := by
      rw [voidedBills, List.filterMap_append]
      exact List.append_nil _
    show voidedBills x (s.log ++ [.sold y sale]) = [] ∨ _
    rw [hlog, hsales]
    refine (h.voided x).imp id ?_
    rintro ⟨a, row, ha, hrow, hflag, hsame⟩
    refine ⟨a, row, ha, ?_, hflag, hsame⟩
    rw [Table.get_insert_ne, hrow]
    rintro rfl
    rw [hnew] at hrow
    cases hrow

/-- A bill is voided once: it was open when the void was written. -/
theorem void {y : SaleId} {sale : SaleRow} {reason : String} {now : Nat} (h : Traced s)
    (hsale : s.db.sales.get y = some sale) (hopen : sale.voided = false)
    (hsales : db'.sales = s.db.sales.modify y (SaleRow.void reason now)) :
    Traced ⟨db', calls, s.log ++ [.voided y sale]⟩ where
  sold := by
    intro x
    have hlog : soldBills x (s.log ++ [.voided y sale]) = soldBills x s.log := by
      rw [soldBills, List.filterMap_append]
      exact List.append_nil _
    show soldBills x (s.log ++ [.voided y sale]) = [] ∨ _
    rw [hlog, hsales]
    refine (h.sold x).imp id ?_
    rintro ⟨a, row, ha, hrow, hsame⟩
    by_cases hxy : x = y
    · subst hxy
      exact ⟨a, row.void reason now, ha, by rw [Table.get_modify_self, hrow]; rfl, hsame⟩
    · exact ⟨a, row, ha, (Table.get_modify_ne _ hxy _).trans hrow, hsame⟩
  voided := by
    intro x
    have hlog : voidedBills x (s.log ++ [.voided y sale]) =
        voidedBills x s.log ++ if x = y then [sale] else [] := by
      rw [voidedBills, List.filterMap_append]
      congr 1
      split <;> simp_all
    show voidedBills x (s.log ++ [.voided y sale]) = [] ∨ _
    rw [hlog, hsales]
    by_cases hxy : x = y
    · subst hxy
      right
      refine ⟨sale, sale.void reason now, ?_, ?_, rfl, rfl⟩
      · rcases h.voided x with hnil | ⟨a, row, -, hrow, hflag, -⟩
        · rw [hnil, if_pos rfl]
          rfl
        · rw [hsale] at hrow
          obtain rfl := Option.some.inj hrow
          rw [hopen] at hflag
          cases hflag
      · rw [Table.get_modify_self, hsale]
        rfl
    · rw [if_neg hxy, List.append_nil]
      refine (h.voided x).imp id ?_
      rintro ⟨a, row, ha, hrow, hflag, hsame⟩
      exact ⟨a, row, ha, (Table.get_modify_ne _ hxy _).trans hrow, hflag, hsame⟩

/-- A return is of a bill that was sold and is not voided. -/
theorem giveBack {r : ReturnId} {y : SaleId} {sale : SaleRow} {input : ReturnInput} {now : Nat}
    {plan : ReturnPlan} (h : Traced s) (hsale : s.db.sales.get y = some sale)
    (hreturn : createReturn r y input now s.db = .ok (plan, db')) :
    Traced ⟨db', calls, s.log ++ [.returned y sale input plan]⟩ := by
  have hsales : db'.sales = if plan.voidsSale then
      s.db.sales.modify y fun row => { row with voided := true, voidedAt := some now }
      else s.db.sales := by
    rw [(of_createReturn hsale hreturn).2.2]
  refine h.next (fun _ => rfl) (fun _ => rfl) fun x row hrow => ?_
  rw [hsales]
  split
  · rw [Table.get_modify, hrow]
    split
    · exact ⟨_, rfl, rfl, fun _ => rfl⟩
    · exact ⟨row, rfl, rfl, id⟩
  · exact ⟨row, hrow, rfl, id⟩

end Traced

/-- Every step keeps what the log says of the bills. -/
theorem Traced.step (h : Traced s) (ht : Transition toLowerCase s s') : Traced s' := by
  cases ht with
  | rest => exact ⟨h.sold, h.voided⟩
  | movement => exact ⟨h.sold, h.voided⟩
  | cancelled => exact ⟨h.sold, h.voided⟩
  | deleted => exact ⟨h.sold, h.voided⟩
  | sold _ _ hsave =>
      obtain ⟨products, -, hnew, rfl, rfl⟩ := of_saveSale hsave
      exact h.sell hnew rfl
  | voided hsale hopen => exact h.void hsale hopen rfl
  | adjusted => exact h.next (fun _ => rfl) (fun _ => rfl) fun x row hrow => ⟨row, hrow, rfl, id⟩
  | returned hsale _ _ hreturn => exact h.giveBack hsale hreturn
  | received hpo =>
      refine h.next (fun _ => rfl) (fun _ => rfl) fun x row hrow => ⟨row, ?_, rfl, id⟩
      rw [receivePO, hpo]
      exact hrow
  | paid hpay =>
      obtain rfl := of_addCreditPayment hpay
      exact h.next (fun _ => rfl) (fun _ => rfl) fun x row hrow => ⟨row, hrow, rfl, id⟩

theorem Traced.start (h : s.Start) : Traced s where
  sold := fun x => .inl (by rw [h.log]; rfl)
  voided := fun x => .inl (by rw [h.log]; rfl)

/-- The totals are what they were, with what the log adds to them. -/
structure Posted (s₀ s : State) : Prop where
  customers : ∀ c, (s.db.customers.get c).map customerSums =
    (s₀.db.customers.get c).map fun row => customerSums row + total (Event.toCustomer c) s.log
  mechanics : ∀ m, (s.db.mechanics.get m).map mechanicSums =
    (s₀.db.mechanics.get m).map fun row => mechanicSums row + total (Event.toMechanic m) s.log

section
variable {ν τ M : Type} [AddCommGroup M] {sums : ν → M} {rows rows' rows₀ : Table Nat ν}
  {key : Option Nat} {k : Nat}

theorem sums_updateNamed {f : ν → ν} {d : M}
    (hf : ∀ row, key = some k → rows.get k = some row → sums (f row) = sums row + d) :
    ((updateNamed key f rows).get k).map sums =
      (rows.get k).map fun row => sums row + if key = some k then d else 0 := by
  rw [get_updateNamed]
  by_cases hkey : key = some k
  · cases hrow : rows.get k with
    | none => simp [hkey]
    | some row => simp [hkey, hf row hkey hrow]
  · simp [hkey]

/-- What is worked out of the row that was read is written to that row. -/
theorem get_after (f : ν → τ) (put : τ → ν → ν) :
    ((((key.bind rows.get).map f).elim rows fun after => updateNamed key (put after) rows).get k) =
      (updateNamed key (fun row => put (f row) row) rows).get k := by
  cases key with
  | none => rfl
  | some k' =>
      rw [Option.bind_some, get_updateNamed]
      cases hrow : rows.get k' with
      | none =>
          rw [Option.map_none, Option.elim_none]
          split
          · rename_i hk
            obtain rfl := Option.some.inj hk
            rw [hrow]
            rfl
          · rfl
      | some row =>
          rw [Option.map_some, Option.elim_some, get_updateNamed]
          split
          · rename_i hk
            obtain rfl := Option.some.inj hk
            rw [hrow]
            rfl
          · rfl

/-- A row that follows the log moves by the share of the event that is added. -/
theorem posted_next {f : Event → M} {log : List Event} {e : Event}
    (h : (rows.get k).map sums = (rows₀.get k).map fun row => sums row + total f log)
    (hmove : (rows'.get k).map sums = (rows.get k).map fun row => sums row + f e) :
    (rows'.get k).map sums = (rows₀.get k).map fun row => sums row + total f (log ++ [e]) := by
  have hsplit : (rows.get k).map (fun row => sums row + f e) =
      ((rows.get k).map sums).map (· + f e) := by
    rw [Option.map_map]
    rfl
  rw [hmove, hsplit, h, Option.map_map, total_append]
  congr 1
  funext row
  exact add_assoc _ _ _

theorem posted_still {f : Event → M} {e : Event} (h : rows'.get k = rows.get k) (he : f e = 0) :
    (rows'.get k).map sums = (rows.get k).map fun row => sums row + f e := by
  rw [h, he]
  simp

end

/-! ### Without a clamp -/

theorem sums_undoCustomer {sale : SaleRow} {c : CustomerRow} (h : saleSpend sale ≤ customerSums c) :
    customerSums (undoCustomer sale c) = customerSums c + -saleSpend sale := by
  obtain ⟨htotal, hpoints⟩ := h
  have htotal : sale.total ≤ c.totalSpend := htotal
  have hpoints : sale.pointsGranted ≤ c.points := hpoints
  rw [← sub_eq_add_neg]
  exact Prod.ext (max_eq_right (sub_nonneg.mpr htotal)) (max_eq_right (sub_nonneg.mpr hpoints))

/-- A void takes the bill's share out of the mechanic's sums, where they cover it. -/
theorem sums_undoMechanic {sale : SaleRow} {m : MechanicRow} (hown : m.discountBase = m.totalDiscount)
    (h : saleCredit sale ≤ mechanicSums m) :
    mechanicSums (m.undo sale) = mechanicSums m + -saleCredit sale := by
  obtain ⟨hsales, hdiscount, hmarkup, hbalance⟩ := h
  have hundo : (m.undo sale).totalDiscount =
      max 0 (m.totalDiscount - discountGiven sale.mechanicDelta) := by
    rw [← hown]
    rfl
  rw [← sub_eq_add_neg]
  refine Prod.ext (max_eq_right (sub_nonneg.mpr hsales)) (Prod.ext ?_ (Prod.ext ?_ ?_))
  · exact hundo.trans (max_eq_right (sub_nonneg.mpr hdiscount))
  · exact max_eq_right (sub_nonneg.mpr hmarkup)
  · exact max_eq_right (sub_nonneg.mpr hbalance)

/-- What the plan of a return says of the customer and of the mechanic. -/
theorem of_planReturn {sale : SaleRow} {refunded : List (ProductId × Int)} {input : ReturnInput}
    {customer : Option CustomerRow} {mechanic : Option MechanicRow} {plan : ReturnPlan}
    (h : planReturn sale refunded input customer mechanic = .ok plan) :
    plan.customerAfter = customer.map (CustomerRow.refund sale (refundTotalOf sale input)
      (refundRatio sale (refundTotalOf sale input))) ∧
    plan.mechanicAfter = mechanic.map (MechanicRow.refund sale input.refundMethod
      (refundTotalOf sale input) (refundRatio sale (refundTotalOf sale input))) := by
  simp only [planReturn] at h
  split at h
  · cases h
  · obtain rfl := Except.ok.inj h
    exact ⟨rfl, rfl⟩

theorem sums_refundCustomer {sale : SaleRow} {input : ReturnInput} {c : CustomerRow}
    (h : refundSpend sale input ≤ customerSums c) :
    customerSums (c.refund sale (refundTotalOf sale input)
      (refundRatio sale (refundTotalOf sale input))) = customerSums c + -refundSpend sale input := by
  obtain ⟨htotal, hpoints⟩ := h
  rw [← sub_eq_add_neg]
  exact Prod.ext (max_eq_right (sub_nonneg.mpr htotal)) (max_eq_right (sub_nonneg.mpr hpoints))

/-- A return takes its share out of the mechanic's sums, where they cover it. -/
theorem sums_refundMechanic {sale : SaleRow} {input : ReturnInput} {m : MechanicRow}
    (hown : m.discountBase = m.totalDiscount) (h : refundCredit sale input ≤ mechanicSums m) :
    mechanicSums (m.withTotals (m.refund sale input.refundMethod (refundTotalOf sale input)
      (refundRatio sale (refundTotalOf sale input)))) = mechanicSums m + -refundCredit sale input := by
  obtain ⟨hsales, hdiscount, hmarkup, hbalance⟩ := h
  have hrefund : (m.refund sale input.refundMethod (refundTotalOf sale input)
      (refundRatio sale (refundTotalOf sale input))).totalDiscount = max 0 (m.totalDiscount -
        reverseCredit sale (refundRatio sale (refundTotalOf sale input))) := by
    rw [← hown]
    rfl
  rw [← sub_eq_add_neg]
  refine Prod.ext (max_eq_right (sub_nonneg.mpr hsales)) (Prod.ext ?_ (Prod.ext ?_ ?_))
  · exact hrefund.trans (max_eq_right (sub_nonneg.mpr hdiscount))
  · exact max_eq_right (sub_nonneg.mpr hmarkup)
  · exact max_eq_right (sub_nonneg.mpr hbalance)

namespace Posted

variable {db' : Db} {calls : Nat → Option Call} {e : Event}

/-- An event that moves each total by what it adds to it. -/
theorem next (h : Posted s₀ s)
    (hcustomers : ∀ c, (db'.customers.get c).map customerSums =
      (s.db.customers.get c).map fun row => customerSums row + e.toCustomer c)
    (hmechanics : ∀ m, (db'.mechanics.get m).map mechanicSums =
      (s.db.mechanics.get m).map fun row => mechanicSums row + e.toMechanic m) :
    Posted s₀ ⟨db', calls, s.log ++ [e]⟩ where
  customers := fun c => posted_next (h.customers c) (hcustomers c)
  mechanics := fun m => posted_next (h.mechanics m) (hmechanics m)

theorem sell {x : SaleId} {input : SaleInput} {byId : Table ProductId ProductRow} {no : DocNo}
    {date : Nat} {sale : SaleRow} (h : Posted s₀ s)
    (hsave : saveSale x input byId no date s.db = .ok (sale, db')) :
    Posted s₀ ⟨db', calls, s.log ++ [.sold x sale]⟩ := by
  obtain ⟨products, -, -, rfl, rfl⟩ := of_saveSale hsave
  refine h.next (fun c => ?_) (fun m => ?_)
  · exact sums_updateNamed fun _ _ _ => rfl
  · exact sums_updateNamed fun _ _ _ => rfl

theorem void {x : SaleId} {reason : String} {sale : SaleRow} {now : Nat} (h : Posted s₀ s)
    (hown : ownDiscount sale.mechanicId s.db) (hcover : (Event.voided x sale).Covered s.db) :
    Posted s₀ ⟨voidSaleOffline x reason sale now s.db, calls, s.log ++ [.voided x sale]⟩ := by
  refine h.next (fun c => ?_) (fun m => ?_)
  · exact sums_updateNamed fun row hkey hrow => sums_undoCustomer (hcover.1 c row hkey hrow)
  · exact sums_updateNamed fun row hkey hrow =>
      sums_undoMechanic (hown m row hkey hrow) (hcover.2 m row hkey hrow)

/-- A return posts its share to the customer and to the mechanic, where their sums cover it. -/
theorem giveBack {r : ReturnId} {x : SaleId} {sale : SaleRow} {input : ReturnInput} {now : Nat}
    {plan : ReturnPlan} (h : Posted s₀ s) (hsale : s.db.sales.get x = some sale)
    (hown : ownDiscount sale.mechanicId s.db)
    (hreturn : createReturn r x input now s.db = .ok (plan, db'))
    (hcover : (Event.returned x sale input plan).Covered s.db) :
    Posted s₀ ⟨db', calls, s.log ++ [.returned x sale input plan]⟩ := by
  obtain ⟨-, ⟨refunded, hplan⟩, rfl⟩ := of_createReturn hsale hreturn
  obtain ⟨hcustomer, hmechanic⟩ := of_planReturn hplan
  refine h.next (fun c => ?_) (fun m => ?_)
  · dsimp only
    rw [hcustomer, get_after _ fun after _ => after]
    exact sums_updateNamed fun row hkey hrow => sums_refundCustomer (hcover.1 c row hkey hrow)
  · dsimp only
    rw [hmechanic, get_after _ fun after (row : MechanicRow) => row.withTotals after]
    exact sums_updateNamed fun row hkey hrow =>
      sums_refundMechanic (hown m row hkey hrow) (hcover.2 m row hkey hrow)

/-- A credit payment posts its amount, where the balance covers it. -/
theorem pay {i : PaymentId} {m : MechanicId} {amount : ℚ} {now : Nat} (h : Posted s₀ s)
    (hpay : addCreditPayment i m amount now s.db = .ok db')
    (hcover : (Event.paid m amount).Covered s.db) :
    Posted s₀ ⟨db', calls, s.log ++ [.paid m amount]⟩ := by
  obtain rfl := of_addCreditPayment hpay
  refine h.next (fun c => posted_still rfl rfl) (fun k => ?_)
  dsimp only
  rw [Table.get_modify]
  by_cases hk : k = m
  · subst hk
    rw [if_pos rfl, Option.map_map]
    refine Option.map_congr fun row hrow => ?_
    have hle : amount ≤ row.creditBalance := hcover row hrow
    have hnot : ¬row.creditBalance - amount < 0 := not_lt.mpr (sub_nonneg.mpr hle)
    show mechanicSums { row with creditBalance := if row.creditBalance - amount < 0 then 0 else
      row.creditBalance - amount } = _
    rw [if_neg hnot]
    simp [mechanicSums, Event.toMechanic, sub_eq_add_neg]
  · rw [if_neg hk]
    exact posted_still rfl (if_neg fun heq => hk heq.symm)

end Posted

/-- Every step posts its share, where the state before covers it. -/
theorem Posted.step (h : Posted s₀ s) (ht : Transition toLowerCase s s')
    (hcover : ∀ e, s'.log = s.log ++ [e] → e.Covered s.db) : Posted s₀ s' := by
  cases ht with
  | rest => exact ⟨h.customers, h.mechanics⟩
  | movement => exact ⟨h.customers, h.mechanics⟩
  | cancelled => exact ⟨h.customers, h.mechanics⟩
  | deleted => exact ⟨h.customers, h.mechanics⟩
  | sold _ _ hsave => exact h.sell hsave
  | voided _ _ hown => exact h.void hown (hcover _ rfl)
  | adjusted => exact h.next (fun c => posted_still rfl rfl) (fun m => posted_still rfl rfl)
  | returned hsale _ hown hreturn => exact h.giveBack hsale hown hreturn (hcover _ rfl)
  | @received calls id po now hpo =>
      have hcustomers : (receivePO toLowerCase id now s.db).customers = s.db.customers := by
        rw [receivePO, hpo]
      have hmechanics : (receivePO toLowerCase id now s.db).mechanics = s.db.mechanics := by
        rw [receivePO, hpo]
      refine h.next (fun c => posted_still ?_ rfl) (fun m => posted_still ?_ rfl)
      · rw [hcustomers]
      · rw [hmechanics]
  | paid hpay => exact h.pay hpay (hcover _ rfl)

theorem Posted.start (h : s.Start) : Posted s s where
  customers := by
    intro c
    rw [h.log, total_nil]
    simp
  mechanics := by
    intro m
    rw [h.log, total_nil]
    simp

/-! ## Runs -/

theorem Live.start (h : s.Start) : s.Live := by
  intro c call hcall
  rw [h.calls c] at hcall
  cases hcall

/-- **A run keeps the balance.** -/
theorem run_kept {acts : List Act} (hlive : s.Live) (h : Kept s₀ s) (ht : Traced s)
    (hmeets : AllMeet toLowerCase Meets acts s) :
    Kept s₀ (run toLowerCase acts s) ∧ Traced (run toLowerCase acts s) := by
  induction acts generalizing s with
  | nil => exact ⟨h, ht⟩
  | cons a acts ih =>
      obtain ⟨ha, hacts⟩ := hmeets
      have hcases : Transition toLowerCase s (Drift.step toLowerCase a s) := step_cases hlive ha
      exact ih (step_live hlive) (h.step hcases) (ht.step hcases) hacts

end

/-- One product, and an order for more of it. -/
def smallShop : State :=
  { db :=
      { products := Table.empty.insert 1 ⟨"pn-1", "brake pad", 60, 10, false⟩
        customers := Table.empty.insert 3 ⟨0, 0⟩
        mechanics := Table.empty
        sales := Table.empty
        returns := Table.empty
        purchaseOrders := Table.empty.insert 6 ⟨.opened, none, none, [⟨"pn-1", "brake pad", 5, 66⟩]⟩
        creditPayments := Table.empty
        quotes := Table.empty
        movements := [] }
    calls := fun _ => none
    log := [] }

end Drift

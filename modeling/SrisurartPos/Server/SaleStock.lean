import SrisurartPos.Server.Accepted
import SrisurartPos.Server.StockLedger
import SrisurartPos.Txn.Schedule

/-! # Stock and bills

A bill is sold whole or not at all. What its lines ask of one product is added up, the products are
locked in the order of their ids, and every demand the locked rows do not meet is named in one
refusal. The rows stay locked, so the deduction that follows finds what the check has seen. -/

namespace Server

open Txn

/-! ## Demand and supply -/

/-- What the lines of a bill ask of one product together. -/
def demandOf (items : List SaleLine) (p : ProductId) : Int :=
  (items.map fun l => if l.productId = p then l.qty else 0).sum

/-- The product, when it is for sale. -/
def Db.onShelf (db : Db) (p : ProductId) : Option Product :=
  (db.products.get p).filter fun row => !row.deleted

/-- There is enough of the product on the shelf. -/
def Db.Meets (db : Db) (items : List SaleLine) (p : ProductId) : Prop :=
  ∃ row, db.onShelf p = some row ∧ demandOf items p ≤ row.stock

/-- There is enough of every product on the bill. -/
def Db.Covers (db : Db) (items : List SaleLine) : Prop :=
  ∀ p ∈ items.map SaleLine.productId, db.Meets items p

/-- What a refusal says: it names every product that is short, each once, under the name it has on
the shelf or else on the bill, with its stock and what the bill asks of it. -/
structure Db.Shortfall (db : Db) (items : List SaleLine) (lines : List ShortLine) : Prop where
  nonempty : lines ≠ []
  once : (lines.map (·.productId)).Nodup
  named : ∀ p, some p ∈ lines.map (·.productId) ↔
    p ∈ items.map SaleLine.productId ∧ ¬db.Meets items p
  details : ∀ l ∈ lines, ∃ p, l.productId = some p ∧ l.requested = demandOf items p ∧
    l.stock = (db.onShelf p).map (·.stock) ∧
    ∃ line ∈ items, line.productId = p ∧ l.name = ((db.onShelf p).map (·.name)).getD line.name

/-- What a bill does to the shelf and its ledger: each product goes down by what the lines ask of it,
and one row says so. -/
structure Sold (dto : SaleWrite) (s s' : Db) : Prop where
  stock : ∀ p, s'.products.get p =
    (s.products.get p).map (Product.addStock (-demandOf dto.items p))
  ledger : ∃ rows, s'.movements = s.movements ++ rows ∧ (rows.map (·.productId)).Nodup ∧
    (∀ p, p ∈ rows.map (·.productId) ↔ p ∈ dto.items.map SaleLine.productId) ∧
    ∀ mv ∈ rows, mv.type = .sale ∧ mv.refId = some dto.id ∧
      mv.delta = -demandOf dto.items mv.productId ∧
      ∃ row, s.products.get mv.productId = some row ∧ mv.stockAfter = row.stock + mv.delta

section
variable {items : List SaleLine}

/-- A demand is what the lines of its product ask for. -/
theorem qty_of_mem_aggregate {d : Demand} (hd : d ∈ aggregate items) :
    d.qty = demandOf items d.productId := by
  have hsum := sum_aggregate items fun q => if q = d.productId then 1 else 0
  simp only [ite_mul, one_mul, zero_mul] at hsum
  rw [demandOf, ← hsum]
  exact (Grouping.sum_of_key (nodup_aggregate items) hd Demand.qty).symm

/-- A demand is named after a line of its product. -/
theorem line_of_mem_aggregate {d : Demand} (hd : d ∈ aggregate items) :
    ∃ line ∈ items, line.productId = d.productId ∧ line.name = d.requestedName := by
  have hall := @Grouping.forall_collapse _ _ _ Demand.productId Demand.merge
    (fun d => ∃ line ∈ items, line.productId = d.productId ∧ line.name = d.requestedName)
    (fun _ _ hd _ => hd) (items.zipIdx.map fun e => ⟨e.1.productId, e.1.qty, e.1.name, e.2⟩) ?_
  · exact hall d ((aggregate_perm items).mem_iff.mp hd)
  · intro e he
    obtain ⟨⟨line, n⟩, hline, rfl⟩ := List.mem_map.mp he
    exact ⟨line, List.fst_mem_of_mem_zipIdx hline, rfl, rfl⟩

theorem mem_of_mem_aggregate {d : Demand} (hd : d ∈ aggregate items) :
    d.productId ∈ items.map SaleLine.productId :=
  (mem_aggregate items).mp (List.mem_map_of_mem hd)

end

/-! ## The check -/

/-- The rows `lockProducts` answers for these products. -/
def Db.lockedRows (db : Db) (ids : List ProductId) : List (ProductId × Product) :=
  (ids.insertionSort fun p q => p ≤ q).filterMap fun p => (db.onShelf p).map fun row => (p, row)

/-- The rows that were locked are the rows on the shelf. -/
private theorem lookup_onShelf (db : Db) (ids : List ProductId) (p : ProductId) :
    (ids.filterMap fun q => (db.onShelf q).map fun row => (q, row)).lookup p =
      if p ∈ ids then db.onShelf p else none := by
  induction ids with
  | nil => rfl
  | cons q qs ih =>
      rw [List.filterMap_cons]
      cases hq : db.onShelf q with
      | none =>
          simp only [Option.map_none, ih, List.mem_cons]
          rcases eq_or_ne p q with rfl | hne
          · simp [hq]
          · simp [hne]
      | some row =>
          simp only [Option.map_some, List.lookup_cons, ih, List.mem_cons]
          rcases eq_or_ne p q with rfl | hne
          · simp [hq]
          · simp [beq_false_of_ne hne, hne]

theorem lookup_lockedRows {db : Db} {ids : List ProductId} {p : ProductId} (hp : p ∈ ids) :
    (db.lockedRows ids).lookup p = db.onShelf p := by
  rw [Db.lockedRows, lookup_onShelf, if_pos ((List.mem_insertionSort _).mpr hp)]

/-- A refusal names each short product once, in the order of the demands. -/
theorem keys_shortLines (demands : List Demand) (locked : List (ProductId × Product)) :
    ((shortLines demands locked).map (·.productId)).Sublist
      ((demands.map Demand.productId).map some) := by
  induction demands with
  | nil => exact List.Sublist.refl _
  | cons d ds ih =>
      rw [shortLines, List.filterMap_cons]
      split
      · exact ih.cons _
      · rename_i l hl
        have hp : l.productId = some d.productId := by
          grind
        rw [List.map_cons, hp]
        exact ih.cons_cons _

/-- The line a demand is refused with, if it is. -/
private theorem mem_shortLines {db : Db} {items : List SaleLine} {l : ShortLine} :
    l ∈ shortLines (aggregate items) (db.lockedRows ((aggregate items).map Demand.productId)) ↔
      ∃ d ∈ aggregate items, ¬db.Meets items d.productId ∧
        l = ⟨((db.onShelf d.productId).map (·.name)).getD d.requestedName, some d.productId,
          (db.onShelf d.productId).map (·.stock), demandOf items d.productId⟩ := by
  rw [shortLines, List.mem_filterMap]
  apply exists_congr
  intro d
  apply and_congr_right
  intro hd
  rw [lookup_lockedRows (List.mem_map_of_mem hd), qty_of_mem_aggregate hd, Db.Meets]
  cases hrow : db.onShelf d.productId with
  | none => simp [eq_comm]
  | some row =>
      by_cases hlt : row.stock < demandOf items d.productId
      · simp [hlt, eq_comm]
      · simp [hlt]

/-- **The check names what is short.** -/
theorem shortLines_spec (db : Db) (items : List SaleLine) :
    let lines := shortLines (aggregate items)
      (db.lockedRows ((aggregate items).map Demand.productId))
    (lines = [] ↔ db.Covers items) ∧ (lines ≠ [] → db.Shortfall items lines) := by
  intro lines
  have hmem {l : ShortLine} : l ∈ lines ↔ _ := mem_shortLines
  have hnamed : ∀ p, some p ∈ lines.map (·.productId) ↔
      p ∈ items.map SaleLine.productId ∧ ¬db.Meets items p := by
    intro p
    rw [List.mem_map]
    constructor
    · rintro ⟨l, hl, hp⟩
      obtain ⟨d, hd, hshort, rfl⟩ := hmem.mp hl
      obtain rfl := Option.some.inj hp
      exact ⟨mem_of_mem_aggregate hd, hshort⟩
    · rintro ⟨hp, hshort⟩
      obtain ⟨d, hd, rfl⟩ := List.mem_map.mp ((mem_aggregate items).mpr hp)
      exact ⟨_, hmem.mpr ⟨d, hd, hshort, rfl⟩, rfl⟩
  constructor
  · constructor
    · intro hnil p hp
      by_contra hshort
      have := (hnamed p).mpr ⟨hp, hshort⟩
      rw [hnil] at this
      cases this
    · intro hcov
      apply List.eq_nil_iff_forall_not_mem.mpr
      intro l hl
      obtain ⟨d, hd, hshort, -⟩ := hmem.mp hl
      exact hshort (hcov _ (mem_of_mem_aggregate hd))
  · intro hne
    refine ⟨hne, ?_, hnamed, ?_⟩
    · apply (keys_shortLines _ _).nodup
      exact (nodup_aggregate items).map (Option.some_injective _)
    · intro l hl
      obtain ⟨d, hd, -, rfl⟩ := hmem.mp hl
      obtain ⟨line, hline, hp, hname⟩ := line_of_mem_aggregate hd
      exact ⟨d.productId, rfl, rfl, rfl, line, hline, hp, by rw [hname]⟩

/-- The steps of `writeSale` that decide whether there is enough. -/
def checkStock (items : List SaleLine) : Prog Unit := do
  let demands := aggregate items
  let locked ← lockProducts (demands.map (·.productId))
  assertStock demands locked

theorem run_lockProducts (ids : List ProductId) (db : Db) :
    (lockProducts ids).run db = .ok (db.lockedRows ids, db) := by
  rw [lockProducts, Tx.run_bind, Tx.run_selectAll, Db.lockedRows]
  simp only [Tx.pure_eq, bind, Except.bind, Tx.run, List.filterMap_map]
  rfl

/-- A bill passes the check exactly when the shelf covers it. -/
theorem run_checkStock (items : List SaleLine) (db : Db) :
    ((checkStock items).run db).isOk = true ↔ db.Covers items := by
  rw [← (shortLines_spec db items).1, checkStock, Tx.run_bind, run_lockProducts]
  show ((Tx.require _ _).run db).isOk = true ↔ _
  rw [Tx.require]
  split
  · simp [Tx.run, Except.isOk, Except.toBool, *]
  · simp [Tx.run, Except.isOk, Except.toBool, *]

/-! ## What else a bill can be refused for -/

/-- What a bill is sold from: the products, and the quote it may come from. -/
def Db.offer (db : Db) : Table ProductId Product × Table QuoteId Quote := (db.products, db.quotes)

theorem tame_flagRenumbered (id : Nat) (offlineNo : Option DocNo) (serverNo : DocNo) :
    Tame Db.offer NotShort (flagRenumbered id offlineNo serverNo) := by
  rcases offlineNo with _ | n | text
  · trivial
  · rw [flagRenumbered]
    split
    · trivial
    · exact tame_update fun _ => rfl
  · trivial

theorem tame_replay (dto : SaleWrite) (quoteId : Option QuoteId) (soldAt : Option Nat) :
    Tame Db.offer NotShort (checkClientIdReplay (.saleCreate dto quoteId soldAt)) := by
  refine (tame_existingSale _ _ _ _).bind fun existing => ?_
  cases existing with
  | none => trivial
  | some r => exact (tame_flagRenumbered _ _ _).bind fun _ => trivial

theorem tame_replayKey (key : Nat) (dto : SaleWrite) (quoteId : Option QuoteId)
    (soldAt : Option Nat) :
    Tame Db.offer NotShort (replayKeyOfSameDocument key (.saleCreate dto quoteId soldAt)) := by
  refine (tame_glance _).bind fun row => ?_
  cases row with
  | none => trivial
  | some stored =>
      dsimp only
      split
      · trivial
      · exact tame_replay dto quoteId soldAt

/-! ## Refusals -/

/-- A refusal for stock names what is short in `s`. -/
def Db.Refuses (s : Db) (items : List SaleLine) (e : ServerError) : Prop :=
  ∀ lines, e = .insufficientStock lines → s.Shortfall items lines

theorem NotShort.refuses {s : Db} {items : List SaleLine} (e : ServerError) (h : NotShort e) :
    s.Refuses items e := fun lines hlines => absurd hlines (h lines)

section
variable {H : Held LockKey} {s s' : Db} {env : Env} {actor : Actor} {dto : SaleWrite}

theorem Db.Shortfall.congr {items : List SaleLine} {lines : List ShortLine}
    (hs : s'.products = s.products) (h : s'.Shortfall items lines) : s.Shortfall items lines := by
  have hshelf : s'.onShelf = s.onShelf := by
    funext p
    rw [Db.onShelf, Db.onShelf, hs]
  have hmeets : s'.Meets = s.Meets := by
    funext items p
    rw [Db.Meets, Db.Meets, hshelf]
  exact ⟨h.nonempty, h.once, hmeets ▸ h.named, hshelf ▸ h.details⟩

/-- Where the body of a sale refuses for want of stock, it names exactly what is short. -/
theorem wp_writeSale_refuses (hs : s'.products = s.products) :
    wp (writeSale env actor dto) H s' (s.Refuses dto.items) fun _ _ _ => True := by
  refine (tame_requireOpenShiftIdFor (f := Db.products) _).seq NotShort.refuses ?_
  intro k H₁ s₁ h₁
  refine (tame_resolvePaymentAccount (f := Db.products) _).seq NotShort.refuses ?_
  intro account H₂ s₂ h₂
  refine (tame_lockMechanicAndCheckLimit (f := Db.products) _).seq NotShort.refuses ?_
  intro override H₃ s₃ h₃
  have hs₃ : s₃.products = s.products := h₃.trans (h₂.trans (h₁.trans hs))
  refine (wp_bind _ _).mpr (wp_bind_selectAll ?_)
  rw [List.filterMap_map]
  refine wp_bind_require (fun _ => ?_) fun hshort => ?_
  · -- nothing that follows asks for stock again
    refine Tame.last (f := fun _ : Db => ()) ?_ NotShort.refuses
    have hf : ∀ {s s' : Db}, s.papers = s'.papers → s.quotes = s'.quotes → () = () := fun _ _ => rfl
    refine (tame_deduct hf _).bind fun after => (tame_resolveDocNumber hf _ _ _ _).bind fun n => ?_
    refine (tame_insertSale (fun _ _ _ => rfl) _ _).bind fun _ => (tame_insertMovements hf _ _ _).bind fun mvs => ?_
    refine (tame_updateCustomer hf _ _).bind fun cust => (tame_updateMechanic hf _ _).bind fun mech => ?_
    exact ⟨fun _ => rfl, trivial⟩
  · intro lines hlines
    obtain rfl := ServerError.insufficientStock.inj hlines
    exact ((shortLines_spec s₃ dto.items).2 hshort).congr hs₃

/-- So does the sale. -/
theorem wp_createSale_refuses (hs : s'.products = s.products) :
    wp (createSale env actor dto) H s' (s.Refuses dto.items) fun _ _ _ => True := by
  refine wp_bind_ofExcept (fun _ _ => ?_) fun e he => NotShort.refuses e fun lines hlines => ?_
  · refine (tame_existingSale (f := Db.products) _ _ _ _).seq NotShort.refuses ?_
    intro existing H₁ s₁ h₁
    cases existing with
    | some r => trivial
    | none => exact wp_writeSale_refuses (h₁.trans hs)
  · subst hlines
    simp only [assertSaleTotals] at he
    split_ifs at he
    cases he

/-- The end of both ways to sell a quote at the counter. -/
private theorem wp_afterSale {q : QuoteId} {state : QuoteState} {r : CreateSaleResult} :
    wp ((do
      Tx.whenever (state = .fresh) (markConverted q r.id)
      let row ← Tx.selectFor .update (.quote q) fun db => db.quotes.get q
      let row ← Tx.orFail row .vanished
      return (r, some (soldQuote q row)) : Prog (CreateSaleResult × Option SoldQuote)))
      H s' (s.Refuses dto.items) fun _ _ _ => True := by
  refine Tame.last (f := fun _ : Db => ()) ?_ NotShort.refuses
  refine (Tame.whenever (tame_markConverted (fun _ => rfl) q r.id)).bind fun _ => ?_
  exact (tame_selectFor _ _ _).bind fun row => (tame_orFail nofun).bind fun row => trivial

theorem wp_sell_refuses {q : QuoteId} (hs : s'.products = s.products) :
    wp (sell env actor q dto) H s' (s.Refuses dto.items) fun _ _ _ => True := by
  refine (tame_lockForSale (f := Db.offer) env q dto.id).seq NotShort.refuses fun state H₁ s₁ h₁ => ?_
  have hs₁ : s₁.products = s.products := (Prod.mk.inj h₁).1.trans hs
  split
  · refine Tame.last (f := Db.offer) ?_ NotShort.refuses
    refine (tame_existingSale _ _ _ _).bind fun existing => ?_
    exact (tame_orFail fun _ h => by cases h).bind fun r => trivial
  · exact wp_seq (wp_createSale_refuses hs₁) fun r H₂ s₂ _ => wp_afterSale

/-- The bill of a conversion is the one made of the quote as it stands. -/
theorem wp_convert_refuses {q : QuoteId} {quote : Quote} {party : SaleParty}
    (hs : s'.offer = s.offer) (hquote : s.quotes.get q = some quote)
    (hbill : saleFrom quote party = .ok dto) :
    wp (convert env actor q party) H s' (s.Refuses dto.items) fun _ _ _ => True := by
  refine (tame_lockForSale (f := Db.offer) env q party.id).seq NotShort.refuses fun state H₁ s₁ h₁ => ?_
  obtain ⟨hproducts, hquotes⟩ := Prod.mk.inj (h₁.trans hs)
  refine wp_bind_require (fun _ => wp_bind_selectFor ?_) fun _ => NotShort.refuses _ nofun
  refine wp_bind_orFail (fun row hrow => ?_) fun _ => NotShort.refuses _ nofun
  rw [hquotes, hquote] at hrow
  obtain rfl := Option.some.inj hrow
  refine wp_bind_ofExcept (fun b hb => ?_) fun e he => ?_
  · rw [hbill] at hb
    obtain rfl := Except.ok.inj hb
    exact wp_seq (wp_createSale_refuses hproducts) fun r H₂ s₂ _ => wp_afterSale
  · rw [hbill] at he
    cases he

/-- A sale that was pushed refuses on the same grounds. -/
theorem wp_pushSale_refuses {quoteId : Option QuoteId} {soldAt : Option Nat}
    (hs : s'.products = s.products) :
    wp (pushSale env actor dto quoteId soldAt) H s' (s.Refuses dto.items) fun _ _ _ => True := by
  cases quoteId with
  | none => exact wp_seq (wp_createSale_refuses hs) fun r H₁ s₁ _ => trivial
  | some q =>
      refine (tame_lockAndClassify (f := Db.offer) env q dto.id soldAt).seq NotShort.refuses ?_
      intro state H₁ s₁ h₁
      have hs₁ : s₁.products = s.products := (Prod.mk.inj h₁).1.trans hs
      refine wp_seq (wp_createSale_refuses hs₁) fun r H₂ s₂ _ => ?_
      refine Tame.last (f := fun _ : Db => ()) ?_ NotShort.refuses
      exact (tame_settleOfflineQuote (fun _ => rfl) q r.id state).bind fun _ => trivial

end

/-! ## Main result -/

/-- The bill a transaction is to write: that of its body, or the one made of the quote it converts. -/
def Op.Sells (s : Db) : Op → SaleWrite → Prop
  | .post _ _ _ _ (.sale dto _), b             => b = dto.online
  | .post _ _ _ _ (.convertQuote q party), b   => ∃ quote, s.quotes.get q = some quote ∧
      saleFrom quote party = .ok b
  | .push _ _ _ _ (.saleCreate dto _ _), b     => b = dto.offline
  | _, _                                       => False

private theorem refuses_parse {s : Db} {items : List SaleLine} {dto : SaleWrite} (e : ServerError)
    (h : parseCreateSale dto = .error e) : s.Refuses items e :=
  NotShort.refuses e (parseCreateSale_errors (fun _ => nofun) dto e h)

/-- **A transaction that is to write a bill refuses it for stock only where the committed shelf falls
short.** -/
theorem wp_prog_refuses {op : Op} {s : Db} {dto : SaleWrite} (hsells : op.Sells s dto) :
    wp (prog op) [] s (s.Refuses dto.items) fun _ _ _ => True := by
  cases op with
  | reportUnsynced d n => cases hsells
  | cleanup now => cases hsells
  -- up to the deduction nothing writes a product, so the shelf is the committed one
  | post env actor key requestHash req =>
      refine (tame_claim (f := Db.offer) (fun _ _ => rfl) nofun env key req.endpoint requestHash).seq
        NotShort.refuses ?_
      intro out H₁ s₁ h₁
      obtain ⟨hproducts, -⟩ := Prod.mk.inj h₁
      cases out with
      | reused => exact NotShort.refuses _ nofun
      | replay body => trivial
      | claimed =>
          refine wp_seq (R := fun _ _ _ => True) ?_ fun body H₂ s₂ _ => ?_
          · cases req with
            | sale b quoteId =>
                obtain rfl : dto = b.online := hsells
                refine wp_bind_ofExcept (fun _ _ => ?_) refuses_parse
                cases quoteId with
                | none => exact wp_seq (wp_createSale_refuses hproducts) fun _ _ _ _ => trivial
                | some q => exact wp_seq (wp_sell_refuses hproducts) fun _ _ _ _ => trivial
            | convertQuote q party =>
                obtain ⟨quote, hquote, hbill⟩ := hsells
                refine wp_bind_ofExcept (fun _ _ => ?_) fun e he => ?_
                · exact wp_seq (wp_convert_refuses h₁ hquote hbill) fun _ _ _ _ => trivial
                · exact NotShort.refuses e (parseSaleParty_errors (fun _ => nofun) _ _ e he)
            | _ => cases hsells
          -- what is written afterwards refuses for no stock
          · refine Tame.last (f := Db.offer) ?_ NotShort.refuses
            exact (tame_complete (fun _ _ => rfl) nofun key body).bind fun _ => trivial
  | push env actor key requestHash op =>
      cases op with
      | saleCreate b quoteId soldAt =>
          obtain rfl : dto = b.offline := hsells
          refine (tame_claim (f := Db.offer) (fun _ _ => rfl) nofun env key _ requestHash).seq NotShort.refuses ?_
          intro out H₁ s₁ h₁
          obtain ⟨hproducts, -⟩ := Prod.mk.inj h₁
          cases out with
          | replay body => trivial
          | reused =>
              refine (tame_replayKey key b quoteId soldAt).seq NotShort.refuses ?_
              intro own H₂ s₂ h₂
              cases own with
              | some r => trivial
              | none =>
                  refine wp_bind_ofExcept (fun _ _ => ?_) refuses_parse
                  exact NotShort.refuses _ nofun
          | claimed =>
              refine (tame_replay b quoteId soldAt).seq NotShort.refuses fun existing H₂ s₂ h₂ => ?_
              cases existing with
              | some r =>
                  refine Tame.last (f := Db.offer) ?_ NotShort.refuses
                  exact (tame_complete (fun _ _ => rfl) nofun key r).bind fun _ => trivial
              | none =>
                  have hs₂ : s₂.products = s.products := (Prod.mk.inj h₂).1.trans hproducts
                  refine wp_bind_ofExcept (fun _ _ => ?_) refuses_parse
                  refine wp_seq (R := fun _ _ _ => True) ?_ fun r H₃ s₃ _ => ?_
                  · have hdate := tame_clampOpDate (f := Db.offer) (P := NotShort) (fun _ _ => rfl) env
                      actor.deviceId b.receiptNo b.id soldAt
                    refine hdate.seq NotShort.refuses fun date H₃ s₃ h₃ => ?_
                    exact wp_pushSale_refuses ((Prod.mk.inj h₃).1.trans hs₂)
                  refine Tame.last (f := Db.offer) ?_ NotShort.refuses
                  exact (tame_complete (fun _ _ => rfl) nofun key r).bind fun _ => trivial
      | _ => cases hsells

theorem productIds_ledgerRows {type : MovementType} {ref : Nat} {moves : List (ProductId × Int)}
    {t : Table ProductId Product} (h : ∀ m ∈ moves, (t.get m.1).isSome = true) :
    (Db.ledgerRows type ref moves t).map (·.productId) = moves.map Prod.fst := by
  induction moves with
  | nil => rfl
  | cons m moves ih =>
      obtain ⟨row, hrow⟩ := Option.isSome_iff_exists.mp (h m List.mem_cons_self)
      have hmoves := ih fun m' hm' => h m' (List.mem_cons_of_mem _ hm')
      rw [Db.ledgerRows] at hmoves ⊢
      rw [List.filterMap_cons]
      simp only [hrow, Option.map_some, List.map_cons, hmoves]

/-- What a bill that is written finds on the shelf and leaves there. -/
theorem SaleAdmitted.sold {actor : Actor} {dto : SaleWrite} {s : Db} {k : ShiftId} {row : Sale}
    (h : SaleAdmitted actor dto s k row) :
    s.Covers dto.items ∧ Sold dto s (s.recordSale dto.id row (saleMoves dto.items)) := by
  have hfound : ∀ d ∈ aggregate dto.items, ∃ product, s.products.get d.productId = some product ∧
      s.onShelf d.productId = some product ∧ demandOf dto.items d.productId ≤ product.stock := by
    intro d hd
    obtain ⟨product, hproduct, hlive, hle⟩ := h.stock d hd
    refine ⟨product, hproduct, ?_, qty_of_mem_aggregate hd ▸ hle⟩
    rw [Db.onShelf, hproduct, Option.filter_some, hlive]
    rfl
  have hkeys : ((saleMoves dto.items).map Prod.fst).Nodup := by
    rw [keys_saleMoves]
    exact nodup_aggregate _
  constructor
  · intro p hp
    obtain ⟨d, hd, rfl⟩ := List.mem_map.mp ((mem_aggregate dto.items).mpr hp)
    obtain ⟨product, -, hshelf, hle⟩ := hfound d hd
    exact ⟨product, hshelf, hle⟩
  · refine ⟨fun p => ?_, Db.ledgerRows .sale dto.id (saleMoves dto.items) s.products, ?_, ?_, ?_, ?_⟩
    · show ((s.insertSale dto.id row).moveStock .sale dto.id (saleMoves dto.items)).products.get p = _
      rw [get_products_moveStock, shiftOf_saleMoves]
      rfl
    · show ((s.insertSale dto.id row).moveStock .sale dto.id (saleMoves dto.items)).movements = _
      rw [moveStock_eq _ _ _ _ hkeys]
      rfl
    · rw [productIds_ledgerRows]
      · exact hkeys
      · intro m hm
        obtain ⟨d, hd, rfl⟩ := List.mem_map.mp hm
        obtain ⟨product, hproduct, -⟩ := hfound d hd
        rw [hproduct]
        rfl
    · intro p
      rw [productIds_ledgerRows, keys_saleMoves, mem_aggregate]
      intro m hm
      obtain ⟨d, hd, rfl⟩ := List.mem_map.mp hm
      obtain ⟨product, hproduct, -⟩ := hfound d hd
      rw [hproduct]
      rfl
    · intro mv hmv
      obtain ⟨m, hm, hmv⟩ := List.mem_filterMap.mp hmv
      obtain ⟨product, hproduct, rfl⟩ := Option.map_eq_some_iff.mp hmv
      obtain ⟨d, hd, rfl⟩ := List.mem_map.mp hm
      exact ⟨rfl, rfl, by rw [qty_of_mem_aggregate hd], product, hproduct, rfl⟩

theorem Sold.withDesk {dto : SaleWrite} {s s' : Db} (h : Sold dto s s') (desk : Desk) :
    Sold dto s (s'.withDesk desk) := ⟨h.stock, h.ledger⟩

/-- What a conversion writes is the bill of the quote as it stands. -/
theorem wp_convert_bills {s : Db} (hs : s.Consistent) {env : Env} {actor : Actor}
    {key requestHash : Nat} {q : QuoteId} {party : SaleParty} :
    wp (prog (.post env actor key requestHash (.convertQuote q party))) [] s Expected fun _ _ s' =>
      ∃ e, (e = .none ∨ ∃ quote dto, s.quotes.get q = some quote ∧ saleFrom quote party = .ok dto ∧
        e = .sale actor dto) ∧ Performs e s s' := by
  refine (wp_bind _ _).mpr (wp_claim_keys fun out H₁ keys _ => ?_)
  have hidle : ∃ e, (e = .none ∨ ∃ quote dto, s.quotes.get q = some quote ∧
      saleFrom quote party = .ok dto ∧ e = .sale actor dto) ∧ Performs e s (s.withKeys keys) :=
    ⟨.none, .inl rfl, Performs.none s (s.withKeys keys).desk⟩
  cases out with
  | reused => rfl
  | replay body => exact hidle
  | claimed =>
      have hkeys : (s.withKeys keys).Consistent := hs
      refine (wp_bind _ _).mpr (wp_bind_ofExcept (fun _ hparse => ?_) (parseSaleParty_expected _ _))
      refine wp_seq (wp_convert hkeys) ?_
      rintro r H₂ s₂ ⟨quote, dto, hquote, hdto, hsold, -⟩
      obtain ⟨e, he, hperf⟩ := hsold.performs (.quoted quote party hparse hdto)
      refine (wp_bind _ _).mpr (wp_complete_keys fun H₃ keys' => ⟨e, ?_, ?_⟩)
      · exact he.imp_right fun he => ⟨quote, dto, hquote, hdto, he⟩
      · have hperf : Performs e (s.withDesk (s.withKeys keys).desk) s₂ := hperf
        exact hperf.after_desk.before_desk (s₂.withKeys keys').desk

/-- **A transaction that is to write a bill writes that one, or none.** -/
theorem wp_prog_bills {s : Db} (hs : s.Consistent) (op : Op) :
    wp (prog op) [] s Expected fun _ _ s' => ∃ e, (e = .none ∨ op.Allows e) ∧ Performs e s s' ∧
      ∀ dto, op.Sells s dto → e = .none ∨ ∃ actor, e = .sale actor dto := by
  have hof : (∀ e dto, op.Allows e → op.Sells s dto → ∃ actor, e = .sale actor dto) →
      wp (prog op) [] s Expected fun _ _ s' => ∃ e, (e = .none ∨ op.Allows e) ∧ Performs e s s' ∧
        ∀ dto, op.Sells s dto → e = .none ∨ ∃ actor, e = .sale actor dto := by
    intro hsells
    refine wp_mono (wp_prog hs op) (fun _ h => h) ?_
    rintro a H s' ⟨⟨⟨e, he, hperf⟩, -, -⟩, -⟩
    exact ⟨e, he, hperf, fun dto hdto => he.imp_right fun hallow => hsells e dto hallow hdto⟩
  cases op with
  | post env actor key requestHash req =>
      cases req with
      | sale b quoteId => exact hof fun e dto hallow hdto => ⟨actor, by rw [hallow, hdto]⟩
      | convertQuote q party =>
          refine wp_mono (wp_convert_bills hs) (fun _ h => h) ?_
          rintro a H s' ⟨e, he, hperf⟩
          refine ⟨e, he.imp_right ?_, hperf, fun dto hdto => he.imp_right ?_⟩
          · rintro ⟨quote, dto, -, hbill, rfl⟩
            exact ⟨dto, id_saleFrom hbill, rfl⟩
          · rintro ⟨quote, dto', hquote, hbill, rfl⟩
            obtain ⟨quote', hquote', hbill'⟩ := hdto
            rw [hquote] at hquote'
            obtain rfl := Option.some.inj hquote'
            rw [hbill] at hbill'
            obtain rfl := Except.ok.inj hbill'
            exact ⟨actor, rfl⟩
      | _ => exact hof fun e dto hallow hdto => hdto.elim
  | push env actor key requestHash op =>
      cases op with
      | saleCreate b quoteId soldAt => exact hof fun e dto hallow hdto => ⟨actor, by rw [hallow, hdto]⟩
      | _ => exact hof fun e dto hallow hdto => hdto.elim
  | reportUnsynced d n => exact hof fun e dto hallow hdto => hdto.elim
  | cleanup now => exact hof fun e dto hallow hdto => hdto.elim

/-- A transaction that is to write a bill is to leave it on file. -/
theorem Op.filing_of_sells {op : Op} {s : Db} {dto : SaleWrite} (h : op.Sells s dto) :
    op.filing = some (.sale dto.id) := by
  cases op with
  | post env actor key requestHash req =>
      cases req with
      | sale b quoteId =>
          obtain rfl : dto = b.online := h
          rfl
      | convertQuote q party =>
          obtain ⟨quote, -, hbill⟩ := h
          exact congrArg (fun x => some (Document.sale x)) (id_saleFrom hbill).symm
      | _ => cases h
  | push env actor key requestHash op =>
      cases op with
      | saleCreate b quoteId soldAt =>
          obtain rfl : dto = b.offline := h
          rfl
      | _ => cases h
  | reportUnsynced d n => cases h
  | cleanup now => cases h

section
variable {T : Type} [DecidableEq T] {s₀ : Db} {S : System T}

/-- A commit writes the bill it is to write, unless the bill is there or its key has an answer. -/
theorem Commit.bills (h₀ : s₀.Consistent) (h : Reachable prog s₀ S) {S' : System T} {t : T} {op : Op}
    {a : Reply} (hc : Commit t op a S S') :
    ∃ e, (e = .none ∨ op.Allows e) ∧ Performs e S.db S'.db ∧ ∀ dto, op.Sells S.db dto →
      (∃ actor, e = .sale actor dto) ∨ S'.db = S.db.withDesk S'.db.desk ∧
        (S.db.OnFile (.sale dto.id) ∨ S'.db.unflagged = S.db.unflagged) := by
  obtain ⟨e, hallow, hperf, hsells⟩ := hc.does sound h₀ h (fun _ s s' =>
    ∃ e, (e = .none ∨ op.Allows e) ∧ Performs e s s' ∧
      ∀ dto, op.Sells s dto → e = .none ∨ ∃ actor, e = .sale actor dto)
    fun s hs => wpHeld_of_wp (wp_prog_bills hs op)
  refine ⟨e, hallow, hperf, fun dto hdto => ?_⟩
  rcases hsells dto hdto with rfl | hsale
  · obtain ⟨t', desk, hch, hdb⟩ := hperf
    cases hch with
    | none =>
        refine .inr ⟨by rw [hdb]; rfl, ?_⟩
        rcases Commit.filed h₀ h hc (Op.filing_of_sells hdto) with hsame | hthere
        · exact .inr hsame
        · rw [hdb] at hthere
          exact .inl hthere
  · exact .inl hsale

/-- **A bill is sold whole or not at all.** The check lets a bill pass exactly when the shelf covers
it. In every run, a transaction that refuses its bill for stock names what is short on the committed
shelf, and like every transaction that ends in an error it leaves the database as it was; none ends
in the deduction's own error. A transaction that is to write a bill and commits has written it, or
the bill was on file, or its key had the answer; the books are then as they were. And a bill that is
committed found the shelf covering it, lowered each product by what its lines ask together, and left
one row that says so. -/
theorem bill_all_or_nothing (h₀ : s₀.Consistent) (h : Reachable prog s₀ S) :
    (∀ db items, ((checkStock items).run db).isOk = true ↔ db.Covers items) ∧
    (∀ t x, S.live t = some x → x.prog ≠ .fail .stockUnderflow ∧
      ∀ dto lines, x.op.Sells S.db dto → x.prog = .fail (.insufficientStock lines) →
        S.db.Shortfall dto.items lines) ∧
    ∀ S', Step prog S S' →
      (∀ t x e, S.live t = some x → x.prog = .fail e →
        S'.live t = some x ∨ S'.live t = none ∧ S'.db = S.db ∧ S'.log = S.log) ∧
      (S'.db = S.db ∧ S'.log = S.log ∨
        ∃ op a e, S'.log = S.log ++ [(op, a)] ∧ (e = .none ∨ op.Allows e) ∧
          Performs e S.db S'.db ∧
          (∀ dto, op.Sells S.db dto → (∃ actor, e = .sale actor dto) ∨
            S'.db = S.db.withDesk S'.db.desk ∧
              (S.db.OnFile (.sale dto.id) ∨ S'.db.unflagged = S.db.unflagged)) ∧
          ∀ actor dto, e = .sale actor dto → S.db.Covers dto.items ∧ Sold dto S.db S'.db) := by
  refine ⟨fun db items => run_checkStock items db, fun t x hx => ⟨?_, ?_⟩, fun S' hstep => ⟨?_, ?_⟩⟩
  · intro hfail
    have hexp : Expected .stockUnderflow := Reachable.error sound h₀ h hx hfail
    cases hexp
  · intro dto lines hsells hfail
    refine Reachable.refuses sound h₀ h
      (fun op e s => op.Sells s dto → s.Refuses dto.items e) ?_ hx hfail hsells lines rfl
    intro op s hs
    by_cases hop : op.Sells s dto
    · exact wp_mono (wp_prog_refuses hop) (fun _ he _ => he) fun _ _ _ _ => trivial
    · exact wp_mono (wp_prog hs op) (fun _ _ hsells => absurd hsells hop) fun _ _ _ _ => trivial
  · intro t x e hx hfail
    exact hstep.of_fail hx hfail
  · rcases hstep.commit_or_quiet with hquiet | ⟨t, op, a, hc⟩
    · exact .inl hquiet
    · obtain ⟨e, hallow, hperf, hbills⟩ := Commit.bills h₀ h hc
      refine .inr ⟨op, a, e, hc.log, hallow, hperf, hbills, ?_⟩
      rintro actor dto rfl
      obtain ⟨t', desk, hch, hdb⟩ := hperf
      cases hch with
      | sale actor dto k row hsrc hadm =>
          rw [hdb]
          exact ⟨hadm.sold.1, hadm.sold.2.withDesk desk⟩

/-- A bill that asks for the product on two lines. -/
def twoLineBill : SaleWrite :=
  { cashBill 22 4 four_sold_pos with
    items := [⟨1, 7, "brake pad", 2, 100, two_pieces_pos⟩,
      ⟨2, 7, "brake pad", 2, 100, two_pieces_pos⟩] }

/-- It stands before its products are locked when another bill takes three of the five pieces. -/
def acrossAnotherBill : List (Turn Op (Fin 2)) :=
  [.begins 0 (.post (plainEnv 0 90) ⟨1⟩ 1 0 (.sale (cashBill 21 3 three_sold_pos) none)),
   .begins 1 (.post (plainEnv 0 91) ⟨1⟩ 2 0 (.sale twoLineBill none)),
   .goes 1 8, .goes 0 100, .goes 1 2]

/-- The lines of a counter bill that was refused for stock, and what the refusal says. -/
def refusedBill (x : Live Db LockKey ServerError Reply Op) :
    Option (List SaleLine × List ShortLine) :=
  match x.op, x.prog with
  | .post _ _ _ _ (.sale dto _), .fail (.insufficientStock lines) => some (dto.items, lines)
  | _, _                                                          => none

/-- Two lines of one product ask for more than the shelf has. -/
theorem bill_all_or_nothing_of_short_shelf : ∃ S : System (Fin 2), Reachable prog smallShop S ∧
    S.db.Shortfall twoLineBill.items [⟨"brake pad", some 7, some 2, 4⟩] := by
  have hrun : (((Sys.init smallShop).follow prog acrossAnotherBill).bind fun S =>
      (S.live 1).bind refusedBill) =
        some (twoLineBill.items, [⟨"brake pad", some 7, some 2, 4⟩]) := by decide +kernel
  obtain ⟨S, hS, hlive⟩ := Option.bind_eq_some_iff.mp hrun
  obtain ⟨x, hx, hrefused⟩ := Option.bind_eq_some_iff.mp hlive
  have hreach : Reachable prog smallShop S := Reachable.init.runs_on (Sys.runs_of_follow hS)
  refine ⟨S, hreach, ?_⟩
  unfold refusedBill at hrefused
  split at hrefused
  · rename_i env actor key requestHash dto quoteId lines hop hfail
    obtain ⟨hitems, rfl⟩ := Prod.mk.inj (Option.some.inj hrefused)
    have hshort := ((bill_all_or_nothing smallShop_consistent hreach).2.1 1 x hx).2 dto.online _
      (hop ▸ rfl) hfail
    rw [← hitems]
    exact hshort
  · cases hrefused

end

end Server

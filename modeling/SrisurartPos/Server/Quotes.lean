import SrisurartPos.Server.Sales

/-! # Selling a quote (`quote-sale.service.ts`, `quotes.service.ts`)

A bill rung up against a quote locks the quote first and marks it converted in its own transaction,
so that two bills never come from one quote. -/

namespace Server

open Txn

/-- Where a quote stands for the bill about to be sold from it. -/
inductive QuoteState where
  /-- open and in date: this bill converts it -/
  | fresh
  /-- already converted into this bill -/
  | replay
  | missing
  | converted (convertedSaleId : Option SaleId)
  | expired (validUntil : Nat)
  | saleIdTaken
  deriving DecidableEq, Repr

/-- `soldAt` is when the bill is dated; none is now. -/
def lockAndClassify (env : Env) (q : QuoteId) (x : SaleId) (soldAt : Option Nat) :
    Prog QuoteState := do
  let row ← Tx.selectFor .update (.quote q) fun db => db.quotes.get q
  match row with
  | none       => return .missing
  | some quote =>
      if quote.status = .converted then
        return if quote.convertedSaleId = some x then .replay else .converted quote.convertedSaleId
      else if quote.validUntil < soldAt.getD env.now then return .expired quote.validUntil
      else do
        let taken ← Tx.glance fun db => (db.sales.get x).isSome
        return if taken then .saleIdTaken else .fresh

/-- The states a counter sale is refused in. -/
def QuoteState.refuse : QuoteState → Except ServerError Unit
  | .converted c => .error (.quoteAlreadyConverted c)
  | .expired v   => .error (.quoteExpired v)
  | .saleIdTaken => .error .saleIdReused
  | _            => .ok ()

def lockForSale (env : Env) (q : QuoteId) (x : SaleId) : Prog QuoteState := do
  let state ← lockAndClassify env q x none
  Tx.ofExcept state.refuse
  return state

def Db.convertQuote (q : QuoteId) (x : SaleId) (db : Db) : Db :=
  db.modifyQuote q fun row => { row with status := .converted, convertedSaleId := some x }

def markConverted (q : QuoteId) (x : SaleId) : Prog Unit := do
  Tx.acquire (.quote q) .update
  Tx.update fun db => db.convertQuote q x

def soldQuote (q : QuoteId) (row : Quote) : SoldQuote := ⟨q, row.status, row.convertedSaleId⟩

/-- `POST /sales` with a `quoteId`. -/
def sell (env : Env) (actor : Actor) (q : QuoteId) (dto : SaleWrite) :
    Prog (CreateSaleResult × Option SoldQuote) := do
  let state ← lockForSale env q dto.id
  if state = .missing then do
    -- the converted quote may have been purged since: the bill stands
    let existing ← existingSale dto.id dto.total dto.soldOffline (some dto.items)
    let r ← Tx.orFail existing .quoteNotFound
    return (r, none)
  else do
    let sale ← createSale env actor dto
    Tx.whenever (state = .fresh) (markConverted q sale.id)
    let row ← Tx.selectFor .update (.quote q) fun db => db.quotes.get q
    let row ← Tx.orFail row .vanished
    return (sale, some (soldQuote q row))

/-- The bill's id, payment method, customer, mechanic and override flag. -/
structure SaleParty where
  id : SaleId
  receiptNo : Option DocNo
  paymentMethod : PaymentMethod
  customerId : Option CustomerId
  mechanicId : Option MechanicId
  mechanicDelta : Option Int
  overrideCreditLimit : Bool
  paymentAccountId : Option AccountId

/-- A quoted line of the catalogue as a line of the bill. A free-text line is none. -/
def QuoteLine.toSaleLine (l : QuoteLine) : Option SaleLine :=
  l.productId.map fun p => ⟨l.lineNo, p, l.name, l.qty, l.price, l.qty_pos⟩

/-- The bill a quote sells as: its lines at the quoted prices and its money. -/
def saleFrom (quote : Quote) (party : SaleParty) : Except ServerError SaleWrite :=
  let lines := quote.lines.insertionSort fun l l' => l.lineNo ≤ l'.lineNo
  let loose := lines.filter fun l => l.productId.isNone
  let items := lines.filterMap QuoteLine.toSaleLine
  if lines = [] then .error (.badRequest "Quote has no lines to sell.")
  else if loose ≠ [] then
    .error (.insufficientStock (loose.map fun l => ⟨l.name, none, none, l.qty⟩))
  else
    let subtotal := quote.subtotal.getD (computedSubtotal items)
    let discount := quote.discount.getD 0
    .ok
      { id := party.id
        receiptNo := party.receiptNo
        subtotal := subtotal
        discount := discount
        total := quote.total.getD (subtotal - discount)
        paymentMethod := party.paymentMethod
        customerId := party.customerId
        mechanicId := party.mechanicId
        mechanicDelta := party.mechanicDelta
        overrideCreditLimit := party.overrideCreditLimit
        paymentAccountId := party.paymentAccountId
        soldOffline := false
        items := items }

/-- The bill made of a quote has the id that the request gives. -/
theorem id_saleFrom {quote : Quote} {party : SaleParty} {dto : SaleWrite}
    (h : saleFrom quote party = .ok dto) : dto.id = party.id := by
  simp only [saleFrom] at h
  split_ifs at h
  cases h
  rfl

/-- `POST /quotes/:id/convert` -/
def convert (env : Env) (actor : Actor) (q : QuoteId) (party : SaleParty) :
    Prog (CreateSaleResult × Option SoldQuote) := do
  let state ← lockForSale env q party.id
  Tx.require (state ≠ .missing) .quoteNotFound
  let row ← Tx.selectFor .update (.quote q) fun db => db.quotes.get q
  let quote ← Tx.orFail row .vanished
  let dto ← Tx.ofExcept (saleFrom quote party)
  let sale ← createSale env actor dto
  Tx.whenever (state = .fresh) (markConverted q sale.id)
  let row ← Tx.selectFor .update (.quote q) fun db => db.quotes.get q
  let row ← Tx.orFail row .vanished
  return (sale, some (soldQuote q row))

/-! ## What they do -/

/-- What becomes of the quote once its bill is written. -/
inductive QuoteSettled (q : QuoteId) (x : SaleId) (s : Db) : Db → Prop where
  | kept : QuoteSettled q x s s
  | converted : QuoteSettled q x s (s.convertQuote q x)
  | conflict : QuoteSettled q x s (s.addReviewOnce ⟨.quoteConflict, x⟩)

/-- What selling a quote does. -/
inductive QuoteSold (actor : Actor) (q : QuoteId) (dto : SaleWrite) (s : Db) :
    CreateSaleResult → Db → Prop where
  | mk (r : CreateSaleResult) (s₁ s₂ : Db) : SaleCreated actor dto s r s₁ →
      QuoteSettled q r.id s₁ s₂ → QuoteSold actor q dto s r s₂

section
variable {H : Held LockKey} {s : Db}

/-- The quote is locked before it is classified, whatever comes out. -/
theorem wp_lockAndClassify {env : Env} {q : QuoteId} {x : SaleId} {soldAt : Option Nat}
    {Q : QuoteState → Held LockKey → Db → Prop}
    (h : ∀ state, Q state ((.quote q, .update) :: H) s) :
    wp (lockAndClassify env q x soldAt) H s Expected Q := by
  refine wp_bind_selectFor ?_
  cases s.quotes.get q with
  | none => exact h .missing
  | some quote =>
      dsimp only
      split
      · exact h _
      · split
        · exact h _
        · exact wp_bind_glance fun s₀ => h _

theorem wp_lockForSale {env : Env} {q : QuoteId} {x : SaleId}
    {Q : QuoteState → Held LockKey → Db → Prop}
    (h : ∀ state, Q state ((.quote q, .update) :: H) s) :
    wp (lockForSale env q x) H s Expected Q := by
  refine (wp_bind _ _).mpr (wp_lockAndClassify fun state => ?_)
  refine wp_bind_ofExcept (fun _ _ => h state) fun e he => ?_
  cases state <;> cases he <;> rfl

/-- A quote is marked as converted under its lock. -/
theorem Covered.convertQuote {s' : Db} (h : Covered agree H s s') {q : QuoteId}
    (hq : (.quote q, .update) ∈ H) (x : SaleId) : Covered agree H s (s'.convertQuote q x) :=
  Covered.modifyQuote h hq _

theorem wp_markConverted {q : QuoteId} {x : SaleId} {E : ServerError → Prop}
    {Q : Unit → Held LockKey → Db → Prop}
    (h : Q () ((.quote q, .update) :: H) (s.convertQuote q x)) :
    wp (markConverted q x) H s E Q := h

/-- The end of both ways to sell a quote at the counter. -/
private theorem wp_markIfFresh {actor : Actor} {q : QuoteId} {dto : SaleWrite}
    {r : CreateSaleResult} {s₁ : Db} {state : QuoteState} (hq : (.quote q, .update) ∈ H)
    (hr : SaleCreated actor dto s r s₁) (hcov : Covered agree H s s₁) :
    wp ((do
      Tx.whenever (state = .fresh) (markConverted q r.id)
      let row ← Tx.selectFor .update (.quote q) fun db => db.quotes.get q
      let row ← Tx.orFail row .vanished
      return (r, some (soldQuote q row)) : Prog (CreateSaleResult × Option SoldQuote)))
      H s₁ Expected fun res H' s' => QuoteSold actor q dto s res.1 s' ∧ Covered agree H' s s' := by
  have hsub : H ⊆ (.quote q, .update) :: H := List.subset_cons_self _ _
  refine wp_bind_whenever (fun _ => wp_markConverted ?_) fun _ => ?_
  · refine wp_bind_selectFor (wp_bind_orFail (fun row _ => ?_) fun _ => rfl)
    refine ⟨.mk r s₁ _ hr .converted, Covered.mono ?_ (List.subset_cons_self _ _)⟩
    exact Covered.convertQuote (Covered.mono hcov hsub) (hsub hq) _
  · refine wp_bind_selectFor (wp_bind_orFail (fun row _ => ?_) fun _ => rfl)
    exact ⟨.mk r s₁ _ hr .kept, Covered.mono hcov hsub⟩

/-- **The specification of a sale that comes from a quote.** -/
theorem wp_sell {env : Env} {actor : Actor} {q : QuoteId} {dto : SaleWrite} (hs : s.Consistent) :
    wp (sell env actor q dto) H s Expected fun res H' s' =>
      QuoteSold actor q dto s res.1 s' ∧ Covered agree H' s s' := by
  refine (wp_bind _ _).mpr (wp_lockForSale fun state => ?_)
  split
  · refine (wp_bind _ _).mpr (wp_existingSale ?_ fun r hr => ?_)
    · exact wp_bind_orFail (fun r h => by cases h) fun _ => rfl
    · refine wp_bind_orFail (fun r' h => ?_) fun _ => rfl
      cases h
      exact ⟨.mk r s s (.replay r hr) .kept, Covered.refl _ _⟩
  · refine wp_seq (wp_grow (wp_createSale hs)) ?_
    rintro r H' s₁ ⟨⟨hr, hcov⟩, hsub⟩
    exact wp_markIfFresh (hsub List.mem_cons_self) hr hcov

/-- **The specification of converting a quote**: the bill is made of the quote's own lines. -/
theorem wp_convert {env : Env} {actor : Actor} {q : QuoteId} {party : SaleParty}
    (hs : s.Consistent) :
    wp (convert env actor q party) H s Expected fun res H' s' =>
      ∃ quote dto, s.quotes.get q = some quote ∧ saleFrom quote party = .ok dto ∧
        QuoteSold actor q dto s res.1 s' ∧ Covered agree H' s s' := by
  refine (wp_bind _ _).mpr (wp_lockForSale fun state => ?_)
  refine wp_bind_require (fun _ => ?_) fun _ => rfl
  refine wp_bind_selectFor (wp_bind_orFail (fun quote hquote => ?_) fun _ => rfl)
  refine wp_bind_ofExcept (fun dto hdto => ?_) fun e he => ?_
  · refine wp_seq (wp_grow (wp_createSale hs)) ?_
    rintro r H' s₁ ⟨⟨hr, hcov⟩, hsub⟩
    refine wp_mono (wp_markIfFresh (hsub List.mem_cons_self) hr hcov) (fun _ h => h) ?_
    rintro res H'' s' ⟨hsold, hcov'⟩
    exact ⟨quote, dto, hquote, hdto, hsold, hcov'⟩
  · simp only [saleFrom] at he
    split_ifs at he <;> cases he <;> rfl

/-! ## Their locks -/

theorem quote_of_agree {q : QuoteId} {m : Mode} (s s' : Db) (h : agree (.quote q, m) s s') :
    s.quotes.get q = s'.quotes.get q := View.quote.inj h

/-- The look-up of the bill's id is not under a lock; nothing but the classification depends on it. -/
theorem disciplined_lockAndClassify (env : Env) (q : QuoteId) (x : SaleId)
    (soldAt : Option Nat) :
    Disciplined agree (lockAndClassify env q x soldAt) H fun _ _ => True := by
  refine disciplined_bind_selectFor quote_of_agree fun row => ?_
  cases row with
  | none => trivial
  | some quote =>
      dsimp only
      split
      · trivial
      · split
        · trivial
        · exact disciplined_bind_glance fun _ => trivial

theorem disciplined_lockForSale (env : Env) (q : QuoteId) (x : SaleId) :
    Disciplined agree (lockForSale env q x) H fun _ _ => True :=
  Disciplined.seq (disciplined_lockAndClassify _ _ _ _) fun _ _ _ _ =>
    disciplined_bind_ofExcept fun _ _ => trivial

theorem disciplined_markConverted (q : QuoteId) (x : SaleId) :
    Disciplined agree (markConverted q x) H fun _ _ => True :=
  ⟨respects_modifyQuote _ _, trivial⟩

private theorem disciplined_markIfFresh (q : QuoteId) (r : CreateSaleResult)
    (state : QuoteState) :
    Disciplined agree ((do
      Tx.whenever (state = .fresh) (markConverted q r.id)
      let row ← Tx.selectFor .update (.quote q) fun db => db.quotes.get q
      let row ← Tx.orFail row .vanished
      return (r, some (soldQuote q row)) : Prog (CreateSaleResult × Option SoldQuote)))
      H fun _ _ => True := by
  refine disciplined_bind_whenever (fun _ => ?_) fun _ => ?_
  · refine (disciplined_markConverted q r.id).mono fun _ _ _ => ?_
    exact disciplined_bind_selectFor quote_of_agree fun _ =>
      disciplined_bind_orFail fun _ _ => trivial
  · exact disciplined_bind_selectFor quote_of_agree fun _ =>
      disciplined_bind_orFail fun _ _ => trivial

theorem disciplined_sell (env : Env) (actor : Actor) (q : QuoteId) (dto : SaleWrite) :
    Disciplined agree (sell env actor q dto) H fun _ _ => True := by
  refine Disciplined.seq (disciplined_lockForSale _ _ _) fun state H₁ _ _ => ?_
  split
  · refine Disciplined.seq (disciplined_existingSale _ _ _ _) fun existing H₂ _ _ => ?_
    exact disciplined_bind_orFail fun _ _ => trivial
  · refine Disciplined.seq (disciplined_createSale _ _ _) fun r H₂ _ _ => ?_
    exact disciplined_markIfFresh q r state

theorem disciplined_convert (env : Env) (actor : Actor) (q : QuoteId) (party : SaleParty) :
    Disciplined agree (convert env actor q party) H fun _ _ => True := by
  refine Disciplined.seq (disciplined_lockForSale _ _ _) fun state H₁ _ _ => ?_
  refine disciplined_bind_require fun _ => ?_
  refine disciplined_bind_selectFor quote_of_agree fun row => disciplined_bind_orFail fun quote _ => ?_
  refine disciplined_bind_ofExcept fun dto _ => ?_
  refine Disciplined.seq (disciplined_createSale _ _ _) fun r H₂ _ _ => ?_
  exact disciplined_markIfFresh q r state

end

end Server

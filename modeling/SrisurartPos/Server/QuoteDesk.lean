import SrisurartPos.Server.Accepted
import SrisurartPos.Txn.Told

/-! # The quotes' desk (`quotes.service.ts`, `quotes.dto.ts`)

Quotes are saved, edited, deleted and duplicated by requests of their own, while the server sells
from them. An edit or a deletion names the quotes that are not converted in its `WHERE`, so it waits
for a sale that has the row locked and then looks again. -/

namespace Server

open Txn

/-! ## The bodies -/

/-- What `QuotesService.create` takes. -/
structure QuoteCreate where
  subtotal : Int
  discount : Int
  total : Int
  customerName : Option String
  customerPhone : Option String
  notes : Option String
  validDays : Option Nat
  items : List QuoteLine

/-- Header text. A field that was not sent is none. -/
structure QuotePatch where
  customerName : Option (Option String)
  customerPhone : Option (Option String)
  notes : Option (Option String)

/-- `MAX_VALID_DAYS` -/
def maxValidDays : Nat := 36500

def defaultValidDays : Nat := 30

def parseQuoteLine (l : QuoteLine) : Except ServerError Unit := do
  check (l.qty ≤ maxLineQty) "items[].qty must be a positive integer"
  check (0 ≤ l.price) "items[].price must not be negative"
  check (l.name.trimAscii.isEmpty = false) "items[].name is required"

def assertQuoteMoney (input : QuoteCreate) : Except ServerError Unit := do
  check (0 ≤ input.discount) "discount must not be negative"
  check (0 ≤ input.subtotal) "subtotal must not be negative"
  check (0 ≤ input.total) "total must not be negative"
  check (input.discount ≤ input.subtotal) "discount must not exceed subtotal"

/-- What the parser refuses of a body whose fields have the right types. -/
def parseQuoteCreate (input : QuoteCreate) : Except ServerError Unit := do
  parseItemsArray input.items
  check (input.validDays.all (fun n => 1 ≤ n && n ≤ maxValidDays) = true)
    "validDays must be an integer between 1 and 36500"
  input.items.forM parseQuoteLine
  assertQuoteMoney input

/-- The parser numbers the lines itself. -/
def QuoteCreate.lines (input : QuoteCreate) : List QuoteLine :=
  input.items.mapIdx fun i l => { l with lineNo := i + 1 }

/-- A quoted line as `assertSaleTotals` reads it: its quantity and its price. -/
def QuoteLine.priced (l : QuoteLine) : SaleLine :=
  ⟨l.lineNo, l.productId.getD 0, l.name, l.qty, l.price, l.qty_pos⟩

def QuotePatch.apply (patch : QuotePatch) (quote : Quote) : Quote :=
  { quote with
    customerName := patch.customerName.getD quote.customerName
    customerPhone := patch.customerPhone.getD quote.customerPhone
    notes := patch.notes.getD quote.notes }

/-! ## The service -/

/-- `AND status <> 'converted'` -/
def Quote.editable (quote : Quote) : Bool := quote.status ≠ .converted

def Db.insertQuote (q : QuoteId) (row : Quote) (db : Db) : Db :=
  { db with quotes := db.quotes.insert q row }

def Db.eraseQuote (q : QuoteId) (db : Db) : Db := { db with quotes := db.quotes.erase q }

/-- `QuotesService.read` -/
def readQuote (q : QuoteId) : Prog Quote := do
  let row ← Tx.glance fun db => db.quotes.get q
  Tx.orFail row .quoteNotFound

/-- The row that `UPDATE` or `DELETE … AND status <> 'converted'` is about. One that met the
condition when the statement began is waited for, locked and looked at again. -/
def lockEditable (q : QuoteId) : Prog Bool := do
  let seen ← Tx.glance fun db => (db.quotes.get q).any Quote.editable
  if seen then Tx.selectFor .update (.quote q) fun db => (db.quotes.get q).any Quote.editable
  else return false

/-- Seconds. -/
def day : Nat := 86400

/-- A new quote under a fresh id and the next number of the device. -/
def insertQuote (env : Env) (actor : Actor) (row : DocNo → Quote) : Prog (QuoteId × Quote) := do
  let quoteNo ← issue env actor.deviceId .quote
  Tx.insertRow (.quote env.newUuid) (fun db => (db.quotes.get env.newUuid).isSome) .uniqueViolation
    fun db => db.insertQuote env.newUuid (row quoteNo)
  let quote ← readQuote env.newUuid
  return (env.newUuid, quote)

def createQuote (env : Env) (actor : Actor) (input : QuoteCreate) : Prog (QuoteId × Quote) := do
  Tx.ofExcept (assertSaleTotals (input.lines.map QuoteLine.priced) input.subtotal input.discount
    input.total)
  insertQuote env actor fun quoteNo =>
    { quoteNo := quoteNo
      status := .opened
      convertedSaleId := none
      validUntil := env.now + input.validDays.getD defaultValidDays * day
      subtotal := some input.subtotal
      discount := some input.discount
      total := some input.total
      customerName := input.customerName
      customerPhone := input.customerPhone
      notes := input.notes
      validDays := input.validDays
      lines := input.lines }

/-- Header and lines copied; conversion and age are not. -/
def duplicateQuote (env : Env) (actor : Actor) (q : QuoteId) : Prog (QuoteId × Quote) := do
  let src ← readQuote q
  insertQuote env actor fun quoteNo =>
    { src with
      quoteNo := quoteNo
      status := .opened
      convertedSaleId := none
      validUntil := env.now + src.validDays.getD defaultValidDays * day }

def updateQuote (q : QuoteId) (patch : QuotePatch) : Prog (QuoteId × Quote) := do
  let editable ← lockEditable q
  if editable then do
    Tx.update fun db => db.modifyQuote q patch.apply
    let quote ← readQuote q
    return (q, quote)
  else do
    let existing ← readQuote q
    Tx.fail (.quoteAlreadyConverted existing.convertedSaleId)

def deleteQuote (q : QuoteId) : Prog Unit := do
  let editable ← lockEditable q
  if editable then Tx.update fun db => db.eraseQuote q
  else do
    let existing ← readQuote q
    Tx.fail (.quoteConvertedNotDeletable existing.convertedSaleId)

inductive QuoteRequest where
  | create (input : QuoteCreate)
  | update (q : QuoteId) (patch : QuotePatch)
  | delete (q : QuoteId)
  | duplicate (q : QuoteId)

inductive QuoteReply where
  | quote (q : QuoteId) (row : Quote)
  | deleted (q : QuoteId)

/-- The handler of a request. Its idempotency key, which only answers repeats, is left out. -/
def QuoteRequest.handle (env : Env) (actor : Actor) : QuoteRequest → Prog QuoteReply
  | .create input => do
      Tx.ofExcept (parseQuoteCreate input)
      let r ← createQuote env actor input
      return .quote r.1 r.2
  | .update q patch => do
      let r ← updateQuote q patch
      return .quote r.1 r.2
  | .delete q => do
      deleteQuote q
      return .deleted q
  | .duplicate q => do
      let r ← duplicateQuote env actor q
      return .quote r.1 r.2

/-- Everything of the server, and the quotes' desk. -/
inductive DeskOp where
  | server (op : Op)
  | quotes (env : Env) (actor : Actor) (req : QuoteRequest)

inductive DeskReply where
  | server (r : Reply)
  | quotes (r : QuoteReply)

def deskProg : DeskOp → Prog DeskReply
  | .server op => do
      let r ← prog op
      return .server r
  | .quotes env actor req => do
      let r ← req.handle env actor
      return .quotes r

/-! ## What the services leave of the quotes -/

/-- The bill `x` is what the quote `q` was converted into. -/
def Db.ConvertedInto (db : Db) (q : QuoteId) (x : SaleId) : Prop :=
  ∃ row, db.quotes.get q = some row ∧ row.status = .converted ∧ row.convertedSaleId = some x

/-- The quote is there, and not converted. -/
def Db.ForSale (db : Db) (q : QuoteId) : Prop :=
  ∃ row, db.quotes.get q = some row ∧ row.editable = true

/-- The sale of a quote, under the bill's id. -/
structure QuoteSale where
  quoteId : QuoteId
  saleId : SaleId
  deriving DecidableEq

/-- The quotes as they were, or with the quote of the sale converted into its bill. -/
def QuotesLeft (sale : Option QuoteSale) (s s' : Db) : Prop :=
  s'.quotes = s.quotes ∨ ∃ v, sale = some v ∧ s.ForSale v.quoteId ∧
    s'.quotes = (s.convertQuote v.quoteId v.saleId).quotes

section
variable {s s₁ s' : Db} {sale : Option QuoteSale}

theorem convertQuote_congr (h : s₁.quotes = s.quotes) (q : QuoteId) (x : SaleId) :
    (s₁.convertQuote q x).quotes = (s.convertQuote q x).quotes := by
  simp only [Db.convertQuote, Db.modifyQuote, h]

/-- Only the quotes matter. -/
theorem QuotesLeft.congr (h : QuotesLeft sale s₁ s') (h₁ : s₁.quotes = s.quotes)
    {s'' : Db} (h' : s''.quotes = s'.quotes) : QuotesLeft sale s s'' := by
  rcases h with hsame | ⟨v, hsale, ⟨row, hrow, hopen⟩, hsold⟩
  · exact .inl (h'.trans (hsame.trans h₁))
  · refine .inr ⟨v, hsale, ⟨row, ?_, hopen⟩, ?_⟩
    · rw [← h₁]
      exact hrow
    · exact h'.trans (hsold.trans (convertQuote_congr h₁ _ _))

theorem SaleCreated.quotes {actor : Actor} {dto : SaleWrite} {r : CreateSaleResult}
    (h : SaleCreated actor dto s r s') : s'.quotes = s.quotes := by
  cases h <;> rfl

theorem SaleCreated.id_eq {actor : Actor} {dto : SaleWrite} {r : CreateSaleResult}
    (h : SaleCreated actor dto s r s') : r.id = dto.id := by
  cases h <;> assumption

theorem ReturnCreated.quotes {env : Env} {actor : Actor} {dto : ReturnWrite}
    {r : CreateReturnResult} (h : ReturnCreated env actor dto s r s') : s'.quotes = s.quotes := by
  cases h with
  | replay hr => rfl
  | written r note sale c v hadm hr hnew hres =>
      rw [Db.autoVoid]
      split <;> rfl

theorem SaleVoided.quotes {actor : Actor} {x : SaleId} {reason : String}
    (h : SaleVoided actor x reason s s') : s'.quotes = s.quotes := by
  cases h
  rfl

theorem PaymentCreated.quotes {env : Env} {actor : Actor} {m : MechanicId}
    {dto : CreateCreditPayment} {r : CreateCreditPaymentResult}
    (h : PaymentCreated env actor m dto s r s') : s'.quotes = s.quotes := by
  cases h <;> rfl

theorem StockAdjusted.quotes {p : ProductId} {input : StockAdjustment} {after : Int}
    (h : StockAdjusted p input s after s') : s'.quotes = s.quotes := by
  cases h
  rfl

theorem GoodsReceived.quotes {lower : String → String} {i : PoId} {r : ReceiveResult}
    (h : GoodsReceived lower i s r s') : s'.quotes = s.quotes := by
  cases h
  rfl

theorem archiveActive_quotes (s : Db) (d : DeviceId) : (s.archiveActive d).quotes = s.quotes := by
  rw [Db.archiveActive_eq]

theorem Opened.quotes {env : Env} {d : DeviceId} {input : OpenShiftInput}
    (h : Opened env d input s s') : s'.quotes = s.quotes := by
  cases h with
  | replay hid => rfl
  | conflict => exact archiveActive_quotes s d
  | fresh k hk hnew => exact archiveActive_quotes s d

theorem Retired.quotes {d : DeviceId} (h : Retired d s s') : s'.quotes = s.quotes := by
  obtain ⟨s₁, s₂, hs₁, hclosed⟩ := h
  rcases hs₁ with rfl | rfl <;> cases hclosed <;> rfl

theorem EntryAdded.quotes {env : Env} {d : DeviceId} {entry : DrawerEntryBody}
    {offlineReplay : Bool} {r : EntryId × DrawerEntry}
    (h : EntryAdded env d entry offlineReplay s r s') : s'.quotes = s.quotes := by
  cases h <;> rfl

end

/-! ### Selling -/

section
variable {H : Held LockKey} {s : Db} {env : Env} {actor : Actor}

/-- A quote is only taken for fresh when its locked row is for sale. -/
theorem wp_lockAndClassify_fresh {q : QuoteId} {x : SaleId} {soldAt : Option Nat} :
    wp (lockAndClassify env q x soldAt) H s Expected fun state _ s' =>
      s' = s ∧ (state = .fresh → s.ForSale q) := by
  refine wp_bind_selectFor ?_
  cases hrow : s.quotes.get q with
  | none => exact ⟨rfl, fun h => by cases h⟩
  | some quote =>
      dsimp only
      split
      · refine ⟨rfl, fun h => ?_⟩
        split at h <;> cases h
      · rename_i hconverted
        split
        · exact ⟨rfl, fun h => by cases h⟩
        · rename_i hdate
          have hsale : s.ForSale q :=
            ⟨quote, hrow, by simpa [Quote.editable] using hconverted⟩
          exact wp_bind_glance fun s₀ => ⟨rfl, fun _ => hsale⟩

theorem wp_lockForSale_fresh {q : QuoteId} {x : SaleId} :
    wp (lockForSale env q x) H s Expected fun state _ s' =>
      s' = s ∧ (state = .fresh → s.ForSale q) := by
  refine wp_seq wp_lockAndClassify_fresh fun state H' s' h => ?_
  refine wp_bind_ofExcept (fun _ _ => h) fun e he => ?_
  cases state <;> cases he <;> rfl

/-- The end of both ways to sell a quote at the counter. -/
private theorem wp_markIfFresh_quotes {q : QuoteId} {r : CreateSaleResult} {s₁ : Db}
    {state : QuoteState} (hs₁ : s₁.quotes = s.quotes)
    (hfresh : state = .fresh → s.ForSale q) :
    wp ((do
      Tx.whenever (state = .fresh) (markConverted q r.id)
      let row ← Tx.selectFor .update (.quote q) fun db => db.quotes.get q
      let row ← Tx.orFail row .vanished
      return (r, some (soldQuote q row)) : Prog (CreateSaleResult × Option SoldQuote)))
      H s₁ Expected fun _ _ s' => QuotesLeft (some ⟨q, r.id⟩) s s' := by
  refine wp_bind_whenever (fun hstate => wp_markConverted ?_) fun _ => ?_
  · refine wp_bind_selectFor (wp_bind_orFail (fun row _ => ?_) fun _ => rfl)
    exact .inr ⟨_, rfl, hfresh hstate, convertQuote_congr hs₁ _ _⟩
  · exact wp_bind_selectFor (wp_bind_orFail (fun row _ => .inl hs₁) fun _ => rfl)

/-- A sale of a quote leaves all quotes, or converts its own. -/
theorem wp_sell_quotes {q : QuoteId} {dto : SaleWrite} (hs : s.Consistent) :
    wp (sell env actor q dto) H s Expected fun _ _ s' =>
      QuotesLeft (some ⟨q, dto.id⟩) s s' := by
  refine wp_seq wp_lockForSale_fresh ?_
  rintro state H₁ s₁ ⟨rfl, hfresh⟩
  split
  · refine (wp_bind _ _).mpr (wp_existingSale ?_ fun r hr => ?_)
    · exact wp_bind_orFail (fun r _ => .inl rfl) fun _ => rfl
    · exact wp_bind_orFail (fun r _ => .inl rfl) fun _ => rfl
  · refine wp_seq (wp_createSale hs) fun r H₂ s₂ h => ?_
    rw [← h.1.id_eq]
    exact wp_markIfFresh_quotes h.1.quotes hfresh

/-- So does a conversion. -/
theorem wp_convert_quotes {q : QuoteId} {party : SaleParty} (hs : s.Consistent) :
    wp (convert env actor q party) H s Expected fun _ _ s' =>
      QuotesLeft (some ⟨q, party.id⟩) s s' := by
  refine wp_seq wp_lockForSale_fresh ?_
  rintro state H₁ s₁ ⟨rfl, hfresh⟩
  refine wp_bind_require (fun _ => ?_) fun _ => rfl
  refine wp_bind_selectFor (wp_bind_orFail (fun quote _ => ?_) fun _ => rfl)
  refine wp_bind_ofExcept (fun dto hdto => ?_) fun e he => ?_
  · refine wp_seq (wp_createSale hs) fun r H₂ s₂ h => ?_
    rw [← id_saleFrom hdto, ← h.1.id_eq]
    exact wp_markIfFresh_quotes h.1.quotes hfresh
  · simp only [saleFrom] at he
    split_ifs at he <;> cases he <;> rfl

/-- An offline bill stands whatever the quote; it converts the quote only when that is for sale. -/
theorem wp_pushSale_quotes {q : QuoteId} {dto : SaleWrite} {soldAt : Option Nat}
    (hs : s.Consistent) : wp (pushSale env actor dto (some q) soldAt) H s Expected fun _ _ s' =>
      QuotesLeft (some ⟨q, dto.id⟩) s s' := by
  refine wp_seq wp_lockAndClassify_fresh ?_
  rintro state H₁ s₁ ⟨rfl, hfresh⟩
  refine wp_seq (wp_createSale hs) fun r H₂ s₂ h => ?_
  rw [← h.1.id_eq]
  have hkept : ∀ s' : Db, s'.quotes = s₂.quotes →
      QuotesLeft (some ⟨q, r.id⟩) s₁ s' :=
    fun s' hs' => .inl (hs'.trans h.1.quotes)
  cases state with
  | fresh =>
      have hsold := convertQuote_congr h.1.quotes q r.id
      exact (wp_bind _ _).mpr (wp_markConverted (.inr ⟨_, rfl, hfresh rfl, hsold⟩))
  | replay => exact hkept _ rfl
  | saleIdTaken => exact hkept _ rfl
  | missing => exact hkept _ rfl
  | converted c => exact hkept _ rfl
  | expired v => exact hkept _ rfl

/-! ### Requests and queued operations -/

/-- The sale of a quote that a request asks for. -/
def Request.quoteSale : Request → Option QuoteSale
  | .sale dto (some q)     => some ⟨q, dto.id⟩
  | .convertQuote q party  => some ⟨q, party.id⟩
  | _                      => none

def SyncOp.quoteSale : SyncOp → Option QuoteSale
  | .saleCreate dto (some q) _ => some ⟨q, dto.id⟩
  | _                          => none

/-- Of the requests, only those that sell a quote touch the quotes. -/
theorem wp_handle_quotes (hs : s.Consistent) (req : Request) :
    wp (req.handle env actor) H s Expected fun _ _ s' => QuotesLeft req.quoteSale s s' := by
  cases req with
  | sale dto quoteId =>
      refine wp_bind_ofExcept (fun _ hparse => ?_) (parseCreateSale_expected _)
      cases quoteId with
      | none => exact wp_seq (wp_createSale hs) fun r H' s' h => .inl h.1.quotes
      | some q => exact wp_seq (wp_sell_quotes hs) fun r H' s' h => h
  | convertQuote q party =>
      refine wp_bind_ofExcept (fun _ hparse => ?_) (parseSaleParty_expected _ _)
      exact wp_seq (wp_convert_quotes hs) fun r H' s' h => h
  | voidSale x reason =>
      refine wp_bind_ofExcept (fun _ hparse => ?_) (AllExpected.check _ _)
      exact wp_seq (wp_voidSale hs) fun r H' s' h => .inl h.1.quotes
  | creditNote dto =>
      refine wp_bind_ofExcept (fun _ hparse => ?_) (parseCreateReturn_expected _)
      exact wp_seq (wp_createReturn hs) fun r H' s' h => .inl h.1.quotes
  | openShift input =>
      refine wp_bind_ofExcept (fun _ hparse => ?_) (AllExpected.check _ _)
      exact wp_seq wp_openShift fun r H' s' h => .inl h.1.quotes
  | closeShift cash =>
      refine wp_bind_ofExcept (fun _ hparse => ?_) (AllExpected.check _ _)
      exact (wp_bind _ _).mpr (wp_close fun k row hrow hopen => .inl rfl)
  | entry body =>
      refine wp_bind_ofExcept (fun _ hparse => ?_) (AllExpected.check _ _)
      exact wp_seq wp_addEntry fun r H' s' h => .inl h.1.quotes
  | creditPayment m dto =>
      refine wp_bind_ofExcept (fun _ hparse => ?_) (parseCreateCreditPayment_expected _)
      exact wp_seq wp_createCreditPayment fun r H' s' h => .inl h.1.quotes
  | adjustStock p input =>
      refine wp_bind_ofExcept (fun _ hparse => ?_) (parseStockAdjustment_expected _)
      exact wp_seq wp_adjustStock fun r H' s' h => .inl h.1.quotes
  | receivePo i => exact wp_seq (wp_receive hs) fun r H' s' h => .inl h.1.quotes
  | retireDevice d cash force =>
      refine wp_bind_ofExcept (fun _ hparse => ?_) ?_
      · exact wp_seq wp_retire fun r H' s' h => .inl h.1.quotes
      · cases cash with
        | none => exact fun e he => by cases he
        | some c => exact AllExpected.check _ _
  | updateMechanic m patch =>
      refine wp_bind_ofExcept (fun _ hparse => ?_) (AllExpected.check _ _)
      refine wp_seq wp_editMechanic ?_
      rintro r H' s' ⟨⟨row, hrow, halive, rfl⟩, -⟩
      exact .inl rfl

/-- A date leaves the quotes as they are. -/
theorem wp_bind_clampOpDate_quotes (hs : s.Consistent) {sale : Option QuoteSale} {d : DeviceId}
    {docNo : Option DocNo} {refId : Nat} {opDate : Option Nat} {f : Option Nat → Prog Reply}
    (h : ∀ date t, t.Consistent → wp (f date) H t Expected fun _ _ s' => QuotesLeft sale t s') :
    wp (clampOpDate env d docNo refId opDate >>= f) H s Expected fun _ _ s' => QuotesLeft sale s s' := by
  refine (wp_bind _ _).mpr (wp_clampOpDate fun date t ht => ?_)
  have hsame : t.Consistent ∧ t.quotes = s.quotes := by
    rcases ht with rfl | rfl
    · exact ⟨hs, rfl⟩
    · exact ⟨hs, rfl⟩
  exact wp_mono (h date t hsame.1) (fun _ he => he) fun _ _ _ hleft => hleft.congr hsame.2 rfl

/-- Of the operations of a push, only the sale of a quote touches the quotes. -/
theorem wp_execute_quotes (hs : s.Consistent) (op : SyncOp) :
    wp (op.execute env actor) H s Expected fun _ _ s' => QuotesLeft op.quoteSale s s' := by
  cases op with
  | saleCreate dto quoteId deviceDate =>
      refine wp_bind_clampOpDate_quotes hs fun date t ht => ?_
      cases quoteId with
      | none => exact wp_seq (wp_createSale ht) fun r H' s' h => .inl h.1.quotes
      | some q => exact wp_pushSale_quotes ht
  | returnCreate dto deviceDate opId =>
      refine wp_bind_clampOpDate_quotes hs fun date t ht => ?_
      exact wp_seq (wp_createReturn ht) fun r H' s' h => .inl h.1.quotes
  | shiftOpen input openedAt opId =>
      refine wp_bind_glance fun s₀ => (wp_bind _ _).mpr ?_
      rw [flagFutureOpen, Tx.whenever]
      split <;> exact wp_seq wp_openShift fun r H' s' h => .inl h.1.quotes
  | drawerEntry entry deviceDate opId =>
      refine wp_bind_clampOpDate_quotes hs fun date t ht => ?_
      refine wp_seq wp_addEntry fun r H₁ s₁ h => wp_bind_glance fun s₂ => ?_
      refine wp_bind_whenever (fun _ => wp_bind_glance fun s₃ => ?_) fun _ => .inl h.1.quotes
      rw [Tx.whenever]
      split <;> exact .inl h.1.quotes
  | creditPaymentCreate m dto =>
      exact wp_seq wp_createCreditPayment fun r H' s' h => .inl h.1.quotes
  | customerCreate id body =>
      refine wp_bind_ofExcept (fun input _ => ?_) (parseCustomerCreate_expected id body)
      refine wp_seq wp_createCustomer ?_
      rintro r H' s' ⟨⟨-, -, code, -, rfl⟩, -⟩
      exact .inl rfl
  | customerUpdate c body =>
      refine wp_bind_ofExcept (fun patch _ => ?_) (parseCustomerPatch_expected body)
      refine wp_seq wp_editCustomer ?_
      rintro r H' s' ⟨⟨row, -, -, -, rfl⟩, -⟩
      exact .inl rfl
  | saleVoidOffline x reason =>
      refine wp_bind_glance fun s₀ => wp_bind_orFail (fun sale _ => ?_) fun _ => rfl
      refine wp_bind_require (fun _ => ?_) fun _ => rfl
      refine wp_seq (wp_voidSale hs) fun _ H₁ s₁ h => wp_bind_update (wp_bind_glance fun s₂ => ?_)
      exact .inl h.1.quotes

end

/-! ### Keys -/

section
variable {env : Env} {key : Nat}

theorem leaves_claim (endpoint : Endpoint) (requestHash : Nat) :
    Leaves Db.quotes (claim env key endpoint requestHash) :=
  (tame_claim (P := fun _ => True) (fun _ _ => rfl) trivial env key endpoint requestHash).leaves

theorem leaves_complete (body : Reply) : Leaves Db.quotes (complete key body) :=
  (tame_complete (P := fun _ => True) (fun _ _ => rfl) trivial key body).leaves

end

/-! ### Transactions -/

section
variable {H : Held LockKey} {s : Db} {env : Env} {actor : Actor} {key requestHash : Nat}

/-- A claim leaves the quotes, and whoever comes to own the key found it free. -/
theorem wp_claim_quotes (endpoint : Endpoint) :
    wp (claim env key endpoint requestHash) H s Expected fun out _ s' =>
      (∃ desk, s' = s.withDesk desk) ∧ s'.quotes = s.quotes ∧
        (out = .claimed → s.idempotencyKeys.get key = none) := by
  have hclaim : wp (claim env key endpoint requestHash) H s Expected fun out _ s' =>
      (∃ desk, s' = s.withDesk desk) ∧ (out = .claimed → s.idempotencyKeys.get key = none) :=
    wp_claim fun out H' desk _ _ hfiled => ⟨⟨desk, rfl⟩, fun hout => (hfiled.owned hout).1⟩
  refine wp_mono ((leaves_claim endpoint requestHash).wp hclaim) (fun _ h => h) ?_
  rintro out H' s' ⟨⟨hdesk, hfree⟩, hquotes⟩
  exact ⟨hdesk, hquotes, hfree⟩

theorem wp_complete_quotes (body : Reply) :
    wp (complete key body) H s Expected fun _ _ s' => s'.quotes = s.quotes := by
  have hcomplete : wp (complete key body) H s Expected fun _ _ _ => True :=
    wp_complete fun _ _ _ _ _ _ => trivial
  refine wp_mono ((leaves_complete body).wp hcomplete) (fun _ h => h) fun _ _ _ h => h.2

/-- What an operation with a key leaves of the quotes: it sells one only when its key is new. -/
def QuotesLeftOnce (key : Nat) (sale : Option QuoteSale) (s s' : Db) : Prop :=
  s'.quotes = s.quotes ∨ s.idempotencyKeys.get key = none ∧ QuotesLeft sale s s'

/-- A request behind its key touches the quotes once. -/
theorem wp_runIdempotent_quotes (hs : s.Consistent) (req : Request) :
    wp (runIdempotent env key req.endpoint requestHash (req.handle env actor)) H s Expected
      fun _ _ s' => QuotesLeftOnce key req.quoteSale s s' := by
  refine wp_seq (wp_claim_quotes _) ?_
  rintro out H₁ s₁ ⟨⟨desk, hdesk⟩, hquotes, hfree⟩
  cases out with
  | reused => rfl
  | replay body => exact .inl hquotes
  | claimed =>
      have hs₁ : s₁.Consistent := by
        rw [hdesk]
        exact hs
      refine wp_seq (wp_handle_quotes hs₁ req) fun body H₂ s₂ hleft => ?_
      refine wp_seq (wp_complete_quotes body) fun _ H₃ s₃ hsame => ?_
      exact .inr ⟨hfree rfl, hleft.congr hquotes hsame⟩

/-- So does an operation of a push. -/
theorem wp_processSingleOp_quotes (hs : s.Consistent) (op : SyncOp) :
    wp (processSingleOp env actor key requestHash op) H s Expected fun _ _ s' =>
      QuotesLeftOnce key op.quoteSale s s' := by
  refine wp_seq (wp_claim_quotes _) ?_
  rintro out H₁ s₁ ⟨⟨desk, hdesk⟩, hquotes, hfree⟩
  cases out with
  | replay body => exact .inl hquotes
  | reused =>
      have hleaves : Leaves Db.quotes (replayKeyOfSameDocument key op) :=
        leaves_replayKeyOfSameDocument (fun _ _ => rfl) op
      have hown := hleaves.wp (wp_replayKeyOfSameDocument (H := H₁) (s := s₁)
        (Q := fun _ _ _ => True) fun _ _ _ _ => trivial)
      refine wp_seq hown ?_
      rintro own H₂ s₂ ⟨-, hsame⟩
      cases own with
      | some r => exact .inl (hsame.trans hquotes)
      | none => exact wp_bind_ofExcept (fun _ _ => rfl) op.parse_expected
  | claimed =>
      have hprobe := (leaves_checkClientIdReplay (f := Db.quotes) (fun _ _ => rfl) op).wp
        (wp_checkClientIdReplay (H := H₁) (s := s₁)
          (Q := fun _ _ s' => ∃ desk, s' = s₁.withDesk desk) fun _ desk _ _ => ⟨desk, rfl⟩)
      refine wp_seq hprobe ?_
      rintro existing H₂ s₂ ⟨⟨desk₂, hdesk₂⟩, hsame⟩
      cases existing with
      | some r =>
          refine wp_seq (wp_complete_quotes r) fun _ H₃ s₃ hsame₃ => ?_
          exact .inl (hsame₃.trans (hsame.trans hquotes))
      | none =>
          have hs₂ : s₂.Consistent := by
            rw [hdesk₂, hdesk]
            exact hs
          refine wp_bind_ofExcept (fun _ _ => ?_) op.parse_expected
          refine wp_seq (wp_execute_quotes hs₂ op) fun r H₃ s₃ hleft => ?_
          refine wp_seq (wp_complete_quotes r) fun _ H₄ s₄ hsame₄ => ?_
          exact .inr ⟨hfree rfl, hleft.congr (hsame.trans hquotes) hsame₄⟩

/-- The sale of a quote that an operation of the server is, with its key. -/
def Op.quoteSale : Op → Option (Nat × QuoteSale)
  | .post _ _ key _ req => req.quoteSale.map (key, ·)
  | .push _ _ key _ op  => op.quoteSale.map (key, ·)
  | .reportUnsynced _ _ => none
  | .cleanup _          => none

end

/-! ## What a transaction does to the quotes -/

def DeskOp.quoteSale : DeskOp → Option (Nat × QuoteSale)
  | .server op    => op.quoteSale
  | .quotes _ _ _ => none

/-- What the transaction of an operation does to the quotes. -/
inductive QuotesMoved (op : DeskOp) (s s' : Db) : Prop where
  | kept : s'.quotes = s.quotes → QuotesMoved op s s'
  | sold (key : Nat) (v : QuoteSale) : op.quoteSale = some (key, v) →
      s.idempotencyKeys.get key = none → s.ForSale v.quoteId →
      s'.quotes = (s.convertQuote v.quoteId v.saleId).quotes → QuotesMoved op s s'
  | saved (q : QuoteId) (row : Quote) : s.quotes.get q = none → row.status = .opened →
      s'.quotes = s.quotes.insert q row → QuotesMoved op s s'
  | edited (q : QuoteId) (patch : QuotePatch) : (s.quotes.get q).any Quote.editable = true →
      s'.quotes = (s.modifyQuote q patch.apply).quotes → QuotesMoved op s s'
  | deleted (q : QuoteId) : (s.quotes.get q).any Quote.editable = true →
      s'.quotes = s.quotes.erase q → QuotesMoved op s s'

section
variable {H : Held LockKey} {s s' : Db}

theorem QuotesLeftOnce.moved {key : Nat} {sale : Option QuoteSale} {op : DeskOp}
    (hop : op.quoteSale = sale.map (key, ·)) (h : QuotesLeftOnce key sale s s') :
    QuotesMoved op s s' := by
  rcases h with hsame | ⟨hfree, hsame | ⟨v, rfl, hsale, hsold⟩⟩
  · exact .kept hsame
  · exact .kept hsame
  · exact .sold key v hop hfree hsale hsold

/-! ### The quotes' own requests -/

/-- A change of the quotes that looks at the row `q` and nothing else. -/
private theorem respects_quotes {q : QuoteId} (w : Table QuoteId Quote → Table QuoteId Quote)
    (hw : ∀ t t' : Table QuoteId Quote, t.get q = t'.get q → ∀ q', t.get q' = t'.get q' →
      (w t).get q' = (w t').get q') (hq : (.quote q, .update) ∈ H) :
    Respects agree H fun db : Db => { db with quotes := w db.quotes } := by
  rintro s s' hs ⟨ℓ, m⟩ h
  cases ℓ with
  | quote q' =>
      have h := View.quote.inj h
      show View.quote _ = View.quote _
      exact congrArg _ (hw _ _ (View.quote.inj (hs _ hq)) q' h)
  | shift k => cases m <;> exact h
  | _ => exact h

/-- A quote is written under its own lock. -/
private theorem Covered.quotes (h : Covered agree H s s') {q : QuoteId}
    {w : Table QuoteId Quote → Table QuoteId Quote}
    (hw : ∀ q', q' ≠ q → (w s'.quotes).get q' = s'.quotes.get q')
    (hq : (.quote q, .update) ∈ H) :
    Covered agree H s { s' with quotes := w s'.quotes } := by
  intro ℓ m hc
  refine Eq.trans (h ℓ m hc) ?_
  cases ℓ with
  | quote q' =>
      have hne : q' ≠ q := fun hqq => ne_of_update hc hq (by rw [hqq])
      exact (congrArg View.quote (hw q' hne)).symm
  | shift k => cases m <;> rfl
  | _ => rfl

theorem respects_insertQuote {q : QuoteId} {row : Quote} (hq : (.quote q, .update) ∈ H) :
    Respects agree H fun db => db.insertQuote q row := by
  refine respects_quotes (fun t => t.insert q row) (fun t t' hqq q' hq' => ?_) hq
  cases hrow : t.get q with
  | none => rw [Table.get_insert hrow, Table.get_insert (hqq ▸ hrow), hq']
  | some v => rw [Table.insert_of_mem hrow, Table.insert_of_mem (hqq ▸ hrow), hq']

theorem respects_eraseQuote {q : QuoteId} (hq : (.quote q, .update) ∈ H) :
    Respects agree H fun db => db.eraseQuote q := by
  refine respects_quotes (fun t => t.erase q) (fun t t' _ q' hq' => ?_) hq
  rw [Table.get_erase, Table.get_erase, hq']

/-- What a request of the desk leaves: the books, and of the quotes what `QuotesMoved` says. -/
structure AtQuotes (op : DeskOp) (H' : Held LockKey) (s s' : Db) : Prop where
  books : s' = s.withDesk s'.desk
  moved : QuotesMoved op s s'
  covered : Covered agree H' s s'

theorem wp_readQuote {q : QuoteId} {Q : Quote → Held LockKey → Db → Prop}
    (h : ∀ row, Q row H s) : wp (readQuote q) H s Expected Q :=
  wp_bind_glance fun _ => wp_orFail (fun row _ => h row) fun _ => rfl

/-- A new quote is open. -/
theorem wp_insertQuote {env : Env} {actor : Actor} {row : DocNo → Quote} {op : DeskOp}
    (hrow : ∀ n, (row n).status = .opened) :
    wp (insertQuote env actor row) H s Expected fun _ H' s' => AtQuotes op H' s s' := by
  refine (wp_bind _ _).mpr (wp_issue fun n c v => ?_)
  refine wp_bind_insertRow (fun hfree => ?_) fun _ => rfl
  have hnew : s.quotes.get env.newUuid = none := by
    rw [← Bool.not_eq_true] at hfree
    exact Option.not_isSome_iff_eq_none.mp hfree
  refine (wp_bind _ _).mpr (wp_readQuote fun quote => ⟨rfl, ?_, ?_⟩)
  · exact .saved _ (row n) hnew (hrow n) rfl
  · have hcounter : Covered agree ((.quote env.newUuid, .update) :: (.counter c, .update) :: H) s
        (s.setCounter c v) :=
      Covered.setCounter (Covered.refl _ _) (List.mem_cons_of_mem _ List.mem_cons_self) v
    refine Covered.quotes (w := fun t => t.insert env.newUuid (row n)) hcounter
      (fun q' hne => ?_) List.mem_cons_self
    exact Table.get_insert_ne _ hne _

theorem wp_lockEditable {q : QuoteId} {Q : Bool → Held LockKey → Db → Prop}
    (hyes : (s.quotes.get q).any Quote.editable = true → Q true ((.quote q, .update) :: H) s)
    (hno : ∀ H', H ⊆ H' → Q false H' s) : wp (lockEditable q) H s Expected Q := by
  refine wp_bind_glance fun s₀ => ?_
  split
  · show Q ((s.quotes.get q).any Quote.editable) ((.quote q, .update) :: H) s
    cases heditable : (s.quotes.get q).any Quote.editable with
    | true => exact hyes heditable
    | false => exact hno _ (List.subset_cons_self _ _)
  · exact hno H (List.Subset.refl _)

/-- **The specification of the quotes' own requests.** -/
theorem wp_handleQuotes {env : Env} {actor : Actor} (op : DeskOp) (req : QuoteRequest) :
    wp (req.handle env actor) H s Expected fun _ H' s' => AtQuotes op H' s s' := by
  cases req with
  | create input =>
      refine wp_bind_ofExcept (fun _ _ => ?_) ?_
      · refine (wp_bind _ _).mpr (wp_bind_ofExcept (fun _ _ => ?_) fun e he => ?_)
        · exact wp_insertQuote fun _ => rfl
        · rw [assertSaleTotals] at he
          split at he <;> cases he
          rfl
      · have hline : ∀ l, AllExpected (parseQuoteLine l) := fun l =>
          (AllExpected.check _ _).seq ((AllExpected.check _ _).seq (.check _ _))
        have hmoney : AllExpected (assertQuoteMoney input) :=
          (AllExpected.check _ _).seq ((AllExpected.check _ _).seq
            ((AllExpected.check _ _).seq (.check _ _)))
        exact (parseItemsArray_expected _).seq ((AllExpected.check _ _).seq
          ((AllExpected.forM hline _).seq hmoney))
  | update q patch =>
      refine (wp_bind _ _).mpr ((wp_bind _ _).mpr (wp_lockEditable (fun heditable => ?_) ?_))
      · refine wp_bind_update ((wp_bind _ _).mpr (wp_readQuote fun row => ⟨rfl, ?_, ?_⟩))
        · exact .edited q patch heditable rfl
        · exact Covered.modifyQuote (Covered.refl _ _) List.mem_cons_self _
      · exact fun H' _ => (wp_bind _ _).mpr (wp_readQuote fun row => rfl)
  | delete q =>
      refine (wp_bind _ _).mpr ((wp_bind _ _).mpr (wp_lockEditable (fun heditable => ?_) ?_))
      · refine ⟨rfl, .deleted q heditable rfl, ?_⟩
        refine Covered.quotes (w := fun t => t.erase q) (Covered.refl _ _) (fun q' hne => ?_)
          List.mem_cons_self
        rw [Table.get_erase, if_neg hne]
      · exact fun H' _ => (wp_bind _ _).mpr (wp_readQuote fun row => rfl)
  | duplicate q =>
      refine (wp_bind _ _).mpr ((wp_bind _ _).mpr (wp_readQuote fun src => ?_))
      exact wp_insertQuote fun _ => rfl

end

/-! ## Runs -/

theorem disciplined_readQuote (q : QuoteId) {H : Held LockKey} :
    Disciplined agree (readQuote q) H fun _ _ => True :=
  disciplined_bind_glance fun _ => disciplined_orFail fun _ _ => trivial

theorem disciplined_lockEditable (q : QuoteId) {H : Held LockKey} :
    Disciplined agree (lockEditable q) H fun editable H' =>
      editable = true → (.quote q, .update) ∈ H' := by
  refine disciplined_bind_glance fun seen => ?_
  split
  · refine (disciplined_selectFor fun s s' h => ?_).mono ?_
    · rw [quote_of_agree s s' h]
    · rintro _ H' rfl _
      exact List.mem_cons_self
  · exact fun h => by cases h

theorem disciplined_insertQuote (env : Env) (actor : Actor) (row : DocNo → Quote)
    {H : Held LockKey} : Disciplined agree (insertQuote env actor row) H fun _ _ => True := by
  refine Disciplined.seq (disciplined_issue _ _ _) fun n H₁ _ _ => ?_
  refine disciplined_bind_insertRow (fun s s' h => by rw [quote_of_agree s s' h]) ?_ ?_
  · exact respects_insertQuote List.mem_cons_self
  · exact Disciplined.answer (disciplined_readQuote _)

theorem disciplined_handleQuotes (env : Env) (actor : Actor) (req : QuoteRequest)
    {H : Held LockKey} : Disciplined agree (req.handle env actor) H fun _ _ => True := by
  cases req with
  | create input =>
      refine disciplined_bind_ofExcept fun _ _ => Disciplined.answer ?_
      exact disciplined_bind_ofExcept fun _ _ => disciplined_insertQuote _ _ _
  | update q patch =>
      refine Disciplined.answer (Disciplined.seq (disciplined_lockEditable q) ?_)
      intro editable H₁ _ hheld
      split
      · refine disciplined_bind_update (respects_modifyQuote _ _) ?_
        exact Disciplined.answer (disciplined_readQuote _)
      · exact Disciplined.seq (disciplined_readQuote _) fun _ _ _ _ => trivial
  | delete q =>
      refine Disciplined.answer (f := fun _ => QuoteReply.deleted q)
        (Disciplined.seq (disciplined_lockEditable q) ?_)
      intro editable H₁ _ hheld
      split
      · exact ⟨respects_eraseQuote (hheld ‹_›), trivial⟩
      · exact Disciplined.seq (disciplined_readQuote _) fun _ _ _ _ => trivial
  | duplicate q =>
      refine Disciplined.answer (Disciplined.seq (disciplined_readQuote _) fun src H₁ _ _ => ?_)
      exact disciplined_insertQuote _ _ _

/-- **What any transaction does to the quotes**, whatever has changed around it. -/
theorem wp_deskProg {s : Db} (hs : s.Consistent) (op : DeskOp) :
    wp (deskProg op) [] s Expected fun _ _ s' => QuotesMoved op s s' := by
  cases op with
  | server op =>
      have hprog : wp (prog op) [] s Expected fun _ _ s' => QuotesMoved (.server op) s s' := by
        cases op with
        | post env actor key requestHash req =>
            exact wp_mono (wp_runIdempotent_quotes hs req) (fun _ h => h) fun _ _ _ h => h.moved rfl
        | push env actor key requestHash op =>
            exact wp_mono (wp_processSingleOp_quotes hs op) (fun _ h => h) fun _ _ _ h => h.moved rfl
        | reportUnsynced d n => exact .kept rfl
        | cleanup now =>
            have hleaves : Leaves Db.quotes (cleanup now) := by
              refine (leaves_glance _).bind fun keys => Leaves.forEach fun key => ?_
              exact (leaves_selectFor _ _ _).bind fun row => Leaves.whenever ⟨fun _ => rfl, trivial⟩
            exact wp_seq (hleaves.wp (wp_cleanup (H := []))) fun _ _ _ h => .kept h.2
      exact wp_seq hprog fun _ _ _ h => h
  | quotes env actor req => exact wp_seq (wp_handleQuotes _ req) fun _ _ _ h => h.moved

/-- Interleavings at the desk are serial runs in the order of their commits. -/
theorem sound_deskProg : Sound deskProg agree Db.Consistent Expected where
  equivalence := agree_equivalence
  disciplined op := by
    cases op with
    | server op => exact Disciplined.answer (disciplined_prog op)
    | quotes env actor req => exact Disciplined.answer (disciplined_handleQuotes env actor req)
  commits op s hs := by
    cases op with
    | server op => exact wp_seq (sound.commits op s hs) fun _ _ _ h => h
    | quotes env actor req =>
        have hhandle : wp (req.handle env actor) [] s Expected fun _ H' s' =>
            AtQuotes (.quotes env actor req) H' s s' := wp_handleQuotes _ req
        refine wp_seq hhandle fun _ H s' h => ?_
        refine ⟨?_, h.covered⟩
        rw [h.books]
        exact hs

/-- No bill is what two quotes were converted into. -/
def Db.OneToOne (db : Db) : Prop :=
  ∀ q q' x, db.ConvertedInto q x → db.ConvertedInto q' x → q = q'

/-- Every bill that a quote is converted into is on file. -/
def Db.ConvertedFiled (db : Db) : Prop := ∀ q x, db.ConvertedInto q x → db.OnFile (.sale x)

/-! ## The look-up of the bill's id -/

/-- The question `lockAndClassify` puts to the bills, which it does not lock. -/
def DeskOp.ask (op : DeskOp) : Option (Db → Bool) :=
  op.quoteSale.map fun v db => (db.sales.get v.2.saleId).isSome

section
variable {env : Env} {actor : Actor} {q : QuoteId} {x : SaleId} {α : Type}

theorem leaves_writeSale (dto : SaleWrite) : Leaves Db.quotes (writeSale env actor dto) := by
  have hf : ∀ {s s' : Db}, s.papers = s'.papers → s.quotes = s'.quotes → s.quotes = s'.quotes :=
    fun _ h => h
  refine (tame_requireOpenShiftIdFor _).leaves.bind fun k => ?_
  refine (tame_resolvePaymentAccount _).leaves.bind fun account => ?_
  refine (tame_lockMechanicAndCheckLimit _).leaves.bind fun override => ?_
  refine Leaves.bind (p := lockProducts _) ?_ fun locked => ?_
  · exact Leaves.bind (Leaves.collect fun p => leaves_selectFor _ _ _) fun rows => trivial
  refine (leaves_require _ _).bind fun _ => (tame_deduct hf _).leaves.bind fun after => ?_
  refine (tame_resolveDocNumber hf _ _ _ _).leaves.bind fun n => ?_
  refine (tame_insertSale (fun _ _ _ => rfl) _ _).leaves.bind fun _ => ?_
  refine (tame_insertMovements hf _ _ _).leaves.bind fun mvs => ?_
  refine (tame_updateCustomer hf _ _).leaves.bind fun customer => ?_
  exact (tame_updateMechanic hf _ _).leaves.bind fun mechanic => ⟨fun _ => rfl, trivial⟩

theorem leaves_createSale (dto : SaleWrite) : Leaves Db.quotes (createSale env actor dto) := by
  refine (leaves_ofExcept _).bind fun _ => (leaves_existingSale _ _ _ _).bind fun existing => ?_
  cases existing with
  | none => exact leaves_writeSale dto
  | some r => trivial

/-- A quote is only taken for fresh by who was told that its bill is not there. -/
theorem untold_lockAndClassify {soldAt : Option Nat} {g : QuoteState → Prog α}
    (hg : ∀ state, state ≠ .fresh →
      LeavesUntold Db.quotes (fun db => (db.sales.get x).isSome) (g state)) :
    LeavesUntold Db.quotes (fun db => (db.sales.get x).isSome)
      (lockAndClassify env q x soldAt >>= g) := by
  rw [lockAndClassify, Tx.bind_assoc]
  refine (leaves_selectFor _ _ _).untold.bind fun row => ?_
  cases row with
  | none => exact hg .missing (by decide)
  | some quote =>
      dsimp only
      split
      · refine hg _ ?_
        split <;> simp
      · split
        · exact hg _ (by simp)
        · rw [Tx.bind_assoc]
          exact untold_glance (hg .saleIdTaken (by decide))

theorem untold_lockForSale {g : QuoteState → Prog α}
    (hg : ∀ state, state ≠ .fresh →
      LeavesUntold Db.quotes (fun db => (db.sales.get x).isSome) (g state)) :
    LeavesUntold Db.quotes (fun db => (db.sales.get x).isSome) (lockForSale env q x >>= g) := by
  rw [lockForSale, Tx.bind_assoc]
  refine untold_lockAndClassify fun state hstate => ?_
  rw [Tx.bind_assoc]
  exact (leaves_ofExcept _).untold.bind fun _ => hg state hstate

/-- The end of both ways to sell a quote, when it is not fresh. -/
theorem leaves_unmarked {state : QuoteState} (hstate : state ≠ .fresh) (r : CreateSaleResult) :
    Leaves Db.quotes (do
      Tx.whenever (state = .fresh) (markConverted q r.id)
      let row ← Tx.selectFor .update (.quote q) fun db => db.quotes.get q
      let row ← Tx.orFail row .vanished
      return (r, some (soldQuote q row)) : Prog (CreateSaleResult × Option SoldQuote)) := by
  rw [Tx.whenever, if_neg hstate]
  exact (leaves_selectFor _ _ _).bind fun row => (leaves_orFail _ _).bind fun row => trivial

theorem leaves_settleOfflineQuote {state : QuoteState} (hstate : state ≠ .fresh) :
    Leaves Db.quotes (settleOfflineQuote q x state) := by
  cases state with
  | fresh => exact absurd rfl hstate
  | replay => trivial
  | saleIdTaken => trivial
  | missing => exact ⟨fun _ => rfl, trivial⟩
  | converted c => exact ⟨fun _ => rfl, trivial⟩
  | expired v => exact ⟨fun _ => rfl, trivial⟩

theorem untold_handle {req : Request} {v : QuoteSale} (hv : req.quoteSale = some v) :
    LeavesUntold Db.quotes (fun db => (db.sales.get v.saleId).isSome) (req.handle env actor) := by
  cases req with
  | sale dto quoteId =>
      cases quoteId with
      | none => cases hv
      | some q =>
          obtain rfl := Option.some.inj hv
          refine (leaves_ofExcept _).untold.bind fun _ => LeavesUntold.bind ?_ fun _ => trivial
          refine untold_lockForSale fun state hstate => ?_
          split
          · refine ((leaves_existingSale _ _ _ _).bind fun existing => ?_).untold
            exact (leaves_orFail _ _).bind fun _ => trivial
          · exact ((leaves_createSale _).bind fun r => leaves_unmarked hstate r).untold
  | convertQuote q party =>
      obtain rfl := Option.some.inj hv
      refine (leaves_ofExcept _).untold.bind fun _ => LeavesUntold.bind ?_ fun _ => trivial
      refine untold_lockForSale fun state hstate => Leaves.untold ?_
      refine (leaves_require _ _).bind fun _ => (leaves_selectFor _ _ _).bind fun row => ?_
      refine (leaves_orFail _ _).bind fun quote => (leaves_ofExcept _).bind fun dto => ?_
      exact (leaves_createSale _).bind fun r => leaves_unmarked hstate r
  | _ => cases hv

theorem untold_execute {op : SyncOp} {v : QuoteSale} (hv : op.quoteSale = some v) :
    LeavesUntold Db.quotes (fun db => (db.sales.get v.saleId).isSome) (op.execute env actor) := by
  cases op with
  | saleCreate dto quoteId deviceDate =>
      cases quoteId with
      | none => cases hv
      | some q =>
          obtain rfl := Option.some.inj hv
          have hdate := leaves_clampOpDate (f := Db.quotes) (fun _ _ => rfl) env actor.deviceId
            dto.receiptNo dto.id deviceDate
          refine hdate.untold.bind fun date => ?_
          refine untold_lockAndClassify fun state hstate => Leaves.untold ?_
          refine (leaves_createSale _).bind fun r => ?_
          exact (leaves_settleOfflineQuote hstate).bind fun _ => trivial
  | _ => cases hv

/-- A transaction that was told that its bill is on file leaves the quotes as they are. -/
theorem untold_prog {op : Op} {key : Nat} {v : QuoteSale} (hv : op.quoteSale = some (key, v)) :
    LeavesUntold Db.quotes (fun db => (db.sales.get v.saleId).isSome) (prog op) := by
  cases op with
  | post env actor key requestHash req =>
      obtain ⟨v', hv', heq⟩ := Option.map_eq_some_iff.mp hv
      obtain ⟨-, rfl⟩ := Prod.mk.inj heq
      refine (leaves_claim _ _).untold.bind fun out => ?_
      cases out with
      | reused => trivial
      | replay body => trivial
      | claimed =>
          refine (untold_handle hv').bind fun body => ?_
          exact (leaves_complete body).untold.bind fun _ => trivial
  | push env actor key requestHash op =>
      obtain ⟨v', hv', heq⟩ := Option.map_eq_some_iff.mp hv
      obtain ⟨-, rfl⟩ := Prod.mk.inj heq
      refine (leaves_claim _ _).untold.bind fun out => ?_
      cases out with
      | replay body => trivial
      | reused =>
          refine (leaves_replayKeyOfSameDocument (fun _ _ => rfl) op).untold.bind fun own => ?_
          cases own with
          | some r => trivial
          | none => exact (leaves_ofExcept _).untold.bind fun _ => trivial
      | claimed =>
          refine (leaves_checkClientIdReplay (fun _ _ => rfl) op).untold.bind fun existing => ?_
          cases existing with
          | some r => exact (leaves_complete r).untold.bind fun _ => trivial
          | none =>
              refine (leaves_ofExcept _).untold.bind fun _ => (untold_execute hv').bind fun r => ?_
              exact (leaves_complete r).untold.bind fun _ => trivial
  | reportUnsynced d n => cases hv
  | cleanup now => cases hv

/-- **Nobody converts a quote without having been told that the bill's id is free.** -/
theorem untold_deskProg (op : DeskOp) (ask : Db → Bool) (hask : op.ask = some ask) :
    LeavesUntold Db.quotes ask (deskProg op) := by
  obtain ⟨⟨key, v⟩, hv, rfl⟩ := Option.map_eq_some_iff.mp hask
  cases op with
  | server op => exact LeavesUntold.bind (untold_prog hv) fun _ => trivial
  | quotes env actor req => cases hv

end

/-! ## The bills of the quotes -/

/-- A sale of a quote files its bill. -/
theorem Op.filing_of_quoteSale {op : Op} {key : Nat} {v : QuoteSale}
    (hv : op.quoteSale = some (key, v)) : op.filing = some (.sale v.saleId) := by
  cases op with
  | post env actor key requestHash req =>
      obtain ⟨v', hv', heq⟩ := Option.map_eq_some_iff.mp hv
      obtain ⟨-, rfl⟩ := Prod.mk.inj heq
      cases req with
      | sale dto quoteId =>
          cases quoteId with
          | none => cases hv'
          | some q => exact congrArg (fun v => some (Document.sale v.saleId)) (Option.some.inj hv')
      | convertQuote q party => exact congrArg (fun v => some (Document.sale v.saleId)) (Option.some.inj hv')
      | _ => cases hv'
  | push env actor key requestHash op =>
      obtain ⟨v', hv', heq⟩ := Option.map_eq_some_iff.mp hv
      obtain ⟨-, rfl⟩ := Prod.mk.inj heq
      cases op with
      | saleCreate dto quoteId deviceDate =>
          cases quoteId with
          | none => cases hv'
          | some q => exact congrArg (fun v => some (Document.sale v.saleId)) (Option.some.inj hv')
      | _ => cases hv'
  | reportUnsynced d n => cases hv
  | cleanup now => cases hv

/-- No transaction of the desk takes a document off the file. -/
theorem wp_deskProg_onFile {D : Document} {op : DeskOp} {s : Db} (hs : s.Consistent)
    (hthere : s.OnFile D) : wp (deskProg op) [] s Expected fun _ _ s' => s'.OnFile D := by
  cases op with
  | server op => exact wp_seq (wp_prog_onFile hs hthere) fun _ _ _ h => h
  | quotes env actor req =>
      refine wp_seq (wp_handleQuotes (.quotes env actor req) req) fun _ _ s' h => ?_
      show s'.OnFile D
      rw [h.books]
      cases D <;> exact hthere

section
variable {op : DeskOp} {s s' : Db}

/-- **A converted quote is never touched again.** -/
theorem QuotesMoved.frozen (h : QuotesMoved op s s') {q : QuoteId} {row : Quote}
    (hrow : s.quotes.get q = some row) (hconv : row.status = .converted) :
    s'.quotes.get q = some row := by
  -- whatever the transaction changes is another quote: this one is not editable
  have hne : ∀ q', (s.quotes.get q').any Quote.editable = true → q ≠ q' := by
    rintro q' heditable rfl
    rw [hrow] at heditable
    simp [Quote.editable, hconv] at heditable
  cases h with
  | kept hsame =>
      rw [hsame]
      exact hrow
  | sold key v hop hfree hsale hsold =>
      obtain ⟨row', hrow', heditable⟩ := hsale
      have hq : q ≠ v.quoteId := hne _ (by rw [hrow']; exact heditable)
      rw [hsold]
      exact (Table.get_modify_ne _ hq _).trans hrow
  | saved q' row' hnew hopen hsaved =>
      have hq : q ≠ q' := by
        rintro rfl
        rw [hrow] at hnew
        cases hnew
      rw [hsaved, Table.get_insert_ne _ hq]
      exact hrow
  | edited q' patch heditable hedited =>
      rw [hedited]
      exact (Table.get_modify_ne _ (hne q' heditable) _).trans hrow
  | deleted q' heditable hdeleted =>
      rw [hdeleted, Table.get_erase, if_neg (hne q' heditable)]
      exact hrow

/-- A quote that is converted afterwards was so before, or is the one that was sold. -/
theorem QuotesMoved.convertedInto (h : QuotesMoved op s s') {q : QuoteId} {x : SaleId}
    (hconv : s'.ConvertedInto q x) : s.ConvertedInto q x ∨ ∃ key v, op.quoteSale = some (key, v) ∧
      s.idempotencyKeys.get key = none ∧ s.ForSale v.quoteId ∧ q = v.quoteId ∧
        x = v.saleId := by
  obtain ⟨row, hrow, hstatus, hx⟩ := hconv
  cases h with
  | kept hsame => exact .inl ⟨row, hsame ▸ hrow, hstatus, hx⟩
  | sold key v hop hfree hsale hsold =>
      rw [hsold] at hrow
      by_cases hq : q = v.quoteId
      · subst hq
        obtain ⟨row', hrow', hopen⟩ := hsale
        have hmarked : row.convertedSaleId = some v.saleId := by
          have := (Table.get_modify_self s.quotes v.quoteId _).symm.trans hrow
          rw [hrow'] at this
          obtain rfl := Option.some.inj this
          rfl
        rw [hx] at hmarked
        exact .inr ⟨key, v, hop, hfree, ⟨row', hrow', hopen⟩, rfl, Option.some.inj hmarked⟩
      · exact .inl ⟨row, (Table.get_modify_ne _ hq _).symm.trans hrow, hstatus, hx⟩
  | saved q' row' hnew hopen hsaved =>
      rw [hsaved, Table.get_insert hnew] at hrow
      split at hrow
      · obtain rfl := Option.some.inj hrow
        rw [hopen] at hstatus
        cases hstatus
      · exact .inl ⟨row, hrow, hstatus, hx⟩
  | edited q' patch heditable hedited =>
      rw [hedited] at hrow
      by_cases hq : q = q'
      · -- an edit keeps the status
        subst hq
        have := (Table.get_modify_self s.quotes q _).symm.trans hrow
        cases hold : s.quotes.get q with
        | none =>
            rw [hold] at this
            cases this
        | some old =>
            rw [hold] at this
            obtain rfl := Option.some.inj this
            exact .inl ⟨old, hold, hstatus, hx⟩
      · exact .inl ⟨row, (Table.get_modify_ne _ hq _).symm.trans hrow, hstatus, hx⟩
  | deleted q' heditable hdeleted =>
      rw [hdeleted, Table.get_erase] at hrow
      split at hrow
      · cases hrow
      · exact .inl ⟨row, hrow, hstatus, hx⟩

/-- A conversion changes the quotes. -/
theorem ne_of_converted {q : QuoteId} {x : SaleId} (hsale : s.ForSale q)
    (hconv : s'.ConvertedInto q x) : s'.quotes ≠ s.quotes := by
  intro hsame
  obtain ⟨row, hrow, hopen⟩ := hsale
  obtain ⟨row', hrow', hstatus, -⟩ := hconv
  rw [hsame, hrow] at hrow'
  obtain rfl := Option.some.inj hrow'
  simp [Quote.editable, hstatus] at hopen

/-- A conversion into a bill of no quote keeps the conversions one to one. -/
theorem QuotesMoved.oneToOne (h : QuotesMoved op s s') (hone : s.OneToOne)
    (hfree : s'.quotes ≠ s.quotes → ∀ key v, op.quoteSale = some (key, v) →
      ∀ q, ¬s.ConvertedInto q v.saleId) : s'.OneToOne := by
  intro q q' x hq hq'
  rcases h.convertedInto hq with hold | ⟨key, v, hop, -, hsale, rfl, rfl⟩
  · rcases h.convertedInto hq' with hold' | ⟨key, v, hop, -, hsale, rfl, rfl⟩
    · exact hone q q' x hold hold'
    · exact absurd hold (hfree (ne_of_converted hsale hq') key v hop q)
  · rcases h.convertedInto hq' with hold' | ⟨key', v', hop', -, -, rfl, -⟩
    · exact absurd hold' (hfree (ne_of_converted hsale hq) key v hop q')
    · rw [hop] at hop'
      obtain ⟨-, rfl⟩ := Prod.mk.inj (Option.some.inj hop')
      rfl

end

/-! ## The results -/

/-- The server with its quotes' desk, and its transactions under way. -/
abbrev DeskSystem (T : Type) := Sys Db LockKey ServerError DeskReply DeskOp T

section
variable {T : Type} [DecidableEq T] {s₀ : Db} {S S' : DeskSystem T}

theorem Reachable.quotesMoved (h₀ : s₀.Consistent) (h : Reachable deskProg s₀ S)
    (hstep : Step deskProg S S') : (S'.db = S.db ∧ S'.log = S.log) ∨
      ∃ op a, QuotesMoved op S.db S'.db ∧ S'.log = S.log ++ [(op, a)] :=
  Reachable.commits sound_deskProg h₀ h hstep (fun op _ s s' => QuotesMoved op s s') fun op _ hs =>
    wpHeld_of_wp (wp_deskProg hs op)

/-- A converted quote stays as it is through the rest of the run. -/
theorem Reachable.quote_frozen (h₀ : s₀.Consistent) (h : Reachable deskProg s₀ S)
    (hr : Relation.ReflTransGen (Step deskProg) S S') {q : QuoteId} {row : Quote}
    (hrow : S.db.quotes.get q = some row) (hconv : row.status = .converted) :
    Reachable deskProg s₀ S' ∧ S'.db.quotes.get q = some row := by
  induction hr with
  | refl => exact ⟨h, hrow⟩
  | tail _ hstep ih =>
      obtain ⟨hreach, hkept⟩ := ih
      refine ⟨hreach.step hstep, ?_⟩
      rcases Reachable.quotesMoved h₀ hreach hstep with ⟨hdb, -⟩ | ⟨op, a, hmoved, -⟩
      · rw [hdb]
        exact hkept
      · exact hmoved.frozen hkept hconv

/-- A transaction that changes the quotes by a sale leaves its bill on file. -/
theorem Commit.billFiled (h₀ : s₀.Consistent) (h : Reachable deskProg s₀ S) {t : T} {op : DeskOp}
    {a : DeskReply} (hc : Commit t op a S S') {key : Nat} {v : QuoteSale}
    (hv : op.quoteSale = some (key, v)) (hne : S'.db.quotes ≠ S.db.quotes) :
    S'.db.OnFile (.sale v.saleId) := by
  cases op with
  | server op =>
      have hD : op.filing = some (.sale v.saleId) := Op.filing_of_quoteSale hv
      have hfiled : S'.db.unflagged = S.db.unflagged ∨ S'.db.OnFile (.sale v.saleId) := by
        refine Commit.files sound_deskProg h₀ (fun op s hs hthere => wp_deskProg_onFile hs hthere) h hc
          ((tracks_prog hD).bind fun _ => trivial) fun s hnew => ?_
        exact wpHeld_seq (wpHeld_filed hD (fun _ _ _ h => h.2) hnew) fun _ _ _ h => h
      refine hfiled.resolve_left fun hsame => hne ?_
      have hquotes := congrArg Db.quotes hsame
      exact hquotes
  | quotes env actor req => cases hv

/-- What is on file stays there. -/
theorem Commit.staysOnFile (h₀ : s₀.Consistent) (h : Reachable deskProg s₀ S) {D : Document} {t : T}
    {op : DeskOp} {a : DeskReply} (hc : Commit t op a S S') (hthere : S.db.OnFile D) :
    S'.db.OnFile D := by
  refine hc.does sound_deskProg h₀ h (fun _ s s' => s.OnFile D → s'.OnFile D) (fun s hs => ?_) hthere
  by_cases hD : s.OnFile D
  · exact wpHeld_of_wp (wp_mono (wp_deskProg_onFile hs hD) (fun _ h => h) fun _ _ _ h _ => h)
  · exact wpHeld_of_wp (wp_mono (wp_deskProg hs op) (fun _ h => h) fun _ _ _ _ h => absurd h hD)

/-- What one commit keeps: if its question still has the answer no, the bill it sells a quote into
is of no other quote. -/
theorem Commit.oneToOne (h₀ : s₀.Consistent) {told : T → Prop} (h : Timely deskProg DeskOp.ask s₀ told S)
    {t : T} {op : DeskOp} {a : DeskReply} (hc : Commit t op a S S')
    (htimely : told t → ∀ ask, op.ask = some ask → ask S.db = false)
    (hone : S.db.OneToOne) (hfiled : S.db.ConvertedFiled) : S'.db.OneToOne ∧ S'.db.ConvertedFiled := by
  have hmoved : QuotesMoved op S.db S'.db :=
    hc.does sound_deskProg h₀ h.reachable (fun _ s s' => QuotesMoved op s s')
      fun s hs => wpHeld_of_wp (wp_deskProg hs op)
  refine ⟨hmoved.oneToOne hone fun hne key v hv q hq => ?_, fun q x hq => ?_⟩
  · -- who changes the quotes was told that the bill is not there, and it still is not
    have hask : op.ask = some fun db => (db.sales.get v.saleId).isSome := by rw [DeskOp.ask, hv]; rfl
    have hfree := htimely (h.told_no untold_deskProg hc hask hne) _ hask
    have hthere : (S.db.sales.get v.saleId).isSome = true := hfiled q _ hq
    rw [hfree] at hthere
    cases hthere
  · rcases hmoved.convertedInto hq with hold | ⟨key, v, hv, -, hsale, rfl, rfl⟩
    · exact Commit.staysOnFile h₀ h.reachable hc (hfiled q x hold)
    · exact Commit.billFiled h₀ h.reachable hc hv (ne_of_converted hsale hq)

theorem Timely.oneToOne (h₀ : s₀.Consistent) (hone : s₀.OneToOne) (hfiled : s₀.ConvertedFiled)
    {told : T → Prop} (h : Timely deskProg DeskOp.ask s₀ told S) :
    S.db.OneToOne ∧ S.db.ConvertedFiled := by
  induction h with
  | init => exact ⟨hone, hfiled⟩
  | step h hstep htimely ih =>
      rcases hstep.commit_or_quiet with ⟨hdb, -⟩ | ⟨t, op, a, hc⟩
      · rwa [hdb]
      · exact Commit.oneToOne h₀ h hc (fun ht ask hask => htimely t op a ask hc ht hask) ih.1 ih.2

/-- **Quotes are converted one to one, unless a sale is overtaken by another of its own bill.** In
every run a converted quote is neither edited nor deleted nor converted again. No bill is the
conversion of two quotes in the runs where nobody else commits a bill under an id that a sale of a
quote has looked up and found free, before that sale commits itself. -/
theorem quotes_one_to_one (h₀ : s₀.Consistent) (hone : s₀.OneToOne) (hfiled : s₀.ConvertedFiled) :
    (∀ S S' : DeskSystem T, Reachable deskProg s₀ S →
      Relation.ReflTransGen (Step deskProg) S S' →
        (∀ q row, S.db.quotes.get q = some row → row.status = .converted →
          S'.db.quotes.get q = some row) ∧
        ∀ q x x', S.db.ConvertedInto q x → S'.db.ConvertedInto q x' → x = x') ∧
    ∀ (told : T → Prop) (S : DeskSystem T), Timely deskProg DeskOp.ask s₀ told S → S.db.OneToOne := by
  refine ⟨fun S S' h hr => ⟨fun q row hrow hconv => ?_, ?_⟩, fun told S h => ?_⟩
  · exact (Reachable.quote_frozen h₀ h hr hrow hconv).2
  · rintro q x x' ⟨row, hrow, hstatus, hx⟩ ⟨row', hrow', -, hx'⟩
    rw [(Reachable.quote_frozen h₀ h hr hrow hstatus).2] at hrow'
    obtain rfl := Option.some.inj hrow'
    exact Option.some.inj (hx.symm.trans hx')
  · exact (Timely.oneToOne h₀ hone hfiled h).1

end

/-- An open quote of one piece of the product. -/
def openQuote (q : Nat) : Quote :=
  { quoteNo := .formatted ⟨.quote, 1, 0, q⟩
    status := .opened
    convertedSaleId := none
    validUntil := 100
    subtotal := some 100
    discount := some 0
    total := some 100
    customerName := none
    customerPhone := none
    notes := none
    validDays := none
    lines := [⟨1, some 7, "brake pad", 1, 100, Int.zero_lt_one⟩] }

/-- The shop with two quotes, 51 and 52. -/
def quotedShop : Db :=
  { smallShop with quotes := (Table.empty.insert 51 (openQuote 51)).insert 52 (openQuote 52) }

theorem quotedShop_consistent : quotedShop.Consistent := smallShop_consistent

theorem quotedShop_open (q : QuoteId) (x : SaleId) : ¬quotedShop.ConvertedInto q x := by
  rintro ⟨row, hrow, hstatus, -⟩
  have hrows : row = openQuote 51 ∨ row = openQuote 52 := by
    have hfirst : (Table.empty.insert 51 (openQuote 51)).get 52 = none := rfl
    rw [quotedShop, Table.get_insert hfirst, Table.get_insert rfl] at hrow
    split at hrow
    · exact .inr (Option.some.inj hrow).symm
    · split at hrow
      · exact .inl (Option.some.inj hrow).symm
      · cases hrow
  rcases hrows with rfl | rfl <;> cases hstatus

/-- The sale of the quote `q` under the bill id `x`. -/
def quoteSold (key : Nat) (q : QuoteId) (x : SaleId) : DeskOp :=
  .server (.post (plainEnv 0 90) ⟨1⟩ key 0 (.sale (cashBill x 1 Nat.one_pos) (some q)))

/-- The first sale has looked up the bill id when the second one runs. -/
def saleAcrossSale : List (Turn DeskOp Bool) :=
  [.begins false (quoteSold 1 51 21), .goes false 7, .begins true (quoteSold 2 52 21), .goes true 100,
   .goes false 100]

/-- Both quotes are converted into the one bill. -/
theorem one_bill_of_two_quotes : ∃ S : DeskSystem Bool, Reachable deskProg quotedShop S ∧
    S.db.ConvertedInto 51 21 ∧ S.db.ConvertedInto 52 21 := by
  obtain ⟨S, hreach, hdb⟩ : ∃ S : DeskSystem Bool, Reachable deskProg quotedShop S ∧
      S.db = rowsOf deskProg saleAcrossSale quotedShop := reachable_rowsOf (by decide +kernel)
  refine ⟨S, hreach, ?_⟩
  rw [hdb]
  refine ⟨⟨{ openQuote 51 with status := .converted, convertedSaleId := some 21 }, ?_, rfl, rfl⟩,
    ⟨{ openQuote 52 with status := .converted, convertedSaleId := some 21 }, ?_, rfl, rfl⟩⟩
  · decide +kernel
  · decide +kernel

def quoteOnce : List (Turn DeskOp Bool) := [.begins true (quoteSold 1 51 21), .goes true 100]

/-- The quote 51 is sold; nobody can delete it after that, and the quote 52 goes. -/
def soldThenDeleted : List (Turn DeskOp Bool) :=
  [.begins true (.quotes (plainEnv 1 91) ⟨1⟩ (.delete 51)), .goes true 100,
   .begins true (.quotes (plainEnv 1 92) ⟨1⟩ (.delete 52)), .goes true 100]

/-- The two quotes are sold across each other, under bill ids of their own. -/
def soldAcross : List (Turn DeskOp Bool) :=
  [.begins false (quoteSold 1 51 21), .goes false 7, .begins true (quoteSold 2 52 22), .goes true 100,
   .goes false 100]

/-- A quote that is sold stays as it is while the other one is deleted. -/
theorem quotes_one_to_one_of_soldThenDeleted : (∃ S S' : DeskSystem Bool,
    Reachable deskProg quotedShop S ∧ Relation.ReflTransGen (Step deskProg) S S' ∧
      S.db.ConvertedInto 51 21 ∧ S'.db.quotes.get 51 = S.db.quotes.get 51 ∧
        S'.db.quotes.get 52 = none) ∧
    ∃ (told : Bool → Prop) (S : DeskSystem Bool), Timely deskProg DeskOp.ask quotedShop told S ∧
      S.db.ConvertedInto 51 21 ∧ S.db.ConvertedInto 52 22 ∧ S.db.OneToOne := by
  have hclaim := quotes_one_to_one (T := Bool) quotedShop_consistent
    (fun q q' x h => absurd h (quotedShop_open q x)) fun q x h => absurd h (quotedShop_open q x)
  refine ⟨?_, ?_⟩
  · obtain ⟨S, S', hreach, hruns, hdb, hdb'⟩ : ∃ S S' : DeskSystem Bool,
        Reachable deskProg quotedShop S ∧ Relation.ReflTransGen (Step deskProg) S S' ∧
          S.db = rowsOf deskProg quoteOnce quotedShop ∧
            S'.db = rowsOf deskProg (quoteOnce ++ soldThenDeleted) quotedShop :=
      reachable_rowsOf_append (by decide +kernel)
    have hrow : S.db.quotes.get 51 =
        some { openQuote 51 with status := .converted, convertedSaleId := some 21 } := by
      rw [hdb]
      decide +kernel
    have hkept := (hclaim.1 S S' hreach hruns).1 51 _ hrow rfl
    refine ⟨S, S', hreach, hruns, ⟨_, hrow, rfl, rfl⟩, hkept.trans hrow.symm, ?_⟩
    rw [hdb']
    decide +kernel
  · obtain ⟨told, S, htimely, hrows⟩ : ∃ (told : Bool → Prop) (S : DeskSystem Bool),
        Timely deskProg DeskOp.ask quotedShop told S ∧
          (S.db.quotes.get 51, S.db.quotes.get 52) =
            (some { openQuote 51 with status := .converted, convertedSaleId := some 21 },
              some { openQuote 52 with status := .converted, convertedSaleId := some 22 }) :=
      timely_of_turns soldAcross (fun db : Db => (db.quotes.get 51, db.quotes.get 52)) (by decide +kernel)
    obtain ⟨hfirst, hsecond⟩ := Prod.mk.inj hrows
    exact ⟨told, S, htimely, ⟨_, hfirst, rfl, rfl⟩, ⟨_, hsecond, rfl, rfl⟩, hclaim.2 told S htimely⟩

end Server

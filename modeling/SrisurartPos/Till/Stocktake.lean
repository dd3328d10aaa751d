import SrisurartPos.Table
import SrisurartPos.Till.OfflinePin
import Mathlib.Logic.Function.Basic

/-! # The stocktake (`stocktake_view.dart`, `adjustStock`)

Products are counted, and what differs from the stock on the till is written to the server, a product at
a time and as a difference. The differences are taken at the first press of confirm, against stock that
was pulled for it, and kept: a press after a failure sends the rest again. Whether an adjustment that got
no answer is sent under its old key is up to `PendingWrites`, which forgets it after ten minutes. -/

namespace Till.Stocktake

/-! ## Lines -/

/-- A product on the screen. -/
structure ProductRow where
  id : String
  stock : Int
  deriving DecidableEq, Repr

structure StocktakeLine where
  product : ProductRow
  counted : Int
  deriving DecidableEq, Repr

/-- Counted less system, against the stock in `product`. -/
def StocktakeLine.diff (l : StocktakeLine) : Int := l.counted - l.product.stock

/-- A product without a count is not in the counts, which are digits. -/
abbrev Counts := String → Option Nat

def stocktakeChanges (products : List ProductRow) (counts : Counts) : List StocktakeLine :=
  products.filterMap fun p =>
    match counts p.id with
    | none   => none
    | some n => if (n : Int) ≠ p.stock then some ⟨p, n⟩ else none

/-- Whether they would write the same thing: same products, same differences. -/
def sameStocktakeRows (a b : List StocktakeLine) : Bool :=
  a.map (fun l => (l.product.id, l.diff)) = b.map fun l => (l.product.id, l.diff)

/-- The last six letters of a UUID. -/
structure Tag where
  text : String
  length_eq : text.toList.length = 6
  deriving DecidableEq

/-- A date as `thaiDate` writes it. -/
structure DateText where
  text : String
  no_hash : '#' ∉ text.toList
  deriving DecidableEq

def stocktakeNote (date : DateText) (tag : Tag) (extra : String) : String :=
  let e := OfflinePin.trim extra
  "ตรวจนับ " ++ date.text ++ " #" ++ tag.text ++ if e = "" then "" else " · " ++ e

inductive AdjustmentType where
  | adjustmentIn
  | adjustmentOut
  deriving DecidableEq, Repr

/-- An adjustment as it is sent. It is its own fingerprint. -/
structure Adjustment where
  productId : String
  delta : Int
  type : AdjustmentType
  note : String
  deriving DecidableEq, Repr

def StocktakeLine.adjustment (l : StocktakeLine) (note : String) : Adjustment :=
  ⟨l.product.id, l.diff, if l.diff > 0 then .adjustmentIn else .adjustmentOut, note⟩

/-! ## The tables -/

/-- A product's row, on the server or on the till. -/
structure StockRow where
  stock : Int
  deleted : Bool
  deriving DecidableEq, Repr

abbrev Products := Table String StockRow

/-- A row of `idempotency_keys` with its response. -/
structure KeyRow where
  key : Nat
  body : Adjustment
  stockAfter : Int
  createdAt : Nat
  deriving DecidableEq, Repr

structure PendingWrite where
  fingerprint : Adjustment
  key : Nat
  deriving DecidableEq, Repr

structure Parked where
  write : PendingWrite
  since : Nat
  deriving DecidableEq, Repr

/-- An adjustment that the server made for this till. -/
structure Commit where
  key : Nat
  body : Adjustment
  before : Int
  after : Int
  time : Nat
  deriving DecidableEq, Repr

/-- `PendingWrites._ttl`, in seconds like all times here. -/
def ttl : Nat := 600

def idempotencyTtlSeconds : Nat := 24 * 60 * 60

/-- `defaultWriteTimeout` -/
def writeTimeout : Nat := 40

def int4Max : Int := 2147483647

def isVerdict (statusCode : Nat) : Bool := statusCode < 500 && statusCode ≠ 429

/-! ## Pages -/

/-- What is fixed at the first confirm: `left` is what remains of the lines. The rest tells the moment:
the stock pulled for it, what the server had less what was queued, and how much others had changed and
this till had adjusted by then. -/
structure Plan where
  left : List StocktakeLine
  note : String
  lines : List StocktakeLine
  fresh : List ProductRow
  net : String → Int
  others : String → Int
  commits : Nat

/-- What a page awaits: the lines still to do, the head first, and those that are done. -/
inductive Phase where
  | ready
  | pulling (shown : List StocktakeLine)
  | looking (todo result : List StocktakeLine)
  | selecting (line : StocktakeLine) (todo result : List StocktakeLine)
  | posting (line : StocktakeLine) (todo result : List StocktakeLine) (attempt : PendingWrite) (sentAt : Nat)
  | storing (line : StocktakeLine) (todo result : List StocktakeLine) (attempt : PendingWrite)
      (stockAfter : Int)
  | completed
  | closed
  deriving DecidableEq

structure Page where
  tag : Tag
  products : List ProductRow
  counts : Counts
  extra : String
  plan : Option Plan
  applied : List StocktakeLine
  phase : Phase

/-- How an operation turns out. Only `done` and `lost` have the server do what is asked. -/
inductive Outcome where
  | done
  | lost
  | fails (statusCode : Nat)
  | unreachable
  deriving DecidableEq, Repr

/-- The server, one till and its pages. The last four only record: what others have changed of a
product's stock and of its quantity in the outbox, the adjustments made, the attempts minted and those
that each page has sent. -/
structure Sys where
  now : Nat
  today : DateText
  server : Products
  keys : List KeyRow
  products : Products
  outbox : List (String × Int)
  pending : List Parked
  nextKey : Nat
  pages : List Page
  others : String → Int
  committed : List Commit
  minted : List PendingWrite
  sent : List (Tag × Nat)

namespace Sys

variable (S : Sys)

/-- What the outbox will take from a product's stock. -/
def queued (id : String) : Int := ((S.outbox.filter fun e => e.1 = id).map Prod.snd).sum

def serverStock (id : String) : Int := (S.server.get id).elim 0 StockRow.stock

/-- The server's stock, less the quantities still queued. -/
def net (id : String) : Int := S.serverStock id - S.queued id

/-! ### The pull -/

/-- A product with queued work keeps its own stock. -/
def companion (e : String × StockRow) : StockRow :=
  if S.outbox.any (fun o => o.1 = e.1) = true then
    match S.products.get e.1 with
    | some row => { e.2 with stock := row.stock }
    | none     => e.2
  else e.2

/-- `syncFromServer` -/
def pull : Products := S.server.rows.foldl (fun t e => t.upsert e.1 (S.companion e)) S.products

/-- `_localAll` -/
def localAll (products : Products) : List ProductRow :=
  products.rows.filterMap fun e => if e.2.deleted = true then none else some ⟨e.1, e.2.stock⟩

/-- `getById`, which asks the server where the till has no live row. -/
def getById (id : String) (o : Outcome) : Sys × Bool :=
  match S.products.get id with
  | some ⟨_, false⟩ => (S, true)
  | _ =>
      match o, S.server.get id with
      | .done, some row => ({ S with products := S.products.upsert id row }, !row.deleted)
      | _, _            => (S, false)

/-! ### The adjustment -/

/-- `PendingWrites.of`: the parked attempt, or a new one in its place. -/
def lookup (fingerprint : Adjustment) : Option Parked :=
  S.pending.find? fun e => e.write.fingerprint = fingerprint && decide (S.now < e.since + ttl)

def mint (fingerprint : Adjustment) : Sys :=
  let write : PendingWrite := ⟨fingerprint, S.nextKey⟩
  { S with
    pending := ⟨write, S.now⟩ :: S.pending.filter fun e => e.write.fingerprint ≠ fingerprint
    nextKey := S.nextKey + 1
    minted := write :: S.minted }

def attempt (fingerprint : Adjustment) : Sys × PendingWrite :=
  match S.lookup fingerprint with
  | some e => (S, e.write)
  | none   => (S.mint fingerprint, ⟨fingerprint, S.nextKey⟩)

def close (write : PendingWrite) : Sys :=
  { S with pending := S.pending.filter fun e => e.write.fingerprint ≠ write.fingerprint }

def closeIfVerdict (write : PendingWrite) (statusCode : Nat) : Sys :=
  if isVerdict statusCode = true then S.close write else S

/-- The adjustment clamps at zero. -/
def commit (key : Nat) (body : Adjustment) (stock : Int) : Sys :=
  let after := max 0 (stock + body.delta)
  { S with
    server := S.server.modify body.productId fun r => { r with stock := after }
    keys := ⟨key, body, after, S.now⟩ :: S.keys
    committed := ⟨key, body, stock, after, S.now⟩ :: S.committed }

/-- `POST /products/:id/adjust-stock`, with the stock after it or the status code of the refusal. -/
def post (key : Nat) (body : Adjustment) : Sys × Except Nat Int :=
  match S.keys.find? fun k => k.key = key with
  | some stored => (S, if stored.body = body then .ok stored.stockAfter else .error 409)
  | none =>
      match S.server.get body.productId with
      | some ⟨stock, false⟩ =>
          if stock + body.delta > int4Max then (S, .error 400)
          else (S.commit key body stock, .ok (max 0 (stock + body.delta)))
      | _ => (S, .error 404)

end Sys

/-! ## `_apply` -/

/-- The first failure stops; what is left stays for another press. -/
def Page.stop (P : Page) (result : List StocktakeLine) : Page :=
  { P with
    applied := P.applied ++ result
    plan := P.plan.map fun plan => { plan with left := plan.left.drop result.length }
    phase := .ready }

def Page.to (P : Page) (phase : Phase) : Page := { P with phase }

namespace Sys

variable (S : Sys)

/-- The differences are fixed where the fresh stock gives those on the screen. -/
def freeze (P : Page) (shown : List StocktakeLine) : Sys × Page :=
  let S' := { S with products := S.pull }
  let fresh := localAll S.pull
  let current := stocktakeChanges fresh P.counts
  if sameStocktakeRows shown current = true then
    (S', { P with
      plan := some ⟨current, stocktakeNote S.today P.tag P.extra, current, fresh, S.net, S.others,
        S.committed.length⟩
      phase := .looking current [] })
  else (S', { P with products := fresh, phase := .ready })

/-- What becomes of an adjustment that has an answer. -/
def answered (P : Page) (line : StocktakeLine) (todo result : List StocktakeLine) (attempt : PendingWrite) :
    Except Nat Int → Sys × Page
  | .ok stockAfter    => (S, P.to (.storing line todo result attempt stockAfter))
  | .error statusCode => (S.closeIfVerdict attempt statusCode, P.stop result)

def turnPage (P : Page) (o : Outcome) : Sys × Page :=
  match P.phase with
  | .ready | .completed | .closed => (S, P)
  | .pulling shown => if o = .done then S.freeze P shown else (S, P.to .ready)
  | .looking [] result => (S, { P with applied := P.applied ++ result, phase := .completed })
  | .looking (line :: todo) result =>
      match S.getById line.product.id o with
      | (S', true)  => (S', P.to (.selecting line todo result))
      | (S', false) => (S', P.stop result)
  | .selecting line todo result =>
      match S.products.get line.product.id, P.plan with
      | some _, some plan =>
          match S.attempt (line.adjustment plan.note) with
          | (S', attempt) =>
              ({ S' with sent := (P.tag, attempt.key) :: S'.sent },
                P.to (.posting line todo result attempt S.now))
      -- No row, no adjustment, and no error.
      | _, _ => (S, P.to (.looking todo (result ++ [line])))
  | .posting line todo result attempt sentAt =>
      if S.now > sentAt + writeTimeout then (S, P.stop result)
      else
        match o with
        | .done =>
            match S.post attempt.key attempt.fingerprint with
            | (S', reply) => S'.answered P line todo result attempt reply
        | .lost             => ((S.post attempt.key attempt.fingerprint).1, P.stop result)
        | .fails statusCode => S.answered P line todo result attempt (.error statusCode)
        | .unreachable      => (S, P.stop result)
  | .storing line todo result attempt stockAfter =>
      if o = .done then
        ({ S.close attempt with
            products := S.products.modify line.product.id fun r => { r with stock := stockAfter } },
          P.to (.looking todo (result ++ [line])))
      else (S, P.stop result)

end Sys

/-- A press of confirm. -/
def Page.press (P : Page) (degraded : Bool) : Page :=
  match P.phase, degraded with
  | .ready, false =>
      match P.plan with
      | some plan => if plan.left = [] then P else P.to (.looking plan.left [])
      | none =>
          let shown := stocktakeChanges P.products P.counts
          if shown = [] then P else P.to (.pulling shown)
  | _, _ => P

/-- A count is typed, or deleted. Once the plan is fixed, no count can be edited. -/
def Page.setCount (P : Page) (id : String) (n : Option Nat) : Page :=
  match P.phase, P.plan with
  | .ready, none => { P with counts := Function.update P.counts id n }
  | _, _         => P

/-- The page is gone, unless it has popped with all done. -/
def Page.shut (P : Page) : Page := if P.phase = .completed then P else P.to .closed

/-! ## Runs -/

inductive Move where
  | openPage (tag : Tag)
  | setCount (i : Nat) (id : String) (n : Option Nat)
  | setExtra (i : Nat) (text : String)
  | press (i : Nat) (degraded : Bool)
  | turn (i : Nat) (o : Outcome)
  | leave (i : Nat)
  /-- the app closes and opens again -/
  | restart
  | tick (seconds : Nat) (today : DateText)
  /-- old keys are deleted on the server -/
  | cleanUp
  /-- somebody else writes a product on the server, or on the till -/
  | serverRow (id : String) (row : StockRow)
  | localRow (id : String) (row : Option StockRow)
  /-- a sale is queued, and pushed or discarded -/
  | enqueue (id : String) (quantity : Int)
  | dequeue (i : Nat)
  deriving DecidableEq

namespace Sys

variable (S : Sys)

def setPage (i : Nat) (f : Page → Page) : Sys := { S with pages := S.pages.modify i f }

/-- A change that is not the stocktake's. -/
def byOthers (S' : Sys) : Sys := { S' with others := fun id => S.others id + (S'.net id - S.net id) }

def move : Move → Sys
  | .openPage tag =>
      { S with pages := S.pages ++ [⟨tag, localAll S.products, fun _ => none, "", none, [], .ready⟩] }
  | .setCount i id n    => S.setPage i fun P => P.setCount id n
  | .setExtra i text    => S.setPage i fun P => { P with extra := text }
  | .press i degraded   => S.setPage i fun P => P.press degraded
  | .turn i o =>
      match S.pages[i]? with
      | none   => S
      | some P =>
          let (S', P') := S.turnPage P o
          { S' with pages := S.pages.set i P' }
  | .leave i =>
      S.setPage i fun P => if P.phase = .ready then P.shut else P
  | .restart => { S with pending := [], pages := S.pages.map Page.shut }
  | .tick seconds today => { S with now := S.now + seconds, today }
  | .cleanUp =>
      { S with keys := S.keys.filter fun k => decide (S.now < k.createdAt + idempotencyTtlSeconds) }
  | .serverRow id row => S.byOthers { S with server := S.server.upsert id row }
  | .localRow id row =>
      match row with
      | some row => { S with products := S.products.upsert id row }
      | none     => { S with products := S.products.erase id }
  | .enqueue id quantity => S.byOthers { S with outbox := S.outbox ++ [(id, quantity)] }
  | .dequeue i           => S.byOthers { S with outbox := S.outbox.eraseIdx i }

def run (moves : List Move) : Sys := moves.foldl move S

end Sys

/-! ## A difference is written once -/

/-- This till's adjustments since there were `commits` of them. -/
def Sys.since (S : Sys) (commits : Nat) : List Commit := S.committed.take (S.committed.length - commits)

def Sys.made (S : Sys) (body : Adjustment) : List Commit := S.committed.filter fun c => c.body = body

/-- What a page's adjustments are: lines of its plan, which are of counted products, each at most once and
all of them once the page has completed. Then the stock that nothing else has touched since the pull is
what was counted. Pages with different tags share no key. -/
structure Sys.Faithful (S : Sys) : Prop where
  own : ∀ P ∈ S.pages, ∀ plan ∈ P.plan, ∀ c ∈ S.committed, c.body.note = plan.note →
    ∃ l ∈ plan.lines, c.body = l.adjustment plan.note
  counted : ∀ P ∈ S.pages, ∀ plan ∈ P.plan, ∀ l ∈ plan.lines,
    ∃ n : Nat, P.counts l.product.id = some n ∧ l.counted = n
  once : ∀ P ∈ S.pages, ∀ plan ∈ P.plan, ∀ l ∈ plan.lines,
    (S.made (l.adjustment plan.note)).length ≤ 1
  complete : ∀ P ∈ S.pages, P.phase = .completed → ∀ plan ∈ P.plan, ∀ l ∈ plan.lines,
    (S.made (l.adjustment plan.note)).length = 1
  stock : ∀ P ∈ S.pages, P.phase = .completed → ∀ plan ∈ P.plan, ∀ p ∈ plan.fresh, ∀ n : Nat,
    P.counts p.id = some n → S.others p.id = plan.others p.id →
    (∀ c ∈ S.since plan.commits, c.body.productId = p.id → c.body.note = plan.note) → S.net p.id = n
  keys : ∀ x ∈ S.sent, ∀ y ∈ S.sent, x.2 = y.2 → x.1 = y.1

/-- No stocktake yet. -/
structure Sys.Start (S : Sys) : Prop where
  pages : S.pages = []
  keys : S.keys = []
  pending : S.pending = []
  committed : S.committed = []
  minted : S.minted = []
  sent : S.sent = []

/-- Before a step of a page: where the pull fixes the differences, the stock that it leaves of what is
counted is the server's, less what is queued; a line that is about to be sent has its row on the till, and
where its adjustment was made before, the attempt is still parked; where the server gets an adjustment under
a new key, its stock is enough. -/
def Sys.PageCalm (S : Sys) (P : Page) (o : Outcome) : Prop :=
  match P.phase with
  | .pulling shown =>
      o = .done → sameStocktakeRows shown (stocktakeChanges (Sys.localAll S.pull) P.counts) = true →
        ∀ p ∈ Sys.localAll S.pull, P.counts p.id ≠ none → p.stock = S.net p.id
  | .selecting line _ _ =>
      S.products.get line.product.id ≠ none ∧ ∀ plan ∈ P.plan,
        (∃ c ∈ S.committed, c.body = line.adjustment plan.note) →
          S.lookup (line.adjustment plan.note) ≠ none
  | .posting line _ _ attempt sentAt =>
      o = .done ∨ o = .lost → S.now ≤ sentAt + writeTimeout → (∀ k ∈ S.keys, k.key ≠ attempt.key) →
        ∀ row ∈ S.server.get line.product.id, row.deleted = false → 0 ≤ row.stock + line.diff
  | _ => True

def Sys.Calm (S : Sys) : Move → Prop
  | .openPage tag => ∀ P ∈ S.pages, P.tag ≠ tag
  | .turn i o     => ∀ P ∈ S.pages[i]?, S.PageCalm P o
  | _             => True

instance {S : Sys} {P : Page} {o : Outcome} : Decidable (S.PageCalm P o) := by
  unfold Sys.PageCalm
  split <;> infer_instance

instance {S : Sys} : ∀ m, Decidable (S.Calm m)
  | .openPage tag => inferInstanceAs (Decidable (∀ P ∈ S.pages, P.tag ≠ tag))
  | .turn i o     => inferInstanceAs (Decidable (∀ P ∈ S.pages[i]?, S.PageCalm P o))
  | .setCount _ _ _ | .setExtra _ _ | .press _ _ | .leave _ | .restart | .tick _ _ | .cleanUp
  | .serverRow _ _ | .localRow _ _ | .enqueue _ _ | .dequeue _ => .isTrue trivial

def CalmRun : Sys → List Move → Prop
  | _, []      => True
  | S, m :: ms => S.Calm m ∧ CalmRun (S.move m) ms

instance instDecidableCalmRun : ∀ S ms, Decidable (CalmRun S ms)
  | _, []      => .isTrue trivial
  | S, m :: ms =>
      have := instDecidableCalmRun (S.move m) ms
      inferInstanceAs (Decidable (S.Calm m ∧ CalmRun (S.move m) ms))

/-! ## Notes -/

theorem dropWhile_hash {a x : List Char} (h : '#' ∉ a) :
    (a ++ '#' :: x).dropWhile (· ≠ '#') = '#' :: x := by
  induction a with
  | nil => simp
  | cons c a ih =>
      have hc : c ≠ '#' := fun heq => h (heq ▸ List.mem_cons_self)
      simpa [hc] using ih fun hmem => h (List.mem_cons_of_mem c hmem)

theorem toList_stocktakeNote (date : DateText) (tag : Tag) (extra : String) :
    ∃ rest, (stocktakeNote date tag extra).toList =
      "ตรวจนับ ".toList ++ ((date.text.toList ++ [' ']) ++ '#' :: (tag.text.toList ++ rest)) := by
  have hhash : " #".toList = [' ', '#'] := by decide
  unfold stocktakeNote
  generalize "ตรวจนับ " = start
  extract_lets e
  generalize (if e = "" then "" else " · " ++ e) = rest
  refine ⟨rest.toList, ?_⟩
  simp only [String.toList_append, hhash, List.append_assoc, List.cons_append, List.nil_append]

/-- A note tells its page. -/
theorem tag_of_note {date date' : DateText} {tag tag' : Tag} {extra extra' : String}
    (h : stocktakeNote date tag extra = stocktakeNote date' tag' extra') : tag = tag' := by
  obtain ⟨rest, hrest⟩ := toList_stocktakeNote date tag extra
  obtain ⟨rest', hrest'⟩ := toList_stocktakeNote date' tag' extra'
  have hno : ∀ d : DateText, '#' ∉ d.text.toList ++ [' '] := by
    intro d hmem
    rcases List.mem_append.mp hmem with hmem | hmem
    · exact d.no_hash hmem
    · cases List.mem_singleton.mp hmem
  rw [h, hrest'] at hrest
  have hafter := congrArg (List.dropWhile (· ≠ '#')) (List.append_cancel_left hrest)
  rw [dropWhile_hash (hno date), dropWhile_hash (hno date')] at hafter
  have htags := List.append_inj_left (List.cons.inj hafter).2 (tag'.length_eq.trans tag.length_eq.symm)
  obtain ⟨text, hlen⟩ := tag
  obtain ⟨text', hlen'⟩ := tag'
  have htext : text' = text := String.toList_inj.mp htags
  subst htext
  rfl

/-! ## Lines of a plan -/

/-- A change is a product whose count differs from its stock. -/
theorem mem_stocktakeChanges {products : List ProductRow} {counts : Counts} {l : StocktakeLine} :
    l ∈ stocktakeChanges products counts ↔
      l.product ∈ products ∧ (∃ n : Nat, counts l.product.id = some n ∧ l.counted = n) ∧
        l.counted ≠ l.product.stock := by
  rw [stocktakeChanges, List.mem_filterMap]
  constructor
  · rintro ⟨p, hp, hl⟩
    split at hl
    · cases hl
    next n hn =>
      split at hl
      next hne =>
        cases hl
        exact ⟨hp, ⟨n, hn, rfl⟩, hne⟩
      · cases hl
  · rintro ⟨hp, ⟨n, hn, hcounted⟩, hne⟩
    obtain ⟨product, counted⟩ := l
    dsimp only at hp hn hcounted hne
    subst hcounted
    exact ⟨product, hp, by rw [hn]; exact if_pos hne⟩

theorem nodup_localAll (products : Products) : ((Sys.localAll products).map (·.id)).Nodup := by
  have hsub : ((Sys.localAll products).map (·.id)).Sublist (products.rows.map Prod.fst) := by
    unfold Sys.localAll
    induction products.rows with
    | nil => exact .slnil
    | cons e l ih =>
        by_cases hd : e.2.deleted = true
        · simpa [hd] using ih.cons e.1
        · simpa [hd] using ih.cons_cons e.1
  exact hsub.nodup products.nodup

/-! ## The invariant -/

def Sys.Made (S : Sys) (body : Adjustment) : Prop := ∃ c ∈ S.committed, c.body = body

/-- What adjustments have added to a product's stock. -/
def effect (cs : List Commit) (id : String) : Int :=
  ((cs.filter fun c => c.body.productId = id).map fun c => c.after - c.before).sum

/-- Keys name adjustments, on the till and on the server, where a key is kept for a day. An adjustment
that was made is parked, if at all, under the key that it was made under. -/
structure Base (S : Sys) : Prop where
  minted_lt : ∀ w ∈ S.minted, w.key < S.nextKey
  minted_inj : ∀ w ∈ S.minted, ∀ w' ∈ S.minted, w.key = w'.key → w = w'
  parked : ∀ e ∈ S.pending, e.write ∈ S.minted ∧ e.since ≤ S.now
  parked_inj : ∀ e ∈ S.pending, ∀ e' ∈ S.pending,
    e.write.fingerprint = e'.write.fingerprint → e.write = e'.write
  stored : ∀ k ∈ S.keys, ∃ c ∈ S.committed, c.key = k.key ∧ c.body = k.body
  committed : ∀ c ∈ S.committed, ⟨c.body, c.key⟩ ∈ S.minted ∧ c.after - c.before = c.body.delta ∧
    ((∃ k ∈ S.keys, k.key = c.key ∧ c.time ≤ k.createdAt) ∨ c.time + idempotencyTtlSeconds ≤ S.now)
  resent : ∀ c ∈ S.committed, ∀ e ∈ S.pending, e.write.fingerprint = c.body →
    e.write.key = c.key ∧ e.since ≤ c.time
  once : ∀ body, (S.made body).length ≤ 1
  sent : ∀ x ∈ S.sent, ∃ w ∈ S.minted, w.key = x.2 ∧
    ∃ date extra, w.fingerprint.note = stocktakeNote date x.1 extra

/-- A plan and what has come of it. -/
structure Page.PlanOk (P : Page) (S : Sys) (plan : Plan) : Prop where
  lines_eq : plan.lines = stocktakeChanges plan.fresh P.counts
  nodup : (plan.fresh.map (·.id)).Nodup
  note_eq : ∃ date extra, plan.note = stocktakeNote date P.tag extra
  fresh_net : ∀ p ∈ plan.fresh, P.counts p.id ≠ none → p.stock = plan.net p.id
  own : ∀ c ∈ S.committed, c.body.note = plan.note → ∃ l ∈ plan.lines, c.body = l.adjustment plan.note
  commits_le : plan.commits ≤ S.committed.length
  older : ∀ c ∈ S.committed.drop (S.committed.length - plan.commits), c.body.note ≠ plan.note
  net : ∀ id, S.net id = plan.net id + (S.others id - plan.others id) + effect (S.since plan.commits) id
  applied : ∀ l ∈ P.applied, S.Made (l.adjustment plan.note)

/-- The page is at work: `result` is done of what was left, `todo` is not. -/
structure Page.Doing (P : Page) (S : Sys) (plan : Plan) (todo result : List StocktakeLine) : Prop where
  lines : plan.lines = P.applied ++ plan.left
  left : plan.left = result ++ todo
  made : ∀ l ∈ result, S.Made (l.adjustment plan.note)

/-- An adjustment is on its way. If it was made before, it has the same key and is in time. -/
structure Sys.Posts (S : Sys) (body : Adjustment) (attempt : PendingWrite) (sentAt : Nat) : Prop where
  fingerprint : attempt.fingerprint = body
  minted : attempt ∈ S.minted
  parked : ∀ e ∈ S.pending, e.write.fingerprint = body → e.write = attempt
  committed : ∀ c ∈ S.committed, c.body = body → c.key = attempt.key ∧ sentAt < c.time + ttl

def Page.PhaseOk (P : Page) (S : Sys) (plan : Plan) : Phase → Prop
  | .ready               => plan.lines = P.applied ++ plan.left
  | .pulling _           => False
  | .looking todo result => P.Doing S plan todo result
  | .selecting line todo result => P.Doing S plan (line :: todo) result
  | .posting line todo result attempt sentAt =>
      P.Doing S plan (line :: todo) result ∧ S.Posts (line.adjustment plan.note) attempt sentAt
  | .storing line todo result attempt _ =>
      P.Doing S plan (line :: todo) result ∧ S.Made (line.adjustment plan.note) ∧
        attempt.fingerprint = line.adjustment plan.note
  | .completed => ∀ l ∈ plan.lines, S.Made (l.adjustment plan.note)
  | .closed    => True

def Page.Ok (P : Page) (S : Sys) : Prop :=
  match P.plan with
  | some plan => P.PlanOk S plan ∧ P.PhaseOk S plan P.phase
  | none =>
      P.applied = [] ∧ (P.phase = .ready ∨ P.phase = .closed ∨ ∃ shown, P.phase = .pulling shown)

structure Inv (S : Sys) : Prop where
  base : Base S
  tags : (S.pages.map (·.tag)).Nodup
  ofPages : ∀ c ∈ S.committed, ∃ P ∈ S.pages, ∃ plan ∈ P.plan, c.body.note = plan.note
  pages : ∀ P ∈ S.pages, P.Ok S

section
variable {S S' : Sys} {P P' : Page} {plan : Plan} {new : List Commit}

/-- `new` is what was adjusted in between; all other changes of the stock are the others'. -/
structure Grown (S S' : Sys) (new : List Commit) : Prop where
  committed : S'.committed = new ++ S.committed
  minted : ∀ w ∈ S.minted, w ∈ S'.minted
  net : ∀ id, S'.net id - S'.others id = S.net id - S.others id + effect new id

theorem effect_append (cs cs' : List Commit) (id : String) :
    effect (cs ++ cs') id = effect cs id + effect cs' id := by
  simp [effect, List.filter_append, List.map_append, List.sum_append]

theorem Sys.Made.grown {body : Adjustment} (h : S.Made body) (hg : Grown S S' new) : S'.Made body := by
  obtain ⟨c, hc, hbody⟩ := h
  exact ⟨c, hg.committed ▸ List.mem_append_right new hc, hbody⟩

theorem Grown.since (hg : Grown S S' new) {commits : Nat} (hle : commits ≤ S.committed.length) :
    S'.since commits = new ++ S.since commits ∧
      S'.committed.drop (S'.committed.length - commits) =
        S.committed.drop (S.committed.length - commits) := by
  have hlen : S'.committed.length - commits = new.length + (S.committed.length - commits) := by
    rw [hg.committed, List.length_append]
    omega
  rw [Sys.since, Sys.since, hlen, hg.committed, List.take_length_add_append, List.drop_length_add_append]
  exact ⟨rfl, rfl⟩

/-- A plan stays good while commits are added under other notes, or for its own lines. -/
theorem Page.PlanOk.grown (h : P.PlanOk S plan) (hg : Grown S S' new)
    (hown : ∀ c ∈ new, c.body.note = plan.note → ∃ l ∈ plan.lines, c.body = l.adjustment plan.note) :
    P.PlanOk S' plan := by
  obtain ⟨hsince, hdrop⟩ := hg.since h.commits_le
  refine { h with own := ?_, commits_le := ?_, older := ?_, net := ?_, applied := ?_ }
  · intro c hc hnote
    rw [hg.committed] at hc
    rcases List.mem_append.mp hc with hc | hc
    · exact hown c hc hnote
    · exact h.own c hc hnote
  · rw [hg.committed, List.length_append]
    exact Nat.le_trans h.commits_le (Nat.le_add_left _ _)
  · rw [hdrop]
    exact h.older
  · intro id
    have hnet := h.net id
    have hgrown := hg.net id
    rw [hsince, effect_append]
    omega
  · exact fun l hl => (h.applied l hl).grown hg

theorem Page.Doing.grown {todo result : List StocktakeLine} (h : P.Doing S plan todo result)
    (hg : Grown S S' new) : P.Doing S' plan todo result :=
  ⟨h.lines, h.left, fun l hl => (h.made l hl).grown hg⟩

/-- What the till does for other notes does not disturb a request. -/
theorem Sys.Posts.grown {body : Adjustment} {attempt : PendingWrite} {sentAt : Nat}
    (h : S.Posts body attempt sentAt) (hg : Grown S S' new) (hnew : ∀ c ∈ new, c.body ≠ body)
    (hpending : ∀ e ∈ S'.pending, e ∈ S.pending ∨ e.write.fingerprint ≠ body) :
    S'.Posts body attempt sentAt := by
  refine ⟨h.fingerprint, hg.minted _ h.minted, fun e he hbody => ?_, fun c hc hbody => ?_⟩
  · exact h.parked e ((hpending e he).resolve_right fun hne => hne hbody) hbody
  · rw [hg.committed] at hc
    rcases List.mem_append.mp hc with hc | hc
    · exact absurd hbody (hnew c hc)
    · exact h.committed c hc hbody

/-- A page stays in order while commits are added under other notes, or for its own lines. -/
theorem Page.Ok.grown (h : P.Ok S) (hg : Grown S S' new)
    (hnew : ∀ plan ∈ P.plan, ∀ c ∈ new, c.body.note ≠ plan.note)
    (hpending : ∀ plan ∈ P.plan, ∀ e ∈ S'.pending, e ∈ S.pending ∨ e.write.fingerprint.note ≠ plan.note) :
    P.Ok S' := by
  unfold Page.Ok at h ⊢
  cases hplan : P.plan with
  | none => simpa only [hplan] using h
  | some plan =>
      simp only [hplan] at h ⊢
      have hnew := hnew plan hplan
      refine ⟨h.1.grown hg fun c hc hnote => absurd hnote (hnew c hc), ?_⟩
      have hphase := h.2
      cases hp : P.phase with
      | ready =>
          rw [hp] at hphase
          exact hphase
      | pulling shown =>
          rw [hp] at hphase
          exact hphase
      | looking todo result =>
          rw [hp] at hphase
          exact Page.Doing.grown hphase hg
      | selecting line todo result =>
          rw [hp] at hphase
          exact Page.Doing.grown hphase hg
      | posting line todo result attempt sentAt =>
          rw [hp] at hphase
          refine ⟨hphase.1.grown hg, hphase.2.grown hg (fun c hc hbody => ?_) fun e he => ?_⟩
          · exact hnew c hc (congrArg Adjustment.note hbody)
          · exact (hpending plan hplan e he).imp_right fun hne hbody => hne (congrArg Adjustment.note hbody)
      | storing line todo result attempt stockAfter =>
          rw [hp] at hphase
          exact ⟨hphase.1.grown hg, hphase.2.1.grown hg, hphase.2.2⟩
      | completed =>
          rw [hp] at hphase
          exact fun l hl => (hphase l hl).grown hg
      | closed => trivial

/-! ### Keys -/

/-- Stock, the outbox and pages do not matter. -/
theorem Base.rest (h : Base S) {server products : Products} {outbox : List (String × Int)}
    {pages : List Page} {others : String → Int} :
    Base { S with server, products, outbox, pages, others } :=
  ⟨h.minted_lt, h.minted_inj, h.parked, h.parked_inj, h.stored, h.committed, h.resent, h.once, h.sent⟩

theorem Base.filterPending (h : Base S) (keep : Parked → Bool) :
    Base { S with pending := S.pending.filter keep } := by
  have hmem : ∀ e ∈ S.pending.filter keep, e ∈ S.pending := fun e he => (List.mem_filter.mp he).1
  exact ⟨h.minted_lt, h.minted_inj, fun e he => h.parked e (hmem e he),
    fun e he e' he' => h.parked_inj e (hmem e he) e' (hmem e' he'), h.stored, h.committed,
    fun c hc e he => h.resent c hc e (hmem e he), h.once, h.sent⟩

theorem Base.close (h : Base S) (write : PendingWrite) : Base (S.close write) := h.filterPending _

theorem Base.closeIfVerdict (h : Base S) (write : PendingWrite) (statusCode : Nat) :
    Base (S.closeIfVerdict write statusCode) := by
  unfold Sys.closeIfVerdict
  split
  · exact h.close write
  · exact h

/-- A new attempt at what was not made. -/
theorem Base.mint (h : Base S) {fingerprint : Adjustment} (hmade : ¬S.Made fingerprint) :
    Base (S.mint fingerprint) := by
  have hlt : ∀ w ∈ S.minted, w.key ≠ S.nextKey := fun w hw => Nat.ne_of_lt (h.minted_lt w hw)
  have hpending : ∀ e ∈ (S.mint fingerprint).pending,
      e = ⟨⟨fingerprint, S.nextKey⟩, S.now⟩ ∨ e ∈ S.pending ∧ e.write.fingerprint ≠ fingerprint := by
    intro e he
    refine (List.mem_cons.mp he).imp_right fun he => ?_
    obtain ⟨hmem, hne⟩ := List.mem_filter.mp he
    exact ⟨hmem, of_decide_eq_true hne⟩
  refine ⟨?_, ?_, ?_, ?_, h.stored, ?_, ?_, h.once, ?_⟩
  · intro w hw
    rcases List.mem_cons.mp hw with rfl | hw
    · exact Nat.lt_succ_self _
    · exact Nat.lt_succ_of_lt (h.minted_lt w hw)
  · intro w hw w' hw' hkey
    rcases List.mem_cons.mp hw with rfl | hw <;> rcases List.mem_cons.mp hw' with rfl | hw'
    · rfl
    · exact absurd hkey.symm (hlt w' hw')
    · exact absurd hkey (hlt w hw)
    · exact h.minted_inj w hw w' hw' hkey
  · intro e he
    rcases hpending e he with rfl | ⟨he, -⟩
    · exact ⟨List.mem_cons_self, Nat.le_refl _⟩
    · exact ⟨List.mem_cons_of_mem _ (h.parked e he).1, (h.parked e he).2⟩
  · intro e he e' he' hfp
    rcases hpending e he with rfl | ⟨he, hne⟩ <;> rcases hpending e' he' with rfl | ⟨he', hne'⟩
    · rfl
    · exact absurd hfp.symm hne'
    · exact absurd hfp hne
    · exact h.parked_inj e he e' he' hfp
  · intro c hc
    obtain ⟨hmem, hrest⟩ := h.committed c hc
    exact ⟨List.mem_cons_of_mem _ hmem, hrest⟩
  · intro c hc e he hfp
    rcases hpending e he with rfl | ⟨he, -⟩
    · exact absurd ⟨c, hc, hfp.symm⟩ hmade
    · exact h.resent c hc e he hfp
  · intro x hx
    obtain ⟨w, hw, hrest⟩ := h.sent x hx
    exact ⟨w, List.mem_cons_of_mem _ hw, hrest⟩

theorem Base.send (h : Base S) {tag : Tag} {attempt : PendingWrite} (hmem : attempt ∈ S.minted)
    (hnote : ∃ date extra, attempt.fingerprint.note = stocktakeNote date tag extra) :
    Base { S with sent := (tag, attempt.key) :: S.sent } := by
  refine ⟨h.minted_lt, h.minted_inj, h.parked, h.parked_inj, h.stored, h.committed, h.resent, h.once, ?_⟩
  intro x hx
  rcases List.mem_cons.mp hx with rfl | hx
  · exact ⟨attempt, hmem, rfl, hnote⟩
  · exact h.sent x hx

/-- An attempt that was not made is, without a clamp. -/
theorem Base.commit (h : Base S) {body : Adjustment} {attempt : PendingWrite}
    {sentAt : Nat} {before : Int} (hposts : S.Posts body attempt sentAt) (hmade : ¬S.Made body)
    (hclamp : 0 ≤ before + body.delta) : Base (S.commit attempt.key body before) := by
  have hfp := hposts.fingerprint
  refine ⟨h.minted_lt, h.minted_inj, h.parked, h.parked_inj, ?_, ?_, ?_, ?_, h.sent⟩
  · intro k hk
    rcases List.mem_cons.mp hk with rfl | hk
    · exact ⟨_, List.mem_cons_self, rfl, rfl⟩
    · obtain ⟨c, hc, hrest⟩ := h.stored k hk
      exact ⟨c, List.mem_cons_of_mem _ hc, hrest⟩
  · intro c hc
    rcases List.mem_cons.mp hc with rfl | hc
    · refine ⟨hfp ▸ hposts.minted, ?_, Or.inl ⟨_, List.mem_cons_self, rfl, Nat.le_refl _⟩⟩
      show max 0 (before + body.delta) - before = body.delta
      omega
    · obtain ⟨hmem, hdelta, hkey⟩ := h.committed c hc
      refine ⟨hmem, hdelta, hkey.imp_left ?_⟩
      rintro ⟨k, hk, hrest⟩
      exact ⟨k, List.mem_cons_of_mem _ hk, hrest⟩
  · intro c hc e he hbody
    rcases List.mem_cons.mp hc with rfl | hc
    · rw [hposts.parked e he hbody]
      exact ⟨rfl, (h.parked e he).2⟩
    · exact h.resent c hc e he hbody
  · intro b
    by_cases hb : body = b
    · subst hb
      have hnone : S.made body = [] := by
        rw [Sys.made, List.filter_eq_nil_iff]
        exact fun c hc heq => hmade ⟨c, hc, of_decide_eq_true heq⟩
      show (List.filter _ (_ :: S.committed)).length ≤ 1
      rw [List.filter_cons_of_pos (by simp)]
      exact Nat.le_of_eq (congrArg (·.length + 1) hnone)
    · show (List.filter _ (_ :: S.committed)).length ≤ 1
      rw [List.filter_cons_of_neg (by simpa using hb)]
      exact h.once b

/-- A commit adds one entry to the server's log. -/
theorem grown_commit {key : Nat} {body : Adjustment} {stock : Int}
    (hrow : S.server.get body.productId = some ⟨stock, false⟩) :
    Grown S (S.commit key body stock) [⟨key, body, stock, max 0 (stock + body.delta), S.now⟩] := by
  refine ⟨rfl, fun _ => id, fun id => ?_⟩
  show Sys.serverStock _ id - S.queued id - S.others id = _
  by_cases hid : id = body.productId
  · subst hid
    simp only [Sys.serverStock, Sys.commit, Table.get_modify, if_true, hrow, Sys.net, effect,
      List.filter_cons, decide_true, List.filter_nil, List.map_cons, List.map_nil, List.sum_cons, List.sum_nil,
      Option.map_some, Option.elim_some]
    omega
  · have hne : ¬body.productId = id := fun heq => hid heq.symm
    simp only [Sys.serverStock, Sys.commit, Table.get_modify, if_neg hid, Sys.net, effect, List.filter_cons,
      hne, decide_false, Bool.false_eq_true, if_false, List.filter_nil, List.map_nil, List.sum_nil]
    omega

theorem grown_nil (hcommitted : S'.committed = S.committed) (hminted : ∀ w ∈ S.minted, w ∈ S'.minted)
    (hnet : ∀ id, S'.net id - S'.others id = S.net id - S.others id) : Grown S S' [] :=
  ⟨hcommitted, hminted, fun id => by rw [hnet id]; exact (Int.add_zero _).symm⟩

/-- What was made is not made again: its key is stored, for the request is in time. -/
theorem Base.post (h : Base S) {body : Adjustment} {attempt : PendingWrite} {sentAt : Nat}
    (hposts : S.Posts body attempt sentAt) (htime : S.now ≤ sentAt + writeTimeout)
    (hclamp : (∀ k ∈ S.keys, k.key ≠ attempt.key) →
      ∀ row ∈ S.server.get body.productId, row.deleted = false → 0 ≤ row.stock + body.delta) :
    ∃ new, Base (S.post attempt.key body).1 ∧ Grown S (S.post attempt.key body).1 new ∧
      (∀ c ∈ new, c.body = body) ∧ (S.post attempt.key body).1.pages = S.pages ∧
      (S.post attempt.key body).1.pending = S.pending ∧
      ∀ r, (S.post attempt.key body).2 = .ok r → (S.post attempt.key body).1.Made body := by
  have hsame : Grown S S [] := grown_nil rfl (fun _ => id) fun _ => rfl
  unfold Sys.post
  cases hfind : S.keys.find? fun k => k.key = attempt.key with
  | some stored =>
      have hkey : stored.key = attempt.key := by simpa using List.find?_some hfind
      obtain ⟨c, hc, hck, hcb⟩ := h.stored stored (List.mem_of_find?_eq_some hfind)
      refine ⟨[], h, hsame, fun _ hc => (nomatch hc), rfl, rfl, fun r _ => ?_⟩
      have hwrite := h.minted_inj _ (h.committed c hc).1 _ hposts.minted (hck.trans hkey)
      exact ⟨c, hc, (congrArg PendingWrite.fingerprint hwrite).trans hposts.fingerprint⟩
  | none =>
      have hnone : ∀ k ∈ S.keys, k.key ≠ attempt.key := by
        intro k hk heq
        exact List.find?_eq_none.mp hfind k hk (decide_eq_true heq)
      have hmade : ¬S.Made body := by
        rintro ⟨c, hc, hbody⟩
        obtain ⟨hck, hsent⟩ := hposts.committed c hc hbody
        rcases (h.committed c hc).2.2 with ⟨k, hk, hkk, -⟩ | hold
        · exact hnone k hk (hkk.trans hck)
        · rw [ttl] at hsent
          rw [writeTimeout] at htime
          rw [idempotencyTtlSeconds] at hold
          omega
      dsimp only
      split
      next stock hrow =>
        split
        · exact ⟨[], h, hsame, fun _ hc => (nomatch hc), rfl, rfl, fun _ hr => (nomatch hr)⟩
        · have hunclamped := hclamp hnone _ hrow rfl
          refine ⟨_, h.commit hposts hmade hunclamped, grown_commit hrow, fun c hc => ?_, rfl, rfl, fun r _ => ?_⟩
          · rw [List.mem_singleton.mp hc]
          · exact ⟨_, List.mem_cons_self, rfl⟩
      · exact ⟨[], h, hsame, fun _ hc => (nomatch hc), rfl, rfl, fun _ hr => (nomatch hr)⟩

/-! ### Turns -/

def Page.Owns (P : Page) (note : String) : Prop := ∃ plan ∈ P.plan, note = plan.note

/-- A turn of the page `P`: what it adjusts and parks is under the note of its plan. -/
structure Turned (S S' : Sys) (P P' : Page) : Prop where
  base : Base S'
  pages : S'.pages = S.pages
  tag : P'.tag = P.tag
  owns : ∀ note, P.Owns note → P'.Owns note
  grown : ∃ new, Grown S S' new ∧ ∀ c ∈ new, P'.Owns c.body.note
  pending : ∀ e ∈ S'.pending, e ∈ S.pending ∨ P'.Owns e.write.fingerprint.note
  ok : P'.Ok S'

theorem Turned.quiet (hbase : Base S') (hpages : S'.pages = S.pages) (htag : P'.tag = P.tag)
    (howns : ∀ note, P.Owns note → P'.Owns note) (hgrown : Grown S S' [])
    (hpending : ∀ e ∈ S'.pending, e ∈ S.pending) (hok : P'.Ok S') : Turned S S' P P' :=
  ⟨hbase, hpages, htag, howns, ⟨[], hgrown, fun _ hc => nomatch hc⟩, fun e he => Or.inl (hpending e he), hok⟩

theorem grown_refl (S : Sys) : Grown S S [] := grown_nil rfl (fun _ => id) fun _ => rfl

/-- Where only the page goes on. -/
theorem Turned.same (hbase : Base S) (htag : P'.tag = P.tag) (howns : ∀ note, P.Owns note → P'.Owns note)
    (hok : P'.Ok S) : Turned S S P P' :=
  .quiet hbase rfl htag howns (grown_refl S) (fun _ => id) hok

theorem Page.Ok.of_plan (P : Page) (hplan : P.plan = some plan) :
    P.Ok S ↔ P.PlanOk S plan ∧ P.PhaseOk S plan P.phase := by
  unfold Page.Ok
  rw [hplan]

theorem Page.Ok.of_none (P : Page) (hplan : P.plan = none) :
    P.Ok S ↔ P.applied = [] ∧ (P.phase = .ready ∨ P.phase = .closed ∨ ∃ shown, P.phase = .pulling shown) := by
  unfold Page.Ok
  rw [hplan]

theorem Page.PlanOk.to (h : P.PlanOk S plan) (phase : Phase) : (P.to phase).PlanOk S plan :=
  ⟨h.lines_eq, h.nodup, h.note_eq, h.fresh_net, h.own, h.commits_le, h.older, h.net, h.applied⟩

theorem Page.Doing.to {todo result : List StocktakeLine} (h : P.Doing S plan todo result) (phase : Phase) :
    (P.to phase).Doing S plan todo result := ⟨h.lines, h.left, h.made⟩

theorem Page.Ok.to (hplan : P.plan = some plan) (h : P.PlanOk S plan) {phase : Phase}
    (hphase : (P.to phase).PhaseOk S plan phase) : (P.to phase).Ok S :=
  (Page.Ok.of_plan (P.to phase) hplan).mpr ⟨h.to phase, hphase⟩

theorem Page.owns_to (phase : Phase) (note : String) (h : P.Owns note) : (P.to phase).Owns note := h

theorem Page.owns_stop (result : List StocktakeLine) (note : String) (h : P.Owns note) :
    (P.stop result).Owns note := by
  obtain ⟨plan, hplan, rfl⟩ := h
  refine ⟨{ plan with left := plan.left.drop result.length }, ?_, rfl⟩
  show P.plan.map _ = _
  rw [hplan]
  rfl

/-- A page that stops keeps what it has done. -/
theorem Page.Ok.stop (hplan : P.plan = some plan) (h : P.PlanOk S plan) {todo result : List StocktakeLine}
    (hdoing : P.Doing S plan todo result) : (P.stop result).Ok S := by
  have hstop : (P.stop result).plan = some { plan with left := plan.left.drop result.length } := by
    show P.plan.map _ = _
    rw [hplan]
    rfl
  rw [Page.Ok.of_plan _ hstop]
  refine ⟨⟨h.lines_eq, h.nodup, h.note_eq, h.fresh_net, h.own, h.commits_le, h.older, h.net, ?_⟩, ?_⟩
  · intro l hl
    rcases List.mem_append.mp hl with hl | hl
    · exact h.applied l hl
    · exact hdoing.made l hl
  · show plan.lines = (P.applied ++ result) ++ plan.left.drop result.length
    rw [hdoing.lines, hdoing.left, List.drop_left, List.append_assoc]

theorem grown_withProducts (products : Products) : Grown S { S with products } [] :=
  grown_nil rfl (fun _ => id) fun _ => rfl

theorem Page.PlanOk.withProducts (h : P.PlanOk S plan) (products : Products) :
    P.PlanOk { S with products } plan := h.grown (grown_withProducts products) fun _ hc => nomatch hc

/-- Stopping, with nothing adjusted since. -/
theorem Turned.stop (hbase : Base S') (hpages : S'.pages = S.pages) (hgrown : Grown S S' new)
    (hnew : ∀ c ∈ new, P.Owns c.body.note) (hpending : ∀ e ∈ S'.pending, e ∈ S.pending)
    (hplan : P.plan = some plan) (hok : P.PlanOk S' plan) {todo result : List StocktakeLine}
    (hdoing : P.Doing S' plan todo result) : Turned S S' P (P.stop result) :=
  ⟨hbase, hpages, rfl, Page.owns_stop result,
    ⟨new, hgrown, fun c hc => Page.owns_stop result _ (hnew c hc)⟩, fun e he => Or.inl (hpending e he),
    Page.Ok.stop hplan hok hdoing⟩

/-- Freezing the plan: the tag is new, so nothing on the server has its note. -/
theorem turned_freeze (hbase : Base S) (hplan : P.plan = none) (happlied : P.applied = [])
    (hnew : ∀ c ∈ S.committed, ∀ date extra, c.body.note ≠ stocktakeNote date P.tag extra)
    {shown : List StocktakeLine}
    (hcalm : sameStocktakeRows shown (stocktakeChanges (Sys.localAll S.pull) P.counts) = true →
      ∀ p ∈ Sys.localAll S.pull, P.counts p.id ≠ none → p.stock = S.net p.id) :
    Turned S (S.freeze P shown).1 P (S.freeze P shown).2 := by
  have howns : ∀ {P' : Page} note, P.Owns note → P'.Owns note := by
    rintro P' note ⟨plan, hsome, -⟩
    rw [hplan] at hsome
    cases hsome
  unfold Sys.freeze
  dsimp only
  split
  next hshown =>
    refine .quiet hbase.rest rfl rfl howns (grown_withProducts _) (fun _ => id) ⟨⟨rfl, nodup_localAll _, ?_,
      hcalm hshown, fun c hc hnote => absurd hnote (hnew c hc _ _), Nat.le_refl _, fun c hc => ?_, fun id => ?_, ?_⟩,
      ?_⟩
    · exact ⟨_, _, rfl⟩
    · exact hnew c (List.mem_of_mem_drop hc) _ _
    · show S.net id = S.net id + (S.others id - S.others id) + effect (S.since S.committed.length) id
      simp [Sys.since, effect]
    · intro l hl
      rw [happlied] at hl
      cases hl
    · refine ⟨?_, rfl, fun _ hl => nomatch hl⟩
      rw [happlied]
      rfl
  · refine .quiet hbase.rest rfl rfl howns (grown_withProducts _) (fun _ => id) ?_
    exact (Page.Ok.of_none { P with products := _, phase := .ready } hplan).mpr ⟨happlied, Or.inl rfl⟩

theorem getById_fst (S : Sys) (id : String) (o : Outcome) :
    ∃ products, (S.getById id o).1 = { S with products } := by
  unfold Sys.getById
  split
  · exact ⟨S.products, rfl⟩
  · split
    · exact ⟨_, rfl⟩
    · exact ⟨S.products, rfl⟩

/-- A turn that looks for the attempt of a line. -/
theorem turned_looking (hbase : Base S) (hplan : P.plan = some plan) (hok : P.PlanOk S plan)
    {line : StocktakeLine} {todo result : List StocktakeLine} (hdoing : P.Doing S plan (line :: todo) result)
    (o : Outcome) (hphase : P.phase = .looking (line :: todo) result) :
    Turned S (S.turnPage P o).1 P (S.turnPage P o).2 := by
  obtain ⟨products, hfst⟩ := getById_fst S line.product.id o
  have hgrown := grown_withProducts (S := S) products
  simp only [Sys.turnPage, hphase]
  generalize S.getById line.product.id o = found at hfst ⊢
  obtain ⟨S', ok⟩ := found
  dsimp only at hfst
  subst hfst
  cases ok with
  | true =>
      refine .quiet hbase.rest rfl rfl (Page.owns_to _) hgrown (fun _ => id) ?_
      exact Page.Ok.to hplan (hok.withProducts products) ((hdoing.grown hgrown).to _)
  | false =>
      have hnew : ∀ c ∈ ([] : List Commit), P.Owns c.body.note := fun _ hc => nomatch hc
      have hpages : Sys.pages { S with products } = S.pages := rfl
      exact Turned.stop hbase.rest hpages hgrown hnew (fun _ => id) hplan
        (hok.withProducts products) (hdoing.grown hgrown)

theorem Sys.lookup_some {fingerprint : Adjustment} {e : Parked} (h : S.lookup fingerprint = some e) :
    e ∈ S.pending ∧ e.write.fingerprint = fingerprint ∧ S.now < e.since + ttl := by
  have hp := List.find?_some h
  simp only [Bool.and_eq_true, decide_eq_true_eq] at hp
  exact ⟨List.mem_of_find?_eq_some h, hp⟩

/-- The attempt is the parked one, or the adjustment was not made yet. -/
theorem Base.attempt (h : Base S) {body : Adjustment} (hparked : S.Made body → S.lookup body ≠ none) :
    Base (S.attempt body).1 ∧ (S.attempt body).1.pages = S.pages ∧ Grown S (S.attempt body).1 [] ∧
      (∀ e ∈ (S.attempt body).1.pending, e ∈ S.pending ∨ e.write.fingerprint = body) ∧
      (S.attempt body).1.Posts body (S.attempt body).2 S.now := by
  unfold Sys.attempt
  cases hlook : S.lookup body with
  | some e =>
      obtain ⟨he, hfp, htime⟩ := Sys.lookup_some hlook
      refine ⟨h, rfl, grown_refl S, fun _ he => Or.inl he, hfp, (h.parked e he).1, fun e' he' hfp' => ?_,
        fun c hc hbody => ?_⟩
      · exact h.parked_inj e' he' e he (hfp'.trans hfp.symm)
      · obtain ⟨hkey, hsince⟩ := h.resent c hc e he (hfp.trans hbody.symm)
        exact ⟨hkey.symm, by omega⟩
  | none =>
      have hmade : ¬S.Made body := fun hmade => hparked hmade hlook
      have hpending : ∀ e ∈ (S.mint body).pending,
          e = ⟨⟨body, S.nextKey⟩, S.now⟩ ∨ e ∈ S.pending ∧ e.write.fingerprint ≠ body := by
        intro e he
        refine (List.mem_cons.mp he).imp_right fun he => ?_
        obtain ⟨hmem, hne⟩ := List.mem_filter.mp he
        exact ⟨hmem, of_decide_eq_true hne⟩
      refine ⟨h.mint hmade, rfl, grown_nil rfl (fun _ => List.mem_cons_of_mem _) fun _ => rfl, fun e he => ?_,
        rfl, List.mem_cons_self, fun e he hfp => ?_, fun c hc hbody => absurd ⟨c, hc, hbody⟩ hmade⟩
      · rcases hpending e he with rfl | ⟨he, -⟩
        · exact Or.inr rfl
        · exact Or.inl he
      · rcases hpending e he with rfl | ⟨-, hne⟩
        · rfl
        · exact absurd hfp hne

/-- A turn that chooses the line's attempt. -/
theorem turned_selecting (hbase : Base S) (hplan : P.plan = some plan) (hok : P.PlanOk S plan)
    {line : StocktakeLine} {todo result : List StocktakeLine} (hdoing : P.Doing S plan (line :: todo) result)
    (o : Outcome) (hphase : P.phase = .selecting line todo result) (hcalm : S.PageCalm P o) :
    Turned S (S.turnPage P o).1 P (S.turnPage P o).2 := by
  simp only [Sys.PageCalm, hphase] at hcalm
  obtain ⟨hrow, hparked⟩ := hcalm
  obtain ⟨row, hrow⟩ := Option.ne_none_iff_exists'.mp hrow
  obtain ⟨hbase', hpages, hgrown, hpending, hposts⟩ := hbase.attempt (hparked plan hplan)
  simp only [Sys.turnPage, hphase, hrow, hplan]
  generalize S.attempt (line.adjustment plan.note) = result' at hbase' hpages hgrown hpending hposts ⊢
  obtain ⟨S', attempt⟩ := result'
  dsimp only at hbase' hpages hgrown hpending hposts
  have hsent : Grown S { S' with sent := (P.tag, attempt.key) :: S'.sent } [] :=
    ⟨hgrown.committed, hgrown.minted, hgrown.net⟩
  have howns : P.Owns plan.note := ⟨plan, hplan, rfl⟩
  refine ⟨hbase'.send hposts.minted ?_, hpages, rfl, Page.owns_to _, ⟨[], hsent, fun _ hc => by cases hc⟩, ?_, ?_⟩
  · rw [hposts.fingerprint]
    exact hok.note_eq
  · intro e he
    refine (hpending e he).imp_right fun hfp => ?_
    rw [hfp]
    exact howns
  · refine Page.Ok.to hplan (hok.grown hsent fun _ hc => by cases hc) ⟨(hdoing.grown hsent).to _, ?_⟩
    exact ⟨hposts.fingerprint, hposts.minted, hposts.parked, hposts.committed⟩

theorem Sys.closeIfVerdict_eq (S : Sys) (write : PendingWrite) (statusCode : Nat) :
    ∃ pending, S.closeIfVerdict write statusCode = { S with pending } ∧ ∀ e ∈ pending, e ∈ S.pending := by
  unfold closeIfVerdict
  split
  · exact ⟨_, rfl, fun e he => (List.mem_filter.mp he).1⟩
  · exact ⟨S.pending, rfl, fun _ => id⟩

theorem grown_withPending (pending : List Parked) : Grown S { S with pending } [] :=
  grown_nil rfl (fun _ => id) fun _ => rfl

/-- An answer to the adjustment, after whatever has happened on the server. -/
theorem turned_answered (hbase : Base S') (hpages : S'.pages = S.pages) (hgrown : Grown S S' new)
    (hnew : ∀ c ∈ new, P.Owns c.body.note) (hpending : ∀ e ∈ S'.pending, e ∈ S.pending)
    (hplan : P.plan = some plan) (hok : P.PlanOk S' plan) {line : StocktakeLine}
    {todo result : List StocktakeLine} (hdoing : P.Doing S' plan (line :: todo) result)
    {attempt : PendingWrite} (hfp : attempt.fingerprint = line.adjustment plan.note) {reply : Except Nat Int}
    (hmade : ∀ r, reply = .ok r → S'.Made (line.adjustment plan.note)) :
    Turned S (S'.answered P line todo result attempt reply).1 P
      (S'.answered P line todo result attempt reply).2 := by
  cases reply with
  | ok stockAfter =>
      refine ⟨hbase, hpages, rfl, Page.owns_to _, ⟨new, hgrown, hnew⟩, fun e he => Or.inl (hpending e he), ?_⟩
      exact Page.Ok.to hplan hok ⟨hdoing.to _, hmade stockAfter rfl, hfp⟩
  | error statusCode =>
      have hbase' := hbase.closeIfVerdict attempt statusCode
      obtain ⟨pending, heq, hsub⟩ := S'.closeIfVerdict_eq attempt statusCode
      rw [Sys.answered]
      rw [heq] at hbase' ⊢
      have hg := grown_withPending (S := S') pending
      refine .stop hbase' hpages ⟨hgrown.committed, hgrown.minted, hgrown.net⟩ hnew
        (fun e he => hpending e (hsub e he)) hplan ?_ (hdoing.grown hg)
      exact hok.grown hg fun _ hc => nomatch hc

/-- A turn that posts it. -/
theorem turned_posting (hbase : Base S) (hplan : P.plan = some plan) (hok : P.PlanOk S plan)
    {line : StocktakeLine} {todo result : List StocktakeLine} (hdoing : P.Doing S plan (line :: todo) result)
    {attempt : PendingWrite} {sentAt : Nat} (hposts : S.Posts (line.adjustment plan.note) attempt sentAt)
    (o : Outcome) (hphase : P.phase = .posting line todo result attempt sentAt) (hcalm : S.PageCalm P o) :
    Turned S (S.turnPage P o).1 P (S.turnPage P o).2 := by
  have howns : P.Owns plan.note := ⟨plan, hplan, rfl⟩
  have hmem : line ∈ plan.lines := by
    rw [hdoing.lines, hdoing.left]
    exact List.mem_append_right _ (List.mem_append_right _ List.mem_cons_self)
  have hstill : Turned S S P (P.stop result) :=
    .stop hbase rfl (grown_refl S) (fun _ hc => by cases hc) (fun _ => id) hplan hok hdoing
  simp only [Sys.PageCalm, hphase] at hcalm
  simp only [Sys.turnPage, hphase]
  split
  · exact hstill
  next htime =>
    rw [hposts.fingerprint]
    have hserved : o = .done ∨ o = .lost → ∃ new, Base (S.post attempt.key (line.adjustment plan.note)).1 ∧
        Grown S (S.post attempt.key (line.adjustment plan.note)).1 new ∧ (∀ c ∈ new, P.Owns c.body.note) ∧
        P.PlanOk (S.post attempt.key (line.adjustment plan.note)).1 plan ∧
        (S.post attempt.key (line.adjustment plan.note)).1.pages = S.pages ∧
        (∀ e ∈ (S.post attempt.key (line.adjustment plan.note)).1.pending, e ∈ S.pending) ∧
        ∀ r, (S.post attempt.key (line.adjustment plan.note)).2 = .ok r →
          (S.post attempt.key (line.adjustment plan.note)).1.Made (line.adjustment plan.note) := by
      intro hreach
      obtain ⟨new, hbase', hgrown, hbody, hpages, hpending, hmade⟩ :=
        hbase.post hposts (Nat.not_lt.mp htime) (hcalm hreach (Nat.not_lt.mp htime))
      refine ⟨new, hbase', hgrown, fun c hc => ?_, ?_, hpages, fun e he => ?_, hmade⟩
      · rw [hbody c hc]
        exact howns
      · exact hok.grown hgrown fun c hc _ => ⟨line, hmem, hbody c hc⟩
      · rwa [hpending] at he
    cases o with
    | done =>
        obtain ⟨new, hbase', hgrown, hnew, hok', hpages, hpending, hmade⟩ := hserved (Or.inl rfl)
        exact turned_answered hbase' hpages hgrown hnew hpending hplan hok' (hdoing.grown hgrown)
          hposts.fingerprint hmade
    | lost =>
        obtain ⟨new, hbase', hgrown, hnew, hok', hpages, hpending, -⟩ := hserved (Or.inr rfl)
        exact .stop hbase' hpages hgrown hnew hpending hplan hok' (hdoing.grown hgrown)
    | fails statusCode =>
        exact turned_answered hbase rfl (grown_refl S) (fun _ hc => by cases hc) (fun _ => id) hplan hok hdoing
          hposts.fingerprint fun _ hr => by cases hr
    | unreachable => exact hstill

/-- A turn that stores the answer. -/
theorem turned_storing (hbase : Base S) (hplan : P.plan = some plan) (hok : P.PlanOk S plan)
    {line : StocktakeLine} {todo result : List StocktakeLine} (hdoing : P.Doing S plan (line :: todo) result)
    (hmade : S.Made (line.adjustment plan.note)) {attempt : PendingWrite} {stockAfter : Int}
    (o : Outcome) (hphase : P.phase = .storing line todo result attempt stockAfter) :
    Turned S (S.turnPage P o).1 P (S.turnPage P o).2 := by
  simp only [Sys.turnPage, hphase]
  split
  · have hgrown : ∀ products, Grown S { S.close attempt with products } [] :=
      fun _ => grown_nil rfl (fun _ => id) fun _ => rfl
    refine .quiet (hbase.close attempt).rest rfl rfl (Page.owns_to _) (hgrown _)
      (fun e he => (List.mem_filter.mp he).1) ?_
    refine Page.Ok.to hplan (hok.grown (hgrown _) fun _ hc => nomatch hc) ⟨hdoing.lines, ?_, fun l hl => ?_⟩
    · show plan.left = (result ++ [line]) ++ todo
      rw [hdoing.left, List.append_assoc]
      rfl
    · rcases List.mem_append.mp hl with hl | hl
      · exact hdoing.made l hl
      · rw [List.mem_singleton.mp hl]
        exact hmade
  · exact .stop hbase rfl (grown_refl S) (fun _ hc => nomatch hc) (fun _ => id) hplan hok hdoing

/-- The turn after the last line. -/
theorem turned_completing (hbase : Base S) (hplan : P.plan = some plan) (hok : P.PlanOk S plan)
    {result : List StocktakeLine} (hdoing : P.Doing S plan [] result) :
    Turned S S P { P with applied := P.applied ++ result, phase := .completed } := by
  have hdone : ∀ l ∈ P.applied ++ result, S.Made (l.adjustment plan.note) := fun l hl =>
    (List.mem_append.mp hl).elim (hok.applied l) (hdoing.made l)
  refine .same hbase rfl (fun _ => id) ?_
  unfold Page.Ok
  simp only [hplan]
  refine ⟨?_, ?_⟩
  · exact ⟨hok.lines_eq, hok.nodup, hok.note_eq, hok.fresh_net, hok.own, hok.commits_le, hok.older, hok.net, hdone⟩
  · intro l hl
    rw [hdoing.lines, hdoing.left, List.append_nil] at hl
    exact hdone l hl

theorem Page.Ok.plan_none {shown : List StocktakeLine} (h : P.Ok S) (hphase : P.phase = .pulling shown) :
    P.plan = none ∧ P.applied = [] := by
  unfold Page.Ok at h
  cases hplan : P.plan with
  | some plan =>
      simp only [hplan, hphase] at h
      exact h.2.elim
  | none =>
      simp only [hplan] at h
      exact ⟨rfl, h.1⟩

/-- A page that waits for a product has its plan. -/
theorem Page.Ok.plan_some (h : P.Ok S) (hready : P.phase ≠ .ready) (hclosed : P.phase ≠ .closed)
    (hpulling : ∀ shown, P.phase ≠ .pulling shown) :
    ∃ plan, P.plan = some plan ∧ P.PlanOk S plan ∧ P.PhaseOk S plan P.phase := by
  unfold Page.Ok at h
  cases hplan : P.plan with
  | some plan =>
      simp only [hplan] at h
      exact ⟨plan, rfl, h⟩
  | none =>
      simp only [hplan] at h
      rcases h.2 with h | h | ⟨shown, h⟩
      · exact absurd h hready
      · exact absurd h hclosed
      · exact absurd h (hpulling shown)

/-- No adjustment is under the note of a page that has no plan. -/
theorem Inv.unplanned (h : Inv S) (hP : P ∈ S.pages) (hplan : P.plan = none) :
    ∀ c ∈ S.committed, ∀ date extra, c.body.note ≠ stocktakeNote date P.tag extra := by
  intro c hc date extra hnote
  obtain ⟨Q, hQ, plan, hsome, hown⟩ := h.ofPages c hc
  have hokQ := (Page.Ok.of_plan _ hsome).mp (h.pages Q hQ)
  obtain ⟨date', extra', hnote'⟩ := hokQ.1.note_eq
  have htag : Q.tag = P.tag := tag_of_note (hnote'.symm.trans (hown.symm.trans hnote))
  have hQP : Q = P := List.inj_on_of_nodup_map h.tags hQ hP htag
  rw [hQP, hplan] at hsome
  cases hsome

/-- **Every turn of a page** is one of these. -/
theorem Inv.turnPage (h : Inv S) (hP : P ∈ S.pages) {o : Outcome} (hcalm : S.PageCalm P o) :
    Turned S (S.turnPage P o).1 P (S.turnPage P o).2 := by
  have hok := h.pages P hP
  have hstays : Turned S S P P := .same h.base rfl (fun _ => id) hok
  cases hphase : P.phase with
  | ready | completed | closed =>
      simp only [Sys.turnPage, hphase]
      exact hstays
  | pulling shown =>
      obtain ⟨hplan, happlied⟩ := hok.plan_none hphase
      simp only [Sys.PageCalm, hphase] at hcalm
      simp only [Sys.turnPage, hphase]
      split
      next ho => exact turned_freeze h.base hplan happlied (h.unplanned hP hplan) (hcalm ho)
      · refine .same h.base rfl (fun _ => id) ?_
        exact (Page.Ok.of_none (P.to .ready) hplan).mpr ⟨happlied, Or.inl rfl⟩
  | looking todo result =>
      obtain ⟨plan, hplan, hplanOk, hdoing⟩ := hok.plan_some (by simp [hphase]) (by simp [hphase]) (by simp [hphase])
      rw [hphase] at hdoing
      cases todo with
      | nil =>
          simp only [Sys.turnPage, hphase]
          exact turned_completing h.base hplan hplanOk hdoing
      | cons line todo => exact turned_looking h.base hplan hplanOk hdoing o hphase
  | selecting line todo result =>
      obtain ⟨plan, hplan, hplanOk, hdoing⟩ := hok.plan_some (by simp [hphase]) (by simp [hphase]) (by simp [hphase])
      rw [hphase] at hdoing
      exact turned_selecting h.base hplan hplanOk hdoing o hphase hcalm
  | posting line todo result attempt sentAt =>
      obtain ⟨plan, hplan, hplanOk, hat⟩ := hok.plan_some (by simp [hphase]) (by simp [hphase]) (by simp [hphase])
      rw [hphase] at hat
      exact turned_posting h.base hplan hplanOk hat.1 hat.2 o hphase hcalm
  | storing line todo result attempt stockAfter =>
      obtain ⟨plan, hplan, hplanOk, hat⟩ := hok.plan_some (by simp [hphase]) (by simp [hphase]) (by simp [hphase])
      rw [hphase] at hat
      exact turned_storing h.base hplan hplanOk hat.1 hat.2.1 o hphase

/-! ### Steps -/

/-- How a page passes a step that adjusts what the pages own. -/
structure Passed (S' : Sys) (P P' : Page) : Prop where
  tag : P'.tag = P.tag
  owns : ∀ note, P.Owns note → P'.Owns note
  ok : P'.Ok S'

/-- Pages that all turn well keep the invariant of the system. -/
theorem Inv.passed (h : Inv S) (hbase : Base S') (hgrown : Grown S S' new)
    (hpages : List.Forall₂ (Passed S') S.pages S'.pages)
    (hnew : ∀ c ∈ new, ∃ P ∈ S'.pages, P.Owns c.body.note) : Inv S' := by
  have hkept : ∀ P ∈ S.pages, ∃ P' ∈ S'.pages, Passed S' P P' := by
    intro P hP
    obtain ⟨i, hi, rfl⟩ := List.getElem_of_mem hP
    have hi' : i < S'.pages.length := hpages.length_eq ▸ hi
    exact ⟨S'.pages[i], List.getElem_mem hi', hpages.get hi hi'⟩
  refine ⟨hbase, ?_, fun c hc => ?_, ?_⟩
  · have htags : S'.pages.map (·.tag) = S.pages.map (·.tag) := by
      refine List.ext_getElem (by simp [hpages.length_eq]) fun i hi' hi => ?_
      rw [List.getElem_map, List.getElem_map]
      exact (hpages.get (by simpa using hi) (by simpa using hi')).tag
    rw [htags]
    exact h.tags
  · rw [hgrown.committed] at hc
    rcases List.mem_append.mp hc with hc | hc
    · exact hnew c hc
    · obtain ⟨P, hP, howns⟩ := h.ofPages c hc
      obtain ⟨P', hP', hpassed⟩ := hkept P hP
      exact ⟨P', hP', hpassed.owns _ howns⟩
  · intro P' hP'
    obtain ⟨i, hi', rfl⟩ := List.getElem_of_mem hP'
    have hi : i < S.pages.length := hpages.length_eq ▸ hi'
    exact (hpages.get hi hi').ok

/-- A step of pages alone. -/
theorem Inv.ofPage (h : Inv S) (hbase : Base S') (hgrown : Grown S S' [])
    (hpending : ∀ e ∈ S'.pending, e ∈ S.pending) (f : Page → Page)
    (htag : ∀ P, (f P).tag = P.tag) (howns : ∀ P note, P.Owns note → (f P).Owns note)
    (hok : ∀ P, P.Ok S' → (f P).Ok S')
    (hpages : List.Forall₂ (fun P P' => P' = P ∨ P' = f P) S.pages S'.pages) : Inv S' := by
  refine h.passed hbase hgrown ?_ fun _ hc => nomatch hc
  refine List.forall₂_iff_get.mpr ⟨hpages.length_eq, fun i hi hi' => ?_⟩
  have hstill : (S.pages.get ⟨i, hi⟩).Ok S' :=
    (h.pages _ (List.get_mem _ _)).grown hgrown (fun _ _ _ hc => nomatch hc)
      fun _ _ e he => Or.inl (hpending e he)
  rcases hpages.get hi hi' with heq | heq
  · rw [List.get_eq_getElem, heq]
    exact ⟨rfl, fun _ => id, hstill⟩
  · rw [List.get_eq_getElem, heq]
    exact ⟨htag _, howns _, hok _ hstill⟩

/-- A step that leaves the pages alone. -/
theorem Inv.quiet (h : Inv S) (hbase : Base S') (hgrown : Grown S S' [])
    (hpending : ∀ e ∈ S'.pending, e ∈ S.pending) (hpages : S'.pages = S.pages) : Inv S' := by
  refine h.ofPage hbase hgrown hpending id (fun _ => rfl) (fun _ _ => id) (fun _ => id) ?_
  rw [hpages]
  exact List.forall₂_same.mpr fun _ _ => Or.inl rfl

theorem grown_withPages (pages : List Page) : Grown S { S with pages } [] :=
  grown_nil rfl (fun _ => id) fun _ => rfl

theorem Inv.setPage (h : Inv S) (i : Nat) (f : Page → Page) (htag : ∀ P, (f P).tag = P.tag)
    (howns : ∀ P note, P.Owns note → (f P).Owns note)
    (hok : ∀ {S' : Sys} P, P.Ok S' → (f P).Ok S') : Inv (S.setPage i f) := by
  refine h.ofPage (h.base.rest) (grown_withPages _) (fun _ => id) f htag howns hok ?_
  show List.Forall₂ _ S.pages (S.pages.modify i f)
  refine List.forall₂_iff_get.mpr ⟨by rw [List.length_modify], fun j hj hj' => ?_⟩
  rw [List.get_eq_getElem, List.get_eq_getElem, List.getElem_modify]
  split
  · exact Or.inr rfl
  · exact Or.inl rfl

theorem Page.owns_shut (P : Page) (note : String) (h : P.Owns note) : P.shut.Owns note := by
  unfold Page.shut
  split
  · exact h
  · exact h

theorem Page.tag_shut (P : Page) : P.shut.tag = P.tag := by
  unfold Page.shut
  split <;> rfl

theorem Page.Ok.shut (h : P.Ok S) : P.shut.Ok S := by
  unfold Page.shut
  split
  · exact h
  · cases hplan : P.plan with
    | some plan => exact Page.Ok.to hplan ((Page.Ok.of_plan _ hplan).mp h).1 trivial
    | none =>
        have happlied := ((Page.Ok.of_none _ hplan).mp h).1
        exact (Page.Ok.of_none (P.to .closed) hplan).mpr ⟨happlied, Or.inr (Or.inl rfl)⟩

theorem Page.owns_press (P : Page) (degraded : Bool) (note : String) (h : P.Owns note) :
    (P.press degraded).Owns note := by
  unfold Page.press
  split
  · split
    · split
      · exact h
      · exact h
    · extract_lets
      split
      · exact h
      · exact h
  · exact h

theorem Page.tag_press (P : Page) (degraded : Bool) : (P.press degraded).tag = P.tag := by
  unfold Page.press
  grind [Page.to]

/-- Pressing the button keeps a page in order. -/
theorem Page.Ok.press (h : P.Ok S) (degraded : Bool) : (P.press degraded).Ok S := by
  unfold Page.press
  split
  next hphase =>
    cases hplan : P.plan with
    | some plan =>
        obtain ⟨hok, hlines⟩ := (Page.Ok.of_plan _ hplan).mp h
        rw [hphase] at hlines
        dsimp only
        split
        · exact h
        · exact Page.Ok.to hplan hok ⟨hlines, rfl, fun _ hl => nomatch hl⟩
    | none =>
        have happlied := ((Page.Ok.of_none _ hplan).mp h).1
        dsimp only
        split
        · exact h
        · exact (Page.Ok.of_none (P.to (.pulling _)) hplan).mpr ⟨happlied, Or.inr (Or.inr ⟨_, rfl⟩)⟩
  · exact h

theorem Page.setCount_cases (P : Page) (id : String) (n : Option Nat) :
    P.setCount id n = P ∨ P.phase = .ready ∧ P.plan = none ∧
      P.setCount id n = { P with counts := Function.update P.counts id n } := by
  unfold Page.setCount
  split
  next hphase hplan => exact Or.inr ⟨hphase, hplan, rfl⟩
  · exact Or.inl rfl

theorem Page.Ok.setCount (h : P.Ok S) (id : String) (n : Option Nat) : (P.setCount id n).Ok S := by
  rcases P.setCount_cases id n with heq | ⟨hphase, hplan, heq⟩
  · rw [heq]
    exact h
  · rw [heq]
    unfold Page.Ok at h ⊢
    simp only [hplan] at h ⊢
    exact h

/-- Typing a remark keeps a page in order. -/
theorem Page.Ok.setExtra (h : P.Ok S) (text : String) : Page.Ok { P with extra := text } S := by
  unfold Page.Ok at h ⊢
  cases hplan : P.plan with
  | none =>
      simp only [hplan] at h ⊢
      exact h
  | some plan =>
      simp only [hplan] at h ⊢
      obtain ⟨hok, hphase⟩ := h
      refine ⟨⟨hok.lines_eq, hok.nodup, hok.note_eq, hok.fresh_net, hok.own, hok.commits_le, hok.older, hok.net,
        hok.applied⟩, ?_⟩
      cases hp : P.phase with
      | ready | pulling | completed | closed =>
          rw [hp] at hphase
          exact hphase
      | looking | selecting =>
          rw [hp] at hphase
          exact ⟨hphase.lines, hphase.left, hphase.made⟩
      | posting =>
          rw [hp] at hphase
          exact ⟨⟨hphase.1.lines, hphase.1.left, hphase.1.made⟩, hphase.2⟩
      | storing =>
          rw [hp] at hphase
          exact ⟨⟨hphase.1.lines, hphase.1.left, hphase.1.made⟩, hphase.2⟩

/-- A new page has a tag of its own. -/
theorem Inv.openPage (h : Inv S) {tag : Tag} (hfresh : ∀ P : Page, P ∈ S.pages → P.tag ≠ tag) :
    Inv (S.move (.openPage tag)) := by
  have hgrown := grown_withPages (S := S)
    (S.pages ++ [⟨tag, Sys.localAll S.products, fun _ => none, "", none, [], .ready⟩])
  refine ⟨h.base.rest, ?_, fun c hc => ?_, fun P hP => ?_⟩
  · show ((S.pages ++ [_]).map Page.tag).Nodup
    rw [List.map_append, List.map_singleton]
    refine List.nodup_append'.mpr ⟨h.tags, List.nodup_singleton _, List.disjoint_singleton.mpr fun hmem => ?_⟩
    obtain ⟨P, hP, htag⟩ := List.mem_map.mp hmem
    exact hfresh P hP htag
  · obtain ⟨P, hP, howns⟩ := h.ofPages c hc
    exact ⟨P, List.mem_append_left _ hP, howns⟩
  · rcases List.mem_append.mp hP with hP | hP
    · exact (h.pages P hP).grown hgrown (fun _ _ _ hc => nomatch hc) fun _ _ _ he => Or.inl he
    · rw [List.mem_singleton.mp hP]
      exact ⟨rfl, Or.inl rfl⟩

/-- Other pages' notes are not this one's. -/
theorem Page.Ok.note_ne {Q : Page} (hQ : Q.Ok S) (hP : P'.Ok S') (htag : Q.tag ≠ P'.tag) {plan : Plan}
    (hplan : plan ∈ Q.plan) {note : String} (howns : P'.Owns note) : note ≠ plan.note := by
  intro heq
  obtain ⟨plan', hplan', hnote⟩ := howns
  obtain ⟨date, extra, hn⟩ := ((Page.Ok.of_plan _ hplan).mp hQ).1.note_eq
  obtain ⟨date', extra', hn'⟩ := ((Page.Ok.of_plan _ hplan').mp hP).1.note_eq
  exact htag (tag_of_note ((hn.symm.trans heq.symm).trans (hnote.trans hn')))

/-- A turn keeps the invariant. -/
theorem Inv.turn (h : Inv S) (i : Nat) (o : Outcome) (hcalm : S.Calm (.turn i o)) : Inv (S.move (.turn i o)) := by
  simp only [Sys.move]
  cases hi : S.pages[i]? with
  | none => exact h
  | some P =>
      have hP := List.mem_of_getElem? hi
      have ht := h.turnPage hP (hcalm P hi)
      dsimp only
      generalize S.turnPage P o = result at ht ⊢
      obtain ⟨S', P'⟩ := result
      dsimp only at ht ⊢
      obtain ⟨hlt, hget⟩ := List.getElem?_eq_some_iff.mp hi
      obtain ⟨new, hgrown, hnew⟩ := ht.grown
      have hgrown' : Grown S { S' with pages := S.pages.set i P' } new :=
        ⟨hgrown.committed, hgrown.minted, hgrown.net⟩
      have hset : Grown S' { S' with pages := S.pages.set i P' } [] := grown_withPages _
      have hok' : P'.Ok { S' with pages := S.pages.set i P' } :=
        ht.ok.grown hset (fun _ _ _ hc => nomatch hc) fun _ _ _ he => Or.inl he
      refine h.passed (ht.base.rest) hgrown' ?_ fun c hc => ?_
      · show List.Forall₂ _ S.pages (S.pages.set i P')
        refine List.forall₂_iff_get.mpr ⟨by rw [List.length_set], fun j hj hj' => ?_⟩
        rw [List.get_eq_getElem, List.get_eq_getElem, List.getElem_set]
        split
        next hij =>
          subst hij
          rw [hget]
          exact ⟨ht.tag, ht.owns, hok'⟩
        next hij =>
          have hokQ := h.pages _ (List.getElem_mem hj)
          have htags : (S.pages[j]).tag ≠ P'.tag := by
            intro heq
            have hsame : S.pages[j] = P :=
              List.inj_on_of_nodup_map h.tags (List.getElem_mem hj) hP (heq.trans ht.tag)
            have hnodup : S.pages.Nodup := List.Nodup.of_map _ h.tags
            exact hij ((hnodup.getElem_inj_iff).mp (hget.trans hsame.symm))
          refine ⟨rfl, fun _ => id, hokQ.grown hgrown' (fun plan hplan c hc => ?_) fun plan hplan e he => ?_⟩
          · exact hokQ.note_ne ht.ok htags hplan (hnew c hc)
          · exact (ht.pending e he).imp_right fun howns => hokQ.note_ne ht.ok htags hplan howns
      · exact ⟨P', List.mem_set hlt P', hnew c hc⟩

theorem Inv.byOthers (h : Inv S) (hbase : Base (S.byOthers S')) (hcommitted : S'.committed = S.committed)
    (hminted : S'.minted = S.minted) (hpending : S'.pending = S.pending) (hpages : S'.pages = S.pages) :
    Inv (S.byOthers S') := by
  refine h.quiet hbase (grown_nil hcommitted (fun w hw => ?_) fun id => ?_) (fun e he => ?_) hpages
  · show w ∈ S'.minted
    rwa [hminted]
  · show S'.net id - (S.others id + (S'.net id - S.net id)) = _
    omega
  · rwa [← hpending]

theorem Base.tick (h : Base S) (seconds : Nat) (today : DateText) :
    Base { S with now := S.now + seconds, today } := by
  refine ⟨h.minted_lt, h.minted_inj, fun e he => ?_, h.parked_inj, h.stored, fun c hc => ?_, h.resent, h.once,
    h.sent⟩
  · exact ⟨(h.parked e he).1, Nat.le_add_right_of_le (h.parked e he).2⟩
  · obtain ⟨hmem, hdelta, hkey⟩ := h.committed c hc
    exact ⟨hmem, hdelta, hkey.imp_right Nat.le_add_right_of_le⟩

/-- A key is kept for a day after its adjustment. -/
theorem Base.cleanUp (h : Base S) : Base (S.move .cleanUp) := by
  refine ⟨h.minted_lt, h.minted_inj, h.parked, h.parked_inj, fun k hk => h.stored k (List.mem_filter.mp hk).1,
    fun c hc => ?_, h.resent, h.once, h.sent⟩
  obtain ⟨hmem, hdelta, ⟨k, hk, hkey, htime⟩ | hold⟩ := h.committed c hc
  · refine ⟨hmem, hdelta, ?_⟩
    by_cases hkept : S.now < k.createdAt + idempotencyTtlSeconds
    · exact Or.inl ⟨k, List.mem_filter.mpr ⟨hk, decide_eq_true hkept⟩, hkey, htime⟩
    · refine Or.inr ?_
      show c.time + idempotencyTtlSeconds ≤ S.now
      omega
  · exact ⟨hmem, hdelta, Or.inr hold⟩

/-- Every move keeps the invariant. -/
theorem Inv.move (h : Inv S) (m : Move) (hcalm : S.Calm m) : Inv (S.move m) := by
  have hbase := h.base
  have hquiet : ∀ {S' : Sys}, Base S' → S'.committed = S.committed → S'.minted = S.minted →
      (∀ id, S'.net id - S'.others id = S.net id - S.others id) → S'.pending = S.pending →
      S'.pages = S.pages → Inv S' := by
    intro S' hbase' hcommitted hminted hnet hpending hpages
    exact h.quiet hbase' (grown_nil hcommitted (fun w hw => by rwa [hminted]) hnet)
      (fun e he => by rwa [← hpending]) hpages
  cases m with
  | openPage tag => exact h.openPage hcalm
  | setCount i id n =>
      refine h.setPage i (fun P => P.setCount id n) (fun P => ?_) (fun P note howns => ?_) fun P hP => hP.setCount id n
      · rcases P.setCount_cases id n with heq | ⟨-, -, heq⟩ <;> rw [heq]
      · rcases P.setCount_cases id n with heq | ⟨-, -, heq⟩ <;> rw [heq] <;> exact howns
  | setExtra i text =>
      exact h.setPage i (fun P => { P with extra := text }) (fun _ => rfl) (fun _ _ => id) fun _ hP => hP.setExtra text
  | press i degraded =>
      exact h.setPage i (fun P => P.press degraded) (fun P => P.tag_press degraded)
        (fun P => P.owns_press degraded) fun _ hP => hP.press degraded
  | turn i o => exact h.turn i o hcalm
  | leave i =>
      refine h.setPage i (fun P => if P.phase = .ready then P.shut else P) (fun P => ?_) (fun P note howns => ?_)
        fun P hP => ?_
      · split
        · exact P.tag_shut
        · rfl
      · split
        · exact P.owns_shut note howns
        · exact howns
      · split
        · exact hP.shut
        · exact hP
  | restart =>
      have hbase' : Base (S.move .restart) := by
        have hnone := hbase.filterPending fun _ => false
        rw [List.filter_false] at hnone
        exact hnone.rest
      refine h.ofPage hbase' (grown_nil rfl (fun _ => id) fun _ => rfl) (fun _ he => nomatch he) Page.shut
        Page.tag_shut Page.owns_shut (fun _ => Page.Ok.shut) ?_
      show List.Forall₂ _ S.pages (S.pages.map Page.shut)
      exact List.forall₂_map_right_iff.mpr (List.forall₂_same.mpr fun _ _ => Or.inr rfl)
  | tick seconds today => exact hquiet (hbase.tick seconds today) rfl rfl (fun _ => rfl) rfl rfl
  | cleanUp => exact hquiet hbase.cleanUp rfl rfl (fun _ => rfl) rfl rfl
  | localRow id row =>
      cases row with
      | some row => exact hquiet hbase.rest rfl rfl (fun _ => rfl) rfl rfl
      | none => exact hquiet hbase.rest rfl rfl (fun _ => rfl) rfl rfl
  | serverRow id row => exact h.byOthers hbase.rest rfl rfl rfl rfl
  | enqueue id quantity => exact h.byOthers hbase.rest rfl rfl rfl rfl
  | dequeue i => exact h.byOthers hbase.rest rfl rfl rfl rfl

theorem Inv.start (h : S.Start) : Inv S := by
  refine ⟨⟨?_, ?_, ?_, ?_, ?_, ?_, ?_, ?_, ?_⟩, ?_, ?_, ?_⟩
  · simp [h.minted]
  · simp [h.minted]
  · simp [h.pending]
  · simp [h.pending]
  · simp [h.keys]
  · simp [h.committed]
  · simp [h.committed]
  · simp [Sys.made, h.committed]
  · simp [h.sent]
  · simp [h.pages]
  · simp [h.committed]
  · simp [h.pages]

theorem Inv.run (h : Inv S) {moves : List Move} (hcalm : CalmRun S moves) : Inv (S.run moves) := by
  induction moves generalizing S with
  | nil => exact h
  | cons m moves ih => exact ih (h.move m hcalm.1) hcalm.2

/-! ### What the invariant says of a page -/

theorem Base.length_made (h : Base S) {body : Adjustment} (hmade : S.Made body) : (S.made body).length = 1 := by
  obtain ⟨c, hc, hbody⟩ := hmade
  have hmem : c ∈ S.made body := List.mem_filter.mpr ⟨hc, decide_eq_true hbody⟩
  exact Nat.le_antisymm (h.once body) (List.length_pos_of_mem hmem)

/-- What a line has added is its difference. -/
theorem effect_of_line (hbase : Base S) (hok : P.PlanOk S plan) {line : StocktakeLine}
    (hmade : S.Made (line.adjustment plan.note))
    (honly : ∀ c ∈ S.since plan.commits, c.body.productId = line.product.id → c.body = line.adjustment plan.note) :
    effect (S.since plan.commits) line.product.id = line.diff := by
  have hsplit : S.committed = S.since plan.commits ++ S.committed.drop (S.committed.length - plan.commits) :=
    (List.take_append_drop _ _).symm
  have hfilter : (S.since plan.commits).filter (fun c => c.body.productId = line.product.id) =
      S.made (line.adjustment plan.note) := by
    rw [Sys.made, hsplit, List.filter_append]
    have hold : (S.committed.drop (S.committed.length - plan.commits)).filter
        (fun c => c.body = line.adjustment plan.note) = [] := by
      rw [List.filter_eq_nil_iff]
      intro c hc heq
      exact hok.older c hc (congrArg Adjustment.note (of_decide_eq_true heq))
    rw [hold, List.append_nil]
    refine List.filter_congr fun c hc => decide_eq_decide.mpr ⟨honly c hc, fun hbody => ?_⟩
    rw [hbody]
    rfl
  obtain ⟨c, hone⟩ := List.length_eq_one_iff.mp (hbase.length_made hmade)
  have hc : c ∈ S.made (line.adjustment plan.note) := by
    rw [hone]
    exact List.mem_cons_self
  obtain ⟨hmem, hbody⟩ := List.mem_filter.mp hc
  have hdelta := (hbase.committed c hmem).2.1
  rw [of_decide_eq_true hbody] at hdelta
  rw [effect, hfilter, hone]
  show c.after - c.before + 0 = line.diff
  rw [Int.add_zero]
  exact hdelta

/-- Once every line is made, the stock has moved by the count, and by what others did. -/
theorem stock_of_inv (hbase : Base S) (hok : P.PlanOk S plan)
    (hmade : ∀ l ∈ plan.lines, S.Made (l.adjustment plan.note)) {p : ProductRow} (hp : p ∈ plan.fresh) {n : Nat}
    (hn : P.counts p.id = some n) (hothers : S.others p.id = plan.others p.id)
    (hnotes : ∀ c ∈ S.since plan.commits, c.body.productId = p.id → c.body.note = plan.note) : S.net p.id = n := by
  have hnet := hok.net p.id
  have hfresh := hok.fresh_net p hp (by simp [hn])
  -- What was adjusted of this product is the line of it, if there is one.
  have hline : ∀ c ∈ S.since plan.commits, c.body.productId = p.id →
      ⟨p, (n : Int)⟩ ∈ plan.lines ∧ c.body = StocktakeLine.adjustment ⟨p, n⟩ plan.note := by
    intro c hc hid
    obtain ⟨l, hl, hbody⟩ := hok.own c (List.mem_of_mem_take hc) (hnotes c hc hid)
    rw [hbody] at hid
    have hl' := hl
    rw [hok.lines_eq, mem_stocktakeChanges] at hl'
    obtain ⟨hproduct, ⟨m, hm, hcounted⟩, -⟩ := hl'
    have hsame : l.product = p := List.inj_on_of_nodup_map hok.nodup hproduct hp hid
    rw [hsame, hn] at hm
    cases hm
    obtain ⟨product, counted⟩ := l
    dsimp only at hsame hcounted
    subst hsame hcounted
    exact ⟨hl, hbody⟩
  by_cases hsame : (n : Int) = p.stock
  · have hnone : effect (S.since plan.commits) p.id = 0 := by
      have hnil : (S.since plan.commits).filter (fun c => c.body.productId = p.id) = [] := by
        rw [List.filter_eq_nil_iff]
        intro c hc hid
        have hl := (hline c hc (of_decide_eq_true hid)).1
        rw [hok.lines_eq] at hl
        exact (mem_stocktakeChanges.mp hl).2.2 hsame
      rw [effect, hnil]
      rfl
    omega
  · have hl : ⟨p, (n : Int)⟩ ∈ plan.lines := by
      rw [hok.lines_eq]
      exact mem_stocktakeChanges.mpr ⟨hp, ⟨n, hn, rfl⟩, hsame⟩
    have heffect : effect (S.since plan.commits) p.id = (n : Int) - p.stock :=
      effect_of_line hbase hok (hmade _ hl) fun c hc hid => (hline c hc hid).2
    omega

/-- **What the invariant says of a finished stocktake.** -/
theorem Inv.faithful (h : Inv S) : S.Faithful := by
  have hplanOk : ∀ P ∈ S.pages, ∀ plan ∈ P.plan, P.PlanOk S plan ∧ P.PhaseOk S plan P.phase :=
    fun P hP plan hplan => (Page.Ok.of_plan P hplan).mp (h.pages P hP)
  have hall : ∀ P ∈ S.pages, P.phase = .completed → ∀ plan ∈ P.plan, ∀ l ∈ plan.lines,
      S.Made (l.adjustment plan.note) := by
    intro P hP hphase plan hplan
    have hdone := (hplanOk P hP plan hplan).2
    rwa [hphase] at hdone
  refine ⟨fun P hP plan hplan => (hplanOk P hP plan hplan).1.own, fun P hP plan hplan l hl => ?_,
    fun _ _ _ _ _ _ => h.base.once _, fun P hP hphase plan hplan l hl => ?_,
    fun P hP hphase plan hplan p hp n hn hothers hnotes => ?_, fun x hx y hy hkey => ?_⟩
  · rw [(hplanOk P hP plan hplan).1.lines_eq] at hl
    exact (mem_stocktakeChanges.mp hl).2.1
  · exact h.base.length_made (hall P hP hphase plan hplan l hl)
  · exact stock_of_inv h.base (hplanOk P hP plan hplan).1 (hall P hP hphase plan hplan) hp hn hothers hnotes
  · obtain ⟨w, hw, hwkey, date, extra, hnote⟩ := h.base.sent x hx
    obtain ⟨w', hw', hwkey', date', extra', hnote'⟩ := h.base.sent y hy
    have hsame : w = w' := h.base.minted_inj w hw w' hw' (hwkey.trans (hkey.trans hwkey'.symm))
    subst hsame
    exact tag_of_note (hnote.symm.trans hnote')

end

/-- Where each step of a page is calm, each counted difference is written once. -/
theorem stocktake_writes_once {S : Sys} (hstart : S.Start) {moves : List Move} (hcalm : CalmRun S moves) :
    (S.run moves).Faithful :=
  ((Inv.start hstart).run hcalm).faithful

/-- Ten of a filter, on the server and on the till. -/
def shelf : Sys where
  now := 0
  today := ⟨"1 ก.ค. 69", by decide +kernel⟩
  server := Table.empty.upsert "p-filter" ⟨10, false⟩
  keys := []
  products := Table.empty.upsert "p-filter" ⟨10, false⟩
  outbox := []
  pending := []
  nextKey := 0
  pages := []
  others := fun _ => 0
  committed := []
  minted := []
  sent := []

theorem start_shelf : shelf.Start := ⟨rfl, rfl, rfl, rfl, rfl, rfl⟩

/-- Seven are counted. The adjustment is made, its reply is lost, and confirm is pressed again. -/
def recount (wait : Nat) : List Move :=
  [.openPage ⟨"3f09ab", by decide +kernel⟩, .setCount 0 "p-filter" (some 7), .press 0 false,
    .turn 0 .done, .turn 0 .done, .turn 0 .done, .turn 0 .lost,
    .tick wait ⟨"1 ก.ค. 69", by decide +kernel⟩, .press 0 false,
    .turn 0 .done, .turn 0 .done, .turn 0 .done, .turn 0 .done, .turn 0 .done]

theorem stocktake_writes_once_of_lostReply :
    CalmRun shelf (recount 120) ∧ (shelf.run (recount 120)).Faithful := by
  have hcalm : CalmRun shelf (recount 120) := by decide +kernel
  exact ⟨hcalm, stocktake_writes_once start_shelf hcalm⟩

/-- After ten minutes the key is forgotten: four are left of ten, where seven were counted. -/
theorem stocktake_writes_twice : shelf.Start ∧ ¬(shelf.run (recount 600)).Faithful := by
  refine ⟨start_shelf, fun h => ?_⟩
  have htwice : ∃ P ∈ (shelf.run (recount 600)).pages, ∃ plan ∈ P.plan, ∃ l ∈ plan.lines,
      ((shelf.run (recount 600)).made (l.adjustment plan.note)).length = 2 := by
    decide +kernel
  obtain ⟨P, hP, plan, hplan, l, hl, hlen⟩ := htwice
  have honce := h.once P hP plan hplan l hl
  omega

end Till.Stocktake

import Mathlib.Logic.Function.Basic
import Mathlib.Data.Option.Basic
import Mathlib.Data.List.Basic

/-! # Whose rows are in the local database (`tenant_cache_guard.dart`, `database.dart`)

The local database caches one shop. When another shop signs in it is emptied, unless work is left in it
that only the first shop could send; then the login is refused. A reply to a request that was sent
before is the first shop's still: the pulls compare the generation of the cache in the transaction they
write in, as do a few of the other writers. -/

namespace ShopCache

abbrev ShopId := Nat

inductive TableName where
  | products | categories | customers | mechanics | suppliers | quotes | purchaseOrders
  | sales | returns | movements | creditPayments | shifts | drawerEntries
  | settingsRow | paymentAccounts | syncCursors
  | docCounters | docCounterSeeds
  | outboxOps | opEffects | pendingCreditPayments | parkedSales
  /-- `app_meta`, less the marker of the tenant and the keys of the device -/
  | shopMeta
  deriving DecidableEq

/-- A row, with the shop it is about: whose session the request was made in that brought it, or on whose
screen it was made. A seeded row is about none. -/
structure Row where
  table : TableName
  id : Nat
  shop : Option ShopId
  deriving DecidableEq

/-! ## The database -/

/-- `hasUnsentWork` -/
def hasUnsentWork (rows : List Row) : Bool :=
  rows.any fun r => r.table = .outboxOps || r.table = .pendingCreditPayments

/-- `hasLocalWork` -/
def hasLocalWork (rows : List Row) : Bool :=
  hasUnsentWork rows || rows.any fun r => r.table = .parkedSales

def Row.isWork (r : Row) : Bool :=
  r.table = .outboxOps || r.table = .pendingCreditPayments || r.table = .parkedSales

/-- `_seedCategories` and `_seedBlankSettings` -/
def seeds : List Row := [⟨.categories, 0, none⟩, ⟨.settingsRow, 0, none⟩]

/-- The tables that `resetPulledCache` empties. -/
def TableName.pulled (keepStockAndLedgers : Bool) : TableName → Bool
  | .quotes | .purchaseOrders | .categories | .settingsRow | .syncCursors | .paymentAccounts => true
  | .products | .customers | .mechanics => !keepStockAndLedgers
  | _ => false

def resetTenantCache (_ : List Row) : List Row := seeds

def resetPulledCache (keepStockAndLedgers : Bool) (rows : List Row) : List Row :=
  rows.filter (fun r => !r.table.pulled keepStockAndLedgers) ++ seeds

def resetAfterServerImport (rows : List Row) : List Row :=
  rows.filter (fun r =>
    r.table = .docCounters || r.table = .docCounterSeeds || r.table = .shopMeta) ++ seeds

/-- Inserts a row, or writes over the one that is there. -/
def upsert (r : Row) (rows : List Row) : List Row :=
  r :: rows.filter fun r' => !(r'.table = r.table && r'.id = r.id)

/-! ## Writers -/

/-- What writes a reply of the server to the database. -/
inductive Writer where
  | pullProducts | pullProduct | pullCategories | pullCustomers | pullMechanics | pullQuotes
  | pullPurchaseOrders | pullSuppliers | pullSettings | pullPaymentAccounts | pullHistory
  | seedDocCounters
  | saveSettings | saveSupplier | savePaymentAccount
  | addProduct | updateProduct | deleteProduct | adjustStock | setImage | addCategory
  | saveCustomer | saveMechanic | creditPayment | saveQuote | savePurchaseOrder | receivePurchaseOrder
  | sale | creditNote | openShift | closeShift | drawerEntry
  deriving DecidableEq

namespace Writer

/-- Whether it compares the generation of the cache in the transaction it writes in. -/
def guarded : Writer → Bool
  | .pullProducts | .pullProduct | .pullCategories | .pullCustomers | .pullMechanics | .pullQuotes
  | .pullPurchaseOrders | .pullSuppliers | .pullSettings | .pullPaymentAccounts | .pullHistory
  | .seedDocCounters => true
  | .saveSettings | .saveSupplier | .savePaymentAccount => true
  | _ => false

def tables : Writer → List TableName
  | .pullProducts         => [.products, .syncCursors]
  | .pullProduct          => [.products]
  | .pullCategories       => [.categories]
  | .pullCustomers        => [.customers, .syncCursors]
  | .pullMechanics        => [.mechanics, .syncCursors]
  | .pullQuotes           => [.quotes]
  | .pullPurchaseOrders   => [.purchaseOrders]
  | .pullSuppliers        => [.suppliers, .shopMeta]
  | .pullSettings         => [.settingsRow]
  | .pullPaymentAccounts  => [.paymentAccounts]
  | .pullHistory          => [.sales, .returns]
  | .seedDocCounters      => [.docCounters, .docCounterSeeds]
  | .saveSettings         => [.settingsRow]
  | .saveSupplier         => [.suppliers]
  | .savePaymentAccount   => [.paymentAccounts]
  | .addProduct           => [.products]
  | .updateProduct        => [.products]
  | .deleteProduct        => [.products]
  | .adjustStock          => [.products, .movements]
  | .setImage             => [.products]
  | .addCategory          => [.categories]
  | .saveCustomer         => [.customers]
  | .saveMechanic         => [.mechanics]
  | .creditPayment        => [.creditPayments, .mechanics]
  | .saveQuote            => [.quotes]
  | .savePurchaseOrder    => [.purchaseOrders]
  | .receivePurchaseOrder => [.purchaseOrders, .products, .movements]
  | .sale                 => [.sales, .products, .customers, .mechanics, .movements, .quotes]
  | .creditNote           => [.returns, .sales, .products, .customers, .mechanics, .movements]
  | .openShift            => [.shifts, .drawerEntries]
  | .closeShift           => [.shifts, .drawerEntries]
  | .drawerEntry          => [.drawerEntries]

end Writer

/-- What a reply to a push brings. It settles operations besides. -/
def pushTables : List TableName :=
  [.sales, .returns, .shifts, .drawerEntries, .movements, .products, .customers, .mechanics, .opEffects]

/-! ## The till -/

/-- Where something waits. -/
inductive Flow where
  /-- a login with its token's shop, about to be admitted -/
  | answered (tid : Option ShopId) (viaDeviceToken : Bool)
  /-- admitted, with whether the cache was emptied, about to begin its session -/
  | admitted (t : ShopId) (cacheReset : Bool)
  /-- about to store its token -/
  | storing (t : ShopId)
  /-- about to record the login for the offline PIN -/
  | recording (t : ShopId)
  /-- a request of `w`, begun under this generation of the cache and this session -/
  | begun (w : Writer) (gen session : Nat)
  /-- on the wire, with a token of this shop -/
  | requested (w : Writer) (gen : Nat) (shop : ShopId)
  /-- an offline write, begun on this shop's screen -/
  | pressed (shop : Option ShopId)
  /-- a push that has read its operations -/
  | pushing (ops : List Row)
  /-- on the wire, with a device token of this shop -/
  | pushed (token : ShopId)
  /-- an enrolment whose code was spent for a device token of this shop -/
  | enrolling (t : ShopId)
  deriving DecidableEq

/-- An operation that was pushed. -/
structure Push where
  op : Row
  token : ShopId

structure State where
  rows : List Row
  /-- `app_meta`'s `tenant_id` -/
  tenantId : Option ShopId
  cacheGeneration : Nat
  /-- `_session`, the number of logins and logouts -/
  session : Nat
  /-- the shop of the stored access token -/
  accessToken : Option ShopId
  /-- the shop of the device token -/
  deviceToken : Option ShopId
  flows : Nat → Option Flow
  /-- the parked attempts, by what they are about, and the shop they were begun for -/
  parked : Nat → Option ShopId
  pushes : List Push
  /-- the attempts sent again, with whose they were and whose token they went out with -/
  resent : List (ShopId × ShopId)
  /-- the work that a change of the shop deleted -/
  lost : List Row

inductive Act where
  /-- a login is answered -/
  | login (k : Nat) (tid : Option ShopId) (viaDeviceToken : Bool)
  | admitTenant (k : Nat)
  | beginSession (k : Nat)
  | setAccessToken (k : Nat)
  /-- one of the keys of the offline PIN is written -/
  | recordOnlineLogin (k id : Nat)
  | logout
  | clearAuthTokens
  | request (k : Nat) (w : Writer)
  | send (k : Nat)
  /-- a part of the reply is written -/
  | receive (k : Nat) (table : TableName) (id : Nat)
  | press (k : Nat)
  | queue (k : Nat) (table : TableName) (id : Nat)
  | done (k : Nat)
  | push (k : Nat)
  | sendPush (k : Nat)
  | applied (k : Nat) (table : TableName) (id : Nat)
  /-- an operation is settled, or discarded -/
  | forget (r : Row)
  /-- a write is sent for the first time, or again -/
  | attempt (f : Nat)
  | closeAttempt (f : Nat)
  | checkEnrolment (k : Nat) (t : ShopId)
  | setDeviceToken (k : Nat)
  | forgetDeviceToken
  | importedOnServer

namespace State

variable (s : State)

def flow (k : Nat) (f : Option Flow) : State := { s with flows := Function.update s.flows k f }

/-- `TenantCacheGuard.admit`, in one transaction. None when it refuses. -/
def admitTenant (tid : Option ShopId) (viaDeviceToken : Bool) : Option (ShopId × Bool × State) :=
  match tid with
  | none   => none
  | some t =>
      if s.tenantId = some t then some (t, false, s)
      else if s.tenantId = none ∧ viaDeviceToken = true then
        some (t, true, { s with
          rows := resetPulledCache (hasUnsentWork s.rows) s.rows
          cacheGeneration := s.cacheGeneration + 1
          tenantId := some t
          lost := s.lost ++
            s.rows.filter fun r => r.isWork && r.table.pulled (hasUnsentWork s.rows) })
      else if hasLocalWork s.rows then none
      else
        some (t, true, { s with
          rows := resetTenantCache s.rows
          cacheGeneration := s.cacheGeneration + 1
          tenantId := some t
          lost := s.lost ++ s.rows.filter Row.isWork })

/-- `_storeSession` once it is admitted: what was begun since the reset is void as well. -/
def beginSession (cacheReset : Bool) : State :=
  { s with
    session := s.session + 1
    cacheGeneration := if cacheReset then s.cacheGeneration + 1 else s.cacheGeneration }

def upsert (r : Row) : State := { s with rows := ShopCache.upsert r s.rows }

/-- What `k` waits for happens. -/
def act : Act → Flow → State
  | .admitTenant k, .answered tid via =>
      match s.admitTenant tid via with
      | none                      => s.flow k none
      | some (t, cacheReset, s') => s'.flow k (some (.admitted t cacheReset))
  | .beginSession k, .admitted t cacheReset =>
      (s.beginSession cacheReset).flow k (some (.storing t))
  | .setAccessToken k, .storing t => { s with accessToken := some t }.flow k (some (.recording t))
  | .recordOnlineLogin _ id, .recording t => s.upsert ⟨.shopMeta, id, some t⟩
  | .send k, .begun w gen session =>
      -- compared once the token has been read
      match s.accessToken with
      | some t => s.flow k (if session = s.session then some (.requested w gen t) else none)
      | none   => s.flow k none
  | .receive _ table id, .requested w gen shop =>
      if table ∈ w.tables ∧ (w.guarded = true → s.cacheGeneration = gen) then
        s.upsert ⟨table, id, some shop⟩
      else s
  | .queue _ table id, .pressed shop => s.upsert ⟨table, id, shop⟩
  | .sendPush k, .pushing ops =>
      match s.deviceToken with
      | some t =>
          { s with pushes := ops.map (fun op => (⟨op, t⟩ : Push)) ++ s.pushes }.flow k (some (.pushed t))
      | none   => s.flow k none
  | .applied _ table id, .pushed t =>
      if table ∈ pushTables then s.upsert ⟨table, id, some t⟩ else s
  | .setDeviceToken k, .enrolling t => { s with deviceToken := some t }.flow k none
  | .done k, .recording _ | .done k, .requested .. | .done k, .pressed _ | .done k, .pushed _ =>
      s.flow k none
  | _, _ => s

/-- Something new. -/
def start : Act → State
  | .login k tid via    => s.flow k (some (.answered tid via))
  | .request k w        => s.flow k (some (.begun w s.cacheGeneration s.session))
  | .press k            => s.flow k (some (.pressed s.tenantId))
  | .push k             => s.flow k (some (.pushing (s.rows.filter fun r => r.table = .outboxOps)))
  | .checkEnrolment k t => if hasLocalWork s.rows then s else s.flow k (some (.enrolling t))
  | _                   => s

end State

/-- One act. Where what it is about is elsewhere, nothing happens. -/
def step (a : Act) (s : State) : State :=
  match a with
  | .login k .. | .request k _ | .press k | .push k | .checkEnrolment k _ =>
      match s.flows k with
      | none   => s.start a
      | some _ => s
  | .admitTenant k | .beginSession k | .setAccessToken k | .recordOnlineLogin k _ | .send k
  | .receive k .. | .queue k .. | .sendPush k | .applied k .. | .setDeviceToken k | .done k =>
      match s.flows k with
      | none   => s
      | some f => s.act a f
  | .logout          => { s with session := s.session + 1 }
  | .clearAuthTokens => { s with accessToken := none }
  | .forget r        => { s with rows := s.rows.filter (· ≠ r) }
  | .attempt f =>
      match s.accessToken, s.parked f with
      | some t, some owner => { s with resent := (owner, t) :: s.resent }
      | some t, none       => { s with parked := Function.update s.parked f (some t) }
      | none, _            => s
  | .closeAttempt f    => { s with parked := Function.update s.parked f none }
  | .forgetDeviceToken => { s with deviceToken := none }
  | .importedOnServer  =>
      { s with
        rows := resetAfterServerImport s.rows
        cacheGeneration := s.cacheGeneration + 1 }

def run (acts : List Act) (s : State) : State := acts.foldl (fun s a => step a s) s

/-- Every act of the run meets `P`. -/
def AllMeet (P : State → Act → Prop) : List Act → State → Prop
  | [], _        => True
  | a :: acts, s => P s a ∧ AllMeet P acts (step a s)

/-! ## Isolation -/

/-- About this shop, or about none. -/
def Of (t : ShopId) (shop : Option ShopId) : Prop := ∀ t', shop = some t' → t' = t

/-- No row is another shop's than the one that was admitted last, no work was lost to a change of the
shop, and none was pushed or sent again under another shop's token. -/
structure State.Isolated (s : State) : Prop where
  rows : ∀ t, s.tenantId = some t → ∀ r ∈ s.rows, Of t r.shop
  pushes : ∀ p ∈ s.pushes, Of p.token p.op.shop
  resent : ∀ p ∈ s.resent, p.1 = p.2
  lost : s.lost = []

/-- The app has started: nothing is on its way, and the rows and the tokens are of the shop that was
admitted last. -/
structure State.Start (s : State) : Prop where
  flows : ∀ k, s.flows k = none
  parked : ∀ f, s.parked f = none
  isolated : s.Isolated
  accessToken : ∀ t, s.tenantId = some t → Of t s.accessToken
  work : ∀ t, s.deviceToken = some t → ∀ r ∈ s.rows, r.table = .outboxOps → Of t r.shop

/-- A login has had the cache emptied and has not begun its session. -/
def State.Resetting (s : State) : Prop := ∃ k t, s.flows k = some (.admitted t true)

/-- A login is about to store its token. -/
def State.Storing (s : State) : Prop := ∃ k t, s.flows k = some (.storing t)

/-- What the shop of a write is compared with, where the code compares nothing, has not changed since
the write was begun. A reply that is compared may still land between the reset of the cache and the
session of the login, and a request may go out with the token that a login is about to replace. -/
def State.Undisturbed (s : State) : Act → Flow → Prop
  | .admitTenant _, .answered (some t) true => s.tenantId = none → ∀ r ∈ s.rows, Of t r.shop
  | .setAccessToken _, .storing t | .recordOnlineLogin .., .recording t | .applied .., .pushed t =>
      s.tenantId = some t
  | .send _, .begun .. => s.Storing → ∀ t, s.tenantId = some t → Of t s.accessToken
  | .receive .., .requested w _ shop =>
      w.guarded = false ∨ s.Resetting → ∀ t, s.tenantId = some t → shop = t
  | .queue _ table _, .pressed shop =>
      (∀ t, s.tenantId = some t → Of t shop) ∧
        (table = .outboxOps → ∀ t, s.deviceToken = some t → Of t shop)
  | .setDeviceToken _, .enrolling t =>
      (∀ r ∈ s.rows, r.table = .outboxOps → Of t r.shop) ∧
        ∀ j ops, s.flows j = some (.pushing ops) → ∀ r ∈ ops, Of t r.shop
  | _, _ => True

/-- No act finds itself in another shop's session than the one that it was begun in. -/
def Meets (s : State) : Act → Prop
  | a@(.admitTenant k) | a@(.setAccessToken k) | a@(.recordOnlineLogin k _) | a@(.send k) | a@(.receive k ..)
  | a@(.queue k ..) | a@(.applied k ..) | a@(.setDeviceToken k) =>
      ∀ f, s.flows k = some f → s.Undisturbed a f
  | .attempt f => ∀ t owner, s.accessToken = some t → s.parked f = some owner → owner = t
  | _ => True

end ShopCache

import Mathlib.Data.List.Basic
import Mathlib.Logic.Function.Basic
import Mathlib.Tactic.Cases

/-! # The first supplier pull (`api_suppliers_repository.dart`)

The server's suppliers are pulled whole and replace the device's. A device may hold suppliers that
never were on the server, so until a marker is set a pull first sends up what the server's set does not
have: each under a key that its id makes, so that the server answers a repeated one with the row it has
created. What is missing in the set need not be the device's own, though. It may be a supplier that was
pulled before and deleted on the server since, or one that was added while the pull was on its way. -/

namespace Till.SupplierPull

/-! ## Rows -/

/-- `_createBody`. Money is in satang. -/
structure CreateBody where
  productId : String
  name : String
  unitCost : Int
  freight : Int
  deriving DecidableEq, Repr

/-- A supplier. Of its id only counts which others it is equal to. -/
structure SupplierRow where
  id : Nat
  productId : String
  name : String
  unitCost : Int
  freight : Int
  deriving DecidableEq, Repr

def SupplierRow.createBody (r : SupplierRow) : CreateBody := ⟨r.productId, r.name, r.unitCost, r.freight⟩

def CreateBody.row (b : CreateBody) (id : Nat) : SupplierRow := ⟨id, b.productId, b.name, b.unitCost, b.freight⟩

structure SupplierPatch where
  productId : Option String
  name : Option String
  unitCost : Option Int
  freight : Option Int
  deriving DecidableEq, Repr

def SupplierPatch.row (p : SupplierPatch) (r : SupplierRow) : SupplierRow :=
  ⟨r.id, p.productId.getD r.productId, p.name.getD r.name, p.unitCost.getD r.unitCost, p.freight.getD r.freight⟩

/-- An `Idempotency-Key`: `idem-supmig-<id>`, or one that was minted for a write. -/
inductive Key where
  | supmig (id : Nat)
  | minted (n : Nat)
  deriving DecidableEq, Repr

/-- A completed row of `idempotency_keys`. -/
structure StoredReply where
  key : Key
  body : CreateBody
  row : SupplierRow
  deriving DecidableEq, Repr

/-- The tables of one shop on the server. -/
structure Server where
  liveProducts : List String
  suppliers : List SupplierRow
  keys : List StoredReply
  deriving DecidableEq, Repr

/-- `SuppliersService.list`: the suppliers of live products. -/
def Server.list (s : Server) : List SupplierRow := s.suppliers.filter fun r => r.productId ∈ s.liveProducts

/-- The local database, and what the repository holds in memory. -/
structure Device where
  /-- the shop that the database was admitted for -/
  tenantId : Nat
  /-- the shop whose session it is -/
  shop : Nat
  suppliers : List SupplierRow
  /-- whether `suppliersPulledKey` is set -/
  pulled : Bool
  writeGen : Nat
  cacheGeneration : Nat
  deriving DecidableEq, Repr

/-- A supplier was created, in a shop under a key. -/
structure Creation where
  shop : Nat
  key : Key
  row : SupplierRow
  deriving DecidableEq, Repr

/-! ## Requests -/

/-- How far a pull has come: the reply of the server is in `rows`, `todo` is still to be sent and
`unsent` is what the next pull has to try again. -/
inductive PullStage where
  | get
  | marker (rows : List SupplierRow)
  | list (rows : List SupplierRow)
  | send (rows unsent todo : List SupplierRow)
  | write (rows unsent : List SupplierRow) (firstPull : Bool)
  deriving DecidableEq, Repr

inductive WriteCall where
  | add (key : Nat) (body : CreateBody)
  | update (id : Nat) (patch : SupplierPatch)
  | delete (id : Nat)
  deriving DecidableEq, Repr

/-- What a reply changes in the cache. -/
inductive CacheWrite where
  | put (row : SupplierRow)
  | drop (id : Nat)
  deriving DecidableEq, Repr

inductive Request where
  | pull (startWrite startCache : Nat) (stage : PullStage)
  | write (startCache : Nat) (call : WriteCall)
  | apply (startCache : Nat) (write : CacheWrite)
  | over
  deriving DecidableEq, Repr

/-- What becomes of a request: an error before it is served (401, 429, 5xx), or the server serves it,
whose parser takes the body or not. Then the reply may still be lost. -/
inductive Fate where
  | fails (statusCode : Nat)
  | served (valid : Bool)
  deriving DecidableEq, Repr

structure Outcome where
  fate : Fate
  lost : Bool
  deriving DecidableEq, Repr

/-- The servers, one device and its requests. The last five only record what has happened: the ids that
suppliers on a server have had, what was created and what was deleted there, which rows of the device
were refused, and which its user deleted. -/
structure Sys where
  servers : Nat → Server
  nextId : Nat
  device : Device
  requests : List Request
  had : List Nat
  created : List Creation
  deleted : List Nat
  refused : List Nat
  removed : List Nat

/-- What a request is answered, an `ApiException` with its status code included. -/
abbrev Reply (α : Type) := Except Nat α

/-! ## The server -/

namespace Sys

variable (S : Sys)

def setServer (shop : Nat) (server : Server) : Sys :=
  { S with servers := Function.update S.servers shop server }

/-- `createIn`, with a new id -/
def create (shop : Nat) (key : Key) (body : CreateBody) : Sys :=
  let server := S.servers shop
  let row := body.row S.nextId
  { S.setServer shop { server with
      suppliers := server.suppliers ++ [row]
      keys := ⟨key, body, row⟩ :: server.keys } with
    nextId := S.nextId + 1
    had := S.nextId :: S.had
    created := ⟨shop, key, row⟩ :: S.created }

/-- `POST /suppliers`: a key that is known answers for itself. -/
def post (shop : Nat) (key : Key) (body : CreateBody) : Fate → Sys × Reply SupplierRow
  | .fails statusCode => (S, .error statusCode)
  | .served valid =>
      match (S.servers shop).keys.find? fun k => k.key = key with
      | some stored => (S, if stored.body = body then .ok stored.row else .error 409)
      | none =>
          if valid = false then (S, .error 400)
          else if body.productId ∉ (S.servers shop).liveProducts then (S, .error 404)
          else (S.create shop key body, .ok (body.row S.nextId))

def setSuppliers (shop : Nat) (suppliers : List SupplierRow) : Sys :=
  S.setServer shop { S.servers shop with suppliers }

/-- `PATCH /suppliers/:id` -/
def patch (shop id : Nat) (p : SupplierPatch) : Fate → Sys × Reply SupplierRow
  | .fails statusCode => (S, .error statusCode)
  | .served valid =>
      if valid = false then (S, .error 400)
      else if p.productId.any (· ∉ (S.servers shop).liveProducts) = true then (S, .error 404)
      else
        match (S.servers shop).suppliers.find? fun r => r.id = id with
        | none   => (S, .error 404)
        | some r =>
            (S.setSuppliers shop
              ((S.servers shop).suppliers.map fun r => if r.id = id then p.row r else r), .ok (p.row r))

/-- `DELETE /suppliers/:id`, which is done whether or not the supplier was there. -/
def delete (shop id : Nat) : Fate → Sys × Reply Unit
  | .fails statusCode => (S, .error statusCode)
  | .served _ =>
      ({ S.setSuppliers shop ((S.servers shop).suppliers.filter fun r => r.id ≠ id) with
          deleted := id :: S.deleted }, .ok ())

/-! ## The device -/

def setDevice (device : Device) : Sys := { S with device }

/-- `_sendLocalOnly`: the server's row, and whether the device's has to stay. -/
def sendLocalOnly (l : SupplierRow) (o : Outcome) : Sys × Option SupplierRow × Bool :=
  let (S', reply) := S.post S.device.shop (.supmig l.id) l.createBody o.fate
  if o.lost = true then (S', none, true)
  else
    match reply with
    | .ok row           => (S', some row, false)
    | .error statusCode =>
        if statusCode = 400 ∨ statusCode = 404 then
          ({ S' with refused := l.id :: S'.refused }, none, false)
        else (S', none, true)

/-- The transaction at the end of a pull. It is undone where `insertAll` meets an id twice. -/
def replace (startWrite startCache : Nat) (rows unsent : List SupplierRow) (firstPull : Bool) : Sys :=
  if S.device.cacheGeneration ≠ startCache ∨ S.device.writeGen ≠ startWrite then S
  else if ((rows ++ unsent).map (·.id)).Nodup then
    S.setDevice { S.device with
      suppliers := rows ++ unsent
      pulled := S.device.pulled || (firstPull && unsent.isEmpty) }
  else S

/-- `pullFromServer` -/
def pullTurn (startWrite startCache : Nat) (o : Outcome) : PullStage → Sys × Request
  | .get =>
      match o with
      | ⟨.served _, false⟩ => (S, .pull startWrite startCache (.marker (S.servers S.device.shop).list))
      | _                  => (S, .over)
  | .marker rows =>
      (S, .pull startWrite startCache
        (if S.device.pulled = true then .write rows [] false else .list rows))
  | .list rows =>
      let serverIds := rows.map (·.id)
      (S, .pull startWrite startCache (.send rows [] (S.device.suppliers.filter fun l => l.id ∉ serverIds)))
  | .send rows unsent [] => (S, .pull startWrite startCache (.write rows unsent true))
  | .send rows unsent (l :: todo) =>
      let (S', created, keep) := S.sendLocalOnly l o
      (S', .pull startWrite startCache
        (.send (rows ++ created.toList) (if keep = true then unsent ++ [l] else unsent) todo))
  | .write rows unsent firstPull => (S.replace startWrite startCache rows unsent firstPull, .over)

/-- `addSupplier`, `updateSupplier` and `deleteSupplier`: only an accepted reply is applied. -/
def writeTurn (startCache : Nat) (o : Outcome) (call : WriteCall) : Sys × Request :=
  match call with
  | .add key body =>
      match S.post S.device.shop (.minted key) body o.fate with
      | (S', .ok row)  => (S', if o.lost = true then .over else .apply startCache (.put row))
      | (S', .error _) => (S', .over)
  | .update id p =>
      match S.patch S.device.shop id p o.fate with
      | (S', .ok row)  => (S', if o.lost = true then .over else .apply startCache (.put row))
      | (S', .error _) => (S', .over)
  | .delete id =>
      match S.delete S.device.shop id o.fate with
      | (S', .ok _)    => (S', if o.lost = true then .over else .apply startCache (.drop id))
      | (S', .error _) => (S', .over)

def CacheWrite.suppliers (suppliers : List SupplierRow) : CacheWrite → List SupplierRow
  | .put row => suppliers.filter (fun r => r.id ≠ row.id) ++ [row]
  | .drop id => suppliers.filter fun r => r.id ≠ id

def CacheWrite.removed : CacheWrite → List Nat
  | .put _   => []
  | .drop id => [id]

/-- `_apply` -/
def applyTurn (startCache : Nat) (w : CacheWrite) : Sys :=
  if S.device.cacheGeneration = startCache then
    { S with
      device := { S.device with
        suppliers := CacheWrite.suppliers S.device.suppliers w
        writeGen := S.device.writeGen + 1 }
      removed := CacheWrite.removed w ++ S.removed }
  else S

def turn (o : Outcome) : Request → Sys × Request
  | .pull startWrite startCache stage => S.pullTurn startWrite startCache o stage
  | .write startCache call            => S.writeTurn startCache o call
  | .apply startCache w               => (S.applyTurn startCache w, .over)
  | .over                             => (S, .over)

/-- A login of another shop empties the database. -/
def enterShop (t : Nat) : Sys :=
  if t = S.device.tenantId then S
  else
    S.setDevice { S.device with
      tenantId := t
      suppliers := []
      pulled := false
      cacheGeneration := S.device.cacheGeneration + 1 }

/-- Its tokens are in place. -/
def beginSession : Sys :=
  if S.device.shop = S.device.tenantId then S
  else
    S.setDevice { S.device with
      shop := S.device.tenantId
      cacheGeneration := S.device.cacheGeneration + 1 }

end Sys

/-! ## Runs -/

/-- What other devices, the catalogue and the clean-up of old keys do to a shop on the server. -/
inductive Others where
  | create (key : Nat) (body : CreateBody) (valid : Bool)
  | update (id : Nat) (patch : SupplierPatch) (valid : Bool)
  | delete (id : Nat)
  | products (live : List String)
  | forget (key : Key)
  deriving DecidableEq, Repr

def Sys.others (S : Sys) (shop : Nat) : Others → Sys
  | .create key body valid => (S.post shop (.minted key) body (.served valid)).1
  | .update id p valid     => (S.patch shop id p (.served valid)).1
  | .delete id             => (S.delete shop id (.served true)).1
  | .products live         => S.setServer shop { S.servers shop with liveProducts := live }
  | .forget key            =>
      S.setServer shop { S.servers shop with keys := (S.servers shop).keys.filter fun k => k.key ≠ key }

inductive Move where
  | pull
  | write (call : WriteCall)
  | turn (i : Nat) (o : Outcome)
  | stop (i : Nat)
  /-- the app closes and opens again -/
  | restart
  | enterShop (shop : Nat)
  | beginSession
  | others (shop : Nat) (op : Others)
  deriving DecidableEq, Repr

def Sys.begin (S : Sys) (r : Request) : Sys := { S with requests := S.requests ++ [r] }

def Sys.move (S : Sys) : Move → Sys
  | .pull => S.begin (.pull S.device.writeGen S.device.cacheGeneration .get)
  | .write call => S.begin (.write S.device.cacheGeneration call)
  | .turn i o =>
      match S.requests[i]? with
      | none   => S
      | some r =>
          let (S', r') := S.turn o r
          { S' with requests := S.requests.set i r' }
  | .stop i => { S with requests := S.requests.set i .over }
  | .restart => { S with device := { S.device with writeGen := 0, cacheGeneration := 0 }, requests := [] }
  | .enterShop t => S.enterShop t
  | .beginSession => S.beginSession
  | .others shop op => S.others shop op

def Sys.run (S : Sys) (moves : List Move) : Sys := moves.foldl Sys.move S

/-! ## What the first pull is for -/

/-- The supplier was created on the server, it was refused with 400 or 404, or its user deleted it. -/
def Sys.Settled (S : Sys) (id : Nat) : Prop :=
  (∃ c ∈ S.created, c.key = .supmig id) ∨ id ∈ S.refused ∨ id ∈ S.removed

instance {S : Sys} {id : Nat} : Decidable (S.Settled id) :=
  inferInstanceAs (Decidable ((∃ c ∈ S.created, _) ∨ _))

/-- A device of `shop` that has not pulled yet, with the suppliers that no server has had. -/
structure Start where
  sys : Sys
  shop : Nat
  localOnly : List SupplierRow
  signedIn : sys.device.tenantId = shop ∧ sys.device.shop = shop
  unpulled : sys.device.pulled = false
  idle : sys.requests = []
  mem_device : ∀ r, r ∈ sys.device.suppliers → r ∈ localOnly ∨ r.id ∈ sys.had
  localOnly_mem : ∀ r ∈ localOnly, r ∈ sys.device.suppliers
  localOnly_new : ∀ r ∈ localOnly, r.id < sys.nextId ∧ r.id ∉ sys.had
  localOnly_inj : ∀ r ∈ localOnly, ∀ r' ∈ localOnly, r.id = r'.id → r = r'
  had_lt : ∀ id ∈ sys.had, id < sys.nextId
  suppliers_had : ∀ t, ∀ r ∈ (sys.servers t).suppliers, r.id ∈ sys.had
  keys_had : ∀ t, ∀ k ∈ (sys.servers t).keys, k.row.id ∈ sys.had ∧ ∀ id, k.key ≠ .supmig id
  created_nil : sys.created = []

/-- Pulls have created local-only suppliers alone, each once, in its own shop and as it is; there it has
been since, unless it was deleted. None has left the device before that, and none is left to be sent once
the marker is set. -/
structure Sys.Faithful (S : Sys) (shop : Nat) (localOnly : List SupplierRow) : Prop where
  once : ∀ id, (S.created.countP fun c => c.key = .supmig id) ≤ 1
  own : ∀ c ∈ S.created, ∀ id, c.key = .supmig id →
    c.shop = shop ∧ ∃ r ∈ localOnly, r.id = id ∧ r.createBody = c.row.createBody
  there : ∀ c ∈ S.created, c.row.id ∈ S.deleted ∨ ∃ r ∈ (S.servers c.shop).suppliers, r.id = c.row.id
  kept : ∀ r ∈ localOnly, r ∈ S.device.suppliers ∨ S.Settled r.id
  settled : S.device.pulled = true → ∀ r ∈ localOnly, S.Settled r.id

/-- Before a first pull's step: the suppliers that it is about to list and that a server has had are in
the reply; what it is about to send goes to the shop that it began in, and where the supplier was created
before, the server still knows the key. -/
def Sys.PullCalm (S : Sys) (startCache : Nat) : PullStage → Prop
  | .list rows => ∀ r ∈ S.device.suppliers, r.id ∈ S.had → r.id ∈ rows.map (·.id)
  | .send _ _ (l :: _) =>
      S.device.cacheGeneration = startCache ∧ ∀ c ∈ S.created, c.key = .supmig l.id →
        ∃ k ∈ (S.servers S.device.shop).keys, k.key = .supmig l.id
  | _ => True

/-- Another shop does not sign in before all is settled that only the device has. -/
def Sys.Calm (S : Sys) : Move → Prop
  | .turn i _ =>
      match S.requests[i]? with
      | some (.pull _ startCache stage) => S.PullCalm startCache stage
      | _                               => True
  | .enterShop t => t = S.device.tenantId ∨ ∀ r ∈ S.device.suppliers, r.id ∈ S.had ∨ S.Settled r.id
  | _ => True

instance {S : Sys} {startCache : Nat} : ∀ stage, Decidable (S.PullCalm startCache stage)
  | .list rows =>
      inferInstanceAs (Decidable (∀ r ∈ S.device.suppliers, r.id ∈ S.had → r.id ∈ rows.map (·.id)))
  | .send _ _ (l :: _) =>
      inferInstanceAs (Decidable (S.device.cacheGeneration = startCache ∧ ∀ c ∈ S.created,
        c.key = .supmig l.id → ∃ k ∈ (S.servers S.device.shop).keys, k.key = .supmig l.id))
  | .get | .marker _ | .send _ _ [] | .write _ _ _ => .isTrue trivial

instance {S : Sys} : ∀ m, Decidable (S.Calm m)
  | .turn i _ =>
      match h : S.requests[i]? with
      | some (.pull _ startCache stage) =>
          decidable_of_iff (S.PullCalm startCache stage) (by simp only [Sys.Calm, h])
      | some (.write _ _) | some (.apply _ _) | some .over | none =>
          .isTrue (by simp only [Sys.Calm, h])
  | .enterShop t =>
      inferInstanceAs (Decidable (t = S.device.tenantId ∨
        ∀ r ∈ S.device.suppliers, r.id ∈ S.had ∨ S.Settled r.id))
  | .pull | .write _ | .stop _ | .restart | .beginSession | .others _ _ => .isTrue trivial

def CalmRun : Sys → List Move → Prop
  | _, []      => True
  | S, m :: ms => S.Calm m ∧ CalmRun (S.move m) ms

instance instDecidableCalmRun : ∀ S ms, Decidable (CalmRun S ms)
  | _, []      => .isTrue trivial
  | S, m :: ms =>
      have := instDecidableCalmRun (S.move m) ms
      inferInstanceAs (Decidable (S.Calm m ∧ CalmRun (S.move m) ms))

/-! ## The servers -/

namespace Sys

/-- A POST fails, finds its key, or creates the row. -/
theorem post_cases (S : Sys) (shop : Nat) (key : Key) (body : CreateBody) (fate : Fate) :
    (∃ e, S.post shop key body fate = (S, .error e)) ∨
    (∃ k ∈ (S.servers shop).keys, k.key = key ∧ S.post shop key body fate = (S, .ok k.row)) ∨
    (∀ k ∈ (S.servers shop).keys, k.key ≠ key) ∧
      S.post shop key body fate = (S.create shop key body, .ok (body.row S.nextId)) := by
  cases fate with
  | fails e => exact Or.inl ⟨e, rfl⟩
  | served valid =>
      unfold post
      cases hfind : (S.servers shop).keys.find? fun k => k.key = key with
      | some k =>
          have hkey : k.key = key := by simpa using List.find?_some hfind
          by_cases hbody : k.body = body
          · exact Or.inr (Or.inl ⟨k, List.mem_of_find?_eq_some hfind, hkey, by simp [hbody]⟩)
          · exact Or.inl ⟨409, by simp [hbody]⟩
      | none =>
          have hnone : ∀ k ∈ (S.servers shop).keys, k.key ≠ key := by
            intro k hk heq
            exact List.find?_eq_none.mp hfind k hk (decide_eq_true heq)
          dsimp only
          split
          · exact Or.inl ⟨400, rfl⟩
          · split
            · exact Or.inl ⟨404, rfl⟩
            · exact Or.inr (Or.inr ⟨hnone, rfl⟩)

/-- A PATCH fails, or writes the row with its id. -/
theorem patch_cases (S : Sys) (shop id : Nat) (p : SupplierPatch) (fate : Fate) :
    (∃ e, S.patch shop id p fate = (S, .error e)) ∨
    ∃ r ∈ (S.servers shop).suppliers, r.id = id ∧ S.patch shop id p fate =
      (S.setSuppliers shop ((S.servers shop).suppliers.map fun r => if r.id = id then p.row r else r),
        .ok (p.row r)) := by
  cases fate with
  | fails e => exact Or.inl ⟨e, rfl⟩
  | served valid =>
      unfold patch
      dsimp only
      split
      · exact Or.inl ⟨400, rfl⟩
      · split
        · exact Or.inl ⟨404, rfl⟩
        · split
          · exact Or.inl ⟨404, rfl⟩
          next r hfind =>
            have hid : r.id = id := by simpa using List.find?_some hfind
            exact Or.inr ⟨r, List.mem_of_find?_eq_some hfind, hid, rfl⟩

end Sys

/-! ## The invariant -/

section
variable {home : Nat} {localOnly : List SupplierRow} {S S' : Sys}

/-- The database is the shop's, and so is the session. -/
def Sys.Home (S : Sys) (home : Nat) : Prop := S.device.tenantId = home ∧ S.device.shop = home

structure Core (home : Nat) (localOnly : List SupplierRow) (S : Sys) : Prop where
  faithful : S.Faithful home localOnly
  had_lt : ∀ id ∈ S.had, id < S.nextId
  local_new : ∀ r ∈ localOnly, r.id < S.nextId ∧ r.id ∉ S.had
  mem_device : ∀ r ∈ S.device.suppliers, r ∈ localOnly ∨ r.id ∈ S.had
  suppliers_had : ∀ t, ∀ r ∈ (S.servers t).suppliers, r.id ∈ S.had
  keys_had : ∀ t, ∀ k ∈ (S.servers t).keys, k.row.id ∈ S.had ∧
    ∀ id, k.key = .supmig id → ∃ c ∈ S.created, c.key = .supmig id
  home : ∀ r ∈ localOnly, r ∈ S.device.suppliers → S.Home home

/-- What is recorded stays, and a login makes the generation of the cache another one. -/
structure Later (S S' : Sys) : Prop where
  had : ∀ id ∈ S.had, id ∈ S'.had
  created : ∀ c ∈ S.created, c ∈ S'.created
  refused : ∀ id ∈ S.refused, id ∈ S'.refused
  removed : ∀ id ∈ S.removed, id ∈ S'.removed
  gen : S.device.cacheGeneration ≤ S'.device.cacheGeneration
  signedIn : S.device.cacheGeneration = S'.device.cacheGeneration → ∀ home, S.Home home → S'.Home home

theorem Later.refl (S : Sys) : Later S S :=
  ⟨fun _ => id, fun _ => id, fun _ => id, fun _ => id, Nat.le_refl _, fun _ _ => id⟩

theorem Later.trans {S'' : Sys} (h : Later S S') (h' : Later S' S'') : Later S S'' := by
  refine ⟨fun i hi => h'.had i (h.had i hi), fun c hc => h'.created c (h.created c hc),
    fun i hi => h'.refused i (h.refused i hi), fun i hi => h'.removed i (h.removed i hi),
    Nat.le_trans h.gen h'.gen, fun hgen home hhome => ?_⟩
  have hleft := h.gen
  have hright := h'.gen
  exact h'.signedIn (by omega) home (h.signedIn (by omega) home hhome)

theorem Sys.Settled.later {id : Nat} (hs : S.Settled id) (h : Later S S') : S'.Settled id := by
  rcases hs with ⟨c, hc, hkey⟩ | hr | hr
  · exact Or.inl ⟨c, h.created c hc, hkey⟩
  · exact Or.inr (Or.inl (h.refused id hr))
  · exact Or.inr (Or.inr (h.removed id hr))

/-- The suppliers of a reply. -/
def Sys.AllHad (S : Sys) (rows : List SupplierRow) : Prop := ∀ r ∈ rows, r.id ∈ S.had

/-- A pull that is not void has all that is local-only in `pending` or settled, and what it has there
belongs to the session's shop. -/
structure Sys.Holds (S : Sys) (home : Nat) (localOnly : List SupplierRow) (startCache : Nat)
    (pending : List SupplierRow) : Prop where
  sub : ∀ l ∈ pending, l ∈ localOnly
  all : startCache = S.device.cacheGeneration → ∀ l ∈ localOnly, l ∈ pending ∨ S.Settled l.id
  home : startCache = S.device.cacheGeneration → ∀ l ∈ pending, S.Home home

def Sys.FitsPull (S : Sys) (home : Nat) (localOnly : List SupplierRow) (startCache : Nat) : PullStage → Prop
  | .get                   => True
  | .marker rows           => S.AllHad rows
  | .list rows             => S.AllHad rows
  | .send rows unsent todo => S.AllHad rows ∧ S.Holds home localOnly startCache (unsent ++ todo)
  | .write rows unsent _   => S.AllHad rows ∧ S.Holds home localOnly startCache unsent

def Sys.Fits (S : Sys) (home : Nat) (localOnly : List SupplierRow) : Request → Prop
  | .pull _ startCache stage =>
      startCache ≤ S.device.cacheGeneration ∧ S.FitsPull home localOnly startCache stage
  | .write startCache _        => startCache ≤ S.device.cacheGeneration
  | .apply startCache (.put r) => startCache ≤ S.device.cacheGeneration ∧ r.id ∈ S.had
  | .apply startCache _        => startCache ≤ S.device.cacheGeneration
  | .over                      => True

structure Inv (home : Nat) (localOnly : List SupplierRow) (S : Sys) : Prop where
  core : Core home localOnly S
  fits : ∀ r ∈ S.requests, S.Fits home localOnly r

theorem Sys.AllHad.later {rows : List SupplierRow} (h : S.AllHad rows) (hl : Later S S') : S'.AllHad rows :=
  fun r hr => hl.had _ (h r hr)

theorem Sys.Holds.later {startCache : Nat} {pending : List SupplierRow}
    (h : S.Holds home localOnly startCache pending) (hle : startCache ≤ S.device.cacheGeneration)
    (hl : Later S S') : S'.Holds home localOnly startCache pending := by
  have hgen := hl.gen
  refine ⟨h.sub, fun heq l hmem => ?_, fun heq l hmem => ?_⟩
  · exact (h.all (by omega) l hmem).imp_right fun hs => hs.later hl
  · exact hl.signedIn (by omega) home (h.home (by omega) l hmem)

theorem Sys.FitsPull.later {startCache : Nat} {stage : PullStage}
    (h : S.FitsPull home localOnly startCache stage) (hle : startCache ≤ S.device.cacheGeneration)
    (hl : Later S S') : S'.FitsPull home localOnly startCache stage := by
  cases stage with
  | get => trivial
  | marker rows => exact Sys.AllHad.later h hl
  | list rows => exact Sys.AllHad.later h hl
  | send rows unsent todo => exact ⟨h.1.later hl, h.2.later hle hl⟩
  | write rows unsent firstPull => exact ⟨h.1.later hl, h.2.later hle hl⟩

theorem Sys.Fits.later {r : Request} (h : S.Fits home localOnly r) (hl : Later S S') :
    S'.Fits home localOnly r := by
  match r, h with
  | .pull _ startCache stage, h => exact ⟨Nat.le_trans h.1 hl.gen, h.2.later h.1 hl⟩
  | .write startCache call, h => exact Nat.le_trans h hl.gen
  | .apply startCache (.put r), h => exact ⟨Nat.le_trans h.1 hl.gen, hl.had _ h.2⟩
  | .apply startCache (.drop id), h => exact Nat.le_trans h hl.gen
  | .over, _ => trivial

/-! ### What happens on a server -/

theorem later_setServer (S : Sys) (shop : Nat) (server : Server) : Later S (S.setServer shop server) :=
  ⟨fun _ => id, fun _ => id, fun _ => id, fun _ => id, Nat.le_refl _, fun _ _ => id⟩

/-- The server's rows may be written where they are ones it has had. -/
theorem Core.setServer (h : Core home localOnly S) {shop : Nat} {server : Server}
    (hsuppliers : ∀ r ∈ server.suppliers, r.id ∈ S.had)
    (hkeys : ∀ k ∈ server.keys, k ∈ (S.servers shop).keys)
    (hthere : ∀ r ∈ (S.servers shop).suppliers, r.id ∈ S.deleted ∨ ∃ r' ∈ server.suppliers, r'.id = r.id) :
    Core home localOnly (S.setServer shop server) := by
  refine { h with faithful := { h.faithful with there := fun c hc => ?_ }
                  suppliers_had := fun t r hr => ?_, keys_had := fun t k hk => ?_ }
  · rcases h.faithful.there c hc with hdel | ⟨r, hr, hid⟩
    · exact Or.inl hdel
    · by_cases ht : c.shop = shop
      · subst ht
        simp only [Sys.setServer, Function.update_self]
        exact hid ▸ hthere r hr
      · simp only [Sys.setServer, Function.update_of_ne ht]
        exact Or.inr ⟨r, hr, hid⟩
  · by_cases ht : t = shop
    · subst ht
      simp only [Sys.setServer, Function.update_self] at hr
      exact hsuppliers r hr
    · simp only [Sys.setServer, Function.update_of_ne ht] at hr
      exact h.suppliers_had t r hr
  · by_cases ht : t = shop
    · subst ht
      simp only [Sys.setServer, Function.update_self] at hk
      exact h.keys_had t k (hkeys k hk)
    · simp only [Sys.setServer, Function.update_of_ne ht] at hk
      exact h.keys_had t k hk

theorem Core.setSuppliers (h : Core home localOnly S) {shop : Nat} {suppliers : List SupplierRow}
    (hsuppliers : ∀ r ∈ suppliers, r.id ∈ S.had)
    (hthere : ∀ r ∈ (S.servers shop).suppliers, r.id ∈ S.deleted ∨ ∃ r' ∈ suppliers, r'.id = r.id) :
    Core home localOnly (S.setSuppliers shop suppliers) :=
  h.setServer hsuppliers (fun _ => id) hthere

/-- A PATCH keeps what is known of the rows. -/
theorem Core.patch (h : Core home localOnly S) (shop id : Nat) (p : SupplierPatch) (fate : Fate) :
    Core home localOnly (S.patch shop id p fate).1 ∧ Later S (S.patch shop id p fate).1 ∧
      (S.patch shop id p fate).1.requests = S.requests ∧
      ∀ row, (S.patch shop id p fate).2 = .ok row → row.id ∈ (S.patch shop id p fate).1.had := by
  rcases S.patch_cases shop id p fate with ⟨e, heq⟩ | ⟨r, hr, -, heq⟩
  · rw [heq]
    exact ⟨h, .refl S, rfl, fun _ hrow => nomatch hrow⟩
  · rw [heq]
    refine ⟨h.setSuppliers (fun r hr => ?_) (fun r hr => Or.inr ?_), later_setServer S _ _, rfl, ?_⟩
    · obtain ⟨r₀, hr₀, rfl⟩ := List.mem_map.mp hr
      have hhad := h.suppliers_had shop r₀ hr₀
      split <;> exact hhad
    · refine ⟨_, List.mem_map_of_mem hr, ?_⟩
      split <;> rfl
    · intro row hrow
      cases hrow
      exact h.suppliers_had shop r hr

/-- So does a DELETE. -/
theorem Core.delete (h : Core home localOnly S) (shop id : Nat) (fate : Fate) :
    Core home localOnly (S.delete shop id fate).1 ∧ Later S (S.delete shop id fate).1 ∧
      (S.delete shop id fate).1.requests = S.requests := by
  cases fate with
  | fails e => exact ⟨h, .refl S, rfl⟩
  | served valid =>
      have hdeleted : Core home localOnly { S with deleted := id :: S.deleted } :=
        { h with faithful := { h.faithful with
            there := fun c hc => (h.faithful.there c hc).imp_left (List.mem_cons_of_mem id) } }
      have hlater : Later S (S.delete shop id (.served valid)).1 :=
        ⟨fun _ h => h, fun _ h => h, fun _ h => h, fun _ h => h, Nat.le_refl _, fun _ _ h => h⟩
      refine ⟨hdeleted.setSuppliers (fun r hr => ?_) (fun r hr => ?_), hlater, rfl⟩
      · exact h.suppliers_had shop r (List.mem_filter.mp hr).1
      · by_cases hid : r.id = id
        · exact Or.inl (hid ▸ List.mem_cons_self)
        · exact Or.inr ⟨r, List.mem_filter.mpr ⟨hr, by simpa using hid⟩, rfl⟩

/-- A new supplier, under a key that nothing was created under: a local-only one in its own shop, where
the key is its own. -/
theorem Core.create (h : Core home localOnly S) {shop : Nat} {key : Key} {body : CreateBody}
    (hkey : ∀ id, key = .supmig id → shop = home ∧ (∃ r ∈ localOnly, r.id = id ∧ r.createBody = body) ∧
      ∀ c ∈ S.created, c.key ≠ key) :
    Core home localOnly (S.create shop key body) := by
  -- what was settled stays so: rows are only added
  have hsettled : ∀ {id}, S.Settled id → (S.create shop key body).Settled id := by
    rintro id (⟨c, hc, hk⟩ | hr)
    · exact Or.inl ⟨c, List.mem_cons_of_mem _ hc, hk⟩
    · exact Or.inr hr
  refine ⟨⟨fun id => ?_, ?_, ?_, ?_, ?_⟩, ?_, ?_, ?_, ?_, ?_, h.home⟩
  · have hold := h.faithful.once id
    show List.countP _ (_ :: S.created) ≤ 1
    rw [List.countP_cons]
    -- once: the key of a local-only row has created nothing before
    by_cases hk : key = .supmig id
    · have hzero : (S.created.countP fun c => c.key = .supmig id) = 0 := by
        rw [List.countP_eq_zero]
        intro c hc
        simpa [← hk] using (hkey id hk).2.2 c hc
      simp [hzero, hk]
    -- any other key does not count
    · simpa [hk] using hold
  · intro c hc id hk
    rcases List.mem_cons.mp hc with rfl | hc
    · obtain ⟨hshop, ⟨r, hr, hid, hbody⟩, -⟩ := hkey id hk
      exact ⟨hshop, r, hr, hid, hbody⟩
    · exact h.faithful.own c hc id hk
  · intro c hc
    rcases List.mem_cons.mp hc with rfl | hc
    · right
      simp [Sys.create, Sys.setServer]
    · rcases h.faithful.there c hc with hdel | ⟨r, hr, hid⟩
      · exact Or.inl hdel
      · right
        -- only the tables of this shop are written
        by_cases ht : c.shop = shop
        · subst ht
          simp only [Sys.create, Sys.setServer, Function.update_self]
          exact ⟨r, List.mem_append_left _ hr, hid⟩
        · simp only [Sys.create, Sys.setServer, Function.update_of_ne ht]
          exact ⟨r, hr, hid⟩
  · exact fun r hr => (h.faithful.kept r hr).imp_right hsettled
  · exact fun hpulled r hr => hsettled (h.faithful.settled hpulled r hr)
  · intro id hid
    rcases List.mem_cons.mp hid with rfl | hid
    · exact Nat.lt_succ_self _
    · exact Nat.lt_succ_of_lt (h.had_lt id hid)
  · intro r hr
    obtain ⟨hlt, hnot⟩ := h.local_new r hr
    refine ⟨Nat.lt_succ_of_lt hlt, fun hmem => ?_⟩
    rcases List.mem_cons.mp hmem with heq | hmem
    · omega
    · exact hnot hmem
  · exact fun r hr => (h.mem_device r hr).imp_right (List.mem_cons_of_mem _)
  · intro t r hr
    by_cases ht : t = shop
    · subst ht
      simp only [Sys.create, Sys.setServer, Function.update_self] at hr
      rcases List.mem_append.mp hr with hr | hr
      · exact List.mem_cons_of_mem _ (h.suppliers_had t r hr)
      · rw [List.mem_singleton.mp hr]
        exact List.mem_cons_self
    · simp only [Sys.create, Sys.setServer, Function.update_of_ne ht] at hr
      exact List.mem_cons_of_mem _ (h.suppliers_had t r hr)
  · have hold : ∀ t, ∀ k ∈ (S.servers t).keys, k.row.id ∈ S.nextId :: S.had ∧
        ∀ id, k.key = .supmig id → ∃ c ∈ (S.create shop key body).created, c.key = .supmig id := by
      intro t k hk
      obtain ⟨hhad, hcreated⟩ := h.keys_had t k hk
      refine ⟨List.mem_cons_of_mem _ hhad, fun id hid => ?_⟩
      obtain ⟨c, hc, hck⟩ := hcreated id hid
      exact ⟨c, List.mem_cons_of_mem _ hc, hck⟩
    intro t k hk
    by_cases ht : t = shop
    · subst ht
      simp only [Sys.create, Sys.setServer, Function.update_self] at hk
      rcases List.mem_cons.mp hk with rfl | hk
      · exact ⟨List.mem_cons_self, fun id hid => ⟨_, List.mem_cons_self, hid⟩⟩
      · exact hold t k hk
    · simp only [Sys.create, Sys.setServer, Function.update_of_ne ht] at hk
      exact hold t k hk

theorem later_create (S : Sys) (shop : Nat) (key : Key) (body : CreateBody) :
    Later S (S.create shop key body) :=
  ⟨fun _ => List.mem_cons_of_mem _, fun _ => List.mem_cons_of_mem _, fun _ => id, fun _ => id,
    Nat.le_refl _, fun _ _ => id⟩

/-- What an upload may count on: the row is local-only and the session its shop's, and a key that it was
created under is known there. -/
def Sys.Sends (S : Sys) (home : Nat) (localOnly : List SupplierRow) (shop : Nat) (key : Key)
    (body : CreateBody) : Prop :=
  ∀ id, key = .supmig id → shop = home ∧ (∃ r ∈ localOnly, r.id = id ∧ r.createBody = body) ∧
    ∀ c ∈ S.created, c.key = .supmig id → ∃ k ∈ (S.servers shop).keys, k.key = .supmig id

theorem sends_minted (S : Sys) (shop n : Nat) (body : CreateBody) :
    S.Sends home localOnly shop (.minted n) body := fun _ h => nomatch h

/-- A POST of a row that the till holds keeps what is known of the rows. -/
theorem Core.post (h : Core home localOnly S) {shop : Nat} {key : Key} {body : CreateBody} (fate : Fate)
    (hsends : S.Sends home localOnly shop key body) :
    Core home localOnly (S.post shop key body fate).1 ∧ Later S (S.post shop key body fate).1 ∧
      (S.post shop key body fate).1.requests = S.requests ∧
      (S.post shop key body fate).1.device = S.device ∧
      ∀ row, (S.post shop key body fate).2 = .ok row → row.id ∈ (S.post shop key body fate).1.had ∧
        ∀ id, key = .supmig id → ∃ c ∈ (S.post shop key body fate).1.created, c.key = .supmig id := by
  rcases S.post_cases shop key body fate with ⟨e, heq⟩ | ⟨k, hk, rfl, heq⟩ | ⟨hnone, heq⟩
  · rw [heq]
    exact ⟨h, .refl S, rfl, rfl, fun _ hrow => nomatch hrow⟩
  · rw [heq]
    refine ⟨h, .refl S, rfl, rfl, fun row hrow => ?_⟩
    cases hrow
    exact h.keys_had shop k hk
  · rw [heq]
    refine ⟨h.create fun id hid => ?_, later_create S shop key body, rfl, rfl, fun row hrow => ?_⟩
    · obtain ⟨hshop, hlocal, hknown⟩ := hsends id hid
      refine ⟨hshop, hlocal, fun c hc hck => ?_⟩
      obtain ⟨k, hk, hkk⟩ := hknown c hc (hck.trans hid)
      exact hnone k hk (hkk.trans hid.symm)
    · cases hrow
      exact ⟨List.mem_cons_self, fun id hid => ⟨_, List.mem_cons_self, hid⟩⟩

/-- So do the writes of other tills. -/
theorem Core.others (h : Core home localOnly S) (shop : Nat) (op : Others) :
    Core home localOnly (S.others shop op) ∧ Later S (S.others shop op) ∧
      (S.others shop op).requests = S.requests := by
  cases op with
  | create key body valid =>
      obtain ⟨hcore, hlater, hreq, -, -⟩ := h.post (.served valid) (sends_minted S shop key body)
      exact ⟨hcore, hlater, hreq⟩
  | update id p valid =>
      obtain ⟨hcore, hlater, hreq, -⟩ := h.patch shop id p (.served valid)
      exact ⟨hcore, hlater, hreq⟩
  | delete id => exact h.delete shop id (.served true)
  | products live =>
      refine ⟨h.setServer (h.suppliers_had shop) (fun _ => id) fun r hr => ?_, later_setServer S _ _, rfl⟩
      exact Or.inr ⟨r, hr, rfl⟩
  | forget key =>
      refine ⟨h.setServer (h.suppliers_had shop) (fun k hk => (List.mem_filter.mp hk).1) fun r hr => ?_,
        later_setServer S _ _, rfl⟩
      exact Or.inr ⟨r, hr, rfl⟩

/-! ### What happens on the device -/

/-- Other suppliers on the device, with the marker as it was or set where nothing is left to be sent. -/
theorem Core.setDevice (h : Core home localOnly S) {device : Device}
    (hmem : ∀ r ∈ device.suppliers, r ∈ localOnly ∨ r.id ∈ S.had)
    (hkept : ∀ r ∈ localOnly, r ∈ device.suppliers ∨ S.Settled r.id)
    (hsettled : device.pulled = true → ∀ r ∈ localOnly, S.Settled r.id)
    (hhome : ∀ r ∈ localOnly, r ∈ device.suppliers → device.tenantId = home ∧ device.shop = home) :
    Core home localOnly (S.setDevice device) :=
  ⟨⟨h.faithful.once, h.faithful.own, h.faithful.there, hkept, hsettled⟩, h.had_lt, h.local_new, hmem,
    h.suppliers_had, h.keys_had, hhome⟩

theorem later_setDevice {device : Device} (hgen : S.device.cacheGeneration ≤ device.cacheGeneration)
    (hsigned : S.device.cacheGeneration = device.cacheGeneration →
      device.tenantId = S.device.tenantId ∧ device.shop = S.device.shop) : Later S (S.setDevice device) := by
  refine ⟨fun _ => id, fun _ => id, fun _ => id, fun _ => id, hgen, fun heq t ht => ?_⟩
  obtain ⟨htenant, hshop⟩ := hsigned heq
  exact ⟨htenant.trans ht.1, hshop.trans ht.2⟩

/-- Replacing the rows of the till keeps those that were not sent. -/
theorem Core.replace (h : Core home localOnly S) {startWrite startCache : Nat}
    {rows unsent : List SupplierRow} {firstPull : Bool} (hhad : S.AllHad rows)
    (hholds : S.Holds home localOnly startCache unsent) :
    Core home localOnly (S.replace startWrite startCache rows unsent firstPull) ∧
      Later S (S.replace startWrite startCache rows unsent firstPull) ∧
      (S.replace startWrite startCache rows unsent firstPull).requests = S.requests := by
  unfold Sys.replace
  split
  case isTrue => exact ⟨h, .refl S, rfl⟩
  case isFalse hcurrent =>
    split
    case isFalse => exact ⟨h, .refl S, rfl⟩
    case isTrue =>
      have hgen : startCache = S.device.cacheGeneration := by
        by_contra hne
        exact hcurrent (Or.inl (Ne.symm hne))
      refine ⟨h.setDevice ?_ ?_ ?_ ?_, later_setDevice (Nat.le_refl _) fun _ => ⟨rfl, rfl⟩, rfl⟩
      · intro r hr
        rcases List.mem_append.mp hr with hr | hr
        · exact Or.inr (hhad r hr)
        · exact Or.inl (hholds.sub r hr)
      · exact fun r hr => (hholds.all hgen r hr).imp_left (List.mem_append_right rows)
      · intro hpulled r hr
        rcases Bool.or_eq_true_iff.mp hpulled with hpulled | hfirst
        · exact h.faithful.settled hpulled r hr
        · -- The marker is set by this pull, so it left nothing unsent.
          have hnil : unsent = [] := List.isEmpty_iff.mp (Bool.and_eq_true_iff.mp hfirst).2
          rcases hholds.all hgen r hr with hmem | hs
          · rw [hnil] at hmem
            cases hmem
          · exact hs
      · intro r hr hmem
        rcases List.mem_append.mp hmem with hmem | hmem
        · exact absurd (hhad r hmem) (h.local_new r hr).2
        · exact hholds.home hgen r hmem

/-- The answer of a write is applied to the rows it belongs to. -/
theorem Core.applyTurn (h : Core home localOnly S) (startCache : Nat) (w : CacheWrite)
    (hhad : ∀ r, w = .put r → r.id ∈ S.had) :
    Core home localOnly (S.applyTurn startCache w) ∧ Later S (S.applyTurn startCache w) ∧
      (S.applyTurn startCache w).requests = S.requests := by
  unfold Sys.applyTurn
  split
  case isFalse => exact ⟨h, .refl S, rfl⟩
  case isTrue =>
    have hlater : ∀ d : Device, d.tenantId = S.device.tenantId → d.shop = S.device.shop →
        d.cacheGeneration = S.device.cacheGeneration →
        Later S { S with device := d, removed := Sys.CacheWrite.removed w ++ S.removed } := by
      intro d htenant hshop hgen
      refine ⟨fun _ => id, fun _ => id, fun _ => id, fun _ => List.mem_append_right _, Nat.le_of_eq hgen.symm, ?_⟩
      exact fun _ t ht => ⟨htenant.trans ht.1, hshop.trans ht.2⟩
    -- A local-only row stays, unless it is the one that its user deletes.
    have hmem : ∀ r ∈ Sys.CacheWrite.suppliers S.device.suppliers w,
        r ∈ S.device.suppliers ∨ r.id ∈ S.had := by
      intro r hr
      cases w with
      | put row =>
          rcases List.mem_append.mp hr with hr | hr
          · exact Or.inl (List.mem_filter.mp hr).1
          · rw [List.mem_singleton.mp hr]
            exact Or.inr (hhad row rfl)
      | drop id => exact Or.inl (List.mem_filter.mp hr).1
    have hstays : ∀ r ∈ localOnly, r ∈ S.device.suppliers →
        r ∈ Sys.CacheWrite.suppliers S.device.suppliers w ∨ r.id ∈ Sys.CacheWrite.removed w := by
      intro r hr hold
      cases w with
      | put row =>
          have hne : r.id ≠ row.id := fun heq => (h.local_new r hr).2 (heq ▸ hhad row rfl)
          exact Or.inl (List.mem_append_left _ (List.mem_filter.mpr ⟨hold, by simpa using hne⟩))
      | drop id =>
          by_cases heq : r.id = id
          · exact Or.inr (List.mem_singleton.mpr heq)
          · exact Or.inl (List.mem_filter.mpr ⟨hold, by simpa using heq⟩)
    have hl := hlater { S.device with
      suppliers := Sys.CacheWrite.suppliers S.device.suppliers w
      writeGen := S.device.writeGen + 1 } rfl rfl rfl
    refine ⟨⟨⟨h.faithful.once, h.faithful.own, h.faithful.there, ?_, ?_⟩, h.had_lt, h.local_new, ?_,
      h.suppliers_had, h.keys_had, ?_⟩, hl, rfl⟩
    · intro r hr
      rcases h.faithful.kept r hr with hold | hs
      · exact (hstays r hr hold).imp_right fun hrem => Or.inr (Or.inr (List.mem_append_left _ hrem))
      · exact Or.inr (hs.later hl)
    · exact fun hpulled r hr => (h.faithful.settled hpulled r hr).later hl
    · intro r hr
      rcases hmem r hr with hold | hhad
      · exact h.mem_device r hold
      · exact Or.inr hhad
    · intro r hr hnew
      rcases hmem r hnew with hold | hhad
      · exact h.home r hr hold
      · exact absurd hhad (h.local_new r hr).2

/-! ### Turns -/

/-- An upload leaves its row settled, or asks for it to be kept. -/
theorem Core.sendLocalOnly (h : Core home localOnly S) {l : SupplierRow} (o : Outcome)
    (hsends : S.Sends home localOnly S.device.shop (.supmig l.id) l.createBody) :
    Core home localOnly (S.sendLocalOnly l o).1 ∧ Later S (S.sendLocalOnly l o).1 ∧
      (S.sendLocalOnly l o).1.device = S.device ∧
      (∀ row ∈ (S.sendLocalOnly l o).2.1, row.id ∈ (S.sendLocalOnly l o).1.had) ∧
      ((S.sendLocalOnly l o).2.2 = false → (S.sendLocalOnly l o).1.Settled l.id) := by
  obtain ⟨hcore, hlater, -, hdevice, hrow⟩ := h.post o.fate hsends
  unfold Sys.sendLocalOnly
  generalize S.post S.device.shop (.supmig l.id) l.createBody o.fate = result at hcore hlater hdevice hrow ⊢
  obtain ⟨S', reply⟩ := result
  dsimp only at hcore hlater hdevice hrow ⊢
  split
  · exact ⟨hcore, hlater, hdevice, fun _ hr => (by cases hr), fun hkeep => (by cases hkeep)⟩
  · cases reply with
    | ok row =>
        obtain ⟨hhad, hcreated⟩ := hrow row rfl
        refine ⟨hcore, hlater, hdevice, fun r hr => ?_, fun _ => Or.inl (hcreated l.id rfl)⟩
        cases hr
        exact hhad
    | error statusCode =>
        dsimp only
        split
        · have hrefused : Later S' { S' with refused := l.id :: S'.refused } :=
            ⟨fun _ => id, fun _ => id, fun _ => List.mem_cons_of_mem _, fun _ => id, Nat.le_refl _,
              fun _ _ => id⟩
          refine ⟨⟨⟨hcore.faithful.once, hcore.faithful.own, hcore.faithful.there, ?_, ?_⟩, hcore.had_lt,
            hcore.local_new, hcore.mem_device, hcore.suppliers_had, hcore.keys_had, hcore.home⟩,
            hlater.trans hrefused, hdevice, fun _ hr => (by cases hr), fun _ => ?_⟩
          · exact fun r hr => (hcore.faithful.kept r hr).imp_right fun hs => hs.later hrefused
          · exact fun hpulled r hr => (hcore.faithful.settled hpulled r hr).later hrefused
          · exact Or.inr (Or.inl List.mem_cons_self)
        · exact ⟨hcore, hlater, hdevice, fun _ hr => (by cases hr), fun hkeep => (by cases hkeep)⟩

/-- The row at the head of `todo` may be sent. -/
theorem Sys.PullCalm.sends {startCache : Nat} {rows unsent todo : List SupplierRow} {l : SupplierRow}
    (h : S.PullCalm startCache (.send rows unsent (l :: todo)))
    (hholds : S.Holds home localOnly startCache (unsent ++ l :: todo)) :
    S.Sends home localOnly S.device.shop (.supmig l.id) l.createBody := by
  obtain ⟨hgen, hknown⟩ := h
  have hmem : l ∈ unsent ++ l :: todo := List.mem_append_right _ List.mem_cons_self
  rintro id hid
  cases hid
  exact ⟨(hholds.home hgen.symm l hmem).2, ⟨l, hholds.sub l hmem, rfl, rfl⟩, hknown⟩

/-- **Every turn of a pull.** -/
theorem Core.pullTurn (h : Core home localOnly S) {startWrite startCache : Nat} {stage : PullStage}
    (hle : startCache ≤ S.device.cacheGeneration) (hfits : S.FitsPull home localOnly startCache stage)
    (hcalm : S.PullCalm startCache stage) (o : Outcome) :
    Core home localOnly (S.pullTurn startWrite startCache o stage).1 ∧
      Later S (S.pullTurn startWrite startCache o stage).1 ∧
      (S.pullTurn startWrite startCache o stage).1.Fits home localOnly
        (S.pullTurn startWrite startCache o stage).2 := by
  match stage with
  | .get =>
      match o with
      | ⟨.served _, false⟩ =>
          refine ⟨h, .refl S, hle, fun r hr => ?_⟩
          exact h.suppliers_had _ r (List.mem_filter.mp hr).1
      | ⟨.served _, true⟩ | ⟨.fails _, _⟩ => exact ⟨h, .refl S, trivial⟩
  -- in the shop of the marker all that is local-only has been sent before
  | .marker rows =>
      simp only [Sys.pullTurn]
      split
      case isFalse => exact ⟨h, .refl S, hle, hfits⟩
      case isTrue hpulled =>
        have hholds : S.Holds home localOnly startCache [] :=
          ⟨fun _ hl => (nomatch hl), fun _ l hl => Or.inr (h.faithful.settled hpulled l hl),
            fun _ _ hl => (nomatch hl)⟩
        exact ⟨h, .refl S, hle, hfits, hholds⟩
  | .list rows =>
      refine ⟨h, .refl S, hle, hfits, fun l hl => ?_, fun _ l hl => ?_, fun _ l hl => ?_⟩
      · -- What a server has had is in the reply, so what is not there is local-only.
        obtain ⟨hmem, hnot⟩ := List.mem_filter.mp hl
        rcases h.mem_device l hmem with hlocal | hhad
        · exact hlocal
        · exact absurd (hcalm l hmem hhad) (of_decide_eq_true hnot)
      · rcases h.faithful.kept l hl with hmem | hs
        · refine Or.inl (List.mem_filter.mpr ⟨hmem, decide_eq_true fun hid => ?_⟩)
          obtain ⟨r, hr, hrid⟩ := List.mem_map.mp hid
          exact (h.local_new l hl).2 (hrid ▸ hfits r hr)
        · exact Or.inr hs
      · obtain ⟨hmem, hnot⟩ := List.mem_filter.mp hl
        rcases h.mem_device l hmem with hlocal | hhad
        · exact h.home l hlocal hmem
        · exact absurd (hcalm l hmem hhad) (of_decide_eq_true hnot)
  | .send rows unsent [] =>
      obtain ⟨hhad, hholds⟩ := hfits
      rw [List.append_nil] at hholds
      exact ⟨h, .refl S, hle, hhad, hholds⟩
  -- one row is sent; it is either created now or kept for the next pull
  | .send rows unsent (l :: todo) =>
      obtain ⟨hhad, hholds⟩ := hfits
      obtain ⟨hcore, hlater, hdevice, hcreated, hsettled⟩ := h.sendLocalOnly o (hcalm.sends hholds)
      have hholds' := hholds.later hle hlater
      simp only [Sys.pullTurn]
      generalize S.sendLocalOnly l o = result at hcore hlater hdevice hcreated hsettled hholds' ⊢
      obtain ⟨S', created, keep⟩ := result
      dsimp only at hcore hlater hdevice hcreated hsettled hholds' ⊢
      refine ⟨hcore, hlater, Nat.le_trans hle hlater.gen, fun r hr => ?_, ?_⟩
      · rcases List.mem_append.mp hr with hr | hr
        · exact hlater.had _ (hhad r hr)
        · exact hcreated r (Option.mem_toList.mp hr)
      · cases keep with
        | true => simpa using hholds'
        | false =>
            have hsub : ∀ x ∈ unsent ++ todo, x ∈ unsent ++ l :: todo := by
              intro x hx
              rcases List.mem_append.mp hx with hx | hx
              · exact List.mem_append_left _ hx
              · exact List.mem_append_right _ (List.mem_cons_of_mem l hx)
            refine ⟨fun x hx => hholds'.sub x (hsub x hx), fun hgen x hx => ?_,
              fun hgen x hx => hholds'.home hgen x (hsub x hx)⟩
            rcases hholds'.all hgen x hx with hmem | hs
            · rcases List.mem_append.mp hmem with hmem | hmem
              · exact Or.inl (List.mem_append_left _ hmem)
              · rcases List.mem_cons.mp hmem with rfl | hmem
                · exact Or.inr (hsettled rfl)
                · exact Or.inl (List.mem_append_right _ hmem)
            · exact Or.inr hs
  -- the device's rows become those of the reply and what is still to be sent
  | .write rows unsent firstPull =>
      obtain ⟨hcore, hlater, -⟩ := h.replace hfits.1 hfits.2
      exact ⟨hcore, hlater, trivial⟩

/-- **Every turn of a write.** -/
theorem Core.writeTurn (h : Core home localOnly S) {startCache : Nat} {call : WriteCall}
    (hle : startCache ≤ S.device.cacheGeneration) (o : Outcome) :
    Core home localOnly (S.writeTurn startCache o call).1 ∧ Later S (S.writeTurn startCache o call).1 ∧
      (S.writeTurn startCache o call).1.Fits home localOnly (S.writeTurn startCache o call).2 := by
  have hput : ∀ {S' : Sys} {row : SupplierRow}, Later S S' → row.id ∈ S'.had →
      S'.Fits home localOnly (if o.lost = true then .over else .apply startCache (.put row)) := by
    intro S' row hlater hhad
    split
    · trivial
    · exact ⟨Nat.le_trans hle hlater.gen, hhad⟩
  cases call with
  | add key body =>
      obtain ⟨hcore, hlater, -, -, hrow⟩ := h.post o.fate (sends_minted S S.device.shop key body)
      simp only [Sys.writeTurn]
      generalize S.post S.device.shop (.minted key) body o.fate = result at hcore hlater hrow ⊢
      obtain ⟨S', _ | row⟩ := result
      · exact ⟨hcore, hlater, trivial⟩
      · exact ⟨hcore, hlater, hput hlater (hrow row rfl).1⟩
  | update id p =>
      obtain ⟨hcore, hlater, -, hrow⟩ := h.patch S.device.shop id p o.fate
      simp only [Sys.writeTurn]
      generalize S.patch S.device.shop id p o.fate = result at hcore hlater hrow ⊢
      obtain ⟨S', _ | row⟩ := result
      · exact ⟨hcore, hlater, trivial⟩
      · exact ⟨hcore, hlater, hput hlater (hrow row rfl)⟩
  | delete id =>
      obtain ⟨hcore, hlater, -⟩ := h.delete S.device.shop id o.fate
      simp only [Sys.writeTurn]
      generalize S.delete S.device.shop id o.fate = result at hcore hlater ⊢
      obtain ⟨S', _ | _⟩ := result
      · exact ⟨hcore, hlater, trivial⟩
      · refine ⟨hcore, hlater, ?_⟩
        dsimp only
        split
        · trivial
        · exact Nat.le_trans hle hlater.gen

/-- Every turn of a request keeps what is known. -/
theorem Core.turn (h : Core home localOnly S) {r : Request} (hfits : S.Fits home localOnly r) (o : Outcome)
    (hcalm : ∀ startWrite startCache stage, r = .pull startWrite startCache stage →
      S.PullCalm startCache stage) :
    Core home localOnly (S.turn o r).1 ∧ Later S (S.turn o r).1 ∧
      (S.turn o r).1.Fits home localOnly (S.turn o r).2 := by
  match r, hfits with
  | .pull startWrite startCache stage, hfits => exact h.pullTurn hfits.1 hfits.2 (hcalm _ _ _ rfl) o
  | .write startCache call, hfits => exact h.writeTurn hfits o
  | .apply startCache (.put row), hfits =>
      obtain ⟨hcore, hlater, -⟩ := h.applyTurn startCache (.put row) fun r hr => by
        cases hr
        exact hfits.2
      exact ⟨hcore, hlater, trivial⟩
  | .apply startCache (.drop id), _ =>
      obtain ⟨hcore, hlater, -⟩ := h.applyTurn startCache (.drop id) fun _ hr => nomatch hr
      exact ⟨hcore, hlater, trivial⟩
  | .over, _ => exact ⟨h, .refl S, trivial⟩

/-- Other requests in progress. -/
theorem Core.withRequests (h : Core home localOnly S) (requests : List Request) :
    Core home localOnly { S with requests } :=
  ⟨⟨h.faithful.once, h.faithful.own, h.faithful.there, h.faithful.kept, h.faithful.settled⟩, h.had_lt,
    h.local_new, h.mem_device, h.suppliers_had, h.keys_had, h.home⟩

theorem later_withRequests (S : Sys) (requests : List Request) : Later S { S with requests } :=
  ⟨fun _ => id, fun _ => id, fun _ => id, fun _ => id, Nat.le_refl _, fun _ _ => id⟩

theorem Inv.step (h : Inv home localOnly S) (hcore : Core home localOnly S') (hlater : Later S S')
    {requests : List Request} {r' : Request} (hmem : ∀ r ∈ requests, r ∈ S.requests ∨ r = r')
    (hfits : S'.Fits home localOnly r') : Inv home localOnly { S' with requests } := by
  refine ⟨hcore.withRequests requests, fun r hr => ?_⟩
  rcases hmem r hr with hr | rfl
  · exact ((h.fits r hr).later hlater).later (later_withRequests S' requests)
  · exact hfits.later (later_withRequests S' requests)

theorem Inv.begin (h : Inv home localOnly S) {r : Request} (hfits : S.Fits home localOnly r) :
    Inv home localOnly (S.begin r) :=
  h.step h.core (.refl S) (fun _ hx => (List.mem_append.mp hx).imp_right List.mem_singleton.mp) hfits

/-- A till that enters a shop starts from nothing of another. -/
theorem Inv.enterShop (h : Inv home localOnly S) (t : Nat) (hcalm : S.Calm (.enterShop t)) :
    Inv home localOnly (S.enterShop t) := by
  unfold Sys.enterShop
  split
  case isTrue => exact h
  case isFalse hne =>
    have hdone : ∀ r ∈ localOnly, S.Settled r.id := by
      intro r hr
      rcases h.core.faithful.kept r hr with hmem | hs
      · rcases hcalm.resolve_left hne r hmem with hhad | hs
        · exact absurd hhad (h.core.local_new r hr).2
        · exact hs
      · exact hs
    refine ⟨h.core.setDevice (fun _ hr => nomatch hr) (fun r hr => Or.inr (hdone r hr))
      (fun hpulled => nomatch hpulled) (fun _ _ hmem => nomatch hmem), fun r hr => ?_⟩
    refine (h.fits r hr).later (later_setDevice (Nat.le_succ _) fun heq => ?_)
    exact absurd heq (Nat.ne_of_lt (Nat.lt_succ_self _))

theorem Inv.beginSession (h : Inv home localOnly S) : Inv home localOnly S.beginSession := by
  unfold Sys.beginSession
  split
  case isTrue => exact h
  case isFalse hne =>
    refine ⟨h.core.setDevice h.core.mem_device h.core.faithful.kept h.core.faithful.settled ?_,
      fun r hr => ?_⟩
    · intro r hr hmem
      obtain ⟨htenant, hshop⟩ := h.core.home r hr hmem
      exact absurd (hshop.trans htenant.symm) hne
    · refine (h.fits r hr).later (later_setDevice (Nat.le_succ _) fun heq => ?_)
      exact absurd heq (Nat.ne_of_lt (Nat.lt_succ_self _))

/-- Every move keeps the invariant. -/
theorem Inv.move (h : Inv home localOnly S) (m : Move) (hcalm : S.Calm m) :
    Inv home localOnly (S.move m) := by
  cases m with
  | pull => exact h.begin ⟨Nat.le_refl _, trivial⟩
  | write call => exact h.begin (Nat.le_refl _)
  | turn i o =>
      cases hr : S.requests[i]? with
      | none => simpa only [Sys.move, hr] using h
      | some r =>
          simp only [Sys.move, hr]
          have hfits := h.fits r (List.mem_of_getElem? hr)
          obtain ⟨hcore, hlater, hnew⟩ := h.core.turn hfits o fun startWrite startCache stage heq => by
            simpa only [Sys.Calm, hr, heq] using hcalm
          exact h.step hcore hlater (fun x hx => List.mem_or_eq_of_mem_set hx) hnew
  | stop i =>
      have hmem : ∀ x ∈ S.requests.set i .over, x ∈ S.requests ∨ x = .over :=
        fun _ hx => List.mem_or_eq_of_mem_set hx
      exact h.step h.core (.refl S) hmem trivial
  | restart =>
      have hdevice : Core home localOnly
          (S.setDevice { S.device with writeGen := 0, cacheGeneration := 0 }) :=
        h.core.setDevice h.core.mem_device h.core.faithful.kept h.core.faithful.settled h.core.home
      exact ⟨hdevice.withRequests [], fun _ hr => nomatch hr⟩
  | enterShop t => exact h.enterShop t hcalm
  | beginSession => exact h.beginSession
  | others shop op =>
      obtain ⟨hcore, hlater, hreq⟩ := h.core.others shop op
      refine ⟨hcore, fun r hr => ?_⟩
      rw [Sys.move, hreq] at hr
      exact (h.fits r hr).later hlater

theorem Inv.run (h : Inv home localOnly S) {moves : List Move} (hcalm : CalmRun S moves) :
    Inv home localOnly (S.run moves) := by
  induction moves generalizing S with
  | nil => exact h
  | cons m ms ih => exact ih (h.move m hcalm.1) hcalm.2

end

/-! ## The first pull -/

/-- The invariant holds at the start. -/
theorem Start.inv (start : Start) : Inv start.shop start.localOnly start.sys := by
  refine ⟨⟨⟨?_, ?_, ?_, ?_, ?_⟩, start.had_lt, start.localOnly_new, start.mem_device, start.suppliers_had,
    ?_, fun _ _ _ => start.signedIn⟩, ?_⟩
  · intro id
    simp [start.created_nil]
  · intro c hc
    simp [start.created_nil] at hc
  · intro c hc
    simp [start.created_nil] at hc
  · exact fun r hr => Or.inl (start.localOnly_mem r hr)
  · intro hpulled
    simp [start.unpulled] at hpulled
  · intro t k hk
    obtain ⟨hhad, hkey⟩ := start.keys_had t k hk
    exact ⟨hhad, fun id hid => absurd hid (hkey id)⟩
  · intro r hr
    simp [start.idle] at hr

def Start.run (start : Start) (moves : List Move) : Sys := start.sys.run moves

/-- In every calm run the local-only suppliers come to the server once each, and nothing else does. -/
theorem first_pull_faithful (start : Start) (moves : List Move) (h : CalmRun start.sys moves) :
    (start.run moves).Faithful start.shop start.localOnly :=
  (start.inv.run h).core.faithful

/-! ## Runs on a device with one supplier of its own -/

def ownSupplier : SupplierRow := ⟨1, "P", "own", 8500, 0⟩

/-- The server has another one, with the id 0. -/
def oneOfEach : Start where
  sys :=
    { servers := fun _ => ⟨["P"], [⟨0, "P", "server's", 100, 0⟩], []⟩
      nextId := 2
      device := ⟨0, 0, [ownSupplier], false, 0, 0⟩
      requests := [], had := [0], created := [], deleted := [], refused := [], removed := [] }
  shop := 0
  localOnly := [ownSupplier]
  signedIn := ⟨rfl, rfl⟩
  unpulled := rfl
  idle := rfl
  mem_device _ hr := Or.inl hr
  localOnly_mem _ hr := hr
  localOnly_new := by decide
  localOnly_inj := by decide
  had_lt := by decide
  suppliers_had _ r hr := by
    rw [List.mem_singleton.mp hr]
    exact List.mem_cons_self
  keys_had _ _ hk := nomatch hk
  created_nil := rfl

def served : Outcome := ⟨.served true, false⟩

def unavailable : Outcome := ⟨.fails 503, false⟩

/-- A pull whose upload is answered so. -/
def pullWith (i : Nat) (o : Outcome) : List Move :=
  .pull :: List.replicate 3 (.turn i served) ++ [.turn i o, .turn i served, .turn i served]

/-- The server is not available at first, and a supplier is added before the next pull. -/
def retried : List Move :=
  pullWith 0 unavailable ++ [.write (.add 7 ⟨"P", "added", 100, 0⟩), .turn 1 served, .turn 1 served]
    ++ pullWith 2 served

theorem first_pull_faithful_of_retried :
    (oneOfEach.run retried).Faithful oneOfEach.shop oneOfEach.localOnly ∧
      (oneOfEach.run retried).device.pulled = true ∧
      (oneOfEach.run retried).device.suppliers.map (·.id) = [0, 2, 3] :=
  ⟨first_pull_faithful oneOfEach retried (by decide +kernel), by decide +kernel, by decide +kernel⟩

/-- The upload fails once, and before the next pull another device deletes the server's supplier. -/
def deletedMeanwhile : List Move :=
  pullWith 0 unavailable ++ [.others 0 (.delete 0)] ++ pullWith 1 served

/-- The next pull creates the deleted supplier again. -/
theorem deleted_supplier_created_again : ¬∀ (start : Start) (moves : List Move),
    (start.run moves).Faithful start.shop start.localOnly := by
  intro h
  obtain ⟨-, r, hr, hid, -⟩ := (h oneOfEach deletedMeanwhile).own
    ⟨0, .supmig 0, ⟨2, "P", "server's", 100, 0⟩⟩ (by decide +kernel) 0 rfl
  rw [List.mem_singleton.mp hr] at hid
  cases hid

end Till.SupplierPull

import SrisurartPos.Import.Tombstones
import SrisurartPos.Outcome

/-! # The writer of a shop's file (`tenant-import.service.ts`)

The import writes a file store by store. Here is what it writes of ids and references: every id is read as a uuid, and
the database looks each reference up that has a foreign key. -/

namespace Import.References

open Import.PaymentAccounts Import.Tombstones Dyn Server.Ids Server.PaymentAccounts

/-! ## The tables -/

structure ProductRow where
  partNo : String
  name : String
  nameTh : String
  brand : String
  live : Bool
  deriving DecidableEq, Repr

structure PersonRow where
  code : String
  name : String
  live : Bool
  deriving DecidableEq, Repr

structure SaleRefs where
  customerId : Option String
  mechanicId : Option String
  paymentAccountId : Option String
  deriving DecidableEq, Repr

structure ReturnRefs where
  saleId : String
  customerId : Option String
  mechanicId : Option String
  deriving DecidableEq, Repr

structure MovementRefs where
  productId : String
  refId : Option String
  deriving DecidableEq, Repr

/-- Rows, and the lines under them. -/
structure Papers (κ ν μ : Type) where
  rows : Table String ν
  lines : Table κ μ

abbrev LineKey := String × Nat

/-- The tables of a shop. Of a row that refers to others there are its references: of a price row its product, of a
payment its mechanic, of a quote the bill that it became, of a line its product, of an entry its shift. -/
structure Books where
  products : Table String ProductRow
  suppliers : Table String String
  customers : Table String PersonRow
  mechanics : Table String PersonRow
  accounts : Table String AccountRow
  sales : Papers LineKey SaleRefs String
  returns : Papers LineKey ReturnRefs String
  creditPayments : Table String String
  purchaseOrders : Papers LineKey Unit Unit
  quotes : Papers LineKey (Option String) (Option String)
  movements : Table String MovementRefs
  shifts : Papers String Unit String
  parked : Table String Unit

def Papers.empty {κ ν μ : Type} : Papers κ ν μ := ⟨Table.empty, Table.empty⟩

def Books.empty : Books where
  products := Table.empty
  suppliers := Table.empty
  customers := Table.empty
  mechanics := Table.empty
  accounts := Table.empty
  sales := Papers.empty
  returns := Papers.empty
  creditPayments := Table.empty
  purchaseOrders := Papers.empty
  quotes := Papers.empty
  movements := Table.empty
  shifts := Papers.empty
  parked := Table.empty

inductive ImportError where
  | invalidId (field : String) (count : Nat)
  | badRequest (message : String)
  /-- `TENANT_NOT_EMPTY` -/
  | tenantNotEmpty (table : String)
  /-- a field of `null` is read, or what is no list is gone through -/
  | typeError
  /-- a text that is no uuid -/
  | invalidText
  | checkViolation
  | notNullViolation
  | foreignKeyViolation
  | uniqueViolation
  deriving DecidableEq, Repr

/-! ## Values -/

/-- How the database reads a uuid: at least as it is written, and no `undefined`. -/
structure UuidInput where
  read : String → Option String
  read_uuid : ∀ s, isUuid s = true → read s = some s
  read_undefined : read "undefined" = none

variable {D : Type} (host : Host D) (below : Dyn D → Nat) (pg : UuidInput)

/-- `store || []`, as a loop goes through it. -/
def elements (v : Dyn D) : Except ImportError (List (Dyn D)) :=
  if isFalsy host v = true then .ok []
  else
    match v with
    | .array l => .ok l
    | .text s  => .ok (s.toList.map fun c => .text (String.ofList [c]))
    | _        => .error .typeError

/-- `v || []`, as a loop with an index goes through it: `below n` are the indices under the length `n`. A letter has
no fields, whichever it is. -/
def indexed : Dyn D → List (Dyn D)
  | .array l  => l
  | .text s   => s.toList.flatMap fun c => List.replicate (if c.toNat < 0x10000 then 1 else 2) (.text s)
  | .object o => (List.range (below (get o "length"))).map fun i => get o (toString i)
  | _         => []

/-- What is no object has no fields. -/
def asRow : Dyn D → Except ImportError (Object D)
  | .null     => .error .typeError
  | .object o => .ok o
  | _         => .ok []

/-- `String(o.k || o.k' || default)` -/
def orText (o : Object D) (ks : List String) (default : String) : String :=
  match (ks.filterMap fun k => o.lookup k).find? fun v => !isFalsy host v with
  | some v => host.text (some v)
  | none   => default

/-- `o.k || o.k'` -/
def orValue (o : Object D) (k k' : String) : Option (Dyn D) :=
  if isFalsy host (get o k) = true then o.lookup k' else o.lookup k

/-- `o.k || o.k' ? String(o.k || o.k') : null` -/
def orId (o : Object D) (k k' : String) : Option String :=
  let v := orValue host o k k'
  if isFalsy host (v.getD .null) = true then none else some (host.text v)

def castUuid (s : String) : Except ImportError String :=
  match pg.read s with
  | some id => .ok id
  | none    => .error .invalidText

def castRef : Option String → Except ImportError (Option String)
  | none   => .ok none
  | some s => (castUuid pg s).map some

/-- A column that is `NOT NULL`. -/
def requiredRef : Option String → Except ImportError String
  | none   => .error .notNullViolation
  | some s => castUuid pg s

/-! ## Rows -/

section
variable {κ ν μ : Type} [DecidableEq κ]

/-- `ON CONFLICT … DO NOTHING`, and the foreign keys of the row. -/
def insertNew (t : Table κ ν) (k : κ) (row : ν) (found : Bool) : Except ImportError (Table κ ν) :=
  if (t.get k).isSome = true then .ok t
  else if found = true then .ok (t.insert k row) else .error .foreignKeyViolation

/-- Without `ON CONFLICT`. -/
def insertTombstone (t : Table String ν) (id : String) (row : ν) : Except ImportError (Table String ν) := do
  let id ← castUuid pg id
  if (t.get id).isSome = true then .error .uniqueViolation else .ok (t.insert id row)

def writeRow (columns : Object D → Except ImportError ν) (found : ν → Bool) (t : Table String ν) (r : Object D) :
    Except ImportError (Table String ν) := do
  let id ← castUuid pg (idText host r)
  let row ← columns r
  insertNew t id row (found row)

/-- How the lines of a row are stored: the field they are in, the key and the columns of the `n`-th one, and the row
that it is under. -/
structure LineKind (D κ μ : Type) where
  field : String
  key : String → Nat → Object D → κ
  columns : String → Object D → Except ImportError μ
  parent : κ → μ → String

def writeLine (kind : LineKind D κ μ) (id : String) (p : Papers κ ν μ) (e : Dyn D × Nat) :
    Except ImportError (Papers κ ν μ) := do
  let item ← asRow e.1
  let line ← kind.columns id item
  let key := kind.key id (e.2 + 1) item
  let lines ← insertNew p.lines key line (p.rows.get (kind.parent key line)).isSome
  return { p with lines }

def writePaper (columns : Object D → Except ImportError ν) (found : ν → Bool) (kind : LineKind D κ μ)
    (p : Papers κ ν μ) (r : Object D) : Except ImportError (Papers κ ν μ) := do
  let rows ← writeRow host pg columns found p.rows r
  (indexed below (get r kind.field)).zipIdx.foldlM (writeLine kind (idText host r)) { p with rows }

end

def eachRow {σ : Type} (write : σ → Object D → Except ImportError σ) (s : σ) (v : Dyn D) : Except ImportError σ := do
  let l ← elements host v
  l.foldlM (fun s v => do write s (← asRow v)) s

/-! ## Columns -/

def productColumns (p : Object D) : ProductRow :=
  let name := orText host p ["name"] ""
  { partNo := orText host p ["partNo", "part_no"] (idText host p)
    name
    nameTh := orText host p ["nameTH", "name_th"] name
    brand := orText host p ["brand"] "ทั่วไป"
    live := (either p "deletedAt" "deleted_at").isNull }

def personColumns (code : String) (c : Object D) : PersonRow where
  code := orText host c ["code"] (code ++ idText host c)
  name := orText host c ["name"] ""
  live := (either c "deletedAt" "deleted_at").isNull

def paymentMethodQr : String := "โอน/QR"

/-- The account of a bill: where the file has it, and where the bill was paid through one. -/
def accountRef (fileAccounts : List String) (s : Object D) : Option String :=
  (fieldId host s "paymentAccountId" "payment_account_id").filter fun id =>
    id ∈ fileAccounts && orText host s ["paymentMethod", "payment_method"] "เงินสด" = paymentMethodQr

def saleColumns (fileAccounts : List String) (s : Object D) : Except ImportError SaleRefs := do
  let customerId ← castRef pg (customerId host s)
  let mechanicId ← castRef pg (mechanicId host s)
  let paymentAccountId ← castRef pg (accountRef host fileAccounts s)
  return { customerId, mechanicId, paymentAccountId }

def returnColumns (r : Object D) : Except ImportError ReturnRefs := do
  let customerId ← castRef pg (customerId host r)
  let mechanicId ← castRef pg (mechanicId host r)
  let saleId ← requiredRef pg (saleId host r)
  return { saleId, customerId, mechanicId }

def quoteColumns (q : Object D) : Except ImportError (Option String) :=
  castRef pg (orId host q "convertedSaleId" "converted_sale_id")

def movementColumns (m : Object D) : Except ImportError MovementRefs := do
  let refId ← castRef pg (orId host m "refId" "ref_id")
  let productId ← requiredRef pg (productId host m)
  return { productId, refId }

/-- Lines with a number, of a bill and of a credit note. -/
def productLine : LineKind D LineKey String where
  field := "items"
  key id n _ := (id, n)
  columns _ item := castUuid pg (host.text (orValue host item "productId" "product_id"))
  parent k _ := k.1

def orderLine : LineKind D LineKey Unit where
  field := "items"
  key id n _ := (id, n)
  columns _ _ := .ok ()
  parent k _ := k.1

def quoteLine : LineKind D LineKey (Option String) where
  field := "items"
  key id n _ := (id, n)
  columns _ item := castRef pg (orId host item "productId" "product_id")
  parent k _ := k.1

/-- An entry has an id of its own. -/
def entryLine : LineKind D String String where
  field := "entries"
  key _ _ entry := idText host entry
  columns shift entry := (castUuid pg (idText host entry)).map fun _ => shift
  parent _ shift := shift

/-! ## The whole file -/

def writeSupplier (products : Table String ProductRow) (droppedSuppliers : List String) (t : Table String String)
    (sup : Object D) : Except ImportError (Table String String) :=
  if idText host sup ∈ droppedSuppliers then .ok t
  else writeRow host pg (fun sup => requiredRef pg (productId host sup)) (fun p => (products.get p).isSome) t sup

def productEntry (t : ProductTombstone) : String × ProductRow :=
  (t.id, ⟨t.partNo, t.name, t.nameTh, tombstoneMark, false⟩)

def personEntry (t : PersonTombstone) : String × PersonRow := (t.id, ⟨t.code, t.name, false⟩)

/-- The rows of a store, and the tombstones behind them. -/
def withTombstones {ν : Type} (columns : Object D → ν) (tombstones : List (String × ν)) (t : Table String ν)
    (v : Dyn D) : Except ImportError (Table String ν) := do
  let t ← eachRow host (writeRow host pg (fun r => .ok (columns r)) fun _ => true) t v
  tombstones.foldlM (fun t e => insertTombstone pg t e.1 e.2) t

def ofAccounts : PaymentAccounts.ImportError → ImportError
  | .invalidId          => .invalidId "paymentAccounts.id" 1
  | .badRequest message => .badRequest message
  | .typeError          => .typeError
  | .invalidText        => .invalidText
  | .checkViolation     => .checkViolation
  | .uniqueViolation    => .uniqueViolation

/-- A list that is not empty replaces the shop's accounts: they are deleted, where no bill names one. -/
def replaceAccounts (now : Time) (s : Books) (v : Dyn D) : Except ImportError (Table String AccountRow) :=
  if PaymentAccounts.elements v = [] then .ok s.accounts
  else if (s.sales.rows.rows.any fun e => e.2.paymentAccountId.isSome) = true then .error .foreignKeyViolation
  else ((PaymentAccounts.elements v).foldlM (insertOne host now) Table.empty).mapError ofAccounts

/-- The drawer in use, where it is one. -/
def drawerList (snapshot : Object D) : List (Dyn D) :=
  match get snapshot "sa_cash_drawer" with
  | .object o => [.object o]
  | .array l  => [.array l]
  | _         => []

/-- The drawer and the shifts before it. -/
def shiftList (snapshot : Object D) : Except ImportError (List (Dyn D)) :=
  if isFalsy host (get snapshot "sa_shift_history") = true then .ok (drawerList snapshot)
  else
    match get snapshot "sa_shift_history" with
    | .array l => .ok (drawerList snapshot ++ l)
    | _        => .error .typeError

def saleFound (customers mechanics : Table String PersonRow) (accounts : Table String AccountRow) (refs : SaleRefs) :
    Bool :=
  refs.customerId.all (fun id => (customers.get id).isSome) &&
    refs.mechanicId.all (fun id => (mechanics.get id).isSome) &&
    refs.paymentAccountId.all fun id => (accounts.get id).isSome

def writeSnapshot (now : Time) (s : Books) (plan : TombstonePlan) (snapshot : Object D) : Except ImportError Books := do
  let products ← withTombstones host pg (productColumns host) (plan.products.map productEntry) s.products
    (get snapshot "sa_products")
  let suppliers ←
    eachRow host (writeSupplier host pg products plan.droppedSuppliers) s.suppliers (get snapshot "sa_suppliers")
  let customers ← withTombstones host pg (personColumns host "CUS-") (plan.customers.map personEntry) s.customers
    (get snapshot "sa_customers")
  let mechanics ← withTombstones host pg (personColumns host "M-") (plan.mechanics.map personEntry) s.mechanics
    (get snapshot "sa_mechanics")
  let accounts ← replaceAccounts host now s (get snapshot "sa_payment_accounts")
  let fileAccounts := (rows (get snapshot "sa_payment_accounts")).map (idText host)
  let sales ← eachRow host (writePaper host below pg (saleColumns host pg fileAccounts)
    (saleFound customers mechanics accounts) (productLine host pg)) s.sales (get snapshot "sa_sales")
  let returns ← eachRow host (writePaper host below pg (returnColumns host pg)
    (fun refs => (sales.rows.get refs.saleId).isSome) (productLine host pg)) s.returns (get snapshot "sa_returns")
  let creditPayments ← eachRow host (writeRow host pg (fun p => requiredRef pg (mechanicId host p))
    fun m => (mechanics.get m).isSome) s.creditPayments (get snapshot "sa_credit_payments")
  let purchaseOrders ← eachRow host (writePaper host below pg (fun _ => .ok ()) (fun _ => true) orderLine)
    s.purchaseOrders (get snapshot "sa_pos")
  let quotes ← eachRow host (writePaper host below pg (quoteColumns host pg) (fun _ => true) (quoteLine host pg))
    s.quotes (get snapshot "sa_quotes")
  let movements ← eachRow host (writeRow host pg (movementColumns host pg)
    fun refs => (products.get refs.productId).isSome) s.movements (get snapshot "sa_movements")
  let shifts ← eachRow host (writePaper host below pg (fun _ => .ok ()) (fun _ => true) (entryLine host pg)) s.shifts
    (.array (← shiftList host snapshot))
  let parked ← eachRow host (writeRow host pg (fun _ => .ok ()) fun _ => true) s.parked (get snapshot "sa_parked")
  return { products, suppliers, customers, mechanics, accounts, sales, returns, creditPayments, purchaseOrders, quotes,
           movements, shifts, parked }

/-- Whether each of the shop's tables of transactions is empty. -/
def transactions (s : Books) : List (String × Bool) :=
  [("sales", s.sales.rows.rows = []), ("returns", s.returns.rows.rows = []),
    ("purchase_orders", s.purchaseOrders.rows.rows = []), ("credit_payments", s.creditPayments.rows = []),
    ("quotes", s.quotes.rows.rows = []), ("shifts", s.shifts.rows.rows = [])]

def assertNoTransactions (s : Books) : Except ImportError Unit :=
  match (transactions s).find? fun e => !e.2 with
  | some e => .error (.tenantNotEmpty e.1)
  | none   => .ok ()

/-- What a replace import leaves of the shop: its payment accounts. The tables are emptied with those that refer
before those that are referred to. -/
def remaining (replace : Bool) (s : Books) : Books := if replace then { Books.empty with accounts := s.accounts } else s

def refuse (l : List String) (message separator : String) : Except ImportError Unit :=
  if l = [] then .ok () else .error (.badRequest (message ++ String.intercalate separator l))

section
variable {κ ν μ : Type} [DecidableEq κ] {t t' t'' : Table κ ν} {fresh fresh' : κ → ν → Prop}

/-- The rows of `t` stay, and the new ones are `fresh`. -/
structure Grown (fresh : κ → ν → Prop) (t t' : Table κ ν) : Prop where
  kept : ∀ k row, t.get k = some row → t'.get k = some row
  new : ∀ k row, t'.get k = some row → t.get k = some row ∨ fresh k row

theorem Grown.refl (t : Table κ ν) : Grown fresh t t := ⟨fun _ _ h => h, fun _ _ h => .inl h⟩

theorem Grown.mono (h : Grown fresh t t') (hsub : ∀ k row, fresh k row → fresh' k row) : Grown fresh' t t' :=
  ⟨h.kept, fun k row hrow => (h.new k row hrow).imp_right (hsub k row)⟩

theorem Grown.trans (h : Grown fresh t t') (h' : Grown fresh t' t'') : Grown fresh t t'' where
  kept k row hrow := h'.kept k row (h.kept k row hrow)
  new k row hrow := by
    rcases h'.new k row hrow with hrow | hfresh
    · exact h.new k row hrow
    · exact .inr hfresh

theorem Grown.isSome (h : Grown fresh t t') {k : κ} (hk : (t.get k).isSome = true) : (t'.get k).isSome = true := by
  obtain ⟨row, hrow⟩ := Option.isSome_iff_exists.mp hk
  rw [h.kept k row hrow]
  rfl

/-- What holds of the old rows and of the new ones. -/
theorem Grown.all {P : κ → ν → Prop} (h : Grown fresh t t') (hold : ∀ k row, t.get k = some row → P k row)
    (hnew : ∀ k row, fresh k row → P k row) : ∀ k row, t'.get k = some row → P k row := by
  intro k row hrow
  rcases h.new k row hrow with hrow | hfresh
  · exact hold k row hrow
  · exact hnew k row hfresh

/-- A table that has got rows under `keys`, and the rows `dead`. -/
structure Filled (keys : List κ) (dead : List (κ × ν)) (t t' : Table κ ν) : Prop where
  grown : Grown (fun k _ => k ∈ keys ∨ k ∈ dead.map Prod.fst) t t'
  rows : ∀ k ∈ keys, (t'.get k).isSome = true
  tombstones : ∀ e ∈ dead, t'.get e.1 = some e.2

theorem Filled.isSome {keys : List κ} {dead : List (κ × ν)} (h : Filled keys dead t t') {k : κ}
    (hk : k ∈ keys ∨ k ∈ dead.map Prod.fst) : (t'.get k).isSome = true := by
  rcases hk with hk | hk
  · exact h.rows k hk
  · obtain ⟨e, he, rfl⟩ := List.mem_map.mp hk
    rw [h.tombstones e he]
    rfl

end

/-! ## Loops over a store -/

variable {host below pg} {v : Dyn D} {σ : Type}

/-- The rows `done` are written on top of `t`, those apart that are to be skipped. -/
structure Stored {ν : Type} (host : Host D) (skip : String → Prop) (good : ν → Prop) (t : Table String ν)
    (done : List (Object D)) (t' : Table String ν) : Prop where
  grown : Grown (fun id row => id ∈ done.map (idText host) ∧ good row) t t'
  rows : ∀ r ∈ done, skip (idText host r) ∨ (t'.get (idText host r)).isSome = true

section
variable {κ ν μ : Type} [DecidableEq κ] {t t' t'' : Table String ν} {r : Object D} {done : List (Object D)}
  {good : ν → Prop} {skip : String → Prop}

theorem Stored.start (t : Table String ν) : Stored host skip good t [] t := ⟨.refl t, fun _ h => by cases h⟩

/-- One more row of the file is stored. -/
theorem Stored.step (h : Stored host skip good t done t')
    (hgrown : Grown (fun id row => id = idText host r ∧ good row) t' t'')
    (hrow : skip (idText host r) ∨ (t''.get (idText host r)).isSome = true) :
    Stored host skip good t (done ++ [r]) t'' where
  grown := by
    refine (h.grown.mono fun id row hnew => ?_).trans (hgrown.mono fun id row hnew => ?_)
    · exact ⟨List.map_append ▸ List.mem_append_left _ hnew.1, hnew.2⟩
    · exact ⟨List.mem_map.mpr ⟨r, List.mem_append_right _ List.mem_cons_self, hnew.1.symm⟩, hnew.2⟩
  rows x hx := by
    rcases List.mem_append.mp hx with hx | hx
    · exact (h.rows x hx).imp_right hgrown.isSome
    · rw [List.mem_singleton.mp hx]
      exact hrow

/-- Where every row is written. -/
theorem Stored.filled (h : Stored host (fun _ => False) good t done t') :
    Filled (done.map (idText host)) [] t t' where
  grown := h.grown.mono fun _ _ hnew => .inl hnew.1
  rows id hid := by
    obtain ⟨r, hr, rfl⟩ := List.mem_map.mp hid
    exact (h.rows r hr).resolve_left False.elim
  tombstones _ he := by cases he

def asObject : Dyn D → Object D
  | .object o => o
  | _         => []

/-- The keys of the lines of a row. -/
def lineKeys (host : Host D) (below : Dyn D → Nat) (kind : LineKind D κ μ) (r : Object D) : List κ :=
  (indexed below (get r kind.field)).zipIdx.map fun e => kind.key (idText host r) (e.2 + 1) (asObject e.1)

/-- The rows `done` and their lines are written on top of `p`. -/
structure PapersStored (host : Host D) (below : Dyn D → Nat) (kind : LineKind D κ μ) (good : ν → Prop)
    (p : Papers κ ν μ) (done : List (Object D)) (p' : Papers κ ν μ) : Prop where
  rows : Stored host (fun _ => False) good p.rows done p'.rows
  grown : Grown (fun k line => k ∈ done.flatMap (lineKeys host below kind) ∧
    kind.parent k line ∈ done.map (idText host)) p.lines p'.lines
  lines : ∀ k ∈ done.flatMap (lineKeys host below kind), (p'.lines.get k).isSome = true

/-- Every line is under a row. -/
def Papers.Under (p : Papers κ ν μ) (parent : κ → μ → String) : Prop :=
  ∀ k line, p.lines.get k = some line → (p.rows.get (parent k line)).isSome = true

/-- What is written of a store with lines. -/
structure PapersFilled (host : Host D) (below : Dyn D → Nat) (kind : LineKind D κ μ) (l : List (Object D))
    (p p' : Papers κ ν μ) : Prop where
  rows : Filled (l.map (idText host)) [] p.rows p'.rows
  lines : Filled (l.flatMap (lineKeys host below kind)) [] p.lines p'.lines

section
variable {kind : LineKind D κ μ} {p p' : Papers κ ν μ}

theorem PapersStored.filled (h : PapersStored host below kind good p done p') :
    PapersFilled host below kind done p p' where
  rows := h.rows.filled
  lines := ⟨h.grown.mono fun _ _ hnew => .inl hnew.1, h.lines, fun _ he => by cases he⟩

end

end

/-! ## Tombstones -/

section
variable {ν : Type} {t : Table String ν} {dead : List (String × ν)}

end

end Import.References

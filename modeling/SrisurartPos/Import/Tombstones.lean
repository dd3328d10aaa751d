import SrisurartPos.Import.PaymentAccountFiles

/-! # Rows that history names and a file lacks (`snapshot-tombstones.ts`, `planBadIds`)

A shop that deletes a product, a customer or a mechanic keeps the bills, payments and movements that name them.
The database has a foreign key on each of these references. So for every row that is named and is not in the
file the import is to write a deleted one, a tombstone, under the name that history carries. A reference
without any name, or to a bill that is not there, is refused beforehand. -/

namespace Import.Tombstones

open Import.PaymentAccounts Dyn Server.Ids Server.PaymentAccounts

variable {D : Type} (host : Host D)

/-! ## Reading a file -/

/-- The rows of a store. -/
def store (snapshot : Object D) (k : String) : List (Object D) := rows (get snapshot k)

def items (r : Object D) : List (Object D) := rows (get r "items")

/-- A value that is there and is not null. -/
def present (v : Option (Dyn D)) : Option (Dyn D) := v.filter fun v => !v.isNull

def nonBlank (s : String) : Option String := if s = "" then none else some s

/-- Trimmed, for names. -/
def text (v : Option (Dyn D)) : Option String :=
  (present v).bind fun v => nonBlank (JsString.trim (host.text (some v)))

/-- Not trimmed: an id is the text that it is. -/
def fieldId (row : Object D) (camelKey snakeKey : String) : Option String :=
  (present (coalesce row camelKey snakeKey)).bind fun v => nonBlank (host.text (some v))

def rowId (r : Object D) : String := (text host (r.lookup "id")).getD "?"

/-! ## Ids -/

structure BadId (D : Type) where
  table : String
  field : String
  value : Option (Dyn D)

/-- `productId` to `product_id` -/
def snake (f : String) : String :=
  String.ofList (f.toList.flatMap fun c => if c.isUpper then ['_', c.toLower] else [c])

def own (table : String) (r : Object D) (path : String) : List (BadId D) :=
  if isUuidValue (get r "id") = true then [] else [⟨table, path ++ "id", r.lookup "id"⟩]

/-- Nothing, null or the empty text. -/
def isBlank : Option (Dyn D) → Bool
  | none | some .null => true
  | some (.text s)    => s = ""
  | some _            => false

def refs (table : String) (r : Object D) (path : String) (fields : List String) : List (BadId D) :=
  (fields.filter fun f =>
    let v := coalesce r f (snake f)
    !isBlank v && !isUuidValue (v.getD .null)).map fun f => ⟨table, path ++ f, coalesce r f (snake f)⟩

inductive LineProduct where
  | required | free
  deriving DecidableEq, Repr

def lineIds (table : String) (r : Object D) (lineProduct : LineProduct) : List (BadId D) :=
  (items r).zipIdx.flatMap fun e =>
    let path := "items[" ++ toString e.2 ++ "]."
    let v := coalesce e.1 "productId" "product_id"
    if lineProduct = .required ∧ isBlank v = true then [⟨table, path ++ "productId", v⟩]
    else refs table e.1 path ["productId"]

structure IdSpec where
  key : String
  table : String
  fields : List String
  lineProduct : Option LineProduct

def idSpecs : List IdSpec :=
  [⟨"sa_products", "products", [], none⟩, ⟨"sa_customers", "customers", [], none⟩,
    ⟨"sa_mechanics", "mechanics", [], none⟩,
    ⟨"sa_sales", "sales", ["customerId", "mechanicId", "shiftId", "deviceId", "paymentAccountId"], some .required⟩,
    ⟨"sa_returns", "returns", ["saleId", "customerId", "mechanicId", "shiftId", "deviceId"], some .required⟩,
    ⟨"sa_pos", "purchaseOrders", [], some .free⟩, ⟨"sa_quotes", "quotes", ["convertedSaleId"], some .free⟩,
    ⟨"sa_movements", "movements", ["productId", "refId"], none⟩, ⟨"sa_suppliers", "suppliers", ["productId"], none⟩,
    ⟨"sa_credit_payments", "creditPayments", ["mechanicId", "shiftId", "deviceId"], none⟩,
    ⟨"sa_payment_accounts", "paymentAccounts", [], none⟩]

def IdSpec.badIds (spec : IdSpec) (r : Object D) : List (BadId D) :=
  own spec.table r "" ++ refs spec.table r "" spec.fields ++
    (spec.lineProduct.map (lineIds spec.table r)).getD []

/-- The drawer in use and those before it. -/
def shifts (snapshot : Object D) : List (Object D) :=
  rows (.array [get snapshot "sa_cash_drawer"]) ++ store snapshot "sa_shift_history"

def shiftIds (sh : Object D) : List (BadId D) :=
  own "shifts" sh "" ++ refs "shifts" sh "" ["deviceId"] ++
    (rows (get sh "entries")).zipIdx.flatMap fun e => own "drawerEntries" e.1 ("entries[" ++ toString e.2 ++ "].")

def planBadIds (snapshot : Object D) : List (BadId D) :=
  (idSpecs.flatMap fun spec => (store snapshot spec.key).flatMap spec.badIds) ++
    (shifts snapshot).flatMap shiftIds ++
    (store snapshot "sa_parked").flatMap fun ps => own "parkedSales" ps ""

/-! ## The plan -/

/-- The marker: the brand of a product, and what the code of a person starts with. -/
def tombstoneMark : String := "import-tombstone"

structure ProductTombstone where
  id : String
  partNo : String
  name : String
  nameTh : String
  deriving DecidableEq, Repr

structure PersonTombstone where
  id : String
  code : String
  name : String
  deriving DecidableEq, Repr

structure TombstonePlan where
  products : List ProductTombstone
  customers : List PersonTombstone
  mechanics : List PersonTombstone
  /-- references without a usable name anywhere in the file -/
  unnamed : List String
  returnsWithoutSale : List String
  /-- price rows whose product is gone and not to be a tombstone either -/
  droppedSuppliers : List String
  /-- rows whose own required reference is missing -/
  missingRefs : List String
  deriving DecidableEq, Repr

/-- The loop over the ids; `out` has those that are missing so far. -/
def missingFrom (there : List String) : List String → List (Option String) → List String
  | out, []             => out
  | out, none :: ids    => missingFrom there out ids
  | out, some id :: ids => missingFrom there (if id ∈ there ∨ id ∈ out then out else out ++ [id]) ids

/-- The ids that are not `there`, each once, as they come. -/
def missing (ids : List (Option String)) (there : List String) : List String := missingFrom there [] ids

/-- What is known of a product. -/
structure KnownProduct where
  partNo : Option String
  name : Option String
  nameTh : Option String
  deriving DecidableEq, Repr

/-- A line of history that names a product. -/
structure Mention (D : Type) where
  id : Option String
  partNo : Option (Dyn D)
  name : Option (Dyn D)
  nameTh : Option (Dyn D)

def productId (r : Object D) : Option String := fieldId host r "productId" "product_id"

def customerId (r : Object D) : Option String := fieldId host r "customerId" "customer_id"

def mechanicId (r : Object D) : Option String := fieldId host r "mechanicId" "mechanic_id"

def saleId (r : Object D) : Option String := fieldId host r "saleId" "sale_id"

/-- Movements, then the lines of bills, credit notes and quotes. -/
def mentions (snapshot : Object D) : List (Mention D) :=
  ((store snapshot "sa_movements").map fun m => ⟨productId host m, m.lookup "partNo", m.lookup "name", none⟩) ++
    ((store snapshot "sa_sales").flatMap items).map (fun i =>
      ⟨productId host i, i.lookup "partNo", i.lookup "name", i.lookup "nameTH"⟩) ++
    ((store snapshot "sa_returns").flatMap items ++ (store snapshot "sa_quotes").flatMap items).map fun i =>
      ⟨productId host i, none, i.lookup "name", none⟩

/-- Keeps what was known before. -/
def learnProduct (productIds : List String) (known : String → KnownProduct) (m : Mention D) :
    String → KnownProduct :=
  match m.id with
  | none    => known
  | some id =>
      if id ∈ productIds then known
      else Function.update known id
        { partNo := (known id).partNo <|> text host m.partNo
          name := (known id).name <|> text host m.name
          nameTh := (known id).nameTh <|> text host m.nameTh }

def productNames (productIds : List String) (snapshot : Object D) : String → KnownProduct :=
  (mentions host snapshot).foldl (learnProduct host productIds) fun _ => ⟨none, none, none⟩

def productTombstone (known : String → KnownProduct) (id : String) : Option ProductTombstone :=
  (known id).name.map fun name =>
    { id, partNo := (known id).partNo.getD id, name, nameTh := (known id).nameTh.getD name }

/-- The first name of each id. -/
def nameOf (names : List (Option String × Option (Dyn D))) (id : String) : Option String :=
  names.findSome? fun e => if e.1 = some id then text host e.2 else none

def personTombstone (nameOf : String → Option String) (id : String) : Option PersonTombstone :=
  (nameOf id).map fun name => { id, code := tombstoneMark ++ ":" ++ id, name }

/-- The tombstones of persons, and the references without a name. -/
def people (table : String) (present : List (Object D)) (refs : List (Option String))
    (names : List (Option String × Option (Dyn D))) : List PersonTombstone × List String :=
  let gone := missing refs (present.map (idText host))
  (gone.filterMap (personTombstone (nameOf host names)),
    (gone.filter fun id => (nameOf host names id).isNone).map fun id => table ++ ":" ++ id)

/-- Rows that lack a reference. -/
def lacking (table : String) (ref : Object D → Option String) (l : List (Object D)) : List String :=
  (l.filter fun r => (ref r).isNone).map fun r => table ++ ":" ++ rowId host r

def planTombstones (snapshot : Object D) : TombstonePlan :=
  let customers := store snapshot "sa_customers"
  let mechanics := store snapshot "sa_mechanics"
  let sales := store snapshot "sa_sales"
  let returns := store snapshot "sa_returns"
  let movements := store snapshot "sa_movements"
  let suppliers := store snapshot "sa_suppliers"
  let payments := store snapshot "sa_credit_payments"
  let productIds := (store snapshot "sa_products").map (idText host)
  let known := productNames host productIds snapshot
  -- Only movements need a product: a line alone has no foreign key.
  let gone := missing (movements.map (productId host)) productIds
  let products := gone.filterMap (productTombstone known)
  let customersResult := people host "customers" customers (sales.map (customerId host))
    (sales.map fun s => (customerId host s, s.lookup "customerName"))
  let mechanicsResult := people host "mechanics" mechanics
    (sales.map (mechanicId host) ++ payments.map (mechanicId host))
    ((sales ++ returns).map fun r => (mechanicId host r, r.lookup "mechanicName"))
  { products
    customers := customersResult.1
    mechanics := mechanicsResult.1
    unnamed := ((gone.filter fun id => (known id).name.isNone).map fun id => "products:" ++ id) ++
      (customersResult.2 ++ mechanicsResult.2)
    returnsWithoutSale := (returns.filter fun r =>
      (saleId host r).all fun id => id ∉ sales.map (idText host)).map (rowId host)
    droppedSuppliers := (suppliers.filter fun sup =>
      (productId host sup).any fun id => id ∉ productIds ∧ id ∉ products.map ProductTombstone.id).map (rowId host)
    missingRefs := lacking host "movements" (productId host) movements ++
      lacking host "suppliers" (productId host) suppliers ++
      lacking host "creditPayments" (mechanicId host) payments }

/-! ## What is missing -/

/-- No missing id is listed twice. -/
theorem nodup_missingFrom {there out : List String} (hout : out.Nodup) (ids : List (Option String)) :
    (missingFrom there out ids).Nodup := by
  induction ids generalizing out with
  | nil => exact hout
  | cons id ids ih =>
      cases id with
      | none => exact ih hout
      | some id =>
          refine ih ?_
          split
          · exact hout
          · rename_i hnew
            rw [not_or] at hnew
            rw [List.nodup_append]
            refine ⟨hout, List.nodup_singleton id, ?_⟩
            rintro a ha _ hb rfl
            exact hnew.2 (List.mem_singleton.mp hb ▸ ha)

/-- An id is listed as missing where something refers to it and it is not there. -/
theorem mem_missingFrom {there out : List String} {ids : List (Option String)} {id : String} :
    id ∈ missingFrom there out ids ↔ id ∈ out ∨ some id ∈ ids ∧ id ∉ there := by
  induction ids generalizing out with
  | nil => simp [missingFrom]
  | cons i ids ih =>
      cases i with
      | none => rw [missingFrom, ih]; simp
      | some i =>
          rw [missingFrom, ih]
          split
          · rename_i hold
            constructor
            · rintro (hout | ⟨hmem, hnot⟩)
              · exact .inl hout
              · exact .inr ⟨List.mem_cons_of_mem _ hmem, hnot⟩
            · rintro (hout | ⟨hmem, hnot⟩)
              · exact .inl hout
              · rcases List.mem_cons.mp hmem with heq | hmem
                · obtain rfl := Option.some.inj heq
                  exact .inl (hold.resolve_left hnot)
                · exact .inr ⟨hmem, hnot⟩
          · rename_i hnew
            rw [not_or] at hnew
            rw [List.mem_append, List.mem_singleton]
            constructor
            · rintro ((hout | rfl) | ⟨hmem, hnot⟩)
              · exact .inl hout
              · exact .inr ⟨List.mem_cons_self, hnew.1⟩
              · exact .inr ⟨List.mem_cons_of_mem _ hmem, hnot⟩
            · rintro (hout | ⟨hmem, hnot⟩)
              · exact .inl (.inl hout)
              · rcases List.mem_cons.mp hmem with heq | hmem
                · exact .inl (.inr (Option.some.inj heq))
                · exact .inr ⟨hmem, hnot⟩

section
variable {ids : List (Option String)} {there : List String} {id : String}

theorem nodup_missing : (missing ids there).Nodup := nodup_missingFrom List.nodup_nil ids

theorem mem_missing : id ∈ missing ids there ↔ some id ∈ ids ∧ id ∉ there := by
  rw [missing, mem_missingFrom]
  simp

end

/-! ## Names -/

variable {host}

/-- What a line adds to the name of a product that is gone. -/
theorem name_learnProduct {productIds : List String} {known : String → KnownProduct} {m : Mention D} {id : String}
    (hid : id ∉ productIds) : (learnProduct host productIds known m id).name =
      ((known id).name <|> if m.id = some id then text host m.name else none) := by
  unfold learnProduct
  cases hm : m.id with
  | none => simp
  | some i =>
      dsimp only
      by_cases hi : i = id
      · obtain rfl := hi
        simp [hid]
      · have hne : id ≠ i := fun heq => hi heq.symm
        split
        · simp [hi]
        · simp [hi, Function.update_of_ne hne]

theorem nameOf_cons (e : Option String × Option (Dyn D)) (l : List (Option String × Option (Dyn D))) (id : String) :
    nameOf host (e :: l) id = ((if e.1 = some id then text host e.2 else none) <|> nameOf host l id) := by
  rw [nameOf, List.findSome?_cons]
  cases if e.1 = some id then text host e.2 else none <;> rfl

theorem name_foldl {productIds : List String} {id : String} (hid : id ∉ productIds) (l : List (Mention D))
    (known : String → KnownProduct) : ((l.foldl (learnProduct host productIds) known) id).name =
      ((known id).name <|> nameOf host (l.map fun m => (m.id, m.name)) id) := by
  induction l generalizing known with
  | nil => simp [nameOf]
  | cons m l ih =>
      rw [List.foldl_cons, ih, name_learnProduct hid, List.map_cons, nameOf_cons]
      cases (known id).name <;> simp

/-- The name of a product that is gone is the first one of history. -/
theorem name_productNames {productIds : List String} {snapshot : Object D} {id : String} (hid : id ∉ productIds) :
    (productNames host productIds snapshot id).name =
      nameOf host ((mentions host snapshot).map fun m => (m.id, m.name)) id := by
  rw [productNames, name_foldl hid]
  simp

/-! ## The tombstones -/

/-- The rows `l`, of an id and a name, stand for those that `refs` names and that are not `there`: each once, under
the name that history has for it. -/
structure StandIn (refs : List (Option String)) (there : List String) (nameOf : String → Option String)
    (l : List (String × String)) : Prop where
  nodup : (l.map Prod.fst).Nodup
  mem : ∀ id name, (id, name) ∈ l ↔ some id ∈ refs ∧ id ∉ there ∧ nameOf id = some name

/-- Those of the missing ids that have a name. -/
theorem standIn_filterMap {refs : List (Option String)} {there : List String} {nameOf : String → Option String} :
    StandIn refs there nameOf ((missing refs there).filterMap fun id => (nameOf id).map fun name => (id, name)) := by
  refine ⟨?_, fun id name => ?_⟩
  · have hids : ((missing refs there).filterMap fun id => (nameOf id).map fun name => (id, name)).map Prod.fst =
        (missing refs there).filter fun id => (nameOf id).isSome := by
      induction missing refs there with
      | nil => rfl
      | cons id l ih => cases hname : nameOf id <;> simp [hname, ih]
    rw [hids]
    exact nodup_missing.filter _
  · rw [List.mem_filterMap]
    constructor
    · rintro ⟨i, hi, hmap⟩
      obtain ⟨n, hn, heq⟩ := Option.map_eq_some_iff.mp hmap
      obtain ⟨rfl, rfl⟩ := Prod.mk.inj heq
      exact ⟨(mem_missing.mp hi).1, (mem_missing.mp hi).2, hn⟩
    · rintro ⟨href, hnot, hname⟩
      exact ⟨id, mem_missing.mpr ⟨href, hnot⟩, by rw [hname]; rfl⟩

section
variable (host) (snapshot : Object D)

def idsOf (k : String) : List String := (store snapshot k).map (idText host)

/-! What has a foreign key to a product, a customer, a mechanic, and where their names are. -/

def productRefs : List (Option String) := (store snapshot "sa_movements").map (productId host)

def productName : String → Option String := nameOf host ((mentions host snapshot).map fun m => (m.id, m.name))

def customerRefs : List (Option String) := (store snapshot "sa_sales").map (customerId host)

def customerName : String → Option String :=
  nameOf host ((store snapshot "sa_sales").map fun s => (customerId host s, s.lookup "customerName"))

def mechanicRefs : List (Option String) :=
  (store snapshot "sa_sales").map (mechanicId host) ++ (store snapshot "sa_credit_payments").map (mechanicId host)

def mechanicName : String → Option String :=
  nameOf host ((store snapshot "sa_sales" ++ store snapshot "sa_returns").map fun r =>
    (mechanicId host r, r.lookup "mechanicName"))

end

section
variable {snapshot : Object D}

def TombstonePlan.Accepted (plan : TombstonePlan) : Prop :=
  plan.missingRefs = [] ∧ plan.unnamed = [] ∧ plan.returnsWithoutSale = []

/-- The row is in the file, or its name is. -/
def Known (there : List String) (nameOf : String → Option String) (id : String) : Prop :=
  id ∈ there ∨ (nameOf id).isSome = true

/-- Every reference of the file that has a foreign key can be made good. -/
structure Resolvable (host : Host D) (snapshot : Object D) : Prop where
  movements : ∀ m ∈ store snapshot "sa_movements", ∃ id, productId host m = some id ∧
    Known (idsOf host snapshot "sa_products") (productName host snapshot) id
  suppliers : ∀ sup ∈ store snapshot "sa_suppliers", (productId host sup).isSome = true
  payments : ∀ p ∈ store snapshot "sa_credit_payments", ∃ id, mechanicId host p = some id ∧
    Known (idsOf host snapshot "sa_mechanics") (mechanicName host snapshot) id
  customers : ∀ s ∈ store snapshot "sa_sales", ∀ id, customerId host s = some id →
    Known (idsOf host snapshot "sa_customers") (customerName host snapshot) id
  mechanics : ∀ s ∈ store snapshot "sa_sales", ∀ id, mechanicId host s = some id →
    Known (idsOf host snapshot "sa_mechanics") (mechanicName host snapshot) id
  returns : ∀ r ∈ store snapshot "sa_returns", ∃ id, saleId host r = some id ∧
    id ∈ idsOf host snapshot "sa_sales"

theorem lacking_eq_nil {table : String} {ref : Object D → Option String} {l : List (Object D)} :
    lacking host table ref l = [] ↔ ∀ r ∈ l, (ref r).isSome = true := by
  simp [lacking, List.filter_eq_nil_iff, Option.isSome_iff_ne_none]

/-- No reference is without a name. -/
theorem unnamed_eq_nil {table : String} {refs : List (Option String)} {there : List String}
    {nameOf : String → Option String} :
    ((missing refs there).filter fun id => (nameOf id).isNone).map (fun id => table ++ ":" ++ id) = [] ↔
      ∀ id, some id ∈ refs → Known there nameOf id := by
  rw [List.map_eq_nil_iff, List.filter_eq_nil_iff]
  constructor
  · intro h id hid
    by_cases hthere : id ∈ there
    · exact .inl hthere
    · have := h id (mem_missing.mpr ⟨hid, hthere⟩)
      exact .inr (by simpa [Option.isSome_iff_ne_none] using this)
  · intro h id hid
    obtain ⟨href, hnot⟩ := mem_missing.mp hid
    have := (h id href).resolve_left hnot
    simpa [Option.isSome_iff_ne_none] using this

theorem name_of_missing {id : String}
    (hid : id ∈ missing (productRefs host snapshot) (idsOf host snapshot "sa_products")) :
    (productNames host (idsOf host snapshot "sa_products") snapshot id).name = productName host snapshot id :=
  name_productNames (mem_missing.mp hid).2

theorem products_eq : (planTombstones host snapshot).products.map (fun t => (t.id, t.name)) =
    (missing (productRefs host snapshot) (idsOf host snapshot "sa_products")).filterMap fun id =>
      (productName host snapshot id).map fun name => (id, name) := by
  rw [show (planTombstones host snapshot).products =
    (missing (productRefs host snapshot) (idsOf host snapshot "sa_products")).filterMap
      (productTombstone (productNames host (idsOf host snapshot "sa_products") snapshot)) from rfl, List.map_filterMap]
  refine List.filterMap_congr fun id hid => ?_
  rw [productTombstone, ← name_of_missing hid, Option.map_map]
  rfl

/-- The tombstones of persons, as ids and names. -/
theorem people_eq (table : String) {present : List (Object D)} {refs : List (Option String)}
    {names : List (Option String × Option (Dyn D))} :
    (people host table present refs names).1.map (fun t => (t.id, t.name)) =
      (missing refs (present.map (idText host))).filterMap fun id =>
        (nameOf host names id).map fun name => (id, name) := by
  rw [people, List.map_filterMap]
  refine List.filterMap_congr fun id _ => ?_
  rw [personTombstone, Option.map_map]
  rfl

theorem unnamed_products_eq :
    (missing (productRefs host snapshot) (idsOf host snapshot "sa_products")).filter (fun id =>
        (productNames host (idsOf host snapshot "sa_products") snapshot id).name.isNone) =
      (missing (productRefs host snapshot) (idsOf host snapshot "sa_products")).filter fun id =>
        (productName host snapshot id).isNone :=
  List.filter_congr fun id hid => by rw [name_of_missing hid]

/-- Every credit note names a bill of the file. -/
theorem returnsWithoutSale_eq_nil : (planTombstones host snapshot).returnsWithoutSale = [] ↔
    ∀ r ∈ store snapshot "sa_returns", ∃ id, saleId host r = some id ∧ id ∈ idsOf host snapshot "sa_sales" := by
  rw [show (planTombstones host snapshot).returnsWithoutSale =
    ((store snapshot "sa_returns").filter fun r =>
      (saleId host r).all fun id => id ∉ idsOf host snapshot "sa_sales").map (rowId host) from rfl,
    List.map_eq_nil_iff, List.filter_eq_nil_iff]
  refine forall_congr' fun r => forall_congr' fun _ => ?_
  cases saleId host r with
  | none => simp
  | some id => simp

/-- **The plan is accepted exactly where every reference can be made good.** -/
theorem accepted_iff_resolvable : (planTombstones host snapshot).Accepted ↔ Resolvable host snapshot := by
  have hunnamed : (planTombstones host snapshot).unnamed = [] ↔
      (∀ id, some id ∈ productRefs host snapshot →
        Known (idsOf host snapshot "sa_products") (productName host snapshot) id) ∧
      (∀ id, some id ∈ customerRefs host snapshot →
        Known (idsOf host snapshot "sa_customers") (customerName host snapshot) id) ∧
      ∀ id, some id ∈ mechanicRefs host snapshot →
        Known (idsOf host snapshot "sa_mechanics") (mechanicName host snapshot) id := by
    rw [show (planTombstones host snapshot).unnamed =
      ((missing (productRefs host snapshot) (idsOf host snapshot "sa_products")).filter (fun id =>
        (productNames host (idsOf host snapshot "sa_products") snapshot id).name.isNone)).map
          (fun id => "products" ++ ":" ++ id) ++ (_ ++ _) from rfl,
      unnamed_products_eq, List.append_eq_nil_iff, List.append_eq_nil_iff, unnamed_eq_nil]
    exact and_congr_right fun _ => and_congr unnamed_eq_nil unnamed_eq_nil
  have hmissing : (planTombstones host snapshot).missingRefs = [] ↔
      ((∀ m ∈ store snapshot "sa_movements", (productId host m).isSome = true) ∧
        ∀ sup ∈ store snapshot "sa_suppliers", (productId host sup).isSome = true) ∧
      ∀ p ∈ store snapshot "sa_credit_payments", (mechanicId host p).isSome = true := by
    rw [show (planTombstones host snapshot).missingRefs = _ ++ _ ++ _ from rfl, List.append_eq_nil_iff,
      List.append_eq_nil_iff]
    exact and_congr (and_congr lacking_eq_nil lacking_eq_nil) lacking_eq_nil
  rw [TombstonePlan.Accepted, hunnamed, hmissing, returnsWithoutSale_eq_nil]
  constructor
  · rintro ⟨⟨⟨hmovements, hsuppliers⟩, hpayments⟩, ⟨hproducts, hcustomers, hmechanics⟩, hreturns⟩
    refine ⟨fun m hm => ?_, hsuppliers, fun p hp => ?_, fun s hs id hid => ?_, fun s hs id hid => ?_, hreturns⟩
    · obtain ⟨id, hid⟩ := Option.isSome_iff_exists.mp (hmovements m hm)
      exact ⟨id, hid, hproducts id (List.mem_map.mpr ⟨m, hm, hid⟩)⟩
    · obtain ⟨id, hid⟩ := Option.isSome_iff_exists.mp (hpayments p hp)
      exact ⟨id, hid, hmechanics id (List.mem_append_right _ (List.mem_map.mpr ⟨p, hp, hid⟩))⟩
    · exact hcustomers id (List.mem_map.mpr ⟨s, hs, hid⟩)
    · exact hmechanics id (List.mem_append_left _ (List.mem_map.mpr ⟨s, hs, hid⟩))
  · intro h
    refine ⟨⟨⟨fun m hm => ?_, h.suppliers⟩, fun p hp => ?_⟩, ⟨fun id hid => ?_, fun id hid => ?_, fun id hid => ?_⟩,
      h.returns⟩
    · obtain ⟨id, hid, -⟩ := h.movements m hm
      rw [hid]
      rfl
    · obtain ⟨id, hid, -⟩ := h.payments p hp
      rw [hid]
      rfl
    · obtain ⟨m, hm, hmid⟩ := List.mem_map.mp hid
      obtain ⟨id', hid', hknown⟩ := h.movements m hm
      obtain rfl := Option.some.inj (hid'.symm.trans hmid)
      exact hknown
    · obtain ⟨s, hs, hsid⟩ := List.mem_map.mp hid
      exact h.customers s hs id hsid
    · rcases List.mem_append.mp hid with hid | hid
      · obtain ⟨s, hs, hsid⟩ := List.mem_map.mp hid
        exact h.mechanics s hs id hsid
      · obtain ⟨p, hp, hpid⟩ := List.mem_map.mp hid
        obtain ⟨id', hid', hknown⟩ := h.payments p hp
        obtain rfl := Option.some.inj (hid'.symm.trans hpid)
        exact hknown

theorem standIn_products : StandIn (productRefs host snapshot) (idsOf host snapshot "sa_products")
    (productName host snapshot) ((planTombstones host snapshot).products.map fun t => (t.id, t.name)) := by
  rw [products_eq]
  exact standIn_filterMap

theorem standIn_customers : StandIn (customerRefs host snapshot) (idsOf host snapshot "sa_customers")
    (customerName host snapshot) ((planTombstones host snapshot).customers.map fun t => (t.id, t.name)) := by
  have hpeople : (planTombstones host snapshot).customers.map (fun t => (t.id, t.name)) = _ := people_eq "customers"
  rw [hpeople]
  exact standIn_filterMap

theorem standIn_mechanics : StandIn (mechanicRefs host snapshot) (idsOf host snapshot "sa_mechanics")
    (mechanicName host snapshot) ((planTombstones host snapshot).mechanics.map fun t => (t.id, t.name)) := by
  have hpeople : (planTombstones host snapshot).mechanics.map (fun t => (t.id, t.name)) = _ := people_eq "mechanics"
  rw [hpeople]
  exact standIn_filterMap

/-- **The tombstones of every file** are for the rows that history names with a foreign key and that are gone, each
once, under history's first name for it; and the plan is accepted exactly where every reference can be made good. -/
theorem tombstones_exact (host : Host D) (snapshot : Object D) :
    StandIn (productRefs host snapshot) (idsOf host snapshot "sa_products") (productName host snapshot)
        ((planTombstones host snapshot).products.map fun t => (t.id, t.name)) ∧
      StandIn (customerRefs host snapshot) (idsOf host snapshot "sa_customers") (customerName host snapshot)
        ((planTombstones host snapshot).customers.map fun t => (t.id, t.name)) ∧
      StandIn (mechanicRefs host snapshot) (idsOf host snapshot "sa_mechanics") (mechanicName host snapshot)
        ((planTombstones host snapshot).mechanics.map fun t => (t.id, t.name)) ∧
      ((planTombstones host snapshot).Accepted ↔ Resolvable host snapshot) :=
  ⟨standIn_products, standIn_customers, standIn_mechanics, accepted_iff_resolvable⟩

end

end Import.Tombstones

import SrisurartPos.Till.BackupRoundTrip
import Mathlib.Data.List.Perm.Basic

/-! # What an import makes of an export

The file holds every store under its key. Read into any database it gives the rows that were written, in
the order of the file. -/

namespace Till.Backup

open Iso Dyn

variable {D : Type} {H : Host D}

/-! ## The file -/

theorem key_known {db : Db D} {e : String × Dyn D} (h : e ∈ db.knownStores H) : e.1 ∈ knownStoreKeys := by
  have hmem := mem_ofFields h
  simpa [knownStoreKeys, field, fieldIf] using hmem

theorem meta_unknown : "__meta" ∉ knownStoreKeys := by decide

theorem get_export (text : String) (db : Db D) {k : String} (hk : k ∈ knownStoreKeys) :
    get (exportSnapshot H text db) k = get (db.knownStores H) k := by
  rw [exportSnapshot, get_append_left, get_append_left]
  · intro e he
    obtain ⟨row, -, rfl⟩ := List.mem_map.mp he
    rintro rfl
    exact row.1.unknown hk
  · intro e he
    rw [List.mem_singleton.mp he]
    rintro rfl
    exact meta_unknown hk

theorem get_meta (text : String) (db : Db D) : (get (exportSnapshot H text db) "__meta").isNull = false := by
  rw [exportSnapshot, get_append]
  · rfl
  · intro e he hmeta
    rcases List.mem_append.mp he with he | he
    · exact meta_unknown (hmeta ▸ key_known he)
    · obtain ⟨row, -, rfl⟩ := List.mem_map.mp he
      have hstart := row.1.isStore
      rw [show row.1.key = "__meta" from hmeta] at hstart
      revert hstart
      decide

/-- The shifts as the file has them, the active one first. -/
def Db.shiftRows (H : Host D) (db : Db D) : List (String × ShiftRow D) := db.activeShift.toList ++ db.history H

/-- What the stores of a file hold. -/
structure File (H : Host D) (data : Object D) (db : Db D) : Prop where
  products : asList (get data "sa_products") = db.products.rows.map fun e => e.2.toMap e.1
  customers : asList (get data "sa_customers") = db.customers.rows.map fun e => e.2.toMap e.1
  mechanics : asList (get data "sa_mechanics") = db.mechanics.rows.map fun e => e.2.toMap e.1
  sales : asList (get data "sa_sales") = db.saleRows.map fun e => e.2.toMap (linesOf db.saleItems e.1) e.1
  purchaseOrders : asList (get data "sa_pos") =
    (newestFirst (fun e => e.2.createdAt) db.purchaseOrders.rows).map fun e =>
      e.2.toMap (linesOf db.poItems e.1) e.1
  quotes : asList (get data "sa_quotes") = (newestFirst (fun e => e.2.date) db.quotes.rows).map fun e =>
    e.2.toMap (linesOf db.quoteItems e.1) e.1
  returns : asList (get data "sa_returns") = (newestFirst (fun e => e.2.date) db.returns.rows).map fun e =>
    e.2.toMap (linesOf db.returnItems e.1) e.1
  movements : asList (get data "sa_movements") =
    (newestFirst (fun e => e.2.date) db.movements.rows).map fun e => e.2.toMap e.1
  suppliers : asList (get data "sa_suppliers") = db.suppliers.rows.map fun e => e.2.toMap e.1
  paymentAccounts : asList (get data "sa_payment_accounts") = db.accountRows.map fun e => e.2.toMap e.1
  categories : get data "sa_categories" = .array (db.categoryRows.map fun e => .text e.1)
  creditPayments : asList (get data "sa_credit_payments") =
    (newestFirst (fun e => e.2.date) db.creditPayments.rows).map fun e => e.2.toMap e.1
  cashDrawer : get data "sa_cash_drawer" = orNull (fun e => .object (db.shiftToMap H e.1 e.2)) db.activeShift
  history : asList (get data "sa_shift_history") = (db.history H).map fun e => db.shiftToMap H e.1 e.2
  parked : asList (get data "sa_parked") =
    (newestFirst (fun e => e.2.parkedAt) db.parkedSales.rows).map fun e => e.2.toMap e.1
  settings : get data "sa_settings" = .object db.settings.toMap
  schemaVersion : get data "sa_schema_version" = .text db.schemaVersionStr

/-- The exported map is a file of the database it was made from. -/
theorem file_export (text : String) (db : Db D) : File H (exportSnapshot H text db) db := by
  have hget : ∀ {k}, k ∈ knownStoreKeys → get (exportSnapshot H text db) k = get (db.knownStores H) k :=
    get_export text db
  constructor
  case paymentAccounts =>
    rw [hget (by decide)]
    by_cases h : db.accountRows = []
    · simp [Db.knownStores, h, asList]
    · simp [Db.knownStores, h]
  all_goals
    rw [hget (by decide)]
    simp [Db.knownStores]

/-! ## One store -/

section Stores
variable {ρ ρ' τ μ : Type}

/-- A store that the export wrote is read row by row into an empty table. -/
theorem run_store (P : Place D ρ') {toMap : String → ρ → Object D} {f : Object D → Action D Unit}
    {restored : ρ → ρ'} (hf : ∀ id row, f (toMap id row) = insertRow P id (restored row))
    {rows : List (String × ρ)} (hnodup : (rows.map Prod.fst).Nodup) {objects : List (Object D)}
    (hobjects : objects = rows.map fun e => toMap e.1 e.2) (d : Device D) (hempty : P.get d.db = .empty) :
    ∃ t d', objects.forM f d = .ok () d' ∧ d'.now = d.now ∧ d'.db = P.set d.db t ∧
      t.rows = rows.map fun e => (e.1, restored e.2) := by
  obtain ⟨t, hrun, hrows⟩ := run_rows P Prod.fst (fun e => restored e.2) (fun e => f (toMap e.1 e.2)) hnodup d
    (fun e _ d' _ => congrFun (hf e.1 e.2) d') fun e _ => by
      rw [hempty]
      rfl
  refine ⟨t, { d with db := P.set d.db t }, ?_, rfl, rfl, ?_⟩
  · show forM objects f d = _
    rw [hobjects, forM_map, hrun]
  · rw [hrows, hempty]
    rfl

/-- Documents with their lines. -/
theorem run_documents {P : Place D ρ'} {L : Lines D μ} (hPL : Apart P L)
    {toMap : List τ → String → ρ → Object D} {f : Object D → Action D Unit} {restored : ρ → ρ'} (line : τ → μ)
    (hf : ∀ items id row, f (toMap items id row) =
      insertRow P id (restored row) >>= fun _ => forM (items.map line) (insertLine L id))
    {rows : List (String × ρ)} (hnodup : (rows.map Prod.fst).Nodup) {items : String → List τ}
    {objects : List (Object D)} (hobjects : objects = rows.map fun e => toMap (items e.1) e.1 e.2) (d : Device D)
    (hempty : P.get d.db = .empty) (hlines : L.get d.db = []) :
    ∃ t d', objects.forM f d = .ok () d' ∧ d'.now = d.now ∧
      d'.db = L.set (P.set d.db t) (rows.flatMap fun e => (items e.1).map fun it => (e.1, line it)) ∧
      t.rows = rows.map fun e => (e.1, restored e.2) := by
  have hout : ∀ e ∈ rows, ∀ d' : Device D, True → ∃ s, forM ((items e.1).map line) (insertLine L e.1) d' =
      .ok () { d' with db := L.set d'.db s } ∧
        id s = id (L.get d'.db) ++ (items e.1).map fun it => (e.1, line it) := by
    intro e _ d' _
    refine ⟨_, run_lines L e.1 _ d', ?_⟩
    rw [List.map_map]
    rfl
  obtain ⟨t, s, hrun, hrows, hs⟩ := run_docs hPL id (fun _ => True) (fun _ _ h => h)
    (fun e => (items e.1).map fun it => (e.1, line it)) (fun e (_ : e ∈ rows) => hf (items e.1) e.1 e.2) hout
    hnodup d (fun e _ => by rw [hempty]; rfl) trivial
  rw [hlines] at hs
  refine ⟨t, { d with db := L.set (P.set d.db t) s }, ?_, rfl, congrArg (L.set (P.set d.db t)) hs, ?_⟩
  · show forM objects f d = _
    rw [hobjects, forM_map, hrun]
  · rw [hrows, hempty]
    rfl

end Stores

/-- Shifts with their entries, after others. -/
theorem run_shifts (f : String × ShiftRow D → Action D Unit) {rows : List (String × ShiftRow D)}
    (entries : String → List (String × DrawerEntryRow D))
    (hf : ∀ e ∈ rows, f e = insertRow .shifts e.1 e.2 >>= fun _ =>
      forM (entries e.1) fun x => insertRow .drawerEntries x.1 x.2.restored)
    (hnodup : (rows.map Prod.fst).Nodup) (d : Device D) (hfree : ∀ e ∈ rows, d.db.shifts.get e.1 = none)
    (hentries : ((d.db.drawerEntries.rows ++ rows.flatMap fun e =>
      (entries e.1).map fun x => (x.1, x.2.restored)).map Prod.fst).Nodup) :
    ∃ t s d', forM rows f d = .ok () d' ∧ d'.now = d.now ∧
      d'.db = { d.db with shifts := t, drawerEntries := s } ∧ t.rows = d.db.shifts.rows ++ rows ∧
      s.rows = d.db.drawerEntries.rows ++ rows.flatMap fun e => (entries e.1).map fun x => (x.1, x.2.restored) := by
  have hPS : Apart (D := D) Place.shifts Place.drawerEntries :=
    ⟨fun _ _ => rfl, fun _ _ => rfl, fun _ _ _ => rfl⟩
  have hbody : ∀ e ∈ rows, ∀ d' : Device D,
      ((d'.db.drawerEntries.rows ++ (entries e.1).map fun x => (x.1, x.2.restored)).map Prod.fst).Nodup →
      ∃ s, (forM (entries e.1) fun x => insertRow .drawerEntries x.1 x.2.restored) d' =
        .ok () { d' with db := { d'.db with drawerEntries := s } } ∧
          s.rows = d'.db.drawerEntries.rows ++ (entries e.1).map fun x => (x.1, x.2.restored) := by
    intro e _ d' hfits
    rw [List.map_append, List.map_map] at hfits
    obtain ⟨-, hnodup', hdisjoint⟩ := List.nodup_append'.mp hfits
    refine run_rows .drawerEntries Prod.fst (fun x => x.2.restored) _ hnodup' d' (fun _ _ _ _ => rfl) fun x hx => ?_
    rw [Table.get_eq_none]
    exact fun hmem => hdisjoint hmem (List.mem_map_of_mem hx)
  obtain ⟨t, s, hrun, hrows, hs⟩ := run_docs hPS Table.rows (fun v => (v.map Prod.fst).Nodup)
    (fun v w h => by
      rw [List.map_append] at h
      exact (List.nodup_append'.mp h).1)
    (fun e : String × ShiftRow D => (entries e.1).map fun x : String × DrawerEntryRow D => (x.1, x.2.restored))
    hf hbody hnodup d hfree hentries
  refine ⟨t, s, _, hrun, rfl, rfl, ?_, hs⟩
  rw [hrows, List.map_id']
  rfl

/-- The categories come back in their order, with new positions. -/
theorem run_categories {rows : List (String × Int)} (hnodup : (rows.map Prod.fst).Nodup) (d : Device D)
    (hempty : d.db.categories = .empty) :
    ∃ t d', importCategories H (.array (rows.map fun e => .text e.1)) d = .ok () d' ∧ d'.now = d.now ∧
      d'.db = { d.db with categories := t } ∧ t.rows = rows.zipIdx.map fun e => (e.1.1, (e.2 : Int)) := by
  have hkeys : (rows.zipIdx.map fun e => e.1.1) = rows.map Prod.fst := by
    have hfst := congrArg (List.map Prod.fst) (List.zipIdx_map_fst 0 rows)
    rwa [List.map_map] at hfst
  have hzip : (rows.map fun e => (Dyn.text e.1 : Dyn D)).zipIdx =
      rows.zipIdx.map fun e => (Dyn.text e.1.1, e.2) := by
    rw [List.zipIdx_map]
    rfl
  obtain ⟨t, hrun, hrows⟩ := run_rows .categories (fun e : (String × Int) × Nat => e.1.1) (fun e => (e.2 : Int))
    (fun e => importCategory H (.text e.1.1, e.2)) (hkeys ▸ hnodup) d (fun _ _ _ _ => rfl) fun e _ => by
      show d.db.categories.get _ = none
      rw [hempty]
      rfl
  refine ⟨t, { d with db := { d.db with categories := t } }, ?_, rfl, rfl, ?_⟩
  · show forM (rows.map fun e => (Dyn.text e.1 : Dyn D)).zipIdx (importCategory H) d = _
    rw [hzip, forM_map, hrun]
    rfl
  · rw [hrows, show Place.categories.get d.db = .empty from hempty]
    rfl

/-- What a payload says of the time it was parked at. -/
def ParkedSaleRow.said (H : Host D) (p : ParkedSaleRow D) : Except Error (Option Moment) :=
  match p.payload with
  | .json (.object o) => parseDate H (get o "parkedAt")
  | _                 => .ok none

def ParkedSaleRow.restored (H : Host D) (now : Instant) (p : ParkedSaleRow D) : ParkedSaleRow D :=
  match p.said H with
  | .ok m    => { p with parkedAt := (m.map Moment.toInstant).getD now }
  | .error _ => p

/-- A parked payload carries the id of its row. -/
def ParkedSaleRow.CarriesId (id : String) (p : ParkedSaleRow D) : Prop :=
  ∃ o, p.payload = .json (.object o) ∧ get o "id" = .text id

/-- Parked bills come back under their ids, each at the time its payload names. -/
theorem run_parked {rows : List (String × ParkedSaleRow D)} (hnodup : (rows.map Prod.fst).Nodup)
    (hids : ∀ e ∈ rows, e.2.CarriesId e.1) (hdates : ∀ e ∈ rows, ∃ m, e.2.said H = .ok m) (d : Device D)
    (hempty : d.db.parkedSales = .empty) :
    ∃ t d', (rows.map fun e => e.2.toMap e.1).forM (importParked H) d = .ok () d' ∧ d'.now = d.now ∧
      d'.db = { d.db with parkedSales := t } ∧ t.rows = rows.map fun e => (e.1, e.2.restored H d.now) := by
  obtain ⟨t, hrun, hrows⟩ := run_rows .parkedSales Prod.fst (fun e => e.2.restored H d.now)
    (fun e => importParked H (e.2.toMap e.1)) hnodup d (fun e he d' hnow => by
      obtain ⟨o, hpayload, hid⟩ := hids e he
      obtain ⟨m, hm⟩ := hdates e he
      have hmap : e.2.toMap e.1 = o := by rw [ParkedSaleRow.toMap, hpayload]
      have hrow : e.2.restored H d.now = ⟨(m.map Moment.toInstant).getD d.now, .json (.object o)⟩ := by
        rw [ParkedSaleRow.restored, hm, ← hpayload]
      have hparse : parseDate H (get o "parkedAt") = .ok m := by
        rwa [ParkedSaleRow.said, hpayload] at hm
      rw [hmap, hrow, importParked_object H hid hparse, hnow]) fun e _ => by
      show d.db.parkedSales.get _ = none
      rw [hempty]
      rfl
  refine ⟨t, { d with db := { d.db with parkedSales := t } }, ?_, rfl, rfl, ?_⟩
  · show forM (rows.map fun e => e.2.toMap e.1) (importParked H) d = _
    rw [forM_map, hrun]
    rfl
  · rw [hrows, show Place.parkedSales.get d.db = .empty from hempty]
    rfl

/-! ## Unknown stores -/

theorem unknownStore_of_known {e : String × Dyn D} (h : e.1 ∈ knownStoreKeys) : unknownStore e = none :=
  dif_neg fun hk => hk.2.2.1 h

theorem UnknownStore.key_ne_meta (u : UnknownStore) : u.key ≠ "__meta" := by
  intro h
  have hstart := u.isStore
  rw [h] at hstart
  revert hstart
  decide

theorem unknownStore_carried (e : UnknownStore × Carried D) : unknownStore (e.1.key, e.2.value) = some e :=
  dif_pos ⟨e.1.key_ne_meta, e.1.isStore, e.1.unknown, e.2.there⟩

theorem run_skipped {l : Object D} (h : ∀ e ∈ l, unknownStore e = none) (d : Device D) :
    forM l carry d = .ok () d := by
  induction l with
  | nil => rfl
  | cons e l ih =>
      have hstep : carry e d = .ok () d := by
        rw [carry, h e List.mem_cons_self]
        rfl
      rw [List.forM_cons, bind_ok hstep]
      exact ih fun e' he' => h e' (List.mem_cons_of_mem e he')

/-- Stores that this build does not know are carried through. -/
theorem run_carried {rows : List (UnknownStore × Carried D)} (hnodup : (rows.map Prod.fst).Nodup) (d : Device D)
    (hfree : ∀ e ∈ rows, d.db.unknownStores.get e.1 = none) :
    ∃ t, forM (rows.map fun e => (e.1.key, e.2.value)) carry d =
        .ok () { d with db := { d.db with unknownStores := t } } ∧
      t.rows = d.db.unknownStores.rows ++ rows := by
  induction rows generalizing d with
  | nil => exact ⟨d.db.unknownStores, rfl, (List.append_nil _).symm⟩
  | cons e rows ih =>
      obtain ⟨hnot, hnodup⟩ := List.nodup_cons.mp hnodup
      have he := hfree e List.mem_cons_self
      have hstep : carry (e.1.key, e.2.value) d = .ok () { d with
          db := { d.db with unknownStores := d.db.unknownStores.insert e.1 e.2 } } := by
        have hinsert : d.db.unknownStores.upsert e.1 e.2 = d.db.unknownStores.insert e.1 e.2 :=
          if_neg (by simp [he])
        rw [carry, unknownStore_carried, ← hinsert]
        rfl
      obtain ⟨t, hrun, hrows⟩ := ih hnodup
        { d with db := { d.db with unknownStores := d.db.unknownStores.insert e.1 e.2 } } fun e' he' => by
          have hne : e'.1 ≠ e.1 := fun heq => hnot (heq ▸ List.mem_map_of_mem he')
          show (d.db.unknownStores.insert e.1 e.2).get e'.1 = none
          rw [Table.get_insert_ne _ hne]
          exact hfree e' (List.mem_cons_of_mem e he')
      refine ⟨t, ?_, ?_⟩
      · rw [List.map_cons, List.forM_cons, bind_ok hstep, hrun]
      · rw [hrows]
        show (d.db.unknownStores.insert e.1 e.2).rows ++ rows = _
        rw [Table.rows_insert he, List.append_assoc]
        rfl

/-! ## The whole import -/

/-- The database after an import, `target` being what was there. -/
structure Restored (H : Host D) (now : Instant) (db target db' : Db D) : Prop where
  products : db'.products.rows = db.products.rows.map fun e => (e.1, e.2.restored)
  customers : db'.customers.rows = db.customers.rows
  mechanics : db'.mechanics.rows = db.mechanics.rows
  sales : db'.sales.rows = db.saleRows.map fun e => (e.1, e.2.restored)
  saleItems : db'.saleItems = db.saleRows.flatMap fun e => (linesOf db.saleItems e.1).map fun it => (e.1, it)
  purchaseOrders : db'.purchaseOrders.rows = newestFirst (fun e => e.2.createdAt) db.purchaseOrders.rows
  poItems : db'.poItems = (newestFirst (fun e => e.2.createdAt) db.purchaseOrders.rows).flatMap fun e =>
    (linesOf db.poItems e.1).map fun it => (e.1, it)
  quotes : db'.quotes.rows = newestFirst (fun e => e.2.date) db.quotes.rows
  quoteItems : db'.quoteItems = (newestFirst (fun e => e.2.date) db.quotes.rows).flatMap fun e =>
    (linesOf db.quoteItems e.1).map fun it => (e.1, it.restored)
  returns : db'.returns.rows = newestFirst (fun e => e.2.date) db.returns.rows
  returnItems : db'.returnItems = (newestFirst (fun e => e.2.date) db.returns.rows).flatMap fun e =>
    (linesOf db.returnItems e.1).map fun it => (e.1, it)
  movements : db'.movements.rows = newestFirst (fun e => e.2.date) db.movements.rows
  suppliers : db'.suppliers.rows = db.suppliers.rows
  paymentAccounts : db'.paymentAccounts.rows =
    if db.paymentAccounts.rows = [] then target.paymentAccounts.rows
    else db.accountRows.map fun e => (e.1, e.2.restored)
  categories : db'.categories.rows = db.categoryRows.zipIdx.map fun e => (e.1.1, (e.2 : Int))
  creditPayments : db'.creditPayments.rows = newestFirst (fun e => e.2.date) db.creditPayments.rows
  shifts : db'.shifts.rows = db.shiftRows H
  drawerEntries : db'.drawerEntries.rows =
    (db.shiftRows H).flatMap fun e => (db.entriesOf H e.1).map fun x => (x.1, x.2.restored)
  parkedSales : db'.parkedSales.rows =
    (newestFirst (fun e => e.2.parkedAt) db.parkedSales.rows).map fun e => (e.1, e.2.restored H now)
  settings : db'.settings = db.settings
  schemaVersion : db'.schemaVersion = some db.schemaVersionStr
  unknownStores : db'.unknownStores.rows = db.unknownStores.rows

theorem perm_newestFirst {α : Type} (date : α → Instant) (rows : List α) : (newestFirst date rows).Perm rows :=
  List.mergeSort_perm rows _

theorem perm_byDate (S : ListSort) {α : Type} (date : α → Instant) (rows : List α) : (S.byDate date rows).Perm rows :=
  S.perm _ rows

theorem perm_saleRows (db : Db D) : db.saleRows.Perm db.sales.rows :=
  (perm_newestFirst _ _).trans (List.reverse_perm _)

theorem nodup_of_perm {ρ : Type} {t : Table String ρ} {rows : List (String × ρ)} (h : rows.Perm t.rows) :
    (rows.map Prod.fst).Nodup := (h.map Prod.fst).nodup_iff.mpr t.nodup

variable {db : Db D}

theorem mem_shiftRows {e : String × ShiftRow D} (h : e ∈ db.shiftRows H) : e ∈ db.shifts.rows := by
  rcases List.mem_append.mp h with h | h
  · exact List.mem_of_find?_eq_some (Option.mem_toList.mp h)
  · exact (List.mem_filter.mp ((perm_byDate _ _ _).mem_iff.mp h)).1

theorem isActive_of_active {e : String × ShiftRow D} (h : db.activeShift = some e) : e.2.isActive = true := by
  have hactive := List.find?_some h
  exact hactive

/-- No shift is exported twice, the active one included. -/
theorem nodup_shiftRows (H : Host D) (db : Db D) : ((db.shiftRows H).map Prod.fst).Nodup := by
  have hhistory : ((db.history H).map Prod.fst).Nodup := by
    refine ((perm_byDate _ _ _).map Prod.fst).nodup_iff.mpr ?_
    exact db.shifts.nodup.sublist (List.filter_sublist.map _)
  rw [Db.shiftRows, List.map_append]
  refine List.nodup_append'.mpr ⟨?_, hhistory, ?_⟩
  · cases db.activeShift with
    | none => exact List.nodup_nil
    | some e => exact List.nodup_singleton _
  · -- The active shift is none of the others.
    intro id hactive hid
    obtain ⟨e, he, rfl⟩ := List.mem_map.mp hactive
    obtain ⟨e', he', hid'⟩ := List.mem_map.mp hid
    have hfound := Option.mem_toList.mp he
    obtain ⟨hmem', hinactive⟩ := List.mem_filter.mp ((perm_byDate _ _ _).mem_iff.mp he')
    have hsame : e' = e := List.inj_on_of_nodup_map db.shifts.nodup hmem' (List.mem_of_find?_eq_some hfound) hid'
    rw [hsame, isActive_of_active hfound] at hinactive
    cases hinactive

theorem mem_entriesOf {id : String} {x : String × DrawerEntryRow D} :
    x ∈ db.entriesOf H id ↔ x ∈ db.drawerEntries.rows ∧ x.2.shiftId = id := by
  rw [Db.entriesOf, (perm_byDate _ _ _).mem_iff, List.mem_filter, decide_eq_true_eq]

/-- Nor is an entry of a drawer. -/
theorem nodup_entries (H : Host D) (db : Db D) {rows : List (String × ShiftRow D)}
    (hnodup : (rows.map Prod.fst).Nodup) :
    ((rows.flatMap fun e => (db.entriesOf H e.1).map fun x => (x.1, x.2.restored)).map Prod.fst).Nodup := by
  have hkeys : (rows.flatMap fun e => (db.entriesOf H e.1).map fun x => (x.1, x.2.restored)).map Prod.fst =
      rows.flatMap fun e => (db.entriesOf H e.1).map Prod.fst := by
    rw [List.map_flatMap]
    simp only [List.map_map]
    rfl
  rw [hkeys]
  refine List.nodup_flatMap.mpr ⟨fun e _ => ?_, ?_⟩
  · refine ((perm_byDate _ _ _).map Prod.fst).nodup_iff.mpr ?_
    exact db.drawerEntries.nodup.sublist (List.filter_sublist.map _)
  · -- An entry belongs to one shift.
    refine (List.pairwise_map.mp hnodup).imp fun {e e'} hne id hid hid' => hne ?_
    obtain ⟨x, hx, rfl⟩ := List.mem_map.mp hid
    obtain ⟨x', hx', hsame⟩ := List.mem_map.mp hid'
    obtain ⟨hmem, hshift⟩ := mem_entriesOf.mp hx
    obtain ⟨hmem', hshift'⟩ := mem_entriesOf.mp hx'
    have heq : x' = x := List.inj_on_of_nodup_map db.drawerEntries.nodup hmem' hmem hsame
    rw [← hshift, ← hshift', heq]

theorem importCashDrawer_orNull (active : Option (String × ShiftRow D)) (toMap : String → ShiftRow D → Object D) :
    importCashDrawer H (orNull (fun e => .object (toMap e.1 e.2)) active) =
      forM active.toList fun e => importShift H true (toMap e.1 e.2) := by
  cases active with
  | none => rfl
  | some e =>
      show importShift H true _ = forM [e] _
      simp

theorem perm_accountRows (db : Db D) : db.accountRows.Perm db.paymentAccounts.rows := List.mergeSort_perm _ _

theorem perm_categoryRows (db : Db D) : db.categoryRows.Perm db.categories.rows := List.mergeSort_perm _ _

/-- The accounts of the file replace what there is. -/
theorem run_accounts (db : Db D) (target : Table String PaymentAccountRow) (d : Device D)
    (haccounts : d.db.paymentAccounts = if db.accountRows = [] then target else .empty) :
    ∃ t d', (db.accountRows.map fun e => e.2.toMap e.1).forM (importPaymentAccount H) d = .ok () d' ∧
      d'.now = d.now ∧ d'.db = { d.db with paymentAccounts := t } ∧
      t.rows = if db.paymentAccounts.rows = [] then target.rows
        else db.accountRows.map fun e => (e.1, e.2.restored) := by
  have hnil : db.accountRows = [] ↔ db.paymentAccounts.rows = [] :=
    ⟨fun h => List.Perm.nil_eq (h ▸ perm_accountRows db) |>.symm, fun h => (h ▸ perm_accountRows db).eq_nil⟩
  by_cases h : db.accountRows = []
  · rw [if_pos h] at haccounts
    refine ⟨target, d, ?_, rfl, ?_, ?_⟩
    · rw [h]
      rfl
    · rw [← haccounts]
    · rw [if_pos (hnil.mp h)]
  · rw [if_neg h] at haccounts
    obtain ⟨t, d', hrun, hnow, hdb, hrows⟩ := run_store .paymentAccounts
      (importPaymentAccount_toMap H) (nodup_of_perm (perm_accountRows db)) rfl d haccounts
    refine ⟨t, d', hrun, hnow, hdb, ?_⟩
    rw [if_neg fun hrows => h (hnil.mpr hrows)]
    exact hrows

/-- The active shift, then the others. -/
theorem run_allShifts (db : Db D) (d : Device D) (hshifts : d.db.shifts = .empty)
    (hentries : d.db.drawerEntries = .empty) :
    ∃ t s d₁ d₂,
      importCashDrawer H (orNull (fun e => .object (db.shiftToMap H e.1 e.2)) db.activeShift) d = .ok () d₁ ∧
      ((db.history H).map fun e => db.shiftToMap H e.1 e.2).forM (importShift H false) d₁ = .ok () d₂ ∧
      d₂.now = d.now ∧ d₂.db = { d.db with shifts := t, drawerEntries := s } ∧ t.rows = db.shiftRows H ∧
      s.rows = (db.shiftRows H).flatMap fun e => (db.entriesOf H e.1).map fun x => (x.1, x.2.restored) := by
  have hstep : ∀ e ∈ db.shiftRows H, ∀ isActive, e.2.isActive = isActive →
      importShift H isActive (db.shiftToMap H e.1 e.2) = insertRow .shifts e.1 e.2 >>= fun _ =>
        forM (db.entriesOf H e.1) fun x => insertRow .drawerEntries x.1 x.2.restored := by
    rintro e - _ rfl
    exact importShift_toMap H _ _ _ fun x hx => (mem_entriesOf.mp hx).2
  have hnodup := nodup_shiftRows H db
  have hkeys : (db.activeShift.toList.map Prod.fst).Nodup ∧ ((db.history H).map Prod.fst).Nodup ∧
      (db.activeShift.toList.map Prod.fst).Disjoint ((db.history H).map Prod.fst) := by
    rw [Db.shiftRows, List.map_append] at hnodup
    exact List.nodup_append'.mp hnodup
  have hall := nodup_entries H db hnodup
  rw [Db.shiftRows, List.flatMap_append] at hall
  obtain ⟨t₁, s₁, d₁, hrun₁, hnow₁, hdb₁, ht₁, hs₁⟩ := run_shifts
    (fun e => importShift H true (db.shiftToMap H e.1 e.2)) (db.entriesOf H)
    (fun e he => hstep e (List.mem_append_left _ he) true (isActive_of_active (Option.mem_toList.mp he))) hkeys.1 d
    (fun e _ => by rw [hshifts]; rfl) (by
      rw [hentries]
      rw [List.map_append] at hall
      exact (List.nodup_append'.mp hall).1)
  rw [hshifts] at ht₁
  rw [hentries] at hs₁
  have hshifts₁ : d₁.db.shifts.rows = db.activeShift.toList := by
    rw [hdb₁]
    exact ht₁
  have hentries₁ : d₁.db.drawerEntries.rows =
      db.activeShift.toList.flatMap fun e => (db.entriesOf H e.1).map fun x => (x.1, x.2.restored) := by
    rw [hdb₁]
    exact hs₁
  obtain ⟨t, s, d₂, hrun₂, hnow₂, hdb₂, ht, hs⟩ := run_shifts
    (fun e => importShift H false (db.shiftToMap H e.1 e.2)) (db.entriesOf H)
    (fun e he => hstep e (List.mem_append_right _ he) false (by
      have hinactive := (List.mem_filter.mp ((perm_byDate _ _ _).mem_iff.mp he)).2
      simpa using hinactive)) hkeys.2.1 d₁ (fun e he => by
      rw [Table.get_eq_none, hshifts₁]
      exact fun hmem => hkeys.2.2 hmem (List.mem_map_of_mem he)) (by
      rw [hentries₁]
      exact hall)
  rw [hshifts₁] at ht
  rw [hentries₁, ← List.flatMap_append] at hs
  refine ⟨t, s, d₁, d₂, ?_, ?_, hnow₂.trans hnow₁, ?_, ht, hs⟩
  · rw [importCashDrawer_orNull]
    exact hrun₁
  · show forM ((db.history H).map fun e => db.shiftToMap H e.1 e.2) (importShift H false) d₁ = _
    rw [forM_map]
    exact hrun₂
  · rw [hdb₂, hdb₁]

/-- The settings, the version, the mark of the demo data and the unknown stores. -/
theorem run_finish (text : String) (db : Db D) (d : Device D) :
    ∃ d' unknown, (importSettings H (.object db.settings.toMap) >>= fun _ =>
        importSchemaVersion H (.text db.schemaVersionStr) >>= fun _ =>
        (modify fun d => { d with db := { d.db with demoSeedPurged := true } }) >>= fun _ =>
        (modify fun d => { d with db := { d.db with unknownStores := .empty } }) >>= fun _ =>
        (exportSnapshot H text db).forM carry) d = .ok () d' ∧
      d'.db = { d.db with
        settings := db.settings, schemaVersion := some db.schemaVersionStr, demoSeedPurged := true,
        unknownStores := unknown } ∧
      unknown.rows = db.unknownStores.rows := by
  obtain ⟨t, hcarried, hrows⟩ := run_carried db.unknownStores.nodup { d with
    db := { d.db with
      settings := db.settings, schemaVersion := some db.schemaVersionStr, demoSeedPurged := true,
      unknownStores := .empty } } fun _ _ => rfl
  refine ⟨{ d with
    db := { d.db with
      settings := db.settings, schemaVersion := some db.schemaVersionStr, demoSeedPurged := true,
      unknownStores := t } }, t, ?_, rfl, hrows⟩
  rw [importSettings_toMap]
  show forM (exportSnapshot H text db) carry _ = _
  have hknown : ∀ e ∈ db.knownStores H, unknownStore e = none := fun e he => unknownStore_of_known (key_known he)
  have hmeta : ∀ v : Dyn D, unknownStore ("__meta", v) = none := fun v => dif_neg fun h => h.1 rfl
  rw [exportSnapshot, List.forM_append, List.forM_append]
  refine (bind_ok ((bind_ok (run_skipped hknown _)).trans hcarried)).trans ?_
  refine run_skipped (fun e he => ?_) _
  rw [List.mem_singleton.mp he]
  exact hmeta _

/-- **The import of an export succeeds**, and what it leaves is the database restored. -/
theorem run_import (text : String) (hids : ∀ e ∈ db.parkedSales.rows, e.2.CarriesId e.1)
    (hdates : ∀ e ∈ db.parkedSales.rows, ∃ m, e.2.said H = .ok m) (d : Device D) :
    ∃ d', importStores H (exportSnapshot H text db) d = .ok () d' ∧ Restored H d.now db d.db d'.db := by
  have file := file_export (H := H) text db
  -- a bill, an order and a note are read back with their lines; the lines of a quote have their own lemma
  have hsale : ∀ (items : List (SaleItemRow D)) (id : String) (row : SaleRow D),
      importSale H (row.toMap items id) = insertRow .sales id row.restored >>= fun _ =>
        forM (items.map fun it => it) (insertLine .saleItems id) := by
    intro items id row
    rw [List.map_id']
    exact importSale_toMap H items id row
  have hpo : ∀ (items : List (PoItemRow D)) (id : String) (row : PurchaseOrderRow),
      importPurchaseOrder H (row.toMap items id) = insertRow .purchaseOrders id row >>= fun _ =>
        forM (items.map fun it => it) (insertLine .poItems id) := by
    intro items id row
    rw [List.map_id']
    exact importPurchaseOrder_toMap H items id row
  have hreturn : ∀ (items : List (ReturnItemRow D)) (id : String) (row : ReturnRow D),
      importReturn H (row.toMap items id) = insertRow .returns id row >>= fun _ =>
        forM (items.map fun it => it) (insertLine .returnItems id) := by
    intro items id row
    rw [List.map_id']
    exact importReturn_toMap H items id row
  -- one store after another, in the importer's order: each run names the device it leaves and the table it filled
  unfold importStores
  dsimp only
  obtain ⟨d0, hwipe, hnow0, hdb0⟩ : ∃ d0, (modify fun d => { d with
      db := d.db.wiped (asList (get (exportSnapshot H text db) "sa_payment_accounts")) } : Action D Unit) d =
        .ok () d0 ∧ d0.now = d.now ∧ d0.db = d.db.wiped (db.accountRows.map fun e => e.2.toMap e.1) := by
    rw [file.paymentAccounts]
    exact ⟨_, rfl, rfl, rfl⟩
  rw [bind_ok hwipe]
  obtain ⟨products, d1, hrun, hnow1, hdb1, hproducts⟩ := run_store .products
    (importProduct_toMap H) db.products.nodup file.products d0 (by rw [hdb0]; rfl)
  rw [hdb0] at hdb1
  rw [bind_ok hrun]
  obtain ⟨customers, d2, hrun, hnow2, hdb2, hcustomers⟩ := run_store .customers
    (importCustomer_toMap H) db.customers.nodup file.customers d1
    (by rw [hdb1]; rfl)
  rw [hdb1] at hdb2
  rw [bind_ok hrun]
  obtain ⟨mechanics, d3, hrun, hnow3, hdb3, hmechanics⟩ := run_store .mechanics
    (importMechanic_toMap H) db.mechanics.nodup file.mechanics d2
    (by rw [hdb2]; rfl)
  rw [hdb2] at hdb3
  rw [bind_ok hrun]
  obtain ⟨sales, d4, hrun, hnow4, hdb4, hsales⟩ := run_documents
    ⟨fun _ _ => rfl, fun _ _ => rfl, fun _ _ _ => rfl⟩ _ hsale
    (nodup_of_perm (perm_saleRows db)) file.sales d3 (by rw [hdb3]; rfl)
    (by rw [hdb3]; rfl)
  rw [hdb3] at hdb4
  rw [bind_ok hrun]
  obtain ⟨purchaseOrders, d5, hrun, hnow5, hdb5, hpurchaseOrders⟩ := run_documents
    ⟨fun _ _ => rfl, fun _ _ => rfl, fun _ _ _ => rfl⟩ _ hpo
    (nodup_of_perm (perm_newestFirst _ _)) file.purchaseOrders d4 (by rw [hdb4]; rfl)
    (by rw [hdb4]; rfl)
  rw [hdb4] at hdb5
  rw [bind_ok hrun]
  obtain ⟨quotes, d6, hrun, hnow6, hdb6, hquotes⟩ := run_documents
    ⟨fun _ _ => rfl, fun _ _ => rfl, fun _ _ _ => rfl⟩ _ (importQuote_toMap H)
    (nodup_of_perm (perm_newestFirst _ _)) file.quotes d5 (by rw [hdb5]; rfl)
    (by rw [hdb5]; rfl)
  rw [hdb5] at hdb6
  rw [bind_ok hrun]
  obtain ⟨returns, d7, hrun, hnow7, hdb7, hreturns⟩ := run_documents
    ⟨fun _ _ => rfl, fun _ _ => rfl, fun _ _ _ => rfl⟩ _ hreturn
    (nodup_of_perm (perm_newestFirst _ _)) file.returns d6 (by rw [hdb6]; rfl)
    (by rw [hdb6]; rfl)
  rw [hdb6] at hdb7
  rw [bind_ok hrun]
  obtain ⟨movements, d8, hrun, hnow8, hdb8, hmovements⟩ := run_store .movements
    (importMovement_toMap H) (nodup_of_perm (perm_newestFirst _ _)) file.movements d7 (by rw [hdb7]; rfl)
  rw [hdb7] at hdb8
  rw [bind_ok hrun]
  obtain ⟨suppliers, d9, hrun, hnow9, hdb9, hsuppliers⟩ := run_store .suppliers
    (importSupplier_toMap H) db.suppliers.nodup file.suppliers d8 (by rw [hdb8]; rfl)
  rw [hdb8] at hdb9
  rw [bind_ok hrun]
  -- the accounts are the one store that the wipe may spare
  obtain ⟨accounts, d10, hrun, hnow10, hdb10, haccounts⟩ := run_accounts (H := H) db d.db.paymentAccounts d9 (by
    rw [hdb9]
    simp [Db.wiped, Place.suppliers, Place.movements, Place.returns, Lines.returnItems, Place.quotes,
      Lines.quoteItems, Place.purchaseOrders, Lines.poItems, Place.sales, Lines.saleItems, Place.mechanics,
      Place.customers, Place.products])
  rw [← file.paymentAccounts] at hrun
  rw [hdb9] at hdb10
  rw [bind_ok hrun]
  obtain ⟨categories, d11, hrun, hnow11, hdb11, hcategories⟩ := run_categories (H := H)
    (nodup_of_perm (perm_categoryRows db)) d10 (by rw [hdb10]; rfl)
  rw [file.categories, bind_ok hrun]
  rw [hdb10] at hdb11
  obtain ⟨creditPayments, d12, hrun, hnow12, hdb12, hcreditPayments⟩ := run_store .creditPayments
    (importCreditPayment_toMap H) (nodup_of_perm (perm_newestFirst _ _)) file.creditPayments d11
    (by rw [hdb11]; rfl)
  rw [hdb11] at hdb12
  rw [bind_ok hrun]
  -- the open drawer and the history fill the same two tables
  obtain ⟨shifts, entries, d13, d14, hcash, hhistory, hnow14, hdb14, hshifts, hentries⟩ :=
    run_allShifts (H := H) db d12 (by rw [hdb12]; rfl) (by rw [hdb12]; rfl)
  rw [file.cashDrawer, bind_ok hcash, file.history, bind_ok hhistory]
  rw [hdb12] at hdb14
  obtain ⟨parked, d15, hrun, hnow15, hdb15, hparked⟩ := run_parked (nodup_of_perm (perm_newestFirst _ _))
    (fun e he => hids e ((perm_newestFirst _ _).mem_iff.mp he))
    (fun e he => hdates e ((perm_newestFirst _ _).mem_iff.mp he)) d14 (by rw [hdb14]; rfl)
  rw [file.parked, bind_ok hrun]
  rw [hdb14] at hdb15
  -- the settings, the version mark and the stores that this app does not know
  obtain ⟨d16, unknown, hrun, hdb16, hunknown⟩ := run_finish (H := H) text db d15
  rw [file.settings, file.schemaVersion]
  refine ⟨d16, hrun, ?_⟩
  -- the clock has stood still, so a parked sale without a date gets the moment of the import
  have hnow : d14.now = d.now := by
    rw [hnow14, hnow12, hnow11, hnow10, hnow9, hnow8, hnow7, hnow6, hnow5, hnow4, hnow3, hnow2, hnow1, hnow0]
  have hdb : d16.db = {
      products, customers, mechanics, sales, purchaseOrders, quotes, returns, movements, suppliers, categories,
      creditPayments, shifts
      saleItems := db.saleRows.flatMap fun e => (linesOf db.saleItems e.1).map fun it => (e.1, it)
      poItems := (newestFirst (fun e => e.2.createdAt) db.purchaseOrders.rows).flatMap fun e =>
        (linesOf db.poItems e.1).map fun it => (e.1, it)
      quoteItems := (newestFirst (fun e => e.2.date) db.quotes.rows).flatMap fun e =>
        (linesOf db.quoteItems e.1).map fun it => (e.1, it.restored)
      returnItems := (newestFirst (fun e => e.2.date) db.returns.rows).flatMap fun e =>
        (linesOf db.returnItems e.1).map fun it => (e.1, it)
      paymentAccounts := accounts
      drawerEntries := entries
      parkedSales := parked
      settings := db.settings
      schemaVersion := some db.schemaVersionStr
      demoSeedPurged := true
      unknownStores := unknown } := by
    rw [hdb16, hdb15]
    rfl
  rw [hdb]
  have hid : ∀ {ρ : Type} (rows : List (String × ρ)), (rows.map fun e => (e.1, e.2)) = rows :=
    fun rows => List.map_id' rows
  constructor
  case products => exact hproducts
  case sales => exact hsales
  case saleItems => rfl
  case poItems => rfl
  case quoteItems => rfl
  case returnItems => rfl
  case settings => rfl
  case schemaVersion => rfl
  case unknownStores => exact hunknown
  case paymentAccounts => exact haccounts
  case categories => exact hcategories
  case shifts => exact hshifts
  case drawerEntries => exact hentries
  case parkedSales => rwa [hnow] at hparked
  case customers => rwa [hid] at hcustomers
  case mechanics => rwa [hid] at hmechanics
  case purchaseOrders => rwa [hid] at hpurchaseOrders
  case quotes => rwa [hid] at hquotes
  case returns => rwa [hid] at hreturns
  case movements => rwa [hid] at hmovements
  case suppliers => rwa [hid] at hsuppliers
  case creditPayments => rwa [hid] at hcreditPayments

end Till.Backup

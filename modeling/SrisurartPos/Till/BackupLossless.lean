import SrisurartPos.Till.BackupRestored

/-! # When a backup loses nothing

The two field lists lack the shift of a sale, the mark of a sale made without the server, the reason of a
void, the cost of a quoted line and more. A database without any of that comes back whole, and no other. -/

namespace Till.Backup

open Iso Dyn

variable {D : Type} {H : Host D} {db target : Db D}

/-! ## What the claim of a round trip is about -/

/-- The same rows, whatever their order. -/
structure Db.Same (db db' : Db D) : Prop where
  products : ∀ id, db.products.get id = db'.products.get id
  customers : ∀ id, db.customers.get id = db'.customers.get id
  mechanics : ∀ id, db.mechanics.get id = db'.mechanics.get id
  sales : ∀ id, db.sales.get id = db'.sales.get id
  saleItems : ∀ id, linesOf db.saleItems id = linesOf db'.saleItems id
  purchaseOrders : ∀ id, db.purchaseOrders.get id = db'.purchaseOrders.get id
  poItems : ∀ id, linesOf db.poItems id = linesOf db'.poItems id
  quotes : ∀ id, db.quotes.get id = db'.quotes.get id
  quoteItems : ∀ id, linesOf db.quoteItems id = linesOf db'.quoteItems id
  returns : ∀ id, db.returns.get id = db'.returns.get id
  returnItems : ∀ id, linesOf db.returnItems id = linesOf db'.returnItems id
  movements : ∀ id, db.movements.get id = db'.movements.get id
  suppliers : ∀ id, db.suppliers.get id = db'.suppliers.get id
  paymentAccounts : ∀ id, db.paymentAccounts.get id = db'.paymentAccounts.get id
  categories : ∀ name, db.categories.get name = db'.categories.get name
  creditPayments : ∀ id, db.creditPayments.get id = db'.creditPayments.get id
  shifts : ∀ id, db.shifts.get id = db'.shifts.get id
  drawerEntries : ∀ id, db.drawerEntries.get id = db'.drawerEntries.get id
  parkedSales : ∀ id, db.parkedSales.get id = db'.parkedSales.get id
  settings : db.settings = db'.settings
  schemaVersion : db.schemaVersionStr = db'.schemaVersionStr
  unknownStores : ∀ store, db.unknownStores.get store = db'.unknownStores.get store

/-- The zones are migrated, a missing note is empty, and a file without accounts leaves those of `target`. -/
def Db.normal (db target : Db D) : Db D :=
  { db with
    products := db.products.map fun p => { p with zone := none }
    drawerEntries := db.drawerEntries.map DrawerEntryRow.restored
    paymentAccounts := if db.paymentAccounts.rows = [] then target.paymentAccounts else db.paymentAccounts }

/-- The states that the till is in. -/
structure Db.WellFormed (db : Db D) : Prop where
  oneActive : ∀ id id' s s', db.shifts.get id = some s → db.shifts.get id' = some s' →
    s.isActive = true → s'.isActive = true → id = id'
  parkedIds : ∀ id p, db.parkedSales.get id = some p → p.CarriesId id

/-- Whatever the file is read into, every row comes back, and so does the file. -/
def RoundTrips (H : Host D) (db : Db D) : Prop :=
  ∀ text (d : Device D), ∃ d', importLegacyBackup H false (exportSnapshot H text db) d = .ok () d' ∧
    d'.db.Same (db.normal d.db) ∧
    ∀ text', exportSnapshot H text' d'.db = exportSnapshot H text' (db.normal d.db)

/-- Once sorted, the rows keep their order when they are sorted again. -/
def ListSort.Settles (S : ListSort) {α : Type} (date : α → Instant) (rows : List α) : Prop :=
  S.byDate date (S.byDate date rows) = S.byDate date rows

/-- Nothing that the file has no place for. -/
structure Db.Kept (H : Host D) (db : Db D) : Prop where
  products : ∀ id p, db.products.get id = some p → p.deletedAt = none ∧ p.imageKey = none
  sales : ∀ id s, db.sales.get id = some s → s.shiftId = none ∧ s.soldOffline = false ∧ s.voidReason = none
  saleDates : (db.sales.rows.map fun e => e.2.date.seconds).Nodup
  saleItems : ∀ e ∈ db.saleItems, (db.sales.get e.1).isSome
  poItems : ∀ e ∈ db.poItems, (db.purchaseOrders.get e.1).isSome
  quoteItems : ∀ e ∈ db.quoteItems, (db.quotes.get e.1).isSome ∧ e.2.costAtSale = none
  returnItems : ∀ e ∈ db.returnItems, (db.returns.get e.1).isSome
  drawerEntries : ∀ id e, db.drawerEntries.get id = some e → (db.shifts.get e.shiftId).isSome
  entryOrder : ∀ id, H.lists.Settles (fun e => e.2.createdAt)
    (db.drawerEntries.rows.filter fun e => e.2.shiftId = id)
  shiftOrder : H.lists.Settles (fun e => e.2.openedAt) (db.shifts.rows.filter fun e => !e.2.isActive)
  pictures : ∀ id a, db.paymentAccounts.get id = some a → a.image ≠ some []
  categories : ∀ e ∈ db.categoryRows.zipIdx, e.1.2 = (e.2 : Int)
  parkedSales : ∀ id p, db.parkedSales.get id = some p →
    ∃ m, p.said H = .ok (some m) ∧ m.toInstant = p.parkedAt

/-! ## Rows that are not changed -/

theorem ProductRow.restored_eq_iff (p : ProductRow D) :
    p.restored = { p with zone := none } ↔ p.deletedAt = none ∧ p.imageKey = none := by
  cases p
  simp [ProductRow.restored, eq_comm]

theorem SaleRow.restored_eq_iff (s : SaleRow D) :
    s.restored = s ↔ s.shiftId = none ∧ s.soldOffline = false ∧ s.voidReason = none := by
  cases s
  simp [SaleRow.restored, eq_comm]

theorem QuoteItemRow.restored_eq_iff (it : QuoteItemRow D) : it.restored = it ↔ it.costAtSale = none := by
  cases it
  simp [QuoteItemRow.restored, eq_comm]

theorem PaymentAccountRow.restored_eq_iff (a : PaymentAccountRow) : a.restored = a ↔ a.image ≠ some [] := by
  by_cases h : a.image = some []
  · cases a
    simp_all [PaymentAccountRow.restored]
  · simp [PaymentAccountRow.restored, h]

/-! ## Orders -/

theorem rows_inj {κ ν : Type} {t t' : Table κ ν} (h : t.rows = t'.rows) : t = t' := by
  cases t
  cases t'
  subst h
  rfl

theorem get_of_perm {ν : Type} {t t' : Table String ν} (h : t.rows.Perm t'.rows) (id : String) :
    t.get id = t'.get id := by
  apply Option.ext
  intro v
  rw [← Table.mem_rows, ← Table.mem_rows, h.mem_iff]

section Orders
variable {α β : Type}

theorem pairwise_newestFirst (date : α → Instant) (rows : List α) :
    (newestFirst date rows).Pairwise fun a b => (date b).seconds ≤ (date a).seconds := by
  have hsorted : (newestFirst date rows).Pairwise fun a b => decide ((date b).seconds ≤ (date a).seconds) :=
    List.pairwise_mergeSort
      (fun a b c hab hbc => by
        simp only [decide_eq_true_eq] at *
        exact hbc.trans hab)
      (fun a b => by
        simp only [Bool.or_eq_true, decide_eq_true_eq]
        exact Int.le_total _ _) rows
  exact hsorted.imp fun h => of_decide_eq_true h

theorem newestFirst_of_pairwise {date : α → Instant} {rows : List α}
    (h : rows.Pairwise fun a b => (date b).seconds ≤ (date a).seconds) : newestFirst date rows = rows :=
  List.mergeSort_of_pairwise (h.imp fun h => decide_eq_true h)

@[simp] theorem newestFirst_newestFirst (date : α → Instant) (rows : List α) :
    newestFirst date (newestFirst date rows) = newestFirst date rows :=
  newestFirst_of_pairwise (pairwise_newestFirst date rows)

theorem newestFirst_map {date : α → Instant} {date' : β → Instant} {f : α → β} (h : ∀ a, date' (f a) = date a)
    (rows : List α) : newestFirst date' (rows.map f) = (newestFirst date rows).map f := by
  refine (List.map_mergeSort fun a _ b _ => ?_).symm
  rw [h, h]

/-- Without two of one second the index is read in the one order there is. -/
theorem newestFirstByIndex_newestFirst {date : α → Instant} {rows : List α}
    (h : (rows.map fun a => (date a).seconds).Nodup) :
    newestFirstByIndex date (newestFirst date rows) = newestFirst date rows := by
  have hanti : ∀ a b, a ∈ newestFirstByIndex date (newestFirst date rows) → b ∈ newestFirst date rows →
      (date b).seconds ≤ (date a).seconds → (date a).seconds ≤ (date b).seconds → a = b := by
    intro a b ha hb hab hba
    have hmem : ∀ {x}, x ∈ newestFirst date rows → x ∈ rows := fun hx => (perm_newestFirst _ _).mem_iff.mp hx
    have ha' := hmem (((perm_newestFirst _ _).trans (List.reverse_perm _)).mem_iff.mp ha)
    exact List.inj_on_of_nodup_map h ha' (hmem hb) (Int.le_antisymm hba hab)
  exact List.Perm.eq_of_pairwise hanti (pairwise_newestFirst _ _) (pairwise_newestFirst _ _)
    ((perm_newestFirst _ _).trans (List.reverse_perm _))

section Lists
variable (S : ListSort)

theorem pairwise_byDate (date : α → Instant) (rows : List α) :
    (S.byDate date rows).Pairwise fun a b => (date b).seconds ≤ (date a).seconds := by
  have htrans : Std.TransCmp fun a b : α => compare (date b).seconds (date a).seconds :=
    { eq_swap := fun {a b} => Std.OrientedCmp.eq_swap
      isLE_trans := fun {a b c} hab hbc => Std.TransCmp.isLE_trans hbc hab }
  exact (S.sorted _ htrans rows).imp fun h => Std.isLE_compare.mp h

theorem byDate_map {date : α → Instant} {date' : β → Instant} {f : α → β} (h : ∀ a, date' (f a) = date a)
    (rows : List α) : S.byDate date' (rows.map f) = (S.byDate date rows).map f := by
  have hcompare : (fun a b => compare (date' (f b)).seconds (date' (f a)).seconds) =
      fun a b => compare (date b).seconds (date a).seconds := by
    funext a b
    rw [h, h]
  rw [ListSort.byDate, S.map, hcompare, ListSort.byDate]

theorem byDate_nil (date : α → Instant) : S.byDate date [] = [] := (S.perm _ []).eq_nil

/-- Without two of one second there is one order only. -/
theorem settles_of_nodup {date : α → Instant} {rows : List α} (h : (rows.map fun a => (date a).seconds).Nodup) :
    S.Settles date rows := by
  have hmem : ∀ {x}, x ∈ S.byDate date rows → x ∈ rows := fun hx => (perm_byDate _ _ _).mem_iff.mp hx
  refine List.Perm.eq_of_pairwise (fun a b ha hb hab hba => ?_) (pairwise_byDate S _ _) (pairwise_byDate S _ _)
    (perm_byDate _ _ _)
  have ha' := hmem ((perm_byDate _ _ _).mem_iff.mp ha)
  exact List.inj_on_of_nodup_map h ha' (hmem hb) (Int.le_antisymm hba hab)

end Lists

/-- Of what is listed under distinct owners, the part of one owner. -/
theorem filter_flatMap_owner {ρ : Type} {rows : List (String × ρ)} (hnodup : (rows.map Prod.fst).Nodup)
    {out : String → List β} {owner : β → String} (hout : ∀ id, ∀ b ∈ out id, owner b = id) (id : String) :
    (rows.flatMap fun e => out e.1).filter (fun b => owner b = id) =
      if id ∈ rows.map Prod.fst then out id else [] := by
  induction rows with
  | nil => rfl
  | cons e rows ih =>
      obtain ⟨hnot, hnodup⟩ := List.nodup_cons.mp hnodup
      rw [List.flatMap_cons, List.filter_append, ih hnodup, List.map_cons]
      by_cases h : e.1 = id
      · subst h
        have hall : (out e.1).filter (fun b => owner b = e.1) = out e.1 :=
          List.filter_eq_self.mpr fun b hb => decide_eq_true (hout _ b hb)
        rw [hall, if_neg hnot, if_pos List.mem_cons_self, List.append_nil]
      · have hnone : (out e.1).filter (fun b => owner b = id) = [] :=
          List.filter_eq_nil_iff.mpr fun b hb heq => h ((hout _ b hb).symm.trans (of_decide_eq_true heq))
        have hmem : id ∈ e.1 :: rows.map Prod.fst ↔ id ∈ rows.map Prod.fst := by simp [Ne.symm h]
        rw [hnone, List.nil_append, if_congr hmem rfl rfl]

/-- The lines of a document are found again among the lines of all. -/
theorem linesOf_flatMap {ρ : Type} {rows : List (String × ρ)} (hnodup : (rows.map Prod.fst).Nodup)
    (items : String → List α) (f : α → β) (id : String) :
    linesOf (rows.flatMap fun e => (items e.1).map fun it => (e.1, f it)) id =
      if id ∈ rows.map Prod.fst then (items id).map f else [] := by
  have hout : ∀ id, ∀ b ∈ (items id).map fun it => (id, f it), b.1 = id := by
    intro id b hb
    obtain ⟨it, -, rfl⟩ := List.mem_map.mp hb
    rfl
  have hpart := filter_flatMap_owner hnodup hout id
  rw [linesOf, hpart]
  split
  · rw [List.map_map]
    exact List.map_congr_left fun _ _ => rfl
  · rfl

theorem linesOf_eq_nil {lines : List (String × α)} {id : String} (h : ∀ e ∈ lines, e.1 ≠ id) :
    linesOf lines id = [] := by
  rw [linesOf, List.filter_eq_nil_iff.mpr fun e he => by simpa using h e he]
  rfl

theorem mem_linesOf {lines : List (String × α)} {e : String × α} (h : e ∈ lines) : e.2 ∈ linesOf lines e.1 :=
  List.mem_map_of_mem (List.mem_filter.mpr ⟨h, decide_eq_true rfl⟩)

end Orders

/-! ## Nothing is lost -/

/-- The exported shifts are all shifts, as there is one active at most. -/
theorem perm_shiftRows (w : db.WellFormed) : (db.shiftRows H).Perm db.shifts.rows := by
  refine (List.perm_ext_iff_of_nodup (nodup_shiftRows H db).of_map db.shifts.nodup.of_map).mpr fun e =>
    ⟨mem_shiftRows, fun he => ?_⟩
  by_cases hactive : e.2.isActive = true
  · refine List.mem_append_left _ ?_
    cases hfind : db.activeShift with
    | none => exact absurd hactive (List.find?_eq_none.mp hfind e he)
    | some e' =>
        have hmem' := List.mem_of_find?_eq_some hfind
        have hid := w.oneActive e.1 e'.1 e.2 e'.2 (db.shifts.mem_rows.mp he) (db.shifts.mem_rows.mp hmem') hactive
          (isActive_of_active hfind)
        rw [List.inj_on_of_nodup_map db.shifts.nodup he hmem' hid]
        exact List.mem_singleton_self e'
  · refine List.mem_append_right _ ((perm_byDate _ _ _).mem_iff.mpr (List.mem_filter.mpr ⟨he, ?_⟩))
    simp [hactive]

section Kept
variable {now : Instant} {db' : Db D}

/-- The lines of a document come back under it. -/
theorem lines_kept {ρ α : Type} {t : Table String ρ} {rows : List (String × ρ)} (hrows : rows.Perm t.rows)
    {lines : List (String × α)} (howned : ∀ e ∈ lines, (t.get e.1).isSome) {f : α → α}
    (hf : ∀ e ∈ lines, f e.2 = e.2) (id : String) :
    linesOf (rows.flatMap fun e => (linesOf lines e.1).map fun it => (e.1, f it)) id = linesOf lines id := by
  rw [linesOf_flatMap (nodup_of_perm hrows)]
  split
  · refine (List.map_congr_left fun it hit => ?_).trans (List.map_id _)
    obtain ⟨e, he, rfl⟩ := List.mem_map.mp hit
    exact hf e (List.mem_filter.mp he).1
  · next hid =>
      refine (linesOf_eq_nil fun e he heq => hid ?_).symm
      obtain ⟨row, hrow⟩ := Option.isSome_iff_exists.mp (heq ▸ howned e he)
      exact (hrows.map Prod.fst).mem_iff.mpr (List.mem_map_of_mem (t.mem_rows.mpr hrow))

theorem products_kept (r : Restored H now db target db') (k : db.Kept H) :
    db'.products = (db.normal target).products := by
  refine rows_inj (r.products.trans (List.map_congr_left fun e he => ?_))
  rw [e.2.restored_eq_iff.mpr (k.products e.1 e.2 (db.products.mem_rows.mp he))]

theorem sales_kept (r : Restored H now db target db') (k : db.Kept H) : db'.sales.rows = db.saleRows := by
  refine r.sales.trans ((List.map_congr_left fun e he => ?_).trans (List.map_id _))
  rw [e.2.restored_eq_iff.mpr (k.sales e.1 e.2 (db.sales.mem_rows.mp ((perm_saleRows db).mem_iff.mp he)))]
  rfl

theorem accounts_kept (r : Restored H now db target db') (k : db.Kept H) :
    db'.paymentAccounts.rows =
      if db.paymentAccounts.rows = [] then target.paymentAccounts.rows else db.accountRows := by
  rw [r.paymentAccounts]
  refine if_congr Iff.rfl rfl ((List.map_congr_left fun e he => ?_).trans (List.map_id _))
  have hpicture := k.pictures e.1 e.2 (db.paymentAccounts.mem_rows.mp ((perm_accountRows db).mem_iff.mp he))
  rw [e.2.restored_eq_iff.mpr hpicture]
  rfl

theorem categories_kept (r : Restored H now db target db') (k : db.Kept H) :
    db'.categories.rows = db.categoryRows := by
  have hpositions : (db.categoryRows.zipIdx.map fun e => (e.1.1, (e.2 : Int))) =
      db.categoryRows.zipIdx.map Prod.fst := by
    refine List.map_congr_left fun e he => ?_
    rw [← k.categories e he]
  rw [r.categories, hpositions, List.zipIdx_map_fst]

theorem parkedSales_kept (r : Restored H now db target db') (k : db.Kept H) :
    db'.parkedSales.rows = newestFirst (fun e => e.2.parkedAt) db.parkedSales.rows := by
  refine r.parkedSales.trans ((List.map_congr_left fun e he => ?_).trans (List.map_id _))
  obtain ⟨m, hsaid, hm⟩ :=
    k.parkedSales e.1 e.2 (db.parkedSales.mem_rows.mp ((perm_newestFirst _ _).mem_iff.mp he))
  rw [ParkedSaleRow.restored, hsaid]
  show (e.1, { e.2 with parkedAt := m.toInstant }) = e
  rw [hm]

/-- The restored entries are the entries, in some order. -/
theorem perm_entries (r : Restored H now db target db') (w : db.WellFormed) (k : db.Kept H) :
    db'.drawerEntries.rows.Perm (db.normal target).drawerEntries.rows := by
  have hnodup := nodup_entries H db (nodup_shiftRows H db)
  rw [← r.drawerEntries] at hnodup
  refine (List.perm_ext_iff_of_nodup hnodup.of_map (Table.nodup _).of_map).mpr fun x => ?_
  rw [r.drawerEntries]
  show _ ↔ x ∈ db.drawerEntries.rows.map fun e => (e.1, e.2.restored)
  constructor
  · intro hx
    obtain ⟨e, -, hx⟩ := List.mem_flatMap.mp hx
    obtain ⟨y, hy, rfl⟩ := List.mem_map.mp hx
    exact List.mem_map.mpr ⟨y, (mem_entriesOf.mp hy).1, rfl⟩
  · intro hx
    obtain ⟨y, hy, rfl⟩ := List.mem_map.mp hx
    obtain ⟨s, hs⟩ := Option.isSome_iff_exists.mp (k.drawerEntries y.1 y.2 (db.drawerEntries.mem_rows.mp hy))
    refine List.mem_flatMap.mpr ⟨(y.2.shiftId, s), ?_, List.mem_map.mpr ⟨y, mem_entriesOf.mpr ⟨hy, rfl⟩, rfl⟩⟩
    exact (perm_shiftRows w).mem_iff.mpr (db.shifts.mem_rows.mpr hs)

theorem byDate_entries (S : ListSort) (rows : List (String × DrawerEntryRow D)) :
    S.byDate (fun e => e.2.createdAt) (rows.map fun x => (x.1, x.2.restored)) =
      (S.byDate (fun e => e.2.createdAt) rows).map fun x => (x.1, x.2.restored) :=
  byDate_map S (fun _ => rfl) rows

theorem entriesOf_normal (id : String) :
    (db.normal target).entriesOf H id = (db.entriesOf H id).map fun x => (x.1, x.2.restored) := by
  rw [Db.entriesOf, Db.entriesOf, ← byDate_entries]
  refine congrArg (H.lists.byDate _) ?_
  show (db.drawerEntries.rows.map _).filter _ = _
  rw [List.filter_map]
  rfl

/-- The entries of a shift are sorted once more when they are written again. -/
theorem entriesOf_restored (r : Restored H now db target db') {id : String}
    (hid : id ∈ (db.shiftRows H).map Prod.fst) : db'.entriesOf H id =
      (H.lists.byDate (fun e => e.2.createdAt) (db.entriesOf H id)).map fun x => (x.1, x.2.restored) := by
  have howner : ∀ id, ∀ x ∈ (db.entriesOf H id).map fun x => (x.1, x.2.restored), x.2.shiftId = id := by
    intro id x hx
    obtain ⟨y, hy, rfl⟩ := List.mem_map.mp hx
    exact (mem_entriesOf.mp hy).2
  have hpart := filter_flatMap_owner (nodup_shiftRows H db) howner id
  rw [if_pos hid] at hpart
  rw [Db.entriesOf, r.drawerEntries, hpart, byDate_entries]

/-- Each drawer's entries come back in the order in which the export lists them. -/
theorem entriesOf_kept (r : Restored H now db target db') (w : db.WellFormed) (k : db.Kept H) (id : String) :
    db'.entriesOf H id = (db.normal target).entriesOf H id := by
  rw [entriesOf_normal]
  by_cases hid : id ∈ (db.shiftRows H).map Prod.fst
  · rw [entriesOf_restored r hid, Db.entriesOf, k.entryOrder id]
  · have hnone : db.entriesOf H id = [] := by
      refine List.eq_nil_iff_forall_not_mem.mpr fun y hy => hid ?_
      obtain ⟨hmem, rfl⟩ := mem_entriesOf.mp hy
      obtain ⟨s, hs⟩ := Option.isSome_iff_exists.mp (k.drawerEntries y.1 y.2 (db.drawerEntries.mem_rows.mp hmem))
      exact List.mem_map_of_mem ((perm_shiftRows w).mem_iff.mpr (db.shifts.mem_rows.mpr hs))
    rw [hnone]
    refine List.eq_nil_iff_forall_not_mem.mpr fun y hy => hid ?_
    obtain ⟨hmem, rfl⟩ := mem_entriesOf.mp hy
    rw [r.drawerEntries] at hmem
    obtain ⟨e, he, hmem⟩ := List.mem_flatMap.mp hmem
    obtain ⟨x, hx, rfl⟩ := List.mem_map.mp hmem
    have hshift : x.2.restored.shiftId = e.1 := (mem_entriesOf.mp hx).2
    rw [hshift]
    exact List.mem_map_of_mem he

theorem activeShift_kept (r : Restored H now db target db') : db'.activeShift = db.activeShift := by
  have hhistory : (db.history H).find? (fun e => e.2.isActive) = none := by
    refine List.find?_eq_none.mpr fun e he => ?_
    have hinactive := (List.mem_filter.mp ((perm_byDate _ _ _).mem_iff.mp he)).2
    simpa using hinactive
  rw [Db.activeShift, r.shifts, Db.shiftRows, List.find?_append, hhistory]
  cases hactive : db.activeShift with
  | none => rfl
  | some e => simp [isActive_of_active hactive]

/-- The closed shifts are sorted once more. -/
theorem history_restored (r : Restored H now db target db') :
    db'.history H = H.lists.byDate (fun e => e.2.openedAt) (db.history H) := by
  have hactive : db.activeShift.toList.filter (fun e => !e.2.isActive) = [] := by
    refine List.filter_eq_nil_iff.mpr fun e he => ?_
    simp [isActive_of_active (Option.mem_toList.mp he)]
  have hhistory : (db.history H).filter (fun e => !e.2.isActive) = db.history H :=
    List.filter_eq_self.mpr fun e he => (List.mem_filter.mp ((perm_byDate _ _ _).mem_iff.mp he)).2
  rw [Db.history, r.shifts, Db.shiftRows, List.filter_append, hactive, hhistory, List.nil_append]

theorem history_kept (r : Restored H now db target db') (k : db.Kept H) : db'.history H = db.history H :=
  (history_restored r).trans k.shiftOrder

/-- **Every row is restored** where the database is one that a backup keeps. -/
theorem same_of_kept (r : Restored H now db target db') (w : db.WellFormed) (k : db.Kept H) :
    db'.Same (db.normal target) where
  products id := by rw [products_kept r k]
  customers id := by rw [rows_inj r.customers]; rfl
  mechanics id := by rw [rows_inj r.mechanics]; rfl
  sales := get_of_perm ((sales_kept r k).symm ▸ perm_saleRows db)
  saleItems id := by
    rw [r.saleItems]
    exact lines_kept (perm_saleRows db) k.saleItems (fun _ _ => rfl) id
  purchaseOrders := get_of_perm (r.purchaseOrders.symm ▸ perm_newestFirst _ _)
  poItems id := by
    rw [r.poItems]
    exact lines_kept (perm_newestFirst _ _) k.poItems (fun _ _ => rfl) id
  quotes := get_of_perm (r.quotes.symm ▸ perm_newestFirst _ _)
  quoteItems id := by
    rw [r.quoteItems]
    exact lines_kept (perm_newestFirst _ _) (fun e he => (k.quoteItems e he).1)
      (fun e he => e.2.restored_eq_iff.mpr (k.quoteItems e he).2) id
  returns := get_of_perm (r.returns.symm ▸ perm_newestFirst _ _)
  returnItems id := by
    rw [r.returnItems]
    exact lines_kept (perm_newestFirst _ _) k.returnItems (fun _ _ => rfl) id
  movements := get_of_perm (r.movements.symm ▸ perm_newestFirst _ _)
  suppliers id := by rw [rows_inj r.suppliers]; rfl
  paymentAccounts := get_of_perm (by
    rw [accounts_kept r k]
    show List.Perm _ (if db.paymentAccounts.rows = [] then target.paymentAccounts else db.paymentAccounts).rows
    split
    · exact List.Perm.refl _
    · exact perm_accountRows db)
  categories := get_of_perm ((categories_kept r k).symm ▸ perm_categoryRows db)
  creditPayments := get_of_perm (r.creditPayments.symm ▸ perm_newestFirst _ _)
  shifts := get_of_perm (r.shifts.symm ▸ perm_shiftRows w)
  drawerEntries := get_of_perm (perm_entries r w k)
  parkedSales := get_of_perm ((parkedSales_kept r k).symm ▸ perm_newestFirst _ _)
  settings := r.settings
  schemaVersion := by rw [Db.schemaVersionStr, r.schemaVersion]; rfl
  unknownStores store := by rw [rows_inj r.unknownStores]; rfl

/-! ## The second export -/

theorem pairwise_categoryRows (db : Db D) : db.categoryRows.Pairwise fun a b => decide (a.2 ≤ b.2) = true :=
  List.pairwise_mergeSort
    (fun a b c hab hbc => by
      simp only [decide_eq_true_eq] at *
      exact hab.trans hbc)
    (fun a b => by
      simp only [Bool.or_eq_true, decide_eq_true_eq]
      exact Int.le_total _ _) _

/-- Accounts are exported by their sort order, and by id where that is the same. -/
theorem pairwise_accountRows (db : Db D) : db.accountRows.Pairwise fun a b =>
    decide (a.2.sortOrder < b.2.sortOrder ∨ a.2.sortOrder = b.2.sortOrder ∧ a.1 ≤ b.1) = true :=
  List.pairwise_mergeSort
    (fun a b c hab hbc => by
      simp only [decide_eq_true_eq] at *
      rcases hab with hab | ⟨hab, hid⟩ <;> rcases hbc with hbc | ⟨hbc, hid'⟩
      · exact .inl (hab.trans hbc)
      · exact .inl (hbc ▸ hab)
      · exact .inl (hab ▸ hbc)
      · exact .inr ⟨hab.trans hbc, String.le_trans hid hid'⟩)
    (fun a b => by
      simp only [Bool.or_eq_true, decide_eq_true_eq]
      rcases Int.lt_trichotomy a.2.sortOrder b.2.sortOrder with h | h | h
      · exact .inl (.inl h)
      · rcases String.le_total a.1 b.1 with hid | hid
        · exact .inl (.inr ⟨h, hid⟩)
        · exact .inr (.inr ⟨h.symm, hid⟩)
      · exact .inr (.inl h)) _

theorem saleRows_kept (r : Restored H now db target db') (k : db.Kept H) : db'.saleRows = db.saleRows := by
  rw [Db.saleRows, sales_kept r k]
  refine newestFirstByIndex_newestFirst ?_
  rw [List.map_reverse]
  exact List.nodup_reverse.mpr k.saleDates

theorem accountRows_kept (r : Restored H now db target db') (k : db.Kept H) :
    db'.accountRows = (db.normal target).accountRows := by
  rw [Db.accountRows, accounts_kept r k, Db.accountRows]
  show _ = List.mergeSort
    (if db.paymentAccounts.rows = [] then target.paymentAccounts else db.paymentAccounts).rows _
  split
  · rfl
  · exact List.mergeSort_of_pairwise (pairwise_accountRows db)

theorem categoryRows_kept (r : Restored H now db target db') (k : db.Kept H) :
    db'.categoryRows = db.categoryRows := by
  rw [Db.categoryRows, categories_kept r k]
  exact List.mergeSort_of_pairwise (pairwise_categoryRows db)

/-- Every store of a second export is that of the first. -/
theorem knownStores_kept (r : Restored H now db target db') (w : db.WellFormed) (k : db.Kept H) :
    db'.knownStores H = (db.normal target).knownStores H := by
  have same := same_of_kept r w k
  have hproducts : db'.products.rows = (db.normal target).products.rows := by rw [products_kept r k]
  have hsales : db'.saleRows = (db.normal target).saleRows := (saleRows_kept r k).trans rfl
  have hsettings : db'.settings = (db.normal target).settings := r.settings
  have hcategories : db'.categoryRows = (db.normal target).categoryRows := (categoryRows_kept r k).trans rfl
  have hactive : db'.activeShift = (db.normal target).activeShift := (activeShift_kept r).trans rfl
  have hhistory : db'.history H = (db.normal target).history H := (history_kept r k).trans rfl
  have hshift : ∀ id s, db'.shiftToMap H id s = (db.normal target).shiftToMap H id s := fun id s => by
    rw [Db.shiftToMap, entriesOf_kept r w k]
    rfl
  have hshifts : db'.shiftToMap H = (db.normal target).shiftToMap H := funext fun id => funext (hshift id)
  rw [Db.knownStores, Db.knownStores, hproducts, r.customers, hsales, hsettings, r.mechanics, r.suppliers,
    r.purchaseOrders, r.quotes, r.returns, r.movements, hcategories, r.creditPayments, hshifts, hactive, hhistory,
    parkedSales_kept r k, accountRows_kept r k, same.schemaVersion]
  simp only [newestFirst_newestFirst, same.saleItems, same.poItems, same.quoteItems, same.returnItems]
  rfl

/-- And so are its counts. -/
theorem recordCounts_kept (r : Restored H now db target db') (k : db.Kept H) :
    db'.recordCounts H = (db.normal target).recordCounts H := by
  have hperm : ∀ {α : Type} {l l' m : List α}, l = l' → l'.Perm m → l.length = m.length :=
    fun h hperm => h ▸ hperm.length_eq
  have haccounts : db'.paymentAccounts.rows.length = (db.normal target).paymentAccounts.rows.length := by
    rw [← (perm_accountRows db').length_eq, accountRows_kept r k, (perm_accountRows _).length_eq]
  have hproducts : db'.products.rows = (db.normal target).products.rows := by rw [products_kept r k]
  rw [Db.recordCounts, Db.recordCounts, hproducts, r.customers, hperm (sales_kept r k) (perm_saleRows db),
    hperm r.purchaseOrders (perm_newestFirst _ _), hperm r.movements (perm_newestFirst _ _), r.suppliers,
    r.mechanics, hperm r.quotes (perm_newestFirst _ _), hperm r.returns (perm_newestFirst _ _),
    hperm r.creditPayments (perm_newestFirst _ _), history_kept r k,
    hperm (parkedSales_kept r k) (perm_newestFirst _ _), hperm (categories_kept r k) (perm_categoryRows db),
    activeShift_kept r, haccounts]
  rfl

theorem export_kept (r : Restored H now db target db') (w : db.WellFormed) (k : db.Kept H) (text : String) :
    exportSnapshot H text db' = exportSnapshot H text (db.normal target) := by
  have hunknown : db'.unknownStores.rows = (db.normal target).unknownStores.rows := r.unknownStores
  have hsettings : db'.settings = (db.normal target).settings := r.settings
  rw [exportSnapshot, exportSnapshot, knownStores_kept r w k, recordCounts_kept r k, hunknown, hsettings,
    (same_of_kept r w k).schemaVersion]

end Kept

/-! ## Whatever comes back was kept -/

theorem bind_inv {α β : Type} {act : Action D α} {f : α → Action D β} {d d' : Device D} {b : β}
    (h : (act >>= f) d = .ok b d') : ∃ a d₁, act d = .ok a d₁ ∧ f a d₁ = .ok b d' := by
  change EStateM.bind act f d = _ at h
  rw [EStateM.bind] at h
  split at h
  · next a d₁ hact => exact ⟨a, d₁, hact, h⟩
  · cases h

theorem forM_inv {α : Type} {f : α → Action D Unit} {l : List α} {d d' : Device D}
    (h : forM l f d = .ok () d') {a : α} (ha : a ∈ l) : ∃ d₁ d₂, f a d₁ = .ok () d₂ := by
  induction l generalizing d with
  | nil => cases ha
  | cons b l ih =>
      rw [List.forM_cons] at h
      obtain ⟨_, d₁, hb, h⟩ := bind_inv h
      rcases List.mem_cons.mp ha with rfl | ha
      · exact ⟨d, d₁, hb⟩
      · exact ih h ha

/-- A payload with a date out of range stops the whole import. -/
theorem said_of_importParked {id : String} {p : ParkedSaleRow D} (hid : p.CarriesId id) {d d' : Device D}
    (h : importParked H (p.toMap id) d = .ok () d') : ∃ m, p.said H = .ok m := by
  obtain ⟨o, hpayload, hid⟩ := hid
  have hmap : p.toMap id = o := by rw [ParkedSaleRow.toMap, hpayload]
  have hsaid : p.said H = parseDate H (get o "parkedAt") := by rw [ParkedSaleRow.said, hpayload]
  rw [hmap, importParked, hid, idOf_text, pure_bind] at h
  obtain ⟨_, _, h, -⟩ := bind_inv h
  obtain ⟨_, _, h, -⟩ := bind_inv h
  cases hparse : parseDate H (get o "parkedAt") with
  | ok m => exact ⟨m, hsaid.trans hparse⟩
  | error e =>
      rw [dateOf, hparse] at h
      cases h

/-- An import that succeeds has read a time for each parked bill. -/
theorem said_of_import (w : db.WellFormed) {text : String} {d d' : Device D}
    (h : importStores H (exportSnapshot H text db) d = .ok () d') :
    ∀ e ∈ db.parkedSales.rows, ∃ m, e.2.said H = .ok m := by
  intro e he
  unfold importStores at h
  dsimp only at h
  rw [(file_export text db).parked] at h
  -- The parked sales come after the other tables.
  iterate 15 obtain ⟨_, _, -, h⟩ := bind_inv h
  obtain ⟨_, _, h, -⟩ := bind_inv h
  have hmem : e.2.toMap e.1 ∈
      (newestFirst (fun e => e.2.parkedAt) db.parkedSales.rows).map fun e => e.2.toMap e.1 :=
    List.mem_map_of_mem ((perm_newestFirst _ _).mem_iff.mpr he)
  obtain ⟨_, _, hrun⟩ := forM_inv h hmem
  exact said_of_importParked (w.parkedIds e.1 e.2 (db.parkedSales.mem_rows.mp he)) hrun

/-! ## The round trip -/

theorem importLegacyBackup_export (text : String) (db : Db D) :
    importLegacyBackup H false (exportSnapshot H text db) =
      transaction (importStores H (exportSnapshot H text db)) := by
  rw [importLegacyBackup, if_neg Bool.false_ne_true, if_neg (by rw [get_meta]; exact Bool.false_ne_true)]

theorem roundTrips_of_kept (w : db.WellFormed) (k : db.Kept H) : RoundTrips H db := by
  intro text d
  have hids : ∀ e ∈ db.parkedSales.rows, e.2.CarriesId e.1 :=
    fun e he => w.parkedIds e.1 e.2 (db.parkedSales.mem_rows.mp he)
  have hdates : ∀ e ∈ db.parkedSales.rows, ∃ m, e.2.said H = .ok m := fun e he => by
    obtain ⟨m, hm, -⟩ := k.parkedSales e.1 e.2 (db.parkedSales.mem_rows.mp he)
    exact ⟨some m, hm⟩
  obtain ⟨d', hrun, r⟩ := run_import text hids hdates d
  refine ⟨d', ?_, same_of_kept r w k, export_kept r w k⟩
  rw [importLegacyBackup_export, transaction, hrun]

/-- What a round trip gives, read into the database itself at any time. -/
theorem restored_of_roundTrips (w : db.WellFormed) (h : RoundTrips H db) (now : Instant) :
    (∀ e ∈ db.parkedSales.rows, ∃ m, e.2.said H = .ok m) ∧
      ∃ db', Restored H now db db db' ∧ db'.Same (db.normal db) ∧
        ∀ text, exportSnapshot H text db' = exportSnapshot H text (db.normal db) := by
  obtain ⟨d', hrun, hsame, hexport⟩ := h "" ⟨db, 0, now⟩
  rw [importLegacyBackup_export, transaction] at hrun
  split at hrun
  · next d'' himport =>
      obtain ⟨d₁, hrun', r⟩ := run_import "" (fun e he => w.parkedIds e.1 e.2 (db.parkedSales.mem_rows.mp he))
        (said_of_import w himport) ⟨db, 0, now⟩
      rw [himport] at hrun'
      cases hrun
      cases hrun'
      exact ⟨said_of_import w himport, _, r, hsame, hexport⟩
  · cases hrun

/-- The rows of a table, each changed. -/
theorem get_of_rows {ρ : Type} {t t' : Table String ρ} {rows : List (String × ρ)} (hrows : rows.Perm t.rows)
    {f : ρ → ρ} (h : t'.rows = rows.map fun e => (e.1, f e.2)) (id : String) : t'.get id = (t.get id).map f := by
  rw [← Table.get_map]
  refine get_of_perm ?_ id
  rw [h]
  exact hrows.map _

/-- Where each document has its lines back, every line had its document. -/
theorem kept_of_lines {ρ α : Type} {t : Table String ρ} {rows : List (String × ρ)} (hrows : rows.Perm t.rows)
    {lines lines' : List (String × α)} {f : α → α}
    (hlines' : lines' = rows.flatMap fun e => (linesOf lines e.1).map fun it => (e.1, f it))
    (h : ∀ id, linesOf lines' id = linesOf lines id) : ∀ e ∈ lines, (t.get e.1).isSome ∧ f e.2 = e.2 := by
  intro e he
  have hmem := mem_linesOf he
  have hlines := h e.1
  rw [hlines', linesOf_flatMap (nodup_of_perm hrows)] at hlines
  split at hlines
  · next hid =>
      obtain ⟨row, hrow, hrow'⟩ := List.mem_map.mp hid
      have hget := t.mem_rows.mp (hrows.mem_iff.mp hrow)
      rw [hrow'] at hget
      exact ⟨Option.isSome_of_mem hget, List.map_inj_left.mp (hlines.trans (List.map_id _).symm) e.2 hmem⟩
  · rw [← hlines] at hmem
    cases hmem

/-- No list without repetitions has two of its elements in both orders. -/
theorem not_both {α : Type} {l : List α} (hl : l.Nodup) {a b : α} (hab : [a, b].Sublist l) :
    ¬ [b, a].Sublist l := by
  induction l with
  | nil => cases hab
  | cons c l ih =>
      obtain ⟨hnot, hl⟩ := List.nodup_cons.mp hl
      have hright : ∀ {x y : α}, [x, y].Sublist l → y ∈ l := fun h => h.subset (by simp)
      intro hba
      cases hab with
      | cons _ hab =>
          cases hba with
          | cons _ hba => exact ih hl hab hba
          | cons_cons _ _ => exact hnot (hright hab)
      | cons_cons _ _ =>
          cases hba with
          | cons _ hba => exact hnot (hright hba)
          | cons_cons _ ha => exact hnot (List.singleton_sublist.mp ha)

/-- An export tells the order of the bills. -/
theorem saleIds_of_export {db₁ db₂ : Db D} {text : String}
    (h : exportSnapshot H text db₁ = exportSnapshot H text db₂) :
    db₁.saleRows.map Prod.fst = db₂.saleRows.map Prod.fst := by
  have hsales := (file_export (H := H) text db₁).sales
  rw [h, (file_export (H := H) text db₂).sales] at hsales
  have hids := congrArg (List.map fun o => get o "id") hsales
  rw [List.map_map, List.map_map] at hids
  have htexts : ∀ db : Db D, db.saleRows.map (Dyn.text (D := D) ∘ Prod.fst) =
      db.saleRows.map ((fun o => get o "id") ∘ fun e => e.2.toMap (linesOf db.saleItems e.1) e.1) := fun db =>
    List.map_congr_left fun e _ => by simp [SaleRow.toMap]
  rw [← htexts, ← htexts, ← List.map_map, ← List.map_map] at hids
  exact ((List.map_injective_iff.mpr fun _ _ h => Dyn.text.inj h) hids).symm

/-- Two sales of one second come back in the other order. -/
theorem saleDates_of_export {now : Instant} {db' : Db D} (r : Restored H now db target db')
    (hids : db'.saleRows.map Prod.fst = db.saleRows.map Prod.fst) :
    (db.sales.rows.map fun e => e.2.date.seconds).Nodup := by
  have hnodup := nodup_of_perm (perm_saleRows db)
  have hrows : db'.saleRows =
      (newestFirst (fun e => e.2.date) db.saleRows.reverse).map fun e => (e.1, e.2.restored) := by
    rw [Db.saleRows, r.sales, newestFirstByIndex, ← List.map_reverse]
    exact newestFirst_map (fun _ => rfl) _
  have hkeys : (newestFirst (fun e => e.2.date) db.saleRows.reverse).map Prod.fst = db.saleRows.map Prod.fst := by
    rw [← hids, hrows, List.map_map]
    rfl
  refine (((perm_saleRows db).map fun e => e.2.date.seconds).nodup_iff).mp ?_
  refine List.pairwise_map.mpr (List.pairwise_iff_forall_sublist.mpr fun {a b} hab heq => ?_)
  have hba : [b, a].Sublist (newestFirst (fun e => e.2.date) db.saleRows.reverse) := by
    refine List.pair_sublist_mergeSort ?_ ?_ ?_ (by simpa using hab.reverse)
    · intro x y z hxy hyz
      simp only [decide_eq_true_eq] at *
      exact hyz.trans hxy
    · intro x y
      simp only [Bool.or_eq_true, decide_eq_true_eq]
      exact Int.le_total _ _
    · exact decide_eq_true heq.le
  have hba' := hba.map Prod.fst
  rw [hkeys] at hba'
  exact not_both hnodup (hab.map Prod.fst) hba'

/-- Rows whose ids are in one order are in one order. -/
theorem eq_of_keys {ρ : Type} {rows rows' : List (String × ρ)} (hperm : rows.Perm rows')
    (hnodup : (rows'.map Prod.fst).Nodup) (hkeys : rows.map Prod.fst = rows'.map Prod.fst) : rows = rows' := by
  refine List.ext_getElem hperm.length_eq fun i hi hi' => ?_
  have hkey : rows[i].1 = rows'[i].1 := by
    have hget := List.getElem_of_eq hkeys (by rwa [List.length_map])
    rwa [List.getElem_map, List.getElem_map] at hget
  exact List.inj_on_of_nodup_map hnodup (hperm.mem_iff.mp (List.getElem_mem hi)) (List.getElem_mem hi') hkey

/-- The map of a shift tells its id and the ids of its entries. -/
theorem ids_of_shiftMap {s s' : ShiftRow D} {entries entries' : List (String × DrawerEntryRow D)} {id id' : String}
    (h : s.toMap entries id = s'.toMap entries' id') :
    id = id' ∧ entries.map Prod.fst = entries'.map Prod.fst := by
  have hid : ∀ (s : ShiftRow D) entries id, get (s.toMap entries id) "id" = .text id := fun s entries id => by
    simp [ShiftRow.toMap]
  have hentries : ∀ (s : ShiftRow D) entries id,
      (asList (get (s.toMap entries id) "entries")).map (fun o => get o "id") =
        (entries.map Prod.fst).map Dyn.text := fun s entries id => by
    simp [ShiftRow.toMap, DrawerEntryRow.toMap, asList, asObject, Function.comp_def]
  constructor
  · have hids := hid s entries id
    rw [h, hid] at hids
    exact (Dyn.text.inj hids).symm
  · have hids := hentries s entries id
    rw [h, hentries] at hids
    exact ((List.map_injective_iff.mpr fun _ _ h => Dyn.text.inj h) hids).symm

section Orders
variable {now : Instant} {db' : Db D} {text : String}

theorem historyMaps_of_export (h : exportSnapshot H text db' = exportSnapshot H text (db.normal target)) :
    (db'.history H).map (fun e => db'.shiftToMap H e.1 e.2) =
      (db.history H).map fun e => (db.normal target).shiftToMap H e.1 e.2 := by
  have hmaps := (file_export (H := H) text db').history
  rw [h, (file_export (H := H) text (db.normal target)).history] at hmaps
  exact hmaps.symm

/-- A file in which the closed shifts are as they were. -/
theorem shiftOrder_of_export (r : Restored H now db target db')
    (h : exportSnapshot H text db' = exportSnapshot H text (db.normal target)) : db'.history H = db.history H := by
  have hkeys : (db'.history H).map Prod.fst = (db.history H).map Prod.fst := by
    have hids := congrArg (List.map fun o => get o "id") (historyMaps_of_export h)
    have htexts : ∀ db₁ db₂ : Db D, ((db₁.history H).map fun e => db₂.shiftToMap H e.1 e.2).map
        (fun o => get o "id") = ((db₁.history H).map Prod.fst).map Dyn.text := fun db₁ db₂ => by
      simp [Db.shiftToMap, ShiftRow.toMap, Function.comp_def]
    rw [htexts, htexts] at hids
    exact (List.map_injective_iff.mpr fun _ _ h => Dyn.text.inj h) hids
  have hnodup := nodup_shiftRows H db
  rw [Db.shiftRows, List.map_append] at hnodup
  rw [history_restored r] at hkeys ⊢
  exact eq_of_keys (perm_byDate _ _ _) (List.nodup_append'.mp hnodup).2.1 hkeys

/-- A file in which the entries of every shift are as they were. -/
theorem entryOrder_of_export (r : Restored H now db target db')
    (h : exportSnapshot H text db' = exportSnapshot H text (db.normal target)) {e : String × ShiftRow D}
    (he : e ∈ db.shiftRows H) :
    H.lists.Settles (fun e => e.2.createdAt) (db.drawerEntries.rows.filter fun x => x.2.shiftId = e.1) := by
  have hmap : db'.shiftToMap H e.1 e.2 = (db.normal target).shiftToMap H e.1 e.2 := by
    rcases List.mem_append.mp he with hactive | hhistory
    · have hdrawer := (file_export (H := H) text db').cashDrawer
      have hactive' : (db.normal target).activeShift = some e := Option.mem_toList.mp hactive
      rw [h, (file_export (H := H) text (db.normal target)).cashDrawer, activeShift_kept r, hactive',
        Option.mem_toList.mp hactive] at hdrawer
      exact (Dyn.object.inj hdrawer).symm
    · have hmaps := historyMaps_of_export h
      rw [shiftOrder_of_export r h] at hmaps
      exact List.map_inj_left.mp hmaps e hhistory
  have hkeys := (ids_of_shiftMap hmap).2
  rw [entriesOf_restored r (List.mem_map_of_mem he), entriesOf_normal, List.map_map, List.map_map] at hkeys
  refine eq_of_keys (perm_byDate _ _ _) ?_ hkeys
  exact ((perm_byDate _ _ _).map Prod.fst).nodup_iff.mpr (db.drawerEntries.nodup.sublist (List.filter_sublist.map _))

end Orders

/-- **The condition is needed**: a database whose backup restores every row is one that a backup keeps. -/
theorem kept_of_roundTrips (w : db.WellFormed) (h : RoundTrips H db) : db.Kept H := by
  obtain ⟨hdates, db', r, same, hexport⟩ := restored_of_roundTrips w h ⟨0, by decide⟩
  have hquotes := kept_of_lines (perm_newestFirst _ _) r.quoteItems same.quoteItems
  -- the restored entries come from the shifts of the file
  have hshifts : ∀ id e, db.drawerEntries.get id = some e → (db.shifts.get e.shiftId).isSome := by
    intro id e he
    have hget := same.drawerEntries id
    rw [Db.normal, Table.get_map, he] at hget
    have hget := (Table.mem_rows _).mpr hget
    rw [r.drawerEntries] at hget
    obtain ⟨s, hs, hmem⟩ := List.mem_flatMap.mp hget
    obtain ⟨y, hy, heq⟩ := List.mem_map.mp hmem
    obtain ⟨hy, hshift⟩ := mem_entriesOf.mp hy
    have hid : y.1 = id := congrArg Prod.fst heq
    have hrow := db.drawerEntries.mem_rows.mp hy
    rw [hid, he] at hrow
    rw [Option.some.inj hrow, hshift]
    exact Option.isSome_of_mem (db.shifts.mem_rows.mp (mem_shiftRows hs))
  -- each field is read off the table that came back
  constructor
  case products =>
    intro id p hp
    have hget := same.products id
    have hproducts : db'.products = db.products.map ProductRow.restored := rows_inj r.products
    rw [hproducts, Db.normal, Table.get_map, Table.get_map, hp] at hget
    exact p.restored_eq_iff.mp (Option.some.inj hget)
  case sales =>
    intro id s hs
    have hget := same.sales id
    rw [get_of_rows (perm_saleRows db) r.sales, hs] at hget
    exact s.restored_eq_iff.mp (Option.some.inj (hget.trans hs))
  case saleDates => exact saleDates_of_export r ((saleIds_of_export (hexport "")).trans rfl)
  case saleItems => exact fun e he => (kept_of_lines (perm_saleRows db) r.saleItems same.saleItems e he).1
  case poItems => exact fun e he => (kept_of_lines (perm_newestFirst _ _) r.poItems same.poItems e he).1
  case quoteItems => exact fun e he => ⟨(hquotes e he).1, e.2.restored_eq_iff.mp (hquotes e he).2⟩
  case returnItems => exact fun e he => (kept_of_lines (perm_newestFirst _ _) r.returnItems same.returnItems e he).1
  case drawerEntries => exact hshifts
  -- an entry of no shift is in no list
  case entryOrder =>
    intro id
    by_cases hid : id ∈ (db.shiftRows H).map Prod.fst
    · obtain ⟨e, he, rfl⟩ := List.mem_map.mp hid
      exact entryOrder_of_export r (hexport "") he
    · have hnone : (db.drawerEntries.rows.filter fun x => x.2.shiftId = id) = [] := by
        refine List.filter_eq_nil_iff.mpr fun x hx hshift => hid ?_
        obtain ⟨s, hs⟩ := Option.isSome_iff_exists.mp (hshifts x.1 x.2 (db.drawerEntries.mem_rows.mp hx))
        rw [of_decide_eq_true hshift] at hs
        exact List.mem_map_of_mem ((perm_shiftRows w).mem_iff.mpr (db.shifts.mem_rows.mpr hs))
      rw [hnone, ListSort.Settles, byDate_nil, byDate_nil]
  case shiftOrder => exact (history_restored r).symm.trans (shiftOrder_of_export r (hexport ""))
  case pictures =>
    intro id a ha
    have hsome : db.paymentAccounts.rows ≠ [] := List.ne_nil_of_mem (db.paymentAccounts.mem_rows.mpr ha)
    have hget := same.paymentAccounts id
    have hrows := r.paymentAccounts
    rw [if_neg hsome] at hrows
    have hnormal : (db.normal db).paymentAccounts = db.paymentAccounts := if_neg hsome
    rw [get_of_rows (perm_accountRows db) hrows, hnormal, ha] at hget
    exact a.restored_eq_iff.mp (Option.some.inj hget)
  case categories =>
    intro e he
    have hposition : (e.1.1, (e.2 : Int)) ∈ db'.categories.rows := by
      rw [r.categories]
      exact List.mem_map_of_mem he
    have hrow := db.categories.mem_rows.mp ((perm_categoryRows db).mem_iff.mp (List.fst_mem_of_mem_zipIdx he))
    have hget := (db'.categories.mem_rows.mp hposition).symm.trans ((same.categories e.1.1).trans hrow)
    exact (Option.some.inj hget).symm
  case parkedSales =>
    intro id p hp
    -- A payload that names no time takes the time of the import, whichever it is.
    obtain ⟨now, hnow⟩ : ∃ now : Instant, now ≠ p.parkedAt := by
      by_cases hzero : (⟨0, by decide⟩ : Instant) = p.parkedAt
      · exact ⟨⟨1, by decide⟩, fun hone => by simpa using hzero.trans hone.symm⟩
      · exact ⟨_, hzero⟩
    obtain ⟨-, db', r, same, -⟩ := restored_of_roundTrips w h now
    have hget := same.parkedSales id
    rw [get_of_rows (perm_newestFirst _ _) r.parkedSales, hp] at hget
    have heq : p.restored H now = p := Option.some.inj (hget.trans hp)
    obtain ⟨m, hm⟩ := hdates (id, p) (db.parkedSales.mem_rows.mpr hp)
    have htime : (m.map Moment.toInstant).getD now = p.parkedAt := by
      rw [ParkedSaleRow.restored, hm] at heq
      exact congrArg ParkedSaleRow.parkedAt heq
    cases m with
    | none => exact absurd htime hnow
    | some m => exact ⟨m, hm, htime⟩

/-- The normalised database writes the same file, where there are no zones to migrate and no accounts to keep. -/
theorem export_normal (hzones : ∀ id p, db.products.get id = some p → p.zone = none)
    (haccounts : db.paymentAccounts.rows = [] → target.paymentAccounts.rows = []) (text : String) :
    exportSnapshot H text (db.normal target) = exportSnapshot H text db := by
  have hproducts : (db.normal target).products = db.products := by
    refine rows_inj ((List.map_congr_left fun e he => ?_).trans (List.map_id _))
    rw [← hzones e.1 e.2 (db.products.mem_rows.mp he)]
    rfl
  have haccounts : (db.normal target).paymentAccounts = db.paymentAccounts := by
    show (if db.paymentAccounts.rows = [] then target.paymentAccounts else db.paymentAccounts) = _
    split
    · next h => exact rows_inj ((haccounts h).trans h.symm)
    · rfl
  have hshift : (db.normal target).shiftToMap H = db.shiftToMap H := by
    funext id s
    have hentries : (db.normal target).entriesOf H id = (db.entriesOf H id).map fun x => (x.1, x.2.restored) :=
      entriesOf_normal id
    rw [Db.shiftToMap, hentries, Db.shiftToMap, ShiftRow.toMap, ShiftRow.toMap, List.map_map]
    rfl
  have hknown : (db.normal target).knownStores H = db.knownStores H := by
    rw [Db.knownStores, Db.knownStores, hproducts, Db.accountRows, haccounts, hshift]
    rfl
  have hcounts : (db.normal target).recordCounts H = db.recordCounts H := by
    rw [Db.recordCounts, Db.recordCounts, hproducts, haccounts]
    rfl
  rw [exportSnapshot, exportSnapshot, hknown, hcounts]
  rfl

/-- A restore is all or nothing, and loses nothing of a database exactly when the file has a place for all that
is in it. The second file is the first where there are no zones to migrate and no accounts to keep. -/
theorem backup_lossless (w : db.WellFormed) :
    ((RoundTrips H db ∧ ∀ restoresViaServer data e (d d' : Device D),
        importLegacyBackup H restoresViaServer data d = .error e d' → d'.db = d.db) ↔ db.Kept H) ∧
    ∀ target text, (∀ id p, db.products.get id = some p → p.zone = none) →
      (db.paymentAccounts.rows = [] → target.paymentAccounts.rows = []) →
        exportSnapshot H text (db.normal target) = exportSnapshot H text db := by
  refine ⟨?_, fun target text hzones haccounts => export_normal hzones haccounts text⟩
  refine ⟨fun h => kept_of_roundTrips w h.1, fun k => ⟨roundTrips_of_kept w k, ?_⟩⟩
  intro restoresViaServer data e d d' h
  unfold importLegacyBackup at h
  split_ifs at h
  · cases h
    rfl
  · cases h
    rfl
  · rw [transaction] at h
    split at h
    · cases h
    · cases h
      rfl

/-! ## A shop -/

/-- A stable sort. -/
def stableSort : ListSort where
  sort compare l := l.mergeSort fun a b => (compare a b).isLE
  perm _ l := List.mergeSort_perm l _
  sorted compare htrans l := List.pairwise_mergeSort (fun _ _ _ => Std.TransCmp.isLE_trans) (fun a b => by
    have hswap : compare a b = (compare b a).swap := Std.OrientedCmp.eq_swap
    rw [hswap]
    cases compare b a <;> rfl) l
  map f compare l :=
    (List.map_mergeSort (f := f) (r := fun a b => (compare (f a) (f b)).isLE) fun _ _ _ _ => rfl).symm

/-- Satang for numbers. -/
def satang : Host Int where
  ofInt n := n
  toInt n := n
  nonzero n := n ≠ 0
  parseInt := String.toInt?
  parseDouble := String.toInt?
  shown _ := ""
  lists := stableSort
  localMinutes := 420
  newUuid := toString

def noon : Instant := ⟨1735707600, by decide⟩

/-- A shop with one bill, which was made with the server or without it. -/
def shop (soldOffline : Bool) : Db Int where
  products := Table.empty.insert "p1" {
    partNo := "OIL-1", name := "Oil", nameTH := "น้ำมัน", category := "น้ำมัน", brand := "", price := 12000
    cost := 9000, stock := 3, minStock := 1, compat := none, zone := some "Oils", updatedAt := some noon
    deletedAt := none, imageKey := none }
  customers := .empty
  mechanics := .empty
  sales := Table.empty.insert "s1" {
    receiptNo := "R-1", subtotal := 12000, discount := 0, total := 12000, paymentMethod := "cash"
    customerId := none, customerName := none, mechanicId := none, mechanicName := none, mechanicDelta := none
    pointsGranted := 0, date := noon, voided := false, voidedAt := none, shiftId := none, soldOffline
    voidReason := none, paymentAccountId := none }
  saleItems := [("s1", {
    productId := "p1", partNo := some "OIL-1", name := "Oil", nameTH := none, qty := 1, price := 12000
    costAtSale := some 9000 })]
  purchaseOrders := .empty
  poItems := []
  quotes := .empty
  quoteItems := []
  returns := .empty
  returnItems := []
  movements := .empty
  suppliers := .empty
  paymentAccounts := .empty
  categories := Table.empty.insert "น้ำมัน" 0
  creditPayments := .empty
  shifts := .empty
  drawerEntries := .empty
  parkedSales := Table.empty.insert "k1" {
    parkedAt := noon
    payload := .json (.object [("id", .text "k1"), ("parkedAt", .text (toIso8601String noon))]) }
  settings := {
    shopName := "Srisurart", shopNameEN := "Srisurart", taxRate := 7, quoteValidDays := 30, address := none
    phone := none, cashierName := none, taxId := none, branchNo := none, updatedAt := none }
  schemaVersion := some "2"
  demoSeedPurged := true
  unknownStores := .empty

/-- The one row of a table. -/
theorem eq_of_single {ρ : Type} {t : Table String ρ} {k : String} {row : ρ} (hrows : t.rows = [(k, row)])
    {id : String} {v : ρ} (h : t.get id = some v) : id = k ∧ v = row := by
  have hmem := t.mem_rows.mpr h
  rw [hrows, List.mem_singleton] at hmem
  cases hmem
  exact ⟨rfl, rfl⟩

theorem wellFormed_shop (soldOffline : Bool) : (shop soldOffline).WellFormed where
  oneActive _ _ _ _ h := by cases h
  parkedIds id p h := by
    obtain ⟨rfl, rfl⟩ := eq_of_single (t := (shop soldOffline).parkedSales) rfl h
    exact ⟨_, rfl, rfl⟩

/-- The shop of the example, without the offline mark, is such a database. -/
theorem kept_shop : (shop false).Kept satang where
  products id p h := by
    obtain ⟨rfl, rfl⟩ := eq_of_single (t := (shop false).products) rfl h
    exact ⟨rfl, rfl⟩
  sales id s h := by
    obtain ⟨rfl, rfl⟩ := eq_of_single (t := (shop false).sales) rfl h
    exact ⟨rfl, rfl, rfl⟩
  saleDates := by decide
  saleItems := by decide
  poItems _ h := by cases h
  quoteItems _ h := by cases h
  returnItems _ h := by cases h
  drawerEntries _ _ h := by cases h
  entryOrder _ := settles_of_nodup _ List.nodup_nil
  shiftOrder := settles_of_nodup _ List.nodup_nil
  pictures _ _ h := by cases h
  categories e h := by
    have hrows : (shop false).categoryRows = [("น้ำมัน", 0)] := List.mergeSort_singleton _
    rw [hrows] at h
    rw [List.mem_singleton.mp h]
    rfl
  parkedSales id p h := by
    obtain ⟨rfl, rfl⟩ := eq_of_single (t := (shop false).parkedSales) rfl h
    refine ⟨noon.toMoment, ?_, Instant.toInstant_toMoment noon⟩
    show parseDate satang (.text (toIso8601String noon)) = _
    rw [parseDate, if_neg (toIso8601String_ne noon), tryParse_toIso8601String]

/-- A bill made with the server comes back whole. -/
theorem backup_lossless_shop : (shop false).WellFormed ∧ (shop false).Kept satang ∧ RoundTrips satang (shop false) :=
  ⟨wellFormed_shop false, kept_shop, ((backup_lossless (wellFormed_shop false)).1.mpr kept_shop).1⟩

/-- A bill made without the server loses the mark that it was. -/
theorem offline_mark_lost : (shop true).WellFormed ∧ ¬ RoundTrips satang (shop true) :=
  ⟨wellFormed_shop true, fun h =>
    absurd ((kept_of_roundTrips (wellFormed_shop true) h).sales "s1" _ rfl).2.1 (by decide)⟩

end Till.Backup

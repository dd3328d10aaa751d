import SrisurartPos.Till.ExactUndo

/-! # The stock through discards

Whatever is sold, voided, taken back and discarded in whatever order, no stock goes below zero: the
undo of a credit note or a void is refused when the units are gone, and a bill, with its void or
without, gives back at least what it took. For the latter the records must fit the bills, which holds of
every run (`Kept`). -/

namespace Cache

open Server Money

namespace AppDatabase

/-- An operation of this kind is queued under this id. -/
def Has (i : Nat) (kind : OpKind) (db : AppDatabase) : Prop :=
  (∃ op ∈ db.outboxOps, op.opId = i ∧ op.payload.payload.kind = kind) ∨
    ∃ op ∈ db.otherOps, op.opId = i ∧ op.payload.op.kind = kind

/-- The ids of the outbox. -/
def opIds (db : AppDatabase) : List Nat := db.outboxOps.map (·.opId) ++ db.otherOps.map (·.opId)

/-- The queued operations fit the documents they are about. -/
structure Kept (db : AppDatabase) : Prop where
  ids : db.opIds.Nodup
  stock : ∀ {p row}, db.products.get p = some row → 0 ≤ row.stock
  lines : ∀ {x sale}, db.sales.get x = some sale → ∀ i ∈ sale.items, 0 ≤ i.qty
  noteLines : ∀ {r note}, db.returns.get r = some note → ∀ i ∈ note.items, 0 < i.qty
  bill : ∀ {i x}, db.Has i (.saleCreate x) → ∃ sale, db.sales.get x = some sale ∧
    ∀ e, db.opEffects.get i = some e →
      e.voidedSaleId = none ∧ ∀ p, e.moved p = -shiftOf sale.moves p
  oneBill : ∀ {i j x}, db.Has i (.saleCreate x) → db.Has j (.saleCreate x) → i = j
  void : ∀ {i x}, db.Has i (.saleVoidOffline x) → ∃ sale, db.sales.get x = some sale ∧
    sale.voided = true ∧ ∀ e, db.opEffects.get i = some e →
      e.voidedSaleId = some x ∧ ∀ p, e.moved p ≤ shiftOf sale.moves p
  oneVoid : ∀ {i j x}, db.Has i (.saleVoidOffline x) → db.Has j (.saleVoidOffline x) → i = j
  note : ∀ {i r}, db.Has i (.returnCreate r) → ∃ note, db.returns.get r = some note ∧
    note.items ≠ [] ∧
      (∀ e y, db.opEffects.get i = some e → e.voidedSaleId = some y → y = note.saleId) ∧
        ∀ j, ¬db.Has j (.saleVoidOffline note.saleId)
  oneNote : ∀ {i j r}, db.Has i (.returnCreate r) → db.Has j (.returnCreate r) → i = j

/-- What else writes to the database, a pull or the reply to a push, say. It may take operations out
of the outbox and change any row, but not those that the operations left in it are about. -/
structure Outside (db db' : AppDatabase) : Prop where
  ids : db'.opIds.Nodup
  has : ∀ {i kind}, db'.Has i kind → kind ≠ .other → db.Has i kind
  opEffects : ∀ {i kind e}, db'.Has i kind → kind ≠ .other → db'.opEffects.get i = some e →
    db.opEffects.get i = some e
  stock : ∀ {p row}, db'.products.get p = some row → 0 ≤ row.stock
  lines : ∀ {x sale}, db'.sales.get x = some sale → ∀ i ∈ sale.items, 0 ≤ i.qty
  noteLines : ∀ {r note}, db'.returns.get r = some note → ∀ i ∈ note.items, 0 < i.qty
  sales : ∀ {x sale}, db.sales.get x = some sale →
    (∃ i, db'.Has i (.saleCreate x) ∨ db'.Has i (.saleVoidOffline x)) →
      ∃ sale', db'.sales.get x = some sale' ∧ sale'.moves = sale.moves ∧
        ((∃ i, db'.Has i (.saleVoidOffline x)) → sale'.voided = sale.voided)
  returns : ∀ {i r}, db'.Has i (.returnCreate r) → db'.returns.get r = db.returns.get r

/-- A bill, a note, a void or a customer that is made offline, a discard, or a write from elsewhere.
What a bill reads of the products it may have read at any time before. -/
inductive Step : AppDatabase → AppDatabase → Prop where
  | save {db db' opId key x input byId shiftId no now sale} :
      (∀ i ∈ SaleInput.items input, 0 < i.qty) →
      db.saveOfflineTx opId key x input byId shiftId no now = .ok (sale, db') → Step db db'
  | void {db db' opId key x reason now sale} :
      db.voidSaleOffline opId key x reason now = .ok (sale, db') → Step db db'
  | note {db db' opId key r x input no now note} : input.items ≠ [] → (∀ i ∈ input.items, 0 < i.qty) →
      db.createOffline opId key r x input no now = .ok (note, db') → Step db db'
  | customer {db db' opId key c contact now} :
      db.queueOfflineCustomer opId key c contact now = .ok db' → Step db db'
  | edit {db db' opId key c patch now} :
      db.queueOfflineUpdate opId key c patch now = .ok db' → Step db db'
  | discard {db db' opId reply} : db.discard opId reply = .ok db' → Step db db'
  | outside {db db'} : db.Outside db' → Step db db'

/-- A till with nothing queued, and no stock below zero. -/
structure Fresh (db : AppDatabase) : Prop where
  outboxOps : db.outboxOps = []
  otherOps : db.otherOps = []
  stock : ∀ {p row}, db.products.get p = some row → 0 ≤ row.stock
  lines : ∀ {x sale}, db.sales.get x = some sale → ∀ i ∈ sale.items, 0 ≤ i.qty
  noteLines : ∀ {r note}, db.returns.get r = some note → ∀ i ∈ note.items, 0 < i.qty

inductive Reachable : AppDatabase → Prop where
  | fresh {db} : Fresh db → Reachable db
  | step {db db'} : Reachable db → Step db db' → Reachable db'

variable {db db' : AppDatabase}

/-! ## What an operation relies on stays -/

/-- What changes outside the rows of queued operations keeps the invariant. -/
theorem Kept.outside (h : db.Kept) (ho : db.Outside db') : db'.Kept where
  ids := ho.ids
  stock := ho.stock
  lines := ho.lines
  noteLines := ho.noteLines
  bill := by
    intro i x hi
    obtain ⟨sale, hsale, hrecord⟩ := h.bill (ho.has hi OpKind.noConfusion)
    obtain ⟨sale', hsale', hmoves, -⟩ := ho.sales hsale ⟨i, .inl hi⟩
    refine ⟨sale', hsale', fun e he => ?_⟩
    rw [hmoves]
    exact hrecord e (ho.opEffects hi OpKind.noConfusion he)
  oneBill := fun hi hj => h.oneBill (ho.has hi OpKind.noConfusion) (ho.has hj OpKind.noConfusion)
  void := by
    intro i x hi
    obtain ⟨sale, hsale, hvoided, hrecord⟩ := h.void (ho.has hi OpKind.noConfusion)
    obtain ⟨sale', hsale', hmoves, hflag⟩ := ho.sales hsale ⟨i, .inr hi⟩
    refine ⟨sale', hsale', (hflag ⟨i, hi⟩).trans hvoided, fun e he => ?_⟩
    rw [hmoves]
    exact hrecord e (ho.opEffects hi OpKind.noConfusion he)
  oneVoid := fun hi hj => h.oneVoid (ho.has hi OpKind.noConfusion) (ho.has hj OpKind.noConfusion)
  note := by
    intro i r hi
    obtain ⟨note, hnote, hitems, hrecord, hfree⟩ := h.note (ho.has hi OpKind.noConfusion)
    rw [← ho.returns hi] at hnote
    refine ⟨note, hnote, hitems, fun e y he => ?_, fun j hj => ?_⟩
    · exact hrecord e y (ho.opEffects hi OpKind.noConfusion he)
    · exact hfree j (ho.has hj OpKind.noConfusion)
  oneNote := fun hi hj => h.oneNote (ho.has hi OpKind.noConfusion) (ho.has hj OpKind.noConfusion)

/-! ## One more operation -/

section
variable {opId key now i : Nat} {x : SaleId} {r : ReturnId} {kind kind' : OpKind}

theorem not_has_of_fresh (hbills : ∀ op ∈ db.outboxOps, op.opId ≠ opId)
    (hothers : ∀ op ∈ db.otherOps, op.opId ≠ opId) : ¬db.Has opId kind := by
  rintro (⟨op, hop, hid, -⟩ | ⟨op, hop, hid, -⟩)
  · exact hbills op hop hid
  · exact hothers op hop hid

/-- The queue has one operation more. -/
structure Queues (opId : Nat) (kind : OpKind) (db db' : AppDatabase) : Prop where
  fresh : ∀ k, ¬db.Has opId k
  has : ∀ {i k}, db'.Has i k ↔ db.Has i k ∨ i = opId ∧ k = kind
  ids : db.opIds.Nodup → db'.opIds.Nodup

theorem queues_bill {op : Till.OutboxOp Queued} (hfree : ¬db.taken opId = true)
    (hid : op.opId = opId) (hkind : op.payload.payload.kind = kind)
    (hout : db'.outboxOps = db.outboxOps ++ [op]) (hother : db'.otherOps = db.otherOps) :
    Queues opId kind db db' := by
  obtain ⟨hbills, hothers, -⟩ := taken_false hfree
  refine ⟨fun k => not_has_of_fresh hbills hothers, ?_, fun hnodup => ?_⟩
  · intro i k
    simp only [Has, hout, hother, List.mem_append, List.mem_singleton]
    constructor
    · rintro (⟨q, hq | rfl, hqi, hqk⟩ | hq)
      · exact .inl (.inl ⟨q, hq, hqi, hqk⟩)
      · exact .inr ⟨hqi.symm.trans hid, hqk.symm.trans hkind⟩
      · exact .inl (.inr hq)
    · rintro ((⟨q, hq, hqi, hqk⟩ | hq) | ⟨rfl, rfl⟩)
      · exact .inl ⟨q, .inl hq, hqi, hqk⟩
      · exact .inr hq
      · exact .inl ⟨op, .inr rfl, hid, hkind⟩
  · rw [opIds, hout, hother, List.map_append, List.map_singleton, hid, List.append_assoc]
    refine (List.perm_middle.nodup_iff).mpr (List.nodup_cons.mpr ⟨?_, hnodup⟩)
    intro hmem
    rcases List.mem_append.mp hmem with hmem | hmem
    · obtain ⟨q, hq, hqi⟩ := List.mem_map.mp hmem
      exact hbills q hq hqi
    · obtain ⟨q, hq, hqi⟩ := List.mem_map.mp hmem
      exact hothers q hq hqi

theorem queues_other {op : Till.OutboxOp OtherQueued} (hfree : ¬db.taken opId = true)
    (hid : op.opId = opId) (hkind : op.payload.op.kind = kind)
    (hout : db'.outboxOps = db.outboxOps) (hother : db'.otherOps = db.otherOps ++ [op]) :
    Queues opId kind db db' := by
  obtain ⟨hbills, hothers, -⟩ := taken_false hfree
  refine ⟨fun k => not_has_of_fresh hbills hothers, ?_, fun hnodup => ?_⟩
  · intro i k
    simp only [Has, hout, hother, List.mem_append, List.mem_singleton]
    constructor
    · rintro (hq | ⟨q, hq | rfl, hqi, hqk⟩)
      · exact .inl (.inl hq)
      · exact .inl (.inr ⟨q, hq, hqi, hqk⟩)
      · exact .inr ⟨hqi.symm.trans hid, hqk.symm.trans hkind⟩
    · rintro ((hq | ⟨q, hq, hqi, hqk⟩) | ⟨rfl, rfl⟩)
      · exact .inl hq
      · exact .inr ⟨q, .inl hq, hqi, hqk⟩
      · exact .inr ⟨op, .inr rfl, hid, hkind⟩
  · rw [opIds, hout, hother, List.map_append, List.map_singleton, hid, ← List.append_assoc]
    refine (List.perm_append_singleton _ _).nodup_iff.mpr (List.nodup_cons.mpr ⟨?_, hnodup⟩)
    intro hmem
    rcases List.mem_append.mp hmem with hmem | hmem
    · obtain ⟨q, hq, hqi⟩ := List.mem_map.mp hmem
      exact hbills q hq hqi
    · obtain ⟨q, hq, hqi⟩ := List.mem_map.mp hmem
      exact hothers q hq hqi

theorem Queues.unique (hq : Queues opId kind db db') {j : Nat}
    (hold : ∀ {i j}, db.Has i kind' → db.Has j kind' → i = j)
    (hnew : kind' = kind → ∀ i, ¬db.Has i kind') (hi : db'.Has i kind') (hj : db'.Has j kind') :
    i = j := by
  rcases hq.has.mp hi with hi' | ⟨hi', hk⟩
  · rcases hq.has.mp hj with hj' | ⟨-, hk⟩
    · exact hold hi' hj'
    · exact absurd hi' (hnew hk i)
  · rcases hq.has.mp hj with hj' | ⟨hj', -⟩
    · exact absurd hj' (hnew hk j)
    · rw [hi', hj']

/-- The records of the operations that were there. -/
theorem get_recorded (hfree : ¬db.taken opId = true) {e : AppliedEffects} (hi : db.Has i kind) :
    (db.opEffects.insert opId e).get i = db.opEffects.get i := by
  obtain ⟨hbills, hothers, heffects⟩ := taken_false hfree
  rw [Table.get_insert_ne]
  rintro rfl
  exact not_has_of_fresh hbills hothers hi

end

/-! ### A bill -/

section
variable {opId key now : Nat} {x : SaleId} {input : SaleInput} {shiftId : Option ShiftId}
  {byId : Table ProductId ProductRow} {no : Option DocNo} {sale : SaleRow}

/-- An offline sale keeps it: the stock it takes is there. -/
theorem Kept.save (h : db.Kept) (hpos : ∀ i ∈ input.items, 0 < i.qty)
    (hsave : db.saveOfflineTx opId key x input byId shiftId no now = .ok (sale, db')) : db'.Kept := by
  obtain ⟨hfree, tables, hwrite, rfl⟩ := of_saveOfflineTx hsave
  obtain ⟨receiptNo, products, hsale, hnone, hproducts, rfl⟩ := Cache.of_saveOfflineTx hwrite
  obtain ⟨hbills, hothers, heffects⟩ := taken_false hfree
  set db₁ := db.record opId (saleEffects input db.toDb) _ with hdb₁
  have hq : Queues opId (.saleCreate x) db db₁ := queues_bill hfree rfl rfl rfl rfl
  have hself : db₁.sales.get x = some sale := Table.get_insert_self hnone sale
  -- the id is free, so no other bill is touched
  have hold : ∀ {y row}, db.sales.get y = some row → db₁.sales.get y = some row := by
    intro y row hy
    refine (Table.get_insert_ne _ ?_ _).trans hy
    rintro rfl
    rw [hnone] at hy
    cases hy
  have hget : ∀ {i k}, db.Has i k → db₁.opEffects.get i = db.opEffects.get i :=
    fun hi => get_recorded hfree hi
  -- a queued bill has its row, and this one had none
  have hone : ∀ {i}, ¬db.Has i (.saleCreate x) := by
    intro i hi
    obtain ⟨row, hrow, -⟩ := h.bill hi
    rw [hnone] at hrow
    cases hrow
  exact
    { ids := hq.ids h.ids
      stock := decrementStock_nonneg h.stock hproducts
      lines := by
        intro y row hrow i hi
        rw [show db₁.sales = db.sales.insert x sale from rfl, Table.get_insert hnone] at hrow
        split at hrow
        · obtain rfl := Option.some.inj hrow
          rw [hsale] at hi
          obtain ⟨item, hitem, rfl⟩ := List.mem_map.mp hi
          exact (hpos item hitem).le
        · exact h.lines hrow i hi
      noteLines := h.noteLines
      bill := by
        intro i y hi
        rcases hq.has.mp hi with hi | ⟨rfl, hkind⟩
        · obtain ⟨row, hrow, hrecord⟩ := h.bill hi
          exact ⟨row, hold hrow, hget hi ▸ hrecord⟩
        · cases hkind
          refine ⟨sale, hself, fun e he => ?_⟩
          obtain rfl := Option.some.inj ((Table.get_insert_self heffects _).symm.trans he)
          refine ⟨rfl, fun p => ?_⟩
          -- the record is what the lines took
          rw [moved_saleEffects, hsale, shiftOf_offlineRow]
      oneBill := hq.unique h.oneBill fun hk _ => hk ▸ hone
      void := by
        intro i y hi
        rcases hq.has.mp hi with hi | ⟨-, hkind⟩
        · obtain ⟨row, hrow, hvoided, hrecord⟩ := h.void hi
          exact ⟨row, hold hrow, hvoided, hget hi ▸ hrecord⟩
        · cases hkind
      oneVoid := hq.unique h.oneVoid OpKind.noConfusion
      note := by
        intro i r hi
        rcases hq.has.mp hi with hi | ⟨-, hkind⟩
        · obtain ⟨note, hnote, hitems, hrecord, hfree⟩ := h.note hi
          refine ⟨note, hnote, hitems, hget hi ▸ hrecord, fun j hj => ?_⟩
          rcases hq.has.mp hj with hj | ⟨-, hkind⟩
          · exact hfree j hj
          · cases hkind
        · cases hkind
      oneNote := hq.unique h.oneNote OpKind.noConfusion }

end

/-! ### A void -/

theorem moves_nonneg {sale : SaleRow} (h : ∀ i ∈ sale.items, 0 ≤ i.qty) :
    ∀ m ∈ sale.moves, 0 ≤ m.2 := by
  intro m hm
  obtain ⟨i, hi, rfl⟩ := List.mem_map.mp hm
  exact h i hi

/-- A note with a line stands in the way of a void. -/
theorem refunded_of_note {t : Db} {r : ReturnId} {note : ReturnRow}
    (hlines : ∀ {r note}, t.returns.get r = some note → ∀ i ∈ note.items, 0 < i.qty)
    (hnote : t.returns.get r = some note) (hitems : note.items ≠ []) :
    (t.refundedQty note.saleId).any (fun q => q.2 > 0) = true := by
  obtain ⟨i, hi⟩ := List.exists_mem_of_ne_nil _ hitems
  rw [Db.refundedQty, refundedQtyOf]
  set moves := ((t.returns.select fun r => r.saleId = note.saleId).flatMap (·.items)).map
    fun i => (i.productId, i.qty) with hmoves
  have hpos : ∀ m ∈ moves, 0 < m.2 := by
    intro m hm
    obtain ⟨j, hj, rfl⟩ := List.mem_map.mp hm
    obtain ⟨other, hother, hj⟩ := List.mem_flatMap.mp hj
    obtain ⟨⟨r', hr'⟩, -⟩ := Table.mem_select.mp hother
    exact hlines hr' j hj
  have hmem : (i.productId, i.qty) ∈ moves := by
    refine List.mem_map.mpr ⟨i, List.mem_flatMap.mpr ⟨note, ?_, hi⟩, rfl⟩
    exact Table.mem_select.mpr ⟨⟨r, hnote⟩, decide_eq_true rfl⟩
  have hsum := shiftOf_pos hpos hmem
  rw [← lookup_groupMoves] at hsum
  cases hlookup : (groupMoves moves).lookup i.productId with
  | none =>
      rw [hlookup] at hsum
      exact absurd hsum (lt_irrefl 0)
  | some n =>
      rw [hlookup] at hsum
      refine List.any_eq_true.mpr ⟨(i.productId, n), ?_, decide_eq_true hsum⟩
      exact (Table.lookup_eq_some (nodup_groupMoves moves)).mp hlookup

/-- A bill that is voided offline has nothing that came back. -/
theorem unrefunded_of_voidSaleOffline {opId key now : Nat} {x : SaleId} {reason : String}
    {sale voided : SaleRow} {t t' : Db} (hrow : t.sales.get x = some sale)
    (h : Cache.voidSaleOffline opId key x reason now t = .ok (voided, t')) :
    (t.refundedQty x).any (fun q => q.2 > 0) = false := by
  simp only [Cache.voidSaleOffline, hrow] at h
  split at h
  · cases h
  · split at h
    · cases h
    · split at h
      · cases h
      · split at h
        · cases h
        · rename_i hnone
          exact Bool.eq_false_iff.mpr hnone

section
variable {opId key now : Nat} {x : SaleId} {reason : String} {voided : SaleRow}

/-- An offline void keeps it: it only puts back. -/
theorem Kept.void_offline (h : db.Kept)
    (hvoid : db.voidSaleOffline opId key x reason now = .ok (voided, db')) : db'.Kept := by
  obtain ⟨hfree, sale, tables, hrow, hwrite, rfl⟩ := of_voidSaleOffline hvoid
  have hlive := live_of_voidSaleOffline hrow hwrite
  have hclear := unrefunded_of_voidSaleOffline hrow hwrite
  obtain rfl := Cache.of_voidSaleOffline hrow hwrite
  obtain ⟨hbills, hothers, heffects⟩ := taken_false hfree
  set db₁ := db.record opId (voidEffects x sale db.toDb) _ with hdb₁
  have hq : Queues opId (.saleVoidOffline x) db db₁ := queues_bill hfree rfl rfl rfl rfl
  have hget : ∀ {i k}, db.Has i k → db₁.opEffects.get i = db.opEffects.get i :=
    fun hi => get_recorded hfree hi
  -- the bill alone is written, as voided
  have hsales : ∀ y, db₁.sales.get y = if y = x then some (sale.void reason now)
      else db.sales.get y := by
    intro y
    show (db.sales.modify x _).get y = _
    rw [Table.get_modify]
    split
    · rename_i hy
      rw [hy, hrow]
      rfl
    · rfl
  have hnonneg := moves_nonneg (h.lines hrow)
  -- no void of this bill is queued: the bill would be voided then
  have hnone : ∀ {i}, ¬db.Has i (.saleVoidOffline x) := by
    intro i hi
    obtain ⟨row, hrow', hvoided, -⟩ := h.void hi
    rw [hrow] at hrow'
    obtain rfl := Option.some.inj hrow'
    rw [hlive] at hvoided
    cases hvoided
  exact
    { ids := hq.ids h.ids
      stock := by
        intro p row hp
        -- the lines go back: nothing falls
        rw [show db₁.products = restoreStock sale.items db.products from rfl, restoreStock_eq] at hp
        exact putBack_nonneg hnonneg h.stock hp
      lines := by
        intro y row hy
        rw [hsales] at hy
        split at hy
        · obtain rfl := Option.some.inj hy
          exact fun i hi => h.lines hrow i hi
        · exact h.lines hy
      noteLines := h.noteLines
      bill := by
        intro i y hi
        rcases hq.has.mp hi with hi | ⟨-, hkind⟩
        · obtain ⟨row, hy, hrecord⟩ := h.bill hi
          rw [hsales]
          split
          · rename_i heq
            rw [heq, hrow] at hy
            obtain rfl := Option.some.inj hy
            exact ⟨_, rfl, hget hi ▸ hrecord⟩
          · exact ⟨row, hy, hget hi ▸ hrecord⟩
        · cases hkind
      oneBill := hq.unique h.oneBill OpKind.noConfusion
      void := by
        intro i y hi
        -- a void queued before is of another bill; this one recorded what it gave back
        rcases hq.has.mp hi with hi' | ⟨rfl, hkind⟩
        · obtain ⟨row, hy, hvoided, hrecord⟩ := h.void hi'
          rw [hsales, if_neg]
          · exact ⟨row, hy, hvoided, hget hi' ▸ hrecord⟩
          · rintro rfl
            exact hnone hi'
        · cases hkind
          refine ⟨sale.void reason now, by rw [hsales, if_pos rfl], rfl, fun e he => ?_⟩
          obtain rfl := Option.some.inj ((Table.get_insert_self heffects _).symm.trans he)
          refine ⟨rfl, fun p => ?_⟩
          rw [moved_addStock _ rfl]
          cases hp : db.products.get p with
          | none =>
              rw [shiftOf_known_of_none hp]
              exact shiftOf_nonneg hnonneg p
          | some row =>
              rw [shiftOf_known (by rw [hp]; rfl)]
              exact le_rfl
      oneVoid := hq.unique h.oneVoid fun hk _ => hk ▸ hnone
      note := by
        intro i r hi
        rcases hq.has.mp hi with hi | ⟨-, hkind⟩
        · obtain ⟨note, hnote, hitems, hrecord, hfree⟩ := h.note hi
          refine ⟨note, hnote, hitems, hget hi ▸ hrecord, fun j hj => ?_⟩
          rcases hq.has.mp hj with hj | ⟨-, hkind⟩
          · exact hfree j hj
          -- a note of this bill would have refunded it
          · have hx : note.saleId = x := by injection hkind
            rw [← hx, refunded_of_note h.noteLines hnote hitems] at hclear
            cases hclear
        · cases hkind
      oneNote := hq.unique h.oneNote OpKind.noConfusion }

end

/-! ### A credit note -/

section
variable {opId key now : Nat} {x : SaleId} {r : ReturnId} {input : ReturnInput} {no : Option DocNo}
  {note : ReturnRow}

/-- An offline note keeps it, the void it may bring about included. -/
theorem Kept.returned (h : db.Kept) (hitems : input.items ≠ [])
    (hpos : ∀ i ∈ input.items, 0 < i.qty)
    (hreturn : db.createOffline opId key r x input no now = .ok (note, db')) : db'.Kept := by
  obtain ⟨hfree, hnone, sale, plan, hrow, hlive, rfl, -, hdb'⟩ := of_createOffline hreturn
  obtain ⟨hbills, hothers, heffects⟩ := taken_false hfree
  have hq : Queues opId (.returnCreate r) db db' := by
    rw [hdb']
    exact queues_other hfree rfl rfl rfl rfl
  have hrecorded : db'.opEffects = db.opEffects.insert opId (returnEffects x sale input plan db.toDb) := by
    rw [hdb']
    rfl
  have hget : ∀ {i k}, db.Has i k → db'.opEffects.get i = db.opEffects.get i := by
    intro i k hi
    rw [hrecorded]
    exact get_recorded hfree hi
  have hreturns : db'.returns = db.returns.insert r (noteRow x sale input plan now) := by
    rw [hdb']
    rfl
  -- the bill may be voided by it, and keeps its lines
  have hsales : ∀ {y row}, db.sales.get y = some row → ∃ row', db'.sales.get y = some row' ∧
      row'.items = row.items ∧ (y ≠ x → row' = row) := by
    intro y row hy
    rw [hdb']
    show ∃ row', (if plan.voidsSale then db.sales.modify x _ else db.sales).get y = some row' ∧ _
    split
    · rw [Table.get_modify]
      split
      · rename_i heq
        rw [hy]
        exact ⟨_, rfl, rfl, fun hne => absurd heq hne⟩
      · exact ⟨row, hy, rfl, fun _ => rfl⟩
    · exact ⟨row, hy, rfl, fun _ => rfl⟩
  -- the bill is live, so no void of it waits
  have hvoids : ∀ {i}, ¬db.Has i (.saleVoidOffline x) := by
    intro i hi
    obtain ⟨row, hrow', hvoided, -⟩ := h.void hi
    rw [hrow] at hrow'
    obtain rfl := Option.some.inj hrow'
    rw [hlive] at hvoided
    cases hvoided
  -- and the note is new
  have hone : ∀ {i}, ¬db.Has i (.returnCreate r) := by
    intro i hi
    obtain ⟨note, hnote, -⟩ := h.note hi
    rw [hnone] at hnote
    cases hnote
  exact
    { ids := hq.ids h.ids
      stock := by
        intro p row hp
        rw [hdb'] at hp
        refine putBack_nonneg (fun m hm => ?_) h.stock hp
        obtain ⟨i, hi, rfl⟩ := List.mem_map.mp hm
        exact (hpos i hi).le
      lines := by
        intro y row' hy
        -- the note modifies bills and adds none
        cases hold : db.sales.get y with
        | none =>
            rw [hdb'] at hy
            -- no bill was there, and `modify` makes none
            have hsome : (db'.sales.get y).isSome = (db.sales.get y).isSome := by
              rw [hdb']
              show ((if plan.voidsSale then db.sales.modify x _ else db.sales).get y).isSome = _
              split
              · exact Table.isSome_modify _ _ _ _
              · rfl
            rw [hdb', hy, hold] at hsome
            cases hsome
        | some row =>
            obtain ⟨row'', hy', hlines, -⟩ := hsales hold
            rw [hy] at hy'
            obtain rfl := Option.some.inj hy'
            rw [hlines]
            exact h.lines hold
      noteLines := by
        intro r' note' hr'
        rw [hreturns, Table.get_insert hnone] at hr'
        split at hr'
        · obtain rfl := Option.some.inj hr'
          intro i hi
          obtain ⟨item, hitem, rfl⟩ := List.mem_map.mp hi
          exact hpos item hitem
        · exact h.noteLines hr'
      bill := by
        intro i y hi
        rcases hq.has.mp hi with hi | ⟨-, hkind⟩
        · obtain ⟨row, hy, hrecord⟩ := h.bill hi
          obtain ⟨row', hy', hlines, -⟩ := hsales hy
          refine ⟨row', hy', ?_⟩
          rw [hget hi, SaleRow.moves, hlines]
          exact hrecord
        · cases hkind
      oneBill := hq.unique h.oneBill OpKind.noConfusion
      void := by
        intro i y hi
        rcases hq.has.mp hi with hi | ⟨-, hkind⟩
        · obtain ⟨row, hy, hvoided, hrecord⟩ := h.void hi
          obtain ⟨row', hy', -, hsame⟩ := hsales hy
          obtain rfl := hsame (by rintro rfl; exact hvoids hi)
          exact ⟨row', hy', hvoided, hget hi ▸ hrecord⟩
        · cases hkind
      oneVoid := hq.unique h.oneVoid OpKind.noConfusion
      note := by
        intro i r' hi
        rcases hq.has.mp hi with hi | ⟨rfl, hkind⟩
        · obtain ⟨note, hnote, hlines, hrecord, hfree⟩ := h.note hi
          refine ⟨note, ?_, hlines, hget hi ▸ hrecord, fun j hj => ?_⟩
          · rw [hreturns, Table.get_insert_ne _ _, hnote]
            rintro rfl
            exact hone hi
          · rcases hq.has.mp hj with hj | ⟨-, hkind⟩
            · exact hfree j hj
            · cases hkind
        -- the entry of the note itself: its lines, and that it voids no bill but its own
        · obtain rfl : r' = r := by injection hkind
          refine ⟨noteRow x sale input plan now, ?_, ?_, fun e y he hy => ?_, fun j hj => ?_⟩
          · rw [hreturns, Table.get_insert_self hnone]
          · exact fun hnil => hitems (List.map_eq_nil_iff.mp hnil)
          · rw [hrecorded, Table.get_insert_self heffects] at he
            obtain rfl := Option.some.inj he
            simp only [returnEffects] at hy
            split at hy
            · exact (Option.some.inj hy).symm
            · cases hy
          · rcases hq.has.mp hj with hj | ⟨-, hkind⟩
            · exact hvoids hj
            · cases hkind
      oneNote := hq.unique h.oneNote fun hk _ => hk ▸ hone }

end

/-! ## A discard -/

section
variable {opId : Nat} {kind : OpKind}

theorem has_of_kindOf (h : db.kindOf opId = some kind) : db.Has opId kind := by
  rw [kindOf] at h
  cases hbill : db.outboxOps.find? (·.opId = opId) with
  | some op =>
      rw [hbill] at h
      obtain rfl := Option.some.inj h
      have hid := List.find?_some hbill
      exact .inl ⟨op, List.mem_of_find?_eq_some hbill, by simpa using hid, rfl⟩
  | none =>
      rw [hbill] at h
      obtain ⟨op, hop, rfl⟩ := Option.map_eq_some_iff.mp h
      have hid := List.find?_some hop
      exact .inr ⟨op, List.mem_of_find?_eq_some hop, by simpa using hid, rfl⟩

theorem has_dequeue {i : Nat} {k : OpKind} :
    (db.dequeue opId).Has i k ↔ db.Has i k ∧ i ≠ opId := by
  simp only [Has, dequeue, List.mem_filter, decide_eq_true_eq]
  constructor
  · rintro (⟨op, ⟨hop, hne⟩, rfl, hk⟩ | ⟨op, ⟨hop, hne⟩, rfl, hk⟩)
    · exact ⟨.inl ⟨op, hop, rfl, hk⟩, hne⟩
    · exact ⟨.inr ⟨op, hop, rfl, hk⟩, hne⟩
  · rintro ⟨⟨op, hop, rfl, hk⟩ | ⟨op, hop, rfl, hk⟩, hne⟩
    · exact .inl ⟨op, ⟨hop, hne⟩, rfl, hk⟩
    · exact .inr ⟨op, ⟨hop, hne⟩, rfl, hk⟩

theorem opIds_dequeue : (db.dequeue opId).opIds.Sublist db.opIds :=
  (List.filter_sublist.map _).append (List.filter_sublist.map _)

theorem mem_queuedVoidsOf {i : Nat} {x : SaleId} :
    i ∈ db.queuedVoidsOf x ↔ db.Has i (.saleVoidOffline x) := by
  simp only [queuedVoidsOf, List.mem_map, List.mem_filter, decide_eq_true_eq, Has]
  constructor
  · rintro ⟨op, ⟨hop, hk⟩, rfl⟩
    exact .inl ⟨op, hop, rfl, hk⟩
  · rintro (⟨op, hop, rfl, hk⟩ | ⟨op, -, -, hk⟩)
    · exact ⟨op, ⟨hop, hk⟩, rfl⟩
    · cases hop : op.payload.op <;> rw [hop] at hk <;> cases hk

/-- The queue without the operation, and perhaps without more. -/
structure Dequeued (opId : Nat) (db db' : AppDatabase) : Prop where
  ids : db'.opIds.Sublist db.opIds
  has : ∀ {i k}, db'.Has i k → db.Has i k ∧ i ≠ opId
  opEffects : ∀ {i k}, db'.Has i k → db'.opEffects.get i = db.opEffects.get i

/-- An operation taken out with its record, whatever the tables then hold. -/
theorem dequeued (db : AppDatabase) (opId : Nat) {t : Db}
    (hout : t.outboxOps = (db.dequeue opId).outboxOps) :
    Dequeued opId db (({ db.dequeue opId with toDb := t } : AppDatabase).forget opId) := by
  have hhas : ∀ {i k}, (({ db.dequeue opId with toDb := t } : AppDatabase).forget opId).Has i k →
      (db.dequeue opId).Has i k := by
    intro i k hi
    rw [Has] at hi ⊢
    rw [← hout]
    exact hi
  refine ⟨?_, fun hi => has_dequeue.mp (hhas hi), fun {i k} hi => ?_⟩
  · show (t.outboxOps.map _ ++ _).Sublist _
    rw [hout]
    exact opIds_dequeue
  · show (db.opEffects.erase opId).get i = _
    rw [Table.get_erase, if_neg (has_dequeue.mp (hhas hi)).2]

/-! ### The bills -/

/-- Only the bill `x` may have changed, and it keeps its lines. -/
structure Touches (x : SaleId) (sales sales' : Table SaleId SaleRow) : Prop where
  other : ∀ {y}, y ≠ x → sales'.get y = sales.get y
  lines : ∀ y, (sales'.get y).map (·.items) = (sales.get y).map (·.items)

theorem Touches.refl (x : SaleId) (sales : Table SaleId SaleRow) : Touches x sales sales :=
  ⟨fun _ => rfl, fun _ => rfl⟩

theorem Touches.trans {x : SaleId} {a b c : Table SaleId SaleRow} (h : Touches x a b)
    (h' : Touches x b c) : Touches x a c :=
  ⟨fun hy => (h'.other hy).trans (h.other hy), fun y => (h'.lines y).trans (h.lines y)⟩

theorem Touches.modify (x : SaleId) (sales : Table SaleId SaleRow) {f : SaleRow → SaleRow}
    (hf : ∀ row, (f row).items = row.items) : Touches x sales (sales.modify x f) := by
  constructor
  · intro y hy
    exact Table.get_modify_ne _ hy f
  · intro y
    rw [Table.get_modify]
    split
    · rw [Option.map_map]
      congr 1
      funext row
      exact hf row
    · rfl

theorem Touches.undo {x : SaleId} {sales : Table SaleId SaleRow} {voidedSaleId : Option SaleId}
    (h : ∀ y, voidedSaleId = some y → y = x) :
    Touches x sales (updateNamed voidedSaleId SaleRow.unvoid sales) := by
  cases voidedSaleId with
  | none => exact .refl x sales
  | some y =>
      obtain rfl := h y rfl
      exact .modify y sales fun _ => rfl

/-- Lifting the void of a bill touches its marks, and none of its lines. -/
theorem Touches.unvoidIfNoLongerFullyReturned (x : SaleId) (t : Db) :
    Touches x t.sales (Cache.unvoidIfNoLongerFullyReturned x t).sales := by
  rw [Cache.unvoidIfNoLongerFullyReturned]
  split
  · exact .refl x _
  · split
    · simp only
      split
      · exact .modify x t.sales (f := fun s => { s with voided := false, voidedAt := none })
          fun _ => rfl
      · exact .refl x _
    · exact .refl x _

/-- Without one operation, a bill touched that no queued void is about. -/
theorem Kept.outside_of_touched (h : db.Kept) (hq : Dequeued opId db db') {x : SaleId}
    (hstock : ∀ {p row}, db'.products.get p = some row → 0 ≤ row.stock)
    (hsales : Touches x db.sales db'.sales)
    (hvoids : db'.sales ≠ db.sales → ∀ i, ¬db'.Has i (.saleVoidOffline x))
    (hnotes : ∀ {r note}, db'.returns.get r = some note → db.returns.get r = some note)
    (hreturns : ∀ {i r}, db'.Has i (.returnCreate r) → db'.returns.get r = db.returns.get r) :
    db.Outside db' where
  ids := h.ids.sublist hq.ids
  has := fun hi _ => (hq.has hi).1
  opEffects := fun hi _ he => (hq.opEffects hi).symm.trans he
  stock := hstock
  lines := by
    intro y sale' hy
    have hlines := hsales.lines y
    rw [hy] at hlines
    obtain ⟨sale, hsale, hitems⟩ := Option.map_eq_some_iff.mp hlines.symm
    rw [show sale'.items = sale.items from hitems.symm]
    exact h.lines hsale
  noteLines := fun hr => h.noteLines (hnotes hr)
  sales := by
    intro y sale hy _
    have hlines := hsales.lines y
    rw [hy] at hlines
    obtain ⟨sale', hsale', hitems⟩ := Option.map_eq_some_iff.mp hlines
    refine ⟨sale', hsale', by rw [SaleRow.moves, SaleRow.moves, hitems], ?_⟩
    rintro ⟨i, hi⟩
    by_cases hsame : db'.sales = db.sales
    · rw [hsame, hy] at hsale'
      rw [Option.some.inj hsale']
    · have hne : y ≠ x := by
        rintro rfl
        exact hvoids hsame i hi
      rw [hsales.other hne, hy] at hsale'
      rw [Option.some.inj hsale']
  returns := hreturns

/-! ### The stock -/

/-- What the check has let through. -/
theorem of_not_sold (h : db.stockAlreadySold opId kind = false) {m : ProductId × Int}
    (hm : m ∈ db.take opId kind) {row : ProductRow} (hrow : db.products.get m.1 = some row) :
    0 ≤ row.stock - m.2 := by
  rw [stockAlreadySold, List.any_eq_false] at h
  have hany := h m hm
  rw [hrow] at hany
  simpa using hany

theorem undoStock_nonneg {t : Table ProductId ProductRow} (e : AppliedEffects)
    (ht : ∀ {p row}, t.get p = some row → 0 ≤ row.stock - e.moved p) :
    ∀ {p row}, (undoStock e.stock t).get p = some row → 0 ≤ row.stock := by
  intro p row hrow
  rw [get_undoStock] at hrow
  obtain ⟨old, hold, rfl⟩ := Option.map_eq_some_iff.mp hrow
  exact ht hold

theorem takeOff_nonneg {t : Table ProductId ProductRow} {moves : List (ProductId × Int)}
    (ht : ∀ {p row}, t.get p = some row → 0 ≤ row.stock - shiftOf moves p) :
    ∀ {p row}, (takeOff moves t).get p = some row → 0 ≤ row.stock := by
  intro p row hrow
  rw [takeOff, get_putBack, shiftOf_neg] at hrow
  obtain ⟨old, hold, rfl⟩ := Option.map_eq_some_iff.mp hrow
  rw [← sub_eq_add_neg]
  exact ht hold

/-- A record whose positive deltas are all still on the shelf. -/
theorem record_on_shelf {e : AppliedEffects} (htake : db.take opId kind = e.stock.rows.filter (·.2 > 0))
    (hsold : db.stockAlreadySold opId kind = false)
    (hstock : ∀ {p row}, db.products.get p = some row → 0 ≤ row.stock) {p : ProductId}
    {row : ProductRow} (hrow : db.products.get p = some row) : 0 ≤ row.stock - e.moved p := by
  by_cases hpos : 0 < e.moved p
  · rw [AppliedEffects.moved] at hpos ⊢
    cases hget : e.stock.get p with
    | none =>
        rw [hget] at hpos
        exact absurd hpos (lt_irrefl 0)
    | some d =>
        rw [hget] at hpos
        refine @of_not_sold _ _ _ hsold (p, d) ?_ row hrow
        rw [htake]
        exact List.mem_filter.mpr ⟨e.stock.mem_rows.mpr hget, decide_eq_true hpos⟩
  · have := hstock hrow
    omega

/-- And lines that are. -/
theorem lines_on_shelf {moves : List (ProductId × Int)} (htake : db.take opId kind = groupMoves moves)
    (hsold : db.stockAlreadySold opId kind = false)
    (hstock : ∀ {p row}, db.products.get p = some row → 0 ≤ row.stock) {p : ProductId}
    {row : ProductRow} (hrow : db.products.get p = some row) : 0 ≤ row.stock - shiftOf moves p := by
  rw [← lookup_groupMoves]
  cases hlookup : (groupMoves moves).lookup p with
  | none =>
      rw [Option.getD_none, sub_zero]
      exact hstock hrow
  | some n =>
      refine @of_not_sold _ _ _ hsold (p, n) ?_ row hrow
      rw [htake]
      exact (Table.lookup_eq_some (nodup_groupMoves moves)).mp hlookup

/-! ### What each discard leaves -/

/-- The tables an operation's undoing leaves, be it from its record or without one. -/
theorem undoOrLegacy_cases (db : AppDatabase) (opId : Nat) (legacy : Db → Db) :
    (∃ e, db.opEffects.get opId = some e ∧
      db.undoOrLegacy opId legacy = { db with toDb := e.undo db.toDb }) ∨
    db.opEffects.get opId = none ∧
      db.undoOrLegacy opId legacy = { db with toDb := legacy db.toDb } := by
  cases he : db.opEffects.get opId with
  | some e => exact .inl ⟨e, rfl, by rw [undoOrLegacy, he]⟩
  | none => exact .inr ⟨rfl, by rw [undoOrLegacy, he]⟩

theorem legacyReverseOfflineSale_tables (x : SaleId) (t : Db) :
    (legacyReverseOfflineSale x t).sales = t.sales ∧
      (legacyReverseOfflineSale x t).returns = t.returns := by
  rw [legacyReverseOfflineSale]
  split
  · exact ⟨rfl, rfl⟩
  · exact ⟨rfl, rfl⟩

theorem legacyReverseOfflineReturn_returns (r : ReturnId) (t : Db) :
    (legacyReverseOfflineReturn r t).returns = t.returns := by
  rw [legacyReverseOfflineReturn]
  split
  · rfl
  · simp only
    split
    · rfl
    · rfl

theorem legacyReapplyVoidedSale_returns (x : SaleId) (t : Db) :
    (legacyReapplyVoidedSale x t).returns = t.returns := by
  rw [legacyReapplyVoidedSale]
  split
  · rfl
  · rfl

theorem Touches.legacyReverseOfflineReturn {r : ReturnId} {t : Db} {note : ReturnRow}
    (hnote : t.returns.get r = some note) :
    Touches note.saleId t.sales (legacyReverseOfflineReturn r t).sales := by
  simp only [Cache.legacyReverseOfflineReturn, hnote]
  split
  · exact .refl _ _
  · simp only
    split
    · exact .modify _ t.sales (f := fun s => { s with voided := false, voidedAt := none })
        fun _ => rfl
    · exact .refl _ _

theorem Touches.legacyReapplyVoidedSale (x : SaleId) (t : Db) :
    Touches x t.sales (legacyReapplyVoidedSale x t).sales := by
  rw [Cache.legacyReapplyVoidedSale]
  split
  · exact .refl _ _
  · exact .modify x t.sales fun _ => rfl

variable {d : AppDatabase} {x : SaleId} {r : ReturnId}

/-- Lifting the void of a bill writes to no table but the bills. -/
theorem unvoidIfNoLongerFullyReturned_tables (x : SaleId) (t : Db) :
    (unvoidIfNoLongerFullyReturned x t).products = t.products ∧
      (unvoidIfNoLongerFullyReturned x t).returns = t.returns ∧
        (unvoidIfNoLongerFullyReturned x t).outboxOps = t.outboxOps := by
  rw [unvoidIfNoLongerFullyReturned]
  split
  · exact ⟨rfl, rfl, rfl⟩
  · split
    · simp only
      split
      · exact ⟨rfl, rfl, rfl⟩
      · exact ⟨rfl, rfl, rfl⟩
    · exact ⟨rfl, rfl, rfl⟩

/-- Discarding a void changes no row that the operations left in the outbox are about. -/
theorem Kept.reverse_void (h : db.Kept) (hkind : db.Has opId (.saleVoidOffline x))
    (hd : (db.dequeue opId).reverse opId (.saleVoidOffline x) = .ok d) :
    db.Outside (d.forget opId) := by
  simp only [reverse] at hd
  split at hd
  · cases hd
  · rename_i hsold
    have hsold : (db.dequeue opId).stockAlreadySold opId (.saleVoidOffline x) = false :=
      Bool.eq_false_iff.mpr hsold
    obtain ⟨sale, hsale, -, hrecord⟩ := h.void hkind
    have hlast : ∀ {d' : AppDatabase}, Dequeued opId db d' → ∀ i, ¬d'.Has i (.saleVoidOffline x) :=
      fun hq i hi => (hq.has hi).2 (h.oneVoid (hq.has hi).1 hkind)
    rcases undoOrLegacy_cases (db.dequeue opId) opId (legacyReapplyVoidedSale x) with
      ⟨e, he, hundo⟩ | ⟨he, hlegacy⟩
    · rw [hundo] at hd
      obtain rfl := Except.ok.inj hd
      have hq := dequeued db opId (t := e.undo (db.dequeue opId).toDb) rfl
      refine h.outside_of_touched hq (undoStock_nonneg e fun hrow => ?_) (Touches.undo fun y hy => ?_)
        (fun _ => hlast hq) id fun _ => rfl
      · refine record_on_shelf ?_ hsold h.stock hrow
        simp only [take, he]
      · rw [(hrecord e he).1] at hy
        exact (Option.some.inj hy).symm
    · rw [hlegacy] at hd
      obtain rfl := Except.ok.inj hd
      set t := legacyReapplyVoidedSale x (db.dequeue opId).toDb with ht
      have htables : t.outboxOps = (db.dequeue opId).outboxOps ∧
          t.products = takeOff sale.moves db.products := by
        rw [ht, legacyReapplyVoidedSale, show (db.dequeue opId).sales = db.sales from rfl, hsale]
        exact ⟨rfl, rfl⟩
      have hreturns : t.returns = db.returns := legacyReapplyVoidedSale_returns x _
      have hq := dequeued db opId htables.1
      refine h.outside_of_touched hq (fun {p row} hrow => ?_)
        (Touches.legacyReapplyVoidedSale x (db.dequeue opId).toDb) (fun _ => hlast hq)
        (fun hr => hreturns ▸ hr) fun _ => congrArg (fun u : Table ReturnId ReturnRow => u.get _) hreturns
      refine takeOff_nonneg (fun hp => ?_) (htables.2 ▸ hrow)
      refine lines_on_shelf ?_ hsold h.stock hp
      simp only [take, he, show (db.dequeue opId).sales = db.sales from rfl, hsale, Option.elim_some]

/-- Nor does discarding a note. -/
theorem Kept.reverse_note (h : db.Kept) (hkind : db.Has opId (.returnCreate r))
    (hd : (db.dequeue opId).reverse opId (.returnCreate r) = .ok d) :
    db.Outside (d.forget opId) := by
  simp only [reverse] at hd
  split at hd
  · cases hd
  · rename_i hsold
    have hsold : (db.dequeue opId).stockAlreadySold opId (.returnCreate r) = false :=
      Bool.eq_false_iff.mpr hsold
    obtain ⟨note, hnote, -, hrecord, hfree⟩ := h.note hkind
    have hnote' : (db.dequeue opId).returns.get r = some note := hnote
    rw [hnote', Option.elim_some] at hd
    obtain rfl := Except.ok.inj hd
    -- the tables once the note is undone, and what is left of them to show
    obtain ⟨t, hundone, hout, hreturns, hsales, hstock⟩ : ∃ t,
        (db.dequeue opId).undoOrLegacy opId (legacyReverseOfflineReturn r) =
          { db.dequeue opId with toDb := t } ∧ t.outboxOps = (db.dequeue opId).outboxOps ∧
            t.returns = db.returns ∧ Touches note.saleId db.sales t.sales ∧
              ∀ {p row}, t.products.get p = some row → 0 ≤ row.stock := by
      rcases undoOrLegacy_cases (db.dequeue opId) opId (legacyReverseOfflineReturn r) with
        ⟨e, he, hundo⟩ | ⟨he, hlegacy⟩
      · refine ⟨_, hundo, rfl, rfl, Touches.undo fun y hy => hrecord e y he hy,
          undoStock_nonneg e fun hrow => ?_⟩
        refine record_on_shelf ?_ hsold h.stock hrow
        simp only [take, he]
      · have htables : (legacyReverseOfflineReturn r (db.dequeue opId).toDb).outboxOps =
            (db.dequeue opId).outboxOps ∧
              (legacyReverseOfflineReturn r (db.dequeue opId).toDb).products =
                takeOff note.moves db.products := by
          simp only [legacyReverseOfflineReturn, hnote']
          split <;> exact ⟨rfl, rfl⟩
        refine ⟨_, hlegacy, htables.1, legacyReverseOfflineReturn_returns r _,
          Touches.legacyReverseOfflineReturn hnote', fun {p row} hrow => ?_⟩
        refine takeOff_nonneg (fun hp => ?_) (htables.2 ▸ hrow)
        refine lines_on_shelf ?_ hsold h.stock hp
        simp only [take, he, hnote', Option.elim_some]
    rw [hundone]
    set u := unvoidIfNoLongerFullyReturned note.saleId { t with returns := t.returns.erase r } with hu
    show db.Outside (({ db.dequeue opId with toDb := u } : AppDatabase).forget opId)
    obtain ⟨hproducts, hreturns', hout'⟩ : u.products = t.products ∧ u.returns = t.returns.erase r ∧
        u.outboxOps = t.outboxOps := unvoidIfNoLongerFullyReturned_tables _ _
    have hq := dequeued db opId (hout'.trans hout)
    refine h.outside_of_touched hq (fun hrow => hstock (hproducts ▸ hrow))
      (hsales.trans (Touches.unvoidIfNoLongerFullyReturned note.saleId
        { t with returns := t.returns.erase r })) (fun _ i hi => hfree i (hq.has hi).1)
        (fun {r' note'} hr => ?_) fun {i r'} hi => ?_
    · have hr : u.returns.get r' = some note' := hr
      rw [hreturns', Table.get_erase] at hr
      split at hr
      · cases hr
      · exact hreturns ▸ hr
    · show u.returns.get r' = _
      rw [hreturns', Table.get_erase, if_neg, hreturns]
      rintro rfl
      exact (hq.has hi).2 (h.oneNote (hq.has hi).1 hkind)

/-- Without a bill and whatever was queued about it. -/
theorem Kept.outside_of_erased (h : db.Kept) (hkind : db.Has opId (.saleCreate x))
    (hq : Dequeued opId db db') (hvoids : ∀ i, ¬db'.Has i (.saleVoidOffline x))
    (hstock : ∀ {p row}, db'.products.get p = some row → 0 ≤ row.stock)
    (hsales : ∀ y, db'.sales.get y = if y = x then none else db.sales.get y)
    (hreturns : db'.returns = db.returns) : db.Outside db' where
  ids := h.ids.sublist hq.ids
  has := fun hi _ => (hq.has hi).1
  opEffects := fun hi _ he => (hq.opEffects hi).symm.trans he
  stock := hstock
  lines := by
    intro y sale hy
    rw [hsales] at hy
    split at hy
    · cases hy
    · exact h.lines hy
  noteLines := by
    rw [hreturns]
    exact h.noteLines
  sales := by
    rintro y sale hy ⟨i, hi⟩
    have hne : y ≠ x := by
      rintro rfl
      rcases hi with hi | hi
      · exact (hq.has hi).2 (h.oneBill (hq.has hi).1 hkind)
      · exact hvoids i hi
    rw [hsales, if_neg hne]
    exact ⟨sale, hy, rfl, fun _ => rfl⟩
  returns := fun _ => by rw [hreturns]

/-- A bill has one queued void at most. -/
theorem Kept.queuedVoidsOf_cases (h : db.Kept) (opId : Nat) (x : SaleId) :
    (db.dequeue opId).queuedVoidsOf x = [] ∨ ∃ v, (db.dequeue opId).queuedVoidsOf x = [v] ∧
      db.Has v (.saleVoidOffline x) := by
  have hmem : ∀ i ∈ (db.dequeue opId).queuedVoidsOf x, db.Has i (.saleVoidOffline x) :=
    fun i hi => (has_dequeue.mp (mem_queuedVoidsOf.mp hi)).1
  have hnodup : ((db.dequeue opId).queuedVoidsOf x).Nodup := by
    have hbills : ((db.dequeue opId).outboxOps.map (·.opId)).Nodup :=
      (h.ids.sublist opIds_dequeue).sublist (List.sublist_append_left _ _)
    exact hbills.sublist (List.filter_sublist.map _)
  match hvoids : (db.dequeue opId).queuedVoidsOf x with
  | [] => exact .inl rfl
  | [v] => exact .inr ⟨v, rfl, hmem v (by rw [hvoids]; exact List.mem_singleton_self v)⟩
  | v :: w :: rest =>
      rw [hvoids] at hmem hnodup
      have heq : v = w := h.oneVoid (hmem v List.mem_cons_self)
        (hmem w (List.mem_cons_of_mem _ List.mem_cons_self))
      rw [heq] at hnodup
      exact absurd List.mem_cons_self (List.nodup_cons.mp hnodup).1

/-- What the bill and its void moved, undone together, leaves at least what was there. -/
theorem Kept.undone_with_void (h : db.Kept) (hkind : db.Has opId (.saleCreate x)) {v : Nat}
    (hv : db.Has v (.saleVoidOffline x)) : ∃ t,
      (db.dequeue opId).discardSaleWithVoids opId [v] =
        (({ db.dequeue opId with toDb := t } : AppDatabase).dequeue v).forget v ∧
          t.outboxOps = (db.dequeue opId).outboxOps ∧ t.returns = db.returns ∧
            Touches x db.sales t.sales ∧
              ∀ {p row}, t.products.get p = some row → 0 ≤ row.stock := by
  obtain ⟨sale, hsale, hrecord⟩ := h.bill hkind
  obtain ⟨sale', hsale', -, hrecord'⟩ := h.void hv
  rw [hsale] at hsale'
  obtain rfl := Option.some.inj hsale'
  have heffects : (db.dequeue opId).opEffects = db.opEffects := rfl
  cases he : db.opEffects.get opId with
  | none =>
      refine ⟨db.dequeue opId |>.toDb, ?_, rfl, rfl, .refl x _, h.stock⟩
      simp [discardSaleWithVoids, List.mapM_cons, heffects, he]
      rfl
  | some e =>
      obtain ⟨hnone, hmoved⟩ := hrecord e he
      cases he' : db.opEffects.get v with
      | none =>
          refine ⟨db.dequeue opId |>.toDb, ?_, rfl, rfl, .refl x _, h.stock⟩
          simp [discardSaleWithVoids, List.mapM_cons, heffects, he, he']
          rfl
      | some e' =>
          obtain ⟨hvoided, hmoved'⟩ := hrecord' e' he'
          refine ⟨e'.undo (e.undo (db.dequeue opId).toDb), ?_, rfl, rfl, ?_, fun {p row} hrow => ?_⟩
          · simp [discardSaleWithVoids, List.mapM_cons, heffects, he, he']
          · refine .trans (Touches.undo fun y hy => ?_) (Touches.undo fun y hy => ?_)
            · rw [hnone] at hy
              cases hy
            · rw [hvoided] at hy
              exact (Option.some.inj hy).symm
          · have hrow : (undoStock e'.stock (undoStock e.stock db.products)).get p = some row := hrow
            rw [get_undoStock, get_undoStock, Option.map_map] at hrow
            obtain ⟨old, hold, rfl⟩ := Option.map_eq_some_iff.mp hrow
            have hold := h.stock hold
            have hle := hmoved' p
            simp only [Function.comp_apply, hmoved]
            omega

/-- Discarding a bill changes no row that the operations left in the outbox are about. -/
theorem Kept.reverse_bill (h : db.Kept) (hkind : db.Has opId (.saleCreate x))
    (hd : (db.dequeue opId).reverse opId (.saleCreate x) = .ok d) :
    db.Outside (d.forget opId) := by
  obtain ⟨sale, hsale, hrecord⟩ := h.bill hkind
  have hnonneg := moves_nonneg (h.lines hsale)
  have hsales' : ∀ y, (db.sales.erase x).get y = if y = x then none else db.sales.get y :=
    Table.get_erase db.sales x
  simp only [reverse] at hd
  split at hd
  · cases hd
  · obtain rfl := Except.ok.inj hd
    -- a void of the bill is queued or not; where it is, it is undone first
    rcases h.queuedVoidsOf_cases opId x with hvoids | ⟨v, hvoids, hv⟩
    · rw [if_pos hvoids]
      obtain ⟨t, hundone, hout, hreturns, hsales, hstock⟩ : ∃ t,
          (db.dequeue opId).undoOrLegacy opId (legacyReverseOfflineSale x) =
            { db.dequeue opId with toDb := t } ∧ t.outboxOps = (db.dequeue opId).outboxOps ∧
              t.returns = db.returns ∧ t.sales = db.sales ∧
                ∀ {p row}, t.products.get p = some row → 0 ≤ row.stock := by
        -- with a record the stock it moved comes back, without one that of the lines
        rcases undoOrLegacy_cases (db.dequeue opId) opId (legacyReverseOfflineSale x) with
          ⟨e, he, hundo⟩ | ⟨-, hlegacy⟩
        · obtain ⟨hnone, hmoved⟩ := hrecord e he
          refine ⟨_, hundo, rfl, rfl, ?_, undoStock_nonneg e fun {p row} hrow => ?_⟩
          · show updateNamed e.voidedSaleId SaleRow.unvoid db.sales = _
            rw [hnone]
            rfl
          · rw [hmoved, sub_neg_eq_add]
            exact add_nonneg (h.stock hrow) (shiftOf_nonneg hnonneg p)
        · have htables : (legacyReverseOfflineSale x (db.dequeue opId).toDb).outboxOps =
              (db.dequeue opId).outboxOps ∧
                (legacyReverseOfflineSale x (db.dequeue opId).toDb).products =
                  putBack sale.moves db.products := by
            rw [legacyReverseOfflineSale, show (db.dequeue opId).sales = db.sales from rfl, hsale]
            exact ⟨rfl, rfl⟩
          obtain ⟨hsales, hreturns⟩ := legacyReverseOfflineSale_tables x (db.dequeue opId).toDb
          refine ⟨_, hlegacy, htables.1, hreturns, hsales, fun {p row} hrow => ?_⟩
          exact putBack_nonneg hnonneg h.stock (htables.2 ▸ hrow)
      rw [hundone]
      have hq : Dequeued opId db (({ db.dequeue opId with
          toDb := { t with sales := t.sales.erase x } } : AppDatabase).forget opId) :=
        dequeued db opId hout
      refine h.outside_of_erased hkind hq (fun i hi => ?_) hstock ?_ hreturns
      · have hmem : i ∈ (db.dequeue opId).queuedVoidsOf x :=
          mem_queuedVoidsOf.mpr (has_dequeue.mpr (hq.has hi))
        rw [hvoids] at hmem
        exact absurd hmem List.not_mem_nil
      · show ∀ y, (t.sales.erase x).get y = _
        rw [hsales]
        exact hsales'
    · rw [hvoids, if_neg (List.cons_ne_nil _ _)]
      obtain ⟨t, hundone, hout, hreturns, hsales, hstock⟩ := h.undone_with_void hkind hv
      rw [hundone]
      set d' := (({ db.dequeue opId with toDb := t } : AppDatabase).dequeue v).forget v with hd'
      -- the void has left the outbox too
      have hhas : ∀ {i k}, d'.Has i k → (db.dequeue opId).Has i k ∧ i ≠ v := by
        intro i k hi
        obtain ⟨hi, hne⟩ := has_dequeue.mp hi
        rw [Has] at hi ⊢
        rw [← hout]
        exact ⟨hi, hne⟩
      have hq : Dequeued opId db (({ d' with sales := d'.sales.erase x } : AppDatabase).forget opId) := by
        refine ⟨?_, fun hi => has_dequeue.mp (hhas hi).1, fun {i k} hi => ?_⟩
        · refine opIds_dequeue.trans ?_
          show (t.outboxOps.map _ ++ _).Sublist _
          rw [hout]
          exact opIds_dequeue
        · show ((db.opEffects.erase v).erase opId).get i = _
          rw [Table.get_erase, if_neg (has_dequeue.mp (hhas hi).1).2, Table.get_erase,
            if_neg (hhas hi).2]
      refine h.outside_of_erased hkind hq (fun i hi => ?_) hstock (fun y => ?_) hreturns
      · obtain ⟨hi, hne⟩ := hhas hi
        exact hne (h.oneVoid (has_dequeue.mp hi).1 hv)
      · show (t.sales.erase x).get y = _
        rw [Table.get_erase]
        split
        · rfl
        · rename_i hne
          exact hsales.other hne

/-- **A discard** takes out what it is about, and leaves the rest of the queue as it was. -/
theorem Kept.discarded (h : db.Kept) {reply : Option Bool}
    (hd : db.discard opId reply = .ok db') : db.Outside db' := by
  rw [discard] at hd
  cases hkind : db.kindOf opId with
  | none =>
      rw [hkind] at hd
      cases hd
  | some kind =>
      have hhas := has_of_kindOf hkind
      simp only [hkind] at hd
      split at hd
      · cases hd
      · cases hd
      · rename_i serverHasRow _
        rw [discardTx] at hd
        split at hd
        · obtain rfl := Except.ok.inj hd
          exact h.outside_of_touched (dequeued db opId rfl) h.stock (Touches.refl 0 _)
            (fun hne => absurd rfl hne) id fun _ => rfl
        · split at hd
          · cases hd
          · rename_i d hreverse
            obtain rfl := Except.ok.inj hd
            cases kind with
            | saleCreate x => exact h.reverse_bill hhas hreverse
            | saleVoidOffline x => exact h.reverse_void hhas hreverse
            | returnCreate r => exact h.reverse_note hhas hreverse
            | other =>
                obtain rfl := Except.ok.inj hreverse
                exact h.outside_of_touched (dequeued db opId rfl) h.stock (Touches.refl 0 _)
                  (fun hne => absurd rfl hne) id fun _ => rfl

end

/-! ### A customer -/

/-- An operation that moves no stock and no bill adds nothing to rely on. -/
theorem Kept.outside_of_queued (h : db.Kept) {opId : Nat} (hq : Queues opId .other db db')
    (hproducts : db'.products = db.products) (hsales : db'.sales = db.sales)
    (hreturns : db'.returns = db.returns) (heffects : db'.opEffects = db.opEffects) :
    db.Outside db' where
  ids := hq.ids h.ids
  has := fun hi hne => (hq.has.mp hi).resolve_right fun heq => hne heq.2
  opEffects := fun _ _ he => heffects ▸ he
  stock := fun hrow => h.stock (hproducts ▸ hrow)
  lines := fun hrow => h.lines (hsales ▸ hrow)
  noteLines := fun hrow => h.noteLines (hreturns ▸ hrow)
  sales := by
    intro x sale hrow _
    exact ⟨sale, hsales ▸ hrow, rfl, fun _ => rfl⟩
  returns := fun _ => by rw [hreturns]

theorem Kept.customer {opId key now : Nat} {c : CustomerId} {contact : Contact} (h : db.Kept)
    (hnew : db.queueOfflineCustomer opId key c contact now = .ok db') : db'.Kept := by
  rw [queueOfflineCustomer] at hnew
  split at hnew
  · cases hnew
  · rename_i hfree
    obtain rfl := Except.ok.inj hnew
    exact h.outside (h.outside_of_queued (queues_other hfree rfl rfl rfl rfl) rfl rfl rfl rfl)

theorem Kept.edit {opId key now : Nat} {c : CustomerId} {patch : ContactPatch} (h : db.Kept)
    (hedit : db.queueOfflineUpdate opId key c patch now = .ok db') : db'.Kept := by
  rw [queueOfflineUpdate] at hedit
  split at hedit
  · cases hedit
  · rename_i hfree
    obtain rfl := Except.ok.inj hedit
    exact h.outside (h.outside_of_queued (queues_other hfree rfl rfl rfl rfl) rfl rfl rfl rfl)

/-! ## Every run -/

/-- A database with nothing queued keeps the invariant. -/
theorem Fresh.kept (h : Fresh db) : db.Kept := by
  have hempty : ∀ i kind, ¬db.Has i kind := by
    rintro i kind (⟨op, hop, -⟩ | ⟨op, hop, -⟩)
    · rw [h.outboxOps] at hop
      exact List.not_mem_nil hop
    · rw [h.otherOps] at hop
      exact List.not_mem_nil hop
  exact
    { ids := by
        rw [opIds, h.outboxOps, h.otherOps]
        exact List.nodup_nil
      stock := h.stock
      lines := h.lines
      noteLines := h.noteLines
      bill := fun hi => absurd hi (hempty _ _)
      oneBill := fun hi => absurd hi (hempty _ _)
      void := fun hi => absurd hi (hempty _ _)
      oneVoid := fun hi => absurd hi (hempty _ _)
      note := fun hi => absurd hi (hempty _ _)
      oneNote := fun hi => absurd hi (hempty _ _) }

theorem Kept.step (h : db.Kept) (hstep : Step db db') : db'.Kept := by
  cases hstep with
  | save hpos hsave => exact h.save hpos hsave
  | void hvoid => exact h.void_offline hvoid
  | note hitems hpos hnote => exact h.returned hitems hpos hnote
  | customer hnew => exact h.customer hnew
  | edit hedit => exact h.edit hedit
  | discard hd => exact h.outside (h.discarded hd)
  | outside ho => exact h.outside ho

theorem Reachable.kept (h : Reachable db) : db.Kept := by
  induction h with
  | fresh h => exact h.kept
  | step _ hstep ih => exact ih.step hstep

end AppDatabase

namespace AppDatabase

end AppDatabase

end Cache

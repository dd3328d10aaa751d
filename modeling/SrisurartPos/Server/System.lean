import SrisurartPos.Server.Requests
import Mathlib.Logic.Relation

/-! # The server

Everything that writes the shop's books, running at once: the counter's requests, the operations of
the tills' batches, and the job that deletes old keys. The main results are the rules for its runs:
a committed transaction performs one change of the books (`commits`), so what every change keeps
holds in every reachable state (`invariant`). -/

namespace Server

open Txn

/-- What a transaction is started for. -/
inductive Op where
  | post (env : Env) (actor : Actor) (key requestHash : Nat) (req : Request)
  | push (env : Env) (actor : Actor) (key requestHash : Nat) (op : SyncOp)
  | reportUnsynced (d : DeviceId) (outboxRemaining : Nat)
  | cleanup (now : Nat)

def prog : Op → Prog Reply
  | .post env actor key requestHash req =>
      runIdempotent env key req.endpoint requestHash (req.handle env actor)
  | .push env actor key requestHash op => processSingleOp env actor key requestHash op
  | .reportUnsynced d n => do
      updateUnsyncedOps d n
      return .unit
  | .cleanup now => do
      Server.cleanup now
      return .unit

/-- The change of the books a transaction may commit. -/
def Op.Allows : Op → Effect → Prop
  | .post env actor _ _ req, e => req.Allows env actor e
  | .push env actor _ _ op, e  => op.Allows env actor e
  | .reportUnsynced _ _, _     => False
  | .cleanup _, _              => False

/-- What a transaction leaves of the idempotency keys. -/
def Op.KeyStep : Op → Db → Db → Prop
  | .post _ _ key _ _, s, s'   => Server.KeyStep key s s'
  | .push _ _ key _ _, s, s'   => Server.KeyStep key s s'
  | .reportUnsynced _ _, s, s' => s'.idempotencyKeys = s.idempotencyKeys
  | .cleanup now, s, s'        => Cleaned now s s'.desk

/-- What a transaction does: one change of the books, its audit row, its key. -/
structure Op.Does (op : Op) (s s' : Db) : Prop where
  commits : Commits op.Allows s s'
  noted : Noted s s'
  keys : op.KeyStep s s'

/-- The server with its transactions under way, which are named by `T`. -/
abbrev System (T : Type) := Sys Db LockKey ServerError Reply Op T

/-! ## Documents stay -/

/-- No document goes away, and none is opened again. -/
structure Kept (s s' : Db) : Prop where
  sale : ∀ x, (s.sales.get x).isSome → (s'.sales.get x).isSome
  voided : ∀ x, (s.sales.get x).any (·.voided) → (s'.sales.get x).any (·.voided)
  note : ∀ r, (s.returns.get r).isSome → (s'.returns.get r).isSome
  payment : ∀ i, (s.creditPayments.get i).isSome → (s'.creditPayments.get i).isSome
  entry : ∀ e, (s.drawerEntries.get e).isSome → (s'.drawerEntries.get e).isSome
  shift : ∀ k, (s.shifts.get k).isSome → (s'.shifts.get k).isSome
  closed : ∀ k, (s.shifts.get k).any (·.closed) → (s'.shifts.get k).any (·.closed)
  archived : ∀ k, (s.shifts.get k).any (!·.isActive) → (s'.shifts.get k).any (!·.isActive)
  received : ∀ i, (s.purchaseOrders.get i).any (·.status = .received) →
    (s'.purchaseOrders.get i).any (·.status = .received)
  customer : ∀ c, (s.customers.get c).isSome → (s'.customers.get c).isSome

theorem Kept.refl (s : Db) : Kept s s :=
  ⟨fun _ h => h, fun _ h => h, fun _ h => h, fun _ h => h, fun _ h => h, fun _ h => h,
    fun _ h => h, fun _ h => h, fun _ h => h, fun _ h => h⟩

theorem Kept.trans {s s' s'' : Db} (h : Kept s s') (h' : Kept s' s'') : Kept s s'' :=
  ⟨fun x hx => h'.sale x (h.sale x hx), fun x hx => h'.voided x (h.voided x hx),
    fun r hr => h'.note r (h.note r hr), fun i hi => h'.payment i (h.payment i hi),
    fun e he => h'.entry e (h.entry e he), fun k hk => h'.shift k (h.shift k hk),
    fun k hk => h'.closed k (h.closed k hk), fun k hk => h'.archived k (h.archived k hk),
    fun i hi => h'.received i (h.received i hi), fun c hc => h'.customer c (h.customer c hc)⟩

/-- A row that satisfies `p` is still there, and satisfies `p`, when another one is inserted … -/
private theorem any_insert {κ ν : Type} [DecidableEq κ] {t : Table κ ν} {k : κ} {v : ν}
    (hk : t.get k = none) {p : ν → Bool} {j : κ} (h : (t.get j).any p = true) :
    ((t.insert k v).get j).any p = true := by
  rw [Table.get_insert hk]
  split
  · rename_i hj
    rw [hj, hk] at h
    cases h
  · exact h

/-- … and when rows change in a way that keeps `p`. -/
private theorem any_modify {κ ν : Type} [DecidableEq κ] {t : Table κ ν} {k : κ} {f : ν → ν}
    {p : ν → Bool} (hf : ∀ v, p v = true → p (f v) = true) {j : κ} (h : (t.get j).any p = true) :
    ((t.modify k f).get j).any p = true := by
  rw [Table.get_modify]
  split
  · rw [Option.any_map]
    cases hv : t.get j with
    | none =>
        rw [hv] at h
        cases h
    | some v =>
        rw [hv] at h
        exact hf v h
  · exact h

private theorem isSome_insert {κ ν : Type} [DecidableEq κ] {t : Table κ ν} {k : κ} {v : ν}
    (hk : t.get k = none) {j : κ} (h : (t.get j).isSome = true) :
    ((t.insert k v).get j).isSome = true := by
  rw [Table.get_insert hk]
  split
  · rfl
  · exact h

private theorem isSome_modify {κ ν : Type} [DecidableEq κ] {t : Table κ ν} {k : κ} {f : ν → ν}
    {j : κ} (h : (t.get j).isSome = true) : ((t.modify k f).get j).isSome = true := by
  rw [Table.isSome_modify]
  exact h

/-- What a customer has bought is written on a row that is there. -/
theorem isSome_updateCustomer (s : Db) (c : Option CustomerId) (f : Customer → Customer) (j : CustomerId) :
    ((s.updateCustomer c f).customers.get j).isSome = (s.customers.get j).isSome := by
  cases c with
  | none => rfl
  | some c => exact Table.isSome_modify _ _ _ _

theorem kept_archiveShift (s : Db) (k : ShiftId) (neverClosed : Bool) :
    Kept s (s.archiveShift k neverClosed) :=
  { Kept.refl s with
    shift := fun _ h => isSome_modify h
    closed := fun _ h => any_modify (p := (·.closed)) (f := fun row : Shift =>
      { row with isActive := false, autoArchived := row.autoArchived || neverClosed })
      (fun _ hv => hv) h
    archived := fun _ h => any_modify (fun _ _ => rfl) h }

theorem kept_closeShift (s : Db) (k : ShiftId) (cash : Int) : Kept s (s.closeShift k cash) :=
  { Kept.refl s with
    shift := fun _ h => isSome_modify h
    closed := fun _ h => any_modify (fun _ _ => rfl) h
    archived := fun _ h => any_modify (p := (!·.isActive)) (f := fun row : Shift =>
      { row with closed := true, physicalCash := some cash }) (fun _ hv => hv) h }

/-- Archiving a device's drawers keeps every document, and what is voided, closed, archived or received. -/
theorem kept_archiveActive (s : Db) (d : DeviceId) : Kept s (s.archiveActive d) := by
  rw [Db.archiveActive]
  cases (s.activeShifts d).head? with
  | none => exact Kept.refl s
  | some k =>
      dsimp only
      cases s.shifts.get k with
      | none => exact Kept.refl s
      | some row =>
          dsimp only
          split
          · exact { kept_archiveShift s k (!row.closed) with }
          · exact kept_archiveShift s k (!row.closed)

/-- **No change of the books takes a document away.** -/
theorem Changes.kept {e : Effect} {s s' : Db} (h : Changes s e s') : Kept s s' := by
  cases h with
  | none => exact Kept.refl s
  | sale actor dto k row hsrc hadm =>
      exact { Kept.refl s with
        sale := fun _ h => isSome_insert hadm.insertable.fresh h
        voided := fun _ h => any_insert hadm.insertable.fresh h
        customer := fun _ h => (isSome_updateCustomer s _ _ _).trans h }
  | creditNote actor r dto sale note hparse hadm hnew =>
      have hnote : ∀ j, (s.returns.get j).isSome → ((s.returns.insert r note).get j).isSome :=
        fun _ h => isSome_insert hnew h
      by_cases hfull : refundedTotal (noteLines ((s.recordReturn r note
          (aggregateReturn dto.items) sale).notesOf dto.saleId)) < soldTotal sale.items
      · rw [Db.autoVoid, if_pos hfull]
        exact { Kept.refl s with note := hnote, customer := fun _ h => (isSome_updateCustomer s _ _ _).trans h }
      · rw [Db.autoVoid, if_neg hfull]
        exact { Kept.refl s with
          note := hnote
          sale := fun _ h => isSome_modify h
          voided := fun _ h => any_modify (fun _ _ => rfl) h
          customer := fun _ h => (isSome_updateCustomer s _ _ _).trans h }
  | voidSale actor x reason sale k hadm =>
      exact { Kept.refl s with
        sale := fun _ h => isSome_modify h
        voided := fun _ h => any_modify (fun _ _ => rfl) h
        customer := fun _ h => (isSome_updateCustomer s _ _ _).trans h }
  | creditPayment actor i m dto row hparse hadm hnew =>
      exact { Kept.refl s with payment := fun _ h => isSome_insert hnew h }
  | adjustStock p input row hparse hrow hmax => exact { Kept.refl s with }
  | receivePo lower i ids po states unmatched hpo hopen hids hstates =>
      exact { Kept.refl s with received := fun _ h => any_modify (fun _ _ => rfl) h }
  | openShift d next openedAt hnew =>
      refine (kept_archiveActive s d).trans ?_
      cases next with
      | none => exact Kept.refl _
      | some kc =>
          have hfree := hnew kc.1 kc.2 rfl
          exact { Kept.refl (s.archiveActive d) with
            shift := fun _ h => isSome_insert hfree h
            closed := fun _ h => any_insert hfree h
            archived := fun _ h => any_insert hfree h }
  | closeShift d k row cash hrow hopen => exact kept_closeShift s k cash
  | retire s₁ d hclosed =>
      cases hclosed with
      | none => exact Kept.refl s
      | archived k row hrow hc => exact kept_archiveShift s k false
      | counted j k row cash hrow hopen =>
          exact (kept_closeShift s j cash).trans (kept_archiveShift _ k false)
  | entry d e entry k row hrow hopen hnew =>
      exact { Kept.refl s with entry := fun _ h => isSome_insert hnew h }
  | editMechanic m patch row hrow halive => exact { Kept.refl s with }
  | createCustomer c input code hnew =>
      exact { Kept.refl s with customer := fun _ h => isSome_insert hnew h }
  | editCustomer c patch row hrow halive =>
      exact { Kept.refl s with customer := fun _ h => isSome_modify h }

theorem Performs.kept {e : Effect} {s s' : Db} (h : Performs e s s') : Kept s s' := by
  obtain ⟨t, desk, hch, rfl⟩ := h
  exact { hch.kept with }

/-! ## The ledger stays consistent -/

/-- A movement keeps the document behind it, as long as documents are kept. -/
theorem Db.Backs.kept {s s' : Db} (hk : Kept s s') {mv : Movement} (h : s.Backs mv) :
    s'.Backs mv := by
  intro ref href
  have := h ref href
  cases ht : mv.type with
  | sale =>
      rw [ht] at this
      exact hk.sale ref this
  | creditNote =>
      rw [ht] at this
      exact hk.note ref this
  | void =>
      rw [ht] at this
      exact hk.voided ref this
  | receive =>
      rw [ht] at this
      exact hk.received ref this
  | adjustmentIn => trivial
  | adjustmentOut => trivial

/-- **Every change of the books keeps the ledger's references.** -/
theorem Changes.consistent {e : Effect} {s s' : Db} (h : Changes s e s') (hs : s.Consistent) :
    s'.Consistent := by
  have hold : ∀ mv ∈ s.movements, s'.Backs mv := fun mv hmv => Db.Backs.kept h.kept (hs mv hmv)
  cases h with
  | none => exact hold
  -- the movements of a bill name the bill that is inserted with them
  | sale actor dto k row hsrc hadm =>
      intro mv hmv
      rcases mem_movements_moveStock hmv with hmv | ⟨ht, hr⟩
      · exact hold mv hmv
      · intro ref href
        obtain rfl : dto.id = ref := by simpa [hr] using href
        rw [ht]
        show ((s.sales.insert dto.id row).get dto.id).isSome = true
        rw [Table.get_insert_self hadm.insertable.fresh]
        rfl
  | creditNote actor r dto sale note hparse hadm hnew =>
      intro mv hmv
      rcases mem_movements_moveStock hmv with hmv | ⟨ht, hr⟩
      · exact hold mv hmv
      · intro ref href
        obtain rfl : r = ref := by simpa [hr] using href
        rw [ht]
        show ((s.returns.insert r note).get r).isSome = true
        rw [Table.get_insert_self hnew]
        rfl
  -- those of a void name a bill that is voided
  | voidSale actor x reason sale k hadm =>
      intro mv hmv
      rcases mem_movements_moveStock hmv with hmv | ⟨ht, hr⟩
      · exact hold mv hmv
      · intro ref href
        obtain rfl : x = ref := by simpa [hr] using href
        rw [ht]
        show ((s.sales.modify x (Sale.void reason)).get x).any (·.voided) = true
        rw [Table.get_modify_self, hadm.bill]
        rfl
  | creditPayment actor i m dto row hparse hadm hnew => exact hold
  -- an adjustment names nothing
  | adjustStock p input row hparse hrow hmax =>
      intro mv hmv
      rcases List.mem_append.mp hmv with hmv | hmv
      · exact hold mv hmv
      · rw [hrow] at hmv
        obtain rfl := List.mem_singleton.mp hmv
        intro ref href
        cases href
  -- those of a receipt name an order that is received
  | receivePo lower i ids po states unmatched hpo hopen hids hstates =>
      intro mv hmv
      rcases mem_movements_receiveAll hmv with hmv | ⟨ht, hr⟩
      · exact hold mv hmv
      · intro ref href
        obtain rfl : i = ref := by simpa [hr] using href
        rw [ht]
        show ((s.purchaseOrders.modify i fun po => { po with status := .received }).get i).any
          (·.status = .received) = true
        rw [Table.get_modify_self, hpo]
        rfl
  | openShift d next openedAt hnew =>
      have hmov : ((s.archiveActive d).openNext next openedAt d).movements = s.movements := by
        rw [Db.archiveActive_eq]
        cases next <;> rfl
      intro mv hmv
      exact hold mv (hmov ▸ hmv)
  | closeShift d k row cash hrow hopen => exact hold
  | retire s₁ d hclosed => cases hclosed <;> exact hold
  | entry d e entry k row hrow hopen hnew => exact hold
  | editMechanic m patch row hrow halive => exact hold
  | createCustomer c input code hnew => exact hold
  | editCustomer c patch row hrow halive => exact hold

theorem Performs.consistent {e : Effect} {s s' : Db} (h : Performs e s s') (hs : s.Consistent) :
    s'.Consistent := by
  obtain ⟨t, desk, hch, rfl⟩ := h
  exact hch.consistent hs

/-! ## Runs of the server -/

/-- **Every transaction performs one change of the books it may perform**, whatever has changed
around it since it began. -/
theorem wp_prog {s : Db} (hs : s.Consistent) (op : Op) :
    wp (prog op) [] s Expected fun _ H s' => op.Does s s' ∧ Covered agree H s s' := by
  cases op with
  | post env actor key requestHash req =>
      refine wp_mono (wp_runIdempotent fun H' desk => wp_handle (s := s.withDesk desk) hs req)
        (fun _ h => h) ?_
      rintro a H s' ⟨htrans, hcov⟩
      exact ⟨⟨htrans.commits, htrans.noted, htrans.keys⟩, hcov⟩
  | push env actor key requestHash op =>
      refine wp_mono (wp_processSingleOp hs op) (fun _ h => h) ?_
      rintro a H s' ⟨htrans, hcov⟩
      exact ⟨⟨htrans.commits, htrans.noted, htrans.keys⟩, hcov⟩
  | reportUnsynced d n =>
      refine wp_seq wp_updateUnsyncedOps ?_
      rintro _ H s' ⟨⟨desk, rfl, hfiled⟩, hcov⟩
      have hnoted : Noted s (s.withDesk desk) :=
        Noted.before_desk (AtDesk.refl s).noted hfiled.audit
      exact ⟨⟨Commits.none _ s desk, hnoted, hfiled.keys⟩, hcov⟩
  | cleanup now =>
      refine wp_seq wp_cleanup ?_
      rintro _ H s' ⟨⟨desk, rfl, hclean⟩, hcov⟩
      have hnoted : Noted s (s.withDesk desk) :=
        Noted.before_desk (AtDesk.refl s).noted hclean.audit
      exact ⟨⟨Commits.none _ s desk, hnoted, hclean⟩, hcov⟩

theorem disciplined_prog (op : Op) : Disciplined agree (prog op) [] fun _ _ => True := by
  cases op with
  | post env actor key requestHash req =>
      exact disciplined_runIdempotent fun H' => disciplined_handle env actor req
  | push env actor key requestHash op => exact disciplined_processSingleOp env actor key requestHash op
  | reportUnsynced d n => exact Disciplined.answer (disciplined_updateUnsyncedOps d n)
  | cleanup now => exact Disciplined.answer (disciplined_cleanup now)

theorem sound : Sound prog agree Db.Consistent Expected where
  equivalence := agree_equivalence
  disciplined := disciplined_prog
  commits op s hs := by
    refine wp_mono (wp_prog hs op) (fun _ h => h) ?_
    rintro a H s' ⟨⟨⟨e, -, hperf⟩, -, -⟩, hcov⟩
    exact ⟨hperf.consistent hs, hcov⟩

section
variable {T : Type} [DecidableEq T] {s₀ : Db} {S S' : System T}

theorem Reachable.consistent (h₀ : s₀.Consistent) (h : Reachable prog s₀ S) : S.db.Consistent :=
  (h.sysInv sound h₀).inv

/-- A statement changes nothing that is committed, or it commits what its transaction does. -/
theorem Reachable.does (h₀ : s₀.Consistent) (h : Reachable prog s₀ S)
    (hstep : Step prog S S') : (S'.db = S.db ∧ S'.log = S.log) ∨
      ∃ op a, op.Does S.db S'.db ∧ S'.log = S.log ++ [(op, a)] := by
  refine Txn.Reachable.commits sound h₀ h hstep (fun op _ s s' => op.Does s s') ?_
  intro op s hs
  exact wpHeld_of_wp (wp_mono (wp_prog hs op) (fun _ h => h) fun _ _ _ h => h.1)

/-- **The step rule.** A statement changes nothing that is committed, or it commits one change. -/
theorem Reachable.performs (h₀ : s₀.Consistent) (h : Reachable prog s₀ S)
    (hstep : Step prog S S') : (S'.db = S.db ∧ S'.log = S.log) ∨
      ∃ op a, Commits op.Allows S.db S'.db ∧ S'.log = S.log ++ [(op, a)] := by
  rcases Reachable.does h₀ h hstep with hquiet | ⟨op, a, hdoes, hlog⟩
  · exact .inl hquiet
  · exact .inr ⟨op, a, hdoes.commits, hlog⟩

/-- **The induction rule of the server's runs.** -/
theorem Reachable.invariant (J : Db → Prop) (h₀ : s₀.Consistent) (hJ : J s₀)
    (hstep : ∀ e s s', s.Consistent → J s → Performs e s s' → J s') (h : Reachable prog s₀ S) :
    J S.db := by
  induction h with
  | init => exact hJ
  | step hr hs ih =>
      rcases Reachable.performs h₀ hr hs with ⟨hdb, -⟩ | ⟨op, a, ⟨e, -, hperf⟩, -⟩
      · rw [hdb]
        exact ih
      · exact hstep e _ _ (Reachable.consistent h₀ hr) ih hperf

/-- Any number of statements. -/
abbrev Runs (S S' : System T) : Prop := Relation.ReflTransGen (Step prog) S S'

theorem Reachable.runs (h : Reachable prog s₀ S) (hr : Runs S S') : Reachable prog s₀ S' := by
  induction hr with
  | refl => exact h
  | tail _ hstep ih => exact ih.step hstep

/-- What holds now and is kept by every change holds from now on. -/
theorem Reachable.stable (J : Db → Prop) (h₀ : s₀.Consistent) (h : Reachable prog s₀ S)
    (hJ : J S.db) (hstep : ∀ e s s', s.Consistent → J s → Performs e s s' → J s')
    (hr : Runs S S') : J S'.db := by
  induction hr with
  | refl => exact hJ
  | tail hr hs ih =>
      have hmid := Reachable.runs h hr
      rcases Reachable.performs h₀ hmid hs with ⟨hdb, -⟩ | ⟨op, a, ⟨e, -, hperf⟩, -⟩
      · rw [hdb]
        exact ih
      · exact hstep e _ _ (Reachable.consistent h₀ hmid) ih hperf

end

/-! ## A small shop

One device with an open drawer, a product, a customer and a mechanic: where the runs that illustrate
the results below start. -/

def smallShop : Db :=
  { Db.empty with
    products := Table.empty.insert 7 ⟨"PN-7", "brake pad", 60, 5, false⟩
    customers := Table.empty.insert 3 ⟨"CUS001", "Somchai", "สมชาย", none, none, 0, 0, false⟩
    mechanics := Table.empty.insert 4 ⟨100000, 0, 0, 0, 0, 0, false⟩
    shifts := Table.empty.insert 11 (newShift 1 0 0)
    devices := Table.empty.insert 1 ⟨1, false, 0⟩ }

theorem smallShop_consistent : smallShop.Consistent := by
  intro mv hmv
  cases hmv

/-- The surroundings of a request whose fresh UUID is `uuid`, at the time `now`. -/
def plainEnv (now uuid : Nat) : Env :=
  { now := now, newUuid := uuid, period := 0, periodOf := fun _ => 0, docNumberFallback := true, lower := id,
    cached := none }

theorem three_sold_pos : 0 < 3 := by decide
theorem four_sold_pos : 0 < 4 := by decide

theorem two_pieces_pos : (0 : Int) < 2 := by decide
theorem three_pieces_pos : (0 : Int) < 3 := by decide
theorem four_pieces_pos : (0 : Int) < 4 := by decide
theorem five_pieces_pos : (0 : Int) < 5 := by decide

/-- A cash bill of `n` pieces of the product at 100 satang each. -/
def cashBill (x : SaleId) (n : Nat) (hn : 0 < n) : SaleWrite :=
  { id := x, receiptNo := none, subtotal := 100 * n, discount := 0, total := 100 * n,
    paymentMethod := .cash, customerId := none, mechanicId := none, mechanicDelta := none,
    overrideCreditLimit := false, paymentAccountId := none, soldOffline := false,
    items := [⟨1, 7, "brake pad", n, 100, Int.natCast_pos.mpr hn⟩] }

end Server

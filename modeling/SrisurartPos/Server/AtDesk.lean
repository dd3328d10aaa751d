import SrisurartPos.Server.Effects

/-! # What the services leave at the desk

Two things of the desk matter to the books after all. The idempotency keys decide whether a request
is carried out or answered from what is stored; no service writes them, only the wrapper around it
does. And the audit log says which bills went past a credit limit: one row for each of them. -/

namespace Server

open Txn

/-- The audit rows that say the bill `x` went past a credit limit. -/
def Db.overrideRows (x : SaleId) (db : Db) : Nat :=
  db.auditLog.countP fun a => a.action = .creditLimitOverride ∧ a.docId = some x

/-- The bill `x` is new in `s'` and past the limit as `s` has it. -/
def NewPastLimit (x : SaleId) (s s' : Db) : Prop :=
  s.sales.get x = none ∧ (s'.sales.get x).any (Sale.pastLimit s) = true

instance (x : SaleId) (s s' : Db) : Decidable (NewPastLimit x s s') :=
  inferInstanceAs (Decidable (_ ∧ _))

/-- Every bill past the limit is noted once, and no other bill is. -/
def Noted (s s' : Db) : Prop :=
  ∀ x, s'.overrideRows x = s.overrideRows x + if NewPastLimit x s s' then 1 else 0

/-- What a service leaves of the keys and of the audit log. -/
structure AtDesk (s s' : Db) : Prop where
  keys : s'.idempotencyKeys = s.idempotencyKeys
  noted : Noted s s'

/-- A desk on which something was filed: not among the keys, nor in the audit log. -/
structure Db.Filed (db : Db) (desk : Desk) : Prop where
  keys : desk.idempotencyKeys = db.idempotencyKeys
  audit : desk.auditLog = db.auditLog

section
variable {s s₁ s' : Db} {desk : Desk}

theorem Db.Filed.refl (db : Db) : db.Filed db.desk := ⟨rfl, rfl⟩

/-- Where no bill is new, no row is added. -/
theorem Noted.of_same (hsales : ∀ x, s.sales.get x = none → s'.sales.get x = none)
    (hrows : ∀ x, s'.overrideRows x = s.overrideRows x) : Noted s s' := by
  intro x
  have hold : ¬NewPastLimit x s s' := by
    rintro ⟨hnew, hpast⟩
    rw [hsales x hnew] at hpast
    cases hpast
  rw [if_neg hold, hrows, Nat.add_zero]

theorem AtDesk.refl (s : Db) : AtDesk s s :=
  ⟨rfl, .of_same (fun _ h => h) fun _ => rfl⟩

theorem Noted.before_desk (h : Noted s s') (hd : desk.auditLog = s'.auditLog) :
    Noted s (s'.withDesk desk) := by
  intro x
  have hrows : (s'.withDesk desk).overrideRows x = s'.overrideRows x := by
    unfold Db.overrideRows
    rw [← hd]
    rfl
  rw [hrows]
  exact h x

theorem Noted.after_desk (h : Noted (s.withDesk desk) s') (hd : desk.auditLog = s.auditLog) :
    Noted s s' := by
  intro x
  have hrows : (s.withDesk desk).overrideRows x = s.overrideRows x := by
    unfold Db.overrideRows
    rw [← hd]
    rfl
  rw [← hrows]
  exact h x

theorem AtDesk.before_desk (h : AtDesk s s') (hd : s'.Filed desk) : AtDesk s (s'.withDesk desk) :=
  ⟨hd.keys.trans h.keys, h.noted.before_desk hd.audit⟩

theorem AtDesk.after_desk (h : AtDesk (s.withDesk desk) s') (hd : s.Filed desk) : AtDesk s s' :=
  ⟨h.keys.trans hd.keys, h.noted.after_desk hd.audit⟩

/-- A row of another kind is not counted. -/
theorem overrideRows_append (db : Db) (rows : List AuditEntry)
    (hrows : ∀ a ∈ rows, a.action ≠ .creditLimitOverride) (x : SaleId)
    (haudit : s'.auditLog = db.auditLog ++ rows) : s'.overrideRows x = db.overrideRows x := by
  unfold Db.overrideRows
  rw [haudit, List.countP_append]
  have hzero : rows.countP (fun a => a.action = .creditLimitOverride ∧ a.docId = some x) = 0 := by
    rw [List.countP_eq_zero]
    intro a ha hcount
    have hboth : a.action = .creditLimitOverride ∧ a.docId = some x := by simpa using hcount
    exact hrows a ha hboth.1
  rw [hzero, Nat.add_zero]

/-- A change that leaves the bills and adds audit rows of other kinds. -/
theorem AtDesk.of_same (rows : List AuditEntry) (hkeys : s'.idempotencyKeys = s.idempotencyKeys)
    (haudit : s'.auditLog = s.auditLog ++ rows)
    (hrows : ∀ a ∈ rows, a.action ≠ .creditLimitOverride)
    (hsales : ∀ x, s.sales.get x = none → s'.sales.get x = none) : AtDesk s s' :=
  ⟨hkeys, .of_same hsales fun x => overrideRows_append s rows hrows x haudit⟩

/-- … and one that adds none. -/
theorem AtDesk.of_quiet (hkeys : s'.idempotencyKeys = s.idempotencyKeys)
    (haudit : s'.auditLog = s.auditLog)
    (hsales : ∀ x, s.sales.get x = none → s'.sales.get x = none) : AtDesk s s' :=
  .of_same [] hkeys (by rw [haudit, List.append_nil]) (fun _ ha => by cases ha) hsales

private theorem none_of_modify {t : Table SaleId Sale} {k x : SaleId} {f : Sale → Sale}
    (h : t.get x = none) : (t.modify k f).get x = none := by
  rw [Table.get_modify, h, Option.map_none, ite_self]

/-! ## The services -/

/-- A bill that is new brings its own audit row, if it is past the limit. -/
theorem Noted.of_sale {y : SaleId} {row : Sale} {m : MechanicId} (hfresh : s.sales.get y = none)
    (hsales : s'.sales = s.sales.insert y row) (haudit : s'.auditLog = s.auditLog ++
      if row.pastLimit s then [⟨.creditLimitOverride, m, some y⟩] else []) : Noted s s' := by
  intro x
  have hnew : NewPastLimit x s s' ↔ x = y ∧ row.pastLimit s = true := by
    unfold NewPastLimit
    rw [hsales, Table.get_insert hfresh]
    by_cases hx : x = y
    · subst hx
      simp [hfresh]
    · rw [if_neg hx]
      constructor
      · rintro ⟨hnone, hpast⟩
        rw [hnone] at hpast
        cases hpast
      · rintro ⟨rfl, -⟩
        exact absurd rfl hx
  have hrows : s'.overrideRows x =
      s.overrideRows x + if x = y ∧ row.pastLimit s = true then 1 else 0 := by
    unfold Db.overrideRows
    rw [haudit, List.countP_append]
    cases row.pastLimit s with
    | false => simp
    | true => simp [List.countP_cons, eq_comm]
  rw [hrows]
  simp only [hnew]

theorem SaleCreated.atDesk {actor : Actor} {dto : SaleWrite} {r : CreateSaleResult}
    (h : SaleCreated actor dto s r s') : AtDesk s s' := by
  cases h with
  | replay hr => exact .refl s
  | written k row c v noted hadm hnoted hr =>
      subst hnoted
      exact ⟨rfl, Noted.of_sale hadm.insertable.fresh rfl rfl⟩

theorem QuoteSettled.filed {q : QuoteId} {x : SaleId} (h : QuoteSettled q x s s') :
    s.Filed s'.desk := by
  cases h <;> exact ⟨rfl, rfl⟩

theorem QuoteSold.atDesk {actor : Actor} {q : QuoteId} {dto : SaleWrite} {r : CreateSaleResult}
    (h : QuoteSold actor q dto s r s') : AtDesk s s' := by
  obtain ⟨s₁, s₂, hr, hq⟩ := h
  rw [hq.withDesk]
  exact hr.atDesk.before_desk hq.filed

theorem ReturnCreated.atDesk {env : Env} {actor : Actor} {dto : ReturnWrite}
    {r : CreateReturnResult} (h : ReturnCreated env actor dto s r s') : AtDesk s s' := by
  cases h with
  | replay hr => exact .refl s
  | written r note sale c v hadm hr hnew hres =>
      refine AtDesk.of_quiet rfl rfl fun x hx => ?_
      simp only [Db.autoVoid]
      split
      · exact hx
      · exact none_of_modify hx

theorem SaleVoided.atDesk {actor : Actor} {x : SaleId} {reason : String}
    (h : SaleVoided actor x reason s s') : AtDesk s s' := by
  obtain ⟨sale, k, hadm⟩ := h
  exact AtDesk.of_same [⟨.saleVoid, x, none⟩] rfl rfl (by simp) fun _ hy => none_of_modify hy

theorem PaymentCreated.atDesk {env : Env} {actor : Actor} {m : MechanicId}
    {dto : CreateCreditPayment} {r : CreateCreditPaymentResult}
    (h : PaymentCreated env actor m dto s r s') : AtDesk s s' := by
  cases h with
  | replay hr => exact .refl s
  | written i row c v audited hadm hi hnew hr =>
      refine AtDesk.of_same
        (if audited then [⟨.creditPaymentOverpayment, row.mechanicId, some i⟩] else []) rfl rfl ?_
        fun _ hx => hx
      cases audited <;> simp

theorem StockAdjusted.atDesk {p : ProductId} {input : StockAdjustment} {after : Int}
    (h : StockAdjusted p input s after s') : AtDesk s s' := by
  obtain ⟨row, hrow, hmax⟩ := h
  exact AtDesk.of_same [⟨.stockAdjust, p, none⟩] rfl rfl (by simp) fun _ hx => hx

theorem GoodsReceived.atDesk {lower : String → String} {i : PoId} {r : ReceiveResult}
    (h : GoodsReceived lower i s r s') : AtDesk s s' := by
  obtain ⟨po, ids, states, unmatched, hpo, hopen, hids, hstates⟩ := h
  exact AtDesk.of_same [⟨.poReceive, i, none⟩] rfl rfl (by simp) fun _ hx => hx

theorem archiveActive_atDesk (s : Db) (d : DeviceId) : AtDesk s (s.archiveActive d) := by
  rw [Db.archiveActive_eq]
  exact .of_quiet rfl rfl fun _ hx => hx

theorem Opened.atDesk {env : Env} {d : DeviceId} {input : OpenShiftInput}
    (h : Opened env d input s s') : AtDesk s s' := by
  cases h with
  | replay hid => exact .refl s
  | conflict => exact archiveActive_atDesk s d
  | fresh k hk hnew =>
      have harchived := archiveActive_atDesk s d
      exact ⟨harchived.keys, harchived.noted⟩

/-- Retiring a device leaves the keys and the audit log as they are. -/
theorem Retired.atDesk {d : DeviceId} (h : Retired d s s') : AtDesk s s' := by
  obtain ⟨s₁, s₂, hs₁, hclosed⟩ := h
  have hfiled : s₂.idempotencyKeys = s.idempotencyKeys ∧ s₂.auditLog = s.auditLog ∧
      s₂.sales = s.sales := by
    rcases hs₁ with rfl | rfl <;> cases hclosed <;> exact ⟨rfl, rfl, rfl⟩
  obtain ⟨hkeys, haudit, hsales⟩ := hfiled
  refine AtDesk.of_same [⟨.deviceRetire, d, none⟩] hkeys ?_ (by simp) fun x hx => ?_
  · show s₂.auditLog ++ [_] = _
    rw [haudit]
  · show s₂.sales.get x = none
    rw [hsales]
    exact hx

theorem EntryAdded.atDesk {env : Env} {d : DeviceId} {entry : DrawerEntryBody}
    {offlineReplay : Bool} {r : EntryId × DrawerEntry}
    (h : EntryAdded env d entry offlineReplay s r s') : AtDesk s s' := by
  cases h with
  | replay hr => exact .refl s
  | fresh k row e he hrow hopen hnew hcash => exact .of_quiet rfl rfl fun _ hx => hx

end

end Server

import SrisurartPos.Server.PaymentAccounts
import SrisurartPos.Txn.Schedule

/-! # What holds of a shop's payment accounts in every run

The advisory lock makes the writes of one shop follow one another, so that what each of them keeps alone is
kept in every interleaving. -/

namespace Server.PaymentAccounts

open Txn Dyn Ids

/-! ## The invariant -/

/-- The columns that say how the account is paid. -/
def AccountRow.PaidBy (r : AccountRow) : Payee → Prop
  | .promptpay id => r.kind = "promptpay" ∧ r.promptpayId = some id ∧ r.image = none ∧ r.imageMime = none
  | .image image  =>
      r.kind = "image" ∧ r.promptpayId = none ∧ r.image = some image.bytes ∧ r.imageMime = some image.mime

/-- A row that a request could have written. -/
structure AccountRow.Valid (r : AccountRow) : Prop where
  nickname : IsNickname r.nickname
  bankCode : r.bankCode ∈ bankCodes
  sortOrder : 0 ≤ r.sortOrder ∧ r.sortOrder ≤ 10000
  payee : ∃ payee, IsPayee payee ∧ r.PaidBy payee
  deleted : r.active = false → r.isDefault = false

structure Db.Ok (s : Db) : Prop where
  ids : ∀ id r, s.accounts.get id = some r → isUuid id = true
  rows : ∀ id r, s.accounts.get id = some r → r.Valid
  active : activeCount s ≤ maxActivePaymentAccounts
  default : ∀ id r id' r', s.accounts.get id = some r → s.accounts.get id' = some r' → r.isDefault = true →
    r'.isDefault = true → id = id'

/-- What the log knows of an account: its last summary, and when it was deleted. -/
abbrev Known := String → Option (Summary × Option Time)

/-- One row of the log read after the others. -/
def AuditRow.replay (known : Known) (a : AuditRow) : Known := fun id =>
  if id = a.entityId then some (a.after, a.deletedAt)
  else if a.previousDefaultId = some id then (known id).map fun k => ({ k.1 with isDefault := false }, k.2)
  else known id

/-- What the log is to know of the accounts. -/
def Db.known (s : Db) : Known := fun id => (s.accounts.get id).map fun r => (auditSummary r, r.deletedAt)

/-- The log since `s₀`, read on top of what was known then, tells the accounts as they are. -/
def Audited (s₀ s : Db) : Prop := ∃ log, s.audit = s₀.audit ++ log ∧ log.foldl AuditRow.replay s₀.known = s.known

structure Inv (s₀ s : Db) : Prop where
  ok : s.Ok
  audited : Audited s₀ s

/-- The database has nothing to refuse. -/
def NoViolation (e : Error) : Prop := e ≠ .checkViolation ∧ e ≠ .uniqueViolation

/-! ## Rows -/

variable {s₀ s t : Db} {id : String} {r row : AccountRow} {now : Time}

theorem AccountRow.Valid.theDefault (h : r.Valid) : r.theDefault = r.isDefault := by
  rw [AccountRow.theDefault]
  cases hactive : r.active with
  | true => exact Bool.and_true _
  | false => rw [h.deleted hactive, Bool.false_and]

theorem AccountRow.Valid.cleared (h : r.Valid) (now : Time) : (r.cleared now).Valid where
  nickname := h.nickname
  bankCode := h.bankCode
  sortOrder := h.sortOrder
  payee := h.payee
  deleted _ := rfl

theorem isDigit_of_promptPayIdRe {cs : List Char} (h : promptPayIdRe cs = true) :
    cs ≠ [] ∧ cs.all isDigit = true := by
  simp only [promptPayIdRe, Bool.and_eq_true, Bool.or_eq_true, decide_eq_true_eq] at h
  refine ⟨?_, h.1⟩
  rintro rfl
  simp at h

/-- A row whose fields are in order passes the table's own checks. -/
theorem AccountRow.Valid.checks (h : r.Valid) : r.checks = true := by
  obtain ⟨payee, hpayee, hpaid⟩ := h.payee
  cases payee with
  | promptpay id =>
      obtain ⟨hkind, hid, himage, hmime⟩ := hpaid
      obtain ⟨hne, hdigits⟩ := isDigit_of_promptPayIdRe hpayee
      have htext : id ≠ "" := by
        rintro rfl
        exact hne rfl
      simp [AccountRow.checks, hkind, hid, himage, hmime, htext, hdigits, paymentAccountKinds]
  | image image =>
      obtain ⟨hkind, hid, himage, hmime⟩ := hpaid
      simp [AccountRow.checks, hkind, hid, himage, hmime, paymentAccountKinds, hpayee.mime]

theorem PaymentAccountCreate.Valid.toRow {input : PaymentAccountCreate} (h : input.Valid) (now : Time) :
    (input.row now).Valid where
  nickname := h.nickname
  bankCode := h.bankCode
  sortOrder := h.sortOrder
  payee := by
    refine ⟨input.payee, h.payee, ?_⟩
    cases hpayee : input.payee with
    | promptpay id => simp [AccountRow.PaidBy, PaymentAccountCreate.row, PaymentAccountCreate.kind, hpayee]
    | image image => simp [AccountRow.PaidBy, PaymentAccountCreate.row, PaymentAccountCreate.kind, hpayee]
  deleted h := nomatch h

/-- A patch of fields that are not the other kind's. -/
structure PaymentAccountPatch.Fits (patch : PaymentAccountPatch) (r : AccountRow) : Prop where
  promptpayId : patch.promptpayId = none ∨ r.kind = "promptpay"
  image : patch.image.isNone = true ∨ r.kind = "image"

/-- A valid patch that fits the kind of a valid row leaves the row valid. -/
theorem PaymentAccountPatch.Valid.apply {patch : PaymentAccountPatch} (h : patch.Valid) (hfits : patch.Fits r)
    (hr : r.Valid) (hactive : r.active = true) (now : Time) : (patch.apply now r).Valid where
  nickname := by
    show IsNickname (patch.nickname.getD r.nickname)
    cases hn : patch.nickname with
    | none => exact hr.nickname
    | some s => exact h.nickname s hn
  bankCode := by
    show patch.bankCode.getD r.bankCode ∈ bankCodes
    cases hb : patch.bankCode with
    | none => exact hr.bankCode
    | some s => exact h.bankCode s hb
  sortOrder := by
    show 0 ≤ patch.sortOrder.getD r.sortOrder ∧ patch.sortOrder.getD r.sortOrder ≤ 10000
    cases hs : patch.sortOrder with
    | none => exact hr.sortOrder
    | some n => exact h.sortOrder n hs
  payee := by
    obtain ⟨payee, hpayee, hpaid⟩ := hr.payee
    cases payee with
    | promptpay id =>
        obtain ⟨hkind, hid, himage, hmime⟩ := hpaid
        have hno : patch.image = none := by simpa [hkind] using hfits.image
        cases hp : patch.promptpayId with
        | none => exact ⟨.promptpay id, hpayee, hkind, by simp [PaymentAccountPatch.apply, hp, hid],
            by simp [PaymentAccountPatch.apply, hno, himage],
            by simp [PaymentAccountPatch.apply, hno, hmime]⟩
        | some id' => exact ⟨.promptpay id', h.promptpayId id' hp, hkind, by simp [PaymentAccountPatch.apply, hp],
            by simp [PaymentAccountPatch.apply, hno, himage], by simp [PaymentAccountPatch.apply, hno, hmime]⟩
    | image image =>
        obtain ⟨hkind, hid, himage, hmime⟩ := hpaid
        have hno : patch.promptpayId = none := by simpa [hkind] using hfits.promptpayId
        cases hp : patch.image with
        | none => exact ⟨.image image, hpayee, hkind, by simp [PaymentAccountPatch.apply, hno, hid],
            by simp [PaymentAccountPatch.apply, hp, himage],
            by simp [PaymentAccountPatch.apply, hp, hmime]⟩
        | some image' => exact ⟨.image image', h.image image' hp, hkind, by simp [PaymentAccountPatch.apply, hno, hid],
            by simp [PaymentAccountPatch.apply, hp], by simp [PaymentAccountPatch.apply, hp]⟩
  deleted hdeleted := by
    have : (patch.apply now r).active = r.active := rfl
    rw [this, hactive] at hdeleted
    cases hdeleted

/-! ## Clearing the default -/

theorem cleared_cleared (r : AccountRow) (now : Time) : (r.cleared now).cleared now = r.cleared now := rfl

/-- Clearing defaults touches the rows of the ids alone. -/
theorem get_clear (s : Db) (ids : List String) (now : Time) (id : String) :
    (s.clear ids now).accounts.get id =
      (s.accounts.get id).map fun r => if id ∈ ids then r.cleared now else r := by
  rw [Db.clear]
  generalize s.accounts = accounts
  induction ids generalizing accounts with
  | nil => simp
  | cons id' ids ih =>
      rw [List.foldl_cons, ih, Table.get_modify]
      by_cases h : id = id'
      · subst h
        simp only [if_true, List.mem_cons_self]
        cases accounts.get id with
        | none => rfl
        | some r => simp only [Option.map_some, cleared_cleared, ite_self]
      · rw [if_neg h]
        simp [h]

theorem activeCount_clear (s : Db) (ids : List String) (now : Time) :
    activeCount (s.clear ids now) = activeCount s := by
  rw [activeCount, activeCount, Db.clear]
  generalize s.accounts = accounts
  induction ids generalizing accounts with
  | nil => rfl
  | cons id ids ih =>
      rw [List.foldl_cons, ih]
      exact Table.total_modify_same fun r _ => rfl

/-- The ids to be cleared are the defaults, the account that is written left out. -/
theorem mem_defaultIds {exceptId : Option String} :
    id ∈ s.defaultIds exceptId ↔
      ∃ r, s.accounts.get id = some r ∧ r.theDefault = true ∧ exceptId ≠ some id := by
  rw [Db.defaultIds, List.mem_map]
  constructor
  · rintro ⟨⟨id', r⟩, hmem, rfl⟩
    obtain ⟨hrow, hcond⟩ := List.mem_filter.mp hmem
    simp only [Bool.and_eq_true, decide_eq_true_eq] at hcond
    exact ⟨r, s.accounts.mem_rows.mp hrow, hcond⟩
  · rintro ⟨r, hget, hdefault, hne⟩
    refine ⟨(id, r), List.mem_filter.mpr ⟨s.accounts.mem_rows.mpr hget, ?_⟩, rfl⟩
    simp only [Bool.and_eq_true, decide_eq_true_eq]
    exact ⟨hdefault, hne⟩

/-- The ids that are cleared are defaults other than the account that is written. -/
def Clears (s : Db) (id : String) (ids : List String) : Prop :=
  ∀ i ∈ ids, i ≠ id ∧ ∃ r, s.accounts.get i = some r ∧ r.isDefault = true

/-- No account but the one that is written stays the default beside it. -/
def Yields (s : Db) (id : String) (ids : List String) (row : AccountRow) : Prop :=
  row.isDefault = true → ∀ i r, i ≠ id → i ∉ ids → s.accounts.get i = some r → r.isDefault = false

theorem clears_nil (s : Db) (id : String) : Clears s id [] := fun _ h => nomatch h

theorem Db.Ok.head_clears (h : s.Ok) {ids : List String} (hids : Clears s id ids) {i : String} :
    ids.head? = some i ↔ i ∈ ids := by
  constructor
  · exact List.mem_of_mem_head?
  · intro hi
    cases ids with
    | nil => cases hi
    | cons j ids =>
        obtain ⟨-, r, hr, hdefault⟩ := hids i hi
        obtain ⟨-, r', hr', hdefault'⟩ := hids j List.mem_cons_self
        rw [List.head?_cons, h.default j r' i r hr' hr hdefault' hdefault]

/-! ## Writing one account -/

/-- One account is written, the defaults in `ids` are cleared, and the log says so. -/
structure Wrote (s : Db) (id : String) (ids : List String) (now : Time) (row : AccountRow) (a : AuditRow) (t : Db) :
    Prop where
  get : ∀ i, t.accounts.get i = if i = id then some row else (s.clear ids now).accounts.get i
  active : activeCount t ≤ maxActivePaymentAccounts
  audit : t.audit = s.audit ++ [a]
  entityId : a.entityId = id
  after : a.after = auditSummary row
  previousDefaultId : a.previousDefaultId = ids.head?
  deletedAt : a.deletedAt = row.deletedAt

section
variable {ids : List String} {a : AuditRow}

/-- An account that was there before and was not written. -/
theorem Wrote.other (h : Wrote s id ids now row a t) {i : String} (hi : i ≠ id) {r : AccountRow}
    (hget : t.accounts.get i = some r) :
    ∃ r₀, s.accounts.get i = some r₀ ∧ r = if i ∈ ids then r₀.cleared now else r₀ := by
  rw [h.get, if_neg hi, get_clear, Option.map_eq_some_iff] at hget
  obtain ⟨r₀, hr₀, rfl⟩ := hget
  exact ⟨r₀, hr₀, rfl⟩

theorem Wrote.valid (h : Wrote s id ids now row a t) (hs : s.Ok) (hrow : row.Valid) {i : String} {r : AccountRow}
    (hget : t.accounts.get i = some r) : r.Valid := by
  by_cases hi : i = id
  · subst hi
    rw [h.get, if_pos rfl] at hget
    exact Option.some.inj hget ▸ hrow
  · obtain ⟨r₀, hr₀, rfl⟩ := h.other hi hget
    split
    · exact (hs.rows i r₀ hr₀).cleared now
    · exact hs.rows i r₀ hr₀

/-- A default that was not written was the default before and is not cleared. -/
theorem Wrote.default_other (h : Wrote s id ids now row a t) {i : String} (hi : i ≠ id) {r : AccountRow}
    (hget : t.accounts.get i = some r) (hdefault : r.isDefault = true) :
    s.accounts.get i = some r ∧ i ∉ ids := by
  obtain ⟨r₀, hr₀, heq⟩ := h.other hi hget
  by_cases hmem : i ∈ ids
  · rw [if_pos hmem] at heq
    rw [heq] at hdefault
    cases hdefault
  · rw [if_neg hmem] at heq
    exact ⟨heq ▸ hr₀, hmem⟩

/-- Writing one account, the other defaults cleared, keeps the shop's accounts in order. -/
theorem Wrote.ok (h : Wrote s id ids now row a t) (hs : s.Ok) (hid : isUuid id = true) (hrow : row.Valid)
    (hyields : Yields s id ids row) : t.Ok where
  ids i r hget := by
    by_cases hi : i = id
    · exact hi ▸ hid
    · obtain ⟨r₀, hr₀, -⟩ := h.other hi hget
      exact hs.ids i r₀ hr₀
  rows i r hget := h.valid hs hrow hget
  active := h.active
  default i r i' r' hget hget' hdefault hdefault' := by
    -- Beside the account that is written no other is the default.
    have hwritten : ∀ i r, i ≠ id → t.accounts.get i = some r → r.isDefault = true → row.isDefault = false := by
      intro i r hi hget hdefault
      obtain ⟨hr, hmem⟩ := h.default_other hi hget hdefault
      by_contra hcon
      have := hyields (by simpa using hcon) i r hi hmem hr
      rw [this] at hdefault
      cases hdefault
    have hrow : ∀ r, t.accounts.get id = some r → r = row := by
      intro r hr
      rw [h.get, if_pos rfl] at hr
      exact (Option.some.inj hr).symm
    by_cases hi : i = id
    · by_cases hi' : i' = id
      · rw [hi, hi']
      · subst hi
        obtain rfl := hrow r hget
        have := hwritten i' r' hi' hget' hdefault'
        rw [this] at hdefault
        cases hdefault
    · by_cases hi' : i' = id
      · subst hi'
        obtain rfl := hrow r' hget'
        have := hwritten i r hi hget hdefault
        rw [this] at hdefault'
        cases hdefault'
      · exact hs.default i r i' r' (h.default_other hi hget hdefault).1
          (h.default_other hi' hget' hdefault').1 hdefault hdefault'

/-- The line of the audit log replays what was written. -/
theorem Wrote.replay (h : Wrote s id ids now row a t) (hs : s.Ok) (hids : Clears s id ids) :
    AuditRow.replay s.known a = t.known := by
  funext i
  rw [AuditRow.replay, Db.known, Db.known, h.entityId, h.get, h.after, h.deletedAt, h.previousDefaultId]
  by_cases hi : i = id
  · rw [if_pos hi, if_pos hi, Option.map_some]
  · rw [if_neg hi, if_neg hi, get_clear]
    by_cases hmem : i ∈ ids
    · rw [if_pos ((hs.head_clears hids).mpr hmem), Option.map_map, Option.map_map]
      cases s.accounts.get i with
      | none => rfl
      | some r =>
          simp only [Option.map_some, Function.comp_apply, if_pos hmem]
          rfl
    · rw [if_neg fun hhead => hmem ((hs.head_clears hids).mp hhead)]
      simp only [if_neg hmem, Option.map_id']

theorem Wrote.inv (h : Wrote s id ids now row a t) (hs : Inv s₀ s) (hid : isUuid id = true) (hrow : row.Valid)
    (hids : Clears s id ids) (hyields : Yields s id ids row) : Inv s₀ t := by
  refine ⟨h.ok hs.ok hid hrow hyields, ?_⟩
  obtain ⟨log, haudit, hknown⟩ := hs.audited
  refine ⟨log ++ [a], by rw [h.audit, haudit, List.append_assoc], ?_⟩
  rw [List.foldl_append, hknown]
  exact h.replay hs.ok hids

end

/-! ## What the requests ask of the database -/

/-- A parser's errors are the request's. -/
def Asks {α : Type} (p : Except Error α) : Prop := ∀ e, p = .error e → NoViolation e

section
variable {α β : Type}

theorem asks_ok {a : α} : Asks (.ok a) := fun _ h => nomatch h

theorem asks_badRequest {message : String} : Asks (.error (.badRequest message) : Except Error α) := by
  rintro _ ⟨rfl⟩
  exact ⟨by simp, by simp⟩

theorem asks_bind {p : Except Error α} {f : α → Except Error β} (hp : Asks p) (hf : ∀ a, Asks (f a)) :
    Asks (p >>= f) := by
  intro e he
  cases p with
  | ok a => exact hf a e he
  | error e' =>
      obtain rfl : e' = e := Except.error.inj he
      exact hp e' rfl

theorem asks_map {p : Except Error α} {f : α → β} (hp : Asks p) : Asks (p.map f) := by
  intro e he
  cases p with
  | ok a => cases he
  | error e' =>
      obtain rfl : e' = e := Except.error.inj he
      exact hp e' rfl

theorem asks_required {v : Option α} {message : String} : Asks (required v message) := by
  cases v with
  | some a => exact asks_ok
  | none => exact asks_badRequest

theorem asks_ifSent {sent : Bool} {p : Except Error α} (hp : Asks p) : Asks (ifSent sent p) := by
  rw [ifSent]
  split
  · exact asks_map hp
  · exact asks_ok

end

section
variable {D : Type}

theorem asks_object {body : Dyn D} : Asks (asObject body) := by
  cases body with
  | object o => exact asks_ok
  | _ => exact asks_badRequest

theorem asks_uuid {v : Dyn D} {field : String} : Asks (requiredUuid v field) := by
  cases v with
  | text s =>
      rw [requiredUuid]
      split_ifs
      · exact asks_badRequest
      · exact asks_ok
      · intro e he
        obtain rfl := Except.error.inj he
        exact ⟨by simp, by simp⟩
  | _ => exact asks_badRequest

theorem asks_bankCode {v : Dyn D} : Asks (requiredBankCode v) := by
  cases v with
  | text s => exact asks_required
  | _ => exact asks_badRequest

theorem asks_image {base64 mime : Dyn D} : Asks (requiredImage base64 mime) := by
  rw [requiredImage]
  cases decodeQrImage base64 mime with
  | ok image => exact asks_ok
  | error message => exact asks_badRequest

theorem asks_boolean {v : Dyn D} {name : String} : Asks (optionalBoolean v name) := by
  cases v with
  | null => exact asks_ok
  | bool b => exact asks_ok
  | _ => exact asks_badRequest

theorem asks_sortOrder {v : Dyn D} : Asks (optionalSortOrder v) := by
  cases v with
  | null => exact asks_ok
  | int n =>
      rw [optionalSortOrder]
      split
      · exact asks_ok
      · exact asks_badRequest
  | _ => exact asks_badRequest

theorem asks_refuseIfSet {o : Object D} {k message : String} : Asks (refuseIfSet o k message) := by
  rw [refuseIfSet]
  split
  · exact asks_badRequest
  · exact asks_ok

theorem asks_payee {o : Object D} {kind : String} : Asks (parsePayee o kind) := by
  rw [parsePayee]
  split
  · exact asks_bind asks_refuseIfSet fun _ => asks_bind asks_refuseIfSet fun _ =>
      asks_bind asks_required fun id => asks_ok
  · exact asks_bind asks_refuseIfSet fun _ => asks_bind asks_image fun image => asks_ok

theorem asks_create {body : Dyn D} : Asks (parsePaymentAccountCreate body) :=
  asks_bind asks_object fun _ => asks_bind asks_uuid fun _ => asks_bind asks_required fun _ =>
    asks_bind asks_bankCode fun _ => asks_bind asks_boolean fun _ => asks_bind asks_sortOrder fun _ =>
      asks_bind asks_required fun _ => asks_bind asks_payee fun _ => asks_ok

theorem asks_patch {body : Dyn D} : Asks (parsePaymentAccountPatch body) :=
  asks_bind asks_object fun _ => asks_bind (asks_ifSent asks_required) fun _ =>
    asks_bind (asks_ifSent asks_required) fun _ => asks_bind (asks_ifSent asks_bankCode) fun _ =>
      asks_bind (asks_ifSent asks_required) fun _ => asks_bind (asks_ifSent asks_image) fun _ =>
        asks_bind (asks_ifSent (asks_map asks_boolean)) fun _ =>
          asks_bind (asks_ifSent (asks_map asks_sortOrder)) fun _ => asks_ok

end

/-! ## Programs -/

section
variable {α : Type} {H : Held Lock} {E : Error → Prop} {Q : α → Held Lock → Db → Prop}

/-- The switch of the default, where there is one. -/
theorem wp_bind_clearDefaultIf {c : Prop} [Decidable c] {exceptId : Option String} {f : Option String → Prog α}
    (h : ∀ ids, (c → ids = s.defaultIds exceptId) → (¬c → ids = []) → wp (f ids.head?) H (s.clear ids now) E Q) :
    wp (clearDefaultIf c now exceptId >>= f) H s E Q := by
  rw [clearDefaultIf]
  split
  · next hc => exact h (s.defaultIds exceptId) (fun _ => rfl) fun hnot => absurd hc hnot
  · next hnot => exact h [] (fun hc => absurd hc hnot) fun _ => rfl

/-- Neither a check of the table nor the index of the default refuses the row. -/
theorem wp_bind_checkRow {f : Unit → Prog α} (ids : List String) (now : Time) (hs : s.Ok) (hrow : row.Valid)
    (hyields : Yields s id ids row)
    (h : wp (f ()) H (s.clear ids now) NoViolation Q) :
    wp (checkRow id row >>= f) H (s.clear ids now) NoViolation Q := by
  rw [wp_bind]
  refine wp_bind_require (fun _ => ?_) fun hnot => absurd hrow.checks hnot
  refine wp_bind_query (wp_require (fun _ => h) fun hnot => absurd ?_ hnot)
  cases hdefault : row.isDefault with
  | false => exact .inl (by rw [hrow.theDefault, hdefault])
  | true =>
      refine .inr (List.eq_nil_iff_forall_not_mem.mpr fun i hi => ?_)
      obtain ⟨r, hr, htheDefault, hne⟩ := mem_defaultIds.mp hi
      rw [get_clear, Option.map_eq_some_iff] at hr
      obtain ⟨r₀, hr₀, rfl⟩ := hr
      by_cases hmem : i ∈ ids
      · simp [hmem, AccountRow.theDefault, AccountRow.cleared] at htheDefault
      · have hi : i ≠ id := fun heq => hne (congrArg some heq.symm)
        have hno := hyields hdefault i r₀ hi hmem hr₀
        rw [if_neg hmem, (hs.rows i r₀ hr₀).theDefault, hno] at htheDefault
        cases htheDefault

end

/-- The state that a new account leaves. -/
theorem wrote_insert (ids : List String) (now : Time) {row : AccountRow} {a : AuditRow}
    (hnone : s.accounts.get id = none) (hactive : activeCount s < maxActivePaymentAccounts) (hid : a.entityId = id)
    (hafter : a.after = auditSummary row) (hprevious : a.previousDefaultId = ids.head?)
    (hdeleted : a.deletedAt = row.deletedAt) :
    Wrote s id ids now row a ⟨(s.clear ids now).accounts.insert id row, s.audit ++ [a]⟩ where
  get i := by
    have hclear : (s.clear ids now).accounts.get id = none := by rw [get_clear, hnone, Option.map_none]
    exact Table.get_insert hclear row i
  active := by
    have hclear : (s.clear ids now).accounts.get id = none := by rw [get_clear, hnone, Option.map_none]
    have hcount := activeCount_clear s ids now
    rw [activeCount] at hcount ⊢
    rw [Table.total_insert hclear, hcount]
    split <;> omega
  audit := rfl
  entityId := hid
  after := hafter
  previousDefaultId := hprevious
  deletedAt := hdeleted

/-- The state that a change of an active account leaves. -/
theorem wrote_modify (ids : List String) (now : Time) {row : AccountRow} {a : AuditRow} (hs : s.Ok)
    (hget : s.accounts.get id = some r) (hactive : r.active = true) (hid : a.entityId = id)
    (hafter : a.after = auditSummary row) (hprevious : a.previousDefaultId = ids.head?)
    (hdeleted : a.deletedAt = row.deletedAt) :
    Wrote s id ids now row a ⟨(s.clear ids now).accounts.modify id fun _ => row, s.audit ++ [a]⟩ where
  get i := by
    rw [Table.get_modify]
    by_cases hi : i = id
    · rw [if_pos hi, if_pos hi, hi, get_clear, hget, Option.map_some, Option.map_some]
    · rw [if_neg hi, if_neg hi]
  active := by
    obtain ⟨r', hr', hactive'⟩ : ∃ r', (s.clear ids now).accounts.get id = some r' ∧ r'.active = true := by
      refine ⟨_, by rw [get_clear, hget, Option.map_some], ?_⟩
      split
      · exact hactive
      · exact hactive
    have hcount := activeCount_clear s ids now
    have hle := hs.active
    rw [activeCount] at hcount ⊢
    rw [Table.total_modify hr', hcount, if_pos hactive']
    split <;> omega
  audit := rfl
  entityId := hid
  after := hafter
  previousDefaultId := hprevious
  deletedAt := hdeleted

section
variable {H : Held Lock} {actor : PaymentAccountActor}

/-- What one write does, and what is known of it. -/
def Kept (s₀ s : Db) (_ : Answer) (_ : Held Lock) (t : Db) : Prop :=
  Inv s₀ t ∧ ∃ id ids now row a, Wrote s id ids now row a t ∧ Clears s id ids ∧
    ∀ r, s.accounts.get id = some r → r.active = true ∧ row.kind = r.kind ∧ row.createdAt = r.createdAt

/-- **The specification of creating an account.** -/
theorem wp_createIn (hs : Inv s₀ s) {input : PaymentAccountCreate} (hinput : input.Valid) :
    wp (createIn actor input now) H s NoViolation (Kept s₀ s) := by
  rw [createIn, lockAccounts, wp_bind, wp_acquire]
  refine wp_bind_query (wp_bind_require (fun htaken => ?_) fun _ => ⟨nofun, nofun⟩)
  have hnone : s.accounts.get input.id = none := by simpa using htaken
  refine wp_bind_query (wp_bind_require (fun hactive => ?_) fun _ => ⟨nofun, nofun⟩)
  refine wp_bind_clearDefaultIf fun ids hc hnot => ?_
  have hrow := hinput.toRow now
  have hids : Clears s input.id ids := by
    by_cases hdefault : input.isDefault = true
    · rw [hc hdefault]
      intro i hi
      obtain ⟨r, hr, htheDefault, -⟩ := mem_defaultIds.mp hi
      refine ⟨?_, r, hr, (hs.ok.rows i r hr).theDefault ▸ htheDefault⟩
      rintro rfl
      rw [hnone] at hr
      cases hr
    · exact hnot hdefault ▸ clears_nil s _
  have hyields : Yields s input.id ids (input.row now) := by
    intro hdefault i r _ hi hr
    by_contra hcon
    rw [hc hdefault] at hi
    refine hi (mem_defaultIds.mpr ⟨r, hr, ?_, nofun⟩)
    rw [(hs.ok.rows i r hr).theDefault]
    simpa using hcon
  refine (wp_bind (insertAccount input.id (input.row now)) _).mpr (wp_bind_checkRow ids now hs.ok hrow hyields ?_)
  have hclear : (s.clear ids now).accounts.get input.id = none := by rw [get_clear, hnone, Option.map_none]
  refine wp_bind_query (wp_bind_require (fun _ => ?_) fun htaken' => absurd (by rw [hclear]; rfl) htaken')
  have hwrote := wrote_insert ids now hnone hactive
    (a := { actor, action := .created, entityId := input.id, before := none, after := auditSummary (input.row now),
            changedFields := none, previousDefaultId := ids.head?, deletedAt := none }) rfl rfl rfl rfl
  refine ⟨hwrote.inv hs hinput.id hrow hids hyields, _, ids, now, _, _, hwrote, hids, ?_⟩
  intro r hr
  rw [hnone] at hr
  cases hr

/-- **The specification of changing an account.** -/
theorem wp_updateIn (hs : Inv s₀ s) (hid : isUuid id = true) {patch : PaymentAccountPatch} (hpatch : patch.Valid) :
    wp (updateIn actor id patch now) H s NoViolation (Kept s₀ s) := by
  rw [updateIn, lockAccounts, wp_bind, wp_acquire]
  refine wp_bind_query (wp_bind_orFail (fun current hcurrent => ?_) fun _ => ⟨nofun, nofun⟩)
  obtain ⟨hget, hactive⟩ := Option.filter_eq_some_iff.mp hcurrent
  refine wp_bind_require (fun hkind => ?_) fun _ => ⟨nofun, nofun⟩
  refine wp_bind_require (fun hpromptpayId => ?_) fun _ => ⟨nofun, nofun⟩
  refine wp_bind_require (fun himage => ?_) fun _ => ⟨nofun, nofun⟩
  refine wp_bind_clearDefaultIf fun ids hc hnot => ?_
  have hrow := hpatch.apply ⟨hpromptpayId, himage⟩ (hs.ok.rows id current hget) hactive now
  have hids : Clears s id ids := by
    by_cases hswitch : patch.isDefault = some true ∧ current.isDefault = false
    · rw [hc hswitch]
      intro i hi
      obtain ⟨r, hr, htheDefault, hne⟩ := mem_defaultIds.mp hi
      exact ⟨fun heq => hne (congrArg some heq.symm), r, hr, (hs.ok.rows i r hr).theDefault ▸ htheDefault⟩
    · exact hnot hswitch ▸ clears_nil s _
  have hyields : Yields s id ids (patch.apply now current) := by
    intro hdefault i r hne hi hr
    by_contra hcon
    have hr' : r.isDefault = true := by simpa using hcon
    cases hwas : current.isDefault with
    | true => exact hne (hs.ok.default i r id current hr hget hr' hwas)
    | false =>
        have hswitch : patch.isDefault = some true := by
          have heq : patch.isDefault.getD current.isDefault = true := hdefault
          rw [hwas] at heq
          cases hp : patch.isDefault with
          | none => simp [hp] at heq
          | some b => simpa [hp] using heq
        rw [hc ⟨hswitch, hwas⟩] at hi
        refine hi (mem_defaultIds.mpr ⟨r, hr, ?_, fun heq => hne (Option.some.inj heq).symm⟩)
        rw [(hs.ok.rows i r hr).theDefault, hr']
  refine (wp_bind (updateAccount id (patch.apply now current)) _).mpr (wp_bind_checkRow ids now hs.ok hrow hyields ?_)
  have hdeleted : (patch.apply now current).deletedAt = none := Option.isNone_iff_eq_none.mp hactive
  have hwrote := wrote_modify ids now hs.ok hget hactive
    (a := { actor, action := if changedFieldsOf current (patch.apply now current) = ["isDefault"] then
              .defaultChanged else .updated, entityId := id, before := some (auditSummary current),
            after := auditSummary (patch.apply now current),
            changedFields := some (changedFieldsOf current (patch.apply now current)),
            previousDefaultId := ids.head?, deletedAt := none }) rfl rfl rfl hdeleted.symm
  refine ⟨hwrote.inv hs hid hrow hids hyields, _, ids, now, _, _, hwrote, hids, ?_⟩
  intro r hr
  obtain rfl : current = r := Option.some.inj (hget.symm.trans hr)
  exact ⟨hactive, rfl, rfl⟩

/-- **The specification of deleting an account.** -/
theorem wp_removeIn (hs : Inv s₀ s) (hid : isUuid id = true) :
    wp (removeIn actor id now) H s NoViolation (Kept s₀ s) := by
  rw [removeIn, lockAccounts, wp_bind, wp_acquire]
  refine wp_bind_query (wp_bind_orFail (fun current hcurrent => ?_) fun _ => ⟨nofun, nofun⟩)
  obtain ⟨hget, hactive⟩ := Option.filter_eq_some_iff.mp hcurrent
  have hcurrent := hs.ok.rows id current hget
  let row := { current with deletedAt := some now, isDefault := false, updatedAt := now }
  have hrow : row.Valid := ⟨hcurrent.nickname, hcurrent.bankCode, hcurrent.sortOrder, hcurrent.payee, fun _ => rfl⟩
  have hyields : Yields s id [] row := fun h => nomatch h
  refine (wp_bind (updateAccount id row) _).mpr (wp_bind_checkRow [] now hs.ok hrow hyields ?_)
  have hwrote := wrote_modify [] now hs.ok hget hactive
    (a := { actor, action := .deleted, entityId := id, before := none, after := auditSummary row,
            changedFields := none, previousDefaultId := none, deletedAt := some now }) rfl rfl rfl rfl
  refine ⟨hwrote.inv hs hid hrow (clears_nil s id) hyields, _, [], now, _, _, hwrote, clears_nil s id, ?_⟩
  intro r hr
  obtain rfl : current = r := Option.some.inj (hget.symm.trans hr)
  exact ⟨hactive, rfl, rfl⟩

end

/-! ## One request -/

variable {D : Type}

/-- What later states keep: the log is only added to, an account stays, of its kind, and a deleted one stays as it
is. -/
structure Later (s t : Db) : Prop where
  audit : s.audit.IsPrefix t.audit
  rows : ∀ id r, s.accounts.get id = some r → ∃ r', t.accounts.get id = some r' ∧ r'.kind = r.kind ∧
    r'.createdAt = r.createdAt ∧ (r.active = false → r' = r)

theorem Later.refl (s : Db) : Later s s := ⟨List.prefix_rfl, fun _ r hr => ⟨r, hr, rfl, rfl, fun _ => rfl⟩⟩

theorem Later.trans {s t u : Db} (h : Later s t) (h' : Later t u) : Later s u where
  audit := h.audit.trans h'.audit
  rows id r hr := by
    obtain ⟨r', hr', hkind, hcreated, hdead⟩ := h.rows id r hr
    obtain ⟨r'', hr'', hkind', hcreated', hdead'⟩ := h'.rows id r' hr'
    refine ⟨r'', hr'', hkind'.trans hkind, hcreated'.trans hcreated, fun hdeleted => ?_⟩
    obtain rfl := hdead hdeleted
    exact hdead' hdeleted

/-- What an operation leaves is a later state: the log is longer, no account is gone. -/
theorem Kept.later {a : Answer} {H : Held Lock} (hs : Inv s₀ s) (h : Kept s₀ s a H t) : Later s t := by
  obtain ⟨-, id, ids, now, row, a, hwrote, hids, hrow⟩ := h
  refine ⟨hwrote.audit ▸ List.prefix_append _ _, fun i r hr => ?_⟩
  by_cases hi : i = id
  · subst hi
    obtain ⟨hactive, hkind, hcreated⟩ := hrow r hr
    refine ⟨row, by rw [hwrote.get, if_pos rfl], hkind, hcreated, fun hdeleted => ?_⟩
    rw [hactive] at hdeleted
    cases hdeleted
  · by_cases hmem : i ∈ ids
    · refine ⟨r.cleared now, by rw [hwrote.get, if_neg hi, get_clear, hr, Option.map_some, if_pos hmem], rfl, rfl,
        fun hdeleted => ?_⟩
      -- A deleted account is not the default, so it is not cleared.
      obtain ⟨-, r', hr', hdefault⟩ := hids i hmem
      obtain rfl : r = r' := Option.some.inj (hr.symm.trans hr')
      rw [(hs.ok.rows i r hr).deleted hdeleted] at hdefault
      cases hdefault
    · exact ⟨r, by rw [hwrote.get, if_neg hi, get_clear, hr, Option.map_some, if_neg hmem], rfl, rfl, fun _ => rfl⟩

/-- A request keeps the invariant and all that later states keep, and the database refuses it nothing. -/
theorem wp_program (hs : Inv s₀ s) (op : Request D) :
    wp (program op) [] s NoViolation fun _ _ t => Inv s₀ t ∧ Later s t := by
  have hkept : ∀ a H t, Kept s₀ s a H t → Inv s₀ t ∧ Later s t := fun a H t h => ⟨h.1, h.later hs⟩
  cases op with
  | list => exact fun _ => ⟨hs, .refl s⟩
  | create owner actor body now =>
      refine wp_bind_require (fun _ => ?_) fun _ => ⟨nofun, nofun⟩
      refine wp_bind_ofExcept (fun input hinput => ?_) asks_create
      exact wp_mono (wp_createIn hs (valid_create hinput)) (fun _ he => he) hkept
  | update owner actor id body now =>
      refine wp_bind_require (fun hid => ?_) fun _ => ⟨nofun, nofun⟩
      refine wp_bind_require (fun _ => ?_) fun _ => ⟨nofun, nofun⟩
      refine wp_bind_ofExcept (fun patch hpatch => ?_) asks_patch
      exact wp_mono (wp_updateIn hs hid (valid_patch hpatch)) (fun _ he => he) hkept
  | delete owner actor id now =>
      refine wp_bind_require (fun hid => ?_) fun _ => ⟨nofun, nofun⟩
      refine wp_bind_require (fun _ => ?_) fun _ => ⟨nofun, nofun⟩
      exact wp_mono (wp_removeIn hs hid) (fun _ he => he) hkept

theorem behind_require {c : Prop} [Decidable c] {e : Error} {f : Unit → Prog Answer} (h : Behind .accounts (f ())) :
    Behind Lock.accounts (Tx.require c e >>= f) := by
  rw [Tx.require]
  split
  · exact h
  · trivial

theorem behind_program (op : Request D) : Behind .accounts (program op) := by
  cases op with
  | list => exact fun _ => trivial
  | create owner actor body now => exact behind_require (behind_ofExcept fun _ _ => rfl)
  | update owner actor id body now => exact behind_require (behind_require (behind_ofExcept fun _ _ => rfl))
  | delete owner actor id now => exact behind_require (behind_require rfl)

/-! ## Every run -/

/-- Any number of requests under way at once. -/
abbrev System (D T : Type) := Sys Db Lock Error Answer (Request D) T

theorem sound (s₀ : Db) : Sound (program (D := D)) (Everything .accounts) (Inv s₀) NoViolation :=
  sound_of_behind behind_program fun op _ hs => wp_mono (wp_program hs op) (fun _ he => he) fun _ _ _ h => h.1

theorem ok_empty : Db.empty.Ok where
  ids _ _ h := nomatch h
  rows _ _ h := nomatch h
  active := by decide
  default _ _ _ _ h := nomatch h

theorem inv_self (h : s₀.Ok) : Inv s₀ s₀ := ⟨h, [], (List.append_nil _).symm, rfl⟩

def accountBody (id nickname promptpayId : String) (isDefault : Bool) : Dyn Unit :=
  .object [("id", .text id), ("nickname", .text nickname), ("bankCode", .text "SCB"), ("kind", .text "promptpay"),
    ("promptpayId", .text promptpayId), ("isDefault", .bool isDefault)]

def idA : String := "0190b2c4-0000-7000-8000-00000000000a"

def idB : String := "0190b2c4-0000-7000-8000-00000000000b"

def owner : PaymentAccountActor := ⟨some "owner", none, none⟩

/-- A till looks while the owner adds an account; a second one becomes the default. -/
def twoAccounts : List (Turn (Request Unit) Bool) :=
  [.begins true (.create true owner (accountBody idA " Front " "0812345678" true) 10), .begins false .list,
   .goes true 6, .goes false 2, .goes true 100,
   .begins true (.create true owner (accountBody idB "Back" "1234567890123" true) 20), .goes true 100]

def firstDeleted : List (Turn (Request Unit) Bool) :=
  [.begins true (.delete true owner idA 30), .goes true 100]

section
variable {T : Type} [DecidableEq T] {S S' : System D T}

theorem inv_of_reachable (h₀ : s₀.Ok) (h : Reachable program s₀ S) : Inv s₀ S.db :=
  (h.sysInv (sound s₀) (inv_self h₀)).inv

/-- What a till may be shown. -/
structure Shown (list : List PaymentAccount) : Prop where
  few : list.length ≤ maxActivePaymentAccounts
  nodup : (list.map PaymentAccount.id).Nodup
  default : ∀ a ∈ list, ∀ b ∈ list, a.isDefault = true → b.isDefault = true → a.id = b.id
  sorted : list.Pairwise fun a b => a.sortOrder ≤ b.sortOrder

theorem activeCount_eq (s : Db) : activeCount s = (s.accounts.rows.filter fun e => e.2.active).length := by
  rw [activeCount, Table.total]
  induction s.accounts.rows with
  | nil => rfl
  | cons e l ih =>
      rw [List.map_cons, List.sum_cons, ih, List.filter_cons]
      split
      · rw [List.length_cons]
        omega
      · omega

theorem mem_listIn {a : PaymentAccount} :
    a ∈ listIn s ↔ ∃ id r, s.accounts.get id = some r ∧ r.active = true ∧ a = toPaymentAccount id r := by
  rw [listIn, List.mem_map]
  constructor
  · rintro ⟨⟨id, r⟩, hmem, rfl⟩
    obtain ⟨hrow, hactive⟩ := List.mem_filter.mp (List.mem_mergeSort.mp hmem)
    exact ⟨id, r, s.accounts.mem_rows.mp hrow, hactive, rfl⟩
  · rintro ⟨id, r, hget, hactive, rfl⟩
    exact ⟨(id, r), List.mem_mergeSort.mpr (List.mem_filter.mpr ⟨s.accounts.mem_rows.mpr hget, hactive⟩), rfl⟩

/-- What the till is shown of accounts in order. -/
theorem shown_listIn (hs : s.Ok) : Shown (listIn s) where
  few := by
    have hcount := hs.active
    rw [activeCount_eq] at hcount
    rw [listIn, List.length_map, List.length_mergeSort]
    omega
  nodup := by
    have hids : (listIn s).map PaymentAccount.id =
        ((s.accounts.rows.filter fun e => e.2.active).mergeSort fun a b => displayKey a ≤ displayKey b).map
          Prod.fst := by
      rw [listIn, List.map_map]
      rfl
    rw [hids, ((List.mergeSort_perm _ _).map Prod.fst).nodup_iff]
    exact s.accounts.nodup.sublist (List.filter_sublist.map _)
  default a ha b hb hdefault hdefault' := by
    obtain ⟨id, r, hr, -, rfl⟩ := mem_listIn.mp ha
    obtain ⟨id', r', hr', -, rfl⟩ := mem_listIn.mp hb
    exact hs.default id r id' r' hr hr' hdefault hdefault'
  sorted := by
    rw [listIn, List.pairwise_map]
    refine (List.pairwise_mergeSort (fun a b c hab hbc => ?_) (fun a b => ?_) _).imp fun hle => ?_
    · exact decide_eq_true (le_trans (of_decide_eq_true hab) (of_decide_eq_true hbc))
    · simpa using le_total (displayKey a) (displayKey b)
    · exact Prod.Lex.monotone_fst _ _ (of_decide_eq_true hle)

/-- Whatever requests are under way and however they interleave: an account is one that the rules let through, at
most five are active and one of them is the default; the database refuses no request, and what a till is shown
is a list of such accounts. -/
theorem payment_accounts_kept (h₀ : s₀.Ok) (h : Reachable program s₀ S) :
    S.db.Ok ∧ (∀ t x e, S.live t = some x → x.prog = .fail e → NoViolation e) ∧
      ∀ list, (Request.list, Answer.accounts list) ∈ S.log → Shown list := by
  refine ⟨(inv_of_reachable h₀ h).ok, fun t x e hx hfail => h.error (sound s₀) (inv_self h₀) hx hfail,
    fun list hmem => ?_⟩
  have htells : Tells Db.Ok (program (D := D) .list) fun a => ∀ list, a = .accounts list → Shown list := by
    rintro s hs list ⟨rfl⟩
    exact shown_listIn hs
  exact (h.tells (fun S hS => (inv_of_reachable h₀ hS).ok) htells).2 _ hmem list rfl

theorem payment_accounts_kept_twoAccounts : ∃ S : System Unit Bool, S.db = rowsOf program twoAccounts Db.empty ∧
    activeCount S.db = 2 ∧ S.db.defaultIds none = [idB] ∧ S.db.Ok := by
  obtain ⟨S, hreach, hdb⟩ : ∃ S : System Unit Bool, Reachable program Db.empty S ∧
      S.db = rowsOf program twoAccounts Db.empty := reachable_rowsOf (by decide +kernel)
  refine ⟨S, hdb, ?_, ?_, (payment_accounts_kept ok_empty hreach).1⟩
  · rw [hdb]
    decide +kernel
  · rw [hdb]
    decide +kernel

/-- The audit log of a run, read on top of what was there before, tells of every account its name, bank, kind, masked
number, whether it is the default, and when it was deleted. -/
theorem audit_tells (h₀ : s₀.Ok) (h : Reachable program s₀ S) : Audited s₀ S.db := (inv_of_reachable h₀ h).audited

theorem audit_tells_twoAccounts : ∃ S : System Unit Bool, S.db = rowsOf program twoAccounts Db.empty ∧
    S.db.audit.foldl AuditRow.replay (fun _ => none) idA =
      some (⟨"Front", "SCB", "promptpay", some "******5678", false⟩, none) := by
  obtain ⟨S, hreach, hdb⟩ : ∃ S : System Unit Bool, Reachable program Db.empty S ∧
      S.db = rowsOf program twoAccounts Db.empty := reachable_rowsOf (by decide +kernel)
  obtain ⟨log, haudit, hknown⟩ := audit_tells ok_empty hreach
  refine ⟨S, hdb, ?_⟩
  rw [haudit, show Db.empty.audit ++ log = log from rfl, show (fun _ => none) = Db.empty.known from rfl, hknown, hdb]
  decide +kernel

/-- From one state of a run to a later one the log is only added to, every account stays, of its kind and with the
time it was made, and a deleted account stays as it is. -/
theorem accounts_stay (h₀ : s₀.Ok) (h : Reachable program s₀ S)
    (hruns : Relation.ReflTransGen (Step program) S S') : Later S.db S'.db := by
  suffices hboth : Reachable program s₀ S' ∧ Later S.db S'.db from hboth.2
  induction hruns with
  | refl => exact ⟨h, .refl S.db⟩
  | tail _ hstep ih =>
      refine ⟨ih.1.step hstep, ih.2.trans ?_⟩
      rcases ih.1.commits (sound s₀) (inv_self h₀) hstep (fun _ _ => Later)
        fun op s hs => wpHeld_of_wp (wp_mono (wp_program hs op) (fun _ he => he) fun _ _ _ hk => hk.2) with
        ⟨hdb, -⟩ | ⟨_, _, hlater, -⟩
      · rw [hdb]
        exact .refl _
      · exact hlater

theorem accounts_stay_firstDeleted : ∃ S S' : System Unit Bool, S.db = rowsOf program twoAccounts Db.empty ∧
    S'.db = rowsOf program (twoAccounts ++ firstDeleted) Db.empty ∧ activeCount S'.db = 1 ∧ Later S.db S'.db := by
  obtain ⟨S, S', hreach, hruns, hdb, hdb'⟩ : ∃ S S' : System Unit Bool, Reachable program Db.empty S ∧
      Relation.ReflTransGen (Step program) S S' ∧ S.db = rowsOf program twoAccounts Db.empty ∧
        S'.db = rowsOf program (twoAccounts ++ firstDeleted) Db.empty := reachable_rowsOf_append (by decide +kernel)
  refine ⟨S, S', hdb, hdb', ?_, accounts_stay ok_empty hreach hruns⟩
  rw [hdb']
  decide +kernel

end

end Server.PaymentAccounts

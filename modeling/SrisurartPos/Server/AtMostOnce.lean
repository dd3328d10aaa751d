import SrisurartPos.Server.Bills
import SrisurartPos.Server.DrawerOpens

/-! # Every operation takes effect at most once

Two things keep an operation from being carried out twice. A document has the id its client chose,
and is inserted once under it, in the transaction that makes all its changes. And a request has a
key, which is on file from the commit of its work until a cleanup deletes it. The first holds for
good, the second as long as the key's row lives. -/

namespace Server

open Txn

/-! ## Documents -/

/-- What an operation of a client puts on file. -/
inductive Document where
  | sale (x : SaleId)
  | void (x : SaleId)
  | note (r : ReturnId)
  | payment (i : PaymentId)
  | entry (e : EntryId)
  | shift (k : ShiftId)
  | customer (c : CustomerId)
  deriving DecidableEq

/-- The document is there. -/
def Db.OnFile (db : Db) : Document → Prop
  | .sale x     => (db.sales.get x).isSome = true
  | .void x     => (db.sales.get x).any (·.voided) = true
  | .note r     => (db.returns.get r).isSome = true
  | .payment i  => (db.creditPayments.get i).isSome = true
  | .entry e    => (db.drawerEntries.get e).isSome = true
  | .shift k    => (db.shifts.get k).isSome = true
  | .customer c => (db.customers.get c).isSome = true

instance (db : Db) (D : Document) : Decidable (db.OnFile D) := by
  cases D <;> exact inferInstanceAs (Decidable (_ = true))

/-- The document a change of the books files. -/
def Effect.document : Effect → Option Document
  | .sale _ dto                => some (.sale dto.id)
  | .creditNote _ r _          => some (.note r)
  | .voidSale _ x _            => some (.void x)
  | .creditPayment _ i _ _     => some (.payment i)
  | .entry _ e _               => some (.entry e)
  | .openShift _ (some (k, _)) => some (.shift k)
  | .createCustomer c _        => some (.customer c)
  | _                          => Option.none

/-- The document a request names. -/
def Request.document : Request → Option Document
  | .sale dto _           => some (.sale dto.id)
  | .convertQuote _ party => some (.sale party.id)
  | .voidSale x _         => some (.void x)
  | .creditNote dto       => dto.id.map .note
  | .openShift input      => input.id.map .shift
  | .entry body           => body.id.map .entry
  | .creditPayment _ dto  => dto.id.map .payment
  | _                     => none

/-- The document a queued operation names. -/
def SyncOp.document : SyncOp → Option Document
  | .saleCreate dto _ _        => some (.sale dto.id)
  | .returnCreate dto _ _      => dto.id.map .note
  | .shiftOpen input _ _       => input.id.map .shift
  | .drawerEntry entry _ _     => entry.id.map .entry
  | .creditPaymentCreate _ dto => dto.id.map .payment
  | .customerCreate id _       => id.map .customer
  | .customerUpdate _ _        => none
  | .saleVoidOffline x _       => some (.void x)

def Op.document : Op → Option Document
  | .post _ _ _ _ req => req.document
  | .push _ _ _ _ op  => op.document
  | _                 => none

def Op.key : Op → Option Nat
  | .post _ _ key _ _ => some key
  | .push _ _ key _ _ => some key
  | _                 => none

/-- The transaction changed nothing of the books. -/
def Committed.Idle (c : Committed) : Prop := c.after = c.before.withDesk c.after.desk

/-- The transaction put the document on file. A note that brings everything back voids its bill. -/
def Committed.Files (c : Committed) (D : Document) : Prop :=
  c.effect.document = some D ∨
    ∃ actor r dto, c.effect = .creditNote actor r dto ∧ D = .void dto.saleId

/-- The transaction is a cleanup that found the key past its time. -/
def Committed.Expires (c : Committed) (key : Nat) : Prop :=
  ∃ now, c.op = .cleanup now ∧ (c.before.idempotencyKeys.get key).any (KeyRow.expired now) = true

/-! ## One change -/

section
variable {s s' : Db} {e : Effect} {D : Document}

theorem Db.OnFile.kept (h : Kept s s') (hD : s.OnFile D) : s'.OnFile D := by
  cases D with
  | sale x => exact h.sale x hD
  | void x => exact h.voided x hD
  | note r => exact h.note r hD
  | payment i => exact h.payment i hD
  | entry e => exact h.entry e hD
  | shift k => exact h.shift k hD
  | customer c => exact h.customer c hD

/-- **A document is inserted when it is not there**, and it is there afterwards. -/
theorem Changes.files (h : Changes s e s') (hD : e.document = some D) :
    ¬s.OnFile D ∧ s'.OnFile D := by
  have hnot : ∀ {κ ν : Type} [DecidableEq κ] {t : Table κ ν} {k : κ}, t.get k = Option.none →
      ¬(t.get k).isSome = true := by
    intro κ ν _ t k hnone hsome
    rw [hnone] at hsome
    cases hsome
  have hnow : ∀ {κ ν : Type} [DecidableEq κ] {t : Table κ ν} {k : κ} {v : ν}, t.get k = Option.none →
      ((t.insert k v).get k).isSome = true := by
    intro κ ν _ t k v hnone
    rw [Table.get_insert_self hnone]
    rfl
  cases h with
  | sale actor dto k row hsrc hadm =>
      cases hD
      exact ⟨hnot hadm.insertable.fresh, hnow hadm.insertable.fresh⟩
  | creditNote actor r dto sale note hparse hadm hnew =>
      cases hD
      exact ⟨hnot hnew, hnow hnew⟩
  | voidSale actor x reason sale k hadm =>
      cases hD
      constructor
      · show ¬(s.sales.get x).any (·.voided) = true
        rw [hadm.bill, Option.any_some, hadm.live]
        exact Bool.false_ne_true
      · show ((s.sales.modify x (Sale.void reason)).get x).any (·.voided) = true
        rw [Table.get_modify_self, hadm.bill]
        rfl
  | creditPayment actor i m dto row hparse hadm hnew =>
      cases hD
      exact ⟨hnot hnew, hnow hnew⟩
  | entry d e entry k row hrow hopen hnew =>
      cases hD
      exact ⟨hnot hnew, hnow hnew⟩
  | openShift d next openedAt hnew =>
      cases next with
      | none => cases hD
      | some kc =>
          obtain ⟨k, c⟩ := kc
          cases hD
          have hfree := hnew k c rfl
          refine ⟨fun hthere => ?_, hnow hfree⟩
          exact hnot hfree ((kept_archiveActive s d).shift k hthere)
  | createCustomer c input code hnew =>
      cases hD
      exact ⟨hnot hnew, hnow hnew⟩
  | _ => cases hD

theorem Performs.files (h : Performs e s s') (hD : e.document = some D) :
    ¬s.OnFile D ∧ s'.OnFile D := by
  obtain ⟨t, desk, hch, rfl⟩ := h
  obtain ⟨hnew, hthere⟩ := hch.files hD
  refine ⟨hnew, ?_⟩
  cases D <;> exact hthere

/-! ### Nothing else comes on file -/

/-- Only a credit note writes to the notes, and under a new id. -/
theorem Changes.returns (h : Changes s e s') : s'.returns = s.returns ∨
    ∃ actor r dto note, e = .creditNote actor r dto ∧ s.returns.get r = Option.none ∧
      s'.returns = s.returns.insert r note := by
  cases h with
  | creditNote actor r dto sale note hparse hadm hnew =>
      exact .inr ⟨actor, r, dto, note, rfl, hnew, rfl⟩
  | openShift d next openedAt hnew =>
      left
      rw [Db.archiveActive_eq]
      cases next <;> rfl
  | retire s₁ d hclosed =>
      left
      cases hclosed <;> rfl
  | _ => exact .inl rfl

/-- Only a credit payment writes to the payments, and under a new id. -/
theorem Changes.creditPayments (h : Changes s e s') : s'.creditPayments = s.creditPayments ∨
    ∃ actor i m dto row, e = .creditPayment actor i m dto ∧ s.creditPayments.get i = Option.none ∧
      s'.creditPayments = s.creditPayments.insert i row := by
  cases h with
  | creditPayment actor i m dto row hparse hadm hnew =>
      exact .inr ⟨actor, i, m, dto, row, rfl, hnew, rfl⟩
  | openShift d next openedAt hnew =>
      left
      rw [Db.archiveActive_eq]
      cases next <;> rfl
  | retire s₁ d hclosed =>
      left
      cases hclosed <;> rfl
  | _ => exact .inl rfl

/-- Only a drawer entry writes to the entries, and under a new id. -/
theorem Changes.drawerEntries (h : Changes s e s') : s'.drawerEntries = s.drawerEntries ∨
    ∃ d i entry row, e = .entry d i entry ∧ s.drawerEntries.get i = Option.none ∧
      s'.drawerEntries = s.drawerEntries.insert i row := by
  cases h with
  | entry d i entry k row hrow hopen hnew => exact .inr ⟨d, i, entry, _, rfl, hnew, rfl⟩
  | openShift d next openedAt hnew =>
      left
      rw [Db.archiveActive_eq]
      cases next <;> rfl
  | retire s₁ d hclosed =>
      left
      cases hclosed <;> rfl
  | _ => exact .inl rfl

/-- Archiving a drawer brings none on file. -/
theorem isSome_archiveActive (s : Db) (d : DeviceId) (k : ShiftId) :
    ((s.archiveActive d).shifts.get k).isSome = (s.shifts.get k).isSome := by
  rw [Db.archiveActive]
  cases (s.activeShifts d).head? with
  | none => rfl
  | some j =>
      dsimp only
      cases s.shifts.get j with
      | none => rfl
      | some row =>
          dsimp only
          split <;> exact Table.isSome_modify _ _ _ _

/-- A drawer that was not there is the one that the effect opens. -/
theorem Changes.shifts (h : Changes s e s') {k : ShiftId} (hk : (s'.shifts.get k).isSome = true) :
    (s.shifts.get k).isSome = true ∨ e.document = some (.shift k) := by
  cases h with
  | openShift d next openedAt hnew =>
      cases next with
      | none => exact .inl (isSome_archiveActive s d k ▸ hk)
      | some kc =>
          obtain ⟨j, c⟩ := kc
          have hins : (((s.archiveActive d).shifts.insert j (newShift d c openedAt)).get k).isSome = true := hk
          rw [Table.get_insert (hnew j c rfl)] at hins
          by_cases hj : k = j
          · subst hj
            exact .inr rfl
          · rw [if_neg hj, isSome_archiveActive] at hins
            exact .inl hins
  | closeShift d j row cash hrow hopen =>
      have hmod : ((s.closeShift j cash).shifts.get k).isSome = true := hk
      rw [Db.closeShift, Table.isSome_modify] at hmod
      exact .inl hmod
  | retire s₁ d hclosed =>
      cases hclosed with
      | none => exact .inl hk
      | archived j row hrow hc =>
          rw [Db.archiveShift, Table.isSome_modify] at hk
          exact .inl hk
      | counted i j row cash hrow hopen =>
          rw [Db.archiveShift, Table.isSome_modify, Db.closeShift, Table.isSome_modify] at hk
          exact .inl hk
  | _ => exact .inl hk

/-- A customer who was not there is the one that the effect adds. -/
theorem Changes.customers (h : Changes s e s') {c : CustomerId} (hc : (s'.customers.get c).isSome = true) :
    (s.customers.get c).isSome = true ∨ e.document = some (.customer c) := by
  cases h with
  -- a document moves what a customer has bought
  | sale actor dto k row hsrc hadm => exact .inl ((isSome_updateCustomer s _ _ c).symm.trans hc)
  | creditNote actor r dto sale note hparse hadm hnew =>
      exact .inl ((isSome_updateCustomer s _ _ c).symm.trans hc)
  | voidSale actor x reason sale k hadm => exact .inl ((isSome_updateCustomer s _ _ c).symm.trans hc)
  | createCustomer j input code hnew =>
      have hins : ((s.customers.insert j (input.row code)).get c).isSome = true := hc
      rw [Table.get_insert hnew] at hins
      by_cases hj : c = j
      · exact .inr (by rw [hj]; rfl)
      · rw [if_neg hj] at hins
        exact .inl hins
  | editCustomer j patch row hrow halive =>
      have hmod : ((s.customers.modify j (Customer.edit patch)).get c).isSome = true := hc
      rw [Table.isSome_modify] at hmod
      exact .inl hmod
  | openShift d next openedAt hnew =>
      left
      rw [Db.archiveActive_eq] at hc
      cases next <;> exact hc
  | retire s₁ d hclosed =>
      left
      cases hclosed <;> exact hc
  | _ => exact .inl hc

/-- The bills on file, and the voided ones. -/
theorem Performs.bills (h : Performs e s s') (x : SaleId) :
    ((s'.sales.get x).isSome = true → (s.sales.get x).isSome = true ∨
      e.document = some (.sale x)) ∧
    ((s'.sales.get x).any (·.voided) = true → (s.sales.get x).any (·.voided) = true ∨
      e.document = some (.void x) ∨
        ∃ actor r dto, e = .creditNote actor r dto ∧ dto.saleId = x) := by
  cases h.billStep x with
  | other e hne hsale hnotes =>
      rw [hsale]
      exact ⟨.inl, .inl⟩
  | sold actor dto row hid hnone hrow hsale hnotes =>
      subst hid
      refine ⟨fun _ => .inr rfl, fun hvoid => ?_⟩
      -- a bill is not voided when it is written
      obtain ⟨n, k, account, locked, rfl⟩ := hrow
      rw [hsale, Option.any_some] at hvoid
      cases hvoid
  | byHand actor reason sale hx hlive hno hsale hnotes hstock =>
      rw [hx]
      exact ⟨fun _ => .inl rfl, fun _ => .inr (.inl rfl)⟩
  | refunded actor r dto sale n k hid hx hlive hok hnotes hsale hstock =>
      rw [hx]
      exact ⟨fun _ => .inl rfl, fun _ => .inr (.inr ⟨actor, r, dto, rfl, hid⟩)⟩

/-- **Whatever comes on file was filed by the change**, or is the void of a bill that has come back
in full. -/
theorem Performs.brings (h : Performs e s s') (hD : s'.OnFile D) : s.OnFile D ∨
    e.document = some D ∨ ∃ actor r dto, e = .creditNote actor r dto ∧ D = .void dto.saleId := by
  have hbills := fun x => h.bills x
  obtain ⟨t, desk, hch, rfl⟩ := h
  have hkeep : ∀ {p q : Prop}, p ∨ q → p ∨ q ∨
      ∃ actor r dto, e = .creditNote actor r dto ∧ D = .void dto.saleId := by
    intro p q hpq
    exact hpq.imp_right .inl
  cases D with
  | sale x => exact hkeep ((hbills x).1 hD)
  | void x =>
      rcases (hbills x).2 hD with hold | hvoid | ⟨actor, r, dto, he, hx⟩
      · exact .inl hold
      · exact .inr (.inl hvoid)
      · exact .inr (.inr ⟨actor, r, dto, he, by rw [hx]⟩)
  | note r =>
      apply hkeep
      rcases hch.returns with hsame | ⟨actor, r', dto, note, rfl, hfree, hins⟩
      · have hthere : (t.returns.get r).isSome = true := hD
        rw [hsame] at hthere
        exact .inl hthere
      · have hthere : (t.returns.get r).isSome = true := hD
        rw [hins, Table.get_insert hfree] at hthere
        by_cases hr : r = r'
        · exact .inr (by rw [hr]; rfl)
        · rw [if_neg hr] at hthere
          exact .inl hthere
  | payment i =>
      apply hkeep
      rcases hch.creditPayments with hsame | ⟨actor, i', m, dto, row, rfl, hfree, hins⟩
      · have hthere : (t.creditPayments.get i).isSome = true := hD
        rw [hsame] at hthere
        exact .inl hthere
      · have hthere : (t.creditPayments.get i).isSome = true := hD
        rw [hins, Table.get_insert hfree] at hthere
        by_cases hi : i = i'
        · exact .inr (by rw [hi]; rfl)
        · rw [if_neg hi] at hthere
          exact .inl hthere
  | entry i =>
      apply hkeep
      rcases hch.drawerEntries with hsame | ⟨d, i', entry, row, rfl, hfree, hins⟩
      · have hthere : (t.drawerEntries.get i).isSome = true := hD
        rw [hsame] at hthere
        exact .inl hthere
      · have hthere : (t.drawerEntries.get i).isSome = true := hD
        rw [hins, Table.get_insert hfree] at hthere
        by_cases hi : i = i'
        · exact .inr (by rw [hi]; rfl)
        · rw [if_neg hi] at hthere
          exact .inl hthere
  | shift k => exact hkeep (hch.shifts hD)
  | customer c => exact hkeep (hch.customers hD)

/-- A transaction without an effect leaves the books. -/
theorem Performs.idle (h : Performs .none s s') : s' = s.withDesk s'.desk := by
  obtain ⟨t, desk, hch, rfl⟩ := h
  cases hch
  rfl

/-- An open that inserts no drawer archives one, or leaves the books. -/
theorem Performs.idle_of_shifts {d : DeviceId} (h : Performs (.openShift d Option.none) s s')
    (hsame : s'.shifts = s.shifts) : s' = s.withDesk s'.desk := by
  obtain ⟨t, desk, hch, rfl⟩ := h
  cases hch with
  | openShift _ _ hnew =>
      have hshifts : (s.archiveActive d).shifts = s.shifts := hsame
      show (s.archiveActive d).withDesk desk = s.withDesk desk
      rw [Db.archiveActive_eq, hshifts]
      rfl

/-- … and brings no drawer on file. -/
theorem Performs.none_of_archived {d : DeviceId} {k : ShiftId}
    (h : Performs (.openShift d Option.none) s s') (hnone : s.shifts.get k = Option.none) :
    s'.shifts.get k = Option.none := by
  obtain ⟨t, desk, hch, rfl⟩ := h
  have hshift := hch.shifts (k := k)
  cases hthere : t.shifts.get k with
  | none => exact hthere
  | some row =>
      rcases hshift (by rw [hthere]; rfl) with hold | hdoc
      · rw [hnone] at hold
        cases hold
      · cases hdoc

end

/-! ## One transaction -/

section
variable {c : Committed}

theorem Committed.idle_of_none (h : c.effect = .none) : c.Idle := by
  have hperf := c.performs
  rw [h] at hperf
  exact hperf.idle

/-- **An operation that opens no drawer files the document it names**, or leaves the books. -/
theorem Committed.named {D : Document} (hdoc : c.op.document = some D)
    (hopen : c.op.opening = none) : c.effect.document = some D ∨ c.Idle := by
  rcases c.allowed with hnone | hallow
  · exact .inr (Committed.idle_of_none hnone)
  left
  cases hop : c.op with
  | reportUnsynced d n =>
      rw [hop] at hallow
      exact hallow.elim
  | cleanup now =>
      rw [hop] at hallow
      exact hallow.elim
  -- a route names its document in the body, or draws an id for it
  | post env actor key requestHash req =>
      rw [hop] at hallow hdoc hopen
      cases req with
      | sale dto q =>
          rw [show c.effect = _ from hallow]
          exact hdoc
      | convertQuote q party =>
          obtain ⟨dto, hid, heffect⟩ := hallow
          rw [heffect, Effect.document, hid]
          exact hdoc
      | voidSale x reason =>
          rw [show c.effect = _ from hallow]
          exact hdoc
      | creditNote dto =>
          rw [show c.effect = _ from hallow]
          obtain ⟨r, hr, rfl⟩ := Option.map_eq_some_iff.mp hdoc
          rw [Effect.document, hr, Option.getD_some]
      | entry body =>
          rw [show c.effect = _ from hallow]
          obtain ⟨e, he, rfl⟩ := Option.map_eq_some_iff.mp hdoc
          rw [Effect.document, he, Option.getD_some]
      | creditPayment m dto =>
          rw [show c.effect = _ from hallow]
          obtain ⟨i, hi, rfl⟩ := Option.map_eq_some_iff.mp hdoc
          rw [Effect.document, hi, Option.getD_some]
      | openShift input => cases hopen
      | _ => cases hdoc
  -- an operation that is pushed names it as the till does
  | push env actor key requestHash op =>
      rw [hop] at hallow hdoc hopen
      cases op with
      | saleCreate dto q deviceDate =>
          rw [show c.effect = _ from hallow]
          exact hdoc
      | saleVoidOffline x reason =>
          rw [show c.effect = _ from hallow]
          exact hdoc
      | returnCreate dto deviceDate opId =>
          rw [show c.effect = _ from hallow]
          obtain ⟨r, hr, rfl⟩ := Option.map_eq_some_iff.mp hdoc
          rw [Effect.document, hr, Option.getD_some]
      | drawerEntry entry deviceDate opId =>
          rw [show c.effect = _ from hallow]
          obtain ⟨e, he, rfl⟩ := Option.map_eq_some_iff.mp hdoc
          rw [Effect.document, he, Option.getD_some]
      | creditPaymentCreate m dto =>
          rw [show c.effect = _ from hallow]
          obtain ⟨i, hi, rfl⟩ := Option.map_eq_some_iff.mp hdoc
          rw [Effect.document, hi, Option.getD_some]
      | shiftOpen input openedAt opId => cases hopen
      | customerCreate id body =>
          obtain ⟨input, hinput, heffect⟩ := hallow
          obtain ⟨i, hi, rfl⟩ := Option.map_eq_some_iff.mp hdoc
          rw [heffect, Effect.document, id_parseCustomerCreate hinput, hi, Option.getD_some]
      | customerUpdate k body => cases hdoc

/-- The changes an open may make. -/
theorem Committed.opening_effect {d : DeviceId} {clientId : Option ShiftId} {k : ShiftId}
    (hopen : c.op.opening = some (d, clientId, k)) : c.effect = .none ∨
      c.effect = .openShift d none ∨ c.effect.document = some (.shift k) := by
  have hinput : ∀ {env : Env} {actor : Actor} {input : ShiftOpenBody},
      some (actor.deviceId, input.id, input.id.getD env.newUuid) = some (d, clientId, k) →
      (c.effect = .openShift actor.deviceId none ∨ c.effect = .openShift actor.deviceId
        (some (input.id.getD env.newUuid, input.startingCashSatang))) →
      c.effect = .openShift d none ∨ c.effect.document = some (.shift k) := by
    intro env actor input hsome heffect
    obtain ⟨hd, hrest⟩ := Prod.mk.inj (Option.some.inj hsome)
    obtain ⟨-, hk⟩ := Prod.mk.inj hrest
    rcases heffect with heffect | heffect
    · exact .inl (by rw [heffect, hd])
    · exact .inr (by rw [heffect, ← hk]; rfl)
  rcases c.allowed with hnone | hallow
  · exact .inl hnone
  right
  cases hop : c.op with
  | post env actor key requestHash req =>
      rw [hop] at hallow hopen
      cases req with
      | openShift input => exact hinput hopen hallow
      | _ => cases hopen
  | push env actor key requestHash op =>
      rw [hop] at hallow hopen
      cases op with
      | shiftOpen input openedAt opId => exact hinput hopen hallow
      | _ => cases hopen
  | reportUnsynced d n =>
      rw [hop] at hopen
      cases hopen
  | cleanup now =>
      rw [hop] at hopen
      cases hopen

/-- **An open files its drawer**, or leaves the books, unless another device has a drawer under the
id. -/
theorem Committed.opened {d : DeviceId} {clientId : Option ShiftId} {k : ShiftId}
    (hopens : c.op.Opens c.before c.after) (hone : c.before.OneDrawer)
    (hopen : c.op.opening = some (d, clientId, k)) :
    c.effect.document = some (.shift k) ∨ c.Idle ∨ ∃ row, clientId = some k ∧
      c.before.shifts.get k = some row ∧ row.deviceId ≠ d := by
  rcases Committed.opening_effect hopen with hnone | harchived | hfiled
  · exact .inr (.inl (Committed.idle_of_none hnone))
  · have hperf := c.performs
    rw [harchived] at hperf
    cases hopens d clientId k hopen with
    | nothing hsame => exact .inr (.inl (hperf.idle_of_shifts hsame))
    | opened hfree hthere =>
        rw [hperf.none_of_archived hfree] at hthere
        cases hthere
    | taken row hid hrow hdev => exact .inr (.inr ⟨row, hid, hrow, hdev⟩)
    | crowded hid hlen =>
        have := hone d
        omega
  · exact .inl hfiled

/-- A key is on file from the commit of its work. -/
theorem Committed.key_filed {key : Nat} (hdoes : c.op.Does c.before c.after)
    (hkey : c.op.key = some key) (hact : ¬c.Idle) :
    c.before.idempotencyKeys.get key = none ∧ (c.after.idempotencyKeys.get key).isSome = true := by
  have hstep := hdoes.keys
  cases hop : c.op with
  | post env actor k requestHash req =>
      rw [hop] at hstep hkey
      obtain rfl := Option.some.inj hkey
      exact KeyStep.once hstep hact
  | push env actor k requestHash op =>
      rw [hop] at hstep hkey
      obtain rfl := Option.some.inj hkey
      exact KeyStep.once hstep hact
  | reportUnsynced d n =>
      rw [hop] at hkey
      cases hkey
  | cleanup now =>
      rw [hop] at hkey
      cases hkey

/-- It stays there until a cleanup finds it past its time. -/
theorem Committed.key_stays {key : Nat} (hdoes : c.op.Does c.before c.after)
    (hsome : (c.before.idempotencyKeys.get key).isSome = true) :
    (c.after.idempotencyKeys.get key).isSome = true ∨ c.Expires key := by
  have hstep := hdoes.keys
  have hkeyed : ∀ {k}, KeyStep k c.before c.after →
      (c.after.idempotencyKeys.get key).isSome = true := by
    intro k hk
    by_cases heq : key = k
    · subst heq
      rw [hk.kept hsome]
      exact hsome
    · rw [hk.others key heq]
      exact hsome
  cases hop : c.op with
  | post env actor k requestHash req =>
      rw [hop] at hstep
      exact .inl (hkeyed hstep)
  | push env actor k requestHash op =>
      rw [hop] at hstep
      exact .inl (hkeyed hstep)
  | reportUnsynced d n =>
      rw [hop] at hstep
      have hsame : c.after.idempotencyKeys = c.before.idempotencyKeys := hstep
      rw [hsame]
      exact .inl hsome
  | cleanup now =>
      rw [hop] at hstep
      rcases hstep.keys key with hsame | ⟨-, hexpired⟩
      · have hget : c.after.idempotencyKeys.get key = c.before.idempotencyKeys.get key := hsame
        rw [hget]
        exact .inl hsome
      · exact .inr ⟨now, hop, hexpired⟩

end

/-! ## Whole runs -/

/-- Between two transactions of one key that change the books, a cleanup has deleted the key. -/
def KeyedOnce (cs : List Committed) : Prop :=
  ∀ key before c between c' rest, cs = before ++ c :: (between ++ c' :: rest) →
    c.op.key = some key → c'.op.key = some key → ¬c.Idle → ¬c'.Idle → ∃ b ∈ between, b.Expires key

/-- The key of a transaction that changed the books is on file, unless it has been deleted. -/
def KeyHeld (cs : List Committed) (db : Db) : Prop :=
  ∀ key before c rest, cs = before ++ c :: rest → c.op.key = some key → ¬c.Idle →
    (db.idempotencyKeys.get key).isSome = true ∨ ∃ b ∈ rest, b.Expires key

/-- A document in a run: how often it was filed. -/
structure FiledOnce (s₀ : Db) (D : Document) (cs : List Committed) (db : Db) : Prop where
  kept : s₀.OnFile D → db.OnFile D
  filed : db.OnFile D → s₀.OnFile D ∨ ∃ c ∈ cs, c.Files D
  once : (cs.countP fun c => c.effect.document = some D) ≤
    if db.OnFile D ∧ ¬s₀.OnFile D then 1 else 0
  stays : ∀ c ∈ cs, c.effect.document = some D → db.OnFile D

/-- **What is known of the operations of a run.** -/
structure AtMostOnce (s₀ : Db) (cs : List Committed) (db : Db) : Prop where
  /-- a document that is on file was there, or a transaction of the run filed it … -/
  filed : ∀ D, db.OnFile D → s₀.OnFile D ∨ ∃ c ∈ cs, c.Files D
  /-- … and it is on file from then on … -/
  stays : ∀ D, ∀ c ∈ cs, c.effect.document = some D → db.OnFile D
  /-- … which one transaction does at most, and none if it was there already -/
  once : ∀ D, (cs.countP fun c => c.effect.document = some D) ≤ if s₀.OnFile D then 0 else 1
  /-- an operation that names its document files that one, or leaves the books as they are -/
  named : ∀ c ∈ cs, ∀ D, c.op.document = some D → c.op.opening = none →
    c.effect.document = some D ∨ c.Idle
  /-- so does an open, unless the client chose an id that another device's drawer has -/
  opened : ∀ c ∈ cs, ∀ d clientId k, c.op.opening = some (d, clientId, k) →
    c.effect.document = some (.shift k) ∨ c.Idle ∨ ∃ row, clientId = some k ∧
      c.before.shifts.get k = some row ∧ row.deviceId ≠ d
  /-- with or without a document, a key's work is done once as long as the key is on file -/
  keyed : KeyedOnce cs

section
variable {s₀ : Db} {cs : List Committed} {c : Committed}

/-- A commit files a document that was not on file, or none. -/
theorem FiledOnce.step {D : Document} (h : FiledOnce s₀ D cs c.before) :
    FiledOnce s₀ D (cs ++ [c]) c.after := by
  have hkept : c.before.OnFile D → c.after.OnFile D := Db.OnFile.kept c.performs.kept
  refine ⟨fun hD => hkept (h.kept hD), ?_, ?_, ?_⟩
  · intro hD
    rcases c.performs.brings hD with hold | hfiles
    · rcases h.filed hold with hstart | ⟨b, hb, hfiles⟩
      · exact .inl hstart
      · exact .inr ⟨b, List.mem_append_left _ hb, hfiles⟩
    · exact .inr ⟨c, by simp, hfiles⟩
  · have honce := h.once
    rw [List.countP_append, List.countP_singleton]
    by_cases hc : c.effect.document = some D
    · obtain ⟨hnew, hthere⟩ := c.performs.files hc
      rw [if_neg fun hboth => hnew hboth.1] at honce
      rw [if_pos (decide_eq_true hc), if_pos ⟨hthere, fun hD => hnew (h.kept hD)⟩]
      omega
    · rw [if_neg (by simpa using hc)]
      by_cases hD : c.before.OnFile D ∧ ¬s₀.OnFile D
      · rw [if_pos hD] at honce
        rw [if_pos ⟨hkept hD.1, hD.2⟩]
        omega
      · rw [if_neg hD] at honce
        omega
  · intro b hb hdoc
    rcases List.mem_append.mp hb with hb | hb
    · exact hkept (h.stays b hb hdoc)
    · obtain rfl := List.mem_singleton.mp hb
      exact (b.performs.files hdoc).2

/-- A list that ends in `c` splits at its end, or before it. -/
private theorem split_snoc {α : Type} {as before rest : List α} {a b : α}
    (h : as ++ [a] = before ++ b :: rest) :
    (rest = [] ∧ before = as ∧ b = a) ∨ ∃ rest', rest = rest' ++ [a] ∧
      as = before ++ b :: rest' := by
  rcases List.eq_nil_or_concat rest with rfl | ⟨rest', a', rfl⟩
  · obtain ⟨h₁, h₂⟩ := List.append_inj' h rfl
    exact .inl ⟨rfl, h₁.symm, (List.singleton_inj.mp h₂).symm⟩
  · rw [List.concat_eq_append] at h ⊢
    have h' : as ++ [a] = (before ++ b :: rest') ++ [a'] := by simpa using h
    obtain ⟨h₁, h₂⟩ := List.append_inj' h' rfl
    exact .inr ⟨rest', by rw [List.singleton_inj.mp h₂], h₁⟩

theorem KeyHeld.step (h : KeyHeld cs c.before) (hdoes : c.op.Does c.before c.after) :
    KeyHeld (cs ++ [c]) c.after := by
  intro key before b rest hsplit hkey hact
  rcases split_snoc hsplit with ⟨rfl, rfl, rfl⟩ | ⟨rest', rfl, hcs⟩
  · exact .inl (Committed.key_filed hdoes hkey hact).2
  · rcases h key before b rest' hcs hkey hact with hsome | ⟨d, hd, hexpires⟩
    · rcases Committed.key_stays hdoes hsome with hstays | hexpires
      · exact .inl hstays
      · exact .inr ⟨c, by simp, hexpires⟩
    · exact .inr ⟨d, List.mem_append_left _ hd, hexpires⟩

/-- A key that is on file answers, so nothing is carried out under it again. -/
theorem KeyedOnce.step (h : KeyedOnce cs) (hheld : KeyHeld cs c.before)
    (hdoes : c.op.Does c.before c.after) : KeyedOnce (cs ++ [c]) := by
  intro key before b between b' rest hsplit hkey hkey' hact hact'
  have hsplit' : cs ++ [c] = (before ++ b :: between) ++ b' :: rest := by simpa using hsplit
  rcases split_snoc hsplit' with ⟨rfl, hcs, rfl⟩ | ⟨rest', rfl, hcs⟩
  · -- the key was not on file any more when its work was done again
    have hgone := (Committed.key_filed hdoes hkey' hact').1
    rcases hheld key before b between hcs.symm hkey hact with hsome | hexpired
    · rw [hgone] at hsome
      cases hsome
    · exact hexpired
  · exact h key before b between b' rest' (by simpa using hcs) hkey hkey' hact hact'

end

section
variable {T : Type} [DecidableEq T] {s₀ : Db} {S : System T} {cs : List Committed}

/-- **Every operation takes effect at most once**: one that names its document for good, any other
as long as its key is on file. -/
theorem operations_at_most_once (h₀ : s₀.Consistent) (hone : s₀.OneDrawer)
    (h : Traced s₀ cs S) : AtMostOnce s₀ cs S.db := by
  have hfiled : ∀ D, FiledOnce s₀ D cs S.db := by
    intro D
    refine h.invariant (FiledOnce s₀ D) h₀ ⟨fun hD => hD, .inl, by simp, by simp⟩ ?_
    exact fun _ _ _ ih => ih.step
  have hdoes := h.does h₀
  have hkeys : KeyHeld cs S.db ∧ KeyedOnce cs := by
    refine h.invariant (fun cs db => (∀ c ∈ cs, c.op.Does c.before c.after) →
      KeyHeld cs db ∧ KeyedOnce cs) h₀ (fun _ => ?_) ?_ hdoes
    · constructor
      · intro key before c rest hsplit
        simp at hsplit
      · intro key before c between c' rest hsplit
        simp at hsplit
    · intro cs c _ ih hall
      obtain ⟨hheld, honce⟩ := ih fun d hd => hall d (List.mem_append_left _ hd)
      have hc := hall c (by simp)
      exact ⟨hheld.step hc, honce.step hheld hc⟩
  have hdrawers : ∀ c ∈ cs, c.before.OneDrawer := by
    have hboth := h.invariant (fun cs db => db.OneDrawer ∧ ∀ c ∈ cs, c.before.OneDrawer) h₀
      ⟨hone, by simp⟩ ?_
    · exact hboth.2
    · intro cs c _ ih
      refine ⟨c.performs.oneDrawer ih.1, ?_⟩
      intro d hd
      rcases List.mem_append.mp hd with hd | hd
      · exact ih.2 d hd
      · obtain rfl := List.mem_singleton.mp hd
        exact ih.1
  refine ⟨fun D => (hfiled D).filed, fun D => (hfiled D).stays, ?_, ?_, ?_, hkeys.2⟩
  · intro D
    have honce := (hfiled D).once
    split
    · rename_i hD
      rw [if_neg fun hboth => hboth.2 hD] at honce
      exact honce
    · split at honce <;> omega
  · exact fun c _ D hdoc hopen => Committed.named hdoc hopen
  · intro c hc d clientId k hopen
    exact Committed.opened (h.opens h₀ c hc) (hdrawers c hc) hopen

/-- The same cash entry under one key, without an id: at the start of the day, and again when the
key's row has been cleaned up. -/
def lateRetry : List Op :=
  [.post (plainEnv 0 90) ⟨1⟩ 1 0 (.entry ⟨none, .cashIn, 100⟩),
   .cleanup 90000,
   .post (plainEnv 90001 91) ⟨1⟩ 1 0 (.entry ⟨none, .cashIn, 100⟩)]

/-- The retry is carried out as if it were another entry. -/
theorem late_retry_takes_effect_twice : ∃ S : System Nat, Reachable prog smallShop S ∧
    S.log.map Prod.fst = lateRetry ∧ (S.db.drawerEntries.get 90).isSome = true ∧
    (S.db.drawerEntries.get 91).isSome = true ∧ S.db.expectedCash 11 = 200 := by
  obtain ⟨S, hreach, hdb, hlog⟩ : ∃ S : System Nat, Reachable prog smallShop S ∧
      S.db = rowsAfter prog lateRetry smallShop ∧ S.log.map Prod.fst = lateRetry :=
    reachable_logged (by decide +kernel)
  refine ⟨S, hreach, hlog, ?_⟩
  rw [hdb]
  decide +kernel

/-- A retry after the cleanup of its key is answered from the document that is on file. -/
theorem operations_at_most_once_of_lateRetry : ∃ (cs : List Committed) (S : System Nat),
    Traced smallShop cs S ∧ S.log.map Prod.fst = lateRetry ∧ AtMostOnce smallShop cs S.db := by
  obtain ⟨S, hreach, -, hlog⟩ : ∃ S : System Nat, Reachable prog smallShop S ∧
      S.db = rowsAfter prog lateRetry smallShop ∧ S.log.map Prod.fst = lateRetry :=
    reachable_logged (by decide +kernel)
  obtain ⟨cs, htr⟩ := Reachable.traced smallShop_consistent hreach
  have hone : smallShop.OneDrawer := by
    intro d
    show (List.map Prod.fst (List.filter _ [(11, newShift 1 0 0)])).length ≤ 1
    rw [List.length_map]
    exact List.length_filter_le _ _
  exact ⟨cs, S, htr, hlog, operations_at_most_once smallShop_consistent hone htr⟩

end

end Server

import SrisurartPos.Server.System

/-! # Drawers on the owner's list

Two kinds of review items speak of a drawer: that nobody counted it, and that it did not hold what
was taken out of it. Opening a drawer writes the one and a queued cash-out the other. Everything
else leaves them alone, and the devices as well, but for a retirement. -/

namespace Server

open Txn

/-- The item speaks of a drawer. -/
def ReviewKind.ofDrawer : ReviewKind → Bool
  | .shiftUncounted | .drawerOverdrawnOffline => true
  | _                                         => false

/-- The devices, and what the owner's list says of drawers. -/
def Db.roll (db : Db) : Table DeviceId Device × List ReviewItem :=
  (db.devices, db.reviewItems.filter (·.kind.ofDrawer))

def Db.withKeys (keys : Table Nat KeyRow) (db : Db) : Db := { db with idempotencyKeys := keys }

section
variable {s s' : Db}

theorem roll_addReview {r : ReviewItem} (h : r.kind.ofDrawer = false) :
    (s.addReview r).roll = s.roll := by
  simp [Db.roll, Db.addReview, h]

theorem roll_addReviewOnce {r : ReviewItem} (h : r.kind.ofDrawer = false) :
    (s.addReviewOnce r).roll = s.roll := by
  unfold Db.roll Db.addReviewOnce
  split <;> simp [h]

theorem roll_noteOverride (dto : SaleWrite) (noted : Bool) :
    (s.noteOverride dto noted).roll = s.roll := by
  unfold Db.roll Db.noteOverride
  split <;> simp [ReviewKind.ofDrawer]

/-! ## What the services leave alone -/

theorem SaleCreated.roll {actor : Actor} {dto : SaleWrite} {r : CreateSaleResult}
    (h : SaleCreated actor dto s r s') : s'.roll = s.roll := by
  cases h with
  | replay hr => rfl
  | written k row c v noted hadm hnoted hr =>
      exact roll_noteOverride dto noted

theorem QuoteSettled.roll {q : QuoteId} {x : SaleId} (h : QuoteSettled q x s s') :
    s'.roll = s.roll := by
  cases h with
  | kept => rfl
  | converted => rfl
  | conflict => exact roll_addReviewOnce rfl

theorem QuoteSold.roll {actor : Actor} {q : QuoteId} {dto : SaleWrite} {r : CreateSaleResult}
    (h : QuoteSold actor q dto s r s') : s'.roll = s.roll := by
  obtain ⟨s₁, s₂, hsale, hsettled⟩ := h
  exact hsettled.roll.trans hsale.roll

theorem ReturnCreated.roll {env : Env} {actor : Actor} {dto : ReturnWrite}
    {r : CreateReturnResult} (h : ReturnCreated env actor dto s r s') : s'.roll = s.roll := by
  cases h with
  | replay hr => rfl
  | written r note sale c v hadm hr hnew hres =>
      rw [Db.autoVoid]
      split <;> rfl

theorem SaleVoided.roll {actor : Actor} {x : SaleId} {reason : String}
    (h : SaleVoided actor x reason s s') : s'.roll = s.roll := by
  cases h
  rfl

theorem PaymentCreated.roll {env : Env} {actor : Actor} {m : MechanicId}
    {dto : CreateCreditPayment} {r : CreateCreditPaymentResult}
    (h : PaymentCreated env actor m dto s r s') : s'.roll = s.roll := by
  cases h <;> rfl

theorem StockAdjusted.roll {p : ProductId} {input : StockAdjustment} {after : Int}
    (h : StockAdjusted p input s after s') : s'.roll = s.roll := by
  cases h
  rfl

theorem GoodsReceived.roll {lower : String → String} {i : PoId} {r : ReceiveResult}
    (h : GoodsReceived lower i s r s') : s'.roll = s.roll := by
  cases h
  rfl

theorem EntryAdded.roll {env : Env} {d : DeviceId} {entry : DrawerEntryBody}
    {offlineReplay : Bool} {r : EntryId × DrawerEntry}
    (h : EntryAdded env d entry offlineReplay s r s') : s'.roll = s.roll := by
  cases h <;> rfl

end

/-! ## What the handlers leave alone -/

/-- The request neither opens a drawer nor retires a device. -/
def Request.quiet : Request → Bool
  | .openShift _        => false
  | .retireDevice _ _ _ => false
  | _                   => true

/-- The operation neither opens a drawer nor takes cash out of one. -/
def SyncOp.quiet : SyncOp → Bool
  | .shiftOpen _ _ _   => false
  | .drawerEntry _ _ _ => false
  | _                  => true

section
variable {H : Held LockKey} {s : Db} {env : Env} {actor : Actor}

/-- A request that is none of the drawers' own leaves the list of drawers. -/
theorem wp_handle_roll (hs : s.Consistent) {req : Request} (hquiet : req.quiet = true) :
    wp (req.handle env actor) H s Expected fun _ _ s' => s'.roll = s.roll := by
  cases req with
  | sale dto quoteId =>
      refine wp_bind_ofExcept (fun _ _ => ?_) (parseCreateSale_expected _)
      cases quoteId with
      | none => exact wp_seq (wp_createSale hs) fun r H' s' h => h.1.roll
      | some q => exact wp_seq (wp_sell hs) fun r H' s' h => h.1.roll
  | convertQuote q party =>
      refine wp_bind_ofExcept (fun _ _ => ?_) (parseSaleParty_expected _ _)
      refine wp_seq (wp_convert hs) ?_
      rintro r H' s' ⟨quote, dto, -, hdto, hsold, hcov⟩
      exact hsold.roll
  | voidSale x reason =>
      refine wp_bind_ofExcept (fun _ _ => ?_) (AllExpected.check _ _)
      exact wp_seq (wp_voidSale hs) fun r H' s' h => h.1.roll
  | creditNote dto =>
      refine wp_bind_ofExcept (fun _ _ => ?_) (parseCreateReturn_expected _)
      exact wp_seq (wp_createReturn hs) fun r H' s' h => h.1.roll
  | openShift input => cases hquiet
  | closeShift cash =>
      refine wp_bind_ofExcept (fun _ _ => ?_) (AllExpected.check _ _)
      exact (wp_bind _ _).mpr (wp_close fun k row hrow hopen => rfl)
  | entry body =>
      refine wp_bind_ofExcept (fun _ _ => ?_) (AllExpected.check _ _)
      exact wp_seq wp_addEntry fun r H' s' h => h.1.roll
  | creditPayment m dto =>
      refine wp_bind_ofExcept (fun _ _ => ?_) (parseCreateCreditPayment_expected _)
      exact wp_seq wp_createCreditPayment fun r H' s' h => h.1.roll
  | adjustStock p input =>
      refine wp_bind_ofExcept (fun _ _ => ?_) (parseStockAdjustment_expected _)
      exact wp_seq wp_adjustStock fun r H' s' h => h.1.roll
  | receivePo i => exact wp_seq (wp_receive hs) fun r H' s' h => h.1.roll
  | retireDevice d cash force => cases hquiet
  | updateMechanic m patch =>
      refine wp_bind_ofExcept (fun _ _ => ?_) (AllExpected.check _ _)
      refine wp_seq wp_editMechanic ?_
      rintro r H' s' ⟨⟨row, hrow, halive, rfl⟩, hcov⟩
      rfl

theorem wp_pushSale_roll (hs : s.Consistent) {dto : SaleWrite} {quoteId : Option QuoteId}
    {soldAt : Option Nat} :
    wp (pushSale env actor dto quoteId soldAt) H s Expected fun _ _ s' => s'.roll = s.roll := by
  cases quoteId with
  | none => exact wp_seq (wp_createSale hs) fun r H' s' h => h.1.roll
  | some q =>
      refine (wp_bind _ _).mpr (wp_lockAndClassify fun state => ?_)
      refine wp_seq (wp_createSale hs) fun r H' s' h => ?_
      have hsold := h.1.roll
      cases state with
      | fresh => exact (wp_bind _ _).mpr (wp_markConverted hsold)
      | replay => exact hsold
      | saleIdTaken => exact hsold
      | missing => exact (roll_addReviewOnce rfl).trans hsold
      | converted c => exact (roll_addReviewOnce rfl).trans hsold
      | expired v => exact (roll_addReviewOnce rfl).trans hsold

/-- A date that is moved is no matter of a drawer. -/
theorem wp_bind_clampOpDate_roll (hs : s.Consistent) {d : DeviceId} {docNo : Option DocNo} {refId : Nat}
    {opDate : Option Nat} {f : Option Nat → Prog Reply}
    (h : ∀ date t, t.Consistent → wp (f date) H t Expected fun _ _ s' => s'.roll = t.roll) :
    wp (clampOpDate env d docNo refId opDate >>= f) H s Expected fun _ _ s' => s'.roll = s.roll := by
  refine (wp_bind _ _).mpr (wp_clampOpDate fun date t ht => ?_)
  have hsame : t.Consistent ∧ t.roll = s.roll := by
    rcases ht with rfl | rfl
    · exact ⟨hs, rfl⟩
    · exact ⟨hs, roll_addReview rfl⟩
  exact wp_mono (h date t hsame.1) (fun _ he => he) fun _ _ _ hroll => hroll.trans hsame.2

/-- An operation that is none of the drawers' own leaves the list as well. -/
theorem wp_execute_roll (hs : s.Consistent) {op : SyncOp} (hquiet : op.quiet = true) :
    wp (op.execute env actor) H s Expected fun _ _ s' => s'.roll = s.roll := by
  cases op with
  | saleCreate dto quoteId deviceDate =>
      exact wp_bind_clampOpDate_roll hs fun date t ht => wp_pushSale_roll ht
  | returnCreate dto deviceDate opId =>
      refine wp_bind_clampOpDate_roll hs fun date t ht => ?_
      exact wp_seq (wp_createReturn ht) fun r H' s' h => h.1.roll
  | shiftOpen input openedAt opId => cases hquiet
  | drawerEntry entry deviceDate opId => cases hquiet
  | creditPaymentCreate m dto =>
      exact wp_seq wp_createCreditPayment fun r H' s' h => h.1.roll
  | customerCreate id body =>
      refine wp_bind_ofExcept (fun input _ => ?_) (parseCustomerCreate_expected id body)
      refine wp_seq wp_createCustomer ?_
      rintro r H' s' ⟨⟨-, -, code, -, rfl⟩, -⟩
      rfl
  | customerUpdate c body =>
      refine wp_bind_ofExcept (fun patch _ => ?_) (parseCustomerPatch_expected body)
      refine wp_seq wp_editCustomer ?_
      rintro r H' s' ⟨⟨row, -, -, -, rfl⟩, -⟩
      rfl
  | saleVoidOffline x reason =>
      refine wp_bind_glance fun s₀ => wp_bind_orFail (fun sale _ => ?_) fun _ => rfl
      refine wp_bind_require (fun _ => ?_) fun _ => rfl
      refine wp_seq (wp_voidSale hs) fun _ H' s' h => wp_bind_update (wp_bind_glance fun s₁ => ?_)
      exact (roll_addReview rfl).trans h.1.roll

end

/-! ## The transactions around them -/

/-- The operation neither opens a drawer, takes cash out of one, nor touches a device. -/
def Op.quiet : Op → Bool
  | .post _ _ _ _ req   => req.quiet
  | .push _ _ _ _ op    => op.quiet
  | .reportUnsynced _ _ => false
  | .cleanup _          => true

section
variable {H : Held LockKey} {s : Db} {env : Env} {actor : Actor} {key requestHash : Nat}
  {ag : LockKey × Mode → Db → Db → Prop} {J Q : Db → Prop}

/-- A claim changes the keys only, and its owner holds the key. -/
theorem wp_claim_keys {endpoint : Endpoint} {R : Claim → Held LockKey → Db → Prop}
    (h : ∀ out H' keys, (out = .claimed → (.key key, .update) ∈ H') → R out H' (s.withKeys keys)) :
    wp (claim env key endpoint requestHash) H s Expected R := by
  have hdecide : ∀ stored H', R (decideClaim stored endpoint requestHash) H' s := by
    intro stored H'
    refine h _ H' s.idempotencyKeys fun hout => ?_
    unfold decideClaim at hout
    split at hout <;> cases hout
  obtain ⟨rest, hclaim, hrest⟩ : ∃ rest : Prog Claim,
      claim env key endpoint requestHash = (insertClaim env key endpoint requestHash >>= fun inserted =>
        if inserted then Pure.pure .claimed else rest) ∧
      ∀ H', wp rest H' s Expected R := by
    refine ⟨_, rfl, fun H' => ?_⟩
    cases env.cached with
    | some stored => exact hdecide stored H'
    | none =>
        refine wp_bind_glance fun s₀ => ?_
        cases s₀.idempotencyKeys.get key with
        | none => exact h .reused H' s.idempotencyKeys fun hout => by cases hout
        | some row => exact wp_bind_orFail (fun body _ => hdecide _ H') fun _ => rfl
  rw [hclaim]
  refine (wp_bind _ _).mpr (wp_bind_glance fun s₀ => ?_)
  split
  · exact hrest H
  · refine wp_bind_selectFor ?_
    split
    · exact hrest _
    · exact h .claimed _ _ fun _ => List.mem_cons_self

theorem wp_complete_keys {body : Reply} {R : Unit → Held LockKey → Db → Prop}
    (h : ∀ H' keys, R () H' (s.withKeys keys)) : wp (complete key body) H s Expected R :=
  wp_bind_updateReturning (wp_bind_orFail (fun _ _ => h _ _) fun _ => rfl)

/-- **The rule of a request's transaction**: what the keys do not matter for holds of the rows it
commits when it holds of the rows its work leaves. -/
theorem wpHeld_runIdempotent_keys {endpoint : Endpoint} {work : Prog Reply} (hs : J s)
    (hkeys : ∀ t keys, J t → J (t.withKeys keys)) (hQ : ∀ t, J t → Q t)
    (hwork : ∀ H' t, J t → (.key key, .update) ∈ H' →
      wpHeld ag work H' t fun _ _ t' => ∀ keys, Q (t'.withKeys keys)) :
    wpHeld ag (runIdempotent env key endpoint requestHash work) H s fun _ _ s' => Q s' := by
  refine wpHeld_bind.mpr (wpHeld_of_wp (wp_claim_keys fun out H₁ keys hheld => ?_))
  cases out with
  | reused => trivial
  | replay body => exact hQ _ (hkeys s keys hs)
  | claimed =>
      refine wpHeld_seq (hwork H₁ _ (hkeys s keys hs) (hheld rfl)) fun body H₂ s₂ hleft => ?_
      exact wpHeld_bind.mpr (wpHeld_of_wp (wp_complete_keys fun H₃ keys' => hleft keys'))

/-- What the look-ups keep, the replay of a key keeps. -/
theorem wp_replayKey_keeps {op : SyncOp} (hs : J s)
    (hprobe : ∀ H' t, J t → wp (checkClientIdReplay op) H' t Expected fun _ _ t' => J t') :
    wp (replayKeyOfSameDocument key op) H s Expected fun _ _ s' => J s' := by
  rw [replayKeyOfSameDocument]
  cases op.replayId with
  | none => exact hs
  | some id =>
      refine wp_bind_glance fun s₀ => ?_
      cases s₀.idempotencyKeys.get key with
      | none => exact hs
      | some stored =>
          dsimp only
          split
          · exact hs
          · exact hprobe H s hs

/-- **The rule of an operation of a push.** Its work begins where no document answers it. -/
theorem wpHeld_processSingleOp_probed {op : SyncOp} (hs : J s)
    (hkeys : ∀ t keys, J t → J (t.withKeys keys)) (hQ : ∀ t, J t → Q t)
    (hprobe : ∀ H' t, J t → wp (checkClientIdReplay op) H' t Expected fun _ _ t' => J t')
    (hclaimed : ∀ H' t, J t → (.key key, .update) ∈ H' →
      wpHeld ag (checkClientIdReplay op) H' t fun out H'' t' => J t' ∧
        (out = none → wpHeld ag (op.execute env actor) H'' t' fun _ _ t'' =>
          ∀ keys, Q (t''.withKeys keys))) :
    wpHeld ag (processSingleOp env actor key requestHash op) H s fun _ _ s' => Q s' := by
  refine wpHeld_bind.mpr (wpHeld_of_wp (wp_claim_keys fun out H₁ keys hheld => ?_))
  have hs₁ : J (s.withKeys keys) := hkeys s keys hs
  cases out with
  | replay body => exact hQ _ hs₁
  | reused =>
      refine wpHeld_seq (wpHeld_of_wp (wp_replayKey_keeps hs₁ hprobe)) fun own H₂ s₂ hs₂ => ?_
      cases own with
      | some r => exact hQ _ hs₂
      | none =>
          dsimp only
          cases op.parse <;> trivial
  | claimed =>
      refine wpHeld_seq (hclaimed H₁ _ hs₁ (hheld rfl)) ?_
      rintro existing H₂ s₂ ⟨hs₂, hwork⟩
      cases existing with
      | some r =>
          exact wpHeld_bind.mpr (wpHeld_of_wp (wp_complete_keys fun H₃ keys' =>
            hQ _ (hkeys s₂ keys' hs₂)))
      | none =>
          dsimp only
          cases op.parse with
          | error e => trivial
          | ok u =>
              show wpHeld ag (op.execute env actor >>= _) _ _ _
              refine wpHeld_seq (hwork rfl) fun r H₃ s₃ hleft => ?_
              exact wpHeld_bind.mpr (wpHeld_of_wp (wp_complete_keys fun H₄ keys' => hleft keys'))

/-- The rule, where it does not matter what the documents answer. -/
theorem wpHeld_processSingleOp_keys {op : SyncOp} (hs : J s)
    (hkeys : ∀ t keys, J t → J (t.withKeys keys)) (hQ : ∀ t, J t → Q t)
    (hprobe : ∀ H' t, J t → wp (checkClientIdReplay op) H' t Expected fun _ _ t' => J t')
    (hwork : ∀ H' t, J t → wpHeld ag (op.execute env actor) H' t fun _ _ t' =>
      ∀ keys, Q (t'.withKeys keys)) :
    wpHeld ag (processSingleOp env actor key requestHash op) H s fun _ _ s' => Q s' :=
  wpHeld_processSingleOp_probed hs hkeys hQ hprobe fun H' t ht _ =>
    wpHeld_mono (wpHeld_of_wp (hprobe H' t ht)) fun _ H'' t' ht' => ⟨ht', fun _ => hwork H'' t' ht'⟩

/-- Looking for the drawer an open names writes nothing … -/
theorem wp_probe_open {input : ShiftOpenBody} {openedAt : Option Nat} {opId : Nat}
    {Q : Option Reply → Held LockKey → Db → Prop} (h : ∀ out, Q out H s) :
    wp (checkClientIdReplay (.shiftOpen input openedAt opId)) H s Expected Q := by
  simp only [checkClientIdReplay]
  cases input.id with
  | none => exact h none
  | some id =>
      refine wp_bind_glance fun s₀ => ?_
      cases s₀.shifts.get id with
      | none => exact h none
      | some row => exact wp_bind_require (fun _ => h _) fun _ => rfl

/-- … nor does looking for an entry. -/
theorem wp_probe_entry {entry : DrawerEntryBody} {deviceDate : Option Nat} {opId : Nat}
    {Q : Option Reply → Held LockKey → Db → Prop} (h : ∀ out, Q out H s) :
    wp (checkClientIdReplay (.drawerEntry entry deviceDate opId)) H s Expected Q := by
  simp only [checkClientIdReplay]
  cases entry.id with
  | none => exact h none
  | some e =>
      refine wp_bind_glance fun s₀ => ?_
      cases s₀.drawerEntries.get e with
      | none => exact h none
      | some row => exact wp_bind_require (fun _ => wp_bind_glance fun s₁ => h _) fun _ => rfl

/-- A quiet operation leaves the devices, and what the owner's list says of drawers. -/
theorem wpHeld_quiet (hs : s.Consistent) {op : Op} (hquiet : op.quiet = true) :
    wpHeld ag (prog op) [] s fun _ _ s' => s'.roll = s.roll := by
  have hself : s.Consistent ∧ s.roll = s.roll := ⟨hs, rfl⟩
  cases op with
  | post env actor key requestHash req =>
      refine wpHeld_runIdempotent_keys (J := fun t => t.Consistent ∧ t.roll = s.roll) hself
        (fun t keys ht => ht) (fun t ht => ht.2) fun H' t ht _ => wpHeld_of_wp (E := Expected) ?_
      exact wp_mono (wp_handle_roll ht.1 hquiet) (fun _ h => h) fun _ _ t' hroll keys =>
        hroll.trans ht.2
  | push env actor key requestHash op =>
      refine wpHeld_processSingleOp_keys (J := fun t => t.Consistent ∧ t.roll = s.roll) hself
        (fun t keys ht => ht) (fun t ht => ht.2) (fun H' t ht => ?_) fun H' t ht =>
          wpHeld_of_wp (E := Expected) ?_
      · have hprobe := (leaves_checkClientIdReplay (f := Db.roll)
          (fun db id => roll_addReviewOnce rfl) op).wp (wp_checkClientIdReplay (H := H') (s := t)
            (Q := fun _ _ t' => t'.Consistent) fun _ _ _ _ => ht.1)
        exact wp_mono hprobe (fun _ h => h) fun _ _ _ h => ⟨h.1, h.2.trans ht.2⟩
      · exact wp_mono (wp_execute_roll ht.1 hquiet) (fun _ h => h) fun _ _ t' hroll keys =>
          hroll.trans ht.2
  | reportUnsynced d n => cases hquiet
  | cleanup now =>
      have hleaves : Leaves Db.roll (prog (.cleanup now)) := by
        refine Leaves.bind ((leaves_glance _).bind fun keys => Leaves.forEach fun key => ?_)
          fun _ => trivial
        exact (leaves_selectFor _ _ _).bind fun row => Leaves.whenever ⟨fun _ => rfl, trivial⟩
      have hany : wp (prog (.cleanup now)) [] s Expected fun _ _ _ => True :=
        wp_mono (wp_prog hs (.cleanup now)) (fun _ h => h) fun _ _ _ _ => trivial
      exact wpHeld_of_wp (wp_mono (hleaves.wp hany) (fun _ h => h) fun _ _ _ h => h.2)

end

end Server

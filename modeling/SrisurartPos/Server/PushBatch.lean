import SrisurartPos.Server.System
import Mathlib.Data.Bool.Count

/-! # A batch of `/sync/push` (`processPush`)

The loop runs the operations of a batch one after the other, each in a transaction of its own, among
whatever else the server is doing. An operation that commits is applied; one that a service refuses
is rejected; anything else that goes wrong, at whatever statement, is answered `retry` and stops the
loop. So is an operation whose `COMMIT` went through while its answer was lost. -/

namespace Server

open Txn

/-! ## Results -/

inductive SyncOpType where
  /-- `'sale.create'` -/
  | saleCreate
  /-- `'return.create'` -/
  | returnCreate
  /-- `'shift.open'` -/
  | shiftOpen
  /-- `'drawer.entry'` -/
  | drawerEntry
  /-- `'credit_payment.create'` -/
  | creditPaymentCreate
  /-- `'customer.create'` -/
  | customerCreate
  /-- `'customer.update'` -/
  | customerUpdate
  /-- `'sale.void_offline'` -/
  | saleVoidOffline
  deriving DecidableEq, Repr

def SyncOp.type : SyncOp → SyncOpType
  | .saleCreate _ _ _        => .saleCreate
  | .returnCreate _ _ _      => .returnCreate
  | .shiftOpen _ _ _         => .shiftOpen
  | .drawerEntry _ _ _       => .drawerEntry
  | .creditPaymentCreate _ _ => .creditPaymentCreate
  | .customerCreate _ _      => .customerCreate
  | .customerUpdate _ _      => .customerUpdate
  | .saleVoidOffline _ _     => .saleVoidOffline

/-- `docNoOf` -/
def SyncOp.docNo : SyncOp → Option DocNo
  | .saleCreate dto _ _   => dto.receiptNo
  | .returnCreate dto _ _ => dto.cnNo
  | _                     => none

/-- The code of a rejected operation with its details. -/
inductive Refusal where
  /-- product, requested, available -/
  | insufficientStock (details : Option (Option ProductId × Int × Option Int))
  | overpayment (mechanicId : Option MechanicId) (outstandingBalance attemptedAmount : Int)
  /-- product, expected and actual price -/
  | returnPriceMismatch (details : Option (ProductId × Option Int × Int))
  | clientIdReused (type : SyncOpType) (id : Option Nat)
  | voidNeedsOnline (saleId : Option SaleId)
  | receiptNoConflict (docNumber : Option DocNo)
  /-- any other code goes through with its own message and details -/
  | other (e : ServerError)

/-- The texts the till shows, where the push replaces the service's own. -/
def Refusal.message : Refusal → Option String
  | .insufficientStock _   => some "สต็อกไม่พอ"
  | .overpayment _ _ _     =>
      some "จำนวนเงินเกินยอดค้างของช่าง กรุณาตรวจจำนวนเงินแล้วลองใหม่"
  | .returnPriceMismatch _ =>
      some "ราคาคืนไม่ตรงกับราคาที่ขายจริง กรุณาค้นหาบิลแล้วทำรายการคืนใหม่อีกครั้ง"
  | .clientIdReused _ _    => some "รหัสรายการซ้ำกับรายการอื่น กรุณาตรวจสอบ"
  | .voidNeedsOnline _     => some "บิลออนไลน์สามารถยกเลิกได้เมื่อเชื่อมต่ออินเทอร์เน็ตเท่านั้น"
  | .receiptNoConflict _   => some "เลขที่ใบเสร็จซ้ำ กรุณาทำรายการใหม่"
  | .other _               => none

inductive SyncStatus where
  | applied (response : Reply)
  | rejected (refusal : Refusal)
  | retry

structure SyncOpResult where
  opId : Nat
  status : SyncStatus

def SyncStatus.isRetry : SyncStatus → Bool
  | .retry => true
  | _      => false

/-- The response of an applied operation. -/
def SyncOpResult.response (r : SyncOpResult) : Option Reply :=
  match r.status with
  | .applied response => some response
  | _                 => none

/-- An error that is no `HttpException` below 500. -/
def ServerError.transient : ServerError → Bool
  | .uniqueViolation | .vanished | .keyNotDone | .movementDuplicate | .stockUnderflow | .outOfRange => true
  | _ => false

/-- An operation of a batch as it was sent. -/
structure SyncOpDto where
  opId : Nat
  idempotencyKey : Nat
  requestHash : Nat
  payload : SyncOp

/-- `tryParseOpPayload` -/
def SyncOp.parsed (op : SyncOp) : Option SyncOp :=
  match op.parse with
  | .ok _    => some op
  | .error _ => none

def refusalOf (op : SyncOp) : ServerError → Refusal
  | .insufficientStock lines =>
      .insufficientStock (lines.head?.map fun l => (l.productId, l.requested, l.stock))
  | .creditPaymentExceedsBalance creditBalance amount _ =>
      .overpayment (op.parsed.bind fun
        | .creditPaymentCreate m _ => some m
        | _                        => none) creditBalance amount
  | .returnPriceMismatch lines =>
      .returnPriceMismatch (lines.head?.map fun l => (l.productId, l.soldAt.head?, l.price))
  | .saleIdReused => .clientIdReused op.type op.clientId
  | .clientIdReused _ => .clientIdReused op.type op.clientId
  | .voidNeedsOnline =>
      .voidNeedsOnline (op.parsed.bind fun
        | .saleVoidOffline x _ => some x
        | _                    => none)
  | .receiptNoConflict => .receiptNoConflict (op.parsed.bind SyncOp.docNo)
  | e => .other e

def mapOpError (dto : SyncOpDto) (e : ServerError) : SyncOpResult :=
  if e.transient then ⟨dto.opId, .retry⟩ else ⟨dto.opId, .rejected (refusalOf dto.payload e)⟩

/-! ## The loop -/

/-- `updateUnsyncedOps`, once the loop is through: to come, under way, or filed. -/
inductive Report where
  | pending | underWay | filed
  deriving DecidableEq, Repr

/-- The loop among the other transactions of the server. -/
structure PushState (T : Type) where
  sys : System T
  todo : List SyncOpDto
  running : Option SyncOpDto
  stopAtRetry : Bool
  results : List SyncOpResult
  /-- which of the committed transactions are operations of this batch -/
  own : List Bool
  report : Report

def PushState.init {T : Type} (S : System T) (ops : List SyncOpDto) : PushState T :=
  { sys := S
    todo := ops
    running := none
    stopAtRetry := false
    results := []
    own := S.log.map fun _ => false
    report := .pending }

/-- An operation has its result. -/
def PushState.push {T : Type} (p : PushState T) (r : SyncOpResult) : PushState T :=
  { p with
    running := none
    results := p.results ++ [r]
    stopAtRetry := p.stopAtRetry || r.status.isRetry }

section
variable {T : Type} [DecidableEq T] (me : T) (actor : Actor) (outboxRemaining : Nat)

/-- One step: a statement of some transaction, or a turn of the loop, whose transactions are called
`me`. -/
inductive PushStep : PushState T → PushState T → Prop where
  /-- a statement that neither starts nor ends a transaction of the loop -/
  | moves {p S} : Step prog p.sys S → (S.live me).isSome = (p.sys.live me).isSome →
      PushStep p { p with
        sys := S
        own := p.own ++ List.replicate (S.log.length - p.sys.log.length) false }
  | begins {p dto rest} (env : Env) : p.running = none → p.stopAtRetry = false →
      p.todo = dto :: rest → p.sys.live me = none →
      PushStep p { p with
        sys := p.sys.put me (some ⟨.push env actor dto.idempotencyKey dto.requestHash dto.payload,
          prog (.push env actor dto.idempotencyKey dto.requestHash dto.payload), id, []⟩)
        running := some dto
        todo := rest }
  /-- an earlier operation was answered `retry`: this one is not processed -/
  | skips {p dto rest} : p.running = none → p.stopAtRetry = true → p.todo = dto :: rest →
      PushStep p ({ p with todo := rest }.push ⟨dto.opId, .retry⟩)
  | commits {p dto op a u H} : p.running = some dto → p.sys.live me = some ⟨op, .done a, u, H⟩ →
      PushStep p ({ p with
        sys := { p.sys.put me none with db := u p.sys.db, log := p.sys.log ++ [(op, a)] }
        own := p.own ++ [true] }.push ⟨dto.opId, .applied a⟩)
  /-- the program ends in an error -/
  | refuses {p dto op e u H} : p.running = some dto →
      p.sys.live me = some ⟨op, .fail e, u, H⟩ →
      PushStep p ({ p with sys := p.sys.put me none }.push (mapOpError dto e))
  /-- `COMMIT` goes through, but the answer to it does not come back -/
  | loses {p dto op a u H} : p.running = some dto → p.sys.live me = some ⟨op, .done a, u, H⟩ →
      PushStep p ({ p with
        sys := { p.sys.put me none with db := u p.sys.db, log := p.sys.log ++ [(op, a)] }
        own := p.own ++ [true] }.push ⟨dto.opId, .retry⟩)
  /-- a statement, or the commit, fails: a lock or statement timeout, a serialization failure, a lost
  connection, the ceiling on a transaction's age -/
  | breaks {p dto x} : p.running = some dto → p.sys.live me = some x →
      PushStep p ({ p with sys := p.sys.put me none }.push ⟨dto.opId, .retry⟩)
  /-- the loop is through: the till's own count of what it still holds is stored … -/
  | reports {p} : p.running = none → p.todo = [] → p.report = .pending → p.sys.live me = none →
      PushStep p { p with
        sys := p.sys.put me (some ⟨.reportUnsynced actor.deviceId outboxRemaining,
          prog (.reportUnsynced actor.deviceId outboxRemaining), id, []⟩)
        report := .underWay }
  /-- … or not, and the answer is sent -/
  | answers {p S} : p.report = .underWay → Step prog p.sys S → S.live me = none →
      PushStep p { p with
        sys := S
        own := p.own ++ List.replicate (S.log.length - p.sys.log.length) false
        report := .filed }

abbrev PushRuns : PushState T → PushState T → Prop :=
  Relation.ReflTransGen (PushStep me actor outboxRemaining)

end

/-! ## What the loop keeps -/

def SyncStatus.isApplied : SyncStatus → Bool
  | .applied _ => true
  | _          => false

/-- The committed transactions of the batch, oldest first. -/
def PushState.committed {T : Type} (p : PushState T) : List (Op × Reply) :=
  ((p.sys.log.zip p.own).filter fun e => e.2).map Prod.fst

/-- The transaction an applied operation stands for, and its answer. -/
structure AppliedAs (actor : Actor) (x : SyncOpDto × SyncOpResult) (c : Op × Reply) : Prop where
  op : ∃ env, c.1 = .push env actor x.1.idempotencyKey x.1.requestHash x.1.payload
  answer : x.2.status = .applied c.2

/-- The transaction of the first operation that was answered `retry`. -/
def Unheard (actor : Actor) (xs : List (SyncOpDto × SyncOpResult)) (c : Op × Reply) : Prop :=
  ∃ x, xs.find? (·.2.status.isRetry) = some x ∧
    ∃ env, c.1 = .push env actor x.1.idempotencyKey x.1.requestHash x.1.payload

/-- The operations of `done` that were applied are those that are committed, in their order, and after
them at most one that nobody heard of. -/
structure Settled {T : Type} (actor : Actor) (done : List SyncOpDto) (p : PushState T) : Prop where
  ids : p.results.map (·.opId) = done.map (·.opId)
  applied : ∃ (heard : List (Op × Reply)) (unheard : Option (Op × Reply)),
    p.committed = heard ++ unheard.toList ∧
      List.Forall₂ (AppliedAs actor) ((done.zip p.results).filter fun x => x.2.status.isApplied) heard ∧
        ∀ c ∈ unheard, Unheard actor (done.zip p.results) c

section
variable {T : Type} {actor : Actor} {done : List SyncOpDto} {p : PushState T}

theorem Settled.length (h : Settled actor done p) : done.length = p.results.length := by
  have := congrArg List.length h.ids
  rw [List.length_map, List.length_map] at this
  exact this.symm

/-- Transactions of others do not count. -/
theorem committed_others {S : System T} {log : List (Op × Reply)}
    (hflags : p.own.length = p.sys.log.length) (hlog : S.log = p.sys.log ++ log) :
    PushState.committed { p with
      sys := S
      own := p.own ++ List.replicate (S.log.length - p.sys.log.length) false } = p.committed := by
  have hzip : (log.zip (List.replicate log.length false)).filter (fun e => e.2) = [] := by
    apply List.filter_eq_nil_iff.mpr
    intro e he
    have := List.eq_of_mem_replicate (List.of_mem_zip he).2
    rw [this]
    exact Bool.false_ne_true
  simp only [PushState.committed, hlog, List.length_append, Nat.add_sub_cancel_left]
  rw [List.zip_append hflags.symm, List.filter_append, hzip, List.append_nil]

/-- A transaction of the batch does. -/
theorem committed_own {S : System T} {c : Op × Reply} {r : SyncOpResult}
    (hflags : p.own.length = p.sys.log.length) (hlog : S.log = p.sys.log ++ [c]) :
    ({ p with sys := S, own := p.own ++ [true] }.push r).committed = p.committed ++ [c] := by
  simp only [PushState.committed, PushState.push, hlog]
  rw [List.zip_append hflags.symm]
  simp

/-- Nobody is unheard of while nothing was answered `retry`. -/
theorem Settled.heard (h : Settled actor done p) (hgo : p.results.any (·.status.isRetry) = false) :
    List.Forall₂ (AppliedAs actor) ((done.zip p.results).filter fun x => x.2.status.isApplied)
      p.committed := by
  obtain ⟨heard, unheard, hcommitted, happlied, hunheard⟩ := h.applied
  cases unheard with
  | none =>
      rw [hcommitted, Option.toList_none, List.append_nil]
      exact happlied
  | some c =>
      obtain ⟨x, hx, -⟩ := hunheard c rfl
      have hmem := (List.of_mem_zip (List.mem_of_find?_eq_some hx)).2
      have hretry := List.find?_some hx
      rw [List.any_eq_false] at hgo
      exact absurd hretry (hgo _ hmem)

/-- An operation that was not applied leaves nothing in the log. -/
theorem Settled.refused {p' : PushState T} {dto : SyncOpDto} {r : SyncOpResult}
    (h : Settled actor done p) (hresults : p'.results = p.results ++ [r])
    (hcommitted : p'.committed = p.committed) (hid : r.opId = dto.opId)
    (hr : r.status.isApplied = false) : Settled actor (done ++ [dto]) p' where
  ids := by simp [hresults, h.ids, hid]
  applied := by
    obtain ⟨heard, unheard, hlog, happlied, hunheard⟩ := h.applied
    refine ⟨heard, unheard, hcommitted.trans hlog, ?_, fun c hc => ?_⟩
    · rw [hresults, List.zip_append h.length, List.filter_append]
      have hnone : ([dto].zip [r]).filter (fun x => x.2.status.isApplied) = [] := by simp [hr]
      rw [hnone, List.append_nil]
      exact happlied
    · obtain ⟨x, hx, hop⟩ := hunheard c hc
      refine ⟨x, ?_, hop⟩
      rw [hresults, List.zip_append h.length, List.find?_append, hx]
      rfl

/-- One that was applied leaves its transaction, with its answer. -/
theorem Settled.applies {p' : PushState T} {dto : SyncOpDto} {r : SyncOpResult} {c : Op × Reply}
    (h : Settled actor done p) (hgo : p.results.any (·.status.isRetry) = false)
    (hresults : p'.results = p.results ++ [r]) (hcommitted : p'.committed = p.committed ++ [c])
    (hid : r.opId = dto.opId) (hr : AppliedAs actor (dto, r) c) : Settled actor (done ++ [dto]) p' where
  ids := by simp [hresults, h.ids, hid]
  applied := by
    refine ⟨p'.committed, none, (List.append_nil _).symm, ?_, fun c hc => by cases hc⟩
    rw [hresults, hcommitted, List.zip_append h.length, List.filter_append]
    have hone : ([dto].zip [r]).filter (fun x => x.2.status.isApplied) = [(dto, r)] := by
      have hans : r.status = .applied c.2 := hr.answer
      simp [hans, SyncStatus.isApplied]
    rw [hone]
    exact List.rel_append (h.heard hgo) (.cons hr .nil)

/-- One whose answer was lost leaves its transaction, and is the first to be sent again. -/
theorem Settled.loses {p' : PushState T} {dto : SyncOpDto} {r : SyncOpResult} {c : Op × Reply}
    (h : Settled actor done p) (hgo : p.results.any (·.status.isRetry) = false)
    (hresults : p'.results = p.results ++ [r]) (hcommitted : p'.committed = p.committed ++ [c])
    (hid : r.opId = dto.opId) (hr : r.status = .retry)
    (hop : ∃ env, c.1 = .push env actor dto.idempotencyKey dto.requestHash dto.payload) :
    Settled actor (done ++ [dto]) p' where
  ids := by simp [hresults, h.ids, hid]
  applied := by
    refine ⟨p.committed, some c, hcommitted, ?_, ?_⟩
    · rw [hresults, List.zip_append h.length, List.filter_append]
      have hnone : ([dto].zip [r]).filter (fun x => x.2.status.isApplied) = [] := by
        simp [hr, SyncStatus.isApplied]
      rw [hnone, List.append_nil]
      exact h.heard hgo
    · rintro c' hc'
      obtain rfl := Option.some.inj hc'
      refine ⟨(dto, r), ?_, hop⟩
      have hnone : (done.zip p.results).find? (·.2.status.isRetry) = none := by
        rw [List.find?_eq_none]
        intro x hx
        exact List.any_eq_false.mp hgo _ (List.of_mem_zip hx).2
      rw [hresults, List.zip_append h.length, List.find?_append, hnone]
      simp [hr, SyncStatus.isRetry]

end

/-- Nothing but `retry` follows a `retry`. -/
def Stops (results : List SyncOpResult) : Prop :=
  results.Pairwise fun r r' => r.status.isRetry = true → r'.status.isRetry = true

/-- The invariant of the loop. -/
structure PushInv {T : Type} [DecidableEq T] (me : T) (actor : Actor) (s₀ : Db)
    (ops : List SyncOpDto) (p : PushState T) : Prop where
  reachable : Reachable prog s₀ p.sys
  flags : p.own.length = p.sys.log.length
  order : ∃ done, ops = done ++ p.running.toList ++ p.todo ∧ Settled actor done p
  stopped : p.stopAtRetry = p.results.any (·.status.isRetry)
  stops : Stops p.results
  /-- no operation is under way after a `retry` … -/
  idle : p.stopAtRetry = true → p.running = none
  /-- … and the one under way is the transaction called `me` -/
  mine : ∀ dto, p.running = some dto → ∃ x env, p.sys.live me = some x ∧
    x.op = .push env actor dto.idempotencyKey dto.requestHash dto.payload
  free : p.running = none → p.report ≠ .underWay → p.sys.live me = none
  through : p.report ≠ .pending → p.running = none ∧ p.todo = []

section
variable {T : Type} [DecidableEq T] {me : T} {actor : Actor} {outboxRemaining : Nat} {s₀ : Db}
  {ops : List SyncOpDto} {S : System T} {p p' : PushState T}

/-- Before its first operation the batch has answered none and changed nothing. -/
theorem PushInv.init (hS : Reachable prog s₀ S) (hme : S.live me = none) :
    PushInv me actor s₀ ops (PushState.init S ops) where
  reachable := hS
  flags := List.length_map _
  order := by
    have hnone : (PushState.init S ops).committed = [] := by
      simp only [PushState.committed, PushState.init]
      rw [List.map_eq_nil_iff, List.filter_eq_nil_iff]
      intro e he
      obtain ⟨x, -, hx⟩ := List.mem_map.mp (List.of_mem_zip he).2
      rw [← hx]
      exact Bool.false_ne_true
    exact ⟨[], rfl, rfl, [], none, hnone, .nil, fun c hc => by cases hc⟩
  stopped := rfl
  stops := List.Pairwise.nil
  idle h := by cases h
  mine dto h := by cases h
  free _ _ := hme
  through h := absurd rfl h

/-- A statement that leaves the loop where it is. -/
private theorem PushInv.moves (h : PushInv me actor s₀ ops p) {S : System T}
    (hstep : Step prog p.sys S) {report : Report}
    (hmine : ∀ dto, p.running = some dto → ∃ x env, S.live me = some x ∧
      x.op = .push env actor dto.idempotencyKey dto.requestHash dto.payload)
    (hfree : p.running = none → report ≠ .underWay → S.live me = none)
    (hthrough : report ≠ .pending → p.running = none ∧ p.todo = []) :
    PushInv me actor s₀ ops { p with
      sys := S
      own := p.own ++ List.replicate (S.log.length - p.sys.log.length) false
      report := report } := by
  obtain ⟨log, hlog⟩ := hstep.log
  obtain ⟨done, hops, hsettled⟩ := h.order
  have hcommitted := committed_others h.flags hlog
  constructor
  · exact h.reachable.step hstep
  · show (p.own ++ _).length = S.log.length
    rw [List.length_append, List.length_replicate, h.flags, hlog, List.length_append]
    omega
  · exact ⟨done, hops, hsettled.ids, hcommitted ▸ hsettled.applied⟩
  · exact h.stopped
  · exact h.stops
  · exact h.idle
  · exact hmine
  · exact hfree
  · exact hthrough

/-- The next operation has its result. -/
private theorem PushInv.answered (h : PushInv me actor s₀ ops p) (dto : SyncOpDto) {S : System T}
    {own : List Bool} {todo : List SyncOpDto} {r : SyncOpResult}
    (hnext : p.running.toList ++ p.todo = dto :: todo) (hreach : Reachable prog s₀ S)
    (hflags : own.length = S.log.length)
    (hsettled : ∀ done, Settled actor done p → Settled actor (done ++ [dto])
      (PushState.push { p with sys := S, own := own, todo := todo } r))
    (hstops : p.stopAtRetry = true → r.status.isRetry = true) (hfree : S.live me = none) :
    PushInv me actor s₀ ops (PushState.push { p with sys := S, own := own, todo := todo } r) := by
  obtain ⟨done, hops, hdone⟩ := h.order
  have hpending : p.report = .pending := by
    by_contra hrep
    obtain ⟨hrun, htodo⟩ := h.through hrep
    rw [hrun, htodo] at hnext
    cases hnext
  constructor
  · exact hreach
  · exact hflags
  · refine ⟨done ++ [dto], ?_, hsettled done hdone⟩
    rw [hops, List.append_assoc, hnext]
    simp [PushState.push]
  · show (p.stopAtRetry || r.status.isRetry) = (p.results ++ [r]).any (·.status.isRetry)
    rw [List.any_append, ← h.stopped]
    simp
  · apply List.pairwise_append.mpr
    refine ⟨h.stops, List.pairwise_singleton _ _, fun r₁ hr₁ r₂ hr₂ hretry => ?_⟩
    obtain rfl := List.mem_singleton.mp hr₂
    apply hstops
    rw [h.stopped]
    exact List.any_eq_true.mpr ⟨r₁, hr₁, hretry⟩
  · exact fun _ => rfl
  · intro dto' hdto'
    cases hdto'
  · exact fun _ _ => hfree
  · exact fun hrep => absurd hpending hrep

/-- The operation under way was not stopped before it began. -/
private theorem PushInv.going (h : PushInv me actor s₀ ops p) {dto : SyncOpDto}
    (hrun : p.running = some dto) : ¬p.stopAtRetry = true := by
  intro hstop
  rw [h.idle hstop] at hrun
  cases hrun

private theorem PushInv.unstopped (h : PushInv me actor s₀ ops p) {dto : SyncOpDto}
    (hrun : p.running = some dto) : p.results.any (·.status.isRetry) = false := by
  rw [← h.stopped]
  exact Bool.eq_false_of_not_eq_true (h.going hrun)

/-- One step of the loop, or of anything else on the server, keeps the invariant. -/
theorem PushInv.step (h : PushInv me actor s₀ ops p)
    (hstep : PushStep me actor outboxRemaining p p') : PushInv me actor s₀ ops p' := by
  cases hstep with
  | @moves S hstep hsome =>
      -- whoever's statement it was, the operation under way is still the same
      have hmine : ∀ dto, p.running = some dto → ∃ x env, S.live me = some x ∧
          x.op = .push env actor dto.idempotencyKey dto.requestHash dto.payload := by
        intro dto hdto
        obtain ⟨x, env, hx, hop⟩ := h.mine dto hdto
        rw [hx] at hsome
        obtain ⟨y, hy, hyop⟩ := hstep.same_op hx hsome
        exact ⟨y, env, hy, hyop.trans hop⟩
      refine h.moves hstep hmine (fun hrun hrep => ?_) h.through
      rw [h.free hrun hrep] at hsome
      simpa using hsome
  | @begins dto rest env hrun hgo htodo hfree =>
      obtain ⟨done, hops, hdone⟩ := h.order
      constructor
      · exact h.reachable.step (.start _ hfree)
      · exact h.flags
      · refine ⟨done, ?_, hdone.ids, hdone.applied⟩
        rw [hops, hrun, htodo]
        simp
      · exact h.stopped
      · exact h.stops
      · exact fun hstop => absurd hstop (by rw [hgo]; exact Bool.false_ne_true)
      · intro dto' hdto'
        obtain rfl : dto = dto' := Option.some.inj hdto'
        exact ⟨_, env, Sys.put_live_self .., rfl⟩
      · intro hrun'
        cases hrun'
      · intro hrep
        have := (h.through hrep).2
        rw [htodo] at this
        cases this
  | @skips dto rest hrun hstop htodo =>
      apply h.answered dto
      · rw [hrun, htodo]
        rfl
      · exact h.reachable
      · exact h.flags
      · exact fun done hdone => hdone.refused rfl rfl rfl rfl
      · exact fun _ => rfl
      · -- the answer is not on its way while operations are left
        apply h.free hrun
        intro hrep
        have := (h.through (by rw [hrep]; decide)).2
        rw [htodo] at this
        cases this
  | @commits dto op a u H hrun hl =>
      obtain ⟨x, env, hx, hop⟩ := h.mine dto hrun
      obtain rfl : x = ⟨op, .done a, u, H⟩ := Option.some.inj (hx.symm.trans hl)
      apply h.answered dto
      · rw [hrun]
        rfl
      · exact h.reachable.step (.commit hl)
      · simp [h.flags]
      · -- nothing was answered `retry` so far, so that all that is committed was heard of
        intro done hdone
        exact hdone.applies (h.unstopped hrun) rfl (committed_own h.flags rfl) rfl ⟨⟨env, hop⟩, rfl⟩
      · exact fun hstop => absurd hstop (h.going hrun)
      · exact Sys.put_live_self ..
  | @loses dto op a u H hrun hl =>
      obtain ⟨x, env, hx, hop⟩ := h.mine dto hrun
      obtain rfl : x = ⟨op, .done a, u, H⟩ := Option.some.inj (hx.symm.trans hl)
      apply h.answered dto
      · rw [hrun]
        rfl
      · exact h.reachable.step (.commit hl)
      · simp [h.flags]
      · intro done hdone
        exact hdone.loses (h.unstopped hrun) rfl (committed_own h.flags rfl) rfl rfl ⟨env, hop⟩
      · exact fun hstop => absurd hstop (h.going hrun)
      · exact Sys.put_live_self ..
  | @refuses dto op e u H hrun hl =>
      apply h.answered dto
      · rw [hrun]
        rfl
      · exact h.reachable.step .rollback
      · exact h.flags
      · -- rejected or to be retried, it is not applied
        intro done hdone
        refine hdone.refused rfl rfl ?_ ?_
        · unfold mapOpError
          split <;> rfl
        · unfold mapOpError
          split <;> rfl
      · exact fun hstop => absurd hstop (h.going hrun)
      · exact Sys.put_live_self ..
  | @breaks dto x hrun hl =>
      apply h.answered dto
      · rw [hrun]
        rfl
      · exact h.reachable.step .rollback
      · exact h.flags
      · exact fun done hdone => hdone.refused rfl rfl rfl rfl
      · exact fun hstop => absurd hstop (h.going hrun)
      · exact Sys.put_live_self ..
  | reports hrun htodo hrep hfree =>
      obtain ⟨done, hops, hdone⟩ := h.order
      constructor
      · exact h.reachable.step (.start _ hfree)
      · exact h.flags
      · exact ⟨done, hops, hdone.ids, hdone.applied⟩
      · exact h.stopped
      · exact h.stops
      · exact h.idle
      · intro dto hdto
        rw [hrun] at hdto
        cases hdto
      · exact fun _ hrep' => absurd rfl hrep'
      · exact fun _ => ⟨hrun, htodo⟩
  | @answers S hrep hstep hfree =>
      have hover := h.through (by rw [hrep]; decide)
      refine h.moves hstep (fun dto hdto => ?_) (fun _ _ => hfree) fun _ => hover
      rw [hover.1] at hdto
      cases hdto

theorem PushRuns.inv (h : PushInv me actor s₀ ops p)
    (hruns : PushRuns me actor outboxRemaining p p') : PushInv me actor s₀ ops p' := by
  induction hruns with
  | refl => exact h
  | tail _ hstep ih => exact ih.step hstep

/-! ## What happens in between -/

/-- From `p` to `p'` the transactions `log` were committed, those marked in `own` by the loop, and the
results `rs` were given. -/
structure Grows (p p' : PushState T) (log : List (Op × Reply)) (own : List Bool)
    (rs : List SyncOpResult) : Prop where
  commits : p'.sys.log = p.sys.log ++ log
  flags : p'.own = p.own ++ own
  length_eq : own.length = log.length
  answers : p'.results = p.results ++ rs
  untouched : log = [] → p'.sys.db = p.sys.db

omit [DecidableEq T] in
theorem Grows.refl (p : PushState T) : Grows p p [] [] [] :=
  ⟨(List.append_nil _).symm, (List.append_nil _).symm, rfl, (List.append_nil _).symm, fun _ => rfl⟩

omit [DecidableEq T] in
theorem Grows.trans {p₁ p₂ p₃ : PushState T} {log log' : List (Op × Reply)} {own own' : List Bool}
    {rs rs' : List SyncOpResult} (h : Grows p₁ p₂ log own rs) (h' : Grows p₂ p₃ log' own' rs') :
    Grows p₁ p₃ (log ++ log') (own ++ own') (rs ++ rs') where
  commits := by rw [h'.commits, h.commits, List.append_assoc]
  flags := by rw [h'.flags, h.flags, List.append_assoc]
  length_eq := by rw [List.length_append, List.length_append, h.length_eq, h'.length_eq]
  answers := by rw [h'.answers, h.answers, List.append_assoc]
  untouched hnil := by
    obtain ⟨hlog, hlog'⟩ := List.append_eq_nil_iff.mp hnil
    rw [h'.untouched hlog', h.untouched hlog]

omit [DecidableEq T] in
/-- Where only the loop committed, its transactions are all that came. -/
theorem Grows.committed {log : List (Op × Reply)} {own : List Bool} {rs : List SyncOpResult}
    (h : Grows p p' log own rs) (hflags : p.own.length = p.sys.log.length)
    (hothers : p'.own.count false = p.own.count false) : p'.committed = p.committed ++ log := by
  rw [h.flags, List.count_append] at hothers
  have hmine : ∀ b ∈ own, b = true := by
    intro b hb
    have hnone : own.count false = 0 := by omega
    cases b with
    | true => rfl
    | false => exact absurd hb (List.count_eq_zero.mp hnone)
  have hzip : (log.zip own).filter (fun e => e.2) = log.zip own :=
    List.filter_eq_self.mpr fun e he => hmine _ (List.of_mem_zip he).2
  simp only [PushState.committed, h.commits, h.flags]
  rw [List.zip_append hflags.symm, List.filter_append, List.map_append, hzip,
    List.map_fst_zip (Nat.le_of_eq h.length_eq.symm)]

/-- A statement of somebody's transaction. -/
private theorem grows_of_step {S : System T} (hstep : Step prog p.sys S) (report : Report) :
    ∃ log own rs, Grows p { p with
      sys := S
      own := p.own ++ List.replicate (S.log.length - p.sys.log.length) false
      report := report } log own rs := by
  obtain ⟨log, hlog⟩ := hstep.log
  refine ⟨log, List.replicate log.length false, [], hlog, ?_, List.length_replicate,
    (List.append_nil _).symm, fun hnil => hstep.quiet ?_⟩
  · rw [hlog, List.length_append, Nat.add_sub_cancel_left]
  · rw [hlog, hnil, List.append_nil]

/-- A step of the batch only adds to the log of commits and to the answers, and a step that commits nothing
leaves the database. -/
theorem PushStep.grows (hstep : PushStep me actor outboxRemaining p p') :
    ∃ log own rs, Grows p p' log own rs := by
  have hfail : ∀ (q : PushState T) (r : SyncOpResult), q.sys.log = p.sys.log →
      q.sys.db = p.sys.db → q.own = p.own → q.results = p.results → Grows p (q.push r) [] [] [r] := by
    intro q r hlog hdb hown hresults
    refine ⟨?_, ?_, rfl, ?_, fun _ => hdb⟩
    · exact hlog.trans (List.append_nil _).symm
    · exact hown.trans (List.append_nil _).symm
    · exact congrArg (· ++ [r]) hresults
  cases hstep with
  | moves hstep hsome => exact grows_of_step hstep p.report
  | begins env hrun hgo htodo hfree =>
      exact ⟨[], [], [], (List.append_nil _).symm, (List.append_nil _).symm, rfl,
        (List.append_nil _).symm, fun _ => rfl⟩
  | skips hrun hstop htodo => exact ⟨_, _, _, hfail _ _ rfl rfl rfl rfl⟩
  | commits hrun hl => exact ⟨_, [true], [_], rfl, rfl, rfl, rfl, fun hnil => absurd hnil (by simp)⟩
  | refuses hrun hl => exact ⟨_, _, _, hfail _ _ rfl rfl rfl rfl⟩
  | loses hrun hl => exact ⟨_, [true], [_], rfl, rfl, rfl, rfl, fun hnil => absurd hnil (by simp)⟩
  | breaks hrun hl => exact ⟨_, _, _, hfail _ _ rfl rfl rfl rfl⟩
  | reports hrun htodo hrep hfree =>
      exact ⟨[], [], [], (List.append_nil _).symm, (List.append_nil _).symm, rfl,
        (List.append_nil _).symm, fun _ => rfl⟩
  | answers hrep hstep hfree => exact grows_of_step hstep .filed

theorem PushRuns.grows (h : PushRuns me actor outboxRemaining p p') :
    ∃ log own rs, Grows p p' log own rs := by
  induction h with
  | refl => exact ⟨_, _, _, .refl p⟩
  | tail _ hstep ih =>
      obtain ⟨log, own, rs, h⟩ := ih
      obtain ⟨log', own', rs', h'⟩ := hstep.grows
      exact ⟨_, _, _, h.trans h'⟩

/-- After a `retry` the loop commits nothing. -/
theorem PushStep.stopped (h : PushInv me actor s₀ ops p) (hstop : p.stopAtRetry = true)
    (hstep : PushStep me actor outboxRemaining p p') :
    p'.stopAtRetry = true ∧ p'.committed = p.committed := by
  cases hstep with
  | moves hstep hsome =>
      obtain ⟨log, hlog⟩ := hstep.log
      exact ⟨hstop, committed_others h.flags hlog⟩
  | begins env hrun hgo htodo hfree =>
      rw [hstop] at hgo
      cases hgo
  | skips hrun hstop' htodo => exact ⟨Bool.or_true _, rfl⟩
  | commits hrun hl => exact absurd hstop (h.going hrun)
  | refuses hrun hl => exact absurd hstop (h.going hrun)
  | loses hrun hl => exact absurd hstop (h.going hrun)
  | breaks hrun hl => exact absurd hstop (h.going hrun)
  | reports hrun htodo hrep hfree => exact ⟨hstop, rfl⟩
  | answers hrep hstep hfree =>
      obtain ⟨log, hlog⟩ := hstep.log
      exact ⟨hstop, committed_others h.flags hlog⟩

theorem PushRuns.stopped (h : PushInv me actor s₀ ops p) (hstop : p.stopAtRetry = true)
    (hruns : PushRuns me actor outboxRemaining p p') : p'.committed = p.committed := by
  suffices p'.stopAtRetry = true ∧ p'.committed = p.committed from this.2
  induction hruns with
  | refl => exact ⟨hstop, rfl⟩
  | tail hruns hstep ih =>
      obtain ⟨hstop', hcommitted⟩ := hstep.stopped (PushRuns.inv h hruns) ih.1
      exact ⟨hstop', hcommitted.trans ih.2⟩

omit [DecidableEq T] in
theorem Settled.length_applied {done : List SyncOpDto} (h : Settled actor done p) :
    ((done.zip p.results).filter fun x => x.2.status.isApplied).length =
      p.results.countP (·.status.isApplied) := by
  have hresults : (done.zip p.results).map Prod.snd = p.results :=
    List.map_snd_zip (Nat.le_of_eq h.length.symm)
  rw [← List.countP_eq_length_filter, ← hresults, List.countP_map, hresults]
  rfl

/-- The operations that have no result yet do not matter. -/
theorem PushInv.settled (h : PushInv me actor s₀ ops p) : ∃ done, Settled actor done p ∧
    ops = done ++ (p.running.toList ++ p.todo) ∧ ops.zip p.results = done.zip p.results := by
  obtain ⟨done, hops, hdone⟩ := h.order
  rw [List.append_assoc] at hops
  refine ⟨done, hdone, hops, ?_⟩
  calc ops.zip p.results
      = (done ++ (p.running.toList ++ p.todo)).zip (p.results ++ []) := by
        rw [← hops, List.append_nil]
    _ = done.zip p.results ++ (p.running.toList ++ p.todo).zip [] := List.zip_append hdone.length
    _ = done.zip p.results := by rw [List.zip_nil_right, List.append_nil]

/-- With no other transaction committed and no operation applied, the rows are as they were, but for
one whose answer was lost. -/
theorem PushRuns.untouched (hinv : PushInv me actor s₀ ops p)
    (h : PushRuns me actor outboxRemaining p p') (hothers : p'.own.count false = p.own.count false)
    (hnone : ∀ r ∈ p'.results.drop p.results.length, r.status.isApplied = false) :
    p'.sys.db = p.sys.db ∨ ∃ c, p'.committed = p.committed ++ [c] ∧
      Unheard actor (ops.zip p'.results) c ∧ ∀ r ∈ p.results, r.status.isRetry = false := by
  obtain ⟨log, own, rs, hgrows⟩ := PushRuns.grows h
  have hlog := hgrows.committed hinv.flags hothers
  obtain ⟨done, hdone, -, -⟩ := hinv.settled
  obtain ⟨done', hdone', -, hzip'⟩ := (PushRuns.inv hinv h).settled
  obtain ⟨heard, unheard, hcommitted, happlied, -⟩ := hdone.applied
  obtain ⟨heard', unheard', hcommitted', happlied', hlost⟩ := hdone'.applied
  -- as many were applied as before, so that what came was not heard of
  have hcount : rs.countP (·.status.isApplied) = 0 := by
    rw [hgrows.answers, List.drop_left] at hnone
    rw [List.countP_eq_zero]
    intro r hr
    rw [hnone r hr]
    exact Bool.false_ne_true
  have hlength : heard.length = heard'.length := by
    rw [← happlied.length_eq, ← happlied'.length_eq, hdone.length_applied, hdone'.length_applied,
      hgrows.answers, List.countP_append, hcount, Nat.add_zero]
  rw [hcommitted, hcommitted', List.append_assoc] at hlog
  obtain ⟨-, hrest⟩ := List.append_inj hlog hlength.symm
  cases unheard' with
  | none => exact .inl (hgrows.untouched (List.append_eq_nil_iff.mp hrest.symm).2)
  | some c =>
      cases unheard with
      | some c₀ =>
          obtain ⟨-, hnil⟩ := List.cons.inj hrest
          exact .inl (hgrows.untouched hnil.symm)
      | none =>
          have hone : p'.committed = p.committed ++ [c] := by
            rw [hcommitted, hcommitted', hlog, List.append_assoc, ← hrest]
            rfl
          refine .inr ⟨c, hone, hzip' ▸ hlost c rfl, fun r hr => ?_⟩
          by_contra hretry
          have hstop : p.stopAtRetry = true := by
            rw [hinv.stopped]
            exact List.any_eq_true.mpr ⟨r, hr, by simpa using hretry⟩
          rw [PushRuns.stopped hinv hstop h] at hone
          simp at hone

/-! ## The loop comes to its end -/

/-- Once every operation has its result, the answer is on its way. -/
theorem finishes_through (hfree : p.sys.live me = none) (hrun : p.running = none)
    (htodo : p.todo = []) (hrep : p.report = .pending) :
    ∃ q, PushRuns me actor outboxRemaining p q ∧ q.report = .filed ∧ q.results = p.results ∧
      q.sys.db = p.sys.db :=
  ⟨_, .tail (.single (.reports hrun htodo hrep hfree))
    (.answers rfl .rollback (Sys.put_live_self ..)), rfl, rfl, rfl⟩

/-- The next operation may fail at its first statement. -/
theorem next_fails {dto : SyncOpDto} {rest : List SyncOpDto} (hrun : p.running = none)
    (hgo : p.stopAtRetry = false) (htodo : p.todo = dto :: rest) (hfree : p.sys.live me = none) :
    ∃ q, PushRuns me actor outboxRemaining p q ∧ q.todo = rest ∧ q.running = none ∧
      q.results = p.results ++ [⟨dto.opId, .retry⟩] ∧ q.report = p.report ∧
        q.sys.db = p.sys.db ∧ q.sys.live me = none := by
  have hbegin : PushStep me actor outboxRemaining p _ :=
    .begins (plainEnv 0 0) hrun hgo htodo hfree
  refine ⟨_, .tail (.single hbegin) (.breaks rfl (Sys.put_live_self ..)), ?_⟩
  exact ⟨rfl, rfl, rfl, rfl, rfl, Sys.put_live_self ..⟩

/-- Between two operations: the next one may fail, or is skipped. -/
private theorem finishes_idle (h : PushInv me actor s₀ ops p) (hrun : p.running = none)
    (hrep : p.report = .pending) :
    ∃ q, PushRuns me actor outboxRemaining p q ∧ q.report = .filed := by
  generalize htodo : p.todo = todo
  induction todo generalizing p with
  | nil =>
      have hfree : p.sys.live me = none := h.free hrun (by rw [hrep]; decide)
      obtain ⟨q, hq, hover, -, -⟩ := finishes_through hfree hrun htodo hrep
      exact ⟨q, hq, hover⟩
  | cons dto rest ih =>
      by_cases hstop : p.stopAtRetry = true
      · have hstep : PushStep me actor outboxRemaining p _ := .skips hrun hstop htodo
        obtain ⟨q, hq, hover⟩ := ih (h.step hstep) rfl hrep rfl
        exact ⟨q, .head hstep hq, hover⟩
      · have hgo := Bool.eq_false_of_not_eq_true hstop
        have hfree : p.sys.live me = none := h.free hrun (by rw [hrep]; decide)
        obtain ⟨q₁, hq₁, htodo₁, hrun₁, -, hrep₁, -, -⟩ := next_fails hrun hgo htodo hfree
        obtain ⟨q, hq, hover⟩ := ih (PushRuns.inv h hq₁) hrun₁ (hrep₁.trans hrep) htodo₁
        exact ⟨q, hq₁.trans hq, hover⟩

/-- **The loop always comes to its answer**: a statement that cannot go on fails, and whatever fails
is answered. -/
theorem PushInv.finishes (h : PushInv me actor s₀ ops p) :
    ∃ q, PushRuns me actor outboxRemaining p q ∧ q.report = .filed := by
  cases hrep : p.report with
  | filed => exact ⟨p, .refl, hrep⟩
  | underWay => exact ⟨_, .single (.answers hrep .rollback (Sys.put_live_self ..)), rfl⟩
  | pending =>
      cases hrun : p.running with
      | none => exact finishes_idle h hrun hrep
      | some dto =>
          obtain ⟨x, env, hx, -⟩ := h.mine dto hrun
          have hbreak : PushStep me actor outboxRemaining p _ := .breaks hrun hx
          obtain ⟨q, hq, hover⟩ := finishes_idle (h.step hbreak) rfl hrep
          exact ⟨q, .head hbreak hq, hover⟩

end

/-! ## The protocol -/

/-- Where the loop stands, `ops` being the batch and `s₀` the rows the server started from. -/
structure PushProtocol {T : Type} [DecidableEq T] (me : T) (actor : Actor) (outboxRemaining : Nat)
    (s₀ : Db) (ops : List SyncOpDto) (p : PushState T) : Prop where
  /-- the results so far are those of the first operations, in the order of the request … -/
  order : p.results.map (·.opId) = (ops.take p.results.length).map (·.opId)
  /-- … and once the answer is sent, of all of them; it always can be -/
  complete : p.report = .filed → p.results.map (·.opId) = ops.map (·.opId)
  finishes : ∃ q, PushRuns me actor outboxRemaining p q ∧ q.report = .filed
  /-- nothing but `retry` follows a `retry`, and no operation is under way after one -/
  stops : Stops p.results
  idle : ∀ r ∈ p.results, r.status.isRetry = true → p.running = none
  /-- the committed transactions of the batch are those of its applied operations and after them at
  most one, of the first operation that was answered `retry`, whatever else is under way; and the rows
  are what the committed transactions leave when they run alone -/
  applied : ∃ (heard : List (Op × Reply)) (unheard : Option (Op × Reply)),
    p.committed = heard ++ unheard.toList ∧
      List.Forall₂ (AppliedAs actor) ((ops.zip p.results).filter fun x => x.2.status.isApplied) heard ∧
        ∀ c ∈ unheard, Unheard actor (ops.zip p.results) c
  serial : Serial prog s₀ p.sys.log p.sys.db
  /-- from here to a state where no further operation was applied, and where no one else committed,
  nothing changes, but for that one -/
  untouched : ∀ q, PushRuns me actor outboxRemaining p q →
    q.own.count false = p.own.count false →
      (∀ r ∈ q.results.drop p.results.length, r.status.isApplied = false) → q.sys.db = p.sys.db ∨
        ∃ c, q.committed = p.committed ++ [c] ∧ Unheard actor (ops.zip q.results) c ∧
          ∀ r ∈ p.results, r.status.isRetry = false

/-- **Main theorem.** A batch is answered by the protocol, whatever its operations come to and
whatever else the server is doing. -/
theorem push_batch_protocol {T : Type} [DecidableEq T] {me : T} {actor : Actor}
    {outboxRemaining : Nat} {s₀ : Db} {ops : List SyncOpDto} {S : System T} {p : PushState T}
    (h₀ : s₀.Consistent) (hS : Reachable prog s₀ S) (hme : S.live me = none)
    (h : PushRuns me actor outboxRemaining (PushState.init S ops) p) :
    PushProtocol me actor outboxRemaining s₀ ops p := by
  have hinv := PushRuns.inv (PushInv.init hS hme) h
  obtain ⟨done, hdone, hops, hzip⟩ := hinv.settled
  constructor
  · rw [hops, List.take_left' hdone.length, hdone.ids]
  · intro hover
    obtain ⟨hrun, htodo⟩ := hinv.through (by rw [hover]; decide)
    rw [hdone.ids, hops, hrun, htodo]
    simp
  · exact hinv.finishes
  · exact hinv.stops
  · intro r hr hretry
    apply hinv.idle
    rw [hinv.stopped]
    exact List.any_eq_true.mpr ⟨r, hr, hretry⟩
  · rw [hzip]
    exact hdone.applied
  · exact Reachable.serial sound h₀ hinv.reachable
  · exact fun q hq hothers hnone => PushRuns.untouched hinv hq hothers hnone

section
variable {T : Type} [DecidableEq T] {me : T} {actor : Actor} {outboxRemaining : Nat}

/-- The transaction of the loop has come to `x`. -/
private def PushState.at {T : Type} [DecidableEq T] (p : PushState T) (me : T)
    (x : Live Db LockKey ServerError Reply Op) : PushState T :=
  { p with
    sys := p.sys.put me (some x)
    own := p.own ++ List.replicate (p.sys.log.length - p.sys.log.length) false }

/-- With no one else connected, the transaction of the loop comes to its end. -/
theorem ends_alone {p : PushState T} {op : Op} {pr : Prog Reply} {u : Db → Db} {H : Held LockKey}
    (hl : p.sys.live me = some ⟨op, pr, u, H⟩) (halone : ∀ t, t ≠ me → p.sys.live t = none) :
    ∃ S own pr' u' H', PushRuns me actor outboxRemaining p { p with sys := S, own := own } ∧
      S.live me = some ⟨op, pr', u', H'⟩ ∧ S.db = p.sys.db ∧
        (∀ t, t ≠ me → S.live t = none) ∧ pr'.run (u' S.db) = pr.run (u p.sys.db) ∧
          ((∃ a, pr' = .done a) ∨ ∃ e, pr' = .fail e) := by
  have hothers : ∀ (p : PushState T) x t, (∀ t, t ≠ me → p.sys.live t = none) → t ≠ me →
      (p.sys.put me x).live t = none :=
    fun p x t halone ht => (Sys.put_live_ne _ _ _ ht).trans (halone t ht)
  have hstep : ∀ (p : PushState T) {x y : Live Db LockKey ServerError Reply Op},
      p.sys.live me = some x → Step prog p.sys (p.sys.put me (some y)) →
        PushStep me actor outboxRemaining p (p.at me y) := by
    intro p x y hx hs
    apply PushStep.moves hs
    rw [Sys.put_live_self, hx]
    rfl
  induction pr generalizing p u H with
  | done b => exact ⟨p.sys, p.own, _, u, H, .refl, hl, rfl, halone, rfl, .inl ⟨b, rfl⟩⟩
  | fail e => exact ⟨p.sys, p.own, _, u, H, .refl, hl, rfl, halone, rfl, .inr ⟨e, rfl⟩⟩
  | lock ℓ m next ih =>
      have hg : Grantable p.sys me ℓ m := by
        intro t x ht hx
        rw [halone t ht] at hx
        cases hx
      obtain ⟨S, own, pr', u', H', hruns, hrest⟩ := @ih (p.at me _) u ((ℓ, m) :: H)
        (Sys.put_live_self ..) fun t => hothers p _ t halone
      exact ⟨S, own, pr', u', H', .head (hstep p hl (.lock hl hg)) hruns, hrest⟩
  | read q next ih =>
      obtain ⟨S, own, pr', u', H', hruns, hrest⟩ := @ih _ (p.at me _) u H
        (Sys.put_live_self ..) fun t => hothers p _ t halone
      exact ⟨S, own, pr', u', H', .head (hstep p hl (.read hl)) hruns, hrest⟩
  | peek q next ih =>
      obtain ⟨S, own, pr', u', H', hruns, hrest⟩ := @ih _ (p.at me _) u H
        (Sys.put_live_self ..) fun t => hothers p _ t halone
      exact ⟨S, own, pr', u', H', .head (hstep p hl (.peek hl)) hruns, hrest⟩
  | write w next ih =>
      obtain ⟨S, own, pr', u', H', hruns, hrest⟩ := @ih (p.at me _) (w ∘ u) H
        (Sys.put_live_self ..) fun t => hothers p _ t halone
      exact ⟨S, own, pr', u', H', .head (hstep p hl (.write hl)) hruns, hrest⟩

/-- Then no one is connected. -/
private theorem none_left {S : System T} (halone : ∀ t, t ≠ me → S.live t = none) (t : T) :
    (S.put me none).live t = none := by
  by_cases ht : t = me
  · subst ht
    exact Sys.put_live_self ..
  · exact (Sys.put_live_ne _ _ _ ht).trans (halone t ht)

/-- It comes to its answer, when its program does. -/
theorem answered_alone {p : PushState T} {op : Op} {pr : Prog Reply} {u : Db → Db} {H : Held LockKey}
    {a : Reply} {s' : Db} (hl : p.sys.live me = some ⟨op, pr, u, H⟩)
    (halone : ∀ t, t ≠ me → p.sys.live t = none) (hr : pr.run (u p.sys.db) = .ok (a, s')) :
    ∃ S own u' H', PushRuns me actor outboxRemaining p { p with sys := S, own := own } ∧
      S.live me = some ⟨op, .done a, u', H'⟩ ∧ u' S.db = s' ∧ ∀ t, t ≠ me → S.live t = none := by
  obtain ⟨S, own, pr', u', H', hruns, hl', -, halone', hsame, ⟨b, rfl⟩ | ⟨e, rfl⟩⟩ :=
    ends_alone hl halone
  · rw [hr] at hsame
    obtain ⟨rfl, rfl⟩ : b = a ∧ u' S.db = s' := by simpa [Tx.run] using hsame
    exact ⟨S, own, u', H', hruns, hl', rfl, halone'⟩
  · rw [hr] at hsame
    cases hsame

/-- An operation whose program comes to an answer is applied. -/
theorem applies_alone {p : PushState T} {dto : SyncOpDto} {op : Op} {pr : Prog Reply}
    {u : Db → Db} {H : Held LockKey} {a : Reply} {s' : Db} (hrun : p.running = some dto)
    (hl : p.sys.live me = some ⟨op, pr, u, H⟩) (halone : ∀ t, t ≠ me → p.sys.live t = none)
    (hr : pr.run (u p.sys.db) = .ok (a, s')) :
    ∃ q, PushRuns me actor outboxRemaining p q ∧ q.todo = p.todo ∧ q.running = none ∧
      q.results = p.results ++ [⟨dto.opId, .applied a⟩] ∧ q.stopAtRetry = p.stopAtRetry ∧
        q.report = p.report ∧ q.sys.db = s' ∧ ∀ t, q.sys.live t = none := by
  obtain ⟨S, own, u', H', hruns, hl', rfl, halone'⟩ := answered_alone hl halone hr
  exact ⟨_, .tail hruns (.commits hrun hl'), rfl, rfl, rfl, Bool.or_false _, rfl, rfl,
    none_left halone'⟩

/-- One whose program ends in an error is not. -/
theorem refused_alone {p : PushState T} {dto : SyncOpDto} {op : Op} {pr : Prog Reply}
    {u : Db → Db} {H : Held LockKey} {e : ServerError} (hrun : p.running = some dto)
    (hl : p.sys.live me = some ⟨op, pr, u, H⟩) (halone : ∀ t, t ≠ me → p.sys.live t = none)
    (hr : pr.run (u p.sys.db) = .error e) (hgo : p.stopAtRetry = false)
    (he : e.transient = false) :
    ∃ q, PushRuns me actor outboxRemaining p q ∧ q.todo = p.todo ∧ q.running = none ∧
      q.results = p.results ++ [⟨dto.opId, .rejected (refusalOf dto.payload e)⟩] ∧
        q.stopAtRetry = false ∧ q.report = p.report ∧ q.sys.db = p.sys.db ∧
          ∀ t, q.sys.live t = none := by
  obtain ⟨S, own, pr', u', H', hruns, hl', hdb, halone', hsame, ⟨b, rfl⟩ | ⟨e', rfl⟩⟩ :=
    ends_alone hl halone
  · rw [hr] at hsame
    cases hsame
  · rw [hr] at hsame
    obtain rfl : e' = e := by simpa [Tx.run] using hsame
    have hmap : mapOpError dto e' = ⟨dto.opId, .rejected (refusalOf dto.payload e')⟩ := by
      rw [mapOpError, if_neg (by rw [he]; exact Bool.false_ne_true)]
    refine ⟨_, .tail hruns (.refuses hrun hl'), rfl, rfl, ?_, ?_, rfl, hdb, none_left halone'⟩
    · rw [hmap]
      rfl
    · rw [hmap]
      simpa [PushState.push, SyncStatus.isRetry] using hgo

/-- With no one else connected, the next operation is applied when its program comes to an answer. -/
theorem next_applied {p : PushState T} {dto : SyncOpDto} {rest : List SyncOpDto} {env : Env}
    {a : Reply} {s' : Db} (hrun : p.running = none) (hgo : p.stopAtRetry = false)
    (htodo : p.todo = dto :: rest) (hfree : ∀ t, p.sys.live t = none)
    (hr : (prog (.push env actor dto.idempotencyKey dto.requestHash dto.payload)).run p.sys.db =
      .ok (a, s')) :
    ∃ q, PushRuns me actor outboxRemaining p q ∧ q.todo = rest ∧ q.running = none ∧
      q.results = p.results ++ [⟨dto.opId, .applied a⟩] ∧ q.stopAtRetry = false ∧
        q.report = p.report ∧ q.sys.db = s' ∧ ∀ t, q.sys.live t = none := by
  have hbegin : PushStep me actor outboxRemaining p _ := .begins env hrun hgo htodo (hfree me)
  have happlied := @applies_alone T _ me actor outboxRemaining { p with
    sys := p.sys.put me (some ⟨.push env actor dto.idempotencyKey dto.requestHash dto.payload,
      prog (.push env actor dto.idempotencyKey dto.requestHash dto.payload), id, []⟩)
    running := some dto
    todo := rest } dto _ _ _ _ a s' rfl (Sys.put_live_self ..)
    (fun t ht => (Sys.put_live_ne _ _ _ ht).trans (hfree t)) hr
  obtain ⟨q, hq, htodo', hidle, hresults, hgo', hreport, hdb, hfree'⟩ := happlied
  exact ⟨q, .head hbegin hq, htodo', hidle, hresults, hgo'.trans hgo, hreport, hdb, hfree'⟩

/-- Or it is committed and nobody hears of it. -/
theorem next_unheard {p : PushState T} {dto : SyncOpDto} {rest : List SyncOpDto} {env : Env}
    {a : Reply} {s' : Db} (hrun : p.running = none) (hgo : p.stopAtRetry = false)
    (htodo : p.todo = dto :: rest) (hfree : ∀ t, p.sys.live t = none)
    (hr : (prog (.push env actor dto.idempotencyKey dto.requestHash dto.payload)).run p.sys.db =
      .ok (a, s')) :
    ∃ q, PushRuns me actor outboxRemaining p q ∧ q.todo = rest ∧ q.running = none ∧
      q.results = p.results ++ [⟨dto.opId, .retry⟩] ∧ q.stopAtRetry = true ∧ q.report = p.report ∧
        q.sys.db = s' ∧ ∀ t, q.sys.live t = none := by
  have hbegin : PushStep me actor outboxRemaining p _ := .begins env hrun hgo htodo (hfree me)
  obtain ⟨S, own, u', H', hruns, hl, hdb, halone⟩ := @answered_alone T _ me actor outboxRemaining { p with
    sys := p.sys.put me (some ⟨.push env actor dto.idempotencyKey dto.requestHash dto.payload,
      prog (.push env actor dto.idempotencyKey dto.requestHash dto.payload), id, []⟩)
    running := some dto
    todo := rest } _ _ _ _ a s' (Sys.put_live_self ..)
    (fun t ht => (Sys.put_live_ne _ _ _ ht).trans (hfree t)) hr
  exact ⟨_, .tail (.head hbegin hruns) (.loses rfl hl), rfl, rfl, rfl, Bool.or_true _, rfl, hdb,
    none_left halone⟩

/-- It is rejected when its program ends in an error of a service. -/
theorem next_refused {p : PushState T} {dto : SyncOpDto} {rest : List SyncOpDto} {env : Env}
    {e : ServerError} (hrun : p.running = none) (hgo : p.stopAtRetry = false)
    (htodo : p.todo = dto :: rest) (hfree : ∀ t, p.sys.live t = none)
    (hr : (prog (.push env actor dto.idempotencyKey dto.requestHash dto.payload)).run p.sys.db =
      .error e) (he : e.transient = false) :
    ∃ q, PushRuns me actor outboxRemaining p q ∧ q.todo = rest ∧ q.running = none ∧
      q.results = p.results ++ [⟨dto.opId, .rejected (refusalOf dto.payload e)⟩] ∧
        q.stopAtRetry = false ∧ q.report = p.report ∧ q.sys.db = p.sys.db ∧
          ∀ t, q.sys.live t = none := by
  have hbegin : PushStep me actor outboxRemaining p _ := .begins env hrun hgo htodo (hfree me)
  have hrefused := @refused_alone T _ me actor outboxRemaining { p with
    sys := p.sys.put me (some ⟨.push env actor dto.idempotencyKey dto.requestHash dto.payload,
      prog (.push env actor dto.idempotencyKey dto.requestHash dto.payload), id, []⟩)
    running := some dto
    todo := rest } dto _ _ _ _ e rfl (Sys.put_live_self ..)
    (fun t ht => (Sys.put_live_ne _ _ _ ht).trans (hfree t)) hr hgo he
  obtain ⟨q, hq, hrest⟩ := hrefused
  exact ⟨q, .head hbegin hq, hrest⟩

/-- What a batch comes to with no one else connected; none when an operation is to be retried. -/
def servedAlone (actor : Actor) (env : Nat → Env) : List SyncOpDto → Db →
    Option (List SyncOpResult × Db)
  | [], db          => some ([], db)
  | dto :: rest, db =>
      match (prog (.push (env dto.opId) actor dto.idempotencyKey dto.requestHash dto.payload)).run
          db with
      | .ok (a, db') =>
          (servedAlone actor env rest db').map fun r => (⟨dto.opId, .applied a⟩ :: r.1, r.2)
      | .error e     =>
          if e.transient then none
          else (servedAlone actor env rest db).map fun r =>
            (⟨dto.opId, .rejected (refusalOf dto.payload e)⟩ :: r.1, r.2)

/-- A batch that is served while nobody else works gets through to its last operation. -/
theorem runs_of_servedAlone {env : Nat → Env} {p : PushState T} {rs : List SyncOpResult} {db' : Db}
    (hrun : p.running = none) (hgo : p.stopAtRetry = false) (hfree : ∀ t, p.sys.live t = none)
    (h : servedAlone actor env p.todo p.sys.db = some (rs, db')) :
    ∃ q, PushRuns me actor outboxRemaining p q ∧ q.todo = [] ∧ q.running = none ∧
      q.results = p.results ++ rs ∧ q.sys.db = db' := by
  generalize htodo : p.todo = todo at h
  induction todo generalizing p rs with
  | nil =>
      obtain ⟨rfl, rfl⟩ := Prod.mk.inj (Option.some.inj h)
      exact ⟨p, .refl, htodo, hrun, (List.append_nil _).symm, rfl⟩
  | cons dto rest ih =>
      rw [servedAlone] at h
      split at h
      · rename_i a db₁ hr
        obtain ⟨⟨rs', db₂⟩, hserved, heq⟩ := Option.map_eq_some_iff.mp h
        obtain ⟨rfl, rfl⟩ := Prod.mk.inj heq
        obtain ⟨q, hq, htodo₁, hrun₁, hresults₁, hgo₁, -, hdb₁, hfree₁⟩ :=
          next_applied hrun hgo htodo hfree hr
        obtain ⟨q', hq', htodo', hrun', hresults', hdb'⟩ :=
          ih hrun₁ hgo₁ hfree₁ htodo₁ (hdb₁ ▸ hserved)
        refine ⟨q', hq.trans hq', htodo', hrun', ?_, hdb'⟩
        rw [hresults', hresults₁, List.append_assoc]
        rfl
      · rename_i e hr
        split at h
        · cases h
        · obtain ⟨⟨rs', db₂⟩, hserved, heq⟩ := Option.map_eq_some_iff.mp h
          obtain ⟨rfl, rfl⟩ := Prod.mk.inj heq
          obtain ⟨q, hq, htodo₁, hrun₁, hresults₁, hgo₁, -, hdb₁, hfree₁⟩ :=
            next_refused hrun hgo htodo hfree hr (Bool.eq_false_of_not_eq_true ‹_›)
          obtain ⟨q', hq', htodo', hrun', hresults', hdb'⟩ :=
            ih hrun₁ hgo₁ hfree₁ htodo₁ (hdb₁ ▸ hserved)
          refine ⟨q', hq.trans hq', htodo', hrun', ?_, hdb'⟩
          rw [hresults', hresults₁, List.append_assoc]
          rfl

end

/-- A batch of two: cash paid into the drawer, twice. -/
def twoEntries : List SyncOpDto :=
  [⟨1, 501, 601, .drawerEntry ⟨some 91, .cashIn, 20000⟩ none 1⟩,
    ⟨2, 502, 602, .drawerEntry ⟨some 92, .cashIn, 5000⟩ none 2⟩]

/-- The first is committed, but the answer to its `COMMIT` is lost: it is answered `retry`, and its
entry is on file. -/
theorem push_batch_lost_answer : ∃ p : PushState Nat,
    PushRuns 0 ⟨1⟩ 0 (PushState.init (Sys.init smallShop) twoEntries) p ∧ p.report = .filed ∧
      p.results.map (fun r => (r.opId, r.status.isRetry)) = [(1, true), (2, true)] ∧
        smallShop.drawerEntries.get 91 = none ∧ (p.sys.db.drawerEntries.get 91).isSome = true := by
  have hok : ((prog (.push (plainEnv 1 70) ⟨1⟩ 501 601
      (.drawerEntry ⟨some 91, .cashIn, 20000⟩ none 1))).run smallShop).toOption.any (fun r =>
        (r.2.drawerEntries.get 91).isSome) = true := by
    decide +kernel
  cases hr : (prog (.push (plainEnv 1 70) ⟨1⟩ 501 601
      (.drawerEntry ⟨some 91, .cashIn, 20000⟩ none 1))).run smallShop with
  | error e =>
      rw [hr] at hok
      cases hok
  | ok r =>
      rw [hr] at hok
      obtain ⟨q, hq, htodo, hidle, hresults, hstop, hreport, hdb, hfree⟩ :=
        @next_unheard Nat _ 0 ⟨1⟩ 0 (PushState.init (Sys.init smallShop) twoEntries) _ _ _ r.1 r.2
          rfl rfl rfl (fun _ => rfl) hr
      -- the second is not processed, and the answer is sent
      have hskip : PushStep 0 ⟨1⟩ 0 q _ := .skips hidle hstop htodo
      obtain ⟨q', hq', hover, hresults', hdb'⟩ :=
        @finishes_through Nat _ 0 ⟨1⟩ 0 ({ q with todo := [] }.push ⟨2, .retry⟩) (hfree 0) rfl rfl hreport
      refine ⟨q', (hq.tail hskip).trans hq', hover, ?_, rfl, ?_⟩
      · rw [hresults']
        show (q.results ++ _).map _ = _
        rw [hresults]
        rfl
      · rw [hdb']
        show (q.sys.db.drawerEntries.get 91).isSome = true
        rw [hdb]
        exact hok

/-- The first is applied and the second fails on its way: it is to be sent again. -/
theorem push_batch_protocol_of_twoEntries :
    ∃ p : PushState Nat, p.report = .filed ∧
      p.results.map (fun r => (r.opId, r.status.isApplied, r.status.isRetry)) =
        [(1, true, false), (2, false, true)] ∧
      (p.sys.db.drawerEntries.get 91).isSome = true ∧
      (p.sys.db.drawerEntries.get 92).isNone = true ∧
      PushProtocol 0 ⟨1⟩ 0 smallShop twoEntries p := by
  have hok : ((prog (.push (plainEnv 1 70) ⟨1⟩ 501 601
      (.drawerEntry ⟨some 91, .cashIn, 20000⟩ none 1))).run smallShop).toOption.any (fun r =>
        (r.2.drawerEntries.get 91).isSome && (r.2.drawerEntries.get 92).isNone) = true := by
    decide +kernel
  obtain ⟨a, s', hr, hs'⟩ : ∃ a s', (prog (.push (plainEnv 1 70) ⟨1⟩ 501 601
      (.drawerEntry ⟨some 91, .cashIn, 20000⟩ none 1))).run smallShop = .ok (a, s') ∧
        ((s'.drawerEntries.get 91).isSome && (s'.drawerEntries.get 92).isNone) = true := by
    cases hr : (prog (.push (plainEnv 1 70) ⟨1⟩ 501 601
        (.drawerEntry ⟨some 91, .cashIn, 20000⟩ none 1))).run smallShop with
    | error e =>
        rw [hr] at hok
        cases hok
    | ok r =>
        rw [hr] at hok
        exact ⟨r.1, r.2, rfl, hok⟩
  obtain ⟨h91, h92⟩ := Bool.and_eq_true_iff.mp hs'
  obtain ⟨q, hq, htodo, hidle, hresults, hgo, hreport, hdb, hfree⟩ :=
    @next_applied Nat _ 0 ⟨1⟩ 0 (PushState.init (Sys.init smallShop) twoEntries) _ _ _ a s'
      rfl rfl rfl (fun _ => rfl) hr
  -- the second fails, and the answer is sent
  obtain ⟨q₁, hq₁, htodo₁, hidle₁, hresults₁, hreport₁, hdb₁, hfree₁⟩ :=
    next_fails hidle hgo htodo (hfree 0)
  obtain ⟨q₂, hq₂, hover, hresults₂, hdb₂⟩ :=
    finishes_through hfree₁ hidle₁ htodo₁ (hreport₁.trans hreport)
  have hrows : q₂.sys.db = s' := by rw [hdb₂, hdb₁, hdb]
  refine ⟨q₂, hover, ?_, ?_, ?_, ?_⟩
  · rw [hresults₂, hresults₁, hresults]
    rfl
  · rw [hrows]
    exact h91
  · rw [hrows]
    exact h92
  · exact push_batch_protocol smallShop_consistent .init rfl ((hq.trans hq₁).trans hq₂)

end Server

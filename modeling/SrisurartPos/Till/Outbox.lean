import SrisurartPos.Server.PushBatch
import Mathlib.Data.List.Infix

/-! # The till's outbox (`sync_service.dart`)

What the till did offline waits in its outbox and is pushed in batches. An operation names the
things it is about: its own first, then those it relies on. An operation the server has refused, or
that would not go through, holds back whatever names its own thing, and so on in turn
(`findSendableOps`). -/

namespace Till

/-- `'sale:…'`, `'shift:…'` and so on. -/
inductive Aggregate where
  | shift (id : Nat)
  /-- `'shift'`: of a payment taken with no drawer open -/
  | anyShift
  | sale (id : Nat)
  | creditNote (id : Nat)
  | drawer (id : Nat)
  | creditPayment (id : Nat)
  | customer (id : Nat)
  | mechanic (id : Nat)
  deriving DecidableEq, Repr

inductive OpStatus where
  | pending | rejected | stuck
  deriving DecidableEq, Repr

/-- A row of `outbox_ops`; `P` is its type and payload, which the loop does not look at. -/
structure OutboxOp (P : Type) where
  opId : Nat
  payload : P
  aggregates : List Aggregate
  createdAt : Nat
  status : OpStatus
  attempts : Nat
  deriving DecidableEq

/-! ## What each operation names -/

def shiftAggregates (k : Nat) : List Aggregate := [.shift k]

def saleAggregates (x : Nat) (shift customer mechanic : Option Nat) : List Aggregate :=
  .sale x :: (shift.map Aggregate.shift).toList ++ (customer.map Aggregate.customer).toList ++
    (mechanic.map Aggregate.mechanic).toList

def returnAggregates (r x : Nat) (shift : Option Nat) : List Aggregate :=
  [.creditNote r, .sale x] ++ (shift.map Aggregate.shift).toList

def entryAggregates (e k : Nat) : List Aggregate := [.drawer e, .shift k]

def paymentAggregates (i : Nat) (shift : Option Nat) (m : Nat) : List Aggregate :=
  [.creditPayment i, shift.elim .anyShift .shift, .mechanic m]

def voidAggregates (x : Nat) (shift : Option Nat) : List Aggregate :=
  .sale x :: (shift.map Aggregate.shift).toList

def customerAggregates (c : Nat) : List Aggregate := [.customer c]

/-! ## What may be sent -/

section
variable {P : Type}

/-- The operation's own thing. -/
def OutboxOp.own (op : OutboxOp P) : Option Aggregate := op.aggregates.head?

/-- Stuck or rejected. -/
def OutboxOp.held (op : OutboxOp P) : Bool := op.status = .stuck ∨ op.status = .rejected

/-- The first loop of `findSendableOps`. -/
def heldAggregates (allOps : List (OutboxOp P)) : List Aggregate :=
  (allOps.filter OutboxOp.held).filterMap OutboxOp.own

/-- The second one. -/
def sendableFrom : List Aggregate → List (OutboxOp P) → List (OutboxOp P)
  | _, []                      => []
  | blocked, op :: rest =>
      if op.status ≠ .pending then sendableFrom blocked rest
      else if op.aggregates.any (· ∈ blocked) then sendableFrom (op.own.toList ++ blocked) rest
      else op :: sendableFrom blocked rest

def findSendableOps (allOps : List (OutboxOp P)) : List (OutboxOp P) :=
  sendableFrom (heldAggregates allOps) allOps

/-! ### Who waits for whom -/

/-- Behind the operations `before` of the outbox `all`, the operation waits: it names the own thing
of one that is held, or of a pending one before it that waits. -/
inductive Waits (all : List (OutboxOp P)) : List (OutboxOp P) → OutboxOp P → Prop where
  | held {before op p a} : p ∈ all → p.held = true → p.own = some a → a ∈ op.aggregates →
      Waits all before op
  | behind {before op front q back a} : before = front ++ q :: back → q.status = .pending →
      Waits all front q → q.own = some a → a ∈ op.aggregates → Waits all before op

/-- What is held up, for an operation behind `before`. -/
def HeldUp (all before : List (OutboxOp P)) (a : Aggregate) : Prop :=
  (∃ p ∈ all, p.held = true ∧ p.own = some a) ∨
    ∃ front q back, before = front ++ q :: back ∧ q.status = .pending ∧ Waits all front q ∧
      q.own = some a

section
variable {all before : List (OutboxOp P)} {op : OutboxOp P}

theorem waits_iff : Waits all before op ↔ ∃ a ∈ op.aggregates, HeldUp all before a := by
  constructor
  · rintro (⟨hp, hheld, hown, ha⟩ | ⟨hbefore, hq, hwaits, hown, ha⟩)
    · exact ⟨_, ha, .inl ⟨_, hp, hheld, hown⟩⟩
    · exact ⟨_, ha, .inr ⟨_, _, _, hbefore, hq, hwaits, hown⟩⟩
  · rintro ⟨a, ha, ⟨p, hp, hheld, hown⟩ | ⟨front, q, back, hbefore, hq, hwaits, hown⟩⟩
    · exact .held hp hheld hown ha
    · exact .behind hbefore hq hwaits hown ha

/-- One more operation before: it holds something up when it is pending and waits. -/
theorem heldUp_snoc {a : Aggregate} : HeldUp all (before ++ [op]) a ↔
    HeldUp all before a ∨ op.status = .pending ∧ Waits all before op ∧ op.own = some a := by
  constructor
  · rintro (hheld | ⟨front, q, back, hbefore, hq, hwaits, hown⟩)
    · exact .inl (.inl hheld)
    · rcases List.eq_nil_or_concat back with rfl | ⟨back, q', rfl⟩
      · obtain ⟨rfl, hop⟩ := List.append_inj' hbefore rfl
        obtain rfl := List.singleton_inj.mp hop
        exact .inr ⟨hq, hwaits, hown⟩
      · rw [List.concat_eq_append, ← List.cons_append, ← List.append_assoc] at hbefore
        obtain ⟨rfl, -⟩ := List.append_inj' hbefore rfl
        exact .inl (.inr ⟨front, q, back, rfl, hq, hwaits, hown⟩)
  · rintro ((hheld | ⟨front, q, back, rfl, hq, hwaits, hown⟩) | ⟨hop, hwaits, hown⟩)
    · exact .inl hheld
    · exact .inr ⟨front, q, back ++ [op], by simp, hq, hwaits, hown⟩
    · exact .inr ⟨before, op, [], rfl, hop, hwaits, hown⟩

open Classical in
/-- The second loop, once it has come past `before`. -/
theorem sendableFrom_eq {rest : List (OutboxOp P)} {blocked : List Aggregate}
    (hblocked : ∀ a, a ∈ blocked ↔ HeldUp all before a) : sendableFrom blocked rest =
      ((rest.zipIdx before.length).filter fun e =>
        decide (e.1.status = .pending ∧ ¬Waits all ((before ++ rest).take e.2) e.1)).map Prod.fst := by
  induction rest generalizing before blocked with
  | nil => rfl
  | cons q rest ih =>
      have hany : q.aggregates.any (· ∈ blocked) = true ↔ Waits all before q := by
        rw [waits_iff, List.any_eq_true]
        simp only [decide_eq_true_eq, hblocked]
      have hfront : (before ++ q :: rest).take before.length = before := by simp
      have hrest := fun blocked => @ih (before ++ [q]) blocked
      rw [List.append_assoc, List.singleton_append, List.length_append, List.length_singleton] at hrest
      rw [List.zipIdx_cons, List.filter_cons, hfront, sendableFrom]
      split
      · -- a row that is not pending holds nothing up here: the first loop has seen to it
        rename_i hq
        rw [if_neg (by simp [hq])]
        refine hrest _ fun a => ?_
        rw [hblocked, heldUp_snoc]
        exact (or_iff_left fun h => hq h.1).symm
      · rename_i hq
        have hpending : q.status = .pending := not_not.mp hq
        split
        · rename_i hwaits
          rw [hany] at hwaits
          rw [if_neg (by simp [hwaits])]
          refine hrest _ fun a => ?_
          rw [heldUp_snoc, ← hblocked, List.mem_append, Option.mem_toList]
          constructor
          · rintro (hown | ha)
            · exact .inr ⟨hpending, hwaits, hown⟩
            · exact .inl ha
          · rintro (ha | ⟨-, -, hown⟩)
            · exact .inr ha
            · exact .inl hown
        · rename_i hgo
          rw [hany] at hgo
          rw [if_pos (by simp [hpending, hgo]), List.map_cons]
          congr 1
          refine hrest _ fun a => ?_
          rw [hblocked, heldUp_snoc]
          exact (or_iff_left fun h => hgo h.2.1).symm

theorem heldUp_nil {a : Aggregate} : a ∈ heldAggregates all ↔ HeldUp all [] a := by
  rw [heldAggregates, List.mem_filterMap]
  constructor
  · rintro ⟨p, hp, hown⟩
    obtain ⟨hmem, hheld⟩ := List.mem_filter.mp hp
    exact .inl ⟨p, hmem, hheld, hown⟩
  · rintro (⟨p, hp, hheld, hown⟩ | ⟨front, q, back, hnil, -⟩)
    · exact ⟨p, List.mem_filter.mpr ⟨hp, hheld⟩, hown⟩
    · cases front <;> cases hnil

open Classical in
/-- **What may be sent**: the pending operations that wait for nothing, place by place. -/
theorem findSendableOps_eq : findSendableOps all = (all.zipIdx.filter fun e =>
    decide (e.1.status = .pending ∧ ¬Waits all (all.take e.2) e.1)).map Prod.fst :=
  @sendableFrom_eq P all [] all (heldAggregates all) fun _ => heldUp_nil

/-- An operation may be sent where it is pending and nothing before it holds it back. -/
theorem mem_findSendableOps : op ∈ findSendableOps all ↔
    ∃ front back, all = front ++ op :: back ∧ op.status = .pending ∧ ¬Waits all front op := by
  classical
  rw [findSendableOps_eq, List.mem_map]
  constructor
  · rintro ⟨⟨_, i⟩, hi, rfl⟩
    obtain ⟨hplace, hgo⟩ := List.mem_filter.mp hi
    rw [decide_eq_true_eq] at hgo
    obtain ⟨hpending, hgo⟩ := hgo
    obtain ⟨hlt, heq⟩ := List.getElem?_eq_some_iff.mp (List.mem_zipIdx_iff_getElem?.mp hplace)
    refine ⟨all.take i, all.drop (i + 1), ?_, hpending, hgo⟩
    rw [← heq, List.getElem_cons_drop, List.take_append_drop]
  · rintro ⟨front, back, heq, hpending, hgo⟩
    refine ⟨(op, front.length), ?_, rfl⟩
    rw [List.mem_filter]
    constructor
    · rw [List.mem_zipIdx_iff_getElem?, heq]
      simp
    · rw [decide_eq_true_eq]
      refine ⟨hpending, ?_⟩
      have hfront : all.take front.length = front := by simp [heq]
      show ¬Waits all (all.take front.length) op
      rwa [hfront]

/-! ### Fewer holds -/

/-- What is sent past some holds is sent past fewer. -/
theorem sendableFrom_mono {blocked blocked' : List Aggregate} (h : blocked' ⊆ blocked)
    (l : List (OutboxOp P)) : (sendableFrom blocked l).Sublist (sendableFrom blocked' l) := by
  induction l generalizing blocked blocked' with
  | nil => exact List.Sublist.refl _
  | cons q l ih =>
      rw [sendableFrom, sendableFrom]
      split
      · exact ih h
      · by_cases hwaits' : q.aggregates.any (· ∈ blocked') = true
        · have hwaits : q.aggregates.any (· ∈ blocked) = true := by
            obtain ⟨a, ha, hmem⟩ := List.any_eq_true.mp hwaits'
            exact List.any_eq_true.mpr ⟨a, ha, decide_eq_true (h (of_decide_eq_true hmem))⟩
          rw [if_pos hwaits, if_pos hwaits']
          exact ih (List.append_subset.mpr
            ⟨List.subset_append_left _ _, List.Subset.trans h (List.subset_append_right _ _)⟩)
        · rw [if_neg hwaits']
          split
          · exact (ih (List.Subset.trans h (List.subset_append_right _ _))).trans (List.sublist_cons_self _ _)
          · exact (ih h).cons_cons q

/-- A row that is not pending is passed over. -/
theorem sendableFrom_skip {blocked : List Aggregate} {front back : List (OutboxOp P)}
    {p : OutboxOp P} (hp : p.status ≠ .pending) :
    sendableFrom blocked (front ++ p :: back) = sendableFrom blocked (front ++ back) := by
  induction front generalizing blocked with
  | nil => rw [List.nil_append, sendableFrom, if_pos hp, List.nil_append]
  | cons q front ih =>
      rw [List.cons_append, List.cons_append, sendableFrom, sendableFrom]
      simp only [ih]

/-- What may be sent keeps the order of the outbox. -/
theorem sendableFrom_sublist (blocked : List Aggregate) (l : List (OutboxOp P)) :
    (sendableFrom blocked l).Sublist (l.filter fun op => op.status = .pending) := by
  induction l generalizing blocked with
  | nil => exact List.Sublist.refl _
  | cons q l ih =>
      rw [sendableFrom]
      split
      · rename_i hq
        rw [List.filter_cons_of_neg (by simpa using hq)]
        exact ih _
      · rename_i hq
        rw [List.filter_cons_of_pos (by simpa using hq)]
        split
        · exact (ih _).trans (List.sublist_cons_self _ _)
        · exact (ih _).cons_cons q

open Classical in
structure SendableOps (all : List (OutboxOp P)) : Prop where
  sublist : (findSendableOps all).Sublist (all.filter fun op => op.status = .pending)
  /-- left out is a pending operation that waits, and no other -/
  exact : findSendableOps all = (all.zipIdx.filter fun e =>
    decide (e.1.status = .pending ∧ ¬Waits all (all.take e.2) e.1)).map Prod.fst
  /-- one that is sent names the own thing of none that is held and of none before it that waits -/
  clear : ∀ front op back, all = front ++ op :: back → ¬Waits all front op → ∀ a ∈ op.aggregates,
    (∀ p ∈ all, p.held = true → p.own ≠ some a) ∧
      ∀ front' q back', front = front' ++ q :: back' → q.status = .pending → Waits all front' q →
        q.own ≠ some a
  /-- resolving one that is held takes nothing away -/
  resolved : ∀ front p back, all = front ++ p :: back → p.held = true →
    (findSendableOps all).Sublist (findSendableOps (front ++ back))

/-- **What may be sent**, of every list of operations. -/
theorem sendable_ops (all : List (OutboxOp P)) : SendableOps all where
  sublist := sendableFrom_sublist _ all
  exact := findSendableOps_eq
  clear := by
    intro front op back _ hgo a ha
    constructor
    · intro p hp hheld hown
      exact hgo (.held hp hheld hown ha)
    · intro front' q back' hfront hq hwaits hown
      exact hgo (.behind hfront hq hwaits hown ha)
  resolved := by
    rintro front p back rfl hheld
    have hp : p.status ≠ .pending := by
      intro hpending
      simp [OutboxOp.held, hpending] at hheld
    rw [findSendableOps, sendableFrom_skip hp]
    refine sendableFrom_mono ?_ _
    intro a ha
    obtain ⟨q, hq, hown⟩ := List.mem_filterMap.mp ha
    obtain ⟨hmem, hq⟩ := List.mem_filter.mp hq
    refine List.mem_filterMap.mpr ⟨q, List.mem_filter.mpr ⟨?_, hq⟩, hown⟩
    rcases List.mem_append.mp hmem with hmem | hmem
    · exact List.mem_append_left _ hmem
    · exact List.mem_append_right _ (List.mem_cons_of_mem _ hmem)

/-- A stuck bill of a customer holds back what names the bill. An edit of the customer is sent, though
its own thing is one the bill names. -/
theorem edit_sent_past_stuck_bill :
    findSendableOps (P := Unit) [⟨1, (), saleAggregates 22 none (some 5) none, 1, .stuck, 3⟩,
      ⟨2, (), customerAggregates 5, 2, .pending, 0⟩] =
        [⟨2, (), customerAggregates 5, 2, .pending, 0⟩] ∧
    Aggregate.customer 5 ∈ saleAggregates 22 none (some 5) none := by
  decide

end

/-! ## Pushing -/

/-- What the server makes of one operation. -/
inductive Verdict where
  | applied | rejected | retry
  deriving DecidableEq, Repr

/-- A batch on its way: what the server has not come to yet, and the results so far. `outbox` is what
the batch was put together from. -/
structure Push (P : Type) where
  outbox : List (OutboxOp P)
  batch : List (OutboxOp P)
  todo : List (OutboxOp P)
  results : List (Nat × Verdict)

/-- The till, and the server as far as the till's batches go. -/
structure Sync (P : Type) where
  outbox : List (OutboxOp P)
  /-- every batch sent so far; the till waits for the answer to the last one, or for none -/
  sent : List (Push P)
  awaiting : Bool
  /-- the operations the server has applied, each with the number of its batch -/
  applied : List (Nat × OutboxOp P)

def Sync.init : Sync P := ⟨[], [], false, []⟩

/-- `orderBy createdAt` -/
def inOrder (outbox : List (OutboxOp P)) : List (OutboxOp P) :=
  outbox.insertionSort fun p q => p.createdAt ≤ q.createdAt

def batchSize : Nat := 50

def nextBatch (outbox : List (OutboxOp P)) : List (OutboxOp P) :=
  (findSendableOps (inOrder outbox)).take batchSize

/-- Changes the rows of one operation. -/
def updateOp (opId : Nat) (f : OutboxOp P → OutboxOp P) (outbox : List (OutboxOp P)) :
    List (OutboxOp P) :=
  outbox.map fun p => if p.opId = opId then f p else p

def OutboxOp.retry (op : OutboxOp P) : OutboxOp P :=
  { op with
    attempts := op.attempts + 1
    status := if op.attempts + 1 ≥ 3 then .stuck else .pending }

def OutboxOp.reject (op : OutboxOp P) : OutboxOp P := { op with status := .rejected, attempts := 0 }

/-- The loop over the results, which stops at the first `retry`. -/
def settle : List (Nat × Verdict) → List (OutboxOp P) → List (OutboxOp P)
  | [], outbox                       => outbox
  | (opId, .applied) :: rest, outbox  => settle rest (outbox.filter fun p => p.opId ≠ opId)
  | (opId, .rejected) :: rest, outbox => settle rest (updateOp opId OutboxOp.reject outbox)
  | (opId, .retry) :: _, outbox       => updateOp opId OutboxOp.retry outbox

/-- `_handleHeadFailure`: nothing usable came back. -/
def handleHeadFailure (batch outbox : List (OutboxOp P)) : List (OutboxOp P) :=
  match batch with
  | []        => outbox
  | head :: _ => updateOp head.opId OutboxOp.retry outbox

def OutboxOp.resend (op : OutboxOp P) : OutboxOp P := { op with attempts := 0, status := .pending }

/-- The server answers one operation. After a `retry` the others are not processed. -/
def Push.serve (push : Push P) (op : OutboxOp P) (rest : List (OutboxOp P)) : Verdict → Push P
  | .retry =>
      { push with
        todo := []
        results := push.results ++ (op.opId, .retry) :: rest.map fun p => (p.opId, .retry) }
  | v => { push with todo := rest, results := push.results ++ [(op.opId, v)] }

/-- What can happen. -/
inductive Act (P : Type) where
  | enqueue (op : OutboxOp P)
  | send
  /-- the server comes to the next operation of a batch -/
  | serve (number : Nat) (v : Verdict)
  /-- the answer comes; the loop over its results goes on to its end, or only to the first ones when
  the service is disposed of meanwhile -/
  | receive (settled : Nat)
  /-- no usable answer: a lost connection, a 5xx, an unreadable body -/
  | fail
  /-- the loop ends without one: the request was refused as a whole, or the app was closed -/
  | giveUp
  | resend (opId : Nat)
  | discard (opId : Nat)

inductive Step : Act P → Sync P → Sync P → Prop where
  | enqueue {S op} : op.status = .pending → (∀ p ∈ S.outbox, p.opId ≠ op.opId) →
      (∀ push ∈ S.sent, ∀ p ∈ push.batch, p.opId ≠ op.opId) →
      Step (.enqueue op) S { S with outbox := S.outbox ++ [op] }
  | send {S} : S.awaiting = false → nextBatch S.outbox ≠ [] →
      Step .send S { S with
        sent := S.sent ++ [⟨inOrder S.outbox, nextBatch S.outbox, nextBatch S.outbox, []⟩]
        awaiting := true }
  | serve {S} {number : Nat} {push op rest} (v : Verdict) : S.sent[number]? = some push →
      push.todo = op :: rest →
      Step (.serve number v) S { S with
        sent := S.sent.set number (push.serve op rest v)
        applied := if v = .applied then S.applied ++ [(number, op)] else S.applied }
  | receive {S push} (settled : Nat) : S.awaiting = true → S.sent.getLast? = some push →
      push.todo = [] →
      Step (.receive settled) S { S with
        outbox := settle (push.results.take settled) S.outbox
        awaiting := false }
  | fail {S push} : S.awaiting = true → S.sent.getLast? = some push →
      Step .fail S { S with outbox := handleHeadFailure push.batch S.outbox, awaiting := false }
  | giveUp {S} : Step .giveUp S { S with awaiting := false }
  | resend {S} (opId : Nat) :
      Step (.resend opId) S { S with outbox := updateOp opId OutboxOp.resend S.outbox }
  | discard {S} (opId : Nat) :
      Step (.discard opId) S { S with outbox := S.outbox.filter fun p => p.opId ≠ opId }

/-- A run, with what happened in it. -/
inductive Run : Sync P → List (Act P) → Sync P → Prop where
  | nil (S : Sync P) : Run S [] S
  | snoc {S acts S' act S''} : Run S acts S' → Step act S' S'' → Run S (acts ++ [act]) S''

/-! ### Rows that are left alone -/

theorem mem_updateOp {opId : Nat} {f : OutboxOp P → OutboxOp P} {outbox : List (OutboxOp P)}
    {p : OutboxOp P} (hne : p.opId ≠ opId) (hp : p ∈ outbox) : p ∈ updateOp opId f outbox :=
  List.mem_map.mpr ⟨p, hp, if_neg hne⟩

/-- An operation that has no result stays in the outbox as it is. -/
theorem mem_settle {results : List (Nat × Verdict)} {outbox : List (OutboxOp P)} {p : OutboxOp P}
    (hnot : p.opId ∉ results.map Prod.fst) (hp : p ∈ outbox) : p ∈ settle results outbox := by
  induction results generalizing outbox with
  | nil => exact hp
  | cons r rest ih =>
      obtain ⟨opId, v⟩ := r
      rw [List.map_cons, List.mem_cons, not_or] at hnot
      obtain ⟨hne, hrest⟩ := hnot
      cases v with
      | applied => exact ih hrest (List.mem_filter.mpr ⟨hp, decide_eq_true hne⟩)
      | rejected => exact ih hrest (mem_updateOp hne hp)
      | retry => exact mem_updateOp hne hp

/-- An operation that comes out of a change of the rows has the id it had. -/
theorem opIds_updateOp {opId : Nat} {f : OutboxOp P → OutboxOp P} (hf : ∀ p, (f p).opId = p.opId)
    (outbox : List (OutboxOp P)) :
    (updateOp opId f outbox).map OutboxOp.opId = outbox.map OutboxOp.opId := by
  rw [updateOp, List.map_map]
  refine List.map_congr_left fun p _ => ?_
  rw [Function.comp_apply]
  split
  · exact hf p
  · rfl

theorem opIds_settle (results : List (Nat × Verdict)) (outbox : List (OutboxOp P)) :
    (settle results outbox).map OutboxOp.opId |>.Sublist (outbox.map OutboxOp.opId) := by
  induction results generalizing outbox with
  | nil => exact List.Sublist.refl _
  | cons r rest ih =>
      obtain ⟨opId, v⟩ := r
      cases v with
      | applied => exact (ih _).trans (List.filter_sublist.map _)
      | rejected =>
          refine (ih _).trans ?_
          rw [opIds_updateOp (f := OutboxOp.reject) fun _ => rfl]
      | retry => rw [settle, opIds_updateOp (f := OutboxOp.retry) fun _ => rfl]

theorem mem_inOrder {outbox : List (OutboxOp P)} {p : OutboxOp P} :
    p ∈ inOrder outbox ↔ p ∈ outbox :=
  (List.perm_insertionSort _ outbox).mem_iff

/-- What goes into a batch is pending, and waits for nothing. -/
theorem mem_nextBatch {outbox : List (OutboxOp P)} {op : OutboxOp P} (h : op ∈ nextBatch outbox) :
    op ∈ outbox ∧ op.status = .pending ∧ op ∈ findSendableOps (inOrder outbox) := by
  have hsend := List.mem_of_mem_take h
  obtain ⟨front, back, hsplit, hpending, -⟩ := mem_findSendableOps.mp hsend
  refine ⟨mem_inOrder.mp ?_, hpending, hsend⟩
  rw [hsplit]
  exact List.mem_append_right _ List.mem_cons_self

/-! ### What a batch and the outbox keep -/

/-- No result but `retry` follows a `retry`. -/
def StopsAtRetry (results : List (Nat × Verdict)) : Prop :=
  results.Pairwise fun r r' => r.2 = .retry → r'.2 = .retry

/-- A batch on its way. -/
structure Push.Sound (push : Push P) : Prop where
  sendable : ∀ op ∈ push.batch, op ∈ findSendableOps push.outbox
  todo : push.todo.Sublist push.batch
  results : ∀ r ∈ push.results, ∃ op ∈ push.batch, op.opId = r.1
  stops : StopsAtRetry push.results
  /-- the server goes on only while nothing was answered `retry` -/
  going : push.todo ≠ [] → ∀ r ∈ push.results, r.2 ≠ .retry

structure Sync.Inv (S : Sync P) : Prop where
  ids : (S.outbox.map OutboxOp.opId).Nodup
  sound : ∀ push ∈ S.sent, push.Sound
  applied : ∀ e ∈ S.applied, ∃ push, S.sent[e.1]? = some push ∧ e.2 ∈ push.batch ∧
    (e.2.opId, Verdict.applied) ∈ push.results
  /-- the till only gets an answer about operations that are still pending -/
  awaited : S.awaiting = true → ∃ push, S.sent.getLast? = some push ∧
    ∀ op ∈ push.batch, ∀ p ∈ S.outbox, p.opId = op.opId → p.status = .pending

/-- One more answer of the server keeps what the push knows of its own operations. -/
theorem Push.Sound.serve {push : Push P} {op : OutboxOp P} {rest : List (OutboxOp P)}
    (h : push.Sound) (htodo : push.todo = op :: rest) (v : Verdict) :
    (push.serve op rest v).Sound := by
  have hsub := h.todo
  rw [htodo] at hsub
  have hop : op ∈ push.batch := hsub.subset List.mem_cons_self
  have hgoing : ∀ r ∈ push.results, r.2 ≠ .retry := h.going (by rw [htodo]; exact List.cons_ne_nil _ _)
  have hplain : v ≠ .retry → Push.Sound { push with
      todo := rest, results := push.results ++ [(op.opId, v)] } := by
    intro hv
    refine ⟨h.sendable, (List.sublist_cons_self _ _).trans hsub, ?_, ?_, fun _ => ?_⟩
    · intro r hr
      rcases List.mem_append.mp hr with hr | hr
      · exact h.results r hr
      · obtain rfl := List.mem_singleton.mp hr
        exact ⟨op, hop, rfl⟩
    · refine List.pairwise_append.mpr ⟨h.stops, List.pairwise_singleton _ _, ?_⟩
      exact fun r hr _ _ hretry => absurd hretry (hgoing r hr)
    · intro r hr
      rcases List.mem_append.mp hr with hr | hr
      · exact hgoing r hr
      · obtain rfl := List.mem_singleton.mp hr
        exact hv
  cases v with
  | applied => exact hplain (by decide)
  | rejected => exact hplain (by decide)
  | retry =>
      refine ⟨h.sendable, List.nil_sublist _, ?_, ?_, fun hne => absurd rfl hne⟩
      · intro r hr
        rcases List.mem_append.mp hr with hr | hr
        · exact h.results r hr
        · rcases List.mem_cons.mp hr with rfl | hr
          · exact ⟨op, hop, rfl⟩
          · obtain ⟨p, hp, rfl⟩ := List.mem_map.mp hr
            exact ⟨p, hsub.subset (List.mem_cons_of_mem _ hp), rfl⟩
      · refine List.pairwise_append.mpr ⟨h.stops, ?_, ?_⟩
        · refine List.pairwise_of_forall_mem_list fun r _ r' hr' _ => ?_
          rcases List.mem_cons.mp hr' with rfl | hr'
          · rfl
          · obtain ⟨p, -, rfl⟩ := List.mem_map.mp hr'
            rfl
        · exact fun r hr _ _ hretry => absurd hretry (hgoing r hr)

theorem Push.results_serve (push : Push P) (op : OutboxOp P) (rest : List (OutboxOp P))
    (v : Verdict) : push.results ⊆ (push.serve op rest v).results ∧
      (op.opId, v) ∈ (push.serve op rest v).results ∧ (push.serve op rest v).batch = push.batch ∧
        (push.serve op rest v).outbox = push.outbox := by
  cases v with
  | applied => exact ⟨List.subset_append_left _ _, by simp [Push.serve], rfl, rfl⟩
  | rejected => exact ⟨List.subset_append_left _ _, by simp [Push.serve], rfl, rfl⟩
  | retry => exact ⟨List.subset_append_left _ _, by simp [Push.serve], rfl, rfl⟩

theorem Sync.Inv.init : (Sync.init : Sync P).Inv where
  ids := List.nodup_nil
  sound _ h := absurd h List.not_mem_nil
  applied _ h := absurd h List.not_mem_nil
  awaited h := by cases h

/-- A change of the rows of one operation which leaves the pending ones pending. -/
theorem status_updateOp {opId : Nat} {f : OutboxOp P → OutboxOp P}
    {outbox : List (OutboxOp P)} {op : OutboxOp P}
    (hpending : ∀ p, (f p).status = .pending)
    (h : ∀ p ∈ outbox, p.opId = op.opId → p.status = .pending) :
    ∀ p ∈ updateOp opId f outbox, p.opId = op.opId → p.status = .pending := by
  intro p hp hid
  obtain ⟨q, hq, rfl⟩ := List.mem_map.mp hp
  split at hid
  · rw [if_pos ‹_›]
    exact hpending q
  · rw [if_neg ‹_›]
    exact h q hq hid

/-- Every step keeps the invariant: a case for each action. -/
theorem Step.inv {act : Act P} {S S' : Sync P} (h : S.Inv) (hstep : Step act S S') : S'.Inv := by
  cases hstep with
  -- a new operation waits, under an id that no other has
  | @enqueue _ op hpending hfresh hnew =>
      refine { h with ids := ?_, awaited := fun hawait => ?_ }
      · rw [List.map_append, List.nodup_append]
        refine ⟨h.ids, List.nodup_singleton _, ?_⟩
        rintro _ hid _ hid' rfl
        obtain ⟨p, hp, hpid⟩ := List.mem_map.mp hid
        exact hfresh p hp (hpid.trans (List.mem_singleton.mp hid'))
      · obtain ⟨push, hlast, hbatch⟩ := h.awaited hawait
        refine ⟨push, hlast, fun q hq p hp hid => ?_⟩
        rcases List.mem_append.mp hp with hp | hp
        · exact hbatch q hq p hp hid
        · obtain rfl := List.mem_singleton.mp hp
          exact hpending
  -- the batch of a new push is what waits now
  | send hidle hbatch =>
      refine { h with sound := fun push hpush => ?_, applied := fun e he => ?_, awaited := fun _ => ?_ }
      · rcases List.mem_append.mp hpush with hpush | hpush
        · exact h.sound push hpush
        · obtain rfl := List.mem_singleton.mp hpush
          exact ⟨fun op hop => (mem_nextBatch hop).2.2, List.Sublist.refl _,
            fun r hr => absurd hr List.not_mem_nil, List.Pairwise.nil,
            fun _ r hr => absurd hr List.not_mem_nil⟩
      · obtain ⟨push, hpush, hrest⟩ := h.applied e he
        exact ⟨push, by rw [List.getElem?_append_left (List.getElem?_eq_some_iff.mp hpush).1, hpush],
          hrest⟩
      · refine ⟨_, List.getLast?_concat, fun op hop p hp hid => ?_⟩
        -- ids are unique, so the row with the operation's id is the operation
        obtain ⟨hop', hpending, -⟩ := mem_nextBatch hop
        rw [List.inj_on_of_nodup_map h.ids hp hop' hid]
        exact hpending
  | @serve _ number push op rest v hpush htodo =>
      have hmem : push ∈ S.sent := List.mem_of_getElem? hpush
      obtain ⟨hresults, hnew, hbatch, -⟩ := push.results_serve op rest v
      have hop : op ∈ push.batch := by
        have hsub := (h.sound push hmem).todo
        rw [htodo] at hsub
        exact hsub.subset List.mem_cons_self
      have hlt := (List.getElem?_eq_some_iff.mp hpush).1
      -- a push that was served keeps what it answered before
      have hold : ∀ e ∈ S.applied, ∃ push', (S.sent.set number (push.serve op rest v))[e.1]? =
          some push' ∧ e.2 ∈ push'.batch ∧ (e.2.opId, Verdict.applied) ∈ push'.results := by
        intro e he
        obtain ⟨push', hpush', hin, happlied⟩ := h.applied e he
        by_cases hnumber : e.1 = number
        · rw [hnumber, hpush] at hpush'
          obtain rfl := Option.some.inj hpush'
          refine ⟨_, ?_, hbatch ▸ hin, hresults happlied⟩
          rw [hnumber, List.getElem?_set_self hlt]
        · exact ⟨push', by rw [List.getElem?_set_ne (Ne.symm hnumber), hpush'], hin, happlied⟩
      refine { h with sound := fun push' hpush' => ?_, applied := fun e he => ?_, awaited := ?_ }
      · rcases List.mem_or_eq_of_mem_set hpush' with hpush' | rfl
        · exact h.sound push' hpush'
        · exact (h.sound push hmem).serve htodo v
      · split at he
        · rename_i hv
          rcases List.mem_append.mp he with he | he
          · exact hold e he
          · obtain rfl := List.mem_singleton.mp he
            refine ⟨_, List.getElem?_set_self hlt, hbatch ▸ hop, ?_⟩
            rw [← hv]
            exact hnew
        · exact hold e he
      · intro hawait
        obtain ⟨last, hlast, hpending⟩ := h.awaited hawait
        -- the last batch is the one that was served, or another
        rw [List.getLast?_eq_getElem?] at hlast
        by_cases hnumber : number = S.sent.length - 1
        · subst hnumber
          rw [hpush] at hlast
          obtain rfl := Option.some.inj hlast
          refine ⟨_, ?_, fun p hp => hpending p (hbatch ▸ hp)⟩
          rw [List.getLast?_eq_getElem?, List.length_set, List.getElem?_set_self hlt]
        · refine ⟨last, ?_, hpending⟩
          rw [List.getLast?_eq_getElem?, List.length_set, List.getElem?_set_ne hnumber, hlast]
  -- settling results takes operations out of the outbox and adds none
  | receive settled hawait hlast htodo =>
      exact { h with
        ids := h.ids.sublist (opIds_settle _ _)
        awaited := fun hidle => by cases hidle }
  -- only the head of the batch is marked
  | @fail _ push hawait hlast =>
      refine { h with ids := ?_, awaited := fun hidle => by cases hidle }
      show ((handleHeadFailure push.batch S.outbox).map OutboxOp.opId).Nodup
      cases push.batch with
      | nil => exact h.ids
      | cons head rest =>
          rw [handleHeadFailure, opIds_updateOp (f := OutboxOp.retry) fun _ => rfl]
          exact h.ids
  | giveUp => exact { h with awaited := fun hidle => by cases hidle }
  -- a rejected operation waits again under its id
  | resend opId =>
      refine { h with ids := ?_, awaited := fun hawait => ?_ }
      · show ((updateOp opId OutboxOp.resend S.outbox).map OutboxOp.opId).Nodup
        rw [opIds_updateOp (f := OutboxOp.resend) fun _ => rfl]
        exact h.ids
      · obtain ⟨push, hlast, hbatch⟩ := h.awaited hawait
        refine ⟨push, hlast, fun op hop => ?_⟩
        exact status_updateOp (f := OutboxOp.resend) (fun _ => rfl) (hbatch op hop)
  | discard opId =>
      refine { h with ids := ?_, awaited := fun hawait => ?_ }
      · exact h.ids.sublist (List.filter_sublist.map _)
      · obtain ⟨push, hlast, hbatch⟩ := h.awaited hawait
        exact ⟨push, hlast, fun op hop p hp => hbatch op hop p (List.mem_of_mem_filter hp)⟩

theorem Run.inv {acts : List (Act P)} {S : Sync P} (h : Run Sync.init acts S) : S.Inv := by
  induction h with
  | nil => exact .init
  | snoc _ hstep ih => exact hstep.inv ih

/-! ### What is held stays held -/

/-- The owner sends the operation again, or discards it. -/
def Act.lifts (opId : Nat) : Act P → Prop
  | .resend i  => i = opId
  | .discard i => i = opId
  | _          => False

section
variable {S S' : Sync P} {act : Act P} {acts acts' : List (Act P)} {p : OutboxOp P}

/-- The answer the till waits for is not about an operation that is held. -/
theorem Sync.Inv.not_awaited (h : S.Inv) {push : Push P} (hawait : S.awaiting = true)
    (hlast : S.sent.getLast? = some push) (hp : p ∈ S.outbox) (hheld : p.held = true) :
    ∀ op ∈ push.batch, op.opId ≠ p.opId := by
  intro op hop hid
  obtain ⟨push', hlast', hpending⟩ := h.awaited hawait
  rw [hlast] at hlast'
  obtain rfl := Option.some.inj hlast'
  have hstatus := hpending op hop p hp hid.symm
  simp [OutboxOp.held, hstatus] at hheld

/-- An operation that is held stays in the outbox, unless the action is the one that lifts it. -/
theorem Step.keeps_held (h : S.Inv) (hstep : Step act S S') (hp : p ∈ S.outbox)
    (hheld : p.held = true) (hact : ¬act.lifts p.opId) : p ∈ S'.outbox := by
  cases hstep with
  | enqueue hpending hfresh hnew => exact List.mem_append_left _ hp
  | send hidle hbatch => exact hp
  | serve v hpush htodo => exact hp
  | @receive _ push settled hawait hlast htodo =>
      refine mem_settle (fun hin => ?_) hp
      obtain ⟨r, htaken, hid⟩ := List.mem_map.mp hin
      have hr : r ∈ push.results := List.mem_of_mem_take htaken
      have hmem : push ∈ S.sent := List.mem_of_getLast? hlast
      obtain ⟨op, hop, hopid⟩ := (h.sound push hmem).results r hr
      exact h.not_awaited hawait hlast hp hheld op hop (hopid.trans hid)
  | @fail _ push hawait hlast =>
      have hnot := h.not_awaited hawait hlast hp hheld
      show p ∈ handleHeadFailure push.batch S.outbox
      cases hbatch : push.batch with
      | nil => exact hp
      | cons head rest =>
          exact mem_updateOp (Ne.symm (hnot head (hbatch ▸ List.mem_cons_self))) hp
  | giveUp => exact hp
  | resend opId => exact mem_updateOp (fun hid => hact hid.symm) hp
  | discard opId => exact List.mem_filter.mpr ⟨hp, decide_eq_true fun hid => hact hid.symm⟩

/-- It is held in whatever a batch is put together from. -/
theorem Run.keeps_held (h : Run Sync.init acts S) (h' : Run S acts' S') (hp : p ∈ S.outbox)
    (hheld : p.held = true) (hacts : ∀ act ∈ acts', ¬act.lifts p.opId) :
    S'.Inv ∧ p ∈ S'.outbox ∧
      ∀ i push, S'.sent[i]? = some push → S.sent.length ≤ i → p ∈ push.outbox := by
  induction h' with
  | nil =>
      refine ⟨h.inv, hp, fun i push hpush hi => ?_⟩
      rw [List.getElem?_eq_none hi] at hpush
      cases hpush
  | @snoc acts₁ S₁ act S₂ hrun hstep ih =>
      obtain ⟨hinv, hkept, hsent⟩ := ih fun a ha => hacts a (List.mem_append_left _ ha)
      have hact := hacts act (List.mem_append_right _ (List.mem_singleton.mpr rfl))
      refine ⟨hstep.inv hinv, hstep.keeps_held hinv hkept hheld hact, ?_⟩
      intro i push hpush hi
      cases hstep with
      | send hidle hbatch =>
          rcases List.mem_append.mp (List.mem_of_getElem? hpush) with hold | hnew
          · by_cases hlt : i < S₁.sent.length
            · rw [List.getElem?_append_left hlt] at hpush
              exact hsent i push hpush hi
            · rw [List.getElem?_append_right (Nat.le_of_not_lt hlt)] at hpush
              obtain rfl := List.mem_singleton.mp (List.mem_of_getElem? hpush)
              exact mem_inOrder.mpr hkept
          · obtain rfl := List.mem_singleton.mp hnew
            exact mem_inOrder.mpr hkept
      | @serve _ number push' op rest v hpush' htodo =>
          obtain ⟨-, -, -, houtbox⟩ := push'.results_serve op rest v
          by_cases hnumber : number = i
          · subst hnumber
            rw [List.getElem?_set_self (List.getElem?_eq_some_iff.mp hpush').1] at hpush
            obtain rfl := Option.some.inj hpush
            rw [houtbox]
            exact hsent number push' hpush' hi
          · rw [List.getElem?_set_ne hnumber] at hpush
            exact hsent i push hpush hi
      | enqueue hpending hfresh hnew => exact hsent i push hpush hi
      | receive settled hawait hlast htodo => exact hsent i push hpush hi
      | fail hawait hlast => exact hsent i push hpush hi
      | giveUp => exact hsent i push hpush hi
      | resend opId => exact hsent i push hpush hi
      | discard opId => exact hsent i push hpush hi

/-- **What waits is not applied.** Whatever the server applies was pending and waited for nothing
when its batch was put together, and nothing before it in the batch was answered `retry`. As long as
the owner leaves an operation that is held alone, it stays held, and no batch put together since
brings the server an operation that names its own thing. -/
theorem dependants_held_back (h : Run Sync.init acts S) (h' : Run S acts' S') :
    (∀ i op, (i, op) ∈ S.applied → ∃ push front back, S.sent[i]? = some push ∧
      push.outbox = front ++ op :: back ∧ op.status = .pending ∧ ¬Waits push.outbox front op ∧
        (op.opId, Verdict.applied) ∈ push.results ∧ StopsAtRetry push.results) ∧
    ∀ p ∈ S.outbox, p.held = true → (∀ act ∈ acts', ¬act.lifts p.opId) →
      p ∈ S'.outbox ∧ ∀ i op, (i, op) ∈ S'.applied → S.sent.length ≤ i →
        ∀ a, p.own = some a → a ∉ op.aggregates := by
  constructor
  · intro i op happlied
    obtain ⟨push, hpush, hop, hresult⟩ := h.inv.applied _ happlied
    have hsound := h.inv.sound push (List.mem_of_getElem? hpush)
    obtain ⟨front, back, hsplit, hpending, hgo⟩ := mem_findSendableOps.mp (hsound.sendable op hop)
    exact ⟨push, front, back, hpush, hsplit, hpending, hgo, hresult, hsound.stops⟩
  · intro p hp hheld hacts
    obtain ⟨hinv, hkept, hsent⟩ := h.keeps_held h' hp hheld hacts
    refine ⟨hkept, fun i op happlied hi a hown ha => ?_⟩
    obtain ⟨push, hpush, hop, -⟩ := hinv.applied _ happlied
    have hsound := hinv.sound push (List.mem_of_getElem? hpush)
    obtain ⟨front, back, -, -, hgo⟩ := mem_findSendableOps.mp (hsound.sendable op hop)
    exact hgo (.held (hsent i push hpush hi) hheld hown ha)

end

end

/-- A drawer opened on the till, a bill under it, and a credit payment without a drawer. -/
def openOp : OutboxOp Server.SyncOpType := ⟨1, .shiftOpen, shiftAggregates 12, 1, .pending, 0⟩

def saleOp : OutboxOp Server.SyncOpType :=
  ⟨2, .saleCreate, saleAggregates 22 (some 12) none none, 2, .pending, 0⟩

def paymentOp : OutboxOp Server.SyncOpType :=
  ⟨3, .creditPaymentCreate, paymentAggregates 61 none 4, 3, .pending, 0⟩

/-- The batch of the drawer alone, answered. -/
def refusedPush : Push Server.SyncOpType := ⟨[openOp], [openOp], [], [(1, .rejected)]⟩

/-- The next one, put together when the bill and the payment had been recorded. -/
def laterPush : Push Server.SyncOpType :=
  ⟨[openOp.reject, saleOp, paymentOp], [paymentOp], [paymentOp], []⟩

/-- The drawer is refused; of what is recorded afterwards the payment is sent and applied, the bill
is not. -/
theorem dependants_held_back_of_openOp : ∃ S S' : Sync Server.SyncOpType,
    openOp.reject ∈ S.outbox ∧ S'.applied = [(1, paymentOp)] ∧
    openOp.reject ∈ S'.outbox ∧ ∀ i op, (i, op) ∈ S'.applied → S.sent.length ≤ i →
      .shift 12 ∉ op.aggregates := by
  -- the first batch, and its answer
  have h₁ : Run Sync.init [.enqueue openOp] ⟨[openOp], [], false, []⟩ :=
    .snoc (.nil _) (.enqueue rfl (by decide) (by decide))
  have h₂ : Run Sync.init [.enqueue openOp, .send]
      ⟨[openOp], [⟨[openOp], [openOp], [openOp], []⟩], true, []⟩ :=
    .snoc h₁ (.send rfl (List.cons_ne_nil openOp []))
  have h₃ : Run Sync.init [.enqueue openOp, .send, .serve 0 .rejected]
      ⟨[openOp], [refusedPush], true, []⟩ :=
    .snoc h₂ (@Step.serve _ _ 0 ⟨[openOp], [openOp], [openOp], []⟩ openOp [] .rejected rfl rfl)
  have h : Run Sync.init [.enqueue openOp, .send, .serve 0 .rejected, .receive 1]
      ⟨[openOp.reject], [refusedPush], false, []⟩ :=
    .snoc h₃ (@Step.receive _ _ refusedPush 1 rfl rfl rfl)
  -- what is recorded afterwards, and the second batch
  have h₄ : Run ⟨[openOp.reject], [refusedPush], false, []⟩ [.enqueue saleOp]
      ⟨[openOp.reject, saleOp], [refusedPush], false, []⟩ :=
    .snoc (.nil _) (.enqueue rfl (by decide) (by decide))
  have h₅ : Run ⟨[openOp.reject], [refusedPush], false, []⟩ [.enqueue saleOp, .enqueue paymentOp]
      ⟨[openOp.reject, saleOp, paymentOp], [refusedPush], false, []⟩ :=
    .snoc h₄ (.enqueue rfl (by decide) (by decide))
  have h₆ : Run ⟨[openOp.reject], [refusedPush], false, []⟩
      [.enqueue saleOp, .enqueue paymentOp, .send]
      ⟨[openOp.reject, saleOp, paymentOp], [refusedPush, laterPush], true, []⟩ :=
    .snoc h₅ (.send rfl (List.cons_ne_nil paymentOp []))
  have h' : Run ⟨[openOp.reject], [refusedPush], false, []⟩
      [.enqueue saleOp, .enqueue paymentOp, .send, .serve 1 .applied]
      ⟨[openOp.reject, saleOp, paymentOp],
        [refusedPush, laterPush.serve paymentOp [] .applied], true, [(1, paymentOp)]⟩ :=
    .snoc h₆ (@Step.serve _ _ 1 laterPush paymentOp [] .applied rfl rfl)
  obtain ⟨-, hheld⟩ := dependants_held_back h h'
  obtain ⟨hkept, hnone⟩ := hheld openOp.reject List.mem_cons_self rfl (by simp [Act.lifts])
  exact ⟨_, _, List.mem_cons_self, rfl, hkept, fun i op happlied hi => hnone i op happlied hi _ rfl⟩

/-! ## A day's outbox -/

/-- A drawer the till opened, a bill under it, a note at another price than the one sold at, and the
void of the bill the note names. -/
def mixedBatch : List Server.SyncOpDto :=
  [⟨1, 501, 601, .shiftOpen ⟨some 12, 50000⟩ none 1⟩,
    ⟨2, 502, 602, .saleCreate (Server.cashBill 22 1 Nat.one_pos) none (some 2)⟩,
    ⟨3, 503, 603, .returnCreate
      ⟨some 31, 21, none, .cash, [⟨7, "brake pad", 1, 90, none, Int.zero_lt_one⟩]⟩ none 3⟩,
    ⟨4, 504, 604, .saleVoidOffline 21 "wrong bill"⟩]

def pendingOp (dto : Server.SyncOpDto) (aggregates : List Aggregate) : OutboxOp Server.SyncOpDto :=
  ⟨dto.opId, dto, aggregates, dto.opId, .pending, 0⟩

def mixedOutbox : List (OutboxOp Server.SyncOpDto) :=
  List.zipWith pendingOp mixedBatch
    [shiftAggregates 12, saleAggregates 22 (some 12) none none, returnAggregates 31 21 (some 11),
      voidAggregates 21 (some 11)]

/-- Drawer 11 of the device is still open, with a bill sold offline in it; drawer 12 is another
device's. -/
def twoDrawers : Server.Db :=
  { Server.smallShop with
    shifts := (Table.empty.insert 11 (Server.newShift 1 0 0)).insert 12 (Server.newShift 2 0 0)
    sales := Table.empty.insert 21
      ⟨.other "RC01-2569-08-0001", 100, 0, 100, .cash, none, none, none, 0, some 11, true, none,
        false, none, [⟨1, 7, "brake pad", 1, 100, some 60, Int.zero_lt_one⟩]⟩ }

/-- The till sends the whole outbox at once. The server refuses the drawer and takes the bill onto
the one that is open; it refuses the note and voids the bill that the note names, which the till
would have sent with the note rejected before. -/
theorem dependants_applied_in_one_batch :
    nextBatch mixedOutbox = mixedOutbox ∧
    (∃ p : Server.PushState Nat,
      Server.PushRuns 0 ⟨1⟩ 0 (.init (Txn.Sys.init twoDrawers) (mixedOutbox.map (·.payload))) p ∧
      p.results.map (fun r => (r.opId, r.status.isApplied)) =
        [(1, false), (2, true), (3, false), (4, true)] ∧
      (p.sys.db.sales.get 22).map (·.shiftId) = some (some 11) ∧
      (p.sys.db.sales.get 21).map (·.voided) = some true) ∧
    ∀ note void, mixedOutbox[2]? = some note → mixedOutbox[3]? = some void →
      note.createdAt < void.createdAt ∧ (∃ a, void.own = some a ∧ a ∈ note.aggregates) ∧
        findSendableOps [note.reject, void] = [void] := by
  refine ⟨rfl, ?_, ?_⟩
  · have hserved : (Server.servedAlone ⟨1⟩ (fun opId => Server.plainEnv 1 (70 + opId)) mixedBatch
        twoDrawers).any (fun r =>
          decide (r.1.map (fun r => (r.opId, r.status.isApplied)) =
            [(1, false), (2, true), (3, false), (4, true)]) &&
          decide ((r.2.sales.get 22).map (·.shiftId) = some (some 11)) &&
          decide ((r.2.sales.get 21).map (·.voided) = some true)) = true := by
      decide +kernel
    obtain ⟨⟨rs, db⟩, hr, hall⟩ := Option.any_eq_true _ _ |>.mp hserved
    simp only [Bool.and_eq_true, decide_eq_true_eq] at hall
    obtain ⟨⟨hstatus, hsale⟩, hvoid⟩ := hall
    obtain ⟨p, hp, -, -, hresults, hdb⟩ :=
      @Server.runs_of_servedAlone Nat _ 0 ⟨1⟩ 0 _
        (.init (Txn.Sys.init twoDrawers) mixedBatch) rs db rfl rfl (fun _ => rfl) hr
    refine ⟨p, hp, ?_, hdb ▸ hsale, hdb ▸ hvoid⟩
    rw [hresults]
    exact hstatus
  · rintro note void ⟨⟩ ⟨⟩
    exact ⟨by decide, ⟨.sale 21, rfl, by decide⟩, rfl⟩

end Till

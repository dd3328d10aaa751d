import Mathlib.Logic.Function.Basic
import Mathlib.Data.Option.Basic
import Mathlib.Data.List.Basic

/-! # Attempts at the counter (`api_wire.dart`, the repositories that write)

A write of the counter is sent under an id and a key that are remembered until the server has given a
verdict, so that pressing again sends the same write again. Where the server cannot be reached it is
queued under the same id and key. Replies, pushes and the close of the shift run interleaved with the
attempts; a request that the till has given up may still arrive. -/

namespace Attempts

inductive Kind where
  | sale | creditNote | drawerEntry | creditPayment | customer | mechanic
  deriving DecidableEq

namespace Kind

/-- It goes to the outbox where the server cannot be reached. -/
def queues : Kind → Bool
  | .mechanic => false
  | _         => true

/-- Its operation says when it was made, which the body of its request does not. -/
def dated : Kind → Bool
  | .sale | .creditNote | .drawerEntry => true
  | _                                  => false

/-- It is stamped with the shift that is open. -/
def stamped : Kind → Bool
  | .customer | .mechanic => false
  | _                     => true

/-- The server refuses it while no shift is open. A credit note needs one for cash only. -/
def needsShift : Kind → Bool
  | .sale | .drawerEntry | .creditPayment => true
  | _                                     => false

/-- Discarding its operation takes its rows back. -/
def undone : Kind → Bool
  | .sale | .creditNote => true
  | _                   => false

end Kind

/-- What is on the screen: `content` is all that goes into a fingerprint. -/
structure Action where
  kind : Kind
  content : Nat
  deriving DecidableEq

/-- An attempt. The last two fields are for the reader: how often the action was finished before, and
the shift that was open at the server. -/
structure PendingWrite where
  fingerprint : Action
  id : Nat
  key : Nat
  life : Nat
  shift : Option Nat
  deriving DecidableEq

def PendingWrite.kind (w : PendingWrite) : Kind := w.fingerprint.kind

structure Parked where
  write : PendingWrite
  since : Nat

/-- A request's body, or an operation's payload. `printed` is what is not in the fingerprint: names,
or the consent to an overpayment. A mechanic has no id of its own. -/
structure Body where
  id : Option Nat
  fingerprint : Action
  printed : Nat
  date : Option Nat
  deriving DecidableEq

structure Op where
  write : PendingWrite
  body : Body
  rejected : Bool

structure Request where
  write : PendingWrite
  body : Body
  push : Bool

inductive Reply where
  | ok
  | failed (status : Nat)

/-- A request on its way to the server, or its reply on its way back. -/
inductive Flight where
  | asked (r : Request)
  | answered (r : Request) (reply : Reply)

def Flight.request : Flight → Request
  | .asked r | .answered r _ => r

/-- A document at the server. -/
structure Doc where
  id : Nat
  write : PendingWrite
  shift : Option Nat
  /-- when it was committed, among all that was numbered -/
  no : Nat

/-- A row of `idempotency_keys`. -/
structure KeyRow where
  body : Body
  doc : Nat
  createdAt : Nat

/-- An attempt that waits for a reply. -/
structure Waiting where
  write : PendingWrite
  body : Body
  flight : Nat

structure State where
  now : Nat
  /-- the next number, of an id, a key, a request, a shift or a commit -/
  next : Nat
  /-- `_open` of every repository, by fingerprint -/
  parked : List Parked
  /-- `_parkedPaymentBodies` -/
  bodies : Nat → Option Body
  waiting : Action → Option Waiting
  outbox : List Op
  /-- the attempts whose rows are in the local tables -/
  applied : List PendingWrite
  /-- the server's shift, and whether it is open -/
  active : Option (Nat × Bool)
  docs : List Doc
  keys : Nat → Option KeyRow
  wire : Nat → Option Flight
  closesAsked : Nat
  /-- the attempts made so far, those that told the counter they had succeeded, and those that were
  refused, discarded, or left when their time was over -/
  attempts : List PendingWrite
  reported : List PendingWrite
  refused : List PendingWrite
  discarded : List PendingWrite
  abandoned : List PendingWrite
  /-- how often each action was finished -/
  lives : Action → Nat
  /-- nothing was pressed since a close was sent -/
  checked : Bool
  /-- the shifts whose close was accepted, and the number of the close -/
  closes : List (Nat × Nat)

/-- What the till makes of a request that has no reply. -/
inductive Failure where
  | status (code : Nat)
  | unreadable
  | transport

inductive Act where
  | tick (d : Nat)
  /-- `degraded` is what the sync engine says, `overpays` the local check of a new payment, and `saves`
  whether the local checks of an offline write pass -/
  | press (a : Action) (printed : Nat) (degraded overpays saves : Bool)
  /-- the server does what is asked, if it has no reason to refuse -/
  | serve (n : Nat) (accepts : Bool)
  /-- a request is refused in front of its key, or fails -/
  | fail (n status : Nat)
  | lose (n : Nat)
  /-- `applies` says that the local write succeeds, `cached` that the shift of an entry is there -/
  | hear (a : Action) (applies cached : Bool)
  | giveUp (a : Action) (f : Failure) (saves : Bool)
  | push (w : PendingWrite)
  | settle (n : Nat)
  | resend (w : PendingWrite)
  | discard (w : PendingWrite) (serverHasRow : Bool)
  | cleanup (key : Nat)
  | openShift
  | closeShift
  | acceptClose

/-- `PendingWrites._ttl`, in seconds. -/
def ttl : Nat := 600

/-- `IDEMPOTENCY_TTL_SECONDS` -/
def idempotencyTtl : Nat := 86400

/-- `isVerdict` -/
def isVerdict (status : Nat) : Bool := status < 500 && status ≠ 429

def Parked.live (now : Nat) (p : Parked) : Bool := now < p.since + ttl

namespace State

variable (s : State)

def openShift : Option Nat :=
  match s.active with
  | some (k, true) => some k
  | _              => none

/-! ## The till -/

def lookup (a : Action) : Option Parked := s.parked.find? fun p => p.write.fingerprint = a

def mint (a : Action) (life : Nat) : PendingWrite := ⟨a, s.next, s.next + 1, life, s.openShift⟩

/-- A new attempt takes the place of what was parked under its fingerprint. -/
def park (w : PendingWrite) : State :=
  { s with
    next := s.next + 2
    parked := ⟨w, s.now⟩ :: s.parked.filter (·.write.fingerprint ≠ w.fingerprint)
    attempts := w :: s.attempts
    lives := Function.update s.lives w.fingerprint w.life }

/-- `PendingWrites.of` -/
def pendingOf (a : Action) : PendingWrite × State :=
  match s.lookup a with
  | some p =>
      if p.live s.now then (p.write, s)
      else
        (s.mint a (s.lives a + 1),
          { s with abandoned := p.write :: s.abandoned }.park (s.mint a (s.lives a + 1)))
  | none => (s.mint a (s.lives a), s.park (s.mint a (s.lives a)))

/-- `PendingWrites.close` -/
def close (w : PendingWrite) : State :=
  { s with
    parked := s.parked.filter (·.write.fingerprint ≠ w.fingerprint)
    bodies := Function.update s.bodies w.id none }

/-- The counter is told that the action is done. -/
def finish (w : PendingWrite) : State :=
  { s.close w with
    reported := w :: s.reported
    lives := Function.update s.lives w.fingerprint (s.lives w.fingerprint + 1) }

def refuse (w : PendingWrite) : State := { s.close w with refused := w :: s.refused }

/-- `PendingWrites.closeIfVerdict` -/
def closeIfVerdict (w : PendingWrite) (status : Nat) : State :=
  if isVerdict status then s.refuse w else s

/-- The operation of a write. A payment leaves no row until it is pushed. -/
def enqueue (w : PendingWrite) (body : Body) : State :=
  { s with
    outbox := s.outbox ++
      [⟨w, if w.kind.dated then { body with date := some s.now } else body, false⟩]
    applied := if w.kind = .creditPayment then s.applied else w :: s.applied }

/-- `_saveOffline`, and what stands for it in the other repositories. Refused, the attempt stays
parked. -/
def saveOffline (w : PendingWrite) (body : Body) (saves : Bool) : State :=
  if !w.kind.queues then s
  else if saves then (s.enqueue w body).finish w
  else { s with refused := w :: s.refused }

/-- Only a payment says when it was made. -/
def newBody (w : PendingWrite) (printed : Nat) : Body :=
  { id := if w.kind = .mechanic then none else some w.id
    fingerprint := w.fingerprint
    printed := printed
    date := if w.kind = .creditPayment then some s.now else none }

def fly (f : Flight) : State :=
  { s with
    next := s.next + 1
    wire := Function.update s.wire s.next (some f) }

/-- A payment keeps the body that it was sent with first. -/
def bodyOf (w : PendingWrite) (printed : Nat) : Body :=
  (if w.kind = .creditPayment then s.bodies w.id else none).getD (s.newBody w printed)

def keepBody (w : PendingWrite) (body : Body) : State :=
  if w.kind = .creditPayment then { s with bodies := Function.update s.bodies w.id (some body) } else s

def ask (w : PendingWrite) (body : Body) : State :=
  { s.fly (.asked ⟨w, body, false⟩) with
    waiting := Function.update s.waiting w.fingerprint (some ⟨w, body, s.next⟩) }

def send (w : PendingWrite) (printed : Nat) (degraded overpays saves : Bool) : State :=
  -- nothing was sent under the attempt: it is dropped
  if w.kind = .creditPayment ∧ s.bodies w.id = none ∧ overpays = true then s.refuse w
  else if (degraded || !s.outbox.isEmpty) && w.kind.queues then
    (s.keepBody w (s.bodyOf w printed)).saveOffline w (s.bodyOf w printed) saves
  else (s.keepBody w (s.bodyOf w printed)).ask w (s.bodyOf w printed)

def hang (a : Action) : State := { s with waiting := Function.update s.waiting a none }

def giveUp (w : Waiting) (f : Failure) (saves : Bool) : State :=
  match f with
  | .status code => s.closeIfVerdict w.write code
  | .unreadable  => s
  | .transport   => s.saveOffline w.write w.body saves

/-- What the server made of a write is stored, but not an entry whose shift is not in the cache. -/
def store (w : PendingWrite) (cached : Bool) : State :=
  if w.kind = .drawerEntry ∧ cached = false then s else { s with applied := w :: s.applied }

/-- What a reply does. Where the local write fails, the attempt stays parked. -/
def hear (w : PendingWrite) (applies cached : Bool) : Reply → State
  | .failed status => s.closeIfVerdict w status
  | .ok            => if applies then (s.store w cached).finish w else s

def markRejected (w : PendingWrite) (rejected : Op → Bool) : State :=
  { s with outbox := s.outbox.map fun op =>
      if op.write = w then { op with rejected := rejected op } else op }

/-- What comes of a pushed operation. -/
def settle (w : PendingWrite) : Reply → State
  | .ok =>
      { s with
        outbox := s.outbox.filter (·.write ≠ w)
        applied :=
          if w.kind = .creditPayment ∧ s.outbox.any (·.write = w) then w :: s.applied else s.applied }
  | .failed status => s.markRejected w fun op => op.rejected || isVerdict status

/-- The owner has the operation sent again. -/
def resend (w : PendingWrite) : State := s.markRejected w fun _ => false

/-- An operation is discarded, with what it had done unless the server has its document. -/
def discard (w : PendingWrite) (serverHasRow : Bool) : State :=
  if s.outbox.any (·.write = w) then
    { s with
      outbox := s.outbox.filter (·.write ≠ w)
      applied := if w.kind.undone && !serverHasRow then s.applied.filter (· ≠ w) else s.applied
      discarded := w :: s.discarded }
  else s

/-- `hasParkedAttempt` of the sales -/
def hasParkedSale : Bool := s.parked.any fun p => p.write.kind = .sale && p.live s.now

/-! ## The server -/

def answer (n : Nat) (r : Request) (reply : Reply) : State :=
  { s with wire := Function.update s.wire n (some (.answered r reply)) }

/-- The document with the id that the request brings. -/
def found (r : Request) : Option Nat :=
  r.body.id.filter fun id => s.docs.any fun d => d.write.kind = r.write.kind && d.id = id

def complete (r : Request) (doc : Nat) : State :=
  { s with keys := Function.update s.keys r.write.key (some ⟨r.body, doc, s.now⟩) }

def commit (r : Request) : State :=
  { s with
    next := s.next + 1
    docs := ⟨r.body.id.getD s.next, r.write, if r.write.kind.stamped then s.openShift else none, s.next⟩
      :: s.docs }.complete r (r.body.id.getD s.next)

/-- The key first, then the id of the document, then the work. -/
def serve (n : Nat) (r : Request) (accepts : Bool) : State :=
  match s.keys r.write.key with
  | some row =>
      -- a push also replays under a key whose body differs, for its own document
      if row.body = r.body ∨ r.push = true ∧ r.body.id = some row.doc then s.answer n r .ok
      else s.answer n r (.failed 409)
  | none =>
      match s.found r with
      | some id =>
          if r.push = true ∨ r.write.kind ≠ .customer then (s.complete r id).answer n r .ok
          else s.answer n r (.failed 409)
      | none =>
          if accepts = true ∧ (r.write.kind.needsShift = true → s.openShift ≠ none) then
            (s.commit r).answer n r .ok
          else s.answer n r (.failed 409)

end State

/-- One act. Where what it is about is elsewhere, nothing happens. -/
def step (a : Act) (s : State) : State :=
  match a with
  | .tick d => { s with now := s.now + d }
  | .press a printed degraded overpays saves =>
      match s.waiting a with
      | some _ => s
      | none   =>
          { (s.pendingOf a).2 with checked := false }.send (s.pendingOf a).1 printed degraded overpays saves
  | .serve n accepts =>
      match s.wire n with
      | some (.asked r) => s.serve n r accepts
      | _               => s
  | .fail n status =>
      match s.wire n with
      | some (.asked r) => s.answer n r (.failed status)
      | _               => s
  | .lose n => { s with wire := Function.update s.wire n none }
  | .hear a applies cached =>
      match s.waiting a with
      | some w =>
          match s.wire w.flight with
          | some (.answered _ reply) => (s.hang a).hear w.write applies cached reply
          | _                        => s
      | none => s
  | .giveUp a f saves =>
      match s.waiting a with
      | some w => (s.hang a).giveUp w f saves
      | none   => s
  | .push w =>
      match s.outbox.find? fun op => op.write = w && !op.rejected with
      | some op => s.fly (.asked ⟨w, op.body, true⟩)
      | none    => s
  | .settle n =>
      match s.wire n with
      | some (.answered r reply) => if r.push then s.settle r.write reply else s
      | _                        => s
  | .resend w => s.resend w
  | .discard w serverHasRow => s.discard w serverHasRow
  | .cleanup key =>
      match s.keys key with
      | some row =>
          if row.createdAt + idempotencyTtl < s.now then
            { s with keys := Function.update s.keys key none }
          else s
      | none => s
  | .openShift => { s with active := some (s.next, true), next := s.next + 1 }
  | .closeShift =>
      -- what is parked elsewhere, or awaits its reply, is not asked for
      if s.outbox.isEmpty && !s.hasParkedSale then
        { s with closesAsked := s.closesAsked + 1, checked := true }
      else s
  | .acceptClose =>
      match s.active with
      | some (k, true) =>
          if 0 < s.closesAsked then
            { s with
              active := some (k, false)
              closesAsked := s.closesAsked - 1
              closes := (k, s.next) :: s.closes }
          else s
      | _ => s

def run (acts : List Act) (s : State) : State := acts.foldl (fun s a => step a s) s

/-- Every act of the run meets `P`. -/
def AllMeet (P : State → Act → Prop) : List Act → State → Prop
  | [], _        => True
  | a :: acts, s => P s a ∧ AllMeet P acts (step a s)

/-- The app has started, with nothing on its way and no document made by it yet. -/
structure State.Start (s : State) : Prop where
  parked : s.parked = []
  bodies : ∀ id, s.bodies id = none
  waiting : ∀ a, s.waiting a = none
  outbox : s.outbox = []
  applied : s.applied = []
  docs : s.docs = []
  keys : ∀ k, s.keys k = none
  wire : ∀ n, s.wire n = none
  attempts : s.attempts = []
  reported : s.reported = []
  discarded : s.discarded = []
  checked : s.checked = false
  closes : s.closes = []
  active : ∀ k o, s.active = some (k, o) → k < s.next

/-- The document of the attempt is on file. -/
def State.OnFile (s : State) (w : PendingWrite) : Prop := ∃ d ∈ s.docs, d.write = w

/-- Neither the server nor the way to it has the attempt. -/
def State.Nowhere (s : State) (w : PendingWrite) : Prop :=
  ¬s.OnFile w ∧ ∀ n r, s.wire n = some (.asked r) → r.write ≠ w

end Attempts

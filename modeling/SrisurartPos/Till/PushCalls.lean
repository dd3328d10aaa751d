import SrisurartPos.Till.PushLoop

/-! # Calls of `push` (`sync_service.dart`)

Screens, the health probe and whoever writes to the outbox call `push` at any time. The first call runs the
loop over batches. A call that finds it running leaves a request and waits for the loop's end; the loop reads
the outbox again for it. A loop that is cut short, by a failure, a refusal or a `retry`, forgets the request.

Between two awaits the loop has the thread for itself; at an await anybody may write to the outbox, call
`push`, change the status or dispose of the service. -/

namespace Till.PushCalls

variable {P : Type}

/-! ## The service -/

inductive SyncStatus where
  | online | degraded | syncing
  deriving DecidableEq, Repr

/-- How a loop ends. -/
inductive End where
  /-- nothing may be sent -/
  | drained
  /-- no usable answer, 429 or a 5xx -/
  | failed
  /-- any other 4xx -/
  | refused
  /-- the server asks for a retry -/
  | retried
  /-- an exception -/
  | threw
  | disposed
  deriving DecidableEq, Repr

/-- The loop has not come to look whether anything is left. -/
def End.cutShort : End → Bool
  | .failed | .refused | .retried | .threw => true
  | .drained | .disposed                   => false

/-- What the loop awaits. -/
inductive Phase (P : Type) where
  | reading
  /-- the rows are there, the loop has yet to go on -/
  | read (ops : List (OutboxOp P))
  /-- `getDeviceToken` -/
  | token (batch : List (OutboxOp P))
  | posting (batch : List (OutboxOp P))
  /-- `_handleHeadFailure`: the head's row, its update, the refresh -/
  | headRow (head : Nat)
  | headUpdate (head attempts : Nat)
  | headRefresh
  /-- the row of a result, and the results after it -/
  | result (batch : List (OutboxOp P)) (opId : Nat) (v : Verdict) (rest : List ResultEntry)
  | retryUpdate (opId attempts : Nat)
  | refreshing (stoppedAtRetry : Bool)

/-- A call that runs the loop. -/
structure Loop (P : Type) where
  completer : Nat
  phase : Phase P

structure State (P : Type) where
  outbox : List (OutboxOp P)
  disposed : Bool
  status : SyncStatus
  consecutiveHealthFailures : Nat
  isPushing : Bool
  pushRequested : Bool
  activePushCompleter : Option Nat
  nextCompleter : Nat
  loops : List (Loop P)
  /-- who waits, and for which completer -/
  waiting : List (Nat × Nat)
  /-- how many pulls `push` has begun -/
  pulls : Nat
  /-- how the last loop ended -/
  lastEnd : Option End
  /-- somebody has written to the outbox since a loop read it and since `push` was called -/
  unannounced : Bool

/-- The app starts, with what an earlier session left in the outbox. -/
def State.start (outbox : List (OutboxOp P)) : State P :=
  { outbox, disposed := false, status := .online, consecutiveHealthFailures := 0, isPushing := false,
    pushRequested := false, activePushCompleter := none, nextCompleter := 0, loops := [], waiting := [],
    pulls := 0, lastEnd := none, unannounced := true }

/-! ## The calls -/

section
variable (s : State P)

def State.setStatus (status : SyncStatus) : State P := if s.disposed then s else { s with status }

/-- `push`, as far as its first await. -/
def State.push (caller : Option Nat) : State P :=
  if s.disposed then s
  else if s.isPushing then
    { s with
      pushRequested := true
      unannounced := false
      waiting := (s.activePushCompleter.bind fun k => caller.map (·, k)).toList ++ s.waiting }
  else
    { s with
      isPushing := true
      activePushCompleter := some s.nextCompleter
      nextCompleter := s.nextCompleter + 1
      pushRequested := false
      unannounced := false
      loops := ⟨s.nextCompleter, .reading⟩ :: s.loops }

/-- The loop awaits something. -/
def State.await (L : Loop P) (phase : Phase P) : State P := { s with loops := { L with phase } :: s.loops }

/-- The flags and the completer, in `finally`. -/
def State.complete (L : Loop P) (e : End) : State P :=
  { s with
    isPushing := false
    activePushCompleter := none
    waiting := s.waiting.filter fun w => w.2 ≠ L.completer
    lastEnd := some e }

/-- `finally` -/
def State.finish (L : Loop P) (e : End) : State P :=
  let s := s.complete L e
  if s.pushRequested = true ∧ s.disposed = false then s.push none
  else if s.status = .online ∧ s.disposed = false then { s with pulls := s.pulls + 1 }
  else s

/-- The loop ends without the request that was left. -/
def State.cut (L : Loop P) (e : End) : State P := State.finish { s with pushRequested := false } L e

/-- Round the loop once more. -/
def State.again (L : Loop P) : State P :=
  if s.disposed then s.finish L .disposed else State.await { s with pushRequested := false } L .reading

/-- The loop over the results, as far as the next await. -/
def State.settle (L : Loop P) (batch : List (OutboxOp P)) : List ResultEntry → State P
  | []                        => s.await L (.refreshing false)
  | .skipped :: rest          => State.settle L batch rest
  | .settled opId v :: rest   =>
      s.await L (if s.disposed then .refreshing false else .result batch opId v rest)
  | .illTyped :: _            => if s.disposed then s.await L (.refreshing false) else s.finish L .threw

def State.row (opId : Nat) : Option (OutboxOp P) := s.outbox.find? fun p => p.opId = opId

/-- The rows of an operation that was tried `attempts` times. -/
def State.tried (opId attempts : Nat) : State P :=
  { s with
    outbox := updateOp opId
      (fun op => { op with attempts, status := if attempts ≥ 3 then .stuck else .pending }) s.outbox }

/-- How an await ends. -/
inductive Await where
  | done
  | answer (a : PushAnswer)
  | throws

/-- The loop goes on with what the request has come back with. -/
def State.receive (L : Loop P) (batch : List (OutboxOp P)) (answer : PushAnswer) : State P :=
  if s.disposed then s.finish L .disposed
  else
    match answer, batch with
    | .failed, head :: _   => (s.setStatus .degraded).await L (.headRow head.opId)
    | .failed, []          => s.finish L .threw
    | .refused, _          => s.cut L .refused
    | .results entries, _  => s.settle L batch entries

/-- The loop `L`, which is not among `s.loops` meanwhile, goes on. -/
def State.resume (L : Loop P) : Phase P → Await → State P
  | .reading, .done => State.await { s with unannounced := false } L (.read (inOrder s.outbox))
  | .read ops, _ =>
      if s.disposed then s.finish L .disposed
      else
        match (findSendableOps ops).take batchSize with
        | []          =>
            State.finish { s with status := if s.status = .syncing then .online else s.status } L .drained
        | op :: batch => s.await L (.token (op :: batch))
  | .token batch, .done => if s.disposed then s.finish L .disposed else s.await L (.posting batch)
  | .posting batch, .answer a => s.receive L batch a
  | .posting batch, _ => s.receive L batch .failed
  | .headRow head, .done =>
      match s.row head with
      | none    => s.cut L .failed
      | some op => s.await L (.headUpdate head (op.attempts + 1))
  | .headUpdate head attempts, .done => (s.tried head attempts).await L .headRefresh
  | .headRefresh, _ => s.cut L .failed
  | .result batch opId .applied rest, .done =>
      State.settle { s with outbox := s.outbox.filter fun p => p.opId ≠ opId } L batch rest
  | .result batch opId .rejected rest, .done =>
      State.settle { s with outbox := updateOp opId OutboxOp.reject s.outbox } L batch rest
  | .result batch opId .retry _, .done =>
      match s.row (retried batch opId) with
      | none    => s.await L (.refreshing true)
      | some op => s.await L (.retryUpdate op.opId (op.attempts + 1))
  | .retryUpdate opId attempts, .done => (s.tried opId attempts).await L (.refreshing true)
  | .refreshing stoppedAtRetry, _ => if stoppedAtRetry then s.cut L .retried else s.again L
  | _, _ => s.finish L .threw

/-- What a health probe finds. -/
inductive Health where
  | success | slow | failure
  deriving DecidableEq, Repr

/-- `checkHealth`, once the answer is there. -/
def State.probed (health : Health) : State P :=
  if s.disposed then s
  else
    match health with
    | .success =>
        if s.status = .degraded then
          State.push { s with consecutiveHealthFailures := 0, status := .syncing } none
        else { s with consecutiveHealthFailures := 0 }
    | .slow    => s.setStatus .degraded
    | .failure =>
        let s := { s with consecutiveHealthFailures := s.consecutiveHealthFailures + 1 }
        if s.consecutiveHealthFailures ≥ 3 then s.setStatus .degraded else s

end

/-! ## Runs -/

inductive Move (P : Type) where
  | call (caller : Nat)
  /-- somebody else writes to the outbox -/
  | write (outbox : List (OutboxOp P))
  | advance (i : Nat) (x : Await)
  | probe (health : Health)
  | recordNonVerdictWrite
  | dispose

def step (s : State P) : Move P → State P
  | .call caller => s.push (some caller)
  | .write outbox => { s with outbox, unannounced := true }
  | .advance i x =>
      match s.loops[i]? with
      | none   => s
      | some L => State.resume { s with loops := s.loops.eraseIdx i } L L.phase x
  | .probe health => s.probed health
  | .recordNonVerdictWrite => s.setStatus .degraded
  | .dispose => { s with disposed := true }

def run (s : State P) (moves : List (Move P)) : State P := moves.foldl step s

/-! ## One loop at a time -/

section
variable {s : State P} {L : Loop P}

/-- `L` is the loop in progress, taken out of the others, and they are none. -/
structure Going (s : State P) (L : Loop P) : Prop where
  pushing : s.isPushing = true
  active : s.activePushCompleter = some L.completer
  alone : s.loops = []
  waiting : ∀ w ∈ s.waiting, w.2 = L.completer

/-- Rows that were read without a request since are the rows of the outbox, but for what nobody announced. -/
def Seen (s : State P) (phase : Phase P) : Prop :=
  ∀ ops, phase = .read ops → s.pushRequested = false → s.unannounced = false → ops = inOrder s.outbox

/-- What a loop that ended has left. -/
structure AtRest (s : State P) : Prop where
  drained : s.lastEnd = some .drained → s.unannounced = false → nextBatch s.outbox = []
  status : s.status = .syncing → ∃ e, s.lastEnd = some e ∧ e.cutShort = true

inductive Inv (s : State P) : Prop where
  | idle : s.isPushing = false → s.loops = [] → s.waiting = [] → (s.disposed = false → AtRest s) → Inv s
  | busy (L : Loop P) : s.loops = [L] → Going { s with loops := [] } L → Seen s L.phase → Inv s

theorem Inv.start (outbox : List (OutboxOp P)) : Inv (.start outbox) := by
  refine .idle rfl rfl rfl fun _ => ⟨fun h => ?_, fun h => ?_⟩
  · cases h
  · cases h

/-! ### What the loop does -/

theorem Going.await (h : Going s L) {phase : Phase P} (hseen : Seen s phase) : Inv (s.await L phase) := by
  refine .busy { L with phase } ?_ ⟨h.pushing, h.active, rfl, h.waiting⟩ hseen
  rw [State.await, h.alone]

/-- A phase in which nothing was read. -/
theorem Going.await_blind (h : Going s L) {phase : Phase P} (hphase : ∀ ops, phase ≠ .read ops) :
    Inv (s.await L phase) :=
  h.await fun ops heq => absurd heq (hphase ops)

/-- A call where no loop runs starts one. -/
theorem inv_push_idle {caller : Option Nat} (hlive : s.disposed = false) (hidle : s.isPushing = false)
    (hloops : s.loops = []) (hwaiting : s.waiting = []) : Inv (s.push caller) := by
  have hstart : s.push caller = { s with
      isPushing := true
      activePushCompleter := some s.nextCompleter
      nextCompleter := s.nextCompleter + 1
      pushRequested := false
      unannounced := false
      loops := ⟨s.nextCompleter, .reading⟩ :: s.loops } := by
    simp [State.push, hlive, hidle]
  rw [hstart, hloops]
  refine .busy ⟨s.nextCompleter, .reading⟩ rfl ⟨rfl, rfl, rfl, fun w hw => ?_⟩ fun ops heq => by cases heq
  rw [show _ = s.waiting from rfl, hwaiting] at hw
  cases hw

theorem Going.complete_waiting (h : Going s L) (e : End) : (s.complete L e).waiting = [] := by
  refine List.filter_eq_nil_iff.mpr fun w hw => ?_
  simp [h.waiting w hw]

/-- **The end of a loop**: nobody waits for it any more, and either another loop answers the request that was
left, or what the loop has seen is how things are. -/
theorem Going.finish (h : Going s L) {e : End}
    (hdrained : s.disposed = false → s.pushRequested = false → e = .drained → s.unannounced = false →
      nextBatch s.outbox = [])
    (hstatus : s.disposed = false → s.pushRequested = false → s.status = .syncing → e.cutShort = true) :
    Inv (s.finish L e) := by
  have hwaiting := h.complete_waiting e
  by_cases hmore : s.pushRequested = true ∧ s.disposed = false
  · have hpush : s.finish L e = (s.complete L e).push none := if_pos hmore
    rw [hpush]
    exact inv_push_idle hmore.2 rfl h.alone hwaiting
  · have hrest : s.disposed = false → s.pushRequested = false := by
      intro hlive
      by_contra hreq
      exact hmore ⟨by simpa using hreq, hlive⟩
    have hleft : ∀ pulls, Inv { s.complete L e with pulls } := by
      intro pulls
      refine .idle rfl h.alone hwaiting fun hlive => ⟨fun hend => ?_, fun hsyncing => ⟨e, rfl, ?_⟩⟩
      · exact hdrained hlive (hrest hlive) (Option.some.inj hend)
      · exact hstatus hlive (hrest hlive) hsyncing
    have hfinish : s.finish L e = if s.status = .online ∧ s.disposed = false then
        { s.complete L e with pulls := s.pulls + 1 } else s.complete L e := if_neg hmore
    rw [hfinish]
    split
    · exact hleft _
    · exact hleft s.pulls

theorem Going.finish_cut (h : Going s L) {e : End} (he : e.cutShort = true) : Inv (s.finish L e) :=
  h.finish (fun _ _ heq => by rw [heq] at he; cases he) fun _ _ _ => he

theorem Going.finish_disposed (h : Going s L) (hdisposed : s.disposed = true) : Inv (s.finish L .disposed) :=
  h.finish (fun hlive => by rw [hdisposed] at hlive; cases hlive) fun hlive => by
    rw [hdisposed] at hlive
    cases hlive

theorem Going.cut (h : Going s L) {e : End} (he : e.cutShort = true) : Inv (s.cut L e) :=
  Going.finish_cut (s := { s with pushRequested := false }) ⟨h.pushing, h.active, h.alone, h.waiting⟩ he

theorem Going.again (h : Going s L) : Inv (s.again L) := by
  rw [State.again]
  split
  · exact h.finish_disposed ‹_›
  · exact Going.await_blind (s := { s with pushRequested := false })
      ⟨h.pushing, h.active, h.alone, h.waiting⟩ fun ops heq => by cases heq

/-- Settling the results of a batch keeps the invariant. -/
theorem Going.settle (h : Going s L) (batch : List (OutboxOp P)) (entries : List ResultEntry) :
    Inv (s.settle L batch entries) := by
  have hrefresh : Inv (s.await L (.refreshing false)) := h.await_blind fun ops heq => by cases heq
  induction entries with
  | nil => exact hrefresh
  | cons e rest ih =>
      cases e with
      | skipped => exact ih
      | settled opId v =>
          rw [State.settle]
          split
          · exact hrefresh
          · exact h.await_blind fun ops heq => by cases heq
      | illTyped =>
          rw [State.settle]
          split
          · exact hrefresh
          · exact h.finish_cut rfl

/-- So does hearing the answer to it. -/
theorem Going.receive (h : Going s L) (batch : List (OutboxOp P)) (answer : PushAnswer) :
    Inv (s.receive L batch answer) := by
  unfold State.receive
  split
  · exact h.finish_disposed ‹_›
  · rename_i hlive
    have hdegraded : s.setStatus .degraded = { s with status := .degraded } := if_neg hlive
    cases answer with
    | failed =>
        cases batch with
        | nil => exact h.finish_cut rfl
        | cons head batch =>
            rw [hdegraded]
            exact Going.await_blind (s := { s with status := .degraded })
              ⟨h.pushing, h.active, h.alone, h.waiting⟩ fun ops heq => by cases heq
    | refused => exact h.cut rfl
    | results entries => exact h.settle batch entries

/-- **A call that goes on keeps the invariant**, at each of its awaits. -/
theorem Going.resume (h : Going s L) {phase : Phase P} (hseen : Seen s phase) (x : Await) :
    Inv (s.resume L phase x) := by
  have hthrew : Inv (s.finish L .threw) := h.finish_cut rfl
  cases phase with
  -- from here on the round knows of what has been queued
  | reading =>
      cases x with
      | done =>
          refine Going.await (s := { s with unannounced := false }) ⟨h.pushing, h.active, h.alone, h.waiting⟩ ?_
          rintro ops ⟨rfl⟩ _ _
          rfl
      | answer a => exact hthrew
      | throws => exact hthrew
  | read ops =>
      have hread : s.resume L (.read ops) x = if s.disposed then s.finish L .disposed else
          match (findSendableOps ops).take batchSize with
          | []          => State.finish
              { s with status := if s.status = .syncing then .online else s.status } L .drained
          | op :: batch => s.await L (.token (op :: batch)) := by cases x <;> rfl
      -- whatever the await gave, the batch is cut from what was read
      rw [hread]
      split
      · exact h.finish_disposed ‹_›
      · cases hbatch : (findSendableOps ops).take batchSize with
        | nil =>
            refine Going.finish
              (s := { s with status := if s.status = .syncing then .online else s.status })
              ⟨h.pushing, h.active, h.alone, h.waiting⟩ (fun _ hreq _ hseen' => ?_) fun _ _ hsyncing => ?_
            · rw [nextBatch, ← hseen ops rfl hreq hseen']
              exact hbatch
            · -- `online` has been set
              dsimp only at hsyncing
              split at hsyncing
              · cases hsyncing
              · contradiction
        | cons op batch => exact h.await_blind fun ops heq => by cases heq
  | token batch =>
      cases x with
      | done =>
          rw [State.resume]
          split
          · exact h.finish_disposed ‹_›
          · exact h.await_blind fun ops heq => by cases heq
      | answer a => exact hthrew
      | throws => exact hthrew
  -- a request that threw is a reply that failed
  | posting batch =>
      cases x with
      | done => exact h.receive batch .failed
      | answer a => exact h.receive batch a
      | throws => exact h.receive batch .failed
  -- the server was not reached: the head operation counts one try
  | headRow head =>
      cases x with
      | done =>
          rw [State.resume]
          split
          · exact h.cut rfl
          · exact h.await_blind fun ops heq => by cases heq
      | answer a => exact hthrew
      | throws => exact hthrew
  | headUpdate head attempts =>
      cases x with
      | done =>
          exact Going.await_blind (s := s.tried head attempts)
            ⟨h.pushing, h.active, h.alone, h.waiting⟩ fun ops heq => by cases heq
      | answer a => exact hthrew
      | throws => exact hthrew
  | headRefresh => cases x <;> exact h.cut rfl
  -- one result after the other; `retry` writes its row in a step of its own
  | result batch opId v rest =>
      cases x with
      | done =>
          cases v with
          | applied =>
              exact Going.settle (s := { s with outbox := s.outbox.filter fun p => p.opId ≠ opId })
                ⟨h.pushing, h.active, h.alone, h.waiting⟩ batch rest
          | rejected =>
              exact Going.settle (s := { s with outbox := updateOp opId OutboxOp.reject s.outbox })
                ⟨h.pushing, h.active, h.alone, h.waiting⟩ batch rest
          | retry =>
              rw [State.resume]
              split
              · exact h.await_blind fun ops heq => by cases heq
              · exact h.await_blind fun ops heq => by cases heq
      | answer a => cases v <;> exact hthrew
      | throws => cases v <;> exact hthrew
  | retryUpdate opId attempts =>
      cases x with
      | done =>
          exact Going.await_blind (s := s.tried opId attempts)
            ⟨h.pushing, h.active, h.alone, h.waiting⟩ fun ops heq => by cases heq
      | answer a => exact hthrew
      | throws => exact hthrew
  -- the last step of a round: it ends the call or goes round again
  | refreshing stopped =>
      have hrefresh : s.resume L (.refreshing stopped) x =
          if stopped then s.cut L .retried else s.again L := by cases x <;> rfl
      rw [hrefresh]
      split
      · exact h.cut rfl
      · exact h.again

/-! ### What anybody does -/

/-- A new call, which begins or joins the one that is going, keeps the invariant. -/
theorem Inv.push (h : Inv s) (caller : Option Nat) : Inv (s.push caller) := by
  cases h with
  | idle hidle hloops hwaiting hrest =>
      cases hlive : s.disposed with
      | false => exact inv_push_idle hlive hidle hloops hwaiting
      | true =>
          have hsame : s.push caller = s := if_pos hlive
          rw [hsame]
          exact .idle hidle hloops hwaiting hrest
  | busy L hloops hgoing hseen =>
      unfold State.push
      split
      · exact .busy L hloops hgoing hseen
      · rw [if_pos hgoing.pushing]
        refine .busy L hloops ⟨hgoing.pushing, hgoing.active, rfl, fun w hw => ?_⟩
          fun ops _ hreq => by cases hreq
        rcases List.mem_append.mp hw with hw | hw
        · have hactive : s.activePushCompleter = some L.completer := hgoing.active
          rw [hactive] at hw
          cases caller with
          | none => cases hw
          | some c =>
              obtain rfl := List.mem_singleton.mp hw
              rfl
        · exact hgoing.waiting w hw

/-- A change of the status to anything but `syncing`. -/
theorem Inv.status (h : Inv s) {status : SyncStatus} (hstatus : status ≠ .syncing) : Inv { s with status } := by
  cases h with
  | idle hidle hloops hwaiting hrest =>
      exact .idle hidle hloops hwaiting fun hlive => ⟨(hrest hlive).drained, fun hsyncing => absurd hsyncing hstatus⟩
  | busy L hloops hgoing hseen =>
      exact .busy L hloops ⟨hgoing.pushing, hgoing.active, rfl, hgoing.waiting⟩ hseen

theorem Inv.setStatus (h : Inv s) : Inv (s.setStatus .degraded) := by
  rw [State.setStatus]
  split
  · exact h
  · exact h.status (by decide)

/-- `syncing` is set where `push` is called. -/
theorem Inv.syncing (h : Inv s) (hlive : s.disposed = false) :
    Inv (State.push { s with consecutiveHealthFailures := 0, status := .syncing } none) := by
  cases h with
  | idle hidle hloops hwaiting hrest => exact inv_push_idle hlive hidle hloops hwaiting
  | busy L hloops hgoing hseen =>
      exact Inv.push (s := { s with consecutiveHealthFailures := 0, status := .syncing })
        (.busy L hloops ⟨hgoing.pushing, hgoing.active, rfl, hgoing.waiting⟩ hseen) none

theorem Inv.counted (h : Inv s) (consecutiveHealthFailures : Nat) :
    Inv { s with consecutiveHealthFailures } := by
  cases h with
  | idle hidle hloops hwaiting hrest =>
      exact .idle hidle hloops hwaiting fun hlive => ⟨(hrest hlive).drained, (hrest hlive).status⟩
  | busy L hloops hgoing hseen =>
      exact .busy L hloops ⟨hgoing.pushing, hgoing.active, rfl, hgoing.waiting⟩ hseen

/-- A probe of the server keeps the invariant. -/
theorem Inv.probed (h : Inv s) (health : Health) : Inv (s.probed health) := by
  unfold State.probed
  split
  · exact h
  · rename_i hlive
    cases health with
    | success =>
        dsimp only
        split
        · exact h.syncing (by simpa using hlive)
        · exact h.counted 0
    | slow => exact h.setStatus
    | failure =>
        dsimp only
        split
        · exact (h.counted _).setStatus
        · exact h.counted _

/-- What anybody writes is not announced yet. -/
theorem Inv.write (h : Inv s) (outbox : List (OutboxOp P)) : Inv { s with outbox, unannounced := true } := by
  cases h with
  | idle hidle hloops hwaiting hrest =>
      exact .idle hidle hloops hwaiting fun hlive => ⟨fun _ hann => (by cases hann), (hrest hlive).status⟩
  | busy L hloops hgoing hseen =>
      exact .busy L hloops ⟨hgoing.pushing, hgoing.active, rfl, hgoing.waiting⟩ fun ops _ _ hann => by cases hann

theorem Inv.dispose (h : Inv s) : Inv { s with disposed := true } := by
  cases h with
  | idle hidle hloops hwaiting hrest => exact .idle hidle hloops hwaiting fun hlive => by cases hlive
  | busy L hloops hgoing hseen =>
      exact .busy L hloops ⟨hgoing.pushing, hgoing.active, rfl, hgoing.waiting⟩ hseen

/-- Every move keeps the invariant. -/
theorem Inv.step (h : Inv s) (m : Move P) : Inv (step s m) := by
  cases m with
  | call caller => exact h.push (some caller)
  | write outbox => exact h.write outbox
  | advance i x =>
      cases h with
      | idle hidle hloops hwaiting hrest =>
          have hnone : s.loops[i]? = none := by rw [hloops, List.getElem?_nil]
          rw [PushCalls.step, hnone]
          exact .idle hidle hloops hwaiting hrest
      | busy L hloops hgoing hseen =>
          cases i with
          | zero =>
              have hfirst : s.loops[0]? = some L := by rw [hloops, List.getElem?_cons_zero]
              have hothers : s.loops.eraseIdx 0 = [] := by rw [hloops, List.eraseIdx_cons_zero]
              rw [PushCalls.step, hfirst, hothers]
              exact hgoing.resume hseen x
          | succ i =>
              have hnone : s.loops[i + 1]? = none := by rw [hloops, List.getElem?_cons_succ, List.getElem?_nil]
              rw [PushCalls.step, hnone]
              exact .busy L hloops hgoing hseen
  | probe health => exact h.probed health
  | recordNonVerdictWrite => exact h.setStatus
  | dispose => exact h.dispose

theorem run_inv (h : Inv s) (moves : List (Move P)) : Inv (run s moves) := by
  induction moves generalizing s with
  | nil => exact h
  | cons m moves ih => exact ih (h.step m)

end

/-! ## What every run keeps -/

section
variable {outbox : List (OutboxOp P)} {moves : List (Move P)}

/-- One loop at most, which has the flag and the completer; who waits, waits for it. -/
structure SingleFlight (s : State P) : Prop where
  one : s.loops.length ≤ 1
  flag : s.isPushing = true ↔ s.loops ≠ []
  completer : ∀ L ∈ s.loops, s.activePushCompleter = some L.completer
  waiting : ∀ w ∈ s.waiting, ∃ L ∈ s.loops, L.completer = w.2

/-- **Single flight.** Whoever calls `push` whenever, one loop at most runs, and a call that joins it is held up
no longer than the loop goes on. -/
theorem push_single_flight (outbox : List (OutboxOp P)) (moves : List (Move P)) :
    SingleFlight (run (.start outbox) moves) := by
  cases run_inv (.start outbox) moves with
  | idle hidle hloops hwaiting _ =>
      refine ⟨by simp [hloops], ?_, fun L hL => ?_, fun w hw => ?_⟩
      · simp [hidle, hloops]
      · rw [hloops] at hL
        cases hL
      · rw [hwaiting] at hw
        cases hw
  | busy L hloops hgoing _ =>
      refine ⟨by simp [hloops], ?_, fun L' hL => ?_, fun w hw => ?_⟩
      · have hpushing : (run (.start outbox) moves).isPushing = true := hgoing.pushing
        simp [hpushing, hloops]
      · rw [hloops] at hL
        obtain rfl := List.mem_singleton.mp hL
        exact hgoing.active
      · exact ⟨L, by simp [hloops], (hgoing.waiting w hw).symm⟩

/-- **No call is missed.** Once no loop runs, in a service that is in use: if the last loop came to its end,
nothing that was announced waits in the outbox, and `syncing` is shown only where a loop was cut short. -/
theorem push_misses_nothing (hloops : (run (.start outbox) moves).loops = [])
    (hlive : (run (.start outbox) moves).disposed = false) : AtRest (run (.start outbox) moves) := by
  cases run_inv (.start outbox) moves with
  | idle _ _ _ hrest => exact hrest hlive
  | busy L hone _ _ =>
      rw [hone] at hloops
      cases hloops

/-! ### A bill is sent -/

/-- A bill that an earlier session left, and a call for it; another call comes while the request is away. -/
def oneBill : List (Move Unit) :=
  [.call 1, .advance 0 .done, .advance 0 .done, .advance 0 .done, .call 2,
   .advance 0 (.answer (.results [.settled 7 .applied])), .advance 0 .done, .advance 0 .done, .advance 0 .done,
   .advance 0 .done]

theorem push_misses_nothing_oneBill :
    (run (.start [⟨7, (), saleAggregates 21 none none none, 1, .pending, 0⟩]) oneBill).lastEnd = some .drained ∧
    (run (.start [⟨7, (), saleAggregates 21 none none none, 1, .pending, 0⟩]) oneBill).outbox = [] ∧
    AtRest (run (.start [⟨7, (), saleAggregates 21 none none none, 1, .pending, 0⟩]) oneBill) :=
  ⟨by decide +kernel, by decide +kernel, push_misses_nothing (by decide +kernel) (by decide +kernel)⟩

/-- The owner discards the stuck bill that another one waits for, and nobody calls `push`: the other one may be
sent and is not. -/
example :
    let stuck : OutboxOp Unit := ⟨7, (), saleAggregates 21 none none none, 1, .stuck, 3⟩
    let note : OutboxOp Unit := ⟨8, (), returnAggregates 31 21 none, 2, .pending, 0⟩
    let s := run (.start [stuck, note]) [.call 1, .advance 0 .done, .advance 0 .done, .write [note]]
    s.loops.length = 0 ∧ s.lastEnd = some .drained ∧ s.unannounced = true ∧ nextBatch s.outbox = [note] := by
  decide +kernel

end

end Till.PushCalls

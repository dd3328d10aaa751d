import SrisurartPos.Till.Outbox

/-! # The push loop (`SyncService.push`)

One call of `push` sends batch after batch until nothing may be sent, or until an answer ends it. An
answer in which the server settles an operation leaves less to do. One that settles nothing, and asks
for no retry, leaves the outbox as it was, and the same batch is sent again. -/

namespace Till

variable {P : Type}

/-! ## The loop -/

/-- An element of `results`, whatever it is. -/
inductive ResultEntry where
  /-- not an object, or without an id or a status that is known -/
  | skipped
  | settled (opId : Nat) (v : Verdict)
  /-- a field of another type, at which the loop ends with an exception -/
  | illTyped
  deriving DecidableEq, Repr

/-- What comes back for a request. -/
inductive PushAnswer where
  /-- a lost connection, 429, a 5xx or a body that cannot be read -/
  | failed
  /-- any other 4xx -/
  | refused
  | results (entries : List ResultEntry)
  deriving DecidableEq, Repr

/-- `batchOps.firstWhere(…, orElse: () => batchOps.first)` -/
def retried (batch : List (OutboxOp P)) (opId : Nat) : Nat :=
  if batch.any (·.opId = opId) then opId else (batch.head?.map (·.opId)).getD opId

/-- The loop over `results`, and whether another request follows. -/
def settleResults (batch : List (OutboxOp P)) :
    List ResultEntry → List (OutboxOp P) → List (OutboxOp P) × Bool
  | [], outbox                               => (outbox, true)
  | .skipped :: rest, outbox                 => settleResults batch rest outbox
  | .settled opId .applied :: rest, outbox   =>
      settleResults batch rest (outbox.filter fun p => p.opId ≠ opId)
  | .settled opId .rejected :: rest, outbox  =>
      settleResults batch rest (updateOp opId OutboxOp.reject outbox)
  | .settled opId .retry :: _, outbox        =>
      (updateOp (retried batch opId) OutboxOp.retry outbox, false)
  | .illTyped :: _, outbox                   => (outbox, false)

def takeAnswer (batch : List (OutboxOp P)) (answer : PushAnswer) (outbox : List (OutboxOp P)) :
    List (OutboxOp P) × Bool :=
  match answer with
  | .failed          => (handleHeadFailure batch outbox, false)
  | .refused         => (outbox, false)
  | .results entries => settleResults batch entries outbox

structure PushLoop (P : Type) where
  outbox : List (OutboxOp P)
  running : Bool

/-- One time round, if `push` has not returned. -/
def PushLoop.next (answer : PushAnswer) (loop : PushLoop P) : PushLoop P :=
  if loop.running then
    match nextBatch loop.outbox with
    | []          => { loop with running := false }
    | op :: batch =>
        let (outbox, more) := takeAnswer (op :: batch) answer loop.outbox
        { outbox := outbox, running := more }
  else loop

/-- The loop after `n` times round at most, when nobody else writes to the outbox. -/
def pushLoop (answers : Nat → PushAnswer) (outbox : List (OutboxOp P)) : Nat → PushLoop P
  | 0     => { outbox := outbox, running := true }
  | n + 1 => (pushLoop answers outbox n).next (answers n)

/-- `push` returns. -/
def PushEnds (answers : Nat → PushAnswer) (outbox : List (OutboxOp P)) : Prop :=
  ∃ n, (pushLoop answers outbox n).running = false

/-! ## Answers that settle nothing -/

/-- The element takes an operation off the outbox, or off what is pending. -/
def ResultEntry.settles (outbox : List (OutboxOp P)) : ResultEntry → Bool
  | .settled opId .applied  => outbox.any fun p => p.opId = opId
  | .settled opId .rejected => outbox.any fun p => p.opId = opId ∧ p.status = .pending
  | _                       => false

/-- The loop over `results` ends at it, and the loop over batches too. -/
def ResultEntry.ends : ResultEntry → Bool
  | .settled _ .retry => true
  | .illTyped         => true
  | _                 => false

/-- The answer is a list of results that settles nothing and ends nothing. -/
def PushAnswer.idle (outbox : List (OutboxOp P)) : PushAnswer → Bool
  | .results entries => entries.all fun e => !e.settles outbox && !e.ends
  | _                => false

/-- Operations to be settled, and again those that are pending. -/
def work (outbox : List (OutboxOp P)) : Nat :=
  outbox.length + outbox.countP fun p => p.status = .pending

/-- Nothing that the loop looks at is different. -/
structure SameWork (outbox outbox' : List (OutboxOp P)) : Prop where
  batch : nextBatch outbox' = nextBatch outbox
  settles : ∀ e : ResultEntry, e.settles outbox' = e.settles outbox

theorem SameWork.refl (outbox : List (OutboxOp P)) : SameWork outbox outbox := ⟨rfl, fun _ => rfl⟩

theorem SameWork.trans {o o' o'' : List (OutboxOp P)} (h : SameWork o o') (h' : SameWork o' o'') :
    SameWork o o'' :=
  ⟨h'.batch.trans h.batch, fun e => (h'.settles e).trans (h.settles e)⟩

theorem SameWork.idle {o o' : List (OutboxOp P)} (h : SameWork o o') (answer : PushAnswer) :
    answer.idle o' = answer.idle o := by
  cases answer with
  | failed => rfl
  | refused => rfl
  | results entries => simp only [PushAnswer.idle, h.settles]

/-! ### A refusal of what is not pending -/

/-- What may be sent does not change with rows that stay held. -/
theorem sendableFrom_map {f : OutboxOp P → OutboxOp P} {l : List (OutboxOp P)}
    (hpending : ∀ p ∈ l, p.status = .pending → f p = p)
    (hheld : ∀ p ∈ l, p.status ≠ .pending → (f p).status ≠ .pending) (blocked : List Aggregate) :
    sendableFrom blocked (l.map f) = sendableFrom blocked l := by
  induction l generalizing blocked with
  | nil => rfl
  | cons p l ih =>
      have hrest := ih (fun q hq => hpending q (List.mem_cons_of_mem _ hq))
        fun q hq => hheld q (List.mem_cons_of_mem _ hq)
      rw [List.map_cons, sendableFrom, sendableFrom]
      by_cases hp : p.status = .pending
      · rw [hpending p List.mem_cons_self hp]
        simp only [hrest]
      · rw [if_pos hp, if_pos (hheld p List.mem_cons_self hp), hrest]

/-- What is held does not change with fields that play no part in it. -/
theorem heldAggregates_map {f : OutboxOp P → OutboxOp P} {l : List (OutboxOp P)}
    (hf : ∀ p ∈ l, (f p).held = p.held ∧ (f p).own = p.own) :
    heldAggregates (l.map f) = heldAggregates l := by
  induction l with
  | nil => rfl
  | cons p l ih =>
      obtain ⟨hheld, hown⟩ := hf p List.mem_cons_self
      have hrest := ih fun q hq => hf q (List.mem_cons_of_mem _ hq)
      rw [heldAggregates, heldAggregates] at hrest ⊢
      rw [List.map_cons, List.filter_cons, List.filter_cons, hheld]
      split
      · rw [List.filterMap_cons, List.filterMap_cons, hown, hrest]
      · exact hrest

section
variable {outbox : List (OutboxOp P)} {opId : Nat}

theorem status_of_ne_pending {p : OutboxOp P} (hp : p.status ≠ .pending) : p.held = true := by
  cases hs : p.status with
  | pending => exact absurd hs hp
  | rejected => simp [OutboxOp.held, hs]
  | stuck => simp [OutboxOp.held, hs]

/-- A reject of an operation that is not pending leaves the work as it is. -/
theorem sameWork_reject (hno : ∀ p ∈ outbox, p.opId = opId → p.status ≠ .pending) :
    SameWork outbox (updateOp opId OutboxOp.reject outbox) := by
  constructor
  · have horder : inOrder (updateOp opId OutboxOp.reject outbox) =
        (inOrder outbox).map fun p => if p.opId = opId then p.reject else p := by
      symm
      apply List.map_insertionSort
      intro p _ q _
      split <;> split <;> rfl
    have hpending : ∀ p ∈ inOrder outbox, p.status = .pending →
        (if p.opId = opId then p.reject else p) = p := by
      intro p hp hstatus
      exact if_neg fun hid => hno p (mem_inOrder.mp hp) hid hstatus
    rw [nextBatch, nextBatch, findSendableOps, findSendableOps, horder, heldAggregates_map,
      sendableFrom_map hpending]
    · intro p _ hp
      split
      · exact OpStatus.noConfusion
      · exact hp
    · intro p hp
      split
      · rename_i hid
        exact ⟨(status_of_ne_pending (hno p (mem_inOrder.mp hp) hid)).symm, rfl⟩
      · exact ⟨rfl, rfl⟩
  · intro e
    cases e with
    | skipped => rfl
    | illTyped => rfl
    | settled i v =>
        cases v with
        | retry => rfl
        | applied =>
            simp only [ResultEntry.settles, updateOp, List.any_map]
            congr 1
            funext p
            simp only [Function.comp_apply]
            split <;> rfl
        | rejected =>
            simp only [ResultEntry.settles, updateOp, List.any_map]
            rw [Bool.eq_iff_iff, List.any_eq_true, List.any_eq_true]
            refine exists_congr fun p => and_congr_right fun hp => ?_
            simp only [Function.comp_apply]
            split
            · rename_i hid
              have hstatus := hno p hp hid
              simp [OutboxOp.reject, hstatus]
            · rfl

theorem work_reject_le : work (updateOp opId OutboxOp.reject outbox) ≤ work outbox := by
  rw [work, work, updateOp, List.length_map, List.countP_map]
  apply Nat.add_le_add_left
  apply List.countP_mono_left
  intro p _ hp
  rw [Function.comp_apply] at hp
  split at hp
  · exact absurd hp (by simp [OutboxOp.reject])
  · exact hp

theorem work_reject_lt (h : ∃ p ∈ outbox, p.opId = opId ∧ p.status = .pending) :
    work (updateOp opId OutboxOp.reject outbox) < work outbox := by
  obtain ⟨p, hp, hid, hstatus⟩ := h
  obtain ⟨front, back, rfl⟩ := List.append_of_mem hp
  have hfront := @work_reject_le P front opId
  have hback := @work_reject_le P back opId
  simp only [work, updateOp, List.map_append, List.map_cons, List.length_append, List.length_cons,
    List.length_map, List.countP_append, List.countP_cons, if_pos hid, hstatus, OutboxOp.reject,
    decide_true, if_true] at hfront hback ⊢
  simp only [reduceCtorEq, decide_false, Bool.false_eq_true, if_false]
  omega

/-- **What is left to do never grows**, and stays as it is only where nothing is settled. -/
theorem work_settleResults {batch : List (OutboxOp P)} {entries : List ResultEntry}
    {outbox' : List (OutboxOp P)} (h : settleResults batch entries outbox = (outbox', true)) :
    work outbox' ≤ work outbox ∧ (work outbox' = work outbox →
      PushAnswer.idle outbox (.results entries) = true ∧ SameWork outbox outbox') := by
  induction entries generalizing outbox with
  | nil =>
      obtain rfl : outbox = outbox' := congrArg Prod.fst h
      exact ⟨le_rfl, fun _ => ⟨rfl, .refl _⟩⟩
  | cons e entries ih =>
      cases e with
      | skipped => exact ih h
      | illTyped => cases congrArg Prod.snd h
      | settled i v =>
          cases v with
          | retry => cases congrArg Prod.snd h
          | applied =>
              obtain ⟨hle, hsame⟩ := ih h
              by_cases hthere : ∃ p ∈ outbox, p.opId = i
              · obtain ⟨p, hp, hid⟩ := hthere
                have hlen : (outbox.filter fun p => p.opId ≠ i).length < outbox.length := by
                  rw [List.length_filter_lt_length_iff_exists]
                  exact ⟨p, hp, by simp [hid]⟩
                have hcount := (List.filter_sublist (p := fun p : OutboxOp P => p.opId ≠ i)
                  (l := outbox)).countP_le (p := fun p => decide (p.status = .pending))
                rw [work, work] at hle
                rw [work, work]
                exact ⟨by omega, fun h => by omega⟩
              · have hfilter : (outbox.filter fun p => p.opId ≠ i) = outbox := by
                  rw [List.filter_eq_self]
                  intro p hp
                  exact decide_eq_true fun hid => hthere ⟨p, hp, hid⟩
                rw [hfilter] at hle hsame
                refine ⟨hle, fun heq => ⟨?_, (hsame heq).2⟩⟩
                have hno : (ResultEntry.settled i .applied).settles outbox = false := by
                  rw [ResultEntry.settles, List.any_eq_false]
                  intro p hp hid
                  exact hthere ⟨p, hp, of_decide_eq_true hid⟩
                rw [PushAnswer.idle, List.all_cons, hno]
                exact (hsame heq).1
          | rejected =>
              obtain ⟨hle, hsame⟩ := ih h
              by_cases hthere : ∃ p ∈ outbox, p.opId = i ∧ p.status = .pending
              · have hlt := work_reject_lt hthere
                exact ⟨by omega, fun h => by omega⟩
              · have hleft := @work_reject_le P outbox i
                have hwork : SameWork outbox (updateOp i OutboxOp.reject outbox) :=
                  sameWork_reject fun p hp hid hstatus => hthere ⟨p, hp, hid, hstatus⟩
                refine ⟨hle.trans hleft, fun heq => ?_⟩
                obtain ⟨hidle, hrest⟩ := hsame (by omega)
                refine ⟨?_, hwork.trans hrest⟩
                have hno : (ResultEntry.settled i .rejected).settles outbox = false := by
                  rw [ResultEntry.settles, List.any_eq_false]
                  intro p hp hid
                  exact hthere ⟨p, hp, of_decide_eq_true hid⟩
                rw [hwork.idle] at hidle
                rw [PushAnswer.idle, List.all_cons, hno]
                exact hidle

/-- An idle answer is followed by another request. -/
theorem settleResults_idle {batch : List (OutboxOp P)} {entries : List ResultEntry}
    (h : PushAnswer.idle outbox (.results entries) = true) :
    ∃ outbox', settleResults batch entries outbox = (outbox', true) ∧ SameWork outbox outbox' := by
  induction entries generalizing outbox with
  | nil => exact ⟨outbox, rfl, .refl _⟩
  | cons e entries ih =>
      rw [PushAnswer.idle, List.all_cons, Bool.and_eq_true] at h
      obtain ⟨hfirst, hrest⟩ := h
      cases e with
      | skipped => exact ih hrest
      | illTyped => simp [ResultEntry.ends] at hfirst
      | settled i v =>
          cases v with
          | retry => simp [ResultEntry.ends] at hfirst
          | applied =>
              have hfilter : (outbox.filter fun p => p.opId ≠ i) = outbox := by
                rw [List.filter_eq_self]
                intro p hp
                simp only [ResultEntry.settles, ResultEntry.ends, Bool.not_false, Bool.and_true,
                  Bool.not_eq_true', List.any_eq_false, decide_eq_true_eq] at hfirst
                exact decide_eq_true (hfirst p hp)
              rw [settleResults, hfilter]
              exact ih hrest
          | rejected =>
              have hwork : SameWork outbox (updateOp i OutboxOp.reject outbox) := by
                refine sameWork_reject fun p hp hid hstatus => ?_
                simp only [ResultEntry.settles, ResultEntry.ends, Bool.not_false, Bool.and_true,
                  Bool.not_eq_true', List.any_eq_false, decide_eq_true_eq] at hfirst
                exact hfirst p hp ⟨hid, hstatus⟩
              have hidle : PushAnswer.idle (updateOp i OutboxOp.reject outbox) (.results entries) =
                  true := (hwork.idle _).trans hrest
              obtain ⟨outbox', heq, hsame⟩ := ih hidle
              exact ⟨outbox', heq, hwork.trans hsame⟩

end

/-! ## When the loop ends -/

section
variable {answers : Nat → PushAnswer} {outbox : List (OutboxOp P)} {loop : PushLoop P}
  {answer : PushAnswer}

theorem PushLoop.next_stopped (h : loop.running = false) : loop.next answer = loop := by
  rw [PushLoop.next, h]
  rfl

/-- A time round that is followed by another. -/
theorem PushLoop.next_running (h : (loop.next answer).running = true) :
    loop.running = true ∧ nextBatch loop.outbox ≠ [] ∧
      work (loop.next answer).outbox ≤ work loop.outbox ∧
      (work (loop.next answer).outbox = work loop.outbox → answer.idle loop.outbox = true ∧
        SameWork loop.outbox (loop.next answer).outbox) := by
  cases hrun : loop.running with
  | false =>
      rw [PushLoop.next_stopped hrun, hrun] at h
      cases h
  | true =>
      rw [PushLoop.next, if_pos hrun] at h ⊢
      split at h
      · cases h
      · rename_i op batch hbatch
        rw [hbatch]
        dsimp only at h ⊢
        cases answer with
        | failed => cases h
        | refused => cases h
        | results entries =>
            obtain ⟨hle, hsame⟩ := work_settleResults (Prod.ext rfl h)
            exact ⟨rfl, List.cons_ne_nil _ _, hle, hsame⟩

/-- An idle answer lets the loop run on over the same work. -/
theorem PushLoop.next_idle (hrun : loop.running = true) (hbatch : nextBatch loop.outbox ≠ [])
    (hidle : answer.idle loop.outbox = true) : (loop.next answer).running = true ∧
      SameWork loop.outbox (loop.next answer).outbox := by
  cases answer with
  | failed => cases hidle
  | refused => cases hidle
  | results entries =>
      obtain ⟨op, batch, heq⟩ := List.exists_cons_of_ne_nil hbatch
      obtain ⟨outbox', hsettle, hsame⟩ := @settleResults_idle P _ (op :: batch) _ hidle
      rw [PushLoop.next, if_pos hrun, heq]
      simp only [takeAnswer, hsettle]
      exact ⟨trivial, hsame⟩

theorem running_mono {n m : Nat} (h : n ≤ m) (hm : (pushLoop answers outbox m).running = true) :
    (pushLoop answers outbox n).running = true := by
  induction m, h using Nat.le_induction with
  | base => exact hm
  | succ m _ ih => exact ih (PushLoop.next_running hm).1

/-- Once every answer is idle the loop goes round and round. -/
theorem running_of_idle {n : Nat} (hrun : (pushLoop answers outbox n).running = true)
    (hbatch : nextBatch (pushLoop answers outbox n).outbox ≠ [])
    (hidle : ∀ k, (answers (n + k)).idle (pushLoop answers outbox n).outbox = true) (k : Nat) :
    (pushLoop answers outbox (n + k)).running = true ∧
      SameWork (pushLoop answers outbox n).outbox (pushLoop answers outbox (n + k)).outbox := by
  induction k with
  | zero => exact ⟨hrun, .refl _⟩
  | succ k ih =>
      obtain ⟨hrun', hsame⟩ := ih
      have hbatch' : nextBatch (pushLoop answers outbox (n + k)).outbox ≠ [] := by
        rw [hsame.batch]
        exact hbatch
      have hidle' := (hsame.idle _).trans (hidle k)
      obtain ⟨hnext, hsame'⟩ := PushLoop.next_idle hrun' hbatch' hidle'
      exact ⟨hnext, hsame.trans hsame'⟩

/-- From some time round on a loop that never ends leaves everything as it is. -/
theorem idle_of_running (hrun : ∀ n, (pushLoop answers outbox n).running = true) :
    ∃ n, ∀ k, (answers (n + k)).idle (pushLoop answers outbox n).outbox = true := by
  have hle : ∀ n, work (pushLoop answers outbox (n + 1)).outbox ≤
      work (pushLoop answers outbox n).outbox :=
    fun n => (PushLoop.next_running (hrun (n + 1))).2.2.1
  obtain ⟨_, ⟨n, rfl⟩, hmin⟩ := wellFounded_lt.has_min
    (Set.range fun n => work (pushLoop answers outbox n).outbox) ⟨_, 0, rfl⟩
  have hanti : Antitone fun n => work (pushLoop answers outbox n).outbox := antitone_nat_of_succ_le hle
  have heq : ∀ k, work (pushLoop answers outbox (n + k)).outbox =
      work (pushLoop answers outbox n).outbox := fun k =>
    le_antisymm (hanti (Nat.le_add_right n k)) (not_lt.mp (hmin _ ⟨n + k, rfl⟩))
  have hstep : ∀ k, (answers (n + k)).idle (pushLoop answers outbox (n + k)).outbox = true ∧
      SameWork (pushLoop answers outbox (n + k)).outbox (pushLoop answers outbox (n + (k + 1))).outbox :=
    fun k => (PushLoop.next_running (hrun (n + (k + 1)))).2.2.2 ((heq (k + 1)).trans (heq k).symm)
  have hsame : ∀ k, SameWork (pushLoop answers outbox n).outbox
      (pushLoop answers outbox (n + k)).outbox := by
    intro k
    induction k with
    | zero => exact .refl _
    | succ k ih => exact ih.trans (hstep k).2
  exact ⟨n, fun k => ((hsame k).idle _).symm.trans (hstep k).1⟩

/-- As long as every answer settles something or ends the loop, it goes round once for each piece of
work at most, and once more to see that there is none. -/
theorem push_ends_within
    (h : ∀ n, (pushLoop answers outbox n).running = true →
      (answers n).idle (pushLoop answers outbox n).outbox = false) :
    (pushLoop answers outbox (work outbox + 1)).running = false := by
  have hwork : ∀ n, (pushLoop answers outbox n).running = true →
      work (pushLoop answers outbox n).outbox + n ≤ work outbox := by
    intro n
    induction n with
    | zero => exact fun _ => le_rfl
    | succ n ih =>
        intro hrun
        obtain ⟨hprev, -, hle, hsame⟩ := PushLoop.next_running hrun
        have hbefore := ih hprev
        have hlt : work (pushLoop answers outbox (n + 1)).outbox <
            work (pushLoop answers outbox n).outbox := by
          refine lt_of_le_of_ne hle fun heq => ?_
          have hidle := (hsame heq).1
          rw [h n hprev] at hidle
          cases hidle
        omega
  by_contra hrun
  have hle := hwork _ (Bool.not_eq_false _ ▸ hrun)
  omega

/-- **When `push` returns**: unless from some request on, with something to send, every answer is idle.
Where none is, it returns after a time round for each piece of work. -/
theorem push_ends_iff :
    (PushEnds answers outbox ↔
      ¬∃ n, (pushLoop answers outbox n).running = true ∧
        nextBatch (pushLoop answers outbox n).outbox ≠ [] ∧
        ∀ k, (answers (n + k)).idle (pushLoop answers outbox n).outbox = true) ∧
    ((∀ n, (pushLoop answers outbox n).running = true →
        (answers n).idle (pushLoop answers outbox n).outbox = false) →
      (pushLoop answers outbox (work outbox + 1)).running = false) := by
  refine ⟨?_, push_ends_within⟩
  constructor
  · rintro ⟨m, hm⟩ ⟨n, hrun, hbatch, hidle⟩
    have hlate := (running_of_idle hrun hbatch hidle m).1
    rw [running_mono (Nat.le_add_left m n) hlate] at hm
    cases hm
  · intro hnot
    by_contra hforever
    have hrun : ∀ n, (pushLoop answers outbox n).running = true := by
      intro n
      by_contra hn
      exact hforever ⟨n, Bool.not_eq_true _ ▸ hn⟩
    obtain ⟨n, hidle⟩ := idle_of_running hrun
    exact hnot ⟨n, hrun n, (PushLoop.next_running (hrun (n + 1))).2.1, hidle⟩

end

/-- One bill, and a server whose answers have no results: the same batch is sent for ever. -/
theorem push_never_ends :
    ¬PushEnds (fun _ => .results []) [(⟨1, (), saleAggregates 22 none none none, 1, .pending, 0⟩ :
      OutboxOp Unit)] := by
  rintro ⟨m, hm⟩
  have hlate := (@running_of_idle Unit (fun _ => .results [])
    [⟨1, (), saleAggregates 22 none none none, 1, .pending, 0⟩] 0 rfl (by decide) (fun _ => rfl) m).1
  rw [Nat.zero_add, hm] at hlate
  cases hlate

end Till

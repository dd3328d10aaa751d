import SrisurartPos.Table
import Mathlib.Data.List.Count
import Mathlib.Logic.Function.Basic

/-! # The life of an import job

An import is a row of `import_jobs` and a job of the queue. The queue may hand one job to any number
of workers, one after the other or at the same time: a retry, a job that stalled. What a worker
writes on the row outside its import (`markRunning`, `markFailed`, the queue's failed event, the
reclaim) are statements of their own; the import itself is one transaction at REPEATABLE READ, which
sees the rows of its first statement, waits for the lock of the shop's row, and fails on a row that
another transaction changed meanwhile. -/

namespace Import

abbrev JobId := Nat

/-- a row of one of `TRANSACTION_TABLES` -/
abbrev RowId := Nat

/-- a call of `process` -/
abbrev Attempt := Nat

inductive JobStatus where
  | queued | running | succeeded | failed
  deriving DecidableEq, Repr

/-- A row of `import_jobs`. -/
structure JobRow where
  status : JobStatus
  /-- the rows that the file brings; cleared when the job has ended -/
  payload : Option (List RowId)
  error : Option String
  createdAt : Nat
  startedAt : Option Nat
  /-- the version of the row: every update makes a new one -/
  version : Nat
  deriving DecidableEq, Repr

/-- minutes -/
def staleJobCeiling : Nat := 30

/-- `status IN ('queued', 'running')` -/
def JobRow.active (r : JobRow) : Bool := r.status == .queued || r.status == .running

/-- What the queue holds of a job. -/
structure QueueJob where
  replace : Bool
  deriving DecidableEq, Repr

/-- The transaction of `writeSnapshot`: the snapshot that its first statement took. -/
structure WriteTx where
  file : List RowId
  seenRows : List RowId
  seenJob : JobRow
  deriving DecidableEq, Repr

/-- Where an attempt stands. -/
inductive Stage where
  /-- before `markRunning` -/
  | taken
  /-- before `processJob` reads the row -/
  | marked
  /-- the payload is read; pre-flight comes next -/
  | loaded (file : List RowId)
  /-- pre-flight has passed -/
  | checked (file : List RowId)
  /-- waits for `SELECT id FROM tenants … FOR UPDATE` -/
  | waiting (tx : WriteTx)
  /-- holds the lock of the shop's row -/
  | writing (tx : WriteTx)
  /-- an error was caught; `markFailed` comes next -/
  | failing (message : String)
  deriving DecidableEq, Repr

/-- Inside the `try` of `process`. -/
def Stage.trying : Stage → Bool
  | .taken | .failing _ => false
  | _                   => true

structure Running where
  job : JobId
  replace : Bool
  /-- `isFinalAttempt` -/
  final : Bool
  stage : Stage
  deriving DecidableEq, Repr

/-- A committed import: the mode, and the shop's rows at the commit, the deleted ones included. -/
structure Commit where
  job : JobId
  replace : Bool
  rowsBefore : List RowId
  deriving DecidableEq, Repr

/-- One shop. -/
structure Sys where
  /-- minutes -/
  now : Nat
  /-- the committed rows of `TRANSACTION_TABLES` -/
  rows : List RowId
  jobs : Table JobId JobRow
  queue : JobId → Option QueueJob
  attempts : Attempt → Option Running
  /-- who holds the lock of the shop's row -/
  locked : Option Attempt
  commits : List Commit

/-! ## Statements on the row of a job -/

/-- An `UPDATE` of a row makes a new version. -/
def JobRow.write (r : JobRow) (f : JobRow → JobRow) : JobRow :=
  { f r with version := r.version + 1 }

def JobRow.markRunning (now : Nat) (r : JobRow) : JobRow :=
  r.write fun r => { r with status := .running, startedAt := some now }

def JobRow.markFailed (error : String) (final : Bool) (r : JobRow) : JobRow :=
  if final then r.write fun r => { r with status := .failed, error := some error, payload := none }
  else r.write fun r => { r with error := some error }

/-- `SET status = 'failed', error = 'stale: worker lost' … WHERE status IN ('queued', 'running') AND
COALESCE(started_at, created_at) < now() - …` -/
def JobRow.reclaim (now : Nat) (r : JobRow) : JobRow :=
  if r.active = true ∧ r.startedAt.getD r.createdAt + staleJobCeiling < now then
    r.write fun r => { r with status := .failed, error := some "stale: worker lost", payload := none }
  else r

def JobRow.succeed (r : JobRow) : JobRow :=
  r.write fun r => { r with status := .succeeded, payload := none, error := none }

/-- The row that `enqueue` inserts. -/
def newJob (now : Nat) (file : List RowId) : JobRow :=
  ⟨.queued, some file, none, now, none, 0⟩

/-! ## What can happen -/

inductive Event where
  | tick (minutes : Nat)
  /-- any other transaction of the shop commits, and leaves these rows -/
  | work (rows : List RowId)
  /-- `enqueue`, from its second transaction on; pre-flight found the shop as it then was -/
  | enqueue (job : JobId) (file : List RowId) (replace : Bool)
  /-- the queue calls `process`, for a job it holds -/
  | deliver (w : Attempt) (job : JobId) (final : Bool)
  | markRunning (w : Attempt)
  /-- `processJob` reads the row -/
  | load (w : Attempt)
  /-- `processJob`'s pre-flight -/
  | preflight (w : Attempt)
  /-- the snapshot of the transaction is taken -/
  | begin (w : Attempt)
  /-- the lock of the shop's row is granted -/
  | lock (w : Attempt)
  /-- the emptiness check, the writes, `status = 'succeeded'` and the commit -/
  | commit (w : Attempt)
  /-- an error or a rollback that `process` catches -/
  | abort (w : Attempt) (message : String)
  /-- the worker is gone -/
  | crash (w : Attempt)
  | markFailed (w : Attempt)
  /-- `onFailed`, once the queue has given the job up -/
  | failedEvent (job : JobId) (message : String)
  deriving DecidableEq, Repr

namespace Sys

def setAttempt (S : Sys) (w : Attempt) (r : Option Running) : Sys :=
  { S with attempts := Function.update S.attempts w r }

def setStage (S : Sys) (w : Attempt) (r : Running) (stage : Stage) : Sys :=
  S.setAttempt w (some { r with stage })

def updateJob (S : Sys) (job : JobId) (f : JobRow → JobRow) : Sys :=
  { S with jobs := S.jobs.modify job f }

/-- The lock goes with the transaction. -/
def release (S : Sys) (w : Attempt) : Sys :=
  { S with locked := if S.locked = some w then none else S.locked }

/-- `enqueue`: the reclaim, then the row, which the primary key and `uq_import_jobs_active` may
refuse. -/
def enqueue (S : Sys) (job : JobId) (file : List RowId) (replace : Bool) : Option Sys :=
  let jobs := S.jobs.map (JobRow.reclaim S.now)
  if (jobs.get job).isSome then none
  else if jobs.rows.any fun e => e.2.active then none
  else some { S with
    jobs := jobs.insert job (newJob S.now file)
    queue := Function.update S.queue job (some (QueueJob.mk replace)) }

/-- `processJob` up to the pre-flight: a row that has succeeded ends the attempt. -/
def load (S : Sys) (w : Attempt) (r : Running) : Sys :=
  match S.jobs.get r.job with
  | none     => S.setStage w r (.failing "import job not found")
  | some row =>
    if row.status = .succeeded then S.setAttempt w none
    else match row.payload with
      | none      => S.setStage w r (.failing "no payload left to process (already finished)")
      | some file => S.setStage w r (.loaded file)

/-- `assertNoTransactions` -/
def assertNoTransactions (rows : List RowId) (replace : Bool) : Bool := replace || rows.isEmpty

/-- The rows that the file comes to: the replace mode deletes those that the transaction sees. -/
def kept (S : Sys) (r : Running) (tx : WriteTx) : List RowId :=
  if r.replace then S.rows.filter fun x => x ∉ tx.seenRows else S.rows

/-- The end of `writeSnapshot`. The emptiness check reads the snapshot; a key that is taken is an
error; and `UPDATE import_jobs … WHERE status <> 'succeeded'` finds the row that the snapshot has,
which another transaction must not have changed. -/
def commit (S : Sys) (w : Attempt) (r : Running) (tx : WriteTx) : Option Sys :=
  match S.jobs.get r.job with
  | none     => none
  | some row =>
    if assertNoTransactions tx.seenRows r.replace = false then none
    else if tx.file.any fun x => decide (x ∈ S.kept r tx) then none
    else if tx.seenJob.status ≠ .succeeded ∧ row.version ≠ tx.seenJob.version then none
    else
      let S := { S with
        rows := S.kept r tx ++ tx.file
        commits := S.commits ++ [Commit.mk r.job r.replace S.rows] }
      let S := if tx.seenJob.status = .succeeded then S else S.updateJob r.job JobRow.succeed
      some ((S.release w).setAttempt w none)

/-- The event, where it can happen. -/
def apply (S : Sys) : Event → Option Sys
  | .tick minutes => some { S with now := S.now + minutes }
  | .work rows    => some { S with rows }
  | .enqueue job file replace => S.enqueue job file replace
  | .deliver w job final =>
    match S.attempts w, S.queue job with
    | none, some q => some (S.setAttempt w (some ⟨job, q.replace, final, .taken⟩))
    | _, _         => none
  | .markRunning w =>
    match S.attempts w with
    | some r =>
      if r.stage = .taken then
        some ((S.updateJob r.job (JobRow.markRunning S.now)).setStage w r .marked)
      else none
    | none => none
  | .load w =>
    match S.attempts w with
    | some r => if r.stage = .marked then some (S.load w r) else none
    | none   => none
  | .preflight w =>
    match S.attempts w with
    | some r =>
      match r.stage with
      | .loaded file =>
        if assertNoTransactions S.rows r.replace then some (S.setStage w r (.checked file))
        else some (S.setStage w r (.failing "TENANT_NOT_EMPTY"))
      | _ => none
    | none => none
  | .begin w =>
    match S.attempts w with
    | some r =>
      match r.stage, S.jobs.get r.job with
      | .checked file, some row => some (S.setStage w r (.waiting ⟨file, S.rows, row⟩))
      | _, _                    => none
    | none => none
  | .lock w =>
    match S.attempts w with
    | some r =>
      match r.stage, S.locked with
      | .waiting tx, none => some { S.setStage w r (.writing tx) with locked := some w }
      | _, _              => none
    | none => none
  | .commit w =>
    match S.attempts w with
    | some r =>
      match r.stage with
      | .writing tx => S.commit w r tx
      | _           => none
    | none => none
  | .abort w message =>
    match S.attempts w with
    | some r =>
      if r.stage.trying then some ((S.release w).setStage w r (.failing message)) else none
    | none => none
  | .crash w => some ((S.release w).setAttempt w none)
  | .markFailed w =>
    match S.attempts w with
    | some r =>
      match r.stage with
      | .failing message =>
        some ((S.updateJob r.job (JobRow.markFailed message r.final)).setAttempt w none)
      | _ => none
    | none => none
  | .failedEvent job message =>
    match S.queue job with
    | some _ => some (S.updateJob job (JobRow.markFailed message true))
    | none   => none

/-- A shop into which nothing has been imported. -/
def fresh (now : Nat) (rows : List RowId) : Sys :=
  ⟨now, rows, Table.empty, fun _ => none, fun _ => none, none, []⟩

end Sys

def Step (e : Event) (S S' : Sys) : Prop := S.apply e = some S'

/-! ## What is asked of a run -/

namespace Sys

/-- Each job is committed at most once, a job is `succeeded` exactly when it was committed, and
an import in empty-only mode was committed into an empty shop. -/
structure Lifecycle (S : Sys) : Prop where
  once : ∀ job, (S.commits.map Commit.job).count job ≤ 1
  status : ∀ job row, S.jobs.get job = some row →
    (row.status = .succeeded ↔ job ∈ S.commits.map Commit.job)
  empty : ∀ c ∈ S.commits, c.replace = false → c.rowsBefore = []

/-- A succeeded job stays so. -/
def Keeps (S S' : Sys) : Prop :=
  ∀ job row, S.jobs.get job = some row → row.status = .succeeded →
    ∃ row', S'.jobs.get job = some row' ∧ row'.status = .succeeded

/-- What a run may bring: a status is written outside an import only on a job that has not
succeeded; an import that is committed saw its job not succeeded yet; and one in empty-only mode is
committed while the shop has the rows that it saw. -/
def Proper (S : Sys) : Event → Prop
  | .markRunning w =>
      ∀ r ∈ S.attempts w, ∀ row ∈ S.jobs.get r.job, row.status ≠ .succeeded
  | .markFailed w =>
      ∀ r ∈ S.attempts w, r.final = true → ∀ row ∈ S.jobs.get r.job, row.status ≠ .succeeded
  | .failedEvent job _ => ∀ row ∈ S.jobs.get job, row.status ≠ .succeeded
  | .commit w =>
      ∀ r ∈ S.attempts w, ∀ tx, r.stage = .writing tx →
        tx.seenJob.status ≠ .succeeded ∧ (r.replace = false → S.rows = tx.seenRows)
  | _ => True

end Sys

/-- The states that a run reaches from `S₀` with events that satisfy `ok`. -/
inductive Reaches (ok : Sys → Event → Prop) (S₀ : Sys) : Sys → Prop where
  | refl : Reaches ok S₀ S₀
  | step {S S' : Sys} {e : Event} : Reaches ok S₀ S → ok S e → Step e S S' → Reaches ok S₀ S'

/-! ## Invariant -/

namespace Sys

/-- The transaction of an attempt, once it has begun. -/
def Writes (r : Running) (tx : WriteTx) : Prop := r.stage = .waiting tx ∨ r.stage = .writing tx

/-- What the snapshot of a transaction says of the row as it is now. -/
def Seen (S : Sys) (job : JobId) (tx : WriteTx) : Prop :=
  (tx.seenJob.status = .succeeded → job ∈ S.commits.map Commit.job) ∧
    ∃ row, S.jobs.get job = some row ∧
      (row = tx.seenJob ∨ tx.seenJob.version < row.version)

structure Inv (S : Sys) : Prop extends Lifecycle S where
  present : ∀ job ∈ S.commits.map Commit.job, (S.jobs.get job).isSome = true
  seen : ∀ w r tx, S.attempts w = some r → Writes r tx → S.Seen r.job tx

/-- Rows are not deleted, and a row that changes gets a new version. -/
def Grows (S S' : Sys) : Prop :=
  ∀ job row, S.jobs.get job = some row →
    ∃ row', S'.jobs.get job = some row' ∧ (row' = row ∨ row.version < row'.version)

theorem Seen.grow {S S' : Sys} {job : JobId} {tx : WriteTx} (h : S.Seen job tx)
    (hgrow : S.Grows S') (hc : ∀ j ∈ S.commits.map Commit.job, j ∈ S'.commits.map Commit.job) :
    S'.Seen job tx := by
  obtain ⟨hsucc, row, hrow, hver⟩ := h
  obtain ⟨row', hrow', hver'⟩ := hgrow job row hrow
  refine ⟨fun hs => hc job (hsucc hs), row', hrow', ?_⟩
  rcases hver with rfl | hlt
  · exact hver'
  · rcases hver' with rfl | hlt'
    · exact Or.inr hlt
    · exact Or.inr (hlt.trans hlt')

/-- A statement on rows of jobs, outside an import, that leaves every row as succeeded as it was. -/
theorem Inv.touch {S S' : Sys} (h : S.Inv) (hc : S'.commits = S.commits)
    (ha : S'.attempts = S.attempts) (hgrow : S.Grows S')
    (hst : ∀ job row', S'.jobs.get job = some row' →
      (row'.status = .succeeded ↔ job ∈ S.commits.map Commit.job)) : S'.Inv := by
  refine ⟨⟨?_, ?_, ?_⟩, ?_, ?_⟩
  · rw [hc]
    exact h.once
  · rw [hc]
    exact hst
  · rw [hc]
    exact h.empty
  · rw [hc]
    intro job hjob
    obtain ⟨row, hrow⟩ := Option.isSome_iff_exists.mp (h.present job hjob)
    obtain ⟨row', hrow', -⟩ := hgrow job row hrow
    rw [hrow']
    rfl
  · intro w r tx hw hr
    rw [ha] at hw
    exact (h.seen w r tx hw hr).grow hgrow fun j hj => by rwa [hc]

/-- A step of one attempt that touches no row. -/
theorem Inv.attempt {S S' : Sys} (h : S.Inv) {w : Attempt} {x : Option Running}
    (hc : S'.commits = S.commits) (hj : S'.jobs = S.jobs)
    (ha : S'.attempts = Function.update S.attempts w x)
    (hx : ∀ r tx, x = some r → Writes r tx → S.Seen r.job tx) : S'.Inv := by
  have hseen : ∀ {job tx}, S.Seen job tx → S'.Seen job tx := by
    rintro job tx ⟨hs, hrow⟩
    exact ⟨by rwa [hc], by rwa [hj]⟩
  refine ⟨⟨?_, ?_, ?_⟩, ?_, ?_⟩
  · rw [hc]
    exact h.once
  · rw [hc, hj]
    exact h.status
  · rw [hc]
    exact h.empty
  · rw [hc, hj]
    exact h.present
  · intro w' r tx hw' hr
    rw [ha] at hw'
    by_cases hw : w' = w
    · subst hw
      rw [Function.update_self] at hw'
      exact hseen (hx r tx hw' hr)
    · rw [Function.update_of_ne hw] at hw'
      exact hseen (h.seen w' r tx hw' hr)

theorem grows_updateJob (S : Sys) (job : JobId) {f : JobRow → JobRow}
    (hf : ∀ row, f row = row ∨ row.version < (f row).version) : S.Grows (S.updateJob job f) := by
  intro job' row hrow
  by_cases hj : job' = job
  · subst hj
    refine ⟨f row, ?_, hf row⟩
    rw [updateJob, Table.get_modify_self, hrow]
    rfl
  · refine ⟨row, ?_, Or.inl rfl⟩
    rw [updateJob, Table.get_modify_ne _ hj]
    exact hrow

theorem get_updateJob {S : Sys} {job job' : JobId} {f : JobRow → JobRow} {row' : JobRow}
    (h : (S.updateJob job f).jobs.get job' = some row') :
    (job' = job ∧ ∃ row, S.jobs.get job = some row ∧ row' = f row) ∨
      (job' ≠ job ∧ S.jobs.get job' = some row') := by
  by_cases hj : job' = job
  · subst hj
    rw [updateJob, Table.get_modify_self, Option.map_eq_some_iff] at h
    obtain ⟨row, hrow, rfl⟩ := h
    exact Or.inl ⟨rfl, row, hrow, rfl⟩
  · rw [updateJob, Table.get_modify_ne _ hj] at h
    exact Or.inr ⟨hj, h⟩

/-- An update that leaves a row of a job as succeeded as it was. -/
theorem Inv.updateJob {S : Sys} (h : S.Inv) (job : JobId) {f : JobRow → JobRow}
    (hf : ∀ row, f row = row ∨ row.version < (f row).version)
    (hst : ∀ row ∈ S.jobs.get job,
      ((f row).status = .succeeded ↔ row.status = .succeeded)) : (S.updateJob job f).Inv := by
  refine h.touch rfl rfl (grows_updateJob S job hf) fun job' row' hrow' => ?_
  rcases get_updateJob hrow' with ⟨rfl, row, hrow, rfl⟩ | ⟨-, hrow⟩
  · rw [hst row hrow]
    exact h.status _ row hrow
  · exact h.status _ row' hrow

theorem version_write (r : JobRow) (f : JobRow → JobRow) : r.version < (r.write f).version :=
  Nat.lt_succ_self _

end Sys

theorem JobRow.markFailed_grows (error : String) (final : Bool) (r : JobRow) :
    r.markFailed error final = r ∨ r.version < (r.markFailed error final).version := by
  unfold JobRow.markFailed
  split <;> exact Or.inr (Sys.version_write r _)

theorem JobRow.reclaim_grows (now : Nat) (r : JobRow) :
    r.reclaim now = r ∨ r.version < (r.reclaim now).version := by
  unfold JobRow.reclaim
  split
  · exact Or.inr (Sys.version_write r _)
  · exact Or.inl rfl

/-- The reclaim leaves a row that has succeeded. -/
theorem JobRow.succeeded_reclaim (now : Nat) (r : JobRow) :
    (r.reclaim now).status = .succeeded ↔ r.status = .succeeded := by
  unfold JobRow.reclaim
  split
  · rename_i h
    have hactive : r.status ≠ .succeeded := by
      intro hs
      simp [JobRow.active, hs] at h
    exact ⟨fun h => (by cases h), fun h => absurd h hactive⟩
  · exact Iff.rfl

/-! ## One event -/

namespace Sys

variable {S S' : Sys}

/-- What `enqueue` leaves: the reclaimed rows and a new one. -/
theorem Inv.enqueue (h : S.Inv) {job : JobId} {file : List RowId} {replace : Bool}
    (hstep : S.enqueue job file replace = some S') : S'.Inv := by
  unfold Sys.enqueue at hstep
  dsimp only at hstep
  split at hstep
  · cases hstep
  split at hstep
  · cases hstep
  rename_i hnew _
  cases hstep
  have hnone : (S.jobs.map (JobRow.reclaim S.now)).get job = none := by simpa using hnew
  have hget : ∀ job', ((S.jobs.map (JobRow.reclaim S.now)).insert job (newJob S.now file)).get
      job' = if job' = job then some (newJob S.now file) else
        (S.jobs.get job').map (JobRow.reclaim S.now) := by
    intro job'
    rw [Table.get_insert hnone, Table.get_map]
  have hfree : S.jobs.get job = none := by
    rw [Table.get_map] at hnone
    simpa using hnone
  refine h.touch rfl rfl (fun job' row hrow => ?_) fun job' row' hrow' => ?_
  · have hne : job' ≠ job := by
      rintro rfl
      rw [hfree] at hrow
      cases hrow
    refine ⟨row.reclaim S.now, ?_, row.reclaim_grows S.now⟩
    rw [hget, if_neg hne, hrow]
    rfl
  · rw [hget] at hrow'
    by_cases hj : job' = job
    · subst hj
      rw [if_pos rfl] at hrow'
      cases hrow'
      refine ⟨fun hs => (by cases hs), fun hc => ?_⟩
      have := h.present job' hc
      rw [hfree] at this
      cases this
    · rw [if_neg hj] at hrow'
      obtain ⟨row, hrow, rfl⟩ := Option.map_eq_some_iff.mp hrow'
      rw [row.succeeded_reclaim]
      exact h.status job' row hrow

/-- The committed import, when the snapshot saw its job not succeeded. -/
theorem commit_eq_some {w : Attempt} {r : Running} {tx : WriteTx} (h : S.commit w r tx = some S') :
    ∃ row rows, S.jobs.get r.job = some row ∧ (r.replace = true ∨ tx.seenRows = []) ∧
      (tx.seenJob.status ≠ .succeeded → row.version = tx.seenJob.version) ∧
      S'.rows = rows ∧ S'.commits = S.commits ++ [Commit.mk r.job r.replace S.rows] ∧
      S'.attempts = Function.update S.attempts w none ∧
      S'.jobs = if tx.seenJob.status = .succeeded then S.jobs
        else S.jobs.modify r.job JobRow.succeed := by
  unfold Sys.commit at h
  dsimp only at h
  split at h
  · cases h
  rename_i row hrow
  split at h
  · cases h
  rename_i hempty
  split at h
  · cases h
  split at h
  · cases h
  rename_i hversion
  cases h
  refine ⟨row, _, hrow, ?_, ?_, rfl, ?_, ?_, ?_⟩
  · cases hmode : r.replace with
    | true => exact Or.inl rfl
    | false => exact Or.inr (by simpa [assertNoTransactions, hmode] using hempty)
  · intro hs
    by_contra hne
    exact hversion ⟨hs, hne⟩
  · split <;> rfl
  · split <;> rfl
  · split <;> rfl

/-- The commit of an attempt keeps the invariant: the job was not done when the writing began. -/
theorem Inv.commit (h : S.Inv) {w : Attempt} {r : Running} {tx : WriteTx}
    (hw : S.attempts w = some r) (hr : r.stage = .writing tx)
    (hproper : tx.seenJob.status ≠ .succeeded ∧ (r.replace = false → S.rows = tx.seenRows))
    (hstep : S.commit w r tx = some S') : S'.Inv := by
  obtain ⟨row, rows, hrow, hempty, hversion, -, hcommits, hattempts, hjobs⟩ := commit_eq_some hstep
  rw [if_neg hproper.1] at hjobs
  -- the row is still the one of the snapshot, so the job was not committed before
  have hsame : row = tx.seenJob := by
    obtain ⟨-, row', hrow', hver⟩ := h.seen w r tx hw (Or.inr hr)
    obtain rfl : row = row' := by simpa using hrow.symm.trans hrow'
    refine hver.resolve_right fun hlt => ?_
    have := hversion hproper.1
    omega
  have hfirst : r.job ∉ S.commits.map Commit.job := by
    intro hc
    exact hproper.1 (hsame ▸ (h.status r.job row hrow).mpr hc)
  have hmem : ∀ {job}, job ∈ S'.commits.map Commit.job ↔
      job ∈ S.commits.map Commit.job ∨ job = r.job := by
    intro job
    rw [hcommits, List.map_append, List.mem_append]
    simp
  have hgrow : S.Grows S' := by
    have := grows_updateJob S r.job (f := JobRow.succeed) fun row => Or.inr (version_write row _)
    intro job row hrow
    rw [hjobs]
    exact this job row hrow
  refine ⟨⟨fun job => ?_, fun job row' hrow' => ?_, fun c hc hmode => ?_⟩, fun job hjob => ?_,
    fun w' r' tx' hw' hr' => ?_⟩
  · rw [hcommits, List.map_append, List.count_append]
    by_cases hj : job = r.job
    · subst hj
      rw [List.count_eq_zero_of_not_mem hfirst]
      simp
    · have hno : ([Commit.mk r.job r.replace S.rows].map Commit.job).count job = 0 := by
        refine List.count_eq_zero_of_not_mem ?_
        simpa using hj
      rw [hno]
      exact h.once job
  · rw [hmem]
    rw [hjobs] at hrow'
    rcases get_updateJob (S := S) (f := JobRow.succeed) hrow' with ⟨rfl, _, -, rfl⟩ | ⟨hne, hold⟩
    · exact ⟨fun _ => Or.inr rfl, fun _ => rfl⟩
    · rw [h.status job row' hold]
      exact ⟨Or.inl, fun hc => hc.resolve_right hne⟩
  · rw [hcommits] at hc
    rcases List.mem_append.mp hc with hc | hc
    · exact h.empty c hc hmode
    · obtain rfl := List.mem_singleton.mp hc
      have hseen := hempty.resolve_left (by simpa using hmode)
      exact (hproper.2 hmode).trans hseen
  · rcases hmem.mp hjob with hjob | rfl
    · obtain ⟨row, hrow⟩ := Option.isSome_iff_exists.mp (h.present job hjob)
      obtain ⟨row', hrow', -⟩ := hgrow job row hrow
      rw [hrow']
      rfl
    · obtain ⟨row', hrow', -⟩ := hgrow r.job row hrow
      rw [hrow']
      rfl
  · rw [hattempts] at hw'
    by_cases hww : w' = w
    · subst hww
      rw [Function.update_self] at hw'
      cases hw'
    · rw [Function.update_of_ne hww] at hw'
      exact (h.seen w' r' tx' hw' hr').grow hgrow fun j hj => hmem.mpr (Or.inl hj)

/-- A status that is written on the row of a job that has not succeeded. -/
theorem Inv.writeStatus (h : S.Inv) (job : JobId) {f : JobRow → JobRow}
    (hf : ∀ row, f row = row ∨ row.version < (f row).version)
    (hst : ∀ row, (f row).status = .succeeded → row.status = .succeeded)
    (hproper : ∀ row ∈ S.jobs.get job, row.status ≠ .succeeded) : (S.updateJob job f).Inv :=
  h.updateJob job hf fun row hrow => ⟨hst row, fun hs => absurd hs (hproper row hrow)⟩

/-- An attempt that stops, or goes on outside its transaction. -/
theorem Inv.outside (h : S.Inv) {w : Attempt} {x : Option Running} (hc : S'.commits = S.commits)
    (hj : S'.jobs = S.jobs) (ha : S'.attempts = Function.update S.attempts w x)
    (hx : ∀ r ∈ x, ∀ tx, r.stage ≠ .waiting tx ∧ r.stage ≠ .writing tx) : S'.Inv := by
  refine h.attempt hc hj ha fun r tx hr hw => ?_
  obtain ⟨hwaiting, hwriting⟩ := hx r hr tx
  exact (hw.elim hwaiting hwriting).elim

theorem Inv.setStage (h : S.Inv) (w : Attempt) (r : Running) {stage : Stage}
    (hstage : ∀ tx, stage ≠ .waiting tx ∧ stage ≠ .writing tx) : (S.setStage w r stage).Inv := by
  refine h.outside (w := w) rfl rfl rfl fun r' hr' => ?_
  cases hr'
  exact hstage

theorem Inv.ended (h : S.Inv) (w : Attempt) (hc : S'.commits = S.commits) (hj : S'.jobs = S.jobs)
    (ha : S'.attempts = Function.update S.attempts w none) : S'.Inv :=
  h.outside hc hj ha fun r hr => by cases hr

theorem Inv.load (h : S.Inv) (w : Attempt) (r : Running) : (S.load w r).Inv := by
  unfold Sys.load
  split
  · exact h.setStage w r (by simp)
  split
  · exact h.ended w rfl rfl rfl
  split
  · exact h.setStage w r (by simp)
  · exact h.setStage w r (by simp)

/-- The last try writes `failed`; the ones before it leave the status. -/
theorem Inv.markFailed (h : S.Inv) {r : Running} (message : String)
    (hproper : r.final = true → ∀ row ∈ S.jobs.get r.job, row.status ≠ .succeeded) :
    (S.updateJob r.job (JobRow.markFailed message r.final)).Inv := by
  refine h.updateJob r.job (JobRow.markFailed_grows message r.final) fun row hrow => ?_
  unfold JobRow.markFailed
  split
  · rename_i hfinal
    exact ⟨fun hs => (by cases hs), fun hs => absurd hs (hproper hfinal row hrow)⟩
  · exact Iff.rfl

/-- Every proper event keeps the invariant. -/
theorem Inv.step {e : Event} (h : S.Inv) (hproper : S.Proper e) (hstep : Step e S S') :
    S'.Inv := by
  unfold Step Sys.apply at hstep
  cases e with
  | tick | work =>
      cases hstep
      exact ⟨⟨h.once, h.status, h.empty⟩, h.present, h.seen⟩
  | enqueue => exact h.enqueue hstep
  | deliver w =>
      dsimp only at hstep
      split at hstep
      · cases hstep
        refine h.outside (w := w) rfl rfl rfl fun r' hr' => ?_
        cases hr'
        simp
      · cases hstep
  | markRunning w =>
      dsimp only at hstep
      split at hstep
      · rename_i r hw
        split at hstep
        · cases hstep
          have hmarked := h.writeStatus r.job (f := JobRow.markRunning S.now)
            (fun row => Or.inr (version_write row _)) (fun row hs => by cases hs) (hproper r hw)
          exact hmarked.setStage w r (by simp)
        · cases hstep
      · cases hstep
  | load w =>
      dsimp only at hstep
      split at hstep
      · rename_i r hw
        split at hstep
        · cases hstep
          exact h.load w r
        · cases hstep
      · cases hstep
  | preflight w =>
      -- the shop is empty enough or not; either way nothing is written
      dsimp only at hstep
      split at hstep
      · rename_i r hw
        split at hstep
        · split at hstep
          · cases hstep
            exact h.setStage w r (by simp)
          · cases hstep
            exact h.setStage w r (by simp)
        · cases hstep
      · cases hstep
  | «begin» w =>
      dsimp only at hstep
      split at hstep
      · rename_i r hw
        split at hstep
        · rename_i file row hstage hrow
          cases hstep
          -- the snapshot is the row of this moment, so it is seen as it is
          refine h.attempt (w := w) rfl rfl rfl fun r' tx hr' hw' => ?_
          cases hr'
          rcases hw' with hw' | hw' <;> cases hw'
          exact ⟨(h.status r.job row hrow).mp, row, hrow, Or.inl rfl⟩
        · cases hstep
      · cases hstep
  | lock w =>
      dsimp only at hstep
      split at hstep
      · rename_i r hw
        split at hstep
        · rename_i tx hstage hlock
          cases hstep
          -- the snapshot is the one that the transaction waited with
          refine h.attempt (w := w) rfl rfl rfl fun r' tx' hr' hw' => ?_
          cases hr'
          rcases hw' with hw' | hw' <;> cases hw'
          exact h.seen w r tx hw (Or.inl hstage)
        · cases hstep
      · cases hstep
  | commit w =>
      dsimp only at hstep
      split at hstep
      · rename_i r hw
        split at hstep
        · rename_i tx hstage
          exact h.commit hw hstage (hproper r hw tx hstage) hstep
        · cases hstep
      · cases hstep
  | abort w message =>
      dsimp only at hstep
      split at hstep
      · split at hstep
        · cases hstep
          refine h.outside (w := w) rfl rfl rfl fun r' hr' => ?_
          cases hr'
          simp
        · cases hstep
      · cases hstep
  | crash w =>
      cases hstep
      exact h.ended w rfl rfl rfl
  | markFailed w =>
      dsimp only at hstep
      split at hstep
      · rename_i r hw
        split at hstep
        · rename_i message hstage
          cases hstep
          exact (h.markFailed message (hproper r hw)).ended w rfl rfl rfl
        · cases hstep
      · cases hstep
  | failedEvent job message =>
      dsimp only at hstep
      split at hstep
      · cases hstep
        exact h.writeStatus job (JobRow.markFailed_grows message true) (fun row hs => by cases hs) hproper
      · cases hstep

/-- What was committed stays so. -/
theorem commits_of_step {e : Event} (hstep : Step e S S') : S.commits <+: S'.commits := by
  unfold Step Sys.apply at hstep
  cases e with
  | tick | work | crash =>
      cases hstep
      exact List.prefix_rfl
  | enqueue =>
      unfold Sys.enqueue at hstep
      grind
  | commit w =>
      dsimp only at hstep
      split at hstep
      · split at hstep
        · obtain ⟨_, _, -, -, -, -, hcommits, -, -⟩ := commit_eq_some hstep
          exact hcommits ▸ List.prefix_append _ _
        · cases hstep
      · cases hstep
  | load =>
      unfold Sys.load at hstep
      grind [setStage, setAttempt]
  | _ => grind [setStage, setAttempt, updateJob, release]

/-- A job that has succeeded before a proper event has succeeded after it. -/
theorem Inv.keeps (h : S.Inv) (h' : S'.Inv) (hc : S.commits <+: S'.commits) : S.Keeps S' := by
  intro job row hrow hs
  have hjob : job ∈ S'.commits.map Commit.job :=
    (hc.map Commit.job).subset ((h.status job row hrow).mp hs)
  obtain ⟨row', hrow'⟩ := Option.isSome_iff_exists.mp (h'.present job hjob)
  exact ⟨row', hrow', (h'.status job row' hrow').mpr hjob⟩

/-- An event that is not proper breaks what is asked of a run. -/
theorem Inv.proper {e : Event} (h : S.Inv) (hstep : Step e S S') (hlife : S'.Lifecycle)
    (hkeeps : S.Keeps S') : S.Proper e := by
  unfold Step Sys.apply at hstep
  cases e with
  | markRunning w =>
      intro r hw row hrow hs
      obtain ⟨row', hrow', hs'⟩ := hkeeps r.job row hrow hs
      simp only [show S.attempts w = some r from hw] at hstep
      split at hstep
      · cases hstep
        rcases get_updateJob (S := S) hrow' with ⟨-, _, -, rfl⟩ | ⟨hne, -⟩
        · cases hs'
        · exact hne rfl
      · cases hstep
  | markFailed w =>
      intro r hw hfinal row hrow hs
      obtain ⟨row', hrow', hs'⟩ := hkeeps r.job row hrow hs
      simp only [show S.attempts w = some r from hw] at hstep
      split at hstep
      · cases hstep
        rcases get_updateJob (S := S) hrow' with ⟨-, _, -, rfl⟩ | ⟨hne, -⟩
        · rw [JobRow.markFailed, if_pos hfinal] at hs'
          cases hs'
        · exact hne rfl
      · cases hstep
  | failedEvent job message =>
      intro row hrow hs
      obtain ⟨row', hrow', hs'⟩ := hkeeps job row hrow hs
      dsimp only at hstep
      split at hstep
      · cases hstep
        rcases get_updateJob (S := S) hrow' with ⟨-, _, -, rfl⟩ | ⟨hne, -⟩
        · cases hs'
        · exact hne rfl
      · cases hstep
  | commit w =>
      intro r hw tx hr
      simp only [show S.attempts w = some r from hw, hr] at hstep
      obtain ⟨row, rows, -, hempty, -, -, hcommits, -, -⟩ := commit_eq_some hstep
      refine ⟨fun hs => ?_, fun hmode => ?_⟩
      · -- the snapshot saw the job succeeded: this is its second commit
        have honce := hlife.once r.job
        have hbefore := List.count_pos_iff.mpr ((h.seen w r tx hw (Or.inr hr)).1 hs)
        rw [hcommits, List.map_append, List.count_append, List.map_singleton,
          List.count_singleton_self] at honce
        omega
      · have hlast : Commit.mk r.job r.replace S.rows ∈ S'.commits := by
          rw [hcommits]
          simp
        rw [show S.rows = [] from hlife.empty _ hlast hmode]
        exact (hempty.resolve_left (by simp [hmode])).symm
  | _ => trivial

theorem Inv.fresh (now : Nat) (rows : List RowId) : (Sys.fresh now rows).Inv where
  once _ := Nat.zero_le _
  status job row hrow := by cases hrow
  empty c hc := by cases hc
  present job hjob := by cases hjob
  seen w r tx hw := by cases hw

end Sys

/-! ## Runs -/

theorem Reaches.inv {S₀ S : Sys} (h₀ : S₀.Inv) (h : Reaches Sys.Proper S₀ S) : S.Inv := by
  induction h with
  | refl => exact h₀
  | step _ hproper hstep ih => exact ih.step hproper hstep

theorem Reaches.commits {S₀ S : Sys} (h : Reaches Sys.Proper S₀ S) : S₀.commits <+: S.commits := by
  induction h with
  | refl => exact List.prefix_rfl
  | step _ _ hstep ih => exact ih.trans (Sys.commits_of_step hstep)

/-- In a run of proper events every job is committed at most once, is `succeeded` exactly when it was
committed, and for good, and no two files are merged. The first event of a run that is not proper
breaks one of these. -/
theorem import_lifecycle {now : Nat} {rows : List RowId} {S : Sys}
    (h : Reaches Sys.Proper (Sys.fresh now rows) S) :
    S.Lifecycle ∧ (∀ S', Reaches Sys.Proper S S' → S.Keeps S') ∧
      ∀ e S', Step e S S' → (S.Proper e ↔ S'.Lifecycle ∧ S.Keeps S') := by
  have hinv := h.inv (Sys.Inv.fresh now rows)
  refine ⟨hinv.toLifecycle, fun S' h' => hinv.keeps (h'.inv hinv) h'.commits, fun e S' hstep => ?_⟩
  constructor
  · intro hproper
    have hinv' := hinv.step hproper hstep
    exact ⟨hinv'.toLifecycle, hinv.keeps hinv' (Sys.commits_of_step hstep)⟩
  · rintro ⟨hlife, hkeeps⟩
    exact hinv.proper hstep hlife hkeeps

/-- The events in order. -/
def Sys.run (S : Sys) : List Event → Option Sys
  | []      => some S
  | e :: es => (S.apply e).bind fun S => S.run es

/-- Every event of the run satisfies `ok` where it happens. -/
def Sys.RunOk (ok : Sys → Event → Prop) : Sys → List Event → Prop
  | _, []      => True
  | S, e :: es => ok S e ∧ ∀ S' ∈ S.apply e, S'.RunOk ok es

theorem Reaches.of_run {ok : Sys → Event → Prop} {S₀ S S' : Sys} {es : List Event}
    (h : Reaches ok S₀ S) (hok : S.RunOk ok es) (hrun : S.run es = some S') :
    Reaches ok S₀ S' := by
  induction es generalizing S with
  | nil =>
      obtain rfl : S = S' := by simpa [Sys.run] using hrun
      exact h
  | cons e es ih =>
      obtain ⟨S₁, hstep, hrest⟩ := Option.bind_eq_some_iff.mp hrun
      exact ih (h.step hok.1 hstep) (hok.2 S₁ hstep) hrest

theorem Sys.runOk_true (S : Sys) (es : List Event) : S.RunOk (fun _ _ => True) es := by
  induction es generalizing S with
  | nil => trivial
  | cons e es ih => exact ⟨trivial, fun S' _ => ih S'⟩

/-- What `Sys.Proper` asks of an import that is committed, by the stage of its attempt. -/
private def Sys.Fits (S : Sys) (replace : Bool) : Stage → Prop
  | .writing tx => tx.seenJob.status ≠ .succeeded ∧ (replace = false → S.rows = tx.seenRows)
  | _           => True

private instance Sys.decidableFits (S : Sys) (replace : Bool) :
    (stage : Stage) → Decidable (S.Fits replace stage)
  | .writing _ => inferInstanceAs (Decidable (_ ∧ _))
  | .taken | .marked | .loaded _ | .checked _ | .waiting _ | .failing _ => isTrue trivial

instance Sys.decidableProper (S : Sys) (e : Event) : Decidable (S.Proper e) := by
  cases e with
  | commit w =>
      refine decidable_of_iff (∀ r ∈ S.attempts w, S.Fits r.replace r.stage) ?_
      refine forall_congr' fun r => imp_congr_right fun _ => ?_
      cases r.stage <;> simp [Sys.Fits]
  | _ =>
      unfold Sys.Proper
      infer_instance

instance Sys.decidableRunOk : (S : Sys) → (es : List Event) → Decidable (S.RunOk Sys.Proper es)
  | _, []     => isTrue trivial
  | _, _ :: es =>
      have := fun S => Sys.decidableRunOk S es
      inferInstanceAs (Decidable (_ ∧ _))

/-- One import, up to its commit. -/
private def oneImport : List Event :=
  [.enqueue 1 [7] false, .deliver 0 1 false, .markRunning 0, .load 0, .preflight 0, .begin 0,
    .lock 0, .commit 0]

/-- An import of a new shop. -/
theorem import_lifecycle_of_oneImport :
    ∃ S, (Sys.fresh 0 []).run oneImport = some S ∧ S.commits = [⟨1, false, []⟩] ∧ S.Lifecycle := by
  have hrun : ((Sys.fresh 0 []).run oneImport).map Sys.commits = some [⟨1, false, []⟩] := by decide
  obtain ⟨S, hS, hcommits⟩ := Option.map_eq_some_iff.mp hrun
  exact ⟨S, hS, hcommits, (import_lifecycle (Reaches.of_run .refl (by decide) hS)).1⟩

/-- The queue hands out a job once more whose import was committed (the worker's acknowledgement was
lost): `markRunning` writes over `succeeded` before `processJob` would read it. -/
theorem redelivery_overwrites_succeeded :
    ¬ ∀ S, Reaches (fun _ _ => True) (Sys.fresh 0 []) S → S.Lifecycle := by
  intro hclaim
  have hrun : ((Sys.fresh 0 []).run (oneImport ++ [.deliver 1 1 false, .markRunning 1])).map
      (fun S => (S.commits, (S.jobs.get 1).map JobRow.status)) =
      some ([⟨1, false, []⟩], some .running) := by decide
  obtain ⟨S, hS, heq⟩ := Option.map_eq_some_iff.mp hrun
  obtain ⟨hcommits, hstatus⟩ := Prod.mk.injEq .. ▸ heq
  obtain ⟨row, hrow, hrunning⟩ := Option.map_eq_some_iff.mp hstatus
  have hlife := hclaim S (Reaches.of_run .refl (Sys.runOk_true _ _) hS)
  have hsucc : row.status = .succeeded := (hlife.status 1 row hrow).mpr (by simp [hcommits])
  rw [hrunning] at hsucc
  cases hsucc

end Import

import SrisurartPos.Server.DocSeries
import Mathlib.Data.List.MinMax

/-! # Document numbers at the till (`doc_number_service.dart`, `doc_counter_seeder.dart`)

Without the server the till numbers its receipts and credit notes itself, one past its own counter
for the month. It keeps that counter at the highest number it knows of: of its own, of those the
server has answered it with, and of the server's counters whenever it asks for them. -/

namespace Till

open Server

/-- A row of `doc_counters`. -/
structure CounterRow where
  deviceNo : Nat
  lastNo : Nat
  deriving DecidableEq, Repr

/-- The two tables of the service; a seed is stored with its `seededAt`. -/
structure NumberDb where
  docCounters : Table (DeviceId × DocType × Period) CounterRow
  docCounterSeeds : Table (DeviceId × Period) Nat

def NumberDb.empty : NumberDb := ⟨.empty, .empty⟩

inductive DocNumberError where
  | argument
  | exhausted
  | offlineSeedRequired
  deriving DecidableEq, Repr

/-- A number that is not of the format is a `FormatException`. -/
def parseDocNo : DocNo → Option DocNumber
  | .other _     => none
  | .formatted n =>
      if n.deviceNo < 1 ∨ n.deviceNo > 99 then none
      else if n.seq < 1 ∨ n.seq > 9999 then none
      else some n

namespace NumberDb

/-- `ON CONFLICT … DO UPDATE SET last_no = MAX(last_no, excluded.last_no)` -/
def raise (c : DeviceId × DocType × Period) (deviceNo seq : Nat) (db : NumberDb) : NumberDb :=
  { db with
    docCounters := db.docCounters.upsert c
      (match db.docCounters.get c with
        | none     => ⟨deviceNo, seq⟩
        | some row => { row with lastNo := max row.lastNo seq }) }

/-- `getLastNo` -/
def lastNo (db : NumberDb) (c : DeviceId × DocType × Period) : Nat :=
  ((db.docCounters.get c).map (·.lastNo)).getD 0

def hasSeedMarker (db : NumberDb) (d : DeviceId) : Bool :=
  db.docCounterSeeds.rows.any fun e => e.1.1 = d

def generateNextDocNo (d : DeviceId) (deviceNo : Nat) (docType : DocType) (period : Period)
    (isOffline : Bool) (db : NumberDb) : Except DocNumberError DocNumber :=
  if deviceNo < 1 ∨ deviceNo > 99 then .error .argument
  else if isOffline && !db.hasSeedMarker d then .error .offlineSeedRequired
  else if db.lastNo (d, docType, period) ≥ 9999 then .error .exhausted
  else .ok ⟨docType, deviceNo, period, db.lastNo (d, docType, period) + 1⟩

def commitDocNo (d : DeviceId) (deviceNo : Nat) (docType : DocType) (period : Period) (seq : Nat)
    (db : NumberDb) : Except DocNumberError NumberDb :=
  if deviceNo < 1 ∨ deviceNo > 99 then .error .argument
  else if seq < 1 ∨ seq > 9999 then .error .argument
  else .ok (db.raise (d, docType, period) deviceNo seq)

def issueAndCommit (d : DeviceId) (deviceNo : Nat) (docType : DocType) (period : Period)
    (isOffline : Bool) (db : NumberDb) : Except DocNumberError (DocNo × NumberDb) := do
  let n ← db.generateNextDocNo d deviceNo docType period isOffline
  let db ← db.commitDocNo d deviceNo docType n.period n.seq
  return (.formatted n, db)

/-- The device that was seeded last, with the `device_no` that a counter row of it has. -/
def seededDevice (db : NumberDb) : Option (DeviceId × Nat) := do
  let seed ← db.docCounterSeeds.rows.argmax Prod.snd
  let counter ← db.docCounters.rows.find? fun e => e.1.1 = seed.1.1
  return (seed.1.1, counter.2.deviceNo)

def issueOffline (docType : DocType) (period : Period) (db : NumberDb) :
    Except DocNumberError (DocNo × NumberDb) :=
  match db.seededDevice with
  | none        => .error .offlineSeedRequired
  | some device => db.issueAndCommit device.1 device.2 docType period true

/-- The counter that a number of the server goes to, if any. -/
def recordable (docNo : DocNo) (db : NumberDb) : Option (DeviceId × DocNumber) := do
  let parsed ← parseDocNo docNo
  let device ← db.seededDevice
  if device.2 ≠ parsed.deviceNo then none else some (device.1, parsed)

def commitServerIssued (docNo : DocNo) (db : NumberDb) : NumberDb :=
  match db.recordable docNo with
  | none             => db
  | some (d, parsed) => db.raise (d, parsed.docType, parsed.period) parsed.deviceNo parsed.seq

end NumberDb

/-! ## Seeding -/

/-- The answer to `GET /doc-counters`. -/
structure Seed where
  deviceId : DeviceId
  deviceNo : Nat
  period : Period
  counters : List (DocType × Period × Nat)
  deriving DecidableEq, Repr

/-- `DocCountersService.forDevice` -/
def forDevice (d : DeviceId) (period : Period) (db : Server.Db) : Option Seed :=
  ((db.devices.get d).filter fun device => !device.retired).map fun device =>
    { deviceId := d
      deviceNo := device.deviceNo
      period := period
      counters := (db.docCounters.rows.filter fun e => e.1.1 = d).map fun e => (e.1.2.1, e.1.2.2, e.2) }

namespace NumberDb

def raiseAll (seed : Seed) (counters : List (DocType × Period × Nat)) (db : NumberDb) : NumberDb :=
  counters.foldl (fun db c => db.raise (seed.deviceId, c.1, c.2.1) seed.deviceNo c.2.2) db

/-- A device that has issued nothing yet gets a row, which holds its `device_no`. -/
def withDevice (seed : Seed) (db : NumberDb) : NumberDb :=
  if db.docCounters.rows.any fun e => e.1.1 = seed.deviceId then db
  else db.raise (seed.deviceId, .receipt, seed.period) seed.deviceNo 0

/-- `seed`, once the reply has been parsed. -/
def seed (seed : Seed) (now : Nat) (db : NumberDb) : NumberDb :=
  let filled := (db.raiseAll seed seed.counters).withDevice seed
  { filled with docCounterSeeds := filled.docCounterSeeds.upsert (seed.deviceId, seed.period) now }

end NumberDb

/-! ## The counter only rises -/

namespace NumberDb

variable {db : NumberDb} {d : DeviceId} {c c' : DeviceId × DocType × Period} {deviceNo seq : Nat}

theorem lastNo_raise : (db.raise c deviceNo seq).lastNo c' =
    if c' = c then max (db.lastNo c) seq else db.lastNo c' := by
  unfold lastNo raise
  rw [Table.get_upsert]
  split
  · cases db.docCounters.get c with
    | none => simp
    | some row => rfl
  · rfl

theorem le_lastNo_raise : db.lastNo c' ≤ (db.raise c deviceNo seq).lastNo c' := by
  rw [lastNo_raise]
  split
  · rename_i heq
    exact heq ▸ le_max_left _ _
  · exact le_rfl

theorem lastNo_raise_self : seq ≤ (db.raise c deviceNo seq).lastNo c := by
  rw [lastNo_raise, if_pos rfl]
  exact le_max_right _ _

/-- All its rows are those of one device. -/
structure Owned (db : NumberDb) (d : DeviceId) : Prop where
  counters : ∀ c row, db.docCounters.get c = some row → c.1 = d
  seeds : ∀ k seededAt, db.docCounterSeeds.get k = some seededAt → k.1 = d

theorem Owned.raise (h : db.Owned d) (hc : c.1 = d) : (db.raise c deviceNo seq).Owned d where
  counters c' row hrow := by
    unfold NumberDb.raise at hrow
    rw [Table.get_upsert] at hrow
    split at hrow
    · rename_i heq
      rw [heq, hc]
    · exact h.counters c' row hrow
  seeds := h.seeds

theorem Owned.seededDevice (h : db.Owned d) {device : DeviceId × Nat}
    (hd : db.seededDevice = some device) : device.1 = d := by
  obtain ⟨seed, hseed, hd⟩ := Option.bind_eq_some_iff.mp hd
  obtain ⟨counter, -, hd⟩ := Option.bind_eq_some_iff.mp hd
  obtain rfl := Option.some.inj hd
  exact h.seeds seed.1 seed.2 (db.docCounterSeeds.mem_rows.mp (List.argmax_mem hseed))

/-! ### Numbering -/

/-- **What numbering without the server does.** -/
theorem of_issueOffline {docType : DocType} {period : Period} {no : DocNo} {db' : NumberDb}
    (h : db.issueOffline docType period = .ok (no, db')) : ∃ device : DeviceId × Nat,
      db.seededDevice = some device ∧
      no = .formatted ⟨docType, device.2, period, db.lastNo (device.1, docType, period) + 1⟩ ∧
      db' = db.raise (device.1, docType, period) device.2
        (db.lastNo (device.1, docType, period) + 1) := by
  unfold issueOffline at h
  cases hd : db.seededDevice with
  | none =>
      rw [hd] at h
      cases h
  | some device =>
      rw [hd] at h
      simp only [issueAndCommit, generateNextDocNo] at h
      refine ⟨device, rfl, ?_⟩
      split at h
      · cases h
      split at h
      · cases h
      split at h
      · cases h
      simp only [commitDocNo, bind, Except.bind] at h
      split at h
      · cases h
      rename_i hok
      split at hok
      · cases hok
      split at hok
      · cases hok
      cases hok
      cases h
      exact ⟨rfl, rfl⟩

/-- A number that may be recorded is one of this till's own series. -/
theorem of_recordable {no : DocNo} {r : DeviceId × DocNumber} (h : db.recordable no = some r) :
    no = .formatted r.2 ∧ ∃ device, db.seededDevice = some device ∧ device.1 = r.1 := by
  obtain ⟨n, hn, h⟩ := Option.bind_eq_some_iff.mp h
  obtain ⟨device, hd, h⟩ := Option.bind_eq_some_iff.mp h
  split at h
  · cases h
  obtain rfl := Option.some.inj h
  refine ⟨?_, device, hd, rfl⟩
  cases no with
  | other text => cases hn
  | formatted m =>
      simp only [parseDocNo] at hn
      split at hn
      · cases hn
      split at hn
      · cases hn
      exact congrArg DocNo.formatted (Option.some.inj hn)

theorem le_lastNo_commitServerIssued (no : DocNo) :
    db.lastNo c ≤ (db.commitServerIssued no).lastNo c := by
  unfold commitServerIssued
  split
  · exact le_rfl
  · exact le_lastNo_raise

theorem Owned.commitServerIssued (h : db.Owned d) (no : DocNo) : (db.commitServerIssued no).Owned d := by
  unfold NumberDb.commitServerIssued
  split
  · exact h
  · rename_i d' n hr
    obtain ⟨-, device, hd, hd'⟩ := of_recordable hr
    exact h.raise (hd'.symm.trans (h.seededDevice hd))

/-- A number that is recorded is behind the counter of its month. -/
theorem Owned.recorded (h : db.Owned d) {n : DocNumber}
    (hr : (db.recordable (.formatted n)).isSome = true) :
    n.seq ≤ (db.commitServerIssued (.formatted n)).lastNo (d, n.docType, n.period) := by
  obtain ⟨⟨d', m⟩, hr⟩ := Option.isSome_iff_exists.mp hr
  obtain ⟨hm, device, hd, hd'⟩ := of_recordable hr
  obtain rfl := DocNo.formatted.inj hm
  have hown : d' = d := hd'.symm.trans (h.seededDevice hd)
  unfold NumberDb.commitServerIssued
  rw [hr, hown]
  exact lastNo_raise_self

/-! ### Seeding -/

section
variable {seed : Seed} {now : Nat}

theorem le_lastNo_raiseAll (l : List (DocType × Period × Nat)) (db : NumberDb) :
    db.lastNo c ≤ (db.raiseAll seed l).lastNo c := by
  induction l generalizing db with
  | nil => exact le_rfl
  | cons e l ih => exact le_lastNo_raise.trans (ih _)

theorem mem_le_lastNo_raiseAll (l : List (DocType × Period × Nat)) (db : NumberDb)
    {e : DocType × Period × Nat} (he : e ∈ l) :
    e.2.2 ≤ (db.raiseAll seed l).lastNo (seed.deviceId, e.1, e.2.1) := by
  induction l generalizing db with
  | nil => cases he
  | cons e' l ih =>
      rcases List.mem_cons.mp he with rfl | he
      · exact lastNo_raise_self.trans (le_lastNo_raiseAll l _)
      · exact ih _ he

theorem le_lastNo_withDevice : db.lastNo c ≤ (db.withDevice seed).lastNo c := by
  unfold withDevice
  split
  · exact le_rfl
  · exact le_lastNo_raise

theorem le_lastNo_seed : db.lastNo c ≤ (db.seed seed now).lastNo c :=
  (le_lastNo_raiseAll _ _).trans le_lastNo_withDevice

/-- Afterwards the till is at least where the server was. -/
theorem mem_le_lastNo_seed {docType : DocType} {period : Period} {v : Nat}
    (h : (docType, period, v) ∈ seed.counters) :
    v ≤ (db.seed seed now).lastNo (seed.deviceId, docType, period) :=
  (mem_le_lastNo_raiseAll seed.counters db h).trans le_lastNo_withDevice

theorem Owned.raiseAll (h : db.Owned seed.deviceId) (l : List (DocType × Period × Nat)) :
    (db.raiseAll seed l).Owned seed.deviceId := by
  induction l generalizing db with
  | nil => exact h
  | cons e l ih => exact ih (h.raise rfl)

theorem Owned.withDevice (h : db.Owned seed.deviceId) :
    (db.withDevice seed).Owned seed.deviceId := by
  unfold NumberDb.withDevice
  split
  · exact h
  · exact h.raise rfl

theorem Owned.seeded (h : db.Owned seed.deviceId) : (db.seed seed now).Owned seed.deviceId where
  counters := (h.raiseAll _).withDevice.counters
  seeds k seededAt hk := by
    unfold NumberDb.seed at hk
    rw [Table.get_upsert] at hk
    split at hk
    · rename_i heq
      rw [heq]
    · exact (h.raiseAll _).withDevice.seeds k seededAt hk

end

end NumberDb

end Till

import SrisurartPos.Server.Program

/-! # Document numbers (`doc-number.service.ts`)

A number is either issued by the server, one past the device's counter for the period, or brought
by the client, checked, and recorded as the counter's high-water mark. -/

namespace Server

open Txn

def maxDocNo : Nat := 9999

/-- The device's number. A retired device keeps it but may not issue under it. -/
def deviceNo (d : DeviceId) : Prog Nat := do
  let row ← Tx.glance fun db => db.devices.get d
  let device ← Tx.orFail row .deviceRoleForbidden
  Tx.require (device.retired = false) .deviceRoleForbidden
  return device.deviceNo

/-- The number must be in the server's format, of the right type and of the calling device. Its
period is not compared with the calendar. -/
def validateDocNumber (docType : DocType) (callerDeviceNo : Nat) :
    DocNo → Except ServerError (Period × Nat)
  | .other _     => .error .docNumberInvalid
  | .formatted n =>
      if n.docType ≠ docType then .error .docNumberInvalid
      else if n.deviceNo ≠ callerDeviceNo then .error .docNumberInvalid
      else if n.seq < 1 ∨ n.seq > maxDocNo then .error .docNumberInvalid
      else .ok (n.period, n.seq)

def recordClientDocNumber (d : DeviceId) (docType : DocType) (docNumber : DocNo) : Prog DocNo := do
  let no ← deviceNo d
  let (period, seq) ← Tx.ofExcept (validateDocNumber docType no docNumber)
  let last ← Tx.selectFor .update (.counter (d, docType, period)) fun db =>
    db.docCounters.get (d, docType, period)
  Tx.update fun db => db.setCounter (d, docType, period) (max (last.getD 0) seq)
  return docNumber

def issue (env : Env) (d : DeviceId) (docType : DocType) : Prog DocNo := do
  let no ← deviceNo d
  let last ← Tx.selectFor .update (.counter (d, docType, env.period)) fun db =>
    db.docCounters.get (d, docType, env.period)
  let next := last.getD 0 + 1
  Tx.require (next ≤ maxDocNo) .docNumberExhausted
  Tx.update fun db => db.setCounter (d, docType, env.period) next
  return .formatted ⟨docType, no, env.period, next⟩

/-- The number of a sale or a credit note. A blank client number is none. -/
def resolveDocNumber (env : Env) (d : DeviceId) (docType : DocType)
    (clientDocNumber : Option DocNo) : Prog DocNo :=
  match clientDocNumber with
  | some n => recordClientDocNumber d docType n
  | none   => do
      Tx.require (env.docNumberFallback = true) .docNumberRequired
      issue env d docType

/-! ## What they do -/

section
variable {H : Held LockKey} {s : Db} {Q : DocNo → Held LockKey → Db → Prop}

theorem wp_deviceNo {d : DeviceId} {Q : Nat → Held LockKey → Db → Prop} (h : ∀ n, Q n H s) :
    wp (deviceNo d) H s Expected Q := by
  refine wp_bind_glance fun s₀ => wp_bind_orFail (fun device _ => ?_) fun _ => rfl
  exact wp_bind_require (fun _ => h _) fun _ => rfl

/-- Only the counter moves. -/
theorem wp_issue {env : Env} {d : DeviceId} {docType : DocType}
    (h : ∀ n c v, Q n ((.counter c, .update) :: H) (s.setCounter c v)) :
    wp (issue env d docType) H s Expected Q := by
  refine (wp_bind _ _).mpr (wp_deviceNo fun no => wp_bind_selectFor ?_)
  exact wp_bind_require (fun _ => h _ _ _) fun _ => rfl

/-- A number is issued or recorded under the lock of its counter, and writes nothing but that counter. -/
theorem wp_resolveDocNumber {env : Env} {d : DeviceId} {docType : DocType}
    {clientDocNumber : Option DocNo}
    (h : ∀ n c v, Q n ((.counter c, .update) :: H) (s.setCounter c v)) :
    wp (resolveDocNumber env d docType clientDocNumber) H s Expected Q := by
  cases clientDocNumber with
  | none => exact wp_bind_require (fun _ => wp_issue h) fun _ => rfl
  | some n =>
      refine (wp_bind _ _).mpr (wp_deviceNo fun no => ?_)
      refine wp_bind_ofExcept (fun ps _ => h _ _ _) fun e he => ?_
      cases n with
      | other t => cases he; rfl
      | formatted m =>
          simp only [validateDocNumber] at he
          split_ifs at he <;> cases he <;> rfl

theorem disciplined_deviceNo (d : DeviceId) :
    Disciplined agree (deviceNo d) H fun _ _ => True := by
  refine disciplined_bind_glance fun row => disciplined_bind_orFail fun device _ => ?_
  exact disciplined_bind_require fun _ => trivial

theorem disciplined_issue (env : Env) (d : DeviceId) (docType : DocType) :
    Disciplined agree (issue env d docType) H fun _ _ => True := by
  refine Disciplined.seq (disciplined_deviceNo d) fun no H' _ _ => ?_
  refine disciplined_bind_selectFor (fun s s' hs => View.counter.inj hs) fun last => ?_
  exact disciplined_bind_require fun _ => ⟨respects_setCounter _ _, trivial⟩

theorem disciplined_recordClientDocNumber (d : DeviceId) (docType : DocType) (docNumber : DocNo) :
    Disciplined agree (recordClientDocNumber d docType docNumber) H fun _ _ => True := by
  refine Disciplined.seq (disciplined_deviceNo d) fun no H' _ _ => ?_
  refine disciplined_bind_ofExcept fun ps _ => ?_
  refine disciplined_bind_selectFor (fun s s' hs => View.counter.inj hs) fun last => ?_
  exact ⟨respects_setCounter _ _, trivial⟩

theorem disciplined_resolveDocNumber (env : Env) (d : DeviceId) (docType : DocType)
    (clientDocNumber : Option DocNo) :
    Disciplined agree (resolveDocNumber env d docType clientDocNumber) H fun _ _ => True := by
  cases clientDocNumber with
  | none => exact disciplined_bind_require fun _ => disciplined_issue env d docType
  | some n => exact disciplined_recordClientDocNumber d docType n

end

end Server

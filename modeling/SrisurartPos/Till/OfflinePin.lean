import SrisurartPos.Awaits
import SrisurartPos.Bytes

/-! # The offline PIN (`offline_pin_repository.dart`)

A till that cannot reach the server lets the shop sign in with a PIN. Five wrong ones lock it until
an online login or a new PIN, and it serves for three days after the last online login. What the till
knows stands in a few rows of `app_meta`, and every row is read and written by an await of its own. -/

namespace Till.OfflinePin

open Awaits Awaits.Task

/-! ## The rows -/

/-- The PIN's rows of `AppMeta`. -/
structure Meta where
  pinHash : Option (List Char)
  pinSalt : Option (List UInt8)
  deviceId : Option String
  deviceRole : Option String
  failedAttempts : Option Int
  locked : Option Bool
  lastLoginIat : Option Int

def Meta.empty : Meta := ⟨none, none, none, none, none, none, none⟩

def maxFailedAttempts : Int := 5

/-- 3 days, in seconds -/
def validityWindowSeconds : Int := 3 * 24 * 60 * 60

inductive PinVerifyResult where
  | success
  | invalid (remainingAttempts : Int)
  | locked
  | expired
  | notConfigured
  | notPos
  deriving DecidableEq, Repr

/-- What `POST /auth/token` answers while a PIN is set: a refusal, a token for changing the password
alone, or a login with its `iat`. -/
inductive TokenReply where
  | refused
  | passwordChangeRequired
  | granted (iat : Option Int)
  deriving DecidableEq, Repr

inductive Outcome where
  | verified (r : PinVerifyResult)
  | recorded
  | pinSet (iat : Int)
  | refused
  | cleared
  deriving DecidableEq, Repr

/-- A PIN was compared with the hash, by a call whose clock read `now`. -/
structure Compared where
  now : Int
  matched : Bool
  deriving DecidableEq, Repr

abbrev Work := Task Meta Compared

/-- Dart's white space, which `trim` takes off both ends. -/
def isWhiteSpace (c : Char) : Bool :=
  (0x09 ≤ c.toNat && c.toNat ≤ 0x0D) || (0x2000 ≤ c.toNat && c.toNat ≤ 0x200A) ||
    [0x20, 0x85, 0xA0, 0x1680, 0x2028, 0x2029, 0x202F, 0x205F, 0x3000, 0xFEFF].contains c.toNat

def trim (s : String) : String :=
  String.ofList ((s.toList.dropWhile isWhiteSpace).reverse.dropWhile isWhiteSpace).reverse

/-- `length`, in UTF-16 units -/
def utf16Length (s : String) : Nat := (s.toList.map fun c => if c.toNat < 0x10000 then 1 else 2).sum

/-- `buildDeviceBoundSalt` -/
def buildDeviceBoundSalt (salt : List UInt8) (deviceId : Option String) : List UInt8 :=
  salt ++ 0x3A :: (deviceId.getD "unknown-device").toUTF8.toList

section
variable (deriveKey : String → List UInt8 → Vector UInt8 32)

/-- The hash that a PIN is stored as and compared by. Which key PBKDF2 derives does not matter here. -/
def pinHashOf (pin : String) (salt : List UInt8) (deviceId : Option String) : List Char :=
  Bytes.hex (deriveKey pin (buildDeviceBoundSalt salt deviceId)).toList

/-! ## The calls -/

def isPinConfigured : Work Bool := do
  let hash ← get (·.pinHash)
  return hash.any (· ≠ [])

def getFailedAttempts : Work Int := get fun m => m.failedAttempts.getD 0

def isLocked : Work Bool := do
  let locked ← get (·.locked)
  if locked = some true then
    return true
  else do
    let attempts ← getFailedAttempts
    return decide (attempts ≥ maxFailedAttempts)

/-- The clock reads milliseconds, the token's `iat` is in seconds. -/
def isExpired (now : Int) : Work Bool := do
  let lastIat ← get (·.lastLoginIat)
  match lastIat with
  | none     => return true
  | some iat => return decide (now.tdiv 1000 - iat > validityWindowSeconds)

/-- `value != null && value.isNotEmpty` -/
def given : Option String → Bool
  | some value => value != ""
  | none       => false

def recordOnlineLogin (iat : Int) (deviceId deviceRole : Option String) : Work Outcome := do
  set fun m => { m with lastLoginIat := some iat }
  if given deviceId = true then
    set fun m => { m with deviceId := deviceId }
  if given deviceRole = true then
    set fun m => { m with deviceRole := deviceRole }
  set fun m => { m with failedAttempts := some 0 }
  set fun m => { m with locked := some false }
  return .recorded

/-- `salt` and `now` are the random salt and the clock that the call takes. -/
def setPin (password newPin deviceId : String) (reply : TokenReply) (salt : List UInt8) (now : Int) :
    Work Outcome := do
  let cleanPin := trim newPin
  if cleanPin = password ∨ utf16Length cleanPin < 4 ∨ utf16Length cleanPin > 6 then
    return .refused
  else do
    let reply ← get fun _ => reply
    match reply with
    | .refused | .passwordChangeRequired => return .refused
    | .granted claimed =>
        let iat := claimed.getD (now.tdiv 1000)
        set fun m => { m with pinHash := some (pinHashOf deriveKey cleanPin salt (some deviceId)) }
        set fun m => { m with pinSalt := some salt }
        set fun m => { m with deviceId := some deviceId }
        set fun m => { m with deviceRole := some "pos" }
        set fun m => { m with failedAttempts := some 0 }
        set fun m => { m with locked := some false }
        set fun m => { m with lastLoginIat := some iat }
        return .pinSet iat

/-- The rest of `verifyPin` once the hash and the PIN are known to differ. -/
def countFailure : Work PinVerifyResult := do
  let attempts ← getFailedAttempts
  let currentAttempts := attempts + 1
  set fun m => { m with failedAttempts := some currentAttempts }
  if currentAttempts ≥ maxFailedAttempts then do
    set fun m => { m with locked := some true }
    return .locked
  else
    return .invalid (maxFailedAttempts - currentAttempts)

/-- The comparison, with the rows that were read for it. -/
def compare (pin : String) (deviceId : Option String) (now : Int) (storedHash : List Char)
    (storedSalt : List UInt8) (storedDeviceId : Option String) : Work PinVerifyResult := do
  if storedDeviceId.isSome ∧ deviceId.isSome ∧ storedDeviceId ≠ deviceId then
    return .notPos
  else if pinHashOf deriveKey (trim pin) storedSalt (deviceId.or storedDeviceId) = storedHash then do
    log ⟨now, true⟩
    set fun m => { m with failedAttempts := some 0 }
    return .success
  else do
    log ⟨now, false⟩
    countFailure

def verifyPin (pin : String) (deviceId : Option String) (now : Int) : Work PinVerifyResult := do
  let configured ← isPinConfigured
  if configured = false then
    return .notConfigured
  else do
    let locked ← isLocked
    if locked = true then
      return .locked
    else do
      let expired ← isExpired now
      if expired = true then
        return .expired
      else do
        let storedHash ← get (·.pinHash)
        let storedSalt ← get (·.pinSalt)
        let storedDeviceId ← get (·.deviceId)
        match storedHash, storedSalt with
        | some hash, some salt => compare deriveKey pin deviceId now hash salt storedDeviceId
        | _, _                 => return .notConfigured

def clearPin : Work Outcome := do
  set fun m => { m with pinHash := none }
  set fun m => { m with pinSalt := none }
  set fun m => { m with deviceId := none }
  set fun m => { m with deviceRole := none }
  set fun m => { m with failedAttempts := none }
  set fun m => { m with locked := none }
  set fun m => { m with lastLoginIat := none }
  return .cleared

inductive Call where
  | verifyPin (pin : String) (deviceId : Option String) (now : Int)
  | recordOnlineLogin (iat : Int) (deviceId deviceRole : Option String)
  | setPin (password newPin deviceId : String) (reply : TokenReply) (salt : List UInt8) (now : Int)
  | clearPin
  deriving DecidableEq, Repr

def Call.work : Call → Work Outcome
  | .verifyPin pin deviceId now => do
      let r ← OfflinePin.verifyPin deriveKey pin deviceId now
      return .verified r
  | .recordOnlineLogin iat deviceId deviceRole => OfflinePin.recordOnlineLogin iat deviceId deviceRole
  | .setPin password newPin deviceId reply salt now =>
      OfflinePin.setPin deriveKey password newPin deviceId reply salt now
  | .clearPin => OfflinePin.clearPin

end

/-! ## What the log tells -/

abbrev History := Log Compared Call Outcome

/-- The wrong PINs that were compared since the last reset: an online login, a new PIN or the right
one. -/
def wrongSince : History → Nat
  | [] => 0
  | .note ⟨_, false⟩ :: L => wrongSince L + 1
  | .note ⟨_, true⟩ :: _ => 0
  | .finished (.recordOnlineLogin ..) _ :: _ => 0
  | .finished _ (.pinSet _) :: _ => 0
  | _ :: L => wrongSince L

/-- A fifth wrong PIN was compared, and no online login or new PIN came after it. -/
def lockedOut : History → Bool
  | [] => false
  | .note ⟨_, false⟩ :: L => lockedOut L || decide (5 ≤ wrongSince L + 1)
  | .finished (.recordOnlineLogin ..) _ :: _ => false
  | .finished _ (.pinSet _) :: _ => false
  | _ :: L => lockedOut L

/-- The `iat` of the last online login on record: a login, or the one that set the PIN. -/
def lastIat : History → Option Int
  | [] => none
  | .finished (.recordOnlineLogin iat ..) _ :: _ => some iat
  | .finished _ (.pinSet iat) :: _ => some iat
  | .finished _ .cleared :: _ => none
  | _ :: L => lastIat L

/-- The device id on record. -/
def deviceOf : History → Option String
  | [] => none
  | .finished (.recordOnlineLogin _ deviceId _) _ :: L =>
      if given deviceId = true then deviceId else deviceOf L
  | .finished (.setPin _ _ deviceId ..) (.pinSet _) :: _ => some deviceId
  | .finished _ .cleared :: _ => none
  | _ :: L => deviceOf L

/-- The PIN that is set, and the device id it was set for. -/
def pinOf : History → Option (String × String)
  | [] => none
  | .finished (.setPin _ newPin deviceId ..) (.pinSet _) :: _ => some (trim newPin, deviceId)
  | .finished _ .cleared :: _ => none
  | _ :: L => pinOf L

def Expired (now : Int) (L : History) : Prop :=
  ∀ iat, lastIat L = some iat → now.tdiv 1000 - iat > validityWindowSeconds

/-- What the log may go on with: a PIN is accepted neither after the fifth wrong one nor after its
time, and the PIN that is set for this device is not turned down while neither holds. -/
def Admissible (L : History) : Entry Compared Call Outcome → Prop
  | .note ⟨now, true⟩ => lockedOut L = false ∧ ¬Expired now L
  | .finished (.verifyPin pin deviceId now) (.verified r) =>
      ∀ p d, pinOf L = some (p, d) → deviceOf L = some d → deviceId = none ∨ deviceId = some d →
        trim pin = p → lockedOut L = false → ¬Expired now L → r = .success
  | _ => True

/-- The lock-out was kept: no more than five wrong PINs were ever compared between two resets, and
every entry was admissible when it was made. -/
def Kept : History → Prop
  | []     => True
  | e :: L => Kept L ∧ wrongSince (e :: L) ≤ 5 ∧ Admissible L e

/-! ## What the rows tell between calls -/

section
variable (deriveKey : String → List UInt8 → Vector UInt8 32)

/-- Between calls the rows agree with the log. -/
structure Agrees (L : History) (m : Meta) : Prop where
  deviceId : m.deviceId = deviceOf L
  lastLoginIat : m.lastLoginIat = lastIat L
  /-- without a PIN there is no hash, and with one its hash is bound to its device id -/
  unset : pinOf L = none → m.pinHash = none
  hash : ∀ p d, pinOf L = some (p, d) → ∃ salt, m.pinSalt = some salt ∧
    m.pinHash = some (pinHashOf deriveKey p salt (some d))
  /-- while a PIN is set, the counter stands at the wrong ones -/
  tally : pinOf L ≠ none → m.failedAttempts.getD 0 = wrongSince L
  locked : pinOf L ≠ none → m.locked = some true → lockedOut L = true
  full : lockedOut L = true ↔ 5 ≤ wrongSince L

/-- What holds between calls. -/
structure Idle (L : History) (m : Meta) : Prop where
  kept : Kept L
  agrees : Agrees deriveKey L m

variable {deriveKey} {L : History} {m : Meta}

theorem Kept.le (h : Kept L) : wrongSince L ≤ 5 := by
  cases L with
  | nil => exact Nat.zero_le 5
  | cons e L => exact h.2.1

theorem pinHashOf_ne_nil (pin : String) (salt : List UInt8) (deviceId : Option String) :
    pinHashOf deriveKey pin salt deviceId ≠ [] := by
  intro h
  have hlen := congrArg List.length h
  rw [pinHashOf, Bytes.length_hex, Vector.length_toList, List.length_nil] at hlen
  omega

/-- A call that ends without a reset and without touching the rows. -/
theorem Idle.finish (h : Idle deriveKey L m) {e : Entry Compared Call Outcome} (hadm : Admissible L e)
    (hwrong : wrongSince (e :: L) = wrongSince L) (hlocked : lockedOut (e :: L) = lockedOut L)
    (hiat : lastIat (e :: L) = lastIat L) (hdevice : deviceOf (e :: L) = deviceOf L)
    (hpin : pinOf (e :: L) = pinOf L) : Idle deriveKey (e :: L) m := by
  obtain ⟨hkept, hagrees⟩ := h
  refine ⟨⟨hkept, hwrong ▸ hkept.le, hadm⟩, ?_⟩
  constructor
  · rw [hdevice]; exact hagrees.deviceId
  · rw [hiat]; exact hagrees.lastLoginIat
  · rw [hpin]; exact hagrees.unset
  · rw [hpin]; exact hagrees.hash
  · rw [hpin, hwrong]; exact hagrees.tally
  · rw [hpin, hlocked]; exact hagrees.locked
  · rw [hlocked, hwrong]; exact hagrees.full

/-- **The specification of an online login.** -/
theorem wp_recordOnlineLogin (h : Idle deriveKey L m) (iat : Int) (deviceId deviceRole : Option String) :
    ((Call.recordOnlineLogin iat deviceId deviceRole).work deriveKey).wp Kept m L
      fun r m' L' => Idle deriveKey (.finished (.recordOnlineLogin iat deviceId deviceRole) r :: L') m' := by
  obtain ⟨hkept, hagrees⟩ := h
  have hend : ∀ m' : Meta, m'.deviceId = (if given deviceId = true then deviceId else deviceOf L) →
      m'.lastLoginIat = some iat → m'.failedAttempts = some 0 → m'.locked = some false →
      m'.pinHash = m.pinHash → m'.pinSalt = m.pinSalt →
      Idle deriveKey (.finished (.recordOnlineLogin iat deviceId deviceRole) .recorded :: L) m' := by
    intro m' hdevice hiat hattempts hlocked hhash hsalt
    refine ⟨⟨hkept, Nat.zero_le 5, trivial⟩, hdevice, hiat, ?_, ?_, ?_, ?_, ?_⟩
    · rw [hhash]; exact hagrees.unset
    · rw [hhash, hsalt]; exact hagrees.hash
    · intro _
      rw [hattempts]
      rfl
    · intro _ hlock
      rw [hlocked] at hlock
      cases hlock
    · simp [lockedOut, wrongSince]
  simp only [Call.work, recordOnlineLogin, wp_bind, wp_set]
  split
  case isTrue hd =>
    split <;> (simp only [wp_bind, wp_set, wp_pure]; exact hend _ (if_pos hd).symm rfl rfl rfl rfl rfl)
  case isFalse hd =>
    have hkeep : m.deviceId = if given deviceId = true then deviceId else deviceOf L := by
      rw [if_neg hd, hagrees.deviceId]
    split <;> (simp only [wp_bind, wp_set, wp_pure]; exact hend _ hkeep rfl rfl rfl rfl rfl)

/-- **The specification of setting the PIN.** -/
theorem wp_setPin (h : Idle deriveKey L m) (password newPin deviceId : String) (reply : TokenReply)
    (salt : List UInt8) (now : Int) :
    ((Call.setPin password newPin deviceId reply salt now).work deriveKey).wp Kept m L
      fun r m' L' => Idle deriveKey (.finished (.setPin password newPin deviceId reply salt now) r :: L') m' := by
  have hrefused : Idle deriveKey (.finished (.setPin password newPin deviceId reply salt now) .refused :: L) m :=
    h.finish trivial rfl rfl rfl rfl rfl
  have hset : ∀ iat (m' : Meta), m' = ⟨some (pinHashOf deriveKey (trim newPin) salt (some deviceId)),
      some salt, some deviceId, some "pos", some 0, some false, some iat⟩ →
      Idle deriveKey (.finished (.setPin password newPin deviceId reply salt now) (.pinSet iat) :: L) m' := by
    rintro iat m' rfl
    refine ⟨⟨h.kept, Nat.zero_le 5, trivial⟩, rfl, rfl, ?_, ?_, ?_, ?_, ?_⟩
    · intro hnone
      cases hnone
    · intro p d hp
      cases hp
      exact ⟨salt, rfl, rfl⟩
    · exact fun _ => rfl
    · intro _ hlock
      cases hlock
    · simp [lockedOut, wrongSince]
  simp only [Call.work, setPin]
  split
  · exact hrefused
  · simp only [wp_bind, wp_get]
    cases reply with
    | refused => exact hrefused
    | passwordChangeRequired => exact hrefused
    | granted claimed =>
        simp only [wp_bind, wp_set, wp_pure]
        exact hset _ _ rfl

theorem wp_clearPin (h : Idle deriveKey L m) : (Call.clearPin.work deriveKey).wp Kept m L
    fun r m' L' => Idle deriveKey (.finished .clearPin r :: L') m' := by
  simp only [Call.work, clearPin, wp_bind, wp_set, wp_pure]
  refine ⟨⟨h.kept, h.kept.le, trivial⟩, rfl, rfl, fun _ => rfl, ?_, ?_, ?_, h.agrees.full⟩
  · intro p d hp
    cases hp
  · exact fun hne => absurd rfl hne
  · exact fun hne => absurd rfl hne

/-! ## Verifying -/

variable {pin : String} {deviceId : Option String} {now : Int} {p d : String}

/-- While a PIN is set, the rows lock exactly where the log does. -/
theorem Agrees.lockedOut_iff (h : Agrees deriveKey L m) (hpin : pinOf L ≠ none) :
    lockedOut L = true ↔ m.locked = some true ∨ m.failedAttempts.getD 0 ≥ maxFailedAttempts := by
  have htally := h.tally hpin
  constructor
  · intro hlock
    have hfive := h.full.mp hlock
    right
    rw [htally, maxFailedAttempts]
    omega
  · rintro (hlock | hattempts)
    · exact h.locked hpin hlock
    · rw [htally, maxFailedAttempts] at hattempts
      exact h.full.mpr (by omega)

/-- A PIN is configured where the calls so far have set one and not cleared it. -/
theorem wp_isPinConfigured (h : Agrees deriveKey L m) {Q : Bool → Meta → History → Prop}
    (hQ : Q (decide (pinOf L ≠ none)) m L) : isPinConfigured.wp Kept m L Q := by
  simp only [isPinConfigured, wp_bind, wp_get, wp_pure]
  cases hpin : pinOf L with
  | none =>
      rw [h.unset hpin]
      simpa [hpin] using hQ
  | some pd =>
      obtain ⟨p, d⟩ := pd
      obtain ⟨salt, -, hhash⟩ := h.hash p d hpin
      rw [hhash]
      simpa [hpin, pinHashOf_ne_nil] using hQ

/-- The till is locked out where the calls so far have failed too often. -/
theorem wp_isLocked (h : Agrees deriveKey L m) (hpin : pinOf L ≠ none) {Q : Bool → Meta → History → Prop}
    (hQ : Q (lockedOut L) m L) : isLocked.wp Kept m L Q := by
  have hiff := h.lockedOut_iff hpin
  simp only [isLocked, wp_bind, wp_get]
  split
  case isTrue hlock =>
    rw [hiff.mpr (Or.inl hlock)] at hQ
    exact hQ
  case isFalse hlock =>
    have hdecide : lockedOut L = decide (m.failedAttempts.getD 0 ≥ maxFailedAttempts) := by
      rw [Bool.eq_iff_iff, hiff, decide_eq_true_iff]
      exact or_iff_right hlock
    rw [hdecide] at hQ
    exact hQ

theorem wp_isExpired (h : Agrees deriveKey L m) {Q : Bool → Meta → History → Prop}
    (hQ : ∀ b, (b = true ↔ Expired now L) → Q b m L) : (isExpired now).wp Kept m L Q := by
  simp only [isExpired, wp_bind, wp_get, h.lastLoginIat]
  cases hiat : lastIat L with
  | none => exact hQ true (by simp [Expired, hiat])
  | some iat => exact hQ _ (by simp [Expired, hiat])

/-- A wrong PIN, before which the lock was open. -/
theorem Idle.wrong (h : Idle deriveKey L m) (hopen : lockedOut L = false) :
    Kept (.note ⟨now, false⟩ :: L) := by
  refine ⟨h.kept, ?_, trivial⟩
  have hfive : ¬5 ≤ wrongSince L := fun hle => by
    rw [h.agrees.full.mpr hle] at hopen
    cases hopen
  rw [wrongSince]
  omega

/-- The rows after a wrong PIN agree with the log again. -/
theorem Agrees.wrong (h : Agrees deriveKey L m) (hpin : pinOf L ≠ none) {r : Outcome} {m' : Meta}
    (hhash : m'.pinHash = m.pinHash) (hsalt : m'.pinSalt = m.pinSalt) (hdevice : m'.deviceId = m.deviceId)
    (hiat : m'.lastLoginIat = m.lastLoginIat)
    (hattempts : m'.failedAttempts = some (m.failedAttempts.getD 0 + 1))
    (hlocked : m'.locked = some true → lockedOut L = true ∨ 5 ≤ wrongSince L + 1)
    (hr : ∃ v, r = .verified v) :
    Agrees deriveKey (.finished (.verifyPin pin deviceId now) r :: .note ⟨now, false⟩ :: L) m' := by
  obtain ⟨v, rfl⟩ := hr
  constructor
  · rw [hdevice]; exact h.deviceId
  · rw [hiat]; exact h.lastLoginIat
  · rw [hhash]; exact h.unset
  · rw [hhash, hsalt]; exact h.hash
  · intro _
    have htally := h.tally hpin
    rw [hattempts]
    simp only [Option.getD_some, wrongSince, htally]
    omega
  · intro _ hlock
    have := hlocked hlock
    simpa [lockedOut] using this
  · have hfull := h.full
    simp only [lockedOut, wrongSince, Bool.or_eq_true, decide_eq_true_eq]
    constructor
    · rintro (hlock | hle)
      · have := hfull.mp hlock
        omega
      · exact hle
    · exact Or.inr

/-- A wrong PIN is counted, and the answer says how many attempts are left. -/
theorem wp_countFailure (h : Idle deriveKey L m) (hpin : pinOf L ≠ none) (hopen : lockedOut L = false)
    (hadm : ∀ r, Admissible (.note ⟨now, false⟩ :: L) (.finished (.verifyPin pin deviceId now) (.verified r))) :
    countFailure.wp Kept m (.note ⟨now, false⟩ :: L) fun r m' L' =>
      Idle deriveKey (.finished (.verifyPin pin deviceId now) (.verified r) :: L') m' := by
  have hkept : Kept (.note ⟨now, false⟩ :: L) := h.wrong hopen
  have htally := h.agrees.tally hpin
  simp only [countFailure, getFailedAttempts, wp_bind, wp_get, wp_set]
  split
  case isTrue hfull =>
    simp only [wp_bind, wp_set, wp_pure]
    refine ⟨⟨hkept, hkept.2.1, hadm _⟩, h.agrees.wrong hpin rfl rfl rfl rfl rfl (fun _ => Or.inr ?_) ⟨_, rfl⟩⟩
    rw [maxFailedAttempts] at hfull
    omega
  case isFalse =>
    exact ⟨⟨hkept, hkept.2.1, hadm _⟩,
      h.agrees.wrong hpin rfl rfl rfl rfl rfl (fun hlock => Or.inl (h.agrees.locked hpin hlock)) ⟨_, rfl⟩⟩

/-- The comparison, where the lock is open and the time not up. -/
theorem wp_compare (h : Idle deriveKey L m) (hpin : pinOf L = some (p, d)) {salt : List UInt8}
    (hopen : lockedOut L = false) (hfresh : ¬Expired now L) :
    (compare deriveKey pin deviceId now (pinHashOf deriveKey p salt (some d)) salt m.deviceId).wp Kept m L
      fun r m' L' => Idle deriveKey (.finished (.verifyPin pin deviceId now) (.verified r) :: L') m' := by
  have hset : pinOf L ≠ none := by
    rw [hpin]
    exact Option.some_ne_none _
  have hdevice := h.agrees.deviceId
  unfold compare
  split
  case isTrue hother =>
    refine h.finish ?_ rfl rfl rfl rfl rfl
    intro p' d' hp hd hthis _ _ _
    rw [hdevice, hd] at hother
    rcases hthis with rfl | rfl
    · exact absurd hother.2.1 (by simp)
    · exact absurd rfl hother.2.2
  case isFalse =>
    split
    case isTrue hmatch =>
      have hkept : Kept (.note ⟨now, true⟩ :: L) := ⟨h.kept, Nat.zero_le 5, hopen, hfresh⟩
      simp only [wp_bind, wp_log, wp_set, wp_pure]
      refine ⟨hkept, ⟨hkept, Nat.zero_le 5, fun _ _ _ _ _ _ _ _ => rfl⟩, ?_⟩
      obtain ⟨hdev, hiat, hunset, hhash, -, hlocked, -⟩ := h.agrees
      refine ⟨hdev, hiat, hunset, hhash, fun _ => rfl, hlocked, ?_⟩
      simp [lockedOut, wrongSince, hopen]
    case isFalse hmismatch =>
      simp only [wp_bind, wp_log]
      refine ⟨h.wrong hopen, wp_countFailure h hset hopen fun r => ?_⟩
      -- The PIN that is set, entered for its device, would have matched.
      intro p' d' hp hd hthis htrim _ _
      have hp' : (p, d) = (p', d') := Option.some.inj (hpin.symm.trans hp)
      obtain ⟨rfl, rfl⟩ := Prod.mk.inj hp'
      have hdev : m.deviceId = some d := hdevice.trans hd
      refine absurd ?_ hmismatch
      rcases hthis with rfl | rfl
      · rw [htrim, hdev]
        rfl
      · rw [htrim]
        rfl

/-- **The specification of entering the PIN.** -/
theorem wp_verifyPin (h : Idle deriveKey L m) (pin : String) (deviceId : Option String) (now : Int) :
    ((Call.verifyPin pin deviceId now).work deriveKey).wp Kept m L
      fun r m' L' => Idle deriveKey (.finished (.verifyPin pin deviceId now) r :: L') m' := by
  simp only [Call.work, verifyPin, wp_bind]
  refine wp_isPinConfigured h.agrees ?_
  by_cases hset : pinOf L ≠ none
  · have hconfigured : ¬decide (pinOf L ≠ none) = false := by simp [hset]
    rw [if_neg hconfigured]
    simp only [wp_bind]
    refine wp_isLocked h.agrees hset ?_
    cases hlock : lockedOut L with
    | true =>
        refine h.finish ?_ rfl rfl rfl rfl rfl
        intro p d _ _ _ _ hopen
        rw [hlock] at hopen
        cases hopen
    | false =>
        simp only [Bool.false_eq_true, if_false, wp_bind]
        refine wp_isExpired h.agrees fun expired hexpired => ?_
        cases expired with
        | true =>
            refine h.finish ?_ rfl rfl rfl rfl rfl
            exact fun p d _ _ _ _ _ hfresh => absurd (hexpired.mp rfl) hfresh
        | false =>
            have hfresh : ¬Expired now L := fun he => Bool.false_ne_true (hexpired.mpr he)
            obtain ⟨⟨p, d⟩, hpin⟩ := Option.ne_none_iff_exists'.mp hset
            obtain ⟨salt, hsalt, hhash⟩ := h.agrees.hash p d hpin
            simp only [Bool.false_eq_true, if_false, wp_bind, wp_get, hsalt, hhash]
            exact wp_compare h hpin hlock hfresh
  · have hnone : pinOf L = none := not_not.mp hset
    have hunconfigured : decide (pinOf L ≠ none) = false := by simp [hnone]
    rw [if_pos hunconfigured]
    refine h.finish ?_ rfl rfl rfl rfl rfl
    intro p d hp
    rw [hnone] at hp
    cases hp

theorem wp_call (c : Call) (h : Idle deriveKey L m) :
    (c.work deriveKey).wp Kept m L fun r m' L' => Idle deriveKey (.finished c r :: L') m' := by
  cases c with
  | verifyPin pin deviceId now => exact wp_verifyPin h pin deviceId now
  | recordOnlineLogin iat deviceId deviceRole => exact wp_recordOnlineLogin h iat deviceId deviceRole
  | setPin password newPin deviceId reply salt now =>
      exact wp_setPin h password newPin deviceId reply salt now
  | clearPin => exact wp_clearPin h

theorem idle_empty : Idle deriveKey [] Meta.empty := by
  refine ⟨trivial, rfl, rfl, fun _ => rfl, ?_, fun _ => rfl, ?_, ?_⟩
  · intro p d hp
    cases hp
  · intro _ hlock
    cases hlock
  · simp [lockedOut, wrongSince]

end

/-! ## Runs -/

/-- The calls on a till that has recorded nothing yet. -/
def runFrom (deriveKey : String → List UInt8 → Vector UInt8 32) (moves : List (Move Call)) :
    Sys Meta Compared Call Outcome :=
  (Sys.init Meta.empty).run (Call.work deriveKey) moves

/-- Where no call starts while another is in progress, the lock-out is kept throughout. -/
theorem lock_out_kept (deriveKey : String → List UInt8 → Vector UInt8 32) (moves : List (Move Call))
    (h : Alone (Call.work deriveKey) (Sys.init Meta.empty) moves) : Kept (runFrom deriveKey moves).log := by
  have hsolo : (Sys.init (ε := Compared) (κ := Call) (α := Outcome) Meta.empty).Solo Kept (Idle deriveKey) :=
    .idle idle_empty
  exact (Sys.alone_run (fun _ _ h => h.kept) (fun c _ _ h => wp_call c h) hsolo h).log
    fun _ _ h => h.kept

/-- A key that tells PINs apart by their first letter. -/
def firstLetterKey (pin : String) (_ : List UInt8) : Vector UInt8 32 :=
  Vector.replicate 32 (UInt8.ofNat (pin.toList.headD '0').toNat)

/-- A PIN is set and then entered. -/
def setAndEnter : List (Move Call) :=
  .start (.setPin "secret" "1111" "D" (.granted (some 100)) [1] 0) :: List.replicate 9 (.advance 0) ++
    .start (.verifyPin "1111" (some "D") 200000) :: List.replicate 10 (.advance 0)

theorem lock_out_kept_of_setAndEnter :
    Kept (runFrom firstLetterKey setAndEnter).log ∧
      (runFrom firstLetterKey setAndEnter).log.head? =
        some (.finished (.verifyPin "1111" (some "D") 200000) (.verified .success)) :=
  ⟨lock_out_kept firstLetterKey setAndEnter (by decide +kernel), by decide +kernel⟩

/-- Six calls read the rows before any of them counts its failure. -/
def sixAtOnce : List (Move Call) :=
  .start (.setPin "secret" "1111" "D" (.granted (some 100)) [1] 0) :: List.replicate 9 (.advance 0)
    ++ List.replicate 6 (.start (.verifyPin "2222" (some "D") 200000))
    ++ (List.range 6).flatMap (fun i => List.replicate 7 (.advance i))
    ++ (List.range 6).map .advance ++ (List.range 6).map .advance ++ (List.range 6).map .advance

set_option linter.constructorNameAsVariable false in
/-- Six wrong PINs are compared, and they are counted as one. -/
theorem six_wrong_pins_compared :
    wrongSince (runFrom firstLetterKey sixAtOnce).log = 6 ∧
      ¬Kept (runFrom firstLetterKey sixAtOnce).log ∧
      (runFrom firstLetterKey sixAtOnce).state.failedAttempts = some 1 ∧
      (runFrom firstLetterKey sixAtOnce).state.locked = some false := by
  have hsix : wrongSince (runFrom firstLetterKey sixAtOnce).log = 6 := by decide +kernel
  refine ⟨hsix, fun h => ?_, by decide +kernel, by decide +kernel⟩
  have := h.le
  omega

end Till.OfflinePin

import SrisurartPos.Base64
import SrisurartPos.Dyn
import SrisurartPos.JsString
import SrisurartPos.Server.Ids

/-! # The rules of a QR payment account (`payment-accounts.rules.ts`, `payment-accounts.dto.ts`)

The bodies of requests and the rows of a file that is imported are judged by the same rules. A whole number
of JSON is an `int`, any other a `double`. -/

namespace Server.PaymentAccounts

open Dyn Ids JsString

variable {D : Type}

/-! ## Fields -/

/-- `BANK_CODES` -/
def bankCodes : List String :=
  ["SCB", "KBANK", "BBL", "KTB", "BAY", "TTB", "GSB", "BAAC", "GHB", "KKP", "CIMBT", "UOBT", "LHB", "TISCO", "ICBCT",
    "OTHER"]

def paymentAccountKinds : List String := ["promptpay", "image"]

def imageMimes : List String := ["image/png", "image/jpeg"]

def maxActivePaymentAccounts : Nat := 5

def nicknameMaxLength : Nat := 40

def maxImageBytes : Nat := 300 * 1024

def isBankCode : Dyn D → Bool
  | .text s => s ∈ bankCodes
  | _       => false

/-- `isPaymentAccountKind` -/
def kindOf : Dyn D → Option String
  | .text s => if s ∈ paymentAccountKinds then some s else none
  | _       => none

def isDigit (c : Char) : Bool := '0' ≤ c && c ≤ '9'

/-- `PROMPTPAY_ID_RE` -/
def promptPayIdRe (cs : List Char) : Bool :=
  cs.all isDigit && (cs.length = 10 && cs.head? = some '0' || cs.length = 13 || cs.length = 15)

/-- `isPromptPayId` -/
def promptPayIdOf : Dyn D → Option String
  | .text s => if promptPayIdRe s.toList = true then some s else none
  | _       => none

def normaliseNickname : Dyn D → Option String
  | .text s => if trim s = "" ∨ nicknameMaxLength < (trim s).length then none else some (trim s)
  | _       => none

def pngMagic : List UInt8 := [0x89, 0x50, 0x4e, 0x47, 0x0d, 0x0a, 0x1a, 0x0a]

def jpegMagic : List UInt8 := [0xff, 0xd8, 0xff]

def magicOf (mime : String) : List UInt8 := if mime = "image/png" then pngMagic else jpegMagic

structure QrImage where
  bytes : List UInt8
  mime : String
  deriving DecidableEq

/-- The bytes of a picture that came as text. -/
def decodeQrImage (base64 mime : Dyn D) : Except String QrImage :=
  match mime with
  | .text m =>
      if m ∈ imageMimes then
        match base64 with
        | .text s =>
            if s = "" ∨ Base64.isPlain s.toList = false then
              .error "imageBase64 must be plain base64 (no data: prefix)"
            else if maxImageBytes + 2 < s.length / 4 * 3 then .error "image must be at most 307200 bytes"
            else
              let bytes := Base64.decodePlain s.toList
              if maxImageBytes < bytes.length then .error "image must be at most 307200 bytes"
              else if (magicOf m).isPrefixOf bytes = false then .error ("image bytes are not a " ++ m)
              else .ok ⟨bytes, m⟩
        | _ => .error "imageBase64 must be plain base64 (no data: prefix)"
      else .error "imageMime must be one of image/png, image/jpeg"
  | _ => .error "imageMime must be one of image/png, image/jpeg"

/-! ## Bodies -/

inductive Error where
  | badRequest (message : String)
  | ownerOnly
  | invalidId (field : String)
  | clientIdReused
  | paymentAccountLimit
  | paymentAccountNotFound
  /-- a `CHECK` of the table -/
  | checkViolation
  /-- its primary key, or `uq_payment_accounts_default` -/
  | uniqueViolation
  deriving DecidableEq, Repr

/-- What a new account is paid by. -/
inductive Payee where
  | promptpay (id : String)
  | image (image : QrImage)

structure PaymentAccountCreate where
  id : String
  nickname : String
  bankCode : String
  isDefault : Bool
  sortOrder : Int
  payee : Payee

structure PaymentAccountPatch where
  kind : Option String
  nickname : Option String
  bankCode : Option String
  promptpayId : Option String
  image : Option QrImage
  isDefault : Option Bool
  sortOrder : Option Int

/-- Is the key there? A key that is missing is undefined. -/
def present (o : Object D) (k : String) : Bool := (o.lookup k).isSome

def given (o : Object D) (k : String) : Bool := !(get o k).isNull

def asObject : Dyn D → Except Error (Object D)
  | .object o => .ok o
  | _         => .error (.badRequest "Request body must be a JSON object")

/-- `requiredUuid`, of a text that is not blank -/
def requiredUuid (v : Dyn D) (field : String) : Except Error String :=
  match v with
  | .text s =>
      if trim s = "" then .error (.badRequest (field ++ " is required"))
      else if isUuid s = true then .ok s
      else .error (.invalidId field)
  | _ => .error (.badRequest (field ++ " is required"))

/-- The value that a rule finds, or the error. -/
def required {α : Type} (v : Option α) (message : String) : Except Error α :=
  match v with
  | some a => .ok a
  | none   => .error (.badRequest message)

def requiredNickname (v : Dyn D) : Except Error String :=
  required (normaliseNickname v) "Field 'nickname' must be 1–40 characters"

def requiredBankCode : Dyn D → Except Error String
  | .text s => required (if isBankCode (D := D) (.text s) = true then some s else none)
      ("Field 'bankCode' must be one of " ++ String.intercalate ", " bankCodes)
  | _       => required none ("Field 'bankCode' must be one of " ++ String.intercalate ", " bankCodes)

def requiredPromptPayId (v : Dyn D) : Except Error String :=
  required (promptPayIdOf v) "Field 'promptpayId' must be 10 digits starting with 0, 13 digits or 15 digits"

def requiredImage (base64 mime : Dyn D) : Except Error QrImage := (decodeQrImage base64 mime).mapError .badRequest

def requiredKind (v : Dyn D) : Except Error String := required (kindOf v) "Field 'kind' must be 'promptpay' or 'image'"

def optionalBoolean (v : Dyn D) (name : String) : Except Error (Option Bool) :=
  match v with
  | .null   => .ok none
  | .bool b => .ok (some b)
  | _       => .error (.badRequest ("Field '" ++ name ++ "' must be a boolean"))

def optionalSortOrder : Dyn D → Except Error (Option Int)
  | .null  => .ok none
  | .int n => if 0 ≤ n ∧ n ≤ 10000 then .ok (some n)
      else .error (.badRequest "Field 'sortOrder' must be a whole number from 0 to 10000")
  | _      => .error (.badRequest "Field 'sortOrder' must be a whole number from 0 to 10000")

/-- A field of the other kind is refused, not ignored. -/
def refuseIfSet (o : Object D) (k message : String) : Except Error Unit :=
  if given o k = true then .error (.badRequest message) else .ok ()

def parsePayee (o : Object D) (kind : String) : Except Error Payee :=
  if kind = "promptpay" then do
    refuseIfSet o "imageBase64" "Field 'imageBase64' is only for kind 'image'"
    refuseIfSet o "imageMime" "Field 'imageMime' is only for kind 'image'"
    return .promptpay (← requiredPromptPayId (get o "promptpayId"))
  else do
    refuseIfSet o "promptpayId" "Field 'promptpayId' is only for kind 'promptpay'"
    return .image (← requiredImage (get o "imageBase64") (get o "imageMime"))

def parsePaymentAccountCreate (body : Dyn D) : Except Error PaymentAccountCreate := do
  let o ← asObject body
  let id ← requiredUuid (get o "id") "id"
  let nickname ← requiredNickname (get o "nickname")
  let bankCode ← requiredBankCode (get o "bankCode")
  let isDefault ← optionalBoolean (get o "isDefault") "isDefault"
  let sortOrder ← optionalSortOrder (get o "sortOrder")
  let kind ← requiredKind (get o "kind")
  let payee ← parsePayee o kind
  return { id, nickname, bankCode, isDefault := isDefault.getD false, sortOrder := sortOrder.getD 0, payee }

/-- A field that is parsed where it is sent. -/
def ifSent {α : Type} (sent : Bool) (parse : Except Error α) : Except Error (Option α) :=
  if sent = true then parse.map some else .ok none

def parsePaymentAccountPatch (body : Dyn D) : Except Error PaymentAccountPatch := do
  let o ← asObject body
  let kind ← ifSent (present o "kind") (requiredKind (get o "kind"))
  let nickname ← ifSent (present o "nickname") (requiredNickname (get o "nickname"))
  let bankCode ← ifSent (present o "bankCode") (requiredBankCode (get o "bankCode"))
  let promptpayId ← ifSent (given o "promptpayId") (requiredPromptPayId (get o "promptpayId"))
  let image ← ifSent (given o "imageBase64" || given o "imageMime")
    (requiredImage (get o "imageBase64") (get o "imageMime"))
  let isDefault ← ifSent (present o "isDefault")
    ((optionalBoolean (get o "isDefault") "isDefault").map fun b => b.getD false)
  let sortOrder ← ifSent (present o "sortOrder") ((optionalSortOrder (get o "sortOrder")).map fun n => n.getD 0)
  return { kind, nickname, bankCode, promptpayId, image, isDefault, sortOrder }

/-! ## What the rules let through -/

/-- A nickname as the rules leave it. -/
structure IsNickname (s : String) : Prop where
  trimmed : trim s = s
  nonempty : s ≠ ""
  short : s.length ≤ nicknameMaxLength

/-- A picture that the rules let through. -/
structure IsQrImage (image : QrImage) : Prop where
  mime : image.mime ∈ imageMimes
  size : image.bytes.length ≤ maxImageBytes
  magic : (magicOf image.mime).isPrefixOf image.bytes = true

def IsPayee : Payee → Prop
  | .promptpay id => promptPayIdRe id.toList = true
  | .image image  => IsQrImage image

structure PaymentAccountCreate.Valid (input : PaymentAccountCreate) : Prop where
  id : isUuid input.id = true
  nickname : IsNickname input.nickname
  bankCode : input.bankCode ∈ bankCodes
  sortOrder : 0 ≤ input.sortOrder ∧ input.sortOrder ≤ 10000
  payee : IsPayee input.payee

structure PaymentAccountPatch.Valid (patch : PaymentAccountPatch) : Prop where
  nickname : ∀ s ∈ patch.nickname, IsNickname s
  bankCode : ∀ s ∈ patch.bankCode, s ∈ bankCodes
  promptpayId : ∀ id ∈ patch.promptpayId, promptPayIdRe id.toList = true
  image : ∀ image ∈ patch.image, IsQrImage image
  sortOrder : ∀ n ∈ patch.sortOrder, 0 ≤ n ∧ n ≤ 10000

/-! ## The rules as facts -/

/-- A parser that goes on has read something first. -/
theorem bind_eq_ok {ε α β : Type} {x : Except ε α} {f : α → Except ε β} {b : β} :
    (x >>= f) = .ok b ↔ ∃ a, x = .ok a ∧ f a = .ok b := by
  cases x with
  | ok a => simp [bind, Except.bind]
  | error e => simp [bind, Except.bind]

theorem required_eq_ok {α : Type} {v : Option α} {message : String} {a : α} :
    required v message = .ok a ↔ v = some a := by
  cases v with
  | some b => exact ⟨fun h => congrArg some (Except.ok.inj h), fun h => congrArg Except.ok (Option.some.inj h)⟩
  | none => exact ⟨(fun h => nomatch h), (fun h => nomatch h)⟩

/-- A nickname is its own normal form exactly where it is in order. -/
theorem normaliseNickname_eq_some {s : String} :
    normaliseNickname (.text s : Dyn D) = some s ↔ IsNickname s := by
  simp only [normaliseNickname]
  constructor
  · intro h
    split at h
    · cases h
    · next hok =>
        have htrim := Option.some.inj h
        rw [htrim] at hok
        exact ⟨htrim, fun hempty => hok (.inl hempty), Nat.le_of_not_lt fun hlong => hok (.inr hlong)⟩
  · intro h
    rw [h.trimmed, if_neg]
    rintro (hempty | hlong)
    · exact h.nonempty hempty
    · exact Nat.not_lt.mpr h.short hlong

/-- What the normal form gives is in order. -/
theorem isNickname_of_normalise {v : Dyn D} {s : String} (h : normaliseNickname v = some s) : IsNickname s := by
  cases v with
  | text t =>
      rw [normaliseNickname] at h
      split at h
      · cases h
      · next hok =>
          rw [← Option.some.inj h]
          refine ⟨trim_trim t, fun hempty => hok (.inl hempty), Nat.le_of_not_lt fun hlong => hok (.inr hlong)⟩
  | _ => cases h

theorem kindOf_eq_some {v : Dyn D} {s : String} (h : kindOf v = some s) : v = .text s ∧ s ∈ paymentAccountKinds := by
  cases v with
  | text t =>
      rw [kindOf] at h
      split at h
      · next hmem => exact Option.some.inj h ▸ ⟨rfl, hmem⟩
      · cases h
  | _ => cases h

theorem promptPayIdOf_eq_some {v : Dyn D} {s : String} (h : promptPayIdOf v = some s) :
    v = .text s ∧ promptPayIdRe s.toList = true := by
  cases v with
  | text t =>
      rw [promptPayIdOf] at h
      split at h
      · next hre => exact Option.some.inj h ▸ ⟨rfl, hre⟩
      · cases h
  | _ => cases h

theorem magicOf_ne_nil (mime : String) : magicOf mime ≠ [] := by
  rw [magicOf]
  split <;> decide

/-- What is decoded is a picture, and these are the texts that decode to it. -/
theorem decodeQrImage_eq_ok {base64 mime : Dyn D} {image : QrImage} (h : decodeQrImage base64 mime = .ok image) :
    IsQrImage image ∧ mime = .text image.mime ∧
      ∃ s, base64 = .text s ∧ image.bytes = Base64.decodePlain s.toList := by
  cases mime with
  | text m =>
      cases base64 with
      | text s =>
          simp only [decodeQrImage] at h
          split_ifs at h with hmime hplain hlong hsize hmagic
          obtain rfl := Except.ok.inj h
          refine ⟨⟨hmime, Nat.le_of_not_lt hsize, ?_⟩, rfl, s, rfl, rfl⟩
          simpa using hmagic
      | _ =>
          simp only [decodeQrImage] at h
          split at h <;> cases h
  | _ => cases h

/-- A picture that is in order is read back from its base64. -/
theorem decodeQrImage_encode {image : QrImage} (h : IsQrImage image) :
    decodeQrImage (.text (String.ofList (Base64.encode image.bytes)) : Dyn D) (.text image.mime) = .ok image := by
  have hne : image.bytes ≠ [] := by
    intro hnil
    have hprefix := List.isPrefixOf_iff_prefix.mp h.magic
    rw [hnil] at hprefix
    exact magicOf_ne_nil _ (List.prefix_nil.mp hprefix)
  have hlen := Base64.length_encode image.bytes
  have hpos := List.length_pos_iff.mpr hne
  have htext : String.ofList (Base64.encode image.bytes) ≠ "" := by
    intro heq
    have hlist := congrArg (fun s => s.toList.length) heq
    simp only [String.toList_ofList, hlen] at hlist
    have hzero : "".toList.length = 0 := rfl
    omega
  have hshort : ¬ maxImageBytes + 2 < (String.ofList (Base64.encode image.bytes)).length / 4 * 3 := by
    rw [String.length_ofList, hlen]
    have := h.size
    omega
  have hmagic : ¬ (magicOf image.mime).isPrefixOf image.bytes = false := by simp [h.magic]
  simp only [decodeQrImage, String.toList_ofList, Base64.isPlain_encode, Base64.decodePlain_encode]
  rw [if_pos h.mime, if_neg (by simp [htext]), if_neg hshort, if_neg (Nat.not_lt.mpr h.size), if_neg hmagic]

/-! ## The bodies that are let through -/

theorem ifSent_eq_ok {α : Type} {sent : Bool} {parse : Except Error α} {v : Option α}
    (h : ifSent sent parse = .ok v) {a : α} (ha : a ∈ v) : parse = .ok a := by
  rw [ifSent] at h
  split at h
  · cases parse with
    | ok b =>
        obtain rfl := Except.ok.inj h
        rw [Option.some.inj ha]
    | error e => cases h
  · obtain rfl := Except.ok.inj h
    cases ha

theorem isUuid_of_required {v : Dyn D} {field id : String} (h : requiredUuid v field = .ok id) : isUuid id = true := by
  cases v with
  | text s =>
      simp only [requiredUuid] at h
      split_ifs at h with hblank hid
      exact Except.ok.inj h ▸ hid
  | _ => cases h

theorem isNickname_of_required {v : Dyn D} {s : String} (h : requiredNickname v = .ok s) : IsNickname s :=
  isNickname_of_normalise (required_eq_ok.mp h)

/-- A bank code that the request needs is one of the list. -/
theorem mem_bankCodes_of_required {v : Dyn D} {s : String} (h : requiredBankCode v = .ok s) : s ∈ bankCodes := by
  cases v with
  | text t =>
      have hcode := required_eq_ok.mp h
      split at hcode
      · next hmem => exact Option.some.inj hcode ▸ of_decide_eq_true hmem
      · cases hcode
  | _ => cases h

/-- So is a picture that it needs. -/
theorem isQrImage_of_required {base64 mime : Dyn D} {image : QrImage} (h : requiredImage base64 mime = .ok image) :
    IsQrImage image := by
  rw [requiredImage] at h
  cases hdecode : decodeQrImage base64 mime with
  | ok decoded =>
      rw [hdecode] at h
      exact Except.ok.inj h ▸ (decodeQrImage_eq_ok hdecode).1
  | error e =>
      rw [hdecode] at h
      cases h

/-- A sort order that is let through is between the bounds of the column. -/
theorem sortOrder_of_parsed {v : Dyn D} {n : Option Int} (h : optionalSortOrder v = .ok n) :
    0 ≤ n.getD 0 ∧ n.getD 0 ≤ 10000 := by
  cases v with
  | null =>
      obtain rfl := Except.ok.inj h
      decide
  | int m =>
      rw [optionalSortOrder] at h
      split at h
      · next hm => exact Except.ok.inj h ▸ hm
      · cases h
  | _ => cases h

/-- The payee of a request fits its kind. -/
theorem isPayee_of_parsed {o : Object D} {kind : String} {payee : Payee} (h : parsePayee o kind = .ok payee) :
    IsPayee payee := by
  rw [parsePayee] at h
  split at h
  · obtain ⟨-, -, h⟩ := bind_eq_ok.mp h
    obtain ⟨-, -, h⟩ := bind_eq_ok.mp h
    obtain ⟨id, hid, h⟩ := bind_eq_ok.mp h
    obtain rfl := Except.ok.inj h
    exact (promptPayIdOf_eq_some (required_eq_ok.mp hid)).2
  · obtain ⟨-, -, h⟩ := bind_eq_ok.mp h
    obtain ⟨image, himage, h⟩ := bind_eq_ok.mp h
    obtain rfl := Except.ok.inj h
    exact isQrImage_of_required himage

/-- **What the parser lets through is valid**: a new account. -/
theorem valid_create {body : Dyn D} {input : PaymentAccountCreate}
    (h : parsePaymentAccountCreate body = .ok input) : input.Valid := by
  obtain ⟨o, -, h⟩ := bind_eq_ok.mp h
  obtain ⟨id, hid, h⟩ := bind_eq_ok.mp h
  obtain ⟨nickname, hnickname, h⟩ := bind_eq_ok.mp h
  obtain ⟨bankCode, hbankCode, h⟩ := bind_eq_ok.mp h
  obtain ⟨isDefault, -, h⟩ := bind_eq_ok.mp h
  obtain ⟨sortOrder, hsortOrder, h⟩ := bind_eq_ok.mp h
  obtain ⟨kind, -, h⟩ := bind_eq_ok.mp h
  obtain ⟨payee, hpayee, h⟩ := bind_eq_ok.mp h
  obtain rfl := Except.ok.inj h
  exact ⟨isUuid_of_required hid, isNickname_of_required hnickname, mem_bankCodes_of_required hbankCode,
    sortOrder_of_parsed hsortOrder, isPayee_of_parsed hpayee⟩

/-- And a patch of one. -/
theorem valid_patch {body : Dyn D} {patch : PaymentAccountPatch}
    (h : parsePaymentAccountPatch body = .ok patch) : patch.Valid := by
  obtain ⟨o, -, h⟩ := bind_eq_ok.mp h
  obtain ⟨kind, -, h⟩ := bind_eq_ok.mp h
  obtain ⟨nickname, hnickname, h⟩ := bind_eq_ok.mp h
  obtain ⟨bankCode, hbankCode, h⟩ := bind_eq_ok.mp h
  obtain ⟨promptpayId, hpromptpayId, h⟩ := bind_eq_ok.mp h
  obtain ⟨image, himage, h⟩ := bind_eq_ok.mp h
  obtain ⟨isDefault, -, h⟩ := bind_eq_ok.mp h
  obtain ⟨sortOrder, hsortOrder, h⟩ := bind_eq_ok.mp h
  obtain rfl := Except.ok.inj h
  refine ⟨?_, ?_, ?_, ?_, ?_⟩
  · intro s hs
    exact isNickname_of_required (ifSent_eq_ok hnickname hs)
  · intro s hs
    exact mem_bankCodes_of_required (ifSent_eq_ok hbankCode hs)
  · intro s hs
    exact (promptPayIdOf_eq_some (required_eq_ok.mp (ifSent_eq_ok hpromptpayId hs))).2
  · intro i hi
    exact isQrImage_of_required (ifSent_eq_ok himage hi)
  · intro n hn
    have hparsed := ifSent_eq_ok hsortOrder hn
    cases horder : optionalSortOrder (Dyn.get o "sortOrder") with
    | ok m =>
        rw [horder] at hparsed
        exact Except.ok.inj hparsed ▸ sortOrder_of_parsed horder
    | error e =>
        rw [horder] at hparsed
        cases hparsed

end Server.PaymentAccounts

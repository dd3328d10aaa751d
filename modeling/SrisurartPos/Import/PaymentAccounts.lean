import SrisurartPos.Server.PaymentAccountSafety

/-! # Payment accounts in a shop's file (`tenant-snapshot.ts`, `snapshot-preflight.ts`, `tenant-import.service.ts`)

A file is judged by the rules of the requests before anything of it is written. The pre-flight looks at the
objects of the store only; the writer takes every element. -/

namespace Import.PaymentAccounts

open Server.PaymentAccounts Dyn Server.Ids

/-! ## The export -/

/-- What JavaScript makes of values, texts and times. -/
structure Host (D : Type) where
  /-- `String(v)` of what is not a text -/
  string : Dyn D → String
  /-- `JSON.stringify` -/
  stringify : Dyn D → String
  /-- `new Date(s)`, where it is a date -/
  date : String → Option Time
  /-- `toISOString` -/
  iso : Time → String
  /-- Is the number zero, or none? -/
  falsy : D → Bool

variable {D : Type} (host : Host D)

/-- The store `sa_payment_accounts`: deleted accounts too, for the bills that name them. -/
def accountToJson (id : String) (r : AccountRow) : Object D :=
  ofFields [field "id" (.text id), field "nickname" (.text r.nickname), field "bankCode" (.text r.bankCode),
    field "kind" (.text r.kind), field "promptpayId" (orNull .text r.promptpayId),
    field "imageBase64" (orNull .text (r.image.map imageText)), field "imageMime" (orNull .text r.imageMime),
    field "isDefault" (.bool r.isDefault), field "sortOrder" (.int r.sortOrder),
    field "createdAt" (.text (host.iso r.createdAt)), field "updatedAt" (.text (host.iso r.updatedAt)),
    fieldIf "deletedAt" (fun t => .text (host.iso t)) r.deletedAt]

def exportRows (s : Db) : List (String × AccountRow) :=
  s.accounts.rows.mergeSort fun a b => displayKey a ≤ displayKey b

def exportAccounts (s : Db) : Dyn D := .array ((exportRows s).map fun e => .object (accountToJson host e.1 e.2))

/-! ## Reading a row -/

/-- The objects of a store. An array is an object without fields. -/
def rows : Dyn D → List (Object D)
  | .array l => l.filterMap fun v =>
      match v with
      | .object o => some o
      | .array _  => some []
      | _         => none
  | _        => []

/-- `o[k] ?? o[k']` -/
def coalesce (o : Object D) (k k' : String) : Option (Dyn D) := if given o k = true then o.lookup k else o.lookup k'

def either (o : Object D) (k k' : String) : Dyn D := (coalesce o k k').getD .null

/-- `String(v)` -/
def Host.text : Option (Dyn D) → String
  | none           => "undefined"
  | some (.text s) => s
  | some v         => host.string v

def Host.json (v : Option (Dyn D)) : String := v.elim "undefined" host.stringify

def idText (a : Object D) : String := host.text (a.lookup "id")

/-! ## The pre-flight -/

/-- A rule that is broken. -/
def problem (c : Prop) [Decidable c] (text : String) : List String := if c then [text] else []

def imageProblems (base64 mime : Dyn D) : List String :=
  match decodeQrImage base64 mime with
  | .error e => [e]
  | .ok _    => []

def payeeProblems (a : Object D) : List String :=
  let promptpayId := either a "promptpayId" "promptpay_id"
  let image := either a "imageBase64" "image_base64"
  let mime := either a "imageMime" "image_mime"
  match kindOf (get a "kind") with
  | none      => ["kind must be 'promptpay' or 'image', got " ++ host.json (a.lookup "kind")]
  | some kind =>
      if kind = "promptpay" then
        problem ((promptPayIdOf promptpayId).isNone = true)
            "promptpayId must be 10 digits starting with 0, 13 digits or 15 digits" ++
          problem (image.isNull = false ∨ mime.isNull = false) "a 'promptpay' account must carry no image"
      else
        problem (promptpayId.isNull = false) "an 'image' account must carry no promptpayId" ++ imageProblems image mime

def isDefaultProblems : Dyn D → List String
  | .null | .bool _ => []
  | _               => ["isDefault must be a boolean"]

def sortOrderProblems : Dyn D → List String
  | .null  => []
  | .int n => problem (¬ (0 ≤ n ∧ n ≤ 10000)) "sortOrder must be a whole number from 0 to 10000"
  | _      => ["sortOrder must be a whole number from 0 to 10000"]

def rowProblems (a : Object D) : List String :=
  problem ((normaliseNickname (get a "nickname")).isNone = true) "nickname must be 1–40 characters" ++
    problem (isBankCode (either a "bankCode" "bank_code") = false)
      ("unknown bankCode " ++ host.json (coalesce a "bankCode" "bank_code")) ++
    payeeProblems host a ++ isDefaultProblems (either a "isDefault" "is_default") ++
    sortOrderProblems (either a "sortOrder" "sort_order")

def isActive (a : Object D) : Bool := (either a "deletedAt" "deleted_at").isNull

def isTrue : Dyn D → Bool
  | .bool b => b
  | _       => false

/-- An active account that is the default. -/
def isActiveDefault (a : Object D) : Bool := isActive a && isTrue (either a "isDefault" "is_default")

structure PaymentAccountViolation where
  id : String
  problem : String
  deriving DecidableEq, Repr

/-- The problems of the rows one by one, where the ids in `seen` have come before. -/
def scan : List String → List (Object D) → List PaymentAccountViolation
  | _, []           => []
  | seen, a :: rest =>
      ((problem (idText host a ∈ seen) "id appears more than once" ++ rowProblems host a).map fun text =>
          ⟨idText host a, text⟩) ++
        scan (idText host a :: seen) rest

def planPaymentAccountViolations (file : Dyn D) : List PaymentAccountViolation :=
  let accounts := rows file
  let activeDefaults := (accounts.filter isActiveDefault).map (idText host)
  let activeCount := (accounts.filter isActive).length
  scan host [] accounts ++
    (if 1 < activeDefaults.length then
      [⟨String.intercalate ", " activeDefaults, "more than one active account is the default"⟩]
    else []) ++
    if maxActivePaymentAccounts < activeCount then
      [⟨"-", toString activeCount ++ " active accounts, at most " ++ toString maxActivePaymentAccounts ++ " allowed"⟩]
    else []

def describePaymentAccountViolation (v : PaymentAccountViolation) : String :=
  "paymentAccounts:" ++ v.id ++ " " ++ v.problem

def isUuidValue : Dyn D → Bool
  | .text s => isUuid s
  | _       => false

/-- What `planBadIds` finds in the store. -/
def planBadIds (file : Dyn D) : List (Object D) := (rows file).filter fun a => !isUuidValue (get a "id")

/-! ## The writer -/

inductive ImportError where
  | invalidId
  | badRequest (message : String)
  /-- a field of `null` is read -/
  | typeError
  /-- a text that is no uuid -/
  | invalidText
  | checkViolation
  | uniqueViolation
  deriving DecidableEq

def isFalsy : Dyn D → Bool
  | .null     => true
  | .bool b   => !b
  | .int n    => n = 0
  | .double x => host.falsy x
  | .text s   => s = ""
  | _         => false

def parseDate (now : Time) (v : Option (Dyn D)) : Time :=
  if isFalsy host (v.getD .null) = true then now else (host.date (host.text v)).getD now

/-- The pre-flight leaves null or a whole number. -/
def sortOrderOf : Dyn D → Int
  | .int n => n
  | _      => 0

/-- The row that the writer makes of an object. -/
def importRow (now : Time) (a : Object D) : AccountRow :=
  let kind := host.text (a.lookup "kind")
  let deletedAtRaw := coalesce a "deletedAt" "deleted_at"
  let deletedAt := if isActive a = true then none else some (parseDate host now deletedAtRaw)
  { nickname := JsString.trim (host.text (a.lookup "nickname"))
    bankCode := host.text (coalesce a "bankCode" "bank_code")
    kind
    promptpayId := if kind = "promptpay" then some (host.text (coalesce a "promptpayId" "promptpay_id")) else none
    image := if kind = "image" then
      some (Base64.decodePlain (host.text (coalesce a "imageBase64" "image_base64")).toList) else none
    imageMime := if kind = "image" then some (host.text (coalesce a "imageMime" "image_mime")) else none
    -- A deleted row is never the default.
    isDefault := deletedAt.isNone && isTrue (either a "isDefault" "is_default")
    sortOrder := sortOrderOf (either a "sortOrder" "sort_order")
    createdAt := parseDate host now (coalesce a "createdAt" "created_at")
    updatedAt := now
    deletedAt }

/-- One `INSERT`. What is no object has no id. -/
def insertOne (now : Time) (t : Table String AccountRow) (v : Dyn D) :
    Except ImportError (Table String AccountRow) :=
  match v with
  | .null     => .error .typeError
  | .object a =>
      let row := importRow host now a
      if isUuid (idText host a) = false then .error .invalidText
      else if row.checks = false then .error .checkViolation
      else if (t.get (idText host a)).isSome = true then .error .uniqueViolation
      else if row.theDefault = true ∧ (t.rows.any fun e => e.2.theDefault) = true then .error .uniqueViolation
      else .ok (t.insert (idText host a) row)
  | _         => .error .invalidText

/-- The elements of a store that is an array. -/
def elements : Dyn D → List (Dyn D)
  | .array l => l
  | _        => []

/-- A store that is empty or not there leaves the shop's accounts; any other one replaces them. -/
def writeAccounts (now : Time) (s : Db) (file : Dyn D) : Except ImportError Db :=
  if (elements file).isEmpty = true then .ok s
  else ((elements file).foldlM (insertOne host now) Table.empty).map fun accounts => { s with accounts }

def importAccounts (now : Time) (s : Db) (file : Dyn D) : Except ImportError Db :=
  if (planBadIds file).isEmpty = false then .error .invalidId
  else if (planPaymentAccountViolations host file).isEmpty = false then
    .error (.badRequest ("Pre-flight failed: invalid payment accounts — " ++
      String.intercalate "; " ((planPaymentAccountViolations host file).map describePaymentAccountViolation)))
  else writeAccounts host now s file

end Import.PaymentAccounts

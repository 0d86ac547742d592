import Inqutum.InvoiceProofs
import Inqutum.ContentSafetyProofs

/-!
# Import rows and their validation

A parsed row of an import file and `validateRow`, which turns it into
insertable values or the list of its errors.  The checks are made in the
order of the source, each adding its own errors; a row without errors is
then passed through the schema of the public API.

What the scripts take from the platform (`Date.parse`, `JSON.parse`,
Unicode normalisation, the schema library's email test) is a parameter.
-/

namespace Imports

open Invoices JsText

/-- What validation takes from the platform and its libraries. -/
structure Platform where
  /-- `Date.parse`, with nothing for NaN. -/
  dateParse : String → Option Int
  /-- `JSON.parse`, or the message of its error. -/
  jsonParse : String → Except String Json
  isEmail : String → Bool
  /-- `text.normalize('NFC')`. -/
  normalize : String → String

/-- The columns of the import format. -/
inductive Column where
  | externalId
  | sellerPublicKey
  | amount
  | assetCode
  | assetIssuer
  | sellerName
  | sellerEmail
  | customerName
  | customerEmail
  | description
  | expiresInDays
  | createdAt
  | expiresAt
  | memo
  | metadata
  deriving DecidableEq

def Column.name : Column → String
  | .externalId => "externalId"
  | .sellerPublicKey => "sellerPublicKey"
  | .amount => "amount"
  | .assetCode => "assetCode"
  | .assetIssuer => "assetIssuer"
  | .sellerName => "sellerName"
  | .sellerEmail => "sellerEmail"
  | .customerName => "customerName"
  | .customerEmail => "customerEmail"
  | .description => "description"
  | .expiresInDays => "expiresInDays"
  | .createdAt => "createdAt"
  | .expiresAt => "expiresAt"
  | .memo => "memo"
  | .metadata => "metadata"

/-- A parsed row; a column the file does not have reads as nothing. -/
structure RawImportRow where
  line : Nat
  values : Column → Option String

/-- A reported error.  `isError` takes any object with a `line` and a
    `message` for one, so a metadata object with these two keys is pushed as
    an error itself. -/
inductive ImportError where
  | report (line : Nat) (field : Option Column) (message : String)
  | metadata (members : List (String × Json))

/-- The fields an import may change, in the order they are compared. -/
inductive MutableField where
  | sellerName
  | sellerEmail
  | customerName
  | customerEmail
  | description
  | expiresAt
  | metadata
  deriving DecidableEq

/-- `MUTABLE_FIELDS`. -/
def mutableFields : List MutableField :=
  [.sellerName, .sellerEmail, .customerName, .customerEmail, .description, .expiresAt, .metadata]

def MutableField.column : MutableField → Column
  | .sellerName => .sellerName
  | .sellerEmail => .sellerEmail
  | .customerName => .customerName
  | .customerEmail => .customerEmail
  | .description => .description
  | .expiresAt => .expiresAt
  | .metadata => .metadata

/-- The values of a row that passed validation. -/
structure ImportInvoice where
  amount : ℚ
  assetCode : String
  assetIssuer : Option String := none
  description : Option String := none
  customerName : Option String := none
  customerEmail : Option String := none
  sellerName : Option String := none
  sellerEmail : Option String := none
  expiresInDays : Int
  sellerPublicKey : String
  createdAt : Option Int := none
  expiresAt : Option Int := none
  memo : Option String := none
  metadata : Option Json := none

/-- `supplied` lists the mutable fields only: of the others the source asks
    just whether the issuer was named. -/
structure ValidatedRow where
  line : Nat
  externalId : Option String
  supplied : List MutableField
  assetIssuerSupplied : Bool
  nonIdempotent : Bool
  invoice : ImportInvoice

/-- What `validateRow` and `planImport` can throw. -/
inductive Thrown where
  | readLengthOfUndefined

/-! ## Field readers -/

/-- `-?\d+(\.\d+)?`. -/
def isPlainDecimal (cs : List Char) : Bool :=
  let unsigned := match cs with
    | '-' :: rest => rest
    | _ => cs
  let whole := unsigned.takeWhile Char.isDigit
  match unsigned.dropWhile Char.isDigit with
  | [] => !whole.isEmpty
  | '.' :: ds => !whole.isEmpty && !ds.isEmpty && ds.all Char.isDigit
  | _ => false

/-- `raw.replace(/^\$/, '')`. -/
def dropDollar (raw : String) : String :=
  match raw.toList with
  | '$' :: rest => String.ofList rest
  | _ => raw

def parseNumber (raw : Option String) (field : Column) (line : Nat) :
    Except ImportError JsNumber :=
  match nonEmpty raw with
  | none => .error (.report line (some field) (field.name ++ " is required"))
  | some text =>
    let cleaned := dropDollar text
    if isPlainDecimal cleaned.toList then .ok (JsNumber.ofText cleaned)
    else .error (.report line (some field)
      (field.name ++ " must be a plain decimal number (got \"" ++ text ++ "\")"))

def parseTimestamp (p : Platform) (raw : Option String) (field : Column)
    (line : Nat) : Except ImportError (Option Int) :=
  match nonEmpty raw with
  | none => .ok none
  | some text =>
    match p.dateParse text with
    | some ms => .ok (some ms)
    | none => .error (.report line (some field)
        (field.name ++ " must be an ISO-8601 timestamp (got \"" ++ text ++ "\")"))

/-- `isError` on an object of the file. -/
def looksLikeError (members : List (String × Json)) : Bool :=
  members.any (fun m => m.1 == "message") && members.any (fun m => m.1 == "line")

/-- `parseMetadata`, and what `isError` makes of its result. -/
def parseMetadata (p : Platform) (raw : Option String) (line : Nat) :
    Except ImportError (Option Json) :=
  match nonEmpty raw with
  | none => .ok none
  | some text =>
    match p.jsonParse text with
    | .error message => .error (.report line (some .metadata)
        ("metadata must be a JSON object (" ++ message ++ ")"))
    | .ok (.obj members) =>
      if looksLikeError members then .error (.metadata members)
      else .ok (some (.obj members))
    | .ok _ => .error (.report line (some .metadata) "metadata must be a JSON object")

/-- `isValidMemo`: at most 28 bytes, `INV-[A-Z0-9]+-[A-Z0-9]+`. -/
def isValidMemo (memo : String) : Bool :=
  let alnum := fun c : Char => ('A' ≤ c && c ≤ 'Z') || c.isDigit
  decide (memo.utf8ByteSize ≤ 28) &&
    match memo.toList with
    | 'I' :: 'N' :: 'V' :: '-' :: rest =>
      !(rest.takeWhile alnum).isEmpty &&
        match rest.dropWhile alnum with
        | '-' :: tail => !tail.isEmpty && tail.all alnum
        | _ => false
    | _ => false

/-! ## The schema of the public API -/

structure ZodIssue where
  path : Column
  message : String

/-- `stellarPublicKeySchema`. -/
def stellarPublicKeyIssues (path : Column) (key : String) : List ZodIssue :=
  (if utf16Length key = 56 then []
    else [⟨path, "String must contain exactly 56 character(s)"⟩]) ++
  (match key.toList with
    | 'G' :: rest =>
      if rest.length = 55 ∧ rest.all (fun c =>
          ('A' ≤ c && c ≤ 'Z') || ('2' ≤ c && c ≤ '7')) = true then []
      else [⟨path, "Invalid Stellar public key format"⟩]
    | _ => [⟨path, "Invalid Stellar public key format"⟩])

/-- What `createInvoiceSchema` is given. -/
structure Candidate where
  amount : JsNumber
  assetCode : String
  assetIssuer : Option String
  description : Option String
  customerName : Option String
  customerEmail : Option String
  sellerName : Option String
  sellerEmail : Option String
  expiresInDays : Int
  sellerPublicKey : String

/-- `DEFAULT_POLICY.invoice.maxAmount`. -/
def maxAmount : ℚ := 1000000000

def amountIssues : JsNumber → List ZodIssue
  | .nan => [⟨.amount, "Expected number, received nan"⟩]
  | .posInf => [⟨.amount, "Number must be less than or equal to 1000000000"⟩]
  | .negInf => [⟨.amount, "Number must be greater than 0"⟩]
  | .finite q =>
    (if 0 < q then [] else [⟨.amount, "Number must be greater than 0"⟩]) ++
    (if q ≤ maxAmount then []
      else [⟨.amount, "Number must be less than or equal to 1000000000"⟩])

/-- `plainText(max)`: the length as submitted. -/
def plainTextIssues (path : Column) (max : Nat) (value : Option String) :
    List ZodIssue :=
  match value with
  | none => []
  | some text =>
    if utf16Length text ≤ max then []
    else [⟨path, "String must contain at most " ++ Nat.repr max ++ " character(s)"⟩]

/-- `plainText(max)`: the sanitised text, dropped if nothing is left. -/
def plainText (p : Platform) (multiline : Bool) (value : Option String) :
    Option String :=
  nonEmpty (value.map (ContentSafety.sanitizePlainText p.normalize multiline))

def emailIssues (p : Platform) (path : Column) (value : Option String) :
    List ZodIssue :=
  match value with
  | none => []
  | some text => if p.isEmail text then [] else [⟨path, "Invalid email"⟩]

def expiresInDaysIssues (days : Int) : List ZodIssue :=
  (if minInvoiceExpiryDays ≤ days then []
    else [⟨.expiresInDays, "Number must be greater than or equal to 1"⟩]) ++
  (if days ≤ maxInvoiceExpiryDays then []
    else [⟨.expiresInDays, "Number must be less than or equal to 30"⟩])

/-- `requiresIssuer`. -/
def requiresIssuer (assetCode : String) : Bool :=
  let code := trim assetCode
  decide (code ≠ "" ∧ code ≠ "XLM")

/-- The two refinements of the schema. -/
def issuerIssues (c : Candidate) : List ZodIssue :=
  let issuer := nonEmpty c.assetIssuer
  (if requiresIssuer c.assetCode && issuer.isNone then
    [⟨.assetIssuer, "assetIssuer is required for issued assets; only XLM may omit it. An asset is identified by its code and issuer together."⟩]
    else []) ++
  (if c.assetCode = "XLM" ∧ issuer ≠ none then
    [⟨.assetIssuer, "XLM is the native asset and must not carry an issuer."⟩]
    else [])

/-- The issues of `createInvoiceSchema`, in the order of its shape. -/
def schemaIssues (p : Platform) (c : Candidate) : List ZodIssue :=
  amountIssues c.amount ++ (match c.assetIssuer with
        | none => []
        | some key => stellarPublicKeyIssues .assetIssuer key)
    ++ plainTextIssues .description 500 c.description
    ++ plainTextIssues .customerName 255 c.customerName
    ++ emailIssues p .customerEmail c.customerEmail
    ++ plainTextIssues .sellerName 255 c.sellerName
    ++ emailIssues p .sellerEmail c.sellerEmail
    ++ expiresInDaysIssues c.expiresInDays
    ++ stellarPublicKeyIssues .sellerPublicKey c.sellerPublicKey
    ++ issuerIssues c

/-- `createInvoiceSchema.safeParse`. -/
def createInvoiceSchema (p : Platform) (c : Candidate) :
    Except (List ZodIssue) ImportInvoice :=
  match schemaIssues p c, c.amount with
  | [], .finite q => .ok {
      amount := q
      assetCode := c.assetCode
      assetIssuer := c.assetIssuer
      description := plainText p true c.description
      customerName := plainText p false c.customerName
      customerEmail := c.customerEmail
      sellerName := plainText p false c.sellerName
      sellerEmail := c.sellerEmail
      expiresInDays := c.expiresInDays
      sellerPublicKey := c.sellerPublicKey }
  | issues, _ => .error issues

/-! ## The checks of a row -/

section Checks

variable (p : Platform) (row : RawImportRow)

/-- The value of a column, an empty cell counting as absent. -/
def RawImportRow.given (c : Column) : Option String :=
  nonEmpty (row.values c)

def RawImportRow.error (c : Column) (message : String) : ImportError :=
  .report row.line (some c) message

/-- The errors a reader reports. -/
def errorOf {α : Type} : Except ImportError α → List ImportError
  | .ok _ => []
  | .error e => [e]

def valueOf {α : Type} : Except ImportError (Option α) → Option α
  | .ok value => value
  | .error _ => none

def externalIdErrors (externalId : Option String) : List ImportError :=
  match externalId with
  | none => []
  | some text =>
    if 255 < utf16Length text then
      [row.error .externalId "externalId must be at most 255 characters"]
    else []

def amountErrors : Except ImportError JsNumber → List ImportError
  | .error e => [e]
  | .ok (.finite q) =>
    if q ≤ 0 then
      [row.error .amount "amount must be greater than zero"]
    else []
  | .ok .negInf => [row.error .amount "amount must be greater than zero"]
  | .ok _ => []

def assetCode : String := (row.given .assetCode).getD "XLM"

def assetErrors : List ImportError :=
  (match row.given .assetIssuer with
    | none => []
    | some issuer =>
      if stellarPublicKeyIssues .assetIssuer issuer = [] then []
      else [row.error .assetIssuer "assetIssuer is not a valid Stellar public key"]) ++
  (if assetCode row ≠ "XLM" ∧ row.given .assetIssuer = none then
    [row.error .assetIssuer ("assetIssuer is required for asset \"" ++ assetCode row
        ++ "\"; only XLM may omit it")] else []) ++
  (if assetCode row = "XLM" ∧ row.given .assetIssuer ≠ none then
    [row.error .assetIssuer "XLM is the native asset and must not carry an issuer"] else [])

/-- The errors of a supplied `expiresInDays`. -/
def daysErrors : List ImportError :=
  match row.given .expiresInDays with
  | none => []
  | some text =>
    match parseNumber (some text) .expiresInDays row.line with
    | .error e => [e]
    | .ok n =>
      if n.isInteger = false then
        [row.error .expiresInDays "expiresInDays must be a whole number of days"]
      else
        match n with
        | .finite q =>
          if q < minInvoiceExpiryDays ∨ maxInvoiceExpiryDays < q then
            [row.error .expiresInDays "expiresInDays must be between 1 and 30"]
          else []
        | _ => []

/-- `expiresInDays`: the supplied whole number, or the default. -/
def daysOf : Int :=
  match row.given .expiresInDays with
  | none => defaultInvoiceExpiryDays
  | some text =>
    match parseNumber (some text) .expiresInDays row.line with
    | .ok (.finite q) =>
      if q.den = 1 then q.num else defaultInvoiceExpiryDays
    | _ => defaultInvoiceExpiryDays

def orderErrors (createdAt expiresAt : Option Int) : List ImportError :=
  match createdAt, expiresAt with
  | some created, some expires =>
    if expires ≤ created then
      [row.error .expiresAt "expiresAt must be after createdAt"]
    else []
  | _, _ => []

def memoErrors : List ImportError :=
  match row.given .memo with
  | none => []
  | some memo =>
    if isValidMemo memo then []
    else [row.error .memo "memo must match INV-<alphanumeric>-<alphanumeric> when supplied"]

def emailErrors (c : Column) : List ImportError :=
  match row.given c with
  | none => []
  | some text =>
    if p.isEmail text then []
    else [row.error c (c.name ++ " must be a valid email address")]

/-- `expiresAt` is supplied by either expiry column. -/
def isSupplied : MutableField → Bool
  | .expiresAt => (row.given .expiresAt).isSome
      || (row.given .expiresInDays).isSome
  | field => (row.given field.column).isSome

end Checks

def validateRow (p : Platform) (row : RawImportRow) :
    Except Thrown (Except (List ImportError) ValidatedRow) :=
  match row.values .externalId with
  | none => .error .readLengthOfUndefined
  | some text =>
    let externalId := if text = "" then none else some text
    let amount := parseNumber (row.values .amount) .amount row.line
    let createdAt := parseTimestamp p (row.values .createdAt) .createdAt row.line
    let expiresAt := parseTimestamp p (row.values .expiresAt) .expiresAt row.line
    let metadata := parseMetadata p (row.values .metadata) row.line
    let errors := externalIdErrors row externalId ++ amountErrors row amount ++ assetErrors row
      ++ errorOf createdAt ++ errorOf expiresAt ++ errorOf metadata
      ++ daysErrors row
      ++ orderErrors row (valueOf createdAt) (valueOf expiresAt)
      ++ memoErrors row
      ++ emailErrors p row .customerEmail ++ emailErrors p row .sellerEmail
    match errors, amount with
    | [], .ok amount =>
      match createInvoiceSchema p {
        amount := amount
        assetCode := assetCode row
        assetIssuer := row.given .assetIssuer
        description := row.given .description
        customerName := row.given .customerName
        customerEmail := row.given .customerEmail
        sellerName := row.given .sellerName
        sellerEmail := row.given .sellerEmail
        expiresInDays := daysOf row
        sellerPublicKey := (row.values .sellerPublicKey).getD "" } with
      | .error issues => .ok (.error (issues.map (fun issue => row.error issue.path issue.message)))
      | .ok invoice => .ok (.ok {
          line := row.line
          externalId := externalId
          supplied := mutableFields.filter (isSupplied row)
          assetIssuerSupplied := (row.given .assetIssuer).isSome
          nonIdempotent := externalId.isNone
          invoice := { invoice with
            createdAt := valueOf createdAt
            expiresAt := valueOf expiresAt
            memo := row.given .memo
            metadata := valueOf metadata } })
    | errors, _ => .ok (.error errors)

/-- What a valid row takes from the file. -/
theorem validateRow_ok {p : Platform} {raw : RawImportRow}
    {row : ValidatedRow} (h : validateRow p raw = .ok (.ok row)) :
    row.externalId = raw.given .externalId ∧ row.invoice.memo = raw.given .memo
    ∧ row.supplied = mutableFields.filter (isSupplied raw)
    ∧ parseMetadata p (raw.values .metadata) raw.line = .ok row.invoice.metadata := by
  unfold validateRow at h
  cases hext : raw.values .externalId with
  | none => rw [hext] at h; cases h
  | some text =>
    rw [hext] at h
    dsimp only at h
    split at h
    · rename_i herrors _
      split at h
      · cases h
      rename_i invoice _
      obtain rfl := Except.ok.inj (Except.ok.inj h)
      refine ⟨?_, rfl, rfl, ?_⟩
      · show _ = nonEmpty (raw.values .externalId)
        rw [hext]
        rfl
      -- no errors were reported, so the reader succeeded
      cases hmeta : parseMetadata p (raw.values .metadata) raw.line with
      | error e => simp [hmeta, errorOf] at herrors
      | ok metadata => rfl
    · cases h

/-- A given value is not empty. -/
theorem RawImportRow.nonEmpty_given (raw : RawImportRow) (c : Column) :
    nonEmpty (raw.given c) = raw.given c := by
  rw [RawImportRow.given]
  cases h : nonEmpty (raw.values c) with
  | none => rfl
  | some text => exact nonEmpty_eq_some.mpr ⟨rfl, (nonEmpty_eq_some.mp h).2⟩

end Imports

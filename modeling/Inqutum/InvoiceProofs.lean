import Inqutum.InsertionMapProofs
import Inqutum.JsonProofs

/-!
# Invoices: the shared record, expiry and the version check

The record both storage backends return, the expiry contract every
creation path goes through, and the optimistic-concurrency check that
guards a write.  Instants are milliseconds since the epoch; an amount is
the exact value of its double.
-/

namespace Invoices

inductive InvoiceStatus where
  | pending
  | paid
  | expired
  | cancelled
  deriving DecidableEq

def InvoiceStatus.text : InvoiceStatus → String
  | .pending => "PENDING"
  | .paid => "PAID"
  | .expired => "EXPIRED"
  | .cancelled => "CANCELLED"

/-- `StoredInvoice`: the invoice shape shared by both backends. -/
structure StoredInvoice where
  id : String
  userId : Option String := none
  sellerPublicKey : String
  sellerName : Option String := none
  sellerEmail : Option String := none
  amount : ℚ
  assetCode : String
  assetIssuer : Option String := none
  memo : String
  description : Option String := none
  customerName : Option String := none
  customerEmail : Option String := none
  status : InvoiceStatus
  paymentTxHash : Option String := none
  payerPublicKey : Option String := none
  payerName : Option String := none
  payerEmail : Option String := none
  createdAt : Int
  paidAt : Option Int := none
  expiresAt : Int
  metadata : Option Json := none
  schemaVersion : Option String := none
  version : Option Nat := none

/-- `invoice.version ?? 1`. -/
def StoredInvoice.versionOr1 (invoice : StoredInvoice) : Nat :=
  invoice.version.getD 1

/-- `Partial<Invoice>`: a present property overrides, an absent one does not.
    An optional property may be present with no value. -/
structure InvoiceUpdate where
  id : Option String := none
  userId : Option (Option String) := none
  sellerPublicKey : Option String := none
  sellerName : Option (Option String) := none
  sellerEmail : Option (Option String) := none
  amount : Option ℚ := none
  assetCode : Option String := none
  assetIssuer : Option (Option String) := none
  memo : Option String := none
  description : Option (Option String) := none
  customerName : Option (Option String) := none
  customerEmail : Option (Option String) := none
  status : Option InvoiceStatus := none
  paymentTxHash : Option (Option String) := none
  payerPublicKey : Option (Option String) := none
  payerName : Option (Option String) := none
  payerEmail : Option (Option String) := none
  createdAt : Option Int := none
  paidAt : Option (Option Int) := none
  expiresAt : Option Int := none
  metadata : Option (Option Json) := none
  schemaVersion : Option (Option String) := none
  version : Option (Option Nat) := none

/-- `{ ...invoice, ...updates }`. -/
def InvoiceUpdate.apply (u : InvoiceUpdate) (invoice : StoredInvoice) : StoredInvoice where
  id := u.id.getD invoice.id
  userId := u.userId.getD invoice.userId
  sellerPublicKey := u.sellerPublicKey.getD invoice.sellerPublicKey
  sellerName := u.sellerName.getD invoice.sellerName
  sellerEmail := u.sellerEmail.getD invoice.sellerEmail
  amount := u.amount.getD invoice.amount
  assetCode := u.assetCode.getD invoice.assetCode
  assetIssuer := u.assetIssuer.getD invoice.assetIssuer
  memo := u.memo.getD invoice.memo
  description := u.description.getD invoice.description
  customerName := u.customerName.getD invoice.customerName
  customerEmail := u.customerEmail.getD invoice.customerEmail
  status := u.status.getD invoice.status
  paymentTxHash := u.paymentTxHash.getD invoice.paymentTxHash
  payerPublicKey := u.payerPublicKey.getD invoice.payerPublicKey
  payerName := u.payerName.getD invoice.payerName
  payerEmail := u.payerEmail.getD invoice.payerEmail
  createdAt := u.createdAt.getD invoice.createdAt
  paidAt := u.paidAt.getD invoice.paidAt
  expiresAt := u.expiresAt.getD invoice.expiresAt
  metadata := u.metadata.getD invoice.metadata
  schemaVersion := u.schemaVersion.getD invoice.schemaVersion
  version := u.version.getD invoice.version

structure PayerInfo where
  payerName : Option String := none
  payerEmail : Option String := none

/-! ## Errors -/

inductive VersionField where
  | expected
  | actual

def VersionField.text : VersionField → String
  | .expected => "expected"
  | .actual => "actual"

/-- Everything the invoice backends throw. -/
inductive InvoiceError where
  | sellerKeyRequired
  | duplicateId (id : String)
  | duplicateMemo (memo : String)
  | duplicateTxHash (txHash : String)
  | conflict (currentVersion attemptedVersion : JsNumber)
  | invalidVersion (field : VersionField) (value : JsNumber)
  | expiryOutOfRange
  | notPayable
  | notCancellable
  | invalidStatsInput (message : String)
  | createFailed (cause : String)
  | updateFailed (cause : String)
  | database (cause : String)

def minInvoiceExpiryDays : Int := 1
def maxInvoiceExpiryDays : Int := 30
def defaultInvoiceExpiryDays : Int := 7

def InvoiceError.message : InvoiceError → String
  | .sellerKeyRequired => "Seller public key is required"
  | .duplicateId id => "Duplicate invoice ID collision: " ++ id
  | .duplicateMemo memo => "Duplicate invoice memo collision: " ++ memo
  | .duplicateTxHash txHash => "Duplicate payment_tx_hash collision: " ++ txHash
  | .conflict current attempted =>
    "Invoice was modified by another session (current version: "
      ++ current.toText ++ ", attempted: " ++ attempted.toText
      ++ "). Please refresh and try again."
  | .invalidVersion field _ => field.text ++ " version must be a non-negative safe integer."
  | .expiryOutOfRange => "Invoice expiry must be an integer between 1 and 30 days"
  | .notPayable => "Invoice not found, expired, or already processed"
  | .notCancellable => "Invoice not found or already processed"
  | .invalidStatsInput message => message
  | .createFailed cause => "Failed to create invoice: " ++ cause
  | .updateFailed cause => "Failed to update invoice: " ++ cause
  | .database cause => cause

/-- Whether an error is a `ConflictError`. -/
def InvoiceError.isConflict : InvoiceError → Bool
  | .conflict _ _ => true
  | _ => false

/-- A version token must be a non-negative safe integer. -/
def validVersion (value : JsNumber) : Bool :=
  value.isSafeInteger && !value.isNegative

def checkVersion (expected : Option JsNumber) (actual : JsNumber) :
    Except InvoiceError Unit :=
  if !validVersion actual then .error (.invalidVersion .actual actual)
  else
    match expected with
    | none => .ok ()
    | some value =>
      if !validVersion value then .error (.invalidVersion .expected value)
      else if value ≠ actual then .error (.conflict actual value)
      else .ok ()

/-! ## Expiry -/

def dayInMs : Int := 24 * 60 * 60 * 1000

/-- `validateInvoiceExpiryDays`; an absent value means the default. -/
def validateInvoiceExpiryDays : Option JsNumber → Except InvoiceError Int
  | none => .ok defaultInvoiceExpiryDays
  | some (.finite q) =>
    if q.den = 1 ∧ minInvoiceExpiryDays ≤ q.num ∧ q.num ≤ maxInvoiceExpiryDays then .ok q.num
    else .error .expiryOutOfRange
  | some _ => .error .expiryOutOfRange

def calculateInvoiceExpiry (expiresInDays : Option JsNumber) (now : Int) :
    Except InvoiceError Int :=
  (validateInvoiceExpiryDays expiresInDays).map (fun days => now + days * dayInMs)

def isPendingInvoiceExpired (invoice : StoredInvoice) (now : Int) : Bool :=
  invoice.status == .pending && decide (invoice.expiresAt ≤ now)

theorem isPendingInvoiceExpired_iff (invoice : StoredInvoice) (now : Int) :
    isPendingInvoiceExpired invoice now = true
      ↔ invoice.status = .pending ∧ invoice.expiresAt ≤ now := by
  rw [isPendingInvoiceExpired, Bool.and_eq_true, beq_iff_eq, decide_eq_true_eq]

/-- What one expiry sweep does to one record. -/
def expire (now : Int) (invoice : StoredInvoice) : StoredInvoice :=
  if isPendingInvoiceExpired invoice now then
    { invoice with status := .expired }
  else invoice

/-- A sweep either leaves a record alone or moves an overdue PENDING one to
    EXPIRED, touching nothing but its status. -/
theorem expire_cases (now : Int) (invoice : StoredInvoice) :
    isPendingInvoiceExpired invoice now = false ∧ expire now invoice = invoice
    ∨ isPendingInvoiceExpired invoice now = true ∧
      expire now invoice = { invoice with status := .expired } := by
  cases h : isPendingInvoiceExpired invoice now with
  | false =>
    refine .inl ⟨rfl, ?_⟩
    rw [expire, h]
    exact if_neg Bool.false_ne_true
  | true =>
    refine .inr ⟨rfl, ?_⟩
    rw [expire, h]
    exact if_pos rfl

variable {invoice : StoredInvoice}

/-- A record whose status is final is never swept. -/
theorem expire_of_not_pending (now : Int)
    (h : invoice.status ≠ .pending) : expire now invoice = invoice := by
  rcases expire_cases now invoice with ⟨-, heq⟩ | ⟨hexp, -⟩
  · exact heq
  · exact absurd ((isPendingInvoiceExpired_iff invoice now).mp hexp).1 h

/-- No record is overdue right after a sweep at the same instant. -/
theorem not_overdue_expire (now : Int) (invoice : StoredInvoice) :
    isPendingInvoiceExpired (expire now invoice) now = false := by
  rcases expire_cases now invoice with ⟨hno, heq⟩ | ⟨-, heq⟩
  · rw [heq]
    exact hno
  rw [heq]
  rfl

theorem expire_expire (now : Int) (invoice : StoredInvoice) :
    expire now (expire now invoice) = expire now invoice := by
  rcases expire_cases now (expire now invoice) with ⟨-, heq⟩ | ⟨hyes, -⟩
  · exact heq
  rw [not_overdue_expire] at hyes
  cases hyes

/-- Several sweeps, one after the other. -/
def expireAll (times : List Int) (invoice : StoredInvoice) : StoredInvoice :=
  times.foldl (fun swept now => expire now swept) invoice

/-- However often it is swept, a record is left alone or, being PENDING and
    due at one of the instants, becomes EXPIRED. -/
theorem expireAll_cases (times : List Int) (invoice : StoredInvoice) :
    expireAll times invoice = invoice
    ∨ (∃ now ∈ times, isPendingInvoiceExpired invoice now = true) ∧
      expireAll times invoice = { invoice with status := .expired } := by
  induction times generalizing invoice with
  | nil => exact .inl rfl
  | cons now rest ih =>
    show expireAll rest (expire now invoice) = _ ∨ _ ∧ expireAll rest (expire now invoice) = _
    rcases expire_cases now invoice with ⟨-, heq⟩ | ⟨hyes, heq⟩
    · rw [heq]
      rcases ih invoice with hsame | ⟨⟨t, ht, hexp⟩, hswept⟩
      · exact .inl hsame
      · exact .inr ⟨⟨t, .tail _ ht, hexp⟩, hswept⟩
    refine .inr ⟨⟨now, (.head _), hyes⟩, ?_⟩
    rw [heq]
    -- the record is final now, so the remaining sweeps pass over it
    rcases ih { invoice with status := .expired } with
      hsame | ⟨⟨t, -, hexp⟩, -⟩
    · exact hsame
    · cases ((isPendingInvoiceExpired_iff _ t).mp hexp).1

/-- A record left PENDING by sweeps was PENDING and is untouched. -/
theorem expireAll_eq_of_pending {times : List Int}
    (h : (expireAll times invoice).status = .pending) : expireAll times invoice = invoice := by
  rcases expireAll_cases times invoice with heq | ⟨-, heq⟩
  · exact heq
  rw [heq] at h
  cases h

theorem expireAll_frame {α : Type} (field : StoredInvoice → α) (hfield : ∀ invoice : StoredInvoice,
      field { invoice with status := .expired } = field invoice)
    (times : List Int) (invoice : StoredInvoice) :
    field (expireAll times invoice) = field invoice := by
  rcases expireAll_cases times invoice with heq | ⟨-, heq⟩
  · rw [heq]
  rw [heq]
  exact hfield invoice

@[simp] theorem expireAll_id (times : List Int) (invoice : StoredInvoice) :
    (expireAll times invoice).id = invoice.id :=
  expireAll_frame StoredInvoice.id (fun _ => rfl) times invoice

@[simp] theorem expireAll_memo (times : List Int) (invoice : StoredInvoice) :
    (expireAll times invoice).memo = invoice.memo :=
  expireAll_frame StoredInvoice.memo (fun _ => rfl) times invoice

/-! ## Stats -/

/-- `InvoiceStats`; the revenue object is a map from asset code to sum. -/
structure InvoiceStats where
  totalInvoices : Nat
  paidInvoices : Nat
  pendingInvoices : Nat
  actionableInvoices : Nat
  expiredInvoices : Nat
  revenueByAsset : InsertionMap String JsNumber

/-- A record the stats refuse.  The remaining type checks of the source hold
    by the type of the record. -/
def invalidStatsFields (invoice : StoredInvoice) : Bool :=
  decide (JsText.trim invoice.sellerPublicKey = "")
    || decide (JsText.trim invoice.assetCode = "")
    || decide (invoice.amount < 0)

def validateStatsInput (allInvoices : List StoredInvoice)
    (sellerPublicKey : String) : Except InvoiceError Unit :=
  if JsText.trim sellerPublicKey = "" then
    .error (.invalidStatsInput "Seller public key is required")
  else if allInvoices.any invalidStatsFields then
    .error (.invalidStatsInput "Invoice contains invalid stats fields")
  else .ok ()

/-- Add one paid invoice to the revenue object. -/
def addRevenue (revenue : InsertionMap String JsNumber)
    (invoice : StoredInvoice) : InsertionMap String JsNumber :=
  revenue.set invoice.assetCode
    (((revenue.get invoice.assetCode).getD 0).add (.finite invoice.amount))

def calculateInvoiceStats (allInvoices : List StoredInvoice)
    (sellerPublicKey : String) : Except InvoiceError InvoiceStats := do
  validateStatsInput allInvoices sellerPublicKey
  let invoices := allInvoices.filter (fun invoice => invoice.sellerPublicKey == sellerPublicKey)
  let withStatus (status : InvoiceStatus) :=
    invoices.filter (fun invoice => invoice.status == status)
  return {
    totalInvoices := invoices.length
    paidInvoices := (withStatus .paid).length
    pendingInvoices := (withStatus .pending).length
    actionableInvoices := (withStatus .pending).length
    expiredInvoices := (withStatus .expired).length
    revenueByAsset := (withStatus .paid).foldl addRevenue InsertionMap.empty }

end Invoices

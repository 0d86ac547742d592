import Inqutum.InvoiceCursorProofs
import Inqutum.PaymentVerificationProofs
import Inqutum.Utf8Proofs

/-!
# Notifications

`NotificationService` turns the state of an invoice, a rejected payment
attempt or a security alert into a notification for one recipient.  A
notification is stored under a fresh id, and a second map leads from its
dedup key to that id, so that emitting the same event again finds the
notification instead of making another.

The preference store is an interface: what it answers, the clocks of a
call and the ids it draws are its environment (`Env`).  The three kinds
of event are mandatory, so no preferences suppress them
(`mandatory_delivers`).

The dedup key of an event is a text built by hand.  `dedupKey_eq_iff`
says when two different events have the same key (`Clash`), and
`notified_once_iff` that the stored notifications are one for each event
exactly in the runs without a clash.
-/

namespace Notifications

open Transition Invoices List Option InsertionMap String Nat JsNumber Verification

/-! ## Records -/

inductive NotificationType where
  | invoicePaid
  | invoiceExpired
  | invoiceCancelled
  | paymentRejected
  | securityAlert
  | invoiceReminder
  | marketingDigest

def NotificationType.text : NotificationType → String
  | invoicePaid => "invoice.paid"
  | invoiceExpired => "invoice.expired"
  | invoiceCancelled => "invoice.cancelled"
  | paymentRejected => "payment.rejected"
  | securityAlert => "security.alert"
  | invoiceReminder => "invoice.reminder"
  | marketingDigest => "marketing.digest"

inductive NotificationSeverity where
  | info
  | success
  | warning
  | critical

/-- A value of a notification's `data`. -/
inductive DataValue where
  | text (value : String)
  | number (value : JsNumber)

abbrev Data := InsertionMap String DataValue

structure Notification where
  id : String
  recipient : String
  type : NotificationType
  severity : NotificationSeverity
  title : String
  message : String
  deepLink : String
  dedupKey : String
  entityId : String
  data : Data
  createdAt : String
  readAt : Option String

/-- What `emit` is given. -/
structure EmitInput where
  recipient : String
  type : NotificationType
  severity : NotificationSeverity
  title : String
  message : String
  entityId : String
  data : Data
  dedupKey : String

inductive Thrown where
  | error (message : String)
  | rangeError (message : String)

/-! ## Routing by preference -/

inductive NotificationChannel where
  | inApp
  | email

inductive NotificationCategory where
  | invoiceLifecycle
  | paymentRecovery
  | securityAlert
  | paymentReminder
  | marketingDigest
  deriving DecidableEq

inductive NotificationUrgency where
  | mandatory
  | optional

structure RecipientNotificationPreferences where
  recipient : String
  channels : NotificationChannel → Bool
  categories : NotificationCategory → Bool

inductive RoutingDecision where
  | delivered
  | suppressed

inductive RoutingReason where
  | mandatoryOverride
  | preferenceAccepted
  | suppressedByPreference
  deriving DecidableEq

structure RoutingEvaluationResult where
  deliver : Bool
  urgency : NotificationUrgency
  decision : RoutingDecision
  reason : RoutingReason
  activeChannels : List NotificationChannel

structure RoutingAuditRecord where
  id : String
  notificationId : String
  recipient : String
  type : NotificationType
  urgency : NotificationUrgency
  decision : RoutingDecision
  reason : RoutingReason
  activeChannels : List NotificationChannel
  evaluatedAt : String
  metadata : Data

def getNotificationUrgency : NotificationType → NotificationUrgency
  | .invoiceReminder => .optional
  | .marketingDigest => .optional
  | _ => .mandatory

def getNotificationCategory : NotificationType → NotificationCategory
  | .invoicePaid => .invoiceLifecycle
  | .invoiceExpired => .invoiceLifecycle
  | .invoiceCancelled => .invoiceLifecycle
  | .paymentRejected => .paymentRecovery
  | .securityAlert => .securityAlert
  | .invoiceReminder => .paymentReminder
  | .marketingDigest => .marketingDigest

def suppressed (urgency : NotificationUrgency) : RoutingEvaluationResult :=
  ⟨false, urgency, .suppressed, .suppressedByPreference, []⟩

def evaluateNotificationRouting (type : NotificationType)
    (preferences : RecipientNotificationPreferences) :
    RoutingEvaluationResult :=
  let urgency := getNotificationUrgency type
  let category := getNotificationCategory type
  match urgency with
  | .mandatory =>
    let wasUserOptedOut := !preferences.categories category || !preferences.channels .inApp
    { deliver := true
      urgency
      decision := .delivered
      reason := if wasUserOptedOut then .mandatoryOverride
        else .preferenceAccepted
      activeChannels := .inApp
        :: (if preferences.channels .email then [.email] else []) }
  | .optional =>
    if !preferences.categories category then suppressed urgency
    else
      let activeChannels := [NotificationChannel.inApp, .email].filter preferences.channels
      if activeChannels.isEmpty then suppressed urgency
      else
        { deliver := true
          urgency
          decision := .delivered
          reason := .preferenceAccepted
          activeChannels }

/-! ## The store -/

structure MemoryNotificationStore where
  byId : InsertionMap String Notification
  byDedup : InsertionMap String String
  byRecipient : InsertionMap String (List String)

def requireNonEmptyString (value field : String) : Except Thrown Unit :=
  if JsText.trim value = "" then
    .error (.error ("notification " ++ field
      ++ " must be a non-empty string"))
  else .ok ()

/-- The texts a stored notification must have; its type, its severity, its
    data and its dates are right by construction. -/
def validateNotification (n : Notification) : Except Thrown Unit := do
  requireNonEmptyString n.id "id"
  requireNonEmptyString n.recipient "recipient"
  requireNonEmptyString n.title "title"
  requireNonEmptyString n.message "message"
  requireNonEmptyString n.deepLink "deepLink"
  requireNonEmptyString n.dedupKey "dedupKey"
  requireNonEmptyString n.entityId "entityId"

namespace MemoryNotificationStore

def new : MemoryNotificationStore := ⟨.empty, .empty, .empty⟩

def idsOf (store : MemoryNotificationStore) (recipient : String) :
    List String :=
  (store.byRecipient.get recipient).getD []

/-- The id a dedup key leads to; an empty one counts as none. -/
def existingId (store : MemoryNotificationStore) (dedupKey : String) :
    Option String :=
  (store.byDedup.get dedupKey).filter (fun id => decide (id ≠ ""))

/-- The store with a notification of its own id, key and recipient. -/
def add (store : MemoryNotificationStore) (n : Notification) :
    MemoryNotificationStore where
  byId := store.byId.set n.id n
  byDedup := store.byDedup.set n.dedupKey n.id
  byRecipient := store.byRecipient.set n.recipient (store.idsOf n.recipient ++ [n.id])

/-- The store after the insertion, the notification under its dedup key, and
    whether it was created. -/
def insert (store : MemoryNotificationStore) (n : Notification) :
    Except Thrown (MemoryNotificationStore × Option Notification × Bool) :=
  match validateNotification n with
  | .error thrown => .error thrown
  | .ok () =>
    match store.existingId n.dedupKey with
    | some existing => .ok (store, store.byId.get existing, false)
    | none => .ok (store.add n, some n, true)

/-- The newest first.  An id that is listed is there (`Indexed.listed`). -/
def listForRecipient (store : MemoryNotificationStore) (recipient : String) :
    List Notification :=
  ((store.idsOf recipient).filterMap store.byId.get).reverse

def getForRecipient (store : MemoryNotificationStore)
    (recipient id : String) : Option Notification :=
  (store.byId.get id).filter (fun n => decide (n.recipient = recipient))

/-- Write a notification's new state. -/
def write (store : MemoryNotificationStore) (n : Notification) :
    MemoryNotificationStore :=
  { store with byId := store.byId.set n.id n }

end MemoryNotificationStore

open MemoryNotificationStore

/-! ## The service -/

structure NotificationService where
  store : MemoryNotificationStore
  /-- What the preference store recorded. -/
  audit : List RoutingAuditRecord

/-- What a call reads and draws. -/
structure Env where
  /-- `uuidv4()`, the id of the notification. -/
  uuid : String
  /-- `uuidv4()`, the id of the audit record. -/
  auditUuid : String
  /-- `preferenceStore.getPreferences(recipient)`, which may throw. -/
  getPreferences :
    String → Except Thrown RecipientNotificationPreferences
  /-- The readings of `this.now()`, in their order; `none` is an invalid
      date. -/
  now : Nat → Option Int
  /-- `Date.now()`. -/
  dateNow : Int

def isoText (date : Option Int) : Except Thrown String :=
  match date with
  | some ms => .ok (String.ofList (Cursors.toISOString ms))
  | none => .error (.rangeError "Invalid time value")

def hexDigit (n : Nat) : Char := (Nat.digitChar n).toUpper

/-- The characters `encodeURIComponent` leaves alone. -/
def isUriUnreserved (c : Char) : Bool :=
  decide (c.toNat < 128) && (c.isAlphanum || "-_.!~*'()".toList.contains c)

def encodeURIComponent (text : String) : String :=
  String.ofList (text.toList.flatMap (fun c =>
    if isUriUnreserved c then [c]
    else (Utf8.encodePoint c.toNat).flatMap (fun byte =>
      ['%', hexDigit (byte / 16), hexDigit (byte % 16)])))

structure EmitResult where
  notification : Option Notification
  created : Bool
  suppressed : Bool
  routingReason : RoutingReason

def routingRecord (env : Env) (input : EmitInput)
    (evaluation : RoutingEvaluationResult) (evaluatedAt : String) :
    RoutingAuditRecord where
  id := env.auditUuid
  notificationId := env.uuid
  recipient := input.recipient
  type := input.type
  urgency := evaluation.urgency
  decision := evaluation.decision
  reason := evaluation.reason
  activeChannels := evaluation.activeChannels
  evaluatedAt := evaluatedAt
  metadata := input.data

def notificationOf (env : Env) (input : EmitInput)
    (evaluation : RoutingEvaluationResult) (createdAt : String) :
    Notification where
  id := env.uuid
  recipient := input.recipient
  type := input.type
  severity := input.severity
  title := input.title
  message := input.message
  deepLink := "/invoice/" ++ encodeURIComponent input.entityId
  dedupKey := input.dedupKey
  entityId := input.entityId
  data := if evaluation.reason = .mandatoryOverride
    then input.data.set "mandatoryOverride" (.text "true")
    else input.data
  createdAt := createdAt
  readAt := none

namespace NotificationService

def new : NotificationService := ⟨.new, []⟩

def recordAudit (s : NotificationService) (record : RoutingAuditRecord) :
    NotificationService :=
  { s with audit := s.audit ++ [record] }

def emit (s : NotificationService) (env : Env) (input : EmitInput) :
    NotificationService × Except Thrown EmitResult :=
  match env.getPreferences input.recipient with
  | .error thrown => (s, .error thrown)
  | .ok prefs =>
    let evaluation := evaluateNotificationRouting input.type prefs
    match isoText (env.now 0) with
    | .error thrown => (s, .error thrown)
    | .ok evaluatedAt =>
      let audited := s.recordAudit
        (routingRecord env input evaluation evaluatedAt)
      if !evaluation.deliver then
        (audited, .ok ⟨none, false, true, evaluation.reason⟩)
      else
        match isoText (env.now 1) with
        | .error thrown => (audited, .error thrown)
        | .ok createdAt =>
          match audited.store.insert
              (notificationOf env input evaluation createdAt) with
          | .error thrown => (audited, .error thrown)
          | .ok (store, notification, created) =>
            ({ audited with store },
              .ok ⟨notification, created, false, evaluation.reason⟩)

end NotificationService

/-! ## The events -/

/-- The status whose notification an invoice has. -/
inductive TerminalStatus where
  | paid
  | expired
  | cancelled
  deriving DecidableEq

def terminal : InvoiceStatus → Option TerminalStatus
  | .paid => some .paid
  | .expired => some .expired
  | .cancelled => some .cancelled
  | .pending => none

def TerminalStatus.type : TerminalStatus → NotificationType
  | paid => .invoicePaid
  | expired => .invoiceExpired
  | cancelled => .invoiceCancelled

def codeText : VerificationCode → String
  | .missingTxHash => "MISSING_TX_HASH"
  | .invalidTxHash => "INVALID_TX_HASH"
  | .invalidPayerName => "INVALID_PAYER_NAME"
  | .invalidPayerEmail => "INVALID_PAYER_EMAIL"
  | .payerInfoTooLong => "PAYER_INFO_TOO_LONG"
  | .invoiceAlreadyPaid => "INVOICE_ALREADY_PAID"
  | .invoiceExpired => "INVOICE_EXPIRED"
  | .invoiceNotPending => "INVOICE_NOT_PENDING"
  | .transactionNotFound => "TRANSACTION_NOT_FOUND"
  | .noPaymentOperation => "NO_PAYMENT_OPERATION"
  | .memoMismatch => "MEMO_MISMATCH"
  | .destinationMismatch => "DESTINATION_MISMATCH"
  | .amountMismatch => "AMOUNT_MISMATCH"
  | .assetMismatch => "ASSET_MISMATCH"
  | .networkMismatch => "NETWORK_MISMATCH"

/-- `REJECTION_ADVICE`. -/
def rejectionAdvice : VerificationCode → Option String
  | .amountMismatch => some ("A payment was submitted with the wrong amount."
      ++ " Ask the payer to send the remaining or corrected amount, or cancel"
      ++ " and reissue the invoice.")
  | .assetMismatch => some ("A payment was submitted in a different asset"
      ++ " than invoiced. Ask the payer to pay in the invoiced asset.")
  | .memoMismatch => some ("A payment referenced this invoice but the memo"
      ++ " did not match. Ask the payer to resend with the invoice memo.")
  | .destinationMismatch => some ("A payment referenced this invoice but was"
      ++ " sent to a different account.")
  | .networkMismatch => some ("A payment was submitted on a different Stellar"
      ++ " network than this invoice uses.")
  | .noPaymentOperation => some ("A transaction referenced this invoice but"
      ++ " contained no payment operation.")
  | _ => none

/-- `RECOVERABLE_REJECTIONS.has(code)`. -/
def recoverable : VerificationCode → Bool
  | .amountMismatch => true
  | .assetMismatch => true
  | .memoMismatch => true
  | .destinationMismatch => true
  | .networkMismatch => true
  | .noPaymentOperation => true
  | _ => false

/-- `${invoice.amount} ${invoice.assetCode}`. -/
def label (invoice : StoredInvoice) : String :=
  (finite invoice.amount).toText ++ " " ++ invoice.assetCode

def lifecycleTitle : TerminalStatus → String
  | .paid => "Invoice paid"
  | .expired => "Invoice expired"
  | .cancelled => "Invoice cancelled"

def lifecycleMessage (invoice : StoredInvoice) : TerminalStatus → String
  | .paid => "Payment of " ++ label invoice ++ " was verified for invoice "
      ++ invoice.memo ++ "."
  | .expired => "Invoice " ++ invoice.memo ++ " (" ++ label invoice
      ++ ") expired unpaid. Create a new invoice to collect payment."
  | .cancelled => "Invoice " ++ invoice.memo ++ " (" ++ label invoice
      ++ ") was cancelled."

def lifecycleSeverity : TerminalStatus → NotificationSeverity
  | .paid => .success
  | .expired => .warning
  | .cancelled => .info

def lifecycleInput (invoice : StoredInvoice) (status : TerminalStatus) :
    EmitInput where
  recipient := invoice.sellerPublicKey
  type := status.type
  severity := lifecycleSeverity status
  title := lifecycleTitle status
  message := lifecycleMessage invoice status
  entityId := invoice.id
  data := (((empty.set "invoiceId" (.text invoice.id)).set
    "amount" (.number (.finite invoice.amount))).set
    "assetCode" (.text invoice.assetCode)).set "memo" (.text invoice.memo)
  dedupKey := invoice.id ++ ":" ++ status.type.text

def rejectedInput (invoice : StoredInvoice)
    (code : VerificationCode) (txHash : String) :
    EmitInput where
  recipient := invoice.sellerPublicKey
  type := .paymentRejected
  severity := .critical
  title := "Payment needs attention"
  message := (rejectionAdvice code).getD
    "A payment attempt for this invoice was rejected."
  entityId := invoice.id
  data := (((empty.set "invoiceId" (.text invoice.id)).set
    "memo" (.text invoice.memo)).set "code" (.text (codeText code))).set
    "txHash" (.text txHash)
  dedupKey := invoice.id ++ ":payment.rejected:" ++ txHash ++ ":"
    ++ codeText code

def alertInput (env : Env) (recipient title message : String) (data : Data) :
    EmitInput where
  recipient := recipient
  type := .securityAlert
  severity := .critical
  title := title
  message := message
  entityId := recipient
  data := data
  dedupKey := recipient ++ ":security.alert:" ++ toString env.dateNow

abbrev Reply (α : Type) := NotificationService × Except Thrown α

namespace NotificationService

/-- The call emits, and returns the notification. -/
def notify (s : NotificationService) (env : Env) (input : EmitInput) :
    Reply (Option Notification) :=
  (s.emit env input).map id (Except.map (·.notification))

def syncInvoiceNotifications (s : NotificationService) (env : Env)
    (invoice : StoredInvoice) : Reply (Option Notification) :=
  match terminal invoice.status with
  | some status => s.notify env (lifecycleInput invoice status)
  | none => (s, .ok none)

def notifyPaymentRejected (s : NotificationService) (env : Env)
    (invoice : StoredInvoice) (code : VerificationCode)
    (txHash : String) : Reply (Option Notification) :=
  if !recoverable code then (s, .ok none)
  else s.notify env (rejectedInput invoice code txHash)

def notifySecurityAlert (s : NotificationService) (env : Env)
    (recipient title message : String) (data : Data) :
    Reply (Option Notification) :=
  s.notify env (alertInput env recipient title message data)

/-! ### Reading -/

structure NotificationPage where
  notifications : List Notification
  total : Nat
  unread : Nat
  limit : JsNumber
  offset : JsNumber

structure NotificationQuery where
  unreadOnly : Bool
  limit : Option JsNumber
  offset : Option JsNumber

def list (s : NotificationService) (recipient : String)
    (query : NotificationQuery) : NotificationPage :=
  let all := s.store.listForRecipient recipient
  let filtered := if query.unreadOnly
    then all.filter (fun n => n.readAt.isNone) else all
  let limit := mathMin (mathMax (query.limit.getD 50) 1) 100
  let offset := mathMax (query.offset.getD 0) 0
  { notifications := (filtered.take (sliceEnd
      (add offset limit) filtered.length)).drop
      (sliceEnd offset filtered.length)
    total := filtered.length
    unread := (all.filter (fun n => n.readAt.isNone)).length
    limit
    offset }

/-- Read a notification, unless it was read before. -/
def read (s : NotificationService) (now : Option Int) (n : Notification) :
    Reply Notification :=
  match n.readAt with
  | some _ => (s, .ok n)
  | none =>
    match isoText now with
    | .error thrown => (s, .error thrown)
    | .ok readAt =>
      let marked := { n with readAt := some readAt }
      ({ s with store := s.store.write marked }, .ok marked)

def markRead (s : NotificationService) (env : Env) (recipient id : String) :
    Reply (Option Notification) :=
  match s.store.getForRecipient recipient id with
  | none => (s, .ok none)
  | some n => (s.read (env.now 0) n).map (fun s => s) (Except.map some)

/-- The loop of `markAllRead`.  The clock is read for each notification that
    changes, and a reading that throws ends the loop. -/
def markEach (env : Env) : NotificationService → List Notification → Nat →
    Reply Nat
  | s, [], changed => (s, .ok changed)
  | s, n :: rest, changed =>
    match s.read (env.now changed) n with
    | (s', .error thrown) => (s', .error thrown)
    | (s', .ok _) => markEach env s' rest
        (if n.readAt.isNone then changed + 1 else changed)

def markAllRead (s : NotificationService) (env : Env) (recipient : String) :
    Reply Nat :=
  markEach env s (s.store.listForRecipient recipient) 0

end NotificationService

open NotificationService

/-! ## Runs -/

inductive Op where
  | syncInvoiceNotifications (invoice : StoredInvoice)
  | notifyPaymentRejected (invoice : StoredInvoice)
      (code : VerificationCode) (txHash : String)
  | notifySecurityAlert (recipient title message : String) (data : Data)
  | list (recipient : String)
      (query : NotificationQuery)
  | markRead (recipient id : String)
  | markAllRead (recipient : String)

/-- A logical event: an invoice reached a terminal status, a payment attempt
    was rejected, or a call of `notifySecurityAlert`, by its number in the
    run. -/
inductive LogicalEvent where
  | lifecycle (invoiceId : String) (status : TerminalStatus)
  | rejected (invoiceId txHash : String)
      (code : VerificationCode)
  | alert (recipient : String) (at_ : Int) (call : Nat)
  deriving DecidableEq

/-- The id of the notification a call returned, unless it threw. -/
def returned (reply : Except Thrown (Option Notification)) :
    Option (Option String) :=
  match reply with
  | .ok notification => some (notification.map (·.id))
  | .error _ => none

/-- A run so far: the service, the number of calls, and for each emitting
    call that did not throw its event and the id it was answered with. -/
structure Trace where
  service : NotificationService
  calls : Nat
  log : List (LogicalEvent × Option String)

def Trace.new : Trace := ⟨.new, 0, []⟩

def Trace.answered (t : Trace) (event : Option LogicalEvent)
    (reply : Reply (Option Notification)) : Trace where
  service := reply.1
  calls := t.calls + 1
  log := match event, returned reply.2 with
    | some event, some id => t.log ++ [(event, id)]
    | _, _ => t.log

variable {reply : Reply (Option Notification)} {t : Trace}

theorem answered_log_ok {event : LogicalEvent} {n : Option Notification} (h : reply.2 = .ok n) :
    (t.answered (some event) reply).log = t.log ++ [(event, n.map (·.id))] := by
  obtain ⟨s, answer⟩ := reply
  obtain rfl : answer = .ok n := h
  rfl

theorem answered_log_error {event : Option LogicalEvent} {thrown : Thrown}
    (h : reply.2 = .error thrown) : (t.answered event reply).log = t.log := by
  obtain ⟨s, answer⟩ := reply
  obtain rfl : answer = .error thrown := h
  cases event <;> rfl

/-- The event of a rejected attempt, if the seller can act on it. -/
def rejectedEvent (invoiceId txHash : String)
    (code : VerificationCode) : Option LogicalEvent :=
  if recoverable code then some (.rejected invoiceId txHash code) else none

def step (t : Trace) (c : Op × Env) : Trace :=
  match c.1 with
  | .syncInvoiceNotifications invoice =>
    t.answered ((terminal invoice.status).map (.lifecycle invoice.id))
      (t.service.syncInvoiceNotifications c.2 invoice)
  | .notifyPaymentRejected invoice code txHash =>
    t.answered (rejectedEvent invoice.id txHash code)
      (t.service.notifyPaymentRejected c.2 invoice code txHash)
  | .notifySecurityAlert recipient title message data =>
    t.answered (some (.alert recipient c.2.dateNow t.calls))
      (t.service.notifySecurityAlert c.2 recipient title message data)
  | .list _ _ => { t with calls := t.calls + 1 }
  | .markRead recipient id =>
    { t with
      service := (t.service.markRead c.2 recipient id).1
      calls := t.calls + 1 }
  | .markAllRead recipient =>
    { t with
      service := (t.service.markAllRead c.2 recipient).1
      calls := t.calls + 1 }

/-! ## Once for each event -/

/-- **ONE NOTIFICATION FOR EACH EVENT**: every call was answered with a stored
    notification, two calls with the same one exactly if they have the same
    event, and nothing else is stored. -/
structure OneToOne (t : Trace) : Prop where
  answered : ∀ event reply, (event, reply) ∈ t.log →
    ∃ id n, reply = some id ∧ t.service.store.byId.get id = some n
  same : ∀ event reply event' reply', (event, reply) ∈ t.log →
    (event', reply') ∈ t.log → (event = event' ↔ reply = reply')
  onto : ∀ id n, t.service.store.byId.get id = some n →
    ∃ event, (event, some id) ∈ t.log

/-- The recipient a reading call is for. -/
def reader : Op → Option String
  | .list recipient _ => some recipient
  | .markRead recipient _ => some recipient
  | .markAllRead recipient => some recipient
  | _ => none

/-- The notifications a reading call returns. -/
def shown (s : NotificationService) (env : Env) : Op → List Notification
  | .list recipient query => (s.list recipient query).notifications
  | .markRead recipient id =>
    match (s.markRead env recipient id).2 with
    | .ok (some n) => [n]
    | _ => []
  | _ => []

/-- A reading call returns and changes only notifications of its
    recipient. -/
structure Isolated (t : Trace) (c : Op × Env) : Prop where
  shown : ∀ recipient, reader c.1 = some recipient →
    ∀ n ∈ shown t.service c.2 c.1, n.recipient = recipient
  others : ∀ recipient, reader c.1 = some recipient →
    ∀ id n, t.service.store.byId.get id = some n → n.recipient ≠ recipient →
      (step t c).service.store.byId.get id = some n

/-- The id drawn for a notification is not in use. -/
def Fresh (t : Trace) (c : Op × Env) : Prop :=
  reader c.1 = none → t.service.store.byId.has c.2.uuid = false

instance (t : Trace) (c : Op × Env) : Decidable (Fresh t c) :=
  inferInstanceAs (Decidable (reader c.1 = none →
    t.service.store.byId.has c.2.uuid = false))

/-- Two different events with one dedup key: alerts of one millisecond for
    one recipient, or rejections of one code whose invoice and hash run
    together to the same text. -/
def Clash : LogicalEvent → LogicalEvent → Prop
  | .alert r at_ call, .alert r' at' call' => r = r' ∧ at_ = at' ∧ call ≠ call'
  | .rejected invoiceId txHash code, .rejected invoiceId' txHash' code' =>
    code = code' ∧ (invoiceId, txHash) ≠ (invoiceId', txHash')
      ∧ invoiceId ++ ":payment.rejected:" ++ txHash
        = invoiceId' ++ ":payment.rejected:" ++ txHash'
  | _, _ => False

instance : (event event' : LogicalEvent) → Decidable (Clash event event')
  | .alert r at_ call, .alert r' at' call' =>
    inferInstanceAs (Decidable (r = r' ∧ at_ = at' ∧ call ≠ call'))
  | .rejected invoiceId txHash code, .rejected invoiceId' txHash' code' =>
    inferInstanceAs (Decidable (code = code'
      ∧ (invoiceId, txHash) ≠ (invoiceId', txHash')
      ∧ invoiceId ++ ":payment.rejected:" ++ txHash
        = invoiceId' ++ ":payment.rejected:" ++ txHash'))
  | .lifecycle _ _, _ => instDecidableFalse
  | .alert _ _ _, .lifecycle _ _ => instDecidableFalse
  | .alert _ _ _, .rejected _ _ _ => instDecidableFalse
  | .rejected _ _ _, .lifecycle _ _ => instDecidableFalse
  | .rejected _ _ _, .alert _ _ _ => instDecidableFalse

/-- What a call emits as the run's `n`-th. -/
def emission (n : Nat) (c : Op × Env) : Option (LogicalEvent × EmitInput) :=
  match c.1 with
  | .syncInvoiceNotifications invoice =>
    (terminal invoice.status).map (fun status =>
      (.lifecycle invoice.id status, lifecycleInput invoice status))
  | .notifyPaymentRejected invoice code txHash =>
    (rejectedEvent invoice.id txHash code).map (fun event =>
      (event, rejectedInput invoice code txHash))
  | .notifySecurityAlert recipient title message data =>
    some (.alert recipient c.2.dateNow n,
      alertInput c.2 recipient title message data)
  | _ => none

/-- The call has preferences, valid dates and the texts a notification
    needs. -/
def passes (env : Env) (input : EmitInput) : Bool :=
  match env.getPreferences input.recipient, isoText (env.now 0),
      isoText (env.now 1) with
  | .ok prefs, .ok _, .ok createdAt =>
    (validateNotification (notificationOf env input
      (evaluateNotificationRouting input.type prefs) createdAt)).isOk
  | _, _, _ => false

/-- The event of a call that passes its checks clashes with no event that was
    notified before. -/
def Clear (t : Trace) (c : Op × Env) : Prop :=
  ∀ emitted ∈ emission t.calls c, passes c.2 emitted.2 = true →
    ∀ entry ∈ t.log, ¬ Clash emitted.1 entry.1

instance (t : Trace) (c : Op × Env) : Decidable (Clear t c) :=
  inferInstanceAs (Decidable (∀ emitted ∈ emission t.calls c,
    passes c.2 emitted.2 = true →
    ∀ entry ∈ t.log, ¬ Clash emitted.1 entry.1))

def LogicalEvent.dedupKey : LogicalEvent → String
  | .lifecycle invoiceId status => invoiceId ++ ":" ++ status.type.text
  | .rejected invoiceId txHash code =>
    invoiceId ++ ":payment.rejected:" ++ txHash ++ ":" ++ codeText code
  | .alert recipient at_ _ => recipient ++ ":security.alert:" ++ toString at_

/-! ## The key of an event -/

section Texts

variable {a b s t : String}

/-- The last field of a text is determined by the text. -/
theorem append_sep_inj {c : Char} {as bs cs ds : List Char} (hcs : c ∉ cs)
    (hds : c ∉ ds) (h : as ++ c :: cs = bs ++ c :: ds) : as = bs ∧ cs = ds := by
  rcases append_eq_append_iff.mp h with
    ⟨rest, rfl, hrest⟩ | ⟨rest, rfl, hrest⟩
  · cases rest with
    | nil => exact ⟨(append_nil _).symm, (cons.inj hrest).2⟩
    | cons x rest =>
      have hmem : c ∈ cs := by
        rw [(cons.inj hrest).2]
        simp
      exact absurd hmem hcs
  · cases rest with
    | nil => exact ⟨append_nil _, (cons.inj hrest).2.symm⟩
    | cons x rest =>
      have hmem : c ∈ ds := by
        rw [(cons.inj hrest).2]
        simp
      exact absurd hmem hds

theorem append_colon_inj (hs : ':' ∉ s.toList) (ht : ':' ∉ t.toList)
    (h : a ++ ":" ++ s = b ++ ":" ++ t) : a = b ∧ s = t := by
  have hlist := congrArg String.toList h
  rw [toList_append, toList_append, toList_append,
    toList_append, List.append_assoc, List.append_assoc] at hlist
  obtain ⟨hab, hst⟩ := append_sep_inj (c := ':') hs ht hlist
  exact ⟨toList_inj.mp hab, toList_inj.mp hst⟩

theorem append_right_inj (h : a ++ s = b ++ s) : a = b := by
  have hlist := congrArg String.toList h
  rw [toList_append, toList_append] at hlist
  exact toList_inj.mp (append_cancel_right hlist)

theorem isDigit_of_mem_repr {n : Nat} {c : Char} (h : c ∈ n.repr.toList) : c.isDigit = true := by
  rw [toList_repr] at h
  exact isDigit_of_mem_toDigits (by decide) (by decide) h

theorem repr_inj {m n : Nat} (h : m.repr = n.repr) : m = n := by
  have hdigits := congrArg String.toList h
  rw [toList_repr, toList_repr] at hdigits
  have hvalue := congrArg (Nat.ofDigitChars 10 · 0) hdigits
  simpa only [ofDigitChars_toDigits (show 1 < 10 by decide)
    (show 10 ≤ 10 by decide)] using hvalue

theorem not_mem_int {c : Char} (hdigit : c.isDigit = false) (hsign : c ≠ '-')
    (n : Int) : c ∉ (toString n).toList := by
  intro h
  have hrepr : c ∈ n.repr.toList := h
  rw [Int.repr_eq_if] at hrepr
  split at hrepr
  · cases hdigit.symm.trans (isDigit_of_mem_repr hrepr)
  rw [toList_append, mem_append] at hrepr
  rcases hrepr with hminus | hdigits
  · exact hsign (mem_singleton.mp hminus)
  · cases hdigit.symm.trans (isDigit_of_mem_repr hdigits)

theorem int_text_inj {m n : Int} (h : toString m = toString n) : m = n := by
  have hrepr : m.repr = n.repr := h
  have hminus : ∀ {i j : Nat}, i.repr ≠ "-" ++ j.repr := by
    intro i j heq
    have hmem : '-' ∈ i.repr.toList := by
      rw [heq, toList_append]
      exact (.head _)
    cases isDigit_of_mem_repr hmem
  rw [Int.repr_eq_if, Int.repr_eq_if] at hrepr
  split at hrepr
  · split at hrepr
    · have := repr_inj hrepr
      omega
    · exact absurd hrepr hminus
  split at hrepr
  · exact absurd hrepr.symm hminus
  have hlist := congrArg String.toList hrepr
  rw [toList_append, toList_append] at hlist
  have := repr_inj (toList_inj.mp (append_cancel_left hlist))
  omega

end Texts

/-- The texts of the statuses and the codes have no colon and differ, and each
    has a character that no number has. -/
theorem texts_apart : (∀ status : TerminalStatus, ':' ∉ status.type.text.toList
      ∧ 'i' ∈ status.type.text.toList)
    ∧ (∀ code : VerificationCode, ':' ∉ (codeText code).toList
      ∧ '_' ∈ (codeText code).toList) ∧ (∀ status status' : TerminalStatus,
      status.type.text = status'.type.text → status = status')
    ∧ (∀ code code' : VerificationCode, codeText code = codeText code' → code = code')
    ∧ ∀ (status : TerminalStatus) (code : VerificationCode),
      status.type.text ≠ codeText code := by
  refine ⟨fun status => ?_, fun code => ?_, fun status status' => ?_,
    fun code code' => ?_, fun status code => ?_⟩
  · cases status <;> decide +kernel
  · cases code <;> decide +kernel
  · cases status <;> cases status' <;> decide +kernel
  · cases code <;> cases code' <;> decide +kernel
  · cases status <;> cases code <;> decide +kernel

theorem colon_not_mem_status (status : TerminalStatus) : ':' ∉ status.type.text.toList :=
  (texts_apart.1 status).1

theorem colon_not_mem_code (code : VerificationCode) : ':' ∉ (codeText code).toList :=
  (texts_apart.2.1 code).1

theorem status_text_inj {status status' : TerminalStatus}
    (h : status.type.text = status'.type.text) : status = status' :=
  texts_apart.2.2.1 status status' h

theorem codeText_inj {code code' : VerificationCode}
    (h : codeText code = codeText code') : code = code' :=
  texts_apart.2.2.2.1 code code' h

variable {code : VerificationCode} {status : TerminalStatus}

theorem status_text_ne_code : status.type.text ≠ codeText code :=
  texts_apart.2.2.2.2 status code

theorem status_text_ne_int {n : Int} : status.type.text ≠ toString n := by
  intro h
  have hmem : 'i' ∈ status.type.text.toList := (texts_apart.1 status).2
  rw [h] at hmem
  exact not_mem_int (by decide) (by decide) n hmem

theorem code_text_ne_int {n : Int} : codeText code ≠ toString n := by
  intro h
  have hmem : '_' ∈ (codeText code).toList := (texts_apart.2.1 code).2
  rw [h] at hmem
  exact not_mem_int (by decide) (by decide) n hmem

/-- What stands before the last colon of a key. -/
def LogicalEvent.stem : LogicalEvent → String
  | .lifecycle invoiceId _ => invoiceId
  | .rejected invoiceId txHash _ => invoiceId ++ ":payment.rejected:" ++ txHash
  | .alert recipient _ _ => recipient ++ ":security.alert"

/-- What stands after it. -/
def LogicalEvent.tail : LogicalEvent → String
  | .lifecycle _ status => status.type.text
  | .rejected _ _ code => codeText code
  | .alert _ at_ _ => toString at_

theorem dedupKey_eq (event : LogicalEvent) : event.dedupKey = event.stem ++ ":" ++ event.tail := by
  cases event with
  | alert recipient at_ call =>
    have hcolon : ":security.alert" ++ ":" = ":security.alert:" := rfl
    have hstem : recipient ++ ":security.alert" ++ ":" = recipient ++ ":security.alert:" :=
      append_assoc.trans (congrArg (recipient ++ ·) hcolon)
    exact congrArg (· ++ toString at_) hstem.symm
  | _ => rfl

theorem colon_not_mem_tail (event : LogicalEvent) : ':' ∉ event.tail.toList := by
  cases event with
  | lifecycle invoiceId status => exact colon_not_mem_status status
  | rejected invoiceId txHash code => exact colon_not_mem_code code
  | alert recipient at_ call => exact not_mem_int (by decide) (by decide) at_

/-- **WHEN TWO EVENTS HAVE ONE KEY**: only when they clash. -/
theorem dedupKey_eq_iff (event event' : LogicalEvent) :
    event.dedupKey = event'.dedupKey ↔ event = event' ∨ Clash event event' := by
  have hfields : event.dedupKey = event'.dedupKey
      ↔ event.stem = event'.stem ∧ event.tail = event'.tail := by
    rw [dedupKey_eq, dedupKey_eq]
    constructor
    · exact append_colon_inj (colon_not_mem_tail event) (colon_not_mem_tail event')
    rintro ⟨hstem, htail⟩
    rw [hstem, htail]
  rw [hfields]
  cases event with
  | lifecycle invoiceId status =>
    cases event' with
    | lifecycle invoiceId' status' =>
      constructor
      · rintro ⟨hid, htext⟩
        have hid' : invoiceId = invoiceId' := hid
        rw [hid', status_text_inj htext]
        exact .inl rfl
      rintro (heq | hclash)
      · rw [heq]
        exact ⟨rfl, rfl⟩
      · exact hclash.elim
    | rejected _ _ _ =>
      exact iff_of_false (fun h => status_text_ne_code h.2) (not_or.mpr ⟨nofun, id⟩)
    | alert _ _ _ =>
      exact iff_of_false (fun h => status_text_ne_int h.2) (not_or.mpr ⟨nofun, id⟩)
  | rejected invoiceId txHash code =>
    cases event' with
    | lifecycle _ _ =>
      exact iff_of_false (fun h => status_text_ne_code h.2.symm) (not_or.mpr ⟨nofun, id⟩)
    | rejected invoiceId' txHash' code' =>
      constructor
      · rintro ⟨hstem, htext⟩
        have hcode := codeText_inj htext
        by_cases hpair : (invoiceId, txHash) = (invoiceId', txHash')
        · refine Or.inl ?_
          rw [(Prod.mk.inj hpair).1, (Prod.mk.inj hpair).2, hcode]
        · exact .inr ⟨hcode, hpair, hstem⟩
      · rintro (heq | ⟨hcode, -, hstem⟩)
        · rw [heq]
          exact ⟨rfl, rfl⟩
        · exact ⟨hstem, congrArg codeText hcode⟩
    | alert _ _ _ =>
      exact iff_of_false (fun h => code_text_ne_int h.2) (not_or.mpr ⟨nofun, id⟩)
  | alert recipient at_ call =>
    cases event' with
    | lifecycle _ _ =>
      exact iff_of_false (fun h => status_text_ne_int h.2.symm) (not_or.mpr ⟨nofun, id⟩)
    | rejected _ _ _ =>
      exact iff_of_false (fun h => code_text_ne_int h.2.symm) (not_or.mpr ⟨nofun, id⟩)
    | alert recipient' at' call' =>
      constructor
      · rintro ⟨hstem, htext⟩
        have hrecipient : recipient = recipient' := append_right_inj hstem
        have hat : at_ = at' := int_text_inj htext
        by_cases hcall : call = call'
        · exact .inl (by rw [hrecipient, hat, hcall])
        · exact .inr ⟨hrecipient, hat, hcall⟩
      · rintro (heq | ⟨rfl, rfl, -⟩)
        · rw [heq]
          exact ⟨rfl, rfl⟩
        · exact ⟨rfl, rfl⟩

/-! ## The store is an index -/

/-- What of a notification never changes. -/
def core (n : Notification) : String × String × String :=
  (n.id, n.recipient, n.dedupKey)

structure Indexed (store : MemoryNotificationStore) : Prop where
  keyed : ∀ id n, store.byId.get id = some n → n.id = id
  named : ∀ id n, store.byId.get id = some n → id ≠ ""
  dedup : ∀ id n, store.byId.get id = some n →
    store.byDedup.get n.dedupKey = some id
  found : ∀ key id, store.byDedup.get key = some id →
    ∃ n, store.byId.get id = some n ∧ n.dedupKey = key
  listed : ∀ recipient, ∀ id ∈ store.idsOf recipient,
    ∃ n, store.byId.get id = some n ∧ n.recipient = recipient

theorem Indexed.new : Indexed .new where
  keyed _ _ h := nomatch h
  named _ _ h := nomatch h
  dedup _ _ h := nomatch h
  found _ _ h := nomatch h
  listed _ _ h := nomatch h

section Store

variable {store store' : MemoryNotificationStore} {n : Notification}
  {recipient : String}

theorem existingId_eq (h : Indexed store) (key : String) :
    store.existingId key = store.byDedup.get key := by
  rw [existingId]
  cases hget : store.byDedup.get key with
  | none => rfl
  | some id =>
    obtain ⟨n, hn, -⟩ := h.found key id hget
    exact (filter_some_pos (decide_eq_true (h.named id n hn)))

/-- **AN INSERTION** keeps the store an index. -/
theorem Indexed.add (h : Indexed store) (hfresh : store.byId.get n.id = none)
    (hkey : store.byDedup.get n.dedupKey = none) (hid : n.id ≠ "") : Indexed (store.add n) := by
  have hget : ∀ id, (store.add n).byId.get id = if n.id = id then some n else store.byId.get id :=
    fun id => get_set _ _ _ _
  have hdedup : ∀ key, (store.add n).byDedup.get key
      = if n.dedupKey = key then some n.id else store.byDedup.get key :=
    fun key => get_set _ _ _ _
  have hold : ∀ {id m}, store.byId.get id = some m → (store.add n).byId.get id = some m := by
    intro id m hm
    rw [hget, if_neg]
    · exact hm
    rintro rfl
    cases hfresh.symm.trans hm
  have hcases : ∀ {id m}, (store.add n).byId.get id = some m →
      n.id = id ∧ n = m ∨ store.byId.get id = some m := by
    intro id m hm
    rw [hget] at hm
    split at hm
    · rename_i heq
      exact .inl ⟨heq, some.inj hm⟩
    · exact .inr hm
  constructor
  · intro id m hm
    rcases hcases hm with ⟨heq, rfl⟩ | hm
    · exact heq
    · exact h.keyed id m hm
  · intro id m hm
    rcases hcases hm with ⟨heq, rfl⟩ | hm
    · exact heq ▸ hid
    · exact h.named id m hm
  · intro id m hm
    rw [hdedup]
    rcases hcases hm with ⟨heq, rfl⟩ | hm
    · rw [if_pos rfl, heq]
    rw [if_neg]
    · exact h.dedup id m hm
    intro heq
    have hsome := h.dedup id m hm
    rw [← heq, hkey] at hsome
    cases hsome
  · intro key id hid'
    rw [hdedup] at hid'
    split at hid'
    · rename_i heq
      refine ⟨n, ?_, heq⟩
      rw [hget, if_pos (some.inj hid')]
    obtain ⟨m, hm, hmkey⟩ := h.found key id hid'
    exact ⟨m, hold hm, hmkey⟩
  · intro recipient id hmem
    have hids : (store.add n).idsOf recipient
        = if n.recipient = recipient then store.idsOf recipient ++ [n.id]
          else store.idsOf recipient := by
      show ((store.byRecipient.set n.recipient _).get recipient).getD [] = _
      rw [get_set]
      split
      · rename_i heq
        rw [heq]
        rfl
      · rfl
    rw [hids] at hmem
    split at hmem
    · rename_i heq
      rcases mem_append.mp hmem with hmem | hmem
      · obtain ⟨m, hm, hrec⟩ := h.listed recipient id hmem
        exact ⟨m, hold hm, hrec⟩
      refine ⟨n, ?_, heq⟩
      rw [hget, if_pos (mem_singleton.mp hmem).symm]
    · obtain ⟨m, hm, hrec⟩ := h.listed recipient id hmem
      exact ⟨m, hold hm, hrec⟩

/-- Only read marks of one recipient's notifications differ. -/
structure Marks (recipient : String)
    (store store' : MemoryNotificationStore) : Prop where
  byDedup : store'.byDedup = store.byDedup
  byRecipient : store'.byRecipient = store.byRecipient
  same : ∀ id, (store'.byId.get id).map core = (store.byId.get id).map core
  others : ∀ id n, store.byId.get id = some n → n.recipient ≠ recipient →
    store'.byId.get id = some n

theorem Marks.refl (recipient : String) (store : MemoryNotificationStore) :
    Marks recipient store store :=
  ⟨rfl, rfl, fun _ => rfl, fun _ _ h _ => h⟩

theorem Marks.trans {store'' : MemoryNotificationStore}
    (h₁ : Marks recipient store store') (h₂ : Marks recipient store' store'') :
    Marks recipient store store'' where
  byDedup := h₂.byDedup.trans h₁.byDedup
  byRecipient := h₂.byRecipient.trans h₁.byRecipient
  same id := (h₂.same id).trans (h₁.same id)
  others id n h hne := h₂.others id n (h₁.others id n h hne) hne

variable {m : Notification} {id : String}

theorem Marks.before (h : Marks recipient store store') (hm : store'.byId.get id = some m) :
    ∃ n, store.byId.get id = some n ∧ core n = core m := by
  have hsame := h.same id
  rw [hm] at hsame
  obtain ⟨n, hn, hcore⟩ := map_eq_some_iff.mp hsame.symm
  exact ⟨n, hn, hcore⟩

theorem Marks.after (h : Marks recipient store store') (hm : store.byId.get id = some m) :
    ∃ n, store'.byId.get id = some n ∧ core n = core m := by
  have hsame := h.same id
  rw [hm] at hsame
  obtain ⟨n, hn, hcore⟩ := map_eq_some_iff.mp hsame
  exact ⟨n, hn, hcore⟩

theorem core_eq (h : core n = core m) :
    n.id = m.id ∧ n.recipient = m.recipient ∧ n.dedupKey = m.dedupKey :=
  ⟨congrArg (·.1) h, congrArg (·.2.1) h, congrArg (·.2.2) h⟩

theorem Indexed.marks (h : Indexed store) (hm : Marks recipient store store') : Indexed store' := by
  constructor
  · intro id n hn
    obtain ⟨m, hget, hcore⟩ := hm.before hn
    exact (core_eq hcore).1.symm.trans (h.keyed id m hget)
  · intro id n hn
    obtain ⟨m, hget, -⟩ := hm.before hn
    exact h.named id m hget
  · intro id n hn
    obtain ⟨m, hget, hcore⟩ := hm.before hn
    rw [hm.byDedup, ← (core_eq hcore).2.2]
    exact h.dedup id m hget
  · intro key id hkey
    rw [hm.byDedup] at hkey
    obtain ⟨m, hget, rfl⟩ := h.found key id hkey
    obtain ⟨n, hn, hcore⟩ := hm.after hget
    exact ⟨n, hn, (core_eq hcore).2.2⟩
  intro r id hid
  have hids : store'.idsOf r = store.idsOf r := by
    rw [idsOf, hm.byRecipient]
    rfl
  rw [hids] at hid
  obtain ⟨m, hget, hrec⟩ := h.listed r id hid
  obtain ⟨n, hn, hcore⟩ := hm.after hget
  exact ⟨n, hn, (core_eq hcore).2.1.trans hrec⟩

theorem marks_write (hget : store.byId.get n.id = some m)
    (hcore : core n = core m) (hrec : n.recipient = recipient) :
    Marks recipient store (store.write n) where
  byDedup := rfl
  byRecipient := rfl
  same id := by
    show ((store.byId.set n.id n).get id).map core = _
    rw [get_set]
    split
    · rename_i heq
      rw [← heq, hget, map_some, map_some, hcore]
    · rfl
  others id k hk hne := by
    show (store.byId.set n.id n).get id = some k
    rw [get_set_of_ne]
    · exact hk
    rintro rfl
    rw [hget] at hk
    rw [← some.inj hk, ← (core_eq hcore).2.1] at hne
    exact hne hrec

theorem mem_listForRecipient (h : Indexed store) (hn : n ∈ store.listForRecipient recipient) :
    store.byId.get n.id = some n ∧ n.recipient = recipient := by
  rw [listForRecipient, mem_reverse, mem_filterMap] at hn
  obtain ⟨id, hid, hget⟩ := hn
  obtain ⟨m, hm, hrec⟩ := h.listed recipient id hid
  obtain rfl := some.inj (hm.symm.trans hget)
  rw [h.keyed id m hm]
  exact ⟨hm, hrec⟩

end Store

/-! ## Reading -/

section Reading

variable {s : NotificationService} {env : Env} {n : Notification}
  {recipient : String}

theorem read_marks {m : Notification} (now : Option Int)
    (hget : s.store.byId.get n.id = some m) (hcore : core n = core m)
    (hrec : n.recipient = recipient) : Marks recipient s.store (s.read now n).1.store := by
  rw [NotificationService.read]
  cases n.readAt with
  | some _ => exact Marks.refl recipient s.store
  | none =>
    cases isoText now with
    | error _ => exact Marks.refl recipient s.store
    | ok readAt => exact marks_write hget hcore hrec

theorem read_core {now : Option Int} {m : Notification}
    (h : (s.read now n).2 = .ok m) : core m = core n := by
  rw [NotificationService.read] at h
  cases hread : n.readAt with
  | some _ =>
    rw [hread] at h
    rw [← Except.ok.inj h]
  | none =>
    rw [hread] at h
    cases hiso : isoText now with
    | error thrown =>
      rw [hiso] at h
      cases h
    | ok readAt =>
      rw [hiso] at h
      cases h
      rfl

theorem getForRecipient_some {store : MemoryNotificationStore} {id : String}
    (h : store.getForRecipient recipient id = some n) :
    store.byId.get id = some n ∧ n.recipient = recipient := by
  obtain ⟨hget, hrec⟩ := filter_eq_some_iff.mp h
  exact ⟨hget, of_decide_eq_true hrec⟩

theorem markRead_marks (h : Indexed s.store) (id : String) :
    Marks recipient s.store (s.markRead env recipient id).1.store := by
  rw [markRead]
  cases hfind : s.store.getForRecipient recipient id with
  | none => exact Marks.refl recipient s.store
  | some n =>
    obtain ⟨hget, hrec⟩ := getForRecipient_some hfind
    have hid := h.keyed id n hget
    exact read_marks _ (hid ▸ hget) rfl hrec

theorem markEach_marks {listed : List Notification} {changed : Nat}
    (h : ∀ n ∈ listed, n.recipient = recipient
      ∧ ∃ m, s.store.byId.get n.id = some m ∧ core n = core m) : Marks recipient s.store
      (markEach env s listed changed).1.store := by
  induction listed generalizing s changed with
  | nil => exact Marks.refl recipient s.store
  | cons n rest ih =>
    obtain ⟨hrec, m, hget, hcore⟩ := h n (.head _)
    have hmarks := read_marks (env.now changed) hget hcore hrec
    rw [markEach]
    generalize s.read (env.now changed) n = read at hmarks ⊢
    obtain ⟨s', reply⟩ := read
    cases reply with
    | error thrown => exact hmarks
    | ok _ =>
      refine hmarks.trans (ih fun k hk => ?_)
      obtain ⟨hrec', m', hget', hcore'⟩ := h k (mem_cons_of_mem n hk)
      obtain ⟨m'', hget'', hcore''⟩ := hmarks.after hget'
      exact ⟨hrec', m'', hget'', hcore'.trans hcore''.symm⟩

theorem markAllRead_marks (h : Indexed s.store) :
    Marks recipient s.store (s.markAllRead env recipient).1.store := by
  refine markEach_marks fun n hn => ?_
  obtain ⟨hget, hrec⟩ := mem_listForRecipient h hn
  exact ⟨hrec, n, hget, rfl⟩

theorem mem_list (h : Indexed s.store) {query : NotificationQuery}
    (hn : n ∈ (s.list recipient query).notifications) : n.recipient = recipient := by
  have hmem := mem_of_mem_take (mem_of_mem_drop hn)
  split at hmem
  · exact (mem_listForRecipient h (mem_filter.mp hmem).1).2
  · exact (mem_listForRecipient h hmem).2

/-- **A RECIPIENT READS ONLY ITS OWN NOTIFICATIONS**. -/
theorem isolated {t : Trace} {c : Op × Env} (h : Indexed t.service.store) : Isolated t c := by
  obtain ⟨op, env⟩ := c
  constructor
  · intro recipient hreader n hn
    cases op with
    | list r query =>
      rw [← some.inj hreader]
      exact mem_list h hn
    | markRead r id =>
      rw [← some.inj hreader]
      rw [shown] at hn
      split at hn
      · rename_i m hreply
        rw [mem_singleton.mp hn]
        rw [markRead] at hreply
        cases hfind : t.service.store.getForRecipient r id with
        | none =>
          rw [hfind] at hreply
          cases hreply
        | some k =>
          rw [hfind] at hreply
          obtain ⟨hget, hrec⟩ := getForRecipient_some hfind
          dsimp only [Prod.map] at hreply
          cases hread : (t.service.read (env.now 0) k).2 with
          | error thrown =>
            rw [hread] at hreply
            cases hreply
          | ok m' =>
            rw [hread] at hreply
            have heq : m' = m := some.inj (Except.ok.inj hreply)
            rw [← heq, (core_eq (read_core hread)).2.1, hrec]
      · cases hn
    | markAllRead r => cases hn
    | _ => cases hreader
  · intro recipient hreader id n hget hne
    cases op with
    | list r query => exact hget
    | markRead r id' =>
      rw [← some.inj hreader] at hne
      exact (markRead_marks h id').others id n hget hne
    | markAllRead r =>
      rw [← some.inj hreader] at hne
      exact (markAllRead_marks h).others id n hget hne
    | _ => cases hreader

end Reading

/-! ## Emitting -/

/-- **MANDATORY EVENTS ARE DELIVERED**: whatever the preferences. -/
theorem mandatory_delivers {type : NotificationType} (h : getNotificationUrgency type = .mandatory)
    (prefs : RecipientNotificationPreferences) :
    (evaluateNotificationRouting type prefs).deliver = true := by
  rw [evaluateNotificationRouting, h]

theorem validateNotification_id {n : Notification}
    (h : validateNotification n = .ok ()) : n.id ≠ "" := by
  intro hid
  rw [validateNotification, hid] at h
  cases h

/-- **AN EMISSION OF A MANDATORY EVENT**: a call that fails its checks throws
    and stores nothing; one that passes them is answered with the
    notification of its key, which it adds if there was none. -/
theorem notify_spec (s : NotificationService) (env : Env) (input : EmitInput)
    (hindexed : Indexed s.store) (hmandatory : getNotificationUrgency input.type = .mandatory) :
    (passes env input = false ∧ (∃ thrown, (s.notify env input).2 = .error thrown)
        ∧ (s.notify env input).1.store = s.store) ∨ (passes env input = true ∧ ∃ n,
        (s.notify env input).2 = .ok (some n) ∧ n.dedupKey = input.dedupKey
        ∧ ((s.notify env input).1.store = s.store ∧ s.store.byId.get n.id = some n
          ∨ (s.notify env input).1.store = s.store.add n ∧ s.store.byDedup.get n.dedupKey = none
            ∧ n.id = env.uuid ∧ n.id ≠ "")) := by
  rw [notify, emit, passes]
  cases hprefs : env.getPreferences input.recipient with
  | error thrown => exact .inl ⟨rfl, ⟨thrown, rfl⟩, rfl⟩
  | ok prefs =>
    dsimp only
    rw [mandatory_delivers hmandatory]
    cases hfirst : isoText (env.now 0) with
    | error thrown => exact .inl ⟨rfl, ⟨thrown, rfl⟩, rfl⟩
    | ok evaluatedAt =>
      cases hsecond : isoText (env.now 1) with
      | error thrown => exact .inl ⟨rfl, ⟨thrown, rfl⟩, rfl⟩
      | ok createdAt =>
        dsimp only [recordAudit]
        rw [Bool.not_true, if_neg Bool.false_ne_true, MemoryNotificationStore.insert]
        generalize hn : notificationOf env input
          (evaluateNotificationRouting input.type prefs) createdAt = n
        have hid : n.id = env.uuid := by
          rw [← hn]
          rfl
        have hkey : n.dedupKey = input.dedupKey := by
          rw [← hn]
          rfl
        cases hvalid : validateNotification n with
        | error thrown => exact .inl ⟨rfl, ⟨thrown, rfl⟩, rfl⟩
        | ok _ =>
          refine .inr ⟨rfl, ?_⟩
          dsimp only
          rw [existingId_eq hindexed]
          cases hdedup : s.store.byDedup.get n.dedupKey with
          | none =>
            refine ⟨n, rfl, hkey, .inr ⟨rfl, hdedup, hid, ?_⟩⟩
            exact validateNotification_id hvalid
          | some existing =>
            obtain ⟨m, hget, hmkey⟩ := hindexed.found n.dedupKey existing hdedup
            refine ⟨m, ?_, hmkey.trans hkey, .inl ⟨rfl, ?_⟩⟩
            · show Except.ok (s.store.byId.get existing) = _
              rw [hget]
            rw [hindexed.keyed existing m hget]
            exact hget

/-! ## The step of a run -/

theorem step_cases (t : Trace) (c : Op × Env) :
    (∃ event input, emission t.calls c = some (event, input) ∧ reader c.1 = none
        ∧ getNotificationUrgency input.type = .mandatory ∧ input.dedupKey = event.dedupKey
        ∧ (∀ r at_ call, event = .alert r at_ call → call = t.calls)
        ∧ step t c = t.answered (some event) (t.service.notify c.2 input))
      ∨ emission t.calls c = none ∧ (step t c).log = t.log ∧ (step t c).calls = t.calls + 1
        ∧ ((step t c).service = t.service ∨ ∃ recipient, Indexed t.service.store →
            Marks recipient t.service.store (step t c).service.store) := by
  obtain ⟨op, env⟩ := c
  cases op with
  | syncInvoiceNotifications invoice =>
    cases hstatus : terminal invoice.status with
    | none =>
      have hstep : step t (.syncInvoiceNotifications invoice, env)
          = { t with calls := t.calls + 1 } := by
        rw [step]
        dsimp only
        rw [syncInvoiceNotifications, hstatus]
        rfl
      refine .inr ⟨?_, ?_, ?_, Or.inl ?_⟩
      · rw [emission]
        dsimp only
        rw [hstatus]
        rfl
      all_goals rw [hstep]
    | some status =>
      refine .inl ⟨.lifecycle invoice.id status,
        lifecycleInput invoice status, ?_, rfl, ?_, rfl, ?_, ?_⟩
      · rw [emission]
        dsimp only
        rw [hstatus]
        rfl
      · cases status <;> rfl
      · intro r at_ call heq
        cases heq
      rw [step]
      dsimp only
      rw [syncInvoiceNotifications, hstatus]
      rfl
  | notifyPaymentRejected invoice code txHash =>
    cases hcode : recoverable code with
    | false =>
      have hstep : step t (.notifyPaymentRejected invoice code txHash, env)
          = { t with calls := t.calls + 1 } := by
        rw [step]
        dsimp only
        rw [notifyPaymentRejected, rejectedEvent, hcode]
        rfl
      refine .inr ⟨?_, ?_, ?_, Or.inl ?_⟩
      · rw [emission]
        dsimp only
        rw [rejectedEvent, hcode]
        rfl
      all_goals rw [hstep]
    | true =>
      refine .inl ⟨.rejected invoice.id txHash code,
        rejectedInput invoice code txHash, ?_, rfl, rfl, rfl, ?_, ?_⟩
      · rw [emission]
        dsimp only
        rw [rejectedEvent, hcode]
        rfl
      · intro r at_ call heq
        cases heq
      rw [step]
      dsimp only
      rw [notifyPaymentRejected, rejectedEvent, hcode]
      rfl
  | notifySecurityAlert recipient title message data =>
    refine .inl ⟨.alert recipient env.dateNow t.calls,
      alertInput env recipient title message data, rfl, rfl, rfl, rfl, ?_,
      rfl⟩
    intro r at_ call heq
    injection heq with _ _ hcall
    exact hcall.symm
  | list recipient query => exact .inr ⟨rfl, rfl, rfl, .inl rfl⟩
  | markRead recipient id =>
    refine .inr ⟨rfl, rfl, rfl, .inr ⟨recipient, fun h => ?_⟩⟩
    exact markRead_marks h id
  | markAllRead recipient =>
    refine .inr ⟨rfl, rfl, rfl, .inr ⟨recipient, fun h => ?_⟩⟩
    exact markAllRead_marks h

/-- What every run keeps: the store is an index, each answered event leads to
    its notification by its key, and what is stored was answered. -/
structure Inv (t : Trace) : Prop where
  indexed : Indexed t.service.store
  found : ∀ event reply, (event, reply) ∈ t.log → ∃ id, reply = some id
    ∧ t.service.store.byDedup.get event.dedupKey = some id
  onto : ∀ id n, t.service.store.byId.get id = some n →
    ∃ event, (event, some id) ∈ t.log
  past : ∀ r at_ call reply, (.alert r at_ call, reply) ∈ t.log →
    call < t.calls

theorem Inv.new : Inv .new where
  indexed := Indexed.new
  found _ _ h := nomatch h
  onto _ _ h := nomatch h
  past _ _ _ _ h := nomatch h

/-- No two notified events clash. -/
def NoClash (t : Trace) : Prop :=
  ∀ entry ∈ t.log, ∀ entry' ∈ t.log, ¬ Clash entry.1 entry'.1

variable {event event' : LogicalEvent}

theorem Clash.symm (h : Clash event event') : Clash event' event := by
  cases event with
  | lifecycle _ _ => exact h.elim
  | rejected _ _ _ =>
    cases event' with
    | rejected _ _ _ => exact ⟨h.1.symm, h.2.1.symm, h.2.2.symm⟩
    | _ => exact h.elim
  | alert _ _ _ =>
    cases event' with
    | alert _ _ _ => exact ⟨h.1.symm, h.2.1.symm, h.2.2.symm⟩
    | _ => exact h.elim

theorem Clash.ne (h : Clash event event') : event ≠ event' := by
  rintro rfl
  cases event with
  | lifecycle _ _ => exact h
  | rejected _ _ _ => exact h.2.1 rfl
  | alert _ _ _ => exact h.2.2 rfl

section Step

variable {t : Trace} {c : Op × Env}

/-- Under the invariant, the correspondence is the absence of clashes. -/
theorem oneToOne_iff (h : Inv t) : OneToOne t ↔ NoClash t := by
  constructor
  · rintro hone ⟨event, reply⟩ hmem ⟨event', reply'⟩ hmem' hclash
    have hkey := (dedupKey_eq_iff event event').mpr (.inr hclash)
    obtain ⟨id, rfl, hid⟩ := h.found event reply hmem
    obtain ⟨id', rfl, hid'⟩ := h.found event' reply' hmem'
    rw [hkey, hid'] at hid
    have heq : event = event' := (hone.same _ _ _ _ hmem hmem').mpr hid.symm
    exact hclash.ne heq
  · intro hclear
    refine ⟨fun event reply hmem => ?_, ?_, h.onto⟩
    · obtain ⟨id, hreply, hid⟩ := h.found event reply hmem
      obtain ⟨n, hget, -⟩ := h.indexed.found _ id hid
      exact ⟨id, n, hreply, hget⟩
    intro event reply event' reply' hmem hmem'
    obtain ⟨id, rfl, hid⟩ := h.found event reply hmem
    obtain ⟨id', rfl, hid'⟩ := h.found event' reply' hmem'
    constructor
    · rintro rfl
      exact hid.symm.trans hid'
    intro heq
    -- one notification has one key
    obtain ⟨n, hget, hkey⟩ := h.indexed.found _ id hid
    obtain ⟨n', hget', hkey'⟩ := h.indexed.found _ id' hid'
    rw [some.inj heq, hget'] at hget
    rw [← some.inj hget, hkey'] at hkey
    rcases (dedupKey_eq_iff event event').mp hkey.symm with hsame | hclash
    · exact hsame
    · exact absurd hclash (hclear _ hmem _ hmem')

/-- A call keeps the invariant if the store forgets no key, and what is new
    in the log is answered by its key, and names what is new in the store. -/
theorem Inv.extended {t' : Trace} {new : List (LogicalEvent × Option String)} (h : Inv t)
    (hlog : t'.log = t.log ++ new) (hcalls : t'.calls = t.calls + 1)
    (hindexed : Indexed t'.service.store)
    (hkept : ∀ key id, t.service.store.byDedup.get key = some id →
      t'.service.store.byDedup.get key = some id) (hfound : ∀ entry ∈ new, ∃ id, entry.2 = some id
      ∧ t'.service.store.byDedup.get entry.1.dedupKey = some id)
    (honto : ∀ id m, t'.service.store.byId.get id = some m →
      (∃ m', t.service.store.byId.get id = some m') ∨ ∃ event, (event, some id) ∈ new)
    (hcall : ∀ entry ∈ new, ∀ r at_ call, entry.1 = .alert r at_ call → call = t.calls) :
    Inv t' where
  indexed := hindexed
  found event reply hmem := by
    rw [hlog] at hmem
    rcases mem_append.mp hmem with hold | hnew
    · obtain ⟨id, hreply, hid⟩ := h.found event reply hold
      exact ⟨id, hreply, hkept _ id hid⟩
    · exact hfound _ hnew
  onto id m hget := by
    rw [hlog]
    rcases honto id m hget with ⟨m', hold⟩ | ⟨event, hnew⟩
    · obtain ⟨event, hmem⟩ := h.onto id m' hold
      exact ⟨event, mem_append_left _ hmem⟩
    · exact ⟨event, mem_append_right _ hnew⟩
  past r at_ call reply hmem := by
    rw [hlog] at hmem
    rw [hcalls]
    rcases mem_append.mp hmem with hold | hnew
    · exact (h.past r at_ call reply hold).trans (lt_succ_self _)
    rw [hcall _ hnew r at_ call rfl]
    exact lt_succ_self _

/-- Reading keeps the invariant. -/
theorem Inv.marks {t' : Trace} {recipient : String} (h : Inv t)
    (hm : Marks recipient t.service.store t'.service.store)
    (hlog : t'.log = t.log) (hcalls : t'.calls = t.calls + 1) : Inv t' := by
  refine h.extended (hlog.trans (append_nil _).symm) hcalls (h.indexed.marks hm) ?_ nofun ?_ nofun
  · intro key id hid
    rw [hm.byDedup]
    exact hid
  intro id m hget
  obtain ⟨m', hm', -⟩ := hm.before hget
  exact .inl ⟨m', hm'⟩

/-- **A CALL THAT EMITS**: what it adds to the log, and the invariant. -/
theorem answered_spec {event : LogicalEvent} {input : EmitInput}
    (h : Inv t) (hfresh : t.service.store.byId.get c.2.uuid = none)
    (hmandatory : getNotificationUrgency input.type = .mandatory)
    (hkey : input.dedupKey = event.dedupKey)
    (hcall : ∀ r at_ call, event = .alert r at_ call → call = t.calls) :
    Inv (t.answered (some event) (t.service.notify c.2 input))
      ∧ ((t.answered (some event) (t.service.notify c.2 input)).log = t.log
          ∧ passes c.2 input = false ∨ ∃ id, (t.answered (some event)
            (t.service.notify c.2 input)).log = t.log ++ [(event, some id)]
          ∧ passes c.2 input = true) := by
  have hspec := notify_spec t.service c.2 input h.indexed hmandatory
  generalize t.service.notify c.2 input = reply at hspec ⊢
  rcases hspec with ⟨hfails, ⟨thrown, hreply⟩, hstore⟩ | ⟨hpasses, n, hreply, hnkey, hcases⟩
  · have hlog : (t.answered (some event) reply).log = t.log := answered_log_error hreply
    have hservice : (t.answered (some event) reply).service.store = t.service.store := hstore
    refine ⟨h.extended (hlog.trans (append_nil _).symm) rfl ?_ ?_ nofun ?_ nofun,
      .inl ⟨hlog, hfails⟩⟩
    all_goals rw [hservice]
    · exact h.indexed
    · exact fun _ _ hid => hid
    · exact fun id m hm => .inl ⟨m, hm⟩
  have hlog : (t.answered (some event) reply).log = t.log ++ [(event, some n.id)] :=
    answered_log_ok hreply
  have hnkey' : n.dedupKey = event.dedupKey := hnkey.trans hkey
  have hnew : ∀ entry ∈ [(event, some n.id)], ∀ r at_ call,
      entry.1 = .alert r at_ call → call = t.calls := by
    intro entry hmem
    rw [mem_singleton.mp hmem]
    exact hcall
  have hfound : reply.1.store.byDedup.get event.dedupKey = some n.id →
      ∀ entry ∈ [(event, some n.id)], ∃ id, entry.2 = some id
        ∧ reply.1.store.byDedup.get entry.1.dedupKey = some id := by
    intro hid entry hmem
    rw [mem_singleton.mp hmem]
    exact ⟨n.id, rfl, hid⟩
  rcases hcases with ⟨hstore, hget⟩ | ⟨hstore, hnone, huuid, hid⟩
  · -- the notification was there
    have hservice : (t.answered (some event) reply).service.store = t.service.store := hstore
    refine ⟨h.extended hlog rfl ?_ ?_ (hfound ?_) ?_ hnew, .inr ⟨n.id, hlog, hpasses⟩⟩
    · rw [hservice]
      exact h.indexed
    · rw [hservice]
      exact fun _ _ hid => hid
    · rw [hstore, ← hnkey']
      exact h.indexed.dedup n.id n hget
    rw [hservice]
    exact fun id m hm => .inl ⟨m, hm⟩
  · -- the notification is new
    have hservice : (t.answered (some event) reply).service.store = t.service.store.add n := hstore
    refine ⟨h.extended hlog rfl ?_ ?_ (hfound ?_) ?_ hnew, .inr ⟨n.id, hlog, hpasses⟩⟩
    · rw [hservice]
      exact h.indexed.add (huuid ▸ hfresh) hnone hid
    · intro key id hold
      rw [hservice]
      show (t.service.store.byDedup.set n.dedupKey n.id).get key = some id
      rw [get_set, if_neg]
      · exact hold
      rintro rfl
      cases hnone.symm.trans hold
    · rw [hstore]
      show (t.service.store.byDedup.set n.dedupKey n.id).get _ = some n.id
      rw [get_set, if_pos hnkey']
    intro id m hm
    rw [hservice] at hm
    change (t.service.store.byId.set n.id n).get id = some m at hm
    rw [get_set] at hm
    split at hm
    · next heq =>
      rw [heq]
      exact .inr ⟨event, .head _⟩
    · exact .inl ⟨m, hm⟩

/-- **THE STEP**: a call keeps the invariant, and keeps the notified events
    free of clashes exactly if it is clear. -/
theorem step_spec (h : Inv t) (hfresh : Fresh t c) (hclash : NoClash t) :
    Inv (step t c) ∧ (NoClash (step t c) ↔ Clear t c) := by
  rcases step_cases t c with
    ⟨event, input, hemission, hreader, hmandatory, hkey, hcall, hstep⟩
      | ⟨hemission, hlog, hcalls, hservice⟩
  · have hnone : t.service.store.byId.get c.2.uuid = none :=
      isSome_eq_false_iff.mp (hfresh hreader) |>
        isNone_iff_eq_none.mp
    obtain ⟨hinv, hlog⟩ := answered_spec h hnone hmandatory hkey hcall
    rw [hstep]
    refine ⟨hinv, ?_⟩
    have hclearIff : Clear t c ↔ (passes c.2 input = true →
        ∀ entry ∈ t.log, ¬ Clash event entry.1) := by
      rw [Clear, hemission]
      constructor
      · intro h
        exact h (event, input) rfl
      rintro h emitted hmem
      rw [← some.inj hmem]
      exact h
    rw [hclearIff]
    rcases hlog with ⟨hlog, hfails⟩ | ⟨id, hlog, hpasses⟩
    · rw [NoClash, hlog, hfails]
      exact iff_of_true hclash nofun
    rw [NoClash, hlog]
    constructor
    · intro hno _ entry hmem
      exact hno (event, some id) (by simp) entry (by simp [hmem])
    intro hclear entry hmem entry' hmem'
    have hnew := hclear hpasses
    rw [mem_append, mem_singleton] at hmem hmem'
    rcases hmem with hold | rfl
    · rcases hmem' with hold' | rfl
      · exact hclash entry hold entry' hold'
      · exact fun hc => hnew entry hold hc.symm
    rcases hmem' with hold' | rfl
    · exact hnew entry' hold'
    · exact fun hc => hc.ne rfl
  · have hclear : Clear t c := by
      rw [Clear, hemission]
      exact fun _ hmem => nomatch hmem
    have hno : NoClash (step t c) := by
      rw [NoClash, hlog]
      exact hclash
    refine ⟨?_, iff_of_true hno hclear⟩
    rcases hservice with hsame | ⟨recipient, hmarks⟩
    · have hmarks : Marks "" t.service.store (step t c).service.store := by
        rw [hsame]
        exact Marks.refl "" t.service.store
      exact h.marks hmarks hlog hcalls
    · exact h.marks (hmarks h.indexed) hlog hcalls

end Step

/-- **CRITICAL EVENTS NOTIFY EXACTLY ONCE**: in every run with fresh ids, the
    stored notifications are one for each event after every call, and reading
    stays within one recipient, if and only if no two notified events
    clash. -/
theorem notified_once_iff (calls : List (Op × Env))
    (hfresh : Along step Fresh .new calls) :
    Along step (fun t c => OneToOne (step t c) ∧ Isolated t c) .new calls
      ↔ Along step Clear .new calls := by
  have hstart : NoClash .new := nofun
  have hinv := Inv.new
  generalize Trace.new = t at hfresh hstart hinv ⊢
  induction calls generalizing t with
  | nil => exact Iff.rfl
  | cons c calls ih =>
    obtain ⟨hnext, hiff⟩ := step_spec hinv hfresh.1 hstart
    show (OneToOne (step t c) ∧ Isolated t c) ∧ _ ↔ Clear t c ∧ _
    rw [oneToOne_iff hnext, and_iff_left (isolated hinv.indexed), hiff]
    exact and_congr_right fun hclear => ih (step t c) hfresh.2 (hiff.mpr hclear) hnext

/-! ## Two alerts of one millisecond -/

/-- The address of the all-zero key. -/
def sampleSeller : String :=
  "GAAAAAAAAAAAAAAAAAAAAAAAAAAAAAAAAAAAAAAAAAAAAAAAAAAAAWHF"

/-- The default preferences and one instant for every clock. -/
def sampleEnv (uuid : String) (now : Int) : Env where
  uuid := uuid
  auditUuid := "audit-" ++ uuid
  getPreferences recipient := .ok ⟨recipient, fun _ => true,
    fun category => decide (category ≠ .marketingDigest)⟩
  now _ := some now
  dateNow := now

def sampleInvoice (status : InvoiceStatus) : StoredInvoice where
  id := "inv-1"
  sellerPublicKey := sampleSeller
  amount := 10
  assetCode := "XLM"
  memo := "INV-1"
  status := status
  createdAt := 0
  expiresAt := 1000

/-- A payment seen twice, an alert, a read and a later alert. -/
def sampleCalls : List (Op × Env) :=
  [(.syncInvoiceNotifications (sampleInvoice .paid), sampleEnv "1" 6),
    (.syncInvoiceNotifications (sampleInvoice .paid), sampleEnv "2" 6),
    (.notifySecurityAlert sampleSeller "Device" "New device." .empty,
      sampleEnv "3" 7),
    (.markRead sampleSeller "1", sampleEnv "" 8),
    (.notifySecurityAlert sampleSeller "Device" "New device." .empty,
      sampleEnv "4" 9)]

theorem notified_once_sample :
    Along step (fun t c => OneToOne (step t c) ∧ Isolated t c) .new
      sampleCalls := by
  have hboth : Along step (fun t c => Fresh t c ∧ Clear t c) .new
      sampleCalls := by decide +kernel
  have hfresh : Along step Fresh .new sampleCalls :=
    Along.imp (I := fun _ => True) (fun _ _ _ h => ⟨h.1, trivial⟩) trivial
      hboth
  have hclear : Along step Clear .new sampleCalls :=
    Along.imp (I := fun _ => True) (fun _ _ _ h => ⟨h.2, trivial⟩) trivial
      hboth
  exact (notified_once_iff sampleCalls hfresh).mpr hclear

/-- Two different alerts for one recipient within a millisecond. -/
def burst : List (Op × Env) :=
  [(.notifySecurityAlert sampleSeller "Device" "New device." .empty,
      sampleEnv "1" 7),
    (.notifySecurityAlert sampleSeller "Key" "Signer replaced." .empty,
      sampleEnv "2" 7)]

theorem burst_drops_alert :
    ¬ Along step (fun t c => OneToOne (step t c) ∧ Isolated t c) .new
      burst := by
  rintro ⟨-, ⟨hone, -⟩, -⟩
  have hlog : (burst.foldl step .new).log
      = [(.alert sampleSeller 7 0, some "1"),
        (.alert sampleSeller 7 1, some "1")] := by decide +kernel
  have hsame := (hone.same _ _ _ _
    (hlog ▸ mem_cons_self)
    (hlog ▸ mem_cons_of_mem _ mem_cons_self)).mpr rfl
  exact absurd hsame (by decide)

end Notifications

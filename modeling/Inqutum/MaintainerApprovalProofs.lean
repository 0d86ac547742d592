import Inqutum.InvoiceCursorProofs
import Inqutum.ScriptValueProofs
import Inqutum.Utf8Proofs

/-!
# Maintainer approvals

A maintainer declares an intent, another one may have to approve it, and
`execute` runs the action's executor once.  Every end of an intent leaves
a signed receipt, and each receipt carries the hash of the one before it.

A method returns or throws, and may have changed the service either way.
`execute` is two steps: up to the call of the executor, and from the point
where its promise is settled (`settle`); any other call can come between
them.  What a method draws from outside comes with its event: the clock
readings, the identifiers, the answer of the risk scorer.  A clock reading
is a time value, or none for an invalid date.

The digests, the redaction of an error text and the table of actions are
parameters.
-/

namespace Approval

open Canonical
open JsonText (Text ascii unit Tree)

/-! ## Actions and risk -/

/-- An action that needs a declared intent. -/
structure HighImpactActionSpec where
  action : Text
  description : Text
  requiresSecondApprover : Bool
  /-- How long an intent stays executable. -/
  ttlMs : JsNumber

/-- `HIGH_IMPACT_ACTIONS`. -/
def highImpactActions : List (Text × HighImpactActionSpec) :=
  [(ascii "job.requeue_dead",
    { action := ascii "job.requeue_dead"
      description := ascii
        "Requeue a dead-lettered job (may resend notifications / re-run verification)"
      requiresSecondApprover := false
      ttlMs := .ofNat (15 * 60000) }),
   (ascii "invoice.cancel",
    { action := ascii "invoice.cancel"
      description := ascii "Cancel a seller invoice on their behalf"
      requiresSecondApprover := true
      ttlMs := .ofNat (30 * 60000) })]

/-- `RiskLevel`. -/
inductive RiskLevel where
  | low
  | elevated
  | high
  | critical

def RiskLevel.text : RiskLevel → String
  | low => "low"
  | elevated => "elevated"
  | high => "high"
  | critical => "critical"

/-- What a risk score is made of. -/
inductive RiskFactorCode where
  | actionBaseline
  | requesterVelocity
  | targetRepetition
  | recentFailures

def RiskFactorCode.text : RiskFactorCode → String
  | actionBaseline => "ACTION_BASELINE"
  | requesterVelocity => "REQUESTER_VELOCITY"
  | targetRepetition => "TARGET_REPETITION"
  | recentFailures => "RECENT_FAILURES"

/-- One part of a score, with what was observed. -/
structure RiskFactor where
  code : RiskFactorCode
  weight : JsNumber
  observed : JsNumber
  allowance : JsNumber
  detail : Text

/-- What the scorer says of an intent. -/
structure RiskAssessment where
  policyVersion : Text
  score : JsNumber
  level : RiskLevel
  factors : List RiskFactor
  requiresSecondApprover : Bool
  blocked : Bool
  windowMs : JsNumber
  evaluatedAt : Text

/-- The factor as it is signed. -/
def RiskFactor.value (factor : RiskFactor) : JsValue :=
  .obj [(ascii "code", .str (ascii factor.code.text)), (ascii "weight", .number factor.weight),
    (ascii "observed", .number factor.observed),
    (ascii "allowance", .number factor.allowance),
    (ascii "detail", .str factor.detail)]

/-- The assessment as it is signed. -/
def RiskAssessment.value (risk : RiskAssessment) : JsValue :=
  .obj [(ascii "policyVersion", .str risk.policyVersion), (ascii "score", .number risk.score),
    (ascii "level", .str (ascii risk.level.text)),
    (ascii "factors", .arr (risk.factors.map RiskFactor.value)),
    (ascii "requiresSecondApprover", .bool risk.requiresSecondApprover),
    (ascii "blocked", .bool risk.blocked),
    (ascii "windowMs", .number risk.windowMs),
    (ascii "evaluatedAt", .str risk.evaluatedAt)]

/-- The assessment, `null` if scoring is disabled. -/
def riskValue : Option RiskAssessment → JsValue
  | none => .null
  | some risk => risk.value

/-! ## Intents and receipts -/

/-- The life of an intent. -/
inductive IntentStatus where
  | pending
  | approved
  | executing
  | succeeded
  | failed
  | rejected
  | expired
  deriving DecidableEq

def IntentStatus.text : IntentStatus → String
  | pending => "pending"
  | approved => "approved"
  | executing => "executing"
  | succeeded => "succeeded"
  | failed => "failed"
  | rejected => "rejected"
  | expired => "expired"

/-- The intent may still be approved, rejected or executed. -/
def IntentStatus.isOpen : IntentStatus → Bool
  | pending => true
  | approved => true
  | _ => false

/-- A declared intent, signed over its fields. -/
structure MaintainerIntent where
  id : Text
  action : Text
  target : Text
  reason : Text
  requestedBy : Text
  approvedBy : Option Text
  paramsHash : Text
  params : JsValue
  confirmationPhrase : Text
  /-- Dates are kept by their time values and written as ISO texts. -/
  createdAt : Int
  expiresAt : Int
  status : IntentStatus
  risk : Option RiskAssessment
  signature : Text

/-- `intent.status = status`. -/
def MaintainerIntent.withStatus (intent : MaintainerIntent)
    (status : IntentStatus) : MaintainerIntent :=
  { intent with status := status }

/-- The intent with its approver. -/
def MaintainerIntent.approvedAs (intent : MaintainerIntent) (approver : Text) : MaintainerIntent :=
  { intent with approvedBy := some approver, status := .approved }

/-- How an intent may end. -/
inductive ReceiptOutcome where
  | succeeded
  | failed
  | rejected
  | expired
  deriving DecidableEq

def ReceiptOutcome.text : ReceiptOutcome → String
  | succeeded => "succeeded"
  | failed => "failed"
  | rejected => "rejected"
  | expired => "expired"

/-- The status an ended intent has. -/
def ReceiptOutcome.status : ReceiptOutcome → IntentStatus
  | succeeded => .succeeded
  | failed => .failed
  | rejected => .rejected
  | expired => .expired

/-- `Omit<IntentReceipt, 'signature'>`. -/
structure ReceiptBody where
  id : Text
  intentId : Text
  action : Text
  target : Text
  reason : Text
  requestedBy : Text
  approvedBy : Option Text
  executedBy : Option Text
  paramsHash : Text
  outcome : ReceiptOutcome
  result : Tree
  error : Option Text
  intentSignature : Text
  risk : Option RiskAssessment
  issuedAt : Int
  prevReceiptHash : Option Text

/-- A receipt with its signature. -/
structure IntentReceipt extends ReceiptBody where
  signature : Text

/-- `date.toISOString()`. -/
def isoText (time : Int) : Text := (Cursors.toISOString time).map unit

/-- `{ ...body }`. -/
def ReceiptBody.members (body : ReceiptBody) : List (Text × JsValue) :=
  [ (ascii "id", .str body.id), (ascii "intentId", .str body.intentId),
    (ascii "action", .str body.action),
    (ascii "target", .str body.target),
    (ascii "reason", .str body.reason),
    (ascii "requestedBy", .str body.requestedBy),
    (ascii "approvedBy", nullable body.approvedBy),
    (ascii "executedBy", nullable body.executedBy),
    (ascii "paramsHash", .str body.paramsHash),
    (ascii "outcome", .str (ascii body.outcome.text)),
    (ascii "result", toValue body.result),
    (ascii "error", nullable body.error),
    (ascii "intentSignature", .str body.intentSignature),
    (ascii "risk", riskValue body.risk),
    (ascii "issuedAt", .str (isoText body.issuedAt)),
    (ascii "prevReceiptHash", nullable body.prevReceiptHash)]

/-- The signed receipt, as it is hashed. -/
def IntentReceipt.value (receipt : IntentReceipt) : JsValue :=
  .obj (receipt.members ++ [(ascii "signature", .str receipt.signature)])

/-! ## Errors -/

/-- `ApprovalErrorCode`; its texts are read by nothing here. -/
inductive ErrorCode where
  | unknownAction
  | requesterRequired
  | targetRequired
  | reasonRequired
  | riskBlocked
  | intentNotFound
  | intentTampered
  | intentExpired
  | invalidState
  | approverRequired
  | selfApproval
  | approvalRequired
  | confirmationMismatch
  | paramsChanged
  | noExecutor

/-- What is thrown: an approval error, another error, or a value that is no
    error. -/
inductive Fault where
  | approvalError (code : ErrorCode) (message : Text) (httpStatus : Nat)
  | error (message : Text)
  /-- A value with the text `String(value)` gives it, if that does not
      throw. -/
  | value (text : Option Text)

/-- `err instanceof Error ? err.message : String(err)`. -/
def Fault.message : Fault → Option Text
  | .approvalError _ message _ => some message
  | .error message => some message
  | .value text => text

/-- What `canonicalize` and `toISOString` throw. -/
def Fault.ofThrown : Thrown → Fault
  | .canonicalSerializationError _ message => .error (ascii message)
  | .rangeError message => .error (ascii message)

/-- What an executor's promise is resolved with. -/
inductive Resolved where
  | value (value : JsValue)
  /-- A value on which `JSON.stringify` throws: it has a cycle, or a `toJSON`
      or a getter that throws. -/
  | throwing (fault : Fault)

/-- `JSON.parse(JSON.stringify(result ?? null))`. -/
def Resolved.copy : Resolved → Except Fault Tree
  | throwing fault => .error fault
  | value .undefined => .ok .null
  | value v =>
    match jsonCopy v with
    | .error message => .error (.error (ascii message))
    | .ok none => .error (.error (ascii "\"undefined\" is not valid JSON"))
    | .ok (some copy) => .ok copy

/-! ## The service -/

/-- What the service is given. -/
structure Host where
  engine : Engine
  /-- The SHA-256 digest of a text, in hex. -/
  sha256 : Text → Text
  /-- The HMAC of a text under the service's secret, in hex. -/
  sign : Text → Text
  redactSecrets : Text → Text
  actions : List (Text × HighImpactActionSpec)

namespace Host

variable (host : Host)

/-- `canonicalize` with the errors of this service. -/
def canonicalJson (value : JsValue) : Except Fault Text :=
  (canonicalize host.engine value).mapError Fault.ofThrown

/-- `this.actions[action]`, an own property. -/
def spec (action : Text) : Option HighImpactActionSpec :=
  host.actions.lookup action

/-- What the signature of an intent covers. -/
def intentPayload (i : MaintainerIntent) : Except Fault Text :=
  host.canonicalJson (.obj [(ascii "id", .str i.id), (ascii "action", .str i.action),
    (ascii "target", .str i.target),
    (ascii "reason", .str i.reason),
    (ascii "requestedBy", .str i.requestedBy),
    (ascii "paramsHash", .str i.paramsHash),
    (ascii "createdAt", .str (isoText i.createdAt)),
    (ascii "expiresAt", .str (isoText i.expiresAt)),
    (ascii "risk", riskValue i.risk)])

/-- What the signature of a receipt covers. -/
def receiptPayload (r : ReceiptBody) : Except Fault Text :=
  host.canonicalJson (.obj r.members)

/-- Whether two texts are the same bytes. -/
def safeEqual (a b : Text) : Bool := decide (Utf8.encode a = Utf8.encode b)

/-- The signature holds, and the parameters have their hash. -/
def verifyIntent (intent : MaintainerIntent) : Except Fault Bool :=
  match host.intentPayload intent with
  | .error fault => .error fault
  | .ok payload =>
    if safeEqual intent.signature (host.sign payload) then
      (host.canonicalJson intent.params).map
        (fun text => safeEqual intent.paramsHash (host.sha256 text))
    else .ok false

/-- The signature holds. -/
def verifyReceipt (receipt : IntentReceipt) : Except Fault Bool :=
  (host.receiptPayload receipt.toReceiptBody).map
    (fun payload => safeEqual receipt.signature (host.sign payload))

/-- `sha256(canonicalJson(receipt))`. -/
def receiptHash (receipt : IntentReceipt) : Except Fault Text :=
  (host.canonicalJson receipt.value).map host.sha256

/-- The loop of `verifyReceiptChain`. -/
def verifyFrom : Option Text → Int → List IntentReceipt → Except Fault Int
  | _, _, [] => .ok (-1)
  | prev, i, r :: rest =>
    match host.verifyReceipt r with
    | .error fault => .error fault
    | .ok verified =>
      if !verified || r.prevReceiptHash ≠ prev then .ok i
      else
        match host.receiptHash r with
        | .error fault => .error fault
        | .ok hash => verifyFrom (some hash) (i + 1) rest

/-- The first broken index, or -1. -/
def verifyReceiptChain (receipts : List IntentReceipt) : Except Fault Int :=
  host.verifyFrom none 0 receipts

end Host

/-- `MaintainerApprovalService`. -/
structure Service where
  intents : InsertionMap Text MaintainerIntent
  receipts : List IntentReceipt
  /-- The actions with an executor. -/
  executors : List Text

/-- What issuing a receipt draws: an identifier and a clock reading. -/
structure Stamp where
  uuid : Text
  now : Option Int

/-- `this.intents.set(intent.id, intent)`. -/
def Service.store (s : Service) (intent : MaintainerIntent) : Service :=
  { s with intents := s.intents.set intent.id intent }

/-- `toISOString` throws on an invalid date. -/
def validDate : Option Int → Except Fault Int
  | none => .error (.error (ascii "Invalid time value"))
  | some time => .ok time

/-- The hash the next receipt carries. -/
def Service.prevReceiptHash (host : Host) (s : Service) :
    Except Fault (Option Text) :=
  match s.receipts.getLast? with
  | none => .ok none
  | some last => (host.receiptHash last).map some

/-- A receipt is built, chained to the last one, signed and kept. -/
def Service.issueReceipt (host : Host) (s : Service)
    (intent : MaintainerIntent) (outcome : ReceiptOutcome)
    (executedBy : Option Text) (result : Resolved) (error : Option Text)
    (stamp : Stamp) : Except Fault (IntentReceipt × Service) := do
  let copy ← result.copy
  let issuedAt ← validDate stamp.now
  let prevReceiptHash ← s.prevReceiptHash host
  let body : ReceiptBody :=
    { id := stamp.uuid
      intentId := intent.id
      action := intent.action
      target := intent.target
      reason := intent.reason
      requestedBy := intent.requestedBy
      approvedBy := intent.approvedBy
      executedBy := executedBy
      paramsHash := intent.paramsHash
      outcome := outcome
      result := copy
      error := error
      intentSignature := intent.signature
      risk := intent.risk
      issuedAt := issuedAt
      prevReceiptHash := prevReceiptHash }
  let payload ← host.receiptPayload body
  let receipt : IntentReceipt := { body with signature := host.sign payload }
  .ok (receipt, { s with receipts := s.receipts ++ [receipt] })

/-- An intent ends: its status is set, then its receipt is issued. -/
def Service.close (host : Host) (s : Service) (intent : MaintainerIntent)
    (outcome : ReceiptOutcome) (executedBy : Option Text) (result : Resolved)
    (error : Option Text) (stamp : Stamp) :
    Except Fault IntentReceipt × Service :=
  match (s.store (intent.withStatus outcome.status)).issueReceipt host
    (intent.withStatus outcome.status) outcome executedBy result error
    stamp with
  | .error fault => (.error fault, s.store (intent.withStatus outcome.status))
  | .ok (receipt, s') => (.ok receipt, s')

/-! ## Declaring an intent -/

/-- What a maintainer declares. -/
structure IntentInput where
  action : Text
  target : Option Text
  reason : Option Text
  requestedBy : Option Text
  params : Option JsValue

/-- What declaring an intent draws: the clock, the scorer's assessment, an
    identifier, and a stamp for a receipt. -/
structure Declaration where
  created : Option Int
  risk : Except Fault (Option RiskAssessment)
  uuid : Text
  stamp : Stamp

/-- The signed intent, up to where it is stored. -/
def declare (host : Host) (input : IntentInput) (draw : Declaration) :
    Except Fault MaintainerIntent :=
  match host.spec input.action with
  | none => .error (.approvalError .unknownAction
      (ascii "Unknown high-impact action " ++ input.action) 400)
  | some spec =>
    let requestedBy := trim (input.requestedBy.getD [])
    let target := trim (input.target.getD [])
    let reason := trim (input.reason.getD [])
    if requestedBy = [] then
      .error (.approvalError .requesterRequired (ascii "requestedBy is required") 400)
    else if target = [] then
      .error (.approvalError .targetRequired (ascii "target is required") 400)
    else if reason.length < 10 then
      .error (.approvalError .reasonRequired
        (ascii "reason must explain the action (min 10 chars)") 400)
    else do
      let params := input.params.getD (.obj [])
      let risk ← draw.risk
      let text ← host.canonicalJson params
      let createdAt ← validDate draw.created
      let expiresAt ← validDate (timeClip (.add (.finite createdAt) spec.ttlMs))
      let intent : MaintainerIntent :=
        { id := draw.uuid
          action := spec.action
          target := target
          reason := reason
          requestedBy := requestedBy
          approvedBy := none
          paramsHash := host.sha256 text
          params := params
          confirmationPhrase := spec.action ++ unit ' ' :: target
          createdAt := createdAt
          expiresAt := expiresAt
          status := .pending
          risk := risk
          signature := [] }
      let payload ← host.intentPayload intent
      .ok { intent with signature := host.sign payload }

/-- `risk.factors.map((f) => f.code).join(', ')`. -/
def RiskAssessment.codes (risk : RiskAssessment) : String :=
  ", ".intercalate (risk.factors.map (fun f => f.code.text))

/-- The error text of the receipt of a refused intent. -/
def RiskAssessment.refusal (risk : RiskAssessment) : Text :=
  ascii "Refused by risk policy " ++ risk.policyVersion
    ++ ascii (": score " ++ risk.score.toText ++ " (" ++ risk.codes ++ ")")

/-- The error of a declaration the scorer refuses. -/
def riskBlocked (risk : RiskAssessment) (receipt : IntentReceipt) : Fault :=
  let minutes := (JsNumber.round (.div risk.windowMs (.ofNat 60000))).toText
  .approvalError .riskBlocked (ascii ("Risk score " ++ risk.score.toText ++ " (" ++ risk.level.text
      ++ ") exceeds policy: " ++ risk.codes ++ ". Wait " ++ minutes
      ++ " min without new attempts and declare again. Receipt ")
      ++ receipt.id) 403

/-- The assessment that refuses an intent, if it does. -/
def MaintainerIntent.blockedBy (intent : MaintainerIntent) :
    Option RiskAssessment :=
  intent.risk.filter (fun risk => risk.blocked)

namespace Service

/-- A refused intent is never stored as open: it ends at once. -/
def requestIntent (host : Host) (s : Service) (input : IntentInput)
    (draw : Declaration) : Except Fault MaintainerIntent × Service :=
  match declare host input draw with
  | .error fault => (.error fault, s)
  | .ok intent =>
    match intent.blockedBy with
    | none => (.ok intent, s.store intent)
    | some risk =>
      match s.close host intent .rejected none (.value .null) (some risk.refusal) draw.stamp with
      | (.error fault, s') => (.error fault, s')
      | (.ok receipt, s') => (.error (riskBlocked risk receipt), s')

/-! ## The other methods -/

/-- `this.now() >= new Date(intent.expiresAt)`, of an intent that is open. -/
def lapsed (intent : MaintainerIntent) (now : Option Int) : Bool :=
  intent.status.isOpen && now.any (fun time => decide (intent.expiresAt ≤ time))

/-- The stored intent; one that has lapsed is closed here. -/
def load (host : Host) (s : Service) (id : Text) (now : Option Int)
    (stamp : Stamp) : Except Fault MaintainerIntent × Service :=
  match s.intents.get id with
  | none => (.error (.approvalError .intentNotFound (ascii "Intent not found") 404), s)
  | some intent =>
    match host.verifyIntent intent with
    | .error fault => (.error fault, s)
    | .ok false => (.error (.approvalError .intentTampered
        (ascii "Intent signature does not verify") 409), s)
    | .ok true =>
      if lapsed intent now then
        match s.close host intent .expired none (.value .null)
          (some (ascii "Intent expired before execution")) stamp with
        | (.error fault, s') => (.error fault, s')
        | (.ok _, s') => (.error (.approvalError .intentExpired
            (ascii "Intent expired; declare a new one") 410), s')
      else (.ok intent, s)

/-- The error of a call that comes too late. -/
def invalidState (intent : MaintainerIntent) : Fault :=
  .approvalError .invalidState (ascii ("Intent is " ++ intent.status.text)) 409

/-- Another maintainer approves; the requester may not. -/
def approve (host : Host) (s : Service) (id : Text)
    (approverId : Option Text) (now : Option Int) (stamp : Stamp) :
    Except Fault MaintainerIntent × Service :=
  match s.load host id now stamp with
  | (.error fault, s') => (.error fault, s')
  | (.ok intent, s') =>
    if intent.status ≠ .pending then (.error (invalidState intent), s')
    else if trim (approverId.getD []) = [] then
      (.error (.approvalError .approverRequired (ascii "approverId is required") 400), s')
    else if trim (approverId.getD []) = intent.requestedBy then
      (.error (.approvalError .selfApproval
        (ascii "A different maintainer must approve this action") 403), s')
    else
      (.ok (intent.approvedAs (trim (approverId.getD []))),
        s'.store (intent.approvedAs (trim (approverId.getD []))))

/-- `String(why || 'rejected')`. -/
def rejection (why : Option Text) : Text :=
  match why with
  | some (c :: rest) => c :: rest
  | _ => ascii "rejected"

/-- An open intent ends without being run. -/
def reject (host : Host) (s : Service) (id maintainerId : Text)
    (why : Option Text) (now : Option Int) (stamp : Stamp) :
    Except Fault IntentReceipt × Service :=
  match s.load host id now stamp with
  | (.error fault, s') => (.error fault, s')
  | (.ok intent, s') =>
    if !intent.status.isOpen then (.error (invalidState intent), s')
    else
      s'.close host intent .rejected (some maintainerId) (.value .null)
        (some (host.redactSecrets (rejection why))) stamp

/-- What the caller of `execute` repeats. -/
structure ExecuteInput where
  executedBy : Text
  confirmation : Option Text
  params : Option JsValue

/-- `spec.requiresSecondApprover || intent.risk?.requiresSecondApprover`. -/
def needsSecondApprover (spec : HighImpactActionSpec) (intent : MaintainerIntent) : Bool :=
  spec.requiresSecondApprover
    || intent.risk.any (fun risk => risk.requiresSecondApprover)

/-- The intent may be executed as it stands. -/
def ready (spec : HighImpactActionSpec) (intent : MaintainerIntent) : Bool :=
  if needsSecondApprover spec intent then intent.status = .approved
  else intent.status.isOpen

/-- The error that says what an intent still needs. -/
def notReady (intent : MaintainerIntent) : Fault :=
  if intent.status = .pending then
    .approvalError .approvalRequired (ascii "This action needs a second maintainer approval") 409
  else invalidState intent

/-- The check of the parameters a caller repeats. -/
def sameParams (host : Host) (intent : MaintainerIntent) : Option JsValue → Except Fault Bool
  | none => .ok true
  | some params => (host.canonicalJson params).map
      (fun text => decide (host.sha256 text = intent.paramsHash))

/-- `execute` up to the call of the executor, which gets the intent that is
    returned. -/
def execute (host : Host) (s : Service) (id : Text) (input : ExecuteInput)
    (now : Option Int) (stamp : Stamp) :
    Except Fault MaintainerIntent × Service :=
  match s.load host id now stamp with
  | (.error fault, s') => (.error fault, s')
  | (.ok intent, s') =>
    match host.spec intent.action with
    | none => (.error (.error (ascii
        "Cannot read properties of undefined (reading 'requiresSecondApprover')")),
        s')
    | some spec =>
      if !ready spec intent then (.error (notReady intent), s')
      else if input.confirmation.getD [] ≠ intent.confirmationPhrase then
        (.error (.approvalError .confirmationMismatch
          (ascii "Type \"" ++ intent.confirmationPhrase ++ ascii "\" to confirm") 400), s')
      else
        match sameParams host intent input.params with
        | .error fault => (.error fault, s')
        | .ok false => (.error (.approvalError .paramsChanged (ascii
            "Params differ from the declared intent; declare a new intent")
            409), s')
        | .ok true =>
          if intent.action ∉ s'.executors then
            (.error (.approvalError .noExecutor
              (ascii "No executor registered for " ++ intent.action)
              501), s')
          else
            (.ok (intent.withStatus .executing), s'.store (intent.withStatus .executing))

/-- The `catch` of `execute`.  An error without a text leaves the intent
    failed and throws. -/
def fail (host : Host) (s : Service) (intent : MaintainerIntent)
    (executedBy : Text) (fault : Fault) (stamp : Stamp) :
    Except Fault IntentReceipt × Service :=
  match fault.message with
  | none => (.error (.value none), s.store (intent.withStatus .failed))
  | some message =>
    s.close host intent .failed (some executedBy) (.value .null)
      (some ((host.redactSecrets message).take 500)) stamp

/-- `execute` from where the executor's promise is settled.  The receipt of a
    success is issued inside the `try`, so what that throws is caught too and
    draws a second stamp. -/
def settle (host : Host) (s : Service) (intent : MaintainerIntent)
    (executedBy : Text) (outcome : Except Fault Resolved)
    (first second : Stamp) : Except Fault IntentReceipt × Service :=
  match outcome with
  | .error fault => s.fail host intent executedBy fault first
  | .ok result =>
    match s.close host intent .succeeded (some executedBy) result none
      first with
    | (.ok receipt, s') => (.ok receipt, s')
    | (.error fault, s') => s'.fail host (intent.withStatus .succeeded) executedBy fault second

/-- An unknown action gets no executor. -/
def registerExecutor (host : Host) (s : Service) (action : Text) : Service :=
  match host.spec action with
  | none => s
  | some _ => { s with executors := action :: s.executors }

end Service

/-! ## Runs -/

/-- An `execute` that waits for its executor. -/
structure Execution where
  id : Text
  executedBy : Text

/-- The service with the calls that wait, and what has happened so far: the
    intents passed to an executor, the approvals given, the intents whose
    executor's promise was resolved. -/
structure World where
  service : Service
  waiting : List Execution
  ran : List MaintainerIntent
  approvals : List (Text × Text)
  resolved : List Text

/-- A new service, before any call. -/
def World.init : World :=
  ⟨⟨.empty, [], []⟩, [], [], [], []⟩

/-- A call, or the settlement of an executor's promise. -/
inductive Event where
  | registerExecutor (action : Text)
  | requestIntent (input : IntentInput) (draw : Declaration)
  | approve (id : Text) (approverId : Option Text) (now : Option Int) (stamp : Stamp)
  | reject (id maintainerId : Text) (why : Option Text) (now : Option Int) (stamp : Stamp)
  | execute (id : Text) (input : Service.ExecuteInput) (now : Option Int) (stamp : Stamp)
  /-- The promise the `k`-th waiting call awaits is settled. -/
  | settle (k : Nat) (outcome : Except Fault Resolved) (first second : Stamp)

/-- The identifiers that are resolved by a settlement. -/
def resolvedBy (id : Text) : Except Fault Resolved → List Text
  | .ok _ => [id]
  | .error _ => []

/-- What an event does to the service and to the record of it. -/
def World.step (host : Host) (w : World) : Event → World
  | .registerExecutor action => { w with service := w.service.registerExecutor host action }
  | .requestIntent input draw => { w with service := (w.service.requestIntent host input draw).2 }
  | .approve id approverId now stamp =>
    match w.service.approve host id approverId now stamp with
    | (.error _, s) => { w with service := s }
    | (.ok intent, s) =>
      { w with
        service := s
        approvals := (intent.id, intent.approvedBy.getD []) :: w.approvals }
  | .reject id maintainerId why now stamp =>
    { w with service := (w.service.reject host id maintainerId why now stamp).2 }
  | .execute id input now stamp =>
    match w.service.execute host id input now stamp with
    | (.error _, s) => { w with service := s }
    | (.ok intent, s) =>
      { w with
        service := s
        waiting := w.waiting ++ [⟨intent.id, input.executedBy⟩]
        ran := intent :: w.ran }
  | .settle k outcome first second =>
    match w.waiting[k]? with
    | none => w
    | some execution =>
      match w.service.intents.get execution.id with
      | none => w
      | some intent =>
        { w with
          service := (w.service.settle host intent execution.executedBy outcome first second).2
          waiting := w.waiting.eraseIdx k
          resolved := resolvedBy execution.id outcome ++ w.resolved }

/-- The world after the events, from a new service. -/
def World.run (host : Host) (events : List Event) : World :=
  events.foldl (World.step host) .init

end Approval

import Inqutum.AmountTextProofs
import Inqutum.InsertionMapProofs
import Inqutum.JobStoreProofs
import Inqutum.ScriptValueProofs
import Inqutum.TransitionProofs

/-!
# External reference verification

`verifySingleAttempt` probes an external source about a reference and
writes the outcome to the record of the reference; `verifyWithRetries`
repeats it as long as a retry is scheduled.  An attempt takes its number
before the probe and writes everything after it, so between the two any
other call can run.

A record is `Trustworthy` if its attempts are numbered one by one and a
retry is dated exactly if one is scheduled.  Records stay that way, and
what is verified stays verified, exactly along the runs whose steps are
`Careful` (`trustworthy_iff`).

An instant stands for its ISO text.  What the platform supplies is a
parameter.
-/

namespace ExternalReference

open JsonText (Text CodeUnit ascii)
open Canonical (JsValue trim timeClip)
open Jobs (RetryPolicy computeBackoffMs)
open Transition (Along)
open List InsertionMap JsNumber

/-! ## References and records -/

inductive ExternalReferenceType where
  | stellarTransaction
  | anchorSep24Transfer
  | webhookCallbackDelivery
  | custodySettlementAttestation
  /-- Any other text. -/
  | other (text : Text)

inductive ExternalVerificationStatus where
  | pending
  | retryScheduled
  | verified
  | failedTerminal
  deriving DecidableEq

inductive FailureCode where
  | referenceMalformedInput
  | sourceTimeout
  | sourceUnreachable
  | referencePendingUpstream
  | malformedSourceResponse
  | staleSourceData
  | referenceRejectedBySource
  | retryExhausted

def FailureCode.text : FailureCode → Text
  | .referenceMalformedInput => ascii "REFERENCE_MALFORMED_INPUT"
  | .sourceTimeout => ascii "SOURCE_TIMEOUT"
  | .sourceUnreachable => ascii "SOURCE_UNREACHABLE"
  | .referencePendingUpstream => ascii "REFERENCE_PENDING_UPSTREAM"
  | .malformedSourceResponse => ascii "MALFORMED_SOURCE_RESPONSE"
  | .staleSourceData => ascii "STALE_SOURCE_DATA"
  | .referenceRejectedBySource => ascii "REFERENCE_REJECTED_BY_SOURCE"
  | .retryExhausted => ascii "RETRY_EXHAUSTED"

/-- `RECOVERY_HINTS`. -/
def FailureCode.recoveryHint : FailureCode → Text
  | .referenceMalformedInput => ascii "Check the external reference identifier format (e.g., 64-character hex hash for Stellar transactions) and resubmit."
  | .sourceTimeout => ascii "The upstream verification source timed out. Automatic retry is scheduled; inspect upstream latency if timeouts persist."
  | .sourceUnreachable => ascii "The upstream verification endpoint could not be reached. Verify network connectivity or check /api/ops/dependencies."
  | .referencePendingUpstream => ascii "The external reference is still pending upstream finality. Wait for the next scheduled retry."
  | .malformedSourceResponse => ascii "The upstream source returned a payload that violates the expected verification schema. Inspect upstream API compatibility."
  | .staleSourceData => ascii "The upstream source returned stale or post-dated data outside the freshness window. Request a fresh attestation."
  | .referenceRejectedBySource => ascii "The upstream source explicitly marked this reference as rejected or mismatched the expected settlement parameters."
  | .retryExhausted => ascii "All configured retry attempts were exhausted without confirming the reference. Escalate to manual reconciliation or requeue once upstream recovers."

structure ExternalReferenceInput where
  referenceId : Text
  referenceType : ExternalReferenceType
  invoiceId : Text
  externalIdentifier : Text
  sourceSystem : Text
  endpoint : Option Text := none
  expectedAmount : Option JsNumber := none
  expectedAssetCode : Option Text := none

structure PersistedSourceMetadata where
  sourceSystem : Text
  endpoint : Option Text
  observedTimestamp : Int
  verifiedAt : Int
  ledgerSequence : Option JsNumber
  settledAmount : Option String
  assetCode : Option Text
  rawStatus : Text
  responseLatencyMs : JsNumber
  schemaVersion : Text

structure ExternalVerificationFailure where
  code : FailureCode
  rootCauseCode : Option FailureCode := none
  message : Text
  retryable : Bool
  recoveryHint : Text
  attempt : Nat
  failedAt : Int

inductive AttemptOutcome where
  | verified
  | retryScheduled
  | terminalFailure

structure VerificationAttemptEntry where
  attempt : Nat
  startedAt : Int
  completedAt : Int
  latencyMs : JsNumber
  outcome : AttemptOutcome
  errorCode : Option FailureCode := none
  message : Option Text := none

structure ExternalReferenceRecord where
  referenceId : Text
  referenceType : ExternalReferenceType
  invoiceId : Text
  externalIdentifier : Text
  sourceSystem : Text
  endpoint : Option Text
  expectedAmount : Option JsNumber
  expectedAssetCode : Option Text
  status : ExternalVerificationStatus
  attempts : Nat
  maxAttempts : JsNumber
  verifiedAt : Option Int
  lastAttemptAt : Option Int
  nextRetryAt : Option Int
  sourceMetadata : Option PersistedSourceMetadata
  failure : Option ExternalVerificationFailure
  attemptHistory : List VerificationAttemptEntry
  createdAt : Int
  updatedAt : Int

/-- The options of the service, with their defaults. -/
structure Options where
  retryPolicy : RetryPolicy := ⟨3, 500, 2, 10000⟩
  timeoutMs : JsNumber := 3000
  maxStalenessMs : JsNumber := 86400000
  allowedClockSkewMs : JsNumber := 60000

/-- What `classifyThrownProbeError` reads of a thrown value: `String(err.code
    || '')`, `err.message` if it is a text, and `String(err)`. -/
structure ThrownValue where
  code : Text
  message : Option Text
  text : Text

structure Host where
  /-- `Date.parse(text)`, if the text is a date. -/
  dateParse : Text → Option Int
  /-- `Math.pow`. -/
  pow : JsNumber → Nat → JsNumber
  toUpperCase : Text → Text
  /-- `String(value)`. -/
  toText : JsValue → Except ThrownValue Text
  /-- `Number(value)`. -/
  toNumber : JsValue → Except ThrownValue JsNumber

structure ProbeClassificationError where
  code : FailureCode
  message : Text
  retryable : Bool

/-! ## Validating the input -/

def malformedInput (message : Text) : Except ProbeClassificationError Unit :=
  .error ⟨.referenceMalformedInput, message, false⟩

/-- `^[0-9a-fA-F]{64}$`. -/
def isStellarTxHash (text : Text) : Bool :=
  decide (text.length = 64) && text.all (fun c => (JsonText.hexValue c).isSome)

/-- `[A-Za-z0-9._:-]`. -/
def isSafeUnit (c : CodeUnit) : Bool :=
  let n := c.val
  decide (48 ≤ n ∧ n ≤ 58) || decide (65 ≤ n ∧ n ≤ 90)
    || decide (97 ≤ n ∧ n ≤ 122) || n == 46 || n == 95 || n == 45

/-- `^[A-Za-z0-9._:-]{3,256}$`. -/
def isSafeExternalId (text : Text) : Bool :=
  decide (3 ≤ text.length ∧ text.length ≤ 256) && text.all isSafeUnit

def validateReferenceInput (input : ExternalReferenceInput) :
    Except ProbeClassificationError Unit :=
  if trim input.referenceId = [] then
    malformedInput (ascii "referenceId must be a non-empty string.")
  else if trim input.invoiceId = [] then
    malformedInput (ascii "invoiceId must be a non-empty string.")
  else
    match input.referenceType with
    | .other text => malformedInput (ascii "Unsupported referenceType '" ++ text ++ ascii "'.")
    | referenceType =>
      if input.externalIdentifier = [] then
        malformedInput (ascii "externalIdentifier must be a non-empty string.")
      else
        match referenceType with
        | .stellarTransaction =>
          if isStellarTxHash input.externalIdentifier then .ok ()
          else malformedInput (ascii "stellar_transaction externalIdentifier must be a 64-character hexadecimal transaction hash.")
        | _ =>
          if isSafeExternalId input.externalIdentifier then .ok ()
          else malformedInput (ascii "externalIdentifier must be 3-256 characters of alphanumeric, dot, underscore, colon, or hyphen.")

/-! ## Reading the response -/

/-- What an attempt may throw before it is classified. -/
inductive Thrown where
  | classified (error : ProbeClassificationError)
  | other (value : ThrownValue)

def malformedResponse {α : Type} (message : Text) : Except Thrown α :=
  .error (.classified ⟨.malformedSourceResponse, message, false⟩)

def rejectedBySource {α : Type} (message : Text) : Except Thrown α :=
  .error (.classified ⟨.referenceRejectedBySource, message, false⟩)

def converted {α : Type} : Except ThrownValue α → Except Thrown α
  | .ok value => .ok value
  | .error thrown => .error (.other thrown)

/-- The members of `typeof raw === 'object'`, if it is not an array. -/
def membersOf : JsValue → Option (List (Text × JsValue))
  | .obj members => some members
  | .date _ => some []
  | .buffer _ => some []
  | _ => none

def property (members : List (Text × JsValue)) (key : String) : JsValue :=
  ((members.find? (fun m => m.1 = ascii key)).map Prod.snd).getD .undefined

def textOf : JsValue → Option Text
  | .str text => some text
  | _ => none

def numberOf : JsValue → Option JsNumber
  | .number x => some x
  | .negZero => some 0
  | _ => none

def isNullish : JsValue → Bool
  | .null => true
  | .undefined => true
  | _ => false

inductive SourceStatus where
  | verified
  | pending
  | rejected

def SourceStatus.ofValue : JsValue → Option SourceStatus
  | .str text =>
    if text = ascii "verified" then some .verified
    else if text = ascii "pending" then some .pending
    else if text = ascii "rejected" then some .rejected
    else none
  | _ => none

section Response

variable (host : Host) (options : Options) (input : ExternalReferenceInput)
  (now : Int) (members : List (Text × JsValue))

/-- The checks up to the freshness of the timestamp. -/
def readObserved : Except Thrown (SourceStatus × Int) :=
  match SourceStatus.ofValue (property members "status") with
  | none =>
    (converted (host.toText (property members "status"))).bind (fun text =>
      malformedResponse (ascii "External source returned invalid status '"
        ++ text ++ ascii "'. Expected 'verified', 'pending', or 'rejected'."))
  | some status =>
    match textOf (property members "observedTimestamp") with
    | none => malformedResponse (ascii "External source response is missing required ISO-8601 observedTimestamp.")
    | some observed =>
      if trim observed = [] then
        malformedResponse (ascii "External source response is missing required ISO-8601 observedTimestamp.")
      else
        match host.dateParse observed with
        | none => malformedResponse (ascii "External source observedTimestamp '" ++ observed
              ++ ascii "' is not a valid timestamp.")
        | some observedMs =>
          if lt (add (.finite now)
              options.allowedClockSkewMs) (.finite observedMs) then
            .error (.classified ⟨.staleSourceData, ascii "External source timestamp (" ++ observed
                ++ ascii ") is post-dated beyond allowed clock skew.",
              false⟩)
          else if lt options.maxStalenessMs
              (sub (.finite now) (.finite observedMs)) then
            .error (.classified ⟨.staleSourceData, ascii "External source timestamp (" ++ observed
                ++ ascii ") is older than the maximum staleness window ("
                ++ ascii options.maxStalenessMs.toText ++ ascii "ms).",
              false⟩)
          else .ok (status, observedMs)

def readLedgerSequence : Except Thrown (Option JsNumber) :=
  let value := property members "ledgerSequence"
  match input.referenceType with
  | .stellarTransaction =>
    match numberOf value with
    | some ledger =>
      if ledger.isSafeInteger && !le ledger 0 then
        .ok (some ledger)
      else malformedResponse (ascii "stellar_transaction verification response must include a positive integer ledgerSequence.")
    | none => malformedResponse (ascii "stellar_transaction verification response must include a positive integer ledgerSequence.")
  | _ =>
    if isNullish value then .ok none
    else
      match numberOf value with
      | some ledger =>
        if ledger.isSafeInteger then .ok (some ledger)
        else malformedResponse (ascii "ledgerSequence must be an integer when provided.")
      | none => malformedResponse (ascii "ledgerSequence must be an integer when provided.")

/-- `0.0000001`. -/
def amountSlack : JsNumber := binary64 (1 / 10000000)

def readSettledAmount : Except Thrown (Option String) :=
  let value := property members "settledAmount"
  if isNullish value then .ok none
  else
    (converted (host.toNumber value)).bind (fun parsedAmt =>
      if !parsedAmt.isFinite || le parsedAmt 0 then
        (converted (host.toText value)).bind (fun text =>
          malformedResponse (ascii "External source returned invalid settledAmount '" ++ text
              ++ ascii "'."))
      else
        match input.expectedAmount with
        | none => .ok (some parsedAmt.toFixed7)
        | some expected =>
          if lt amountSlack (abs (sub parsedAmt expected)) then
            rejectedBySource (ascii "External source settledAmount (" ++ ascii parsedAmt.toText
              ++ ascii ") does not match expectedAmount ("
              ++ ascii expected.toText ++ ascii ").")
          else .ok (some parsedAmt.toFixed7))

def readAssetCode : Except Thrown (Option Text) :=
  let value := property members "assetCode"
  if isNullish value then .ok none
  else
    match textOf value with
    | none => malformedResponse (ascii "External source assetCode must be a non-empty string.")
    | some code =>
      if trim code = [] then malformedResponse
        (ascii "External source assetCode must be a non-empty string.")
      else
        let assetCode := host.toUpperCase (trim code)
        match input.expectedAssetCode with
        | none => .ok (some assetCode)
        | some expected =>
          if expected ≠ [] ∧ assetCode ≠ host.toUpperCase (trim expected) then
            rejectedBySource (ascii "External source assetCode ("
              ++ assetCode ++ ascii ") does not match expectedAssetCode ("
              ++ expected ++ ascii ").")
          else .ok (some assetCode)

def validateAndNormalizeProbeOutput (raw : JsValue) (latencyMs : JsNumber) :
    Except Thrown PersistedSourceMetadata :=
  match membersOf raw with
  | none => malformedResponse (ascii "External source returned a non-object payload.")
  | some members =>
    (readObserved host options now members).bind fun (status, observedMs) =>
    match status with
    | .pending => .error (.classified ⟨.referencePendingUpstream,
        ascii "External reference '" ++ input.externalIdentifier
          ++ ascii "' is still pending upstream confirmation.", true⟩)
    | .rejected => rejectedBySource (ascii "External reference '" ++ input.externalIdentifier
        ++ ascii "' was explicitly rejected by source '"
        ++ input.sourceSystem ++ ascii "'.")
    | .verified =>
      (readLedgerSequence input members).bind fun ledgerSequence =>
      (readSettledAmount host input members).bind fun settledAmount =>
      (readAssetCode host input members).bind fun assetCode =>
      .ok {
        sourceSystem :=
          match textOf (property members "sourceSystem") with
          | some text =>
            if trim text = [] then input.sourceSystem else trim text
          | none => input.sourceSystem
        endpoint := input.endpoint
        observedTimestamp := observedMs
        verifiedAt := now
        ledgerSequence := ledgerSequence
        settledAmount := settledAmount
        assetCode := assetCode
        rawStatus := (textOf (property members "rawStatus")).getD (ascii "verified")
        responseLatencyMs := latencyMs
        schemaVersion := (textOf (property members "schemaVersion")).getD (ascii "1.0") }

end Response

/-! ## Classifying errors -/

/-- An ASCII letter in lower case. -/
def foldUnit (c : CodeUnit) : CodeUnit :=
  if 65 ≤ c.val ∧ c.val ≤ 90 then c + 32 else c

/-- `/needle/i.test(text)`. -/
def mentions (text : Text) (needle : String) : Bool :=
  decide (ascii needle <:+: text.map foldUnit)

/-- `text || fallback`. -/
def orElse (text fallback : Text) : Text := if text = [] then fallback else text

def classifyThrownProbeError : Thrown → ProbeClassificationError
  | .classified error => error
  | .other err =>
    let msg := err.message.getD err.text
    if err.code = ascii "ETIMEDOUT" ∨ err.code = ascii "ABORT_ERR"
        ∨ mentions msg "timeout" ∨ mentions msg "timed out"
        ∨ mentions msg "aborted" then
      ⟨.sourceTimeout, orElse msg (ascii "External probe timed out."), true⟩
    else if err.code = ascii "MALFORMED_SOURCE_RESPONSE"
        ∨ mentions msg "malformed" ∨ mentions msg "invalid json"
        ∨ mentions msg "unexpected token" then
      ⟨.malformedSourceResponse, msg, false⟩
    else if err.code = ascii "STALE_SOURCE_DATA" then
      ⟨.staleSourceData, msg, false⟩
    else if err.code = ascii "REFERENCE_REJECTED_BY_SOURCE" then
      ⟨.referenceRejectedBySource, msg, false⟩
    else
      ⟨.sourceUnreachable, orElse msg (ascii
        "External reference verification source is unreachable."), true⟩

/-! ## One attempt -/

/-- `Math.max(0, completedAt - startedAt)`. -/
def latency (startedAt completedAt : Int) : JsNumber :=
  mathMax 0 (sub (.finite completedAt) (.finite startedAt))

def newRecord (options : Options) (input : ExternalReferenceInput)
    (now : Int) : ExternalReferenceRecord where
  referenceId := input.referenceId
  referenceType := input.referenceType
  invoiceId := input.invoiceId
  externalIdentifier := input.externalIdentifier
  sourceSystem := input.sourceSystem
  endpoint := input.endpoint
  expectedAmount := input.expectedAmount
  expectedAssetCode := input.expectedAssetCode
  status := .pending
  attempts := 0
  maxAttempts := options.retryPolicy.maxAttempts
  verifiedAt := none
  lastAttemptAt := none
  nextRetryAt := none
  sourceMetadata := none
  failure := none
  attemptHistory := []
  createdAt := now
  updatedAt := now

/-- The number of an attempt with the clock at its start and at its end. -/
structure Attempt where
  number : Nat
  startedAt : Int
  completedAt : Int

namespace ExternalReferenceRecord

variable (record : ExternalReferenceRecord) (a : Attempt)

/-- What every attempt writes first. -/
def attempted : ExternalReferenceRecord :=
  { record with
    attempts := a.number
    lastAttemptAt := some a.completedAt
    updatedAt := a.completedAt }

/-- `attemptHistory.push`. -/
def logged (outcome : AttemptOutcome) (errorCode : Option FailureCode)
    (message : Option Text) : ExternalReferenceRecord :=
  { record with
    attemptHistory := record.attemptHistory ++ [{
      attempt := a.number
      startedAt := a.startedAt
      completedAt := a.completedAt
      latencyMs := latency a.startedAt a.completedAt
      outcome := outcome
      errorCode := errorCode
      message := message }] }

def settleVerified (metadata : PersistedSourceMetadata) :
    ExternalReferenceRecord :=
  { record.attempted a with
    status := .verified
    verifiedAt := some a.completedAt
    nextRetryAt := none
    sourceMetadata := some metadata
    failure := none }.logged a .verified none none

def settleRetry (error : ProbeClassificationError) (nextRetry : Int) :
    ExternalReferenceRecord :=
  { record.attempted a with
    status := .retryScheduled
    nextRetryAt := some nextRetry
    failure := some {
      code := error.code
      message := error.message
      retryable := true
      recoveryHint := error.code.recoveryHint
      attempt := a.number
      failedAt := a.completedAt } }.logged a .retryScheduled (some error.code) (some error.message)

def settleTerminal (code : FailureCode) (rootCauseCode : Option FailureCode)
    (message : Text) : ExternalReferenceRecord :=
  { record.attempted a with
    status := .failedTerminal
    nextRetryAt := none
    failure := some {
      code := code
      rootCauseCode := rootCauseCode
      message := message
      retryable := false
      recoveryHint := code.recoveryHint
      attempt := a.number
      failedAt := a.completedAt } }.logged a .terminalFailure (some code) (some message)

def canRetry (number : Nat) (error : ProbeClassificationError) : Bool :=
  error.retryable && lt (.ofNat number) record.maxAttempts

/-- `new Date(completedAt + delayMs)`, if it is a valid date. -/
def nextRetry (host : Host) (options : Options) : Option Int :=
  timeClip (add (.finite a.completedAt)
    (computeBackoffMs host.pow options.retryPolicy a.number))

/-- The end of the `catch`: the record, and whether `toISOString()` of an
    invalid date is thrown while it is written. -/
def settleFailed (host : Host) (options : Options)
    (error : ProbeClassificationError) : ExternalReferenceRecord × Bool :=
  if record.canRetry a.number error then
    match nextRetry a host options with
    | some nextRetry => (record.settleRetry a error nextRetry, false)
    | none => ({ record.attempted a with status := .retryScheduled }, true)
  else if error.retryable && le record.maxAttempts (.ofNat a.number) then
    (record.settleTerminal a .retryExhausted (some error.code)
      (ascii "Verification exhausted all " ++ ascii record.maxAttempts.toText
        ++ ascii " attempts. Last error (" ++ error.code.text ++ ascii "): "
        ++ error.message), false)
  else (record.settleTerminal a error.code none error.message, false)

end ExternalReferenceRecord

open ExternalReferenceRecord

/-- How a probe ends. -/
inductive ProbeOutcome where
  | responds (raw : JsValue)
  | throws (thrown : ThrownValue)
  | timesOut

/-- What an attempt makes of its probe; `completedAt` is the clock when the
    probe responds. -/
def attemptResult (host : Host) (options : Options)
    (input : ExternalReferenceInput) (startedAt completedAt : Int) :
    ProbeOutcome → Except ProbeClassificationError PersistedSourceMetadata
  | .responds raw =>
    (validateAndNormalizeProbeOutput host options input completedAt raw
      (latency startedAt completedAt)).mapError classifyThrownProbeError
  | .throws thrown => .error (classifyThrownProbeError (.other thrown))
  | .timesOut => .error ⟨.sourceTimeout, ascii "External verification probe timed out after "
        ++ ascii options.timeoutMs.toText ++ ascii "ms.", true⟩

/-! ## The service -/

abbrev Records := InsertionMap Text ExternalReferenceRecord

/-- Where a call stands; `retries` tells `verifyWithRetries`. -/
inductive Call where
  | probing (input : ExternalReferenceInput) (number : Nat) (startedAt : Int) (retries : Bool)
  | sleeping (input : ExternalReferenceInput)
  | returned (record : ExternalReferenceRecord)
  | rejected

structure State where
  records : Records
  calls : List Call

def State.init : State := ⟨empty, []⟩

/-- What runs between two awaits, with the clocks it reads: the start of a
    call, the end of a probe, the end of a sleep.  `failedAt` is the clock
    where an error is caught. -/
inductive Event where
  | call (retries : Bool) (input : ExternalReferenceInput) (createdAt startedAt completedAt : Int)
  | settle (k : Nat) (outcome : ProbeOutcome) (completedAt failedAt : Int)
  | wake (k : Nat) (createdAt startedAt completedAt : Int)

section Service

variable (host : Host) (options : Options)

def getOrCreateRecord (records : Records) (input : ExternalReferenceInput)
    (now : Int) : ExternalReferenceRecord :=
  (records.get input.referenceId).getD (newRecord options input now)

/-- An attempt up to its probe. -/
def beginAttempt (records : Records) (retries : Bool)
    (input : ExternalReferenceInput) (createdAt startedAt completedAt : Int) :
    Records × Call :=
  let record := getOrCreateRecord options records input createdAt
  let number := record.attempts + 1
  match validateReferenceInput input with
  | .error error =>
    let failed := record.settleTerminal ⟨number, startedAt, completedAt⟩
      error.code none error.message
    (records.set input.referenceId failed, .returned failed)
  | .ok () => (records.set input.referenceId record, .probing input number startedAt retries)

/-- The record after a probe, and whether the attempt throws. -/
def settleAttempt (record : ExternalReferenceRecord)
    (input : ExternalReferenceInput) (number : Nat) (startedAt : Int)
    (outcome : ProbeOutcome) (completedAt failedAt : Int) :
    ExternalReferenceRecord × Bool :=
  match attemptResult host options input startedAt completedAt outcome with
  | .ok metadata => (record.settleVerified ⟨number, startedAt, completedAt⟩ metadata, false)
  | .error error => record.settleFailed ⟨number, startedAt, failedAt⟩ host options error

/-- What a call does with the record it gets back. -/
def afterAttempt (retries : Bool) (input : ExternalReferenceInput)
    (result : ExternalReferenceRecord × Bool) : Call :=
  if result.2 then .rejected
  else if retries && result.1.status = .retryScheduled then .sleeping input
  else .returned result.1

def step (s : State) : Event → State
  | .call retries input createdAt startedAt completedAt =>
    let begun := beginAttempt options s.records retries input createdAt startedAt completedAt
    ⟨begun.1, s.calls ++ [begun.2]⟩
  | .settle k outcome completedAt failedAt =>
    match s.calls[k]? with
    | some (.probing input number startedAt retries) =>
      match s.records.get input.referenceId with
      | some record =>
        let result := settleAttempt host options record input number
          startedAt outcome completedAt failedAt
        ⟨s.records.set input.referenceId result.1,
          s.calls.set k (afterAttempt retries input result)⟩
      | none => s
    | _ => s
  | .wake k createdAt startedAt completedAt =>
    match s.calls[k]? with
    | some (.sleeping input) =>
      let begun := beginAttempt options s.records true input createdAt startedAt completedAt
      ⟨begun.1, s.calls.set k begun.2⟩
    | _ => s

end Service

/-! ## Trustworthy histories -/

structure Trustworthy (record : ExternalReferenceRecord) : Prop where
  attempts : record.attempts = record.attemptHistory.length
  numbers : record.attemptHistory.map (fun entry => entry.attempt)
    = range' 1 record.attemptHistory.length
  nextRetry : record.nextRetryAt ≠ none ↔ record.status = .retryScheduled

/-- What is verified stays verified. -/
def Keeps (record record' : ExternalReferenceRecord) : Prop :=
  record.status = .verified → record'.status = .verified ∧ record'.verifiedAt = record.verifiedAt
    ∧ record'.sourceMetadata = record.sourceMetadata

/-- From one moment to a later one: every record is trustworthy, and what was
    verified still is. -/
structure Faithful (records records' : Records) : Prop where
  trustworthy : ∀ id record, records'.get id = some record → Trustworthy record
  keeps : ∀ id record, records.get id = some record →
    ∃ record', records'.get id = some record' ∧ Keeps record record'

section Careful

variable (host : Host) (options : Options)

def FaithfulStep (s : State) (e : Event) : Prop :=
  Faithful s.records (step host options s e).records

/-- An attempt whose input is refused does not meet a verified record. -/
def CarefulBegin (s : State) (input : ExternalReferenceInput) : Prop :=
  (validateReferenceInput input).isOk = true ∨
    ∀ record, s.records.get input.referenceId = some record → record.status ≠ .verified

/-- No other attempt ended since this one began, and it does not meet a
    verified record unless it verifies the same at the same instant.  A retry
    that is scheduled has a date, or the record is as the last attempt with
    this number left it. -/
def CarefulSettle (record : ExternalReferenceRecord)
    (input : ExternalReferenceInput) (number : Nat) (startedAt : Int)
    (outcome : ProbeOutcome) (completedAt failedAt : Int) : Prop :=
  match attemptResult host options input startedAt completedAt outcome with
  | .ok metadata => number = record.attempts + 1
      ∧ (record.status = .verified → record.verifiedAt = some completedAt
        ∧ record.sourceMetadata = some metadata)
  | .error error => record.status ≠ .verified ∧ if record.canRetry number error = true
            ∧ nextRetry ⟨number, startedAt, failedAt⟩
              host options = none then
          number = record.attempts ∧ record.status = .retryScheduled
        else number = record.attempts + 1

def Careful (s : State) : Event → Prop
  | .call _ input _ _ _ => CarefulBegin s input
  | .settle k outcome completedAt failedAt =>
    ∀ input number startedAt retries, s.calls[k]? = some (.probing input number startedAt retries) →
        ∀ record, s.records.get input.referenceId = some record →
          CarefulSettle host options record input number startedAt outcome completedAt failedAt
  | .wake k _ _ _ => ∀ input, s.calls[k]? = some (.sleeping input) → CarefulBegin s input

end Careful

/-! ## What an attempt does to a record -/

theorem Keeps.refl (record : ExternalReferenceRecord) : Keeps record record :=
  fun h => ⟨h, rfl, rfl⟩

theorem keeps_of_not_verified {record record' : ExternalReferenceRecord}
    (h : record.status ≠ .verified) : Keeps record record' :=
  fun hverified => absurd hverified h

theorem keeps_iff_of_not_verified {record record' : ExternalReferenceRecord}
    (h : record'.status ≠ .verified) : Keeps record record' ↔ record.status ≠ .verified :=
  ⟨fun hkeeps hverified => h (hkeeps hverified).1, keeps_of_not_verified⟩

theorem trustworthy_new (options : Options) (input : ExternalReferenceInput)
    (now : Int) : Trustworthy (newRecord options input now) where
  attempts := rfl
  numbers := rfl
  nextRetry := by
    constructor
    · intro h
      exact absurd rfl h
    intro h
    cases h

theorem trustworthy_append_iff {record record' : ExternalReferenceRecord}
    (h : Trustworthy record) {entry : VerificationAttemptEntry}
    (hhistory : record'.attemptHistory = record.attemptHistory ++ [entry])
    (hattempts : record'.attempts = entry.attempt)
    (hnext : record'.nextRetryAt ≠ none ↔ record'.status = .retryScheduled) :
    Trustworthy record' ↔ entry.attempt = record.attempts + 1 := by
  constructor
  · intro h'
    have hlength := h'.attempts
    rw [hattempts, hhistory, length_append, ← h.attempts] at hlength
    exact hlength
  intro hnumber
  refine ⟨?_, ?_, hnext⟩
  · rw [hattempts, hhistory, length_append, ← h.attempts]
    exact hnumber
  rw [hhistory, map_append, length_append, h.numbers,
    map_singleton, length_singleton, range'_concat,
    hnumber, h.attempts, Nat.one_mul, Nat.add_comm]

section Settling

variable {record : ExternalReferenceRecord} (h : Trustworthy record) (a : Attempt)

include h

theorem settleVerified_iff (metadata : PersistedSourceMetadata) :
    Trustworthy (record.settleVerified a metadata) ∧ Keeps record (record.settleVerified a metadata)
      ↔ a.number = record.attempts + 1
        ∧ (record.status = .verified → record.verifiedAt = some a.completedAt
          ∧ record.sourceMetadata = some metadata) := by
  refine and_congr ?_ ?_
  · refine @trustworthy_append_iff record (record.settleVerified a metadata) h _ rfl rfl ?_
    exact ⟨fun hnone => absurd rfl hnone, nofun⟩
  refine forall_congr' fun _ => ?_
  constructor
  · rintro ⟨-, hat, hmetadata⟩
    exact ⟨hat.symm, hmetadata.symm⟩
  rintro ⟨hat, hmetadata⟩
  exact ⟨rfl, hat.symm, hmetadata.symm⟩

theorem settleTerminal_iff (code : FailureCode)
    (rootCauseCode : Option FailureCode) (message : Text) :
    Trustworthy (record.settleTerminal a code rootCauseCode message)
        ∧ Keeps record (record.settleTerminal a code rootCauseCode message)
      ↔ a.number = record.attempts + 1 ∧ record.status ≠ .verified := by
  refine and_congr ?_ (keeps_iff_of_not_verified nofun)
  refine @trustworthy_append_iff record
    (record.settleTerminal a code rootCauseCode message) h _ rfl rfl ?_
  exact ⟨fun hnone => absurd rfl hnone, nofun⟩

theorem settleRetry_iff (error : ProbeClassificationError) (nextRetry : Int) :
    Trustworthy (record.settleRetry a error nextRetry)
        ∧ Keeps record (record.settleRetry a error nextRetry)
      ↔ a.number = record.attempts + 1 ∧ record.status ≠ .verified := by
  refine and_congr ?_ (keeps_iff_of_not_verified nofun)
  refine @trustworthy_append_iff record (record.settleRetry a error nextRetry) h _ rfl rfl ?_
  exact ⟨fun _ => rfl, fun _ => Option.some_ne_none _⟩

/-- The date of the retry is thrown away, and with it the entry. -/
theorem undated_iff : Trustworthy { record.attempted a with status := .retryScheduled }
        ∧ Keeps record { record.attempted a with status := .retryScheduled }
      ↔ a.number = record.attempts ∧ record.status = .retryScheduled := by
  constructor
  · rintro ⟨htrust, -⟩
    have hlength : a.number = record.attemptHistory.length := htrust.attempts
    exact ⟨hlength.trans h.attempts.symm, h.nextRetry.mp (htrust.nextRetry.mpr rfl)⟩
  rintro ⟨hnumber, hstatus⟩
  refine ⟨⟨hnumber.trans h.attempts, h.numbers, ?_⟩, ?_⟩
  · exact ⟨fun _ => rfl, fun _ => h.nextRetry.mpr hstatus⟩
  refine keeps_of_not_verified fun hverified => ?_
  rw [hstatus] at hverified
  cases hverified

theorem settleFailed_iff (host : Host) (options : Options) (error : ProbeClassificationError) :
    Trustworthy (record.settleFailed a host options error).1
        ∧ Keeps record (record.settleFailed a host options error).1
      ↔ record.status ≠ .verified ∧ if record.canRetry a.number error = true
              ∧ nextRetry a host options = none then
            a.number = record.attempts ∧ record.status = .retryScheduled
          else a.number = record.attempts + 1 := by
  rw [settleFailed]
  by_cases hretry : record.canRetry a.number error = true
  · rw [if_pos hretry]
    cases hdate : nextRetry a host options with
    | none =>
      rw [if_pos ⟨hretry, rfl⟩, undated_iff h a]
      refine ⟨fun hboth => ⟨?_, hboth⟩, fun hboth => hboth.2⟩
      rw [hboth.2]
      exact nofun
    | some nextRetry =>
      rw [if_neg (fun hboth => nomatch hboth.2)]
      exact (settleRetry_iff h a error nextRetry).trans and_comm
  · have hdated : ¬ (record.canRetry a.number error = true
        ∧ nextRetry a host options = none) :=
      fun hboth => hretry hboth.1
    rw [if_neg hretry, if_neg hdated]
    split
    · exact (settleTerminal_iff h a _ _ _).trans and_comm
    · exact (settleTerminal_iff h a _ _ _).trans and_comm

/-- **THE END OF AN ATTEMPT** is faithful exactly if it is careful. -/
theorem settleAttempt_iff (host : Host) (options : Options)
    (input : ExternalReferenceInput) (number : Nat) (startedAt : Int)
    (outcome : ProbeOutcome) (completedAt failedAt : Int) :
    Trustworthy (settleAttempt host options record input number startedAt
        outcome completedAt failedAt).1
      ∧ Keeps record (settleAttempt host options record input number startedAt
        outcome completedAt failedAt).1
      ↔ CarefulSettle host options record input number startedAt outcome completedAt failedAt := by
  rw [settleAttempt, CarefulSettle]
  cases attemptResult host options input startedAt completedAt outcome with
  | ok metadata => exact settleVerified_iff h ⟨number, startedAt, completedAt⟩ metadata
  | error error => exact settleFailed_iff h ⟨number, startedAt, failedAt⟩ host options error

end Settling

/-! ## Steps -/

def AllTrustworthy (records : Records) : Prop :=
  ∀ id record, records.get id = some record → Trustworthy record

theorem faithful_refl {records : Records} (hall : AllTrustworthy records) :
    Faithful records records :=
  ⟨hall, fun _ record hrecord => ⟨record, hrecord, .refl record⟩⟩

theorem faithful_set_iff {records : Records} (hall : AllTrustworthy records)
    {id : Text} {after : ExternalReferenceRecord} :
    Faithful records (records.set id after) ↔ Trustworthy after
      ∧ ∀ record, records.get id = some record → Keeps record after := by
  constructor
  · rintro ⟨htrust, hkeeps⟩
    refine ⟨htrust id after ?_, fun record hrecord => ?_⟩
    · rw [get_set, if_pos rfl]
    obtain ⟨record', hrecord', hkept⟩ := hkeeps id record hrecord
    rw [get_set, if_pos rfl] at hrecord'
    rw [Option.some.inj hrecord']
    exact hkept
  · rintro ⟨htrust, hkeeps⟩
    refine ⟨fun id' record hrecord => ?_, fun id' record hrecord => ?_⟩
    · rw [get_set] at hrecord
      split at hrecord
      · cases hrecord
        exact htrust
      · exact hall id' record hrecord
    rw [get_set]
    split
    · next heq =>
        rw [← heq] at hrecord
        exact ⟨after, rfl, hkeeps record hrecord⟩
    · exact ⟨record, hrecord, .refl record⟩

section Steps

variable {host : Host} {options : Options} {s : State}

/-- **THE START OF AN ATTEMPT** writes nothing but a new record, unless it
    refuses its input. -/
theorem beginAttempt_iff (hall : AllTrustworthy s.records) (retries : Bool)
    (input : ExternalReferenceInput) (createdAt startedAt completedAt : Int) :
    Faithful s.records (beginAttempt options s.records retries input createdAt
      startedAt completedAt).1 ↔ CarefulBegin s input := by
  have hrecord : Trustworthy (getOrCreateRecord options s.records input createdAt) := by
    rw [getOrCreateRecord]
    cases hget : s.records.get input.referenceId with
    | none => exact trustworthy_new options input createdAt
    | some record => exact hall _ record hget
  have hsame : ∀ record, s.records.get input.referenceId = some record →
      getOrCreateRecord options s.records input createdAt = record := by
    intro record hget
    rw [getOrCreateRecord, hget, Option.getD_some]
  rw [beginAttempt, CarefulBegin]
  cases validateReferenceInput input with
  | ok _ =>
    refine iff_of_true ((faithful_set_iff hall).mpr ⟨hrecord, ?_⟩) (.inl rfl)
    intro record hget
    rw [hsame record hget]
    exact .refl record
  | error error =>
    refine (faithful_set_iff hall).trans ?_
    constructor
    · rintro ⟨-, hkeeps⟩
      refine .inr fun record hget hverified => ?_
      cases (hkeeps record hget hverified).1
    intro hcareful
    refine ⟨?_, fun record hget => keeps_of_not_verified ?_⟩
    · refine (trustworthy_append_iff hrecord rfl rfl ?_).mpr rfl
      exact ⟨fun hnone => absurd rfl hnone, nofun⟩
    rcases hcareful with hok | hcareful
    · cases hok
    · exact hcareful record hget

/-- **ONE STEP** is faithful exactly if it is careful. -/
theorem faithfulStep_iff (hall : AllTrustworthy s.records) (e : Event) :
    FaithfulStep host options s e ↔ Careful host options s e := by
  rw [FaithfulStep]
  cases e with
  | call retries input createdAt startedAt completedAt =>
    exact beginAttempt_iff hall retries input createdAt startedAt completedAt
  | settle k outcome completedAt failedAt =>
    rw [step, Careful]
    split
    · next input number startedAt retries hcall =>
        split
        · next record hget =>
            refine (faithful_set_iff hall).trans ?_
            rw [hget]
            simp only [Option.some.injEq, forall_eq', hcall, Call.probing.injEq, and_imp]
            rw [settleAttempt_iff (hall _ record hget)]
            constructor
            · rintro hcareful _ _ _ _ rfl rfl rfl rfl record' hget'
              rw [hget] at hget'
              cases hget'
              exact hcareful
            intro hcareful
            exact hcareful input number startedAt retries rfl rfl rfl rfl record hget
        · next hget =>
            refine iff_of_true (faithful_refl hall) ?_
            intro input' number' startedAt' retries' hcall' record hget'
            rw [hcall] at hcall'
            cases hcall'
            rw [hget] at hget'
            cases hget'
    · next hother =>
        refine iff_of_true (faithful_refl hall) ?_
        intro input number startedAt retries hcall
        exact absurd hcall (hother input number startedAt retries)
  | wake k createdAt startedAt completedAt =>
    rw [step, Careful]
    split
    · next input hcall =>
        rw [beginAttempt_iff hall]
        constructor
        · intro hcareful input' hcall'
          rw [hcall] at hcall'
          cases hcall'
          exact hcareful
        intro hcareful
        exact hcareful input hcall
    · next hother =>
        refine iff_of_true (faithful_refl hall) ?_
        intro input hcall
        exact absurd hcall (hother input)

end Steps

/-- **TRUSTWORTHY HISTORIES**: in every run every record stays trustworthy
    and what is verified stays verified, step by step, exactly if every step
    is careful. -/
theorem trustworthy_iff (host : Host) (options : Options) (events : List Event) :
    Along (step host options) (FaithfulStep host options) State.init events
      ↔ Along (step host options) (Careful host options) State.init events := by
  have hstart : AllTrustworthy State.init.records := fun _ _ h => nomatch h
  constructor
  · refine Along.imp (I := fun s => AllTrustworthy s.records) ?_ hstart
    intro s e hall hfaithful
    exact ⟨(faithfulStep_iff hall e).mp hfaithful, hfaithful.trustworthy⟩
  refine Along.imp (I := fun s => AllTrustworthy s.records) ?_ hstart
  intro s e hall hcareful
  have hfaithful := (faithfulStep_iff hall e).mpr hcareful
  exact ⟨hfaithful, hfaithful.trustworthy⟩

/-! ## Two attempts at once -/

/-- Every text is a date, and the policy's base is two. -/
def sampleHost : Host where
  dateParse := fun _ => some 0
  pow := fun _ n => .ofNat (2 ^ n)
  toUpperCase := id
  toText := fun _ => .ok []
  toNumber := fun _ => .ok .nan

def sampleInput : ExternalReferenceInput where
  referenceId := ascii "ref-001"
  referenceType := .webhookCallbackDelivery
  invoiceId := ascii "inv-001"
  externalIdentifier := ascii "callback-1"
  sourceSystem := ascii "anchor"

/-- Two attempts begin; the first verifies, then the second times out. -/
def overlappingRun : List Event :=
  [.call false sampleInput 0 0 0, .call false sampleInput 0 0 0,
    .settle 0 (.responds (.obj [(ascii "status", .str (ascii "verified")),
      (ascii "observedTimestamp", .str (ascii "1970-01-01T00:00:00Z"))])) 1 1,
    .settle 1 .timesOut 3000 3000]

/-- The verified record is due for a retry, and both attempts are the
    first. -/
theorem late_timeout_reopens : ¬ Along (step sampleHost {}) (FaithfulStep sampleHost {}) State.init
      overlappingRun := by
  rintro ⟨-, -, -, hlast, -⟩
  have hbefore : ((((overlappingRun.take 3).foldl (step sampleHost {})
      State.init).records.get (ascii "ref-001")).map
        (fun record => record.status)) = some .verified := by decide +kernel
  have hafter : (((overlappingRun.foldl (step sampleHost {})
      State.init).records.get (ascii "ref-001")).map
        (fun record => (record.status, record.attemptHistory.map
          (fun entry => entry.attempt)))) = some (.retryScheduled, [1, 1]) := by
    decide +kernel
  obtain ⟨record, hrecord, hverified⟩ := Option.map_eq_some_iff.mp hbefore
  obtain ⟨record', hrecord', hkeeps⟩ := hlast.keeps _ record hrecord
  obtain ⟨record'', hrecord'', hpair⟩ := Option.map_eq_some_iff.mp hafter
  have hsame : some record' = some record'' := hrecord'.symm.trans hrecord''
  cases hsame
  have hstill := (hkeeps hverified).1
  rw [(Prod.mk.inj hpair).1] at hstill
  cases hstill

end ExternalReference

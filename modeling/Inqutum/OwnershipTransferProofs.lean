import Inqutum.InvoiceCursorProofs
import Inqutum.ScriptValueProofs

/-!
# Ownership transfer

`OwnershipTransferService` moves a resource from its owner to a nominee in
two steps.  A transfer waits for acceptance until it is accepted,
cancelled, rejected or found to be past its expiry, and an index holds the
one transfer that waits for each resource.

A call reads the clock up to twice, draws a fresh id and token, and tells
the audit callback what it did; whether the callback throws is part of the
environment (`Env`).  A date that is not valid is `none`.

A call leaves the transfers alone, settles some that wait (`Settles`) or
adds one (`Adds`), and each of these keeps the index exact (`Indexed`).  A
call that throws does so before its first change, except where the audit
event cannot be built or the callback throws (`transfers_lawful_iff`).
-/

namespace OwnershipTransfer

open Transition InsertionMap

/-! ## Records -/

inductive OwnershipTransferStatus where
  | pendingAcceptance
  | accepted
  | cancelled
  | rejected
  | expired
  deriving DecidableEq

def OwnershipTransferStatus.text : OwnershipTransferStatus → String
  | pendingAcceptance => "PENDING_ACCEPTANCE"
  | accepted => "ACCEPTED"
  | cancelled => "CANCELLED"
  | rejected => "REJECTED"
  | expired => "EXPIRED"

inductive ResourceType where
  | sellerAccount
  | organization

def ResourceType.text : ResourceType → String
  | sellerAccount => "SELLER_ACCOUNT"
  | organization => "ORGANIZATION"

inductive PostTransferPreviousOwnerRole where
  | admin
  | collaborator
  | none

def PostTransferPreviousOwnerRole.text : PostTransferPreviousOwnerRole → String
  | admin => "ADMIN"
  | collaborator => "COLLABORATOR"
  | none => "NONE"

structure OwnershipTransferRecord where
  id : String
  resourceType : ResourceType
  resourceId : String
  currentOwnerId : String
  targetOwnerId : String
  targetOwnerEmail : Option String
  transferToken : String
  status : OwnershipTransferStatus
  reason : String
  createdAt : Int
  /-- `none` is an invalid date. -/
  expiresAt : Option Int
  acceptedAt : Option Int
  cancelledAt : Option Int
  rejectedAt : Option Int
  previousOwnerRolePostTransfer : PostTransferPreviousOwnerRole

structure InitiateTransferInput where
  resourceType : ResourceType
  resourceId : String
  currentOwnerId : String
  targetOwnerId : String
  targetOwnerEmail : Option String
  reason : String
  ttlMs : Option JsNumber
  previousOwnerRolePostTransfer : Option PostTransferPreviousOwnerRole

/-! ## Errors -/

structure OwnershipTransferError where
  name : String
  code : String
  message : String
  httpStatus : Nat

def unauthorizedTransferError (message : String) : OwnershipTransferError :=
  ⟨"UnauthorizedTransferError", "UNAUTHORIZED_OWNERSHIP_OPERATION", message, 403⟩

def unauthorizedAcceptorError (message : String) : OwnershipTransferError :=
  ⟨"UnauthorizedAcceptorError", "UNAUTHORIZED_ACCEPTOR", message, 403⟩

def selfTransferForbiddenError : OwnershipTransferError :=
  ⟨"SelfTransferForbiddenError", "SELF_TRANSFER_FORBIDDEN",
    "Target owner cannot be identical to the current owner.", 400⟩

def pendingTransferExistsError (transferId : String) :
    OwnershipTransferError :=
  ⟨"PendingTransferExistsError", "PENDING_TRANSFER_EXISTS",
    "A pending ownership transfer (" ++ transferId
      ++ ") is already active for this resource. Cancel it before initiating"
      ++ " a new one.", 409⟩

def ownershipTransferNotFoundError (transferId : String) :
    OwnershipTransferError :=
  ⟨"OwnershipTransferNotFoundError", "TRANSFER_NOT_FOUND",
    "Ownership transfer request '" ++ transferId ++ "' was not found.", 404⟩

def ownershipTransferExpiredError : OwnershipTransferError :=
  ⟨"OwnershipTransferExpiredError", "TRANSFER_EXPIRED",
    "This ownership transfer invitation has expired and can no longer be" ++ " accepted.", 410⟩

def invalidTransferStateError (status : OwnershipTransferStatus) :
    OwnershipTransferError :=
  ⟨"InvalidTransferStateError", "INVALID_TRANSFER_STATE",
    "Operation cannot be performed on ownership transfer in status '"
      ++ status.text ++ "'. Must be 'PENDING_ACCEPTANCE'.", 409⟩

def invalidTargetOwnerError (reason : String) : OwnershipTransferError :=
  ⟨"InvalidTargetOwnerError", "INVALID_TARGET_OWNER", "Target owner invalid: " ++ reason, 400⟩

/-- What a call throws: an error of the domain, the range error of
    `toISOString()`, or what the audit callback throws. -/
inductive Thrown where
  | transfer (error : OwnershipTransferError)
  | rangeError (message : String)
  | auditCallback

/-! ## The environment of a call -/

/-- What the audit callback is told. -/
structure TransferEvent where
  type : String
  transferId : String
  resourceType : ResourceType
  resourceId : String
  actorId : String
  details : List (String × String)

structure Env where
  /-- `Date.now()`. -/
  now : Int
  /-- `new Date()`, read after it. -/
  date : Int
  /-- `crypto.randomUUID()`. -/
  uuid : String
  /-- `crypto.randomBytes(32).toString('hex')`. -/
  token : String
  /-- Whether the audit callback throws. -/
  auditCallback : TransferEvent → Bool

/-- What the service is built with, and the host's lower case. -/
structure Config where
  defaultTtlMs : JsNumber
  toLowerCase : String → String

def auditEvent (type : String) (record : OwnershipTransferRecord)
    (actorId : String) (details : List (String × String)) : TransferEvent :=
  ⟨type, record.id, record.resourceType, record.resourceId, actorId, details⟩

def emitAudit (env : Env) (event : TransferEvent) : Except Thrown Unit :=
  if env.auditCallback event then .error .auditCallback else .ok ()

/-! ## The service -/

structure OwnershipTransferService where
  transfers : InsertionMap String OwnershipTransferRecord
  activePendingByResource : InsertionMap String String
  tokenIndex : InsertionMap String String
  resourceOwners : InsertionMap String String

/-- `Date.now() > record.expiresAt.getTime()`; an invalid date never passes. -/
def overdue (now : Int) (record : OwnershipTransferRecord) : Bool :=
  match record.expiresAt with
  | some expiresAt => decide (expiresAt < now)
  | none => false

def OwnershipTransferRecord.isPending (record : OwnershipTransferRecord) :
    Bool :=
  decide (record.status = .pendingAcceptance)

namespace OwnershipTransferService

def new : OwnershipTransferService := ⟨.empty, .empty, .empty, .empty⟩

def registerResourceOwner (s : OwnershipTransferService)
    (resourceId ownerId : String) : OwnershipTransferService :=
  { s with resourceOwners := s.resourceOwners.set resourceId ownerId }

def getResourceOwner (s : OwnershipTransferService) (resourceId : String) :
    Option String :=
  s.resourceOwners.get resourceId

/-- Write a transfer's new state and take the resource off the index. -/
def settle (s : OwnershipTransferService) (record : OwnershipTransferRecord)
    (resourceId : String) : OwnershipTransferService :=
  { s with
    transfers := s.transfers.set record.id record
    activePendingByResource := s.activePendingByResource.delete resourceId }

def expire (s : OwnershipTransferService) (record : OwnershipTransferRecord)
    (resourceId : String) : OwnershipTransferService :=
  s.settle { record with status := .expired } resourceId

/-! ### Initiation -/

/-- `input.ttlMs && input.ttlMs > 0 ? input.ttlMs : this.defaultTtlMs`. -/
def ttl (config : Config) (input : InitiateTransferInput) : JsNumber :=
  match input.ttlMs with
  | some ttlMs => if JsNumber.lt 0 ttlMs then ttlMs else config.defaultTtlMs
  | none => config.defaultTtlMs

def newRecord (config : Config) (env : Env)
    (input : InitiateTransferInput) : OwnershipTransferRecord where
  id := env.uuid
  resourceType := input.resourceType
  resourceId := input.resourceId
  currentOwnerId := input.currentOwnerId
  targetOwnerId := input.targetOwnerId
  targetOwnerEmail := input.targetOwnerEmail.map
    (fun email => JsText.trim (config.toLowerCase email))
  transferToken := env.token
  status := .pendingAcceptance
  reason := if input.reason = "" then "Ownership transfer requested by owner."
    else input.reason
  createdAt := env.date
  expiresAt := Canonical.timeClip (JsNumber.add (.finite env.date) (ttl config input))
  acceptedAt := none
  cancelledAt := none
  rejectedAt := none
  previousOwnerRolePostTransfer := input.previousOwnerRolePostTransfer.getD .admin

/-- The initiator is the registered owner, if an owner is registered. -/
def mayInitiate (s : OwnershipTransferService) (input : InitiateTransferInput) : Bool :=
  match s.resourceOwners.get input.resourceId with
  | none => true
  -- an empty owner id counts as none
  | some owner => decide (owner = "") || decide (owner = input.currentOwnerId)

/-- The transfer that waits for the resource, by the index. -/
def existingPending (s : OwnershipTransferService) (resourceId : String) :
    Option OwnershipTransferRecord :=
  match s.activePendingByResource.get resourceId with
  | none => none
  | some transferId =>
    if transferId = "" then none
    else (s.transfers.get transferId).filter (·.isPending)

/-- Steps 1 to 4: the checks, and the service with an overdue transfer
    expired. -/
def checkInitiate (s : OwnershipTransferService) (env : Env) (input : InitiateTransferInput) :
    Except OwnershipTransferError OwnershipTransferService :=
  if !s.mayInitiate input then
    .error (unauthorizedTransferError ("Actor '" ++ input.currentOwnerId
      ++ "' is not the current owner of " ++ input.resourceType.text ++ " '"
      ++ input.resourceId ++ "'."))
  else if input.currentOwnerId = input.targetOwnerId then
    .error selfTransferForbiddenError
  else if JsText.trim input.targetOwnerId = "" then
    .error (invalidTargetOwnerError "Target owner ID or Stellar public key is required.")
  else
    match s.existingPending input.resourceId with
    | none => .ok s
    | some existing =>
      if overdue env.now existing then
        .ok (s.expire existing input.resourceId)
      else
        .error (pendingTransferExistsError
          ((s.activePendingByResource.get input.resourceId).getD ""))

def store (s : OwnershipTransferService) (record : OwnershipTransferRecord) :
    OwnershipTransferService where
  transfers := s.transfers.set record.id record
  activePendingByResource := s.activePendingByResource.set record.resourceId record.id
  tokenIndex := s.tokenIndex.set record.transferToken record.id
  resourceOwners := if s.resourceOwners.has record.resourceId
    then s.resourceOwners
    else s.resourceOwners.set record.resourceId record.currentOwnerId

/-- The service once the callback was told: the call throws what the callback
    throws. -/
def answered (s : OwnershipTransferService) (env : Env)
    (record : OwnershipTransferRecord) (event : TransferEvent) :
    OwnershipTransferService × Except Thrown OwnershipTransferRecord :=
  match emitAudit env event with
  | .error thrown => (s, .error thrown)
  | .ok _ => (s, .ok record)

def initiatedEvent (record : OwnershipTransferRecord) (expiresAt : Int) :
    TransferEvent :=
  auditEvent "OWNERSHIP_TRANSFER_INITIATED" record record.currentOwnerId
    [("targetOwnerId", record.targetOwnerId),
      ("expiresAt", String.ofList (Cursors.toISOString expiresAt))]

/-- The event is built after the record is stored. -/
def initiated (s : OwnershipTransferService) (env : Env) (record : OwnershipTransferRecord) :
    OwnershipTransferService × Except Thrown OwnershipTransferRecord :=
  match record.expiresAt with
  | none => (s, .error (.rangeError "Invalid time value"))
  | some expiresAt => answered s env record (initiatedEvent record expiresAt)

def initiateTransfer (config : Config) (s : OwnershipTransferService)
    (env : Env) (input : InitiateTransferInput) :
    OwnershipTransferService × Except Thrown OwnershipTransferRecord :=
  match s.checkInitiate env input with
  | .error error => (s, .error (.transfer error))
  | .ok checked =>
    initiated (checked.store (newRecord config env input)) env (newRecord config env input)

/-! ### Acceptance, cancellation, rejection -/

def findTransferByIdOrToken (s : OwnershipTransferService)
    (idOrToken : String) : Option OwnershipTransferRecord :=
  match s.transfers.get idOrToken with
  | some record => some record
  | none =>
    match s.tokenIndex.get idOrToken with
    | none => none
    | some id => if id = "" then none else s.transfers.get id

def accepted (env : Env) (transfer : OwnershipTransferRecord) :
    OwnershipTransferRecord :=
  { transfer with status := .accepted, acceptedAt := some env.date }

def acceptedEvent (transfer : OwnershipTransferRecord) (acceptorId : String) : TransferEvent :=
  auditEvent "OWNERSHIP_TRANSFER_ACCEPTED" transfer acceptorId
    [("previousOwnerId", transfer.currentOwnerId), ("newOwnerId", transfer.targetOwnerId),
      ("previousOwnerRole", transfer.previousOwnerRolePostTransfer.text)]

/-- Reassign the owner. -/
def acceptedBy (s : OwnershipTransferService) (env : Env)
    (transfer : OwnershipTransferRecord) : OwnershipTransferService :=
  { s.settle (accepted env transfer) transfer.resourceId with
    resourceOwners := s.resourceOwners.set transfer.resourceId transfer.targetOwnerId }

def acceptTransfer (s : OwnershipTransferService) (env : Env)
    (transferIdOrToken acceptorId : String) :
    OwnershipTransferService × Except Thrown OwnershipTransferRecord :=
  match s.findTransferByIdOrToken transferIdOrToken with
  | none => (s, .error (.transfer (ownershipTransferNotFoundError transferIdOrToken)))
  | some transfer =>
    if transfer.targetOwnerId ≠ acceptorId then
      (s, .error (.transfer (unauthorizedAcceptorError ("Actor '" ++ acceptorId
        ++ "' is not the nominated target owner for this transfer."))))
    else if !transfer.isPending then
      (s, .error (.transfer (invalidTransferStateError transfer.status)))
    else if overdue env.now transfer then
      match emitAudit env (auditEvent "OWNERSHIP_TRANSFER_EXPIRED" transfer acceptorId []) with
      | .error thrown => (s.expire transfer transfer.resourceId, .error thrown)
      | .ok _ => (s.expire transfer transfer.resourceId,
          .error (.transfer ownershipTransferExpiredError))
    else
      answered (s.acceptedBy env transfer) env (accepted env transfer)
        (acceptedEvent transfer acceptorId)

/-- `reason || fallback`. -/
def reasonOr (reason : Option String) (fallback : String) : String :=
  match reason with
  | some reason => if reason = "" then fallback else reason
  | none => fallback

def cancelled (env : Env) (transfer : OwnershipTransferRecord) :
    OwnershipTransferRecord :=
  { transfer with status := .cancelled, cancelledAt := some env.date }

def cancelledEvent (transfer : OwnershipTransferRecord) (actorId : String)
    (reason : Option String) : TransferEvent :=
  auditEvent "OWNERSHIP_TRANSFER_CANCELLED" transfer actorId
    [("reason", reasonOr reason "Cancelled by current owner")]

def cancelTransfer (s : OwnershipTransferService) (env : Env)
    (transferId actorId : String) (reason : Option String) :
    OwnershipTransferService × Except Thrown OwnershipTransferRecord :=
  match s.transfers.get transferId with
  | none => (s, .error (.transfer (ownershipTransferNotFoundError transferId)))
  | some transfer =>
    if transfer.currentOwnerId ≠ actorId then
      (s, .error (.transfer (unauthorizedTransferError
        ("Only the current owner ('" ++ transfer.currentOwnerId
          ++ "') can cancel this ownership transfer."))))
    else if !transfer.isPending then
      (s, .error (.transfer (invalidTransferStateError transfer.status)))
    else
      answered (s.settle (cancelled env transfer) transfer.resourceId) env
        (cancelled env transfer) (cancelledEvent transfer actorId reason)

def rejected (env : Env) (transfer : OwnershipTransferRecord) :
    OwnershipTransferRecord :=
  { transfer with status := .rejected, rejectedAt := some env.date }

def rejectedEvent (transfer : OwnershipTransferRecord) (actorId : String)
    (reason : Option String) : TransferEvent :=
  auditEvent "OWNERSHIP_TRANSFER_REJECTED" transfer actorId
    [("reason", reasonOr reason "Declined by nominee")]

def rejectTransfer (s : OwnershipTransferService) (env : Env)
    (transferId actorId : String) (reason : Option String) :
    OwnershipTransferService × Except Thrown OwnershipTransferRecord :=
  match s.transfers.get transferId with
  | none => (s, .error (.transfer (ownershipTransferNotFoundError transferId)))
  | some transfer =>
    if transfer.targetOwnerId ≠ actorId then
      (s, .error (.transfer (unauthorizedAcceptorError
        ("Only the nominated target owner ('" ++ transfer.targetOwnerId
          ++ "') can decline this transfer."))))
    else if !transfer.isPending then
      (s, .error (.transfer (invalidTransferStateError transfer.status)))
    else
      answered (s.settle (rejected env transfer) transfer.resourceId) env
        (rejected env transfer) (rejectedEvent transfer actorId reason)

/-! ### Lookup -/

def getTransfer (s : OwnershipTransferService) (env : Env) (transferId : String) :
    OwnershipTransferService × Option OwnershipTransferRecord :=
  match s.transfers.get transferId with
  | none => (s, none)
  | some transfer =>
    if transfer.isPending && overdue env.now transfer then
      (s.expire transfer transfer.resourceId, some { transfer with status := .expired })
    else (s, some transfer)

/-- One turn of the loop of `listTransfers`. -/
def visitListed (resourceId : String) (now : Int)
    (s : OwnershipTransferService) (record : OwnershipTransferRecord) :
    OwnershipTransferService :=
  if record.resourceId = resourceId ∧ record.isPending = true
      ∧ overdue now record = true then s.expire record resourceId
  else s

/-- The records listed are the ones of the map, so they show what the loop
    has written. -/
def listTransfers (s : OwnershipTransferService) (env : Env) (resourceId : String) :
    OwnershipTransferService × List OwnershipTransferRecord :=
  let swept := s.transfers.values.foldl (visitListed resourceId env.now) s
  (swept, (swept.transfers.values.filter
    (fun record => decide (record.resourceId = resourceId))).insertionSort
      (fun a b => b.createdAt ≤ a.createdAt))

end OwnershipTransferService

open OwnershipTransferService

/-! ## Runs -/

inductive Op where
  | registerResourceOwner (resourceId ownerId : String)
  | initiateTransfer (input : InitiateTransferInput)
  | acceptTransfer (transferIdOrToken acceptorId : String)
  | cancelTransfer (transferId actorId : String) (reason : Option String)
  | rejectTransfer (transferId actorId : String) (reason : Option String)
  | getTransfer (transferId : String)
  | listTransfers (resourceId : String)

/-- One call: the service after it, and what it threw. -/
def call (config : Config) (s : OwnershipTransferService) (env : Env) :
    Op → OwnershipTransferService × Except Thrown Unit
  | .registerResourceOwner resourceId ownerId =>
    (s.registerResourceOwner resourceId ownerId, .ok ())
  | .initiateTransfer input =>
    (s.initiateTransfer config env input).map id (Except.map (fun _ => ()))
  | .acceptTransfer transferIdOrToken acceptorId =>
    (s.acceptTransfer env transferIdOrToken acceptorId).map id (Except.map (fun _ => ()))
  | .cancelTransfer transferId actorId reason =>
    (s.cancelTransfer env transferId actorId reason).map id (Except.map (fun _ => ()))
  | .rejectTransfer transferId actorId reason =>
    (s.rejectTransfer env transferId actorId reason).map id (Except.map (fun _ => ()))
  | .getTransfer transferId => ((s.getTransfer env transferId).1, .ok ())
  | .listTransfers resourceId => ((s.listTransfers env resourceId).1, .ok ())

def step (config : Config) (s : OwnershipTransferService) (e : Op × Env) :
    OwnershipTransferService :=
  (call config s e.2 e.1).1

/-- The id drawn for a transfer is not empty and was not drawn before. -/
def Fresh (s : OwnershipTransferService) (e : Op × Env) : Prop :=
  match e.1 with
  | .initiateTransfer _ => e.2.uuid ≠ "" ∧ s.transfers.get e.2.uuid = none
  | _ => True

/-- At most one transfer waits for a resource, and the index holds exactly
    that one. -/
def OnePending (s : OwnershipTransferService) : Prop :=
  (∀ id id' r r', s.transfers.get id = some r →
      s.transfers.get id' = some r' → r.resourceId = r'.resourceId →
      r.status = .pendingAcceptance → r'.status = .pendingAcceptance →
      id = id')
    ∧ ∀ resourceId id, s.activePendingByResource.get resourceId = some id
      ↔ ∃ r, s.transfers.get id = some r ∧ r.resourceId = resourceId ∧ r.status = .pendingAcceptance

/-- A transfer that is settled keeps its status. -/
def Frozen (s s' : OwnershipTransferService) : Prop :=
  ∀ id r, s.transfers.get id = some r → r.status ≠ .pendingAcceptance →
    ∃ r', s'.transfers.get id = some r' ∧ r'.status = r.status

/-- A call that throws changes nothing, except that it may expire a transfer
    that waits and is overdue. -/
def ThrowsClean (config : Config) (s : OwnershipTransferService) (e : Op × Env) : Prop :=
  ∀ s' thrown, call config s e.2 e.1 = (s', .error thrown) →
    s' = s ∨ ∃ r, s.transfers.get r.id = some r
      ∧ r.status = .pendingAcceptance ∧ overdue e.2.now r = true
      ∧ s' = s.expire r r.resourceId

def StepLawful (config : Config) (s : OwnershipTransferService) (e : Op × Env) : Prop :=
  OnePending (step config s e) ∧ Frozen s (step config s e) ∧ ThrowsClean config s e

/-- The transfer a call would accept. -/
def acceptable (s : OwnershipTransferService) (env : Env) (transferIdOrToken acceptorId : String) :
    Option OwnershipTransferRecord :=
  (s.findTransferByIdOrToken transferIdOrToken).filter (fun transfer =>
    decide (transfer.targetOwnerId = acceptorId) && transfer.isPending && !overdue env.now transfer)

/-- The transfer a call would cancel. -/
def cancellable (s : OwnershipTransferService) (transferId actorId : String) :
    Option OwnershipTransferRecord :=
  (s.transfers.get transferId).filter (fun transfer =>
    decide (transfer.currentOwnerId = actorId) && transfer.isPending)

/-- The transfer a call would reject. -/
def rejectable (s : OwnershipTransferService) (transferId actorId : String) :
    Option OwnershipTransferRecord :=
  (s.transfers.get transferId).filter (fun transfer =>
    decide (transfer.targetOwnerId = actorId) && transfer.isPending)

/-- A call that passes its checks has an event to report, and the callback
    takes it. -/
def Reported (config : Config) (s : OwnershipTransferService) (e : Op × Env) : Prop :=
  match e.1 with
  | .initiateTransfer input => ∀ checked, s.checkInitiate e.2 input = .ok checked →
      ∃ expiresAt, (newRecord config e.2 input).expiresAt = some expiresAt
        ∧ e.2.auditCallback (initiatedEvent
            (newRecord config e.2 input)
            expiresAt) = false
  | .acceptTransfer k acceptorId => ∀ transfer, acceptable s e.2 k acceptorId = some transfer →
      e.2.auditCallback (acceptedEvent transfer acceptorId) = false
  | .cancelTransfer id actorId reason => ∀ transfer, cancellable s id actorId = some transfer →
      e.2.auditCallback (cancelledEvent transfer actorId reason) = false
  | .rejectTransfer id actorId reason => ∀ transfer, rejectable s id actorId = some transfer →
      e.2.auditCallback (rejectedEvent transfer actorId reason) = false
  | _ => True

/-! ## What a call does to the transfers -/

/-- What stays of a transfer when it is settled. -/
def OwnershipTransferRecord.terms (r : OwnershipTransferRecord) :
    OwnershipTransferRecord :=
  { r with
    status := .pendingAcceptance
    acceptedAt := none
    cancelledAt := none
    rejectedAt := none }

/-- One transfer that waits is settled; only the owner of its resource may
    change. -/
structure Settles (s s' : OwnershipTransferService) (r r' : OwnershipTransferRecord) : Prop where
  found : s.transfers.get r.id = some r
  pending : r.status = .pendingAcceptance
  settled : r'.status ≠ .pendingAcceptance
  terms : r'.terms = r.terms
  transfers : s'.transfers = s.transfers.set r.id r'
  index : s'.activePendingByResource = s.activePendingByResource.delete r.resourceId
  owners : ∀ resourceId, r.resourceId ≠ resourceId →
    s'.resourceOwners.get resourceId = s.resourceOwners.get resourceId

/-- Some transfers that wait are settled, one after the other. -/
def Settling : OwnershipTransferService → OwnershipTransferService → Prop :=
  Relation.ReflTransGen (fun s s' => ∃ r r', Settles s s' r r')

/-- Transfers are stored under their ids, and the index holds exactly those
    that wait. -/
structure Indexed (s : OwnershipTransferService) : Prop where
  keyed : ∀ id r, s.transfers.get id = some r → r.id = id
  named : ∀ id r, s.transfers.get id = some r → id ≠ ""
  index : ∀ resourceId id, s.activePendingByResource.get resourceId = some id
      ↔ ∃ r, s.transfers.get id = some r ∧ r.resourceId = resourceId ∧ r.status = .pendingAcceptance

theorem Indexed.new : Indexed .new where
  keyed _ _ h := nomatch h
  named _ _ h := nomatch h
  index _ _ := iff_of_false nofun (fun ⟨_, h, _⟩ => nomatch h)

theorem Indexed.onePending {s : OwnershipTransferService} (h : Indexed s) : OnePending s := by
  refine ⟨fun id id' r r' hr hr' hres hp hp' => ?_, h.index⟩
  have hone := (h.index r.resourceId id).mpr ⟨r, hr, rfl, hp⟩
  have htwo := (h.index r.resourceId id').mpr ⟨r', hr', hres.symm, hp'⟩
  exact Option.some.inj (hone.symm.trans htwo)

theorem Frozen.refl (s : OwnershipTransferService) : Frozen s s :=
  fun _ r hr _ => ⟨r, hr, rfl⟩

theorem Frozen.trans {s₁ s₂ s₃ : OwnershipTransferService}
    (h₁ : Frozen s₁ s₂) (h₂ : Frozen s₂ s₃) : Frozen s₁ s₃ := by
  intro id r hr hdone
  obtain ⟨r', hr', hstatus⟩ := h₁ id r hr hdone
  obtain ⟨r'', hr'', hstatus'⟩ := h₂ id r' hr' (hstatus ▸ hdone)
  exact ⟨r'', hr'', hstatus'.trans hstatus⟩

section Settle

variable {s s' : OwnershipTransferService} {r r' : OwnershipTransferRecord}

theorem Settles.get (h : Settles s s' r r') (id : String) :
    s'.transfers.get id = if r.id = id then some r' else s.transfers.get id := by
  rw [h.transfers, get_set]

theorem Settles.id_eq (h : Settles s s' r r') : r'.id = r.id :=
  congrArg (·.id) h.terms

theorem Settles.index_get (h : Settles s s' r r') (resourceId : String) :
    s'.activePendingByResource.get resourceId = if r.resourceId = resourceId then none
        else s.activePendingByResource.get resourceId := by
  rw [h.index, get_delete]

theorem Settles.pending_before (hs : Indexed s) (h : Settles s s' r r')
    {id : String} {q : OwnershipTransferRecord} (hq : s'.transfers.get id = some q)
    (hpend : q.status = .pendingAcceptance) :
    s.transfers.get id = some q ∧ r.resourceId ≠ q.resourceId := by
  rw [h.get] at hq
  split at hq
  · rw [← Option.some.inj hq] at hpend
    exact absurd hpend h.settled
  rename_i hne
  refine ⟨hq, fun hres => hne ?_⟩
  exact hs.onePending.1 r.id id r q h.found hq hres h.pending hpend

theorem Settles.indexed (hs : Indexed s) (h : Settles s s' r r') : Indexed s' where
  keyed id q hq := by
    rw [h.get] at hq
    split at hq
    · rename_i hid
      rw [← Option.some.inj hq, h.id_eq]
      exact hid
    · exact hs.keyed id q hq
  named id q hq := by
    rw [h.get] at hq
    split at hq
    · rename_i hid
      exact hid ▸ hs.named r.id r h.found
    · exact hs.named id q hq
  index resourceId id := by
    rw [h.index_get]
    constructor
    · intro hactive
      split at hactive
      · cases hactive
      rename_i hres
      obtain ⟨q, hq, hqres, hpend⟩ := (hs.index resourceId id).mp hactive
      refine ⟨q, ?_, hqres, hpend⟩
      have hne : r.id ≠ id := by
        rintro rfl
        rw [h.found] at hq
        exact hres (Option.some.inj hq ▸ hqres)
      rw [h.get, if_neg hne]
      exact hq
    · rintro ⟨q, hq, hqres, hpend⟩
      obtain ⟨hq', hne⟩ := h.pending_before hs hq hpend
      rw [if_neg (hqres ▸ hne)]
      exact (hs.index resourceId id).mpr ⟨q, hq', hqres, hpend⟩

theorem Settles.frozen (h : Settles s s' r r') : Frozen s s' := by
  intro id q hq hdone
  have hne : r.id ≠ id := by
    rintro rfl
    rw [h.found] at hq
    exact hdone (Option.some.inj hq ▸ h.pending)
  exact ⟨q, by rw [h.get, if_neg hne]; exact hq, rfl⟩

theorem settles_settle (hfound : s.transfers.get r.id = some r)
    (hpending : r.status = .pendingAcceptance)
    (hsettled : r'.status ≠ .pendingAcceptance) (hterms : r'.terms = r.terms) :
    Settles s (s.settle r' r.resourceId) r r' where
  found := hfound
  pending := hpending
  settled := hsettled
  terms := hterms
  transfers := by
    have hid : r'.id = r.id := congrArg (·.id) hterms
    show s.transfers.set r'.id r' = _
    rw [hid]
  index := rfl
  owners _ _ := rfl

theorem settles_acceptedBy {env : Env} (hfound : s.transfers.get r.id = some r)
    (hpending : r.status = .pendingAcceptance) :
    Settles s (s.acceptedBy env r) r (accepted env r) where
  found := hfound
  pending := hpending
  settled := nofun
  terms := rfl
  transfers := rfl
  index := rfl
  owners _ hne := get_set_of_ne _ _ hne

theorem settles_cancelled {env : Env} (hfound : s.transfers.get r.id = some r)
    (hpending : r.status = .pendingAcceptance) :
    Settles s (s.settle (cancelled env r)
      r.resourceId) r (cancelled env r) :=
  settles_settle hfound hpending nofun rfl

theorem settles_rejected {env : Env} (hfound : s.transfers.get r.id = some r)
    (hpending : r.status = .pendingAcceptance) :
    Settles s (s.settle (rejected env r)
      r.resourceId) r (rejected env r) :=
  settles_settle hfound hpending nofun rfl

end Settle

variable {s s' : OwnershipTransferService}

/-- **THE SETTLING RULE**: settling keeps the index exact and settled
    transfers as they are. -/
theorem Settling.indexed (hs : Indexed s) (h : Settling s s') : Indexed s' ∧ Frozen s s' := by
  induction h with
  | refl => exact ⟨hs, .refl s⟩
  | tail _ hstep ih =>
    obtain ⟨r, r', hsettles⟩ := hstep
    exact ⟨hsettles.indexed ih.1, ih.2.trans hsettles.frozen⟩

theorem Settling.one {r r' : OwnershipTransferRecord} (h : Settles s s' r r') : Settling s s' :=
  .single ⟨r, r', h⟩

section Store

variable {s : OwnershipTransferService} {record : OwnershipTransferRecord}

theorem store_get (id : String) : (s.store record).transfers.get id
      = if record.id = id then some record else s.transfers.get id :=
  s.transfers.get_set record.id record id

theorem Indexed.store (hs : Indexed s)
    (hfree : s.activePendingByResource.get record.resourceId = none)
    (hpending : record.status = .pendingAcceptance)
    (hnew : s.transfers.get record.id = none) (hname : record.id ≠ "") :
    Indexed (s.store record) where
  keyed id q hq := by
    rw [store_get] at hq
    split at hq
    · rename_i hid
      cases hq
      exact hid
    · exact hs.keyed id q hq
  named id q hq := by
    rw [store_get] at hq
    split at hq
    · rename_i hid
      exact hid ▸ hname
    · exact hs.named id q hq
  index resourceId id := by
    have hactive : (s.store record).activePendingByResource.get resourceId
        = if record.resourceId = resourceId then some record.id
          else s.activePendingByResource.get resourceId :=
      s.activePendingByResource.get_set record.resourceId record.id resourceId
    rw [hactive]
    constructor
    · intro hget
      split at hget
      · rename_i hres
        cases hget
        exact ⟨record, by rw [store_get, if_pos rfl], hres, hpending⟩
      obtain ⟨q, hq, hrest⟩ := (hs.index resourceId id).mp hget
      refine ⟨q, ?_, hrest⟩
      have hne : record.id ≠ id := by
        rintro rfl
        rw [hnew] at hq
        cases hq
      rw [store_get, if_neg hne]
      exact hq
    · rintro ⟨q, hq, hqres, hpend⟩
      rw [store_get] at hq
      split at hq
      · rename_i hid
        rw [← Option.some.inj hq] at hqres
        rw [if_pos hqres, hid]
      have hold := (hs.index resourceId id).mpr ⟨q, hq, hqres, hpend⟩
      -- nothing waited for the resource of the new transfer
      have hne : record.resourceId ≠ resourceId := by
        rintro rfl
        rw [hfree] at hold
        cases hold
      rw [if_neg hne]
      exact hold

theorem frozen_store (hnew : s.transfers.get record.id = none) : Frozen s (s.store record) := by
  intro id q hq _
  have hne : record.id ≠ id := by
    rintro rfl
    rw [hnew] at hq
    cases hq
  exact ⟨q, by rw [store_get, if_neg hne]; exact hq, rfl⟩

end Store

/-! ## The calls -/

section Calls

variable {s : OwnershipTransferService} {env : Env} {r : OwnershipTransferRecord}

theorem isPending_iff : r.isPending = true ↔ r.status = .pendingAcceptance :=
  decide_eq_true_iff

theorem settles_expire (hfound : s.transfers.get r.id = some r)
    (hpending : r.status = .pendingAcceptance) :
    Settles s (s.expire r r.resourceId) r { r with status := .expired } :=
  settles_settle hfound hpending nofun rfl

theorem existingPending_eq (hs : Indexed s) (resourceId : String) :
    (s.existingPending resourceId = none ∧ s.activePendingByResource.get resourceId = none)
      ∨ ∃ r, s.existingPending resourceId = some r
        ∧ s.transfers.get r.id = some r ∧ r.resourceId = resourceId
        ∧ r.status = .pendingAcceptance := by
  cases hactive : s.activePendingByResource.get resourceId with
  | none =>
    refine .inl ⟨?_, rfl⟩
    rw [existingPending, hactive]
  | some id =>
    obtain ⟨r, hr, hres, hpend⟩ := (hs.index resourceId id).mp hactive
    refine .inr ⟨r, ?_, ?_, hres, hpend⟩
    · rw [existingPending, hactive]
      show (if id = "" then none else _) = some r
      rw [if_neg (hs.named id r hr), hr, Option.filter_some, if_pos (isPending_iff.mpr hpend)]
    rw [hs.keyed id r hr]
    exact hr

/-- **AN INITIATION THAT PASSES ITS CHECKS** names two parties and leaves no
    transfer waiting for the resource. -/
theorem checkInitiate_ok (hs : Indexed s) {input : InitiateTransferInput}
    {checked : OwnershipTransferService} (h : s.checkInitiate env input = .ok checked) :
    s.mayInitiate input = true ∧ input.currentOwnerId ≠ input.targetOwnerId
      ∧ JsText.trim input.targetOwnerId ≠ "" ∧ Settling s checked
      ∧ checked.activePendingByResource.get input.resourceId = none
      ∧ checked.resourceOwners = s.resourceOwners := by
  rw [checkInitiate] at h
  split at h
  · cases h
  rename_i hmay
  split at h
  · cases h
  rename_i hself
  split at h
  · cases h
  rename_i htrim
  refine ⟨by simpa using hmay, hself, htrim, ?_⟩
  rcases existingPending_eq hs input.resourceId with
    ⟨hnone, hfree⟩ | ⟨r, hsome, hfound, hres, hpend⟩
  · rw [hnone] at h
    cases h
    exact ⟨.refl, hfree, rfl⟩
  rw [hsome] at h
  simp only at h
  split at h
  · rw [← Except.ok.inj h, ← hres]
    exact ⟨.one (settles_expire hfound hpend), get_delete_self _ _, rfl⟩
  · cases h

theorem answered_fst (r : OwnershipTransferRecord) (event : TransferEvent) :
    (s.answered env r event).1 = s := by
  rw [answered]
  split <;> rfl

theorem answered_isOk (r : OwnershipTransferRecord) (event : TransferEvent) :
    (s.answered env r event).2.isOk = !env.auditCallback event := by
  rw [answered, emitAudit]
  cases env.auditCallback event <;> rfl

theorem initiated_fst (r : OwnershipTransferRecord) : (s.initiated env r).1 = s := by
  rw [initiated]
  split
  · rfl
  · exact answered_fst r _

theorem initiated_isOk (r : OwnershipTransferRecord) :
    (s.initiated env r).2.isOk = true ↔ ∃ expiresAt,
      r.expiresAt = some expiresAt ∧ env.auditCallback
        (initiatedEvent r expiresAt) = false := by
  rw [initiated]
  split
  · rename_i hnone
    refine iff_of_false nofun ?_
    rintro ⟨_, h, -⟩
    rw [hnone] at h
    cases h
  rename_i expiresAt hsome
  rw [answered_isOk, Bool.not_eq_true', hsome]
  simp only [Option.some.injEq, exists_eq_left']

theorem initiateTransfer_cases (s : OwnershipTransferService)
    (config : Config) (env : Env) (input : InitiateTransferInput) :
    (∃ error, s.checkInitiate env input = .error error ∧ s.initiateTransfer config env input
          = (s, .error (.transfer error)))
      ∨ ∃ checked, s.checkInitiate env input = .ok checked ∧ s.initiateTransfer config env input
          = initiated (checked.store
              (newRecord config env input)) env
            (newRecord config env input) := by
  rw [initiateTransfer]
  cases hcheck : s.checkInitiate env input with
  | error error => exact .inl ⟨error, rfl, rfl⟩
  | ok checked => exact .inr ⟨checked, rfl, rfl⟩

theorem findTransferByIdOrToken_get (hs : Indexed s) {k : String}
    (h : s.findTransferByIdOrToken k = some r) : s.transfers.get r.id = some r := by
  rw [findTransferByIdOrToken] at h
  split at h
  · rename_i hget
    cases h
    rw [hs.keyed _ _ hget]
    exact hget
  split at h
  · cases h
  split at h
  · cases h
  rw [hs.keyed _ _ h]
  exact h

theorem acceptTransfer_cases (hs : Indexed s) (env : Env) (k acceptorId : String) :
    (∃ r, acceptable s env k acceptorId = some r
        ∧ s.transfers.get r.id = some r ∧ r.status = .pendingAcceptance
        ∧ s.acceptTransfer env k acceptorId = (s.acceptedBy env r).answered env
            (accepted env r)
            (acceptedEvent r acceptorId))
      ∨ acceptable s env k acceptorId = none
        ∧ ∃ s' thrown, s.acceptTransfer env k acceptorId = (s', .error thrown)
          ∧ (s' = s ∨ ∃ r, s.transfers.get r.id = some r
            ∧ r.status = .pendingAcceptance ∧ overdue env.now r = true
            ∧ s' = s.expire r r.resourceId) := by
  rw [acceptable, acceptTransfer]
  cases hfind : s.findTransferByIdOrToken k with
  | none => exact .inr ⟨rfl, s, _, rfl, .inl rfl⟩
  | some r =>
    have hget := findTransferByIdOrToken_get hs hfind
    rw [Option.filter_some]
    by_cases hwho : r.targetOwnerId = acceptorId
    · by_cases hpend : r.isPending = true
      · have hstatus := isPending_iff.mp hpend
        by_cases hdue : overdue env.now r = true
        · refine .inr ⟨by simp [hdue], ?_⟩
          simp only [hwho, hpend, hdue, ne_eq, not_true_eq_false, if_false,
            Bool.not_true, Bool.false_eq_true, if_true]
          split
          · exact ⟨_, _, rfl, .inr ⟨r, hget, hstatus, hdue, rfl⟩⟩
          · exact ⟨_, _, rfl, .inr ⟨r, hget, hstatus, hdue, rfl⟩⟩
        · refine .inl ⟨r, by simp [hwho, hpend, hdue], hget, hstatus, ?_⟩
          simp [hwho, hpend, hdue]
      · refine .inr ⟨by simp [hpend], s,
          .transfer (invalidTransferStateError r.status), ?_, .inl rfl⟩
        simp [hwho, hpend]
    · refine .inr ⟨by simp [hwho], s, _, if_pos hwho, .inl rfl⟩

/-- A pending transfer that one party may close, and does. -/
def closing (s : OwnershipTransferService) (env : Env) (id actorId : String)
    (party : OwnershipTransferRecord → String)
    (denied : OwnershipTransferRecord → OwnershipTransferError)
    (closed : OwnershipTransferRecord → OwnershipTransferRecord)
    (event : OwnershipTransferRecord → TransferEvent) :
    OwnershipTransferService × Except Thrown OwnershipTransferRecord :=
  match s.transfers.get id with
  | none => (s, .error (.transfer (ownershipTransferNotFoundError id)))
  | some r =>
    if party r ≠ actorId then (s, .error (.transfer (denied r)))
    else if !r.isPending then
      (s, .error (.transfer (invalidTransferStateError r.status)))
    else (s.settle (closed r) r.resourceId).answered env (closed r) (event r)

theorem closing_cases (hs : Indexed s) (env : Env) (id actorId : String)
    (party : OwnershipTransferRecord → String)
    (denied : OwnershipTransferRecord → OwnershipTransferError)
    (closed : OwnershipTransferRecord → OwnershipTransferRecord)
    (event : OwnershipTransferRecord → TransferEvent) :
    (∃ r, (s.transfers.get id).filter (fun r => decide (party r = actorId) && r.isPending) = some r
        ∧ s.transfers.get r.id = some r ∧ r.status = .pendingAcceptance
        ∧ closing s env id actorId party denied closed event
          = (s.settle (closed r) r.resourceId).answered env (closed r) (event r))
      ∨ (s.transfers.get id).filter (fun r => decide (party r = actorId) && r.isPending) = none
        ∧ ∃ thrown, closing s env id actorId party denied closed event = (s, .error thrown) := by
  rw [closing]
  cases hget : s.transfers.get id with
  | none => exact .inr ⟨rfl, _, rfl⟩
  | some r =>
    have hid := hs.keyed id r hget
    rw [Option.filter_some]
    by_cases hwho : party r = actorId
    · by_cases hpend : r.isPending = true
      · refine .inl ⟨r, by simp [hwho, hpend], by rw [hid]; exact hget,
          isPending_iff.mp hpend, ?_⟩
        simp [hwho, hpend]
      refine .inr ⟨by simp [hpend], .transfer (invalidTransferStateError r.status), ?_⟩
      simp [hwho, hpend]
    · exact .inr ⟨by simp [hwho], _, if_pos hwho⟩

theorem cancelTransfer_cases (hs : Indexed s) (env : Env) (id actorId : String)
    (reason : Option String) : (∃ r, cancellable s id actorId = some r
        ∧ s.transfers.get r.id = some r ∧ r.status = .pendingAcceptance
        ∧ s.cancelTransfer env id actorId reason = answered
            (s.settle (cancelled env r)
              r.resourceId) env (cancelled env r)
            (cancelledEvent r actorId reason))
      ∨ cancellable s id actorId = none ∧ ∃ thrown, s.cancelTransfer env id actorId reason
          = (s, .error thrown) :=
  closing_cases hs env id actorId OwnershipTransferRecord.currentOwnerId
    (fun r => unauthorizedTransferError ("Only the current owner ('"
      ++ r.currentOwnerId ++ "') can cancel this ownership transfer."))
    (cancelled env)
    (fun r => cancelledEvent r actorId reason)

theorem rejectTransfer_cases (hs : Indexed s) (env : Env) (id actorId : String)
    (reason : Option String) : (∃ r, rejectable s id actorId = some r
        ∧ s.transfers.get r.id = some r ∧ r.status = .pendingAcceptance
        ∧ s.rejectTransfer env id actorId reason = answered
            (s.settle (rejected env r)
              r.resourceId) env (rejected env r)
            (rejectedEvent r actorId reason))
      ∨ rejectable s id actorId = none ∧ ∃ thrown, s.rejectTransfer env id actorId reason
          = (s, .error thrown) :=
  closing_cases hs env id actorId OwnershipTransferRecord.targetOwnerId
    (fun r => unauthorizedAcceptorError ("Only the nominated target owner ('"
      ++ r.targetOwnerId ++ "') can decline this transfer."))
    (rejected env)
    (fun r => rejectedEvent r actorId reason)

theorem getTransfer_settling (hs : Indexed s) (id : String) :
    Settling s (s.getTransfer env id).1 := by
  rw [getTransfer]
  split
  · exact .refl
  rename_i r hget
  split
  · rename_i hdue
    rw [Bool.and_eq_true] at hdue
    have hid := hs.keyed id r hget
    exact .one (settles_expire (by rw [hid]; exact hget) (isPending_iff.mp hdue.1))
  · exact .refl

theorem foldl_visitListed (resourceId : String) (now : Int) {records : List OwnershipTransferRecord}
    (hnd : (records.map OwnershipTransferRecord.id).Nodup)
    (hcur : ∀ r ∈ records, s.transfers.get r.id = some r) :
    Settling s (records.foldl (visitListed resourceId now) s) := by
  induction records generalizing s with
  | nil => exact .refl
  | cons r rest ih =>
    rw [List.map_cons, List.nodup_cons] at hnd
    rw [List.foldl_cons, visitListed]
    split
    · rename_i hdue
      obtain ⟨hres, hpend, -⟩ := hdue
      have hsettles : Settles s (s.expire r resourceId) r { r with status := .expired } := by
        rw [← hres]
        exact settles_expire (hcur r (.head _)) (isPending_iff.mp hpend)
      refine Relation.ReflTransGen.trans (Settling.one hsettles) (ih hnd.2 ?_)
      intro q hq
      have hne : r.id ≠ q.id := fun heq => hnd.1 (heq ▸ List.mem_map_of_mem hq)
      rw [hsettles.get, if_neg hne]
      exact hcur q (.tail _ hq)
    · exact ih hnd.2 (fun q hq => hcur q (.tail _ hq))

theorem listTransfers_settling (hs : Indexed s) (resourceId : String) :
    Settling s (s.listTransfers env resourceId).1 := by
  refine foldl_visitListed resourceId env.now ?_ ?_
  · rw [map_values_eq_keys hs.keyed]
    exact s.transfers.nodup
  intro r hr
  exact get_of_mem_values hs.keyed hr

end Calls

/-! ## Whole calls -/

section Steps

variable {config : Config} {s : OwnershipTransferService} {e : Op × Env}

/-- **WHAT A CALL DOES** to the transfers: it settles some, after which it may
    add one that nothing waits for. -/
theorem step_cases (config : Config) (e : Op × Env) (hs : Indexed s) :
    (∃ resourceId ownerId, e.1 = .registerResourceOwner resourceId ownerId
        ∧ step config s e = s.registerResourceOwner resourceId ownerId)
      ∨ Settling s (step config s e)
      ∨ ∃ input checked, e.1 = .initiateTransfer input ∧ s.checkInitiate e.2 input = .ok checked
        ∧ step config s e = checked.store
          (newRecord config e.2 input) := by
  obtain ⟨op, env⟩ := e
  cases op with
  | registerResourceOwner resourceId ownerId => exact .inl ⟨resourceId, ownerId, rfl, rfl⟩
  | initiateTransfer input =>
    right
    have hstep : step config s (.initiateTransfer input, env)
        = (s.initiateTransfer config env input).1 := rfl
    rcases initiateTransfer_cases s config env input with
      ⟨error, -, heq⟩ | ⟨checked, hcheck, heq⟩
    · left
      rw [hstep, heq]
      exact .refl
    right
    refine ⟨input, checked, rfl, hcheck, ?_⟩
    rw [hstep, heq, initiated_fst]
  | acceptTransfer k acceptorId =>
    right; left
    have hstep : step config s (.acceptTransfer k acceptorId, env)
        = (s.acceptTransfer env k acceptorId).1 := rfl
    rcases acceptTransfer_cases hs env k acceptorId with
      ⟨r, -, hfound, hpend, heq⟩ | ⟨-, s', thrown, heq, hclean⟩
    · rw [hstep, heq, answered_fst]
      exact .one (settles_acceptedBy hfound hpend)
    rw [hstep, heq]
    rcases hclean with rfl | ⟨r, hfound, hpend, -, rfl⟩
    · exact .refl
    · exact .one (settles_expire hfound hpend)
  | cancelTransfer id actorId reason =>
    right; left
    have hstep : step config s (.cancelTransfer id actorId reason, env)
        = (s.cancelTransfer env id actorId reason).1 := rfl
    rcases cancelTransfer_cases hs env id actorId reason with
      ⟨r, -, hfound, hpend, heq⟩ | ⟨-, thrown, heq⟩
    · rw [hstep, heq, answered_fst]
      exact .one (settles_cancelled hfound hpend)
    rw [hstep, heq]
    exact .refl
  | rejectTransfer id actorId reason =>
    right; left
    have hstep : step config s (.rejectTransfer id actorId reason, env)
        = (s.rejectTransfer env id actorId reason).1 := rfl
    rcases rejectTransfer_cases hs env id actorId reason with
      ⟨r, -, hfound, hpend, heq⟩ | ⟨-, thrown, heq⟩
    · rw [hstep, heq, answered_fst]
      exact .one (settles_rejected hfound hpend)
    rw [hstep, heq]
    exact .refl
  | getTransfer id => exact .inr (.inl (getTransfer_settling hs id))
  | listTransfers resourceId => exact .inr (.inl (listTransfers_settling hs resourceId))

theorem fresh_checked {checked : OwnershipTransferService}
    (hsettling : Settling s checked) {id : String}
    (hnew : s.transfers.get id = none) : checked.transfers.get id = none := by
  induction hsettling with
  | refl => exact hnew
  | tail _ hstep ih =>
    obtain ⟨r, r', hsettles⟩ := hstep
    have hne : r.id ≠ id := by
      rintro rfl
      rw [hsettles.found] at ih
      cases ih
    rw [hsettles.get, if_neg hne]
    exact ih

theorem Indexed.step (hs : Indexed s) (config : Config) (hfresh : Fresh s e) :
    Indexed (step config s e) ∧ Frozen s (step config s e) := by
  rcases step_cases config e hs with
    ⟨resourceId, ownerId, -, heq⟩ | hsettling | ⟨input, checked, hop, hcheck, heq⟩
  · rw [heq]
    exact ⟨⟨hs.keyed, hs.named, hs.index⟩, .refl s⟩
  · exact hsettling.indexed hs
  rw [heq]
  rw [Fresh, hop] at hfresh
  obtain ⟨hname, hnew⟩ := hfresh
  obtain ⟨-, -, -, hsettling, hfree, -⟩ := checkInitiate_ok hs hcheck
  obtain ⟨hchecked, hfrozen⟩ := hsettling.indexed hs
  have hnew' := fresh_checked hsettling hnew
  exact ⟨hchecked.store hfree rfl hnew' hname, hfrozen.trans (frozen_store hnew')⟩

/-! ## Calls that throw -/

/-- The service as a call that throws may leave it. -/
def CleanAfter (s : OwnershipTransferService) (now : Int) (s' : OwnershipTransferService) : Prop :=
  s' = s ∨ ∃ r, s.transfers.get r.id = some r ∧ r.status = .pendingAcceptance ∧ overdue now r = true
    ∧ s' = s.expire r r.resourceId

variable {s' : OwnershipTransferService}

theorem Settles.not_clean {r r' : OwnershipTransferRecord} (h : Settles s s' r r')
    (hstatus : r'.status ≠ .expired) (now : Int) : ¬ CleanAfter s now s' := by
  have hget : s'.transfers.get r.id = some r' := by rw [h.get, if_pos rfl]
  rintro (rfl | ⟨q, hfound, hpend, -, rfl⟩)
  · rw [h.found] at hget
    exact h.settled (Option.some.inj hget ▸ h.pending)
  rw [(settles_expire hfound hpend).get] at hget
  split at hget
  · exact hstatus (congrArg (·.status) (Option.some.inj hget)).symm
  rw [h.found] at hget
  exact h.settled (Option.some.inj hget ▸ h.pending)

theorem not_clean_store (checked : OwnershipTransferService) (record : OwnershipTransferRecord)
    (hnew : s.transfers.get record.id = none) (now : Int) :
    ¬ CleanAfter s now (checked.store record) := by
  have hget : (checked.store record).transfers.get record.id = some record :=
    by rw [store_get, if_pos rfl]
  rintro (heq | ⟨r, hfound, hpend, -, heq⟩)
  · rw [heq, hnew] at hget
    cases hget
  have hne : r.id ≠ record.id := by
    intro hid
    rw [hid, hnew] at hfound
    cases hfound
  rw [heq, (settles_expire hfound hpend).get, if_neg hne, hnew] at hget
  cases hget

/-- A result is a value, or the call has left the service clean. -/
def CleanResult (s : OwnershipTransferService) (now : Int)
    (x : OwnershipTransferService × Except Thrown OwnershipTransferRecord) :
    Prop :=
  x.2.isOk = true ∨ CleanAfter s now x.1

theorem cleanResult_iff (now : Int)
    (x : OwnershipTransferService × Except Thrown OwnershipTransferRecord) :
    (∀ s' thrown, x.map id (Except.map (fun _ => ())) = (s', .error thrown) →
        CleanAfter s now s') ↔ CleanResult s now x := by
  obtain ⟨s₁, result⟩ := x
  cases result with
  | ok record => exact iff_of_true (fun _ _ h => nomatch (Prod.mk.inj h).2) (.inl rfl)
  | error thrown =>
    constructor
    · intro h
      exact .inr (h s₁ thrown rfl)
    rintro (hok | hclean) s' thrown' heq
    · cases hok
    rw [← (Prod.mk.inj heq).1]
    exact hclean

theorem answered_clean_iff {env : Env}
    {r r' record : OwnershipTransferRecord} (h : Settles s s' r r')
    (hstatus : r'.status ≠ .expired) (event : TransferEvent) :
    CleanResult s env.now (s'.answered env record event) ↔ env.auditCallback event = false := by
  rw [CleanResult, answered_isOk, answered_fst, Bool.not_eq_true']
  exact or_iff_left (h.not_clean hstatus env.now)

/-- **WHEN A THROW IS CLEAN**: exactly if what was done is reported. -/
theorem throwsClean_iff (hs : Indexed s) (hfresh : Fresh s e) :
    ThrowsClean config s e ↔ Reported config s e := by
  obtain ⟨op, env⟩ := e
  cases op with
  | registerResourceOwner => exact iff_of_true (fun _ _ h => nomatch h) trivial
  | getTransfer => exact iff_of_true (fun _ _ h => nomatch h) trivial
  | listTransfers => exact iff_of_true (fun _ _ h => nomatch h) trivial
  | initiateTransfer input =>
    refine (cleanResult_iff env.now (s.initiateTransfer config env input)).trans ?_
    rcases initiateTransfer_cases s config env input with
      ⟨error, hcheck, heq⟩ | ⟨checked, hcheck, heq⟩
    · rw [heq]
      refine iff_of_true (Or.inr (Or.inl rfl)) (fun checked h => ?_)
      cases hcheck.symm.trans h
    have hdirty := not_clean_store checked (newRecord config env input)
      hfresh.2 env.now
    rw [heq, CleanResult, initiated_isOk, initiated_fst, or_iff_left hdirty]
    exact ⟨fun h _ _ => h, fun h => h checked hcheck⟩
  | acceptTransfer k acceptorId =>
    refine (cleanResult_iff env.now (s.acceptTransfer env k acceptorId)).trans ?_
    show _ ↔ ∀ transfer, acceptable s env k acceptorId = some transfer → _
    rcases acceptTransfer_cases hs env k acceptorId with
      ⟨r, hacc, hfound, hpend, heq⟩ | ⟨hnone, s₁, thrown, heq, hclean⟩
    · rw [heq, answered_clean_iff (settles_acceptedBy hfound hpend) nofun, hacc]
      simp only [Option.some.injEq, forall_eq']
    rw [heq, hnone]
    exact iff_of_true (Or.inr hclean) (fun _ h => nomatch h)
  | cancelTransfer id actorId reason =>
    refine (cleanResult_iff env.now (s.cancelTransfer env id actorId reason)).trans ?_
    show _ ↔ ∀ transfer, cancellable s id actorId = some transfer → _
    rcases cancelTransfer_cases hs env id actorId reason with
      ⟨r, hacc, hfound, hpend, heq⟩ | ⟨hnone, thrown, heq⟩
    · rw [heq, answered_clean_iff (settles_cancelled hfound hpend) nofun, hacc]
      simp only [Option.some.injEq, forall_eq']
    rw [heq, hnone]
    exact iff_of_true (Or.inr (Or.inl rfl)) (fun _ h => nomatch h)
  | rejectTransfer id actorId reason =>
    refine (cleanResult_iff env.now (s.rejectTransfer env id actorId reason)).trans ?_
    show _ ↔ ∀ transfer, rejectable s id actorId = some transfer → _
    rcases rejectTransfer_cases hs env id actorId reason with
      ⟨r, hacc, hfound, hpend, heq⟩ | ⟨hnone, thrown, heq⟩
    · rw [heq, answered_clean_iff (settles_rejected hfound hpend) nofun, hacc]
      simp only [Option.some.injEq, forall_eq']
    rw [heq, hnone]
    exact iff_of_true (Or.inr (Or.inl rfl)) (fun _ h => nomatch h)

/-- **THE STATE MACHINE IS LAWFUL** exactly in the runs whose calls can report
    what they did: the index is exact and settled transfers stay settled in
    every run, but a call that cannot report throws after its change. -/
theorem transfers_lawful_iff (config : Config) (events : List (Op × Env))
    (hfresh : Along (step config) Fresh .new events) :
    Along (step config) (StepLawful config) .new events
      ↔ Along (step config) (Reported config) .new events := by
  constructor
  · intro h
    refine Along.imp (I := Indexed) ?_ Indexed.new (hfresh.and h)
    rintro s e hs ⟨hnew, hlawful⟩
    exact ⟨(throwsClean_iff hs hnew).mp hlawful.2.2, (hs.step config hnew).1⟩
  intro h
  refine Along.imp (I := Indexed) ?_ Indexed.new (hfresh.and h)
  rintro s e hs ⟨hnew, hreported⟩
  obtain ⟨hindexed, hfrozen⟩ := hs.step config hnew
  exact ⟨⟨hindexed.onePending, hfrozen, (throwsClean_iff hs hnew).mpr hreported⟩, hindexed⟩

end Steps

/-! ## An expiry that is not a date -/

def sampleConfig : Config := ⟨.ofNat (48 * 60 * 60 * 1000), id⟩

/-- A callback that takes every event. -/
def sampleEnv (now : Int) (uuid : String) : Env :=
  ⟨now, now, uuid, "token-" ++ uuid, fun _ => false⟩

def sampleOffer (currentOwnerId : String) (ttlMs : JsNumber) : InitiateTransferInput where
  resourceType := .sellerAccount
  resourceId := "shop"
  currentOwnerId := currentOwnerId
  targetOwnerId := "bob"
  targetOwnerEmail := none
  reason := "sold"
  ttlMs := some ttlMs
  previousOwnerRolePostTransfer := none

/-- The offer ends after the last date there is. -/
def endlessOffer : Op × Env :=
  (.initiateTransfer (sampleOffer "alice" (.ofNat (10 ^ 17))), sampleEnv 0 "t1")

theorem endlessOffer_fresh : Along (step sampleConfig) Fresh .new [endlessOffer] :=
  ⟨⟨by decide, rfl⟩, trivial⟩

/-- Two offers of the shop, the second while the first one waits. -/
def offers : List (Op × Env) :=
  [(.initiateTransfer (sampleOffer "alice" (.ofNat 1000)), sampleEnv 0 "t1"),
    (.initiateTransfer (sampleOffer "alice" (.ofNat 1000)), sampleEnv 1 "t2")]

theorem transfers_lawful_offers : Along (step sampleConfig) (StepLawful sampleConfig) .new offers :=
  (transfers_lawful_iff sampleConfig offers
    ⟨⟨by decide, rfl⟩, ⟨by decide +kernel, by decide +kernel⟩, trivial⟩).mpr
    ⟨fun _ _ => ⟨1000, by decide +kernel, rfl⟩, fun _ _ => ⟨1001, by decide +kernel, rfl⟩, trivial⟩

/-- The transfer is stored and waits, and the call throws. -/
theorem endlessOffer_unlawful : ¬ ∀ config events, Along (step config) Fresh .new events →
      Along (step config) (StepLawful config) .new events := by
  intro hall
  have hclean : ThrowsClean sampleConfig .new endlessOffer :=
    (hall sampleConfig [endlessOffer] endlessOffer_fresh).1.2.2
  have hreported := (throwsClean_iff .new endlessOffer_fresh.1).mp hclean
  have hchecked : (new.checkInitiate
      (sampleEnv 0 "t1") (sampleOffer "alice" (.ofNat (10 ^ 17)))).isOk = true
    ∧ (newRecord sampleConfig (sampleEnv 0 "t1")
      (sampleOffer "alice" (.ofNat (10 ^ 17)))).expiresAt = none := by
    decide +kernel
  cases hcheck : new.checkInitiate
      (sampleEnv 0 "t1") (sampleOffer "alice" (.ofNat (10 ^ 17))) with
  | error error =>
    rw [hcheck] at hchecked
    cases hchecked.1
  | ok checked =>
    obtain ⟨expiresAt, hexpires, -⟩ := hreported checked hcheck
    have hnone := hchecked.2.symm.trans hexpires
    cases hnone

end OwnershipTransfer

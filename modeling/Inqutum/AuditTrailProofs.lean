import Inqutum.HashChainProofs
import Inqutum.InsertionMapProofs
import Inqutum.ScriptValueProofs

/-!
# The audit trail

`MemoryAuditStore` keeps the newest events in a buffer of bounded size.
Each event carries the hash of the one recorded before it, and
`verifyChain` walks the retained events from the oldest.  It starts from
no hash at all, which is what the first event ever recorded carries.

`dropped` below is the history the buffer has lost.  Lost and retained
events together are one hash chain (`Kept.recordAll`), so what is left
verifies from the start only as long as nothing was lost
(`trail_verifies_iff`).  `verifyEventChain`, which takes the oldest retained
link as it is, accepts every trail and says whether it is truncated
(`verifyEventChain_recordAll`).

The digest and `redactSensitiveText` are parameters.
-/

namespace AuditTrail

open Canonical HashChain
open JsonText (Text ascii)
open List JsNumber

/-! ## Sanitizing -/

def sensitiveKeySubstrings : List String :=
  ["secret", "password", "authorization", "privatekey", "private_key",
    "token", "credential", "apikey", "api_key"]

structure Redactor where
  redactSensitiveText : Text → Text
  /-- `text.toLowerCase()`. -/
  toLowerCase : Text → Text

def Redactor.isSensitiveKey (r : Redactor) (key : Text) : Bool :=
  sensitiveKeySubstrings.any (fun sub => decide (ascii sub <:+: r.toLowerCase key))

/-- `Object.entries` of a buffer: its bytes by index. -/
def bufferMembers (bytes : List (Fin 256)) : List (Text × JsValue) :=
  bytes.zipIdx.map (fun b => (ascii (toString b.2), .number (.ofNat b.1.val)))

mutual

def sanitizeObject (r : Redactor) : JsValue → JsValue
  | .str s => .str (r.redactSensitiveText s)
  | .arr items => .arr (sanitizeItems r items)
  | .obj members => .obj (sanitizeMembers r members)
  | .buffer bytes => .obj (bufferMembers bytes)
  | data => data

def sanitizeItems (r : Redactor) : List JsValue → List JsValue
  | [] => []
  | item :: rest => sanitizeObject r item :: sanitizeItems r rest

def sanitizeMembers (r : Redactor) : List (Text × JsValue) → List (Text × JsValue)
  | [] => []
  | (key, value) :: rest =>
    -- An assignment to `__proto__` makes no member.
    if key = ascii "__proto__" then sanitizeMembers r rest
    else if r.isSensitiveKey key then
      (key, .str (ascii "[REDACTED]")) :: sanitizeMembers r rest
    else (key, sanitizeObject r value) :: sanitizeMembers r rest

end

/-! ## Events -/

inductive AuditAction where
  | invoiceCreated
  | invoiceCancelled
  | paymentVerified
  | paymentSimulated
  | invoiceExpired
  | proofExported
  | maintainerAction
  | impersonationStarted
  | impersonationEnded
  | impersonationRevoked
  | impersonationExpired
  | impersonationActionAllowed
  | impersonationActionBlocked
  | capabilityIssued
  | configChanged
  deriving DecidableEq

def AuditAction.text : AuditAction → String
  | invoiceCreated => "INVOICE_CREATED"
  | invoiceCancelled => "INVOICE_CANCELLED"
  | paymentVerified => "PAYMENT_VERIFIED"
  | paymentSimulated => "PAYMENT_SIMULATED"
  | invoiceExpired => "INVOICE_EXPIRED"
  | proofExported => "PROOF_EXPORTED"
  | maintainerAction => "MAINTAINER_ACTION"
  | impersonationStarted => "IMPERSONATION_STARTED"
  | impersonationEnded => "IMPERSONATION_ENDED"
  | impersonationRevoked => "IMPERSONATION_REVOKED"
  | impersonationExpired => "IMPERSONATION_EXPIRED"
  | impersonationActionAllowed => "IMPERSONATION_ACTION_ALLOWED"
  | impersonationActionBlocked => "IMPERSONATION_ACTION_BLOCKED"
  | capabilityIssued => "CAPABILITY_ISSUED"
  | configChanged => "CONFIG_CHANGED"

inductive AuditActorType where
  | seller
  | payer
  | system
  | maintainer
  deriving DecidableEq

def AuditActorType.text : AuditActorType → String
  | seller => "seller"
  | payer => "payer"
  | system => "system"
  | maintainer => "maintainer"

structure AuditActor where
  type : AuditActorType
  id : Text
  ip : Option Text
  userAgent : Option Text

inductive AuditEntityType where
  | invoice
  | system
  | stellar
  | config
  deriving DecidableEq

def AuditEntityType.text : AuditEntityType → String
  | invoice => "invoice"
  | system => "system"
  | stellar => "stellar"
  | config => "config"

structure AuditScope where
  entityType : AuditEntityType
  entityId : Text

/-- `Omit<AuditEvent, 'hash'>`. -/
structure EventWithoutHash where
  id : Text
  timestamp : Text
  action : AuditAction
  actor : AuditActor
  scope : AuditScope
  reason : Option Text
  beforeState : JsValue
  afterState : JsValue
  metadata : JsValue
  correlationId : Option Text
  previousHash : Option Text

structure AuditEvent extends EventWithoutHash where
  hash : Text

def EventWithoutHash.value (event : EventWithoutHash) : JsValue :=
  .obj [(ascii "id", .str event.id), (ascii "timestamp", .str event.timestamp),
    (ascii "action", .str (ascii event.action.text)),
    (ascii "actor", .obj [(ascii "type", .str (ascii event.actor.type.text)),
      (ascii "id", .str event.actor.id),
      (ascii "ip", optional event.actor.ip),
      (ascii "userAgent", optional event.actor.userAgent)]),
    (ascii "scope", .obj [(ascii "entityType", .str (ascii event.scope.entityType.text)),
      (ascii "entityId", .str event.scope.entityId)]),
    (ascii "reason", optional event.reason),
    (ascii "beforeState", event.beforeState),
    (ascii "afterState", event.afterState),
    (ascii "metadata", event.metadata),
    (ascii "correlationId", optional event.correlationId),
    (ascii "previousHash", nullable event.previousHash)]

/-- What recording and verifying rest on. -/
structure Host where
  engine : Engine
  redactor : Redactor
  /-- The SHA-256 digest of a text, in hex. -/
  sha256 : Text → Text

def hashEvent (host : Host) (event : EventWithoutHash) :
    Except Thrown Text :=
  (canonicalize host.engine event.value).map host.sha256

/-! ## The store -/

structure MemoryAuditStore where
  events : List AuditEvent
  maxCapacity : JsNumber
  eventsByEntity : InsertionMap Text (List Text)
  eventsByActor : InsertionMap Text (List Text)
  eventsById : InsertionMap Text AuditEvent

namespace MemoryAuditStore

/-- `new MemoryAuditStore(maxCapacity)`. -/
def new (maxCapacity : JsNumber) : MemoryAuditStore :=
  ⟨[], maxCapacity, .empty, .empty, .empty⟩

end MemoryAuditStore

/-- The input of `recordEvent`. -/
structure AuditInput where
  timestamp : Option Text
  action : AuditAction
  actor : AuditActor
  scope : AuditScope
  reason : Option Text
  beforeState : JsValue
  afterState : JsValue
  metadata : JsValue
  correlationId : Option Text

/-- One call of `recordEvent`, with the identifier and the time it draws. -/
structure Call where
  input : AuditInput
  uuid : Text
  now : Text

/-- `input.timestamp || new Date().toISOString()`. -/
def Call.timestamp (call : Call) : Text :=
  match call.input.timestamp with
  | none => call.now
  | some text => if text = [] then call.now else text

/-- The event a call builds on the hash of the newest event. -/
def Call.event (host : Host) (call : Call) (previousHash : Option Text) :
    EventWithoutHash :=
  let input := call.input
  let sanitizeForLogging := sanitizeObject host.redactor
  { id := call.uuid
    timestamp := call.timestamp
    action := input.action
    actor := input.actor
    scope := input.scope
    reason := input.reason
    beforeState := if truthy input.beforeState
      then sanitizeForLogging input.beforeState else .null
    afterState := if truthy input.afterState
      then sanitizeForLogging input.afterState else .null
    metadata := if truthy input.metadata
      then sanitizeForLogging input.metadata else .undefined
    correlationId := input.correlationId
    previousHash := previousHash }

namespace MemoryAuditStore

/-- Take an event's identifier off the list of a key. -/
def unindex (index : InsertionMap Text (List Text)) (key id : Text) :
    InsertionMap Text (List Text) :=
  match index.get key with
  | none => index
  | some ids => index.set key (ids.erase id)

/-- Append an event's identifier to the list of a key. -/
def enlist (index : InsertionMap Text (List Text)) (key id : Text) :
    InsertionMap Text (List Text) :=
  index.set key ((index.get key).getD [] ++ [id])

/-- `this.events.length >= this.maxCapacity`. -/
def full (store : MemoryAuditStore) : Bool :=
  le store.maxCapacity (.ofNat store.events.length)

/-- Evict the oldest event from the buffer and the indexes. -/
def evict (store : MemoryAuditStore) : MemoryAuditStore :=
  match store.events with
  | [] => store
  | oldest :: rest =>
    { store with
      events := rest
      eventsById := store.eventsById.delete oldest.id
      eventsByEntity := unindex store.eventsByEntity oldest.scope.entityId oldest.id
      eventsByActor := unindex store.eventsByActor oldest.actor.id oldest.id }

/-- Append an event to the buffer and the indexes. -/
def push (store : MemoryAuditStore) (event : AuditEvent) :
    MemoryAuditStore :=
  { store with
    events := store.events ++ [event]
    eventsById := store.eventsById.set event.id event
    eventsByEntity := enlist store.eventsByEntity event.scope.entityId event.id
    eventsByActor := enlist store.eventsByActor event.actor.id event.id }

/-- `this.events.at(-1)?.hash ?? null`. -/
def previousHash (store : MemoryAuditStore) : Option Text :=
  store.events.getLast?.map AuditEvent.hash

def recordEvent (host : Host) (store : MemoryAuditStore) (call : Call) :
    Except Thrown (AuditEvent × MemoryAuditStore) :=
  let eventWithoutHash := call.event host store.previousHash
  match hashEvent host eventWithoutHash with
  | .error thrown => .error thrown
  | .ok hash =>
    let event : AuditEvent := { eventWithoutHash with hash := hash }
    let store := if store.full then store.evict else store
    .ok (event, store.push event)

/-- The store after a call; one that throws has changed nothing. -/
def record (host : Host) (store : MemoryAuditStore) (call : Call) :
    MemoryAuditStore :=
  match recordEvent host store call with
  | .ok (_, store') => store'
  | .error _ => store

def recordAll (host : Host) (store : MemoryAuditStore) (calls : List Call) :
    MemoryAuditStore :=
  calls.foldl (record host) store

end MemoryAuditStore

open MemoryAuditStore

/-! ## Verifying -/

inductive FailureReason where
  | previousHash
  | eventHash
  deriving DecidableEq

structure ChainFailure where
  index : Nat
  eventId : Text
  reason : FailureReason
  deriving DecidableEq

structure AuditChainVerification where
  valid : Bool
  checked : Nat
  failure : Option ChainFailure
  deriving DecidableEq

/-- The loop of `verifyChain`. -/
def verifyFrom (host : Host) : Option Text → Nat → List AuditEvent →
      Except Thrown AuditChainVerification
  | _, index, [] => .ok ⟨true, index, none⟩
  | previousHash, index, event :: rest =>
    if event.previousHash ≠ previousHash then
      .ok ⟨false, index + 1, some ⟨index, event.id, .previousHash⟩⟩
    else
      match hashEvent host event.toEventWithoutHash with
      | .error thrown => .error thrown
      | .ok hash =>
        if event.hash ≠ hash then
          .ok ⟨false, index + 1, some ⟨index, event.id, .eventHash⟩⟩
        else verifyFrom host (some event.hash) (index + 1) rest

def MemoryAuditStore.verifyChain (host : Host) (store : MemoryAuditStore) :
    Except Thrown AuditChainVerification :=
  verifyFrom host none 0 store.events

structure ChainIntegrity where
  valid : Bool
  /-- The oldest retained event links to one that was evicted. -/
  truncated : Bool
  brokenAt : Option Text
  deriving DecidableEq

/-- `i === 0 || event.previousHash === before.hash`. -/
def linkedTo (event : AuditEvent) : Option AuditEvent → Bool
  | none => true
  | some before => event.previousHash = some before.hash

/-- The loop of `verifyEventChain`; there is no event before the first. -/
def linksFrom (host : Host) : Option AuditEvent → List AuditEvent → Except Thrown (Option Text)
  | _, [] => .ok none
  | before, event :: rest =>
    if !linkedTo event before then .ok (some event.id)
    else
      match hashEvent host event.toEventWithoutHash with
      | .error thrown => .error thrown
      | .ok hash =>
        if event.hash ≠ hash then .ok (some event.id)
        else linksFrom host (some event) rest

def verifyEventChain (host : Host) (events : List AuditEvent) :
    Except Thrown ChainIntegrity :=
  (linksFrom host none events).map (fun brokenAt =>
    match brokenAt with
    | some id => ⟨false, false, some id⟩
    | none => ⟨true, (events.head?.bind (fun event => event.previousHash)).isSome, none⟩)

/-! ## Calls that throw -/

/-- Whether a call records an event: the values it brings have a text. -/
def Call.recordable (host : Host) (call : Call) : Bool :=
  (hashEvent host (call.event host none)).isOk

theorem hashEvent_isOk (host : Host) (event : EventWithoutHash) : (hashEvent host event).isOk
      = (serialize host.engine event.value).isOk := by
  show (Except.map _ (serialize host.engine event.value)).isOk = _
  cases serialize host.engine event.value <;> rfl

theorem recordable_event (host : Host) (call : Call) (previousHash : Option Text) :
    (hashEvent host (call.event host previousHash)).isOk = call.recordable host := by
  rw [Call.recordable, hashEvent_isOk, hashEvent_isOk,
    EventWithoutHash.value, EventWithoutHash.value, serialize_obj_isOk,
    serialize_obj_isOk]
  -- The two events differ in their last member, a text or `null`.
  simp only [Call.event, all_cons, all_nil, writable_nullable]

/-! ## The history -/

/-- The number of events the calls record. -/
def recorded (host : Host) (calls : List Call) : Nat :=
  calls.countP (Call.recordable host)

/-- The buffer has room next to `n` events. -/
def Room (capacity : JsNumber) (n : Nat) : Prop :=
  lt (.ofNat n) capacity = true

theorem room_iff {capacity : JsNumber} (hcap : le 1 capacity = true)
    (n : Nat) : Room capacity n ↔ le capacity (.ofNat n) = false := by
  cases capacity with
  | finite q =>
    have hle : ∀ x y : ℚ, le (.finite x) (.finite y) = decide (x ≤ y) := fun _ _ => rfl
    simp only [Room, lt, ofNat, hle, Bool.and_eq_true,
      decide_eq_true_eq, Bool.not_eq_true', decide_eq_false_iff_not]
    exact ⟨fun h => h.2, fun h => ⟨(not_le.mp h).le, h⟩⟩
  | posInf => exact ⟨fun _ => rfl, fun _ => rfl⟩
  | negInf => cases hcap
  | nan => cases hcap

theorem room_zero {capacity : JsNumber} (hcap : le 1 capacity = true) : Room capacity 0 := by
  rw [room_iff hcap, Bool.eq_false_iff]
  intro hzero
  exact absurd (le_trans hcap hzero) (by decide +kernel)

theorem full_iff {store : MemoryAuditStore} (hcap : le 1 store.maxCapacity = true) :
    store.full = true ↔ ¬ Room store.maxCapacity store.events.length := by
  rw [room_iff hcap, Bool.not_eq_false]
  rfl

/-- Both links of an event in one chain. -/
abbrev ChainedFrom (before : Option Text) (events : List AuditEvent) : Prop :=
  Chained (fun event : AuditEvent => event.previousHash) AuditEvent.hash before events

/-- The store keeps the end of one hash chain: `dropped` is the part it has
    lost, and it has lost nothing until it was full. -/
structure Kept (host : Host) (n : Nat) (store : MemoryAuditStore)
    (dropped : List AuditEvent) : Prop where
  positive : le 1 store.maxCapacity = true
  chained : ChainedFrom none (dropped ++ store.events)
  hashed : ∀ event ∈ store.events, hashEvent host event.toEventWithoutHash = .ok event.hash
  count : (dropped ++ store.events).length = n
  room : ∀ k < store.events.length, Room store.maxCapacity k
  full : dropped ≠ [] → ¬ Room store.maxCapacity store.events.length

section Recording

variable {host : Host} {n : Nat} {store : MemoryAuditStore}
  {dropped : List AuditEvent}

theorem Kept.retains (h : Kept host n store dropped)
    (hempty : store.events = []) : dropped = [] := by
  by_contra hne
  have hroom := h.full hne
  rw [hempty] at hroom
  exact hroom (room_zero h.positive)

theorem Kept.previousHash_eq (h : Kept host n store dropped) : store.previousHash
      = tip AuditEvent.hash none (dropped ++ store.events) := by
  rw [tip_eq_getLast, previousHash]
  rcases eq_nil_or_concat store.events with hnil | ⟨rest, event, hcat⟩
  · rw [hnil, h.retains hnil]
    rfl
  rw [hcat]
  simp

variable {event : AuditEvent}

theorem recordEvent_ok {call : Call} {store' : MemoryAuditStore}
    (hok : store.recordEvent host call = .ok (event, store')) :
    event.previousHash = store.previousHash
      ∧ hashEvent host event.toEventWithoutHash = .ok event.hash
      ∧ store' = (if store.full then store.evict else store).push event := by
  rw [recordEvent] at hok
  cases hhash : hashEvent host (call.event host store.previousHash) with
  | error thrown =>
    rw [hhash] at hok
    cases hok
  | ok hash =>
    rw [hhash] at hok
    cases hok
    exact ⟨rfl, hhash, rfl⟩

theorem recordEvent_isOk (call : Call) :
    (store.recordEvent host call).isOk = call.recordable host := by
  rw [← recordable_event host call store.previousHash, recordEvent]
  cases hashEvent host (call.event host store.previousHash) <;> rfl

theorem Kept.push (h : Kept host n store dropped) (hroom : store.full = false)
    (hprev : event.previousHash = store.previousHash)
    (hhash : hashEvent host event.toEventWithoutHash = .ok event.hash) :
    Kept host (n + 1) (store.push event) dropped where
  positive := h.positive
  chained := by
    show ChainedFrom none (dropped ++ (store.events ++ [event]))
    rw [← append_assoc]
    exact chained_concat.mpr ⟨h.chained, hprev.trans h.previousHash_eq⟩
  hashed e he := by
    rcases mem_append.mp he with he | he
    · exact h.hashed e he
    rw [mem_singleton.mp he]
    exact hhash
  count := by
    have := h.count
    simp only [MemoryAuditStore.push, length_append, length_singleton] at this ⊢
    omega
  room k hk := by
    have hlast : Room store.maxCapacity store.events.length := by
      by_contra hno
      rw [(full_iff h.positive).mpr hno] at hroom
      cases hroom
    have hk' : k < store.events.length + 1 := by simpa [MemoryAuditStore.push] using hk
    rcases Nat.lt_succ_iff_lt_or_eq.mp hk' with hlt | rfl
    · exact h.room k hlt
    · exact hlast
  full hne := by
    -- A store that has lost events was full.
    have hfull := (full_iff h.positive).mpr (h.full hne)
    rw [hroom] at hfull
    cases hfull

theorem Kept.evict_push (h : Kept host n store dropped) (hfull : store.full = true)
    (hprev : event.previousHash = store.previousHash)
    (hhash : hashEvent host event.toEventWithoutHash = .ok event.hash) :
    ∃ oldest, Kept host (n + 1) (store.evict.push event) (dropped ++ [oldest]) := by
  cases hevents : store.events with
  | nil =>
    have hno := (full_iff h.positive).mp hfull
    rw [hevents] at hno
    exact absurd (room_zero h.positive) hno
  | cons oldest rest =>
    have hstore : store.evict.push event = { store.evict.push event with
            events := rest ++ [event]
            maxCapacity := store.maxCapacity } := by
      rw [evict, hevents]
      rfl
    have hall : dropped ++ [oldest] ++ (rest ++ [event]) = dropped ++ store.events ++ [event] := by
      rw [hevents]
      simp
    have hlength : (rest ++ [event]).length = store.events.length := by
      rw [hevents]
      simp
    refine ⟨oldest, ?_⟩
    rw [hstore]
    exact {
      positive := h.positive
      chained := by
        show ChainedFrom none (dropped ++ [oldest] ++ (rest ++ [event]))
        rw [hall]
        exact chained_concat.mpr ⟨h.chained, hprev.trans h.previousHash_eq⟩
      hashed := by
        intro e he
        rcases mem_append.mp he with he | he
        · exact h.hashed e (by rw [hevents]; exact .tail _ he)
        rw [mem_singleton.mp he]
        exact hhash
      count := by
        show (dropped ++ [oldest] ++ (rest ++ [event])).length = n + 1
        rw [hall, length_append, h.count]
        rfl
      room := by
        show ∀ k < (rest ++ [event]).length, Room store.maxCapacity k
        rw [hlength]
        exact h.room
      full := by
        intro _
        show ¬ Room store.maxCapacity (rest ++ [event]).length
        rw [hlength]
        exact (full_iff h.positive).mp hfull }

theorem Kept.record (h : Kept host n store dropped) (call : Call) :
    ∃ dropped', Kept host (n + recorded host [call]) (store.record host call) dropped' := by
  have hcount : recorded host [call] = if call.recordable host then 1 else 0 := by
    simp [recorded, countP_cons]
  have hisOk : (store.recordEvent host call).isOk = call.recordable host := recordEvent_isOk call
  rw [hcount, ← hisOk, MemoryAuditStore.record]
  cases hcall : store.recordEvent host call with
  | error thrown => exact ⟨dropped, h⟩
  | ok result =>
    obtain ⟨event, store'⟩ := result
    obtain ⟨hprev, hhash, rfl⟩ := recordEvent_ok hcall
    cases hfull : store.full with
    | false => exact ⟨dropped, h.push hfull hprev hhash⟩
    | true =>
      obtain ⟨oldest, hkept⟩ := h.evict_push hfull hprev hhash
      exact ⟨dropped ++ [oldest], hkept⟩

/-- **WHAT IS LOST AND WHAT IS LEFT ARE ONE CHAIN**, after any calls. -/
theorem Kept.recordAll (h : Kept host n store dropped) (calls : List Call) :
    ∃ dropped', Kept host (n + recorded host calls) (store.recordAll host calls) dropped' := by
  induction calls generalizing store n dropped with
  | nil => exact ⟨dropped, h⟩
  | cons call rest ih =>
    obtain ⟨dropped', h'⟩ := h.record call
    obtain ⟨lost, hlost⟩ := ih h'
    have hcount : recorded host (call :: rest) = recorded host [call] + recorded host rest :=
      @List.countP_append _ (Call.recordable host) [call] rest
    rw [hcount, ← Nat.add_assoc]
    exact ⟨lost, hlost⟩

theorem kept_new (host : Host) {capacity : JsNumber} (hcap : le 1 capacity = true) :
    Kept host 0 (.new capacity) [] where
  positive := hcap
  chained := trivial
  hashed := by
    intro event he
    cases he
  count := rfl
  room k hk := nomatch hk
  full hne := absurd rfl hne

theorem maxCapacity_record (call : Call) :
    (store.record host call).maxCapacity = store.maxCapacity := by
  rw [record]
  cases hcall : store.recordEvent host call with
  | error thrown => rfl
  | ok result =>
    obtain ⟨event, store'⟩ := result
    obtain ⟨-, -, rfl⟩ := recordEvent_ok hcall
    show (if store.full then store.evict else store).maxCapacity = _
    split
    · rw [evict]
      split <;> rfl
    · rfl

theorem maxCapacity_recordAll (calls : List Call) :
    (store.recordAll host calls).maxCapacity = store.maxCapacity := by
  induction calls generalizing store with
  | nil => rfl
  | cons call rest ih => exact ih.trans (maxCapacity_record call)

theorem Kept.dropped_iff (h : Kept host n store dropped) :
    dropped = [] ↔ ∀ k < n, Room store.maxCapacity k := by
  have hcount := h.count
  rw [length_append] at hcount
  constructor
  · intro hnil k hk
    rw [hnil, length_nil, Nat.zero_add] at hcount
    exact h.room k (by omega)
  intro hroom
  by_contra hne
  have hpos := length_pos_iff.mpr hne
  exact h.full hne (hroom _ (by omega))

end Recording

/-! ## The two verifiers -/

/-- `verifyChain()` says that the trail is valid. -/
def Verifies (host : Host) (store : MemoryAuditStore) : Prop :=
  ∃ report, store.verifyChain host = .ok report ∧ report.valid = true

variable {events : List AuditEvent} {host : Host}

theorem verifyFrom_valid (hhash : ∀ event ∈ events,
      hashEvent host event.toEventWithoutHash = .ok event.hash)
    (before : Option Text) (index : Nat) :
    ∃ report, verifyFrom host before index events = .ok report
      ∧ (report.valid = true ↔ ChainedFrom before events) := by
  induction events generalizing before index with
  | nil => exact ⟨_, rfl, fun _ => trivial, fun _ => rfl⟩
  | cons event rest ih =>
    have hevent := hhash event (.head _)
    rw [verifyFrom]
    by_cases hprev : event.previousHash = before
    · obtain ⟨report, hreport, hvalid⟩ :=
        ih (fun e he => hhash e (.tail _ he)) (some event.hash) (index + 1)
      refine ⟨report, ?_, hvalid.trans ⟨fun h => ⟨hprev, h⟩, And.right⟩⟩
      rw [if_neg (not_not.mpr hprev), hevent]
      exact (if_neg (not_not.mpr rfl)).trans hreport
    rw [if_pos hprev]
    refine ⟨_, rfl, ?_⟩
    exact ⟨nofun, fun h => absurd h.1 hprev⟩

theorem linksFrom_chained (hhash : ∀ event ∈ events,
      hashEvent host event.toEventWithoutHash = .ok event.hash)
    {before : Option Text} (hchained : ChainedFrom before events) (last : Option AuditEvent)
    (hlast : ∀ event, last = some event → before = some event.hash) :
    linksFrom host last events = .ok none := by
  induction events generalizing before last with
  | nil => rfl
  | cons event rest ih =>
    obtain ⟨hprev, hrest⟩ := hchained
    have hnext : linksFrom host (some event) rest = .ok none := by
      refine ih (fun e he => hhash e (.tail _ he)) hrest (some event) ?_
      rintro e heq
      rw [Option.some.inj heq]
    have hlinked : linkedTo event last = true := by
      cases last with
      | none => rfl
      | some e => exact decide_eq_true (hprev.trans (hlast e rfl))
    rw [linksFrom, hlinked, hhash event (.head _)]
    exact (if_neg (not_not.mpr rfl)).trans hnext

section Trail

variable {capacity : JsNumber}

/-- **THE TRAIL ACCUSES ITSELF AS SOON AS IT IS TRUNCATED**: `verifyChain` is
    content with the retained events exactly as long as every event recorded
    found room in the buffer. -/
theorem trail_verifies_iff (host : Host) (hcap : le 1 capacity = true)
    (calls : List Call) :
    Verifies host ((new capacity).recordAll host calls)
      ↔ ∀ k < recorded host calls, Room capacity k := by
  obtain ⟨dropped, hkept⟩ := (kept_new host hcap).recordAll calls
  rw [Nat.zero_add] at hkept
  have hcapacity : (recordAll host (.new capacity)
      calls).maxCapacity = capacity := maxCapacity_recordAll calls
  obtain ⟨report, hreport, hvalid⟩ := verifyFrom_valid hkept.hashed none 0
  have hverifies : Verifies host (recordAll host (.new capacity) calls)
      ↔ report.valid = true := by
    constructor
    · rintro ⟨report', hreport', hvalid'⟩
      rw [verifyChain, hreport] at hreport'
      rw [Except.ok.inj hreport']
      exact hvalid'
    · exact fun h => ⟨report, hreport, h⟩
  have hdropped := hkept.dropped_iff
  rw [hcapacity] at hdropped
  rw [hverifies, hvalid, ← hdropped]
  exact (chained_rest_iff hkept.chained).trans ⟨fun h => h.elim id hkept.retains, Or.inl⟩

/-- The twin accepts every trail, and says which ones are truncated. -/
theorem verifyEventChain_recordAll (host : Host) (hcap : le 1 capacity = true) (calls : List Call) :
    ∃ truncated, verifyEventChain host ((new capacity).recordAll host calls).events
          = .ok ⟨true, truncated, none⟩
      ∧ (truncated = false ↔ ∀ k < recorded host calls, Room capacity k) := by
  obtain ⟨dropped, hkept⟩ := (kept_new host hcap).recordAll calls
  rw [Nat.zero_add] at hkept
  have hcapacity : (recordAll host (.new capacity)
      calls).maxCapacity = capacity := maxCapacity_recordAll calls
  have hdropped := hkept.dropped_iff
  rw [hcapacity] at hdropped
  have hlinks := linksFrom_chained hkept.hashed
    (chained_append.mp hkept.chained).2 none (fun _ h => by cases h)
  refine ⟨_, by rw [verifyEventChain, hlinks]; rfl, ?_⟩
  rw [← hdropped]
  cases hevents : (recordAll host (.new capacity) calls).events with
  | nil => exact ⟨fun _ => hkept.retains hevents, fun _ => rfl⟩
  | cons oldest rest =>
    have hfirst := (chained_append.mp hkept.chained).2
    rw [hevents] at hfirst
    have hprev : oldest.previousHash = tip AuditEvent.hash none dropped := hfirst.1
    show oldest.previousHash.isSome = false ↔ dropped = []
    rw [hprev, Option.isSome_eq_false_iff, Option.isNone_iff_eq_none, tip_none_iff]

/-- A stand-in for the digest and the redaction. -/
def sampleHost : Host where
  engine := sampleEngine
  redactor := ⟨id, id⟩
  sha256 text := text.take 8

def creation (uuid : String) : Call where
  input := {
    timestamp := none
    action := .invoiceCreated
    actor := ⟨.seller, ascii "GA", none, none⟩
    scope := ⟨.invoice, ascii "i1"⟩
    reason := none
    beforeState := .null
    afterState := .null
    metadata := .undefined
    correlationId := none }
  uuid := ascii uuid
  now := ascii "2026-01-01T00:00:00.000Z"

/-- Two events in a store that holds two. -/
theorem trail_verifies_twice : Verifies sampleHost
    ((new 2).recordAll sampleHost [creation "e1", creation "e2"]) :=
  (trail_verifies_iff sampleHost (by decide +kernel) _).mpr (by
    intro k hk
    have htwo : recorded sampleHost [creation "e1", creation "e2"] = 2 := by decide +kernel
    rw [htwo] at hk
    obtain rfl | rfl : k = 0 ∨ k = 1 := by omega
    · exact (by decide +kernel : lt 0 2 = true)
    · exact (by decide +kernel : lt 1 2 = true))

theorem verifyEventChain_truncated :
    ∃ truncated, verifyEventChain sampleHost ((new 1).recordAll sampleHost
          [creation "e1", creation "e2"]).events = .ok ⟨true, truncated, none⟩
      ∧ (truncated = false ↔ ∀ k < recorded sampleHost [creation "e1", creation "e2"], Room 1 k) :=
  verifyEventChain_recordAll sampleHost (by decide +kernel) _

/-- Two events in a store that holds one: the second evicts the first, and
    its own link is taken for tampering. -/
theorem evicted_trail_accused : le 1 1 = true
      ∧ ¬ Verifies sampleHost (recordAll sampleHost (.new 1)
          [creation "e1", creation "e2"]) := by
  refine ⟨by decide +kernel, ?_⟩
  rintro ⟨report, hreport, hvalid⟩
  have haccused : (recordAll sampleHost (.new 1)
        [creation "e1", creation "e2"]).verifyChain sampleHost
      = .ok ⟨false, 1, some ⟨0, ascii "e2", .previousHash⟩⟩ := by
    decide +kernel
  rw [haccused] at hreport
  cases hreport
  cases hvalid

end Trail

end AuditTrail

import Inqutum.AuditTrailProofs
import Inqutum.StaleProjectionProofs

/-!
# Replaying the audit trail into the search index

`ProjectionReplayService` folds the events into a shadow index, carries
the visibility of the live index over, overlays the expiries that storage
knows of, has the detector compare the shadow with storage, and swaps it
in if nothing speaks against it.

A replay waits twice, for the invoices it overlays and for those it
compares with.  What it holds meanwhile is a `Work`; the live index can
change under it.  The report's times and its diff are left out.
-/

namespace ProjectionReplay

open AuditTrail Canonical
open Invoices (InvoiceStatus)
open JsonText (Text ascii)
open SearchIndex StaleProjections List InsertionMap PermissionAwareSearchIndex

/-! ## The projector -/

/-- `value[name]`. -/
def member (value : JsValue) (name : String) : JsValue :=
  match value with
  | .obj members => (members.lookup (ascii name)).getD .undefined
  | _ => .undefined

/-- The value, `typeof value === 'string'`. -/
def textOf : JsValue → Option Text
  | .str text => some text
  | _ => none

/-- The value, `typeof value === 'number'`. -/
def numberOf : JsValue → Option JsNumber
  | .number x => some x
  | .negZero => some (.finite 0)
  | _ => none

/-- The value, `INVOICE_STATUSES.includes(value)`. -/
def statusOf : JsValue → Option InvoiceStatus
  | .str text =>
    [.pending, .paid, .expired, .cancelled].find?
      (fun status : InvoiceStatus => ascii status.text = text)
  | _ => none

/-- The value as an invoice, `isInvoiceSnapshot(value, id)`. -/
def invoiceSnapshot (value : JsValue) (id : Text) : Option InvoiceSnapshot :=
  do
    guard (textOf (member value "id") = some id)
    let sellerPublicKey ← textOf (member value "sellerPublicKey")
    let amount ← numberOf (member value "amount")
    let assetCode ← textOf (member value "assetCode")
    let memo ← textOf (member value "memo")
    let status ← statusOf (member value "status")
    return {
      id := id
      sellerPublicKey := sellerPublicKey
      customerEmail := member value "customerEmail"
      amount := amount
      assetCode := assetCode
      description := member value "description"
      memo := memo
      status := status }

structure Projector where
  version : Nat
  handles : AuditAction → Bool
  /-- The index with the event in it; nothing if the payload cannot be
      projected. -/
  apply : PermissionAwareSearchIndex → AuditEvent → Option PermissionAwareSearchIndex

def carriedInvoice (event : AuditEvent) : Option InvoiceSnapshot :=
  if event.scope.entityType ≠ .invoice then none
  else invoiceSnapshot event.afterState event.scope.entityId

/-- `SEARCH_INDEX_V1`. -/
def searchIndexV1 : Projector where
  version := 1
  handles action := decide (action ∈ [.invoiceCreated, .invoiceCancelled,
    .invoiceExpired, .paymentVerified, .paymentSimulated])
  apply index event := (carriedInvoice event).map (fun invoice => index.indexInvoice invoice)

/-- `SEARCH_INDEX_PROJECTORS.get(version)`. -/
def projectorOf (version : JsNumber) : Option Projector :=
  if version = .ofNat 1 then some searchIndexV1 else none

def latestSearchIndexProjector : JsNumber := .ofNat 1

/-! ## One replay -/

structure ReplayRequest where
  dryRun : Option Bool := none
  projectorVersion : Option JsNumber := none

inductive ReplayOutcome where
  | dryRun
  | applied
  | refused
  deriving DecidableEq

structure EventCounts where
  total : Nat
  applied : Nat
  skipped : Nat
  rejected : Nat
  firstEventId : Option Text
  lastEventId : Option Text

structure ReplayReport where
  projectorVersion : Nat
  outcome : ReplayOutcome
  /-- Why the shadow is not safe to swap in. -/
  reasons : List Text
  events : EventCounts
  integrity : ChainIntegrity
  derivedExpiries : Nat
  anomalies : Nat
  byType : ProjectionAnomalyType → Nat

/-- The shadow and what was counted on the way. -/
structure Folded where
  shadow : PermissionAwareSearchIndex
  applied : Nat
  skipped : Nat
  rejected : Nat

def Folded.take (projector : Projector) (folded : Folded) (event : AuditEvent) : Folded :=
  if !projector.handles event.action then
    { folded with skipped := folded.skipped + 1 }
  else match projector.apply folded.shadow event with
    | some shadow => { folded with shadow := shadow, applied := folded.applied + 1 }
    | none => { folded with rejected := folded.rejected + 1 }

def foldEvents (projector : Projector) (events : List AuditEvent) : Folded :=
  events.foldl (Folded.take projector) ⟨.new, 0, 0, 0⟩

/-- Keep the visibility the live index has. -/
def carryVisibility (live : List IndexedInvoiceRecord)
    (shadow : PermissionAwareSearchIndex) : PermissionAwareSearchIndex :=
  live.foldl (fun shadow record => shadow.setVisibility record.id record.visibility) shadow

/-- What a replay holds while it waits. -/
structure Work where
  projector : Projector
  dryRun : Bool
  events : List AuditEvent
  integrity : ChainIntegrity
  folded : Folded
  /-- The records of the live index when the replay began. -/
  live : List IndexedInvoiceRecord
  derivedExpiries : Nat

def Work.shadow (work : Work) : PermissionAwareSearchIndex :=
  work.folded.shadow

/-- A replay up to its first wait. -/
def prepare (host : Host) (projector : Projector) (dryRun : Bool)
    (events : List AuditEvent) (index : PermissionAwareSearchIndex) :
    Except Thrown Work :=
  (verifyEventChain host events).map (fun integrity =>
    let folded := foldEvents projector events
    let live := index.exportRecords
    { projector := projector
      dryRun := dryRun
      events := events
      integrity := integrity
      folded := { folded with shadow := carryVisibility live folded.shadow }
      live := live
      derivedExpiries := 0 })

/-- The stored invoices whose expiry no event tells of. -/
def lateExpiries (shadow : PermissionAwareSearchIndex)
    (invoices : List StoredInvoice) : List StoredInvoice :=
  let projected := collect
    (fun record : IndexedInvoiceRecord => record.id) shadow.exportRecords
  invoices.filter (fun invoice => invoice.status = .expired
    && (projected.get invoice.id).map (fun record => record.status) = some .pending)

/-- The overlay, with the answer to the first wait. -/
def Work.overlay (work : Work) (invoices : List StoredInvoice) : Work :=
  let late := lateExpiries work.shadow invoices
  { work with
    folded := { work.folded with
      shadow := late.foldl (fun shadow invoice =>
        shadow.indexInvoice invoice.toInvoiceSnapshot) work.shadow }
    derivedExpiries := work.derivedExpiries + late.length }

def reasons (work : Work) (verification : StaleDetectionReport) :
    List Text :=
  let broken := if work.integrity.valid then []
    else [ascii "audit hash chain is broken at event "
      ++ work.integrity.brokenAt.getD (ascii "null")]
  let truncated := if work.integrity.truncated then
      [ascii ("the oldest events were evicted from the audit store, "
        ++ "so history is incomplete")]
    else []
  let rejected := if work.folded.rejected > 0 then
      [ascii (toString work.folded.rejected ++ " event(s) could not be projected by version "
        ++ toString work.projector.version)]
    else []
  let anomalies := if verification.totalAnomalies > 0 then
      [ascii ("replayed projection disagrees with storage on "
        ++ toString verification.totalAnomalies ++ " record(s)")]
    else []
  broken ++ truncated ++ rejected ++ anomalies

def outcome (work : Work) (verification : StaleDetectionReport) :
    ReplayOutcome :=
  if work.dryRun then .dryRun
  else if (reasons work verification).length > 0 then .refused
  else .applied

def report (work : Work) (verification : StaleDetectionReport) : ReplayReport where
  projectorVersion := work.projector.version
  outcome := outcome work verification
  reasons := reasons work verification
  events :=
    { total := work.events.length
      applied := work.folded.applied
      skipped := work.folded.skipped
      rejected := work.folded.rejected
      firstEventId := work.events.head?.map (fun event => event.id)
      lastEventId := work.events.getLast?.map (fun event => event.id) }
  integrity := work.integrity
  derivedExpiries := work.derivedExpiries
  anomalies := verification.totalAnomalies
  byType := verification.anomaliesByType

/-! ## The service -/

/-- Where a running replay waits. -/
inductive Suspended where
  | readingInvoices (work : Work)
  | verifying (work : Work)

/-- The service with the live index it serves. -/
structure ProjectionReplayService where
  index : PermissionAwareSearchIndex
  running : Option Suspended := none
  previous : Option (List IndexedInvoiceRecord) := none

/-- What the service is built on. -/
structure ReplayOptions where
  host : Host
  low : Lowering
  /-- Whether the storage has the optional `getAllInvoices`. -/
  getAllInvoices : Bool

/-- What a caller gets. -/
inductive Response where
  | report (report : ReplayReport)
  | replayInProgress
  | unknownProjectorVersion (version : JsNumber)
  | nothingToRollBack
  | rolledBack (restored : Nat)
  | chainThrew (thrown : Thrown)
  | detectorThrew (thrown : SearchError)
  | storageFailed

namespace ProjectionReplayService

/-- `replay(request)` up to its first wait. -/
def replay (options : ReplayOptions) (service : ProjectionReplayService)
    (request : ReplayRequest) (events : List AuditEvent) :
    ProjectionReplayService × Option Response :=
  let version := request.projectorVersion.getD latestSearchIndexProjector
  match projectorOf version with
  | none => (service, some (.unknownProjectorVersion version))
  | some projector =>
    match service.running with
    | some _ => (service, some .replayInProgress)
    | none =>
      match prepare options.host projector (request.dryRun.getD true) events service.index with
      | .error thrown => (service, some (.chainThrew thrown))
      | .ok work =>
        -- Without `getAllInvoices` there is nothing to wait for.
        let suspended := if options.getAllInvoices
          then .readingInvoices work else .verifying (work.overlay [])
        ({ service with running := some suspended }, none)

/-- The end of a replay: the shadow takes the place of the live index if the
    replay is applied. -/
def conclude (options : ReplayOptions) (service : ProjectionReplayService)
    (work : Work) (invoices : List StoredInvoice) :
    ProjectionReplayService × Option Response :=
  match detect options.low invoices work.shadow with
  | .error thrown => ({ service with running := none }, some (.detectorThrew thrown))
  | .ok verification =>
    let response := some (.report (report work verification))
    if outcome work verification = .applied then
      ({ index := .replaceAll work.shadow.exportRecords
         running := none
         previous := some work.live }, response)
    else ({ service with running := none }, response)

/-- The wait of the running replay ends: `getAllInvoices` answers, or
    fails. -/
def resume (options : ReplayOptions) (service : ProjectionReplayService)
    (answer : Option (List StoredInvoice)) :
    ProjectionReplayService × Option Response :=
  let answer := if options.getAllInvoices then answer else some []
  match service.running, answer with
  | none, _ => (service, none)
  | some _, none => ({ service with running := none }, some .storageFailed)
  | some (.readingInvoices work), some invoices =>
    ({ service with running := some (.verifying (work.overlay invoices)) }, none)
  | some (.verifying work), some invoices => conclude options service work invoices

def rollback (service : ProjectionReplayService) : ProjectionReplayService × Option Response :=
  match service.previous with
  | none => (service, some .nothingToRollBack)
  | some previous =>
    ({ service with index := .replaceAll previous, previous := none },
      some (.rolledBack previous.length))

/-- `await replay(request)` with nothing else happening meanwhile. -/
def replayAlone (options : ReplayOptions)
    (service : ProjectionReplayService) (request : ReplayRequest)
    (events : List AuditEvent) (stored : List StoredInvoice) :
    ProjectionReplayService × Option Response :=
  let started := service.replay options request events
  match started.2 with
  | some response => (started.1, some response)
  | none =>
    let resumed := started.1.resume options (some stored)
    match resumed.2 with
    | some response => (resumed.1, some response)
    | none => resumed.1.resume options (some stored)

end ProjectionReplayService

/-! ## What the shadow holds -/

/-- The invoices the handled events carry, oldest first. -/
def snapshots (events : List AuditEvent) : List InvoiceSnapshot :=
  events.filterMap (fun event =>
    if searchIndexV1.handles event.action then carriedInvoice event
    else none)

/-- The newest snapshot of an invoice. -/
def lastSnapshot (events : List AuditEvent) (id : Text) :
    Option InvoiceSnapshot :=
  (snapshots events).reverse.find? (fun invoice => invoice.id = id)

theorem projectorOf_eq_some {version : JsNumber} {projector : Projector}
    (h : projectorOf version = some projector) : projector = searchIndexV1 := by
  rw [projectorOf] at h
  split at h
  · exact (Option.some.inj h).symm
  · cases h

theorem shadow_foldl_take (events : List AuditEvent) (folded : Folded) :
    (events.foldl (Folded.take searchIndexV1) folded).shadow
      = (snapshots events).foldl (fun index invoice =>
          index.indexInvoice invoice) folded.shadow := by
  induction events generalizing folded with
  | nil => rfl
  | cons event rest ih =>
    rw [foldl_cons, ih, snapshots, snapshots, filterMap_cons, Folded.take]
    cases searchIndexV1.handles event.action with
    | false => rfl
    | true =>
      have happly : searchIndexV1.apply folded.shadow event = (carriedInvoice event).map
              (fun invoice => folded.shadow.indexInvoice invoice) := rfl
      rw [happly]
      cases carriedInvoice event <;> rfl

theorem get_foldl_indexInvoice (invoices : List InvoiceSnapshot)
    (ix : PermissionAwareSearchIndex) (id : Text) :
    (invoices.foldl (fun index invoice => index.indexInvoice invoice) ix).get id
      = match invoices.reverse.find? (fun invoice => invoice.id = id) with
        | some invoice => some ⟨invoice, ((ix.get id).map (fun record =>
          record.visibility)).getD .internal, false⟩
        | none => ix.get id := by
  induction invoices generalizing ix with
  | nil => rfl
  | cons invoice rest ih =>
    rw [foldl_cons, ih, reverse_cons, find?_append,
      find?_singleton, get_indexInvoice]
    cases rest.reverse.find? (fun invoice => decide (invoice.id = id)) with
    | some newer =>
      by_cases hid : invoice.id = id
      · rw [if_pos hid]
        rfl
      rw [if_neg hid]
      rfl
    | none =>
      by_cases hid : invoice.id = id
      · rw [if_pos hid, if_pos (decide_eq_true hid)]
        rfl
      rw [if_neg hid, if_neg (by simpa using hid)]
      rfl

theorem get_foldEvents (events : List AuditEvent) (id : Text) :
    (foldEvents searchIndexV1 events).shadow.get id = (lastSnapshot events id).map (fun invoice =>
          ⟨invoice, .internal, false⟩) := by
  rw [foldEvents, shadow_foldl_take, get_foldl_indexInvoice, lastSnapshot]
  cases (snapshots events).reverse.find? _ <;> rfl

theorem get_carryVisibility (live : List IndexedInvoiceRecord)
    (shadow : PermissionAwareSearchIndex) (id : Text) : (carryVisibility live shadow).get id
      = match live.reverse.find? (fun record => record.id = id) with
        | some record => (shadow.get id).map (fun found =>
          { found with visibility := record.visibility })
        | none => shadow.get id := by
  rw [carryVisibility]
  induction live generalizing shadow with
  | nil => rfl
  | cons record rest ih =>
    rw [foldl_cons, ih, reverse_cons, find?_append,
      find?_singleton, get_setVisibility]
    cases rest.reverse.find? (fun record => decide (record.id = id)) with
    | some newer =>
      by_cases hid : record.id = id
      · rw [if_pos hid, Option.some_or]
        dsimp only
        rw [Option.map_map]
        rfl
      rw [if_neg hid]
      rfl
    | none =>
      by_cases hid : record.id = id
      · rw [if_pos hid, if_pos (decide_eq_true hid)]
        rfl
      rw [if_neg hid, if_neg (by simpa using hid)]
      rfl

theorem find?_exportRecords (ix : PermissionAwareSearchIndex) (id : Text) :
    ix.exportRecords.reverse.find? (fun record => record.id = id) = ix.get id := by
  have hcollect := collect_values ix.keyed
  rw [exportRecords, ← get_collect, hcollect]
  rfl

/-- The visibility an index has for an invoice, or the default. -/
def visibilityIn (index : PermissionAwareSearchIndex) (id : Text) :
    VisibilityLevel :=
  ((index.get id).map (fun record => record.visibility)).getD .internal

/-- **THE SHADOW BEFORE THE FIRST WAIT**: the newest snapshot of each invoice
    under the visibility of the live index, and nothing deleted. -/
theorem get_prepared (events : List AuditEvent) (index : PermissionAwareSearchIndex) (id : Text) :
    (carryVisibility index.exportRecords (foldEvents searchIndexV1 events).shadow).get id
      = (lastSnapshot events id).map (fun invoice => ⟨invoice, visibilityIn index id, false⟩) := by
  rw [get_carryVisibility, find?_exportRecords, get_foldEvents, visibilityIn]
  cases index.get id with
  | none => rfl
  | some record =>
    dsimp only
    rw [Option.map_map]
    rfl

theorem mem_lateExpiries {shadow : PermissionAwareSearchIndex}
    {invoices : List StoredInvoice} {invoice : StoredInvoice} :
    invoice ∈ lateExpiries shadow invoices ↔ invoice ∈ invoices ∧ invoice.status = .expired ∧
          (shadow.get invoice.id).map (fun record => record.status) = some .pending := by
  have hcollect := collect_values shadow.keyed
  rw [lateExpiries, exportRecords, hcollect,
    mem_filter, Bool.and_eq_true, decide_eq_true_iff, decide_eq_true_iff]
  rfl

end ProjectionReplay

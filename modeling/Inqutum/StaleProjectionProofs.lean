import Inqutum.SearchIndexProofs

/-!
# Stale projections

`StaleProjectionService.detect` compares the search index with storage
and lists what disagrees.  It reads the index through a search, as an
administrator with an empty query, so a hidden record is not there for
it: the invoice of a hidden record counts as missing.  `detect_healthy`
says exactly when the list is empty.
-/

namespace StaleProjections

open Invoices (InvoiceStatus)
open JsonText (Text)
open SearchIndex InsertionMap

inductive ProjectionAnomalyType where
  | statusDrift
  | missingProjection
  | orphanedProjection
  | attributeMismatch
  deriving DecidableEq

inductive ProjectionAnomalySeverity where
  | critical
  | warning
  | info

structure StaleProjectionItem where
  entityId : Text
  anomalyType : ProjectionAnomalyType
  severity : ProjectionAnomalySeverity

structure StaleDetectionReport where
  totalStorageRecords : Nat
  totalProjectedRecords : Nat
  anomalies : List StaleProjectionItem

namespace StaleDetectionReport

def totalAnomalies (report : StaleDetectionReport) : Nat :=
  report.anomalies.length

def anomaliesByType (report : StaleDetectionReport) (anomalyType : ProjectionAnomalyType) : Nat :=
  report.anomalies.countP (fun item => item.anomalyType = anomalyType)

end StaleDetectionReport

/-- `x === y` on numbers. -/
def strictEqual (x y : JsNumber) : Bool := x ≠ .nan && x = y

theorem strictEqual_of_finite (x : JsNumber) {y : JsNumber}
    (h : y.isFinite = true) : strictEqual x y = decide (x = y) := by
  rw [strictEqual, Bool.eq_iff_iff, Bool.and_eq_true, decide_eq_true_iff, decide_eq_true_iff]
  constructor
  · exact And.right
  rintro rfl
  refine ⟨?_, rfl⟩
  rintro rfl
  cases h

/-- The loop over the indexed records. -/
def checkIndexed (storageMap : InsertionMap Text StoredInvoice) (id : Text)
    (indexedRecord : IndexedInvoiceRecord) : List StaleProjectionItem :=
  match storageMap.get id with
  | none => [⟨id, .orphanedProjection, .warning⟩]
  | some source =>
    let drift := if indexedRecord.status ≠ source.status then
        [⟨id, .statusDrift,
          if source.status = .paid ∧ indexedRecord.status = .pending
          then .critical else .warning⟩]
      else []
    let mismatch :=
      if !strictEqual indexedRecord.amount source.amount
          || indexedRecord.assetCode ≠ source.assetCode then
        [⟨id, .attributeMismatch, .warning⟩]
      else []
    drift ++ mismatch

/-- The loop over the stored invoices. -/
def checkStored (indexedMap : InsertionMap Text IndexedInvoiceRecord)
    (id : Text) (source : StoredInvoice) : List StaleProjectionItem :=
  if indexedMap.has id then []
  else [⟨id, .missingProjection,
    if source.status = .paid then .critical else .warning⟩]

def storageMap (storageInvoices : List StoredInvoice) :
    InsertionMap Text StoredInvoice :=
  .collect (fun invoice => invoice.id) storageInvoices

/-- `detect`, with the answer of the storage. -/
def detect (low : Lowering) (storageInvoices : List StoredInvoice)
    (searchIndex : PermissionAwareSearchIndex) :
    Except SearchError StaleDetectionReport :=
  (searchIndex.search low [] { role := .admin }).map (fun allIndexed =>
    let indexedMap := .collect (fun record => record.id) allIndexed
    let stored := storageMap storageInvoices
    { totalStorageRecords := storageInvoices.length
      totalProjectedRecords := allIndexed.length
      anomalies :=
        indexedMap.entries.flatMap (fun e => checkIndexed stored e.1 e.2)
          ++ stored.entries.flatMap (fun e => checkStored indexedMap e.1 e.2) })

/-! ## When the report is clean -/

structure Mirrors (record : InvoiceSnapshot) (source : StoredInvoice) : Prop where
  status : record.status = source.status
  amount : record.amount = source.amount
  assetCode : record.assetCode = source.assetCode

variable {record : IndexedInvoiceRecord} {id : Text}

theorem checkIndexed_eq_nil {stored : InsertionMap Text StoredInvoice} :
    checkIndexed stored id record = [] ↔ ∃ source, stored.get id = some source
          ∧ Mirrors record.toInvoiceSnapshot source := by
  rw [checkIndexed]
  cases stored.get id with
  | none =>
    constructor
    · intro h
      cases h
    rintro ⟨_, h, _⟩
    cases h
  | some source =>
    dsimp only
    rw [List.append_eq_nil_iff, strictEqual_of_finite _ source.finite]
    constructor
    · rintro ⟨hdrift, hmismatch⟩
      refine ⟨source, rfl, ?_⟩
      split at hdrift
      · cases hdrift
      next hstatus =>
        split at hmismatch
        · cases hmismatch
        next hsame =>
          simp only [Bool.or_eq_true, Bool.not_eq_true',
            decide_eq_false_iff_not, decide_eq_true_iff, not_or,
            not_not] at hsame
          exact ⟨not_not.mp hstatus, hsame.1, hsame.2⟩
    · rintro ⟨_, h, hmirrors⟩
      cases h
      rw [hmirrors.status, hmirrors.amount, hmirrors.assetCode]
      simp

theorem checkStored_eq_nil {indexedMap : InsertionMap Text IndexedInvoiceRecord}
    {source : StoredInvoice} :
    checkStored indexedMap id source = [] ↔ indexedMap.has id = true := by
  rw [checkStored]
  split
  · next h => exact ⟨fun _ => h, fun _ => rfl⟩
  · next h => exact ⟨fun hnil => (nomatch hnil), fun hhas => absurd hhas h⟩

/-- Index and storage agree: what can be found is stored, and what is stored
    can be found. -/
structure Agree (stored : InsertionMap Text StoredInvoice)
    (ix : PermissionAwareSearchIndex) : Prop where
  shown : ∀ id record, ix.get id = some record → record.hidden = false →
    ∃ source, stored.get id = some source ∧ Mirrors record.toInvoiceSnapshot source
  stored : ∀ id source, stored.get id = some source →
    ∃ record, ix.get id = some record ∧ record.hidden = false

theorem flatMap_entries_eq_nil {K V β : Type} [DecidableEq K]
    (m : InsertionMap K V) (f : K × V → List β) :
    m.entries.flatMap f = [] ↔ ∀ k v, m.get k = some v → f (k, v) = [] := by
  rw [List.flatMap_eq_nil_iff]
  constructor
  · intro h k v hget
    exact h (k, v) ((m.mem_entries_iff k v).mpr hget)
  rintro h ⟨k, v⟩ hmem
  exact h k v ((m.mem_entries_iff k v).mp hmem)

theorem eq_some_filter_shown {found : Option IndexedInvoiceRecord} :
    found.filter (fun record => !record.hidden) = some record
      ↔ found = some record ∧ record.hidden = false := by
  rw [Option.filter_eq_some_iff, Bool.not_eq_true']

/-- **NO ANOMALY IS AGREEMENT**, and the detector always answers. -/
theorem detect_healthy (low : Lowering) (storageInvoices : List StoredInvoice)
    (ix : PermissionAwareSearchIndex) : ∃ report, detect low storageInvoices ix = .ok report ∧
      (report.anomalies = [] ↔ Agree (storageMap storageInvoices) ix) := by
  rw [detect, ix.search_admin]
  refine ⟨_, rfl, ?_⟩
  dsimp only
  rw [List.append_eq_nil_iff, flatMap_entries_eq_nil, flatMap_entries_eq_nil]
  have hindexed : ∀ id, (collect (fun record : IndexedInvoiceRecord => record.id)
      (ix.exportRecords.filter (fun record => !record.hidden))).get id
        = (ix.get id).filter (fun record => !record.hidden) :=
    get_collect_filter ix.keyed _
  constructor
  · rintro ⟨hshown, hstored⟩
    constructor
    · intro id record hget hhidden
      refine checkIndexed_eq_nil.mp (hshown id record ?_)
      rw [hindexed]
      exact eq_some_filter_shown.mpr ⟨hget, hhidden⟩
    intro id source hget
    have hhas := checkStored_eq_nil.mp (hstored id source hget)
    obtain ⟨record, hrecord⟩ := (has_iff _ _).mp hhas
    rw [hindexed] at hrecord
    exact ⟨record, eq_some_filter_shown.mp hrecord⟩
  · intro hagree
    constructor
    · intro id record hget
      rw [hindexed] at hget
      obtain ⟨hrecord, hhidden⟩ := eq_some_filter_shown.mp hget
      exact checkIndexed_eq_nil.mpr (hagree.shown id record hrecord hhidden)
    intro id source hget
    obtain ⟨record, hrecord⟩ := hagree.stored id source hget
    refine checkStored_eq_nil.mpr ((has_iff _ _).mpr ?_)
    rw [hindexed]
    exact ⟨record, eq_some_filter_shown.mpr hrecord⟩

end StaleProjections

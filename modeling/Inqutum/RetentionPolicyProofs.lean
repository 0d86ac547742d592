import Inqutum.JsonProofs
import Inqutum.ScriptValueProofs

/-!
# The retention policy

Operational rows belong to classes, and each class has a window.  A record
is eligible for deletion when nothing protects it: it is not settlement
evidence, carries no hold, and its window has passed.

`planRetention` sorts the records of a sweep into eligible and protected
ones; it is a function of the records and the clock (`planRetention_ok`).
-/

namespace Retention

/-! ## Classes and rules -/

inductive RetentionClass where
  | settlement
  | invoiceLifecycle
  | paymentEvent
  | auditTrail
  | telemetry
  | exportArtifact
  | supportEvidence
  | jobHistory
  deriving DecidableEq

inductive AgeAnchor where
  | createdAt
  | processedAt
  | generatedAt
  | completedAt

structure RetentionRule where
  /-- Nothing for a class that is kept for ever. -/
  retainDays : Option Nat
  ageAnchor : AgeAnchor
  purgeable : Bool

def retentionPolicy : RetentionClass → RetentionRule
  | .settlement => ⟨none, .createdAt, false⟩
  | .invoiceLifecycle => ⟨some 730, .createdAt, true⟩
  | .paymentEvent => ⟨some 730, .createdAt, true⟩
  | .auditTrail => ⟨some 365, .createdAt, true⟩
  | .telemetry => ⟨some 30, .createdAt, true⟩
  | .exportArtifact => ⟨some 7, .generatedAt, true⟩
  | .supportEvidence => ⟨some 90, .createdAt, true⟩
  | .jobHistory => ⟨some 30, .completedAt, true⟩

def deadJobRetentionDays : Nat := 90

inductive RetentionTable where
  | invoices
  | transactions
  | paymentEvents
  | jobs
  deriving DecidableEq

def RetentionTable.name : RetentionTable → String
  | .invoices => "invoices"
  | .transactions => "transactions"
  | .paymentEvents => "payment_events"
  | .jobs => "jobs"

/-- The tables that have a class. -/
def allTables : List RetentionTable :=
  [.invoices, .transactions, .paymentEvents, .jobs]

def tableClass : RetentionTable → RetentionClass
  | .invoices => .invoiceLifecycle
  | .transactions => .settlement
  | .paymentEvents => .paymentEvent
  | .jobs => .jobHistory

inductive ProtectionReason where
  | financialSettlement
  | legalHold
  | withinRetentionWindow
  | classNotPurgeable
  | deadLetterHold

/-- A row as the planner sees it.  The age anchor is known by the instant its
    text denotes, if it is a date; nothing reads the status of a record. -/
structure RetentionRecord where
  table : RetentionTable
  id : String
  ageAnchor : Option Int
  settlementLinked : Bool
  metadata : Option Json
  deadLetter : Bool

structure ProtectionVerdict where
  isProtected : Bool
  reason : Option ProtectionReason
  /-- Nothing for never. -/
  eligibleAt : Option Int

structure ClassifiedRecord where
  record : RetentionRecord
  retentionClass : RetentionClass
  verdict : ProtectionVerdict

/-- What stops a sweep. -/
inductive SweepError where
  | unknownTable (name : String)
  | undefinedColumn (table column : String)
  /-- `toISOString()` of an invalid date. -/
  | invalidTime
  | foreignKey (table : String)

/-! ## Classification -/

def holdKeys : List String := ["legal_hold", "under_dispute", "under_audit"]

/-- `value === true || value === 'true'`. -/
def isTrue : Json → Bool
  | .bool value => value
  | .str value => value == "true"
  | _ => false

def hasLegalHold : Option Json → Bool
  | some (.obj members) => holdKeys.any (fun key =>
    (members.find? (fun member => member.1 == key)).any (fun member => isTrue member.2))
  | _ => false

def dayMs : Int := 24 * 60 * 60 * 1000

/-- The days to keep a record; a dead job has its own. -/
def retainedDays (record : RetentionRecord) : Nat :=
  if record.deadLetter then deadJobRetentionDays
  else (retentionPolicy (tableClass record.table)).retainDays.getD 0

/-- The verdict of a window that ends at an instant. -/
def windowVerdict (now : Option Int) (eligibleAt : Int) : ProtectionVerdict :=
  match now with
  | some ms =>
    if eligibleAt ≤ ms then ⟨false, none, some eligibleAt⟩
    else ⟨true, some .withinRetentionWindow, some eligibleAt⟩
  | none => ⟨true, some .withinRetentionWindow, some eligibleAt⟩

/-- The clock is nothing for an invalid date.  A table without a class does
    not get here. -/
def classifyRecord (now : Option Int) (record : RetentionRecord) :
    Except SweepError ClassifiedRecord :=
  if tableClass record.table = .settlement ∨ record.settlementLinked = true then
    .ok ⟨record, tableClass record.table, ⟨true, some .financialSettlement, none⟩⟩
  else if hasLegalHold record.metadata then
    .ok ⟨record, tableClass record.table, ⟨true, some .legalHold, none⟩⟩
  else if (retentionPolicy (tableClass record.table)).retainDays = none
      ∧ record.deadLetter = false then
    .ok ⟨record, tableClass record.table, ⟨true, some .classNotPurgeable, none⟩⟩
  else
    match record.ageAnchor with
    | none => .ok ⟨record, tableClass record.table, ⟨true, some .classNotPurgeable, none⟩⟩
    | some anchor =>
      if Canonical.maxTime < |anchor + retainedDays record * dayMs| then
        .error .invalidTime
      else .ok ⟨record, tableClass record.table,
        windowVerdict now (anchor + retainedDays record * dayMs)⟩

/-! ## The plan -/

structure RetentionPlan where
  generatedAt : Int
  eligible : List ClassifiedRecord
  protectedRecords : List ClassifiedRecord

def classifyAll (now : Option Int) :
    List RetentionRecord → Except SweepError (List ClassifiedRecord)
  | [] => .ok []
  | record :: rest =>
    match classifyRecord now record with
    | .error e => .error e
    | .ok classified => (classifyAll now rest).map (classified :: ·)

def planRetention (now : Option Int) (records : List RetentionRecord) :
    Except SweepError RetentionPlan :=
  match classifyAll now records with
  | .error e => .error e
  | .ok classified =>
    match now with
    | none => .error .invalidTime
    | some ms => .ok
        { generatedAt := ms
          eligible := classified.filter (fun c => !c.verdict.isProtected)
          protectedRecords := classified.filter (fun c => c.verdict.isProtected) }

/-! ## What makes a record eligible -/

/-- An anchor, if there is one, lies that many days back. -/
def pastWindow (now anchor : Option Int) (days : Nat) : Bool :=
  match now, anchor with
  | some ms, some instant => decide (instant + days * dayMs ≤ ms)
  | _, _ => false

/-- Nothing protects the record. -/
structure Eligible (now : Option Int) (record : RetentionRecord) : Prop where
  purgeable : tableClass record.table ≠ .settlement
  unlinked : record.settlementLinked = false
  unheld : hasLegalHold record.metadata = false
  past : pastWindow now record.ageAnchor (retainedDays record) = true

instance (now : Option Int) (record : RetentionRecord) :
    Decidable (Eligible now record) :=
  decidable_of_iff (tableClass record.table ≠ .settlement ∧ record.settlementLinked = false
      ∧ hasLegalHold record.metadata = false
      ∧ pastWindow now record.ageAnchor (retainedDays record) = true)
    ⟨fun h => ⟨h.1, h.2.1, h.2.2.1, h.2.2.2⟩, fun h => ⟨h.purgeable, h.unlinked, h.unheld, h.past⟩⟩

section Classify

variable {now : Option Int} {record : RetentionRecord} {c : ClassifiedRecord}

theorem retainDays_isSome {table : RetentionTable} (h : tableClass table ≠ .settlement) :
    (retentionPolicy (tableClass table)).retainDays ≠ none := by
  cases table with
  | transactions => exact absurd rfl h
  | invoices => exact nofun
  | paymentEvents => exact nofun
  | jobs => exact nofun

/-- **CLASSIFICATION** keeps the record and protects all but the eligible. -/
theorem classifyRecord_ok (h : classifyRecord now record = .ok c) :
    c.record = record ∧ (c.verdict.isProtected = false ↔ Eligible now record) := by
  rw [classifyRecord] at h
  split at h
  · rename_i hsettled
    cases h
    refine ⟨rfl, iff_of_false nofun fun he => ?_⟩
    rcases hsettled with hclass | hlinked
    · exact he.purgeable hclass
    rw [he.unlinked] at hlinked
    cases hlinked
  · rename_i hopen
    rw [not_or, Bool.not_eq_true] at hopen
    split at h
    · rename_i hhold
      cases h
      refine ⟨rfl, iff_of_false nofun fun he => ?_⟩
      rw [he.unheld] at hhold
      cases hhold
    rename_i hhold
    rw [Bool.not_eq_true] at hhold
    rw [if_neg (fun hnone => retainDays_isSome hopen.1 hnone.1)] at h
    split at h
    · rename_i hanchor
      cases h
      refine ⟨rfl, iff_of_false nofun fun he => ?_⟩
      have hpast := he.past
      rw [hanchor, pastWindow] at hpast
      · cases hpast
      · exact nofun
    · rename_i anchor hanchor
      split at h
      · cases h
      cases h
      refine ⟨rfl, ?_⟩
      have hpast : (windowVerdict now (anchor + retainedDays record * dayMs)).isProtected = false
          ↔ pastWindow now record.ageAnchor (retainedDays record) = true := by
        rw [hanchor]
        cases now with
        | none => exact iff_of_false nofun nofun
        | some ms =>
          rw [windowVerdict, pastWindow, decide_eq_true_iff]
          split
          · exact iff_of_true rfl ‹_›
          · exact iff_of_false nofun ‹_›
      exact hpast.trans ⟨fun hp => ⟨hopen.1, hopen.2, hhold, hp⟩, fun he => he.past⟩

variable {records : List RetentionRecord}

theorem classifyAll_ok {classified : List ClassifiedRecord}
    (h : classifyAll now records = .ok classified) :
    (classified.filter (fun c => !c.verdict.isProtected)).map ClassifiedRecord.record
      = records.filter (fun r => decide (Eligible now r)) := by
  induction records generalizing classified with
  | nil =>
    cases h
    rfl
  | cons record rest ih =>
    rw [classifyAll] at h
    split at h
    · cases h
    rename_i c hc
    cases hrest : classifyAll now rest with
    | error e =>
      rw [hrest] at h
      cases h
    | ok tail =>
      rw [hrest] at h
      cases h
      obtain ⟨hrecord, heligible⟩ := classifyRecord_ok hc
      rw [List.filter_cons, List.filter_cons]
      by_cases he : Eligible now record
      · rw [if_pos (by rw [heligible.mpr he]; rfl),
          if_pos (decide_eq_true he), List.map_cons, ih hrest, hrecord]
      have hprotected : c.verdict.isProtected = true := by
        rw [← Bool.not_eq_false]
        exact fun hfalse => he (heligible.mp hfalse)
      rw [if_neg (by rw [hprotected]; exact nofun),
        if_neg (by rw [decide_eq_true_iff]; exact he), ih hrest]

/-- **A PLAN** has the eligible records, in their order. -/
theorem planRetention_ok {plan : RetentionPlan} (h : planRetention now records = .ok plan) :
    plan.eligible.map ClassifiedRecord.record
      = records.filter (fun r => decide (Eligible now r)) := by
  rw [planRetention] at h
  split at h
  · cases h
  rename_i classified hclassified
  split at h
  · cases h
  cases h
  exact classifyAll_ok hclassified

end Classify

end Retention

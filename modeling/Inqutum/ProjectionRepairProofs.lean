import Inqutum.StaleProjectionProofs

/-!
# Repairing stale projections

`repairStaleIndex` goes through the index and through storage once: it
drops what storage does not have, copies the status of what it has, and
indexes what is missing.  `repair` reports what was done and what
`detect` still finds.

What a repair leaves under an identifier is `get_repairStaleIndex`; a
second repair finds nothing to do (`repairStaleIndex_again`).  But the
detector looks at more than is repaired.  It misses the invoice of a
hidden record, and it compares amount and asset.  So it finds nothing
after a repair if and only if no record of a stored invoice was hidden or
had another amount or asset before (`repair_converges_iff`).
-/

namespace InsertionMap

open List

/-- A walk over entries with different keys, each of which touches what is
    under its own key. -/
theorem get_foldl_entries {K V W σ : Type} [DecidableEq K]
    (get : σ → K → Option W) {step : σ → K × V → σ} {t : K → V → Option W → Option W}
    {l : List (K × V)} (hstep : ∀ e ∈ l, ∀ s k, get (step s e) k
      = if e.1 = k then t k e.2 (get s k) else get s k)
    (hnodup : (l.map Prod.fst).Nodup) (s : σ) (k : K) :
    get (l.foldl step s) k = (lookup k l).elim (get s k) (fun v => t k v (get s k)) := by
  induction l generalizing s with
  | nil => rfl
  | cons e rest ih =>
    obtain ⟨k', v⟩ := e
    obtain ⟨hnew, hrest⟩ := nodup_cons.mp hnodup
    rw [foldl_cons, ih (fun e he => hstep e (.tail _ he)) hrest, hstep _ (.head _)]
    show _ = Option.elim (if k' = k then some v else lookup k rest) _ _
    by_cases hk : k' = k
    · have hnone : lookup k rest = none := lookup_eq_none.mpr (hk ▸ hnew)
      rw [if_pos hk, if_pos hk, hnone]
      rfl
    · rw [if_neg hk, if_neg hk]

/-- A walk whose steps leave the state where it is. -/
theorem foldl_stays {α σ : Type} {step : σ → α → σ} {s : σ} {l : List α}
    (h : ∀ a ∈ l, step s a = s) : l.foldl step s = s := by
  induction l with
  | nil => rfl
  | cons a rest ih =>
    rw [foldl_cons, h a (.head _)]
    exact ih (fun a ha => h a (.tail _ ha))

end InsertionMap

open InsertionMap

namespace StaleProjections

open JsonText (Text)
open SearchIndex

/-! ## The repair -/

structure StaleIndexRepairResult where
  indexedMissing : Nat
  purgedStale : Nat
  updatedOutdated : Nat

/-- The index while it is repaired, with the counters. -/
abbrev RepairState := PermissionAwareSearchIndex × StaleIndexRepairResult

/-- The loop over the index. -/
def repairIndexed (actualMap : InsertionMap Text StoredInvoice)
    (s : RepairState) (e : Text × IndexedInvoiceRecord) : RepairState :=
  match actualMap.get e.1 with
  | none => (s.1.purge e.1, { s.2 with purgedStale := s.2.purgedStale + 1 })
  | some source =>
    if e.2.status ≠ source.status then
      (s.1.put { e.2 with status := source.status },
        { s.2 with updatedOutdated := s.2.updatedOutdated + 1 })
    else s

/-- The loop over the stored invoices. -/
def indexMissing (s : RepairState) (e : Text × StoredInvoice) : RepairState :=
  if (s.1.get e.1).isSome then s
  else (s.1.indexInvoice e.2.toInvoiceSnapshot .internal,
    { s.2 with indexedMissing := s.2.indexedMissing + 1 })

def repairStaleIndex (ix : PermissionAwareSearchIndex)
    (actualInvoices : List StoredInvoice) : RepairState :=
  let actualMap := storageMap actualInvoices
  actualMap.entries.foldl indexMissing
    (ix.index.entries.foldl (repairIndexed actualMap) (ix, ⟨0, 0, 0⟩))

inductive RepairMode where
  | immediate
  | queued

structure RepairExecutionEvidence where
  mode : RepairMode
  totalRepaired : Nat
  purgedOrphans : Nat
  indexedMissing : Nat
  syncedDrift : Nat
  repairedItemIds : List Text
  operatorEvidenceLog : List String
  remainingAnomalies : Nat

/-- A line of the log, unless the count is zero. -/
def logLine (count : Nat) (before after : String) : List String :=
  if 0 < count then [before ++ toString count ++ after] else []

def operatorEvidenceLog (stored : Nat) (result : StaleIndexRepairResult) :
    List String :=
  ("Synchronized search index projections against " ++ toString stored
      ++ " authoritative storage records.")
    :: (logLine result.purgedStale "Purged " " orphaned projection(s) from index."
      ++ logLine result.indexedMissing "Indexed " " missing record(s) into projection."
      ++ logLine result.updatedOutdated "Updated " " outdated status/attribute projection(s).")

/-- `repair`, with the answer of the storage. -/
def repair (low : Lowering) (storageInvoices : List StoredInvoice)
    (searchIndex : PermissionAwareSearchIndex)
    (mode : RepairMode := .immediate) :
    PermissionAwareSearchIndex × Except SearchError RepairExecutionEvidence :=
  match mode with
  | .queued => (searchIndex, .ok
      { mode := .queued
        totalRepaired := 0
        purgedOrphans := 0
        indexedMissing := 0
        syncedDrift := 0
        repairedItemIds := []
        operatorEvidenceLog := ["Queued background reconciliation job for "
          ++ toString storageInvoices.length ++ " storage records."]
        remainingAnomalies := 0 })
  | .immediate =>
    let (repaired, result) := repairStaleIndex searchIndex storageInvoices
    (repaired, (detect low storageInvoices repaired).map (fun postCheck =>
      { mode := .immediate
        totalRepaired := result.purgedStale + result.indexedMissing + result.updatedOutdated
        purgedOrphans := result.purgedStale
        indexedMissing := result.indexedMissing
        syncedDrift := result.updatedOutdated
        repairedItemIds := storageInvoices.map (fun i => i.id)
        operatorEvidenceLog := operatorEvidenceLog storageInvoices.length result
        remainingAnomalies := postCheck.totalAnomalies }))

/-- After a repair the detector finds nothing, and a second repair changes
    nothing and counts nothing. -/
structure Converges (low : Lowering) (storageInvoices : List StoredInvoice)
    (ix : PermissionAwareSearchIndex) : Prop where
  clean : ∃ report, detect low storageInvoices (repair low storageInvoices ix).1 = .ok report
      ∧ report.totalAnomalies = 0
  unchanged : (repair low storageInvoices
    (repair low storageInvoices ix).1).1 = (repair low storageInvoices ix).1
  nothing : ∃ evidence, (repair low storageInvoices
      (repair low storageInvoices ix).1).2 = .ok evidence
    ∧ evidence.totalRepaired = 0

/-- Every record of a stored invoice can be found and has the amount and the
    asset that are stored. -/
def Repairable (storageInvoices : List StoredInvoice) (ix : PermissionAwareSearchIndex) : Prop :=
  ∀ id source, (storageMap storageInvoices).get id = some source →
    ∀ record, ix.get id = some record → record.hidden = false
      ∧ record.amount = source.amount ∧ record.assetCode = source.assetCode

/-! ## What a repair leaves -/

/-- What a repair makes of the record of an invoice, and of one that is
    missing. -/
def repairedRecord (source : StoredInvoice) : Option IndexedInvoiceRecord → IndexedInvoiceRecord
  | some record => { record with status := source.status }
  | none => ⟨source.toInvoiceSnapshot, .internal, false⟩

section Repair

variable {stored : InsertionMap Text StoredInvoice}
  {storageInvoices : List StoredInvoice} {ix : PermissionAwareSearchIndex}

theorem get_repairIndexed (counts : StaleIndexRepairResult) (id : Text) :
    (ix.index.entries.foldl (repairIndexed stored) (ix, counts)).1.get id
      = (ix.get id).bind (fun record => (stored.get id).map
          (fun source => { record with status := source.status })) := by
  have hstep : ∀ e ∈ ix.index.entries, ∀ (s : RepairState) (k : Text),
      (repairIndexed stored s e).1.get k = if e.1 = k then
          (stored.get k).bind (fun source =>
            if e.2.status ≠ source.status then
              some { e.2 with status := source.status }
            else s.1.get k)
        else s.1.get k := by
    intro e he s k
    have hid := ix.keyed e.1 e.2 ((ix.index.mem_entries_iff _ _).mp he)
    rw [repairIndexed]
    by_cases hk : e.1 = k
    · rw [if_pos hk, ← hk]
      cases stored.get e.1 with
      | none =>
        show (s.1.purge e.1).get e.1 = none
        rw [PermissionAwareSearchIndex.get_purge, if_pos rfl]
      | some source =>
        rw [Option.bind_some]
        dsimp only
        split
        · show (s.1.put _).get e.1 = _
          rw [PermissionAwareSearchIndex.get_put, if_pos hid]
        · rfl
    · rw [if_neg hk]
      cases stored.get e.1 with
      | none =>
        show (s.1.purge e.1).get k = _
        rw [PermissionAwareSearchIndex.get_purge, if_neg hk]
      | some source =>
        dsimp only
        split
        · show (s.1.put _).get k = _
          rw [PermissionAwareSearchIndex.get_put, if_neg (fun h => hk (hid.symm.trans h))]
        · rfl
  refine (get_foldl_entries
    (fun (s : RepairState) k => s.1.get k) (t := fun k v found =>
      (stored.get k).bind (fun source => if v.status ≠ source.status then
        some { v with status := source.status } else found))
    hstep ix.index.nodup _ id).trans ?_
  show Option.elim (ix.get id) (ix.get id) _ = _
  cases ix.get id with
  | none => rfl
  | some record =>
    rw [Option.elim_some, Option.bind_some]
    cases stored.get id with
    | none => rfl
    | some source =>
      rw [Option.bind_some, Option.map_some]
      split
      · rfl
      rename_i hsame
      rw [not_not] at hsame
      rw [← hsame]

theorem keyed_storageMap {id : Text} {source : StoredInvoice}
    (h : (storageMap storageInvoices).get id = some source) : source.id = id := by
  rw [storageMap, get_collect] at h
  have hfound := List.find?_some h
  exact of_decide_eq_true hfound

theorem get_indexMissing (s : RepairState) (id : Text) :
    (((storageMap storageInvoices).entries.foldl indexMissing s).1.get id)
      = (s.1.get id).or (((storageMap storageInvoices).get id).map
          (fun source => ⟨source.toInvoiceSnapshot, .internal, false⟩)) := by
  have hstep : ∀ e ∈ (storageMap storageInvoices).entries,
      ∀ (s : RepairState) (k : Text), (indexMissing s e).1.get k
        = if e.1 = k then (s.1.get k).or (some ⟨e.2.toInvoiceSnapshot, .internal, false⟩)
          else s.1.get k := by
    intro e he s k
    have hid := keyed_storageMap (((storageMap storageInvoices).mem_entries_iff _ _).mp he)
    rw [indexMissing]
    by_cases hk : e.1 = k
    · subst hk
      rw [if_pos rfl]
      cases hget : s.1.get e.1 with
      | some record => exact hget
      | none =>
        show (s.1.indexInvoice _ _).get e.1 = _
        rw [PermissionAwareSearchIndex.get_indexInvoice, if_pos hid, hget]
        rfl
    · rw [if_neg hk]
      split
      · rfl
      show (s.1.indexInvoice _ _).get k = _
      rw [PermissionAwareSearchIndex.get_indexInvoice, if_neg (fun h => hk (hid.symm.trans h))]
  refine (get_foldl_entries
    (fun (s : RepairState) k => s.1.get k) (t := fun _ v found =>
      found.or (some ⟨v.toInvoiceSnapshot, .internal, false⟩))
    hstep (storageMap storageInvoices).nodup s id).trans ?_
  show Option.elim ((storageMap storageInvoices).get id) _ _ = _
  cases (storageMap storageInvoices).get id with
  | none => rw [Option.map_none, Option.or_none]; rfl
  | some source => rfl

/-- **WHAT A REPAIR LEAVES**: the records of the stored invoices, with the
    stored status. -/
theorem get_repairStaleIndex (id : Text) : (repairStaleIndex ix storageInvoices).1.get id
      = ((storageMap storageInvoices).get id).map
          (fun source => repairedRecord source (ix.get id)) := by
  rw [repairStaleIndex, get_indexMissing, get_repairIndexed]
  cases (storageMap storageInvoices).get id with
  | none =>
    cases ix.get id with
    | none => rfl
    | some record => rfl
  | some source =>
    cases ix.get id with
    | none => rfl
    | some record => rfl

/-- Nothing to repair: the index holds the stored invoices, with their
    status. -/
def Repaired (stored : InsertionMap Text StoredInvoice) (ix : PermissionAwareSearchIndex) : Prop :=
  (∀ id record, ix.get id = some record → ∃ source,
      stored.get id = some source ∧ record.status = source.status)
    ∧ ∀ id source, stored.get id = some source → (ix.get id).isSome = true

theorem repaired_repairStaleIndex : Repaired (storageMap storageInvoices)
      (repairStaleIndex ix storageInvoices).1 := by
  constructor
  · intro id record hget
    rw [get_repairStaleIndex] at hget
    obtain ⟨source, hsource, hrecord⟩ := Option.map_eq_some_iff.mp hget
    refine ⟨source, hsource, ?_⟩
    subst hrecord
    cases ix.get id with
    | none => rfl
    | some record => rfl
  · intro id source hsource
    rw [get_repairStaleIndex, hsource]
    rfl

/-- With nothing to repair, a repair goes through both loops without a
    step. -/
theorem repairStaleIndex_of_repaired (h : Repaired (storageMap storageInvoices) ix) :
    repairStaleIndex ix storageInvoices = (ix, ⟨0, 0, 0⟩) := by
  have hindexed : ix.index.entries.foldl
      (repairIndexed (storageMap storageInvoices)) (ix, ⟨0, 0, 0⟩) = (ix, ⟨0, 0, 0⟩) := by
    refine foldl_stays (fun e he => ?_)
    obtain ⟨source, hsource, hstatus⟩ := h.1 e.1 e.2 ((ix.index.mem_entries_iff _ _).mp he)
    rw [repairIndexed, hsource]
    exact if_neg (not_not.mpr hstatus)
  rw [repairStaleIndex]
  show (storageMap storageInvoices).entries.foldl indexMissing (ix.index.entries.foldl
      (repairIndexed (storageMap storageInvoices)) (ix, ⟨0, 0, 0⟩)) = _
  rw [hindexed]
  refine foldl_stays (fun e he => ?_)
  have hsome := h.2 e.1 e.2 (((storageMap storageInvoices).mem_entries_iff _ _).mp he)
  rw [indexMissing, if_pos hsome]

/-- **A SECOND REPAIR FINDS NOTHING TO DO.** -/
theorem repairStaleIndex_again :
    repairStaleIndex (repairStaleIndex ix storageInvoices).1 storageInvoices
      = ((repairStaleIndex ix storageInvoices).1, ⟨0, 0, 0⟩) :=
  repairStaleIndex_of_repaired repaired_repairStaleIndex

/-- **WHEN REPAIRED MEANS CLEAN**: the detector agrees with a repair when no
    record it copies is hidden or has another amount or asset. -/
theorem agree_repaired : Agree (storageMap storageInvoices) (repairStaleIndex ix storageInvoices).1
      ↔ Repairable storageInvoices ix := by
  constructor
  · intro hagree id source hsource record hrecord
    have hget : (repairStaleIndex ix storageInvoices).1.get id
        = some { record with status := source.status } := by
      rw [get_repairStaleIndex, hsource, hrecord]
      rfl
    obtain ⟨record', hrecord', hhidden⟩ := hagree.stored id source hsource
    rw [hget] at hrecord'
    cases hrecord'
    obtain ⟨source', hsource', hmirrors⟩ := hagree.shown id _ hget hhidden
    rw [hsource] at hsource'
    cases hsource'
    exact ⟨hhidden, hmirrors.amount, hmirrors.assetCode⟩
  · intro hrepairable
    have hrecord : ∀ id source, (storageMap storageInvoices).get id = some source →
          (repairedRecord source (ix.get id)).hidden = false ∧ Mirrors
              (repairedRecord source (ix.get id)).toInvoiceSnapshot source := by
      intro id source hsource
      cases hget : ix.get id with
      | none => exact ⟨rfl, rfl, rfl, rfl⟩
      | some record =>
        obtain ⟨hhidden, hamount, hasset⟩ := hrepairable id source hsource record hget
        exact ⟨hhidden, rfl, hamount, hasset⟩
    constructor
    · intro id record hget _
      rw [get_repairStaleIndex] at hget
      obtain ⟨source, hsource, rfl⟩ := Option.map_eq_some_iff.mp hget
      exact ⟨source, hsource, (hrecord id source hsource).2⟩
    intro id source hsource
    refine ⟨repairedRecord source (ix.get id), ?_, (hrecord id source hsource).1⟩
    rw [get_repairStaleIndex, hsource]
    rfl

end Repair

/-! ## When a repair converges -/

theorem repair_immediate_fst (low : Lowering) (storageInvoices : List StoredInvoice)
    (ix : PermissionAwareSearchIndex) :
    (repair low storageInvoices ix).1 = (repairStaleIndex ix storageInvoices).1 := rfl

theorem clean_iff (low : Lowering) (storageInvoices : List StoredInvoice)
    (ix : PermissionAwareSearchIndex) :
    (∃ report, detect low storageInvoices (repair low storageInvoices ix).1
          = .ok report ∧ report.totalAnomalies = 0) ↔ Repairable storageInvoices ix := by
  obtain ⟨report, hreport, hclean⟩ := detect_healthy low storageInvoices
    (repair low storageInvoices ix).1
  rw [repair_immediate_fst, agree_repaired] at hclean
  rw [← hclean]
  constructor
  · rintro ⟨report', hreport', hzero⟩
    rw [hreport] at hreport'
    cases hreport'
    exact List.length_eq_zero_iff.mp hzero
  intro hnil
  exact ⟨report, hreport, List.length_eq_zero_iff.mpr hnil⟩

/-- **WHEN A REPAIR CONVERGES**: if and only if no record of a stored invoice
    is hidden or has another amount or asset.  A second repair has nothing to
    do in any case. -/
theorem repair_converges_iff (low : Lowering) (storageInvoices : List StoredInvoice)
    (ix : PermissionAwareSearchIndex) :
    Converges low storageInvoices ix ↔ Repairable storageInvoices ix := by
  constructor
  · intro hconverges
    exact (clean_iff low storageInvoices ix).mp hconverges.clean
  intro hrepairable
  refine ⟨(clean_iff low storageInvoices ix).mpr hrepairable, ?_, ?_⟩
  · rw [repair_immediate_fst, repair_immediate_fst, repairStaleIndex_again]
  obtain ⟨report, hreport, -⟩ := detect_healthy low storageInvoices
    (repair low storageInvoices ix).1
  rw [repair_immediate_fst] at hreport ⊢
  rw [repair, repairStaleIndex_again]
  dsimp only
  rw [hreport]
  exact ⟨_, rfl, rfl⟩

open JsonText (ascii)

/-- An invoice over an amount. -/
def sampleInvoice (amount : Nat) : InvoiceSnapshot where
  id := ascii "i1"
  sellerPublicKey := ascii "GA"
  customerEmail := .undefined
  amount := .finite amount
  assetCode := ascii "XLM"
  description := .undefined
  memo := ascii "m"
  status := .pending

def sampleStored : StoredInvoice where
  toInvoiceSnapshot := sampleInvoice 2
  finite := rfl

/-- An old amount stays in the index, a revoked record and a deleted one stay
    hidden, and the detector says so after every repair. -/
theorem drift_stays : ¬ Converges ⟨id, rfl⟩ [sampleStored] (.indexInvoice .new (sampleInvoice 1))
      ∧ ¬ Converges ⟨id, rfl⟩ [sampleStored] (.indexInvoice .new (sampleInvoice 2) .revoked)
      ∧ ¬ Converges ⟨id, rfl⟩ [sampleStored] ((PermissionAwareSearchIndex.indexInvoice .new
          (sampleInvoice 2)).removeIndexRecord (ascii "i1")) := by
  refine ⟨?_, ?_, ?_⟩
  · intro hconverges
    have hsame := (clean_iff _ _ _).mp hconverges.clean (ascii "i1") sampleStored rfl _ rfl
    exact absurd hsame.2.1 (by decide +kernel)
  · intro hconverges
    have hsame := (clean_iff _ _ _).mp hconverges.clean (ascii "i1") sampleStored rfl _ rfl
    cases hsame.1
  intro hconverges
  have hsame := (clean_iff _ _ _).mp hconverges.clean (ascii "i1") sampleStored rfl _ rfl
  cases hsame.1

end StaleProjections

import Inqutum.RetentionSweepProofs

/-!
# What a retention sweep keeps

With nobody else at work, a sweep never deletes a transaction or an
invoice that is PAID, referenced by a transaction or under a legal hold
(`transactions_kept`, `invoices_kept`): the links and the metadata it
plans with are those of the rows it deletes.

A payment event is not looked up under its invoice.  `evidence_kept_iff`:
a run keeps the evidence of protected invoices exactly if no event of one
is among the due events of a batch.

A job counts as old by its creation until it has finished, and by the
second before its completion afterwards.  `finished_work_iff`: a run
deletes only jobs whose time has come exactly if no job of a batch is
unfinished or in its last second.
-/

namespace Retention

open Invoices (InvoiceRow)
open Jobs (JobRow)
open List Bool

/-! ## Evidence -/

/-- PAID, or under a legal hold. -/
def Shielded (row : InvoiceRow) : Prop :=
  row.status = .paid ∨ hasLegalHold row.metadata = true

/-- Shielded, or referenced by a transaction. -/
def ProtectedInvoice (db : RetentionDb) (row : InvoiceRow) : Prop :=
  Shielded row ∨ ∃ t ∈ db.transactions, t.invoiceId = some row.id

/-- The event is about a shielded invoice. -/
def OfShielded (db : RetentionDb) (event : PaymentEventRow) : Prop :=
  ∃ row ∈ db.invoices.rows, event.invoiceId = some row.id ∧ Shielded row

/-- No evidence is lost from one state to another. -/
structure EvidenceKept (db db' : RetentionDb) : Prop where
  transactions : db'.transactions = db.transactions
  invoices : ∀ row ∈ db.invoices.rows, ProtectedInvoice db row → row ∈ db'.invoices.rows
  paymentEvents : ∀ event ∈ db.paymentEvents, OfShielded db event → event ∈ db'.paymentEvents

/-- The events two years old, in their order, but those whose own id is that
    of a settled invoice. -/
def dueEvents (db : RetentionDb) (options : SweepOptions) : List String :=
  (db.paymentEvents.filter (fun event =>
    !(loadSettlementLinks db).contains event.id
      && pastWindow options.now (anchorOf event.createdAt) 730)).map
    PaymentEventRow.id

/-- No event of a shielded invoice is in the batch of a run that gets to
    it. -/
def EventsSpared (db : RetentionDb) (options : SweepOptions) : Prop :=
  Reaches db options .paymentEvents → ∀ event ∈ db.paymentEvents,
      event.id ∈ dueBatch options .paymentEvents (dueEvents db options) →
      ¬ OfShielded db event

/-! ## Finished work -/

/-- The tables the job stores make: ids are distinct, and a job has a
    completion time exactly if it has finished. -/
structure JobsSound (db : RetentionDb) : Prop where
  distinct : (db.jobs.map JobRow.id).Nodup
  completed : ∀ job ∈ db.jobs, job.completedAt ≠ none ↔ job.status = .succeeded ∨ job.status = .dead

/-- Thirty days after success, ninety after death. -/
def Ripe (now : Option Int) (job : JobRow) : Prop :=
  ∃ ms completed, now = some ms ∧ job.completedAt = some completed
    ∧ (job.status = .succeeded ∧ completed + 30 * dayMs ≤ ms
      ∨ job.status = .dead ∧ completed + 90 * dayMs ≤ ms)

/-- Only jobs whose time has come are deleted. -/
def OnlyRipeDeleted (now : Option Int) (db db' : RetentionDb) : Prop :=
  ∀ job ∈ db.jobs, job ∉ db'.jobs → Ripe now job

def jobDays (job : JobRow) : Nat :=
  if job.status = .dead then deadJobRetentionDays else 30

/-- The jobs that are old by completion or creation, in their order, but those
    whose id is that of a settled invoice. -/
def dueJobs (db : RetentionDb) (options : SweepOptions) : List String :=
  (db.jobs.filter (fun job =>
    !(loadSettlementLinks db).contains job.id && pastWindow options.now
        (anchorOf (job.completedAt.or (some job.createdAt)))
        (jobDays job))).map JobRow.id

/-- The job is finished, and the milliseconds of its completion are all that
    keeps it. -/
def InLastSecond (now : Option Int) (job : JobRow) : Prop :=
  ∃ ms completed, now = some ms ∧ job.completedAt = some completed
    ∧ ms < completed + jobDays job * dayMs

/-- No unfinished job, and none in its last second, is in the batch of a run
    that gets to it. -/
def WorkSpared (db : RetentionDb) (options : SweepOptions) : Prop :=
  Reaches db options .jobs → ∀ job ∈ db.jobs, job.id ∈ dueBatch options .jobs (dueJobs db options) →
      (job.status = .succeeded ∨ job.status = .dead)
      ∧ ¬ InLastSecond options.now job

/-! ## Invoices and transactions -/

section Kept

variable {db : RetentionDb} {options : SweepOptions} {row : InvoiceRow} {table : RetentionTable}
  {id : String} {α : Type}

theorem mem_loadSettlementLinks :
    id ∈ loadSettlementLinks db ↔ ∃ row ∈ db.invoices.rows, row.id = id ∧ (row.status = .paid
        ∨ ∃ t ∈ db.transactions, t.invoiceId = some row.id) := by
  rw [loadSettlementLinks, mem_map]
  constructor
  · rintro ⟨row, hrow, rfl⟩
    obtain ⟨hmem, hlinked⟩ := mem_filter.mp hrow
    refine ⟨row, hmem, rfl, ?_⟩
    -- an event adds nothing: with it the invoice has to be PAID all the same
    rw [or_eq_true, or_eq_true, and_eq_true] at hlinked
    rcases hlinked with (hpaid | htx) | ⟨-, hpaid⟩
    · exact .inl (beq_iff_eq.mp hpaid)
    · obtain ⟨t, ht, hid⟩ := any_eq_true.mp htx
      exact .inr ⟨t, ht, beq_iff_eq.mp hid⟩
    · exact .inl (beq_iff_eq.mp hpaid)
  · rintro ⟨row, hmem, rfl, hlinked⟩
    refine ⟨row, mem_filter.mpr ⟨hmem, ?_⟩, rfl⟩
    rw [or_eq_true, or_eq_true]
    rcases hlinked with hpaid | ⟨t, ht, hid⟩
    · exact .inl (.inl (beq_iff_eq.mpr hpaid))
    · exact .inl (.inr (any_eq_true.mpr ⟨t, ht, beq_iff_eq.mpr hid⟩))

theorem mem_of_mem_dueBatch {ids : List String}
    (h : id ∈ dueBatch options table ids) : id ∈ ids := by
  obtain ⟨copy, hcopy, hmem⟩ := mem_flatten.mp (mem_of_mem_take h)
  rw [eq_of_mem_replicate hcopy] at hmem
  exact hmem

/-- **WHAT A RUN LEAVES** of a table. -/
theorem mem_kept (rows : RetentionDb → List α) (id : α → String) (table : RetentionTable)
    (happlied : ∀ deletes db, rows (applyDeletes deletes db).2 = (rows db).filter (fun row =>
        !(executed table deletes db).contains (id row))) {row : α} :
    row ∈ rows (runRetentionSweep db options).2
      ↔ row ∈ rows db ∧ id row ∉ sweptIds db options table := by
  obtain ⟨deletes, hrun, hswept⟩ := run_deletes db options
  rw [hrun, happlied, ← hswept, mem_filter, not_eq_true', ← not_eq_true, contains_iff_mem]

theorem mem_swept {rows : List α} {record : α → RetentionRecord} (id : α → String) (old : α → Bool)
    (hown : loadTable (loadSettlementLinks db) db table = .ok (rows.map record))
    (hid : ∀ row, (record row).id = id row) (heligible : ∀ row, Eligible options.now (record row)
      ↔ (loadSettlementLinks db).contains (id row) = false ∧ old row = true) {swept : String} :
    swept ∈ sweptIds db options table
      ↔ Reaches db options table ∧ swept ∈ dueBatch options table ((rows.filter (fun row =>
          !(loadSettlementLinks db).contains (id row) && old row)).map id) := by
  have hdue : ((rows.map record).filter
        (fun r => decide (Eligible options.now r))).map RetentionRecord.id
      = (rows.filter (fun row =>
        !(loadSettlementLinks db).contains (id row) && old row)).map id := by
    have hids : RetentionRecord.id ∘ record = id := funext hid
    rw [filter_map, map_map, hids]
    refine congrArg (map id) (filter_congr ?_)
    intro row _
    rw [Function.comp_apply, Bool.eq_iff_iff, decide_eq_true_iff,
      Bool.and_eq_true, Bool.not_eq_true']
    exact heligible row
  rw [mem_sweptIds hown, hdue]

theorem eligible_of_swept (hrow : row ∈ db.invoices.rows)
    (h : row.id ∈ sweptIds db options .invoices) :
    Eligible options.now (invoiceRecord (loadSettlementLinks db) row) := by
  obtain ⟨-, hbatch⟩ := (mem_sweptIds rfl).mp h
  obtain ⟨record, hrecord, hid⟩ := mem_map.mp (mem_of_mem_dueBatch hbatch)
  obtain ⟨hmem, heligible⟩ := mem_filter.mp hrecord
  obtain ⟨other, hother, rfl⟩ := mem_map.mp hmem
  -- ids are distinct, so the record is that of the row itself
  have hsame : other = row := inj_on_of_nodup_map db.invoices.ids hother hrow hid
  rw [← hsame]
  exact of_decide_eq_true heligible

/-- **PROTECTED INVOICES** are not swept. -/
theorem not_swept_of_protected (hrow : row ∈ db.invoices.rows) (h : ProtectedInvoice db row) :
    row.id ∉ sweptIds db options .invoices := by
  intro hswept
  have heligible := eligible_of_swept hrow hswept
  have hunlinked : row.id ∉ loadSettlementLinks db := by
    intro hlinked
    have hcontains : (loadSettlementLinks db).contains row.id = true :=
      contains_iff_mem.mpr hlinked
    have hfalse : (loadSettlementLinks db).contains row.id = false := heligible.unlinked
    rw [hcontains] at hfalse
    cases hfalse
  rw [mem_loadSettlementLinks] at hunlinked
  rcases h with (hpaid | hheld) | htx
  · exact hunlinked ⟨row, hrow, rfl, .inl hpaid⟩
  · have hunheld : hasLegalHold row.metadata = false := heligible.unheld
    rw [hheld] at hunheld
    cases hunheld
  · exact hunlinked ⟨row, hrow, rfl, .inr htx⟩

theorem invoices_kept (hrow : row ∈ db.invoices.rows) (h : ProtectedInvoice db row) :
    row ∈ (runRetentionSweep db options).2.invoices.rows :=
  (mem_kept (fun db => db.invoices.rows) InvoiceRow.id .invoices
    applyDeletes_invoices).mpr ⟨hrow, not_swept_of_protected hrow h⟩

theorem sweptIds_transactions : sweptIds db options .transactions = [] := by
  rw [sweptIds]
  split
  · rfl
  rename_i plan hplan
  split
  · rfl
  have hnone : plan.eligible.filter (fun entry => entry.record.table == .transactions) = [] := by
    refine filter_eq_nil_iff.mpr ?_
    intro entry hentry htable
    rw [buildRetentionPlan] at hplan
    split at hplan
    · cases hplan
    split at hplan
    · cases hplan
    have hmem : entry.record ∈ plan.eligible.map ClassifiedRecord.record :=
      mem_map_of_mem hentry
    rw [planRetention_ok hplan] at hmem
    have heligible := of_decide_eq_true (mem_filter.mp hmem).2
    -- transactions are settlement records
    exact heligible.purgeable (by rw [beq_iff_eq.mp htable]; rfl)
  rw [executed_deletesOf, batchFor, hnone]
  split
  · exact congrArg (map _) take_nil
  · rfl

theorem transactions_kept (db : RetentionDb) (options : SweepOptions) :
    (runRetentionSweep db options).2.transactions = db.transactions := by
  obtain ⟨deletes, hrun, hswept⟩ := run_deletes db options
  rw [hrun]
  refine applyDeletes_transactions deletes db ?_ ?_
  · rw [← hswept, sweptIds_transactions]
  intro t ht id hid hmem
  rw [← hswept] at hmem
  obtain ⟨-, hbatch⟩ := (mem_sweptIds rfl).mp hmem
  obtain ⟨record, hrecord, rfl⟩ := mem_map.mp (mem_of_mem_dueBatch hbatch)
  obtain ⟨row, hrow, rfl⟩ := mem_map.mp (mem_filter.mp hrecord).1
  exact not_swept_of_protected hrow (.inr ⟨t, ht, hid⟩) hmem

/-- Which payment events go, -/
theorem mem_swept_paymentEvents {id : String} : id ∈ sweptIds db options .paymentEvents
      ↔ Reaches db options .paymentEvents
        ∧ id ∈ dueBatch options .paymentEvents (dueEvents db options) := by
  refine mem_swept PaymentEventRow.id (fun event =>
    pastWindow options.now (anchorOf event.createdAt) 730) rfl
    (fun _ => rfl) ?_
  intro event
  exact ⟨fun h => ⟨h.unlinked, h.past⟩, fun h => ⟨nofun, h.1, rfl, h.2⟩⟩

/-- and which stay. -/
theorem mem_kept_paymentEvents {event : PaymentEventRow} :
    event ∈ (runRetentionSweep db options).2.paymentEvents ↔ event ∈ db.paymentEvents
        ∧ event.id ∉ sweptIds db options .paymentEvents :=
  mem_kept RetentionDb.paymentEvents PaymentEventRow.id .paymentEvents applyDeletes_paymentEvents

/-- **EVIDENCE IS KEPT** by a run exactly if none of the due events in its
    batch is about an invoice that is PAID or under a legal hold. -/
theorem evidence_kept_iff (db : RetentionDb) (options : SweepOptions) :
    EvidenceKept db (runRetentionSweep db options).2 ↔ EventsSpared db options := by
  constructor
  · intro h hreaches event hevent hbatch hshielded
    have hkept := mem_kept_paymentEvents.mp (h.paymentEvents event hevent hshielded)
    exact hkept.2 (mem_swept_paymentEvents.mpr ⟨hreaches, hbatch⟩)
  intro h
  refine ⟨transactions_kept db options, fun row => invoices_kept, ?_⟩
  intro event hevent hshielded
  refine mem_kept_paymentEvents.mpr ⟨hevent, fun hswept => ?_⟩
  obtain ⟨hreaches, hbatch⟩ := mem_swept_paymentEvents.mp hswept
  exact h hreaches event hevent hbatch hshielded

/-! ## Jobs -/

theorem retainedDays_jobRecord (links : List String) (job : JobRow) :
    retainedDays (jobRecord links job) = jobDays job := by
  show (if (job.status == .dead) = true then deadJobRetentionDays else 30) = _
  rw [jobDays]
  simp only [beq_iff_eq]

theorem mem_swept_jobs {id : String} : id ∈ sweptIds db options .jobs ↔ Reaches db options .jobs
      ∧ id ∈ dueBatch options .jobs (dueJobs db options) := by
  refine mem_swept JobRow.id (fun job => pastWindow options.now
    (anchorOf (job.completedAt.or (some job.createdAt))) (jobDays job)) rfl
    (fun _ => rfl) ?_
  intro job
  rw [← retainedDays_jobRecord (loadSettlementLinks db)]
  exact ⟨fun h => ⟨h.unlinked, h.past⟩, fun h => ⟨nofun, h.1, rfl, h.2⟩⟩

theorem mem_kept_jobs {job : JobRow} : job ∈ (runRetentionSweep db options).2.jobs
      ↔ job ∈ db.jobs ∧ job.id ∉ sweptIds db options .jobs :=
  mem_kept RetentionDb.jobs JobRow.id .jobs applyDeletes_jobs

theorem clock_of_due {job : JobRow} (h : job.id ∈ dueBatch options .jobs (dueJobs db options)) :
    ∃ ms, options.now = some ms := by
  obtain ⟨other, hother, hid⟩ := mem_map.mp (mem_of_mem_dueBatch h)
  obtain ⟨hmem, hdue⟩ := mem_filter.mp hother
  rw [and_eq_true] at hdue
  cases hnow : options.now with
  | some ms => exact ⟨ms, rfl⟩
  | none =>
    rw [hnow, pastWindow] at hdue
    · cases hdue.2
    · rintro _ _ ⟨⟩

/-- **ONLY FINISHED WORK GOES**, and in time, exactly if no job of a batch is
    unfinished or in its last second. -/
theorem finished_work_iff (db : RetentionDb) (options : SweepOptions) (hsound : JobsSound db) :
    OnlyRipeDeleted options.now db (runRetentionSweep db options).2 ↔ WorkSpared db options := by
  constructor
  · intro h hreaches job hjob hbatch
    have hgone : job ∉ (runRetentionSweep db options).2.jobs := fun hkept =>
      (mem_kept_jobs.mp hkept).2 (mem_swept_jobs.mpr ⟨hreaches, hbatch⟩)
    obtain ⟨ms, completed, hnow, hcompleted, hwhen⟩ := h job hjob hgone
    refine ⟨(hsound.completed job hjob).mp (by rw [hcompleted]; exact nofun), ?_⟩
    rintro ⟨ms', completed', hnow', hcompleted', hearly⟩
    obtain rfl := Option.some.inj (hnow.symm.trans hnow')
    obtain rfl := Option.some.inj (hcompleted.symm.trans hcompleted')
    rw [jobDays] at hearly
    -- a dead job is kept ninety days, a succeeded one thirty
    rcases hwhen with ⟨hstatus, hwhen⟩ | ⟨hstatus, hwhen⟩
    · rw [if_neg (by rw [hstatus]; exact nofun)] at hearly
      exact absurd hwhen (Int.not_le.mpr hearly)
    rw [if_pos hstatus] at hearly
    exact absurd hwhen (Int.not_le.mpr hearly)
  · intro h job hjob hgone
    have hswept : job.id ∈ sweptIds db options .jobs := by
      by_contra hnot
      exact hgone (mem_kept_jobs.mpr ⟨hjob, hnot⟩)
    obtain ⟨hreaches, hbatch⟩ := mem_swept_jobs.mp hswept
    obtain ⟨hfinished, hlate⟩ := h hreaches job hjob hbatch
    obtain ⟨ms, hnow⟩ := clock_of_due hbatch
    obtain ⟨completed, hcompleted⟩ := Option.ne_none_iff_exists'.mp
      ((hsound.completed job hjob).mpr hfinished)
    have hwhen : completed + jobDays job * dayMs ≤ ms := by
      by_contra hearly
      exact hlate ⟨ms, completed, hnow, hcompleted, Int.not_le.mp hearly⟩
    refine ⟨ms, completed, hnow, hcompleted, ?_⟩
    rw [jobDays] at hwhen
    rcases hfinished with hstatus | hstatus
    · rw [if_neg (by rw [hstatus]; exact nofun)] at hwhen
      exact .inl ⟨hstatus, hwhen⟩
    rw [if_pos hstatus] at hwhen
    exact .inr ⟨hstatus, hwhen⟩

end Kept

/-! ## Samples -/

/-- A PAID invoice and the event of its payment. -/
def paidInvoice : InvoiceRow where
  id := "i"
  sellerPublicKey := "G"
  amount := 5
  memo := "INV-1"
  status := .paid
  createdAt := 0
  expiresAt := 0

def paidDb : RetentionDb where
  invoices := ⟨[paidInvoice], by decide, by decide, by decide, by decide⟩
  transactions := []
  paymentEvents := [⟨"e", some "i", some 0⟩]
  jobs := []
  datedTransactions := false

/-- A live run over one table, so many days after the epoch. -/
def liveRun (table : String) (days : Int) : SweepOptions where
  dryRun := some false
  tables := some [table]
  now := some (days * dayMs)
  batchSize := none

/-- After two years the event goes. -/
theorem paid_evidence_lost : ¬ EvidenceKept paidDb
      (runRetentionSweep paidDb (liveRun "payment_events" 730)).2 := by
  intro h
  have hempty : (runRetentionSweep paidDb
      (liveRun "payment_events" 730)).2.paymentEvents.isEmpty = true := by
    decide +kernel
  have hkept := h.paymentEvents ⟨"e", some "i", some 0⟩ (mem_singleton_self _)
    ⟨paidInvoice, mem_singleton_self _, rfl, .inl rfl⟩
  rw [isEmpty_iff.mp hempty] at hkept
  cases hkept

/-- A job created at the epoch. -/
def sampleJob (status : Jobs.JobStatus) (completedAt : Option Int) : JobRow where
  id := "j"
  type := "invoice.expiry"
  payloadVersion := 1
  payloadData := .null
  status := status
  attempts := 0
  retryPolicy := Jobs.defaultRetryPolicy
  runAt := 400 * dayMs
  lockedUntil := none
  lockedBy := none
  idempotencyKey := none
  correlationId := none
  errors := []
  result := .null
  createdAt := 0
  updatedAt := 0
  completedAt := completedAt

def jobsDb (job : JobRow) : RetentionDb where
  invoices := Invoices.InvoiceTable.empty
  transactions := []
  paymentEvents := []
  jobs := [job]
  datedTransactions := false

theorem jobsSound_queued : JobsSound (jobsDb (sampleJob .queued none)) where
  distinct := nodup_singleton _
  completed := by
    intro job hjob
    obtain rfl := mem_singleton.mp hjob
    decide

/-- A job that succeeded thirty days ago is deleted, and rightly. -/
theorem finished_work_succeeded :
    OnlyRipeDeleted (some (30 * dayMs)) (jobsDb (sampleJob .succeeded (some 0)))
      (runRetentionSweep (jobsDb (sampleJob .succeeded (some 0))) (liveRun "jobs" 30)).2 := by
  refine (finished_work_iff (jobsDb _) (liveRun "jobs" 30) ⟨nodup_singleton _, ?_⟩).mpr ?_
  · intro job hjob
    obtain rfl := mem_singleton.mp hjob
    decide
  intro _ job hjob _
  obtain rfl := mem_singleton.mp hjob
  refine ⟨.inl rfl, ?_⟩
  rintro ⟨ms, completed, hms, hcompleted, hearly⟩
  cases hms
  cases hcompleted
  exact absurd hearly (by decide)

/-- A job that waits for its time is deleted after thirty days. -/
theorem queued_job_deleted : JobsSound (jobsDb (sampleJob .queued none))
    ∧ ¬ OnlyRipeDeleted (some (30 * dayMs)) (jobsDb (sampleJob .queued none))
      (runRetentionSweep (jobsDb (sampleJob .queued none)) (liveRun "jobs" 30)).2 := by
  refine ⟨jobsSound_queued, fun h => ?_⟩
  have hempty : (runRetentionSweep (jobsDb (sampleJob .queued none))
      (liveRun "jobs" 30)).2.jobs.isEmpty = true := by
    decide +kernel
  obtain ⟨ms, completed, -, hcompleted, -⟩ := h (sampleJob .queued none)
    (mem_singleton_self _) (by
      rw [isEmpty_iff.mp hempty]
      exact not_mem_nil)
  cases hcompleted

end Retention

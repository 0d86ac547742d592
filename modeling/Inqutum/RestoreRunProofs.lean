import Inqutum.JobParityRunProofs
import Inqutum.RestoreHealthProofs

/-!
# The report on a database that was only ever written by the service

The job store keeps a table of its own, so a run of the service is a run
of the payments next to a run of the jobs.  A job that is running has a
lease, and one that is finished, and no other, says when (`JobSound`).

With `Coherent` for the payments, each check selects nothing, and
`careful_healthy` puts the report together.
-/

namespace RestoreHealth

open Invoices PaymentMonitor
open Jobs (JobRow JobStatus JobTable)
open RestoreValidation (Tables Server checks requiredTables)
open Transition (Along)
open List Option RestoreValidation Jobs System Bool

/-! ## Jobs -/

structure JobSound (row : JobRow) : Prop where
  running : row.status = .running → row.lockedUntil ≠ none
  finished : row.status = .succeeded ∨ row.status = .dead → row.completedAt ≠ none
  unfinished : row.status = .queued ∨ row.status = .running → row.completedAt = none

def JobsSound (t : JobTable) : Prop := ∀ row ∈ t.rows, JobSound row

variable {row : JobRow}

theorem JobsSound.update {t : JobTable} (h : JobsSound t) (id : String) (hrow : JobSound row) :
    JobsSound (t.update id (fun _ => row)) := by
  intro row' hmem
  obtain ⟨old, hold, rfl⟩ := mem_map.mp hmem
  split
  · exact hrow
  · exact h old hold

theorem jobSound_new (job : Jobs.Job) : JobSound (Jobs.newRow job) where
  running h := nomatch h
  finished h := by rcases h with h | h <;> cases h
  unfinished _ := rfl

theorem jobSound_claimed (h : JobSound row) (hdue : row.status = .queued ∨ row.status = .running)
    (workerId : String) (now leaseEnd : Int) :
    JobSound (claimedRow workerId now leaseEnd row) where
  running _ := some_ne_none _
  finished h := by rcases h with h | h <;> cases h
  unfinished _ := h.unfinished hdue

theorem jobSound_succeeded (row : JobRow) (result : Json) (now : Int) :
    JobSound (succeededRow row result now) where
  running h := nomatch h
  finished _ := some_ne_none _
  unfinished h := by rcases h with h | h <;> cases h

theorem jobSound_failed (row : JobRow) (error : JobError) (retryAt : Option Int) (now : Int) :
    JobSound (failedRow row error retryAt now) := by
  cases retryAt with
  | none =>
    refine ⟨fun h => (nomatch h), fun _ => some_ne_none _, ?_⟩
    rintro (h | h) <;> cases h
  | some at_ =>
    refine ⟨fun h => (nomatch h), ?_, fun _ => rfl⟩
    rintro (h | h) <;> cases h

theorem jobSound_requeued (row : JobRow) (now : Int) : JobSound (requeuedRow row now) where
  running h := nomatch h
  finished h := by rcases h with h | h <;> cases h
  unfinished _ := rfl

theorem nextDue_spec {t : JobTable} {scan : Scan} {now : Int} {types : Option (List String)}
    (h : t.nextDue scan.read now types = some row) :
    row ∈ t.rows ∧ (row.status = .queued ∨ row.status = .running) := by
  rw [JobTable.nextDue] at h
  have hsorted := mem_of_mem_head? h
  have hdue := mem_filter.mp ((mem_insertionSort _).mp hsorted)
  refine ⟨(scan.perm t.rows).mem_iff.mp hdue.1, ?_⟩
  have hstatus := (and_eq_true_iff.mp hdue.2).1
  cases hs : row.status with
  | queued => exact .inl rfl
  | running => exact .inr rfl
  | succeeded =>
    rw [hs] at hstatus
    cases hstatus
  | dead =>
    rw [hs] at hstatus
    cases hstatus

variable {db : Database} {t : JobTable}

theorem JobsSound.enqueue (h : JobsSound t) (job : Jobs.Job) (refusal : Option String) :
    JobsSound (t.enqueue db job refusal).1 := by
  cases refusal with
  | some message => exact h
  | none =>
    rw [JobTable.enqueue]
    split
    · exact h
    split
    · exact h
    split
    · exact h
    intro row hmem
    rcases mem_append.mp hmem with hmem | hmem
    · exact h row hmem
    rw [mem_singleton.mp hmem]
    exact jobSound_new job

theorem JobsSound.claimNext (h : JobsSound t) (scan : Scan)
    (workerId : String) (now : Date) (leaseMs : JsNumber) (types : Option (List String)) :
    JobsSound (t.claimNext db scan.read workerId now leaseMs types).1 := by
  rw [JobTable.claimNext]
  split
  · exact h
  split
  · exact h
  split
  · exact h
  next row hnext =>
    obtain ⟨hmem, hdue⟩ := nextDue_spec hnext
    split
    · exact h
    split
    · exact h
    · exact h.update _ (jobSound_claimed (h row hmem) hdue _ _ _)

theorem JobsSound.markSucceeded (h : JobsSound t) (id workerId : String)
    (result : Unknown) (now : Date) :
    JobsSound (t.markSucceeded db id workerId result now).1 := by
  rw [JobTable.markSucceeded]
  split
  · split
    · exact h
    split
    · exact h
    · exact h.update _ (jobSound_succeeded _ _ _)
  · exact h

theorem JobsSound.markFailed (h : JobsSound t) (id workerId : String)
    (error : JobError) (retryAt : Option Date) (now : Date) :
    JobsSound (t.markFailed db id workerId error retryAt now).1 := by
  rw [JobTable.markFailed]
  split
  · split
    · exact h
    split
    · exact h
    · exact h.update _ (jobSound_failed _ _ _ _)
  · exact h

theorem JobsSound.requeueDead (h : JobsSound t) (id : String)
    (now : Date) : JobsSound (t.requeueDead db id now).1 := by
  rw [JobTable.requeueDead]
  split
  · split
    · exact h
    · exact h.update _ (jobSound_requeued _ _)
  · exact h

/-- **EVERY OPERATION OF THE JOB STORE** keeps the jobs sound. -/
theorem JobsSound.call (h : JobsSound t) (scan : Jobs.Scan)
    (call : Jobs.Call) : JobsSound (Jobs.tableCall db t scan call).1 := by
  cases call with
  | enqueue call =>
    show JobsSound (call.enqueueRow db t).1
    rw [EnqueueCall.enqueueRow]
    split
    · exact h
    · exact h.enqueue _ _
  | claimNext workerId now leaseMs types => exact h.claimNext scan workerId now leaseMs types
  | markSucceeded id workerId result now => exact h.markSucceeded id workerId result now
  | markFailed id workerId error retryAt now => exact h.markFailed id workerId error retryAt now
  | requeueDead id now => exact h.requeueDead id now
  | list filter => exact h
  | counts => exact h

/-! ## The service -/

structure System where
  monitor : State
  jobs : JobTable

/-- The empty schema. -/
def System.empty : System :=
  ⟨State.init ⟨InvoiceTable.empty, []⟩, JobTable.empty⟩

inductive Event where
  | payments (event : PaymentMonitor.Event)
  | enqueue (job : Jobs.Job) (refusal : Option String)
  | jobs (call : Jobs.Call) (scan : Jobs.Scan)

def step (ledger : Ledger) (publicKey : String) (db : Database) (s : System) : Event → System
  | .payments event => { s with monitor := PaymentMonitor.step ledger publicKey s.monitor event }
  | .enqueue job refusal => { s with jobs := (s.jobs.enqueue db job refusal).1 }
  | .jobs call scan => { s with jobs := (tableCall db s.jobs scan call).1 }

/-- Only the steps of the payments have something to see to. -/
def CarefulStep (s : System) : Event → Prop
  | .payments event => Careful s.monitor event
  | _ => True

/-- What holds after every run of careful steps. -/
structure Healthy (ledger : Ledger) (publicKey : String) (s : System) : Prop where
  sound : Sound ledger publicKey s.monitor
  recorded : Recorded ledger s.monitor
  coherent : Coherent ledger s.monitor
  jobs : JobsSound s.jobs

section Runs

variable (ledger : Ledger) (publicKey : String)

theorem healthy_empty : Healthy ledger publicKey System.empty where
  sound := Sound.start ledger publicKey _ _
  recorded := settled_recorded ledger publicKey ⟨InvoiceTable.empty, []⟩ []
    nofun []
  coherent := coherent_empty ledger
  jobs _ h := nomatch h

variable {ledger publicKey}

theorem Healthy.step {s : System} (h : Healthy ledger publicKey s)
    (event : Event) (hcareful : CarefulStep s event) :
    Healthy ledger publicKey (step ledger publicKey db s event) := by
  cases event with
  | payments event =>
    have hmoves := step_moves ledger publicKey s.monitor event
    exact ⟨h.sound.moves hmoves, h.recorded.moves h.sound hmoves,
      h.coherent.step h.sound h.recorded event hcareful, h.jobs⟩
  | enqueue job refusal => exact ⟨h.sound, h.recorded, h.coherent, h.jobs.enqueue job refusal⟩
  | jobs call scan => exact ⟨h.sound, h.recorded, h.coherent, h.jobs.call scan call⟩

theorem Healthy.run {s : System} {events : List Event} (h : Healthy ledger publicKey s)
    (hcareful : Along (RestoreHealth.step ledger publicKey db) CarefulStep s events) :
    Healthy ledger publicKey (events.foldl (RestoreHealth.step ledger publicKey db) s) :=
  Along.invariant (fun _ event h hstep => h.step event hstep) h hcareful

end Runs

/-! ## What the checks find -/

section Checks

variable {invoices : InvoiceDb} {transactions : List TransactionRow}
  {jobs : JobTable}

theorem hasInvoice_of_known {id : String} (h : Known invoices id) :
    (tablesOf invoices transactions jobs).hasInvoice id = true := by
  obtain ⟨row, hrow⟩ := h
  refine any_eq_true.mpr ⟨invoiceOf row, ?_, ?_⟩
  · exact mem_map.mpr ⟨row, InvoiceTable.mem_of_find hrow, rfl⟩
  · exact decide_eq_true (InvoiceTable.find_id hrow)

theorem isPaid_invoiceOf {row : InvoiceRow} : isPaid (invoiceOf row) = true
      ↔ row.status = .paid := by
  show decide (some row.status.text = some "PAID") = true ↔ _
  cases row.status <;> decide

theorem countP_map_eq_zero {α β : Type} {f : α → β} {p : β → Bool}
    {rows : List α} (h : ∀ row ∈ rows, p (f row) = false) : (rows.map f).countP p = 0 := by
  refine countP_eq_zero.mpr fun x hmem => ?_
  obtain ⟨row, hrow, rfl⟩ := mem_map.mp hmem
  rw [h row hrow]
  exact false_ne_true

theorem duplicates_of_nodup {keys : List String} (h : keys.Nodup) : duplicates keys = 0 := by
  refine length_eq_zero_iff.mpr (filter_eq_nil_iff.mpr ?_)
  intro key _ hmany
  have hone := nodup_iff_count_le_one.mp h key
  exact absurd (of_decide_eq_true hmany) (not_lt.mpr hone)

theorem nodup_memos (t : InvoiceTable) : (t.rows.map (fun row => row.memo)).Nodup := by
  refine Nodup.map_on ?_ (Nodup.of_map _ t.ids)
  intro row hrow row' hrow' hmemo
  have hid := t.memos row hrow row' hrow' (some_ne_none _) (congrArg some hmemo)
  exact inj_on_of_nodup_map t.ids hrow hrow' hid

theorem orphanedTransactions_zero (h : ∀ t ∈ transactions, Known invoices t.invoiceId) :
    orphanedTransactions (tablesOf invoices transactions jobs) = 0 := by
  refine countP_map_eq_zero fun t ht => ?_
  show (!Tables.hasInvoice _ t.invoiceId) = false
  rw [hasInvoice_of_known (h t ht)]
  rfl

theorem orphanedPaymentEvents_zero (h : ∀ e ∈ invoices.paymentEvents, Known invoices e.invoiceId) :
    orphanedPaymentEvents (tablesOf invoices transactions jobs) = 0 := by
  refine countP_map_eq_zero fun e he => ?_
  show (!Tables.hasInvoice _ e.invoiceId) = false
  rw [hasInvoice_of_known (h e he)]
  rfl

theorem missingTransactions_zero (h : ∀ row ∈ invoices.invoices.rows, row.status = .paid →
      ∃ t ∈ transactions, t.invoiceId = row.id ∨ row.paymentTxHash = some t.txHash) :
    missingTransactions (tablesOf invoices transactions jobs) = 0 := by
  refine countP_map_eq_zero fun row hrow => ?_
  cases hpaid : isPaid (invoiceOf row) with
  | false => rfl
  | true =>
    obtain ⟨t, ht, hbacks⟩ := h row hrow (isPaid_invoiceOf.mp hpaid)
    rw [Bool.true_and, Bool.not_eq_false', List.any_eq_true]
    refine ⟨transactionOf t, List.mem_map.mpr ⟨t, ht, rfl⟩, ?_⟩
    rw [RestoreValidation.backs, Bool.or_eq_true, decide_eq_true_iff, decide_eq_true_iff]
    exact hbacks.imp_left (fun hid => congrArg some hid)

theorem detachedTransactions_zero : detachedTransactions
      (tablesOf invoices transactions jobs) = 0 :=
  countP_map_eq_zero fun _ _ => rfl

theorem duplicateMemos_zero : RestoreValidation.duplicateMemos
      (tablesOf invoices transactions jobs) = 0 := by
  refine duplicates_of_nodup ?_
  rw [tablesOf, List.map_map]
  exact nodup_memos invoices.invoices

theorem duplicateTxHashes_zero (h : (transactions.map (fun t => t.txHash)).Nodup) :
    RestoreValidation.duplicateTxHashes (tablesOf invoices transactions jobs) = 0 := by
  refine duplicates_of_nodup ?_
  rw [tablesOf, List.map_map]
  exact h

theorem amountDisagreements_zero (h : ∀ row ∈ invoices.invoices.rows, row.status = .paid →
      ∀ t ∈ transactions, t.invoiceId = row.id → amountColumn t.amount = some row.amount) :
    amountDisagreements (tablesOf invoices transactions jobs) = 0 := by
  refine sum_eq_zero fun n hn => ?_
  obtain ⟨i, hi, rfl⟩ := mem_map.mp hn
  obtain ⟨row, hrow, rfl⟩ := mem_map.mp hi
  refine countP_map_eq_zero fun t ht => ?_
  cases hpaid : isPaid (invoiceOf row) with
  | false => rfl
  | true =>
    rw [Bool.true_and, Bool.and_eq_false_iff]
    by_cases hid : t.invoiceId = row.id
    · have hamount := h row hrow (isPaid_invoiceOf.mp hpaid) t ht hid
      exact .inr (decide_eq_false (fun hne => hne hamount))
    · exact .inl (decide_eq_false (fun hsome => hid (some.inj hsome)))

section Rows

variable (h : ∀ row ∈ invoices.invoices.rows, RowSound row)

include h

theorem paidWithoutTimestamp_zero : paidWithoutTimestamp
      (tablesOf invoices transactions jobs) = 0 := by
  refine countP_map_eq_zero fun row hrow => ?_
  cases hpaid : isPaid (invoiceOf row) with
  | false => rfl
  | true =>
    obtain ⟨paidAt, _, hpaidAt, _⟩ := (h row hrow).paid (isPaid_invoiceOf.mp hpaid)
    show (true && row.paidAt.isNone) = false
    rw [hpaidAt]
    rfl

theorem unpaidWithTimestamp_zero : unpaidWithTimestamp
      (tablesOf invoices transactions jobs) = 0 := by
  refine countP_map_eq_zero fun row hrow => ?_
  by_cases hpaid : row.status = .paid
  · show (decide (row.status.text ≠ "PAID") && _) = false
    rw [hpaid]
    rfl
  show (_ && row.paidAt.isSome) = false
  rw [(h row hrow).unpaid hpaid, isSome_none, Bool.and_false]

theorem paidWithoutTxHash_zero : paidWithoutTxHash (tablesOf invoices transactions jobs) = 0 := by
  refine countP_map_eq_zero fun row hrow => ?_
  cases hpaid : isPaid (invoiceOf row) with
  | false => rfl
  | true =>
    obtain ⟨_, txHash, _, _, hhash⟩ := (h row hrow).paid (isPaid_invoiceOf.mp hpaid)
    show (true && row.paymentTxHash.isNone) = false
    rw [hhash]
    rfl

theorem expiryNotAfterCreation_zero : expiryNotAfterCreation
      (tablesOf invoices transactions jobs) = 0 :=
  countP_map_eq_zero fun row hrow => decide_eq_false (not_le.mpr (h row hrow).expiry)

theorem invalidVersions_zero : invalidVersions (tablesOf invoices transactions jobs) = 0 :=
  countP_map_eq_zero fun row hrow => decide_eq_false (not_lt.mpr (h row hrow).version)

theorem paidButOverdue_zero : paidButOverdue (tablesOf invoices transactions jobs) = 0 := by
  refine countP_map_eq_zero fun row hrow => ?_
  cases hpaid : isPaid (invoiceOf row) with
  | false => rfl
  | true =>
    obtain ⟨paidAt, _, hpaidAt, hintime, _⟩ := (h row hrow).paid (isPaid_invoiceOf.mp hpaid)
    show (true && row.paidAt.any (fun paidAt => row.expiresAt < paidAt)) = false
    rw [hpaidAt]
    exact decide_eq_false (not_lt.mpr (le_of_lt hintime))

end Rows

theorem unknownStatus_zero : unknownStatus (tablesOf invoices transactions jobs) = 0 := by
  refine countP_map_eq_zero fun row _ => ?_
  show decide (row.status.text ∉ ["PENDING", "PAID", "EXPIRED", "CANCELLED"]) = false
  cases row.status <;> decide

section JobChecks

variable (h : JobsSound jobs)

include h

theorem staleLeases_zero {now : Int} (hleases : ∀ row ∈ jobs.rows, row.status = .running →
      ∀ lockedUntil, row.lockedUntil = some lockedUntil → now ≤ lockedUntil) :
    staleLeases now (tablesOf invoices transactions jobs) = 0 := by
  refine countP_map_eq_zero fun row hrow => ?_
  by_cases hrunning : row.status = .running
  · obtain ⟨lockedUntil, hlocked⟩ := ne_none_iff_exists'.mp ((h row hrow).running hrunning)
    show (_ && row.lockedUntil.all (fun lockedUntil => lockedUntil < now)) = false
    rw [hlocked, and_eq_false_iff]
    exact .inr (decide_eq_false (not_lt.mpr (hleases row hrow hrunning lockedUntil hlocked)))
  show (decide (jobStatusText row.status = "running") && _) = false
  cases hs : row.status with
  | running => exact absurd hs hrunning
  | queued => rfl
  | succeeded => rfl
  | dead => rfl

theorem terminalWithoutCompletion_zero : terminalWithoutCompletion
      (tablesOf invoices transactions jobs) = 0 := by
  refine countP_map_eq_zero fun row hrow => ?_
  show (decide (jobStatusText row.status ∈ ["succeeded", "dead"])
    && (row.completedAt.map (fun ms => 1000 * ms)).isNone) = false
  by_cases hdone : row.status = .succeeded ∨ row.status = .dead
  · obtain ⟨ms, hms⟩ := ne_none_iff_exists'.mp ((h row hrow).finished hdone)
    rw [hms]
    exact and_false _
  cases hs : row.status with
  | queued => rfl
  | running => rfl
  | succeeded => exact absurd (.inl hs) hdone
  | dead => exact absurd (.inr hs) hdone

theorem nonTerminalWithCompletion_zero : nonTerminalWithCompletion
      (tablesOf invoices transactions jobs) = 0 := by
  refine countP_map_eq_zero fun row hrow => ?_
  show (decide (jobStatusText row.status ∈ ["queued", "running"])
    && (row.completedAt.map (fun ms => 1000 * ms)).isSome) = false
  by_cases hopen : row.status = .queued ∨ row.status = .running
  · rw [(h row hrow).unfinished hopen]
    exact and_false _
  cases hs : row.status with
  | queued => exact absurd (.inl hs) hopen
  | running => exact absurd (.inr hs) hopen
  | succeeded => rfl
  | dead => rfl

end JobChecks

end Checks

/-! ## The report -/

/-- The database of the service, with or without a `min(uuid)`. -/
def serverOf (s : System) (now : Int) (uuidMin : Bool) : Server where
  tables := tablesOf s.monitor.db s.monitor.transactions s.jobs
  now := now
  relations := requiredTables
  uuidMin := uuidMin

/-- No running job's lease has lapsed. -/
def Leased (s : System) (now : Int) : Prop :=
  ∀ row ∈ s.jobs.rows, row.status = .running →
    ∀ lockedUntil, row.lockedUntil = some lockedUntil → now ≤ lockedUntil

section Report

variable {ledger : Ledger} {publicKey : String} {s : System} {now : Int}

theorem serverOf_complete (s : System) (now : Int) (uuidMin : Bool) :
    (serverOf s now uuidMin).Complete := fun _ hmem => hmem

theorem query_serverOf (uuidMin : Bool) {check : CheckSpec} (hmem : check ∈ checks) :
    (serverOf s now uuidMin).query check = if check.takesUuidMin && !uuidMin then
          .error "function min(uuid) does not exist"
        else .ok (check.selects now (serverOf s now uuidMin).tables) := by
  have hreads : check.reads.find?
      (fun name => name ∉ (serverOf s now uuidMin).relations) = none := by
    refine find?_eq_none.mpr fun name hname hmissing => ?_
    have hrequired := (table_required check hmem).2 name hname
    exact of_decide_eq_true hmissing hrequired
  rw [Server.query, hreads]
  rfl

theorem Healthy.transaction (h : Healthy ledger publicKey s)
    (hfinished : s.monitor.allFinished = true) :
    ∀ row ∈ s.monitor.db.invoices.rows, row.status = .paid →
      ∃ t ∈ s.monitor.transactions, t.invoiceId = row.id ∨ row.paymentTxHash = some t.txHash := by
  intro row hrow hpaid
  obtain ⟨_, txHash, _, _, hhash⟩ := (h.coherent.rows row hrow).paid hpaid
  rcases h.coherent.covered row hrow hpaid txHash hhash with
    ⟨t, ht, hbacks⟩ | ⟨record, id, hcall, -⟩
  · refine ⟨t, ht, hbacks.imp_right ?_⟩
    rintro rfl
    exact hhash
  · cases all_eq_true.mp hfinished _ hcall

/-- **EVERY STATEMENT SELECTS NOTHING**. -/
theorem Healthy.selects_zero (h : Healthy ledger publicKey s)
    (hfinished : s.monitor.allFinished = true) (hleased : Leased s now) :
    ∀ check ∈ checks, check.selects now
      (tablesOf s.monitor.db s.monitor.transactions s.jobs) = 0 := by
  have hrows := h.coherent.rows
  have horigins : ∀ t ∈ s.monitor.transactions, Known s.monitor.db t.invoiceId := by
    intro t ht
    obtain ⟨row, hrow, -⟩ := h.coherent.origins t ht
    exact ⟨row, hrow⟩
  rw [checks]
  simp only [forall_mem_cons]
  exact ⟨orphanedTransactions_zero horigins, orphanedPaymentEvents_zero h.coherent.events,
    missingTransactions_zero (h.transaction hfinished),
    detachedTransactions_zero, duplicateMemos_zero,
    duplicateTxHashes_zero h.coherent.hashes,
    paidWithoutTimestamp_zero hrows, unpaidWithTimestamp_zero hrows,
    paidWithoutTxHash_zero hrows, unknownStatus_zero,
    amountDisagreements_zero h.coherent.amounts,
    expiryNotAfterCreation_zero hrows, invalidVersions_zero hrows,
    paidButOverdue_zero hrows, staleLeases_zero h.jobs hleased,
    terminalWithoutCompletion_zero h.jobs,
    nonTerminalWithCompletion_zero h.jobs, forall_mem_nil _⟩

theorem exists_takesUuidMin : ∃ check ∈ checks, check.takesUuidMin = true :=
  any_eq_true.mp (rfl : checks.any (fun check => check.takesUuidMin) = true)

/-- **THE REPORT AFTER CAREFUL STEPS**: with every payment handled and no
    lease lapsed, it is good exactly where the server has a `min(uuid)`. -/
theorem careful_healthy (ledger : Ledger) (publicKey : String)
    (db : Database) (events : List Event) (now : Int) (uuidMin : Bool)
    (options : ValidationOptions)
    (hcareful : Along (step ledger publicKey db) CarefulStep System.empty events)
    (hfinished : (events.foldl (step ledger publicKey db) System.empty).monitor.allFinished = true)
    (hleased : Leased (events.foldl (step ledger publicKey db) System.empty) now) :
    let report := runRestoreValidation
      (serverOf (events.foldl (step ledger publicKey db) System.empty) now uuidMin) options
    (report.ok = true ∧ report.totalViolations = 0) ↔ uuidMin = true := by
  intro report
  have hcomplete := serverOf_complete
    (events.foldl (step ledger publicKey db) System.empty) now uuidMin
  have hhealthy := (healthy_empty ledger publicKey).run hcareful
  constructor
  · rintro ⟨hok, -⟩
    obtain ⟨check, hmem, htakes⟩ := exists_takesUuidMin
    have hquery := (ok_iff hcomplete options).mp hok check hmem
    cases uuidMin with
    | true => rfl
    | false =>
      rw [query_serverOf false hmem, htakes] at hquery
      cases hquery
  · rintro rfl
    have hok : report.ok = true := by
      refine (ok_iff hcomplete options).mpr ?_
      intro check hmem
      rw [query_serverOf true hmem, Bool.not_true, Bool.and_false]
      exact congrArg Except.ok (hhealthy.selects_zero hfinished hleased check hmem)
    exact ⟨hok, totalViolations_of_ok hok⟩

end Report

/-- An invoice is created, and its payment is delivered and handled. -/
def settledEvents : List Event :=
  [.payments (.request (.create { sellerPublicKey := "G", amount := 5 } "a" "INV-1" 0 0)),
    .payments (.deliver .streamPayments (samplePayment lumens 'a')),
    .payments (.statement 0 0 0 false), .payments (.statement 0 0 0 false),
    .payments (.statement 0 0 0 false), .payments (.statement 0 0 0 false),
    .payments (.statement 0 0 0 false)]

theorem settledEvents_careful :
    Along (step (sampleLedger lumens) "G" sampleDatabase) CarefulStep
      System.empty settledEvents := by
  refine ⟨?_, trivial, ⟨rfl, ?_⟩, ⟨rfl, ?_⟩, ⟨rfl, ?_⟩, ⟨rfl, ?_⟩, ⟨rfl, ?_⟩, trivial⟩
  · intro expiresAt hexpiry
    cases hexpiry
    decide +kernel
  all_goals decide +kernel

theorem careful_healthy_settled :
    let report := runRestoreValidation (serverOf (settledEvents.foldl
        (step (sampleLedger lumens) "G" sampleDatabase) System.empty) 0
        true) {}
    report.ok = true ∧ report.totalViolations = 0 := by
  refine (careful_healthy (sampleLedger lumens) "G" sampleDatabase
    settledEvents 0 true {} settledEvents_careful (by decide +kernel) ?_).mpr rfl
  intro row hrow
  cases hrow

/-- An invoice is created, and the verify endpoint pays it. -/
def verifiedEvents : List Event :=
  [.payments (.request (.create { sellerPublicKey := "G", amount := 5 } "a" "INV-1" 0 0)),
    .payments (.request (.verify "a" "f" "P" none none 0))]

/-- A paid invoice has no transaction, and without `min(uuid)` even the empty
    schema is not good. -/
theorem verified_unhealthy : ((verifiedEvents.foldl
        (step (sampleLedger lumens) "G" sampleDatabase)
        System.empty).monitor.allFinished = true
      ∧ Leased (verifiedEvents.foldl
        (step (sampleLedger lumens) "G" sampleDatabase) System.empty) 0
      ∧ (runRestoreValidation (serverOf (verifiedEvents.foldl
          (step (sampleLedger lumens) "G" sampleDatabase) System.empty) 0
          true)).ok = false)
    ∧ (runRestoreValidation (serverOf System.empty 0 false)).ok = false := by
  refine ⟨⟨by decide +kernel, ?_, ?_⟩, ?_⟩
  · intro row hrow
    cases hrow
  · rw [← not_eq_true, ok_iff (serverOf_complete _ _ _)]
    intro hall
    exact absurd (hall checks[2] (getElem_mem _)) (by decide +kernel)
  rw [← not_eq_true, ok_iff (serverOf_complete _ _ _)]
  intro hall
  exact absurd (hall checks[4] (getElem_mem _)) (by decide +kernel)

end RestoreHealth

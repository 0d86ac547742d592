import Inqutum.InvoiceProofs
import Inqutum.JobStoreProofs
import Inqutum.KeysetScanProofs
import Mathlib.Data.String.Basic

/-!
# The tables of the repair job and its phases

The repair job looks at four tables.  Their foreign keys may be broken,
which is what the job is for; their primary keys and the memos of the
invoices are unique.  A phase selects the rows of one table that match its
condition and repairs each of them with a few statements.

A statement of a row changes at most that row's record, which makes every
phase a keyset scan (`scanOf`).  What a phase reads of the clocks is
handed to it as `Readings`.
-/

namespace Repair

open Invoices (InvoiceStatus)
open Jobs (JobStatus)
open List KeyTable

/-- The phases of the repair. -/
inductive RepairPhase where
  | detachedTransactions
  | orphanedTransactions
  | orphanedPaymentEvents
  | inconsistentInvoices
  | inconsistentJobs
  deriving DecidableEq

namespace RepairPhase

def name : RepairPhase → String
  | detachedTransactions => "detached_transactions"
  | orphanedTransactions => "orphaned_transactions"
  | orphanedPaymentEvents => "orphaned_payment_events"
  | inconsistentInvoices => "inconsistent_invoices"
  | inconsistentJobs => "inconsistent_jobs"

/-- `REPAIR_PHASE_ORDER`. -/
def order : List RepairPhase :=
  [detachedTransactions, orphanedTransactions, orphanedPaymentEvents,
    inconsistentInvoices, inconsistentJobs]

/-- The case of the switch that a name selects. -/
def ofName (text : String) : Option RepairPhase :=
  order.find? (fun phase => decide (phase.name = text))

/-- The switch finds every phase by its name. -/
theorem ofName_name (phase : RepairPhase) : ofName phase.name = some phase := by
  cases phase <;> decide +kernel

theorem name_injective : Function.Injective name := by
  intro phase phase' h
  have hsame : some phase = some phase' := by rw [← ofName_name phase, h, ofName_name]
  exact Option.some.inj hsame

end RepairPhase

/-! ## Tables -/

/-- A row of `transactions`. -/
structure Transaction where
  id : String
  invoiceId : Option String
  txHash : String
  memo : Option String
  processedAt : Option Int
  metadata : Option Json

/-- A row of `invoices`. -/
structure Invoice where
  id : String
  memo : String
  status : Option InvoiceStatus
  paidAt : Option Int
  paymentTxHash : Option String
  version : Option Int
  createdAt : Int

/-- A row of `payment_events`. -/
structure PaymentEvent where
  id : String
  invoiceId : Option String
  eventType : String
  eventData : Option Json

/-- A row of `jobs`. -/
structure JobRow where
  id : String
  status : JobStatus
  lockedUntil : Option Int
  lockedBy : Option String
  completedAt : Option Int
  updatedAt : Int
  deriving DecidableEq

/-- The invoices, with the unique index on their memos. -/
structure InvoiceTable extends KeyTable Invoice.id where
  memos : (rows.map Invoice.memo).Nodup

/-- `UPDATE … WHERE id = … AND p`, which leaves the memos. -/
def InvoiceTable.update (table : InvoiceTable) (id : String)
    (p : Invoice → Bool) (f : Invoice → Invoice) (hf : ∀ i, (f i).id = i.id)
    (hmemo : ∀ i, (f i).memo = i.memo) : InvoiceTable where
  toKeyTable := table.toKeyTable.update id p f hf
  memos := by
    have hsame : (table.toKeyTable.update id p f hf).rows.map Invoice.memo
        = table.rows.map Invoice.memo := by
      rw [KeyTable.update, map_map]
      refine map_congr_left ?_
      intro i _
      rw [Function.comp_apply]
      split
      · exact hmemo i
      · rfl
    rw [hsame]
    exact table.memos

/-- The columns the job reads or writes. -/
structure Tables where
  transactions : KeyTable Transaction.id
  invoices : InvoiceTable
  paymentEvents : KeyTable PaymentEvent.id
  jobs : KeyTable JobRow.id

/-- Some invoice has the id. -/
def Tables.hasInvoice (d : Tables) (id : String) : Bool :=
  d.invoices.rows.any (fun i => decide (i.id = id))

/-- One `UPDATE` of a table, or the error it throws. -/
abbrev Statement (σ : Type) := σ → Except String σ

/-! ## Rows and their repairs -/

/-- What comes of a row. -/
inductive Outcome where
  | repaired (action : String) (details : Json)
  | skipped
  | failed (error : String)

/-- Run the statements of a row up to the first that throws; what ran before
    it stays.  A dry run only notes their names. -/
def execute {σ : Type} (dry : Bool) (table : σ) :
    List (String × Statement σ) → σ × Except String (List String)
  | [] => (table, .ok [])
  | (action, statement) :: rest =>
    match if dry = true then .ok table else statement table with
    | .error message => (table, .error message)
    | .ok table' =>
      match execute dry table' rest with
      | (last, .error message) => (last, .error message)
      | (last, .ok actions) => (last, .ok (action :: actions))

/-- The outcome of a row with one statement. -/
def singleOutcome (details : Json) : Except String (List String) → Outcome
  | .error message => .failed message
  | .ok actions => .repaired (String.intercalate "+" actions) details

/-- The outcome of a row whose statements depend on what is wrong with it. -/
def rowOutcome (status : Json) : Except String (List String) → Outcome
  | .error message => .failed message
  | .ok [] => .skipped
  | .ok actions => .repaired (String.intercalate "+" actions)
      (.obj [("status", status), ("subActions", .arr (actions.map .str))])

/-- `jsonb_set(target, '{key}', value)`. -/
def jsonbSet (target : Json) (key : String) (value : Json) :
    Except String Json :=
  match target with
  | .obj members => .ok (.obj (members.filter (fun m => decide (m.1 ≠ key)) ++ [(key, value)]))
  | .arr _ => .error ("path element at position 1 is not an integer: \"" ++ key ++ "\"")
  | _ => .error "cannot set path in scalar"

/-- What the phases read of the clocks.  The selection reads the database's;
    the rest is read when the row of an id is repaired. -/
structure Readings where
  /-- `locked_until < NOW()` in the selection. -/
  lapsed : Int → Bool
  /-- `new Date(row.locked_until).getTime() < Date.now()`. -/
  stale : String → Int → Bool
  /-- `NOW()` in the update of a job. -/
  now : String → Int
  /-- `new Date()` of the log entry. -/
  stamp : String → Int

/-! ### Detached transactions -/

/-- A selected transaction with the invoice it belongs to. -/
structure DetachedRow where
  id : String
  txHash : String
  memo : String
  matchingInvoiceId : String

/-- A transaction without an invoice whose memo is that of one. -/
def detachedRow (d : Tables) (t : Transaction) : Option DetachedRow :=
  if t.invoiceId = none then
    t.memo.bind (fun memo =>
      (d.invoices.rows.find? (fun i => decide (i.memo = memo))).map (fun i =>
        ⟨t.id, t.txHash, memo, i.id⟩))
  else none

/-- `… AND invoice_id IS NULL` guards the write. -/
def relinkTransaction (id invoiceId : String) :
    Statement (KeyTable Transaction.id) := fun table =>
  .ok (table.update id (fun t => t.invoiceId.isNone)
    (fun t => { t with invoiceId := some invoiceId }) (fun _ => rfl))

/-- Link the transaction to its invoice. -/
def DetachedRow.repair (dry : Bool) (d : Tables) (row : DetachedRow) : Tables × Outcome :=
  let ran := execute dry d.transactions [("relink_transaction_to_invoice",
    relinkTransaction row.id row.matchingInvoiceId)]
  ({ d with transactions := ran.1 }, singleOutcome (.obj [("txHash", .str row.txHash),
    ("memo", .str row.memo), ("invoiceId", .str row.matchingInvoiceId)]) ran.2)

/-! ### Orphaned transactions and payment events -/

/-- The rest of a row with a broken reference: its hash, or the type of its
    event. -/
structure OrphanedRow where
  id : String
  invoiceId : String
  label : String

/-- A reference to an invoice that does not exist. -/
def orphanedRow (d : Tables) (id label : String) (invoiceId : Option String) :
    Option OrphanedRow :=
  invoiceId.bind (fun invoiceId =>
    if d.hasInvoice invoiceId = true then none
    else some ⟨id, invoiceId, label⟩)

/-- The JSON column with the broken reference noted in it. -/
def noteOrphan (column : Option Json) (invoiceId : String) :
    Except String Json :=
  jsonbSet (column.getD (.obj [])) "orphaned_invoice_id" (.str invoiceId)

/-- The reference is cleared and noted in `metadata`. -/
def isolateTransaction (id invoiceId : String) :
    Statement (KeyTable Transaction.id) := fun table =>
  match table.rows.find? (fun t => decide (t.id = id) && decide (t.invoiceId = some invoiceId)) with
  | none => .ok table
  | some t =>
    match noteOrphan t.metadata invoiceId with
    | .error message => .error message
    | .ok metadata => .ok (table.update id (fun t => decide (t.invoiceId = some invoiceId))
        (fun t => { t with invoiceId := none, metadata := some metadata })
        (fun _ => rfl))

/-- The reference is cleared and noted in `event_data`. -/
def isolatePaymentEvent (id invoiceId : String) :
    Statement (KeyTable PaymentEvent.id) := fun table =>
  match table.rows.find? (fun e => decide (e.id = id) && decide (e.invoiceId = some invoiceId)) with
  | none => .ok table
  | some e =>
    match noteOrphan e.eventData invoiceId with
    | .error message => .error message
    | .ok eventData => .ok (table.update id (fun e => decide (e.invoiceId = some invoiceId))
        (fun e => { e with invoiceId := none, eventData := some eventData })
        (fun _ => rfl))

/-- What is logged of a broken reference. -/
def OrphanedRow.details (field : String) (row : OrphanedRow) : Json :=
  .obj [(field, .str row.label), ("orphanedInvoiceId", .str row.invoiceId)]

/-- Isolate the transaction. -/
def OrphanedRow.repairTransaction (dry : Bool) (d : Tables)
    (row : OrphanedRow) : Tables × Outcome :=
  let ran := execute dry d.transactions [("isolate_orphaned_transaction",
    isolateTransaction row.id row.invoiceId)]
  ({ d with transactions := ran.1 }, singleOutcome (row.details "txHash") ran.2)

/-- Isolate the payment event. -/
def OrphanedRow.repairPaymentEvent (dry : Bool) (d : Tables)
    (row : OrphanedRow) : Tables × Outcome :=
  let ran := execute dry d.paymentEvents [("isolate_orphaned_payment_event",
    isolatePaymentEvent row.id row.invoiceId)]
  ({ d with paymentEvents := ran.1 }, singleOutcome (row.details "eventType") ran.2)

/-! ### Inconsistent invoices -/

/-- A selected invoice. -/
structure InvoiceRow where
  invoice : Invoice
  /-- The transaction of the lateral join. -/
  tx : Option Transaction

section Invoices

-- the first row of `ORDER BY processed_at ASC LIMIT 1`; which one comes first
-- among equals is left open
variable (first : List Transaction → Option Transaction)

/-- The lateral join: a transaction of the invoice, or one with its hash. -/
def linkedTransaction (d : Tables) (i : Invoice) : Option Transaction :=
  first (d.transactions.rows.filter (fun t =>
    decide (t.invoiceId = some i.id)
      || i.paymentTxHash.any (fun hash => decide (t.txHash = hash))))

/-- A comparison with a status is not true of a missing one. -/
def isInconsistent (i : Invoice) (tx : Option Transaction) : Bool :=
  (decide (i.status = some .paid) && i.paidAt.isNone)
    || (i.status.any (fun status => decide (status ≠ .paid)) && i.paidAt.isSome)
    || (decide (i.status = some .paid) && i.paymentTxHash.isNone && tx.isSome)
    || i.version.all (fun version => decide (version < 1))

/-- The selection of the phase. -/
def invoiceRow (d : Tables) (i : Invoice) : Option InvoiceRow :=
  if isInconsistent i (linkedTransaction first d i) = true then
    some ⟨i, linkedTransaction first d i⟩
  else none

end Invoices

/-- A paid invoice gets a date of payment. -/
def backfillPaidAt (id : String) (timestamp : Int) :
    Statement InvoiceTable := fun table =>
  .ok (table.update id (fun i => i.paidAt.isNone)
    (fun i => { i with paidAt := some timestamp }) (fun _ => rfl)
    (fun _ => rfl))

/-- An invoice that is not paid loses its date of payment. -/
def clearPaidAt (id : String) : Statement InvoiceTable := fun table =>
  .ok (table.update id (fun i => i.status.any (fun status => decide (status ≠ .paid)))
    (fun i => { i with paidAt := none }) (fun _ => rfl) (fun _ => rfl))

/-- The unique index on `payment_tx_hash` refuses a hash of another invoice. -/
def backfillPaymentTxHash (id hash : String) : Statement InvoiceTable :=
  fun table =>
    if table.rows.any (fun i => decide (i.id = id) && i.paymentTxHash.isNone)
      && table.rows.any (fun i => decide (i.paymentTxHash = some hash)) then
      .error ("duplicate key value violates unique constraint "
        ++ "\"idx_invoices_payment_tx_hash\"")
    else .ok (table.update id (fun i => i.paymentTxHash.isNone)
      (fun i => { i with paymentTxHash := some hash }) (fun _ => rfl)
      (fun _ => rfl))

/-- A missing or impossible version becomes 1. -/
def resetVersion (id : String) : Statement InvoiceTable := fun table =>
  .ok (table.update id (fun i => i.version.all (fun version => decide (version < 1)))
    (fun i => { i with version := some 1 }) (fun _ => rfl) (fun _ => rfl))

/-- The hash a row offers: an empty one counts as missing. -/
def InvoiceRow.offeredHash (row : InvoiceRow) : Option String :=
  if (JsText.nonEmpty row.invoice.paymentTxHash).isNone then
    JsText.nonEmpty (row.tx.map Transaction.txHash)
  else none

/-- What is wrong with an invoice, as the code reads its row. -/
def InvoiceRow.statements (row : InvoiceRow) : List (String × Statement InvoiceTable) :=
  let i := row.invoice
  (if i.status = some .paid ∧ i.paidAt = none then
    [("backfill_paid_at", backfillPaidAt i.id
      ((row.tx.bind Transaction.processedAt).getD i.createdAt))]
  else [])
  ++ (if i.status ≠ some .paid ∧ i.paidAt ≠ none then
    [("clear_paid_at", clearPaidAt i.id)]
  else [])
  ++ (match row.offeredHash with
    | some hash =>
      if i.status = some .paid then
        [("backfill_payment_tx_hash", backfillPaymentTxHash i.id hash)]
      else []
    | none => [])
  ++ (if i.version.all (fun version => decide (version < 1)) = true then
    [("reset_version", resetVersion i.id)]
  else [])

/-- Run the statements that the row calls for. -/
def InvoiceRow.repair (dry : Bool) (d : Tables) (row : InvoiceRow) : Tables × Outcome :=
  let ran := execute dry d.invoices row.statements
  ({ d with invoices := ran.1 }, rowOutcome ((row.invoice.status.map (fun status =>
    Json.str status.text)).getD .null) ran.2)

/-! ### Inconsistent jobs -/

/-- The job has come to an end. -/
def JobRow.isTerminal (j : JobRow) : Bool :=
  decide (j.status = .succeeded) || decide (j.status = .dead)

/-- The job is still to be done. -/
def JobRow.isPending (j : JobRow) : Bool :=
  decide (j.status = .queued) || decide (j.status = .running)

/-- The selection of the phase. -/
def jobRow (lapsed : Int → Bool) (j : JobRow) : Option JobRow :=
  if (decide (j.status = .running) && j.lockedUntil.all lapsed)
      || (j.isTerminal && j.completedAt.isNone)
      || (j.isPending && j.completedAt.isSome) then some j
  else none

/-- `… AND status = 'running'`: the lease is not looked at again. -/
def requeueStaleLease (id : String) (now : Int) :
    Statement (KeyTable JobRow.id) := fun table =>
  .ok (table.update id (fun j => decide (j.status = .running)) (fun j => { j with
      status := .queued
      lockedUntil := none
      lockedBy := none
      updatedAt := now }) (fun _ => rfl))

/-- An ended job gets a date of completion. -/
def backfillCompletedAt (id : String) (completedTime : Int) :
    Statement (KeyTable JobRow.id) := fun table =>
  .ok (table.update id (fun j => j.completedAt.isNone)
    (fun j => { j with completedAt := some completedTime }) (fun _ => rfl))

/-- A pending job loses its date of completion. -/
def clearCompletedAt (id : String) : Statement (KeyTable JobRow.id) :=
  fun table => .ok (table.update id JobRow.isPending
    (fun j => { j with completedAt := none }) (fun _ => rfl))

/-- What is wrong with a job, as the code reads its row. -/
def JobRow.statements (readings : Readings) (j : JobRow) :
    List (String × Statement (KeyTable JobRow.id)) :=
  (if j.status = .running ∧ j.lockedUntil.all (readings.stale j.id) = true then
    [("requeue_stale_lease", requeueStaleLease j.id (readings.now j.id))]
  else [])
  ++ (if j.isTerminal = true ∧ j.completedAt = none then
    [("backfill_completed_at", backfillCompletedAt j.id j.updatedAt)]
  else [])
  ++ (if j.isPending = true ∧ j.completedAt ≠ none then
    [("clear_completed_at", clearCompletedAt j.id)]
  else [])

def jobStatusText : JobStatus → String
  | .queued => "queued"
  | .running => "running"
  | .succeeded => "succeeded"
  | .dead => "dead"

/-- Run the statements that the row calls for. -/
def JobRow.repair (readings : Readings) (dry : Bool) (d : Tables) (j : JobRow) : Tables × Outcome :=
  let ran := execute dry d.jobs (j.statements readings)
  ({ d with jobs := ran.1 }, rowOutcome (.str (jobStatusText j.status)) ran.2)

/-! ## The phases as scans -/

section Execute

variable {σ : Type}

/-- A dry run changes nothing and names every statement. -/
theorem execute_dry (table : σ) (statements : List (String × Statement σ)) :
    (execute true table statements).1 = table ∧ (execute true table statements).2
        = .ok (statements.map Prod.fst) := by
  induction statements with
  | nil => exact ⟨rfl, rfl⟩
  | cons s rest ih =>
    obtain ⟨action, statement⟩ := s
    obtain ⟨htable, hactions⟩ := ih
    have heq : execute true table rest
        = (table, .ok (rest.map Prod.fst)) := Prod.ext htable hactions
    simp only [execute, if_true, heq, map_cons]
    exact ⟨trivial, trivial⟩

/-- A statement that succeeds is named first. -/
theorem execute_ok {table table' : σ} {statement : Statement σ}
    (h : statement table = .ok table') (action : String) (rest : List (String × Statement σ)) :
    execute false table ((action, statement) :: rest) = ((execute false table' rest).1,
        (execute false table' rest).2.map (fun actions => action :: actions)) := by
  rw [execute, if_neg (by decide), h]
  dsimp only
  rcases execute false table' rest with ⟨last, message | actions⟩
  · rfl
  · rfl

/-- What every statement keeps, and chains compose, a run keeps. -/
theorem execute_relates {R : σ → σ → Prop} (hrefl : ∀ x, R x x)
    (htrans : ∀ x y z, R x y → R y z → R x z) (dry : Bool)
    {statements : List (String × Statement σ)}
    (hstep : ∀ s ∈ statements, ∀ x y, s.2 x = .ok y → R x y) (table : σ) :
    R table (execute dry table statements).1 := by
  induction statements generalizing table with
  | nil => exact hrefl table
  | cons s rest ih =>
    obtain ⟨action, statement⟩ := s
    have hrest := ih (fun s hs => hstep s (.tail _ hs))
    cases dry with
    | true =>
      rw [(execute_dry table _).1]
      exact hrefl table
    | false =>
      rw [execute, if_neg (by decide)]
      split
      · exact hrefl table
      rename_i table' hok
      have hfirst := hstep _ (.head _) table table' hok
      have hlast := htrans _ _ _ hfirst (hrest table')
      split
      · rename_i heq
        rw [heq] at hlast
        exact hlast
      rename_i heq
      rw [heq] at hlast
      exact hlast

end Execute

/-- A row's statements change at most its record. -/
def InvoiceTable.ChangesAt (k : String) (table table' : InvoiceTable) : Prop :=
  KeyTable.ChangesAt k table.toKeyTable table'.toKeyTable

theorem InvoiceTable.changesAt_update (table : InvoiceTable) (id : String)
    (p : Invoice → Bool) (f : Invoice → Invoice) (hf : ∀ i, (f i).id = i.id)
    (hmemo : ∀ i, (f i).memo = i.memo) : table.ChangesAt id (table.update id p f hf hmemo) :=
  KeyTable.changesAt_update table.toKeyTable id p f hf

/-- A row with one statement changes at most its record. -/
theorem changesAt_single {ρ : Type} {id : ρ → String} {k : String}
    {statement : Statement (KeyTable id)}
    (h : ∀ x y, statement x = .ok y → ChangesAt k x y)
    (dry : Bool) (action : String) (table : KeyTable id) :
    ChangesAt k table (execute dry table [(action, statement)]).1 := by
  refine execute_relates (changesAt_refl k)
    (fun _ _ _ => ChangesAt.trans) dry ?_ table
  intro s hs x y hok
  rw [mem_singleton.mp hs] at hok
  exact h x y hok

variable {s : String × Statement InvoiceTable} {id invoiceId : String}
  {table table' : KeyTable Transaction.id} {row : InvoiceRow} {readings : Readings} {j : JobRow}

theorem changesAt_relink (h : relinkTransaction id invoiceId table = .ok table') :
    ChangesAt id table table' := by
  cases h
  exact changesAt_update _ _ _ _ _

theorem changesAt_isolateTransaction (h : isolateTransaction id invoiceId table = .ok table') :
    ChangesAt id table table' := by
  rw [isolateTransaction] at h
  split at h
  · cases h
    exact changesAt_refl _ _
  split at h
  · cases h
  cases h
  exact changesAt_update _ _ _ _ _

theorem changesAt_isolatePaymentEvent {table table' : KeyTable PaymentEvent.id}
    (h : isolatePaymentEvent id invoiceId table = .ok table') :
    ChangesAt id table table' := by
  rw [isolatePaymentEvent] at h
  split at h
  · cases h
    exact changesAt_refl _ _
  split at h
  · cases h
  cases h
  exact changesAt_update _ _ _ _ _

/-- The four statements an invoice may call for. -/
theorem InvoiceRow.statement_cases (h : s ∈ row.statements) :
    (∃ timestamp, s.2 = backfillPaidAt row.invoice.id timestamp) ∨ s.2 = clearPaidAt row.invoice.id
      ∨ (∃ hash, s.2 = backfillPaymentTxHash row.invoice.id hash)
      ∨ s.2 = resetVersion row.invoice.id := by
  rw [InvoiceRow.statements] at h
  rcases mem_append.mp h with h | h
  · rcases mem_append.mp h with h | h
    · rcases mem_append.mp h with h | h
      · split at h
        · rw [mem_singleton.mp h]
          exact .inl ⟨_, rfl⟩
        · cases h
      split at h
      · rw [mem_singleton.mp h]
        exact .inr (.inl rfl)
      · cases h
    · split at h
      · split at h
        · rw [mem_singleton.mp h]
          exact .inr (.inr (.inl ⟨_, rfl⟩))
        · cases h
      · cases h
  · split at h
    · rw [mem_singleton.mp h]
      exact .inr (.inr (.inr rfl))
    · cases h

/-- Each of them is one guarded `UPDATE` of the row. -/
theorem InvoiceRow.statement_update (hs : s ∈ row.statements)
    {table table' : InvoiceTable} (h : s.2 table = .ok table') :
    ∃ p f hf hmemo, table' = table.update row.invoice.id p f hf hmemo := by
  rcases InvoiceRow.statement_cases hs with
    ⟨timestamp, heq⟩ | heq | ⟨hash, heq⟩ | heq
  · rw [heq] at h
    exact ⟨_, _, _, _, (Except.ok.inj h).symm⟩
  · rw [heq] at h
    exact ⟨_, _, _, _, (Except.ok.inj h).symm⟩
  · rw [heq, backfillPaymentTxHash] at h
    split at h
    · cases h
    · exact ⟨_, _, _, _, (Except.ok.inj h).symm⟩
  rw [heq] at h
  exact ⟨_, _, _, _, (Except.ok.inj h).symm⟩

theorem changesAt_invoice (hs : s ∈ row.statements)
    {table table' : InvoiceTable} (h : s.2 table = .ok table') :
    table.ChangesAt row.invoice.id table' := by
  obtain ⟨p, f, hf, hmemo, rfl⟩ := InvoiceRow.statement_update hs h
  exact table.changesAt_update _ _ _ _ _

/-- The three statements a job may call for. -/
theorem JobRow.statement_cases {s : String × Statement (KeyTable JobRow.id)}
    (h : s ∈ j.statements readings) :
    s.2 = requeueStaleLease j.id (readings.now j.id) ∨ s.2 = backfillCompletedAt j.id j.updatedAt
      ∨ s.2 = clearCompletedAt j.id := by
  rw [JobRow.statements] at h
  rcases mem_append.mp h with h | h
  · rcases mem_append.mp h with h | h
    · split at h
      · rw [mem_singleton.mp h]
        exact .inl rfl
      · cases h
    split at h
    · rw [mem_singleton.mp h]
      exact .inr (.inl rfl)
    · cases h
  · split at h
    · rw [mem_singleton.mp h]
      exact .inr (.inr rfl)
    · cases h

theorem changesAt_job {s : String × Statement (KeyTable JobRow.id)}
    (hs : s ∈ j.statements readings) {table table' : KeyTable JobRow.id}
    (h : s.2 table = .ok table') : ChangesAt j.id table table' := by
  rcases JobRow.statement_cases hs with heq | heq | heq
  all_goals
    rw [heq] at h
    cases h
    exact changesAt_update _ _ _ _ _

section Scans

variable (dry : Bool)

/-- `detached_transactions`. -/
def detachedScan : KeysetScan Tables Transaction DetachedRow String Outcome where
  records d := d.transactions.rows
  id := Transaction.id
  ascending d := d.transactions.ascending
  pick := detachedRow
  key := DetachedRow.id
  key_pick := by
    intro d t row h
    rw [detachedRow] at h
    split at h
    · obtain ⟨memo, -, h⟩ := Option.bind_eq_some_iff.mp h
      obtain ⟨i, -, rfl⟩ := Option.map_eq_some_iff.mp h
      rfl
    · cases h
  repair := DetachedRow.repair dry
  changes_one := by
    intro d row
    obtain ⟨f, hrows, hid, hother⟩ := changesAt_single
      (fun _ _ => changesAt_relink) dry _ d.transactions
    exact ⟨f, hrows, hid, hother, fun _ => rfl⟩

/-- `orphaned_transactions`. -/
def orphanedTransactionScan : KeysetScan Tables Transaction OrphanedRow String Outcome where
  records d := d.transactions.rows
  id := Transaction.id
  ascending d := d.transactions.ascending
  pick d t := orphanedRow d t.id t.txHash t.invoiceId
  key := OrphanedRow.id
  key_pick := by
    intro d t row h
    obtain ⟨invoiceId, -, h⟩ := Option.bind_eq_some_iff.mp h
    split at h
    · cases h
    · rw [← Option.some.inj h]
  repair := OrphanedRow.repairTransaction dry
  changes_one := by
    intro d row
    obtain ⟨f, hrows, hid, hother⟩ := changesAt_single
      (fun _ _ => changesAt_isolateTransaction) dry _ d.transactions
    exact ⟨f, hrows, hid, hother, fun _ => rfl⟩

/-- `orphaned_payment_events`. -/
def orphanedPaymentEventScan : KeysetScan Tables PaymentEvent OrphanedRow String Outcome where
  records d := d.paymentEvents.rows
  id := PaymentEvent.id
  ascending d := d.paymentEvents.ascending
  pick d e := orphanedRow d e.id e.eventType e.invoiceId
  key := OrphanedRow.id
  key_pick := by
    intro d e row h
    obtain ⟨invoiceId, -, h⟩ := Option.bind_eq_some_iff.mp h
    split at h
    · cases h
    · rw [← Option.some.inj h]
  repair := OrphanedRow.repairPaymentEvent dry
  changes_one := by
    intro d row
    obtain ⟨f, hrows, hid, hother⟩ := changesAt_single
      (fun _ _ => changesAt_isolatePaymentEvent) dry _ d.paymentEvents
    exact ⟨f, hrows, hid, hother, fun _ => rfl⟩

/-- `inconsistent_invoices`. -/
def invoiceScan (first : List Transaction → Option Transaction) :
    KeysetScan Tables Invoice InvoiceRow String Outcome where
  records d := d.invoices.rows
  id := Invoice.id
  ascending d := d.invoices.ascending
  pick := invoiceRow first
  key row := row.invoice.id
  key_pick := by
    intro d i row h
    rw [invoiceRow] at h
    split at h
    · rw [← Option.some.inj h]
    · cases h
  repair := InvoiceRow.repair dry
  changes_one := by
    intro d row
    obtain ⟨f, hrows, hid, hother⟩ := execute_relates (R := InvoiceTable.ChangesAt row.invoice.id)
      (fun _ => KeyTable.changesAt_refl _ _)
      (fun _ _ _ => KeyTable.ChangesAt.trans)
      dry (fun s hs x y h => changesAt_invoice hs h) d.invoices
    exact ⟨f, hrows, hid, hother, fun _ => rfl⟩

/-- `inconsistent_jobs`. -/
def jobScan (readings : Readings) : KeysetScan Tables JobRow JobRow String Outcome where
  records d := d.jobs.rows
  id := JobRow.id
  ascending d := d.jobs.ascending
  pick _ := jobRow readings.lapsed
  key := JobRow.id
  key_pick := by
    intro d j row h
    rw [jobRow] at h
    split at h
    · rw [← Option.some.inj h]
    · cases h
  repair := JobRow.repair readings dry
  changes_one := by
    intro d j
    obtain ⟨f, hrows, hid, hother⟩ := execute_relates
      (changesAt_refl j.id) (fun _ _ _ => ChangesAt.trans)
      dry (fun s hs x y h => changesAt_job hs h) d.jobs
    exact ⟨f, hrows, hid, hother, fun _ => rfl⟩

end Scans

/-- The records a phase looks through. -/
def RecordOf : RepairPhase → Type
  | .detachedTransactions => Transaction
  | .orphanedTransactions => Transaction
  | .orphanedPaymentEvents => PaymentEvent
  | .inconsistentInvoices => Invoice
  | .inconsistentJobs => JobRow

/-- The rows a phase selects. -/
def RowOf : RepairPhase → Type
  | .detachedTransactions => DetachedRow
  | .orphanedTransactions => OrphanedRow
  | .orphanedPaymentEvents => OrphanedRow
  | .inconsistentInvoices => InvoiceRow
  | .inconsistentJobs => JobRow

/-- **EVERY PHASE IS A KEYSET SCAN**. -/
def scanOf (first : List Transaction → Option Transaction)
    (readings : Readings) (dry : Bool) : (phase : RepairPhase) →
      KeysetScan Tables (RecordOf phase) (RowOf phase) String Outcome
  | .detachedTransactions => detachedScan dry
  | .orphanedTransactions => orphanedTransactionScan dry
  | .orphanedPaymentEvents => orphanedPaymentEventScan dry
  | .inconsistentInvoices => invoiceScan dry first
  | .inconsistentJobs => jobScan dry readings

end Repair

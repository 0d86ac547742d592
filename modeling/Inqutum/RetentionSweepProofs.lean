import Inqutum.RetentionPolicyProofs
import Inqutum.InvoiceTableProofs
import Inqutum.PostgresJobStoreProofs

/-!
# The retention sweep

A sweep reads the ids of the invoices that a settlement depends on, reads
the chosen tables, plans, and deletes the eligible rows of each table by
their ids, a batch at a time.

What a run deletes is what its `DELETE`s name, up to the first that is
refused (`applyDeletes_filter`), and a `DELETE` names the first rows of its
table that the plan finds eligible (`mem_batchOf`).

For payment events this protects too little: the settled invoices are
looked up under the id of the event.  `evidence_kept_iff` says when
nothing of a protected invoice is lost.  A job that has not finished has
no completion time, and its age is taken from its creation;
`unfinished_kept_iff` says when only finished jobs go, and in time.

The rows of a table are in the order in which the database reads them.
-/

namespace Retention

open Invoices (InvoiceTable InvoiceRow)
open Jobs (JobRow)
open List InsertionMap Bool

/-! ## The tables -/

structure TransactionRow where
  id : String
  invoiceId : Option String
  txHash : String
  createdAt : Option Int

structure PaymentEventRow where
  id : String
  invoiceId : Option String
  /-- In milliseconds, as in every row but an invoice. -/
  createdAt : Option Int

structure RetentionDb where
  invoices : InvoiceTable
  transactions : List TransactionRow
  paymentEvents : List PaymentEventRow
  jobs : List JobRow
  /-- `transactions` has a column `created_at`; `schema.sql` gives it none. -/
  datedTransactions : Bool

/-! ## Reading -/

/-- `Date.parse(String(date))`: the text of a date goes down to the second. -/
def anchorOf (instant : Option Int) : Option Int :=
  instant.bind (fun ms =>
    if |ms| ≤ Canonical.maxTime then some (ms / 1000 * 1000) else none)

def loadSettlementLinks (db : RetentionDb) : List String :=
  (db.invoices.rows.filter (fun row => row.status == .paid
    || db.transactions.any (fun t => t.invoiceId == some row.id)
    || db.paymentEvents.any (fun e => e.invoiceId == some row.id)
      && row.status == .paid)).map InvoiceRow.id

def invoiceRecord (links : List String) (row : InvoiceRow) : RetentionRecord where
  table := .invoices
  id := row.id
  ageAnchor := anchorOf (some (Invoices.dateOf row.createdAt))
  settlementLinked := links.contains row.id
  metadata := row.metadata
  deadLetter := false

def transactionRecord (links : List String) (row : TransactionRow) : RetentionRecord where
  table := .transactions
  id := row.id
  ageAnchor := anchorOf row.createdAt
  settlementLinked := links.contains row.id
  metadata := none
  deadLetter := false

def paymentEventRecord (links : List String) (row : PaymentEventRow) : RetentionRecord where
  table := .paymentEvents
  id := row.id
  ageAnchor := anchorOf row.createdAt
  settlementLinked := links.contains row.id
  metadata := none
  deadLetter := false

/-- The age of a job counts from its completion, else from its creation. -/
def jobRecord (links : List String) (row : JobRow) : RetentionRecord where
  table := .jobs
  id := row.id
  ageAnchor := anchorOf (row.completedAt.or (some row.createdAt))
  settlementLinked := links.contains row.id
  metadata := none
  deadLetter := row.status == .dead

def loadTable (links : List String) (db : RetentionDb) :
    RetentionTable → Except SweepError (List RetentionRecord)
  | .invoices => .ok (db.invoices.rows.map (invoiceRecord links))
  | .transactions =>
    if db.datedTransactions then
      .ok (db.transactions.map (transactionRecord links))
    else .error (.undefinedColumn "transactions" "created_at")
  | .paymentEvents => .ok (db.paymentEvents.map (paymentEventRecord links))
  | .jobs => .ok (db.jobs.map (jobRecord links))

def loadTables (links : List String) (db : RetentionDb) :
    List RetentionTable → Except SweepError (List RetentionRecord)
  | [] => .ok []
  | table :: rest =>
    match loadTable links db table with
    | .error e => .error e
    | .ok records => (loadTables links db rest).map (records ++ ·)

/-- The table of a name; the names of the policy and of the columns agree. -/
def tableOf (name : String) : Option RetentionTable :=
  allTables.find? (fun table => table.name == name)

/-- Every name is checked before anything is read.  A name that every object
    inherits gets past the check of the source; the database then refuses its
    `SELECT`, which comes to the same. -/
def checkTables : List String → Except SweepError (List RetentionTable)
  | [] => .ok []
  | name :: rest =>
    match tableOf name with
    | none => .error (.unknownTable name)
    | some table => (checkTables rest).map (table :: ·)

structure SweepOptions where
  dryRun : Option Bool
  tables : Option (List String)
  /-- The clock of the run, nothing for an invalid date. -/
  now : Option Int
  batchSize : Option JsNumber

/-- `options.tables ?? Object.keys(TABLE_CLASS)`. -/
def SweepOptions.names (options : SweepOptions) : List String :=
  options.tables.getD (allTables.map RetentionTable.name)

def SweepOptions.isDry (options : SweepOptions) : Bool :=
  options.dryRun != some false

def buildRetentionPlan (db : RetentionDb) (options : SweepOptions) :
    Except SweepError RetentionPlan :=
  match checkTables options.names with
  | .error e => .error e
  | .ok tables =>
    match loadTables (loadSettlementLinks db) db tables with
    | .error e => .error e
    | .ok records => planRetention options.now records

/-! ## Deleting -/

/-- The eligible records by table, the first table first. -/
def byTable (eligible : List ClassifiedRecord) :
    InsertionMap RetentionTable (List ClassifiedRecord) :=
  eligible.foldl (fun tables entry => tables.set entry.record.table
    ((tables.get entry.record.table).getD [] ++ [entry])) empty

/-- The ids of `entries.slice(0, batchSize)`. -/
def batchOf (options : SweepOptions) (entries : List ClassifiedRecord) :
    List String :=
  (entries.take (JsNumber.sliceEnd (options.batchSize.getD (.ofNat 1000))
    entries.length)).map (fun entry => entry.record.id)

/-- The `DELETE`s of a plan, in their order. -/
def deletesOf (options : SweepOptions) (plan : RetentionPlan) :
    List (RetentionTable × List String) :=
  (byTable plan.eligible).entries.map (fun entry => (entry.1, batchOf options entry.2))


def deleteInvoices (table : InvoiceTable) (ids : List String) : InvoiceTable :=
  ids.foldl InvoiceTable.delete table

/-- A transaction loses its reference with the invoice. -/
def TransactionRow.detach (ids : List String) (row : TransactionRow) :
    TransactionRow :=
  if row.invoiceId.any ids.contains then { row with invoiceId := none } else row

/-- `DELETE FROM table WHERE id = ANY(ids)`, with the number of rows.  An
    event keeps its invoice from going. -/
def deleteRows (table : RetentionTable) (ids : List String)
    (db : RetentionDb) : Except SweepError (RetentionDb × Nat) :=
  match table with
  | .invoices =>
    if db.paymentEvents.any (fun e => e.invoiceId.any ids.contains) then
      .error (.foreignKey "payment_events")
    else .ok ({ db with
        invoices := deleteInvoices db.invoices ids
        transactions := db.transactions.map (TransactionRow.detach ids) },
      db.invoices.rows.countP (fun row => ids.contains row.id))
  | .transactions => .ok ({ db with
          transactions := db.transactions.filter (fun row => !ids.contains row.id) },
        db.transactions.countP (fun row => ids.contains row.id))
  | .paymentEvents => .ok ({ db with
          paymentEvents := db.paymentEvents.filter (fun row => !ids.contains row.id) },
        db.paymentEvents.countP (fun row => ids.contains row.id))
  | .jobs => .ok ({ db with
          jobs := db.jobs.filter (fun row => !ids.contains row.id) },
        db.jobs.countP (fun row => ids.contains row.id))

/-- Run the `DELETE`s up to the first that is refused; what went before stays
    deleted. -/
def applyDeletes : List (RetentionTable × List String) → RetentionDb →
    Except SweepError Nat × RetentionDb
  | [], db => (.ok 0, db)
  | (table, ids) :: rest, db =>
    match deleteRows table ids db with
    | .error e => (.error e, db)
    | .ok (db', n) => ((applyDeletes rest db').1.map (n + ·), (applyDeletes rest db').2)

structure RetentionSweepResult where
  dryRun : Bool
  considered : Nat
  eligible : Nat
  protectedCount : Nat
  deleted : Nat

def sweepResult (options : SweepOptions) (plan : RetentionPlan)
    (deleted : Nat) : RetentionSweepResult where
  dryRun := options.isDry
  considered := plan.eligible.length + plan.protectedRecords.length
  eligible := plan.eligible.length
  protectedCount := plan.protectedRecords.length
  deleted := deleted

def runRetentionSweep (db : RetentionDb) (options : SweepOptions) :
    Except SweepError RetentionSweepResult × RetentionDb :=
  match buildRetentionPlan db options with
  | .error e => (.error e, db)
  | .ok plan =>
    if options.isDry then (.ok (sweepResult options plan 0), db)
    else
      ((applyDeletes (deletesOf options plan) db).1.map (sweepResult options plan),
        (applyDeletes (deletesOf options plan) db).2)

/-! ## What is deleted -/

theorem rows_deleteInvoices (table : InvoiceTable) (ids : List String) :
    (deleteInvoices table ids).rows = table.rows.filter (fun row => !ids.contains row.id) := by
  induction ids generalizing table with
  | nil =>
    refine (filter_eq_self.mpr ?_).symm
    exact fun _ _ => rfl
  | cons id rest ih =>
    show (deleteInvoices (table.delete id) rest).rows = _
    rw [ih]
    show (table.rows.filter _).filter _ = _
    rw [filter_filter]
    refine filter_congr ?_
    intro row _
    rw [contains_cons, Bool.not_or, Bool.and_comm]
    congr 1
    rw [Bool.eq_iff_iff, decide_eq_true_iff, Bool.not_eq_true', beq_eq_false_iff_ne]

/-- The ids of a table that the `DELETE`s name, up to the first that is
    refused. -/
def executed (table : RetentionTable) :
    List (RetentionTable × List String) → RetentionDb → List String
  | [], _ => []
  | (first, ids) :: rest, db =>
    match deleteRows first ids db with
    | .error _ => []
    | .ok (db', _) => (if first = table then ids else []) ++ executed table rest db'

/-- **THE DELETE RULE**: rows that every `DELETE` filters by its own table's
    ids are what the run leaves of them. -/
theorem applyDeletes_filter {α : Type} (rows : RetentionDb → List α)
    (id : α → String) (table : RetentionTable)
    (hstep : ∀ first ids db db' n, deleteRows first ids db = .ok (db', n) →
      rows db' = (rows db).filter (fun row =>
        !(if first = table then ids else []).contains (id row)))
    (deletes : List (RetentionTable × List String)) (db : RetentionDb) :
    rows (applyDeletes deletes db).2 = (rows db).filter (fun row =>
      !(executed table deletes db).contains (id row)) := by
  induction deletes generalizing db with
  | nil =>
    refine (filter_eq_self.mpr ?_).symm
    exact fun _ _ => rfl
  | cons entry rest ih =>
    obtain ⟨first, ids⟩ := entry
    rw [applyDeletes, executed]
    split
    -- a refused `DELETE` ends the run, and nothing of its table goes
    · refine (filter_eq_self.mpr ?_).symm
      exact fun _ _ => rfl
    rename_i db' n hdelete
    show rows (applyDeletes rest db').2 = _
    rw [ih, hstep _ _ _ _ _ hdelete, filter_filter]
    refine filter_congr ?_
    intro row _
    rw [contains_append, Bool.not_or, Bool.and_comm]

theorem filter_none {α : Type} (rows : List α) (id : α → String) :
    rows = rows.filter (fun row => !([] : List String).contains (id row)) := by
  refine (filter_eq_self.mpr ?_).symm
  exact fun _ _ => rfl

theorem map_detach_nil (rows : List TransactionRow) :
    rows.map (TransactionRow.detach []) = rows := by
  refine (map_congr_left ?_).trans (map_id rows)
  intro row _
  refine if_neg ?_
  rw [Option.any_eq_true]
  rintro ⟨id, -, hmem⟩
  cases hmem

/-- What a `DELETE` for `first` does to every table: rows go from its own, and
    transactions lose the invoices that went. -/
structure Deleted (first : RetentionTable) (ids : List String) (db db' : RetentionDb) : Prop where
  invoices : db'.invoices.rows = db.invoices.rows.filter (fun row =>
    !(if first = .invoices then ids else []).contains row.id)
  transactions : db'.transactions = (db.transactions.filter (fun row =>
        !(if first = .transactions then ids else []).contains row.id)).map
      (TransactionRow.detach (if first = .invoices then ids else []))
  paymentEvents : db'.paymentEvents = db.paymentEvents.filter (fun row =>
    !(if first = .paymentEvents then ids else []).contains row.id)
  jobs : db'.jobs = db.jobs.filter (fun row => !(if first = .jobs then ids else []).contains row.id)

/-- **ONE DELETE**. -/
theorem deleted_of_ok {first : RetentionTable} {ids : List String} {db db' : RetentionDb} {n : Nat}
    (h : deleteRows first ids db = .ok (db', n)) : Deleted first ids db db' := by
  -- what a `DELETE` leaves alone is filtered by no ids
  have hinvoices := filter_none db.invoices.rows InvoiceRow.id
  have htransactions := filter_none db.transactions TransactionRow.id
  have hevents := filter_none db.paymentEvents PaymentEventRow.id
  have hjobs := filter_none db.jobs JobRow.id
  have hdetached := map_detach_nil db.transactions
  cases first with
  | invoices =>
    rw [deleteRows] at h
    split at h
    · cases h
    obtain ⟨rfl, -⟩ := Prod.mk.inj (Except.ok.inj h)
    exact ⟨rows_deleteInvoices db.invoices ids, congrArg (map _) htransactions, hevents, hjobs⟩
  | transactions =>
    obtain ⟨rfl, -⟩ := Prod.mk.inj (Except.ok.inj h)
    exact ⟨hinvoices, (map_detach_nil _).symm, hevents, hjobs⟩
  | paymentEvents =>
    obtain ⟨rfl, -⟩ := Prod.mk.inj (Except.ok.inj h)
    exact ⟨hinvoices, (hdetached.symm.trans (congrArg _ htransactions)), rfl, hjobs⟩
  | jobs =>
    obtain ⟨rfl, -⟩ := Prod.mk.inj (Except.ok.inj h)
    exact ⟨hinvoices, (hdetached.symm.trans (congrArg _ htransactions)), hevents, rfl⟩

section Applied

variable (deletes : List (RetentionTable × List String)) (db : RetentionDb)

theorem applyDeletes_invoices : (applyDeletes deletes db).2.invoices.rows
      = db.invoices.rows.filter (fun row => !(executed .invoices deletes db).contains row.id) :=
  applyDeletes_filter (fun db => db.invoices.rows) InvoiceRow.id .invoices
    (fun _ _ _ _ _ h => (deleted_of_ok h).invoices) deletes db

theorem applyDeletes_paymentEvents : (applyDeletes deletes db).2.paymentEvents
      = db.paymentEvents.filter (fun row =>
        !(executed .paymentEvents deletes db).contains row.id) :=
  applyDeletes_filter RetentionDb.paymentEvents PaymentEventRow.id
    .paymentEvents (fun _ _ _ _ _ h => (deleted_of_ok h).paymentEvents)
    deletes db

theorem applyDeletes_jobs : (applyDeletes deletes db).2.jobs = db.jobs.filter (fun row =>
      !(executed .jobs deletes db).contains row.id) :=
  applyDeletes_filter RetentionDb.jobs JobRow.id .jobs
    (fun _ _ _ _ _ h => (deleted_of_ok h).jobs) deletes db

theorem applyDeletes_transactions (hnone : executed .transactions deletes db = [])
    (hfree : ∀ t ∈ db.transactions, ∀ id ∈ t.invoiceId, id ∉ executed .invoices deletes db) :
    (applyDeletes deletes db).2.transactions = db.transactions := by
  induction deletes generalizing db with
  | nil => rfl
  | cons entry rest ih =>
    obtain ⟨first, ids⟩ := entry
    rw [executed] at hnone hfree
    rw [applyDeletes]
    split
    · rfl
    rename_i db' n hdelete
    rw [hdelete] at hnone hfree
    obtain ⟨hfirst, hrest⟩ := append_eq_nil_iff.mp hnone
    -- no row goes, and none loses its invoice
    have hkept : db'.transactions = db.transactions := by
      rw [(deleted_of_ok hdelete).transactions, hfirst,
        ← filter_none db.transactions TransactionRow.id]
      refine (map_congr_left ?_).trans (map_id db.transactions)
      intro t ht
      refine if_neg (fun hany => ?_)
      obtain ⟨id, hid, hmem⟩ := Option.any_eq_true _ _ |>.mp hany
      exact hfree t ht id hid (mem_append_left _ (contains_iff_mem.mp hmem))
    refine (ih db' hrest ?_).trans hkept
    intro t ht id hid hmem
    rw [hkept] at ht
    exact hfree t ht id hid (mem_append_right _ hmem)

end Applied

/-- The `DELETE` of a table is reached and accepted. -/
def goesThrough (table : RetentionTable) : List (RetentionTable × List String) → RetentionDb → Bool
  | [], _ => false
  | (first, ids) :: rest, db =>
    match deleteRows first ids db with
    | .error _ => false
    | .ok (db', _) => first == table || goesThrough table rest db'

variable {deletes : List (RetentionTable × List String)} {table : RetentionTable}
  {db : RetentionDb} {own : List RetentionRecord} {options : SweepOptions} {id : String}

theorem mem_of_mem_executed (h : id ∈ executed table deletes db) :
    ∃ ids, (table, ids) ∈ deletes ∧ id ∈ ids := by
  induction deletes generalizing db with
  | nil => cases h
  | cons entry rest ih =>
    obtain ⟨first, ids⟩ := entry
    rw [executed] at h
    split at h
    · cases h
    rcases mem_append.mp h with h | h
    · split at h
      · rename_i heq
        exact ⟨ids, heq ▸ (.head _), h⟩
      · cases h
    obtain ⟨ids', hmem, hid⟩ := ih h
    exact ⟨ids', .tail _ hmem, hid⟩

theorem executed_eq (hnd : (deletes.map Prod.fst).Nodup) (db : RetentionDb) :
    executed table deletes db = if goesThrough table deletes db then
          (InsertionMap.lookup table deletes).getD [] else [] := by
  induction deletes generalizing db with
  | nil => rfl
  | cons entry rest ih =>
    obtain ⟨first, ids⟩ := entry
    rw [map_cons, nodup_cons] at hnd
    cases hdelete : deleteRows first ids db with
    | error e => simp only [executed, goesThrough, hdelete]; rfl
    | ok deleted =>
      simp only [executed, goesThrough, hdelete, InsertionMap.lookup]
      by_cases heq : first = table
      · have hrest : executed table rest deleted.1 = [] := by
          refine eq_nil_iff_forall_not_mem.mpr ?_
          intro id hid
          obtain ⟨ids', hmem, -⟩ := mem_of_mem_executed hid
          have hkey : table ∈ rest.map Prod.fst := mem_map.mpr ⟨_, hmem, rfl⟩
          exact hnd.1 (heq ▸ hkey)
        rw [if_pos heq, if_pos heq, hrest, append_nil, heq,
          beq_self_eq_true, Bool.true_or, if_pos rfl]
        rfl
      · rw [if_neg heq, if_neg heq, nil_append, ih hnd.2,
          beq_eq_false_iff_ne.mpr heq, Bool.false_or]

/-! ## What the batches name -/

theorem get_byTable (eligible : List ClassifiedRecord) (table : RetentionTable) :
    ((byTable eligible).get table).getD []
      = eligible.filter (fun entry => entry.record.table == table) := by
  induction eligible using reverseRecOn with
  | nil => rfl
  | append_singleton entries entry ih =>
    rw [byTable, foldl_append, filter_append, ← ih]
    show (((byTable entries).set entry.record.table
      (((byTable entries).get entry.record.table).getD [] ++ [entry])).get table).getD [] = _
    rw [get_set]
    by_cases h : entry.record.table = table
    · have hkept : [entry].filter (fun e => e.record.table == table)
          = [entry] := filter_cons_of_pos (beq_iff_eq.mpr h)
      rw [if_pos h, h, hkept]
      rfl
    have hkept : [entry].filter (fun e => e.record.table == table) = [] :=
      filter_cons_of_neg (fun hb => h (beq_iff_eq.mp hb))
    rw [if_neg h, hkept, append_nil]

theorem lookup_map {κ α β : Type} [DecidableEq κ] (f : α → β) (k : κ) (l : List (κ × α)) :
    InsertionMap.lookup k (l.map (fun entry => (entry.1, f entry.2)))
      = (InsertionMap.lookup k l).map f := by
  induction l with
  | nil => rfl
  | cons entry rest ih =>
    rw [List.map_cons, InsertionMap.lookup, InsertionMap.lookup, ih]
    split <;> rfl

/-- What a plan names for a table. -/
def batchFor (options : SweepOptions) (plan : RetentionPlan)
    (table : RetentionTable) : List String :=
  batchOf options (plan.eligible.filter (fun entry => entry.record.table == table))

theorem executed_deletesOf (options : SweepOptions) (plan : RetentionPlan)
    (table : RetentionTable) (db : RetentionDb) : executed table (deletesOf options plan) db
      = if goesThrough table (deletesOf options plan) db then
          batchFor options plan table else [] := by
  have hnd : ((deletesOf options plan).map Prod.fst).Nodup := by
    rw [deletesOf, List.map_map]
    exact (byTable plan.eligible).nodup
  have hlookup : (InsertionMap.lookup table (deletesOf options plan)).getD []
      = batchFor options plan table := by
    rw [deletesOf, lookup_map (batchOf options), batchFor, ← get_byTable]
    show ((byTable plan.eligible).get table |>.map (batchOf options)).getD [] = _
    cases (byTable plan.eligible).get table with
    | none =>
      show [] = ([].take _).map _
      rw [take_nil, map_nil]
    | some entries => rfl
  rw [executed_eq hnd, hlookup]

/-- The first ids of a batch, when a table was chosen so many times. -/
def dueBatch (options : SweepOptions) (table : RetentionTable) (ids : List String) : List String :=
  ((replicate (options.names.countP
      (fun name => tableOf name == some table)) ids).flatten).take
    (JsNumber.sliceEnd (options.batchSize.getD (.ofNat 1000)) ((replicate (options.names.countP
        (fun name => tableOf name == some table)) ids).flatten).length)

variable {table : RetentionTable} {tables : List RetentionTable} {links : List String}

theorem checkTables_ok {names : List String}
    (h : checkTables names = .ok tables) (table : RetentionTable) :
    tables.countP (· == table) = names.countP (fun name => tableOf name == some table) := by
  induction names generalizing tables with
  | nil =>
    cases h
    rfl
  | cons name rest ih =>
    rw [checkTables] at h
    split at h
    · cases h
    rename_i first hfirst
    cases hrest : checkTables rest with
    | error e =>
      rw [hrest] at h
      cases h
    | ok tail =>
      rw [hrest] at h
      cases h
      rw [countP_cons, countP_cons, ih hrest, hfirst]
      rfl

theorem loadTable_table {records : List RetentionRecord}
    (h : loadTable links db table = .ok records) : ∀ record ∈ records, record.table = table := by
  intro record hrecord
  cases table with
  | transactions =>
    rw [loadTable] at h
    split at h
    · cases h
      obtain ⟨row, -, rfl⟩ := mem_map.mp hrecord
      rfl
    · cases h
  | _ =>
    cases h
    obtain ⟨row, -, rfl⟩ := mem_map.mp hrecord
    rfl

theorem loadTables_filter {records own : List RetentionRecord}
    (h : loadTables links db tables = .ok records) (hown : loadTable links db table = .ok own) :
    records.filter (fun record => record.table == table)
      = (replicate (tables.countP (· == table)) own).flatten := by
  induction tables generalizing records with
  | nil =>
    cases h
    rfl
  | cons first rest ih =>
    rw [loadTables] at h
    split at h
    · cases h
    rename_i read hread
    cases hrest : loadTables links db rest with
    | error e =>
      rw [hrest] at h
      cases h
    | ok tail =>
      rw [hrest] at h
      cases h
      have htable := loadTable_table hread
      rw [filter_append, ih hrest, countP_cons]
      -- a table named twice is read twice
      by_cases heq : first = table
      · obtain rfl : read = own := by
          rw [heq, hown] at hread
          exact (Except.ok.inj hread).symm
        rw [if_pos (beq_iff_eq.mpr heq), replicate_succ, flatten_cons, filter_eq_self.mpr]
        intro record hrecord
        exact beq_iff_eq.mpr ((htable record hrecord).trans heq)
      · rw [if_neg (fun hb => heq (beq_iff_eq.mp hb)), Nat.add_zero,
          filter_eq_nil_iff.mpr, nil_append]
        intro record hrecord hb
        exact heq ((htable record hrecord).symm.trans (beq_iff_eq.mp hb))

theorem map_filter_flatten {α β : Type} (n : Nat) (f : α → β) (p : α → Bool) (l : List α) :
    ((replicate n l).flatten.filter p).map f = (replicate n ((l.filter p).map f)).flatten := by
  induction n with
  | zero => rfl
  | succ n ih =>
    rw [replicate_succ, replicate_succ, flatten_cons, flatten_cons, filter_append, map_append, ih]

/-- **A BATCH** is the first eligible rows of its table. -/
theorem batchFor_eq {plan : RetentionPlan} (h : buildRetentionPlan db options = .ok plan)
    (hown : loadTable (loadSettlementLinks db) db table = .ok own) :
    batchFor options plan table = dueBatch options table
      ((own.filter (fun r => decide (Eligible options.now r))).map RetentionRecord.id) := by
  rw [buildRetentionPlan] at h
  split at h
  · cases h
  rename_i tables htables
  split at h
  · cases h
  rename_i records hrecords
  have heligible := planRetention_ok h
  have hentries : (plan.eligible.filter (fun entry => entry.record.table == table)).map
        (fun entry => entry.record.id)
      = (replicate (options.names.countP (fun name => tableOf name == some table))
        ((own.filter (fun r => decide (Eligible options.now r))).map
          RetentionRecord.id)).flatten := by
    calc _ = ((plan.eligible.map ClassifiedRecord.record).filter
          (fun r => r.table == table)).map RetentionRecord.id := by
            rw [filter_map, map_map]
            rfl
      _ = ((records.filter (fun r => r.table == table)).filter
          (fun r => decide (Eligible options.now r))).map
            RetentionRecord.id := by
            rw [heligible, filter_filter, filter_filter]
            simp only [Bool.and_comm]
      _ = _ := by
            rw [loadTables_filter hrecords hown, checkTables_ok htables, map_filter_flatten]
  rw [batchFor, batchOf, dueBatch, map_take, ← hentries, length_map]

/-! ## What a run deletes -/

/-- The run gets to the `DELETE` of a table, and it is accepted. -/
def Reaches (db : RetentionDb) (options : SweepOptions) (table : RetentionTable) : Prop :=
  options.isDry = false ∧ ∃ plan, buildRetentionPlan db options = .ok plan
    ∧ goesThrough table (deletesOf options plan) db = true

/-- The ids of a table that a run deletes. -/
def sweptIds (db : RetentionDb) (options : SweepOptions) (table : RetentionTable) : List String :=
  match buildRetentionPlan db options with
  | .error _ => []
  | .ok plan =>
    if options.isDry then []
    else executed table (deletesOf options plan) db

theorem mem_sweptIds {table : RetentionTable}
    (hown : loadTable (loadSettlementLinks db) db table = .ok own) : id ∈ sweptIds db options table
      ↔ Reaches db options table ∧ id ∈ dueBatch options table
        ((own.filter (fun r => decide (Eligible options.now r))).map RetentionRecord.id) := by
  rw [sweptIds, Reaches]
  cases hplan : buildRetentionPlan db options with
  | error e => exact iff_of_false nofun (fun h => nomatch h.1.2)
  | ok plan =>
    by_cases hdry : options.isDry = true
    · simp [hdry]
    rw [not_eq_true] at hdry
    simp only [hdry, false_eq_true, if_false]
    rw [executed_deletesOf, batchFor_eq hplan hown]
    split
    · rename_i hgoes
      exact ⟨fun h => ⟨⟨trivial, plan, rfl, hgoes⟩, h⟩, And.right⟩
    rename_i hstuck
    refine iff_of_false nofun ?_
    rintro ⟨⟨-, plan', hplan', hgoes⟩, -⟩
    cases hplan'
    exact hstuck hgoes

/-- **A RUN** is its `DELETE`s, and they are of the ids it sweeps. -/
theorem run_deletes (db : RetentionDb) (options : SweepOptions) :
    ∃ deletes, (runRetentionSweep db options).2 = (applyDeletes deletes db).2
      ∧ ∀ table, sweptIds db options table = executed table deletes db := by
  cases hplan : buildRetentionPlan db options with
  | error e =>
    refine ⟨[], ?_, fun table => ?_⟩
    · rw [runRetentionSweep, hplan]
      rfl
    rw [sweptIds, hplan]
    rfl
  | ok plan =>
    cases hdry : options.isDry with
    | true =>
      refine ⟨[], ?_, fun table => ?_⟩
      · simp only [runRetentionSweep, hplan, hdry, if_true]
        rfl
      simp only [sweptIds, hplan, hdry, if_true]
      rfl
    | false =>
      refine ⟨deletesOf options plan, ?_, fun table => ?_⟩
      · simp only [runRetentionSweep, hplan, hdry, false_eq_true, if_false]
      · simp only [sweptIds, hplan, hdry, false_eq_true, if_false]

end Retention

import Inqutum.RetentionSafetyProofs
import Inqutum.InvoiceServiceProofs

/-!
# A sweep among writers

A live sweep is a sequence of statements: the query for the settlement
links, a `SELECT` for each table, a `DELETE` for each.  Between them
invoices are paid, transactions are saved and metadata is rewritten.  A
`DELETE` goes by the ids that were chosen earlier and looks at nothing
else, so an invoice that becomes protected in the meantime goes with it.

The invariant is that what has been chosen, and what will be chosen by age
alone, is not protected (`Unprotected`).  The sweep keeps it by itself
(`unprotected_sweep`), and a writer keeps it unless it protects such an
invoice; so a run without such a writer is safe (`sweep_race_safe`).
-/

namespace Retention

open Invoices (InvoiceTable InvoiceRow InvoiceService.payable
  InvoiceService.payRow InvoiceService.versionParam PayerInfo)
open Transition (Along)
open List

/-! ## The statements of a sweep -/

/-- Where a sweep stands. -/
inductive Stage where
  | linking (tables : List RetentionTable)
  | loading (links : List String) (records : List RetentionRecord) (rest : List RetentionTable)
  | deleting (deletes : List (RetentionTable × List String))
  | ended

structure Race where
  stage : Stage
  db : RetentionDb

/-- The statement of a sweep, or of a writer. -/
inductive Event where
  | sweep
  /-- The `UPDATE` of `markAsPaid`. -/
  | payInvoice (id txHash payerPublicKey : String)
      (payerInfo : Option PayerInfo) (expectedVersion : Option JsNumber)
      (dbNow : Int)
  /-- The `INSERT` of `markAsPaid`. -/
  | logPaymentEvent (row : PaymentEventRow)
  | saveTransaction (row : TransactionRow)
  | updateMetadata (id : String) (metadata : Option Json)

/-- The stage after a read: the plan is made when all tables are read. -/
def afterReading (options : SweepOptions) (links : List String)
    (records : List RetentionRecord) (rest : List RetentionTable) : Stage :=
  match rest with
  | [] =>
    match planRetention options.now records with
    | .error _ => .ended
    | .ok plan =>
      if options.isDry then .ended else .deleting (deletesOf options plan)
  | _ :: _ => .loading links records rest

def sweepStep (options : SweepOptions) (s : Race) : Race :=
  match s.stage with
  | .linking tables => { s with
      stage := afterReading options (loadSettlementLinks s.db) [] tables }
  | .loading _ _ [] => { s with stage := .ended }
  | .loading links records (table :: rest) =>
    match loadTable links s.db table with
    | .error _ => { s with stage := .ended }
    | .ok read => { s with
        stage := afterReading options links (records ++ read) rest }
  | .deleting [] => { s with stage := .ended }
  | .deleting ((table, ids) :: rest) =>
    match deleteRows table ids s.db with
    | .error _ => { s with stage := .ended }
    | .ok (db, _) => ⟨.deleting rest, db⟩
  | .ended => s

/-- A reference must be NULL or to an invoice that is there. -/
def references (db : RetentionDb) (invoiceId : Option String) : Bool :=
  invoiceId.all (fun id => (db.invoices.find id).isSome)

/-- What a writer's statement does; a refused one does nothing. -/
def perform (db : RetentionDb) : Event → RetentionDb
  | .sweep => db
  | .payInvoice id txHash payerPublicKey payerInfo expectedVersion dbNow =>
    match InvoiceService.versionParam expectedVersion with
    | .error _ => db
    | .ok expected =>
      match db.invoices.update (InvoiceService.payable id expected dbNow)
          (InvoiceService.payRow txHash payerPublicKey payerInfo dbNow) with
      | .error _ => db
      | .ok invoices => { db with invoices := invoices }
  | .logPaymentEvent row =>
    if references db row.invoiceId then
      { db with paymentEvents := db.paymentEvents ++ [row] }
    else db
  | .saveTransaction row =>
    -- `ON CONFLICT (tx_hash) DO NOTHING`
    if db.transactions.any (fun t => t.txHash == row.txHash) then db
    else if references db row.invoiceId then
      { db with transactions := db.transactions ++ [row] }
    else db
  | .updateMetadata id metadata =>
    match db.invoices.update (fun row => row.id == id)
        (fun row => { row with metadata := metadata }) with
    | .error _ => db
    | .ok invoices => { db with invoices := invoices }

def step (options : SweepOptions) (s : Race) (e : Event) : Race :=
  match e with
  | .sweep => sweepStep options s
  | e => { s with db := perform s.db e }

def start (options : SweepOptions) (db : RetentionDb) : Race :=
  match checkTables options.names with
  | .error _ => ⟨.ended, db⟩
  | .ok tables => ⟨.linking tables, db⟩

/-! ## Protection -/

/-- The invoice is under a legal hold. -/
def HeldIn (db : RetentionDb) (id : String) : Prop :=
  ∃ row ∈ db.invoices.rows, row.id = id ∧ hasLegalHold row.metadata = true

/-- A statement of the sweep removes no invoice that is PAID, referenced by a
    transaction or under a legal hold at that moment. -/
def DeletesUnprotected (options : SweepOptions) (s : Race) (e : Event) :
    Prop :=
  e = .sweep → ∀ row ∈ s.db.invoices.rows, ProtectedInvoice s.db row →
    row ∈ (step options s e).db.invoices.rows

/-- The invoice has been chosen: its record is eligible, or its `DELETE` is
    still to come. -/
def Chosen (options : SweepOptions) (s : Race) (id : String) : Prop :=
  match s.stage with
  | .linking _ => False
  | .loading _ records _ => ∃ record ∈ records, record.table = .invoices ∧ record.id = id
        ∧ Eligible options.now record
  | .deleting deletes => ∃ entry ∈ deletes, entry.1 = .invoices ∧ id ∈ entry.2
  | .ended => False

instance (options : SweepOptions) (s : Race) (id : String) :
    Decidable (Chosen options s id) :=
  match s with
  | ⟨.linking _, _⟩ => inferInstanceAs (Decidable False)
  | ⟨.loading _ records _, _⟩ => inferInstanceAs (Decidable
      (∃ record ∈ records, record.table = .invoices ∧ record.id = id ∧ Eligible options.now record))
  | ⟨.deleting deletes, _⟩ => inferInstanceAs (Decidable
      (∃ entry ∈ deletes, entry.1 = RetentionTable.invoices ∧ id ∈ entry.2))
  | ⟨.ended, _⟩ => inferInstanceAs (Decidable False)

/-- The links are read and the invoices still to be: the row is eligible but
    for a hold that may yet come. -/
def Choosable (options : SweepOptions) (s : Race) (id : String) : Prop :=
  match s.stage with
  | .loading links _ rest => .invoices ∈ rest ∧ ∃ row ∈ s.db.invoices.rows, row.id = id
        ∧ Eligible options.now { invoiceRecord links row with metadata := none }
  | _ => False

instance (options : SweepOptions) (s : Race) (id : String) :
    Decidable (Choosable options s id) :=
  match s with
  | ⟨.loading links _ rest, db⟩ => inferInstanceAs (Decidable
      (.invoices ∈ rest ∧ ∃ row ∈ db.invoices.rows, row.id = id ∧ Eligible options.now
          { invoiceRecord links row with metadata := none }))
  | ⟨.linking _, _⟩ => inferInstanceAs (Decidable False)
  | ⟨.deleting _, _⟩ => inferInstanceAs (Decidable False)
  | ⟨.ended, _⟩ => inferInstanceAs (Decidable False)

/-- A writer settles no invoice that has been chosen or can be, and holds none
    that has been chosen. -/
def Undisturbed (options : SweepOptions) (s : Race) (e : Event) : Prop :=
  e ≠ .sweep → (∀ id, id ∉ loadSettlementLinks s.db → id ∈ loadSettlementLinks (perform s.db e) →
      ¬ Chosen options s id ∧ ¬ Choosable options s id)
    ∧ ∀ id, ¬ HeldIn s.db id → HeldIn (perform s.db e) id → ¬ Chosen options s id

/-- What has been chosen is not protected, and what can be is not settled. -/
structure Unprotected (options : SweepOptions) (s : Race) : Prop where
  chosen : ∀ id, Chosen options s id → id ∉ loadSettlementLinks s.db ∧ ¬ HeldIn s.db id
  choosable : ∀ id, Choosable options s id → id ∉ loadSettlementLinks s.db

/-! ## The statements of the sweep keep the invariant -/

section Sweep

variable {options : SweepOptions} {table : RetentionTable} {records : List RetentionRecord}
  {ids : List String} {rest : List RetentionTable} {db : RetentionDb} {id : String}
  {links : List String} {n : Nat} {row : InvoiceRow} {s : Race}

theorem invoices_deleteRows {db db' : RetentionDb} (h : deleteRows table ids db = .ok (db', n)) :
    row ∈ db'.invoices.rows ↔ row ∈ db.invoices.rows ∧ (table = .invoices → row.id ∉ ids) := by
  rw [(deleted_of_ok h).invoices, mem_filter, Bool.not_eq_true',
    ← Bool.not_eq_true, contains_iff_mem]
  refine and_congr_right (fun _ => ?_)
  by_cases htable : table = .invoices
  · rw [if_pos htable]
    exact ⟨fun hnot _ => hnot, fun hnot => hnot htable⟩
  rw [if_neg htable]
  exact iff_of_true not_mem_nil (fun heq => absurd heq htable)

theorem invoiceId_of_detach {row : TransactionRow} (h : (row.detach ids).invoiceId = some id) :
    row.invoiceId = some id := by
  rw [TransactionRow.detach] at h
  split at h
  · cases h
  · exact h

theorem links_deleteRows {db db' : RetentionDb} (h : deleteRows table ids db = .ok (db', n))
    (hid : id ∈ loadSettlementLinks db') : id ∈ loadSettlementLinks db := by
  rw [mem_loadSettlementLinks] at hid ⊢
  obtain ⟨row, hrow, rfl, hsettled⟩ := hid
  refine ⟨row, ((invoices_deleteRows h).mp hrow).1, rfl, hsettled.imp_right ?_⟩
  rintro ⟨t, ht, hinvoice⟩
  rw [(deleted_of_ok h).transactions] at ht
  obtain ⟨old, hold, rfl⟩ := mem_map.mp ht
  exact ⟨old, (mem_filter.mp hold).1, invoiceId_of_detach hinvoice⟩

theorem chosen_of_planned {plan : RetentionPlan} (h : planRetention options.now records = .ok plan)
    (hchosen : ∃ entry ∈ deletesOf options plan, entry.1 = .invoices ∧ id ∈ entry.2) :
    ∃ record ∈ records, record.table = .invoices ∧ record.id = id
      ∧ Eligible options.now record := by
  obtain ⟨_, hmapped, htable, hid⟩ := hchosen
  obtain ⟨⟨table, entries⟩, hentry, rfl⟩ := mem_map.mp hmapped
  obtain rfl : table = .invoices := htable
  obtain ⟨classified, hclassified, rfl⟩ := mem_map.mp hid
  have hget := (InsertionMap.mem_entries_iff (byTable plan.eligible) _ _).mp hentry
  have hgroup := get_byTable plan.eligible .invoices
  rw [hget, Option.getD_some] at hgroup
  have hmem := mem_of_mem_take hclassified
  rw [hgroup] at hmem
  obtain ⟨hplanned, htable⟩ := mem_filter.mp hmem
  have hrecord : classified.record ∈ plan.eligible.map ClassifiedRecord.record :=
    mem_map_of_mem hplanned
  rw [planRetention_ok h] at hrecord
  obtain ⟨hfrom, heligible⟩ := mem_filter.mp hrecord
  exact ⟨classified.record, hfrom, beq_iff_eq.mp htable, rfl, of_decide_eq_true heligible⟩

theorem chosen_afterReading (h : Chosen options ⟨afterReading options links records rest, db⟩ id) :
    ∃ record ∈ records, record.table = .invoices ∧ record.id = id
      ∧ Eligible options.now record := by
  cases rest with
  -- tables are left to read: what is chosen is among the records
  | cons table rest => exact h
  | nil =>
    rw [Chosen, afterReading] at h
    cases hplan : planRetention options.now records with
    | error e => simp only [hplan] at h
    | ok plan =>
      simp only [hplan] at h
      cases hdry : options.isDry with
      | true => simp only [hdry, if_true] at h
      | false =>
        simp only [hdry, Bool.false_eq_true, if_false] at h
        exact chosen_of_planned hplan h

theorem choosable_afterReading
    (h : Choosable options ⟨afterReading options links records rest, db⟩ id) :
    .invoices ∈ rest ∧ ∃ row ∈ db.invoices.rows, row.id = id ∧ Eligible options.now
        { invoiceRecord links row with metadata := none } := by
  cases rest with
  | cons table rest => exact h
  | nil =>
    rw [Choosable, afterReading] at h
    cases hplan : planRetention options.now records with
    | error e => simp only [hplan] at h
    | ok plan =>
      simp only [hplan] at h
      cases hdry : options.isDry with
      | true => simp only [hdry, if_true] at h
      | false => simp only [hdry, Bool.false_eq_true, if_false] at h

theorem Eligible.forget {now : Option Int} {record : RetentionRecord} (h : Eligible now record) :
    Eligible now { record with metadata := none } :=
  ⟨h.purgeable, h.unlinked, rfl, h.past⟩

/-- A sweep that has chosen nothing and can choose nothing. -/
theorem unprotected_ended (db : RetentionDb) : Unprotected options ⟨.ended, db⟩ :=
  ⟨fun _ hc => hc.elim, fun _ hc => hc.elim⟩

theorem unlinked_of_eligible {metadata : Option Json} (h : Eligible options.now
      { invoiceRecord (loadSettlementLinks db) row with
        metadata := metadata }) :
    row.id ∉ loadSettlementLinks db := by
  intro hlinked
  have hunlinked : (loadSettlementLinks db).contains row.id = false := h.unlinked
  have hcontains : (loadSettlementLinks db).contains row.id = true :=
    contains_iff_mem.mpr hlinked
  rw [hcontains] at hunlinked
  cases hunlinked

/-- **A READ** chooses rows that could be chosen, and that carry no hold. -/
theorem unprotected_read {records read : List RetentionRecord}
    (h : Unprotected options ⟨.loading links records (table :: rest), db⟩)
    (hread : loadTable links db table = .ok read) :
    Unprotected options ⟨afterReading options links (records ++ read) rest, db⟩ := by
  constructor
  · intro id hchosen
    obtain ⟨record, hrecord, htable, rfl, heligible⟩ := chosen_afterReading hchosen
    rcases mem_append.mp hrecord with hold | hnew
    · exact h.chosen _ ⟨record, hold, htable, rfl, heligible⟩
    -- the row that has just been read carries no hold
    obtain rfl := (loadTable_table hread record hnew).symm.trans htable
    cases hread
    obtain ⟨row, hrow, rfl⟩ := mem_map.mp hnew
    refine ⟨h.choosable _ ⟨(.head _), row, hrow, rfl, heligible.forget⟩, ?_⟩
    rintro ⟨other, hother, hid, hheld⟩
    have hsame : other = row := inj_on_of_nodup_map db.invoices.ids hother hrow hid
    have hunheld : hasLegalHold row.metadata = false := heligible.unheld
    rw [← hsame, hheld] at hunheld
    cases hunheld
  · -- fewer tables are left, so fewer rows can be chosen
    intro id hchoosable
    obtain ⟨hrest, hrow⟩ := choosable_afterReading hchoosable
    exact h.choosable _ ⟨.tail _ hrest, hrow⟩

theorem unprotected_delete {db db' : RetentionDb} {rest : List (RetentionTable × List String)}
    (h : Unprotected options ⟨.deleting ((table, ids) :: rest), db⟩)
    (hdelete : deleteRows table ids db = .ok (db', n)) :
    Unprotected options ⟨.deleting rest, db'⟩ := by
  refine ⟨?_, fun _ hc => hc.elim⟩
  rintro id ⟨later, hlater, hid⟩
  obtain ⟨hunlinked, hunheld⟩ := h.chosen id ⟨later, .tail _ hlater, hid⟩
  refine ⟨fun hlinked => hunlinked (links_deleteRows hdelete hlinked), ?_⟩
  rintro ⟨row, hrow, hrowId, hheld⟩
  exact hunheld ⟨row, ((invoices_deleteRows hdelete).mp hrow).1, hrowId, hheld⟩

/-- **THE SWEEP** keeps the invariant by itself. -/
theorem unprotected_sweep (h : Unprotected options s) :
    Unprotected options (sweepStep options s) := by
  obtain ⟨stage, db⟩ := s
  cases stage with
  | linking tables =>
    constructor
    · intro id hchosen
      obtain ⟨record, hrecord, -⟩ := chosen_afterReading hchosen
      cases hrecord
    intro id hchoosable
    obtain ⟨-, row, hrow, rfl, heligible⟩ := choosable_afterReading hchoosable
    exact unlinked_of_eligible heligible
  | loading links records rest =>
    cases rest with
    | nil => exact unprotected_ended db
    | cons table rest =>
      rw [sweepStep]
      show Unprotected options (match loadTable links db table with
        | .error _ => ⟨.ended, db⟩
        | .ok read => ⟨afterReading options links (records ++ read) rest, db⟩)
      split
      · exact unprotected_ended db
      rename_i read hread
      exact unprotected_read h hread
  | deleting deletes =>
    cases deletes with
    | nil => exact unprotected_ended db
    | cons entry rest =>
      obtain ⟨table, ids⟩ := entry
      show Unprotected options (match deleteRows table ids db with
        | .error _ => ⟨.ended, db⟩
        | .ok (db', _) => ⟨.deleting rest, db'⟩)
      split
      · exact unprotected_ended db
      rename_i db' n hdelete
      exact unprotected_delete h hdelete
  | ended => exact unprotected_ended db

/-- **A DELETE** of unprotected invoices removes no other. -/
theorem deletes_unprotected (h : Unprotected options s) : DeletesUnprotected options s .sweep := by
  intro _ row hrow hprotected
  obtain ⟨stage, db⟩ := s
  cases stage with
  | linking tables => exact hrow
  -- a read deletes nothing
  | loading links records rest =>
    cases rest with
    | nil => exact hrow
    | cons table rest =>
      show row ∈ (sweepStep options _).db.invoices.rows
      rw [sweepStep]
      show row ∈ (match loadTable links db table with
        | .error _ => (⟨.ended, db⟩ : Race)
        | .ok read => ⟨afterReading options links (records ++ read) rest, db⟩).db.invoices.rows
      split
      · exact hrow
      · exact hrow
  | deleting deletes =>
    cases deletes with
    | nil => exact hrow
    | cons entry rest =>
      obtain ⟨table, ids⟩ := entry
      show row ∈ (match deleteRows table ids db with
        | .error _ => (⟨.ended, db⟩ : Race)
        | .ok (db', _) => ⟨.deleting rest, db'⟩).db.invoices.rows
      split
      · exact hrow
      rename_i db' n hdelete
      refine (invoices_deleteRows hdelete).mpr ⟨hrow, ?_⟩
      rintro rfl hid
      obtain ⟨hunlinked, hunheld⟩ := h.chosen row.id ⟨_, (.head _), rfl, hid⟩
      rcases hprotected with (hpaid | hheld) | htx
      · exact hunlinked (mem_loadSettlementLinks.mpr ⟨row, hrow, rfl, .inl hpaid⟩)
      · exact hunheld ⟨row, hrow, rfl, hheld⟩
      · exact hunlinked (mem_loadSettlementLinks.mpr ⟨row, hrow, rfl, .inr htx⟩)
  | ended => exact hrow

end Sweep

/-! ## Writers -/

section Writers

variable {options : SweepOptions} {e : Event} {s : Race}

theorem perform_rows {db : RetentionDb} {row : InvoiceRow}
    (h : row ∈ (perform db e).invoices.rows) :
    ∃ old ∈ db.invoices.rows, old.id = row.id ∧ old.createdAt = row.createdAt := by
  have hupdated : ∀ {t : InvoiceTable} {p : InvoiceRow → Bool}
      {f : InvoiceRow → InvoiceRow}, db.invoices.update p f = .ok t →
      (∀ r, (f r).id = r.id ∧ (f r).createdAt = r.createdAt) →
      row ∈ t.rows → ∃ old ∈ db.invoices.rows, old.id = row.id ∧ old.createdAt = row.createdAt := by
    intro t p f hupdate hf hrow
    rw [InvoiceTable.ofRows_ok hupdate] at hrow
    obtain ⟨old, hold, rfl⟩ := mem_map.mp hrow
    refine ⟨old, hold, ?_⟩
    split
    · exact ⟨(hf old).1.symm, (hf old).2.symm⟩
    · exact ⟨rfl, rfl⟩
  -- only the two updates of an invoice touch its row
  cases e with
  | sweep => exact ⟨row, h, rfl, rfl⟩
  | payInvoice id txHash payerPublicKey payerInfo expectedVersion dbNow =>
    rw [perform] at h
    split at h
    · exact ⟨row, h, rfl, rfl⟩
    split at h
    · exact ⟨row, h, rfl, rfl⟩
    rename_i hupdate
    exact hupdated hupdate (fun _ => ⟨rfl, rfl⟩) h
  | logPaymentEvent event =>
    rw [perform] at h
    split at h <;> exact ⟨row, h, rfl, rfl⟩
  | saveTransaction t =>
    rw [perform] at h
    split at h
    · exact ⟨row, h, rfl, rfl⟩
    · split at h <;> exact ⟨row, h, rfl, rfl⟩
  | updateMetadata id metadata =>
    rw [perform] at h
    split at h
    · exact ⟨row, h, rfl, rfl⟩
    rename_i hupdate
    exact hupdated hupdate (fun _ => ⟨rfl, rfl⟩) h

/-- **A WRITER** that does not disturb the sweep keeps the invariant. -/
theorem unprotected_perform (he : e ≠ .sweep)
    (hundisturbed : Undisturbed options s e) (h : Unprotected options s) :
    Unprotected options { s with db := perform s.db e } := by
  obtain ⟨hsettles, hholds⟩ := hundisturbed he
  have hchoosable : ∀ id, Choosable options { s with db := perform s.db e } id →
      Choosable options s id := by
    intro id hnew
    obtain ⟨stage, db⟩ := s
    cases stage with
    | loading links records rest =>
      obtain ⟨hrest, row, hrow, rfl, heligible⟩ := hnew
      obtain ⟨old, hold, hid, hcreated⟩ := perform_rows hrow
      refine ⟨hrest, old, hold, hid, ?_⟩
      -- without its metadata the record depends on id and age alone
      have hrecord : ({ invoiceRecord links old with metadata := none } : RetentionRecord)
          = { invoiceRecord links row with metadata := none } := by
        rw [invoiceRecord, invoiceRecord, hid, hcreated]
      rw [hrecord]
      exact heligible
    | _ => exact hnew.elim
  constructor
  · intro id hchosen
    obtain ⟨hunlinked, hunheld⟩ := h.chosen id hchosen
    exact ⟨fun hlinked => (hsettles id hunlinked hlinked).1 hchosen,
      fun hheld => hholds id hunheld hheld hchosen⟩
  intro id hnew hlinked
  have hold := hchoosable id hnew
  exact (hsettles id (h.choosable id hold) hlinked).2 hold

theorem step_writer (he : e ≠ .sweep) : step options s e = { s with db := perform s.db e } := by
  cases e with
  | sweep => exact absurd rfl he
  | _ => rfl

/-- **A SWEEP AMONG WRITERS**: along every run in which no writer settles or
    holds an invoice that the sweep has chosen, or settles one that it can
    choose, no `DELETE` removes a protected invoice. -/
theorem sweep_race_safe (options : SweepOptions) (db : RetentionDb) (events : List Event)
    (h : Along (step options) (Undisturbed options) (start options db) events) :
    Along (step options) (DeletesUnprotected options) (start options db)
      events := by
  refine Along.imp ?_ (I := Unprotected options) ?_ h
  · intro s e hinv hundisturbed
    by_cases he : e = .sweep
    · rw [he]
      exact ⟨deletes_unprotected hinv, unprotected_sweep hinv⟩
    rw [step_writer he]
    exact ⟨fun hsweep => absurd hsweep he, unprotected_perform he hundisturbed hinv⟩
  · rw [start]
    split <;> exact ⟨fun _ hc => hc.elim, fun _ hc => hc.elim⟩

end Writers

/-! ## A sweep alone -/

section Alone

variable {options : SweepOptions}

/-- Statement by statement, with no writer between, the sweep ends there. -/
def Alone (options : SweepOptions) (s : Race) (db : RetentionDb) : Prop :=
  ∃ n, (replicate n Event.sweep).foldl (step options) s = ⟨.ended, db⟩

theorem alone_ended (db : RetentionDb) : Alone options ⟨.ended, db⟩ db := ⟨0, rfl⟩

theorem alone_step {s : Race} {db : RetentionDb}
    (h : Alone options (sweepStep options s) db) : Alone options s db := by
  obtain ⟨n, hn⟩ := h
  exact ⟨n + 1, hn⟩

theorem alone_deleting (deletes : List (RetentionTable × List String)) (db : RetentionDb) :
    Alone options ⟨.deleting deletes, db⟩ (applyDeletes deletes db).2 := by
  induction deletes generalizing db with
  | nil => exact alone_step (alone_ended db)
  | cons entry rest ih =>
    obtain ⟨table, ids⟩ := entry
    refine alone_step ?_
    rw [sweepStep, applyDeletes]
    cases hdelete : deleteRows table ids db with
    | error e =>
      simp only [hdelete]
      exact alone_ended db
    | ok deleted =>
      simp only [hdelete]
      exact ih deleted.1

/-- What a sweep does after its reads. -/
def afterPlan (options : SweepOptions) (db : RetentionDb)
    (records : Except SweepError (List RetentionRecord)) : RetentionDb :=
  match records with
  | .error _ => db
  | .ok records =>
    match planRetention options.now records with
    | .error _ => db
    | .ok plan =>
      if options.isDry then db
      else (applyDeletes (deletesOf options plan) db).2

theorem alone_reading (links : List String) (records : List RetentionRecord)
    (rest : List RetentionTable) (db : RetentionDb) :
    Alone options ⟨afterReading options links records rest, db⟩ (afterPlan options db
        ((loadTables links db rest).map (records ++ ·))) := by
  -- by induction on the tables still to be read
  induction rest generalizing records with
  | nil =>
    show Alone options ⟨afterReading options links records [], db⟩
      (afterPlan options db (.ok (records ++ [])))
    rw [append_nil, afterPlan, afterReading]
    cases hplan : planRetention options.now records with
    | error e => exact alone_ended db
    | ok plan =>
      cases hdry : options.isDry with
      | true =>
        simp only [if_true]
        exact alone_ended db
      | false =>
        simp only [Bool.false_eq_true, if_false]
        exact alone_deleting _ db
  | cons table rest ih =>
    refine alone_step ?_
    rw [afterReading, sweepStep, loadTables]
    cases hread : loadTable links db table with
    | error e =>
      simp only [hread]
      exact alone_ended db
    | ok read =>
      simp only [hread]
      have hmore : ((loadTables links db rest).map (read ++ ·)).map (records ++ ·)
          = (loadTables links db rest).map ((records ++ read) ++ ·) := by
        cases loadTables links db rest with
        | error e => rfl
        | ok more => exact congrArg Except.ok (append_assoc ..).symm
      rw [hmore]
      exact ih (records ++ read)

theorem run_afterPlan {db : RetentionDb} {tables : List RetentionTable}
    (h : checkTables options.names = .ok tables) :
    (runRetentionSweep db options).2 = afterPlan options db
      (loadTables (loadSettlementLinks db) db tables) := by
  rw [runRetentionSweep, buildRetentionPlan, h]
  cases hload : loadTables (loadSettlementLinks db) db tables with
  | error e => simp only [hload, afterPlan]
  | ok records =>
    simp only [hload, afterPlan]
    cases planRetention options.now records with
    | error e => rfl
    | ok plan =>
      cases hdry : options.isDry with
      | true => simp only [if_true]
      | false => simp only [Bool.false_eq_true, if_false]

/-- **ALONE**, the statements end in what `runRetentionSweep` leaves. -/
theorem alone_run (options : SweepOptions) (db : RetentionDb) :
    Alone options (start options db) (runRetentionSweep db options).2 := by
  cases htables : checkTables options.names with
  | error e =>
    rw [start, runRetentionSweep, buildRetentionPlan, htables]
    exact alone_ended db
  | ok tables =>
    rw [start, htables, run_afterPlan htables]
    refine alone_step ?_
    have hrun : Alone options ⟨afterReading options (loadSettlementLinks db) [] tables, db⟩
        (afterPlan options db ((loadTables (loadSettlementLinks db) db tables).map ([] ++ ·))) :=
      alone_reading _ _ _ _
    cases hload : loadTables (loadSettlementLinks db) db tables with
    | error e =>
      rw [hload] at hrun
      exact hrun
    | ok records =>
      rw [hload] at hrun
      exact hrun

end Alone

/-! ## Samples -/

/-- An invoice that expired, and a young one that can be paid. -/
def mixedDb : RetentionDb where
  invoices := ⟨[{ paidInvoice with status := .expired },
      { paidInvoice with
        id := "y"
        memo := "INV-2"
        status := .pending
        createdAt := 800 * dayMs * 1000
        expiresAt := 900 * dayMs * 1000 }],
    by decide +kernel, by decide +kernel, by decide +kernel,
    by decide +kernel⟩
  transactions := []
  paymentEvents := []
  jobs := []
  datedTransactions := false

/-- The young invoice is paid between the links and the invoices. -/
def youngPaid : List Event :=
  [.sweep, .payInvoice "y" "h" "P" none none (800 * dayMs * 1000), .sweep, .sweep]

theorem undisturbed_youngPaid :
    Along (step (liveRun "invoices" 800)) (Undisturbed (liveRun "invoices" 800))
      (start (liveRun "invoices" 800) mixedDb) youngPaid := by
  refine ⟨fun h => absurd rfl h, ⟨fun _ => ⟨?_, ?_⟩, fun h => absurd rfl h,
    fun h => absurd rfl h, trivial⟩⟩
  · intro id _ hid
    have hlinks : loadSettlementLinks (perform (step (liveRun "invoices" 800)
        (start (liveRun "invoices" 800) mixedDb) .sweep).db
        (.payInvoice "y" "h" "P" none none (800 * dayMs * 1000))) = ["y"] := by
      decide +kernel
    rw [hlinks] at hid
    obtain rfl := mem_singleton.mp hid
    exact ⟨by decide +kernel, by decide +kernel⟩
  · rintro id - ⟨row, hrow, -, hheld⟩
    have hnone : (perform (step (liveRun "invoices" 800)
        (start (liveRun "invoices" 800) mixedDb) .sweep).db
        (.payInvoice "y" "h" "P" none none (800 * dayMs * 1000))).invoices.rows.all
          (fun row => !hasLegalHold row.metadata) = true := by
      decide +kernel
    have hunheld := all_eq_true.mp hnone row hrow
    rw [hheld] at hunheld
    cases hunheld

theorem sweep_race_safe_youngPaid : Along (step (liveRun "invoices" 800))
      (DeletesUnprotected (liveRun "invoices" 800))
      (start (liveRun "invoices" 800) mixedDb) youngPaid :=
  sweep_race_safe (liveRun "invoices" 800) mixedDb youngPaid undisturbed_youngPaid

/-- A transaction for the expired invoice comes before its `DELETE`. -/
def lateTransaction : List Event :=
  [.sweep, .sweep, .saveTransaction ⟨"t", some "i", "h", none⟩, .sweep]

/-- The invoice goes all the same. -/
theorem late_transaction_ignored : ¬ Along (step (liveRun "invoices" 800))
      (DeletesUnprotected (liveRun "invoices" 800))
      (start (liveRun "invoices" 800) mixedDb) lateTransaction := by
  intro hrun
  have hsafe := Along.iff_splits.mp hrun
    [.sweep, .sweep, .saveTransaction ⟨"t", some "i", "h", none⟩] .sweep []
    rfl rfl
  generalize hstate : [Event.sweep, .sweep, .saveTransaction ⟨"t", some "i", "h", none⟩].foldl
      (step (liveRun "invoices" 800))
      (start (liveRun "invoices" 800) mixedDb) = s at hsafe
  have hpresent : (s.db.invoices.rows.any (fun row => row.id == "i")
      && s.db.transactions.any (fun t => t.invoiceId == some "i")) = true := by
    rw [← hstate]
    decide +kernel
  have habsent : (step (liveRun "invoices" 800) s .sweep).db.invoices.rows.all
      (fun row => row.id != "i") = true := by
    rw [← hstate]
    decide +kernel
  rw [Bool.and_eq_true] at hpresent
  obtain ⟨row, hrow, hid⟩ := any_eq_true.mp hpresent.1
  obtain ⟨t, ht, hinvoice⟩ := any_eq_true.mp hpresent.2
  rw [beq_iff_eq] at hid hinvoice
  have hkept := hsafe row hrow (.inr ⟨t, ht, hid ▸ hinvoice⟩)
  have hgone := all_eq_true.mp habsent row hkept
  rw [bne_iff_ne] at hgone
  exact hgone hid

end Retention

import Inqutum.RepairFixpointProofs

/-!
# What the phases leave to the phases after them

A dry repair writes nothing, and a live one that does not fail comes to
what the dry one notes: what a phase reports is known from the rows that
it selects (`report`).

Two phases write what a later one reads, the references of the
transactions.  `Tables.replay` says record by record what some phases make
of them, and `Kept` that a live run without a failed row leaves just that
(`Kept.step`, one phase more).
-/

namespace Repair

open List Option KeysetScan
open Tables

/-! ## What a row comes to, dry and live -/

section Outcomes

variable {σ : Type} {table : σ} {statements : List (String × Statement σ)}
  {result : Except String (List String)} {actions : List String}

theorem execute_names (h : (execute false table statements).2 = .ok actions) :
    actions = statements.map Prod.fst := by
  induction statements generalizing table actions with
  | nil => exact (Except.ok.inj h).symm
  | cons s rest ih =>
    obtain ⟨action, statement⟩ := s
    cases hstep : statement table with
    | error message =>
      rw [execute, if_neg (by decide), hstep] at h
      cases h
    | ok table' =>
      rw [execute_ok hstep] at h
      cases hrest : (execute false table' rest).2 with
      | error message =>
        rw [hrest] at h
        cases h
      | ok names =>
        rw [hrest] at h
        rw [← Except.ok.inj h, map_cons, ih hrest]

/-- Statements that succeed come to what a dry run notes. -/
theorem execute_live (h : (execute false table statements).2 = .ok actions) (table' : σ) :
    (execute false table statements).2 = (execute true table' statements).2 := by
  rw [h, (execute_dry table' statements).2, execute_names h]

theorem singleOutcome_ok {details : Json} (h : (singleOutcome details result).ok) :
    ∃ actions, result = .ok actions := by
  cases result with
  | error message => exact False.elim h
  | ok actions => exact ⟨actions, rfl⟩

theorem rowOutcome_ok {status : Json}
    (h : (rowOutcome status result).ok) : ∃ actions, result = .ok actions := by
  cases result with
  | error message => exact False.elim h
  | ok actions => exact ⟨actions, rfl⟩

variable (table statements) in
theorem rowOutcome_dry (status : Json) :
    (rowOutcome status (execute true table statements).2).ok := by
  rw [(execute_dry table statements).2]
  cases statements.map Prod.fst with
  | nil => trivial
  | cons action rest => trivial

end Outcomes

section Phases

variable (first : List Transaction → Option Transaction) (readings : Readings)

/-- **A DRY REPAIR WRITES NOTHING**. -/
theorem repair_dry (phase : RepairPhase) (d : Tables) (row : RowOf phase) :
    ((scanOf first readings true phase).repair d row).1 = d := by
  cases phase with
  | detachedTransactions =>
    exact congrArg (fun transactions => { d with transactions }) (execute_dry d.transactions _).1
  | orphanedTransactions =>
    exact congrArg (fun transactions => { d with transactions }) (execute_dry d.transactions _).1
  | orphanedPaymentEvents =>
    exact congrArg (fun paymentEvents => { d with paymentEvents }) (execute_dry d.paymentEvents _).1
  | inconsistentInvoices =>
    exact congrArg (fun invoices => { d with invoices }) (execute_dry d.invoices _).1
  | inconsistentJobs => exact congrArg (fun jobs => { d with jobs }) (execute_dry d.jobs _).1

/-- What a dry run notes of a row, whatever else the tables hold. -/
def planned (phase : RepairPhase) (row : RowOf phase) : Outcome :=
  ((scanOf first readings true phase).repair emptyTables row).2

/-- **A LIVE REPAIR THAT DOES NOT FAIL COMES TO WHAT THE DRY ONE NOTES**. -/
theorem repair_planned (dry : Bool) (phase : RepairPhase) (d : Tables) (row : RowOf phase)
    (hok : ((scanOf first readings dry phase).repair d row).2.ok) :
    ((scanOf first readings dry phase).repair d row).2 = planned first readings phase row := by
  have hsame : ∀ {σ : Type} {table : σ} (table' : σ) {statements : List (String × Statement σ)},
      (∃ actions, (execute dry table statements).2 = .ok actions) →
      (execute dry table statements).2 = (execute true table' statements).2 := by
    intro σ table table' statements ⟨actions, hactions⟩
    cases dry with
    | false => exact execute_live hactions table'
    | true => rw [(execute_dry table _).2, (execute_dry table' _).2]
  cases phase with
  | detachedTransactions =>
    exact congrArg (singleOutcome _) (hsame emptyTables.transactions (singleOutcome_ok hok))
  | orphanedTransactions =>
    exact congrArg (singleOutcome _) (hsame emptyTables.transactions (singleOutcome_ok hok))
  | orphanedPaymentEvents =>
    exact congrArg (singleOutcome _) (hsame emptyTables.paymentEvents (singleOutcome_ok hok))
  | inconsistentInvoices =>
    exact congrArg (rowOutcome _) (hsame emptyTables.invoices (rowOutcome_ok hok))
  | inconsistentJobs => exact congrArg (rowOutcome _) (hsame emptyTables.jobs (rowOutcome_ok hok))

/-- The rows of a phase do not depend on whether it is dry. -/
theorem select_live (phase : RepairPhase) (d : Tables) :
    (scanOf first readings false phase).select d = (scanOf first readings true phase).select d := by
  cases phase <;> rfl

theorem key_live (phase : RepairPhase) : (scanOf first readings false phase).key
      = (scanOf first readings true phase).key := by
  cases phase <;> rfl

/-- What a phase over some tables is to report. -/
def report (phase : RepairPhase) (d : Tables) : List (String × Outcome) :=
  ((scanOf first readings true phase).select d).map (fun row =>
    ((scanOf first readings true phase).key row, planned first readings phase row))

theorem finish_dry (phase : RepairPhase) (d : Tables) :
    (scanOf first readings true phase).finish none d = (d, report first readings phase d) := by
  rw [finish, ahead_none, sweep_still (fun row _ => repair_dry first readings phase d row)]
  refine congrArg (Prod.mk d) (map_congr_left ?_)
  intro row _
  refine congrArg (Prod.mk _) (repair_planned first readings true phase d row ?_)
  -- a dry row never fails
  cases phase with
  | detachedTransactions => trivial
  | orphanedTransactions => trivial
  | orphanedPaymentEvents => trivial
  | inconsistentInvoices => exact rowOutcome_dry d.invoices _ _
  | inconsistentJobs => exact rowOutcome_dry d.jobs _ _

theorem finish_live (phase : RepairPhase) (d : Tables)
    (hok : ∀ visit ∈ ((scanOf first readings false phase).finish none d).2, visit.2.ok) :
    ((scanOf first readings false phase).finish none d).2 = report first readings phase d := by
  rw [report, ← select_live, ← key_live]
  rw [finish, ahead_none] at hok ⊢
  exact visits_sweep Outcome.ok (fun d row _ => repair_planned first readings false phase d row) hok

end Phases

/-! ## The transactions, as the earlier phases leave them -/

/-- A transaction without a reference is linked by its memo. -/
def Transaction.linked (d : Tables) (t : Transaction) : Transaction :=
  match detachedRow d t with
  | some row => { t with invoiceId := some row.matchingInvoiceId }
  | none => t

/-- A broken reference is taken away and noted. -/
def Transaction.isolated (d : Tables) (t : Transaction) : Transaction :=
  match orphanedRow d t.id t.txHash t.invoiceId with
  | none => t
  | some row =>
    match noteOrphan t.metadata row.invoiceId with
    | .ok metadata => { t with invoiceId := none, metadata := some metadata }
    | .error _ => t

/-- What a phase makes of a transaction. -/
def Transaction.after (d : Tables) (t : Transaction) : RepairPhase → Transaction
  | .detachedTransactions => t.linked d
  | .orphanedTransactions => t.isolated d
  | _ => t

def Transaction.replay (d : Tables) (done : List RepairPhase) (t : Transaction) : Transaction :=
  done.foldl (fun t phase => t.after d phase) t

theorem Transaction.linked_cases (d : Tables) (t : Transaction) :
    t.linked d = t ∨ ∃ row, detachedRow d t = some row
      ∧ t.linked d = { t with invoiceId := some row.matchingInvoiceId } := by
  rw [Transaction.linked]
  split
  · rename_i row hrow
    exact .inr ⟨row, hrow, rfl⟩
  · exact .inl rfl

theorem Transaction.isolated_cases (d : Tables) (t : Transaction) :
    t.isolated d = t ∨ ∃ row metadata, orphanedRow d t.id t.txHash t.invoiceId = some row
      ∧ t.isolated d = { t with invoiceId := none, metadata := some metadata } := by
  rw [Transaction.isolated]
  split
  · exact .inl rfl
  rename_i row hrow
  split
  · exact .inr ⟨row, _, hrow, rfl⟩
  · exact .inl rfl

/-- Only the reference and the metadata change. -/
theorem Transaction.after_columns (d : Tables) (t : Transaction) (phase : RepairPhase) :
    (t.after d phase).id = t.id ∧ (t.after d phase).txHash = t.txHash
      ∧ (t.after d phase).memo = t.memo := by
  cases phase with
  | detachedTransactions =>
    rcases t.linked_cases d with heq | ⟨row, -, heq⟩ <;>
      rw [Transaction.after, heq] <;> exact ⟨rfl, rfl, rfl⟩
  | orphanedTransactions =>
    rcases t.isolated_cases d with heq | ⟨row, metadata, -, heq⟩ <;>
      rw [Transaction.after, heq] <;> exact ⟨rfl, rfl, rfl⟩
  | _ => exact ⟨rfl, rfl, rfl⟩

theorem Transaction.replay_columns (d : Tables) (done : List RepairPhase) (t : Transaction) :
    (t.replay d done).id = t.id ∧ (t.replay d done).txHash = t.txHash
      ∧ (t.replay d done).memo = t.memo := by
  induction done generalizing t with
  | nil => exact ⟨rfl, rfl, rfl⟩
  | cons phase rest ih =>
    obtain ⟨hid, hhash, hmemo⟩ := t.after_columns d phase
    obtain ⟨hid', hhash', hmemo'⟩ := ih (t.after d phase)
    exact ⟨hid'.trans hid, hhash'.trans hhash, hmemo'.trans hmemo⟩

/-- Tables whose transactions some phases have been through. -/
def Tables.replay (d : Tables) (done : List RepairPhase) : Tables :=
  { d with
    transactions :=
      { rows := d.transactions.rows.map (Transaction.replay d done)
        ascending := by
          refine pairwise_map.mpr (d.transactions.ascending.imp ?_)
          intro t t' hlt
          rw [(t.replay_columns d done).1, (t'.replay_columns d done).1]
          exact hlt } }

section Sweeps

variable {first : List Transaction → Option Transaction} {readings : Readings}
  {d d' : Tables}

theorem detachedRow_of_labels (h : d'.labels = d.labels) (t : Transaction) :
    detachedRow d' t = detachedRow d t := by
  have hfind : ∀ (d : Tables) (memo : String),
      (d.invoices.rows.find? (fun i => decide (i.memo = memo))).map Invoice.id
        = (d.labels.find? (fun label => decide (label.2 = memo))).map
          Prod.fst := by
    intro d memo
    rw [labels, List.find?_map, Option.map_map]
    rfl
  have hrow : ∀ (d : Tables) (memo : String),
      (d.invoices.rows.find? (fun i => decide (i.memo = memo))).map (fun i =>
          DetachedRow.mk t.id t.txHash memo i.id)
        = ((d.invoices.rows.find? (fun i => decide (i.memo = memo))).map
          Invoice.id).map (fun id => DetachedRow.mk t.id t.txHash memo id) := by
    intro d memo
    rw [Option.map_map]
    rfl
  simp only [detachedRow, hrow, hfind, h]

variable {phase : RepairPhase} {t : Transaction}

theorem detached_of_row {row : DetachedRow} (h : detachedRow d t = some row) :
    t.invoiceId = none ∧ d.hasMemo t.memo = true := by
  by_contra hno
  rw [(detachedRow_eq_none d t).mpr hno] at h
  cases h

/-- The first phase, record by record. -/
theorem transactions_detached (d : Tables)
    (hok : ∀ visit ∈ ((detachedScan false).finish none d).2, visit.2.ok) :
    ((detachedScan false).finish none d).1.transactions.rows
      = d.transactions.rows.map (Transaction.linked d) := by
  have hrows := records_finish (S := detachedScan false) (s := d)
    Outcome.ok (g := fun row t => if t.invoiceId.isNone = true then
      { t with invoiceId := some row.matchingInvoiceId } else t) ?_ ?_ hok
  · refine hrows.trans (map_congr_left ?_)
    intro t _
    rw [Transaction.linked]
    show ((detachedRow d t).map _).getD t = _
    cases hrow : detachedRow d t with
    | none => rfl
    | some row =>
      obtain ⟨hnone, -⟩ := detached_of_row hrow
      rw [map_some, getD_some, if_pos (by rw [hnone]; rfl)]
  · intro row t
    show Transaction.id (ite _ _ _) = t.id
    split
    · rfl
    · rfl
  intro d row _
  show d.transactions.rows.map _ = d.transactions.rows.map _
  refine map_congr_left ?_
  intro t _
  by_cases hid : t.id = row.id
  · rw [decide_eq_true hid, Bool.true_and]
    exact (if_pos hid).symm
  rw [decide_eq_false hid, Bool.false_and]
  exact (if_neg hid).symm

theorem isolateTransaction_map {id invoiceId : String} {table table' : KeyTable Transaction.id}
    (h : isolateTransaction id invoiceId table = .ok table') :
    table'.rows = table.rows.map (fun t =>
      if t.id = id then if t.invoiceId = some invoiceId then
          match noteOrphan t.metadata invoiceId with
          | .ok metadata => { t with invoiceId := none, metadata := some metadata }
          | .error _ => t
        else t
      else t) := by
  rw [isolateTransaction] at h
  split at h
  · rename_i hnone
    cases h
    refine (map_id _).symm.trans (map_congr_left ?_)
    intro t ht
    have hno := find?_eq_none.mp hnone t ht
    rw [Bool.and_eq_true, decide_eq_true_eq, decide_eq_true_eq] at hno
    split
    · rename_i hid
      rw [if_neg (fun hinvoice => hno ⟨hid, hinvoice⟩)]
      rfl
    · rfl
  · rename_i found hfind
    split at h
    · cases h
    rename_i metadata hnoted
    cases h
    refine map_congr_left ?_
    intro t ht
    by_cases hid : t.id = id
    · by_cases hinvoice : t.invoiceId = some invoiceId
      · -- the record found is this one
        have hkey := find?_some hfind
        rw [Bool.and_eq_true, decide_eq_true_eq, decide_eq_true_eq] at hkey
        have hsame : found = t := eq_of_id (S := detachedScan false)
          (s := { emptyTables with transactions := table })
          (mem_of_find?_eq_some hfind) ht (hkey.1.trans hid.symm)
        rw [hsame] at hnoted
        rw [if_pos hid, if_pos hinvoice, hnoted, decide_eq_true hid]
        exact if_pos (decide_eq_true hinvoice)
      · rw [if_pos hid, if_neg hinvoice, decide_eq_true hid]
        exact if_neg (fun hyes => hinvoice (of_decide_eq_true hyes))
    · rw [if_neg hid, decide_eq_false hid]
      rfl

/-- The second phase, record by record. -/
theorem transactions_isolated (d : Tables)
    (hok : ∀ visit ∈ ((orphanedTransactionScan false).finish none d).2, visit.2.ok) :
    ((orphanedTransactionScan false).finish none d).1.transactions.rows
      = d.transactions.rows.map (Transaction.isolated d) := by
  have hrows := records_finish (S := orphanedTransactionScan false)
    (s := d) Outcome.ok (g := fun row t =>
      if t.invoiceId = some row.invoiceId then
        match noteOrphan t.metadata row.invoiceId with
        | .ok metadata => { t with invoiceId := none, metadata := some metadata }
        | .error _ => t
      else t) ?_ ?_ hok
  · refine hrows.trans (map_congr_left ?_)
    intro t _
    rw [Transaction.isolated]
    show ((orphanedRow d t.id t.txHash t.invoiceId).map _).getD t = _
    cases hrow : orphanedRow d t.id t.txHash t.invoiceId with
    | none => rfl
    | some row =>
      obtain ⟨-, hinvoice, -⟩ := orphanedRow_eq_some hrow
      rw [map_some, getD_some, if_pos hinvoice]
  · intro row t
    show Transaction.id (ite _ _ _) = t.id
    split
    · split
      · rfl
      · rfl
    · rfl
  · intro d row hrow
    obtain ⟨table', hstep, htable⟩ := execute_single hrow
    show (execute false d.transactions _).1.rows = _
    rw [htable]
    exact isolateTransaction_map hstep

/-- What no repair of a phase changes, a sweep does not change. -/
theorem frame_finish {ρ α τ : Type} {S : KeysetScan Tables ρ α String Outcome} (part : Tables → τ)
    (h : ∀ d row, part (S.repair d row).1 = part d) (d : Tables) :
    part (S.finish none d).1 = part d := by
  refine sweep_keeps (fun _ => True) (P := fun s => part s = part d) ?_ (fun _ _ => trivial) rfl
  intro s hs row _ _
  exact (h s row).trans hs

/-- Of the tables at the start, what some phases leave. -/
structure Kept (d : Tables) (done : List RepairPhase) (d' : Tables) : Prop where
  transactions : d'.transactions.rows = (d.replay done).transactions.rows
  labels : d'.labels = d.labels
  events : .orphanedPaymentEvents ∉ done → d'.paymentEvents = d.paymentEvents
  invoices : .inconsistentInvoices ∉ done → d'.invoices = d.invoices
  jobs : .inconsistentJobs ∉ done → d'.jobs = d.jobs
  settled : .orphanedTransactions ∈ done → ∀ t ∈ d'.transactions.rows,
    orphanedRow d t.id t.txHash t.invoiceId = none

theorem kept_start (d : Tables) : Kept d [] d where
  transactions := (map_id _).symm
  labels := rfl
  events _ := rfl
  invoices _ := rfl
  jobs _ := rfl
  settled h := nomatch h

theorem replay_append (d : Tables) (done : List RepairPhase) (phase : RepairPhase) :
    (d.replay (done ++ [phase])).transactions.rows = (d.replay done).transactions.rows.map (fun t =>
        t.after d phase) := by
  show d.transactions.rows.map _ = (d.transactions.rows.map _).map _
  rw [List.map_map]
  refine List.map_congr_left ?_
  intro t _
  rw [Transaction.replay, foldl_append]
  rfl

theorem transactions_finish (hlabels : d'.labels = d.labels)
    (hok : ∀ visit ∈ ((scanOf first readings false phase).finish none d').2, visit.2.ok) :
    ((scanOf first readings false phase).finish none d').1.transactions.rows
      = d'.transactions.rows.map (fun t => t.after d phase) := by
  cases phase with
  | detachedTransactions =>
    refine (transactions_detached d' hok).trans (map_congr_left ?_)
    intro t _
    rw [Transaction.after, Transaction.linked, Transaction.linked, detachedRow_of_labels hlabels]
  | orphanedTransactions =>
    refine (transactions_isolated d' hok).trans (map_congr_left ?_)
    intro t _
    rw [Transaction.after, Transaction.isolated, Transaction.isolated,
      orphanedRow_of_labels hlabels]
  | orphanedPaymentEvents =>
    exact (congrArg KeyTable.rows (frame_finish transactions
      (fun _ _ => rfl) d')).trans (map_id _).symm
  | inconsistentInvoices =>
    exact (congrArg KeyTable.rows (frame_finish transactions
      (fun _ _ => rfl) d')).trans (map_id _).symm
  | inconsistentJobs =>
    exact (congrArg KeyTable.rows (frame_finish transactions
      (fun _ _ => rfl) d')).trans (map_id _).symm

theorem Transaction.linked_settled (h : orphanedRow d t.id t.txHash t.invoiceId = none) :
    orphanedRow d (t.linked d).id (t.linked d).txHash (t.linked d).invoiceId = none := by
  rcases t.linked_cases d with heq | ⟨row, hrow, heq⟩
  · rw [heq]
    exact h
  rw [heq]
  exact if_pos (detachedRow_eq_some hrow)

/-- Once the second phase is through, no reference is broken. -/
theorem settled_finish (hlabels : d'.labels = d.labels)
    (hok : ∀ visit ∈ ((orphanedTransactionScan false).finish none d').2, visit.2.ok) :
    ∀ t ∈ ((orphanedTransactionScan false).finish none d').1.transactions.rows,
      orphanedRow d t.id t.txHash t.invoiceId = none := by
  intro t ht
  rw [transactions_isolated d' hok] at ht
  obtain ⟨t₀, ht₀, rfl⟩ := mem_map.mp ht
  cases hrow : orphanedRow d' t₀.id t₀.txHash t₀.invoiceId with
  | none =>
    rw [Transaction.isolated, hrow, ← orphanedRow_of_labels hlabels]
    exact hrow
  | some row =>
    have hpick : (orphanedTransactionScan false).pick d' t₀ = some row := hrow
    have hrows : ((orphanedTransactionScan false).finish none d').2
        = ((orphanedTransactionScan false).sweep d'
          ((orphanedTransactionScan false).select d')).2 := by
      rw [finish, ahead_none]
    have hdone := orphanedTransactionScan_establishes.done_sweep select_ascending (hrows ▸ hok)
      (mem_select.mpr ⟨t₀, ht₀, hpick⟩) ht₀ hpick
      (t₀.isolated d') ?_ (t₀.after_columns d' .orphanedTransactions).1
    · have hsame : ((orphanedTransactionScan false).finish none d').1.labels
          = d'.labels := frame_finish labels (fun _ _ => rfl) d'
      have hlabels' : ((orphanedTransactionScan false).sweep d'
          ((orphanedTransactionScan false).select d')).1.labels
          = d.labels := by
        rw [← ahead_none]
        exact hsame.trans hlabels
      rw [orphanedRow_of_labels hlabels'] at hdone
      exact hdone
    · rw [← ahead_none]
      show _ ∈ ((orphanedTransactionScan false).finish none d').1.transactions.rows
      rw [transactions_isolated d' hok]
      exact mem_map_of_mem ht₀

/-- **ONE PHASE MORE**. -/
theorem Kept.step {done : List RepairPhase} (h : Kept d done d')
    (hok : ∀ visit ∈ ((scanOf first readings false phase).finish none d').2, visit.2.ok) :
    Kept d (done ++ [phase]) ((scanOf first readings false phase).finish none d').1 where
  transactions := by
    rw [replay_append, ← h.transactions]
    exact transactions_finish h.labels hok
  labels := (frame_finish Tables.labels
    (fun d row => labels_repair first readings false phase d row) d').trans
    h.labels
  events hno := by
    rw [mem_append, mem_singleton, not_or] at hno
    refine Eq.trans ?_ (h.events hno.1)
    refine frame_finish Tables.paymentEvents ?_ d'
    intro d row
    cases phase with
    | orphanedPaymentEvents => exact absurd rfl hno.2
    | _ => rfl
  invoices hno := by
    rw [mem_append, mem_singleton, not_or] at hno
    refine Eq.trans ?_ (h.invoices hno.1)
    refine frame_finish Tables.invoices ?_ d'
    intro d row
    cases phase with
    | inconsistentInvoices => exact absurd rfl hno.2
    | _ => rfl
  jobs hno := by
    rw [mem_append, mem_singleton, not_or] at hno
    refine Eq.trans ?_ (h.jobs hno.1)
    refine frame_finish Tables.jobs ?_ d'
    intro d row
    cases phase with
    | inconsistentJobs => exact absurd rfl hno.2
    | _ => rfl
  settled hmem := by
    rcases mem_append.mp hmem with hdone | hlast
    · intro t ht
      rw [transactions_finish h.labels hok] at ht
      obtain ⟨t₀, ht₀, rfl⟩ := mem_map.mp ht
      have hsettled := h.settled hdone t₀ ht₀
      cases phase with
      | detachedTransactions => exact Transaction.linked_settled hsettled
      | orphanedTransactions =>
        rw [Transaction.after, Transaction.isolated, hsettled]
        exact hsettled
      | _ => exact hsettled
    · rw [← mem_singleton.mp hlast] at hok ⊢
      exact settled_finish h.labels hok

end Sweeps

end Repair

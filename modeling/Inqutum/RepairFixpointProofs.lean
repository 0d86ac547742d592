import Inqutum.RepairSettledProofs

/-!
# A second repair

A completed live run of the default phases, without a failed row, leaves
nothing for a second one to repair, with two exceptions.

* The second phase takes a broken reference away from a transaction, and
  the first phase has run before.  Where the memo of such a transaction is
  that of an invoice, the second run links it.
* A lease that ends between the runs is for the second one to find.

`hasStray` of the tables at the start tells of the first, `Quiet` of the
tables between the runs of the second.  What the proof follows through the
first run is `hasLoose`: once the first phase is through, a transaction
that is open to be linked is a stray one, and no later phase makes it
otherwise.
-/

namespace Repair

open List Option KeysetScan Nat RepairState BatchResult

/-! ## Labels, strays and loose ends -/

def Tables.labels (d : Tables) : List (String × String) :=
  d.invoices.rows.map (fun i => (i.id, i.memo))

def Tables.hasMemo (d : Tables) (memo : Option String) : Bool :=
  memo.any (fun memo => d.invoices.rows.any (fun i => decide (i.memo = memo)))

/-- A transaction that refers to no invoice, though its memo is that of
    one. -/
def isStray (d : Tables) (t : Transaction) : Bool :=
  t.invoiceId.any (fun id => !d.hasInvoice id) && d.hasMemo t.memo

/-- The same, or with no reference at all. -/
def isLoose (d : Tables) (t : Transaction) : Bool :=
  t.invoiceId.all (fun id => !d.hasInvoice id) && d.hasMemo t.memo

def hasStray (d : Tables) : Bool := d.transactions.rows.any (isStray d)

def hasLoose (d : Tables) : Bool := d.transactions.rows.any (isLoose d)

section Labels

variable {d d' : Tables}

theorem hasInvoice_of_labels (h : d'.labels = d.labels) (id : String) :
    d'.hasInvoice id = d.hasInvoice id := by
  have hany : ∀ d : Tables, d.hasInvoice id
      = d.labels.any (fun label => decide (label.1 = id)) := by
    intro d
    rw [Tables.labels, List.any_map]
    rfl
  rw [hany, hany, h]

theorem hasMemo_of_labels (h : d'.labels = d.labels) (memo : Option String) :
    d'.hasMemo memo = d.hasMemo memo := by
  have hany : ∀ (d : Tables) memo, d.invoices.rows.any (fun i => decide (i.memo = memo))
        = d.labels.any (fun label => decide (label.2 = memo)) := by
    intro d memo
    rw [Tables.labels, List.any_map]
    rfl
  cases memo with
  | none => rfl
  | some memo =>
    show d'.invoices.rows.any _ = d.invoices.rows.any _
    rw [hany, hany, h]

theorem isStray_of_labels (h : d'.labels = d.labels) (t : Transaction) :
    isStray d' t = isStray d t := by
  simp only [isStray, hasInvoice_of_labels h, hasMemo_of_labels h]

theorem isLoose_of_labels (h : d'.labels = d.labels) (t : Transaction) :
    isLoose d' t = isLoose d t := by
  simp only [isLoose, hasInvoice_of_labels h, hasMemo_of_labels h]

theorem labels_update {table : InvoiceTable} {k : String} {p : Invoice → Bool}
    {f : Invoice → Invoice} (hf : ∀ i, (f i).id = i.id) (hmemo : ∀ i, (f i).memo = i.memo) :
    (table.update k p f hf hmemo).rows.map (fun i => (i.id, i.memo))
      = table.rows.map (fun i => (i.id, i.memo)) := by
  obtain ⟨g, hrows, hcases⟩ := table.toKeyTable.update_rows k p f hf
  show (table.toKeyTable.update k p f hf).rows.map _ = _
  rw [hrows, List.map_map]
  refine List.map_congr_left ?_
  intro i _
  rw [Function.comp_apply]
  rcases hcases i with ⟨hsame, -⟩ | ⟨-, -, hg⟩
  · rw [hsame]
  · rw [hg, hf, hmemo]

/-- **NO REPAIR TOUCHES AN ID OR A MEMO OF AN INVOICE**. -/
theorem labels_repair (first : List Transaction → Option Transaction)
    (readings : Readings) (dry : Bool) (phase : RepairPhase) (d : Tables) (row : RowOf phase) :
    ((scanOf first readings dry phase).repair d row).1.labels = d.labels := by
  cases phase with
  | inconsistentInvoices =>
    exact execute_relates (R := fun table table' : InvoiceTable =>
        table'.rows.map (fun i => (i.id, i.memo)) = table.rows.map (fun i => (i.id, i.memo)))
      (fun _ => rfl) (fun _ _ _ h h' => h'.trans h) dry
      (fun s hs x y h => by
        obtain ⟨p, f, hf, hmemo, rfl⟩ := InvoiceRow.statement_update hs h
        exact labels_update hf hmemo) d.invoices
  | _ => rfl

theorem any_congr_mem {α : Type} {l : List α} {p q : α → Bool}
    (h : ∀ x ∈ l, p x = q x) : l.any p = l.any q := by
  rw [Bool.eq_iff_iff, List.any_eq_true, List.any_eq_true]
  constructor
  · rintro ⟨x, hx, hp⟩
    exact ⟨x, hx, (h x hx).symm.trans hp⟩
  rintro ⟨x, hx, hq⟩
  exact ⟨x, hx, (h x hx).trans hq⟩

/-- The first phase links a transaction that is no stray, and makes none. -/
theorem hasStray_repair {row : DetachedRow} (h : d.hasInvoice row.matchingInvoiceId = true) :
    hasStray (DetachedRow.repair false d row).1 = hasStray d := by
  obtain ⟨f, hrows, hcases⟩ := row.repair_rows d
  rw [hasStray, hrows, List.any_map, hasStray]
  refine any_congr_mem ?_
  intro t _
  have hlabels : isStray (DetachedRow.repair false d row).1 (f t)
      = isStray d (f t) := isStray_of_labels rfl _
  rw [Function.comp_apply, hlabels]
  rcases hcases t with ⟨hsame, -⟩ | ⟨-, hnone, hf⟩
  · rw [hsame]
  rw [isNone_iff_eq_none] at hnone
  rw [hf, isStray, isStray, hnone, any_some, h]
  rfl

theorem hasLoose_repair {row : OrphanedRow} (h : d.hasInvoice row.invoiceId = false)
    (hok : (OrphanedRow.repairTransaction false d row).2.ok) :
    hasLoose (OrphanedRow.repairTransaction false d row).1 = hasLoose d := by
  obtain ⟨f, hrows, hcases⟩ := OrphanedRow.repairTransaction_rows hok
  rw [hasLoose, hrows, List.any_map, hasLoose]
  refine any_congr_mem ?_
  intro t ht
  have hlabels : isLoose (OrphanedRow.repairTransaction false d row).1 (f t)
      = isLoose d (f t) := isLoose_of_labels rfl _
  rw [Function.comp_apply, hlabels]
  rcases hcases t ht with ⟨hsame, -⟩ | ⟨-, hinvoice, -, hmemo, hnone⟩
  · rw [hsame]
  rw [isLoose, isLoose, hnone, hmemo, hinvoice, all_some, h]
  rfl

theorem detachedRow_eq_none (d : Tables) (t : Transaction) : detachedRow d t = none
      ↔ ¬ (t.invoiceId = none ∧ d.hasMemo t.memo = true) := by
  rw [detachedRow]
  by_cases hinvoice : t.invoiceId = none
  · rw [if_pos hinvoice]
    cases t.memo with
    | none => exact ⟨(fun _ hno => nomatch hno.2), (fun _ => rfl)⟩
    | some memo =>
      show Option.map _ (List.find? _ _) = none ↔ ¬ (_ ∧ d.invoices.rows.any _ = true)
      rw [Option.map_eq_none_iff, List.find?_eq_none, List.any_eq_true]
      constructor
      · rintro hnone ⟨-, i, hi, hmemo⟩
        exact hnone i hi hmemo
      intro hno i hi hmemo
      exact hno ⟨hinvoice, i, hi, hmemo⟩
  · rw [if_neg hinvoice]
    exact ⟨(fun _ hno => hinvoice hno.1), (fun _ => rfl)⟩

theorem hasLoose_of_linked (h : ∀ t ∈ d.transactions.rows, detachedRow d t = none) :
    hasLoose d = hasStray d := by
  refine any_congr_mem ?_
  intro t ht
  have hlinked := (detachedRow_eq_none d t).mp (h t ht)
  rw [isLoose, isStray]
  cases hinvoice : t.invoiceId with
  | some id => rfl
  | none =>
    have hmemo : d.hasMemo t.memo = false :=
      Bool.eq_false_iff.mpr fun hmemo => hlinked ⟨hinvoice, hmemo⟩
    rw [hmemo, Bool.and_false, Bool.and_false]

/-- Once the second phase is through, what is loose has no reference. -/
theorem linked_iff_of_isolated (h : ∀ t ∈ d.transactions.rows,
      orphanedRow d t.id t.txHash t.invoiceId = none) :
    hasLoose d = false ↔ ∀ t ∈ d.transactions.rows, detachedRow d t = none := by
  rw [hasLoose, List.any_eq_false]
  refine forall₂_congr fun t ht => ?_
  rw [detachedRow_eq_none, isLoose]
  have hisolated := h t ht
  cases hinvoice : t.invoiceId with
  | none => rw [all_none, Bool.true_and, and_iff_right rfl]
  | some id =>
    have hthere : d.hasInvoice id = true := by
      rw [orphanedRow, hinvoice, bind_some] at hisolated
      split at hisolated
      · assumption
      · cases hisolated
    rw [all_some, hthere]
    exact ⟨(fun _ hno => nomatch hno.1), nofun⟩

end Labels

/-! ## What the batches keep -/

section Keeps

variable {first : List Transaction → Option Transaction}
  {readings : Readings} {d : Tables}

/-- The place of a phase in the default order. -/
def RepairPhase.rank : RepairPhase → Nat
  | detachedTransactions => 0
  | orphanedTransactions => 1
  | orphanedPaymentEvents => 2
  | inconsistentInvoices => 3
  | inconsistentJobs => 4

theorem RepairPhase.rank_injective : Function.Injective RepairPhase.rank := by
  intro p q h
  cases p <;> cases q <;> first | rfl | cases h

variable {phase : RepairPhase} {p q : RepairPhase}

theorem rank_of_place {i : Nat} (h : RepairPhase.order[i]? = some phase) : phase.rank = i := by
  rcases i with _ | _ | _ | _ | _ | i
  case succ.succ.succ.succ.succ => cases h
  all_goals
    cases h
    rfl

theorem orphanedRow_of_labels {d' : Tables} (h : d'.labels = d.labels)
    (id label : String) (invoiceId : Option String) :
    orphanedRow d' id label invoiceId = orphanedRow d id label invoiceId := by
  simp only [orphanedRow, hasInvoice_of_labels h]

theorem settled_repair (hp : 0 < p.rank)
    (hpq : p.rank < q.rank) (h : Settled first p d) (dry : Bool) (row : RowOf q) :
    Settled first p ((scanOf first readings dry q).repair d row).1 := by
  have hlabels := labels_repair first readings dry q d row
  cases p with
  | detachedTransactions => exact absurd hp (by decide)
  | orphanedTransactions =>
    cases q with
    | detachedTransactions => exact absurd hpq (by decide)
    | orphanedTransactions => exact absurd hpq (by decide)
    | _ =>
      intro t ht
      exact (orphanedRow_of_labels hlabels _ _ _).trans (h t ht)
  | orphanedPaymentEvents =>
    cases q with
    | inconsistentInvoices =>
      intro e he
      exact (orphanedRow_of_labels hlabels _ _ _).trans (h e he)
    | inconsistentJobs => exact h
    | _ => exact absurd hpq (by decide)
  | inconsistentInvoices =>
    cases q with
    | inconsistentJobs => exact fun i hi => { h i hi with }
    | _ => exact absurd hpq (by decide)
  | inconsistentJobs =>
    cases q <;> exact absurd hpq (by decide)

theorem settled_batch (hp : 0 < p.rank) (hpq : p.rank < q.rank) (h : Settled first p d) (dry : Bool)
    (c : Option String) (n : Nat) :
    Settled first p ((scanOf first readings dry q).batch c n d).1 := by
  refine sweep_keeps (fun _ => True) ?_ (fun _ _ => trivial) h
  exact fun d h row _ _ => settled_repair hp hpq h dry row

theorem detachedRow_eq_some {t : Transaction} {row : DetachedRow} (h : detachedRow d t = some row) :
    d.hasInvoice row.matchingInvoiceId = true := by
  rw [detachedRow] at h
  split at h
  · obtain ⟨memo, -, h⟩ := Option.bind_eq_some_iff.mp h
    obtain ⟨i, hi, rfl⟩ := Option.map_eq_some_iff.mp h
    rw [Tables.hasInvoice, List.any_eq_true]
    exact ⟨i, List.mem_of_find?_eq_some hi, decide_eq_true rfl⟩
  · cases h

theorem hasStray_batch (c : Option String) (n : Nat)
    (hok : ∀ v ∈ ((detachedScan false).batch c n d).2, v.2.ok) :
    hasStray ((detachedScan false).batch c n d).1 = hasStray d := by
  refine (sweep_keeps Outcome.ok
    (P := fun s => s.labels = d.labels ∧ hasStray s = hasStray d) ?_ hok
    ⟨rfl, rfl⟩).2
  rintro s ⟨hlabels, hstray⟩ row hrow -
  obtain ⟨t, -, hpick⟩ := mem_select.mp (mem_page hrow).1
  refine ⟨hlabels, (hasStray_repair ?_).trans hstray⟩
  rw [hasInvoice_of_labels hlabels]
  exact detachedRow_eq_some hpick

theorem hasLoose_batch (hrank : 0 < phase.rank) (c : Option String) (n : Nat)
    (hok : ∀ v ∈ ((scanOf first readings false phase).batch c n d).2, v.2.ok) :
    hasLoose ((scanOf first readings false phase).batch c n d).1 = hasLoose d := by
  refine (sweep_keeps Outcome.ok
    (P := fun s => s.labels = d.labels ∧ hasLoose s = hasLoose d) ?_ hok
    ⟨rfl, rfl⟩).2
  rintro s ⟨hlabels, hloose⟩ row hrow hrepaired
  have hlabels' := labels_repair first readings false phase s row
  refine ⟨hlabels'.trans hlabels, Eq.trans ?_ hloose⟩
  cases phase with
  | detachedTransactions => exact absurd hrank (by decide)
  | orphanedTransactions =>
    obtain ⟨t, -, hpick⟩ := mem_select.mp (mem_page hrow).1
    refine hasLoose_repair ?_ hrepaired
    rw [hasInvoice_of_labels hlabels]
    exact (orphanedRow_eq_some hpick).2.2
  | _ => exact any_congr_mem (fun t _ => isLoose_of_labels hlabels' t)

/-! ## The first run -/

/-- The tables while a phase runs: what the position has passed is done, the
    earlier phases are settled, and the strays are those of the start. -/
structure Settling (first : List Transaction → Option Transaction)
    (start : Tables) (phase : RepairPhase) (c : Option String)
    (d : Tables) : Prop where
  covers : ∀ readings, (scanOf first readings false phase).Covers (Done first phase) c d
  before : ∀ p : RepairPhase, 0 < p.rank → p.rank < phase.rank → Settled first p d
  stray : phase.rank = 0 → hasStray d = hasStray start
  loose : 0 < phase.rank → hasLoose d = hasStray start

/-- The tables once a phase is through. -/
structure Through (first : List Transaction → Option Transaction)
    (start : Tables) (phase : RepairPhase) (d : Tables) : Prop where
  settled : ∀ p : RepairPhase, 0 < p.rank → p.rank ≤ phase.rank → Settled first p d
  loose : hasLoose d = hasStray start

variable {start : Tables} {phase : RepairPhase} {c : Option String} {n : Nat}

theorem Settling.loose_batch (h : Settling first start phase c d) (hrank : 0 < phase.rank)
    (hok : ∀ v ∈ ((scanOf first readings false phase).batch c n d).2, v.2.ok) :
    hasLoose ((scanOf first readings false phase).batch c n d).1 = hasStray start :=
  (hasLoose_batch hrank c n hok).trans (h.loose hrank)

theorem Settling.stray_batch (h : Settling first start phase c d) (hrank : phase.rank = 0)
    (hok : ∀ v ∈ ((scanOf first readings false phase).batch c n d).2, v.2.ok) :
    hasStray ((scanOf first readings false phase).batch c n d).1 = hasStray start := by
  cases phase with
  | detachedTransactions => exact (hasStray_batch c n hok).trans (h.stray rfl)
  | _ => exact absurd hrank (by decide)

theorem Settling.full (h : Settling first start phase c d) (hn : 0 < n)
    (hok : ∀ v ∈ ((scanOf first readings false phase).batch c n d).2, v.2.ok)
    (hfull : (scanOf first readings false phase).isFull c n d = true) :
    Settling first start phase ((scanOf first readings false phase).next c n d)
      ((scanOf first readings false phase).batch c n d).1 where
  covers := by
    have hcovers := (scan_establishes first readings phase).covers_next hn
      (h.covers readings) hok hfull
    intro readings'
    cases phase <;> exact hcovers
  before := fun p hp hlt => settled_batch hp hlt (h.before p hp hlt) false c n
  stray := fun hrank => h.stray_batch hrank hok
  loose := fun hrank => h.loose_batch hrank hok

theorem Settling.short (h : Settling first start phase c d)
    (hok : ∀ v ∈ ((scanOf first readings false phase).batch c n d).2, v.2.ok)
    (hshort : (scanOf first readings false phase).isFull c n d = false) :
    Through first start phase ((scanOf first readings false phase).batch c n d).1 := by
  have hsettled : Settled first phase ((scanOf first readings false phase).batch c n d).1 := by
    intro x hx
    rw [← records_scan first readings false] at hx
    exact (scan_establishes first readings phase).done_short (h.covers readings) hok hshort hx
  constructor
  · intro p hp hle
    rcases hle.eq_or_lt with heq | hlt
    · rw [RepairPhase.rank_injective heq]
      exact hsettled
    · exact settled_batch hp hlt (h.before p hp hlt) false c n
  rcases Nat.eq_zero_or_pos phase.rank with hzero | hpos
  · rw [← h.stray_batch hzero hok]
    cases phase with
    | detachedTransactions => exact hasLoose_of_linked hsettled
    | _ => exact absurd hzero (by decide)
  · exact h.loose_batch hpos hok

theorem Through.next (h : Through first start phase d) {next : RepairPhase}
    (hnext : next.rank = phase.rank + 1) : Settling first start next none d where
  covers := by
    intro readings x _ hpassed
    exact absurd nofun hpassed
  before := fun p hp hlt => h.settled p hp (by omega)
  stray := fun hzero => by omega
  loose := fun _ => h.loose

end Keeps

/-! ## Runs -/

section Runs

variable {first : List Transaction → Option Transaction}
  {env : Nat → BatchClock} {W E : RepairState → Prop}

/-- `W` holds of a job on its way and `E` at its end: a turn leads from the
    one to the one or the other, and a call changes nothing else. -/
structure Carries (first : List Transaction → Option Transaction)
    (env : Nat → BatchClock) (W E : RepairState → Prop) : Prop where
  turn : ∀ st, W st → ∃ st' more, st.turn first env = (st', more)
    ∧ ((more = false ∧ E st') ∨ (more = true ∧ W st'))
  status : ∀ st status, W st → W (st.withStatus status)
  batchSize : ∀ st given, W st → W (st.withBatchSize given)
  completed : ∀ st, E st → st.checkpoint.status = .completed

/-- A job on its way or at its end. -/
def Either (W E : RepairState → Prop) (st : RepairState) : Prop :=
  E st ∨ (st.checkpoint.status ≠ .completed ∧ W st)

theorem Carries.loop (h : Carries first env W E) {maxBatches : Option Nat}
    {fuel executed : Nat} {st st' : RepairState} (hst : W st)
    (hloop : loop first env maxBatches fuel executed st = some st') : Either W E st' := by
  induction fuel generalizing executed st with
  | zero => cases hloop
  | succ fuel ih =>
    obtain ⟨next, more, hturn, ⟨rfl, hend⟩ | ⟨rfl, hway⟩⟩ := h.turn st hst
    · rw [Repair.loop, hturn] at hloop
      cases hloop
      exact .inl hend
    cases hreached : reached maxBatches (executed + 1) with
    | true =>
      rw [Repair.loop, hturn] at hloop
      simp only [hreached, if_true] at hloop
      cases hloop
      exact .inr ⟨by rintro ⟨⟩, h.status _ _ hway⟩
    | false =>
      rw [loop_of_turn hturn hreached] at hloop
      exact ih hway hloop

theorem Carries.resume (h : Carries first env W E) {fuel : Nat}
    {call : ResumeOptions} {st st' : RepairState} (hst : Either W E st)
    (hcall : resumeRepairJob first env fuel call st = some st') : Either W E st' := by
  rw [resumeRepairJob] at hcall
  rcases hst with hend | ⟨hstatus, hway⟩
  · rw [if_pos (h.completed st hend)] at hcall
    cases hcall
    exact .inl hend
  rw [if_neg hstatus] at hcall
  exact h.loop (h.status _ _ (h.batchSize _ _ hway)) hcall

/-- **THE RULE FOR RUNS**: from what holds of a new job follows what holds
    after any calls. -/
theorem Carries.runCalls (h : Carries first env W E)
    {fuel defaultBatchSize : Nat} {options : RepairJobOptions}
    {calls : List ResumeOptions} {d : Tables} {st : RepairState}
    (hnew : W (new defaultBatchSize options d))
    (hrun : runCalls first env fuel defaultBatchSize options calls d
      = some st) : Either W E st := by
  obtain ⟨begun, hstart, hcalls⟩ := bind_eq_some_iff.mp hrun
  have hbegun := h.loop (h.status _ _ hnew) hstart
  clear hstart hrun
  induction calls generalizing begun with
  | nil =>
    cases hcalls
    exact hbegun
  | cons call rest ih =>
    rw [foldlM_cons] at hcalls
    obtain ⟨next, hcall, hrest⟩ := bind_eq_some_iff.mp hcalls
    exact ih next hrest (h.resume hbegun hcall)

/-- A live job over the default phases. -/
structure LiveDefault (defaultBatchSize : Nat) (options : RepairJobOptions) : Prop where
  live : options.dryRun = false
  phases : options.phaseList = RepairPhase.order.map RepairPhase.name
  positive : 0 < batchSizeOr options.batchSize defaultBatchSize

theorem LiveDefault.at_new {defaultBatchSize : Nat}
    {options : RepairJobOptions} (h : LiveDefault defaultBatchSize options) (d : Tables) :
    At RepairPhase.order false 0 .detachedTransactions
      (new defaultBatchSize options d) where
  place := rfl
  name := by
    show options.phaseList.headD "" = _
    rw [h.phases]
    rfl
  list := h.phases
  live := h.live
  positive := h.positive

/-- The repaired and the failed rows. -/
def RepairCheckpoint.counts (cp : RepairCheckpoint) : Nat × Nat :=
  (cp.repairedCount, cp.failedCount)

variable {fuel defaultBatchSize : Nat} {options : RepairJobOptions}
  {calls : List ResumeOptions} {d : Tables} {st : RepairState}

/-- **THE RULE FOR PAGES**: what depends on the position, the tables and the
    counts, and goes on from page to page, goes through a whole run. -/
theorem run_of_page {I : RepairPhase → Option String → Tables → Nat × Nat → Prop}
    {F : Tables → Nat × Nat → Prop} (hfull : ∀ i phase st, At RepairPhase.order false i phase st →
      I phase st.checkpoint.cursor st.tables st.checkpoint.counts →
      (st.scan first env phase).isFull st.checkpoint.cursor
        st.checkpoint.batchSize st.tables = true →
      I phase ((st.scan first env phase).next st.checkpoint.cursor
          st.checkpoint.batchSize st.tables) (st.afterPage first env phase).tables
        (st.afterPage first env phase).checkpoint.counts)
    (hshort : ∀ i phase st, At RepairPhase.order false i phase st →
      I phase st.checkpoint.cursor st.tables st.checkpoint.counts →
      (st.scan first env phase).isFull st.checkpoint.cursor
        st.checkpoint.batchSize st.tables = false → (∀ next, RepairPhase.order[i + 1]? = some next →
        I next none (st.afterPage first env phase).tables
          (st.afterPage first env phase).checkpoint.counts)
      ∧ (RepairPhase.order[i + 1]? = none → F (st.afterPage first env phase).tables
          (st.afterPage first env phase).checkpoint.counts))
    (hlive : LiveDefault defaultBatchSize options) (hnew : I .detachedTransactions none d (0, 0))
    (hrun : runCalls first env fuel defaultBatchSize options calls d
      = some st) (hcompleted : st.checkpoint.status = .completed) :
    F st.tables st.checkpoint.counts := by
  have hcarries : Carries first env (fun st => ∃ i phase, At RepairPhase.order false i phase st
        ∧ I phase st.checkpoint.cursor st.tables st.checkpoint.counts)
      (fun st => st.checkpoint.status = .completed ∧ F st.tables st.checkpoint.counts) := by
    refine ⟨?_, ?_, ?_, fun _ h => h.1⟩
    · rintro st ⟨i, phase, hat, hI⟩
      cases hpage : (st.scan first env phase).isFull st.checkpoint.cursor
          st.checkpoint.batchSize st.tables with
      | true =>
        exact ⟨_, true, hat.turn_full hpage, .inr ⟨rfl, i, phase,
          hat.moveTo hat.place _, hfull i phase st hat hI hpage⟩⟩
      | false =>
        obtain ⟨hgoes, hends⟩ := hshort i phase st hat hI hpage
        cases hnext : RepairPhase.order[i + 1]? with
        | some next =>
          exact ⟨_, true, hat.turn_next (by decide) hpage hnext,
            .inr ⟨rfl, i + 1, next, hat.moveTo hnext none, hgoes next hnext⟩⟩
        | none =>
          exact ⟨_, false, hat.turn_last (by decide) hpage hnext, .inl ⟨rfl, rfl, hends hnext⟩⟩
    · rintro st status ⟨i, phase, hat, hI⟩
      exact ⟨i, phase, { hat with }, hI⟩
    rintro st given ⟨i, phase, hat, hI⟩
    exact ⟨i, phase, { hat with positive := batchSizeOr_pos hat.positive }, hI⟩
  have heither := hcarries.runCalls ⟨0, _, hlive.at_new d, hnew⟩ hrun
  exact (heither.resolve_right (fun hway => hway.1 hcompleted)).2

/-! ### The first run -/

section First

variable {i : Nat} {phase : RepairPhase} {phases : List RepairPhase}

theorem At.scan_eq (h : At phases false i phase st) : st.scan first env phase
      = scanOf first (env st.batches).readings false phase := by
  rw [scan, h.live]

theorem ok_of_afterPage (h : (st.afterPage first env phase).checkpoint.failedCount = 0) :
    st.checkpoint.failedCount = 0 ∧ ∀ v ∈ ((st.scan first env phase).batch st.checkpoint.cursor
        st.checkpoint.batchSize st.tables).2, v.2.ok := by
  obtain ⟨hbefore, hpage⟩ := eq_zero_of_add_eq_zero h
  refine ⟨hbefore, ?_⟩
  intro v hv
  have hnot := countP_eq_zero.mp hpage v hv
  rcases v with ⟨id, ⟨action, details⟩ | - | error⟩
  · exact trivial
  · exact trivial
  · exact absurd rfl hnot

theorem first_full {start : Tables} (hat : At RepairPhase.order false i phase st)
    (h : st.checkpoint.failedCount = 0 → Settling first start phase st.checkpoint.cursor st.tables)
    (hfull : (st.scan first env phase).isFull st.checkpoint.cursor
      st.checkpoint.batchSize st.tables = true)
    (hfailed : (st.afterPage first env phase).checkpoint.failedCount = 0) :
    Settling first start phase ((st.scan first env phase).next
        st.checkpoint.cursor st.checkpoint.batchSize st.tables)
      (st.afterPage first env phase).tables := by
  obtain ⟨hbefore, hok⟩ := ok_of_afterPage hfailed
  rw [hat.scan_eq] at hok hfull
  have hnext := (h hbefore).full hat.positive hok hfull
  rw [← hat.scan_eq] at hnext
  exact hnext

theorem first_short {start : Tables} (hat : At RepairPhase.order false i phase st)
    (h : st.checkpoint.failedCount = 0 → Settling first start phase st.checkpoint.cursor st.tables)
    (hshort : (st.scan first env phase).isFull st.checkpoint.cursor
      st.checkpoint.batchSize st.tables = false)
    (hfailed : (st.afterPage first env phase).checkpoint.failedCount = 0) :
    Through first start phase (st.afterPage first env phase).tables := by
  obtain ⟨hbefore, hok⟩ := ok_of_afterPage hfailed
  rw [hat.scan_eq] at hok hshort
  have hall := (h hbefore).short hok hshort
  rw [← hat.scan_eq] at hall
  exact hall

theorem eq_of_last (hplace : RepairPhase.order[i]? = some phase)
    (hlast : RepairPhase.order[i + 1]? = none) : phase = .inconsistentJobs := by
  have hrank := rank_of_place hplace
  have hlt := (List.getElem?_eq_some_iff.mp hplace).1
  have hge := List.getElem?_eq_none_iff.mp hlast
  have hfive : RepairPhase.order.length = 5 := rfl
  have hfour : RepairPhase.inconsistentJobs.rank = 4 := rfl
  exact RepairPhase.rank_injective (by omega)

/-- **THE FIRST RUN**: completed and without a failed row, it leaves nothing
    to do for the phases, the first one aside, and a transaction is open to be
    linked just if there was a stray at the start. -/
theorem first_through (hlive : LiveDefault defaultBatchSize options)
    (hrun : runCalls first env fuel defaultBatchSize options calls d
      = some st) (hcompleted : st.checkpoint.status = .completed)
    (hfailed : st.checkpoint.failedCount = 0) : Through first d .inconsistentJobs st.tables := by
  refine run_of_page (I := fun phase c d' counts => counts.2 = 0 → Settling first d phase c d')
    (F := fun d' counts => counts.2 = 0 → Through first d .inconsistentJobs d')
    ?_ ?_ hlive ?_ hrun hcompleted hfailed
  · intro i phase st hat h hfull hfailed
    exact first_full hat h hfull hfailed
  · intro i phase st hat h hshort
    constructor
    · intro next hnext hfailed
      have hrank := rank_of_place hat.place
      have hrank' := rank_of_place hnext
      exact (first_short hat h hshort hfailed).next (by omega)
    intro hlast hfailed
    obtain rfl := eq_of_last hat.place hlast
    exact first_short hat h hshort hfailed
  · intro _
    refine ⟨?_, ?_, fun _ => rfl, ?_⟩
    · intro readings x _ hpassed
      exact absurd nofun hpassed
    · intro p _ hlt
      exact absurd hlt (not_lt_zero _)
    intro hpos
    exact absurd hpos (lt_irrefl _)

theorem Through.settled_all (h : Through first d .inconsistentJobs st.tables)
    (hstray : hasStray d = false) (p : RepairPhase) : Settled first p st.tables := by
  rcases Nat.eq_zero_or_pos p.rank with hzero | hpos
  · obtain rfl : p = .detachedTransactions := RepairPhase.rank_injective hzero
    refine (linked_iff_of_isolated ?_).mp (h.loose.trans hstray)
    exact h.settled .orphanedTransactions (by decide) (by decide)
  · exact h.settled p hpos (by cases p <;> decide)

end First

/-! ### The second run -/

section Second

/-- A job that has repaired nothing. -/
def Still (d : Tables) (st : RepairState) : Prop :=
  st.checkpoint.repairedCount = 0 ∧ st.tables = d

variable {phase : RepairPhase} {j : JobRow} {i : Nat}

theorem Still.afterPage {phases : List RepairPhase} (hsettled : Settled first phase d)
    (hquiet : ∀ n, Quiet (env n).readings d) (hat : At phases false i phase st) (h : Still d st) :
    Still d (st.afterPage first env phase) := by
  obtain ⟨hrepaired, rfl⟩ := h
  have hidle : ∀ row ∈ (st.scan first env phase).page st.checkpoint.cursor
      st.checkpoint.batchSize st.tables,
      (st.scan first env phase).repair st.tables row = (st.tables, .skipped) := by
    intro row hrow
    have hselected := (mem_page hrow).1
    rw [hat.scan_eq] at hselected ⊢
    exact repair_idle hsettled (hquiet st.batches) hselected
  obtain ⟨htables, hvisits⟩ := sweep_idle hidle
  refine ⟨?_, htables⟩
  show st.checkpoint.repairedCount + countP isRepaired
    ((st.scan first env phase).batch _ _ _).2 = 0
  rw [hrepaired, zero_add, countP_eq_zero]
  intro v hv
  have hskipped := hvisits v hv
  rw [isRepaired, hskipped]
  exact Bool.false_ne_true

/-- **NOTHING TO DO**: over settled phases, as long as no lease ends, a run
    repairs nothing. -/
theorem still_of_settled (hsettled : ∀ p, Settled first p d)
    (hquiet : ∀ n, Quiet (env n).readings d) (hlive : LiveDefault defaultBatchSize options)
    (hrun : runCalls first env fuel defaultBatchSize options calls d
      = some st) (hcompleted : st.checkpoint.status = .completed) : Still d st := by
  refine run_of_page (I := fun _ _ d' counts => counts.1 = 0 ∧ d' = d)
    (F := fun d' counts => counts.1 = 0 ∧ d' = d)
    ?_ ?_ hlive ⟨rfl, rfl⟩ hrun hcompleted
  · intro i phase st hat h _
    exact Still.afterPage (hsettled phase) hquiet hat h
  intro i phase st hat h _
  have hstill := Still.afterPage (hsettled phase) hquiet hat h
  exact ⟨fun _ _ => hstill, fun _ => hstill⟩

theorem repaired_afterPage (h : 0 < st.checkpoint.repairedCount) :
    0 < (st.afterPage first env phase).checkpoint.repairedCount :=
  lt_of_lt_of_le h (le_add_right _ _)

theorem repaired_of_visit {visit : String × Outcome}
    (hmem : visit ∈ ((st.scan first env phase).batch st.checkpoint.cursor
      st.checkpoint.batchSize st.tables).2) (h : isRepaired visit = true) :
    0 < (st.afterPage first env phase).checkpoint.repairedCount :=
  lt_of_lt_of_le (countP_pos_iff.mpr ⟨visit, hmem, h⟩) (le_add_left _ _)

/-- **A TRANSACTION TO LINK** is linked on the first page. -/
theorem repairs_of_detached (hopen : ¬ ∀ t ∈ d.transactions.rows, detachedRow d t = none)
    (hlive : LiveDefault defaultBatchSize options)
    (hrun : runCalls first env fuel defaultBatchSize options calls d
      = some st) (hcompleted : st.checkpoint.status = .completed) :
    0 < st.checkpoint.repairedCount := by
  have hpage : ∀ i phase (st : RepairState), At RepairPhase.order false i phase st →
      (0 < st.checkpoint.repairedCount
        ∨ (phase = .detachedTransactions ∧ st.checkpoint.cursor = none ∧ st.tables = d)) →
      0 < (st.afterPage first env phase).checkpoint.repairedCount := by
    rintro i phase st hat (hrepaired | ⟨rfl, hcursor, rfl⟩)
    · exact repaired_afterPage hrepaired
    obtain ⟨t, ht, hpick⟩ := not_forall₂.mp hopen
    obtain ⟨row, hrow⟩ := ne_none_iff_exists'.mp hpick
    have hne : (st.scan first env .detachedTransactions).page none
        st.checkpoint.batchSize st.tables ≠ [] := by
      rw [hat.scan_eq, page, ahead_none]
      intro hnil
      rcases take_eq_nil_iff.mp hnil with hzero | hnil
      · exact absurd hzero hat.positive.ne'
      have hmem : row ∈ (detachedScan false).select st.tables :=
        mem_select.mpr ⟨t, ht, hrow⟩
      exact absurd hmem (hnil ▸ not_mem_nil)
    obtain ⟨linked, hlinked⟩ := exists_mem_of_ne_nil _ hne
    rw [← hcursor] at hlinked
    obtain ⟨d', hvisit⟩ := visit_of_mem
      (S := st.scan first env .detachedTransactions) (s := st.tables) hlinked
    refine repaired_of_visit hvisit ?_
    rw [hat.scan_eq]
    rfl
  refine run_of_page (I := fun phase c d' counts => 0 < counts.1
      ∨ (phase = .detachedTransactions ∧ c = none ∧ d' = d))
    (F := fun _ counts => 0 < counts.1)
    ?_ ?_ hlive (.inr ⟨rfl, rfl, rfl⟩) hrun hcompleted
  · intro i phase st hat h _
    exact .inl (hpage i phase st hat h)
  intro i phase st hat h _
  have hrepaired := hpage i phase st hat h
  exact ⟨fun _ _ => .inl hrepaired, fun _ => hrepaired⟩

theorem jobs_batch (h : phase ≠ .inconsistentJobs)
    (readings : Readings) (dry : Bool) (c : Option String) (n : Nat) (d : Tables) :
    ((scanOf first readings dry phase).batch c n d).1.jobs = d.jobs := by
  refine sweep_keeps (P := fun s : Tables => s.jobs = d.jobs)
    (fun _ => True) ?_ (fun _ _ => trivial) rfl
  intro s hs row _ _
  cases phase with
  | inconsistentJobs => exact absurd rfl h
  | _ => exact hs

theorem JobRow.repair_stale {readings : Readings} (hrunning : j.status = .running)
    (hstale : j.lockedUntil.all (readings.stale j.id) = true) (d : Tables) :
    isRepaired (j.id, (JobRow.repair readings false d j).2) = true := by
  have hnames : (execute false d.jobs (j.statements readings)).2 = _ := j.execute_names d.jobs
  obtain ⟨action, rest, hcons⟩ : ∃ action rest,
      (j.statements readings).map Prod.fst = action :: rest := by
    rw [JobRow.statements, if_pos ⟨hrunning, hstale⟩]
    exact ⟨_, _, rfl⟩
  rw [isRepaired, JobRow.repair, hnames, hcons]
  rfl

theorem lapsed_page (hat : At RepairPhase.order false i .inconsistentJobs st)
    (hj : j ∈ st.tables.jobs.rows) (hrunning : j.status = .running)
    (hlapsed : j.lockedUntil.all (env st.batches).readings.lapsed = true
      ∧ j.lockedUntil.all ((env st.batches).readings.stale j.id) = true)
    (hafter : Paging.After st.checkpoint.cursor j.id) :
    0 < (st.afterPage first env .inconsistentJobs).checkpoint.repairedCount
      ∨ ((st.scan first env .inconsistentJobs).isFull st.checkpoint.cursor
          st.checkpoint.batchSize st.tables = true
        ∧ j ∈ (st.afterPage first env .inconsistentJobs).tables.jobs.rows
        ∧ Paging.After ((st.scan first env .inconsistentJobs).next
          st.checkpoint.cursor st.checkpoint.batchSize st.tables) j.id) := by
  have hscan : st.scan first env .inconsistentJobs
      = jobScan false (env st.batches).readings := hat.scan_eq
  have hpick : jobRow (env st.batches).readings.lapsed j = some j := by
    rw [jobRow, decide_eq_true hrunning, hlapsed.1]
    rfl
  have hahead : j ∈ (jobScan false (env st.batches).readings).ahead
      st.checkpoint.cursor st.tables :=
    mem_ahead.mpr ⟨mem_select.mpr ⟨j, hj, hpick⟩, hafter⟩
  by_cases hpage : j ∈ (jobScan false (env st.batches).readings).page
      st.checkpoint.cursor st.checkpoint.batchSize st.tables
  · left
    obtain ⟨d', hvisit⟩ := visit_of_mem
      (S := jobScan false (env st.batches).readings) (s := st.tables) hpage
    refine repaired_of_visit (hscan ▸ hvisit) ?_
    rw [hscan]
    exact JobRow.repair_stale hrunning hlapsed.2 d'
  · right
    have hfull : (jobScan false (env st.batches).readings).isFull
        st.checkpoint.cursor st.checkpoint.batchSize st.tables = true := by
      by_contra hshort
      rw [page_short (Bool.eq_false_iff.mpr hshort)] at hpage
      exact hpage hahead
    have hother : j.id ∉ ((jobScan false (env st.batches).readings).page
        st.checkpoint.cursor st.checkpoint.batchSize st.tables).map
          JobRow.id := by
      intro hmem
      obtain ⟨row, hrow, hid⟩ := mem_map.mp hmem
      obtain ⟨x, hx, hpicked⟩ := mem_select.mp (mem_page hrow).1
      obtain rfl : row = x := jobRow_eq_some hpicked
      have hsame : row = j := eq_of_id (S := jobScan false (env st.batches).readings) hx hj hid
      exact hpage (hsame ▸ hrow)
    have hlater : j ∈ (jobScan false (env st.batches).readings).ahead
        ((jobScan false (env st.batches).readings).next st.checkpoint.cursor
          st.checkpoint.batchSize st.tables) st.tables := by
      rw [ahead_next hat.positive hfull]
      rw [← take_append_drop st.checkpoint.batchSize (ahead _ _ _)] at hahead
      exact (mem_append.mp hahead).resolve_left hpage
    refine ⟨hscan ▸ hfull, ?_, ?_⟩
    · show j ∈ ((st.scan first env .inconsistentJobs).batch _ _ _).1.jobs.rows
      rw [hscan]
      exact (mem_sweep (S := jobScan false (env st.batches).readings) hother).mpr hj
    rw [hscan]
    exact (mem_ahead.mp hlater).2

/-- **A LEASE THAT HAS ENDED** is found when its job comes up. -/
theorem repairs_of_lapsed (hj : j ∈ d.jobs.rows) (hrunning : j.status = .running)
    (hlapsed : ∀ n, j.lockedUntil.all (env n).readings.lapsed = true
      ∧ j.lockedUntil.all ((env n).readings.stale j.id) = true)
    (hlive : LiveDefault defaultBatchSize options)
    (hrun : runCalls first env fuel defaultBatchSize options calls d
      = some st) (hcompleted : st.checkpoint.status = .completed) :
    0 < st.checkpoint.repairedCount := by
  refine run_of_page (I := fun phase c d' counts => 0 < counts.1 ∨ (j ∈ d'.jobs.rows
        ∧ (phase = .inconsistentJobs → Paging.After c j.id)))
    (F := fun _ counts => 0 < counts.1)
    ?_ ?_ hlive (.inr ⟨hj, by rintro ⟨⟩⟩) hrun hcompleted
  · rintro i phase st hat (hrepaired | ⟨hmem, hafter⟩) _
    · exact .inl (repaired_afterPage hrepaired)
    by_cases hphase : phase = .inconsistentJobs
    · subst hphase
      rcases lapsed_page hat hmem hrunning (hlapsed st.batches)
          (hafter rfl) with hrepaired | ⟨-, hmem', hafter'⟩
      · exact .inl hrepaired
      · exact .inr ⟨hmem', fun _ => hafter'⟩
    refine .inr ⟨?_, fun hno => absurd hno hphase⟩
    show j ∈ ((st.scan first env phase).batch _ _ _).1.jobs.rows
    rw [scan, jobs_batch hphase]
    exact hmem
  · rintro i phase st hat (hrepaired | ⟨hmem, hafter⟩) hshort
    · exact ⟨fun _ _ => .inl (repaired_afterPage hrepaired), fun _ => repaired_afterPage hrepaired⟩
    by_cases hphase : phase = .inconsistentJobs
    · subst hphase
      rcases lapsed_page hat hmem hrunning (hlapsed st.batches)
          (hafter rfl) with hrepaired | ⟨hfull, -, -⟩
      · exact ⟨fun _ _ => .inl hrepaired, fun _ => hrepaired⟩
      · cases hshort.symm.trans hfull
    constructor
    · intro next _
      refine .inr ⟨?_, by rintro _ _ ⟨⟩⟩
      show j ∈ ((st.scan first env phase).batch _ _ _).1.jobs.rows
      rw [scan, jobs_batch hphase]
      exact hmem
    intro hlast
    exact absurd (eq_of_last hat.place hlast) hphase

end Second

end Runs

/-- Each clock tells of a lease the same throughout a run. -/
def Steady (env : Nat → BatchClock) (d : Tables) : Prop :=
  ∀ j ∈ d.jobs.rows, j.status = .running → ∀ n m, j.lockedUntil.all (env n).readings.lapsed
        = j.lockedUntil.all (env m).readings.lapsed
      ∧ j.lockedUntil.all ((env n).readings.stale j.id)
        = j.lockedUntil.all ((env m).readings.stale j.id)

/-- **A SECOND REPAIR REPAIRS NOTHING** just if at the start no transaction
    with a broken reference had the memo of an invoice, and no lease has ended
    since (for clocks that tell of a lease the same throughout the run). -/
theorem repair_fixpoint_iff (first : List Transaction → Option Transaction)
    (env env' : Nat → BatchClock) (fuel fuel' defaultBatchSize : Nat)
    (options options' : RepairJobOptions) (calls calls' : List ResumeOptions)
    (d : Tables) (st st' : RepairState)
    (hlive : LiveDefault defaultBatchSize options)
    (hlive' : LiveDefault defaultBatchSize options')
    (hrun : runCalls first env fuel defaultBatchSize options calls d = some st)
    (hcompleted : st.checkpoint.status = .completed)
    (hfailed : st.checkpoint.failedCount = 0)
    (hrun' : runCalls first env' fuel' defaultBatchSize options' calls' st.tables = some st')
    (hcompleted' : st'.checkpoint.status = .completed) :
    (hasStray d = false ∧ (∀ n, Quiet (env' n).readings st.tables) →
        st'.checkpoint.repairedCount = 0 ∧ st'.tables = st.tables)
      ∧ (st'.checkpoint.repairedCount = 0 ∧ st'.tables = st.tables → hasStray d = false
          ∧ (Steady env' st.tables → ∀ n, Quiet (env' n).readings st.tables)) := by
  have hthrough := first_through hlive hrun hcompleted hfailed
  constructor
  · rintro ⟨hstray, hquiet⟩
    exact still_of_settled (hthrough.settled_all hstray) hquiet hlive' hrun' hcompleted'
  rintro ⟨hnothing, -⟩
  constructor
  · rw [← hthrough.loose, linked_iff_of_isolated
      (hthrough.settled .orphanedTransactions (by decide) (by decide))]
    by_contra hopen
    have hrepaired := repairs_of_detached hopen hlive' hrun' hcompleted'
    omega
  intro hsteady n j hj hrunning hended
  have hrepaired := repairs_of_lapsed hj hrunning ?_ hlive' hrun' hcompleted'
  · omega
  intro m
  obtain ⟨hlapsed, hstale⟩ := hsteady j hj hrunning m n
  rw [hlapsed, hstale]
  exact hended

/-- What two runs over the default phases come to: the states of the first
    and of the second, the failed rows of the first, the repaired rows of
    both, and the jobs. -/
def twoRuns (d : Tables) : Option (RepairJobStatus × RepairJobStatus × Nat × Nat × Nat × Nat) :=
  (runCalls head? (fun _ => .still 0) 9 100 {} [] d).bind (fun st =>
    (runCalls head? (fun _ => .still 0) 9 100 {} [] st.tables).map
      (fun st' => (st.checkpoint.status, st'.checkpoint.status,
        st.checkpoint.failedCount, st.checkpoint.repairedCount,
        st'.checkpoint.repairedCount, st.tables.jobs.rows.length)))

theorem liveDefault_options : LiveDefault 100 {} where
  live := rfl
  phases := rfl
  positive := by decide

/-- The first run links a transaction, the second does nothing. -/
theorem repair_fixpoint_linked : ∃ st st',
    runCalls head? (fun _ => .still 0) 9 100 {} [] (linkTables none) = some st
      ∧ st.checkpoint.repairedCount = 1
      ∧ runCalls head? (fun _ => .still 0) 9 100 {} [] st.tables = some st'
      ∧ st'.checkpoint.repairedCount = 0 ∧ st'.tables = st.tables := by
  have hruns : twoRuns (linkTables none)
      = some (.completed, .completed, 0, 1, 0, 0) := by decide +kernel
  obtain ⟨st, hrun, hrest⟩ := bind_eq_some_iff.mp hruns
  obtain ⟨st', hrun', hview⟩ := map_eq_some_iff.mp hrest
  simp only [Prod.mk.injEq, length_eq_zero_iff] at hview
  obtain ⟨hcompleted, hcompleted', hfailed, hrepaired, -, hjobs⟩ := hview
  refine ⟨st, st', hrun, hrepaired, hrun', ?_⟩
  refine (repair_fixpoint_iff head? _ _ 9 9 100 {} {} [] [] _ st st'
    liveDefault_options liveDefault_options hrun hcompleted hfailed hrun'
    hcompleted').1 ⟨by decide +kernel, ?_⟩
  intro n j hj
  rw [hjobs] at hj
  cases hj

/-- **THE SECOND RUN LINKS WHAT THE FIRST TOOK AWAY**. -/
theorem stray_linked_by_second_run : hasStray (linkTables (some "gone")) = true
      ∧ twoRuns (linkTables (some "gone")) = some (.completed, .completed, 0, 1, 1, 0) := by
  constructor
  · decide +kernel
  · decide +kernel

end Repair

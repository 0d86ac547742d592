import Inqutum.RepairReplayProofs

/-!
# What a dry run foretells

A dry run selects from the tables as they are; the phases of a live run
select from what the phases before them have left.

* `orphaned_transactions` before `detached_transactions`: a transaction
  that loses its broken reference is then linked by its memo.
* `detached_transactions` before `inconsistent_invoices`: a transaction
  that is linked is then joined to its invoice.

`Foretellable` says of the tables at the start that neither matters, which
is the case exactly if the dry run reports what the live run does.
-/

namespace Repair

open Invoices (InvoiceStatus)
open List Option Nat Transaction RepairActionLogEntry RepairPhase

/-! ## Lists of rows -/

section Lists

variable {α β γ : Type} {l : List α} {f g : α → Option β}

/-- A list that keeps more elements is longer, unless it keeps the same. -/
theorem filterMap_length_le (h : ∀ x ∈ l, (f x).isSome = true → (g x).isSome = true) :
    (l.filterMap f).length ≤ (l.filterMap g).length
      ∧ ((l.filterMap g).length = (l.filterMap f).length →
        ∀ x ∈ l, (g x).isSome = (f x).isSome) := by
  induction l with
  | nil => exact ⟨le_refl _, nofun⟩
  | cons x rest ih =>
    obtain ⟨hle, hsame⟩ := ih (fun y hy => h y (.tail _ hy))
    have hfirst := h x (.head _)
    rw [filterMap_cons, filterMap_cons]
    cases hf : f x with
    | some v =>
      rw [hf] at hfirst
      obtain ⟨w, hg⟩ := isSome_iff_exists.mp (hfirst rfl)
      rw [hg]
      refine ⟨succ_le_succ hle, ?_⟩
      intro heq y hy
      rcases mem_cons.mp hy with rfl | hy
      · rw [hf, hg]
        rfl
      · exact hsame (Nat.succ.inj heq) y hy
    | none =>
      cases hg : g x with
      | none =>
        refine ⟨hle, ?_⟩
        intro heq y hy
        rcases mem_cons.mp hy with rfl | hy
        · rw [hf, hg]
        · exact hsame heq y hy
      | some w =>
        -- one more, so the lengths differ
        refine ⟨le_succ_of_le hle, ?_⟩
        intro heq
        have hmore : (rest.filterMap g).length + 1 = (rest.filterMap f).length := heq
        omega

/-- Rows that carry the key of their record are known from the list. -/
theorem filterMap_eq_of_keys {key : α → γ} {keyOf : β → γ}
    (hkeys : ∀ x ∈ l, ∀ y ∈ l, key x = key y → x = y) (hf : ∀ x v, f x = some v → keyOf v = key x)
    (hg : ∀ x v, g x = some v → keyOf v = key x)
    (h : l.filterMap f = l.filterMap g) : ∀ x ∈ l, f x = g x := by
  have hone : ∀ {f g : α → Option β}, (∀ x v, f x = some v → keyOf v = key x) →
      (∀ x v, g x = some v → keyOf v = key x) →
      l.filterMap f = l.filterMap g → ∀ x ∈ l, ∀ v, f x = some v →
      g x = some v := by
    intro f g hf hg h x hx v hv
    have hmem : v ∈ l.filterMap g := by
      rw [← h]
      exact mem_filterMap.mpr ⟨x, hx, hv⟩
    obtain ⟨y, hy, hv'⟩ := mem_filterMap.mp hmem
    rw [hkeys x hx y hy ((hf x v hv).symm.trans (hg y v hv'))]
    exact hv'
  intro x hx
  cases hfx : f x with
  | some v => exact (hone hf hg h x hx v hfx).symm
  | none =>
    cases hgx : g x with
    | none => rfl
    | some v => cases hfx.symm.trans (hone hg hf h.symm x hx v hgx)

theorem append_inj_of_kind {p : α → Bool} {a a' b b' : List α}
    (ha : ∀ x ∈ a, p x = true) (ha' : ∀ x ∈ a', p x = true)
    (hb : ∀ x ∈ b, p x = false) (hb' : ∀ x ∈ b', p x = false)
    (h : a ++ b = a' ++ b') : a = a' ∧ b = b' := by
  have hfilter : ∀ {a b : List α}, (∀ x ∈ a, p x = true) →
      (∀ x ∈ b, p x = false) → (a ++ b).filter p = a := by
    intro a b ha hb
    have hnil : b.filter p = [] := filter_eq_nil_iff.mpr fun x hx => by
      rw [hb x hx]
      exact Bool.false_ne_true
    rw [filter_append, filter_eq_self.mpr ha, hnil, append_nil]
  have hsame : a = a' := by rw [← hfilter ha hb, h, hfilter ha' hb']
  refine ⟨hsame, ?_⟩
  rw [hsame] at h
  exact append_cancel_left h

end Lists

/-! ## What a phase finds, at the start and in its turn -/

/-- The id and the action of a row that was repaired. -/
def deedOf (visit : String × Outcome) : Option (String × String) :=
  match visit.2 with
  | .repaired action _ => some (visit.1, action)
  | _ => none

/-- A transaction of the lateral join leaves an invoice selected as another
    does, and offers a `PAID` one a hash if the other does. -/
structure SameFinding (i : Invoice) (tx tx' : Option Transaction) : Prop where
  selected : isInconsistent i tx = isInconsistent i tx'
  offered : isInconsistent i tx = true → i.status = some .paid →
    (InvoiceRow.offeredHash ⟨i, tx⟩).isSome = (InvoiceRow.offeredHash ⟨i, tx'⟩).isSome

/-- What some phases write is nothing to a phase that comes after them. -/
def Unmoved (first : List Transaction → Option Transaction) (d : Tables)
    (done : List RepairPhase) : RepairPhase → Prop
  | .detachedTransactions => .orphanedTransactions ∈ done → hasStray d = false
  | .inconsistentInvoices => ∀ i ∈ d.invoices.rows, SameFinding i (linkedTransaction first d i)
        (linkedTransaction first (d.replay done) i)
  | _ => True

/-- **NO PHASE IS MOVED** by those before it. -/
def Foretellable (first : List Transaction → Option Transaction)
    (phases : List RepairPhase) (d : Tables) : Prop :=
  ∀ before phase after, phases = before ++ phase :: after → Unmoved first d before phase

section Finds

variable {first : List Transaction → Option Transaction} {readings : Readings}
  {d d' : Tables} {done : List RepairPhase} {t : Transaction} {i : Invoice} {phase : RepairPhase}

/-- A transaction that was neither linked nor isolated is as it was. -/
theorem Transaction.replay_still
    (h : ∀ phase ∈ done, t.after d phase = t) : t.replay d done = t := by
  induction done with
  | nil => rfl
  | cons phase rest ih =>
    rw [replay, foldl_cons, h phase (.head _)]
    exact ih (fun phase hmem => h phase (.tail _ hmem))

theorem Transaction.after_of_place
    (hdetached : phase = .detachedTransactions → detachedRow d t = none)
    (horphaned : phase = .orphanedTransactions → orphanedRow d t.id t.txHash t.invoiceId = none) :
    t.after d phase = t := by
  cases phase with
  | detachedTransactions => rw [Transaction.after, Transaction.linked, hdetached rfl]
  | orphanedTransactions => rw [Transaction.after, Transaction.isolated, horphaned rfl]
  | _ => rfl

/-- What the second phase selects is not moved. -/
theorem orphanedRow_replay (hno : .orphanedTransactions ∉ done) (t : Transaction) :
    orphanedRow d (t.replay d done).id (t.replay d done).txHash (t.replay d done).invoiceId
      = orphanedRow d t.id t.txHash t.invoiceId := by
  induction done generalizing t with
  | nil => rfl
  | cons phase rest ih =>
    rw [mem_cons, not_or] at hno
    refine (ih hno.2 (t.after d phase)).trans ?_
    cases phase with
    | detachedTransactions =>
      rcases t.linked_cases d with heq | ⟨row, hrow, heq⟩
      · rw [Transaction.after, heq]
      -- neither what has no reference nor what is linked is broken
      rw [Transaction.after, heq, (detached_of_row hrow).1]
      exact if_pos (detachedRow_eq_some hrow)
    | orphanedTransactions => exact absurd rfl hno.1
    | _ => rfl

/-- A reference may be taken away before the first phase, and no more. -/
theorem replay_unlinked (hno : .detachedTransactions ∉ done) (t : Transaction) :
    t.replay d done = t ∨ ∃ row metadata, orphanedRow d t.id t.txHash t.invoiceId = some row
      ∧ .orphanedTransactions ∈ done
      ∧ t.replay d done = { t with invoiceId := none, metadata := some metadata } := by
  induction done generalizing t with
  | nil => exact .inl rfl
  | cons phase rest ih =>
    rw [mem_cons, not_or] at hno
    by_cases hsame : t.after d phase = t
    · have hrest : t.replay d (phase :: rest) = t.replay d rest := by
        rw [replay, foldl_cons, hsame]
        rfl
      rw [hrest]
      rcases ih hno.2 t with heq | ⟨row, metadata, hrow, hmem, heq⟩
      · exact .inl heq
      · exact .inr ⟨row, metadata, hrow, .tail _ hmem, heq⟩
    · cases phase with
      | orphanedTransactions =>
        rcases t.isolated_cases d with heq | ⟨row, metadata, hrow, heq⟩
        · exact absurd heq hsame
        refine .inr ⟨row, metadata, hrow, (.head _), ?_⟩
        -- the rest finds nothing in a transaction without a reference
        have hrest : (t.after d .orphanedTransactions).replay d rest
            = t.after d .orphanedTransactions := by
          refine replay_still ?_
          intro phase hmem
          refine after_of_place ?_ ?_
          · rintro rfl
            exact absurd hmem hno.2
          intro _
          rw [Transaction.after, heq]
          rfl
        exact hrest.trans heq
      | detachedTransactions => exact absurd rfl hno.1
      | _ => exact absurd rfl hsame

theorem linked_replay (hi : i ∈ d.invoices.rows) (h : t.invoiceId = some i.id) :
    t.replay d done = t := by
  have hthere : d.hasInvoice i.id = true := any_eq_true.mpr ⟨i, hi, decide_eq_true rfl⟩
  refine replay_still ?_
  intro phase _
  refine after_of_place ?_ ?_
  · intro _
    refine (detachedRow_eq_none d t).mpr ?_
    rintro ⟨hnone, -⟩
    cases h.symm.trans hnone
  intro _
  rw [h]
  exact if_pos hthere

/-- The lateral join finds no less after the earlier phases. -/
theorem linkedTransaction_isSome (hfirst : ∀ l, first l = none ↔ l = []) (hi : i ∈ d.invoices.rows)
    (h : (linkedTransaction first d i).isSome = true) :
    (linkedTransaction first (d.replay done) i).isSome = true := by
  have hsome : ∀ l, (first l).isSome = true ↔ l ≠ [] := by
    intro l
    rw [← not_iff_not, Bool.not_eq_true, isSome_eq_false_iff, isNone_iff_eq_none, hfirst l, not_not]
  rw [linkedTransaction, hsome] at h ⊢
  obtain ⟨t, ht⟩ := exists_mem_of_ne_nil _ h
  obtain ⟨hmem, hjoin⟩ := mem_filter.mp ht
  have hmem' : t.replay d done ∈ (d.replay done).transactions.rows := mem_map_of_mem hmem
  refine ne_nil_of_mem (mem_filter.mpr ⟨hmem', ?_⟩)
  by_cases hlinked : t.invoiceId = some i.id
  · rw [linked_replay hi hlinked]
    exact hjoin
  rw [decide_eq_false hlinked, Bool.false_or] at hjoin
  rw [(t.replay_columns d done).2.1, hjoin, Bool.or_true]

variable {tx tx' : Option Transaction}

/-- **AN INVOICE IS SELECTED NO LESS** after the earlier phases. -/
theorem isInconsistent_mono (hsome : tx.isSome = true → tx'.isSome = true)
    (h : isInconsistent i tx = true) : isInconsistent i tx' = true := by
  rw [isInconsistent, Bool.or_eq_true, Bool.or_eq_true] at h ⊢
  rcases h with (h | h) | h
  · exact .inl (.inl h)
  · rw [Bool.and_eq_true] at h
    refine .inl (Or.inr ?_)
    rw [h.1, hsome h.2]
    rfl
  · exact .inr h

/-- The same rows come to the same. -/
def SameDeeds (visits visits' : List (String × Outcome)) : Prop :=
  visits.filterMap deedOf = visits'.filterMap deedOf ∧ visits.length = visits'.length

theorem report_of_select (h : (scanOf first readings true phase).select d'
      = (scanOf first readings true phase).select d) :
    report first readings phase d' = report first readings phase d := by
  rw [report, report, h]

theorem report_orphaned (h : Kept d done d') (hno : .orphanedTransactions ∉ done) :
    report first readings .orphanedTransactions d'
      = report first readings .orphanedTransactions d := by
  have hselect : (orphanedTransactionScan true).select d'
      = (orphanedTransactionScan true).select d := by
    show d'.transactions.rows.filterMap _ = d.transactions.rows.filterMap _
    rw [h.transactions]
    show (d.transactions.rows.map _).filterMap _ = _
    rw [filterMap_map]
    refine filterMap_congr ?_
    intro t _
    exact (orphanedRow_of_labels h.labels _ _ _).trans (orphanedRow_replay hno t)
  exact report_of_select hselect

theorem report_events (h : Kept d done d') (hno : .orphanedPaymentEvents ∉ done) :
    report first readings .orphanedPaymentEvents d'
      = report first readings .orphanedPaymentEvents d := by
  refine report_of_select ?_
  show d'.paymentEvents.rows.filterMap _ = d.paymentEvents.rows.filterMap _
  rw [h.events hno]
  refine filterMap_congr ?_
  intro e _
  exact orphanedRow_of_labels h.labels _ _ _

theorem report_jobs (h : Kept d done d') (hno : .inconsistentJobs ∉ done) :
    report first readings .inconsistentJobs d' = report first readings .inconsistentJobs d := by
  refine report_of_select ?_
  show d'.jobs.rows.filterMap _ = d.jobs.rows.filterMap _
  rw [h.jobs hno]
  rfl

/-- What the first phase selects is selected still. -/
theorem detachedRow_replay (hno : .detachedTransactions ∉ done)
    (h : (detachedRow d t).isSome = true) : t.replay d done = t := by
  obtain ⟨row, hrow⟩ := isSome_iff_exists.mp h
  rcases replay_unlinked hno t with heq | ⟨orphan, metadata, horphan, -, -⟩
  · exact heq
  -- a reference that is broken is not missing
  have hsome := (orphanedRow_eq_some horphan).2.1
  rw [(detached_of_row hrow).1] at hsome
  cases hsome

/-- **WHAT MOVES THE FIRST PHASE IS A STRAY**. -/
theorem detachedRow_moved (h : Kept d done d') (hno : .detachedTransactions ∉ done)
    (ht : t ∈ d.transactions.rows) :
    (detachedRow d (t.replay d done)).isSome = (detachedRow d t).isSome
      ↔ ¬ (.orphanedTransactions ∈ done ∧ isStray d t = true) := by
  have hstray : isStray d t = true → (detachedRow d t).isSome = false
      ∧ t.invoiceId ≠ none ∧ d.hasMemo t.memo = true := by
    intro hstray
    rw [isStray, Bool.and_eq_true] at hstray
    have hsome : t.invoiceId ≠ none := by
      intro hnone
      rw [hnone] at hstray
      cases hstray.1
    refine ⟨?_, hsome, hstray.2⟩
    rw [isSome_eq_false_iff, isNone_iff_eq_none, detachedRow_eq_none]
    exact fun hrow => hsome hrow.1
  constructor
  · rintro hsame ⟨hdone, hyes⟩
    obtain ⟨hrow, hsome, hmemo⟩ := hstray hyes
    -- the reference is gone, and the memo is that of an invoice
    have hmem : t.replay d done ∈ d'.transactions.rows := by
      rw [h.transactions]
      exact mem_map_of_mem ht
    have hsettled := h.settled hdone _ hmem
    rw [hrow, isSome_eq_false_iff, isNone_iff_eq_none,
      detachedRow_eq_none, (t.replay_columns d done).2.2] at hsame
    rcases replay_unlinked hno t with heq | ⟨row, metadata, hrow', -, heq⟩
    · rw [heq] at hsettled
      obtain ⟨id, hid⟩ := ne_none_iff_exists'.mp hsome
      rw [isStray, hid, any_some, Bool.and_eq_true, Bool.not_eq_true'] at hyes
      rw [orphanedRow, hid, bind_some, if_neg] at hsettled
      · cases hsettled
      rw [hyes.1]
      exact Bool.false_ne_true
    · rw [heq] at hsame
      exact hsame ⟨rfl, hmemo⟩
  · intro hnone
    by_cases hrow : (detachedRow d t).isSome = true
    · rw [detachedRow_replay hno hrow]
    rcases replay_unlinked hno t with heq | ⟨row, metadata, hrow', hdone, heq⟩
    · rw [heq]
    -- only a stray could be selected now
    rw [Bool.not_eq_true] at hrow
    rw [hrow, isSome_eq_false_iff, isNone_iff_eq_none, detachedRow_eq_none]
    rintro ⟨-, hmemo⟩
    rw [(t.replay_columns d done).2.2] at hmemo
    obtain ⟨-, hid, hgone⟩ := orphanedRow_eq_some hrow'
    refine hnone ⟨hdone, ?_⟩
    rw [isStray, hid, any_some, hgone, hmemo]
    rfl

theorem report_detached (h : Kept d done d') (hno : .detachedTransactions ∉ done) :
    (report first readings .detachedTransactions d).length
        ≤ (report first readings .detachedTransactions d').length
      ∧ (SameDeeds (report first readings .detachedTransactions d)
          (report first readings .detachedTransactions d')
        ↔ Unmoved first d done .detachedTransactions) := by
  have hselect : (detachedScan true).select d' = d.transactions.rows.filterMap (fun t =>
        detachedRow d (t.replay d done)) := by
    show d'.transactions.rows.filterMap _ = _
    rw [h.transactions]
    show (d.transactions.rows.map _).filterMap _ = _
    rw [filterMap_map]
    refine filterMap_congr ?_
    intro t _
    exact detachedRow_of_labels h.labels _
  have hlength : ∀ d, (report first readings .detachedTransactions d).length
      = ((detachedScan true).select d).length := fun d => length_map ..
  have hmore : ∀ t ∈ d.transactions.rows, (detachedRow d t).isSome = true →
      (detachedRow d (t.replay d done)).isSome = true := by
    intro t _ hrow
    rw [detachedRow_replay hno hrow]
    exact hrow
  obtain ⟨hle, hsame⟩ := filterMap_length_le hmore
  rw [SameDeeds, hlength, hlength, hselect]
  refine ⟨hle, ?_, ?_⟩
  · rintro ⟨-, heq⟩ hdone
    rw [hasStray, List.any_eq_false]
    intro t ht hstray
    exact (detachedRow_moved h hno ht).mp (hsame heq.symm t ht) ⟨hdone, hstray⟩
  intro hunmoved
  have hrows : (detachedScan true).select d' = (detachedScan true).select d := by
    rw [hselect]
    refine filterMap_congr ?_
    intro t ht
    have hsome := (detachedRow_moved h hno ht).mpr fun hyes => by
      have hnone := any_eq_false.mp (hunmoved hyes.1) t ht
      exact hnone hyes.2
    by_cases hrow : (detachedRow d t).isSome = true
    · show detachedRow d (t.replay d done) = detachedRow d t
      rw [detachedRow_replay hno hrow]
    rw [Bool.not_eq_true] at hrow
    rw [hrow, isSome_eq_false_iff, isNone_iff_eq_none] at hsome
    rw [isSome_eq_false_iff, isNone_iff_eq_none] at hrow
    exact hsome.trans hrow.symm
  rw [← hselect]
  refine ⟨?_, congrArg length hrows.symm⟩
  have hreport : report first readings .detachedTransactions d'
      = report first readings .detachedTransactions d :=
    report_of_select hrows
  rw [hreport]

/-! ### Invoices -/

/-- The action of an invoice, by what is wrong with it. -/
def invoiceAction (undated dated unhashed unversioned : Bool) :
    Option String :=
  match (if undated then ["backfill_paid_at"] else []) ++ (if dated then ["clear_paid_at"] else [])
    ++ (if unhashed then ["backfill_payment_tx_hash"] else [])
    ++ (if unversioned then ["reset_version"] else []) with
  | [] => none
  | names => some (String.intercalate "+" names)

theorem invoiceAction_unhashed : ∀ undated dated unhashed unhashed' unversioned : Bool,
      invoiceAction undated dated unhashed unversioned
        = invoiceAction undated dated unhashed' unversioned → unhashed = unhashed' := by
  decide +kernel

/-- Whether a row offers a `PAID` invoice a hash. -/
def InvoiceRow.offers (row : InvoiceRow) : Bool :=
  decide (row.invoice.status = some .paid) && row.offeredHash.isSome

theorem deedOf_rowOutcome (id : String) (status : Json) (names : List String) :
    deedOf (id, rowOutcome status (.ok names)) = (match names with
        | [] => none
        | names => some (String.intercalate "+" names)).map (fun action => (id, action)) := by
  cases names with
  | nil => rfl
  | cons name rest => rfl

theorem deedOf_invoice (row : InvoiceRow) :
    deedOf (row.invoice.id, planned first readings .inconsistentInvoices row) = (invoiceAction
          (decide (row.invoice.status = some .paid ∧ row.invoice.paidAt = none))
          (decide (row.invoice.status ≠ some .paid ∧ row.invoice.paidAt ≠ none)) row.offers
          (row.invoice.version.all (fun version => decide (version < 1)))).map (fun action =>
        (row.invoice.id, action)) := by
  have hnames : row.statements.map Prod.fst = (if decide (row.invoice.status = some .paid
            ∧ row.invoice.paidAt = none) = true then
          ["backfill_paid_at"] else [])
        ++ (if decide (row.invoice.status ≠ some .paid ∧ row.invoice.paidAt ≠ none) = true then
          ["clear_paid_at"] else [])
        ++ (if row.offers = true then ["backfill_payment_tx_hash"] else [])
        ++ (if row.invoice.version.all (fun version =>
            decide (version < 1)) = true then ["reset_version"] else []) := by
    have hif : ∀ {c : Prop} [Decidable c] (name : String) (statement : Statement InvoiceTable),
        (if c then [(name, statement)] else []).map Prod.fst = if c then [name] else [] := by
      intro c _ name statement
      split
      · rfl
      · rfl
    rw [InvoiceRow.statements]
    simp only [map_append, hif, decide_eq_true_eq]
    congr 2
    rw [InvoiceRow.offers]
    cases row.offeredHash with
    | none => rw [isSome_none, Bool.and_false]; rfl
    | some hash =>
      rw [isSome_some, Bool.and_true]
      dsimp only
      rw [hif]
      by_cases hpaid : row.invoice.status = some InvoiceStatus.paid
      · rw [if_pos hpaid, decide_eq_true hpaid]
        rfl
      rw [if_neg hpaid, decide_eq_false hpaid]
      rfl
  have hplanned : planned first readings .inconsistentInvoices row
      = rowOutcome ((row.invoice.status.map (fun status => Json.str status.text)).getD .null)
        (.ok (row.statements.map Prod.fst)) := by
    rw [← (execute_dry emptyTables.invoices row.statements).2]
    rfl
  rw [hplanned, deedOf_rowOutcome, hnames]
  rfl

variable (first readings) in
/-- What is logged of the row of an invoice. -/
def invoiceDeed (row : InvoiceRow) : Option (String × String) :=
  deedOf (row.invoice.id, planned first readings .inconsistentInvoices row)

theorem invoiceDeed_id (i : Invoice) (deed : String × String)
    (h : (invoiceRow first d i).bind (invoiceDeed first readings) = some deed) : deed.1 = i.id := by
  obtain ⟨row, hrow, hdeed⟩ := bind_eq_some_iff.mp h
  rw [invoiceDeed, deedOf_invoice] at hdeed
  obtain ⟨action, -, rfl⟩ := map_eq_some_iff.mp hdeed
  exact (invoiceScan true first).key_pick hrow

theorem offered_of_deeds {i : Invoice} (hpaid : i.status = some .paid)
    (h : invoiceDeed first readings ⟨i, tx⟩ = invoiceDeed first readings ⟨i, tx'⟩) :
    (InvoiceRow.offeredHash ⟨i, tx⟩).isSome = (InvoiceRow.offeredHash ⟨i, tx'⟩).isSome := by
  rw [invoiceDeed, invoiceDeed, deedOf_invoice, deedOf_invoice] at h
  have haction := map_injective (Prod.mk_right_injective i.id) h
  have hoffers := invoiceAction_unhashed _ _ _ _ _ haction
  rw [InvoiceRow.offers, InvoiceRow.offers] at hoffers
  dsimp only at hoffers
  rw [decide_eq_true hpaid, Bool.true_and, Bool.true_and] at hoffers
  exact hoffers

theorem deeds_of_offered {i : Invoice}
    (h : i.status = some .paid → (InvoiceRow.offeredHash ⟨i, tx⟩).isSome
      = (InvoiceRow.offeredHash ⟨i, tx'⟩).isSome) :
    invoiceDeed first readings ⟨i, tx⟩ = invoiceDeed first readings ⟨i, tx'⟩ := by
  have hoffers : InvoiceRow.offers ⟨i, tx⟩ = InvoiceRow.offers ⟨i, tx'⟩ := by
    rw [InvoiceRow.offers, InvoiceRow.offers]
    dsimp only
    by_cases hpaid : i.status = some .paid
    · rw [h hpaid]
    · rw [decide_eq_false hpaid, Bool.false_and, Bool.false_and]
  rw [invoiceDeed, invoiceDeed, deedOf_invoice, deedOf_invoice, hoffers]

/-- **WHAT MOVES THE FOURTH PHASE IS THE LATERAL JOIN**. -/
theorem report_invoices (hfirst : ∀ l, first l = none ↔ l = [])
    (h : Kept d done d') (hno : .inconsistentInvoices ∉ done) :
    (report first readings .inconsistentInvoices d).length
        ≤ (report first readings .inconsistentInvoices d').length
      ∧ (SameDeeds (report first readings .inconsistentInvoices d)
          (report first readings .inconsistentInvoices d')
        ↔ Unmoved first d done .inconsistentInvoices) := by
  have hlater : ∀ i, linkedTransaction first d' i = linkedTransaction first (d.replay done) i := by
    intro i
    rw [linkedTransaction, linkedTransaction, h.transactions]
  have hrow : ∀ i, invoiceRow first d' i = invoiceRow first (d.replay done) i := by
    intro i
    rw [invoiceRow, invoiceRow, hlater]
  have hselect : (invoiceScan true first).select d'
      = d.invoices.rows.filterMap (invoiceRow first (d.replay done)) := by
    show d'.invoices.rows.filterMap _ = _
    rw [h.invoices hno]
    exact filterMap_congr (fun i _ => hrow i)
  have hlength : ∀ d, (report first readings .inconsistentInvoices d).length
      = ((invoiceScan true first).select d).length := fun d =>
    length_map ..
  have hdeeds : ∀ d, (report first readings .inconsistentInvoices d).filterMap
      deedOf = ((invoiceScan true first).select d).filterMap (invoiceDeed first readings) := by
    intro d
    rw [report, filterMap_map]
    rfl
  have hsome : ∀ d i, (invoiceRow first d i).isSome
      = isInconsistent i (linkedTransaction first d i) := by
    intro d i
    rw [invoiceRow]
    cases isInconsistent i (linkedTransaction first d i) with
    | true => rfl
    | false => rfl
  have hmore : ∀ i ∈ d.invoices.rows, (invoiceRow first d i).isSome = true →
      (invoiceRow first (d.replay done) i).isSome = true := by
    intro i hi hyes
    rw [hsome] at hyes ⊢
    exact isInconsistent_mono (linkedTransaction_isSome hfirst hi) hyes
  have hkeys : ∀ i ∈ d.invoices.rows, ∀ i' ∈ d.invoices.rows,
      i.id = i'.id → i = i' := fun i hi i' hi' hid =>
    KeysetScan.eq_of_id (S := invoiceScan true first) (s := d) hi hi' hid
  obtain ⟨hle, hsame⟩ := filterMap_length_le hmore
  rw [SameDeeds, hdeeds, hdeeds, hlength, hlength, hselect]
  show _ ∧ ((d.invoices.rows.filterMap (invoiceRow first d)).filterMap _ = _
    ∧ (d.invoices.rows.filterMap (invoiceRow first d)).length = _ ↔ _)
  rw [filterMap_filterMap, filterMap_filterMap]
  refine ⟨hle, ?_, ?_⟩
  · rintro ⟨hequal, hlen⟩ i hi
    have hselected := hsame hlen.symm i hi
    have hdeed := filterMap_eq_of_keys hkeys invoiceDeed_id invoiceDeed_id hequal i hi
    rw [hsome, hsome] at hselected
    refine ⟨hselected.symm, ?_⟩
    intro hyes hpaid
    rw [invoiceRow, if_pos hyes, invoiceRow, if_pos (hselected.trans hyes),
      bind_some, bind_some] at hdeed
    exact offered_of_deeds hpaid hdeed
  · intro hunmoved
    have hpoint : ∀ i ∈ d.invoices.rows, (invoiceRow first d i).isSome
            = (invoiceRow first (d.replay done) i).isSome
          ∧ (invoiceRow first d i).bind (invoiceDeed first readings)
            = (invoiceRow first (d.replay done) i).bind (invoiceDeed first readings) := by
      intro i hi
      have hfinding := hunmoved i hi
      rw [hsome, hsome]
      refine ⟨hfinding.selected, ?_⟩
      rw [invoiceRow, invoiceRow, ← hfinding.selected]
      split
      · rename_i hyes
        exact deeds_of_offered (hfinding.offered hyes)
      · rfl
    refine ⟨filterMap_congr (fun i hi => (hpoint i hi).2), ?_⟩
    refine le_antisymm hle ?_
    refine (filterMap_length_le ?_).1
    intro i hi hyes
    rw [(hpoint i hi).1]
    exact hyes

variable (readings) in
/-- **A PHASE REPORTS ALIKE EXACTLY IF IT IS NOT MOVED**. -/
theorem report_iff (hfirst : ∀ l, first l = none ↔ l = [])
    (h : Kept d done d') {phase : RepairPhase} (hno : phase ∉ done) :
    (report first readings phase d).length ≤ (report first readings phase d').length
      ∧ (SameDeeds (report first readings phase d)
          (report first readings phase d') ↔ Unmoved first d done phase) := by
  have halike : ∀ {visits visits' : List (String × Outcome)},
      visits' = visits → visits.length ≤ visits'.length ∧ (SameDeeds visits visits' ↔ True) := by
    rintro visits _ rfl
    exact ⟨le_refl _, iff_of_true ⟨rfl, rfl⟩ trivial⟩
  cases phase with
  | detachedTransactions => exact report_detached h hno
  | orphanedTransactions => exact halike (report_orphaned h hno)
  | orphanedPaymentEvents => exact halike (report_events h hno)
  | inconsistentInvoices => exact report_invoices hfirst h hno
  | inconsistentJobs => exact halike (report_jobs h hno)

end Finds

/-! ## Both runs, phase by phase -/

/-- The phase, the id and the action of a row that was repaired. -/
def loggedOf (visit : String × String × Outcome) : Option (String × String × String) :=
  (deedOf visit.2).map (fun deed => (visit.1, deed))

def reports (first : List Transaction → Option Transaction)
    (readings : Readings) (phases : List RepairPhase) (d : Tables) :
    List (String × String × Outcome) :=
  phases.flatMap (fun phase => (report first readings phase d).map
    (fun visit => (phase.name, visit)))

section Course

variable {plan : Plan} {d d' : Tables} {done phases : List RepairPhase}

def Plan.readings (plan : Plan) : Readings :=
  { plan.clock.readings with now := fun _ => 0 }

variable (plan) in
/-- **A DRY COURSE REPORTS OF THE TABLES AT ITS START**. -/
theorem course_dry (hdry : plan.dry = true) (phases : List RepairPhase)
    (d : Tables) : plan.course phases none d = (d, reports plan.first plan.readings phases d) := by
  induction phases with
  | nil => rfl
  | cons phase rest ih =>
    have hfinish : (plan.scan phase).finish none d
        = (d, report plan.first plan.readings phase d) := by
      rw [Plan.scan, hdry]
      exact finish_dry plan.first plan.readings phase d
    rw [Plan.course, hfinish]
    dsimp only
    rw [ih]
    rfl

theorem logged_kind {phase : RepairPhase} {visits : List (String × Outcome)} :
    ∀ entry ∈ (visits.map (fun visit => (phase.name, visit))).filterMap
      loggedOf, decide (entry.1 = phase.name) = true := by
  intro entry hentry
  obtain ⟨visit, hvisit, hlogged⟩ := mem_filterMap.mp hentry
  obtain ⟨v, -, rfl⟩ := mem_map.mp hvisit
  obtain ⟨deed, -, rfl⟩ := map_eq_some_iff.mp hlogged
  exact decide_eq_true rfl

theorem logged_other {phase : RepairPhase} (hno : phase ∉ phases)
    {visits : List (String × String × Outcome)}
    (h : ∀ visit ∈ visits, visit.1 ∈ phases.map name) :
    ∀ entry ∈ visits.filterMap loggedOf, decide (entry.1 = phase.name) = false := by
  intro entry hentry
  obtain ⟨visit, hvisit, hlogged⟩ := mem_filterMap.mp hentry
  obtain ⟨deed, -, rfl⟩ := map_eq_some_iff.mp hlogged
  refine decide_eq_false fun hname => hno ?_
  obtain ⟨other, hother, hsame⟩ := mem_map.mp (h visit hvisit)
  rw [← name_injective (hsame.trans hname)]
  exact hother

theorem logged_map (phase : RepairPhase) (visits : List (String × Outcome)) :
    (visits.map (fun visit => (phase.name, visit))).filterMap loggedOf
      = (visits.filterMap deedOf).map (fun deed => (phase.name, deed)) := by
  rw [filterMap_map, map_filterMap]
  rfl

theorem reports_names : ∀ visit ∈ reports plan.first plan.readings phases d,
    visit.1 ∈ phases.map name := by
  intro visit hvisit
  obtain ⟨phase, hphase, hmem⟩ := mem_flatMap.mp hvisit
  obtain ⟨v, -, rfl⟩ := mem_map.mp hmem
  exact mem_map_of_mem hphase

variable (plan) in
/-- A live course beside the reports of the tables at the start: by induction
    on the phases that are left, `done` being those behind. -/
theorem course_live_iff (hlive : plan.dry = false)
    (hfirst : ∀ l, plan.first l = none ↔ l = []) (hkept : Kept d done d')
    (hnodup : (done ++ phases).Nodup)
    (hok : ∀ visit ∈ (plan.course phases none d').2, visit.2.2.ok) :
    (reports plan.first plan.readings phases d).length ≤ (plan.course phases none d').2.length
      ∧ (((reports plan.first plan.readings phases d).filterMap loggedOf
            = (plan.course phases none d').2.filterMap loggedOf
          ∧ (reports plan.first plan.readings phases d).length
            = (plan.course phases none d').2.length)
        ↔ ∀ before phase after, phases = before ++ phase :: after →
          Unmoved plan.first d (done ++ before) phase) := by
  induction phases generalizing done d' with
  | nil =>
    refine ⟨le_refl _, iff_of_true ⟨rfl, rfl⟩ ?_⟩
    intro before phase after hsplit
    exact absurd hsplit.symm (append_ne_nil_of_right_ne_nil _ (cons_ne_nil _ _))
  | cons phase rest ih =>
    have hfinish : (plan.scan phase).finish none d'
        = (scanOf plan.first plan.readings false phase).finish none d' := by
      rw [Plan.scan, hlive]
      rfl
    rw [Plan.course, hfinish] at hok ⊢
    dsimp only at hok ⊢
    have hfirstOk : ∀ visit ∈ ((scanOf plan.first plan.readings false
        phase).finish none d').2, visit.2.ok := fun visit hvisit =>
      hok (phase.name, visit) (mem_append_left _ (mem_map_of_mem hvisit))
    have hno : phase ∉ done := by
      rw [nodup_append] at hnodup
      exact fun hmem => hnodup.2.2 phase hmem phase (.head _) rfl
    have hlast : phase ∉ rest := by
      rw [nodup_append, nodup_cons] at hnodup
      exact hnodup.2.1.1
    obtain ⟨hle, hiff⟩ := report_iff plan.readings hfirst hkept hno
    have hnodup' : ((done ++ [phase]) ++ rest).Nodup := by
      rw [append_assoc]
      exact hnodup
    obtain ⟨hleRest, hiffRest⟩ := ih (hkept.step hfirstOk) hnodup'
      (fun visit hvisit => hok visit (mem_append_right _ hvisit))
    rw [finish_live plan.first plan.readings phase d' hfirstOk]
    have hreports : reports plan.first plan.readings (phase :: rest) d
        = (report plan.first plan.readings phase d).map (fun visit => (phase.name, visit))
          ++ reports plan.first plan.readings rest d := rfl
    rw [hreports]
    simp only [List.length_append, List.length_map, List.filterMap_append]
    refine ⟨Nat.add_le_add hle hleRest, ?_, ?_⟩
    · rintro ⟨hlog, hlen⟩
      obtain ⟨hhere, hrest⟩ := append_inj_of_kind logged_kind logged_kind
        (logged_other hlast reports_names)
        (logged_other hlast course_names) hlog
      rw [logged_map, logged_map] at hhere
      have hdeeds := (map_injective_iff.mpr (Prod.mk_right_injective phase.name)) hhere
      have hmoved := hiff.mp ⟨hdeeds, by omega⟩
      have hmovedRest := hiffRest.mp ⟨hrest, by omega⟩
      intro before next after hsplit
      cases before with
      | nil =>
        obtain ⟨rfl, -⟩ := cons.inj hsplit
        rw [append_nil]
        exact hmoved
      | cons p before =>
        obtain ⟨rfl, htail⟩ := cons.inj hsplit
        have hnext := hmovedRest before next after htail
        rw [append_assoc] at hnext
        exact hnext
    · intro hall
      have hhere := hall [] phase rest rfl
      rw [append_nil] at hhere
      obtain ⟨hdeeds, hlen⟩ := hiff.mpr hhere
      obtain ⟨hrest, hlenRest⟩ := hiffRest.mpr (by
        intro before next after hsplit
        rw [append_assoc]
        exact hall (phase :: before) next after (congrArg (cons phase) hsplit))
      rw [logged_map, logged_map, hdeeds, hrest, hlen, hlenRest]
      exact ⟨rfl, rfl⟩

end Course

/-! ## The two runs -/

def RepairActionLogEntry.deed (entry : RepairActionLogEntry) : String × String × String :=
  (entry.phase, entry.recordId, entry.action)

/-- The report of a dry run is that of a live one, the times aside. -/
structure Foretold (dry live : RepairState) : Prop where
  scanned : dry.checkpoint.scannedCount = live.checkpoint.scannedCount
  repaired : dry.checkpoint.repairedCount = live.checkpoint.repairedCount
  log : dry.checkpoint.actionLog.map deed
    = live.checkpoint.actionLog.map deed

theorem report_of_totals {st : RepairState} (h : st.checkpoint.totals = totalsOf st.visits) :
    st.checkpoint.scannedCount = st.visits.length
      ∧ st.checkpoint.repairedCount = (st.visits.filterMap loggedOf).length
      ∧ st.checkpoint.actionLog.map deed = st.visits.filterMap loggedOf := by
  rw [RepairCheckpoint.totals, totalsOf, Totals.mk.injEq] at h
  obtain ⟨hscanned, hrepaired, -, -, hactions, -⟩ := h
  have hentry : ∀ visit : String × String × Outcome,
      (BatchResult.actionOf (fun _ => 0) visit.1 visit.2).map
        deed = loggedOf visit := by
    rintro ⟨phase, id, ⟨action, details⟩ | - | error⟩ <;> rfl
  have hcount : ∀ visit : String × String × Outcome,
      BatchResult.isRepaired visit.2 = (loggedOf visit).isSome := by
    rintro ⟨phase, id, ⟨action, details⟩ | - | error⟩ <;> rfl
  refine ⟨hscanned, ?_, ?_⟩
  · rw [hrepaired, List.length_filterMap_eq_countP]
    exact List.countP_congr (fun visit _ => by rw [hcount])
  have hdeeds := congrArg (List.map deed) hactions
  rw [List.map_map, List.map_filterMap] at hdeeds
  simp only [hentry] at hdeeds
  exact hdeeds

theorem ok_of_not_failed {visits : List (String × String × Outcome)}
    (h : (totalsOf visits).failed = 0) : ∀ visit ∈ visits, visit.2.2.ok := by
  intro visit hvisit
  have hno := countP_eq_zero.mp h visit hvisit
  rcases visit with ⟨phase, id, ⟨action, details⟩ | - | error⟩
  · trivial
  · trivial
  · exact hno rfl

section Runs

variable {first : List Transaction → Option Transaction}
  {env : Nat → BatchClock}

theorem tables_batch_dry (readings : Readings) (phase : RepairPhase)
    (c : Option String) (n : Nat) (d : Tables) :
    ((scanOf first readings true phase).batch c n d).1 = d := by
  rw [KeysetScan.batch, KeysetScan.sweep_still (fun row _ => repair_dry first readings phase d row)]

variable (first env) in
/-- **NO TURN OF A DRY RUN WRITES**. -/
theorem turn_dry {st : RepairState} (hdry : st.checkpoint.dryRun = true) :
    (st.turn first env).1.tables = st.tables ∧ (st.turn first env).1.checkpoint.dryRun = true := by
  rw [RepairState.turn]
  dsimp only
  split
  · exact ⟨rfl, hdry⟩
  split
  · exact ⟨rfl, hdry⟩
  rename_i tables result hbatch
  obtain ⟨phase, -, hphase⟩ := map_eq_some_iff.mp hbatch
  have htables : tables = st.tables := by
    rw [hdry, processPhase] at hphase
    exact (congrArg Prod.fst hphase).symm.trans (tables_batch_dry _ _ _ _ _)
  split
  · exact ⟨htables, hdry⟩
  split
  · exact ⟨htables, hdry⟩
  · exact ⟨htables, hdry⟩

/-- **A DRY RUN WRITES NOTHING**, however far it comes. -/
theorem loop_dry {maxBatches : Option Nat} {fuel executed : Nat}
    {st st' : RepairState} (hdry : st.checkpoint.dryRun = true)
    (hloop : loop first env maxBatches fuel executed st = some st') : st'.tables = st.tables := by
  induction fuel generalizing executed st with
  | zero => cases hloop
  | succ fuel ih =>
    obtain ⟨htables, hdry'⟩ := turn_dry first env hdry
    rw [loop] at hloop
    split at hloop
    · rename_i next hturn
      rw [hturn] at htables
      cases hloop
      exact htables
    rename_i next hturn
    rw [hturn] at htables hdry'
    split at hloop
    · cases hloop
      exact htables
    · exact (ih hdry' hloop).trans htables

/-- **A DRY RUN FORETELLS A LIVE RUN EXACTLY IF NO PHASE IS MOVED**: from the
    same tables, the clocks telling the same of every lease, both complete,
    the dry run writes nothing, and if no statement of the live run fails,
    then they report the same if and only if `Foretellable`. -/
theorem dry_run_foretells_iff (first : List Transaction → Option Transaction)
    (hfirst : ∀ l, first l = none ↔ l = []) (clock : BatchClock) (d : Tables)
    (phases : List RepairPhase) (hne : phases ≠ []) (hnodup : phases.Nodup)
    (defaultBatchSize : Nat) (hdefault : 0 < defaultBatchSize)
    (batchSize : Option Nat) :
    ∃ N, ∀ env env' : Nat → BatchClock, (∀ n, Agrees d (env n).readings clock.readings) →
      (∀ n, Agrees d (env' n).readings clock.readings) →
      ∀ fuel ≥ N, ∃ dry live, startRepairJob first env fuel defaultBatchSize
            { phases := some (phases.map name), batchSize
              dryRun := true } d = some dry
        ∧ startRepairJob first env' fuel defaultBatchSize
            { phases := some (phases.map name), batchSize
              dryRun := false } d = some live
        ∧ dry.checkpoint.status = .completed
        ∧ live.checkpoint.status = .completed
        ∧ dry.tables = d
        ∧ (live.checkpoint.failedCount = 0 →
          (Foretold dry live ↔ Foretellable first phases d)) := by
  let plan : Plan := ⟨first, clock, d, phases, true⟩
  let livePlan : Plan := ⟨first, clock, d, phases, false⟩
  refine ⟨plan.turns + livePlan.turns, ?_⟩
  intro env env' hagree hagree' fuel hfuel
  have hpos : 0 < batchSizeOr batchSize defaultBatchSize := batchSizeOr_pos hdefault
  have hagreed : plan.Agreed env := hagree
  have hagreed' : livePlan.Agreed env' := hagree'
  obtain ⟨dry, hdry, -, hdryEnd⟩ := start_reaches hne hnodup hagreed
    (le_trans (le_add_right _ _) hfuel) defaultBatchSize
    { phases := some (phases.map name), batchSize
      dryRun := true } rfl rfl hpos
  obtain ⟨live, hlive, -, hliveEnd⟩ := start_reaches hne hnodup hagreed'
    (le_trans (le_add_left _ _) hfuel) defaultBatchSize
    { phases := some (phases.map name), batchSize
      dryRun := false } rfl rfl hpos
  have hdryDone := hdryEnd rfl
  have hliveDone := hliveEnd rfl
  have hwritten : dry.tables = ((RepairState.new defaultBatchSize
      { phases := some (phases.map name), batchSize
        dryRun := true } d).withStatus .running).tables := loop_dry rfl hdry
  refine ⟨dry, live, hdry, hlive, hdryDone.status, hliveDone.status, hwritten, ?_⟩
  intro hfailed
  obtain ⟨hscanned, hrepaired, hlog⟩ := report_of_totals hdryDone.totals
  obtain ⟨hscanned', hrepaired', hlog'⟩ := report_of_totals hliveDone.totals
  have hdryVisits : dry.visits = reports first livePlan.readings phases (d.untimed d) := by
    rw [hdryDone.visits]
    exact congrArg Prod.snd (course_dry plan rfl phases _)
  have hok : ∀ visit ∈ live.visits, visit.2.2.ok := by
    refine ok_of_not_failed ?_
    rw [← hliveDone.totals]
    exact hfailed
  have hliveVisits : live.visits = (livePlan.course phases none (d.untimed d)).2 := hliveDone.visits
  rw [hliveVisits] at hok
  obtain ⟨-, hiff⟩ := course_live_iff livePlan rfl hfirst (kept_start (d.untimed d)) hnodup hok
  rw [← hdryVisits, ← hliveVisits] at hiff
  refine Iff.trans ?_ hiff
  constructor
  · rintro ⟨hscan, -, hsame⟩
    rw [hlog, hlog'] at hsame
    rw [hscanned, hscanned'] at hscan
    exact ⟨hsame, hscan⟩
  rintro ⟨hsame, hscan⟩
  refine ⟨?_, ?_, ?_⟩
  · rw [hscanned, hscanned', hscan]
  · rw [hrepaired, hrepaired', hsame]
  · rw [hlog, hlog', hsame]

end Runs

/-- A transaction is linked, in the dry run and in the live run. -/
theorem dry_run_foretells_linked : ∃ N, ∀ fuel ≥ N, ∃ dry live,
    startRepairJob head? (fun _ => .still 0) fuel 100
        { phases := some ["detached_transactions", "orphaned_transactions"]
          dryRun := true } (linkTables none) = some dry
      ∧ startRepairJob head? (fun _ => .still 5) fuel 100
        { phases := some ["detached_transactions", "orphaned_transactions"]
          dryRun := false } (linkTables none) = some live
      ∧ dry.tables = linkTables none ∧ Foretold dry live := by
  have hfirst : ∀ l : List Transaction, l.head? = none ↔ l = [] :=
    fun l => head?_eq_none_iff
  obtain ⟨N, hall⟩ := dry_run_foretells_iff head? hfirst (.still 0)
    (linkTables none) [.detachedTransactions, .orphanedTransactions]
    (cons_ne_nil _ _) (by decide) 100 (by decide) none
  refine ⟨N + 9, ?_⟩
  intro fuel hfuel
  obtain ⟨dry, live, hdry, hlive, -, -, hwritten, hiff⟩ := hall
    (fun _ => .still 0) (fun _ => .still 5) nofun
    nofun fuel (by omega)
  refine ⟨dry, live, hdry, hlive, hwritten, (hiff ?_).mpr ?_⟩
  · obtain ⟨k, rfl⟩ := Nat.exists_eq_add_of_le' (show 9 ≤ fuel by omega)
    exact congrArg (fun st => st.checkpoint.failedCount) (Option.some.inj (hlive.symm.trans rfl))
  intro before phase after hsplit
  cases before with
  | nil =>
    obtain ⟨rfl, -⟩ := cons.inj hsplit
    exact nofun
  | cons p before =>
    obtain ⟨-, htail⟩ := cons.inj hsplit
    cases before with
    | nil =>
      obtain ⟨rfl, -⟩ := cons.inj htail
      exact trivial
    | cons q before =>
      obtain ⟨-, hend⟩ := cons.inj htail
      exact absurd hend.symm (append_ne_nil_of_right_ne_nil _ (cons_ne_nil _ _))

/-- A paid invoice without a hash, and a transaction with its memo. -/
def unhashedTables : Tables :=
  { emptyTables with
    transactions := ⟨[⟨"t", none, "h", some "m", none, none⟩], pairwise_singleton _ _⟩
    invoices := ⟨⟨[⟨"i", "m", some .paid, some 0, none, some 1, 0⟩],
      pairwise_singleton _ _⟩, nodup_singleton _⟩ }

/-- What a run over the default phases reports: the rows scanned and repaired,
    the rows that failed, and the log. -/
def reportOf (dryRun : Bool) (d : Tables) :
    Option ((Nat × Nat × Nat) × List (String × String × String)) :=
  (startRepairJob head? (fun _ => .still 0) 9 100 { dryRun } d).map
    (fun st => ((st.checkpoint.scannedCount, st.checkpoint.repairedCount,
      st.checkpoint.failedCount),
      st.checkpoint.actionLog.map deed))

/-- **A HASH THAT IS NOT FORETOLD**: the live run takes it from the transaction
    that it has linked before. -/
theorem relinked_hash_not_foretold : reportOf true unhashedTables
      = some ((1, 1, 0), [("detached_transactions", "t", "relink_transaction_to_invoice")])
    ∧ reportOf false unhashedTables = some ((2, 2, 0), [("detached_transactions", "t",
          "relink_transaction_to_invoice"),
        ("inconsistent_invoices", "i", "backfill_payment_tx_hash")]) := by
  constructor
  · decide +kernel
  · decide +kernel

end Repair

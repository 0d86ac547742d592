import Inqutum.RepairPausingProofs

/-!
# What a repair leaves of a row

The repair of a row that ends well leaves nothing to repair in its record
(`scan_establishes`), and the batches of the later phases keep it so.  An
invoice may stay selected: the transaction it is linked to has an empty
hash, which is neither taken over nor missing.  A job may stay selected as
long as the clocks of the database and of the service differ.  Both are
skipped.
-/

namespace Repair

open Invoices (InvoiceStatus)
open Jobs (JobStatus)
open List Option KeysetScan OrphanedRow

/-- A row that did not fail. -/
def Outcome.ok : Outcome → Prop
  | .failed _ => False
  | _ => True

/-! ## The record of a row, statement by statement -/

section Affects

variable {σ ρ : Type} {rows : σ → List ρ} {id : ρ → String} {k : String}

/-- Of the record of a key, a statement leaves what `g` makes of it. -/
def Affects (rows : σ → List ρ) (id : ρ → String) (k : String)
    (statement : Statement σ) (g : ρ → ρ) : Prop :=
  ∀ table table', statement table = .ok table' → ∀ x' ∈ rows table', id x' = k →
      ∃ x ∈ rows table, id x = k ∧ x' = g x

variable {statements : List (String × Statement σ)} {c : Prop} [Decidable c]

theorem execute_affects {gs : List (ρ → ρ)}
    (h : Forall₂ (fun s g => Affects rows id k s.2 g) statements gs)
    {table : σ} {actions : List String} (hok : (execute false table statements).2 = .ok actions) :
    ∀ x' ∈ rows (execute false table statements).1, id x' = k →
      ∃ x ∈ rows table, id x = k ∧ x' = gs.foldl (fun x g => g x) x := by
  induction h generalizing table actions with
  | nil =>
    intro x' hx' hid
    exact ⟨x', hx', hid, rfl⟩
  | @cons s g rest gs hfirst _ ih =>
    obtain ⟨action, statement⟩ := s
    cases hstep : statement table with
    | error message =>
      rw [execute, if_neg (by decide), hstep] at hok
      cases hok
    | ok table' =>
      rw [execute_ok hstep] at hok ⊢
      cases hrest : (execute false table' rest).2 with
      | error message =>
        rw [hrest] at hok
        cases hok
      | ok actions =>
        intro x' hx' hid
        obtain ⟨y, hy, hkey, rfl⟩ := ih hrest x' hx' hid
        obtain ⟨x, hx, hkey', rfl⟩ := hfirst table table' hstep y hy hkey
        exact ⟨x, hx, hkey', rfl⟩

theorem execute_of_ok (h : ∀ s ∈ statements, ∀ table, ∃ table', s.2 table = .ok table')
    (table : σ) : (execute false table statements).2 = .ok (statements.map Prod.fst) := by
  induction statements generalizing table with
  | nil => rfl
  | cons s rest ih =>
    obtain ⟨action, statement⟩ := s
    obtain ⟨table', hstep⟩ := h _ (.head _) table
    have hrest := ih (fun s hs => h s (.tail _ hs)) table'
    rw [execute_ok hstep, hrest]
    rfl

theorem affects_if {action : String} {statement : Statement σ} {g : ρ → ρ}
    (h : Affects rows id k statement g) : Forall₂ (fun s g => Affects rows id k s.2 g)
      (if c then [(action, statement)] else []) (if c then [g] else []) := by
  split
  · exact .cons h .nil
  · exact .nil

theorem foldl_if (g : ρ → ρ) (x : ρ) :
    (if c then [g] else []).foldl (fun x g => g x) x = if c then g x else x := by
  split
  · rfl
  · rfl

end Affects

theorem affects_update {ρ : Type} {id : ρ → String} (k : String)
    {p : ρ → Bool} {f : ρ → ρ} (hf : ∀ x, id (f x) = id x) :
    Affects KeyTable.rows id k (fun table : KeyTable id => .ok (table.update k p f hf))
      (fun x => if p x = true then f x else x) := by
  intro table table' h x' hx' hid
  rw [← Except.ok.inj h] at hx'
  exact KeyTable.mem_update hx' hid

/-! ## References -/

section References

theorem DetachedRow.repair_rows (d : Tables) (row : DetachedRow) :
    ∃ f, (DetachedRow.repair false d row).1.transactions.rows = d.transactions.rows.map f
      ∧ ∀ t, (f t = t ∧ ¬ (t.id = row.id ∧ t.invoiceId.isNone = true))
        ∨ (t.id = row.id ∧ t.invoiceId.isNone = true
          ∧ f t = { t with invoiceId := some row.matchingInvoiceId }) :=
  d.transactions.update_rows row.id (fun t => t.invoiceId.isNone)
    (fun t => { t with invoiceId := some row.matchingInvoiceId })
    (fun _ => rfl)

variable {row : OrphanedRow} {d : Tables} {id invoiceId : String}

theorem isolateTransaction_rows {table table' : KeyTable Transaction.id}
    (h : isolateTransaction id invoiceId table = .ok table') :
    ∃ f, table'.rows = table.rows.map f ∧ ∀ t ∈ table.rows,
      (f t = t ∧ ¬ (t.id = id ∧ t.invoiceId = some invoiceId))
        ∨ (t.id = id ∧ t.invoiceId = some invoiceId ∧ (f t).id = t.id
          ∧ (f t).memo = t.memo ∧ (f t).invoiceId = none) := by
  rw [isolateTransaction] at h
  split at h
  · rename_i hnone
    refine ⟨fun t => t, ?_, ?_⟩
    · cases h
      exact (map_id _).symm
    intro t ht
    have hno := find?_eq_none.mp hnone t ht
    rw [Bool.and_eq_true, decide_eq_true_eq, decide_eq_true_eq] at hno
    exact .inl ⟨rfl, hno⟩
  · split at h
    · cases h
    rename_i metadata _
    obtain ⟨f, hrows, hcases⟩ := table.update_rows id
      (fun t => decide (t.invoiceId = some invoiceId))
      (fun t => { t with invoiceId := none, metadata := some metadata })
      (fun _ => rfl)
    cases h
    refine ⟨f, hrows, ?_⟩
    intro t _
    rcases hcases t with ⟨hsame, hno⟩ | ⟨hid, hinvoice, hf⟩
    · rw [decide_eq_true_eq] at hno
      exact .inl ⟨hsame, hno⟩
    rw [hf]
    exact .inr ⟨hid, of_decide_eq_true hinvoice, rfl, rfl, rfl⟩

theorem isolatePaymentEvent_rows {table table' : KeyTable PaymentEvent.id}
    (h : isolatePaymentEvent id invoiceId table = .ok table') :
    ∃ f, table'.rows = table.rows.map f ∧ ∀ e ∈ table.rows,
      (f e = e ∧ ¬ (e.id = id ∧ e.invoiceId = some invoiceId))
        ∨ (e.id = id ∧ e.invoiceId = some invoiceId ∧ (f e).id = e.id
          ∧ (f e).invoiceId = none) := by
  rw [isolatePaymentEvent] at h
  split at h
  · rename_i hnone
    refine ⟨fun e => e, ?_, ?_⟩
    · cases h
      exact (map_id _).symm
    intro e he
    have hno := find?_eq_none.mp hnone e he
    rw [Bool.and_eq_true, decide_eq_true_eq, decide_eq_true_eq] at hno
    exact .inl ⟨rfl, hno⟩
  · split at h
    · cases h
    rename_i eventData _
    obtain ⟨f, hrows, hcases⟩ := table.update_rows id
      (fun e => decide (e.invoiceId = some invoiceId))
      (fun e => { e with invoiceId := none, eventData := some eventData })
      (fun _ => rfl)
    cases h
    refine ⟨f, hrows, ?_⟩
    intro e _
    rcases hcases e with ⟨hsame, hno⟩ | ⟨hid, hinvoice, hf⟩
    · rw [decide_eq_true_eq] at hno
      exact .inl ⟨hsame, hno⟩
    rw [hf]
    exact .inr ⟨hid, of_decide_eq_true hinvoice, rfl, rfl⟩

theorem execute_single {σ : Type} {table : σ} {action : String}
    {statement : Statement σ} {details : Json}
    (hok : (singleOutcome details (execute false table [(action, statement)]).2).ok) :
    ∃ table', statement table = .ok table'
      ∧ (execute false table [(action, statement)]).1 = table' := by
  cases hstep : statement table with
  | error message =>
    rw [execute, if_neg (by decide), hstep] at hok
    exact False.elim hok
  | ok table' =>
    refine ⟨table', rfl, ?_⟩
    rw [execute_ok hstep]
    rfl

theorem OrphanedRow.repairTransaction_rows
    (hok : (repairTransaction false d row).2.ok) :
    ∃ f, (repairTransaction false d row).1.transactions.rows = d.transactions.rows.map f
      ∧ ∀ t ∈ d.transactions.rows, (f t = t ∧ ¬ (t.id = row.id ∧ t.invoiceId = some row.invoiceId))
          ∨ (t.id = row.id ∧ t.invoiceId = some row.invoiceId
            ∧ (f t).id = t.id ∧ (f t).memo = t.memo ∧ (f t).invoiceId = none) := by
  rw [repairTransaction] at hok ⊢
  obtain ⟨table', hstep, htable⟩ := execute_single hok
  dsimp only
  rw [htable]
  exact isolateTransaction_rows hstep

theorem OrphanedRow.repairPaymentEvent_rows
    (hok : (repairPaymentEvent false d row).2.ok) :
    ∃ f, (repairPaymentEvent false d row).1.paymentEvents.rows
        = d.paymentEvents.rows.map f
      ∧ ∀ e ∈ d.paymentEvents.rows, (f e = e ∧ ¬ (e.id = row.id ∧ e.invoiceId = some row.invoiceId))
          ∨ (e.id = row.id ∧ e.invoiceId = some row.invoiceId
            ∧ (f e).id = e.id ∧ (f e).invoiceId = none) := by
  rw [repairPaymentEvent] at hok ⊢
  obtain ⟨table', hstep, htable⟩ := execute_single hok
  dsimp only
  rw [htable]
  exact isolatePaymentEvent_rows hstep

theorem orphanedRow_eq_some {id label : String} {invoiceId : Option String}
    (h : orphanedRow d id label invoiceId = some row) :
    row.id = id ∧ invoiceId = some row.invoiceId ∧ d.hasInvoice row.invoiceId = false := by
  obtain ⟨x, hx, hrow⟩ := bind_eq_some_iff.mp h
  split at hrow
  · cases hrow
  rename_i hno
  cases hrow
  exact ⟨rfl, hx, Bool.eq_false_iff.mpr hno⟩

theorem detachedScan_establishes :
    (detachedScan false).Establishes (fun d t => detachedRow d t = none)
      Outcome.ok := by
  refine establishes_unpicked ?_
  intro d row t ht hpick _ t' ht' hid
  have hkey : row.id = t.id := (detachedScan false).key_pick hpick
  obtain ⟨f, hrows, hcases⟩ := row.repair_rows d
  have hmem : t' ∈ d.transactions.rows.map f := hrows ▸ ht'
  obtain ⟨x, -, rfl⟩ := mem_map.mp hmem
  refine if_neg ?_
  rcases hcases x with ⟨hsame, hno⟩ | ⟨-, -, hf⟩
  · rw [hsame] at hid ⊢
    exact fun hnone => hno ⟨hid.trans hkey.symm, by rw [hnone]; rfl⟩
  rw [hf]
  exact some_ne_none _

theorem orphanedTransactionScan_establishes : (orphanedTransactionScan false).Establishes
      (fun d t => orphanedRow d t.id t.txHash t.invoiceId = none)
      Outcome.ok := by
  refine establishes_unpicked ?_
  intro d row t ht hpick hok t' ht' hid
  obtain ⟨hkey, hinvoice, -⟩ := orphanedRow_eq_some hpick
  obtain ⟨f, hrows, hcases⟩ := repairTransaction_rows hok
  have hmem : t' ∈ d.transactions.rows.map f := hrows ▸ ht'
  obtain ⟨x, hx, rfl⟩ := mem_map.mp hmem
  show orphanedRow d _ _ _ = none
  rcases hcases x hx with ⟨hsame, hno⟩ | ⟨-, -, -, -, hf⟩
  · rw [hsame] at hid
    rw [eq_of_id hx ht hid] at hno
    exact absurd ⟨hkey.symm, hinvoice⟩ hno
  rw [hf]
  rfl

theorem orphanedPaymentEventScan_establishes : (orphanedPaymentEventScan false).Establishes
      (fun d e => orphanedRow d e.id e.eventType e.invoiceId = none)
      Outcome.ok := by
  refine establishes_unpicked ?_
  intro d row e he hpick hok e' he' hid
  obtain ⟨hkey, hinvoice, -⟩ := orphanedRow_eq_some hpick
  obtain ⟨f, hrows, hcases⟩ := repairPaymentEvent_rows hok
  have hmem : e' ∈ d.paymentEvents.rows.map f := hrows ▸ he'
  obtain ⟨x, hx, rfl⟩ := mem_map.mp hmem
  show orphanedRow d _ _ _ = none
  rcases hcases x hx with ⟨hsame, hno⟩ | ⟨-, -, -, hf⟩
  · rw [hsame] at hid
    rw [eq_of_id hx he hid] at hno
    exact absurd ⟨hkey.symm, hinvoice⟩ hno
  rw [hf]
  rfl

end References

/-! ## Invoices -/

section Invoices

/-- The effects of the statements on an invoice. -/
def Invoice.dated (timestamp : Int) (i : Invoice) : Invoice :=
  if i.paidAt.isNone = true then { i with paidAt := some timestamp } else i

def Invoice.undated (i : Invoice) : Invoice :=
  if i.status.any (fun status => decide (status ≠ .paid)) = true then
    { i with paidAt := none }
  else i

def Invoice.hashed (hash : String) (i : Invoice) : Invoice :=
  if i.paymentTxHash.isNone = true then { i with paymentTxHash := some hash }
  else i

def Invoice.versioned (i : Invoice) : Invoice :=
  if i.version.all (fun version => decide (version < 1)) = true then
    { i with version := some 1 }
  else i

theorem affects_updateInvoice (k : String) {p : Invoice → Bool}
    {f : Invoice → Invoice} (hf : ∀ i, (f i).id = i.id) (hmemo : ∀ i, (f i).memo = i.memo) :
    Affects (fun table : InvoiceTable => table.rows) Invoice.id k
      (fun table => .ok (table.update k p f hf hmemo))
      (fun i => if p i = true then f i else i) := by
  intro table table' h i' hi' hid
  rw [← Except.ok.inj h] at hi'
  exact affects_update k hf table.toKeyTable _ rfl i' hi' hid

theorem affects_backfillPaymentTxHash (k hash : String) :
    Affects (fun table : InvoiceTable => table.rows) Invoice.id k
      (backfillPaymentTxHash k hash) (Invoice.hashed hash) := by
  intro table table' h
  rw [backfillPaymentTxHash] at h
  split at h
  · cases h
  · exact affects_updateInvoice k _ _ table table' h

/-- What the statements of a row make of an invoice. -/
def InvoiceRow.effects (row : InvoiceRow) : List (Invoice → Invoice) :=
  let i := row.invoice
  (if i.status = some .paid ∧ i.paidAt = none then
    [Invoice.dated ((row.tx.bind Transaction.processedAt).getD i.createdAt)]
  else [])
  ++ (if i.status ≠ some .paid ∧ i.paidAt ≠ none then [Invoice.undated]
  else [])
  ++ (match row.offeredHash with
    | some hash =>
      if i.status = some .paid then [Invoice.hashed hash] else []
    | none => [])
  ++ (if i.version.all (fun version => decide (version < 1)) = true then
    [Invoice.versioned]
  else [])

theorem InvoiceRow.statements_affect (row : InvoiceRow) :
    Forall₂ (fun s g => Affects (fun table : InvoiceTable => table.rows)
      Invoice.id row.invoice.id s.2 g) row.statements row.effects := by
  refine rel_append (rel_append (rel_append ?_ ?_) ?_) ?_
  · exact affects_if (affects_updateInvoice _ _ _)
  · exact affects_if (affects_updateInvoice _ _ _)
  · cases row.offeredHash with
    | some hash => exact affects_if (affects_backfillPaymentTxHash _ _)
    | none => exact .nil
  · exact affects_if (affects_updateInvoice _ _ _)

/-- The invoice of a row, once it is repaired. -/
def InvoiceRow.settled (row : InvoiceRow) : Invoice :=
  let i := row.invoice
  { i with
    paidAt :=
      if i.status = some .paid then
        some (i.paidAt.getD ((row.tx.bind Transaction.processedAt).getD i.createdAt))
      else if i.status.any (fun status => decide (status ≠ .paid)) = true then
        none
      else i.paidAt
    paymentTxHash := i.paymentTxHash.or (if i.status = some .paid then row.offeredHash else none)
    version :=
      if i.version.all (fun version => decide (version < 1)) = true then some 1
      else i.version }

theorem Invoice.dates_eq (i : Invoice) (timestamp : Int) :
    (if i.status ≠ some .paid ∧ i.paidAt ≠ none then
        (if i.status = some .paid ∧ i.paidAt = none then i.dated timestamp else i).undated
      else if i.status = some .paid ∧ i.paidAt = none then i.dated timestamp else i) = { i with
          paidAt :=
            if i.status = some .paid then some (i.paidAt.getD timestamp)
            else if i.status.any (fun status => decide (status ≠ .paid)) = true then none
            else i.paidAt } := by
  obtain ⟨id, memo, status, paidAt, hash, version, createdAt⟩ := i
  by_cases hpaid : status = some .paid
  · subst hpaid
    cases paidAt with
    | none => rfl
    | some time => rfl
  cases paidAt with
  | none => simp [hpaid]
  | some time =>
    simp only [hpaid, false_and, if_false]
    rw [if_pos ⟨hpaid, some_ne_none _⟩, Invoice.undated]
    split
    · rfl
    · rfl

theorem Invoice.hash_eq (i : Invoice) (offered : Option String) (c : Prop) [Decidable c] :
    foldl (fun i (g : Invoice → Invoice) => g i) i (match offered with
        | some hash => if c then [Invoice.hashed hash] else []
        | none => [])
      = { i with paymentTxHash := i.paymentTxHash.or (if c then offered else none) } := by
  obtain ⟨id, memo, status, paidAt, hash, version, createdAt⟩ := i
  cases offered with
  | none => simp
  | some offered =>
    rw [foldl_if]
    cases hash with
    | some hash => simp [Invoice.hashed]
    | none =>
      split
      · rfl
      · rfl

theorem InvoiceRow.foldl_effects (row : InvoiceRow) :
    row.effects.foldl (fun i g => g i) row.invoice = row.settled := by
  rw [InvoiceRow.effects, foldl_append, foldl_append,
    foldl_append, foldl_if, foldl_if, foldl_if, Invoice.dates_eq,
    Invoice.hash_eq, InvoiceRow.settled]
  by_cases hversion : row.invoice.version.all (fun version => decide (version < 1)) = true
  · rw [if_pos hversion, if_pos hversion]
    exact if_pos hversion
  · rw [if_neg hversion, if_neg hversion]

/-- Nothing is left to repair in an invoice. -/
structure Consistent (first : List Transaction → Option Transaction)
    (d : Tables) (i : Invoice) : Prop where
  paid : i.status = some .paid → i.paidAt ≠ none
  unpaid : i.status.any (fun status => decide (status ≠ .paid)) = true → i.paidAt = none
  hash : i.status = some .paid → i.paymentTxHash = none →
    JsText.nonEmpty ((linkedTransaction first d i).map Transaction.txHash) = none
  version : i.version.all (fun version => decide (version < 1)) = false

variable {first : List Transaction → Option Transaction} {d : Tables} {row : InvoiceRow}
  {i : Invoice}

theorem consistent_of_unpicked (h : invoiceRow first d i = none) : Consistent first d i := by
  have hno : isInconsistent i (linkedTransaction first d i) = false := by
    rw [invoiceRow] at h
    split at h
    · cases h
    rename_i hno
    exact Bool.eq_false_iff.mpr hno
  rw [isInconsistent, Bool.or_eq_false_iff, Bool.or_eq_false_iff, Bool.or_eq_false_iff] at hno
  obtain ⟨⟨⟨hpaid, hunpaid⟩, hhash⟩, hversion⟩ := hno
  refine ⟨?_, ?_, ?_, hversion⟩
  · intro hstatus hnone
    rw [hnone, decide_eq_true hstatus] at hpaid
    cases hpaid
  · intro hstatus
    rw [hstatus, Bool.true_and, isSome_eq_false_iff, isNone_iff_eq_none] at hunpaid
    exact hunpaid
  intro hstatus hnone
  rw [hnone, decide_eq_true hstatus, isNone_none, Bool.true_and,
    Bool.true_and, isSome_eq_false_iff, isNone_iff_eq_none]
    at hhash
  rw [hhash]
  rfl

theorem InvoiceRow.settled_consistent (htx : row.tx = linkedTransaction first d row.invoice) :
    Consistent first d row.settled := by
  refine ⟨?_, ?_, ?_, ?_⟩
  · intro hstatus
    have hpaid : row.invoice.status = some .paid := hstatus
    show (if row.invoice.status = some .paid then _ else _) ≠ none
    rw [if_pos hpaid]
    exact some_ne_none _
  · intro hstatus
    show (if row.invoice.status = some .paid then _ else _) = none
    have hunpaid : row.invoice.status ≠ some .paid := by
      intro hpaid
      have hany : row.invoice.status.any (fun status => decide (status ≠ .paid)) = true := hstatus
      rw [hpaid] at hany
      cases hany
    rw [if_neg hunpaid]
    exact if_pos hstatus
  · intro hstatus hnone
    have hpaid : row.invoice.status = some .paid := hstatus
    have hboth : row.invoice.paymentTxHash.or
        (if row.invoice.status = some .paid then row.offeredHash else none)
        = none := hnone
    rw [if_pos hpaid, or_eq_none_iff] at hboth
    obtain ⟨hhash, hoffer⟩ := hboth
    have hlinked : linkedTransaction first d row.settled
        = linkedTransaction first d row.invoice := by
      rw [linkedTransaction, linkedTransaction, hnone, hhash]
      rfl
    rw [InvoiceRow.offeredHash, hhash] at hoffer
    rw [hlinked, ← htx]
    exact hoffer
  · show (if _ = true then some 1 else row.invoice.version).all _ = false
    split
    · rfl
    rename_i hversion
    exact Bool.eq_false_iff.mpr hversion

theorem invoiceRow_eq_some (h : invoiceRow first d i = some row) :
    row.invoice = i ∧ row.tx = linkedTransaction first d i := by
  rw [invoiceRow] at h
  split at h
  · cases h
    exact ⟨rfl, rfl⟩
  · cases h

theorem invoiceScan_establishes :
    (invoiceScan false first).Establishes (Consistent first) Outcome.ok where
  unpicked := fun _ _ h => consistent_of_unpicked h
  settles := by
    intro d row i hi hpick hok i' hi' hid
    obtain ⟨hinvoice, htx⟩ := invoiceRow_eq_some hpick
    cases hran : (execute false d.invoices row.statements).2 with
    | error message =>
      have hfailed : (rowOutcome _ (execute false d.invoices row.statements).2).ok := hok
      rw [hran] at hfailed
      exact False.elim hfailed
    | ok actions =>
      have hkey : i'.id = row.invoice.id := hid.trans (by rw [hinvoice]; rfl)
      obtain ⟨x, hx, hxid, rfl⟩ := execute_affects row.statements_affect hran i' hi' hkey
      have hsame : x = row.invoice := by
        rw [hinvoice] at hxid ⊢
        exact eq_of_id (S := invoiceScan false first) hx hi hxid
      rw [hsame, row.foldl_effects]
      have hconsistent : Consistent first d row.settled :=
        row.settled_consistent (by rw [htx, hinvoice])
      exact { hconsistent with }
  keeps := by
    intro d row i h
    exact { h with }

/-- A consistent invoice is selected only for a transaction with an empty
    hash, and then nothing is done. -/
theorem Consistent.statements_eq (h : Consistent first d i)
    (hpick : invoiceRow first d i = some row) : row.statements = [] := by
  have hselected : isInconsistent i (linkedTransaction first d i) = true := by
    rw [invoiceRow] at hpick
    split at hpick
    · assumption
    · cases hpick
  rw [isInconsistent, h.version, Bool.or_false, Bool.or_eq_true,
    Bool.or_eq_true, Bool.and_eq_true, Bool.and_eq_true, Bool.and_eq_true,
    Bool.and_eq_true, decide_eq_true_eq, isNone_iff_eq_none,
    isNone_iff_eq_none] at hselected
  obtain ⟨rfl, htx⟩ := invoiceRow_eq_some hpick
  rcases hselected with (⟨hpaid, hnone⟩ | ⟨hunpaid, hsome⟩) | ⟨⟨hpaid, hhash⟩, -⟩
  · exact absurd hnone (h.paid hpaid)
  · rw [h.unpaid hunpaid] at hsome
    cases hsome
  have hoffer : row.offeredHash = none := by
    rw [InvoiceRow.offeredHash, hhash, htx]
    exact h.hash hpaid hhash
  rw [InvoiceRow.statements, hoffer, if_neg (fun hno => h.paid hpaid hno.2),
    if_neg (fun hno => hno.1 hpaid), h.version]
  rfl

theorem InvoiceRow.repair_nil (d : Tables) (h : row.statements = []) :
    InvoiceRow.repair false d row = (d, .skipped) := by
  rw [InvoiceRow.repair, h]
  rfl

end Invoices

/-! ## Jobs -/

section Jobs

/-- Nothing is left to repair in a job, the lapse of its lease aside. -/
structure Coherent (j : JobRow) : Prop where
  leased : j.status = .running → j.lockedUntil ≠ none
  ended : j.isTerminal = true → j.completedAt ≠ none
  pending : j.isPending = true → j.completedAt = none

variable {j : JobRow} {lapsed : Int → Bool}

theorem coherent_of_unpicked (h : jobRow lapsed j = none) : Coherent j := by
  rw [jobRow] at h
  split at h
  · cases h
  rename_i hno
  rw [Bool.not_eq_true, Bool.or_eq_false_iff, Bool.or_eq_false_iff] at hno
  obtain ⟨⟨hrunning, hterminal⟩, hpending⟩ := hno
  refine ⟨?_, ?_, ?_⟩
  · intro hstatus hnone
    rw [hnone, decide_eq_true hstatus] at hrunning
    cases hrunning
  · intro hended hnone
    rw [hended, hnone] at hterminal
    cases hterminal
  intro hstatus
  rw [hstatus, Bool.true_and, isSome_eq_false_iff, isNone_iff_eq_none] at hpending
  exact hpending

/-- The effects of the statements on a job. -/
def JobRow.requeued (now : Int) (j : JobRow) : JobRow :=
  if decide (j.status = .running) = true then
    { j with
      status := .queued
      lockedUntil := none
      lockedBy := none
      updatedAt := now }
  else j

def JobRow.completed (time : Int) (j : JobRow) : JobRow :=
  if j.completedAt.isNone = true then { j with completedAt := some time }
  else j

def JobRow.uncompleted (j : JobRow) : JobRow :=
  if j.isPending = true then { j with completedAt := none } else j

def JobRow.effects (readings : Readings) (j : JobRow) :
    List (JobRow → JobRow) :=
  (if j.status = .running ∧ j.lockedUntil.all (readings.stale j.id) = true then
    [JobRow.requeued (readings.now j.id)]
  else [])
  ++ (if j.isTerminal = true ∧ j.completedAt = none then
    [JobRow.completed j.updatedAt]
  else [])
  ++ (if j.isPending = true ∧ j.completedAt ≠ none then [JobRow.uncompleted]
  else [])

variable {readings : Readings}

theorem JobRow.statements_affect (j : JobRow) :
    Forall₂ (fun s g => Affects KeyTable.rows JobRow.id j.id s.2 g)
      (j.statements readings) (j.effects readings) := by
  refine rel_append (rel_append ?_ ?_) ?_
  · exact affects_if (affects_update _ _)
  · exact affects_if (affects_update _ _)
  · exact affects_if (affects_update _ _)

theorem JobRow.effects_coherent (j : JobRow) :
    Coherent ((j.effects readings).foldl (fun j g => g j) j) := by
  rw [JobRow.effects, foldl_append, foldl_append, foldl_if, foldl_if, foldl_if]
  obtain ⟨id, status, lockedUntil, lockedBy, completedAt, updatedAt⟩ := j
  cases status with
  | queued =>
    cases completedAt <;> exact ⟨nofun, nofun, fun _ => rfl⟩
  | succeeded =>
    cases completedAt <;> exact ⟨nofun, fun _ => nofun, nofun⟩
  | dead =>
    cases completedAt <;> exact ⟨nofun, fun _ => nofun, nofun⟩
  | running =>
    cases hstale : lockedUntil.all (readings.stale id) with
    | true =>
      simp only [and_self, if_true]
      cases completedAt <;> exact ⟨nofun, nofun, fun _ => rfl⟩
    | false =>
      -- a lease that is not stale is there
      have hleased : lockedUntil ≠ none := by
        rintro rfl
        cases hstale
      simp only [Bool.false_eq_true, and_false, if_false]
      cases completedAt <;> exact ⟨fun _ => hleased, nofun, fun _ => rfl⟩

theorem JobRow.execute_names (j : JobRow) (table : KeyTable JobRow.id) :
    (execute false table (j.statements readings)).2
      = .ok ((j.statements readings).map Prod.fst) := by
  refine execute_of_ok ?_ table
  intro s hs table
  rcases JobRow.statement_cases hs with heq | heq | heq
  all_goals
    rw [heq]
    exact ⟨_, rfl⟩

theorem jobRow_eq_some {j row : JobRow} (h : jobRow lapsed j = some row) : row = j := by
  rw [jobRow] at h
  split at h
  · exact (some.inj h).symm
  · cases h

theorem jobScan_establishes : (jobScan false readings).Establishes (fun _ j => Coherent j)
      Outcome.ok where
  unpicked := fun _ _ h => coherent_of_unpicked h
  settles := by
    intro d row j hj hpick hok j' hj' hid
    obtain rfl := jobRow_eq_some hpick
    obtain ⟨x, hx, hxid, rfl⟩ := execute_affects row.statements_affect
      (row.execute_names d.jobs) j' hj' hid
    have hsame : x = row := eq_of_id (S := jobScan false readings) hx hj hxid
    rw [hsame]
    exact row.effects_coherent
  keeps := fun _ _ _ h => h

/-- No job that runs has a lease that both clocks tell as ended. -/
def Quiet (readings : Readings) (d : Tables) : Prop :=
  ∀ j ∈ d.jobs.rows, j.status = .running → ¬ (j.lockedUntil.all readings.lapsed = true
      ∧ j.lockedUntil.all (readings.stale j.id) = true)

/-- A coherent job is selected only for its lease, and nothing is done unless
    both clocks tell that it has ended. -/
theorem Coherent.statements_eq (h : Coherent j) (hquiet : j.status = .running →
      ¬ (j.lockedUntil.all readings.lapsed = true ∧ j.lockedUntil.all (readings.stale j.id) = true))
    (hpick : jobRow readings.lapsed j ≠ none) : j.statements readings = [] := by
  have hterminal : ¬ (j.isTerminal = true ∧ j.completedAt = none) :=
    fun hno => h.ended hno.1 hno.2
  have hpending : ¬ (j.isPending = true ∧ j.completedAt ≠ none) :=
    fun hno => hno.2 (h.pending hno.1)
  have hselected : j.status = .running ∧ j.lockedUntil.all readings.lapsed = true := by
    by_contra hno
    refine hpick (if_neg ?_)
    rw [Bool.or_eq_true, Bool.or_eq_true, Bool.and_eq_true, Bool.and_eq_true,
      Bool.and_eq_true, decide_eq_true_eq, isNone_iff_eq_none,
      isSome_iff_ne_none]
    rintro ((hrunning | hended) | hopen)
    · exact hno hrunning
    · exact hterminal hended
    · exact hpending hopen
  have hstale : ¬ (j.status = .running ∧ j.lockedUntil.all (readings.stale j.id) = true) :=
    fun hno => hquiet hno.1 ⟨hselected.2, hno.2⟩
  rw [JobRow.statements, if_neg hstale, if_neg hterminal, if_neg hpending]
  rfl

theorem JobRow.repair_nil (d : Tables) (h : j.statements readings = []) :
    JobRow.repair readings false d j = (d, .skipped) := by
  rw [JobRow.repair, h]
  rfl

end Jobs

/-! ## Phases -/

section Phases

variable {first : List Transaction → Option Transaction}
  {readings : Readings} {d : Tables}

/-- The records a phase looks through. -/
def recordsOf : (phase : RepairPhase) → Tables → List (RecordOf phase)
  | .detachedTransactions => fun d => d.transactions.rows
  | .orphanedTransactions => fun d => d.transactions.rows
  | .orphanedPaymentEvents => fun d => d.paymentEvents.rows
  | .inconsistentInvoices => fun d => d.invoices.rows
  | .inconsistentJobs => fun d => d.jobs.rows

theorem records_scan (first : List Transaction → Option Transaction)
    (readings : Readings) (dry : Bool) (phase : RepairPhase) (d : Tables) :
    (scanOf first readings dry phase).records d = recordsOf phase d := by
  cases phase <;> rfl

/-- Nothing is left to repair in a record. -/
def Done (first : List Transaction → Option Transaction) :
    (phase : RepairPhase) → Tables → RecordOf phase → Prop
  | .detachedTransactions => fun d t => detachedRow d t = none
  | .orphanedTransactions => fun d (t : Transaction) =>
    orphanedRow d t.id t.txHash t.invoiceId = none
  | .orphanedPaymentEvents => fun d (e : PaymentEvent) =>
    orphanedRow d e.id e.eventType e.invoiceId = none
  | .inconsistentInvoices => Consistent first
  | .inconsistentJobs => fun _ j => Coherent j

/-- Nothing is left to repair for a phase. -/
def Settled (first : List Transaction → Option Transaction)
    (phase : RepairPhase) (d : Tables) : Prop :=
  ∀ x ∈ recordsOf phase d, Done first phase d x

/-- **A REPAIR LEAVES NOTHING TO REPAIR** in its record. -/
theorem scan_establishes (first : List Transaction → Option Transaction)
    (readings : Readings) (phase : RepairPhase) :
    (scanOf first readings false phase).Establishes (Done first phase)
      Outcome.ok := by
  cases phase with
  | detachedTransactions => exact detachedScan_establishes
  | orphanedTransactions => exact orphanedTransactionScan_establishes
  | orphanedPaymentEvents => exact orphanedPaymentEventScan_establishes
  | inconsistentInvoices => exact invoiceScan_establishes
  | inconsistentJobs => exact jobScan_establishes

/-- **A SETTLED PHASE IS IDLE**: what it still selects it skips. -/
theorem repair_idle {phase : RepairPhase} (hsettled : Settled first phase d)
    (hquiet : Quiet readings d) {row : RowOf phase}
    (hrow : row ∈ (scanOf first readings false phase).select d) :
    (scanOf first readings false phase).repair d row = (d, .skipped) := by
  obtain ⟨x, hx, hpick⟩ := mem_select.mp hrow
  rw [records_scan] at hx
  have hdone := hsettled x hx
  cases phase with
  | inconsistentInvoices => exact InvoiceRow.repair_nil d (Consistent.statements_eq hdone hpick)
  | inconsistentJobs =>
    have hpicked : jobRow readings.lapsed x = some row := hpick
    obtain rfl := jobRow_eq_some hpicked
    refine JobRow.repair_nil d (Coherent.statements_eq hdone (hquiet _ hx) ?_)
    rw [hpicked]
    exact some_ne_none _
  | _ => cases (hdone.symm.trans hpick : none = some row)

end Phases

end Repair

import Inqutum.InvoiceRowMovesProofs
import Inqutum.JobParityProofs
import Inqutum.RestoreValidationProofs

/-!
# Is a healthy database healthy

The invoice service, the payment monitor and the job store write the four
tables that restore validation looks at.  Starting from empty tables, each
of their steps keeps `Coherent`, if it is `Careful`: a payment that the
verify endpoint makes has its row in `transactions`, the rows of an
invoice that is paid have its amount to the last decimal, and an invoice
is created before it expires.  The code sees to none of the three.

`careful_healthy` is the consequence for the report, in every state that a
run of careful steps reaches with no call in progress and no lease
lapsed; the report then depends on nothing but `min(uuid)`.
-/

namespace RestoreHealth

open Invoices PaymentMonitor
open Jobs (JobRow JobStatus JobTable)
open Transition (Along)
open List RestoreValidation PaymentMonitor

/-! ## The tables as they are validated -/

/-- A text in a `DECIMAL(20, 7)` column. -/
def amountColumn (text : String) : Option ℚ :=
  (JsNumber.readDecimal (JsText.trimChars text.toList)).map decimal7

def invoiceOf (row : InvoiceRow) : Invoice where
  id := row.id
  memo := row.memo
  status := some row.status.text
  paymentTxHash := row.paymentTxHash
  amount := row.amount
  createdAt := row.createdAt
  paidAt := row.paidAt
  expiresAt := some row.expiresAt
  version := some row.version

def transactionOf (t : TransactionRow) : Transaction where
  invoiceId := some t.invoiceId
  txHash := t.txHash
  memo := t.memo
  amount := amountColumn t.amount

def paymentEventOf (e : Invoices.PaymentEvent) : RestoreValidation.PaymentEvent where
  invoiceId := some e.invoiceId

def jobStatusText : JobStatus → String
  | .queued => "queued"
  | .running => "running"
  | .succeeded => "succeeded"
  | .dead => "dead"

/-- The end of a lease is kept in microseconds, other instants of a job in
    milliseconds. -/
def jobOf (row : JobRow) : Job where
  status := jobStatusText row.status
  lockedUntil := row.lockedUntil
  completedAt := row.completedAt.map (fun ms => 1000 * ms)

def tablesOf (db : InvoiceDb) (transactions : List TransactionRow)
    (jobs : JobTable) : Tables where
  invoices := db.invoices.rows.map invoiceOf
  transactions := transactions.map transactionOf
  paymentEvents := db.paymentEvents.map paymentEventOf
  jobs := jobs.rows.map jobOf

/-! ## What each step must see to -/

/-- A transaction stands behind a payment of the invoice by this hash, or is
    about to be saved. -/
def Covered (s : State) (id txHash : String) : Prop :=
  (∃ t ∈ s.transactions, t.invoiceId = id ∨ t.txHash = txHash)
    ∨ ∃ record id', Phase.saving record id' ∈ s.calls ∧ (id' = id ∨ record.transactionHash = txHash)

def AmountsAgree (s : State) (id : String) : Prop :=
  ∀ t ∈ s.transactions, t.invoiceId = id → ∀ row ∈ s.db.invoices.rows, row.id = id →
      amountColumn t.amount = some row.amount

/-- What a request must see to: an invoice is created before it expires, and
    the verify endpoint pays one whose transactions are there and agree. -/
def CarefulRequest (s : State) : Request → Prop
  | .create input _ _ now dbNow => ∀ expiresAt,
      calculateInvoiceExpiry input.expiresInDays now = .ok expiresAt →
        dbNow < timestampParam expiresAt
  | .verify id txHash payerPublicKey payerInfo expectedVersion dbNow =>
    (InvoiceService.markAsPaid s.db id txHash payerPublicKey payerInfo
      expectedVersion dbNow).2.isOk = true →
      Covered s id txHash ∧ AmountsAgree s id
  | _ => True

/-- What a handled payment must see to: the transaction of an invoice that is
    paid agrees with it, whichever of the two is written last. -/
def CarefulPhase (s : State) (dbNow : Int) : Option Phase → Prop
  | some (.saving record id) => ∀ row ∈ s.db.invoices.rows, row.id = id → row.status = .paid →
        amountColumn (record.operation.amount.getD "") = some row.amount
  | some (.paying record id) =>
    (∃ paid, payStatement s.db id record.transactionHash
      (record.operation.fromAddress.getD "") dbNow = .ok paid
        ∧ paid.2.isSome = true) → AmountsAgree s id
  | _ => True

instance (s : State) (id : String) : Decidable (AmountsAgree s id) :=
  inferInstanceAs (Decidable (∀ t ∈ s.transactions, t.invoiceId = id →
    ∀ row ∈ s.db.invoices.rows, row.id = id → amountColumn t.amount = some row.amount))

instance (s : State) (dbNow : Int) : (phase : Option Phase) → Decidable (CarefulPhase s dbNow phase)
  | some (.saving record id) =>
    inferInstanceAs (Decidable (∀ row ∈ s.db.invoices.rows, row.id = id → row.status = .paid →
        amountColumn (record.operation.amount.getD "") = some row.amount))
  | some (.paying record id) =>
    match hpay : payStatement s.db id record.transactionHash
        (record.operation.fromAddress.getD "") dbNow with
    | .ok paid =>
      decidable_of_iff (paid.2.isSome = true → AmountsAgree s id) (by
        simp only [CarefulPhase, hpay, Except.ok.injEq, exists_eq_left'])
    | .error _ => isTrue (fun ⟨_, h, _⟩ => by simp [hpay] at h)
  | none | some (.sweeping _) | some (.reading _) | some (.logging _ _)
  | some (.confirming _ _) | some .finished => instDecidableTrue

/-- No statement fails, and the step sees to what it must. -/
def Careful (s : State) : Event → Prop
  | .deliver _ _ => True
  | .statement k _ dbNow fails => fails = false ∧ CarefulPhase s dbNow s.calls[k]?
  | .request request => CarefulRequest s request

/-! ## Rows -/

structure RowSound (row : InvoiceRow) : Prop where
  paid : row.status = .paid → ∃ paidAt txHash, row.paidAt = some paidAt
    ∧ paidAt < row.expiresAt ∧ row.paymentTxHash = some txHash
  unpaid : row.status ≠ .paid → row.paidAt = none
  version : 1 ≤ row.version
  expiry : row.createdAt < row.expiresAt

theorem RowSound.of_pending {row row' : InvoiceRow} (h : RowSound row)
    (hpending : row.status = .pending) (hstatus : row'.status ≠ .paid)
    (hpaidAt : row'.paidAt = row.paidAt) (hversion : row.version ≤ row'.version)
    (hcreated : row'.createdAt = row.createdAt)
    (hexpires : row'.expiresAt = row.expiresAt) : RowSound row' where
  paid hpaid := absurd hpaid hstatus
  unpaid _ := by
    rw [hpaidAt]
    refine h.unpaid fun hpaid => ?_
    rw [hpending] at hpaid
    cases hpaid
  version := le_trans h.version hversion
  expiry := by
    rw [hcreated, hexpires]
    exact h.expiry

theorem RowSound.from {db : InvoiceDb} {pays : String → String → Prop} {creates : InvoiceRow → Prop}
    (h : ∀ row ∈ db.invoices.rows, RowSound row)
    (hcreates : ∀ row, creates row → RowSound row) {row : InvoiceRow}
    (hrow : RowFrom db pays creates row) : RowSound row := by
  cases hrow with
  | kept hmem => exact h _ hmem
  | expired hmem hpending =>
    exact (h _ hmem).of_pending hpending nofun rfl (le_refl _) rfl rfl
  | cancelled hmem hpending =>
    refine (h _ hmem).of_pending hpending nofun rfl ?_ rfl rfl
    exact le_of_lt (lt_add_one _)
  | @paid old txHash payerPublicKey payerInfo dbNow hmem hpending hdue _ =>
    refine ⟨fun _ => ⟨dbNow, txHash, rfl, hdue, rfl⟩,
      fun hunpaid => absurd rfl hunpaid, ?_, (h _ hmem).expiry⟩
    exact le_trans (h _ hmem).version (le_of_lt (lt_add_one _))
  | created hnew => exact hcreates _ hnew

theorem rowSound_new {input : CreateInvoiceInput} {id memo : String}
    {expiresAt dbNow : Int} (h : dbNow < timestampParam expiresAt) :
    RowSound (InvoiceService.newRow input id memo expiresAt dbNow) where
  paid hpaid := nomatch hpaid
  unpaid _ := rfl
  version := le_refl _
  expiry := h

theorem paid_from {db : InvoiceDb} {pays : String → String → Prop} {creates : InvoiceRow → Prop}
    (hcreates : ∀ row, creates row → row.status = .pending)
    {row : InvoiceRow} (hrow : RowFrom db pays creates row) (hpaid : row.status = .paid) :
    row ∈ db.invoices.rows ∨ ∃ old ∈ db.invoices.rows, old.id = row.id ∧ old.amount = row.amount
          ∧ ∃ txHash, row.paymentTxHash = some txHash ∧ pays row.id txHash := by
  cases hrow with
  | kept hmem => exact .inl hmem
  | expired _ _ => cases hpaid
  | cancelled _ _ => cases hpaid
  | @paid old txHash payerPublicKey payerInfo dbNow hmem _ _ hpays =>
    exact .inr ⟨old, hmem, rfl, rfl, txHash, rfl, hpays⟩
  | created hnew =>
    rw [hcreates _ hnew] at hpaid
    cases hpaid

/-! ## The invariant of the payments -/

/-- What holds of the tables that invoices are paid through. -/
structure Coherent (ledger : Ledger) (s : State) : Prop where
  rows : ∀ row ∈ s.db.invoices.rows, RowSound row
  events : ∀ e ∈ s.db.paymentEvents, Known s.db e.invoiceId
  logging : ∀ id eventData, Phase.logging id eventData ∈ s.calls → Known s.db id
  origins : ∀ t ∈ s.transactions, Origin ledger s.db t
  hashes : (s.transactions.map (fun t => t.txHash)).Nodup
  covered : ∀ row ∈ s.db.invoices.rows, row.status = .paid →
    ∀ txHash, row.paymentTxHash = some txHash → Covered s row.id txHash
  amounts : ∀ row ∈ s.db.invoices.rows, row.status = .paid →
    ∀ t ∈ s.transactions, t.invoiceId = row.id → amountColumn t.amount = some row.amount

theorem coherent_empty (ledger : Ledger) :
    Coherent ledger (State.init ⟨InvoiceTable.empty, []⟩) where
  rows _ h := nomatch h
  events _ h := nomatch h
  logging _ _ h := nomatch h
  origins _ h := nomatch h
  hashes := nodup_nil
  covered _ h := nomatch h
  amounts _ h := nomatch h

namespace Coherent

variable {ledger : Ledger} {s : State}

/-- **A CALL ON THE INVOICES** keeps the invariant, if every payment it makes
    is covered and agrees, and every row it inserts is sound and pending. -/
theorem dbMoves (h : Coherent ledger s) {db : InvoiceDb}
    {pays : String → String → Prop} {creates : InvoiceRow → Prop}
    (hmoves : DbMoves s.db pays creates db)
    (hpays : ∀ id txHash, pays id txHash → Covered s id txHash ∧ AmountsAgree s id)
    (hcreates : ∀ row, creates row → RowSound row ∧ row.status = .pending) :
    Coherent ledger { s with db := db } where
  rows row hmem :=
    RowSound.from h.rows (fun row hnew => (hcreates row hnew).1) (hmoves.rows row hmem)
  events e hmem := by
    rcases hmoves.events e hmem with hold | hknown
    · exact (h.events e hold).extends hmoves.grows
    · exact hknown
  logging id eventData hmem := (h.logging id eventData hmem).extends hmoves.grows
  origins t hmem := (h.origins t hmem).extends hmoves.grows
  hashes := h.hashes
  covered row hmem hpaid txHash hhash := by
    rcases paid_from (fun row hnew => (hcreates row hnew).2)
      (hmoves.rows row hmem) hpaid with hold | ⟨_, _, _, _, _, hhash', hpay⟩
    · exact h.covered row hold hpaid txHash hhash
    rw [hhash] at hhash'
    cases hhash'
    exact (hpays _ _ hpay).1
  amounts row hmem hpaid t ht hid := by
    rcases paid_from (fun row hnew => (hcreates row hnew).2) (hmoves.rows row hmem) hpaid with
      hold | ⟨old, hold, hsame, hamount, _, _, hpay⟩
    · exact h.amounts row hold hpaid t ht hid
    rw [← hamount]
    exact (hpays _ _ hpay).2 t ht hid old hold hsame

/-- **THE NEXT PHASE** of a handled payment keeps the invariant, if nothing
    was about to be saved in the last one. -/
theorem advance (h : Coherent ledger s) {k : Nat} {phase phase' : Phase}
    (hk : s.calls[k]? = some phase) (hsaved : ∀ record id, phase ≠ .saving record id)
    (hlogging : ∀ id eventData, phase' = .logging id eventData → Known s.db id) :
    Coherent ledger { s with calls := s.calls.set k phase' } where
  rows := h.rows
  events := h.events
  logging id eventData hmem := by
    rcases mem_or_eq_of_mem_set hmem with hmem | heq
    · exact h.logging id eventData hmem
    · exact hlogging id eventData heq.symm
  origins := h.origins
  hashes := h.hashes
  covered row hmem hpaid txHash hhash := by
    rcases h.covered row hmem hpaid txHash hhash with
      hrow | ⟨record, id, hcall, hbacks⟩
    · exact .inl hrow
    refine .inr ⟨record, id, mem_set_of_ne hk hcall ?_, hbacks⟩
    exact (hsaved record id).symm
  amounts := h.amounts

theorem settles (h : Coherent ledger s) (settled : List (HorizonPayment × String)) :
    Coherent ledger { s with settled := settled } :=
  ⟨h.rows, h.events, h.logging, h.origins, h.hashes, h.covered, h.amounts⟩

theorem receives (h : Coherent ledger s) (record : HorizonPayment) :
    Coherent ledger { s with calls := s.calls ++ [.sweeping record] } where
  rows := h.rows
  events := h.events
  logging id eventData hmem := by
    rcases mem_append.mp hmem with hmem | hmem
    · exact h.logging id eventData hmem
    · cases mem_singleton.mp hmem
  origins := h.origins
  hashes := h.hashes
  covered row hmem hpaid txHash hhash := by
    refine (h.covered row hmem hpaid txHash hhash).imp_right ?_
    rintro ⟨record, id, hcall, hbacks⟩
    exact ⟨record, id, mem_append_left _ hcall, hbacks⟩
  amounts := h.amounts

/-- **THE TRANSACTION IS SAVED**, unless its hash is there: then the row that
    has it is of the same invoice. -/
theorem saves (h : Coherent ledger s) {publicKey : String} {k : Nat}
    {record : HorizonPayment} {id : String} (hk : s.calls[k]? = some (.saving record id))
    (hbacks : Backs ledger publicKey s.db record id)
    (hcareful : CarefulPhase s 0 (some (.saving record id))) : Coherent ledger { s with
      transactions := saveTransaction s.transactions (paymentRecord ledger record) id
      calls := s.calls.set k (.paying record id) } := by
  have horigin : Origin ledger s.db (transactionRow (paymentRecord ledger record) id) := by
    obtain ⟨-, row, hrow, hmatches⟩ := hbacks
    exact ⟨row, hrow, hmatches.memo⟩
  have hkept : ∀ t ∈ s.transactions, t ∈ saveTransaction s.transactions
      (paymentRecord ledger record) id := by
    intro t ht
    rcases saveTransaction_cases s.transactions (paymentRecord ledger record)
      id with ⟨_, _, _, hsame⟩ | hnew
    · rw [hsame]
      exact ht
    rw [hnew]
    exact mem_append_left _ ht
  have hmine : ∃ t ∈ saveTransaction s.transactions
      (paymentRecord ledger record) id, t.invoiceId = id ∧ t.txHash = record.transactionHash := by
    rcases saveTransaction_cases s.transactions (paymentRecord ledger record)
      id with ⟨t, ht, hhash, hsame⟩ | hnew
    · rw [hsame]
      exact ⟨t, ht, (h.origins t ht).eq_of_backs hbacks hhash, hhash⟩
    rw [hnew]
    exact ⟨_, mem_append_right _ (.head _), rfl, rfl⟩
  have hrows : ∀ t ∈ saveTransaction s.transactions
      (paymentRecord ledger record) id, t ∈ s.transactions
        ∨ t = transactionRow (paymentRecord ledger record) id := by
    intro t ht
    rcases saveTransaction_cases s.transactions (paymentRecord ledger record)
      id with ⟨_, _, _, hsame⟩ | hnew
    · rw [hsame] at ht
      exact .inl ht
    rw [hnew] at ht
    exact (mem_append.mp ht).imp_right mem_singleton.mp
  refine ⟨h.rows, h.events, ?_, ?_, ?_, ?_, ?_⟩
  · intro id' eventData hmem
    rcases mem_or_eq_of_mem_set hmem with hmem | heq
    · exact h.logging id' eventData hmem
    · cases heq
  · intro t ht
    rcases hrows t ht with hold | rfl
    · exact h.origins t hold
    · exact horigin
  · show (map _ (saveTransaction _ _ _)).Nodup
    rw [saveTransaction]
    split
    · exact h.hashes
    next hfree =>
      rw [map_append, nodup_append]
      refine ⟨h.hashes, nodup_singleton _, ?_⟩
      rintro _ ha _ hb rfl
      obtain ⟨t, ht, hhash⟩ := mem_map.mp ha
      refine hfree (any_eq_true.mpr ⟨t, ht, beq_iff_eq.mpr ?_⟩)
      exact hhash.trans (mem_singleton.mp hb)
  · intro row hmem hpaid txHash hhash
    rcases h.covered row hmem hpaid txHash hhash with
      ⟨t, ht, hown⟩ | ⟨record', id', hcall, hown⟩
    · exact .inl ⟨t, hkept t ht, hown⟩
    by_cases heq : Phase.saving record' id' = .saving record id
    · -- What was about to be saved is there now.
      obtain ⟨rfl, rfl⟩ := Phase.saving.inj heq
      obtain ⟨t, ht, hid, hhash'⟩ := hmine
      refine .inl ⟨t, ht, hown.imp ?_ ?_⟩
      · exact fun hsame => hid.trans hsame
      · exact fun hsame => hhash'.trans hsame
    · exact .inr ⟨record', id', mem_set_of_ne hk hcall heq, hown⟩
  · intro row hmem hpaid t ht hid
    rcases hrows t ht with hold | rfl
    · exact h.amounts row hmem hpaid t hold hid
    · exact hcareful row hmem hid.symm hpaid

end Coherent

/-! ## Steps of the payments -/

section Steps

variable {ledger : Ledger} {publicKey : String} {s : State}

/-- Without payments and new rows there is nothing to see to. -/
theorem Coherent.dbMoves_quiet (h : Coherent ledger s) {db : InvoiceDb}
    (hmoves : DbMoves s.db (fun _ _ => False) (fun _ => False) db) :
    Coherent ledger { s with db := db } :=
  h.dbMoves hmoves (fun _ _ hpay => hpay.elim) (fun _ hnew => hnew.elim)

theorem Coherent.request (h : Coherent ledger s) (request : Request)
    (hcareful : CarefulRequest s request) :
    Coherent ledger { s with db := request.perform s.db } := by
  cases request with
  | read now => exact h.dbMoves_quiet (dbMoves_expire s.db now)
  | create input id memo now dbNow =>
    have hmoves : DbMoves s.db (fun _ _ => False) _ _ :=
      dbMoves_createInvoice s.db input id memo now dbNow
    refine h.dbMoves hmoves (fun _ _ hpay => hpay.elim) ?_
    rintro row ⟨expiresAt, hexpiry, rfl⟩
    exact ⟨rowSound_new (hcareful expiresAt hexpiry), rfl⟩
  | verify id txHash payerPublicKey payerInfo expectedVersion dbNow =>
    have hmoves : DbMoves s.db _ (fun _ => False) _ :=
      dbMoves_markAsPaid s.db id txHash payerPublicKey payerInfo expectedVersion dbNow
    refine h.dbMoves hmoves ?_ (fun _ hnew => hnew.elim)
    rintro _ _ ⟨⟨rfl, rfl⟩, hok⟩
    exact hcareful hok
  | cancel id expectedVersion now =>
    exact h.dbMoves_quiet (dbMoves_cancelInvoice s.db id expectedVersion now)

theorem Coherent.pays (h : Coherent ledger s) (hrec : Recorded ledger s)
    {k : Nat} {record : HorizonPayment} {id : String} {dbNow : Int}
    (hk : s.calls[k]? = some (.paying record id)) {db : InvoiceDb} {row : InvoiceRow}
    (hpaid : payStatement s.db id record.transactionHash
      (record.operation.fromAddress.getD "") dbNow = .ok (db, some row))
    (hcareful : CarefulPhase s dbNow (some (.paying record id))) : Coherent ledger { s with
      db := db
      calls := s.calls.set k (.confirming record id)
      settled := s.settled ++ [(record, id)] } := by
  have hmoves : DbMoves s.db _ (fun _ => False) db := dbMoves_payStatement hpaid
  have hdb : Coherent ledger { s with db := db } := by
    refine h.dbMoves hmoves ?_ (fun _ hnew => hnew.elim)
    rintro _ _ ⟨rfl, rfl⟩
    obtain ⟨t, ht, hhash, -⟩ := hrec.paying record _ (mem_of_getElem? hk)
    exact ⟨.inl ⟨t, ht, .inr hhash⟩, hcareful ⟨_, hpaid, rfl⟩⟩
  refine (hdb.advance hk (fun _ _ h => by cases h) ?_).settles _
  exact nofun

theorem known_of_reading {db : InvoiceDb} {record : HorizonPayment} {id : String} {eventData : Json}
    (h : afterReading ledger record ((paymentRecord ledger record).memo.bind (selectByMemo db))
        = .logging id eventData) : Known db id := by
  cases hmemo : (paymentRecord ledger record).memo with
  | none =>
    rw [hmemo] at h
    cases h
  | some memo =>
    rw [hmemo, Option.bind_some] at h
    cases hselect : selectByMemo db memo with
    | none =>
      rw [hselect] at h
      cases h
    | some row =>
      rw [hselect, afterReading] at h
      split at h
      · cases h
      · cases h
        exact ⟨row, (selectByMemo_some hselect).1⟩
      · cases h

/-- **ONE STATEMENT** of a handled payment that does not fail. -/
theorem Coherent.execute (h : Coherent ledger s)
    (hsound : Sound ledger publicKey s) (hrec : Recorded ledger s) {k : Nat}
    {phase : Phase} (hk : s.calls[k]? = some phase) (now dbNow : Int)
    (hcareful : CarefulPhase s dbNow (some phase)) :
    Coherent ledger (execute ledger s k now dbNow phase) := by
  cases phase with
  | sweeping record =>
    have hdb := h.dbMoves_quiet (dbMoves_expire s.db now)
    exact hdb.advance hk (fun _ _ hsame => by cases hsame) (fun _ _ hlog => by cases hlog)
  | reading record =>
    exact h.advance hk (fun _ _ hsame => by cases hsame) (fun _ _ hlog => known_of_reading hlog)
  | logging id eventData =>
    have hknown := h.logging id eventData (mem_of_getElem? hk)
    have hdb := h.dbMoves_quiet (dbMoves_log hknown "PARTIAL_PAYMENT" eventData)
    exact hdb.advance hk (fun _ _ hsame => by cases hsame) (fun _ _ hlog => by cases hlog)
  | saving record id => exact h.saves hk (hsound.at hk) hcareful
  | paying record id =>
    rw [PaymentMonitor.execute]
    split
    · next db row hpaid => exact h.pays hrec hk hpaid hcareful
    · exact h.advance hk (fun _ _ hsame => by cases hsame) (fun _ _ hlog => by cases hlog)
  | confirming record id =>
    obtain ⟨-, row, hrow, -⟩ := hsound.at hk
    have hdb := h.dbMoves_quiet (dbMoves_log ⟨row, hrow⟩
      "PAYMENT_CONFIRMED" (confirmation record.transactionHash
        (record.operation.fromAddress.getD "")))
    exact hdb.advance hk (fun _ _ hsame => by cases hsame) (fun _ _ hlog => by cases hlog)
  | finished => exact h

/-- **ONE STEP**: a careful step keeps the invariant. -/
theorem Coherent.step (h : Coherent ledger s)
    (hsound : Sound ledger publicKey s) (hrec : Recorded ledger s)
    (e : Event) (hcareful : Careful s e) :
    Coherent ledger (step ledger publicKey s e) := by
  cases e with
  | deliver how record =>
    rw [PaymentMonitor.step, receive]
    split
    · exact h.receives record
    · exact h
  | request request => exact h.request request hcareful
  | statement k now dbNow fails =>
    obtain ⟨rfl, hphase⟩ := hcareful
    rw [PaymentMonitor.step]
    cases hk : s.calls[k]? with
    | none => exact h
    | some phase =>
      rw [hk] at hphase
      exact h.execute hsound hrec hk now dbNow hphase

end Steps

end RestoreHealth

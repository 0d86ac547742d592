import Inqutum.PaymentMonitorProofs

/-!
# The record of settlements

The monitor writes two tables: a row of `transactions` first, then the
payment of the invoice, with no transaction around them.  A row follows its
invoice only if the payment statement after it goes through; one that does
not leaves the row behind.  `settlement_recorded` is the agreement of the
two tables in every run that strands no row, `second_payment_stranded` a
run that strands one.
-/

namespace PaymentMonitor

open Invoices Verification Transition List Phase

/-- The two tables agree: every row's invoice is paid by its transaction, and
    every invoice the monitor paid has its row. -/
structure Agrees (s : State) : Prop where
  rows : ∀ t ∈ s.transactions, PaidBy s.db t.invoiceId t.txHash
  settled : ∀ x ∈ s.settled, PaidBy s.db x.2 x.1.transactionHash ∧
    ∃ t ∈ s.transactions, t.invoiceId = x.2 ∧ t.txHash = x.1.transactionHash

/-- The payment statement would match its row and keep the hashes unique. -/
def CanPay (db : InvoiceDb) (id txHash : String) (dbNow : Int) : Prop :=
  ∃ row, db.invoices.find id = some row ∧ InvoiceService.payable id none dbNow row = true
    ∧ ∀ r ∈ db.invoices.rows, r.id ≠ id → r.paymentTxHash ≠ some txHash

instance (db : InvoiceDb) (id txHash : String) (dbNow : Int) :
    Decidable (CanPay db id txHash dbNow) :=
  inferInstanceAs (Decidable (∃ row, row ∈ db.invoices.find id
    ∧ InvoiceService.payable id none dbNow row = true
    ∧ ∀ r ∈ db.invoices.rows, r.id ≠ id → r.paymentTxHash ≠ some txHash))

/-- The next statement is a payment statement that leaves its row behind: it
    fails, or the invoice can no longer be paid by it, and is not paid by this
    very transaction already. -/
def LeavesRow (s : State) (dbNow : Int) (fails : Bool) : Option Phase → Prop
  | some (.paying record id) =>
    (∃ t ∈ s.transactions, t.invoiceId = id ∧ t.txHash = record.transactionHash)
    ∧ ¬ PaidBy s.db id record.transactionHash
    ∧ (fails = true ∨ ¬ CanPay s.db id record.transactionHash dbNow)
  | _ => False

instance (s : State) (dbNow : Int) (fails : Bool) :
    (phase : Option Phase) → Decidable (LeavesRow s dbNow fails phase)
  | some (.paying record id) =>
    inferInstanceAs (Decidable ((∃ t ∈ s.transactions, t.invoiceId = id
        ∧ t.txHash = record.transactionHash)
      ∧ ¬ PaidBy s.db id record.transactionHash
      ∧ (fails = true ∨ ¬ CanPay s.db id record.transactionHash dbNow)))
  | none | some (.sweeping _) | some (.reading _) | some (.logging _ _)
  | some (.saving _ _) | some (.confirming _ _) | some .finished => instDecidableFalse

def Strands (s : State) : Event → Prop
  | .statement k _ dbNow fails => LeavesRow s dbNow fails s.calls[k]?
  | _ => False

instance (s : State) : (e : Event) → Decidable (Strands s e)
  | .statement k _ dbNow fails => inferInstanceAs (Decidable (LeavesRow s dbNow fails s.calls[k]?))
  | .deliver _ _ | .request _ => instDecidableFalse

/-! ## Rows and calls -/

theorem saveTransaction_cases (transactions : List TransactionRow)
    (payment : PaymentRecord) (id : String) : (∃ t ∈ transactions, t.txHash = payment.txHash
      ∧ saveTransaction transactions payment id = transactions) ∨
    saveTransaction transactions payment id = transactions ++ [transactionRow payment id] := by
  rw [saveTransaction]
  by_cases h : transactions.any (fun t => t.txHash == payment.txHash) = true
  · obtain ⟨t, hmem, heq⟩ := any_eq_true.mp h
    exact .inl ⟨t, hmem, beq_iff_eq.mp heq, if_pos h⟩
  · exact .inr (if_neg h)

variable {calls : List Phase} {k : Nat}

theorem mem_set_of_ne {phase phase' other : Phase} (hk : calls[k]? = some phase)
    (hmem : other ∈ calls) (hne : other ≠ phase) : other ∈ calls.set k phase' := by
  obtain ⟨j, hj⟩ := mem_iff_getElem?.mp hmem
  refine mem_iff_getElem?.mpr ⟨j, ?_⟩
  have hjk : k ≠ j := by
    rintro rfl
    exact hne (Option.some.inj (hj.symm.trans hk))
  rw [getElem?_set_ne hjk, hj]

theorem mem_set_self {phase phase' : Phase}
    (hk : calls[k]? = some phase) : phase' ∈ calls.set k phase' := by
  obtain ⟨hlt, -⟩ := List.getElem?_eq_some_iff.mp hk
  exact List.mem_set hlt phase'

section Runs

variable (ledger : Ledger)

/-- A row belongs to the invoice with the memo of its transaction. -/
def Origin (db : InvoiceDb) (t : TransactionRow) : Prop :=
  ∃ row, db.invoices.find t.invoiceId = some row
    ∧ JsText.nonEmpty (ledger.transaction t.txHash).memo = some row.memo

variable {record : HorizonPayment} {s s' : State} {id : String} {e : Event} {t : TransactionRow}

variable {ledger} in
theorem Origin.extends {db db' : InvoiceDb} (h : Origin ledger db t) (hext : Extends db db') :
    Origin ledger db' t := by
  obtain ⟨row, hrow, hmemo⟩ := h
  obtain ⟨row', hrow', hfollows⟩ := hext _ row hrow
  exact ⟨row', hrow', by rw [hmemo, hfollows.memo]⟩

/-- What is recorded of a payment whose row is written: a row with its hash,
    its own or one whose payment is done. -/
def HasRow (s : State) (record : HorizonPayment) (id : String) : Prop :=
  ∃ t ∈ s.transactions, t.txHash = record.transactionHash
    ∧ (t.invoiceId = id ∨ PaidBy s.db t.invoiceId t.txHash)

/-- What holds of the rows whatever happens. -/
structure Recorded (s : State) : Prop where
  origin : ∀ t ∈ s.transactions, PaidBy s.db t.invoiceId t.txHash ∨ Origin ledger s.db t
  paying : ∀ record id, paying record id ∈ s.calls → HasRow s record id
  settled : ∀ x ∈ s.settled, PaidBy s.db x.2 x.1.transactionHash ∧
    ∃ t ∈ s.transactions, t.invoiceId = x.2 ∧ t.txHash = x.1.transactionHash

theorem HasRow.grows (h : HasRow s record id) (hext : Extends s.db s'.db)
    (hrows : ∀ t ∈ s.transactions, t ∈ s'.transactions) : HasRow s' record id := by
  obtain ⟨t, hmem, hhash, hown⟩ := h
  refine ⟨t, hrows t hmem, hhash, ?_⟩
  exact hown.imp_right (fun hpaid => hpaid.extends hext)

variable {ledger} {publicKey : String}

theorem Origin.eq_of_backs {db : InvoiceDb} (h : Origin ledger db t)
    (hbacks : Backs ledger publicKey db record id)
    (hhash : t.txHash = record.transactionHash) : t.invoiceId = id := by
  obtain ⟨row, hrow, hmemo⟩ := h
  obtain ⟨-, row', hrow', hmatches⟩ := hbacks
  have hmemo' : JsText.nonEmpty (ledger.transaction t.txHash).memo = some row'.memo := by
    rw [hhash]
    exact hmatches.memo
  have hsame := db.invoices.memos row (InvoiceTable.mem_of_find hrow) row'
    (InvoiceTable.mem_of_find hrow') (Option.some_ne_none _)
    (hmemo.symm.trans hmemo')
  rw [← InvoiceTable.find_id hrow, hsame, InvoiceTable.find_id hrow']

theorem hasRow_save {s : State}
    (h : Recorded ledger s) (hbacks : Backs ledger publicKey s.db record id) (calls : List Phase) :
    HasRow { s with
      transactions := saveTransaction s.transactions (paymentRecord ledger record) id
      calls := calls } record id := by
  rcases saveTransaction_cases s.transactions (paymentRecord ledger record) id
    with ⟨t, hmem, hhash, hsame⟩ | hnew
  · refine ⟨t, ?_, hhash, ?_⟩
    · show t ∈ saveTransaction _ _ _
      rw [hsame]
      exact hmem
    · exact (h.origin t hmem).symm.imp_left (fun horigin => horigin.eq_of_backs hbacks hhash)
  refine ⟨transactionRow (paymentRecord ledger record) id, ?_, rfl, .inl rfl⟩
  show _ ∈ saveTransaction _ _ _
  rw [hnew]
  exact mem_append_right _ (.head _)

theorem Moves.transactions (h : Moves ledger publicKey s e s') :
    (∀ t ∈ s.transactions, t ∈ s'.transactions) ∧
    ∀ t ∈ s'.transactions, t ∈ s.transactions ∨ ∃ record id, saving record id ∈ s.calls
        ∧ paying record id ∈ s'.calls
        ∧ t = transactionRow (paymentRecord ledger record) id := by
  have hsame : ∀ t ∈ s.transactions, t ∈ s.transactions := fun _ ht => ht
  cases h with
  | rests _ => exact ⟨hsame, fun _ ht => .inl ht⟩
  | receives _ => exact ⟨hsame, fun _ ht => .inl ht⟩
  | proceeds _ _ _ => exact ⟨hsame, fun _ ht => .inl ht⟩
  | pays _ _ _ => exact ⟨hsame, fun _ ht => .inl ht⟩
  | strands _ _ => exact ⟨hsame, fun _ ht => .inl ht⟩
  | @saves k now dbNow record id hk =>
    show (∀ t ∈ s.transactions, t ∈ saveTransaction _ _ _) ∧ ∀ t ∈ saveTransaction _ _ _, _
    rcases saveTransaction_cases s.transactions
      (paymentRecord ledger record) id with ⟨_, -, -, hold⟩ | hnew
    · rw [hold]
      exact ⟨hsame, fun _ ht => .inl ht⟩
    rw [hnew]
    refine ⟨fun t ht => mem_append_left _ ht, ?_⟩
    intro t ht
    rcases mem_append.mp ht with ht | ht
    · exact .inl ht
    · exact .inr ⟨record, id, mem_of_getElem? hk, mem_set_self hk, mem_singleton.mp ht⟩

/-- The payments a step leaves at their payment statement: those before, and
    one whose row was just written. -/
theorem Moves.paying (h : Moves ledger publicKey s e s') (hrec : Recorded ledger s)
    (hsound : Sound ledger publicKey s) (hmem : paying record id ∈ s'.calls) :
    paying record id ∈ s.calls ∨ HasRow s' record id := by
  cases h with
  | rests _ => exact .inl hmem
  | receives _ =>
    rcases mem_append.mp hmem with hmem | hmem
    · exact .inl hmem
    · cases mem_singleton.mp hmem
  | proceeds _ hleads _ =>
    rcases mem_or_eq_of_mem_set hmem with hmem | heq
    · exact .inl hmem
    rw [← heq] at hleads
    cases hleads
  | saves hk =>
    rcases mem_or_eq_of_mem_set hmem with hmem | heq
    · exact .inl hmem
    obtain ⟨rfl, rfl⟩ := paying.inj heq
    exact .inr (hasRow_save hrec (hsound.at hk) _)
  | pays _ _ _ =>
    rcases mem_or_eq_of_mem_set hmem with hmem | heq
    · exact .inl hmem
    · cases heq
  | strands _ _ =>
    rcases mem_or_eq_of_mem_set hmem with hmem | heq
    · exact .inl hmem
    · cases heq

theorem Recorded.moves (h : Recorded ledger s) (hsound : Sound ledger publicKey s)
    (hmoves : Moves ledger publicKey s e s') : Recorded ledger s' := by
  have hext := hmoves.extends
  have hrows := hmoves.transactions
  refine ⟨?_, ?_, ?_⟩
  · intro t ht
    rcases hrows.2 t ht with ht | ⟨record, id, hsaving, -, rfl⟩
    · exact (h.origin t ht).imp (fun hpaid => hpaid.extends hext)
        (fun horigin => horigin.extends hext)
    obtain ⟨-, row, hrow, hmatches⟩ := hsound.calls _ hsaving
    exact .inr (Origin.extends ⟨row, hrow, hmatches.memo⟩ hext)
  · intro record id hmem
    rcases hmoves.paying h hsound hmem with hmem | hrow
    · exact (h.paying record id hmem).grows hext hrows.1
    · exact hrow
  have hkept : ∀ x ∈ s.settled, PaidBy s'.db x.2 x.1.transactionHash ∧
      ∃ t ∈ s'.transactions, t.invoiceId = x.2 ∧ t.txHash = x.1.transactionHash := by
    intro x hx
    obtain ⟨hpaid, t, ht, hown⟩ := h.settled x hx
    exact ⟨hpaid.extends hext, t, hrows.1 t ht, hown⟩
  cases hmoves with
  | rests _ => exact hkept
  | receives _ => exact hkept
  | proceeds _ _ _ => exact hkept
  | saves _ => exact hkept
  | strands _ _ => exact hkept
  | @pays k now dbNow record id db hk _ hpaid =>
    intro x hx
    rcases mem_append.mp hx with hx | hx
    · exact hkept x hx
    rw [mem_singleton.mp hx]
    obtain ⟨t, ht, hhash, hown⟩ := h.paying record id (mem_of_getElem? hk)
    refine ⟨hpaid, t, ht, ?_, hhash⟩
    rcases hown with hown | hother
    · exact hown
    -- its hash pays one invoice only
    have hother' := hother.extends hext
    rw [hhash] at hother'
    exact hother'.unique hpaid

/-! ## Runs that strand no row -/

/-- A row is ahead of its payment at most. -/
def Ahead (s : State) : Prop :=
  ∀ t ∈ s.transactions, PaidBy s.db t.invoiceId t.txHash ∨
    ∃ record, paying record t.invoiceId ∈ s.calls ∧ record.transactionHash = t.txHash

theorem Moves.leaves {s s' : State} {e : Event}
    (h : Moves ledger publicKey s e s') (hnot : ¬ Strands s e)
    {record : HorizonPayment} {id : String}
    (hrow : ∃ t ∈ s.transactions, t.invoiceId = id ∧ t.txHash = record.transactionHash)
    (hmem : Phase.paying record id ∈ s.calls) :
    PaidBy s'.db id record.transactionHash ∨ Phase.paying record id ∈ s'.calls := by
  cases h with
  | rests _ => exact .inr hmem
  | receives _ => exact .inr (mem_append_left _ hmem)
  | @proceeds k now dbNow fails phase phase' db hk hleads hext =>
    by_cases heq : Phase.paying record id = phase
    · rw [← heq] at hleads
      cases hleads with
      | ended hother => exact absurd rfl (hother record id)
    · exact .inr (mem_set_of_ne hk hmem heq)
  | saves hk => exact .inr (mem_set_of_ne hk hmem nofun)
  | @pays k now dbNow record' id' db hk hext hpaid =>
    by_cases heq : Phase.paying record id = .paying record' id'
    · obtain ⟨rfl, rfl⟩ := Phase.paying.inj heq
      exact .inl hpaid
    · exact .inr (mem_set_of_ne hk hmem heq)
  | @strands k now dbNow fails record' id' hk hstrands =>
    by_cases heq : Phase.paying record id = .paying record' id'
    · obtain ⟨rfl, rfl⟩ := Phase.paying.inj heq
      refine .inl ?_
      by_contra hunpaid
      refine hnot ?_
      rw [Strands, hk]
      refine ⟨hrow, hunpaid, hstrands.imp_right ?_⟩
      rintro hrefused ⟨row, hfind, hpay, hfree⟩
      obtain ⟨db, haccepted⟩ := payStatement_accepted hfind hpay hfree
      exact hrefused db row haccepted
    · exact .inr (mem_set_of_ne hk hmem heq)

theorem Ahead.moves {s s' : State} {e : Event} (h : Ahead s)
    (hmoves : Moves ledger publicKey s e s') (hnot : ¬ Strands s e) : Ahead s' := by
  intro t ht
  rcases hmoves.transactions.2 t ht with ht | ⟨record, id, -, hpaying, rfl⟩
  · rcases h t ht with hpaid | ⟨record, hmem, hhash⟩
    · exact .inl (hpaid.extends hmoves.extends)
    rcases hmoves.leaves hnot ⟨t, ht, rfl, hhash.symm⟩ hmem with
      hpaid | hmem
    · rw [hhash] at hpaid
      exact .inl hpaid
    · exact .inr ⟨record, hmem, hhash⟩
  · exact .inr ⟨record, hpaying, rfl⟩

/-- What a run that strands no row keeps. -/
structure Tracked (ledger : Ledger) (publicKey : String) (s : State) : Prop where
  sound : Sound ledger publicKey s
  recorded : Recorded ledger s
  ahead : Ahead s

theorem Tracked.step {s : State} (h : Tracked ledger publicKey s) (e : Event)
    (hnot : ¬ Strands s e) : Tracked ledger publicKey (step ledger publicKey s e) := by
  have hmoves := step_moves ledger publicKey s e
  exact ⟨h.sound.moves hmoves, h.recorded.moves h.sound hmoves, h.ahead.moves hmoves hnot⟩

theorem Tracked.run {s : State} (h : Tracked ledger publicKey s) {events : List Event}
    (hnot : Along (PaymentMonitor.step ledger publicKey) (fun s e => ¬ Strands s e) s events) :
    Tracked ledger publicKey (run ledger publicKey s events) := by
  induction events generalizing s with
  | nil => exact h
  | cons e events ih => exact ih (h.step e hnot.1) hnot.2

variable (ledger publicKey)

/-- **EVERY SETTLEMENT HAS ITS ROW**: in every run from tables that agree, an
    invoice the monitor paid has a row with its id and its hash. -/
theorem settled_recorded (db : InvoiceDb) (transactions : List TransactionRow)
    (hagree : ∀ t ∈ transactions, PaidBy db t.invoiceId t.txHash) (events : List Event) :
    Recorded ledger (run ledger publicKey { db := db, transactions := transactions } events) := by
  have hstart : Recorded ledger { db := db, transactions := transactions } :=
    ⟨fun t ht => .inl (hagree t ht), (fun _ _ h => by cases h), fun _ h => by cases h⟩
  have hrun := run_invariant (P := fun s => Sound ledger publicKey s ∧ Recorded ledger s)
    (fun s e h => ⟨h.1.moves (step_moves ledger publicKey s e),
      h.2.moves h.1 (step_moves ledger publicKey s e)⟩)
    ⟨Sound.start ledger publicKey db transactions, hstart⟩ events
  exact hrun.2

/-- **THE RECORD OF SETTLEMENTS**: in every run from tables that agree that
    strands no row, the tables agree once all payments are handled. -/
theorem settlement_recorded (db : InvoiceDb) (transactions : List TransactionRow)
    (hagree : ∀ t ∈ transactions, PaidBy db t.invoiceId t.txHash)
    (events : List Event)
    (hnot : Along (step ledger publicKey) (fun s e => ¬ Strands s e)
      { db := db, transactions := transactions } events)
    (hfinished : (run ledger publicKey
      { db := db, transactions := transactions } events).allFinished
      = true) :
    Agrees (run ledger publicKey
      { db := db, transactions := transactions } events) := by
  have hstart : Tracked ledger publicKey
      { db := db, transactions := transactions } :=
    ⟨Sound.start ledger publicKey db transactions,
      settled_recorded ledger publicKey db transactions hagree [],
      fun t ht => .inl (hagree t ht)⟩
  have htracked := hstart.run hnot
  refine ⟨?_, htracked.recorded.settled⟩
  intro t ht
  rcases htracked.ahead t ht with hpaid | ⟨record, hmem, -⟩
  · exact hpaid
  · cases all_eq_true.mp hfinished _ hmem

end Runs

/-! ## Two payments of one invoice -/

/-- One payment, delivered twice and handled side by side, then a cancel. -/
theorem settlement_recorded_sample : Agrees (run (sampleLedger lumens) "G" (State.init sampleDb)
      ([.deliver .streamPayments (samplePayment lumens 'a'),
        .deliver .getRecentPayments (samplePayment lumens 'a')]
        ++ statements [0, 1, 0, 1, 0, 1, 0, 1, 0]
        ++ [.request (.cancel "a" none 0)])) :=
  settlement_recorded (sampleLedger lumens) "G" sampleDb [] nofun _
    (by decide +kernel) (by decide +kernel)

/-- Two payments of one invoice are both written down before the first one
    pays it. -/
def racingEvents : List Event :=
  [.deliver .streamPayments (samplePayment lumens 'a'),
    .deliver .streamPayments (samplePayment lumens 'b')]
    ++ statements [0, 1, 0, 1, 0, 1, 0, 1, 0]

/-- The row of the second payment stays. -/
theorem second_payment_stranded :
    (run (sampleLedger lumens) "G" (State.init sampleDb) racingEvents).allFinished = true
    ∧ ¬ Agrees (run (sampleLedger lumens) "G" (State.init sampleDb) racingEvents) := by
  refine ⟨by decide +kernel, ?_⟩
  intro hagrees
  have hleft : ∃ t ∈
      (run (sampleLedger lumens) "G" (State.init sampleDb) racingEvents).transactions,
      ¬ PaidBy (run (sampleLedger lumens) "G" (State.init sampleDb) racingEvents).db
        t.invoiceId t.txHash := by decide +kernel
  obtain ⟨t, hmem, hunpaid⟩ := hleft
  exact hunpaid (hagrees.rows t hmem)

end PaymentMonitor

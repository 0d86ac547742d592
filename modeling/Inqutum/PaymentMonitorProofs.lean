import Inqutum.AmountTextProofs
import Inqutum.InvoiceServiceProofs
import Inqutum.VerifyRequestProofs

/-!
# The payment monitor

`PaymentMonitorService` follows the payments of one account and settles
invoices by itself: it finds the invoice by the memo, compares amount and
asset code, writes a row into `transactions` and marks the invoice as paid.
Payments are handled side by side; every statement is atomic, any of them
may fail, and requests of other parts of the service come in between.

A handled payment is a program of statements (`Phase`), and a state holds
the tables and all handled payments.  `step_moves` says what one step can
do.  From it, invoices keep their terms and a paid one stays paid by the
same transaction (`extends_run`), and `sound_run` says what a payment that
settled an invoice was compared with.
-/

namespace PaymentMonitor

open Invoices Verification List JsNumber InvoiceService InvoiceTable

/-! ## Payments of the account -/

/-- What Horizon knows of transactions, by their hash: a transaction does not
    change. -/
structure Ledger where
  transaction : String → HorizonTransactionLike
  operations : String → List HorizonOperationLike
  ledgerAttr : String → Nat

/-- A record of the payments of an account. -/
structure HorizonPayment where
  operation : HorizonOperationLike
  transactionHash : String
  deriving DecidableEq

/-- `PaymentRecord`; `fromAddress` and `toAddress` are its `from` and `to`. -/
structure PaymentRecord where
  txHash : String
  fromAddress : Option String
  toAddress : Option String
  amount : Option String
  assetCode : String
  assetIssuer : Option String
  memo : Option String
  ledger : Nat

/-- The record both ways of delivery build. -/
def paymentRecord (ledger : Ledger) (record : HorizonPayment) : PaymentRecord where
  txHash := record.transactionHash
  fromAddress := record.operation.fromAddress
  toAddress := record.operation.toAddress
  amount := record.operation.amount
  assetCode :=
    if record.operation.assetType = some "native" then "XLM"
    else record.operation.assetCode.getD "UNKNOWN"
  assetIssuer :=
    if record.operation.assetType = some "native" then none
    else record.operation.assetIssuer
  memo := JsText.nonEmpty (ledger.transaction record.transactionHash).memo
  ledger := ledger.ledgerAttr record.transactionHash

inductive Delivery where
  | streamPayments
  | getRecentPayments

/-- What is handed on: the stream passes incoming payments only, a sync passes
    outgoing ones too. -/
def isDelivered (publicKey : String) (record : HorizonPayment) : Delivery → Bool
  | .streamPayments => record.operation.type == "payment"
      && record.operation.toAddress == some publicKey
  | .getRecentPayments => record.operation.type == "payment"

/-- `number > 0`. -/
def isPositive : JsNumber → Bool
  | .finite q => decide (0 < q)
  | .posInf => true
  | _ => false

def isUsablePaymentRecord (payment : PaymentRecord) : Bool :=
  (checkTxHash payment.txHash).isOk && payment.fromAddress.isSome && payment.toAddress.isSome
    && decide (payment.assetCode ≠ "")
    && match payment.amount with
      | some amount => isAmountText (JsText.trim amount).toList
          && isPositive (ofText amount)
      | none => false

/-- What is decided about a payment. -/
inductive Verdict where
  | notPayable (failure : VerificationFailure)
  | amountMismatch (expectedAmount receivedAmount : String)
  | assetMismatch
  | accept

/-- The checks of a payment against the invoice with its memo. -/
def assess (payment : PaymentRecord) (invoice : StoredInvoice) : Verdict :=
  match VerifyRequests.checkInvoiceIsPayable invoice.status with
  | .error e => .notPayable e
  | .ok _ =>
    let expectedAmount := toFixed7 (.finite invoice.amount)
    let receivedAmount := toFixed7 (parseFloat (payment.amount.getD ""))
    if expectedAmount ≠ receivedAmount then
      .amountMismatch expectedAmount receivedAmount
    else if payment.assetCode ≠ invoice.assetCode then .assetMismatch
    else .accept

/-! ## Statements -/

/-- A row of `transactions`. -/
structure TransactionRow where
  invoiceId : String
  fromAddress : String
  toAddress : String
  amount : String
  assetCode : String
  assetIssuer : Option String
  txHash : String
  memo : Option String
  ledger : Nat

def transactionRow (payment : PaymentRecord) (invoiceId : String) : TransactionRow where
  invoiceId := invoiceId
  fromAddress := payment.fromAddress.getD ""
  toAddress := payment.toAddress.getD ""
  amount := payment.amount.getD ""
  assetCode := payment.assetCode
  assetIssuer := JsText.nonEmpty payment.assetIssuer
  txHash := payment.txHash
  memo := JsText.nonEmpty payment.memo
  ledger := payment.ledger

/-- `saveTransaction`: `ON CONFLICT (tx_hash) DO NOTHING`. -/
def saveTransaction (transactions : List TransactionRow)
    (payment : PaymentRecord) (invoiceId : String) : List TransactionRow :=
  if transactions.any (fun t => t.txHash == payment.txHash) then transactions
  else transactions ++ [transactionRow payment invoiceId]

/-- `SELECT * FROM invoices WHERE memo = $1`. -/
def selectByMemo (db : InvoiceDb) (memo : String) : Option InvoiceRow :=
  db.invoices.rows.find? (fun row => row.memo == memo)

/-- The guarded `UPDATE … RETURNING` of `markAsPaid`, with the row it
    matched. -/
def payStatement (db : InvoiceDb) (id txHash payerPublicKey : String)
    (dbNow : Int) : Except DbError (InvoiceDb × Option InvoiceRow) :=
  match db.invoices.update (payable id none dbNow)
      (payRow txHash payerPublicKey none dbNow) with
  | .error e => .error e
  | .ok t => .ok ({ db with invoices := t },
      db.invoices.rows.find? (payable id none dbNow))

/-- The data of the event `PAYMENT_CONFIRMED`. -/
def confirmation (txHash payerPublicKey : String) : Json :=
  .obj [("txHash", .str txHash), ("payerPublicKey", .str payerPublicKey)]

/-! ## Handled payments -/

/-- What a handled payment does next. -/
inductive Phase where
  | sweeping (record : HorizonPayment)
  | reading (record : HorizonPayment)
  | logging (invoiceId : String) (eventData : Json)
  | saving (record : HorizonPayment) (invoiceId : String)
  | paying (record : HorizonPayment) (invoiceId : String)
  | confirming (record : HorizonPayment) (invoiceId : String)
  | finished

def Phase.isFinished : Phase → Bool
  | .finished => true
  | _ => false

/-- The tables, the handled payments, and which of them paid which invoice. -/
structure State where
  db : InvoiceDb
  transactions : List TransactionRow := []
  calls : List Phase := []
  settled : List (HorizonPayment × String) := []

/-- Every payment is handled. -/
def State.allFinished (s : State) : Bool :=
  s.calls.all Phase.isFinished

/-- What other parts of the service do to the invoices.  Clocks are free, so a
    request whose statements are apart is a read and a request whose sweep
    comes early. -/
inductive Request where
  | read (now : Int)
  | create (input : CreateInvoiceInput) (id memo : String) (now dbNow : Int)
  | verify (id txHash payerPublicKey : String) (payerInfo : Option PayerInfo)
      (expectedVersion : Option JsNumber) (dbNow : Int)
  | cancel (id : String) (expectedVersion : Option JsNumber) (now : Int)

def Request.perform (db : InvoiceDb) : Request → InvoiceDb
  | .read now => (markExpiredInvoices db now).1
  | .create input id memo now dbNow => (createInvoice db input id memo now dbNow).1
  | .verify id txHash payerPublicKey payerInfo expectedVersion dbNow =>
    (markAsPaid db id txHash payerPublicKey payerInfo expectedVersion dbNow).1
  | .cancel id expectedVersion now => (cancelInvoice db id expectedVersion now).1

inductive Event where
  | deliver (how : Delivery) (record : HorizonPayment)
  | statement (k : Nat) (now dbNow : Int) (fails : Bool)
  | request (request : Request)

section Monitor

variable (ledger : Ledger) (publicKey : String)

/-- The start of `handlePayment`, up to its first statement. -/
def receive (s : State) (how : Delivery) (record : HorizonPayment) : State :=
  let payment := paymentRecord ledger record
  if isDelivered publicKey record how && isUsablePaymentRecord payment && payment.memo.isSome then
    { s with calls := s.calls ++ [.sweeping record] }
  else s

/-- Where a payment goes once its invoice is read. -/
def afterReading (record : HorizonPayment) : Option InvoiceRow → Phase
  | none => .finished
  | some row =>
    let payment := paymentRecord ledger record
    match assess payment (mapRowToInvoice row) with
    | .accept => .saving record row.id
    | .amountMismatch expectedAmount receivedAmount =>
      .logging row.id (.obj [("txHash", .str payment.txHash),
        ("expectedAmount", .str expectedAmount),
        ("receivedAmount", .str receivedAmount),
        ("payerPublicKey", .str (payment.fromAddress.getD ""))])
    | _ => .finished

/-- The next statement of a handled payment. -/
def execute (s : State) (k : Nat) (now dbNow : Int) : Phase → State
  | .sweeping record =>
    { s with
      db := (markExpiredInvoices s.db now).1
      calls := s.calls.set k (.reading record) }
  | .reading record =>
    let row := (paymentRecord ledger record).memo.bind (selectByMemo s.db)
    { s with calls := s.calls.set k (afterReading ledger record row) }
  | .logging invoiceId eventData =>
    { s with
      db := logPaymentEvent s.db invoiceId "PARTIAL_PAYMENT" eventData
      calls := s.calls.set k .finished }
  | .saving record invoiceId =>
    { s with
      transactions := saveTransaction s.transactions (paymentRecord ledger record) invoiceId
      calls := s.calls.set k (.paying record invoiceId) }
  | .paying record invoiceId =>
    match payStatement s.db invoiceId record.transactionHash
        (record.operation.fromAddress.getD "") dbNow with
    | .ok (db, some _) =>
      { s with
        db := db
        calls := s.calls.set k (.confirming record invoiceId)
        settled := s.settled ++ [(record, invoiceId)] }
    | _ => { s with calls := s.calls.set k .finished }
  | .confirming record invoiceId =>
    { s with
      db := logPaymentEvent s.db invoiceId
        "PAYMENT_CONFIRMED" (confirmation record.transactionHash
          (record.operation.fromAddress.getD ""))
      calls := s.calls.set k .finished }
  | .finished => s

/-- One step; a statement that fails ends its payment and changes nothing. -/
def step (s : State) : Event → State
  | .deliver how record => receive ledger publicKey s how record
  | .statement k now dbNow fails =>
    match s.calls[k]? with
    | none => s
    | some phase =>
      if fails then { s with calls := s.calls.set k .finished }
      else execute ledger s k now dbNow phase
  | .request request => { s with db := request.perform s.db }

def run (s : State) (events : List Event) : State :=
  events.foldl (step ledger publicKey) s

end Monitor

/-- A monitor that has not handled anything. -/
def State.init (db : InvoiceDb) : State where
  db := db

/-! ## What lasts in the invoices table -/

/-- What a row keeps: its terms, and its payment once it is paid. -/
structure Follows (row row' : InvoiceRow) : Prop where
  id : row'.id = row.id
  memo : row'.memo = row.memo
  amount : row'.amount = row.amount
  sellerPublicKey : row'.sellerPublicKey = row.sellerPublicKey
  assetCode : row'.assetCode = row.assetCode
  assetIssuer : row'.assetIssuer = row.assetIssuer
  paid : row.status = .paid → row'.status = .paid ∧ row'.paymentTxHash = row.paymentTxHash

theorem Follows.refl (row : InvoiceRow) : Follows row row :=
  ⟨rfl, rfl, rfl, rfl, rfl, rfl, fun h => ⟨h, rfl⟩⟩

theorem Follows.trans {row row' row'' : InvoiceRow} (h : Follows row row')
    (h' : Follows row' row'') : Follows row row'' where
  id := h'.id.trans h.id
  memo := h'.memo.trans h.memo
  amount := h'.amount.trans h.amount
  sellerPublicKey := h'.sellerPublicKey.trans h.sellerPublicKey
  assetCode := h'.assetCode.trans h.assetCode
  assetIssuer := h'.assetIssuer.trans h.assetIssuer
  paid := by
    intro hpaid
    obtain ⟨hpaid', hhash⟩ := h.paid hpaid
    obtain ⟨hpaid'', hhash'⟩ := h'.paid hpaid'
    exact ⟨hpaid'', hhash'.trans hhash⟩

/-- Every row is still there and follows what it was. -/
def Extends (db db' : InvoiceDb) : Prop :=
  ∀ id row, db.invoices.find id = some row →
    ∃ row', db'.invoices.find id = some row' ∧ Follows row row'

theorem Extends.refl (db : InvoiceDb) : Extends db db :=
  fun _ row h => ⟨row, h, Follows.refl row⟩

theorem Extends.trans {db db' db'' : InvoiceDb} (h : Extends db db')
    (h' : Extends db' db'') : Extends db db'' := by
  intro id row hrow
  obtain ⟨row', hrow', hfollows⟩ := h id row hrow
  obtain ⟨row'', hrow'', hfollows'⟩ := h' id row' hrow'
  exact ⟨row'', hrow'', hfollows.trans hfollows'⟩

variable {db db' : InvoiceDb}

/-- The events log is not part of it. -/
theorem Extends.of_invoices (h : db'.invoices = db.invoices) : Extends db db' := by
  intro id row hrow
  exact ⟨row, by rw [h]; exact hrow, Follows.refl row⟩

theorem extends_update {p : InvoiceRow → Bool} {f : InvoiceRow → InvoiceRow}
    (h : db.invoices.update p f = .ok db'.invoices) (hid : ∀ r, (f r).id = r.id)
    (hf : ∀ r, p r = true → Follows r (f r)) : Extends db db' := by
  intro id row hrow
  refine ⟨_, (find_update h hid id).trans (congrArg (Option.map _) hrow), ?_⟩
  show Follows row (if p row then f row else row)
  by_cases hp : p row = true
  · rw [if_pos hp]
    exact hf row hp
  rw [if_neg hp]
  exact Follows.refl row

theorem extends_insert {row : InvoiceRow}
    (h : db.invoices.insert row = .ok db'.invoices) : Extends db db' := by
  intro id old hold
  refine ⟨old, ?_, Follows.refl old⟩
  rw [find_insert h, if_neg]
  · exact hold
  intro hid
  rw [← hid, insert_fresh h] at hold
  cases hold

theorem Follows.of_pending {row row' : InvoiceRow}
    (hpending : row.status = .pending) (hid : row'.id = row.id)
    (hmemo : row'.memo = row.memo) (hamount : row'.amount = row.amount)
    (hseller : row'.sellerPublicKey = row.sellerPublicKey) (hcode : row'.assetCode = row.assetCode)
    (hissuer : row'.assetIssuer = row.assetIssuer) : Follows row row' where
  id := hid
  memo := hmemo
  amount := hamount
  sellerPublicKey := hseller
  assetCode := hcode
  assetIssuer := hissuer
  paid := by
    intro hpaid
    rw [hpending] at hpaid
    cases hpaid

theorem extends_markExpiredInvoices (db : InvoiceDb) (now : Int) :
    Extends db (markExpiredInvoices db now).1 := by
  rw [markExpiredInvoices]
  split
  · exact Extends.refl db
  rename_i t h
  refine extends_update h (fun _ => rfl) ?_
  intro r hr
  rw [isDue, Bool.and_eq_true, beq_iff_eq] at hr
  exact Follows.of_pending hr.1 rfl rfl rfl rfl rfl rfl

theorem extends_pay {id txHash payerPublicKey : String}
    {payerInfo : Option PayerInfo} {expected : Option Int} {dbNow : Int}
    (h : db.invoices.update (payable id expected dbNow)
      (payRow txHash payerPublicKey payerInfo dbNow) = .ok db'.invoices) : Extends db db' := by
  refine extends_update h (fun _ => rfl) ?_
  intro r hr
  simp only [payable, Bool.and_eq_true, beq_iff_eq] at hr
  exact Follows.of_pending hr.1.1.2 rfl rfl rfl rfl rfl rfl

theorem extends_markAsPaid (db : InvoiceDb)
    (id txHash payerPublicKey : String) (payerInfo : Option PayerInfo)
    (expectedVersion : Option JsNumber) (dbNow : Int) :
    Extends db (markAsPaid db id txHash payerPublicKey payerInfo expectedVersion dbNow).1 := by
  rw [markAsPaid]
  split
  · exact Extends.refl db
  split
  · exact Extends.refl db
  rename_i t h
  split
  · exact extends_pay h
  · exact Extends.refl db

theorem extends_cancelInvoice (db : InvoiceDb) (id : String)
    (expectedVersion : Option JsNumber) (now : Int) :
    Extends db (cancelInvoice db id expectedVersion now).1 := by
  have hswept := extends_markExpiredInvoices db now
  rw [cancelInvoice]
  dsimp only
  split
  · exact hswept
  split
  · exact hswept
  split
  · exact hswept
  rename_i t h
  split
  · refine hswept.trans (extends_update h (fun _ => rfl) ?_)
    intro r hr
    simp only [cancellable, Bool.and_eq_true, beq_iff_eq] at hr
    exact Follows.of_pending hr.1.2 rfl rfl rfl rfl rfl rfl
  · exact hswept

theorem extends_createInvoice (db : InvoiceDb) (input : CreateInvoiceInput)
    (id memo : String) (now dbNow : Int) :
    Extends db (createInvoice db input id memo now dbNow).1 := by
  rw [createInvoice]
  split
  · exact Extends.refl db
  split
  · exact Extends.refl db
  dsimp only
  split
  · exact Extends.refl db
  rename_i t h
  exact extends_insert h

theorem extends_perform (db : InvoiceDb) (request : Request) : Extends db (request.perform db) := by
  cases request with
  | read now => exact extends_markExpiredInvoices db now
  | create input id memo now dbNow => exact extends_createInvoice db input id memo now dbNow
  | verify id txHash payerPublicKey payerInfo expectedVersion dbNow =>
    exact extends_markAsPaid db id txHash payerPublicKey payerInfo expectedVersion dbNow
  | cancel id expectedVersion now => exact extends_cancelInvoice db id expectedVersion now

/-- The invoice is paid, by this transaction. -/
def PaidBy (db : InvoiceDb) (id txHash : String) : Prop :=
  ∃ row, db.invoices.find id = some row ∧ row.status = .paid ∧ row.paymentTxHash = some txHash

instance (db : InvoiceDb) (id txHash : String) :
    Decidable (PaidBy db id txHash) :=
  inferInstanceAs (Decidable (∃ row, row ∈ db.invoices.find id
    ∧ row.status = .paid ∧ row.paymentTxHash = some txHash))

theorem PaidBy.extends {id txHash : String} (h : PaidBy db id txHash) (hext : Extends db db') :
    PaidBy db' id txHash := by
  obtain ⟨row, hrow, hpaid, hhash⟩ := h
  obtain ⟨row', hrow', hfollows⟩ := hext id row hrow
  obtain ⟨hpaid', hhash'⟩ := hfollows.paid hpaid
  exact ⟨row', hrow', hpaid', hhash'.trans hhash⟩

theorem PaidBy.unique {db : InvoiceDb} {id id' txHash : String}
    (h : PaidBy db id txHash) (h' : PaidBy db id' txHash) : id = id' := by
  obtain ⟨row, hrow, -, hhash⟩ := h
  obtain ⟨row', hrow', -, hhash'⟩ := h'
  have hsame := db.invoices.txHashes row (mem_of_find hrow) row'
    (mem_of_find hrow')
    (by rw [hhash]; exact Option.some_ne_none _) (by rw [hhash, hhash'])
  rw [← find_id hrow, hsame, find_id hrow']

/-! ## The statements of a handled payment -/

variable {row : InvoiceRow} {id txHash payerPublicKey : String} {db : InvoiceDb} {dbNow : Int}

theorem payStatement_ok {db db' : InvoiceDb}
    (h : payStatement db id txHash payerPublicKey dbNow = .ok (db', some row)) :
    Extends db db' ∧ PaidBy db' id txHash := by
  rw [payStatement] at h
  split at h
  · cases h
  rename_i t hupdate
  obtain ⟨hdb, hmatch⟩ := Prod.mk.inj (Except.ok.inj h)
  have hpay := find?_some hmatch
  have hfind : db.invoices.find id = some row := by
    rw [← payable_id hpay]
    exact (db.invoices.mem_iff_find row).mp (mem_of_find?_eq_some hmatch)
  have hupdate' : db.invoices.update (payable id none dbNow)
      (payRow txHash payerPublicKey none dbNow)
      = .ok db'.invoices := by
    rw [← hdb]
    exact hupdate
  refine ⟨extends_pay hupdate', payRow txHash payerPublicKey none dbNow row, ?_, rfl, rfl⟩
  rw [find_update hupdate' (fun _ => rfl), hfind, Option.map_some, if_pos hpay]

theorem payStatement_accepted (hrow : db.invoices.find id = some row)
    (hpay : payable id none dbNow row = true)
    (hfree : ∀ r ∈ db.invoices.rows, r.id ≠ id → r.paymentTxHash ≠ some txHash) :
    ∃ db', payStatement db id txHash payerPublicKey dbNow = .ok (db', some row) := by
  obtain ⟨t, ht⟩ := db.invoices.update_hash_accepted (p := payable id none dbNow)
    (f := payRow txHash payerPublicKey none dbNow)
    (fun r h => payable_id h) (fun _ => rfl) (fun _ => rfl)
    (fun _ => rfl) (fun _ => rfl) hfree
  have hsel := Table.find?_guard db.invoices.ids
    (fun r (h : payable id none dbNow r = true) => payable_id h)
  rw [show Table.find InvoiceRow.id db.invoices.rows id = some row from hrow,
    Option.filter_some, if_pos hpay] at hsel
  refine ⟨{ db with invoices := t }, ?_⟩
  rw [payStatement, ht, hsel]

theorem selectByMemo_some {memo : String} (h : selectByMemo db memo = some row) :
    db.invoices.find row.id = some row ∧ row.memo = memo := by
  rw [selectByMemo] at h
  have hmemo := find?_some h
  exact ⟨(db.invoices.mem_iff_find row).mp (mem_of_find?_eq_some h), beq_iff_eq.mp hmemo⟩

theorem assess_accept {payment : PaymentRecord} {invoice : StoredInvoice}
    (h : assess payment invoice = .accept) : toFixed7 (.finite invoice.amount)
        = toFixed7 (parseFloat (payment.amount.getD ""))
      ∧ payment.assetCode = invoice.assetCode := by
  rw [assess] at h
  split at h
  · cases h
  dsimp only at h
  split at h
  · cases h
  rename_i hamount
  split at h
  · cases h
  rename_i hasset
  exact ⟨not_not.mp hamount, not_not.mp hasset⟩

section Steps

variable (ledger : Ledger) (publicKey : String)

/-- What `handlePayment` lets through at its start. -/
structure Handled (record : HorizonPayment) : Prop where
  delivered : ∃ how, isDelivered publicKey record how = true
  usable : isUsablePaymentRecord (paymentRecord ledger record) = true

/-- What `handlePayment` compares a payment with, all of it lasting. -/
structure Matches (record : HorizonPayment) (row : InvoiceRow) : Prop where
  memo : (paymentRecord ledger record).memo = some row.memo
  amount : toFixed7 (.finite (parseDecimal row.amount)) = toFixed7
        (parseFloat (record.operation.amount.getD ""))
  assetCode : (paymentRecord ledger record).assetCode = row.assetCode

variable {record : HorizonPayment}

variable {ledger} in
theorem Matches.follows {row row' : InvoiceRow}
    (h : Matches ledger record row) (hrow : Follows row row') : Matches ledger record row' where
  memo := by rw [hrow.memo]; exact h.memo
  amount := by rw [hrow.amount]; exact h.amount
  assetCode := by rw [hrow.assetCode]; exact h.assetCode

/-- The payment was let through and its invoice has its memo, its amount and
    its asset code. -/
def Backs (db : InvoiceDb) (record : HorizonPayment) (id : String) : Prop :=
  Handled ledger publicKey record ∧
    ∃ row, db.invoices.find id = some row ∧ Matches ledger record row

variable {ledger publicKey} in
theorem Backs.extends {db db' : InvoiceDb} {id : String} (h : Backs ledger publicKey db record id)
    (hext : Extends db db') : Backs ledger publicKey db' record id := by
  obtain ⟨hhandled, row, hrow, hmatches⟩ := h
  obtain ⟨row', hrow', hfollows⟩ := hext id row hrow
  exact ⟨hhandled, row', hrow', hmatches.follows hfollows⟩

/-- What is known of a payment in each phase. -/
def Phase.Sound (db : InvoiceDb) : Phase → Prop
  | .sweeping record | .reading record => Handled ledger publicKey record
  | .saving record id | .paying record id | .confirming record id =>
    Backs ledger publicKey db record id
  | .logging _ _ | .finished => True

variable {ledger publicKey} in
theorem Phase.Sound.extends {db db' : InvoiceDb} {phase : Phase}
    (h : phase.Sound ledger publicKey db) (hext : Extends db db') :
    phase.Sound ledger publicKey db' := by
  cases phase with
  | sweeping record => exact h
  | reading record => exact h
  | logging id eventData => exact trivial
  | saving record id => exact Backs.extends h hext
  | paying record id => exact Backs.extends h hext
  | confirming record id => exact Backs.extends h hext
  | finished => exact trivial

/-- The phases that lead on without a write to `transactions` or a payment. -/
inductive Phase.Leads (db : InvoiceDb) : Phase → Phase → Prop where
  | swept (record : HorizonPayment) : Leads db (.sweeping record) (.reading record)
  | matched {record : HorizonPayment} {row : InvoiceRow} (hrow : db.invoices.find row.id = some row)
      (hmatches : Matches ledger record row) :
      Leads db (.reading record) (.saving record row.id)
  | mismatched (record : HorizonPayment) (id : String) (eventData : Json) :
      Leads db (.reading record) (.logging id eventData)
  | ended {phase : Phase} (h : ∀ record id, phase ≠ .paying record id) : Leads db phase .finished

/-- What a step can do. -/
inductive Moves (s : State) : Event → State → Prop where
  | rests {e : Event} {db : InvoiceDb} (hext : Extends s.db db) : Moves s e { s with db := db }
  | receives {how : Delivery} {record : HorizonPayment} (h : Handled ledger publicKey record) :
      Moves s (.deliver how record)
        { s with calls := s.calls ++ [.sweeping record] }
  | proceeds {k : Nat} {now dbNow : Int} {fails : Bool} {phase phase' : Phase}
      {db : InvoiceDb} (hk : s.calls[k]? = some phase)
      (hleads : phase.Leads ledger s.db phase') (hext : Extends s.db db) :
      Moves s (.statement k now dbNow fails)
        { s with db := db, calls := s.calls.set k phase' }
  | saves {k : Nat} {now dbNow : Int} {record : HorizonPayment} {id : String}
      (hk : s.calls[k]? = some (.saving record id)) :
      Moves s (.statement k now dbNow false)
        { s with
          transactions := saveTransaction s.transactions (paymentRecord ledger record) id
          calls := s.calls.set k (.paying record id) }
  | pays {k : Nat} {now dbNow : Int} {record : HorizonPayment} {id : String}
      {db : InvoiceDb} (hk : s.calls[k]? = some (.paying record id))
      (hext : Extends s.db db)
      (hpaid : PaidBy db id record.transactionHash) :
      Moves s (.statement k now dbNow false)
        { s with
          db := db
          calls := s.calls.set k (.confirming record id)
          settled := s.settled ++ [(record, id)] }
  | strands {k : Nat} {now dbNow : Int} {fails : Bool}
      {record : HorizonPayment} {id : String}
      (hk : s.calls[k]? = some (.paying record id))
      (hnot : fails = true ∨ ∀ db row, payStatement s.db id
        record.transactionHash (record.operation.fromAddress.getD "") dbNow
        ≠ .ok (db, some row)) :
      Moves s (.statement k now dbNow fails)
        { s with calls := s.calls.set k .finished }

theorem leads_afterReading (db : InvoiceDb) (record : HorizonPayment) :
    (Phase.reading record).Leads ledger db (afterReading ledger record
      ((paymentRecord ledger record).memo.bind (selectByMemo db))) := by
  have hended : (Phase.reading record).Leads ledger db .finished :=
    .ended (fun _ _ h => by cases h)
  cases hmemo : (paymentRecord ledger record).memo with
  | none => exact hended
  | some memo =>
    rw [Option.bind_some]
    cases hselect : selectByMemo db memo with
    | none => exact hended
    | some row =>
      obtain ⟨hrow, hmemo'⟩ := selectByMemo_some hselect
      rw [afterReading]
      split
      · rename_i haccept
        obtain ⟨hamount, hasset⟩ := assess_accept haccept
        exact .matched hrow ⟨by rw [hmemo, hmemo'], hamount, hasset⟩
      · exact .mismatched record row.id _
      · exact hended

/-- **THE STEP RULE**: every step does one of six things. -/
theorem step_moves (s : State) (e : Event) :
    Moves ledger publicKey s e (step ledger publicKey s e) := by
  cases e with
  | deliver how record =>
    rw [step, receive]
    split
    · rename_i h
      rw [Bool.and_eq_true, Bool.and_eq_true] at h
      exact .receives ⟨⟨how, h.1.1⟩, h.1.2⟩
    · exact .rests (Extends.refl s.db)
  | request request => exact .rests (extends_perform s.db request)
  | statement k now dbNow fails =>
    rw [step]
    cases hk : s.calls[k]? with
    | none => exact .rests (Extends.refl s.db)
    | some phase =>
      cases fails with
      | true =>
        cases phase with
        | paying record id => exact .strands hk (.inl rfl)
        | _ => exact .proceeds hk (.ended (fun _ _ h => nomatch h)) (Extends.refl s.db)
      | false =>
        dsimp only
        rw [if_neg Bool.false_ne_true]
        cases phase with
        | sweeping record =>
          exact .proceeds hk (.swept record) (extends_markExpiredInvoices s.db now)
        | reading record =>
          exact .proceeds hk (leads_afterReading ledger s.db record) (Extends.refl s.db)
        | logging id eventData =>
          exact .proceeds hk (.ended (fun _ _ h => nomatch h)) (Extends.of_invoices rfl)
        | saving record id => exact .saves hk
        | paying record id =>
          rw [execute]
          split
          · rename_i db row hpay
            obtain ⟨hext, hpaid⟩ := payStatement_ok hpay
            exact .pays hk hext hpaid
          rename_i hnot
          exact .strands hk (.inr hnot)
        | confirming record id =>
          exact .proceeds hk (.ended (fun _ _ h => nomatch h)) (Extends.of_invoices rfl)
        | finished => exact .rests (Extends.refl s.db)

/-! ## Runs -/

variable {s : State} {db : InvoiceDb} {phase : Phase} {e : Event} {k : Nat}

variable {ledger publicKey} in
theorem Moves.extends {s s' : State} (h : Moves ledger publicKey s e s') : Extends s.db s'.db := by
  cases h with
  | rests hext => exact hext
  | receives _ => exact Extends.refl s.db
  | proceeds _ _ hext => exact hext
  | saves _ => exact Extends.refl s.db
  | pays _ hext _ => exact hext
  | strands _ _ => exact Extends.refl s.db

variable {ledger publicKey} in
theorem run_invariant {P : State → Prop} (hstep : ∀ s e, P s → P (step ledger publicKey s e))
    (h : P s) (events : List Event) : P (run ledger publicKey s events) := by
  induction events generalizing s with
  | nil => exact h
  | cons e events ih => exact ih (hstep s e h)

variable {ledger publicKey} in
theorem Phase.Leads.sound {phase phase' : Phase} (h : phase.Leads ledger db phase')
    (hsound : phase.Sound ledger publicKey db) : phase'.Sound ledger publicKey db := by
  cases h with
  | swept record => exact hsound
  | matched hrow hmatches => exact ⟨hsound, _, hrow, hmatches⟩
  | mismatched record id eventData => exact trivial
  | ended h => exact trivial

/-- Every payment under way and every settled one is backed. -/
structure Sound (s : State) : Prop where
  calls : ∀ phase ∈ s.calls, phase.Sound ledger publicKey s.db
  settled : ∀ x ∈ s.settled, Backs ledger publicKey s.db x.1 x.2

variable {ledger publicKey} in
theorem Sound.at (h : Sound ledger publicKey s) (hk : s.calls[k]? = some phase) :
    phase.Sound ledger publicKey s.db :=
  h.calls phase (mem_of_getElem? hk)

variable {ledger publicKey} in
theorem Sound.set (h : Sound ledger publicKey s) (hext : Extends s.db db)
    (hphase : phase.Sound ledger publicKey db) :
    ∀ phase' ∈ s.calls.set k phase, phase'.Sound ledger publicKey db := by
  intro phase' hmem
  rcases mem_or_eq_of_mem_set hmem with hmem | rfl
  · exact (h.calls phase' hmem).extends hext
  · exact hphase

variable {ledger publicKey} in
theorem Sound.moves {s s' : State}
    (h : Sound ledger publicKey s) (hmoves : Moves ledger publicKey s e s') :
    Sound ledger publicKey s' := by
  have hkept : ∀ x ∈ s.settled, Backs ledger publicKey s'.db x.1 x.2 :=
    fun x hx => (h.settled x hx).extends hmoves.extends
  cases hmoves with
  | rests hext => exact ⟨fun phase hmem => (h.calls phase hmem).extends hext, hkept⟩
  | receives hhandled =>
    refine ⟨?_, hkept⟩
    intro phase hmem
    rcases mem_append.mp hmem with hmem | hmem
    · exact h.calls phase hmem
    rw [mem_singleton.mp hmem]
    exact hhandled
  | proceeds hk hleads hext => exact ⟨h.set hext ((hleads.sound (h.at hk)).extends hext), hkept⟩
  | saves hk =>
    have hbacks := h.at hk
    exact ⟨h.set (Extends.refl s.db) hbacks, hkept⟩
  | pays hk hext hpaid =>
    have hbacks := Backs.extends (h.at hk) hext
    refine ⟨h.set hext hbacks, ?_⟩
    intro x hx
    rcases mem_append.mp hx with hx | hx
    · exact hkept x hx
    rw [mem_singleton.mp hx]
    exact hbacks
  | strands hk _ => exact ⟨h.set (Extends.refl s.db) trivial, hkept⟩

theorem Sound.start (db : InvoiceDb) (transactions : List TransactionRow) :
    Sound ledger publicKey { db := db, transactions := transactions } where
  calls := fun _ hmem => nomatch hmem
  settled _ h := by cases h

/-- **WHAT A SETTLED PAYMENT MET**: in every run from a monitor that handles
    nothing yet, a payment that settled an invoice was let through and has its
    memo, its amount in seven decimals and its asset code. -/
theorem sound_run (db : InvoiceDb) (transactions : List TransactionRow) (events : List Event) :
    Sound ledger publicKey (run ledger publicKey
      { db := db, transactions := transactions } events) :=
  run_invariant (fun s e h => h.moves (step_moves ledger publicKey s e))
    (Sound.start ledger publicKey db transactions) events

end Steps

/-! ## A sample -/

/-- Five lumens to `G`. -/
def lumens : HorizonOperationLike where
  type := "payment"
  fromAddress := some "P"
  toAddress := some "G"
  amount := some "5.0000000"
  assetType := some "native"

/-- Every transaction is one operation, with the memo of one invoice. -/
def sampleLedger (operation : HorizonOperationLike) : Ledger where
  transaction := fun _ => { memo := some "INV-1" }
  operations := fun _ => [operation]
  ledgerAttr := fun _ => 7

/-- The payment of a transaction whose hash is one digit, repeated. -/
def samplePayment (operation : HorizonOperationLike) (digit : Char) : HorizonPayment where
  operation := operation
  transactionHash := String.ofList (replicate 64 digit)

/-- The invoice with that memo. -/
def sampleDb : InvoiceDb :=
  (createInvoice ⟨.empty, []⟩
    { sellerPublicKey := "G", amount := 5 } "a" "INV-1" 0 0).1

/-- The next statements of the given payments, one each. -/
def statements (ks : List Nat) : List Event :=
  ks.map (fun k => .statement k 0 0 false)

end PaymentMonitor

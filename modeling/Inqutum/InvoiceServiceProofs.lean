import Inqutum.InvoiceTableProofs
import Inqutum.InvoiceMemoryServiceProofs

/-!
# The PostgreSQL invoice service

`InvoiceService` writes through single SQL statements over the invoices
table: a guarded `UPDATE … RETURNING` decides a payment or a cancellation,
and a `SELECT` afterwards tells a version conflict from a plain refusal.
Each statement is atomic.  `now` is the script clock of a call, `dbNow` the
database's `NOW()`.
-/

namespace Invoices

open JsText InvoiceTable

/-- A row of `payment_events`. -/
structure PaymentEvent where
  invoiceId : String
  eventType : String
  eventData : String

structure InvoiceDb where
  invoices : InvoiceTable
  paymentEvents : List PaymentEvent

def mapRowToInvoice (row : InvoiceRow) : StoredInvoice where
  id := row.id
  sellerPublicKey := row.sellerPublicKey
  sellerName := row.sellerName
  sellerEmail := row.sellerEmail
  amount := parseDecimal row.amount
  assetCode := row.assetCode
  assetIssuer := row.assetIssuer
  memo := row.memo
  description := row.description
  customerName := row.customerName
  customerEmail := row.customerEmail
  status := row.status
  paymentTxHash := row.paymentTxHash
  payerPublicKey := row.payerPublicKey
  payerName := row.payerName
  payerEmail := row.payerEmail
  createdAt := dateOf row.createdAt
  paidAt := row.paidAt.map dateOf
  expiresAt := dateOf row.expiresAt
  metadata := row.metadata
  version := some row.version.toNat

namespace InvoiceService

/-- The row `createInvoice` inserts. -/
def newRow (input : CreateInvoiceInput) (id memo : String)
    (expiresAt dbNow : Int) : InvoiceRow where
  id := id
  sellerPublicKey := input.sellerPublicKey
  sellerName := nonEmpty input.sellerName
  sellerEmail := nonEmpty input.sellerEmail
  amount := decimal7 (JsNumber.textValue input.amount)
  assetCode := orElse input.assetCode "XLM"
  assetIssuer := nonEmpty input.assetIssuer
  memo := memo
  description := nonEmpty input.description
  customerName := nonEmpty input.customerName
  customerEmail := nonEmpty input.customerEmail
  status := .pending
  createdAt := dbNow
  expiresAt := timestampParam expiresAt
  version := 1

def createInvoice (db : InvoiceDb) (input : CreateInvoiceInput)
    (id memo : String) (now dbNow : Int) :
    InvoiceDb × Except InvoiceError StoredInvoice :=
  if input.sellerPublicKey = "" then (db, .error .sellerKeyRequired)
  else
    match calculateInvoiceExpiry input.expiresInDays now with
    | .error e => (db, .error e)
    | .ok expiresAt =>
      let row := newRow input id memo expiresAt dbNow
      match db.invoices.insert row with
      | .error e => (db, .error (.createFailed e.message))
      | .ok t => ({ db with invoices := t }, .ok (mapRowToInvoice row))

/-- `status = 'PENDING' AND expires_at <= $1`. -/
def isDue (now : Int) (row : InvoiceRow) : Bool :=
  row.status == .pending && decide (row.expiresAt ≤ timestampParam now)

def expireRow (row : InvoiceRow) : InvoiceRow :=
  { row with status := .expired }

def markExpiredInvoices (db : InvoiceDb) (now : Int) : InvoiceDb × Except InvoiceError Nat :=
  match db.invoices.update (isDue now) expireRow with
  | .error e => (db, .error (.database e.message))
  | .ok t => ({ db with invoices := t }, .ok (db.invoices.rows.filter (isDue now)).length)

/-- The `INTEGER` parameter of a guarded update, when a version is given. -/
def versionParam : Option JsNumber → Except DbError (Option Int)
  | none => .ok none
  | some value => (integerParam value).map some

/-- The `version = $n` clause of a guarded update. -/
def versionMatches (expected : Option Int) (row : InvoiceRow) : Bool :=
  match expected with
  | none => true
  | some version => decide (row.version = version)

/-- The condition of the payment update. -/
def payable (id : String) (expected : Option Int) (dbNow : Int) (row : InvoiceRow) : Bool :=
  row.id == id && row.status == .pending && decide (dbNow < row.expiresAt)
    && versionMatches expected row

/-- The assignments of the payment update. -/
def payRow (txHash payerPublicKey : String) (payerInfo : Option PayerInfo)
    (dbNow : Int) (row : InvoiceRow) : InvoiceRow :=
  { row with
    status := .paid
    paymentTxHash := some txHash
    payerPublicKey := some payerPublicKey
    paidAt := some dbNow
    payerName := nonEmpty (payerInfo.bind PayerInfo.payerName)
    payerEmail := nonEmpty (payerInfo.bind PayerInfo.payerEmail)
    version := row.version + 1 }

/-- The error after a guarded update that matched no row: a conflict if a
    version was given and the row exists. -/
def refusal (db : InvoiceDb) (id : String)
    (expectedVersion : Option JsNumber) (otherwise : InvoiceError) :
    InvoiceError :=
  match expectedVersion, db.invoices.find id with
  | some attempted, some row => .conflict (.finite row.version) attempted
  | _, _ => otherwise

def logPaymentEvent (db : InvoiceDb) (invoiceId eventType : String)
    (eventData : Json) : InvoiceDb :=
  { db with
    paymentEvents := db.paymentEvents ++ [⟨invoiceId, eventType, eventData.stringify⟩] }

def markAsPaid (db : InvoiceDb) (id txHash payerPublicKey : String)
    (payerInfo : Option PayerInfo) (expectedVersion : Option JsNumber)
    (dbNow : Int) : InvoiceDb × Except InvoiceError StoredInvoice :=
  match versionParam expectedVersion with
  | .error e => (db, .error (.updateFailed e.message))
  | .ok expected =>
    match db.invoices.update (payable id expected dbNow)
        (payRow txHash payerPublicKey payerInfo dbNow) with
    | .error e => (db, .error (.updateFailed e.message))
    | .ok t =>
      match db.invoices.rows.find? (payable id expected dbNow) with
      | some row =>
        (logPaymentEvent { db with invoices := t } id "PAYMENT_CONFIRMED"
          (.obj [("txHash", .str txHash), ("payerPublicKey", .str payerPublicKey)]),
          .ok (mapRowToInvoice (payRow txHash payerPublicKey payerInfo dbNow row)))
      | none =>
        (db, .error (refusal db id expectedVersion (.updateFailed InvoiceError.notPayable.message)))

/-- The condition of the cancelling update. -/
def cancellable (id : String) (expected : Option Int) (row : InvoiceRow) :
    Bool :=
  row.id == id && row.status == .pending && versionMatches expected row

def cancelRow (row : InvoiceRow) : InvoiceRow :=
  { row with status := .cancelled, version := row.version + 1 }

def cancelInvoice (db : InvoiceDb) (id : String) (expectedVersion : Option JsNumber) (now : Int) :
    InvoiceDb × Except InvoiceError StoredInvoice :=
  let swept := markExpiredInvoices db now
  match swept.2 with
  | .error e => (swept.1, .error e)
  | .ok _ =>
    let db := swept.1
    match versionParam expectedVersion with
    | .error e => (db, .error (.database e.message))
    | .ok expected =>
      match db.invoices.update (cancellable id expected) cancelRow with
      | .error e => (db, .error (.database e.message))
      | .ok t =>
        match db.invoices.rows.find? (cancellable id expected) with
        | some row => ({ db with invoices := t }, .ok (mapRowToInvoice (cancelRow row)))
        | none => (db, .error (refusal db id expectedVersion .notCancellable))

/-! ## What each call does -/

def sweepRow (now : Int) (row : InvoiceRow) : InvoiceRow :=
  if isDue now row then expireRow row else row

theorem markExpiredInvoices_eq (db : InvoiceDb) (now : Int) :
    ∃ t n, markExpiredInvoices db now = ({ db with invoices := t }, .ok n) ∧
      ∀ id, t.find id = (db.invoices.find id).map (sweepRow now) := by
  obtain ⟨t, ht⟩ := db.invoices.update_accepted (isDue now) (f := expireRow)
    (fun _ => rfl) (fun _ => rfl) (fun _ => rfl) (fun _ => rfl)
  rw [markExpiredInvoices, ht]
  exact ⟨t, _, rfl, find_update ht (fun _ => rfl)⟩

variable {row : InvoiceRow} {t : InvoiceTable} {now : Int} {n : Nat} {e : DbError}

theorem payable_id {id : String} {expected : Option Int} {dbNow : Int}
    (h : payable id expected dbNow row = true) : row.id = id := by
  simp only [payable, Bool.and_eq_true, beq_iff_eq] at h
  exact h.1.1.1

theorem cancellable_id {id : String} {expected : Option Int}
    (h : cancellable id expected row = true) : row.id = id := by
  simp only [cancellable, Bool.and_eq_true, beq_iff_eq] at h
  exact h.1.1

theorem map_guarded {id id' : String} {p : InvoiceRow → Bool} {f : InvoiceRow → InvoiceRow}
    (hrow : t.find id = some row) (hp : p row = true) (hguard : ∀ r, p r = true → r.id = id) :
    (t.find id').map (fun r => if p r then f r else r)
      = if id = id' then some (f row) else t.find id' := by
  by_cases hid : id = id'
  · rw [if_pos hid, ← hid, hrow, Option.map_some, if_pos hp]
  rw [if_neg hid]
  cases hother : t.find id' with
  | none => rfl
  | some r =>
    have hnot : ¬ p r = true := fun h =>
      hid ((hguard r h).symm.trans (find_id hother))
    rw [Option.map_some, if_neg hnot]

variable {db : InvoiceDb} {id txHash payerPublicKey : String}
  {payerInfo : Option PayerInfo} {expectedVersion : Option JsNumber}
  {expected : Option Int} {dbNow : Int}

theorem markAsPaid_invalid (hver : versionParam expectedVersion = .error e) :
    markAsPaid db id txHash payerPublicKey payerInfo expectedVersion dbNow
      = (db, .error (.updateFailed e.message)) := by
  rw [markAsPaid, hver]

theorem markAsPaid_refused (hver : versionParam expectedVersion = .ok expected)
    (hnone : (db.invoices.find id).filter (payable id expected dbNow) = none) :
    markAsPaid db id txHash payerPublicKey payerInfo expectedVersion dbNow
      = (db, .error (refusal db id expectedVersion
          (.updateFailed InvoiceError.notPayable.message))) := by
  have hsel := Table.find?_guard db.invoices.ids
    (fun r (h : payable id expected dbNow r = true) => payable_id h)
  have hnot : ∀ r ∈ db.invoices.rows, payable id expected dbNow r ≠ true :=
    List.find?_eq_none.mp (hsel.trans hnone)
  rw [markAsPaid, hver]
  simp only []
  rw [db.invoices.update_unmatched _ hnot, hsel.trans hnone]

theorem markAsPaid_taken (hver : versionParam expectedVersion = .ok expected)
    {row other : InvoiceRow} (hrow : db.invoices.find id = some row)
    (hpay : payable id expected dbNow row = true)
    (hother : other ∈ db.invoices.rows) (hne : other.id ≠ id)
    (htaken : other.paymentTxHash = some txHash) :
    ∃ cause, markAsPaid db id txHash payerPublicKey payerInfo expectedVersion
      dbNow = (db, .error (.updateFailed cause)) := by
  obtain ⟨e, he⟩ := db.invoices.update_hash_refused (p := payable id expected dbNow)
    (f := payRow txHash payerPublicKey payerInfo dbNow)
    (fun r h => payable_id h) (fun _ => rfl) (fun _ => rfl)
    (mem_of_find hrow) hpay hother hne htaken
  refine ⟨e.message, ?_⟩
  rw [markAsPaid, hver]
  simp only []
  rw [he]

theorem pay_lands {row : InvoiceRow} (hrow : db.invoices.find id = some row)
    (hpay : payable id expected dbNow row = true)
    (hfree : ∀ r ∈ db.invoices.rows, r.id ≠ id → r.paymentTxHash ≠ some txHash) :
    ∃ t, db.invoices.update (payable id expected dbNow)
        (payRow txHash payerPublicKey payerInfo dbNow) = .ok t
      ∧ db.invoices.rows.find? (payable id expected dbNow) = some row := by
  obtain ⟨t, ht⟩ := db.invoices.update_hash_accepted (p := payable id expected dbNow)
    (f := payRow txHash payerPublicKey payerInfo dbNow)
    (fun r h => payable_id h) (fun _ => rfl) (fun _ => rfl) (fun _ => rfl)
    (fun _ => rfl) hfree
  have hsel := Table.find?_guard db.invoices.ids
    (fun r (h : payable id expected dbNow r = true) => payable_id h)
  rw [show Table.find InvoiceRow.id db.invoices.rows id = some row from hrow,
    Option.filter_some, if_pos hpay] at hsel
  exact ⟨t, ht, hsel⟩

theorem markAsPaid_accepted (hver : versionParam expectedVersion = .ok expected)
    (hrow : db.invoices.find id = some row) (hpay : payable id expected dbNow row = true)
    (hfree : ∀ r ∈ db.invoices.rows, r.id ≠ id → r.paymentTxHash ≠ some txHash) :
    ∃ db', markAsPaid db id txHash payerPublicKey payerInfo expectedVersion
        dbNow = (db', .ok (mapRowToInvoice (payRow txHash payerPublicKey payerInfo dbNow row))) ∧
      ∀ id', db'.invoices.find id' = if id = id' then
        some (payRow txHash payerPublicKey payerInfo dbNow row) else db.invoices.find id' := by
  obtain ⟨t, ht, hsel⟩ := pay_lands hrow hpay hfree
  rw [markAsPaid, hver]
  simp only []
  rw [ht, hsel]
  refine ⟨_, rfl, ?_⟩
  intro id'
  show t.find id' = _
  rw [find_update ht (fun _ => rfl)]
  exact map_guarded hrow hpay (fun r h => payable_id h)

theorem cancelInvoice_invalid
    (hsweep : markExpiredInvoices db now = ({ db with invoices := t }, .ok n))
    (hver : versionParam expectedVersion = .error e) :
    cancelInvoice db id expectedVersion now
      = ({ db with invoices := t }, .error (.database e.message)) := by
  rw [cancelInvoice, hsweep]
  simp only []
  rw [hver]

theorem cancelInvoice_refused
    (hsweep : markExpiredInvoices db now = ({ db with invoices := t }, .ok n))
    (hver : versionParam expectedVersion = .ok expected)
    (hnone : (t.find id).filter (cancellable id expected) = none) :
    cancelInvoice db id expectedVersion now = ({ db with invoices := t }, .error (refusal
          { db with invoices := t } id expectedVersion
          .notCancellable)) := by
  have hsel := Table.find?_guard t.ids
    (fun r (h : cancellable id expected r = true) => cancellable_id h)
  have hnot : ∀ r ∈ t.rows, cancellable id expected r ≠ true :=
    List.find?_eq_none.mp (hsel.trans hnone)
  rw [cancelInvoice, hsweep]
  simp only []
  rw [hver]
  simp only []
  rw [t.update_unmatched _ hnot, hsel.trans hnone]

/-- One that matches goes through and changes that row only. -/
theorem cancelInvoice_accepted
    (hsweep : markExpiredInvoices db now = ({ db with invoices := t }, .ok n))
    (hver : versionParam expectedVersion = .ok expected) (hrow : t.find id = some row)
    (hcan : cancellable id expected row = true) :
    ∃ db', cancelInvoice db id expectedVersion now = (db', .ok (mapRowToInvoice (cancelRow row))) ∧
      ∀ id', db'.invoices.find id' = if id = id' then some (cancelRow row)
        else t.find id' := by
  obtain ⟨t', ht'⟩ := t.update_accepted (cancellable id expected)
    (f := cancelRow) (fun _ => rfl) (fun _ => rfl) (fun _ => rfl)
    (fun _ => rfl)
  have hsel := Table.find?_guard t.ids
    (fun r (h : cancellable id expected r = true) => cancellable_id h)
  rw [show Table.find InvoiceRow.id t.rows id = some row from hrow,
    Option.filter_some, if_pos hcan] at hsel
  rw [cancelInvoice, hsweep]
  simp only []
  rw [hver]
  simp only []
  rw [ht', hsel]
  refine ⟨_, rfl, ?_⟩
  intro id'
  show t'.find id' = _
  rw [find_update ht' (fun _ => rfl)]
  exact map_guarded hrow hcan (fun r h => cancellable_id h)

end InvoiceService

end Invoices

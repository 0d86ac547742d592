import Inqutum.SettlementRecordProofs

/-!
# Where the rows of the invoices table come from

Every statement of the invoice service leaves a row as it was, expires,
cancels or pays a pending one, or inserts a new one (`RowFrom`).
`DbMoves` says so of a whole call, with the payments and the rows it may
make, and that an event it logs is of an invoice that is there.  Each
operation has its lemma.
-/

namespace PaymentMonitor

open Invoices List InvoiceService

/-- What becomes of the rows of a table: `pays` are the payments that may be
    made, by invoice and hash, `creates` the rows that may be inserted. -/
inductive RowFrom (db : InvoiceDb) (pays : String → String → Prop)
    (creates : InvoiceRow → Prop) : InvoiceRow → Prop where
  | kept {row : InvoiceRow} (h : row ∈ db.invoices.rows) : RowFrom db pays creates row
  | expired {row : InvoiceRow} (h : row ∈ db.invoices.rows) (hpending : row.status = .pending) :
      RowFrom db pays creates (expireRow row)
  | cancelled {row : InvoiceRow} (h : row ∈ db.invoices.rows) (hpending : row.status = .pending) :
      RowFrom db pays creates (cancelRow row)
  | paid {row : InvoiceRow} {txHash payerPublicKey : String}
      {payerInfo : Option PayerInfo} {dbNow : Int}
      (h : row ∈ db.invoices.rows) (hpending : row.status = .pending)
      (hdue : dbNow < row.expiresAt) (hpays : pays row.id txHash) :
      RowFrom db pays creates (payRow txHash payerPublicKey payerInfo dbNow row)
  | created {row : InvoiceRow} (h : creates row) : RowFrom db pays creates row

def Known (db : InvoiceDb) (id : String) : Prop :=
  ∃ row, db.invoices.find id = some row

structure DbMoves (db : InvoiceDb) (pays : String → String → Prop)
    (creates : InvoiceRow → Prop) (db' : InvoiceDb) : Prop where
  grows : Extends db db'
  rows : ∀ row ∈ db'.invoices.rows, RowFrom db pays creates row
  events : ∀ e ∈ db'.paymentEvents, e ∈ db.paymentEvents ∨ Known db' e.invoiceId

theorem Known.extends {db db' : InvoiceDb} {id : String} (h : Known db id)
    (hext : Extends db db') : Known db' id := by
  obtain ⟨row, hrow⟩ := h
  obtain ⟨row', hrow', -⟩ := hext id row hrow
  exact ⟨row', hrow'⟩

/-! ## Statements -/

variable {t t' : InvoiceTable} {row : InvoiceRow}

theorem mem_rows_update {p : InvoiceRow → Bool}
    {f : InvoiceRow → InvoiceRow} (h : t.update p f = .ok t') (hmem : row ∈ t'.rows) :
    row ∈ t.rows ∨ ∃ old ∈ t.rows, p old = true ∧ row = f old := by
  rw [InvoiceTable.ofRows_ok h] at hmem
  obtain ⟨old, hold, rfl⟩ := mem_map.mp hmem
  by_cases hp : p old = true
  · rw [if_pos hp]
    exact .inr ⟨old, hold, hp, rfl⟩
  rw [if_neg hp]
  exact .inl hold

theorem mem_rows_insert (h : t.insert row = .ok t') {row' : InvoiceRow} (hmem : row' ∈ t'.rows) :
    row' ∈ t.rows ∨ row' = row := by
  rw [InvoiceTable.ofRows_ok h] at hmem
  exact (mem_append.mp hmem).imp_right mem_singleton.mp

section Calls

variable {pays : String → String → Prop} {creates : InvoiceRow → Prop}

theorem DbMoves.refl (db : InvoiceDb) : DbMoves db pays creates db :=
  ⟨Extends.refl db, fun _ h => .kept h, fun _ h => .inl h⟩

variable {row : InvoiceRow} {id txHash payerPublicKey : String} {db : InvoiceDb} {dbNow : Int}

theorem dbMoves_log {id : String} (h : Known db id) (eventType : String) (eventData : Json) :
    DbMoves db pays creates (logPaymentEvent db id eventType eventData) where
  grows := Extends.of_invoices rfl
  rows _ hrow := .kept hrow
  events := by
    intro e hmem
    rcases mem_append.mp hmem with hmem | hmem
    · exact .inl hmem
    rw [mem_singleton.mp hmem]
    exact .inr h

theorem dbMoves_expire (db : InvoiceDb) (now : Int) : DbMoves db pays creates
      (markExpiredInvoices db now).1 := by
  have hext := extends_markExpiredInvoices db now
  rw [markExpiredInvoices] at hext ⊢
  split at hext
  · exact DbMoves.refl db
  next t h =>
    refine ⟨hext, fun row hmem => ?_, fun _ he => .inl he⟩
    rcases mem_rows_update h hmem with hold | ⟨old, hold, hdue, rfl⟩
    · exact .kept hold
    rw [isDue, Bool.and_eq_true, beq_iff_eq] at hdue
    exact .expired hold hdue.1

theorem rowFrom_pay {t : InvoiceTable} {payerInfo : Option PayerInfo} {expected : Option Int}
    (h : db.invoices.update (payable id expected dbNow)
      (payRow txHash payerPublicKey payerInfo dbNow) = .ok t)
    (hpays : pays id txHash) (hmem : row ∈ t.rows) : RowFrom db pays creates row := by
  rcases mem_rows_update h hmem with hold | ⟨old, hold, hpay, rfl⟩
  · exact .kept hold
  have hid := payable_id hpay
  simp only [payable, Bool.and_eq_true, beq_iff_eq, decide_eq_true_eq] at hpay
  refine .paid hold hpay.1.1.2 hpay.1.2 ?_
  rw [hid]
  exact hpays

theorem dbMoves_markAsPaid (db : InvoiceDb)
    (id txHash payerPublicKey : String) (payerInfo : Option PayerInfo)
    (expectedVersion : Option JsNumber) (dbNow : Int) :
    DbMoves db (fun id' txHash' => (id' = id ∧ txHash' = txHash)
        ∧ (markAsPaid db id txHash payerPublicKey payerInfo expectedVersion dbNow).2.isOk = true)
      creates (markAsPaid db id txHash payerPublicKey payerInfo expectedVersion dbNow).1 := by
  have hext := extends_markAsPaid db id txHash payerPublicKey payerInfo expectedVersion dbNow
  rw [markAsPaid] at hext ⊢
  cases hver : versionParam expectedVersion with
  | error e => exact DbMoves.refl db
  | ok expected =>
    dsimp only
    rw [hver] at hext
    dsimp only at hext
    cases h : db.invoices.update (payable id expected dbNow)
        (payRow txHash payerPublicKey payerInfo dbNow) with
    | error e => exact DbMoves.refl db
    | ok t =>
      dsimp only
      rw [h] at hext
      dsimp only at hext
      cases hmatch : db.invoices.rows.find? (payable id expected dbNow) with
      | none => exact DbMoves.refl db
      | some row =>
        rw [hmatch] at hext
        refine ⟨hext, fun row' hmem => ?_, fun e he => ?_⟩
        · exact rowFrom_pay h ⟨⟨rfl, rfl⟩, rfl⟩ hmem
        rcases mem_append.mp he with he | he
        · exact .inl he
        rw [mem_singleton.mp he]
        have hid := payable_id (find?_some hmatch)
        have hrow := (db.invoices.mem_iff_find row).mp (mem_of_find?_eq_some hmatch)
        rw [hid] at hrow
        exact .inr (Known.extends ⟨row, hrow⟩ hext)

theorem dbMoves_payStatement {db db' : InvoiceDb}
    (h : payStatement db id txHash payerPublicKey dbNow = .ok (db', some row)) :
    DbMoves db (fun id' txHash' => id' = id ∧ txHash' = txHash) creates db' := by
  have hext := (payStatement_ok h).1
  rw [payStatement] at h
  split at h
  · cases h
  next t hupdate =>
    obtain ⟨rfl, -⟩ := Prod.mk.inj (Except.ok.inj h)
    exact ⟨hext, fun row' hmem => rowFrom_pay hupdate ⟨rfl, rfl⟩ hmem, fun _ he => .inl he⟩

/-- A sweep logs nothing. -/
theorem paymentEvents_expire (db : InvoiceDb) (now : Int) :
    (markExpiredInvoices db now).1.paymentEvents = db.paymentEvents := by
  rw [markExpiredInvoices]
  split <;> rfl

theorem mem_of_pending_swept {now : Int} (hmem : row ∈ (markExpiredInvoices db now).1.invoices.rows)
    (hpending : row.status = .pending) : row ∈ db.invoices.rows := by
  have hswept : DbMoves db (fun _ _ => False) (fun _ => False)
      (markExpiredInvoices db now).1 := dbMoves_expire db now
  cases hswept.rows row hmem with
  | kept h => exact h
  | expired _ _ => cases hpending
  | cancelled _ _ => cases hpending
  | paid _ _ _ _ => cases hpending
  | created h => exact h.elim

theorem dbMoves_cancelInvoice (db : InvoiceDb) (id : String)
    (expectedVersion : Option JsNumber) (now : Int) :
    DbMoves db pays creates (cancelInvoice db id expectedVersion now).1 := by
  have hext := extends_cancelInvoice db id expectedVersion now
  rw [cancelInvoice] at hext ⊢
  dsimp only at hext ⊢
  split at hext
  · exact dbMoves_expire db now
  split at hext
  · exact dbMoves_expire db now
  split at hext
  · exact dbMoves_expire db now
  next t h =>
    split at hext
    · refine ⟨hext, fun row hmem => ?_, fun e he => .inl ?_⟩
      · rcases mem_rows_update h hmem with hold | ⟨old, hold, hp, rfl⟩
        · exact (dbMoves_expire db now).rows row hold
        simp only [cancellable, Bool.and_eq_true, beq_iff_eq] at hp
        exact .cancelled (mem_of_pending_swept hold hp.1.2) hp.1.2
      rw [← paymentEvents_expire db now]
      exact he
    · exact dbMoves_expire db now

theorem dbMoves_createInvoice (db : InvoiceDb) (input : CreateInvoiceInput)
    (id memo : String) (now dbNow : Int) : DbMoves db pays (fun row => ∃ expiresAt,
        calculateInvoiceExpiry input.expiresInDays now = .ok expiresAt
          ∧ row = newRow input id memo expiresAt dbNow)
      (createInvoice db input id memo now dbNow).1 := by
  have hext := extends_createInvoice db input id memo now dbNow
  rw [createInvoice] at hext ⊢
  split at hext
  · next hkey =>
      rw [if_pos hkey]
      exact DbMoves.refl db
  next hkey =>
    rw [if_neg hkey]
    cases hexpiry : calculateInvoiceExpiry input.expiresInDays now with
    | error e => exact DbMoves.refl db
    | ok expiresAt =>
      dsimp only
      rw [hexpiry] at hext
      dsimp only at hext
      split at hext
      · exact DbMoves.refl db
      next t h =>
        refine ⟨hext, fun row hmem => ?_, fun _ he => .inl he⟩
        rcases mem_rows_insert h hmem with hold | rfl
        · exact .kept hold
        · exact .created ⟨expiresAt, rfl, rfl⟩

end Calls

end PaymentMonitor

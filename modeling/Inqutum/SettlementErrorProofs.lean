import Inqutum.InvoiceServiceProofs

/-!
# Settlements whose statements fail

`markAsPaid` is an update of the invoice and, if it matched, the insert of
a payment event; if it did not, the version is read to tell a conflict.
The statements are not in one transaction, and one `catch` makes every
error a failure to update.

So an error may come after the invoice was paid.  `honest_iff` says when a
call is `Honest`: unless the update takes effect and the event's insert
fails.
-/

namespace Invoices

namespace InvoiceService

/-- The statements of one call that fail, each with its message and without
    effect. -/
structure Failures where
  update : Option String := none
  readVersion : Option String := none
  insertEvent : Option String := none

/-- `PAYMENT_CONFIRMED`, as it is logged. -/
def logConfirmed (db : InvoiceDb) (id txHash payerPublicKey : String) :
    InvoiceDb :=
  logPaymentEvent db id "PAYMENT_CONFIRMED"
    (.obj [("txHash", .str txHash), ("payerPublicKey", .str payerPublicKey)])

/-- The update, as the database takes it. -/
def payUpdate (db : InvoiceDb) (id txHash payerPublicKey : String)
    (payerInfo : Option PayerInfo) (expectedVersion : Option JsNumber)
    (dbNow : Int) : Except DbError (InvoiceTable × Option InvoiceRow) :=
  match versionParam expectedVersion with
  | .error e => .error e
  | .ok expected =>
    (db.invoices.update (payable id expected dbNow)
      (payRow txHash payerPublicKey payerInfo dbNow)).map
        (fun t => (t, db.invoices.rows.find? (payable id expected dbNow)))

/-- `markAsPaid` with statements that fail. -/
def markAsPaidFailing (failures : Failures) (db : InvoiceDb)
    (id txHash payerPublicKey : String) (payerInfo : Option PayerInfo)
    (expectedVersion : Option JsNumber) (dbNow : Int) :
    InvoiceDb × Except InvoiceError StoredInvoice :=
  match failures.update with
  | some message => (db, .error (.updateFailed message))
  | none =>
    match payUpdate db id txHash payerPublicKey payerInfo expectedVersion dbNow with
    | .error e => (db, .error (.updateFailed e.message))
    | .ok (t, some row) =>
      let paid := { db with invoices := t }
      match failures.insertEvent with
      | some message => (paid, .error (.updateFailed message))
      | none => (logConfirmed paid id txHash payerPublicKey, .ok (mapRowToInvoice
            (payRow txHash payerPublicKey payerInfo dbNow row)))
    | .ok (_, none) =>
      -- the version is read only if one was given
      match expectedVersion.bind (fun _ => failures.readVersion) with
      | some message => (db, .error (.updateFailed message))
      | none => (db, .error (refusal db id expectedVersion
          (.updateFailed InvoiceError.notPayable.message)))

/-- An error leaves the row as it was; a return has it paid with the hash, and
    the event is there. -/
def Honest (db : InvoiceDb) (id txHash : String)
    (result : InvoiceDb × Except InvoiceError StoredInvoice) : Prop :=
  match result.2 with
  | .error _ => result.1.invoices.find id = db.invoices.find id
  | .ok _ => (∃ row, result.1.invoices.find id = some row
        ∧ row.status = .paid ∧ row.paymentTxHash = some txHash)
      ∧ ∃ event ∈ result.1.paymentEvents, event.invoiceId = id
        ∧ event.eventType = "PAYMENT_CONFIRMED"

/-- The update takes effect: the invoice can be paid, and no other one has
    the hash. -/
def TakesEffect (db : InvoiceDb) (id txHash : String)
    (expectedVersion : Option JsNumber) (dbNow : Int) : Prop :=
  ∃ expected row, versionParam expectedVersion = .ok expected
    ∧ db.invoices.find id = some row ∧ payable id expected dbNow row = true
    ∧ ∀ r ∈ db.invoices.rows, r.id ≠ id → r.paymentTxHash ≠ some txHash

section Calls

variable {db : InvoiceDb} {id txHash payerPublicKey : String}
  {payerInfo : Option PayerInfo} {expectedVersion : Option JsNumber}
  {dbNow : Int}

/-- **THE UPDATE**: it matches a row exactly if it takes effect, and then the
    invoice is paid. -/
theorem payUpdate_some {t : InvoiceTable} {row : InvoiceRow}
    (h : payUpdate db id txHash payerPublicKey payerInfo expectedVersion dbNow
      = .ok (t, some row)) : TakesEffect db id txHash expectedVersion dbNow
      ∧ db.invoices.find id = some row ∧ row.status = .pending
      ∧ t.find id = some (payRow txHash payerPublicKey payerInfo dbNow row) := by
  rw [payUpdate] at h
  cases hver : versionParam expectedVersion with
  | error e =>
    rw [hver] at h
    cases h
  | ok expected =>
    rw [hver] at h
    dsimp only at h
    cases hupdate : db.invoices.update (payable id expected dbNow)
        (payRow txHash payerPublicKey payerInfo dbNow) with
    | error e =>
      rw [hupdate] at h
      cases h
    | ok t' =>
      rw [hupdate] at h
      obtain ⟨rfl, hmatch⟩ := Prod.mk.inj (Except.ok.inj h)
      have hpay := List.find?_some hmatch
      have hmem := List.mem_of_find?_eq_some hmatch
      have hrow : db.invoices.find id = some row := by
        rw [← payable_id hpay]
        exact (db.invoices.mem_iff_find row).mp hmem
      refine ⟨⟨expected, row, hver, hrow, hpay, ?_⟩, hrow, ?_, ?_⟩
      · intro other hother hne htaken
        obtain ⟨e, he⟩ := db.invoices.update_hash_refused (p := payable id expected dbNow)
          (f := payRow txHash payerPublicKey payerInfo dbNow)
          (fun r h => payable_id h) (fun _ => rfl) (fun _ => rfl) hmem
          hpay hother hne htaken
        rw [hupdate] at he
        cases he
      · simp only [payable, Bool.and_eq_true, beq_iff_eq] at hpay
        exact hpay.1.1.2
      rw [InvoiceTable.find_update hupdate (fun _ => rfl),
        map_guarded hrow hpay (fun r h => payable_id h), if_pos rfl]

theorem TakesEffect.payUpdate (h : TakesEffect db id txHash expectedVersion
    dbNow) : ∃ t row, payUpdate db id txHash payerPublicKey payerInfo
      expectedVersion dbNow = .ok (t, some row) := by
  obtain ⟨expected, row, hver, hrow, hpay, hfree⟩ := h
  obtain ⟨t, ht, hsel⟩ := pay_lands hrow hpay hfree
  refine ⟨t, row, ?_⟩
  rw [InvoiceService.payUpdate, hver]
  dsimp only
  rw [ht, hsel]
  rfl

theorem honest_unchanged (error : InvoiceError) : Honest db id txHash (db, .error error) := rfl

/-- **HONEST ERRORS**: a call is honest exactly unless the update takes effect
    and the insert of the event fails. -/
theorem honest_iff (failures : Failures) (db : InvoiceDb)
    (id txHash payerPublicKey : String) (payerInfo : Option PayerInfo)
    (expectedVersion : Option JsNumber) (dbNow : Int) :
    Honest db id txHash (markAsPaidFailing failures db id txHash
        payerPublicKey payerInfo expectedVersion dbNow)
      ↔ ¬ (failures.update = none ∧ TakesEffect db id txHash expectedVersion dbNow
        ∧ failures.insertEvent ≠ none) := by
  rw [markAsPaidFailing]
  cases hfails : failures.update with
  | some message => exact iff_of_true (honest_unchanged _) (fun h => nomatch h.1)
  | none =>
    dsimp only
    cases hupdate : payUpdate db id txHash payerPublicKey payerInfo expectedVersion dbNow with
    | error e =>
      refine iff_of_true (honest_unchanged _) ?_
      rintro ⟨-, heffect, -⟩
      obtain ⟨t, row, hok⟩ := heffect.payUpdate
      rw [hupdate] at hok
      cases hok
    | ok taken =>
      obtain ⟨t, found⟩ := taken
      cases found with
      | none =>
        dsimp only
        refine iff_of_true ?_ ?_
        · split <;> exact honest_unchanged _
        rintro ⟨-, heffect, -⟩
        obtain ⟨t', row, hok⟩ := heffect.payUpdate
        rw [hupdate] at hok
        cases hok
      | some row =>
        obtain ⟨heffect, hrow, hpending, hpaid⟩ := payUpdate_some hupdate
        dsimp only
        cases hinsert : failures.insertEvent with
        | some message =>
          refine iff_of_false ?_ ?_
          · -- the row was pending and is paid
            intro hsame
            have hstatus := hpaid.symm.trans (hsame.trans hrow)
            have hrows := Option.some.inj hstatus
            rw [← hrows] at hpending
            cases hpending
          · exact not_not_intro ⟨rfl, heffect, Option.some_ne_none _⟩
        | none =>
          refine iff_of_true ⟨⟨_, hpaid, rfl, rfl⟩, ?_⟩ ?_
          · exact ⟨_, List.mem_append_right _ (.head _), rfl, rfl⟩
          rintro ⟨-, -, hne⟩
          exact hne rfl

end Calls

/-! ## A paid invoice that is reported as not updated -/

def pendingDb : InvoiceDb :=
  (createInvoice ⟨.empty, []⟩ { sellerPublicKey := "G", amount := 5 } "a" "INV-1" 0 0).1

/-- The event's insert fails behind the update. -/
theorem paid_and_reported_failed : ¬ Honest pendingDb "a" "f" (markAsPaidFailing
      { insertEvent := some "Connection terminated" } pendingDb "a" "f" "P"
      none none 0) := by
  intro hsame
  have hbefore : (pendingDb.invoices.find "a").map (fun row => row.status)
      = some .pending := by decide +kernel
  have hafter : ((markAsPaidFailing
      { insertEvent := some "Connection terminated" } pendingDb "a" "f" "P"
      none none 0).1.invoices.find "a").map (fun row => row.status)
      = some .paid := by decide +kernel
  have hrow : (markAsPaidFailing
      { insertEvent := some "Connection terminated" } pendingDb "a" "f" "P"
      none none 0).1.invoices.find "a" = pendingDb.invoices.find "a" := hsame
  rw [hrow, hbefore] at hafter
  cases hafter

end InvoiceService

end Invoices

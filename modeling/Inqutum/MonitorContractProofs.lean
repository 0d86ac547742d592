import Inqutum.PaymentMonitorProofs

/-!
# The payment monitor and the verification contract

`verifyHorizonPayment` decides for every other part of the service whether
a transaction pays an invoice.  The monitor decides by itself: it compares
the memo, the amount in seven decimals and the asset code, but neither the
destination nor the issuer, and it takes amounts of any size.

`settled_verifies_iff` says what the contract says of an invoice that the
monitor settled, and `look_alike_settles` is one that it refuses.
-/

namespace PaymentMonitor

open Invoices Verification Option JsNumber

/-! ## Both verdicts on one payment -/

/-- The values of a `DECIMAL(20, 7)` column. -/
def IsDecimal (q : ℚ) : Prop :=
  ∃ k : Int, |k| < 10 ^ 20 ∧ q = (k : ℚ) / 10 ^ 7

/-- What the contract is asked to expect for an invoice. -/
def invoiceTerms (network : String) (invoice : StoredInvoice) : ExpectedPayment where
  memo := invoice.memo
  amount := .number (.finite invoice.amount)
  destination := invoice.sellerPublicKey
  assetCode := invoice.assetCode
  assetIssuer := invoice.assetIssuer
  network := some network

/-- The transaction of a payment as the contract gets it. -/
def contractInput (ledger : Ledger) (network : String)
    (record : HorizonPayment) (invoice : StoredInvoice) :
    VerifyPaymentInput where
  txHash := record.transactionHash
  expected := invoiceTerms network invoice
  transaction := ledger.transaction record.transactionHash
  operations := ledger.operations record.transactionHash
  network := some network

/-- What the monitor leaves out: where the operation goes, who issued its
    asset, and whether its amount is a safe number of stroops. -/
structure IsGenuine (env : Environment) (expected : ExpectedPayment)
    (op : HorizonOperationLike) : Prop where
  destination : GoesTo env expected op
  asset : PaysAsset expected op
  safe : ∃ n, op.amount.bind Stroops.stroopsOf = some n

/-! ## What the monitor's checks give -/

section Checks

variable {ledger : Ledger} {publicKey : String} {record : HorizonPayment}

theorem isDelivered_payment {how : Delivery} (h : isDelivered publicKey record how = true) :
    record.operation.type = "payment" := by
  cases how with
  | streamPayments =>
    rw [isDelivered, Bool.and_eq_true, beq_iff_eq] at h
    exact h.1
  | getRecentPayments => exact beq_iff_eq.mp h

theorem isUsablePaymentRecord_spec {payment : PaymentRecord}
    (h : isUsablePaymentRecord payment = true) :
    (checkTxHash payment.txHash).isOk = true ∧ ∃ text, payment.amount = some text
        ∧ isAmountText (JsText.trim text).toList = true ∧ isPositive (ofText text) = true := by
  rw [isUsablePaymentRecord] at h
  simp only [Bool.and_eq_true] at h
  obtain ⟨⟨⟨⟨hhash, -⟩, -⟩, -⟩, hamount⟩ := h
  refine ⟨hhash, ?_⟩
  cases htext : payment.amount with
  | none =>
    rw [htext] at hamount
    cases hamount
  | some text =>
    rw [htext] at hamount
    exact ⟨text, rfl, Bool.and_eq_true_iff.mp hamount⟩

theorem amount_positive {text : String} (h : isAmountText (JsText.trim text).toList = true)
    (hpos : isPositive (ofText text) = true) :
    ∃ k : Nat, 0 < k ∧ ofText text = binary64 ((k : ℚ) / 10 ^ 7)
      ∧ parseFloat text = binary64 ((k : ℚ) / 10 ^ 7) := by
  obtain ⟨k, htext, hparse⟩ := amount_value h
  refine ⟨k, ?_, htext, hparse⟩
  by_contra hzero
  obtain rfl : k = 0 := by omega
  rw [htext, Nat.cast_zero, zero_div, binary64, if_pos rfl] at hpos
  cases hpos

/-- **THE AMOUNT**: the contract counts the stroops the monitor compared in
    seven decimals, if it counts them at all. -/
theorem paysAmount_iff {row : InvoiceRow} (hhandled : Handled ledger publicKey record)
    (hmatches : Matches ledger record row) (hdecimal : IsDecimal row.amount)
    (env : Environment) (network : String) :
    PaysAmount env (invoiceTerms network (mapRowToInvoice row)) record.operation
      ↔ ∃ n, record.operation.amount.bind Stroops.stroopsOf = some n := by
  constructor
  · rintro ⟨_, a, -, ha, -⟩
    exact ⟨a, ha⟩
  rintro ⟨n, hn⟩
  obtain ⟨-, text, hamount, hpattern, hpositive⟩ := isUsablePaymentRecord_spec hhandled.usable
  have hop : record.operation.amount = some text := hamount
  obtain ⟨j, hj, htext, hparse⟩ := amount_positive hpattern hpositive
  obtain ⟨k, hk, hcolumn⟩ := hdecimal
  obtain ⟨d, hd⟩ := exists_binary64_column hk
  have hparsed : parseDecimal row.amount = d := by rw [hcolumn, parseDecimal, hd]
  have hfixed := hmatches.amount
  rw [hparsed, hop, getD_some, hparse] at hfixed
  obtain ⟨-, hsame⟩ := eq_of_toFixed hk hj hd hfixed
  have hpos : 0 < d := by
    rw [htext, hsame] at hpositive
    exact of_decide_eq_true hpositive
  rw [hop, bind_some] at hn
  have hcounted := stroopsOf_toText hj hsame hpos (htext.trans hsame) hn
  refine ⟨n, n, ?_, ?_, ?_⟩
  · show Stroops.stroopsOf (toText (.finite (parseDecimal row.amount))) = some n
    rw [hparsed]
    exact hcounted
  · rw [hop, bind_some]
    exact hn
  rw [sub_self, abs_zero]
  split
  · exact zero_le_one
  · rfl

theorem settles_contract_iff {row : InvoiceRow} (hhandled : Handled ledger publicKey record)
    (hmatches : Matches ledger record row)
    (hplain : (ledger.transaction record.transactionHash).envelopeType ≠ some "fee_bump")
    (env : Environment) (network : String) :
    Settles env (contractInput ledger network record (mapRowToInvoice row))
      ↔ ∃ op ∈ ledger.operations record.transactionHash,
        Pays env (invoiceTerms network (mapRowToInvoice row)) op := by
  refine ⟨fun h => h.operation, fun hop => ⟨?_, ?_, ?_, hop⟩⟩
  · have hhash := (isUsablePaymentRecord_spec hhandled.usable).1
    by_contra hnot
    have herror := checkTxHash_error env
      (contractInput ledger network record (mapRowToInvoice row)) hnot
    rw [show (paymentRecord ledger record).txHash
      = (contractInput ledger network record (mapRowToInvoice row)).txHash
      from rfl, herror] at hhash
    cases hhash
  · intro a b ha hb
    exact some.inj (ha.symm.trans hb)
  have hmemo := JsText.eq_of_nonEmpty hmatches.memo
  show (transactionForVerification
    (ledger.transaction record.transactionHash)).memo.getD "" = row.memo
  rw [transactionForVerification, if_neg hplain, hmemo, getD_some]

end Checks

/-- **THE CONTRACT**: in every run, the contract accepts the payment that
    settled an invoice exactly if its operation goes to the seller, in the
    invoice's asset and in a safe number of stroops, or another operation of
    its transaction pays the invoice. -/
theorem settled_verifies_iff (env : Environment) (ledger : Ledger)
    (publicKey network : String) (db : InvoiceDb)
    (transactions : List TransactionRow) (events : List Event)
    {record : HorizonPayment} {id : String} {row : InvoiceRow}
    (hsettled : (record, id) ∈ (run ledger publicKey
      { db := db, transactions := transactions } events).settled)
    (hrow : (run ledger publicKey
      { db := db, transactions := transactions } events).db.invoices.find id
      = some row)
    (hdecimal : IsDecimal row.amount)
    (hown : record.operation ∈ ledger.operations record.transactionHash)
    (hplain : (ledger.transaction record.transactionHash).envelopeType ≠ some "fee_bump") :
    (∃ value, verifyHorizonPayment env (contractInput ledger network record (mapRowToInvoice row))
      = .ok value) ↔
    IsGenuine env (invoiceTerms network (mapRowToInvoice row)) record.operation ∨
      ∃ op ∈ ledger.operations record.transactionHash, op ≠ record.operation
        ∧ Pays env (invoiceTerms network (mapRowToInvoice row)) op := by
  obtain ⟨hhandled, row', hrow', hmatches⟩ :=
    (sound_run ledger publicKey db transactions events).settled _ hsettled
  obtain rfl := some.inj (hrow'.symm.trans hrow)
  obtain ⟨how, hdelivered⟩ := hhandled.delivered
  have hamount := paysAmount_iff hhandled hmatches hdecimal env network
  rw [verify_ok_iff, settles_contract_iff hhandled hmatches hplain env network]
  constructor
  · rintro ⟨op, hop, hpays⟩
    by_cases heq : op = record.operation
    · rw [heq] at hpays
      exact .inl ⟨hpays.destination, hpays.asset, hamount.mp hpays.amount⟩
    · exact .inr ⟨op, hop, heq, hpays⟩
  rintro (hgenuine | ⟨op, hop, -, hpays⟩)
  · exact ⟨record.operation, hown, isDelivered_payment hdelivered,
      hgenuine.destination, hamount.mpr hgenuine.safe, hgenuine.asset⟩
  · exact ⟨op, hop, hpays⟩

/-! ## A look-alike -/

/-- A payment, delivered by the stream and handled. -/
def sampleEvents (operation : HorizonOperationLike) : List Event :=
  .deliver .streamPayments (samplePayment operation 'a') :: statements [0, 0, 0, 0, 0]

/-- Five of a credit asset coded `XLM`. -/
def lookAlike : HorizonOperationLike :=
  { lumens with
    assetType := some "credit_alphanum4"
    assetCode := some "XLM"
    assetIssuer := some "P" }

/-- Five lumens settle the invoice, and the contract agrees. -/
theorem settled_verifies_sample : ∃ row,
    (run (sampleLedger lumens) "G" { db := sampleDb, transactions := [] }
      (sampleEvents lumens)).db.invoices.find "a" = some row
    ∧ ∃ value, verifyHorizonPayment sampleEnvironment (contractInput (sampleLedger lumens) "TESTNET"
        (samplePayment lumens 'a') (mapRowToInvoice row)) = .ok value := by
  have hterms : ((run (sampleLedger lumens) "G"
      { db := sampleDb, transactions := [] }
      (sampleEvents lumens)).db.invoices.find "a").map
      (fun row => (row.amount, row.sellerPublicKey, row.assetCode,
        row.assetIssuer)) = some (5, "G", "XLM", none) := by decide +kernel
  obtain ⟨row, hrow, heq⟩ := map_eq_some_iff.mp hterms
  obtain ⟨hamount, hseller, hcode, hissuer⟩ : row.amount = 5
      ∧ row.sellerPublicKey = "G" ∧ row.assetCode = "XLM"
      ∧ row.assetIssuer = none := by simpa using heq
  refine ⟨row, hrow, (settled_verifies_iff sampleEnvironment
    (sampleLedger lumens) "G" "TESTNET" sampleDb [] (sampleEvents lumens)
    (by decide +kernel) hrow ⟨50000000, by norm_num, by norm_num [hamount]⟩
    (.head _) (by decide)).mpr (.inl ⟨?_, ?_, ?_⟩)⟩
  · refine .direct "G" rfl (.inr nofun) ?_
    show JsText.trim "G" = JsText.trim row.sellerPublicKey
    rw [hseller]
  · refine .inl ⟨?_, ?_, rfl⟩
    · show Assets.trimmed (some row.assetCode) = "XLM"
      rw [hcode]
      decide
    show Assets.trimmed row.assetIssuer = ""
    rw [hissuer]
    decide
  · exact ⟨50000000, by decide +kernel⟩

/-- A look-alike of the native asset settles an invoice in lumens, and the
    contract refuses it. -/
theorem look_alike_settles : (samplePayment lookAlike 'a', "a") ∈ (run (sampleLedger lookAlike) "G"
      (State.init sampleDb) (sampleEvents lookAlike)).settled
    ∧ PaidBy (run (sampleLedger lookAlike) "G" (State.init sampleDb)
      (sampleEvents lookAlike)).db "a"
      (samplePayment lookAlike 'a').transactionHash
    ∧ ((run (sampleLedger lookAlike) "G" (State.init sampleDb)
      (sampleEvents lookAlike)).db.invoices.find "a").map
      (fun row => outcome (verifyHorizonPayment sampleEnvironment
        (contractInput (sampleLedger lookAlike) "TESTNET"
          (samplePayment lookAlike 'a') (mapRowToInvoice row))))
      = some (some .assetMismatch) := by
  decide +kernel

end PaymentMonitor

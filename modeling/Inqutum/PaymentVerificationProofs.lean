import Inqutum.StroopAmountProofs
import Inqutum.AssetIdentityProofs
import Mathlib.Data.List.Perm.Basic

/-!
# Verifying a payment on the ledger

`verifyHorizonPayment` decides whether a transaction pays an invoice.  It
looks at the plain payments of the transaction three times: for one to the
right destination, for one that also has the right amount, and for one that
also is in the right asset.  Each search starts over, so the last one asks
all three of a single operation.

The checks form seven stages in a fixed order.  `verify_correct` says that
the verdict is `ok` exactly when all hold, that a refusal names the first
that fails, and that neither depends on the order of the operations or on
operations that are no plain payments.
-/

namespace Verification

open List JsText Assets Stroops

inductive VerificationCode where
  | missingTxHash
  | invalidTxHash
  | invalidPayerName
  | invalidPayerEmail
  | payerInfoTooLong
  | invoiceAlreadyPaid
  | invoiceExpired
  | invoiceNotPending
  | transactionNotFound
  | noPaymentOperation
  | memoMismatch
  | destinationMismatch
  | amountMismatch
  | assetMismatch
  | networkMismatch
  deriving DecidableEq

/-- `VERIFICATION_MESSAGES`. -/
def VerificationCode.message : VerificationCode → String
  | .missingTxHash => "Transaction hash is required"
  | .invalidTxHash => "Transaction hash must be 64 hexadecimal characters"
  | .invalidPayerName => "Payer name must be text"
  | .invalidPayerEmail => "Payer email is invalid"
  | .payerInfoTooLong => "Payer information is too long"
  | .invoiceAlreadyPaid => "Invoice has already been paid"
  | .invoiceExpired => "Invoice has expired and can no longer accept payment"
  | .invoiceNotPending => "Invoice is not pending"
  | .transactionNotFound => "Transaction not found on Stellar"
  | .noPaymentOperation => "No payment operation found in transaction"
  | .memoMismatch => "Memo mismatch"
  | .destinationMismatch => "Payment destination mismatch"
  | .amountMismatch => "Amount mismatch"
  | .assetMismatch => "Asset mismatch"
  | .networkMismatch => "Transaction is on a different Stellar network"

structure VerificationFailure where
  code : VerificationCode
  error : String

def failure (code : VerificationCode) : VerificationFailure :=
  ⟨code, code.message⟩

/-! ## What is compared -/

/-- What the invoice says the payment must look like. -/
structure ExpectedPayment where
  memo : String
  amount : JsScalar
  destination : String
  assetCode : String
  assetIssuer : Option String := none
  network : Option String := none

/-- A transaction as Horizon reports it; a fee bump wraps another one. -/
structure HorizonTransactionLike where
  memo : Option String := none
  envelopeType : Option String := none
  innerTransaction : Option HorizonTransactionLike := none

/-- An operation as Horizon reports it; `fromAddress` and
    `toAddress` are its `from` and `to`. -/
structure HorizonOperationLike where
  type : String
  fromAddress : Option String := none
  toAddress : Option String := none
  amount : Option String := none
  assetType : Option String := none
  assetCode : Option String := none
  assetIssuer : Option String := none
  toMuxedId : Option JsScalar := none
  deriving DecidableEq

structure VerifiedPayment where
  txHash : String
  fromAddress : String
  toAddress : String
  amount : String
  assetCode : String
  assetIssuer : Option String
  memo : String

structure VerifyPaymentInput where
  txHash : String
  expected : ExpectedPayment
  transaction : HorizonTransactionLike
  operations : List HorizonOperationLike
  network : Option String := none

/-- What the check takes from outside. -/
structure Environment where
  /-- The address of `new MuxedAccount(new Account(account, '0'), id)`, nothing
      if the constructors throw. -/
  muxedAccountId : String → String → Option String
  /-- `isFeatureEnabled('paymentAmountTolerance')`. -/
  paymentAmountTolerance : Bool := false

/-! ## The checks -/

def isHexDigit (c : Char) : Bool :=
  c.isDigit || decide ('a' ≤ c ∧ c ≤ 'f') || decide ('A' ≤ c ∧ c ≤ 'F')

/-- `TX_HASH_PATTERN` on the trimmed text. -/
def isValidTxHash (txHash : String) : Bool :=
  let cs := (trim txHash).toList
  decide (cs.length = 64) && cs.all isHexDigit

def checkTxHash (txHash : String) : Except VerificationFailure String :=
  if trim txHash = "" then .error (failure .missingTxHash)
  else
    let normalized := trim txHash
    if isValidTxHash normalized then .ok normalized
    else .error (failure .invalidTxHash)

def normalizeMemo (memo : Option String) : String := memo.getD ""

def assetCodeOf (operation : HorizonOperationLike) : String :=
  if operation.assetType = some "native" then "XLM"
  else operation.assetCode.getD ""

/-- An `M` address carries its own sub-account; a `G` address with an id is
    turned into one. -/
def normalizeDestination (env : Environment) (destination : Option String)
    (muxedId : Option JsScalar) : String :=
  match destination with
  | none => ""
  | some text =>
    let normalized := trim text
    if startsWith normalized 'M' then normalized
    else
      match muxedId with
      | none => normalized
      | some id =>
        let suffix := trim id.toText
        if suffix = "" then normalized
        else if startsWith normalized 'G' then
          (env.muxedAccountId normalized id.toText).getD (normalized ++ ":" ++ suffix)
        else normalized ++ ":" ++ suffix

def transactionForVerification (transaction : HorizonTransactionLike) :
    HorizonTransactionLike :=
  if transaction.envelopeType = some "fee_bump" then
    transaction.innerTransaction.getD transaction
  else transaction

/-- `amountsMatch`: exact, or within one stroop if the flag is on. -/
def amountsMatch (env : Environment) (actual : Option String) (expected : JsScalar) : Bool :=
  Stroops.amountsMatch expected (actual.map JsScalar.text)
    (.ofNat (if env.paymentAmountTolerance then 1 else 0))

section Searches

variable (env : Environment) (expected : ExpectedPayment) (operation : HorizonOperationLike)

def destinationMatches : Bool :=
  decide (normalizeDestination env operation.toAddress operation.toMuxedId
    = normalizeDestination env (some expected.destination) none)

def paidAsset : AssetIdentity :=
  resolvePaymentAsset operation.assetType operation.assetCode operation.assetIssuer

def invoiceAsset : AssetIdentity :=
  resolveInvoiceAsset (some expected.assetCode) expected.assetIssuer

def amountMatches : Bool :=
  destinationMatches env expected operation && amountsMatch env operation.amount expected.amount

def assetMatches : Bool :=
  destinationMatches env expected operation && amountsMatch env operation.amount expected.amount
    && assetsMatch (invoiceAsset expected) (paidAsset operation)

end Searches

/-- The networks are both known and different. -/
def networksDiffer (expected observed : Option String) : Bool :=
  match nonEmpty expected, nonEmpty observed with
  | some a, some b => decide (a ≠ b)
  | _, _ => false

/-- The verdict for a matching operation. -/
def verifiedPayment (txHash memo : String)
    (operation : HorizonOperationLike) : VerifiedPayment where
  txHash := txHash
  fromAddress := operation.fromAddress.getD ""
  toAddress := operation.toAddress.getD ""
  amount := operation.amount.getD ""
  assetCode := assetCodeOf operation
  assetIssuer := if operation.assetType = some "native" then none
    else operation.assetIssuer
  memo := memo

/-- The three searches; each goes through all plain payments again. -/
def matchingPayment (env : Environment) (expected : ExpectedPayment)
    (paymentOps : List HorizonOperationLike) :
    Except VerificationFailure HorizonOperationLike :=
  match paymentOps.find? (destinationMatches env expected) with
  | none => .error (failure .destinationMismatch)
  | some _ =>
    match paymentOps.find? (amountMatches env expected) with
    | none => .error (failure .amountMismatch)
    | some _ =>
      match paymentOps.find? (assetMatches env expected) with
      | none => .error (failure .assetMismatch)
      | some paymentOp =>
        if assetsMatch (invoiceAsset expected) (paidAsset paymentOp) then .ok paymentOp
        else .error (failure .assetMismatch)

def verifyHorizonPayment (env : Environment) (input : VerifyPaymentInput) :
    Except VerificationFailure VerifiedPayment :=
  match checkTxHash input.txHash with
  | .error e => .error e
  | .ok txHash =>
    let expected := input.expected
    let transaction := transactionForVerification input.transaction
    if networksDiffer expected.network input.network then
      .error (failure .networkMismatch)
    else
      let paymentOps := input.operations.filter (fun operation => operation.type == "payment")
      if paymentOps.length = 0 then .error (failure .noPaymentOperation)
      else if normalizeMemo transaction.memo ≠ normalizeMemo (some expected.memo) then
        .error (failure .memoMismatch)
      else (matchingPayment env expected paymentOps).map
        (verifiedPayment txHash (normalizeMemo transaction.memo))

/-! ## The seven stages -/

/-- 64 hexadecimal digits. -/
def IsTxHash (text : String) : Prop :=
  text.toList.length = 64 ∧ ∀ c ∈ text.toList, isHexDigit c = true

section Spec

variable (env : Environment) (expected : ExpectedPayment) (op : HorizonOperationLike)

/-- The operation goes to the invoice's address: it names it, or a `G` account
    and an id whose muxed address it is. -/
inductive GoesTo : Prop
  | absent (hto : op.toAddress = none) (hblank : trim expected.destination = "")
  /-- An `M` address, or any address without an id. -/
  | direct (text : String) (hto : op.toAddress = some text)
      (hplain : startsWith (trim text) 'M' = true ∨ ∀ id ∈ op.toMuxedId, trim id.toText = "")
      (hsame : trim text = trim expected.destination)
  | muxed (text : String) (id : JsScalar) (hto : op.toAddress = some text)
      (hid : op.toMuxedId = some id) (hgiven : trim id.toText ≠ "")
      (haccount : startsWith (trim text) 'G' = true)
      (hmuxed : env.muxedAccountId (trim text) id.toText = some (trim expected.destination))
  /-- Malformed data, which no Stellar address equals. -/
  | other (text : String) (id : JsScalar) (hto : op.toAddress = some text)
      (hid : op.toMuxedId = some id) (hgiven : trim id.toText ≠ "")
      (hnoM : startsWith (trim text) 'M' = false)
      (hnone : startsWith (trim text) 'G' = true →
        env.muxedAccountId (trim text) id.toText = none)
      (hsame : trim text ++ ":" ++ trim id.toText = trim expected.destination)

/-- The encoding of muxed addresses is injective: an address, which starts with
    `M` and has no colon, tells its account and the number that its id is. -/
structure MuxedEncoding (number : String → Nat) : Prop where
  injective : ∀ account id account' id' address, env.muxedAccountId account id = some address →
    env.muxedAccountId account' id' = some address → account = account' ∧ number id = number id'
  startsM : ∀ account id address, env.muxedAccountId account id = some address →
    startsWith address 'M' = true
  noColon : ∀ account id address, env.muxedAccountId account id = some address →
    ':' ∉ address.toList

/-- The operation moves the invoice's amount: as many stroops, or one more or
    less if the flag is on. -/
def PaysAmount : Prop :=
  ∃ e a, stroopsOf expected.amount.toText = some e
    ∧ op.amount.bind stroopsOf = some a
    ∧ if env.paymentAmountTolerance = true then |e - a| ≤ 1 else e = a

/-- The operation is in the invoice's asset: the native one if the invoice
    names `XLM` and no issuer, otherwise the one with its code and issuer. -/
def PaysAsset : Prop :=
  (trimmed (some expected.assetCode) = "XLM" ∧ trimmed expected.assetIssuer = ""
    ∧ op.assetType = some "native") ∨
  (op.assetType ≠ some "native" ∧ trimmed expected.assetIssuer ≠ ""
    ∧ trimmed (some expected.assetCode) = trimmed op.assetCode
    ∧ trimmed expected.assetIssuer = trimmed op.assetIssuer)

/-- A plain payment to the address, of the amount, in the asset. -/
structure Pays : Prop where
  payment : op.type = "payment"
  destination : GoesTo env expected op
  amount : PaysAmount env expected op
  asset : PaysAsset expected op

end Spec

/-- The stages, in the order in which they are checked. -/
inductive Stage where
  | hash
  | network
  | paymentOp
  | memo
  | destination
  | amount
  | asset

def Stage.index : Stage → Nat
  | .hash => 0
  | .network => 1
  | .paymentOp => 2
  | .memo => 3
  | .destination => 4
  | .amount => 5
  | .asset => 6

/-- The memo that counts: the inner transaction's for a fee bump that has
    one. -/
def memoOf (transaction : HorizonTransactionLike) : String :=
  (transactionForVerification transaction).memo.getD ""

/-- A stage holds. -/
def Passes (env : Environment) (input : VerifyPaymentInput) : Stage → Prop
  | .hash => IsTxHash (trim input.txHash)
  | .network => ∀ a b, nonEmpty input.expected.network = some a →
      nonEmpty input.network = some b → a = b
  | .paymentOp => ∃ op ∈ input.operations, op.type = "payment"
  | .memo => memoOf input.transaction = input.expected.memo
  | .destination => ∃ op ∈ input.operations, op.type = "payment" ∧ GoesTo env input.expected op
  | .amount => ∃ op ∈ input.operations, op.type = "payment"
      ∧ GoesTo env input.expected op ∧ PaysAmount env input.expected op
  | .asset => ∃ op ∈ input.operations, Pays env input.expected op

/-- The code of a stage; a blank hash has its own. -/
def Stage.code (input : VerifyPaymentInput) : Stage → VerificationCode
  | .hash => if trim input.txHash = "" then .missingTxHash
      else .invalidTxHash
  | .network => .networkMismatch
  | .paymentOp => .noPaymentOperation
  | .memo => .memoMismatch
  | .destination => .destinationMismatch
  | .amount => .amountMismatch
  | .asset => .assetMismatch

/-- The first stage that does not hold. -/
structure FirstFails (env : Environment) (input : VerifyPaymentInput) (stage : Stage) : Prop where
  fails : ¬ Passes env input stage
  before : ∀ earlier, earlier.index < stage.index → Passes env input earlier

/-- What a payment must satisfy. -/
structure Settles (env : Environment) (input : VerifyPaymentInput) : Prop where
  hash : IsTxHash (trim input.txHash)
  networks : ∀ a b, nonEmpty input.expected.network = some a →
    nonEmpty input.network = some b → a = b
  memo : memoOf input.transaction = input.expected.memo
  operation : ∃ op ∈ input.operations, Pays env input.expected op

theorem settles_iff (env : Environment) (input : VerifyPaymentInput) :
    Settles env input ↔ ∀ stage, Passes env input stage := by
  constructor
  · rintro ⟨hhash, hnetwork, hmemo, op, hop, hpays⟩ stage
    cases stage with
    | hash => exact hhash
    | network => exact hnetwork
    | paymentOp => exact ⟨op, hop, hpays.payment⟩
    | memo => exact hmemo
    | destination => exact ⟨op, hop, hpays.payment, hpays.destination⟩
    | amount => exact ⟨op, hop, hpays.payment, hpays.destination, hpays.amount⟩
    | asset => exact ⟨op, hop, hpays⟩
  · intro h
    exact ⟨h .hash, h .network, h .memo, h .asset⟩

theorem exists_firstFails (env : Environment) (input : VerifyPaymentInput)
    (h : ¬ ∀ stage, Passes env input stage) : ∃ stage, FirstFails env input stage := by
  have hexists : ∃ n, ∃ stage : Stage, stage.index = n ∧ ¬ Passes env input stage := by
    obtain ⟨stage, hfails⟩ := not_forall.mp h
    exact ⟨stage.index, stage, rfl, hfails⟩
  classical
  obtain ⟨stage, hindex, hfails⟩ := Nat.find_spec hexists
  refine ⟨stage, hfails, ?_⟩
  intro earlier hlt
  by_contra hnot
  exact Nat.find_min hexists (hindex ▸ hlt) ⟨earlier, rfl, hnot⟩

/-! ## The checks decide the stages -/

section Checks

variable (env : Environment) (input : VerifyPaymentInput)

theorem isValidTxHash_trim (txHash : String) : isValidTxHash (trim txHash) = true
      ↔ IsTxHash (trim txHash) := by
  rw [isValidTxHash, trim_trim, Bool.and_eq_true, decide_eq_true_eq, all_eq_true]
  rfl

theorem checkTxHash_ok (h : Passes env input .hash) :
    checkTxHash input.txHash = .ok (trim input.txHash) := by
  have hne : ¬ trim input.txHash = "" := by
    intro hblank
    have hlen := h.1
    rw [hblank] at hlen
    cases hlen
  rw [checkTxHash, if_neg hne]
  exact if_pos ((isValidTxHash_trim input.txHash).mpr h)

theorem checkTxHash_error (h : ¬ Passes env input .hash) :
    checkTxHash input.txHash = .error (failure (Stage.hash.code input)) := by
  rw [checkTxHash, Stage.code]
  by_cases hblank : trim input.txHash = ""
  · rw [if_pos hblank, if_pos hblank]
  rw [if_neg hblank, if_neg hblank]
  exact if_neg (fun hv => h ((isValidTxHash_trim input.txHash).mp hv))

theorem networksDiffer_iff : networksDiffer input.expected.network input.network = true
      ↔ ¬ Passes env input .network := by
  rw [networksDiffer]
  show _ ↔ ¬ ∀ a b, nonEmpty input.expected.network = some a →
    nonEmpty input.network = some b → a = b
  cases nonEmpty input.expected.network with
  | none => simp
  | some a =>
    cases nonEmpty input.network with
    | none => simp
    | some b => simp

theorem find?_eq_none_iff (test : HorizonOperationLike → Bool) :
    (input.operations.filter (fun op => op.type == "payment")).find? test = none
      ↔ ¬ ∃ op ∈ input.operations, op.type = "payment" ∧ test op = true := by
  rw [find?_eq_none]
  simp only [mem_filter, beq_iff_eq, not_exists, not_and, and_imp]

theorem filter_length_iff : (input.operations.filter (fun op => op.type == "payment")).length = 0
      ↔ ¬ Passes env input .paymentOp := by
  show _ ↔ ¬ ∃ op ∈ input.operations, op.type = "payment"
  rw [length_eq_zero_iff, filter_eq_nil_iff]
  simp only [beq_iff_eq, not_exists, not_and]

variable (expected : ExpectedPayment) (op : HorizonOperationLike)

theorem amountsMatch_iff : amountsMatch env op.amount expected.amount = true
      ↔ PaysAmount env expected op := by
  have hblank : stroopsOf "" = none := if_neg (fun h => h.1 rfl)
  have hread : stroopsOf (((op.amount.map JsScalar.text).map JsScalar.toText).getD "")
      = op.amount.bind stroopsOf := by
    cases op.amount with
    | none => exact hblank
    | some text => rfl
  rw [amountsMatch, PaysAmount]
  cases env.paymentAmountTolerance with
  | true =>
    rw [if_pos rfl, Stroops.amountsMatch_iff _ _ (by norm_num), hread]
    simp
  | false =>
    rw [if_neg Bool.false_ne_true, Stroops.amountsMatch_iff _ _ (by norm_num), hread]
    simp only [Nat.cast_zero, abs_nonpos_iff, sub_eq_zero, Bool.false_eq_true, if_false]

/-- The invoice's own address is only trimmed. -/
theorem normalizeDestination_plain (text : String) :
    normalizeDestination env (some text) none = trim text := by
  show (if _ then trim text else trim text) = trim text
  exact ite_self _

theorem noM_of_account {text : String} (h : startsWith text 'G' = true) :
    startsWith text 'M' = false := by
  rw [startsWith, decide_eq_true_eq] at h
  rw [startsWith, h]
  rfl

theorem destinationMatches_iff :
    destinationMatches env expected op = true ↔ GoesTo env expected op := by
  rw [destinationMatches, decide_eq_true_iff, normalizeDestination_plain]
  constructor
  · intro h
    cases hto : op.toAddress with
    | none =>
      rw [hto] at h
      exact .absent hto h.symm
    | some text =>
      rw [hto, normalizeDestination.eq_def] at h
      dsimp only at h
      by_cases hM : startsWith (trim text) 'M' = true
      · rw [if_pos hM] at h
        exact .direct text hto (.inl hM) h
      rw [if_neg hM] at h
      cases hid : op.toMuxedId with
      | none =>
        rw [hid] at h
        refine .direct text hto (.inr ?_) h
        intro id heq
        cases hid.symm.trans heq
      | some id =>
        rw [hid] at h
        dsimp only at h
        by_cases hblank : trim id.toText = ""
        · rw [if_pos hblank] at h
          refine .direct text hto (.inr ?_) h
          intro id' heq
          cases hid.symm.trans heq
          exact hblank
        rw [if_neg hblank] at h
        by_cases hG : startsWith (trim text) 'G' = true
        · rw [if_pos hG] at h
          cases hmuxed : env.muxedAccountId (trim text) id.toText with
          | none =>
            rw [hmuxed] at h
            exact .other text id hto hid hblank (Bool.eq_false_of_not_eq_true hM)
              (fun _ => hmuxed) h
          | some address =>
            rw [hmuxed] at h
            exact .muxed text id hto hid hblank hG (hmuxed.trans (congrArg some h))
        rw [if_neg hG] at h
        exact .other text id hto hid hblank (Bool.eq_false_of_not_eq_true hM)
          (fun hyes => absurd hyes hG) h
  · rintro (⟨hto, hblank⟩ | ⟨text, hto, hplain, hsame⟩ | ⟨text, id, hto, hid, hgiven, hG, hmuxed⟩
      | ⟨text, id, hto, hid, hgiven, hM, hnone, hsame⟩)
    · rw [hto, hblank]
      rfl
    · rw [hto, normalizeDestination.eq_def, ← hsame]
      dsimp only
      rcases hplain with hM | hblank
      · exact if_pos hM
      cases hid : op.toMuxedId with
      | none => exact ite_self _
      | some id =>
        dsimp only
        rw [if_pos (hblank id hid)]
        exact ite_self _
    · rw [hto, hid, normalizeDestination]
      dsimp only
      rw [if_neg (Bool.eq_false_iff.mp (noM_of_account hG)), if_neg hgiven, if_pos hG, hmuxed]
      rfl
    · rw [hto, hid, normalizeDestination, ← hsame]
      dsimp only
      rw [if_neg (Bool.eq_false_iff.mp hM), if_neg hgiven]
      split
      · rename_i hG
        rw [hnone hG]
        rfl
      · rfl

/-- **A MUXED DESTINATION** is reached under its own address or by its account
    with its id, and by no other account or id. -/
theorem goesTo_muxed {number : String → Nat} (hencoding : MuxedEncoding env number)
    {account id : String}
    (hdest : env.muxedAccountId account id = some (trim expected.destination))
    (h : GoesTo env expected op) :
    op.toAddress.map trim = some (trim expected.destination)
      ∨ ∃ given, op.toAddress.map trim = some account ∧ op.toMuxedId = some given
        ∧ number given.toText = number id := by
  rcases h with ⟨-, hblank⟩ | ⟨text, hto, -, hsame⟩ | ⟨text, given, hto, hid, -, -, hmuxed⟩
    | ⟨text, given, -, -, -, -, -, hsame⟩
  · have hM := hencoding.startsM _ _ _ hdest
    rw [hblank] at hM
    cases hM
  · exact .inl (by rw [hto, Option.map_some, hsame])
  · obtain ⟨haccount, hnumber⟩ := hencoding.injective _ _ _ _ _ hmuxed hdest
    exact .inr ⟨given, by rw [hto, Option.map_some, haccount], hid, hnumber⟩
  · have hno := hencoding.noColon _ _ _ hdest
    rw [← hsame] at hno
    simp at hno

theorem amountMatches_iff : amountMatches env expected op = true
      ↔ GoesTo env expected op ∧ PaysAmount env expected op := by
  rw [amountMatches, Bool.and_eq_true, destinationMatches_iff, amountsMatch_iff]

theorem assetMatches_iff : assetMatches env expected op = true
      ↔ GoesTo env expected op ∧ PaysAmount env expected op ∧ PaysAsset expected op := by
  rw [assetMatches, Bool.and_eq_true, Bool.and_eq_true,
    destinationMatches_iff, amountsMatch_iff, invoiceAsset, paidAsset,
    assetsMatch_iff, and_assoc]
  rfl

theorem pays_iff : Pays env expected op ↔ op.type = "payment"
      ∧ assetMatches env expected op = true := by
  rw [assetMatches_iff]
  constructor
  · rintro ⟨hpayment, hrest⟩
    exact ⟨hpayment, hrest, by assumption, by assumption⟩
  rintro ⟨hpayment, hdest, hamount, hasset⟩
  exact ⟨hpayment, hdest, hamount, hasset⟩

end Checks

/-! ## The verdict -/

section Verdict

variable {env : Environment} {input : VerifyPaymentInput}

/-- The plain payments of the transaction. -/
def paymentOps (input : VerifyPaymentInput) : List HorizonOperationLike :=
  input.operations.filter (fun operation => operation.type == "payment")

theorem networks_agree (h : Passes env input .network) :
    ¬ networksDiffer input.expected.network input.network = true :=
  fun hdiffer => (networksDiffer_iff env input).mp hdiffer h

theorem has_payment (h : Passes env input .paymentOp) : ¬ (paymentOps input).length = 0 :=
  fun hzero => (filter_length_iff env input).mp hzero h

/-- Past the first four stages the verdict is that of the searches. -/
theorem verify_of_searches (hhash : Passes env input .hash) (hnetwork : Passes env input .network)
    (hpayment : Passes env input .paymentOp) (hmemo : Passes env input .memo) :
    verifyHorizonPayment env input = (matchingPayment env input.expected (paymentOps input)).map
        (verifiedPayment (trim input.txHash) input.expected.memo) := by
  have hsame : normalizeMemo (transactionForVerification input.transaction).memo
      = input.expected.memo := hmemo
  have hequal : ¬ normalizeMemo (transactionForVerification input.transaction).memo
      ≠ normalizeMemo (some input.expected.memo) := fun h => h hsame
  rw [verifyHorizonPayment, checkTxHash_ok env input hhash]
  dsimp only
  rw [if_neg (networks_agree hnetwork)]
  refine (if_neg (has_payment hpayment)).trans ((if_neg hequal).trans ?_)
  rw [hsame]
  rfl

theorem matchingPayment_destination (h : ¬ Passes env input .destination) :
    matchingPayment env input.expected (paymentOps input)
      = .error (failure .destinationMismatch) := by
  have hnone : (paymentOps input).find? (destinationMatches env input.expected) = none := by
    refine (find?_eq_none_iff input _).mpr ?_
    rintro ⟨op, hop, hpayment, hdest⟩
    exact h ⟨op, hop, hpayment, (destinationMatches_iff _ _ _).mp hdest⟩
  rw [matchingPayment, hnone]

/-- A stage that holds is seen by its search. -/
theorem find?_of_passes {test : HorizonOperationLike → Bool}
    (h : ∃ op ∈ input.operations, op.type = "payment" ∧ test op = true) :
    ∃ op, (paymentOps input).find? test = some op := by
  cases hfind : (paymentOps input).find? test with
  | none => exact absurd h ((find?_eq_none_iff input test).mp hfind)
  | some op => exact ⟨op, rfl⟩

theorem destination_seen (h : Passes env input .destination) :
    ∃ op, (paymentOps input).find? (destinationMatches env input.expected) = some op := by
  obtain ⟨op, hop, hpayment, hdest⟩ := h
  exact find?_of_passes ⟨op, hop, hpayment, (destinationMatches_iff _ _ _).mpr hdest⟩

theorem amount_seen (h : Passes env input .amount) :
    ∃ op, (paymentOps input).find? (amountMatches env input.expected) = some op := by
  obtain ⟨op, hop, hpayment, hboth⟩ := h
  exact find?_of_passes ⟨op, hop, hpayment, (amountMatches_iff _ _ _).mpr hboth⟩

theorem matchingPayment_amount (hdest : Passes env input .destination)
    (h : ¬ Passes env input .amount) :
    matchingPayment env input.expected (paymentOps input) = .error (failure .amountMismatch) := by
  obtain ⟨_, hfound⟩ := destination_seen hdest
  have hnone : (paymentOps input).find? (amountMatches env input.expected) = none := by
    refine (find?_eq_none_iff input _).mpr ?_
    rintro ⟨op, hop, hpayment, hboth⟩
    exact h ⟨op, hop, hpayment, (amountMatches_iff _ _ _).mp hboth⟩
  rw [matchingPayment, hfound]
  dsimp only
  rw [hnone]

theorem matchingPayment_asset (hdest : Passes env input .destination)
    (hamount : Passes env input .amount) (h : ¬ Passes env input .asset) :
    matchingPayment env input.expected (paymentOps input) = .error (failure .assetMismatch) := by
  obtain ⟨_, hfound⟩ := destination_seen hdest
  obtain ⟨_, hfound'⟩ := amount_seen hamount
  have hnone : (paymentOps input).find? (assetMatches env input.expected) = none := by
    refine (find?_eq_none_iff input _).mpr ?_
    rintro ⟨op, hop, hpays⟩
    exact h ⟨op, hop, (pays_iff _ _ _).mpr hpays⟩
  rw [matchingPayment, hfound]
  dsimp only
  rw [hfound']
  dsimp only
  rw [hnone]

/-- The searches find a single operation that is right in every respect. -/
theorem matchingPayment_ok (h : ∀ stage, Passes env input stage) :
    ∃ op ∈ input.operations, Pays env input.expected op
      ∧ matchingPayment env input.expected (paymentOps input) = .ok op := by
  obtain ⟨_, hfound⟩ := destination_seen (h .destination)
  obtain ⟨_, hfound'⟩ := amount_seen (h .amount)
  obtain ⟨op₀, hop₀, hpays₀⟩ : ∃ op ∈ input.operations, Pays env input.expected op := h .asset
  obtain ⟨op, hop⟩ : ∃ op, (paymentOps input).find? (assetMatches env input.expected) = some op :=
    find?_of_passes ⟨op₀, hop₀, (pays_iff _ _ _).mp hpays₀⟩
  have hmem := mem_filter.mp (mem_of_find?_eq_some hop)
  have htest := find?_some hop
  refine ⟨op, hmem.1, (pays_iff _ _ _).mpr ⟨beq_iff_eq.mp hmem.2, htest⟩, ?_⟩
  have hasset : assetsMatch (invoiceAsset input.expected) (paidAsset op) = true := by
    rw [assetMatches, Bool.and_eq_true] at htest
    exact htest.2
  rw [matchingPayment, hfound]
  dsimp only
  rw [hfound']
  dsimp only
  rw [hop]
  exact if_pos hasset

/-- **REFUSAL**: the code is that of the first stage that fails. -/
theorem verify_of_firstFails {stage : Stage} (h : FirstFails env input stage) :
    verifyHorizonPayment env input = .error (failure (stage.code input)) := by
  have hpass := h.before
  have hfails := h.fails
  cases stage with
  | hash => rw [verifyHorizonPayment, checkTxHash_error env input hfails]
  | network =>
    rw [verifyHorizonPayment, checkTxHash_ok env input (hpass .hash (by decide))]
    exact if_pos ((networksDiffer_iff env input).mpr hfails)
  | paymentOp =>
    rw [verifyHorizonPayment, checkTxHash_ok env input (hpass .hash (by decide))]
    exact (if_neg (networks_agree (hpass .network (by decide)))).trans
      (if_pos ((filter_length_iff env input).mpr hfails))
  | memo =>
    rw [verifyHorizonPayment, checkTxHash_ok env input (hpass .hash (by decide))]
    exact (if_neg (networks_agree (hpass .network (by decide)))).trans
      ((if_neg (has_payment (hpass .paymentOp (by decide)))).trans (if_pos hfails))
  | destination =>
    rw [verify_of_searches (hpass .hash (by decide))
      (hpass .network (by decide)) (hpass .paymentOp (by decide))
      (hpass .memo (by decide)), matchingPayment_destination hfails]
    rfl
  | amount =>
    rw [verify_of_searches (hpass .hash (by decide))
      (hpass .network (by decide)) (hpass .paymentOp (by decide))
      (hpass .memo (by decide)),
      matchingPayment_amount (hpass .destination (by decide)) hfails]
    rfl
  | asset =>
    rw [verify_of_searches (hpass .hash (by decide))
      (hpass .network (by decide)) (hpass .paymentOp (by decide))
      (hpass .memo (by decide)),
      matchingPayment_asset (hpass .destination (by decide)) (hpass .amount (by decide)) hfails]
    rfl

/-- **ACCEPTANCE**: if every stage holds, the verdict is about one operation
    that pays the invoice. -/
theorem verify_of_passes (h : ∀ stage, Passes env input stage) :
    ∃ op ∈ input.operations, Pays env input.expected op ∧ verifyHorizonPayment env input
        = .ok (verifiedPayment (trim input.txHash) input.expected.memo op) := by
  obtain ⟨op, hop, hpays, hfound⟩ := matchingPayment_ok h
  refine ⟨op, hop, hpays, ?_⟩
  rw [verify_of_searches (h .hash) (h .network) (h .paymentOp) (h .memo), hfound]
  rfl

theorem passes_of_verify {value : VerifiedPayment}
    (hok : verifyHorizonPayment env input = .ok value) : ∀ stage, Passes env input stage := by
  by_contra hall
  obtain ⟨stage, hfirst⟩ := exists_firstFails env input hall
  rw [verify_of_firstFails hfirst] at hok
  cases hok

/-- What is left of a verdict without the payment: the code of a refusal. -/
def outcome : Except VerificationFailure VerifiedPayment → Option VerificationCode
  | .ok _ => none
  | .error e => some e.code

theorem outcome_congr {input' : VerifyPaymentInput} (hhash : input.txHash = input'.txHash)
    (h : ∀ stage, Passes env input stage ↔ Passes env input' stage) :
    outcome (verifyHorizonPayment env input) = outcome (verifyHorizonPayment env input') := by
  by_cases hall : ∀ stage, Passes env input stage
  · obtain ⟨_, -, -, hok⟩ := verify_of_passes hall
    obtain ⟨_, -, -, hok'⟩ := verify_of_passes (fun stage => (h stage).mp (hall stage))
    rw [hok, hok']
    rfl
  obtain ⟨stage, hfirst⟩ := exists_firstFails env input hall
  have hfirst' : FirstFails env input' stage :=
    ⟨fun hpass => hfirst.fails ((h stage).mpr hpass),
      fun earlier hlt => (h earlier).mp (hfirst.before earlier hlt)⟩
  have hcode : stage.code input = stage.code input' := by
    cases stage with
    | hash => rw [Stage.code, Stage.code, hhash]
    | _ => rfl
  rw [verify_of_firstFails hfirst, verify_of_firstFails hfirst', hcode]

theorem passes_operations {ops : List HorizonOperationLike}
    (h : ∀ op, op.type = "payment" → (op ∈ ops ↔ op ∈ input.operations)) (stage : Stage) :
    Passes env { input with operations := ops } stage ↔ Passes env input stage := by
  have hexists : ∀ P : HorizonOperationLike → Prop, (∀ op, P op → op.type = "payment") →
      ((∃ op ∈ ops, P op) ↔ ∃ op ∈ input.operations, P op) := by
    intro P hpayment
    constructor
    · rintro ⟨op, hop, hP⟩
      exact ⟨op, (h op (hpayment op hP)).mp hop, hP⟩
    rintro ⟨op, hop, hP⟩
    exact ⟨op, (h op (hpayment op hP)).mpr hop, hP⟩
  cases stage with
  | hash => exact Iff.rfl
  | network => exact Iff.rfl
  | memo => exact Iff.rfl
  | paymentOp => exact hexists _ (fun _ hP => hP)
  | destination => exact hexists _ (fun _ hP => hP.1)
  | amount => exact hexists _ (fun _ hP => hP.1)
  | asset => exact hexists _ (fun _ hP => hP.payment)

end Verdict

theorem verify_ok_iff (env : Environment) (input : VerifyPaymentInput) :
    (∃ value, verifyHorizonPayment env input = .ok value) ↔ Settles env input := by
  rw [settles_iff]
  constructor
  · rintro ⟨value, hok⟩
    exact passes_of_verify hok
  intro hall
  obtain ⟨op, -, -, hok⟩ := verify_of_passes hall
  exact ⟨_, hok⟩

/-- **VERIFICATION**: the verdict is `ok` exactly when the hash, the networks
    and the memo are right and some single plain payment has the destination,
    the amount and the asset, and then it reports such a payment; a refusal
    carries the code of the first stage that fails; neither the order of
    the operations nor one that is no plain payment changes the outcome; and a
    muxed destination is reached by no other account or id. -/
theorem verify_correct (env : Environment) (input : VerifyPaymentInput) :
    ((∃ value, verifyHorizonPayment env input = .ok value) ↔ Settles env input) ∧
    (∀ value, verifyHorizonPayment env input = .ok value →
      ∃ op ∈ input.operations, Pays env input.expected op
        ∧ value = verifiedPayment (trim input.txHash) (memoOf input.transaction) op) ∧
    (∀ e, verifyHorizonPayment env input = .error e ↔ ∃ stage, FirstFails env input stage
        ∧ e = failure (stage.code input)) ∧
    (∀ ops : List HorizonOperationLike, ops.Perm input.operations →
      outcome (verifyHorizonPayment env { input with operations := ops })
        = outcome (verifyHorizonPayment env input)) ∧
    (∀ before after op, input.operations = before ++ after → op.type ≠ "payment" →
      outcome (verifyHorizonPayment env
          { input with operations := before ++ op :: after })
        = outcome (verifyHorizonPayment env input)) ∧
    (∀ number account id, MuxedEncoding env number →
      env.muxedAccountId account id = some (trim input.expected.destination) →
      ∀ op, Pays env input.expected op →
        op.toAddress.map trim = some (trim input.expected.destination)
          ∨ ∃ given, op.toAddress.map trim = some account ∧ op.toMuxedId = some given
            ∧ number given.toText = number id) := by
  refine ⟨verify_ok_iff env input, ?_, ?_, ?_, ?_,
    fun _ _ _ hencoding hdest op hpays =>
      goesTo_muxed env input.expected op hencoding hdest hpays.destination⟩
  · intro value hok
    have hall := passes_of_verify hok
    obtain ⟨op, hop, hpays, heq⟩ := verify_of_passes hall
    have hmemo : memoOf input.transaction = input.expected.memo := hall .memo
    refine ⟨op, hop, hpays, ?_⟩
    rw [hmemo]
    exact Except.ok.inj (hok.symm.trans heq)
  · intro e
    constructor
    · intro herror
      have hall : ¬ ∀ stage, Passes env input stage := by
        intro hall
        obtain ⟨op, -, -, hok⟩ := verify_of_passes hall
        rw [hok] at herror
        cases herror
      obtain ⟨stage, hfirst⟩ := exists_firstFails env input hall
      refine ⟨stage, hfirst, ?_⟩
      exact Except.error.inj (herror.symm.trans (verify_of_firstFails hfirst))
    · rintro ⟨stage, hfirst, rfl⟩
      exact verify_of_firstFails hfirst
  · intro ops hperm
    exact outcome_congr rfl (passes_operations (fun op _ => hperm.mem_iff))
  · intro before after op hops hother
    refine outcome_congr rfl (passes_operations ?_)
    intro op' hpayment
    have hne : op' ≠ op := by
      rintro rfl
      exact hother hpayment
    rw [hops]
    simp [hne]

/-! ## A look-alike next to the real payment -/

/-- Five lumens to one seller, after five to another one and an operation that
    pays five of a credit asset coded `XLM`. -/
def sampleInput : VerifyPaymentInput where
  txHash := "  aaaaaaaaaaaaaaaaaaaaaaaaaaaaaaaaaaaaaaaaaaaaaaaaaaaaaaaaaaaaaaaA"
  expected :=
    { memo := "INV-A-B", amount := .number (.finite 5), destination := "GS",
      assetCode := "XLM" }
  transaction := { memo := some "INV-A-B" }
  operations :=
    [{ type := "payment", fromAddress := some "GZ", toAddress := some "GO",
       amount := some "5.0000000", assetType := some "native" },
     { type := "payment", fromAddress := some "GX", toAddress := some "GS",
       amount := some "5.0000000", assetType := some "credit_alphanum4",
       assetCode := some "XLM", assetIssuer := some "GX" },
     { type := "payment", fromAddress := some "GB", toAddress := some "GS",
       amount := some "5.0000000", assetType := some "native" }]

def sampleEnvironment : Environment where
  muxedAccountId := fun _ _ => none

/-- The payment to another account and the credit asset are passed over and the
    native payment reported. -/
theorem verify_sample : (∃ value, verifyHorizonPayment sampleEnvironment sampleInput = .ok value)
    ∧ (verifyHorizonPayment sampleEnvironment sampleInput).toOption.map
      VerifiedPayment.fromAddress = some "GB" := by
  refine ⟨(verify_correct sampleEnvironment sampleInput).1.mpr ?_, by decide +kernel⟩
  refine ⟨⟨by decide, all_eq_true.mp (by decide +kernel)⟩,
    nofun, by decide, ?_⟩
  refine ⟨sampleInput.operations.getLast (by decide), by decide, ?_⟩
  refine ⟨by decide, ?_, ?_, .inl ⟨by decide, by decide, by decide⟩⟩
  · exact .direct "GS" rfl (.inr nofun) rfl
  · exact ⟨50000000, 50000000, by decide +kernel, by decide +kernel, rfl⟩

end Verification

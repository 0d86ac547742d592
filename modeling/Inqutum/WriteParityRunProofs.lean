import Inqutum.PaginationProofs
import Inqutum.PostgresJobStoreProofs
import Inqutum.WriteParityProofs

/-!
# Write parity, call by call and along histories

Each call keeps the two stores twins and has the same outcome class on
both, on the terms under which the two implementations agree
(`SameTerms`).  Among them are those under which the rows of the table are
as faithful as the columns: ids in the one spelling that the database
gives them, and values that their columns hold.  The theorem about
histories follows by the invariant rule.
-/

namespace Invoices

open MemoryStorage Transition
open Cursors (isHex)
open Jobs (nulFree fits)
open Pagination (IsGenerated)
open InvoiceService InvoiceMemoryService InvoiceTable PayerInfo

/-! ## The terms of agreement -/

/-- A version given for a stored invoice is an integer for both sides or for
    neither, and if it is the current one the invoice is still PENDING. -/
def VersionTerms (s : MemoryStorage) (id : String)
    (expectedVersion : Option JsNumber) (now : Int) : Prop :=
  ∀ value invoice, expectedVersion = some value → s.lookup id = some invoice →
    VersionComparable value ∧
    (value = .ofNat invoice.versionOr1 → (expire now invoice).status = .pending)

/-- A UUID as the database writes it, or none in any spelling: a `UUID` column
    matches the others too, and an in-memory map does not. -/
def PlainId (id : String) : Prop :=
  let digits := id.toList.filter (fun c => !(['-', '\x7b', '\x7d'].contains c))
  IsGenerated id ∨ digits.length ≠ 32 ∨ ∃ c ∈ digits, isHex c = false

/-- A value that its column of `n` characters holds. -/
def Holds (n : Nat) (value : Option String) : Prop := ∀ text ∈ value, fits n text = true

structure CreateTerms (s : MemoryStorage) (input : CreateInvoiceInput) (memo uuid : String) :
    Prop where
  memo : memo ≠ "" ∧ nulFree memo = true
  room : s.invoices.size < s.config.maxEntries
  id : IsGenerated uuid
  seller : Holds 56 input.sellerPublicKey ∧ Holds 255 input.sellerName
    ∧ Holds 255 input.sellerEmail
  customer : Holds 255 input.customerName ∧ Holds 255 input.customerEmail
  asset : Holds 12 input.assetCode ∧ Holds 56 input.assetIssuer
  description : ∀ text ∈ input.description, nulFree text = true
  amount : |decimal7 (JsNumber.textValue input.amount)| < 10 ^ 13

structure PayTerms (s : MemoryStorage) (id txHash payerPublicKey : String)
    (payerInfo : Option PayerInfo) (expectedVersion : Option JsNumber)
    (now : Int) : Prop where
  noneDue : NoneDue s now
  hash : txHash = "" → ∀ other invoice, other ≠ id →
    s.lookup other = some invoice → invoice.paymentTxHash ≠ some ""
  payerName : payerInfo.bind payerName ≠ some ""
  payerEmail : payerInfo.bind payerEmail ≠ some ""
  version : VersionTerms s id expectedVersion now
  plain : PlainId id
  payment : Holds 64 txHash ∧ Holds 56 payerPublicKey
  payer : Holds 255 (payerInfo.bind PayerInfo.payerName)
    ∧ Holds 255 (payerInfo.bind PayerInfo.payerEmail)

/-- The terms under which both backends do the same. -/
def SameTerms (s : MemoryStorage) (now : Int) : WriteOp → Prop
  | .createInvoice input memo uuid => CreateTerms s input memo uuid
  | .markAsPaid id txHash payerPublicKey payerInfo expectedVersion =>
    PayTerms s id txHash payerPublicKey payerInfo expectedVersion now
  | .cancelInvoice id expectedVersion => PlainId id ∧ VersionTerms s id expectedVersion now
  | .markExpiredInvoices _ => True

/-- Same outcome, and the stores are still twins. -/
def Parity (m : InvoiceMemoryService × Outcome) (d : InvoiceDb × Outcome) :
    Prop :=
  m.2 = d.2 ∧ Twin m.1.storage d.1.invoices

/-! ## Versions on both sides -/

/-- What the two version checks say about one stored invoice. -/
inductive VersionVerdict (invoice : StoredInvoice) (row : InvoiceRow)
    (expectedVersion : Option JsNumber) : Prop where
  | passes {expected : Option Int}
      (hcheck : checkVersion expectedVersion (.ofNat invoice.versionOr1) = .ok ())
      (hparam : versionParam expectedVersion = .ok expected)
      (hmatch : versionMatches expected row = true)
  | conflicts {value : JsNumber} {expected : Option Int} (hgiven : expectedVersion = some value)
      (hcheck : checkVersion expectedVersion (.ofNat invoice.versionOr1)
        = .error (.conflict (.ofNat invoice.versionOr1) value))
      (hparam : versionParam expectedVersion = .ok expected)
      (hmatch : versionMatches expected row = false)
  | invalid {value : JsNumber} {e : DbError} (hgiven : expectedVersion = some value)
      (hcheck : checkVersion expectedVersion (.ofNat invoice.versionOr1)
        = .error (.invalidVersion .expected value))
      (hparam : versionParam expectedVersion = .error e)

variable {expectedVersion : Option JsNumber} {id : String} {invoice : StoredInvoice}
  {row : InvoiceRow} {db : InvoiceDb}

theorem versionVerdict (hagree : Agrees invoice row) (hearly : EarlyVersion invoice)
    (hcomp : ∀ value, expectedVersion = some value → VersionComparable value) :
    VersionVerdict invoice row expectedVersion := by
  have hcheck := checkVersion_early hearly.2 expectedVersion
  cases expectedVersion with
  | none =>
    have hparam : versionParam none = .ok none := rfl
    exact .passes hcheck hparam rfl
  | some value =>
    rcases (hcomp value rfl).cases with
      ⟨k, rfl, hvalid, hcast⟩ | ⟨hinvalid, e, hcast⟩
    · have hparam : versionParam (some (.ofNat k)) = .ok (some (k : Int)) := by
        rw [versionParam, hcast]
        rfl
      simp only [hvalid] at hcheck
      by_cases hk : k = invoice.versionOr1
      · rw [if_neg (by decide), if_neg (fun h => h (hk ▸ rfl))] at hcheck
        refine .passes hcheck hparam ?_
        show decide (row.version = (k : Int)) = true
        rw [← hagree.version, hk]
        exact decide_eq_true rfl
      rw [if_neg (by decide), if_pos (fun h => hk (ofNat_injective h))] at hcheck
      refine .conflicts rfl hcheck hparam ?_
      show decide (row.version = (k : Int)) = false
      rw [← hagree.version]
      refine decide_eq_false ?_
      intro h
      exact hk (by exact_mod_cast h.symm)
    · have hparam : versionParam (some value) = .error e := by
        rw [versionParam, hcast]
        rfl
      simp only [hinvalid] at hcheck
      exact .invalid rfl hcheck hparam

theorem checkVersion_ok {value actual : JsNumber}
    (h : checkVersion (some value) actual = .ok ()) : value = actual := by
  unfold checkVersion at h
  split at h
  · cases h
  simp only [] at h
  split at h
  · cases h
  split at h
  · cases h
  · exact not_not.mp ‹_›

theorem VersionTerms.pending {s : MemoryStorage} {now : Int}
    (h : VersionTerms s id expectedVersion now) (hlook : s.lookup id = some invoice)
    (hcheck : checkVersion expectedVersion (.ofNat invoice.versionOr1) = .ok ()) :
    expectedVersion = none ∨ (expire now invoice).status = .pending := by
  cases expectedVersion with
  | none => exact .inl rfl
  | some value => exact .inr ((h value invoice rfl hlook).2 (checkVersion_ok hcheck))

theorem refusal_class_absent
    (hnone : db.invoices.find id = none) (expectedVersion : Option JsNumber)
    {e : InvoiceError} (he : e.isConflict = false) :
    failureClass (refusal db id expectedVersion e) = .failure := by
  have hsame : refusal db id expectedVersion e = e := by
    unfold refusal
    rw [hnone]
    cases expectedVersion with
    | none => rfl
    | some value => rfl
  rw [hsame, failureClass, he]
  rfl

theorem refusal_class_present (hrow : db.invoices.find id = some row)
    (value : JsNumber) (e : InvoiceError) :
    failureClass (refusal db id (some value) e) = .conflict := by
  unfold refusal
  rw [hrow]
  rfl

/-! ## Payment -/

variable {m : InvoiceMemoryService × Except InvoiceError Nat}
  {d : InvoiceDb × Except InvoiceError StoredInvoice} {invoice : StoredInvoice}
  {mid : MemoryStorage} {row : InvoiceRow}

theorem agrees_paid (h : Agrees invoice row) (txHash payerPublicKey : String)
    {payerInfo : Option PayerInfo} (now : Int)
    (hname : payerInfo.bind payerName ≠ some "")
    (hemail : payerInfo.bind payerEmail ≠ some "") :
    Agrees (updatedRecord invoice (paymentUpdate txHash payerPublicKey payerInfo now))
      (payRow txHash payerPublicKey payerInfo (timestampParam now) row) := by
  have hkeep : ∀ text : Option String, text ≠ some "" → text = JsText.nonEmpty text := by
    intro text hne
    cases text with
    | none => rfl
    | some t =>
      show some t = if t = "" then none else some t
      rw [if_neg]
      rintro rfl
      exact hne rfl
  refine ⟨h.memo, rfl, ?_, rfl, rfl, hkeep _ hname, hkeep _ hemail, rfl, h.expiresAt⟩
  show ((invoice.versionOr1 + 1 : Nat) : Int) = row.version + 1
  rw [← h.version]
  exact Int.natCast_succ _

theorem Twin.hash_taken {s : MemoryStorage} {t : InvoiceTable} (h : Twin s t) (id txHash : String) :
    (∃ other invoice, other ≠ id ∧ s.lookup other = some invoice ∧
      invoice.paymentTxHash = some txHash) ↔
    ∃ row ∈ t.rows, row.id ≠ id ∧ row.paymentTxHash = some txHash := by
  constructor
  · rintro ⟨other, invoice, hne, hlook, hhash⟩
    rcases h.cases other with ⟨hnone, -⟩ | ⟨invoice', row, hs, ht, hagree⟩
    · rw [hlook] at hnone
      cases hnone
    rw [hlook] at hs
    refine ⟨row, mem_of_find ht, ?_, ?_⟩
    · rw [find_id ht]
      exact hne
    rw [← hagree.paymentTxHash, ← Option.some.inj hs]
    exact hhash
  · rintro ⟨row, hrow, hne, hhash⟩
    have hfind := (t.mem_iff_find row).mp hrow
    rcases h.cases row.id with ⟨-, hnone⟩ | ⟨invoice, row', hs, ht, hagree⟩
    · rw [hfind] at hnone
      cases hnone
    rw [hfind] at ht
    refine ⟨row.id, invoice, hne, hs, ?_⟩
    rw [hagree.paymentTxHash, ← Option.some.inj ht]
    exact hhash

theorem parity_error {db : InvoiceDb} {e e' : InvoiceError}
    (hm : m.1.storage = mid ∧ m.2 = .error e) (hd : d = (db, .error e'))
    (hclass : failureClass e = failureClass e') (htwin : Twin mid db.invoices) :
    Parity (m.1, resultClass (contentOf m)) (d.1, resultClass d.2) := by
  rw [Parity, contentOf_error hm.2, hm.1, hd]
  exact ⟨hclass, htwin⟩

theorem parity_ok {db : InvoiceDb} {writtenAt : Int}
    (hm : m.1.storage = mid.setEntry invoice writtenAt ∧ m.2 = .ok mid.objects.next)
    (hd : d = (db, .ok (mapRowToInvoice row))) (hagree : Agrees invoice row)
    (htwin : Twin (mid.setEntry invoice writtenAt) db.invoices) :
    Parity (m.1, resultClass (contentOf m)) (d.1, resultClass d.2) := by
  rw [Parity, contentOf_written hm.1 hm.2, hm.1, hd]
  refine ⟨?_, htwin⟩
  show Outcome.success invoice.status invoice.versionOr1 = .success row.status row.version.toNat
  rw [hagree.status, ← hagree.version]
  rfl

section Pay

variable {s : InvoiceMemoryService} {db : InvoiceDb}
  {id txHash payerPublicKey : String} {payerInfo : Option PayerInfo}
  {expectedVersion : Option JsNumber} {now : Int}

theorem pay_absent (h : Twin s.storage db.invoices)
    (hdue : NoneDue s.storage now) (hs : s.storage.lookup id = none)
    (ht : db.invoices.find id = none) :
    Parity (memoryCall s (.markAsPaid id txHash payerPublicKey payerInfo expectedVersion) now)
      (databaseCall db (.markAsPaid id txHash payerPublicKey payerInfo expectedVersion) now) := by
  obtain ⟨s₁, s₂, hs₁, hs₂, hout⟩ := memory_markAsPaid_eq s id txHash
    payerPublicKey payerInfo expectedVersion now
  have hquiet : ∀ t ∈ [now, now], NoneDue s.storage t := by
    intro t ht
    simp only [List.mem_cons, List.not_mem_nil, or_false, or_self] at ht
    rw [ht]
    exact hdue
  have h₁ : s₁.lookup id = none := by
    rw [hs₁.lookup, hs]
    rfl
  have h₂ : s₂.lookup id = none := by
    rw [hs₂.lookup, hs]
    rfl
  rw [h₁] at hout
  simp only [checkExisting, payVerdict, h₂] at hout
  cases hparam : versionParam expectedVersion with
  | error e =>
    exact parity_error hout (markAsPaid_invalid hparam) rfl (h.quiet hs₂ hquiet)
  | ok expected =>
    refine parity_error hout (markAsPaid_refused hparam ?_)
      (refusal_class_absent ht _ rfl).symm (h.quiet hs₂ hquiet)
    rw [ht]
    rfl

theorem pay_matching {s₂ : MemoryStorage} (h : Twin s₂ db.invoices)
    {out : InvoiceMemoryService × Except InvoiceError Nat}
    {invoice : StoredInvoice} {row : InvoiceRow} {expected : Option Int}
    (hs : s₂.lookup id = some invoice) (ht : db.invoices.find id = some row)
    (hagree : Agrees invoice row)
    (hcheck : checkVersion expectedVersion (.ofNat invoice.versionOr1) = .ok ())
    (hparam : versionParam expectedVersion = .ok expected)
    (hmatch : versionMatches expected row = true)
    (hpend : invoice.status = .pending) (hdue : now < invoice.expiresAt)
    (hempty : txHash = "" → ∀ other invoice', other ≠ id →
      s₂.lookup other = some invoice' → invoice'.paymentTxHash ≠ some "")
    (hname : payerInfo.bind payerName ≠ some "")
    (hemail : payerInfo.bind payerEmail ≠ some "")
    (hout : match payVerdict s₂ id txHash expectedVersion now with
      | .error e => out.1.storage = s₂ ∧ out.2 = .error e
      | .ok invoice =>
        out.1.storage = s₂.setEntry (updatedRecord invoice
          (paymentUpdate txHash payerPublicKey payerInfo now)) now ∧
        out.2 = .ok s₂.objects.next) :
    let d := markAsPaid db id txHash payerPublicKey payerInfo
      expectedVersion (timestampParam now)
    Parity (out.1, resultClass (contentOf out)) (d.1, resultClass d.2) := by
  have hpay : payable id expected (timestampParam now) row = true := by
    have hexp : timestampParam now < row.expiresAt := by
      rw [← hagree.expiresAt]
      show now * 1000 < invoice.expiresAt * 1000
      omega
    rw [payable, hmatch, find_id ht,
      ← hagree.status, hpend, decide_eq_true hexp]
    simp
  rw [payVerdict, hs] at hout
  simp only [] at hout
  rw [if_neg (not_not_intro hpend), if_neg (not_le.mpr hdue)] at hout
  by_cases htaken : s₂.txHashTaken id txHash = true
  · rw [if_pos htaken] at hout
    obtain ⟨-, hother⟩ := (txHashTaken_iff h.wf id txHash).mp htaken
    obtain ⟨other, hrow, hne, hhash⟩ := (h.hash_taken id txHash).mp hother
    obtain ⟨cause, hdb⟩ := markAsPaid_taken hparam ht hpay hrow hne hhash
    exact parity_error hout hdb rfl h
  rw [if_neg htaken, hcheck] at hout
  have hfree : ∀ r ∈ db.invoices.rows, r.id ≠ id → r.paymentTxHash ≠ some txHash := by
    intro r hr hne hhash
    obtain ⟨other, invoice', hne', hlook, hhash'⟩ :=
      (h.hash_taken id txHash).mpr ⟨r, hr, hne, hhash⟩
    by_cases htx : txHash = ""
    · exact hempty htx other invoice' hne' hlook (htx ▸ hhash')
    exact htaken ((txHashTaken_iff h.wf id txHash).mpr ⟨htx, other, invoice', hne', hlook, hhash'⟩)
  obtain ⟨db', hdb, hfind⟩ := markAsPaid_accepted hparam ht hpay hfree
  have hagree' := agrees_paid hagree txHash payerPublicKey now hname hemail
  refine parity_ok hout hdb hagree' ?_
  refine h.update hs rfl rfl hagree' ⟨by rintro ⟨⟩, ?_⟩ hfind now
  show invoice.versionOr1 + 1 ≤ 2
  rw [(h.versions id invoice hs).1 hpend]

theorem pay_present (h : Twin s.storage db.invoices)
    (hterms : PayTerms s.storage id txHash payerPublicKey payerInfo expectedVersion now)
    {invoice : StoredInvoice} {row : InvoiceRow} (hs : s.storage.lookup id = some invoice)
    (ht : db.invoices.find id = some row) (hagree : Agrees invoice row) :
    Parity (memoryCall s (.markAsPaid id txHash payerPublicKey payerInfo expectedVersion) now)
      (databaseCall db (.markAsPaid id txHash payerPublicKey payerInfo expectedVersion) now) := by
  obtain ⟨s₁, s₂, hs₁, hs₂, hout⟩ := memory_markAsPaid_eq s id txHash
    payerPublicKey payerInfo expectedVersion now
  have hquiet : ∀ times : List Int, (∀ t ∈ times, t = now) → ∀ t ∈ times, NoneDue s.storage t := by
    intro times htimes t ht
    rw [htimes t ht]
    exact hterms.noneDue
  have hq₁ := hquiet [now] (by simp)
  have hq₂ := hquiet [now, now] (by simp)
  have h₁ : s₁.lookup id = some invoice := by rw [hs₁.quiet hq₁, hs]
  have h₂ : s₂.lookup id = some invoice := by rw [hs₂.quiet hq₂, hs]
  rw [h₁] at hout
  cases versionVerdict hagree (h.versions id invoice hs)
      (fun value hv => (hterms.version value invoice hv hs).1) with
  | conflicts hgiven hcheck hparam hmatch =>
    subst hgiven
    simp only [checkExisting, hcheck] at hout
    refine parity_error hout (markAsPaid_refused hparam ?_) ?_ (h.quiet hs₁ hq₁)
    · rw [ht, Option.filter_some, payable, hmatch, Bool.and_false]
      rfl
    · exact (refusal_class_present ht _ _).symm
  | invalid hgiven hcheck hparam =>
    subst hgiven
    simp only [checkExisting, hcheck] at hout
    exact parity_error hout (markAsPaid_invalid hparam) rfl (h.quiet hs₁ hq₁)
  | passes hcheck hparam hmatch =>
    have hexisting : checkExisting (some invoice)
        expectedVersion = .ok () := by
      cases expectedVersion with
      | none => rfl
      | some value => exact hcheck
    rw [hexisting] at hout
    have hdue := hterms.noneDue id invoice hs
    by_cases hpend : invoice.status = .pending
    · have hnow : now < invoice.expiresAt := by
        by_contra hle
        rw [(isPendingInvoiceExpired_iff invoice now).mpr ⟨hpend, not_lt.mp hle⟩] at hdue
        cases hdue
      refine pay_matching (h.quiet hs₂ hq₂) h₂ ht hagree hcheck hparam
        hmatch hpend hnow ?_ hterms.payerName hterms.payerEmail hout
      intro htx other invoice' hne hlook
      rw [hs₂.quiet hq₂] at hlook
      exact hterms.hash htx other invoice' hne hlook
    · -- only a call without a version gets here
      have hnone : expectedVersion = none := by
        rcases hterms.version.pending hs hcheck with hnone | hexp
        · exact hnone
        rw [expire_of_not_pending now hpend] at hexp
        exact absurd hexp hpend
      subst hnone
      simp only [payVerdict, h₂, if_pos hpend] at hout
      refine parity_error hout (markAsPaid_refused hparam ?_) rfl (h.quiet hs₂ hq₂)
      rw [ht, Option.filter_some, if_neg]
      intro hpay
      simp only [payable, Bool.and_eq_true, beq_iff_eq] at hpay
      exact hpend (hagree.status.trans hpay.1.1.2)

end Pay

/-- A cancelled record agrees with a cancelled row. -/
theorem agrees_cancelled {invoice : StoredInvoice} {row : InvoiceRow} (h : Agrees invoice row) :
    Agrees (updatedRecord invoice cancellation)
      (cancelRow row) := by
  refine ⟨h.memo, rfl, ?_, h.paymentTxHash, h.payerPublicKey, h.payerName,
    h.payerEmail, h.paidAt, h.expiresAt⟩
  show ((invoice.versionOr1 + 1 : Nat) : Int) = row.version + 1
  rw [← h.version]
  exact Int.natCast_succ _

/-- Cancelling has the same outcome in the two stores. -/
theorem cancel_parity {s : InvoiceMemoryService} {db : InvoiceDb}
    (h : Twin s.storage db.invoices) {id : String} {expectedVersion : Option JsNumber} {now : Int}
    (hterms : VersionTerms s.storage id expectedVersion now) :
    Parity (memoryCall s (.cancelInvoice id expectedVersion) now)
      (databaseCall db (.cancelInvoice id expectedVersion) now) := by
  obtain ⟨s₁, hs₁, hout⟩ := memory_cancelInvoice_eq s id expectedVersion now
  obtain ⟨t, n, hsweep, ht⟩ := markExpiredInvoices_eq db now
  have htwin : Twin s₁ t := h.swept hs₁ ht
  rcases htwin.cases id with ⟨hs, hrow⟩ | ⟨invoice, row, hs, hrow, hagree⟩
  · simp only [cancelVerdict, hs] at hout
    cases hparam : versionParam expectedVersion with
    | error e =>
      exact parity_error hout (cancelInvoice_invalid hsweep hparam) rfl htwin
    | ok expected =>
      refine parity_error hout (cancelInvoice_refused hsweep hparam ?_) ?_ htwin
      · rw [hrow]
        rfl
      · exact (refusal_class_absent hrow _ rfl).symm
  · obtain ⟨stored, hstored, hexp⟩ := Option.map_eq_some_iff.mp ((hs₁.lookup id).symm.trans hs)
    have hversion : invoice.versionOr1 = stored.versionOr1 := by
      rw [← hexp]
      exact expireAll_frame StoredInvoice.versionOr1 (fun _ => rfl) _ _
    simp only [cancelVerdict, hs] at hout
    cases versionVerdict hagree (htwin.versions id invoice hs)
        (fun value hv => (hterms value stored hv hstored).1) with
    | conflicts hgiven hcheck hparam hmatch =>
      subst hgiven
      simp only [checkExisting, hcheck] at hout
      refine parity_error hout (cancelInvoice_refused hsweep hparam ?_) ?_ htwin
      · rw [hrow, Option.filter_some, cancellable, hmatch, Bool.and_false]
        rfl
      · exact (refusal_class_present hrow _ _).symm
    | invalid hgiven hcheck hparam =>
      subst hgiven
      simp only [checkExisting, hcheck] at hout
      exact parity_error hout (cancelInvoice_invalid hsweep hparam) rfl htwin
    | @passes expected hcheck hparam hmatch =>
      have hexisting : checkExisting (some invoice)
          expectedVersion = .ok () := by
        cases expectedVersion with
        | none => rfl
        | some value => exact hcheck
      simp only [hexisting] at hout
      by_cases hpend : invoice.status = .pending
      · rw [if_neg (not_not_intro hpend), hcheck] at hout
        have hcan : cancellable id expected row = true := by
          rw [cancellable, hmatch, find_id hrow, ← hagree.status, hpend]
          simp
        obtain ⟨db', hdb, hfind⟩ := cancelInvoice_accepted hsweep hparam hrow hcan
        have hagree' := agrees_cancelled hagree
        refine parity_ok hout hdb hagree' ?_
        refine htwin.update hs rfl rfl hagree' ⟨by rintro ⟨⟩, ?_⟩ hfind now
        show invoice.versionOr1 + 1 ≤ 2
        rw [(htwin.versions id invoice hs).1 hpend]
      · have hnone : expectedVersion = none := by
          rw [hversion] at hcheck
          rcases hterms.pending hstored hcheck with hnone | hpending
          · exact hnone
          · exact absurd ((congrArg _ hexp).symm.trans hpending) hpend
        subst hnone
        rw [if_pos hpend] at hout
        refine parity_error hout (cancelInvoice_refused hsweep hparam ?_) rfl htwin
        rw [hrow, Option.filter_some, if_neg]
        intro hcan
        simp only [cancellable, Bool.and_eq_true, beq_iff_eq] at hcan
        exact hpend (hagree.status.trans hcan.1.2)

/-! ## Creation and sweeps -/

theorem Twin.memo_taken {s : MemoryStorage} {t : InvoiceTable} (h : Twin s t) (memo : String) :
    s.invoicesByMemo.has memo = true ↔ ∃ row ∈ t.rows, row.memo = memo := by
  rw [h.memoIndex]
  constructor
  · rintro ⟨id, invoice, hlook, hmemo⟩
    rcases h.cases id with ⟨hnone, -⟩ | ⟨invoice', row, hs, ht, hagree⟩
    · rw [hlook] at hnone
      cases hnone
    rw [hlook] at hs
    refine ⟨row, mem_of_find ht, ?_⟩
    rw [← hagree.memo, ← Option.some.inj hs]
    exact hmemo
  · rintro ⟨row, hrow, hmemo⟩
    have hfind := (t.mem_iff_find row).mp hrow
    rcases h.cases row.id with ⟨-, hnone⟩ | ⟨invoice, row', hs, ht, hagree⟩
    · rw [hfind] at hnone
      cases hnone
    rw [hfind] at ht
    refine ⟨row.id, invoice, hs, ?_⟩
    rw [hagree.memo, ← Option.some.inj ht]
    exact hmemo

section Create

variable {s : InvoiceMemoryService} {db : InvoiceDb}
  {input : CreateInvoiceInput} {memo uuid : String} {now expiresAt : Int}

theorem memory_createInvoice_eq (s : InvoiceMemoryService) (uuid : String)
    (hseller : input.sellerPublicKey ≠ "")
    (hexp : calculateInvoiceExpiry input.expiresInDays now = .ok expiresAt) (hmemo : memo ≠ "") :
    let out := s.createInvoice input memo uuid (.at now)
    if s.storage.invoices.has uuid then
      out.1.storage = s.storage ∧ out.2 = .error (.duplicateId uuid)
    else if s.storage.invoicesByMemo.has memo then
      out.1.storage = s.storage ∧ out.2 = .error (.duplicateMemo memo)
    else
      out.1.storage = s.storage.setEntry (newRecord
        (InvoiceMemoryService.newInvoice input memo expiresAt) uuid now now)
        now ∧
      out.2 = .ok s.storage.objects.next := by
  have hstored : s.storage.createInvoice
      (InvoiceMemoryService.newInvoice input memo expiresAt) uuid now now now
      = if s.storage.invoices.has uuid then
          (s.storage, .error (.duplicateId uuid))
        else if memo ≠ "" ∧ s.storage.invoicesByMemo.has memo = true then
          (s.storage, .error (.duplicateMemo memo))
        else
          (s.storage.setEntry (newRecord
            (InvoiceMemoryService.newInvoice input memo expiresAt) uuid now
            now) now, .ok s.storage.objects.next) := rfl
  simp only [InvoiceMemoryService.createInvoice, if_neg hseller, Clock.at, hexp, hstored]
  by_cases hid : s.storage.invoices.has uuid = true
  · simp only [if_pos hid]
    exact ⟨trivial, trivial⟩
  simp only [if_neg hid]
  by_cases htaken : s.storage.invoicesByMemo.has memo = true
  · simp only [if_pos htaken, if_pos (And.intro hmemo htaken)]
    exact ⟨trivial, trivial⟩
  have hnot : ¬ (memo ≠ "" ∧ s.storage.invoicesByMemo.has memo = true) :=
    fun h => htaken h.2
  simp only [if_neg htaken, if_neg hnot]
  exact ⟨trivial, trivial⟩

theorem database_createInvoice_eq (db : InvoiceDb) (memo uuid : String)
    (hseller : input.sellerPublicKey ≠ "")
    (hexp : calculateInvoiceExpiry input.expiresInDays now = .ok expiresAt) :
    createInvoice db input uuid memo now (timestampParam now)
      = match db.invoices.insert (newRow input uuid memo
          expiresAt (timestampParam now)) with
        | .error e => (db, .error (.createFailed e.message))
        | .ok t => ({ db with invoices := t },
            .ok (mapRowToInvoice (newRow input uuid memo
              expiresAt (timestampParam now)))) := by
  have hparsed : createInvoice db input uuid memo now
      (timestampParam now) = _ := if_neg hseller
  simp only [hexp] at hparsed
  exact hparsed

theorem Twin.insert_accepted (h : Twin s.storage db.invoices)
    (input : CreateInvoiceInput) (memo uuid : String) (expiresAt now : Int) :
    (∃ t, db.invoices.insert (newRow input uuid memo expiresAt now) = .ok t) ↔
    s.storage.invoices.has uuid = false ∧ s.storage.invoicesByMemo.has memo = false := by
  have hids : s.storage.invoices.has uuid = false ↔ db.invoices.find uuid = none := by
    rw [InsertionMap.has_eq_false, ← h.wf.lookup_eq_none]
    rcases h.cases uuid with ⟨hs, ht⟩ | ⟨_, _, hs, ht, -⟩
    · exact iff_of_true hs ht
    rw [hs, ht]
    exact iff_of_false (Option.some_ne_none _) (Option.some_ne_none _)
  rw [insert_accepted_iff, hids, ← Bool.not_eq_true, h.memo_taken]
  constructor
  · rintro ⟨hid, hm, -, -⟩
    refine ⟨hid, ?_⟩
    rintro ⟨row, hrow, hmemo⟩
    exact hm row hrow hmemo
  rintro ⟨hid, hm⟩
  refine ⟨hid, ?_, ?_, ?_⟩
  · intro row hrow hmemo
    exact hm ⟨row, hrow, hmemo⟩
  · intro _ _ hne
    exact absurd rfl hne
  intro _ _ hne
  exact absurd rfl hne

theorem create_parity (h : Twin s.storage db.invoices) (hmemo : memo ≠ "")
    (hroom : s.storage.invoices.size < s.storage.config.maxEntries) :
    Parity (memoryCall s (.createInvoice input memo uuid) now)
      (databaseCall db (.createInvoice input memo uuid) now) := by
  by_cases hseller : input.sellerPublicKey = ""
  · have hm : s.createInvoice input memo uuid (.at now) = (s, .error .sellerKeyRequired) := by
      rw [InvoiceMemoryService.createInvoice, if_pos hseller]
    refine parity_error ⟨congrArg (fun o => o.1.storage) hm, congrArg Prod.snd hm⟩ ?_ rfl h
    rw [InvoiceService.createInvoice, if_pos hseller]
  cases hexp : calculateInvoiceExpiry input.expiresInDays now with
  | error e =>
    have hm : s.createInvoice input memo uuid (.at now) = (s, .error e) := by
      simp only [InvoiceMemoryService.createInvoice, if_neg hseller, Clock.at, hexp]
    refine parity_error ⟨congrArg (fun o => o.1.storage) hm, congrArg Prod.snd hm⟩ ?_ rfl h
    simp only [InvoiceService.createInvoice, if_neg hseller, hexp]
  | ok expiresAt =>
    have hm := memory_createInvoice_eq s uuid hseller hexp hmemo
    have hd := database_createInvoice_eq db memo uuid hseller hexp
    have hins := h.insert_accepted input memo uuid expiresAt (timestampParam now)
    cases hinsert : db.invoices.insert (InvoiceService.newRow input uuid
        memo expiresAt (timestampParam now)) with
    | ok t =>
      obtain ⟨hid, hfree⟩ := hins.mp ⟨t, hinsert⟩
      rw [hinsert] at hd
      simp only [hid, hfree] at hm
      have hagree : Agrees (newRecord (InvoiceMemoryService.newInvoice input memo expiresAt) uuid
          now now) (InvoiceService.newRow input uuid memo expiresAt
          (timestampParam now)) :=
        ⟨rfl, rfl, rfl, rfl, rfl, rfl, rfl, rfl, rfl⟩
      refine parity_ok hm hd hagree ?_
      refine h.insert hroom hagree ⟨fun _ => rfl, Nat.le_succ 1⟩
        (find_insert hinsert) ?_ now
      exact h.wf.lookup_eq_none.mpr ((InsertionMap.has_eq_false _ _).mp hid)
    | error e =>
      rw [hinsert] at hd
      have hnot : ¬ (s.storage.invoices.has uuid = false ∧
          s.storage.invoicesByMemo.has memo = false) := by
        intro hfree
        obtain ⟨t, ht⟩ := hins.mpr hfree
        rw [hinsert] at ht
        cases ht
      by_cases hid : s.storage.invoices.has uuid = true
      · simp only [if_pos hid] at hm
        exact parity_error hm hd rfl h
      have htaken : s.storage.invoicesByMemo.has memo = true := by
        refine eq_true_of_ne_false ?_
        intro hfree
        exact hnot ⟨eq_false_of_ne_true hid, hfree⟩
      simp only [if_neg hid, if_pos htaken] at hm
      exact parity_error hm hd rfl h

end Create

variable {s : InvoiceMemoryService}

theorem sweep_parity {db : InvoiceDb}
    (h : Twin s.storage db.invoices) (date : Option Int) (now : Int) :
    Parity (memoryCall s (.markExpiredInvoices date) now)
      (databaseCall db (.markExpiredInvoices date) now) := by
  obtain ⟨t, n, hsweep, ht⟩ := markExpiredInvoices_eq db (date.getD now)
  simp only [Parity, memoryCall, databaseCall, hsweep]
  exact ⟨trivial, h.swept (sweptTo_markExpired s.storage _) ht⟩

/-- **ONE CALL**: on the terms of agreement a call has the same outcome class
    on twins and leaves twins. -/
theorem parity_of_terms {db : InvoiceDb} (h : Twin s.storage db.invoices) {op : WriteOp} {now : Int}
    (hterms : SameTerms s.storage now op) :
    Parity (memoryCall s op now) (databaseCall db op now) := by
  cases op with
  | createInvoice input memo uuid => exact create_parity h hterms.memo.1 hterms.room
  | markAsPaid id txHash payerPublicKey payerInfo expectedVersion =>
    rcases h.cases id with ⟨hs, ht⟩ | ⟨invoice, row, hs, ht, hagree⟩
    · exact pay_absent h hterms.noneDue hs ht
    · exact pay_present h hterms hs ht hagree
  | cancelInvoice id expectedVersion => exact cancel_parity h hterms.2
  | markExpiredInvoices date => exact sweep_parity h date now

/-! ## Histories -/

/-- The two backends, fed with one history. -/
structure Backends where
  memory : InvoiceMemoryService
  database : InvoiceDb

abbrev WriteCall := WriteOp × Int

def callBoth (b : Backends) (call : WriteCall) : Backends where
  memory := (memoryCall b.memory call.1 call.2).1
  database := (databaseCall b.database call.1 call.2).1

def StepBoth (b : Backends) (call : WriteCall) (b' : Backends) : Prop :=
  b' = callBoth b call ∧ SameTerms b.memory.storage call.2 call.1

def Backends.init (config : StorageConfig) (cacheEntries : Option Nat)
    (ttlMs : Option Int) : Backends where
  memory := .init config cacheEntries ttlMs
  database := ⟨.empty, []⟩

def firstId : String := "00000000-0000-4000-8000-000000000001"

theorem firstId_generated : IsGenerated firstId := ⟨by decide +kernel, by decide⟩

theorem holds_some {n : Nat} {text : String} (h : fits n text = true) : Holds n (some text) := by
  intro _ heq
  cases heq
  exact h

end Invoices

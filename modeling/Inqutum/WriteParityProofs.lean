import Inqutum.InvoiceServiceProofs
import Inqutum.InvoiceLifecycleProofs

/-!
# Write parity of the two backends

The same history of creations, payments, cancellations and sweeps is
issued to the in-memory service and to the PostgreSQL service, with the
same identifiers, memos and clock.  `Twin` relates the two stores record
by record; the calls keep it and have the same outcome class as long as
they stay off the points where the two implementations part.
-/

namespace Invoices

open MemoryStorage Transition InvoiceMemoryService

/-! ## Calls and outcomes -/

inductive WriteOp where
  | createInvoice (input : CreateInvoiceInput) (memo uuid : String)
  | markAsPaid (id txHash payerPublicKey : String)
      (payerInfo : Option PayerInfo) (expectedVersion : Option JsNumber)
  | cancelInvoice (id : String) (expectedVersion : Option JsNumber)
  | markExpiredInvoices (now : Option Int)

/-- The class of a call's outcome. -/
inductive Outcome where
  | success (status : InvoiceStatus) (version : Nat)
  | swept
  | conflict
  | failure
  deriving DecidableEq

def failureClass (e : InvoiceError) : Outcome :=
  if e.isConflict then .conflict else .failure

def resultClass : Except InvoiceError StoredInvoice → Outcome
  | .ok invoice => .success invoice.status invoice.versionOr1
  | .error e => failureClass e

/-- A result of the in-memory service, by the content of its object. -/
def contentOf (out : InvoiceMemoryService × Except InvoiceError Nat) :
    Except InvoiceError StoredInvoice :=
  match out.2 with
  | .error e => .error e
  | .ok r =>
    match out.1.storage.objects.read r with
    | some invoice => .ok invoice
    | none => .error .notPayable

/-- A call to the in-memory service at the instant `now`. -/
def memoryCall (s : InvoiceMemoryService) (op : WriteOp) (now : Int) :
    InvoiceMemoryService × Outcome :=
  match op with
  | .createInvoice input memo uuid =>
    let out := s.createInvoice input memo uuid (.at now)
    (out.1, resultClass (contentOf out))
  | .markAsPaid id txHash payerPublicKey payerInfo expectedVersion =>
    let out := s.markAsPaid id txHash payerPublicKey payerInfo expectedVersion (.at now)
    (out.1, resultClass (contentOf out))
  | .cancelInvoice id expectedVersion =>
    let out := s.cancelInvoice id expectedVersion (.at now)
    (out.1, resultClass (contentOf out))
  | .markExpiredInvoices date => ((s.markExpiredInvoices (date.getD now)).1, .swept)

/-- The same call to the PostgreSQL service; `NOW()` is the same instant. -/
def databaseCall (db : InvoiceDb) (op : WriteOp) (now : Int) : InvoiceDb × Outcome :=
  match op with
  | .createInvoice input memo uuid =>
    let out := InvoiceService.createInvoice db input uuid memo now (timestampParam now)
    (out.1, resultClass out.2)
  | .markAsPaid id txHash payerPublicKey payerInfo expectedVersion =>
    let out := InvoiceService.markAsPaid db id txHash payerPublicKey
      payerInfo expectedVersion (timestampParam now)
    (out.1, resultClass out.2)
  | .cancelInvoice id expectedVersion =>
    let out := InvoiceService.cancelInvoice db id expectedVersion now
    (out.1, resultClass out.2)
  | .markExpiredInvoices date =>
    let out := InvoiceService.markExpiredInvoices db (date.getD now)
    (out.1, match out.2 with
      | .ok _ => .swept
      | .error e => failureClass e)

/-! ## The relation between the stores -/

/-- A record and a row that agree on status, version and payer fields (and on
    what decides the next call). -/
structure Agrees (invoice : StoredInvoice) (row : InvoiceRow) : Prop where
  memo : invoice.memo = row.memo
  status : invoice.status = row.status
  version : (invoice.versionOr1 : Int) = row.version
  paymentTxHash : invoice.paymentTxHash = row.paymentTxHash
  payerPublicKey : invoice.payerPublicKey = row.payerPublicKey
  payerName : invoice.payerName = row.payerName
  payerEmail : invoice.payerEmail = row.payerEmail
  paidAt : invoice.paidAt.map timestampParam = row.paidAt
  expiresAt : timestampParam invoice.expiresAt = row.expiresAt

/-- The versions a history can reach: 1 while PENDING, at most 2 after. -/
def EarlyVersion (invoice : StoredInvoice) : Prop :=
  (invoice.status = .pending → invoice.versionOr1 = 1) ∧ invoice.versionOr1 ≤ 2

structure Twin (s : MemoryStorage) (t : InvoiceTable) : Prop where
  wf : WF s
  records : ∀ id, Option.Rel Agrees (s.lookup id) (t.find id)
  versions : ∀ id invoice, s.lookup id = some invoice → EarlyVersion invoice
  memoIndex : ∀ memo, s.invoicesByMemo.has memo = true
    ↔ ∃ id invoice, s.lookup id = some invoice ∧ invoice.memo = memo

theorem twin_empty (config : StorageConfig) : Twin (.init config) .empty where
  wf := wf_init config
  records _ := Option.Rel.none
  versions _ _ h := nomatch h
  memoIndex memo := by
    constructor
    · intro h
      cases h
    rintro ⟨id, invoice, h, -⟩
    cases h

theorem Twin.cases {s : MemoryStorage} {t : InvoiceTable} (h : Twin s t) (id : String) :
    (s.lookup id = none ∧ t.find id = none) ∨
    ∃ invoice row, s.lookup id = some invoice ∧ t.find id = some row ∧ Agrees invoice row := by
  have hrel := h.records id
  generalize s.lookup id = a at hrel ⊢
  generalize t.find id = b at hrel ⊢
  cases hrel with
  | none => exact .inl ⟨rfl, rfl⟩
  | some hagree => exact .inr ⟨_, _, rfl, rfl, hagree⟩

/-! ## Sweeps -/

variable {invoice : StoredInvoice}

theorem Agrees.due {row : InvoiceRow} (h : Agrees invoice row) (now : Int) :
    InvoiceService.isDue now row = isPendingInvoiceExpired invoice now := by
  rw [InvoiceService.isDue, isPendingInvoiceExpired, ← h.status, ← h.expiresAt]
  refine congrArg _ (decide_eq_decide.mpr ?_)
  show invoice.expiresAt * 1000 ≤ now * 1000 ↔ _
  omega

theorem Agrees.swept {invoice : StoredInvoice} {row : InvoiceRow}
    (h : Agrees invoice row) (now : Int) :
    Agrees (expire now invoice) (InvoiceService.sweepRow now row) := by
  rw [expire, InvoiceService.sweepRow, h.due now]
  split
  · exact ⟨h.memo, rfl, h.version, h.paymentTxHash, h.payerPublicKey,
      h.payerName, h.payerEmail, h.paidAt, h.expiresAt⟩
  · exact h

theorem earlyVersion_expire (h : EarlyVersion invoice) (now : Int) :
    EarlyVersion (expire now invoice) := by
  rcases expire_cases now invoice with ⟨-, heq⟩ | ⟨-, heq⟩
  · rw [heq]
    exact h
  rw [heq]
  exact ⟨nofun, h.2⟩

theorem Twin.swept {s mid : MemoryStorage} {t t' : InvoiceTable}
    (h : Twin s t) {now : Int} (hmid : SweptTo [now] s mid)
    (ht : ∀ id, t'.find id = (t.find id).map (InvoiceService.sweepRow now)) : Twin mid t' where
  wf := hmid.wf h.wf
  records id := by
    rw [hmid.lookup, ht]
    rcases h.cases id with ⟨hs, ht⟩ | ⟨invoice, row, hs, ht, hagree⟩
    · rw [hs, ht]
      exact Option.Rel.none
    rw [hs, ht]
    exact Option.Rel.some (hagree.swept now)
  versions id invoice hlook := by
    rw [hmid.lookup] at hlook
    obtain ⟨stored, hstored, hexp⟩ := Option.map_eq_some_iff.mp hlook
    rw [← hexp]
    exact earlyVersion_expire (h.versions id stored hstored) now
  memoIndex memo := by
    rw [hmid.invoicesByMemo, h.memoIndex]
    constructor
    · rintro ⟨id, invoice, hlook, hmemo⟩
      refine ⟨id, expire now invoice, ?_, ?_⟩
      · rw [hmid.lookup, hlook]
        rfl
      · exact (expireAll_frame StoredInvoice.memo (fun _ => rfl) [now] invoice).trans hmemo
    rintro ⟨id, invoice, hlook, hmemo⟩
    rw [hmid.lookup] at hlook
    obtain ⟨stored, hstored, hexp⟩ := Option.map_eq_some_iff.mp hlook
    refine ⟨id, stored, hstored, ?_⟩
    rw [← hmemo, ← hexp]
    exact (expireAll_frame StoredInvoice.memo (fun _ => rfl) _ stored).symm

/-! ## Versions -/

/-- Both sides take the number for an integer, or neither does. -/
def VersionComparable (value : JsNumber) : Prop :=
  validVersion value = true ↔ ∃ k, integerParam value = .ok k

theorem validVersion_cases {value : JsNumber} (h : validVersion value = true) :
    ∃ k : Nat, value = .ofNat k := by
  cases value with
  | finite q =>
    simp only [validVersion, JsNumber.isSafeInteger, JsNumber.isNegative,
      Bool.and_eq_true, Bool.not_eq_true', decide_eq_true_eq,
      decide_eq_false_iff_not, not_lt] at h
    obtain ⟨⟨hden, -⟩, hneg⟩ := h
    have hnum : (q.num : ℚ) = q := (Rat.den_eq_one_iff q).mp hden
    have hnat : (q.num.toNat : Int) = q.num := Int.toNat_of_nonneg (Rat.num_nonneg.mpr hneg)
    refine ⟨q.num.toNat, ?_⟩
    show JsNumber.finite q = .finite ((q.num.toNat : Nat) : ℚ)
    rw [← Int.cast_natCast, hnat, hnum]
  | posInf => cases h
  | negInf => cases h
  | nan => cases h

theorem integerParam_ofNat {k : Nat} {n : Int} (h : integerParam (.ofNat k) = .ok n) : n = k := by
  simp only [integerParam, JsNumber.ofNat] at h
  split at h
  · split at h
    · cases h
      exact Rat.num_natCast k
    · cases h
  · cases h

theorem VersionComparable.cases {value : JsNumber} (h : VersionComparable value) :
    (∃ k : Nat, value = .ofNat k ∧ validVersion value = true ∧ integerParam value = .ok (k : Int)) ∨
    validVersion value = false ∧ ∃ e, integerParam value = .error e := by
  by_cases hvalid : validVersion value = true
  · obtain ⟨k, rfl⟩ := validVersion_cases hvalid
    obtain ⟨n, hn⟩ := h.mp hvalid
    rw [integerParam_ofNat hn] at hn
    exact .inl ⟨k, rfl, hvalid, hn⟩
  refine .inr ⟨eq_false_of_ne_true hvalid, ?_⟩
  cases hcast : integerParam value with
  | error e => exact ⟨e, rfl⟩
  | ok n => exact absurd (h.mpr ⟨n, hcast⟩) hvalid

theorem ofNat_injective {m n : Nat} (h : JsNumber.ofNat m = .ofNat n) : m = n := by
  injection h with hq
  exact_mod_cast hq

theorem checkVersion_early {n : Nat} (hn : n ≤ 2) (expected : Option JsNumber) :
    checkVersion expected (.ofNat n) = match expected with
      | none => .ok ()
      | some value =>
        if !validVersion value then .error (.invalidVersion .expected value)
        else if value ≠ .ofNat n then .error (.conflict (.ofNat n) value)
        else .ok () := by
  have hvalid : validVersion (.ofNat n) = true := by
    rcases n with _ | _ | _ | n
    · decide
    · decide
    · decide
    · omega
  unfold checkVersion
  rw [hvalid]
  rfl

/-! ## Payment and cancellation in memory -/

/-- What decides a payment in the store, in the order of its checks. -/
def payVerdict (s : MemoryStorage) (id txHash : String)
    (expectedVersion : Option JsNumber) (now : Int) :
    Except InvoiceError StoredInvoice :=
  match s.lookup id with
  | none => .error .notPayable
  | some invoice =>
    if invoice.status ≠ .pending then .error .notPayable
    else if invoice.expiresAt ≤ now then .error .notPayable
    else if s.txHashTaken id txHash then .error (.duplicateTxHash txHash)
    else (checkVersion expectedVersion (.ofNat invoice.versionOr1)).map (fun _ => invoice)

theorem memory_markAsPaid_eq (s : InvoiceMemoryService)
    (id txHash payerPublicKey : String) (payerInfo : Option PayerInfo)
    (expectedVersion : Option JsNumber) (now : Int) :
    ∃ s₁ s₂, SweptTo [now] s.storage s₁ ∧ SweptTo [now, now] s.storage s₂ ∧
      let out := s.markAsPaid id txHash payerPublicKey payerInfo expectedVersion (.at now)
      match InvoiceMemoryService.checkExisting (s₁.lookup id) expectedVersion with
      | .error e => out.1.storage = s₁ ∧ out.2 = .error e
      | .ok _ =>
        match payVerdict s₂ id txHash expectedVersion now with
        | .error e => out.1.storage = s₂ ∧ out.2 = .error e
        | .ok invoice =>
          out.1.storage = s₂.setEntry (updatedRecord invoice
            (paymentUpdate txHash payerPublicKey payerInfo now)) now ∧
          out.2 = .ok s₂.objects.next := by
  obtain ⟨s₁, hs₁, heq⟩ := s.storage.getInvoiceById_eq id now now
  refine ⟨s₁, (s₁.markExpiredInvoices now).1, hs₁, hs₁.trans (sweptTo_markExpired s₁ now), ?_⟩
  have hlook : s₁.lookup id = (s.storage.invoices.get id).bind s₁.objects.read := by
    rw [lookup, hs₁.invoices]
  rw [hlook]
  simp only [InvoiceMemoryService.markAsPaid, Clock.at, heq]
  cases InvoiceMemoryService.checkExisting
      ((s.storage.invoices.get id).bind s₁.objects.read) expectedVersion with
  | error e => exact ⟨rfl, rfl⟩
  | ok _ =>
    simp only [payVerdict, MemoryStorage.markAsPaid]
    generalize (s₁.markExpiredInvoices now).1 = s₂
    cases hinv : s₂.lookup id with
    | none => exact ⟨rfl, rfl⟩
    | some invoice =>
      simp only []
      by_cases hpend : invoice.status ≠ .pending
      · rw [if_pos hpend, if_pos hpend]
        exact ⟨rfl, rfl⟩
      rw [if_neg hpend, if_neg hpend]
      by_cases hdue : invoice.expiresAt ≤ now
      · rw [if_pos hdue, if_pos hdue]
        exact ⟨rfl, rfl⟩
      rw [if_neg hdue, if_neg hdue]
      by_cases htaken : s₂.txHashTaken id txHash = true
      · rw [if_pos htaken, if_pos htaken]
        exact ⟨rfl, rfl⟩
      rw [if_neg htaken, if_neg htaken, updateInvoice_of_check hinv rfl]
      cases checkVersion expectedVersion (.ofNat invoice.versionOr1) with
      | error e => exact ⟨rfl, rfl⟩
      | ok _ => exact ⟨rfl, rfl⟩

/-- What decides a cancellation on the swept store. -/
def cancelVerdict (s : MemoryStorage) (id : String) (expectedVersion : Option JsNumber) :
    Except InvoiceError StoredInvoice :=
  match s.lookup id with
  | none => .error .notCancellable
  | some invoice =>
    match checkExisting (some invoice) expectedVersion with
    | .error e => .error e
    | .ok _ =>
      if invoice.status ≠ .pending then .error .notCancellable
      else (checkVersion expectedVersion (.ofNat invoice.versionOr1)).map (fun _ => invoice)

theorem memory_cancelInvoice_eq (s : InvoiceMemoryService) (id : String)
    (expectedVersion : Option JsNumber) (now : Int) : ∃ s₁, SweptTo [now] s.storage s₁ ∧
      let out := s.cancelInvoice id expectedVersion (.at now)
      match cancelVerdict s₁ id expectedVersion with
      | .error e => out.1.storage = s₁ ∧ out.2 = .error e
      | .ok invoice =>
        out.1.storage = s₁.setEntry (updatedRecord invoice cancellation) now ∧
        out.2 = .ok s₁.objects.next := by
  obtain ⟨s₁, hs₁, heq⟩ := s.storage.getInvoiceById_eq id now now
  refine ⟨s₁, hs₁, ?_⟩
  have hlook : s₁.lookup id = (s.storage.invoices.get id).bind s₁.objects.read := by
    rw [lookup, hs₁.invoices]
  simp only [cancelInvoice, Clock.at, heq, cancelVerdict, ← hlook]
  cases hinv : s₁.lookup id with
  | none => exact ⟨rfl, rfl⟩
  | some invoice =>
    simp only []
    cases checkExisting (some invoice) expectedVersion with
    | error e => exact ⟨rfl, rfl⟩
    | ok _ =>
      simp only []
      by_cases hpend : invoice.status ≠ .pending
      · rw [if_pos hpend, if_pos hpend]
        exact ⟨rfl, rfl⟩
      rw [if_neg hpend, if_neg hpend, updateInvoice_of_check hinv rfl]
      cases checkVersion expectedVersion (.ofNat invoice.versionOr1) with
      | error e => exact ⟨rfl, rfl⟩
      | ok _ => exact ⟨rfl, rfl⟩

variable {out : InvoiceMemoryService × Except InvoiceError Nat}

/-- The object a successful write returns is the record it wrote. -/
theorem contentOf_written {s : MemoryStorage} {invoice : StoredInvoice} {writtenAt : Int}
    (hstore : out.1.storage = s.setEntry invoice writtenAt)
    (hresult : out.2 = .ok s.objects.next) : contentOf out = .ok invoice := by
  rw [contentOf, hresult]
  simp only []
  rw [hstore, objects_setEntry, Heap.read_alloc_self]

theorem contentOf_error {e : InvoiceError} (hresult : out.2 = .error e) :
    contentOf out = .error e := by
  rw [contentOf, hresult]

/-- A sweep with nothing due changes neither store. -/
theorem Twin.quiet {s mid : MemoryStorage} {t : InvoiceTable} (h : Twin s t)
    {times : List Int} (hmid : SweptTo times s mid)
    (hquiet : ∀ now ∈ times, NoneDue s now) : Twin mid t where
  wf := hmid.wf h.wf
  records id := by
    rw [hmid.quiet hquiet]
    exact h.records id
  versions id invoice hlook := by
    rw [hmid.quiet hquiet] at hlook
    exact h.versions id invoice hlook
  memoIndex memo := by
    rw [hmid.invoicesByMemo, h.memoIndex]
    simp only [hmid.quiet hquiet]

variable {invoice : StoredInvoice} {t t' : InvoiceTable} {s : MemoryStorage} {row : InvoiceRow}

/-- The same update on both sides keeps the twins. -/
theorem Twin.update (h : Twin s t) {id : String}
    (hlook : s.lookup id = some invoice) {updates : InvoiceUpdate}
    (hid : updates.id = none) (hmemo : updates.memo = none)
    (hagree : Agrees (updatedRecord invoice updates) row)
    (hearly : EarlyVersion (updatedRecord invoice updates))
    (ht' : ∀ id', t'.find id' = if id = id' then some row else t.find id') (writtenAt : Int) :
    Twin (s.setEntry (updatedRecord invoice updates) writtenAt) t' := by
  have hlook' := lookup_setEntry_update h.wf hlook hid writtenAt
  have hrecid : (updatedRecord invoice updates).id = id := by
    show updates.id.getD invoice.id = id
    rw [hid]
    exact h.wf.lookup_id hlook
  have hrecmemo : (updatedRecord invoice updates).memo = invoice.memo := by
    show updates.memo.getD invoice.memo = _
    rw [hmemo]
    rfl
  refine ⟨wf_setEntry h.wf _ _, ?_, ?_, ?_⟩
  · intro id'
    rw [hlook', ht']
    by_cases heq : id = id'
    · rw [if_pos heq, if_pos heq]
      exact Option.Rel.some hagree
    rw [if_neg heq, if_neg heq]
    exact h.records id'
  · intro id' invoice' hinv
    rw [hlook'] at hinv
    by_cases heq : id = id'
    · rw [if_pos heq] at hinv
      cases hinv
      exact hearly
    rw [if_neg heq] at hinv
    exact h.versions id' invoice' hinv
  · intro memo
    rw [invoicesByMemo_setEntry_of_room s writtenAt
      (.inl (hrecid ▸ h.wf.has_iff.mpr ⟨invoice, hlook⟩)), hrecmemo]
    -- the memo was in the index already, under this very record
    have hin : s.invoicesByMemo.has invoice.memo = true :=
      (h.memoIndex _).mpr ⟨id, invoice, hlook, rfl⟩
    have hhas : (s.invoicesByMemo.set invoice.memo (updatedRecord invoice updates).id).has memo
        = s.invoicesByMemo.has memo := by
      rw [InsertionMap.has, InsertionMap.get_set]
      by_cases hm : invoice.memo = memo
      · rw [if_pos hm, ← hm, hin]
        rfl
      rw [if_neg hm]
      rfl
    rw [hhas, h.memoIndex]
    constructor
    · rintro ⟨id', invoice', hinv, hm⟩
      by_cases heq : id = id'
      · refine ⟨id, updatedRecord invoice updates, ?_, ?_⟩
        · rw [hlook', if_pos rfl]
        rw [← heq, hlook] at hinv
        rw [hrecmemo, Option.some.inj hinv]
        exact hm
      refine ⟨id', invoice', ?_, hm⟩
      rw [hlook', if_neg heq]
      exact hinv
    · rintro ⟨id', invoice', hinv, hm⟩
      rw [hlook'] at hinv
      by_cases heq : id = id'
      · rw [if_pos heq] at hinv
        rw [← Option.some.inj hinv, hrecmemo] at hm
        exact ⟨id, invoice, hlook, hm⟩
      rw [if_neg heq] at hinv
      exact ⟨id', invoice', hinv, hm⟩

/-- So does the same insertion. -/
theorem Twin.insert (h : Twin s t) (hroom : s.invoices.size < s.config.maxEntries)
    (hagree : Agrees invoice row) (hearly : EarlyVersion invoice)
    (ht' : ∀ id', t'.find id' = if invoice.id = id' then some row else t.find id')
    (hfresh : s.lookup invoice.id = none) (writtenAt : Int) :
    Twin (s.setEntry invoice writtenAt) t' := by
  have hlook' : ∀ id', (s.setEntry invoice writtenAt).lookup id'
      = if invoice.id = id' then some invoice else s.lookup id' := by
    intro id'
    by_cases heq : invoice.id = id'
    · rw [if_pos heq, ← heq]
      exact lookup_setEntry_self _ _ _
    rw [if_neg heq]
    exact lookup_setEntry_of_room h.wf writtenAt heq (.inr hroom)
  refine ⟨wf_setEntry h.wf _ _, ?_, ?_, ?_⟩
  · intro id'
    rw [hlook', ht']
    by_cases heq : invoice.id = id'
    · rw [if_pos heq, if_pos heq]
      exact Option.Rel.some hagree
    rw [if_neg heq, if_neg heq]
    exact h.records id'
  · intro id' invoice' hinv
    rw [hlook'] at hinv
    by_cases heq : invoice.id = id'
    · rw [if_pos heq] at hinv
      cases hinv
      exact hearly
    rw [if_neg heq] at hinv
    exact h.versions id' invoice' hinv
  · intro memo
    rw [invoicesByMemo_setEntry_of_room s writtenAt (.inr hroom),
      InsertionMap.has, InsertionMap.get_set]
    by_cases hm : invoice.memo = memo
    · rw [if_pos hm]
      refine iff_of_true rfl ⟨invoice.id, invoice, ?_, hm⟩
      rw [hlook', if_pos rfl]
    rw [if_neg hm]
    refine (h.memoIndex memo).trans ?_
    constructor
    · rintro ⟨id', invoice', hinv, hm'⟩
      refine ⟨id', invoice', ?_, hm'⟩
      rw [hlook', if_neg]
      · exact hinv
      rintro rfl
      rw [hfresh] at hinv
      cases hinv
    · rintro ⟨id', invoice', hinv, hm'⟩
      rw [hlook'] at hinv
      by_cases heq : invoice.id = id'
      · rw [if_pos heq] at hinv
        rw [← Option.some.inj hinv] at hm'
        exact absurd hm' hm
      rw [if_neg heq] at hinv
      exact ⟨id', invoice', hinv, hm'⟩

end Invoices

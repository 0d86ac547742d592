import Inqutum.CacheCoherenceProofs
import Inqutum.ContentSafetyProofs
import Inqutum.LockManagerProofs
import Inqutum.MemoryIndexProofs
import Inqutum.PaymentVerificationProofs

/-!
# Verify requests

`verifyPayment` takes the lock of one invoice, reads the invoice, asks
Horizon for the transaction, verifies it against the invoice and marks the
invoice as paid.  It is interrupted at every `await`; requests for
different invoices run side by side.

Nothing in this serialises two invoices.  What keeps one transaction from
settling both is its memo: a verified transaction carries the memo of the
invoice it settles (`Settled`), a memo belongs to one resident invoice
(`MemoryStorage.Coherent`), and the two spellings of a hash name the same
transaction.  `one_transaction_one_invoice` carries this through every
interleaving.
-/

namespace VerifyRequests

open Invoices MemoryStorage Verification List JsText

/-! ## The checks of the handler -/

/-- `checkInvoiceIsPayable`: only a PENDING invoice may become PAID. -/
def checkInvoiceIsPayable : InvoiceStatus → Except VerificationFailure Unit
  | .paid => .error (failure .invoiceAlreadyPaid)
  | .expired => .error (failure .invoiceExpired)
  | .cancelled => .error (failure .invoiceNotPending)
  | .pending => .ok ()

def isAlphanumeric (c : Char) : Bool := c.isAlpha || c.isDigit

def splitOn (sep : Char) : List Char → List (List Char)
  | [] => [[]]
  | c :: rest =>
    if c = sep then [] :: splitOn sep rest
    else match splitOn sep rest with
      | [] => [[c]]
      | part :: parts => (c :: part) :: parts

/-- `PAYER_EMAIL_PATTERN`: one `@`, a local part, and a domain of at least two
    labels of which the last has letters only. -/
def isPayerEmail (text : String) : Bool :=
  match splitOn '@' text.toList with
  | [localPart, domain] =>
    let labels := splitOn '.' domain
    let top := labels.getLast?.getD []
    !localPart.isEmpty && localPart.all (fun c => isAlphanumeric c
        || c == '.' || c == '_' || c == '+' || c == '-')
      && decide (2 ≤ labels.length)
      && labels.dropLast.all (fun label => !label.isEmpty
        && label.all (fun c => isAlphanumeric c || c == '-'))
      && decide (2 ≤ top.length) && top.all Char.isAlpha
  | _ => false

def maxPayerFieldLength : Nat := 255

/-- A text field of a request body; anything else is an error. -/
def readText (code : VerificationCode) : Option Json → Except VerificationFailure (Option String)
  | none => .ok none
  | some (.str text) => .ok (some text)
  | some _ => .error (failure code)

/-- `checkPayerInfo`; `normalize` is the Unicode normalisation of the
    sanitizer. -/
def checkPayerInfo (normalize : String → String) (payerName payerEmail : Option Json) :
    Except VerificationFailure PayerInfo := do
  let name ← readText .invalidPayerName payerName
  let email ← readText .invalidPayerEmail payerEmail
  let normalizedName := nonEmpty (name.map (ContentSafety.sanitizePlainText normalize false))
  let normalizedEmail := nonEmpty (email.map trim)
  if normalizedEmail.any (fun text => !isPayerEmail text) then
    .error (failure .invalidPayerEmail)
  else if maxPayerFieldLength < (normalizedName.map utf16Length).getD 0
      ∨ maxPayerFieldLength < (normalizedEmail.map utf16Length).getD 0 then
    .error (failure .payerInfoTooLong)
  else .ok ⟨normalizedName, normalizedEmail⟩

/-- `checkTxHash` of a body field. -/
def checkBodyHash : Option Json → Except VerificationFailure String
  | some (.str text) => checkTxHash text
  | _ => .error (failure .missingTxHash)

/-! ## Requests and their steps -/

structure VerifyRequest where
  id : String
  txHash : Option Json := none
  payerName : Option Json := none
  payerEmail : Option Json := none
  network : Option String := none
  version : Option JsNumber := none
  ifMatch : Option String := none

/-- `version ?? (ifMatch ? Number(ifMatch) : undefined)`. -/
def VerifyRequest.expectedVersion (req : VerifyRequest) : Option JsNumber :=
  req.version.or ((nonEmpty req.ifMatch).map JsNumber.ofText)

abbrev TransactionDetails := HorizonTransactionLike × List HorizonOperationLike

/-- What the handlers take from outside. -/
structure World where
  env : Environment
  normalize : String → String
  stellarNetwork : Option String
  /-- The transaction of a hash; `none` if there is none. -/
  horizon : String → Option TransactionDetails
  requests : Nat → VerifyRequest

/-- How a request is answered. -/
inductive Answer where
  | verified (payment : VerifiedPayment)
  | refused (reason : VerificationFailure)
  | invoiceNotFound
  | failed (error : InvoiceError)

/-- Where a request stands between two interruptions. -/
inductive Progress where
  /-- waiting for the lock, or holding it with nothing done -/
  | arrived
  /-- `getInvoiceById` has returned this object -/
  | read (r : Nat)
  /-- `getTransaction` is under way -/
  | fetching (r : Nat)
  | answered (answer : Answer)

structure Server where
  service : InvoiceMemoryService
  locks : Locks.LockManager
  progress : Nat → Progress

/-- The pieces of a request between two interruptions. -/
inductive Event where
  | acquire (k : Nat)
  | resume (k : Nat)
  | read (k : Nat) (clock : Clock)
  | fetch (k : Nat)
  /-- The lookup returns, or throws; then come the payment and, if that
      throws, a second read. -/
  | settle (k : Nat) (returns : Bool) (clock rereadClock : Clock)
  | release (k : Nat)

namespace Server

/-- No request has arrived yet. -/
def init (service : InvoiceMemoryService) : Server where
  service := service
  locks := .init
  progress := fun _ => .arrived

def setProgress (s : Server) (k : Nat) (p : Progress) : Server :=
  { s with progress := Function.update s.progress k p }

def answer (s : Server) (k : Nat) (a : Answer) : Server :=
  s.setProgress k (.answered a)

/-- The request holds its lock. -/
def holdsLock (s : Server) (k : Nat) : Bool :=
  match s.locks.calls k with
  | .returned _ _ released => !released
  | _ => false

variable (w : World)

/-- The checks of the body, then the first read. -/
def readInvoice (s : Server) (k : Nat) (clock : Clock) : Server :=
  let req := w.requests k
  match checkBodyHash req.txHash with
  | .error e => s.answer k (.refused e)
  | .ok _ =>
    match checkPayerInfo w.normalize req.payerName req.payerEmail with
    | .error e => s.answer k (.refused e)
    | .ok _ =>
      let found := s.service.getInvoiceById req.id clock
      let s' := { s with service := found.1 }
      match found.2 with
      | none => s'.answer k .invoiceNotFound
      | some r => s'.setProgress k (.read r)

/-- The status check, by what the object holds now. -/
def fetchTransaction (s : Server) (k r : Nat) : Server :=
  match s.service.storage.objects.read r with
  | none => s
  | some invoice =>
    match checkInvoiceIsPayable invoice.status with
    | .error e => s.answer k (.refused e)
    | .ok _ => s.setProgress k (.fetching r)

/-- What the invoice says the payment must look like. -/
def expectedPayment (invoice : StoredInvoice) : ExpectedPayment where
  memo := invoice.memo
  amount := .number (.finite invoice.amount)
  destination := invoice.sellerPublicKey
  assetCode := invoice.assetCode
  assetIssuer := invoice.assetIssuer
  network := w.stellarNetwork

def verification (req : VerifyRequest) (txHash : String)
    (invoice : StoredInvoice) (details : TransactionDetails) :
    Except VerificationFailure VerifiedPayment :=
  verifyHorizonPayment w.env
    { txHash := txHash
      expected := expectedPayment w invoice
      transaction := details.1
      operations := details.2
      network := req.network }

/-- `markAsPaid`, and the second read if it throws. -/
def markPaid (s : Server) (k : Nat) (payment : VerifiedPayment)
    (payerInfo : PayerInfo) (clock rereadClock : Clock) : Server :=
  let req := w.requests k
  let paid := s.service.markAsPaid req.id payment.txHash payment.fromAddress
    (some payerInfo) req.expectedVersion clock
  match paid.2 with
  | .ok _ => { s with service := paid.1 }.answer k (.verified payment)
  | .error e =>
    let latest := paid.1.getInvoiceById req.id rereadClock
    let s' := { s with service := latest.1 }
    match latest.2.bind latest.1.storage.objects.read with
    | none => s'.answer k (.failed e)
    | some invoice =>
      match checkInvoiceIsPayable invoice.status with
      | .error reason => s'.answer k (.refused reason)
      | .ok _ => s'.answer k (.failed e)

/-- What follows the lookup. -/
def settlePayment (s : Server) (k r : Nat) (returns : Bool) (clock rereadClock : Clock) : Server :=
  let req := w.requests k
  match checkBodyHash req.txHash, checkPayerInfo w.normalize req.payerName req.payerEmail,
      s.service.storage.objects.read r with
  | .ok txHash, .ok payerInfo, some invoice =>
    match if returns then w.horizon txHash else none with
    | none => s.answer k (.refused (failure .transactionNotFound))
    | some details =>
      match verification w req txHash invoice details with
      | .error e => s.answer k (.refused e)
      | .ok payment => s.markPaid w k payment payerInfo clock rereadClock
  | _, _, _ => s

/-- One piece of one request; an event that cannot happen does nothing. -/
def step (s : Server) : Event → Server
  | .acquire k => { s with locks := s.locks.step (.acquire k (w.requests k).id) }
  | .resume k => { s with locks := s.locks.step (.resume k) }
  | .read k clock =>
    match s.progress k with
    | .arrived => if s.holdsLock k then s.readInvoice w k clock else s
    | _ => s
  | .fetch k =>
    match s.progress k with
    | .read r => s.fetchTransaction k r
    | _ => s
  | .settle k returns clock rereadClock =>
    match s.progress k with
    | .fetching r => s.settlePayment w k r returns clock rereadClock
    | _ => s
  | .release k =>
    match s.progress k with
    | .answered _ => { s with locks := s.locks.step (.release k) }
    | _ => s

def run (s : Server) (events : List Event) : Server :=
  events.foldl (fun s e => s.step w e) s

end Server

open Server

/-! ## The memo index under the service -/

/-- A creation carries a memo, as the generator returns one. -/
def HasMemo : ServiceOp → Prop
  | .createInvoice _ memo _ => memo ≠ ""
  | _ => True

theorem coherent_getInvoiceById {s : MemoryStorage}
    (h : Coherent s) (id : String) (sweepAt readAt : Int) :
    Coherent (s.getInvoiceById id sweepAt readAt).1 :=
  (h.swept (sweptTo_markExpired s sweepAt) rfl).readEntry id readAt

variable {s : InvoiceMemoryService}

/-- **THE MEMO INDEX IS KEPT BY EVERY CALL** of the service. -/
theorem coherent_service (h : Coherent s.storage) (clock : Clock) {op : ServiceOp}
    (hop : HasMemo op) : Coherent (op.run s clock).1.storage := by
  have hswept : ∀ now, Coherent (s.storage.markExpiredInvoices now).1 :=
    fun now => h.swept (sweptTo_markExpired s.storage now) rfl
  cases op with
  | createInvoice input memo uuid =>
    show Coherent (s.createInvoice input memo uuid clock).1.storage
    rw [InvoiceMemoryService.createInvoice]
    split
    · exact h
    split
    · exact h
    rename_i expiresAt _
    have hnew : Coherent (s.storage.createInvoice
        (InvoiceMemoryService.newInvoice input memo expiresAt) uuid
        clock.createdAt clock.createdAt clock.writtenAt).1 :=
      h.createInvoice (show (InvoiceMemoryService.newInvoice input memo
        expiresAt).memo ≠ "" from hop) uuid _ _ _
    dsimp only
    split
    · exact hnew
    · exact hnew
  | getInvoiceById id =>
    show Coherent (s.getInvoiceById id clock).1.storage
    rw [InvoiceMemoryService.getInvoiceById]
    dsimp only
    split
    · exact h
    split
    · exact coherent_getInvoiceById h id _ _
    · exact coherent_getInvoiceById h id _ _
  | getInvoiceByMemo memo =>
    exact h.call (c := .getInvoiceByMemo memo clock.sweepAt clock.readAt) trivial
  | markAsPaid id txHash payerPublicKey payerInfo expectedVersion =>
    have hread := coherent_getInvoiceById h id clock.sweepAt clock.readAt
    have hpaid := hread.markAsPaid id txHash payerPublicKey payerInfo
      expectedVersion clock.paySweepAt clock.payNow clock.paidAt
      clock.writtenAt
    show Coherent (s.markAsPaid id txHash payerPublicKey
      payerInfo expectedVersion clock).1.storage
    rw [InvoiceMemoryService.markAsPaid]
    dsimp only
    split
    · exact hread
    split
    · exact hpaid
    · exact hpaid
    · exact hpaid
  | cancelInvoice id expectedVersion =>
    have hread := coherent_getInvoiceById h id clock.sweepAt clock.readAt
    have hupdated : Coherent ((s.storage.getInvoiceById id
        clock.sweepAt clock.readAt).1.updateInvoice id
        InvoiceMemoryService.cancellation expectedVersion
        clock.writtenAt).1 := hread.updateInvoice rfl _ _
    show Coherent (s.cancelInvoice id expectedVersion clock).1.storage
    rw [InvoiceMemoryService.cancelInvoice]
    dsimp only
    split
    · exact hread
    split
    · exact hread
    split
    · exact hread
    split
    · exact hupdated
    · exact hupdated
    · exact hupdated
  | getInvoicesBySeller sellerPublicKey status limit offset after => exact hswept clock.sweepAt
  | getInvoiceStats sellerPublicKey => exact hswept clock.sweepAt
  | getAllInvoices status => exact hswept clock.sweepAt
  | findOverduePendingInvoices cutoff limit => exact h
  | markExpiredInvoices now => exact hswept _
  | invalidateInvoiceCache id => exact h

theorem coherent_runCalls (h : Coherent s.storage) (calls : List Invoices.Call)
    (hcalls : ∀ call ∈ calls, HasMemo call.1) :
    Coherent (runCalls s calls).storage := by
  induction calls generalizing s with
  | nil => exact h
  | cons call rest ih =>
    exact ih (coherent_service h call.2 (hcalls call (.head _)))
      (fun call' hcall' => hcalls call' (.tail _ hcall'))

/-! ## Memos do not change -/

/-- An object keeps its memo, wherever it is held. -/
def MemosKept (s s' : MemoryStorage) : Prop :=
  ∀ r invoice, s.objects.read r = some invoice → ∃ invoice', s'.objects.read r = some invoice'
      ∧ invoice'.memo = invoice.memo

theorem MemosKept.refl (s : MemoryStorage) : MemosKept s s :=
  fun _ invoice h => ⟨invoice, h, rfl⟩

theorem MemosKept.trans {s s' s'' : MemoryStorage} (h : MemosKept s s')
    (h' : MemosKept s' s'') : MemosKept s s'' := by
  intro r invoice hread
  obtain ⟨invoice', hread', hmemo'⟩ := h r invoice hread
  obtain ⟨invoice'', hread'', hmemo''⟩ := h' r invoice' hread'
  exact ⟨invoice'', hread'', hmemo''.trans hmemo'⟩

theorem memosKept_markExpired (s : MemoryStorage) (now : Int) :
    MemosKept s (s.markExpiredInvoices now).1 := by
  intro r invoice hread
  show ∃ invoice', (sweep now s.invoices.values s.objects).1.read r = some invoice' ∧ _
  rw [read_sweep, hread]
  split
  · refine ⟨expire now invoice, rfl, ?_⟩
    exact expireAll_memo [now] invoice
  · exact ⟨invoice, rfl, rfl⟩

theorem objects_readEntry (s : MemoryStorage) (id : String) (readAt : Int) :
    (s.readEntry id readAt).1.objects = s.objects := by
  rw [readEntry]
  split
  · rfl
  · split <;> rfl

theorem memosKept_getInvoiceById (s : MemoryStorage) (id : String) (sweepAt readAt : Int) :
    MemosKept s (s.getInvoiceById id sweepAt readAt).1 := by
  intro r invoice hread
  rw [getInvoiceById, objects_readEntry]
  exact memosKept_markExpired s sweepAt r invoice hread

theorem memosKept_setEntry (s : MemoryStorage) (invoice : StoredInvoice)
    (writtenAt : Int) : MemosKept s (s.setEntry invoice writtenAt) := by
  intro r held hread
  rw [objects_setEntry]
  exact ⟨held, Heap.read_alloc_of_read invoice hread, rfl⟩

/-- What the two calls of the handler do to the service. -/
structure Keeps (s s' : InvoiceMemoryService) : Prop where
  store : Coherent s'.storage
  cache : Coherent s'.storage s'.invoiceCache
  memos : MemosKept s.storage s'.storage
  resident : ∀ id invoice', s'.storage.lookup id = some invoice' →
    ∃ invoice, s.storage.lookup id = some invoice ∧ invoice.memo = invoice'.memo

structure ServiceCoherent (s : InvoiceMemoryService) : Prop where
  store : Coherent s.storage
  cache : Coherent s.storage s.invoiceCache

theorem Keeps.refl (h : ServiceCoherent s) : Keeps s s :=
  ⟨h.store, h.cache, MemosKept.refl _, fun _ invoice hlook => ⟨invoice, hlook, rfl⟩⟩

theorem Keeps.coherent {s s' : InvoiceMemoryService} (h : Keeps s s') :
    ServiceCoherent s' := ⟨h.store, h.cache⟩

theorem Keeps.trans {s s' s'' : InvoiceMemoryService} (h : Keeps s s')
    (h' : Keeps s' s'') : Keeps s s'' := by
  refine ⟨h'.store, h'.cache, h.memos.trans h'.memos, ?_⟩
  intro id invoice'' hlook''
  obtain ⟨invoice', hlook', hmemo'⟩ := h'.resident id invoice'' hlook''
  obtain ⟨invoice, hlook, hmemo⟩ := h.resident id invoice' hlook'
  exact ⟨invoice, hlook, hmemo.trans hmemo'⟩

theorem RecordStep.memo {s : MemoryStorage} {clock : Clock} {id : String}
    {op : ServiceOp} {after : Option StoredInvoice} (h : RecordStep s clock id op after)
    (hop : ∀ input memo uuid, op ≠ .createInvoice input memo uuid)
    {invoice' : StoredInvoice} (hafter : after = some invoice') :
    ∃ invoice, s.lookup id = some invoice ∧ invoice.memo = invoice'.memo := by
  cases h with
  | swept hsub =>
    obtain ⟨stored, hstored, rfl⟩ := Option.map_eq_some_iff.mp hafter
    exact ⟨stored, hstored, (expireAll_memo _ _).symm⟩
  | evicted hother => exact absurd rfl (hop _ _ _)
  | created hfresh => exact absurd rfl (hop _ _ _)
  | paid hlook _ _ _ =>
    cases hafter
    exact ⟨_, hlook, rfl⟩
  | cancelled hlook _ =>
    cases hafter
    exact ⟨_, hlook, rfl⟩

section Service

variable {s : InvoiceMemoryService} {clock : Clock}

theorem keeps_of_call (h : ServiceCoherent s) (clock : Clock) (op : ServiceOp)
    (hop : ∀ input memo uuid, op ≠ .createInvoice input memo uuid)
    (hmemos : MemosKept s.storage (op.run s clock).1.storage) : Keeps s (op.run s clock).1 := by
  have hmemo : HasMemo op := by
    cases op with
    | createInvoice input memo uuid => exact absurd rfl (hop _ _ _)
    | _ => exact trivial
  have heff := run_effect h.store.wf clock op
  refine ⟨coherent_service h.store clock hmemo, heff.coherent h.store.wf h.cache, hmemos, ?_⟩
  intro id invoice' hlook
  exact RecordStep.memo (heff.record h.store.wf id) hop hlook

theorem keeps_getInvoiceById (h : ServiceCoherent s) (id : String) (clock : Clock) :
    Keeps s (s.getInvoiceById id clock).1 := by
  refine keeps_of_call h clock (.getInvoiceById id) (fun _ _ _ hop => nomatch hop) ?_
  show MemosKept s.storage (s.getInvoiceById id clock).1.storage
  rw [InvoiceMemoryService.getInvoiceById]
  dsimp only
  split
  · exact MemosKept.refl _
  split
  · exact memosKept_getInvoiceById _ _ _ _
  · exact memosKept_getInvoiceById _ _ _ _

theorem keeps_markAsPaid (h : ServiceCoherent s)
    (id txHash payerPublicKey : String) (payerInfo : Option PayerInfo)
    (expectedVersion : Option JsNumber) :
    Keeps s (s.markAsPaid id txHash payerPublicKey payerInfo expectedVersion clock).1 := by
  refine keeps_of_call h clock (.markAsPaid id txHash payerPublicKey payerInfo
    expectedVersion) (fun _ _ _ hop => nomatch hop) ?_
  show MemosKept s.storage (s.markAsPaid id txHash payerPublicKey payerInfo
    expectedVersion clock).1.storage
  have hread := memosKept_getInvoiceById s.storage id clock.sweepAt clock.readAt
  have hwf := (coherent_getInvoiceById h.store id clock.sweepAt clock.readAt).wf
  have hpaid : MemosKept s.storage ((s.storage.getInvoiceById id
      clock.sweepAt clock.readAt).1.markAsPaid id txHash payerPublicKey
        payerInfo expectedVersion clock.paySweepAt clock.payNow clock.paidAt
        clock.writtenAt).1 := by
    rcases markAsPaid_cases hwf id txHash payerPublicKey payerInfo
      expectedVersion clock.paySweepAt clock.payNow clock.paidAt
      clock.writtenAt with ⟨out, heq, -⟩ | ⟨invoice, -, -, -, -, -, heq⟩
    · rw [heq]
      exact hread.trans (memosKept_markExpired _ _)
    rw [heq]
    exact (hread.trans (memosKept_markExpired _ _)).trans (memosKept_setEntry _ _ _)
  rw [InvoiceMemoryService.markAsPaid]
  dsimp only
  split
  · exact hread
  split
  · exact hpaid
  · exact hpaid
  · exact hpaid

theorem getInvoiceById_returns (h : ServiceCoherent s) {id : String} {r : Nat}
    (hfound : (s.getInvoiceById id clock).2 = some r) {stored : StoredInvoice}
    (hlook : (s.getInvoiceById id clock).1.storage.lookup id = some stored) :
    (s.getInvoiceById id clock).1.storage.objects.read r = some stored := by
  obtain ⟨r', hget, hread⟩ := lookup_eq_some_iff.mp hlook
  have hsame : r' = r := by
    rw [InvoiceMemoryService.getInvoiceById] at hfound hget
    cases hhit : (s.invoiceCache.get id clock.cacheAt).2 with
    | some cached =>
      simp only [hhit] at hfound hget
      obtain ⟨entry, hentry, -, hvalue⟩ := BoundedCache.get_hit_iff.mp hhit
      rw [(h.cache id entry hentry).2 r' hget, hvalue]
      exact Option.some.inj hfound
    | none =>
      obtain ⟨mid, hmid, heq⟩ := s.storage.getInvoiceById_eq id clock.sweepAt clock.readAt
      simp only [hhit, heq] at hfound hget
      cases hstored : s.storage.invoices.get id with
      | none =>
        simp only [hstored] at hfound
        cases hfound
      | some r₀ =>
        simp only [hstored] at hfound hget
        rw [hmid.invoices, hstored] at hget
        cases hfound
        exact (Option.some.inj hget).symm
  rw [← hsame]
  exact hread

end Service

/-! ## What a settled invoice carries -/

/-- The invoice is paid by a transaction with its memo. -/
def Settled (w : World) (invoice : StoredInvoice) : Prop :=
  ∃ txHash details, invoice.paymentTxHash = some txHash
    ∧ w.horizon txHash = some details ∧ memoOf details.1 = invoice.memo

/-- The invariant of a server that started with the store `start`. -/
structure Sound (w : World) (start : MemoryStorage) (s : Server) : Prop where
  service : ServiceCoherent s.service
  /-- The object a request holds has the memo of the invoice it names. -/
  held : ∀ k r, s.progress k = .read r ∨ s.progress k = .fetching r →
    ∀ stored, s.service.storage.lookup (w.requests k).id = some stored →
      ∃ invoice, s.service.storage.objects.read r = some invoice ∧ invoice.memo = stored.memo
  /-- What is PAID was PAID before, or is settled. -/
  paid : ∀ id invoice, s.service.storage.lookup id = some invoice → invoice.status = .paid →
    (∃ before, start.lookup id = some before ∧ before.status = .paid) ∨ Settled w invoice

section Steps

variable {w : World} {start : MemoryStorage} {s : Server}

theorem Sound.setProgress (h : Sound w start s) (k : Nat) {p : Progress}
    (hp : ∀ r, p = .read r ∨ p = .fetching r →
      ∀ stored, s.service.storage.lookup (w.requests k).id = some stored →
        ∃ invoice, s.service.storage.objects.read r = some invoice ∧ invoice.memo = stored.memo) :
    Sound w start (s.setProgress k p) := by
  refine ⟨h.service, ?_, h.paid⟩
  intro k' r hr
  have hprogress : (s.setProgress k p).progress k' = Function.update s.progress k p k' := rfl
  rw [hprogress] at hr
  by_cases hk : k' = k
  · subst hk
    rw [Function.update_self] at hr
    exact hp r hr
  rw [Function.update_of_ne hk] at hr
  exact h.held k' r hr

theorem Sound.answer (h : Sound w start s) (k : Nat) (a : Answer) :
    Sound w start (s.answer k a) := by
  refine h.setProgress k ?_
  rintro r (hr | hr)
  · cases hr
  · cases hr

theorem Sound.service_step (h : Sound w start s)
    {service : InvoiceMemoryService} (hkeeps : Keeps s.service service)
    (hpaid : ∀ id invoice, service.storage.lookup id = some invoice → invoice.status = .paid →
      s.service.storage.lookup id = some invoice ∨ Settled w invoice) :
    Sound w start { s with service := service } := by
  refine ⟨⟨hkeeps.store, hkeeps.cache⟩, ?_, ?_⟩
  · intro k r hr stored hlook
    obtain ⟨before, hbefore, hmemo⟩ := hkeeps.resident _ _ hlook
    obtain ⟨invoice, hread, hsame⟩ := h.held k r hr before hbefore
    obtain ⟨invoice', hread', hkept⟩ := hkeeps.memos r invoice hread
    exact ⟨invoice', hread', hkept.trans (hsame.trans hmemo)⟩
  intro id invoice hlook hstatus
  rcases hpaid id invoice hlook hstatus with hold | hsettled
  · exact h.paid id invoice hold hstatus
  · exact .inr hsettled

variable {invoice : StoredInvoice} {payment : VerifiedPayment} {txHash : String} {k r : Nat}

theorem read_pays_nothing {s : InvoiceMemoryService} (hwf : WF s.storage)
    {clock : Clock} {id₀ id : String}
    (hlook : (s.getInvoiceById id₀ clock).1.storage.lookup id = some invoice)
    (hstatus : invoice.status = .paid) : s.storage.lookup id = some invoice := by
  have hrecord := (run_effect hwf clock (.getInvoiceById id₀)).record hwf id
  rcases RecordStep.becomes_paid hrecord hlook hstatus with
    hold | ⟨_, _, _, _, _, hop, -⟩
  · exact hold
  · cases hop

theorem Sound.getInvoiceById (h : Sound w start s) (id : String) (clock : Clock) : Sound w start
      { s with service := (s.service.getInvoiceById id clock).1 } := by
  refine h.service_step (keeps_getInvoiceById h.service id clock) ?_
  intro id' invoice hlook hstatus
  exact .inl (read_pays_nothing h.service.store.wf hlook hstatus)

theorem Sound.readInvoice (h : Sound w start s) (k : Nat) (clock : Clock) :
    Sound w start (s.readInvoice w k clock) := by
  have hread := h.getInvoiceById (w.requests k).id clock
  rw [Server.readInvoice]
  dsimp only
  split
  · exact h.answer k _
  split
  · exact h.answer k _
  split
  · exact hread.answer k _
  rename_i r hfound
  refine hread.setProgress k ?_
  intro r' hr' stored hlook
  have hsame : r' = r := by
    rcases hr' with hr' | hr'
    · exact (Progress.read.inj hr').symm
    · cases hr'
  rw [hsame]
  exact ⟨stored, getInvoiceById_returns h.service hfound hlook, rfl⟩

theorem Sound.fetchTransaction (h : Sound w start s) (hprogress : s.progress k = .read r) :
    Sound w start (s.fetchTransaction k r) := by
  rw [Server.fetchTransaction]
  split
  · exact h
  split
  · exact h.answer k _
  refine h.setProgress k ?_
  intro r' hr' stored hlook
  have hsame : r' = r := by
    rcases hr' with hr' | hr'
    · cases hr'
    · exact (Progress.fetching.inj hr').symm
  rw [hsame]
  exact h.held k r (.inl hprogress) stored hlook

theorem trim_of_checkBodyHash {field : Option Json}
    (h : checkBodyHash field = .ok txHash) : trim txHash = txHash := by
  rw [checkBodyHash.eq_def] at h
  split at h
  · rename_i text
    rw [checkTxHash] at h
    split at h
    · cases h
    dsimp only at h
    split at h
    · rw [← Except.ok.inj h, trim_trim]
    · cases h
  · cases h

theorem verification_ok {req : VerifyRequest} (htrim : trim txHash = txHash)
    {details : TransactionDetails}
    (hok : verification w req txHash invoice details = .ok payment) :
    payment.txHash = txHash ∧ memoOf details.1 = invoice.memo := by
  have hpasses := passes_of_verify hok
  obtain ⟨op, -, -, heq⟩ := verify_of_passes hpasses
  have hvalue := Except.ok.inj (hok.symm.trans heq)
  refine ⟨?_, hpasses .memo⟩
  rw [hvalue]
  exact htrim

theorem Sound.markPaid (h : Sound w start s) {k : Nat} (payerInfo : PayerInfo)
    (clock rereadClock : Clock)
    (hsettles : ∀ stored, s.service.storage.lookup (w.requests k).id = some stored →
      ∃ details, w.horizon payment.txHash = some details ∧ memoOf details.1 = stored.memo) :
    Sound w start (s.markPaid w k payment payerInfo clock rereadClock) := by
  have hstep : Sound w start { s with
      service := (s.service.markAsPaid (w.requests k).id payment.txHash
        payment.fromAddress (some payerInfo) (w.requests k).expectedVersion
        clock).1 } := by
    refine h.service_step (keeps_markAsPaid h.service _ _ _ _ _) ?_
    intro id invoice hlook hstatus
    have hrecord := (run_effect h.service.store.wf clock (.markAsPaid
      (w.requests k).id payment.txHash payment.fromAddress (some payerInfo)
      (w.requests k).expectedVersion)).record h.service.store.wf id
    rcases RecordStep.paid_record hrecord hlook hstatus with
      hold | ⟨txHash, _, _, _, stored, hop, hstored, -, -, hhash, hmemo⟩
    · exact .inl hold
    injection hop with hid htx
    obtain ⟨details, hfound, hsame⟩ := hsettles stored (hid ▸ hstored)
    refine .inr ⟨txHash, details, hhash, ?_, ?_⟩
    · rw [← htx]
      exact hfound
    rw [hmemo]
    exact hsame
  have hreread := hstep.getInvoiceById (w.requests k).id rereadClock
  rw [Server.markPaid]
  dsimp only
  split
  · exact hstep.answer k _
  split
  · exact hreread.answer k _
  split
  · exact hreread.answer k _
  · exact hreread.answer k _

theorem Sound.settlePayment (h : Sound w start s)
    (hprogress : s.progress k = .fetching r) (returns : Bool) (clock rereadClock : Clock) :
    Sound w start (s.settlePayment w k r returns clock rereadClock) := by
  rw [Server.settlePayment]
  split
  · rename_i txHash payerInfo invoice hhash _ hread
    split
    · exact h.answer k _
    rename_i details hfound
    have hdetails : w.horizon txHash = some details := by
      split at hfound
      · exact hfound
      · cases hfound
    split
    · exact h.answer k _
    rename_i payment hok
    obtain ⟨htx, hmemo⟩ := verification_ok (trim_of_checkBodyHash hhash) hok
    refine h.markPaid payerInfo clock rereadClock ?_
    intro stored hlook
    obtain ⟨invoice', hread', hsame⟩ := h.held k r (.inr hprogress) stored hlook
    rw [hread] at hread'
    cases hread'
    refine ⟨details, ?_, hmemo.trans hsame⟩
    rw [htx]
    exact hdetails
  · exact h

/-- **EVERY PIECE OF EVERY REQUEST** keeps the invariant. -/
theorem Sound.step (h : Sound w start s) (e : Event) : Sound w start (s.step w e) := by
  cases e with
  | acquire k => exact ⟨h.service, h.held, h.paid⟩
  | resume k => exact ⟨h.service, h.held, h.paid⟩
  | read k clock =>
    rw [Server.step]
    split
    · split
      · exact h.readInvoice k clock
      · exact h
    · exact h
  | fetch k =>
    rw [Server.step]
    split
    · rename_i r hprogress
      exact h.fetchTransaction hprogress
    · exact h
  | settle k returns clock rereadClock =>
    rw [Server.step]
    split
    · rename_i r hprogress
      exact h.settlePayment hprogress returns clock rereadClock
    · exact h
  | release k =>
    rw [Server.step]
    split
    · exact ⟨h.service, h.held, h.paid⟩
    · exact h

theorem Sound.run (h : Sound w start s) (events : List Event) : Sound w start (s.run w events) := by
  induction events generalizing s with
  | nil => exact h
  | cons e rest ih => exact ih (h.step e)

/-- A piece of a request keeps what is resident and every memo. -/
theorem keeps_step (h : ServiceCoherent s.service) (e : Event) :
    Keeps s.service (s.step w e).service := by
  have hrefl := Keeps.refl h
  cases e with
  | acquire k => exact hrefl
  | resume k => exact hrefl
  | read k clock =>
    have hread : Keeps s.service (s.service.getInvoiceById (w.requests k).id clock).1 :=
      keeps_getInvoiceById h _ clock
    rw [step]
    split
    · split
      · rw [readInvoice]
        dsimp only
        split
        · exact hrefl
        split
        · exact hrefl
        split
        · exact hread
        · exact hread
      · exact hrefl
    · exact hrefl
  | fetch k =>
    rw [step]
    split
    · rw [fetchTransaction]
      split
      · exact hrefl
      split
      · exact hrefl
      · exact hrefl
    · exact hrefl
  | settle k returns clock rereadClock =>
    rw [step]
    split
    · rw [settlePayment]
      split
      · rename_i txHash payerInfo invoice _ _ _
        split
        · exact hrefl
        split
        · exact hrefl
        rename_i payment _
        have hpaid : Keeps s.service (s.service.markAsPaid (w.requests k).id payment.txHash
              payment.fromAddress (some payerInfo)
              (w.requests k).expectedVersion clock).1 :=
          keeps_markAsPaid h _ _ _ _ _
        have hreread := hpaid.trans (keeps_getInvoiceById
          hpaid.coherent (w.requests k).id rereadClock)
        rw [markPaid]
        dsimp only
        split
        · exact hpaid
        split
        · exact hreread
        split
        · exact hreread
        · exact hreread
      · exact hrefl
    · exact hrefl
  | release k =>
    rw [step]
    split
    · exact hrefl
    · exact hrefl

theorem keeps_run (h : ServiceCoherent s.service) (events : List Event) :
    Keeps s.service (s.run w events).service := by
  induction events generalizing s with
  | nil => exact Keeps.refl h
  | cons e rest ih =>
    have hstep := keeps_step (w := w) h e
    exact hstep.trans (ih hstep.coherent)

end Steps

/-! ## One transaction, one invoice -/

/-- The two spellings differ in letter case only. -/
def SameTransaction (txHash txHash' : String) : Prop :=
  txHash.map Char.toLower = txHash'.map Char.toLower

def BecamePaid (start now : MemoryStorage) (id txHash : String) : Prop :=
  ∃ invoice, now.lookup id = some invoice ∧ invoice.status = .paid
    ∧ invoice.paymentTxHash = some txHash
    ∧ ∀ before, start.lookup id = some before → before.status ≠ .paid

theorem sound_init (w : World) {service : InvoiceMemoryService} (h : ServiceCoherent service) :
    Sound w service.storage (init service) := by
  refine ⟨h, ?_, ?_⟩
  · rintro k r (hr | hr)
    · cases hr
    · cases hr
  intro id invoice hlook hstatus
  exact .inl ⟨invoice, hlook, hstatus⟩

theorem serviceCoherent_runCalls (config : StorageConfig)
    (cacheEntries : Option Nat) (ttlMs : Option Int)
    (setup : List Invoices.Call) (hsetup : ∀ call ∈ setup, HasMemo call.1) :
    ServiceCoherent (runCalls (.init config cacheEntries ttlMs) setup) := by
  refine ⟨coherent_runCalls (coherent_init config) setup hsetup, ?_⟩
  exact (Invoices.coherent_calls (run_runCalls _ setup) (wf_init config)
    (Invoices.coherent_init config cacheEntries ttlMs)).2

theorem Sound.settled {w : World} {start : MemoryStorage} {s : Server}
    (h : Sound w start s) {id txHash : String}
    (hpaid : BecamePaid start s.service.storage id txHash) :
    ∃ invoice details, s.service.storage.lookup id = some invoice ∧ w.horizon txHash = some details
      ∧ memoOf details.1 = invoice.memo := by
  obtain ⟨invoice, hlook, hstatus, hhash, hbefore⟩ := hpaid
  rcases h.paid id invoice hlook hstatus with
    ⟨before, hstart, hwas⟩ | ⟨txHash', details, hhash', hfound, hmemo⟩
  · exact absurd hwas (hbefore before hstart)
  rw [hhash] at hhash'
  cases hhash'
  exact ⟨invoice, details, hlook, hfound, hmemo⟩

/-- **ONE TRANSACTION SETTLES ONE INVOICE**: whatever the invoices are and
    however the verify requests interleave, if an invoice becomes PAID with
    one spelling of a hash and later, or at the same time, an invoice is PAID
    with a spelling of the same hash, it is the same invoice. -/
theorem one_transaction_one_invoice (w : World)
    (hhorizon : ∀ txHash txHash', SameTransaction txHash txHash' →
      w.horizon txHash = w.horizon txHash')
    (config : StorageConfig) (cacheEntries : Option Nat)
    (ttlMs : Option Int) (setup : List Invoices.Call)
    (hsetup : ∀ call ∈ setup, HasMemo call.1)
    (events later : List Event) (id id' txHash txHash' : String)
    (hpaid : BecamePaid (runCalls (.init config cacheEntries ttlMs) setup).storage
      ((init (runCalls (.init config cacheEntries ttlMs) setup)).run w
        events).service.storage id txHash)
    (hpaid' : BecamePaid (runCalls (.init config cacheEntries ttlMs) setup).storage
      ((init (runCalls (.init config cacheEntries ttlMs) setup)).run w
        (events ++ later)).service.storage id' txHash')
    (hsame : SameTransaction txHash txHash') : id = id' := by
  have hcoherent := serviceCoherent_runCalls config cacheEntries ttlMs setup hsetup
  have hsound := (sound_init w hcoherent).run events
  have hsound' := (sound_init w hcoherent).run (events ++ later)
  obtain ⟨invoice, details, hlook, hfound, hmemo⟩ := hsound.settled hpaid
  obtain ⟨invoice', details', hlook', hfound', hmemo'⟩ := hsound'.settled hpaid'
  -- the later invoice was resident, with its memo, when the first was paid
  rw [run, foldl_append] at hlook'
  obtain ⟨earlier, hearlier, hkept⟩ := (keeps_run hsound.service later).resident id' invoice' hlook'
  rw [← hhorizon txHash txHash' hsame, hfound] at hfound'
  cases hfound'
  refine hsound.service.store.memo_unique hlook hearlier ?_
  rw [hkept, ← hmemo, ← hmemo']

def sampleHash (digit : Char) : String :=
  String.ofList (replicate 64 digit)

/-- One transaction, which pays 5 XLM to `G` with the memo of the first
    invoice, and a request for each of two invoices, in both spellings. -/
def sampleWorld : World where
  env := { muxedAccountId := fun _ _ => none }
  normalize := id
  stellarNetwork := some "TESTNET"
  horizon := fun txHash =>
    if txHash.map Char.toLower = sampleHash 'a' then
      some ({ memo := some "INV-1" },
        [{ type := "payment", fromAddress := some "P", toAddress := some "G",
           amount := some "5", assetType := some "native" }])
    else none
  requests := fun k =>
    if k = 0 then { id := "a", txHash := some (.str (sampleHash 'a')) }
    else { id := "b", txHash := some (.str (sampleHash 'A')) }

/-- The pieces of one request. -/
def sampleEvents (k : Nat) : List Event :=
  [.acquire k, .read k (.at 1), .fetch k, .settle k true (.at 1) (.at 1), .release k]

theorem sample_becamePaid : ∀ later ∈ [[], sampleEvents 1],
    BecamePaid (runCalls sampleService ((sampleCalls "").take 2)).storage
      ((init (runCalls sampleService ((sampleCalls "").take 2))).run
        sampleWorld (sampleEvents 0 ++ later)).service.storage "a" (sampleHash 'a') := by
  -- one evaluation of the first request serves both runs
  have hnow : ∀ later ∈ [[], sampleEvents 1], (((init (runCalls sampleService
      ((sampleCalls "").take 2))).run sampleWorld
      (sampleEvents 0 ++ later)).service.storage.lookup "a").map
        (fun invoice => (invoice.status, invoice.paymentTxHash))
      = some (.paid, some (sampleHash 'a')) := by decide +kernel
  have hstart : ((runCalls sampleService ((sampleCalls "").take 2)).storage.lookup "a").map
        StoredInvoice.status = some .pending := by decide +kernel
  intro later hlater
  obtain ⟨invoice, hlook, hpair⟩ := Option.map_eq_some_iff.mp (hnow later hlater)
  obtain ⟨hstatus, hhash⟩ := Prod.mk.inj hpair
  refine ⟨invoice, hlook, hstatus, hhash, ?_⟩
  intro before hbefore
  rw [hbefore, Option.map_some, Option.some.injEq] at hstart
  rw [hstart]
  decide

/-- Both requests run.  The first settles its invoice, which stays settled,
    and whatever is settled by a spelling of the hash is that invoice. -/
theorem one_transaction_one_invoice_sample :
    BecamePaid (runCalls sampleService ((sampleCalls "").take 2)).storage
      ((init (runCalls sampleService ((sampleCalls "").take 2))).run
        sampleWorld (sampleEvents 0 ++ sampleEvents 1)).service.storage "a"
        (sampleHash 'a') ∧
    ∀ id txHash, SameTransaction (sampleHash 'a') txHash → BecamePaid
      (runCalls sampleService ((sampleCalls "").take 2)).storage
      ((init (runCalls sampleService ((sampleCalls "").take 2))).run
        sampleWorld (sampleEvents 0 ++ sampleEvents 1)).service.storage id
        txHash → "a" = id := by
  refine ⟨sample_becamePaid _ (.tail _ (.head _)), ?_⟩
  intro id txHash hsame hpaid
  refine one_transaction_one_invoice sampleWorld ?_ (.ofOptions none none)
    none none ((sampleCalls "").take 2) ?_ (sampleEvents 0) (sampleEvents 1)
    "a" id (sampleHash 'a') txHash (sample_becamePaid [] (.head _))
    hpaid hsame
  · intro txHash txHash' hsame
    show (if txHash.map Char.toLower = _ then _ else _)
      = (if txHash'.map Char.toLower = _ then _ else _)
    rw [hsame]
  intro call hcall
  simp only [sampleCalls, take_succ_cons, take_zero,
    mem_cons, not_mem_nil, or_false] at hcall
  rcases hcall with rfl | rfl
  · show "INV-1" ≠ ""
    decide
  show "INV-2" ≠ ""
  decide

end VerifyRequests

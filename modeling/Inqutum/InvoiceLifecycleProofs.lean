import Inqutum.InvoiceMemoryServiceProofs

/-!
# The life of an invoice in the in-memory backend

PENDING is the only state a record leaves.  A PAID, CANCELLED or EXPIRED
record is frozen for as long as it is resident, and PAID is entered only
by a payment of a PENDING record that is not yet due.

A payment refuses a transaction hash that another stored invoice carries,
but it takes an EMPTY stored hash for no hash at all.  Hashes are
therefore unique along every run that pays with the empty hash only while
no other invoice carries it, and only along those.
-/

namespace Invoices

open MemoryStorage Transition

/-- One call with its clock readings. -/
abbrev Call := ServiceOp × Clock

def Step (s : InvoiceMemoryService) (call : Call) (s' : InvoiceMemoryService) :
    Prop :=
  s' = (call.1.run s call.2).1

/-- A step after which `id` is still resident. -/
def StepKeeping (id : String) (s : InvoiceMemoryService) (call : Call)
    (s' : InvoiceMemoryService) : Prop :=
  Step s call s' ∧ s'.storage.lookup id ≠ none

/-- A call that pays with the empty hash finds it on no other invoice. -/
def EmptyHashFree (s : MemoryStorage) (op : ServiceOp) : Prop :=
  ∀ id payerPublicKey payerInfo expectedVersion,
    op = .markAsPaid id "" payerPublicKey payerInfo expectedVersion →
    ∀ other invoice, other ≠ id → s.lookup other = some invoice → invoice.paymentTxHash ≠ some ""

def StepHashed (s : InvoiceMemoryService) (call : Call) (s' : InvoiceMemoryService) : Prop :=
  Step s call s' ∧ EmptyHashFree s.storage call.1

/-- No two resident invoices carry the same transaction hash. -/
def HashesUnique (s : MemoryStorage) : Prop :=
  ∀ id id' invoice invoice' hash, s.lookup id = some invoice → s.lookup id' = some invoice' →
    invoice.paymentTxHash = some hash → invoice'.paymentTxHash = some hash →
    id = id'

/-! ## One step -/

variable {call : Call} {invoice : StoredInvoice}

theorem Step.wf {s s' : InvoiceMemoryService}
    (h : Step s call s') (hwf : WF s.storage) : WF s'.storage := by
  rw [h]
  exact (run_effect hwf call.2 call.1).wf hwf

theorem Step.record {s s' : InvoiceMemoryService}
    (h : Step s call s') (hwf : WF s.storage) (id : String) :
    RecordStep s.storage call.2 id call.1 (s'.storage.lookup id) := by
  rw [h]
  exact (run_effect hwf call.2 call.1).record hwf id

variable {s : MemoryStorage} {clock : Clock} {id : String} {op : ServiceOp}
  {after : Option StoredInvoice}

theorem RecordStep.final (h : RecordStep s clock id op after) (hlook : s.lookup id = some invoice)
    (hfinal : invoice.status ≠ .pending) : after = some invoice ∨ after = none := by
  cases h with
  | @swept _ times _ =>
    rw [hlook, Option.map_some]
    rcases expireAll_cases times invoice with heq | ⟨⟨t, -, hexp⟩, -⟩
    · exact .inl (congrArg some heq)
    · exact absurd ((isPendingInvoiceExpired_iff invoice t).mp hexp).1 hfinal
  | evicted _ => exact .inr rfl
  | created hfresh =>
    rw [hlook] at hfresh
    cases hfresh
  | paid hlook' hpending _ _ =>
    rw [hlook] at hlook'
    exact absurd (Option.some.inj hlook' ▸ hpending) hfinal
  | cancelled hlook' hpending =>
    rw [hlook] at hlook'
    exact absurd (Option.some.inj hlook' ▸ hpending) hfinal

theorem RecordStep.paid_record (h : RecordStep s clock id op after) (hafter : after = some invoice)
    (hpaid : invoice.status = .paid) : s.lookup id = some invoice ∨
    ∃ txHash payerPublicKey payerInfo expectedVersion stored,
      op = .markAsPaid id txHash payerPublicKey payerInfo expectedVersion ∧
      s.lookup id = some stored ∧ stored.status = .pending ∧
      clock.payNow < stored.expiresAt ∧ invoice.paymentTxHash = some txHash ∧
      invoice.memo = stored.memo := by
  cases h with
  | @swept _ times _ =>
    obtain ⟨stored, hstored, hexp⟩ := Option.map_eq_some_iff.mp hafter
    rcases expireAll_cases times stored with heq | ⟨-, heq⟩
    · rw [hstored, ← hexp, heq]
      exact .inl rfl
    rw [← hexp, heq] at hpaid
    cases hpaid
  | evicted _ => cases hafter
  | created _ =>
    rw [← Option.some.inj hafter] at hpaid
    cases hpaid
  | paid hlook hpending hdue _ =>
    cases hafter
    exact .inr ⟨_, _, _, _, _, rfl, hlook, hpending, hdue, rfl, rfl⟩
  | cancelled _ _ =>
    rw [← Option.some.inj hafter] at hpaid
    cases hpaid

theorem RecordStep.becomes_paid (h : RecordStep s clock id op after) (hafter : after = some invoice)
    (hpaid : invoice.status = .paid) : s.lookup id = some invoice ∨
    ∃ txHash payerPublicKey payerInfo expectedVersion stored,
      op = .markAsPaid id txHash payerPublicKey payerInfo expectedVersion ∧
      s.lookup id = some stored ∧ stored.status = .pending ∧ clock.payNow < stored.expiresAt := by
  refine (h.paid_record hafter hpaid).imp_right ?_
  rintro ⟨_, _, _, _, _, hop, hlook, hpending, hdue, -⟩
  exact ⟨_, _, _, _, _, hop, hlook, hpending, hdue⟩

/-- A hash found on a record was there before, or the call just paid with it
    while no other invoice carried it (unless it is empty). -/
theorem RecordStep.hash (h : RecordStep s clock id op after)
    {invoice : StoredInvoice} (hafter : after = some invoice)
    {hash : String} (hhash : invoice.paymentTxHash = some hash) :
    (∃ stored, s.lookup id = some stored ∧ stored.paymentTxHash = some hash) ∨
    (∃ payerPublicKey payerInfo expectedVersion,
      op = .markAsPaid id hash payerPublicKey payerInfo expectedVersion) ∧
    (hash ≠ "" → ∀ other invoice', other ≠ id → s.lookup other = some invoice' →
      invoice'.paymentTxHash ≠ some hash) := by
  cases h with
  | @swept _ times _ =>
    obtain ⟨stored, hstored, hexp⟩ := Option.map_eq_some_iff.mp hafter
    rw [← hexp, expireAll_frame StoredInvoice.paymentTxHash (fun _ => rfl)] at hhash
    exact .inl ⟨stored, hstored, hhash⟩
  | evicted _ => cases hafter
  | created _ =>
    rw [← Option.some.inj hafter] at hhash
    cases hhash
  | paid hlook hpending hdue hfree =>
    rw [← Option.some.inj hafter] at hhash
    cases hhash
    exact .inr ⟨⟨_, _, _, rfl⟩, hfree⟩
  | @cancelled _ stored hlook _ =>
    rw [← Option.some.inj hafter] at hhash
    exact .inl ⟨stored, hlook, hhash⟩

theorem HashesUnique.step {s s' : InvoiceMemoryService}
    (hwf : WF s.storage) (hstep : StepHashed s call s')
    (h : HashesUnique s.storage) : HashesUnique s'.storage := by
  -- a hash the call just wrote is on no other stored invoice
  have hnew : ∀ id id' invoice' hash, (∃ payerPublicKey payerInfo expectedVersion,
        call.1 = .markAsPaid id hash payerPublicKey payerInfo expectedVersion) →
      (hash ≠ "" → ∀ other invoice', other ≠ id → s.storage.lookup other = some invoice' →
        invoice'.paymentTxHash ≠ some hash) →
      s.storage.lookup id' = some invoice' →
      invoice'.paymentTxHash = some hash → id = id' := by
    intro id id' invoice' hash hpay hfree hlook' hhash'
    obtain ⟨payerPublicKey, payerInfo, expectedVersion, hop⟩ := hpay
    by_contra hne
    by_cases hempty : hash = ""
    · subst hempty
      exact hstep.2 id payerPublicKey payerInfo expectedVersion hop id'
        invoice' (Ne.symm hne) hlook' hhash'
    · exact hfree hempty id' invoice' (Ne.symm hne) hlook' hhash'
  intro id id' invoice invoice' hash hlook hlook' hhash hhash'
  rcases (hstep.1.record hwf id).hash hlook hhash with
    ⟨stored, hstored, hold⟩ | ⟨hpay, hfree⟩
  · rcases (hstep.1.record hwf id').hash hlook' hhash' with
      ⟨stored', hstored', hold'⟩ | ⟨hpay', hfree'⟩
    · exact h id id' stored stored' hash hstored hstored' hold hold'
    · exact (hnew id' id stored hash hpay' hfree' hstored hold).symm
  rcases (hstep.1.record hwf id').hash hlook' hhash' with
    ⟨stored', hstored', hold'⟩ | ⟨⟨pk, info, ver, hop'⟩, -⟩
  · exact hnew id id' stored' hash hpay hfree hstored' hold'
  obtain ⟨pk', info', ver', hop⟩ := hpay
  rw [hop] at hop'
  injection hop'

/-! ## Whole runs -/

/-- The state after a list of calls. -/
def runCalls (s : InvoiceMemoryService) (calls : List Call) :
    InvoiceMemoryService :=
  calls.foldl (fun s call => (call.1.run s call.2).1) s

theorem run_runCalls (s : InvoiceMemoryService) (calls : List Call) :
    Run Step s calls (runCalls s calls) := by
  induction calls generalizing s with
  | nil => exact Run.nil s
  | cons call rest ih => exact Run.cons rfl (ih _)

variable {calls : List Call}

theorem Run.wf {s s' : InvoiceMemoryService}
    (hrun : Run Step s calls s') (hwf : WF s.storage) : WF s'.storage :=
  hrun.invariant (fun _ _ _ hwf hstep => hstep.wf hwf) hwf

theorem frozen_run {id : String} {invoice : StoredInvoice}
    (hfinal : invoice.status ≠ .pending) {s s' : InvoiceMemoryService} (hwf : WF s.storage)
    (hrun : Run (StepKeeping id) s calls s') (hlook : s.storage.lookup id = some invoice) :
    s'.storage.lookup id = some invoice := by
  have hinv := hrun.invariant (P := fun s => WF s.storage ∧ s.storage.lookup id = some invoice) ?_
    ⟨hwf, hlook⟩
  · exact hinv.2
  rintro s call s' ⟨hwf, hlook⟩ ⟨hstep, hresident⟩
  refine ⟨hstep.wf hwf, ?_⟩
  rcases (hstep.record hwf id).final hlook hfinal with heq | hnone
  · exact heq
  · exact absurd hnone hresident

theorem hashesUnique_run {s s' : InvoiceMemoryService}
    (hwf : WF s.storage) (h : HashesUnique s.storage)
    (hrun : Run StepHashed s calls s') : HashesUnique s'.storage := by
  have hinv := hrun.invariant (P := fun s => WF s.storage ∧ HashesUnique s.storage) ?_ ⟨hwf, h⟩
  · exact hinv.2
  rintro s call s' ⟨hwf, h⟩ hstep
  exact ⟨hstep.1.wf hwf, HashesUnique.step hwf hstep h⟩

/-- **THE LIFE CYCLE, OVER EVERY RUN**: in every state a run of calls reaches,
    a PAID, CANCELLED or EXPIRED record stays as it is for as long as it is
    resident; PAID is entered only by a payment of a PENDING record whose
    expiry is strictly after the clock; and if the run paid with the empty
    hash only while no other resident invoice carried it, no two resident
    invoices share a transaction hash. -/
theorem invoice_life_cycle (config : StorageConfig)
    (cacheEntries : Option Nat) (ttlMs : Option Int) (calls : List Call)
    (s : InvoiceMemoryService)
    (hrun : Run Step (.init config cacheEntries ttlMs) calls s) :
    (∀ id invoice, s.storage.lookup id = some invoice → invoice.status ≠ .pending →
      ∀ calls' s', Run (StepKeeping id) s calls' s' → s'.storage.lookup id = some invoice) ∧
    (∀ (call : Call) id invoice, (call.1.run s call.2).1.storage.lookup id = some invoice →
      invoice.status = .paid →
      (∀ stored, s.storage.lookup id = some stored → stored.status ≠ .paid) →
      ∃ txHash payerPublicKey payerInfo expectedVersion stored,
        call.1 = .markAsPaid id txHash payerPublicKey payerInfo expectedVersion ∧
        s.storage.lookup id = some stored ∧ stored.status = .pending ∧
        call.2.payNow < stored.expiresAt) ∧
    (Run StepHashed (.init config cacheEntries ttlMs) calls s →
      HashesUnique s.storage) := by
  have hinit : WF (InvoiceMemoryService.init config cacheEntries ttlMs).storage := wf_init config
  have hwf : WF s.storage := Run.wf hrun hinit
  refine ⟨?_, ?_, ?_⟩
  · intro id invoice hlook hfinal calls' s' hkeep
    exact frozen_run hfinal hwf hkeep hlook
  · intro call id invoice hlook hpaid hbefore
    have hstep : Step s call (call.1.run s call.2).1 := rfl
    rcases (hstep.record hwf id).becomes_paid hlook hpaid with
      hold | hpay
    · exact absurd hpaid (hbefore invoice hold)
    · exact hpay
  · intro hguarded
    refine hashesUnique_run hinit ?_ hguarded
    intro id id' invoice invoice' hash hlook
    cases hlook

/-- Two invoices, the first one paid; amounts and keys are arbitrary. -/
def sampleCalls (firstHash : String) : List Call :=
  let input : CreateInvoiceInput := { sellerPublicKey := "G", amount := 5 }
  [(.createInvoice input "INV-1" "a", .at 0), (.createInvoice input "INV-2" "b", .at 0),
    (.markAsPaid "a" firstHash "P" none none, .at 1)]

def sampleService : InvoiceMemoryService :=
  .init (.ofOptions none none) none none

/-- A run that pays with a hash, and what the life cycle says about it. -/
theorem invoice_life_cycle_paid :
    ((runCalls sampleService (sampleCalls "h")).storage.lookup "a").map
      StoredInvoice.status = some .paid ∧
    HashesUnique (runCalls sampleService (sampleCalls "h")).storage := by
  refine ⟨by decide, ?_⟩
  refine (invoice_life_cycle (.ofOptions none none) none none
    (sampleCalls "h") _ (run_runCalls sampleService _)).2.2 ?_
  refine Run.cons ⟨rfl, ?_⟩ (Run.cons ⟨rfl, ?_⟩ (Run.cons ⟨rfl, ?_⟩ (Run.nil _)))
  · intro id payerPublicKey payerInfo expectedVersion hop
    cases hop
  · intro id payerPublicKey payerInfo expectedVersion hop
    cases hop
  intro id payerPublicKey payerInfo expectedVersion hop
  injection hop with _ hhash
  exact absurd hhash (by decide)

/-- Two payments with the empty hash both go through: the guard of the second
    takes the stored empty hash for no hash. -/
theorem two_invoices_share_empty_hash :
    ¬ ∀ calls s, Run Step sampleService calls s → HashesUnique s.storage := by
  intro h
  have hshared := h (sampleCalls "" ++ [(.markAsPaid "b" "" "Q" none none,
    .at 2)]) _ (run_runCalls _ _) "a" "b"
  have hhash : ∀ id ∈ ["a", "b"], ∃ invoice, (runCalls sampleService (sampleCalls "" ++
        [(.markAsPaid "b" "" "Q" none none, .at 2)])).storage.lookup id
        = some invoice ∧ invoice.paymentTxHash = some "" := by
    intro id hid
    rw [← Option.map_eq_some_iff (f := StoredInvoice.paymentTxHash)]
    revert id
    decide
  obtain ⟨invoice, hlook, ha⟩ := hhash "a" (by decide)
  obtain ⟨invoice', hlook', hb⟩ := hhash "b" (by decide)
  exact absurd (hshared invoice invoice' "" hlook hlook' ha hb) (by decide)

end Invoices

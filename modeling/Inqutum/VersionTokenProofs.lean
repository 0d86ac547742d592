import Inqutum.InvoiceLifecycleProofs

/-!
# The version as a concurrency token

A record's version is the token a client sends back: equal tokens should
mean equal contents.  Creation, payment, cancellation and `updateInvoice`
all write a new version.  The expiry sweep does not: it moves PENDING
records to EXPIRED in place and leaves their version alone, in the
explicit call as in the lazy sweep inside every read.

So the token is sound along the runs in which no sweep finds a record to
expire (and no `updateInvoice` redirects its write onto another stored
invoice), and a single sweep of an overdue record breaks it.
-/

namespace Invoices

open MemoryStorage Transition

/-- A call of the service, or a write made straight to its store. -/
inductive BackendOp where
  | service (op : ServiceOp)
  | updateInvoice (id : String) (updates : InvoiceUpdate) (expectedVersion : Option JsNumber)

namespace BackendOp

def run (s : InvoiceMemoryService) (clock : Clock) : BackendOp → InvoiceMemoryService
  | service op => (op.run s clock).1
  | updateInvoice id updates expectedVersion =>
    { s with
      storage := (s.storage.updateInvoice id updates expectedVersion clock.writtenAt).1 }

def sweepTimes (clock : Clock) : BackendOp → List Int
  | service op => op.sweepTimes clock
  | updateInvoice .. => []

/-- The id under which a call may introduce a record. -/
def introduces : BackendOp → Option String
  | service (.createInvoice _ _ uuid) => some uuid
  | service _ => none
  | updateInvoice id updates _ =>
    if updates.id = some id then none else updates.id

end BackendOp

abbrev BackendCall := BackendOp × Clock

/-- No sweep of the call finds a record to expire. -/
def NothingDue (s : MemoryStorage) (call : BackendCall) : Prop :=
  ∀ now ∈ call.1.sweepTimes call.2, NoneDue s now

/-- An update that carries another id does not aim at a stored invoice. -/
def KeepsIds (s : MemoryStorage) (op : BackendOp) : Prop :=
  ∀ id updates expectedVersion id', op = .updateInvoice id updates expectedVersion →
    updates.id = some id' → id' ≠ id → s.lookup id' = none

/-- A step that sweeps nothing away and redirects no write. -/
def StepQuiet (s : InvoiceMemoryService) (call : BackendCall) (s' : InvoiceMemoryService) : Prop :=
  s' = call.1.run s call.2 ∧ NothingDue s.storage call ∧ KeepsIds s.storage call.1

theorem nothingDue_of_contents {s : MemoryStorage} {call : BackendCall}
    (h : (call.1.sweepTimes call.2).all (fun now =>
      s.contents.all (fun invoice => !isPendingInvoiceExpired invoice now)) = true) :
    NothingDue s call := by
  intro now hnow
  exact noneDue_of_contents (List.all_eq_true.mp h now hnow)

/-- `after` is the same content, or a later version. -/
def Succeeds (before after : StoredInvoice) : Prop :=
  after = before ∨ before.versionOr1 < after.versionOr1

theorem Succeeds.trans {a b c : StoredInvoice} (h : Succeeds a b)
    (h' : Succeeds b c) : Succeeds a c := by
  rcases h with rfl | hlt
  · exact h'
  rcases h' with rfl | hlt'
  · exact .inr hlt
  · exact .inr (Nat.lt_trans hlt hlt')

theorem succeeds_updated (invoice : StoredInvoice) (updates : InvoiceUpdate) :
    Succeeds invoice (updatedRecord invoice updates) :=
  .inr (Nat.lt_succ_self _)

/-! ## One step -/

variable {invoice : StoredInvoice} {s : MemoryStorage} {id : String} {call : BackendCall}

/-- A record found after a quiet call of the service has an earlier version
    before it, unless the call created it. -/
theorem RecordStep.succeeds {clock : Clock} {op : ServiceOp} {after : Option StoredInvoice}
    (h : RecordStep s clock id op after) (hquiet : NothingDue s (.service op, clock))
    (hafter : after = some invoice) :
    (∃ stored, s.lookup id = some stored ∧ Succeeds stored invoice) ∨
    s.lookup id = none ∧ (BackendOp.service op).introduces = some id := by
  cases h with
  | @swept _ times hsub =>
    obtain ⟨stored, hstored, hexp⟩ := Option.map_eq_some_iff.mp hafter
    refine .inl ⟨stored, hstored, Or.inl ?_⟩
    rcases expireAll_cases times stored with heq | ⟨⟨now, hmem, hdue⟩, -⟩
    · rw [← hexp, heq]
    rw [hquiet now (hsub hmem) id stored hstored] at hdue
    cases hdue
  | evicted _ => cases hafter
  | created hfresh => exact .inr ⟨hfresh, rfl⟩
  | paid hlook _ _ _ =>
    cases hafter
    exact .inl ⟨_, hlook, succeeds_updated _ _⟩
  | cancelled hlook _ =>
    cases hafter
    exact .inl ⟨_, hlook, succeeds_updated _ _⟩

theorem wf_updateInvoice (hwf : WF s) (id : String)
    (updates : InvoiceUpdate) (expectedVersion : Option JsNumber) (writtenAt : Int) :
    WF (s.updateInvoice id updates expectedVersion writtenAt).1 := by
  rcases s.updateInvoice_cases id updates expectedVersion writtenAt with
    ⟨out, heq, -⟩ | ⟨stored, memoIndex, -, -, heq⟩
  · rw [heq]
    exact hwf
  rw [heq]
  exact wf_setEntry (s := { s with invoicesByMemo := memoIndex }) hwf _ _

theorem updateInvoice_succeeds (hwf : WF s) {id₀ : String} {updates : InvoiceUpdate}
    {expectedVersion : Option JsNumber} {writtenAt : Int}
    (hkeeps : KeepsIds s (.updateInvoice id₀ updates expectedVersion))
    (hafter : (s.updateInvoice id₀ updates expectedVersion writtenAt).1.lookup id = some invoice) :
    (∃ stored, s.lookup id = some stored ∧ Succeeds stored invoice) ∨
    s.lookup id = none ∧ (BackendOp.updateInvoice id₀ updates expectedVersion).introduces
        = some id := by
  rcases s.updateInvoice_cases id₀ updates expectedVersion writtenAt with
    ⟨out, heq, -⟩ | ⟨stored, memoIndex, hlook, -, heq⟩
  · rw [heq] at hafter
    exact .inl ⟨invoice, hafter, .inl rfl⟩
  rw [heq] at hafter
  have hwf' : WF { s with invoicesByMemo := memoIndex } := hwf
  by_cases hid : (updatedRecord stored updates).id = id
  · -- the written record: a new version, or a redirected write
    subst hid
    rw [lookup_setEntry_self] at hafter
    cases hafter
    by_cases hsame : updates.id.getD id₀ = id₀
    · have hrec : (updatedRecord stored updates).id = id₀ := by
        show updates.id.getD stored.id = id₀
        rw [hwf.lookup_id hlook]
        exact hsame
      rw [hrec]
      exact .inl ⟨stored, hlook, succeeds_updated _ _⟩
    · cases hupd : updates.id with
      | none =>
        rw [hupd] at hsame
        exact absurd rfl hsame
      | some id' =>
        have hrec : (updatedRecord stored updates).id = id' := by
          show updates.id.getD stored.id = id'
          rw [hupd]
          rfl
        rw [hupd] at hsame
        rw [hrec]
        refine .inr ⟨hkeeps _ _ _ id' rfl hupd hsame, ?_⟩
        show (if updates.id = some id₀ then none else updates.id) = _
        rw [hupd, if_neg]
        exact fun h => hsame (Option.some.inj h)
  · rcases lookup_setEntry_of_ne hwf' writtenAt hid with hsame | hnone
    · rw [hsame] at hafter
      exact .inl ⟨invoice, hafter, .inl rfl⟩
    rw [hnone] at hafter
    cases hafter

theorem StepQuiet.wf {s s' : InvoiceMemoryService}
    (h : StepQuiet s call s') (hwf : WF s.storage) : WF s'.storage := by
  obtain ⟨op, clock⟩ := call
  rw [h.1]
  cases op with
  | service op => exact (run_effect hwf clock op).wf hwf
  | updateInvoice id updates expectedVersion =>
    exact wf_updateInvoice hwf id updates expectedVersion _

/-- **ONE QUIET STEP**: a record found after the step was there before with
    the same content or an earlier version, unless the step introduced it. -/
theorem StepQuiet.succeeds {s s' : InvoiceMemoryService}
    (h : StepQuiet s call s') (hwf : WF s.storage) (hafter : s'.storage.lookup id = some invoice) :
    (∃ stored, s.storage.lookup id = some stored ∧ Succeeds stored invoice) ∨
    s.storage.lookup id = none ∧ call.1.introduces = some id := by
  obtain ⟨op, clock⟩ := call
  obtain ⟨heq, hdue, hkeeps⟩ := h
  subst heq
  cases op with
  | service op => exact ((run_effect hwf clock op).record hwf id).succeeds hdue hafter
  | updateInvoice id₀ updates expectedVersion => exact updateInvoice_succeeds hwf hkeeps hafter

/-! ## Whole runs -/

variable {s s' : InvoiceMemoryService} {calls : List BackendCall} {invoice : StoredInvoice}
  {id : String}

theorem resident_introduced (hrun : Run StepQuiet s calls s') (hwf : WF s.storage)
    (hlook : s'.storage.lookup id = some invoice) : (∃ stored, s.storage.lookup id = some stored) ∨
    id ∈ calls.filterMap (fun call => call.1.introduces) := by
  induction hrun generalizing invoice with
  | nil s => exact .inl ⟨invoice, hlook⟩
  | @cons s s₁ s' call rest hstep _ ih =>
    rw [List.filterMap_cons]
    rcases ih (hstep.wf hwf) hlook with ⟨stored, hstored⟩ | hmem
    · rcases hstep.succeeds hwf hstored with ⟨old, hold, -⟩ | ⟨-, hint⟩
      · exact .inl ⟨old, hold⟩
      rw [hint]
      exact .inr (.head _)
    cases call.1.introduces with
    | none => exact .inr hmem
    | some id' => exact .inr (.tail _ hmem)

theorem succeeds_run (hrun : Run StepQuiet s calls s') (hwf : WF s.storage)
    (hnot : id ∉ calls.filterMap (fun call => call.1.introduces))
    (hlook : s'.storage.lookup id = some invoice) : ∃ stored, s.storage.lookup id = some stored ∧
      Succeeds stored invoice := by
  induction hrun generalizing invoice with
  | nil s => exact ⟨invoice, hlook, .inl rfl⟩
  | @cons s s₁ s' call rest hstep _ ih =>
    have hnot' : call.1.introduces ≠ some id ∧
        id ∉ rest.filterMap (fun call => call.1.introduces) := by
      rw [List.filterMap_cons] at hnot
      cases hint : call.1.introduces with
      | none =>
        rw [hint] at hnot
        refine ⟨?_, hnot⟩
        intro h
        cases h
      | some id' =>
        rw [hint] at hnot
        refine ⟨?_, fun h => hnot (.tail _ h)⟩
        intro h
        exact hnot (Option.some.inj h ▸ (.head _))
    obtain ⟨mid, hmid, hsucc⟩ := ih (hstep.wf hwf) hnot'.2 hlook
    rcases hstep.succeeds hwf hmid with ⟨old, hold, hfirst⟩ | ⟨-, hint⟩
    · exact ⟨old, hold, hfirst.trans hsucc⟩
    · exact absurd hint hnot'.1

/-- **THE TOKEN IS SOUND ALONG QUIET RUNS**: from every state such a run
    reaches, a quiet step that changes a stored invoice raises its version;
    and two observations of one id with equal versions are of equal contents,
    where generated ids are never generated twice. -/
theorem version_token_sound (config : StorageConfig)
    (cacheEntries : Option Nat) (ttlMs : Option Int)
    (calls : List BackendCall) (s : InvoiceMemoryService)
    (hrun : Run StepQuiet (.init config cacheEntries ttlMs) calls s) :
    (∀ call s', StepQuiet s call s' → ∀ id before after, s.storage.lookup id = some before →
      s'.storage.lookup id = some after → after ≠ before →
      before.versionOr1 < after.versionOr1) ∧
    (∀ calls' s', Run StepQuiet s calls' s' → ((calls ++ calls').filterMap
        (fun call => call.1.introduces)).Nodup →
      ∀ id first second, s.storage.lookup id = some first → s'.storage.lookup id = some second →
        first.versionOr1 = second.versionOr1 → first = second) := by
  have hinit : WF (InvoiceMemoryService.init config cacheEntries ttlMs).storage := wf_init config
  have hwf : WF s.storage :=
    hrun.invariant (P := fun s => WF s.storage) (fun _ _ _ hwf hstep => hstep.wf hwf) hinit
  refine ⟨?_, ?_⟩
  · intro call s' hstep id before after hbefore hafter hne
    rcases hstep.succeeds hwf hafter with ⟨stored, hstored, hsucc⟩ | ⟨hno, -⟩
    · rw [hbefore] at hstored
      rw [← Option.some.inj hstored] at hsucc
      exact hsucc.resolve_left hne
    rw [hbefore] at hno
    cases hno
  · intro calls' s' hrun' hnodup id first second hfirst hsecond hver
    -- the id was introduced by the first part of the run, so not by the rest
    have hin : id ∈ calls.filterMap (fun call => call.1.introduces) := by
      rcases resident_introduced hrun hinit hfirst with ⟨stored, hno⟩ | hmem
      · cases hno
      · exact hmem
    rw [List.filterMap_append] at hnodup
    have hnot := fun h => (List.disjoint_of_nodup_append hnodup) hin h
    obtain ⟨stored, hstored, hsucc⟩ := succeeds_run hrun' hwf hnot hsecond
    rw [hfirst] at hstored
    rw [← Option.some.inj hstored] at hsucc
    rcases hsucc with heq | hlt
    · exact heq.symm
    · exact absurd hver (Nat.ne_of_lt hlt)

/-- An invoice is created, then cancelled by a client that holds its token:
    the version moves from 1 to 2. -/
theorem version_token_sound_cancelled : ∃ s s' : InvoiceMemoryService,
      (s.storage.lookup "a").map StoredInvoice.version = some (some 1) ∧
      (s'.storage.lookup "a").map StoredInvoice.version = some (some 2) ∧
      ∀ before after, s.storage.lookup "a" = some before →
        s'.storage.lookup "a" = some after → after ≠ before →
        before.versionOr1 < after.versionOr1 := by
  let create : BackendCall :=
    (.service (.createInvoice { sellerPublicKey := "G", amount := 5 } "INV-1" "a"), .at 0)
  let cancel : BackendCall := (.service (.cancelInvoice "a" (some 1)), .at 1)
  let s := create.1.run sampleService create.2
  have hkeeps : ∀ (s : MemoryStorage) op, KeepsIds s (.service op) :=
    fun s op id updates ver id' hop => nomatch hop
  have hcreate : StepQuiet sampleService create s :=
    ⟨rfl, nothingDue_of_contents (by decide), hkeeps _ _⟩
  have hcancel : StepQuiet s cancel (cancel.1.run s cancel.2) :=
    ⟨rfl, nothingDue_of_contents (by decide), hkeeps _ _⟩
  refine ⟨s, cancel.1.run s cancel.2, by decide, by decide, ?_⟩
  exact (version_token_sound (.ofOptions none none) none none [create] s
    (Run.cons hcreate (Run.nil _))).1 cancel _ hcancel "a"

/-- A sweep past the expiry changes the status and not the version: the two
    states of the invoice carry one token. -/
theorem sweep_keeps_version : ¬ ∀ (calls : List BackendCall) (call : BackendCall) id before after,
      let s := calls.foldl (fun s call => call.1.run s call.2) sampleService
      s.storage.lookup id = some before →
      (call.1.run s call.2).storage.lookup id = some after →
      after ≠ before → before.versionOr1 < after.versionOr1 := by
  intro h
  have hsweep := h [(.service (.createInvoice { sellerPublicKey := "G", amount := 5 }
      "INV-1" "a"), .at 0)]
    (.service (.markExpiredInvoices none), .at (8 * dayInMs)) "a"
    (newRecord (InvoiceMemoryService.newInvoice
      { sellerPublicKey := "G", amount := 5 } "INV-1" (7 * dayInMs)) "a" 0 0)
    { newRecord (InvoiceMemoryService.newInvoice
        { sellerPublicKey := "G", amount := 5 } "INV-1" (7 * dayInMs)) "a" 0 0
      with status := .expired } rfl rfl
  refine absurd (hsweep ?_) (by decide)
  intro heq
  cases congrArg StoredInvoice.status heq

end Invoices

import Inqutum.InvoiceLifecycleProofs

/-!
# The read cache against the store

A cached entry is the address of an object, and writes replace both the
stored and the cached address.  So as long as an id is resident, a cached
address IS the stored one (`Coherent`), and the in-place sweep is seen
through both.

What a cache hit skips is the sweep of a store read, and nothing drops a
cached entry when the store evicts its invoice.  These are the only two
ways in which a service read and a store read can differ, and each of them
always shows: `service_read_eq_store_read_iff` is an equivalence.
-/

namespace Invoices

open MemoryStorage Transition

/-- Every cached address is live, and is the stored one if the id is
    resident. -/
def Coherent (s : MemoryStorage) (cache : BoundedCache Nat) : Prop :=
  ∀ key entry, cache.entries.get key = some entry → entry.value < s.objects.next ∧
    ∀ r, s.invoices.get key = some r → r = entry.value

theorem coherent_init (config : StorageConfig) (cacheEntries : Option Nat) (ttlMs : Option Int) :
    Coherent (.init config) (.init cacheEntries ttlMs) := by
  intro key entry h
  cases h

variable {s s' : InvoiceMemoryService} {cache : BoundedCache Nat}

theorem Coherent.sweptTo {times : List Int} {s mid : MemoryStorage} (h : Coherent s cache)
    (hmid : SweptTo times s mid) : Coherent mid cache := by
  intro key entry hentry
  rw [hmid.next, hmid.invoices]
  exact h key entry hentry

theorem Coherent.serves {s : MemoryStorage} {cache cache' : BoundedCache Nat}
    (h : Coherent s cache) (hwf : WF s) (hserve : Serves s cache cache') : Coherent s cache' := by
  intro key entry hentry
  rcases hserve key entry hentry with hold | hstored
  · exact h key entry hold
  obtain ⟨invoice, hread, -⟩ := hwf key entry.value hstored
  refine ⟨Heap.read_lt hread, ?_⟩
  intro r hr
  rw [hstored] at hr
  exact (Option.some.inj hr).symm

theorem Coherent.write {s : MemoryStorage} (h : Coherent s cache) (invoice : StoredInvoice)
    (writtenAt storedAt : Int) :
    Coherent (s.setEntry invoice writtenAt) (cache.set invoice.id s.objects.next storedAt) := by
  intro key entry hentry
  rw [objects_setEntry, Heap.next_alloc]
  rcases BoundedCache.get_set_cases hentry with
    ⟨hkey, hvalue⟩ | ⟨hkey, hold⟩
  · rw [hvalue, ← hkey, get_setEntry_self]
    refine ⟨Nat.lt_succ_self _, ?_⟩
    intro r hr
    exact (Option.some.inj hr).symm
  obtain ⟨hlive, hsame⟩ := h key entry hold
  refine ⟨Nat.lt_succ_of_lt hlive, ?_⟩
  intro r hr
  rcases get_setEntry_of_ne s writtenAt hkey with heq | hnone
  · exact hsame r (heq ▸ hr)
  rw [hnone] at hr
  cases hr

/-- **COHERENCE IS KEPT BY EVERY CALL**. -/
theorem Effect.coherent {clock : Clock}
    {op : ServiceOp} (h : Effect s clock op s') (hwf : WF s.storage)
    (hcoh : Coherent s.storage s.invoiceCache) : Coherent s'.storage s'.invoiceCache := by
  cases h with
  | read _ hmid hcache => exact (hcoh.serves hwf hcache).sweptTo hmid
  | created _ _ => exact hcoh.write _ _ _
  | @paid id _ _ _ _ mid invoice hmid hlook _ _ _ =>
    have hid : invoice.id = id := (hmid.wf hwf).lookup_id hlook
    subst hid
    exact ((hcoh.serves hwf (serves_invalidate _ _ _)).sweptTo hmid).write
      (updatedRecord invoice _) _ _
  | @cancelled id _ mid invoice hmid hlook _ =>
    have hid : invoice.id = id := (hmid.wf hwf).lookup_id hlook
    subst hid
    exact ((hcoh.serves hwf (serves_invalidate _ _ _)).sweptTo hmid).write
      (updatedRecord invoice _) _ _

theorem coherent_calls {calls : List Call} (hrun : Run Step s calls s') (hwf : WF s.storage)
    (hcoh : Coherent s.storage s.invoiceCache) :
    WF s'.storage ∧ Coherent s'.storage s'.invoiceCache := by
  refine hrun.invariant (P := fun s =>
    WF s.storage ∧ Coherent s.storage s.invoiceCache) ?_ ⟨hwf, hcoh⟩
  rintro s call s' ⟨hwf, hcoh⟩ hstep
  rw [hstep]
  have heff := run_effect hwf call.2 call.1
  exact ⟨heff.wf hwf, heff.coherent hwf hcoh⟩

/-! ## The two reads -/

/-- What `InvoiceMemoryService.getInvoiceById` returns, by content. -/
def serviceRead (s : InvoiceMemoryService) (id : String) (clock : Clock) :
    Option StoredInvoice :=
  let out := s.getInvoiceById id clock
  out.2.bind out.1.storage.objects.read

/-- What `MemoryStorage.getInvoiceById` returns, by content. -/
def storeRead (s : MemoryStorage) (id : String) (clock : Clock) :
    Option StoredInvoice :=
  let out := s.getInvoiceById id clock.sweepAt clock.readAt
  out.2.bind out.1.objects.read

/-- A fresh cache entry answers for a resident record that is not overdue. -/
def HitIsCurrent (s : InvoiceMemoryService) (id : String) (clock : Clock) :
    Prop :=
  ∀ entry, s.invoiceCache.entries.get id = some entry →
    s.invoiceCache.isStale entry clock.cacheAt = false →
    ∃ invoice, s.storage.lookup id = some invoice ∧
      isPendingInvoiceExpired invoice clock.sweepAt = false

theorem storeRead_eq (s : MemoryStorage) (id : String) (clock : Clock) :
    storeRead s id clock = (s.lookup id).map (expire clock.sweepAt) := by
  obtain ⟨mid, hmid, heq⟩ := s.getInvoiceById_eq id clock.sweepAt clock.readAt
  have hlook : mid.lookup id = (s.invoices.get id).bind mid.objects.read := by
    rw [lookup, hmid.invoices]
  show (s.getInvoiceById id clock.sweepAt clock.readAt).2.bind
    (s.getInvoiceById id clock.sweepAt clock.readAt).1.objects.read = _
  rw [heq, ← hlook, hmid.lookup]
  rfl

variable {s : InvoiceMemoryService} {clock : Clock} {id : String}

theorem serviceRead_miss (hmiss : (s.invoiceCache.get id clock.cacheAt).2 = none) :
    serviceRead s id clock = storeRead s.storage id clock := by
  rw [serviceRead, storeRead, InvoiceMemoryService.getInvoiceById, hmiss]
  cases hfound : (s.storage.getInvoiceById id clock.sweepAt clock.readAt).2 with
  | none => simp only [hfound]
  | some r => simp only [hfound]

theorem serviceRead_hit {r : Nat} (hhit : (s.invoiceCache.get id clock.cacheAt).2 = some r) :
    serviceRead s id clock = s.storage.objects.read r := by
  rw [serviceRead, InvoiceMemoryService.getInvoiceById, hhit]
  rfl

/-- **WHEN THE CACHE TELLS THE TRUTH**: in every reachable state, for every id
    and every clock, the service returns what the store would return at that
    moment exactly when a fresh cache entry for the id, if there is one, is
    for a resident invoice that is not overdue.  The store never returns an
    overdue PENDING invoice or an evicted one. -/
theorem service_read_eq_store_read_iff (config : StorageConfig)
    (cacheEntries : Option Nat) (ttlMs : Option Int) (calls : List Call)
    (s : InvoiceMemoryService)
    (hrun : Run Step (.init config cacheEntries ttlMs) calls s)
    (id : String) (clock : Clock) :
    (serviceRead s id clock = storeRead s.storage id clock ↔ HitIsCurrent s id clock) ∧
    (∀ invoice, storeRead s.storage id clock = some invoice →
      isPendingInvoiceExpired invoice clock.sweepAt = false ∧
      s.storage.invoices.has id = true) := by
  obtain ⟨hwf, hcoh⟩ := coherent_calls hrun (wf_init config)
    (coherent_init config cacheEntries ttlMs)
  refine ⟨?_, ?_⟩
  · cases hget : (s.invoiceCache.get id clock.cacheAt).2 with
    | none =>
      refine iff_of_true (serviceRead_miss hget) ?_
      intro entry hentry hfresh
      have hhit := BoundedCache.get_hit_iff.mpr ⟨entry, hentry, hfresh, rfl⟩
      rw [hget] at hhit
      cases hhit
    | some r =>
      obtain ⟨entry, hentry, hfresh, hvalue⟩ := BoundedCache.get_hit_iff.mp hget
      obtain ⟨hlive, hsame⟩ := hcoh id entry hentry
      obtain ⟨cached, hcached⟩ := Heap.read_of_lt hlive
      rw [serviceRead_hit hget, storeRead_eq, ← hvalue, hcached]
      constructor
      · -- equal answers: the id is resident and the sweep is no change
        intro heq entry' hentry' _
        obtain ⟨invoice, hlook, hexp⟩ := Option.map_eq_some_iff.mp heq.symm
        refine ⟨invoice, hlook, ?_⟩
        obtain ⟨r', hr', hread⟩ := lookup_eq_some_iff.mp hlook
        rw [hsame r' hr', hcached] at hread
        rw [← Option.some.inj hread, ← hexp]
        exact not_overdue_expire _ _
      · intro hcurrent
        obtain ⟨invoice, hlook, hnot⟩ := hcurrent entry hentry hfresh
        obtain ⟨r', hr', hread⟩ := lookup_eq_some_iff.mp hlook
        rw [hsame r' hr', hcached] at hread
        rw [hlook, Option.map_some, Option.some.inj hread]
        rcases expire_cases clock.sweepAt invoice with
          ⟨-, heq⟩ | ⟨hyes, -⟩
        · rw [heq]
        rw [hnot] at hyes
        cases hyes
  · intro invoice hread
    rw [storeRead_eq] at hread
    obtain ⟨stored, hlook, hexp⟩ := Option.map_eq_some_iff.mp hread
    refine ⟨?_, hwf.has_iff.mpr ⟨stored, hlook⟩⟩
    rw [← hexp]
    exact not_overdue_expire _ _

/-- Right after its creation an invoice is served from the cache, as the
    store would serve it. -/
theorem service_read_eq_store_read_created :
    let s := runCalls sampleService ((sampleCalls "h").take 2)
    (s.invoiceCache.get "a" 0).2 = some 0 ∧
    serviceRead s "a" (.at 0) = storeRead s.storage "a" (.at 0) := by
  refine ⟨by decide, ?_⟩
  refine (service_read_eq_store_read_iff (.ofOptions none none) none none
    ((sampleCalls "h").take 2) _ (run_runCalls sampleService _) "a"
    (.at 0)).1.mpr ?_
  intro entry _ _
  exact ⟨_, rfl, by decide⟩

/-- Read one second before its expiry, the invoice is cached; one second after
    it, the service still serves it as PENDING while the store has expired
    it. -/
theorem cached_pending_after_expiry : ¬ ∀ calls s, Run Step sampleService calls s → ∀ id clock,
      serviceRead s id clock = storeRead s.storage id clock := by
  intro h
  have heq := h ((sampleCalls "h").take 2 ++ [(.getInvoiceById "a", .at (7 * dayInMs - 1000))]) _
    (run_runCalls _ _) "a" (.at (7 * dayInMs + 1000))
  have hstatus := congrArg (Option.map StoredInvoice.status) heq
  revert hstatus
  decide

end Invoices

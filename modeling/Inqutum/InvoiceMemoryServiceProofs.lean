import Inqutum.MemoryStorageProofs
import Inqutum.TransitionProofs

/-!
# The in-memory invoice service

`InvoiceMemoryService` puts a bounded read cache in front of
`MemoryStorage`.  The cache holds the same objects as the store: an entry
is an address and the instant it was cached at.  A call reads several
clocks (the cache's, the store's, the system's) at several moments; a
`Clock` names all of these readings, with nothing assumed about how they
compare.

`run_effect` says once what a call can do: sweep and touch the cache, or
create, pay or cancel one record.  `Effect.record` is its reading for the
record under one id.  The whole-run results only use these.
-/

namespace Invoices

/-! ## The read cache -/

structure CacheEntry (T : Type) where
  value : T
  storedAt : Int

/-- `BoundedCache`: least recently used first. -/
structure BoundedCache (T : Type) where
  maxEntries : Nat
  ttlMs : Int
  maxEntries_pos : 1 ≤ maxEntries
  entries : InsertionMap String (CacheEntry T)

namespace BoundedCache

variable {T : Type}

def init (maxEntries : Option Nat) (ttlMs : Option Int) : BoundedCache T where
  maxEntries := max 1 (maxEntries.getD 1000)
  ttlMs := ttlMs.getD 60000
  maxEntries_pos := Nat.le_max_left ..
  entries := InsertionMap.empty

/-- The `while` loop of `set`; every round drops one entry. -/
def dropOldest (maxEntries : Nat) : Nat →
    InsertionMap String (CacheEntry T) → InsertionMap String (CacheEntry T)
  | 0, entries => entries
  | fuel + 1, entries =>
    if maxEntries < entries.size then
      match entries.oldest with
      | none => entries
      | some oldestKey => dropOldest maxEntries fuel (entries.delete oldestKey)
    else entries

def set (c : BoundedCache T) (key : String) (value : T) (now : Int) :
    BoundedCache T :=
  let written := (c.entries.delete key).set key ⟨value, now⟩
  { c with entries := dropOldest c.maxEntries written.size written }

def isStale (c : BoundedCache T) (entry : CacheEntry T) (now : Int) : Bool :=
  decide (c.ttlMs ≤ now - entry.storedAt)

/-- `get`: a stale entry is removed, a fresh one becomes the most recent. -/
def get (c : BoundedCache T) (key : String) (now : Int) : BoundedCache T × Option T :=
  match c.entries.get key with
  | none => (c, none)
  | some entry =>
    if c.isStale entry now then
      ({ c with entries := c.entries.delete key }, none)
    else
      ({ c with entries := (c.entries.delete key).set key entry }, some entry.value)

def invalidate (c : BoundedCache T) (key : String) : BoundedCache T :=
  { c with entries := c.entries.delete key }

def invalidateAll (c : BoundedCache T) : BoundedCache T :=
  { c with entries := InsertionMap.empty }

variable {entry : CacheEntry T} {c : BoundedCache T} {key key' : String} {now : Int} {value : T}

theorem get_dropOldest {maxEntries fuel : Nat}
    {entries : InsertionMap String (CacheEntry T)} {key : String}
    (h : (dropOldest maxEntries fuel entries).get key = some entry) :
    entries.get key = some entry := by
  induction fuel generalizing entries with
  | zero => exact h
  | succ fuel ih =>
    rw [dropOldest] at h
    by_cases hfull : maxEntries < entries.size
    · rw [if_pos hfull] at h
      cases hold : entries.oldest with
      | none =>
        rw [hold] at h
        exact h
      | some oldestKey =>
        rw [hold] at h
        have hdel := ih h
        rw [InsertionMap.get_delete] at hdel
        by_cases hkey : oldestKey = key
        · rw [if_pos hkey] at hdel
          cases hdel
        rw [if_neg hkey] at hdel
        exact hdel
    · rw [if_neg hfull] at h
      exact h

theorem get_set_cases (h : (c.set key value now).entries.get key' = some entry) :
    key = key' ∧ entry.value = value ∨ key ≠ key' ∧ c.entries.get key' = some entry := by
  have hw := get_dropOldest h
  rw [InsertionMap.get_set] at hw
  by_cases hkey : key = key'
  · rw [if_pos hkey] at hw
    exact .inl ⟨hkey, congrArg CacheEntry.value (Option.some.inj hw).symm⟩
  rw [if_neg hkey, InsertionMap.get_delete_of_ne _ hkey] at hw
  exact .inr ⟨hkey, hw⟩

theorem get_invalidate (h : (c.invalidate key).entries.get key' = some entry) :
    key ≠ key' ∧ c.entries.get key' = some entry := by
  have hdel : (c.entries.delete key).get key' = some entry := h
  rw [InsertionMap.get_delete] at hdel
  by_cases hkey : key = key'
  · rw [if_pos hkey] at hdel
    cases hdel
  rw [if_neg hkey] at hdel
  exact ⟨hkey, hdel⟩

/-- Reading the cache never adds or alters an entry. -/
theorem get_get (h : (c.get key now).1.entries.get key' = some entry) :
    c.entries.get key' = some entry := by
  rw [get] at h
  cases hkey : c.entries.get key with
  | none =>
    rw [hkey] at h
    exact h
  | some found =>
    rw [hkey] at h
    by_cases hstale : c.isStale found now = true
    · simp only [if_pos hstale] at h
      exact (get_invalidate h).2
    simp only [if_neg hstale] at h
    rw [InsertionMap.get_set] at h
    by_cases hk : key = key'
    · rw [if_pos hk] at h
      rw [← hk, hkey]
      exact h
    rw [if_neg hk, InsertionMap.get_delete_of_ne _ hk] at h
    exact h

theorem get_hit_iff {key : String} :
    (c.get key now).2 = some value ↔ ∃ entry, c.entries.get key = some entry ∧
        c.isStale entry now = false ∧ entry.value = value := by
  rw [get]
  cases hkey : c.entries.get key with
  | none =>
    constructor
    · intro h
      cases h
    rintro ⟨entry, hentry, -⟩
    cases hentry
  | some found =>
    cases hstale : c.isStale found now with
    | true =>
      constructor
      · intro h
        simp only [hstale] at h
        cases h
      rintro ⟨entry, hentry, hfresh, -⟩
      rw [← Option.some.inj hentry, hstale] at hfresh
      cases hfresh
    | false =>
      constructor
      · intro h
        simp only [hstale] at h
        exact ⟨found, rfl, hstale, Option.some.inj h⟩
      rintro ⟨entry, hentry, -, hvalue⟩
      simp only [hstale]
      rw [Option.some.inj hentry]
      exact congrArg some hvalue

end BoundedCache

/-! ## The service -/

structure InvoiceMemoryService where
  storage : MemoryStorage
  invoiceCache : BoundedCache Nat

/-- `CreateInvoiceInput`: the validated creation payload. -/
structure CreateInvoiceInput where
  sellerPublicKey : String
  sellerName : Option String := none
  sellerEmail : Option String := none
  amount : ℚ
  assetCode : Option String := none
  assetIssuer : Option String := none
  description : Option String := none
  customerName : Option String := none
  customerEmail : Option String := none
  expiresInDays : Option JsNumber := none

/-- The clock readings of one call, by the place that takes them. -/
structure Clock where
  /-- `BoundedCache.get` -/
  cacheAt : Int
  /-- `calculateInvoiceExpiry` -/
  expiryFrom : Int
  /-- `createdAt: new Date()` -/
  createdAt : Int
  /-- the sweep of a read -/
  sweepAt : Int
  /-- the store's staleness check -/
  readAt : Int
  /-- the sweep inside `MemoryStorage.markAsPaid` -/
  paySweepAt : Int
  /-- `const now` of `MemoryStorage.markAsPaid` -/
  payNow : Int
  /-- `paidAt: new Date()` -/
  paidAt : Int
  /-- the store's write stamp -/
  writtenAt : Int
  /-- the cache's write stamp -/
  storedAt : Int

/-- All readings equal. -/
def Clock.at (now : Int) : Clock :=
  ⟨now, now, now, now, now, now, now, now, now, now⟩

/-- A position in the newest-first order. -/
structure InvoiceCursor where
  createdAt : Int
  id : String

/-- `compareNewestFirst(a, b) <= 0`; ids in lower case. -/
def newestFirstLe (a b : Int × String) : Bool :=
  decide (b.1 < a.1)
    || (decide (a.1 = b.1) && decide (b.2.map Char.toLower ≤ a.2.map Char.toLower))

/-- `compareNewestFirst(cursor, invoice) < 0`. -/
def isAfterCursor (invoice : StoredInvoice) (cursor : InvoiceCursor) : Bool :=
  !newestFirstLe (invoice.createdAt, invoice.id) (cursor.createdAt, cursor.id)

namespace InvoiceMemoryService

/-- A service over an empty store, with the cache options given. -/
def init (config : StorageConfig) (cacheEntries : Option Nat)
    (ttlMs : Option Int) : InvoiceMemoryService where
  storage := .init config
  invoiceCache := .init cacheEntries ttlMs

/-- What `createInvoice` hands to the store. -/
def newInvoice (input : CreateInvoiceInput) (memo : String) (expiresAt : Int) :
    MemoryStorage.NewInvoice where
  sellerPublicKey := input.sellerPublicKey
  sellerName := input.sellerName
  sellerEmail := input.sellerEmail
  amount := input.amount
  assetCode := some (JsText.orElse input.assetCode "XLM")
  assetIssuer := input.assetIssuer
  memo := memo
  description := input.description
  customerName := input.customerName
  customerEmail := input.customerEmail
  expiresAt := some expiresAt

def createInvoice (s : InvoiceMemoryService) (input : CreateInvoiceInput)
    (memo uuid : String) (clock : Clock) :
    InvoiceMemoryService × Except InvoiceError Nat :=
  if input.sellerPublicKey = "" then (s, .error .sellerKeyRequired)
  else
    match calculateInvoiceExpiry input.expiresInDays clock.expiryFrom with
    | .error e => (s, .error e)
    | .ok expiresAt =>
      let stored := s.storage.createInvoice (newInvoice input memo expiresAt)
        uuid clock.createdAt clock.createdAt clock.writtenAt
      match stored.2 with
      | .error e => ({ s with storage := stored.1 }, .error e)
      | .ok r =>
        ({ storage := stored.1
           invoiceCache := s.invoiceCache.set uuid r clock.storedAt },
          .ok r)

def getInvoiceById (s : InvoiceMemoryService) (id : String) (clock : Clock) :
    InvoiceMemoryService × Option Nat :=
  let cached := s.invoiceCache.get id clock.cacheAt
  match cached.2 with
  | some r => ({ s with invoiceCache := cached.1 }, some r)
  | none =>
    let found := s.storage.getInvoiceById id clock.sweepAt clock.readAt
    match found.2 with
    | none => ({ storage := found.1, invoiceCache := cached.1.invalidate id }, none)
    | some r =>
      ({ storage := found.1
         invoiceCache := cached.1.set id r clock.storedAt }, some r)

def getInvoiceByMemo (s : InvoiceMemoryService) (memo : String)
    (clock : Clock) : InvoiceMemoryService × Option Nat :=
  let found := s.storage.getInvoiceByMemo memo clock.sweepAt clock.readAt
  ({ s with storage := found.1 }, found.2)

/-- `checkVersion`, made only when both a version and a record are given. -/
def checkExisting (existing : Option StoredInvoice)
    (expectedVersion : Option JsNumber) : Except InvoiceError Unit :=
  match existing, expectedVersion with
  | some invoice, some _ => checkVersion expectedVersion (.ofNat invoice.versionOr1)
  | _, _ => .ok ()

def markAsPaid (s : InvoiceMemoryService)
    (invoiceId txHash payerPublicKey : String) (payerInfo : Option PayerInfo)
    (expectedVersion : Option JsNumber) (clock : Clock) :
    InvoiceMemoryService × Except InvoiceError Nat :=
  let found := s.storage.getInvoiceById invoiceId clock.sweepAt clock.readAt
  let existing := found.2.bind found.1.objects.read
  match checkExisting existing expectedVersion with
  | .error e => ({ s with storage := found.1 }, .error e)
  | .ok _ =>
    let cache := s.invoiceCache.invalidate invoiceId
    let paid := found.1.markAsPaid invoiceId txHash payerPublicKey payerInfo
      expectedVersion clock.paySweepAt clock.payNow clock.paidAt
      clock.writtenAt
    match paid.2 with
    | .error e => ({ storage := paid.1, invoiceCache := cache }, .error e)
    | .ok none => ({ storage := paid.1, invoiceCache := cache }, .error .notPayable)
    | .ok (some r) =>
      ({ storage := paid.1
         invoiceCache := cache.set invoiceId r clock.storedAt }, .ok r)

def getInvoicesBySeller (s : InvoiceMemoryService) (sellerPublicKey : String)
    (status : Option String) (limit offset : Int)
    (after : Option InvoiceCursor) (clock : Clock) :
    InvoiceMemoryService × List StoredInvoice :=
  let all := s.storage.getAllInvoices status clock.sweepAt
  let mine := if sellerPublicKey = "" then all.2
    else all.2.filter (fun invoice => invoice.sellerPublicKey == sellerPublicKey)
  let sorted := mine.mergeSort (fun a b => newestFirstLe (a.createdAt, a.id) (b.createdAt, b.id))
  let rest := match after with
    | none => sorted
    | some cursor => sorted.filter (isAfterCursor · cursor)
  ({ s with storage := all.1 }, JsText.slice rest offset (offset + limit))

/-- `{ status: 'CANCELLED' }`. -/
def cancellation : InvoiceUpdate where
  status := some .cancelled

def cancelInvoice (s : InvoiceMemoryService) (invoiceId : String)
    (expectedVersion : Option JsNumber) (clock : Clock) :
    InvoiceMemoryService × Except InvoiceError Nat :=
  let found := s.storage.getInvoiceById invoiceId clock.sweepAt clock.readAt
  let read := { s with storage := found.1 }
  match found.2.bind found.1.objects.read with
  | none => (read, .error .notCancellable)
  | some invoice =>
    match checkExisting (some invoice) expectedVersion with
    | .error e => (read, .error e)
    | .ok _ =>
      if invoice.status ≠ .pending then (read, .error .notCancellable)
      else
        let cache := s.invoiceCache.invalidate invoiceId
        let updated := found.1.updateInvoice invoiceId cancellation expectedVersion clock.writtenAt
        match updated.2 with
        | .error e => ({ storage := updated.1, invoiceCache := cache }, .error e)
        | .ok none => ({ storage := updated.1, invoiceCache := cache }, .error .notCancellable)
        | .ok (some r) =>
          ({ storage := updated.1
             invoiceCache := cache.set invoiceId r clock.storedAt },
            .ok r)

def findOverduePendingInvoices (s : InvoiceMemoryService) (cutoff : Int)
    (limit : Int) : Nat × List StoredInvoice :=
  let overdue := s.storage.findOverduePending cutoff
  (overdue.length, JsText.slice overdue 0 limit)

def markExpiredInvoices (s : InvoiceMemoryService) (now : Int) : InvoiceMemoryService × Nat :=
  let swept := s.storage.markExpiredInvoices now
  ({ storage := swept.1
     invoiceCache :=
       if 0 < swept.2 then s.invoiceCache.invalidateAll
       else s.invoiceCache }, swept.2)

def getInvoiceStats (s : InvoiceMemoryService) (sellerPublicKey : String) (clock : Clock) :
    InvoiceMemoryService × Except InvoiceError InvoiceStats :=
  let stats := s.storage.getStats sellerPublicKey clock.sweepAt
  ({ s with storage := stats.1 }, stats.2)

def getAllInvoices (s : InvoiceMemoryService) (status : Option String)
    (clock : Clock) : InvoiceMemoryService × List StoredInvoice :=
  let all := s.storage.getAllInvoices status clock.sweepAt
  ({ s with storage := all.1 }, all.2)

def invalidateInvoiceCache (s : InvoiceMemoryService)
    (invoiceId : Option String) : InvoiceMemoryService :=
  { s with
    invoiceCache := match invoiceId with
      | none => s.invoiceCache.invalidateAll
      | some id => s.invoiceCache.invalidate id }

end InvoiceMemoryService

/-! ## Calls -/

/-- A call of the service, with the values it draws from the identifier and
    memo generators. -/
inductive ServiceOp where
  | createInvoice (input : CreateInvoiceInput) (memo uuid : String)
  | getInvoiceById (id : String)
  | getInvoiceByMemo (memo : String)
  | markAsPaid (id txHash payerPublicKey : String)
      (payerInfo : Option PayerInfo) (expectedVersion : Option JsNumber)
  | getInvoicesBySeller (sellerPublicKey : String) (status : Option String)
      (limit offset : Int) (after : Option InvoiceCursor)
  | cancelInvoice (id : String) (expectedVersion : Option JsNumber)
  | findOverduePendingInvoices (cutoff limit : Int)
  | markExpiredInvoices (now : Option Int)
  | getInvoiceStats (sellerPublicKey : String)
  | getAllInvoices (status : Option String)
  | invalidateInvoiceCache (id : Option String)

/-- What a call resolves to; an invoice is the object it returns. -/
inductive Response where
  | invoice (r : Nat)
  | found (r : Option Nat)
  | invoices (items : List StoredInvoice)
  | overdue (total : Nat) (items : List StoredInvoice)
  | count (n : Nat)
  | stats (s : InvoiceStats)
  | done

namespace ServiceOp

/-- Run a call; an `error` is a rejected promise. -/
def run (s : InvoiceMemoryService) (clock : Clock) :
    ServiceOp → InvoiceMemoryService × Except InvoiceError Response
  | createInvoice input memo uuid =>
    let r := s.createInvoice input memo uuid clock
    (r.1, r.2.map .invoice)
  | getInvoiceById id =>
    let r := s.getInvoiceById id clock
    (r.1, .ok (.found r.2))
  | getInvoiceByMemo memo =>
    let r := s.getInvoiceByMemo memo clock
    (r.1, .ok (.found r.2))
  | markAsPaid id txHash payerPublicKey payerInfo expectedVersion =>
    let r := s.markAsPaid id txHash payerPublicKey payerInfo expectedVersion clock
    (r.1, r.2.map .invoice)
  | getInvoicesBySeller sellerPublicKey status limit offset after =>
    let r := s.getInvoicesBySeller sellerPublicKey status limit offset after clock
    (r.1, .ok (.invoices r.2))
  | cancelInvoice id expectedVersion =>
    let r := s.cancelInvoice id expectedVersion clock
    (r.1, r.2.map .invoice)
  | findOverduePendingInvoices cutoff limit =>
    let r := s.findOverduePendingInvoices cutoff limit
    (s, .ok (.overdue r.1 r.2))
  | markExpiredInvoices now =>
    let r := s.markExpiredInvoices (now.getD clock.sweepAt)
    (r.1, .ok (.count r.2))
  | getInvoiceStats sellerPublicKey =>
    let r := s.getInvoiceStats sellerPublicKey clock
    (r.1, r.2.map .stats)
  | getAllInvoices status =>
    let r := s.getAllInvoices status clock
    (r.1, .ok (.invoices r.2))
  | invalidateInvoiceCache id => (s.invalidateInvoiceCache id, .ok .done)

/-- The instants at which a call may sweep. -/
def sweepTimes (clock : Clock) : ServiceOp → List Int
  | createInvoice .. => []
  | markAsPaid .. => [clock.sweepAt, clock.paySweepAt]
  | findOverduePendingInvoices .. => []
  | markExpiredInvoices now => [now.getD clock.sweepAt]
  | invalidateInvoiceCache _ => []
  | _ => [clock.sweepAt]

end ServiceOp

/-! ## What a call does -/

open MemoryStorage

/-- Every entry of the cache `c'` was in `c` or is what the store holds. -/
def Serves (s : MemoryStorage) (c c' : BoundedCache Nat) : Prop :=
  ∀ key entry, c'.entries.get key = some entry →
    c.entries.get key = some entry ∨ s.invoices.get key = some entry.value

theorem Serves.refl (s : MemoryStorage) (c : BoundedCache Nat) : Serves s c c := fun _ _ h => .inl h

theorem serves_invalidate (s : MemoryStorage) (c : BoundedCache Nat)
    (key : String) : Serves s c (c.invalidate key) :=
  fun _ _ h => .inl (BoundedCache.get_invalidate h).2

theorem serves_invalidateAll (s : MemoryStorage) (c : BoundedCache Nat) :
    Serves s c c.invalidateAll := nofun

/-- The effect of one call: it sweeps and may forget or refresh cache
    entries, or it writes one record and caches it. -/
inductive Effect (s : InvoiceMemoryService) (clock : Clock) :
    ServiceOp → InvoiceMemoryService → Prop where
  | read {op : ServiceOp} {times : List Int} {mid : MemoryStorage}
      {cache : BoundedCache Nat}
      (hsub : times ⊆ op.sweepTimes clock)
      (hmid : SweptTo times s.storage mid)
      (hcache : Serves s.storage s.invoiceCache cache) :
      Effect s clock op ⟨mid, cache⟩
  | created {input : CreateInvoiceInput} {memo uuid : String}
      {expiresAt : Int}
      (hexp : calculateInvoiceExpiry input.expiresInDays clock.expiryFrom = .ok expiresAt)
      (hfresh : s.storage.invoices.get uuid = none) :
      Effect s clock (.createInvoice input memo uuid) ⟨s.storage.setEntry (newRecord
            (InvoiceMemoryService.newInvoice input memo expiresAt) uuid
            clock.createdAt clock.createdAt) clock.writtenAt,
          s.invoiceCache.set uuid s.storage.objects.next clock.storedAt⟩
  | paid {id txHash payerPublicKey : String} {payerInfo : Option PayerInfo}
      {expectedVersion : Option JsNumber} {mid : MemoryStorage}
      {invoice : StoredInvoice}
      (hmid : SweptTo [clock.sweepAt, clock.paySweepAt] s.storage mid)
      (hlook : mid.lookup id = some invoice)
      (hpending : invoice.status = .pending)
      (hdue : clock.payNow < invoice.expiresAt)
      (hfree : txHash ≠ "" → ∀ other invoice', other ≠ id → mid.lookup other = some invoice' →
        invoice'.paymentTxHash ≠ some txHash) :
      Effect s clock (.markAsPaid id txHash payerPublicKey payerInfo expectedVersion)
        ⟨mid.setEntry (updatedRecord invoice
            (paymentUpdate txHash payerPublicKey payerInfo clock.paidAt))
            clock.writtenAt,
          (s.invoiceCache.invalidate id).set id mid.objects.next clock.storedAt⟩
  | cancelled {id : String} {expectedVersion : Option JsNumber}
      {mid : MemoryStorage} {invoice : StoredInvoice}
      (hmid : SweptTo [clock.sweepAt] s.storage mid)
      (hlook : mid.lookup id = some invoice)
      (hpending : invoice.status = .pending) :
      Effect s clock (.cancelInvoice id expectedVersion) ⟨mid.setEntry (updatedRecord invoice
            InvoiceMemoryService.cancellation) clock.writtenAt,
          (s.invoiceCache.invalidate id).set id mid.objects.next clock.storedAt⟩

namespace InvoiceMemoryService

variable {s : InvoiceMemoryService} {clock : Clock}

theorem createInvoice_effect (input : CreateInvoiceInput) (memo uuid : String) :
    Effect s clock (.createInvoice input memo uuid) (s.createInvoice input memo uuid clock).1 := by
  have hkept : Effect s clock (.createInvoice input memo uuid) s :=
    .read (List.nil_subset _) (SweptTo.refl s.storage) (Serves.refl _ _)
  rw [createInvoice]
  by_cases hseller : input.sellerPublicKey = ""
  · rw [if_pos hseller]
    exact hkept
  rw [if_neg hseller]
  cases hexp : calculateInvoiceExpiry input.expiresInDays clock.expiryFrom with
  | error e => exact hkept
  | ok expiresAt =>
    rcases s.storage.createInvoice_cases (newInvoice input memo expiresAt)
      uuid clock.createdAt clock.createdAt clock.writtenAt with
      ⟨e, heq⟩ | ⟨hfree, -, heq⟩
    · simp only [heq]
      exact hkept
    simp only [heq]
    exact .created hexp ((InsertionMap.has_eq_false _ _).mp hfree)

theorem getInvoiceById_effect (id : String) :
    Effect s clock (.getInvoiceById id) (s.getInvoiceById id clock).1 := by
  have hserve : Serves s.storage s.invoiceCache (s.invoiceCache.get id clock.cacheAt).1 :=
    fun _ _ h => .inl (BoundedCache.get_get h)
  rw [getInvoiceById]
  cases hhit : (s.invoiceCache.get id clock.cacheAt).2 with
  | some r => exact .read (List.nil_subset _) (SweptTo.refl s.storage) hserve
  | none =>
    obtain ⟨mid, hmid, heq⟩ := s.storage.getInvoiceById_eq id clock.sweepAt clock.readAt
    rw [heq]
    cases hget : s.storage.invoices.get id with
    | none =>
      refine .read (List.Subset.refl _) hmid ?_
      intro key entry h
      exact hserve key entry (BoundedCache.get_invalidate h).2
    | some r =>
      refine .read (List.Subset.refl _) hmid ?_
      intro key entry h
      rcases BoundedCache.get_set_cases h with
        ⟨hkey, hvalue⟩ | ⟨-, hold⟩
      · rw [← hkey, hvalue]
        exact .inr hget
      · exact hserve key entry hold

theorem getInvoiceByMemo_effect (memo : String) : Effect s clock (.getInvoiceByMemo memo)
      (s.getInvoiceByMemo memo clock).1 := by
  have hsweep := sweptTo_markExpired s.storage clock.sweepAt
  have hmid : SweptTo [clock.sweepAt] s.storage
      (s.storage.getInvoiceByMemo memo clock.sweepAt clock.readAt).1 := by
    rw [MemoryStorage.getInvoiceByMemo]
    split
    case h_1 id _ =>
      obtain ⟨mid, hmid, heq⟩ := readEntry_eq
        (s.storage.markExpiredInvoices clock.sweepAt).1 id clock.readAt
      rw [heq]
      exact hsweep.trans hmid
    case h_2 => exact hsweep
  exact .read (List.Subset.refl _) hmid (Serves.refl _ _)

theorem markAsPaid_effect (hwf : WF s.storage)
    (id txHash payerPublicKey : String) (payerInfo : Option PayerInfo)
    (expectedVersion : Option JsNumber) :
    Effect s clock (.markAsPaid id txHash payerPublicKey payerInfo expectedVersion)
      (s.markAsPaid id txHash payerPublicKey payerInfo expectedVersion clock).1 := by
  obtain ⟨mid, hmid, heq⟩ := s.storage.getInvoiceById_eq id clock.sweepAt clock.readAt
  have htwice := hmid.trans (sweptTo_markExpired mid clock.paySweepAt)
  rw [markAsPaid, heq]
  simp only []
  cases checkExisting ((s.storage.invoices.get id).bind mid.objects.read) expectedVersion with
  | error e =>
    refine .read ?_ hmid (Serves.refl _ _)
    exact List.cons_subset_cons _ (List.nil_subset _)
  | ok _ =>
    simp only []
    rcases markAsPaid_cases (hmid.wf hwf) id txHash payerPublicKey
      payerInfo expectedVersion clock.paySweepAt clock.payNow clock.paidAt
      clock.writtenAt with
      ⟨out, hpay, hout⟩ | ⟨invoice, hlook, hpend, hdue, hfree, -, hpay⟩
    · have hread : Effect s clock (.markAsPaid id txHash payerPublicKey payerInfo expectedVersion)
          ⟨(mid.markExpiredInvoices clock.paySweepAt).1, s.invoiceCache.invalidate id⟩ :=
        .read (List.Subset.refl _) htwice (serves_invalidate _ _ _)
      rw [hpay]
      match out, hout with
      | .error e, _ => exact hread
      | .ok none, _ => exact hread
      | .ok (some r), hout => exact absurd rfl (hout r)
    · rw [hpay]
      exact .paid htwice hlook hpend hdue hfree

theorem cancelInvoice_effect (id : String) (expectedVersion : Option JsNumber) :
    Effect s clock (.cancelInvoice id expectedVersion)
      (s.cancelInvoice id expectedVersion clock).1 := by
  obtain ⟨mid, hmid, heq⟩ := s.storage.getInvoiceById_eq id clock.sweepAt clock.readAt
  have hread : Effect s clock (.cancelInvoice id expectedVersion) ⟨mid, s.invoiceCache⟩ :=
    .read (List.Subset.refl _) hmid (Serves.refl _ _)
  have hlook : mid.lookup id = (s.storage.invoices.get id).bind mid.objects.read := by
    rw [lookup, hmid.invoices]
  rw [cancelInvoice, heq]
  simp only []
  rw [← hlook]
  cases hinv : mid.lookup id with
  | none => exact hread
  | some invoice =>
    simp only []
    cases checkExisting (some invoice) expectedVersion with
    | error e => exact hread
    | ok _ =>
      simp only []
      by_cases hpend : invoice.status = .pending
      · rw [if_neg (not_not_intro hpend), updateInvoice_of_check hinv rfl]
        cases checkVersion expectedVersion (.ofNat invoice.versionOr1) with
        | error e => exact .read (List.Subset.refl _) hmid (serves_invalidate _ _ _)
        | ok _ => exact .cancelled hmid hinv hpend
      rw [if_pos hpend]
      exact hread

end InvoiceMemoryService

open InvoiceMemoryService

/-- **THE EFFECT OF A CALL**: whatever the call and its clock readings, it
    acts in one of the four ways of `Effect`. -/
theorem run_effect {s : InvoiceMemoryService} (hwf : WF s.storage)
    (clock : Clock) (op : ServiceOp) : Effect s clock op (op.run s clock).1 := by
  have hsweep := sweptTo_markExpired s.storage
  cases op with
  | createInvoice input memo uuid => exact createInvoice_effect input memo uuid
  | getInvoiceById id => exact getInvoiceById_effect id
  | getInvoiceByMemo memo => exact getInvoiceByMemo_effect memo
  | markAsPaid id txHash payerPublicKey payerInfo expectedVersion =>
    exact markAsPaid_effect hwf id txHash
      payerPublicKey payerInfo expectedVersion
  | cancelInvoice id expectedVersion =>
    exact cancelInvoice_effect id expectedVersion
  | getInvoicesBySeller sellerPublicKey status limit offset after =>
    exact .read (List.Subset.refl _) (hsweep _) (Serves.refl _ _)
  | getInvoiceStats sellerPublicKey => exact .read (List.Subset.refl _) (hsweep _) (Serves.refl _ _)
  | getAllInvoices status => exact .read (List.Subset.refl _) (hsweep _) (Serves.refl _ _)
  | findOverduePendingInvoices cutoff limit =>
    exact .read (List.nil_subset _) (SweptTo.refl _) (Serves.refl _ _)
  | markExpiredInvoices now =>
    refine .read (List.Subset.refl _) (hsweep _) ?_
    split
    · exact serves_invalidateAll _ _
    · exact Serves.refl _ _
  | invalidateInvoiceCache id =>
    refine .read (List.nil_subset _) (SweptTo.refl _) ?_
    cases id with
    | none => exact serves_invalidateAll _ _
    | some id => exact serves_invalidate _ _ _

variable {s s' : InvoiceMemoryService} {op : ServiceOp} {clock : Clock}

theorem Effect.wf (h : Effect s clock op s') (hwf : WF s.storage) : WF s'.storage := by
  cases h with
  | read _ hmid _ => exact hmid.wf hwf
  | created _ _ => exact wf_setEntry hwf _ _
  | paid hmid _ _ _ _ => exact wf_setEntry (hmid.wf hwf) _ _
  | cancelled hmid _ _ => exact wf_setEntry (hmid.wf hwf) _ _

/-- What a call can leave under one id. -/
inductive RecordStep (s : MemoryStorage) (clock : Clock) (id : String) :
    ServiceOp → Option StoredInvoice → Prop where
  | swept {op : ServiceOp} {times : List Int} (hsub : times ⊆ op.sweepTimes clock) :
      RecordStep s clock id op ((s.lookup id).map (expireAll times))
  | evicted {input : CreateInvoiceInput} {memo uuid : String} (hother : uuid ≠ id) :
      RecordStep s clock id (.createInvoice input memo uuid) none
  | created {input : CreateInvoiceInput} {memo : String} {expiresAt : Int}
      (hfresh : s.lookup id = none) :
      RecordStep s clock id (.createInvoice input memo id) (some (newRecord
          (newInvoice input memo expiresAt) id
          clock.createdAt clock.createdAt))
  | paid {txHash payerPublicKey : String} {payerInfo : Option PayerInfo}
      {expectedVersion : Option JsNumber} {invoice : StoredInvoice}
      (hlook : s.lookup id = some invoice)
      (hpending : invoice.status = .pending)
      (hdue : clock.payNow < invoice.expiresAt)
      (hfree : txHash ≠ "" → ∀ other invoice', other ≠ id → s.lookup other = some invoice' →
        invoice'.paymentTxHash ≠ some txHash) :
      RecordStep s clock id (.markAsPaid id txHash payerPublicKey payerInfo expectedVersion)
        (some (updatedRecord invoice (paymentUpdate txHash payerPublicKey payerInfo clock.paidAt)))
  | cancelled {expectedVersion : Option JsNumber} {invoice : StoredInvoice}
      (hlook : s.lookup id = some invoice)
      (hpending : invoice.status = .pending) :
      RecordStep s clock id (.cancelInvoice id expectedVersion)
        (some (updatedRecord invoice cancellation))

theorem Effect.record (h : Effect s clock op s') (hwf : WF s.storage) (id : String) :
    RecordStep s.storage clock id op (s'.storage.lookup id) := by
  cases h with
  | read hsub hmid _ =>
    rw [hmid.lookup]
    exact .swept hsub
  | @created input memo uuid expiresAt _ hfresh =>
    by_cases hid : uuid = id
    · subst hid
      have hself : (s.storage.setEntry (newRecord
          (newInvoice input memo expiresAt) uuid
          clock.createdAt clock.createdAt) clock.writtenAt).lookup uuid
          = some _ := lookup_setEntry_self _ _ _
      rw [hself]
      exact .created (lookup_eq_none_of_get hfresh)
    · have hid' : (newRecord (newInvoice input memo expiresAt) uuid
          clock.createdAt clock.createdAt).id ≠ id := hid
      rcases lookup_setEntry_of_ne hwf clock.writtenAt hid' with
        heq | hnone
      · have hsame : RecordStep s.storage clock id (.createInvoice input memo uuid)
            ((s.storage.lookup id).map (expireAll [])) :=
          .swept (List.nil_subset _)
        rw [heq, ← Option.map_id' (x := s.storage.lookup id)]
        exact hsame
      rw [hnone]
      exact .evicted hid
  | @paid id₀ txHash payerPublicKey payerInfo expectedVersion mid invoice
      hmid hlook hpending hdue hfree =>
      have hwf' := hmid.wf hwf
      have hstored := hmid.lookup_pending hlook hpending
      rw [lookup_setEntry_update hwf' hlook rfl]
      by_cases hid : id₀ = id
      · subst hid
        rw [if_pos rfl]
        refine .paid hstored hpending hdue ?_
        intro htx other invoice' hne hother
        have hother' := hmid.lookup other
        rw [hother, Option.map_some] at hother'
        have hhash := hfree htx other _ hne hother'
        rw [expireAll_frame StoredInvoice.paymentTxHash (fun _ => rfl)] at hhash
        exact hhash
      · rw [if_neg hid, hmid.lookup]
        exact .swept (List.Subset.refl _)
  | @cancelled id₀ expectedVersion mid invoice hmid hlook hpending =>
    have hwf' := hmid.wf hwf
    have hstored := hmid.lookup_pending hlook hpending
    rw [lookup_setEntry_update hwf' hlook rfl]
    by_cases hid : id₀ = id
    · subst hid
      rw [if_pos rfl]
      exact .cancelled hstored hpending
    rw [if_neg hid, hmid.lookup]
    exact .swept (List.Subset.refl _)

end Invoices

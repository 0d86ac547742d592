import Inqutum.HeapProofs
import Inqutum.InvoiceProofs

/-!
# The in-memory invoice store

`MemoryStorage` keeps invoice objects in an insertion-ordered map with a
memo index, evicts the oldest entry when full, and moves overdue PENDING
invoices to EXPIRED inside every read.  That sweep mutates the objects IN
PLACE, so whoever holds one of them (a read cache, say) sees the change;
an update on the other hand builds a new object.  Objects therefore live
on a heap and the map holds their addresses.

Every method takes the clock readings it makes as arguments, named after
where they are taken.  Nothing relates two readings: clocks may stand
still or go backwards.

The spec lemmas describe each method by what it does to `lookup`.
-/

namespace Invoices

open List Option InsertionMap JsText

/-- The constructor options after defaulting: at least one entry. -/
structure StorageConfig where
  maxEntries : Nat
  staleAfterMs : Int
  maxEntries_pos : 1 ≤ maxEntries

def StorageConfig.ofOptions (maxEntries staleAfterMs : Option Nat) : StorageConfig where
  maxEntries := max 1 (maxEntries.getD 10000)
  staleAfterMs := staleAfterMs.getD 0
  maxEntries_pos := Nat.le_max_left ..

structure MemoryStorage where
  config : StorageConfig
  objects : Heap StoredInvoice
  invoices : InsertionMap String Nat
  invoicesByMemo : InsertionMap String String
  writtenAt : InsertionMap String Int
  evictions : Nat
  invalidations : Nat
  staleReads : Nat

namespace MemoryStorage

def init (config : StorageConfig) : MemoryStorage where
  config := config
  objects := Heap.empty
  invoices := empty
  invoicesByMemo := empty
  writtenAt := empty
  evictions := 0
  invalidations := 0
  staleReads := 0

/-- The content stored under an id. -/
def lookup (s : MemoryStorage) (id : String) : Option StoredInvoice :=
  (s.invoices.get id).bind s.objects.read

/-- `Array.from(this.invoices.values())`, by content. -/
def contents (s : MemoryStorage) : List StoredInvoice :=
  s.invoices.values.filterMap s.objects.read

/-! ## Expiry sweep -/

/-- The `forEach` of `markExpiredInvoices`, over the addresses of the stored
    objects. -/
def sweep (now : Int) : List Nat → Heap StoredInvoice → Heap StoredInvoice × Nat
  | [], h => (h, 0)
  | r :: rest, h =>
    match h.read r with
    | some invoice =>
      if isPendingInvoiceExpired invoice now then
        let swept := sweep now rest (h.update r (fun i => { i with status := .expired }))
        (swept.1, swept.2 + 1)
      else sweep now rest h
    | none => sweep now rest h

def markExpiredInvoices (s : MemoryStorage) (now : Int) : MemoryStorage × Nat :=
  let swept := sweep now s.invoices.values s.objects
  ({ s with objects := swept.1 }, swept.2)

/-! ## Entries -/

/-- `isStale`: whether the entry is older than `staleAfterMs`. -/
def isStale (s : MemoryStorage) (id : String) (now : Int) : Bool :=
  if s.config.staleAfterMs ≤ 0 then false
  else
    match s.writtenAt.get id with
    | none => false
    | some written => decide (s.config.staleAfterMs < now - written)

def readEntry (s : MemoryStorage) (id : String) (readAt : Int) : MemoryStorage × Option Nat :=
  match s.invoices.get id with
  | none => (s, none)
  | some r =>
    if s.isStale id readAt then
      ({ s with staleReads := s.staleReads + 1 }, some r)
    else (s, some r)

def removeEntry (s : MemoryStorage) (id : String) (invoice : StoredInvoice) :
    MemoryStorage :=
  { s with
    invoices := s.invoices.delete id
    invoicesByMemo :=
      if s.invoicesByMemo.get invoice.memo = some id then
        s.invoicesByMemo.delete invoice.memo
      else s.invoicesByMemo
    writtenAt := s.writtenAt.delete id }

/-- One round of the `while` of `evictIfFull`: drop the oldest entry. -/
def evictOldest (s : MemoryStorage) (oldestId : String) : MemoryStorage :=
  let removed :=
    match s.lookup oldestId with
    | some oldest => s.removeEntry oldestId oldest
    | none => s
  { removed with evictions := removed.evictions + 1 }

/-- The `while` loop of `evictIfFull`; every round removes one entry, so as
    many rounds as there are entries suffice. -/
def evictLoop : Nat → MemoryStorage → MemoryStorage
  | 0, s => s
  | fuel + 1, s =>
    if s.config.maxEntries ≤ s.invoices.size then
      match s.invoices.oldest with
      | none => s
      | some oldestId => evictLoop fuel (s.evictOldest oldestId)
    else s

def evictIfFull (s : MemoryStorage) : MemoryStorage :=
  evictLoop s.invoices.size s

/-- `setEntry` of a freshly built object. -/
def setEntry (s : MemoryStorage) (invoice : StoredInvoice) (writtenAt : Int) :
    MemoryStorage :=
  let room :=
    if s.invoices.has invoice.id then
      { s with invoices := s.invoices.delete invoice.id }
    else s.evictIfFull
  { room with
    objects := room.objects.alloc invoice
    invoices := room.invoices.set invoice.id room.objects.next
    invoicesByMemo := room.invoicesByMemo.set invoice.memo invoice.id
    writtenAt := room.writtenAt.set invoice.id writtenAt }

/-! ## Methods -/

/-- The properties of `Partial<Invoice>` that `createInvoice` reads. -/
structure NewInvoice where
  id : Option String := none
  sellerPublicKey : String
  sellerName : Option String := none
  sellerEmail : Option String := none
  amount : ℚ
  assetCode : Option String := none
  assetIssuer : Option String := none
  memo : String
  description : Option String := none
  customerName : Option String := none
  customerEmail : Option String := none
  expiresAt : Option Int := none
  metadata : Option Json := none

/-- The object `createInvoice` builds.  `defaultFrom` is the clock reading of
    the default expiry. -/
def newRecord (data : NewInvoice) (uuid : String)
    (createdAt defaultFrom : Int) : StoredInvoice where
  id := orElse data.id uuid
  sellerPublicKey := data.sellerPublicKey
  sellerName := data.sellerName
  sellerEmail := data.sellerEmail
  amount := data.amount
  assetCode := orElse data.assetCode "XLM"
  assetIssuer := data.assetIssuer
  memo := data.memo
  description := data.description
  customerName := data.customerName
  customerEmail := data.customerEmail
  status := .pending
  createdAt := createdAt
  expiresAt := data.expiresAt.getD (defaultFrom + 7 * dayInMs)
  metadata := data.metadata
  version := some 1

/-- `createInvoice`; returns the address of the new object. -/
def createInvoice (s : MemoryStorage) (data : NewInvoice) (uuid : String)
    (createdAt defaultFrom writtenAt : Int) :
    MemoryStorage × Except InvoiceError Nat :=
  let id := orElse data.id uuid
  if s.invoices.has id then (s, .error (.duplicateId id))
  else if data.memo ≠ "" ∧ s.invoicesByMemo.has data.memo then
    (s, .error (.duplicateMemo data.memo))
  else
    let invoice := newRecord data uuid createdAt defaultFrom
    (s.setEntry invoice writtenAt, .ok s.objects.next)

def getInvoiceById (s : MemoryStorage) (id : String) (sweepAt readAt : Int) :
    MemoryStorage × Option Nat :=
  (s.markExpiredInvoices sweepAt).1.readEntry id readAt

/-- The object an update builds. -/
def updatedRecord (invoice : StoredInvoice) (updates : InvoiceUpdate) :
    StoredInvoice :=
  { updates.apply invoice with version := some (invoice.versionOr1 + 1) }

/-- `updateInvoice`; returns the address of the new object, if the id is
    stored. -/
def updateInvoice (s : MemoryStorage) (id : String) (updates : InvoiceUpdate)
    (expectedVersion : Option JsNumber) (writtenAt : Int) :
    MemoryStorage × Except InvoiceError (Option Nat) :=
  match s.lookup id with
  | none => (s, .ok none)
  | some invoice =>
    match checkVersion expectedVersion (.ofNat invoice.versionOr1) with
    | .error e => (s, .error e)
    | .ok _ =>
      let updated := updatedRecord invoice updates
      match updates.memo with
      | some memo =>
        if memo ≠ invoice.memo then
          if s.invoicesByMemo.has memo then
            (s, .error (.duplicateMemo memo))
          else
            let freed := { s with
              invoicesByMemo := s.invoicesByMemo.delete invoice.memo }
            (freed.setEntry updated writtenAt, .ok (some s.objects.next))
        else (s.setEntry updated writtenAt, .ok (some s.objects.next))
      | none => (s.setEntry updated writtenAt, .ok (some s.objects.next))

/-- Another stored invoice already carries this (non-empty) hash. -/
def txHashTaken (s : MemoryStorage) (id txHash : String) : Bool :=
  s.contents.any (fun existing =>
    decide (existing.id ≠ id) && decide (existing.paymentTxHash ≠ none)
      && decide (existing.paymentTxHash ≠ some "")
      && decide (existing.paymentTxHash = some txHash))

/-- The update of `markAsPaid`. -/
def paymentUpdate (txHash payerPublicKey : String)
    (payerInfo : Option PayerInfo) (paidAt : Int) : InvoiceUpdate where
  status := some .paid
  paymentTxHash := some (some txHash)
  payerPublicKey := some (some payerPublicKey)
  payerName := some (payerInfo.bind PayerInfo.payerName)
  payerEmail := some (payerInfo.bind PayerInfo.payerEmail)
  paidAt := some (some paidAt)

def markAsPaid (s : MemoryStorage) (id txHash payerPublicKey : String)
    (payerInfo : Option PayerInfo) (expectedVersion : Option JsNumber)
    (sweepAt now paidAt writtenAt : Int) :
    MemoryStorage × Except InvoiceError (Option Nat) :=
  let swept := (s.markExpiredInvoices sweepAt).1
  match swept.lookup id with
  | none => (swept, .ok none)
  | some invoice =>
    if invoice.status ≠ .pending then (swept, .ok none)
    else if invoice.expiresAt ≤ now then (swept, .ok none)
    else if swept.txHashTaken id txHash then
      (swept, .error (.duplicateTxHash txHash))
    else
      swept.updateInvoice id (paymentUpdate txHash payerPublicKey payerInfo paidAt)
        expectedVersion writtenAt

/-- Newest first, ids descending among equals.  Ids are compared by
    character, which is the order of code units on UUIDs. -/
def newestFirst (a b : StoredInvoice) : Bool :=
  decide (b.createdAt < a.createdAt)
    || (decide (a.createdAt = b.createdAt) && decide (b.id ≤ a.id))

/-- `getAllInvoices`; an absent or empty status filters nothing. -/
def getAllInvoices (s : MemoryStorage) (status : Option String)
    (sweepAt : Int) : MemoryStorage × List StoredInvoice :=
  let swept := (s.markExpiredInvoices sweepAt).1
  let kept := swept.contents.filter (fun invoice =>
    match nonEmpty status with
    | none => true
    | some wanted => decide (invoice.status.text = wanted))
  (swept, kept.mergeSort newestFirst)

def getInvoiceByMemo (s : MemoryStorage) (memo : String)
    (sweepAt readAt : Int) : MemoryStorage × Option Nat :=
  let swept := (s.markExpiredInvoices sweepAt).1
  match nonEmpty (swept.invoicesByMemo.get memo) with
  | some id => swept.readEntry id readAt
  | none => (swept, none)

def getStats (s : MemoryStorage) (sellerPublicKey : String) (sweepAt : Int) :
    MemoryStorage × Except InvoiceError InvoiceStats :=
  let swept := (s.markExpiredInvoices sweepAt).1
  (swept, calculateInvoiceStats swept.contents sellerPublicKey)

/-- Overdue PENDING invoices, oldest expiry first, without a sweep. -/
def findOverduePending (s : MemoryStorage) (cutoff : Int) :
    List StoredInvoice :=
  (s.contents.filter (isPendingInvoiceExpired · cutoff)).mergeSort
    (fun a b => decide (a.expiresAt < b.expiresAt)
      || (decide (a.expiresAt = b.expiresAt) && decide (a.id ≤ b.id)))

/-- `invalidate`: drop one entry, if it is there. -/
def invalidate (s : MemoryStorage) (id : String) : MemoryStorage × Bool :=
  match s.lookup id with
  | none => (s, false)
  | some invoice =>
    let removed := s.removeEntry id invoice
    ({ removed with invalidations := removed.invalidations + 1 }, true)

def invalidateAll (s : MemoryStorage) : MemoryStorage × Nat :=
  let count := s.invoices.size
  ({ s with
      invoices := empty
      invoicesByMemo := empty
      writtenAt := empty
      invalidations := s.invalidations + count }, count)

/-! ## The representation invariant -/

/-- Every entry of the map addresses an object that carries the entry's id. -/
def WF (s : MemoryStorage) : Prop :=
  ∀ id r, s.invoices.get id = some r → ∃ invoice, s.objects.read r = some invoice ∧ invoice.id = id

theorem wf_init (config : StorageConfig) : WF (init config) := by
  intro id r h
  cases h

variable {s : MemoryStorage} {id : String} {invoice : StoredInvoice}

theorem lookup_of_get {r : Nat}
    (h : s.invoices.get id = some r) : s.lookup id = s.objects.read r := by
  rw [lookup, h]
  rfl

theorem lookup_eq_none_of_get (h : s.invoices.get id = none) : s.lookup id = none := by
  rw [lookup, h]
  rfl

theorem lookup_eq_some_iff : s.lookup id = some invoice
      ↔ ∃ r, s.invoices.get id = some r ∧ s.objects.read r = some invoice :=
  bind_eq_some_iff

/-- A well-formed store has content under exactly the ids it has entries
    for. -/
theorem WF.lookup_eq_none (h : WF s) : s.lookup id = none ↔ s.invoices.get id = none := by
  constructor
  · intro hnone
    cases hget : s.invoices.get id with
    | none => rfl
    | some r =>
      obtain ⟨invoice, hread, -⟩ := h id r hget
      rw [lookup_of_get hget, hread] at hnone
      cases hnone
  · exact lookup_eq_none_of_get

theorem WF.has_iff (h : WF s) :
    s.invoices.has id = true ↔ ∃ invoice, s.lookup id = some invoice := by
  rw [← ne_none_iff_exists', Ne, h.lookup_eq_none, ← has_eq_false, Bool.not_eq_false]

theorem WF.lookup_id (h : WF s) (hlook : s.lookup id = some invoice) : invoice.id = id := by
  obtain ⟨r, hget, hread⟩ := lookup_eq_some_iff.mp hlook
  obtain ⟨invoice', hread', hid⟩ := h id r hget
  rw [hread] at hread'
  rw [some.inj hread']
  exact hid

theorem mem_contents_iff (s : MemoryStorage) (invoice : StoredInvoice) :
    invoice ∈ s.contents ↔ ∃ id, s.lookup id = some invoice := by
  rw [contents, mem_filterMap]
  constructor
  · rintro ⟨r, hr, hread⟩
    obtain ⟨id, hget⟩ := (s.invoices.mem_values_iff r).mp hr
    exact ⟨id, lookup_eq_some_iff.mpr ⟨r, hget, hread⟩⟩
  rintro ⟨id, hlook⟩
  obtain ⟨r, hget, hread⟩ := lookup_eq_some_iff.mp hlook
  exact ⟨r, (s.invoices.mem_values_iff r).mpr ⟨id, hget⟩, hread⟩

/-! ## What a sweep does -/

theorem read_sweep (now : Int) (rs : List Nat) (h : Heap StoredInvoice) (r : Nat) :
    (sweep now rs h).1.read r = if r ∈ rs then (h.read r).map (expire now) else h.read r := by
  induction rs generalizing h with
  | nil => rfl
  | cons r₀ rest ih =>
    -- the first visit leaves the cell as `expire` does, the rest is `ih`
    have hstep : ∃ h', (sweep now (r₀ :: rest) h).1 = (sweep now rest h').1 ∧ ∀ r, h'.read r
          = if r₀ = r then (h.read r).map (expire now) else h.read r := by
      cases hread : h.read r₀ with
      | none =>
        refine ⟨h, by simp only [sweep, hread], ?_⟩
        intro r
        by_cases hr : r₀ = r
        · rw [if_pos hr, ← hr, hread]
          rfl
        · rw [if_neg hr]
      | some invoice =>
        rcases expire_cases now invoice with ⟨hno, heq⟩ | ⟨hyes, heq⟩
        · refine ⟨h, by simp only [sweep, hread, hno]; rfl, ?_⟩
          intro r
          by_cases hr : r₀ = r
          · rw [if_pos hr, ← hr, hread, map_some, heq]
          · rw [if_neg hr]
        refine ⟨_, by simp only [sweep, hread, hyes]; rfl, ?_⟩
        intro r
        rw [Heap.read_update]
        by_cases hr : r₀ = r
        · rw [if_pos hr, if_pos hr, ← hr, hread, map_some, map_some, heq]
        · rw [if_neg hr, if_neg hr]
    obtain ⟨h', hsweep, hread'⟩ := hstep
    rw [hsweep, ih h', hread' r]
    by_cases hr : r₀ = r
    · subst hr
      rw [if_pos rfl, if_pos List.mem_cons_self]
      by_cases hrest : r₀ ∈ rest
      · rw [if_pos hrest, Option.map_map]
        refine congrArg (fun f => Option.map f (h.read r₀)) ?_
        funext invoice
        exact expire_expire now invoice
      · rw [if_neg hrest]
    · rw [if_neg hr]
      have hmem : r ∈ r₀ :: rest ↔ r ∈ rest := by
        rw [mem_cons]
        exact ⟨fun hor => hor.resolve_left (Ne.symm hr), Or.inr⟩
      simp only [hmem]

/-- **THE SWEEP, BY CONTENT**: the record under every id is expired. -/
theorem lookup_markExpired (s : MemoryStorage) (now : Int) (id : String) :
    (s.markExpiredInvoices now).1.lookup id = (s.lookup id).map (expire now) := by
  cases hget : s.invoices.get id with
  | none =>
    have hget' : (s.markExpiredInvoices now).1.invoices.get id = none := hget
    rw [lookup_eq_none_of_get hget', lookup_eq_none_of_get hget]
    rfl
  | some r =>
    have hget' : (s.markExpiredInvoices now).1.invoices.get id = some r := hget
    rw [lookup_of_get hget', lookup_of_get hget]
    show (sweep now s.invoices.values s.objects).1.read r = _
    rw [read_sweep, if_pos ((s.invoices.mem_values_iff r).mpr ⟨id, hget⟩)]

theorem next_sweep (now : Int) (rs : List Nat) (h : Heap StoredInvoice) :
    (sweep now rs h).1.next = h.next := by
  induction rs generalizing h with
  | nil => rfl
  | cons r rest ih =>
    rw [sweep]
    split
    · split
      · exact (ih _).trans (Heap.next_update _ _ _)
      · exact ih h
    · exact ih h

/-- `s'` is `s` after sweeps at `times`, give or take the read counters. -/
structure SweptTo (times : List Int) (s s' : MemoryStorage) : Prop where
  config : s'.config = s.config
  invoices : s'.invoices = s.invoices
  invoicesByMemo : s'.invoicesByMemo = s.invoicesByMemo
  next : s'.objects.next = s.objects.next
  lookup : ∀ id, s'.lookup id = (s.lookup id).map (expireAll times)

theorem SweptTo.refl (s : MemoryStorage) : SweptTo [] s s := by
  refine ⟨rfl, rfl, rfl, rfl, fun id => ?_⟩
  exact (map_id' (x := s.lookup id)).symm

theorem SweptTo.trans {times times' : List Int} {s s' s'' : MemoryStorage}
    (h : SweptTo times s s') (h' : SweptTo times' s' s'') : SweptTo (times ++ times') s s'' := by
  refine ⟨h'.config.trans h.config, h'.invoices.trans h.invoices,
    h'.invoicesByMemo.trans h.invoicesByMemo, h'.next.trans h.next, ?_⟩
  intro id
  rw [h'.lookup, h.lookup, Option.map_map]
  refine congrArg (fun f => Option.map f (s.lookup id)) ?_
  funext invoice
  exact (List.foldl_append ..).symm

theorem sweptTo_markExpired (s : MemoryStorage) (now : Int) :
    SweptTo [now] s (s.markExpiredInvoices now).1 :=
  ⟨rfl, rfl, rfl, next_sweep _ _ _, lookup_markExpired s now⟩

variable {times : List Int} {s mid : MemoryStorage}

theorem SweptTo.wf {s s' : MemoryStorage} (h : SweptTo times s s') (hwf : WF s) : WF s' := by
  intro id r hget
  rw [h.invoices] at hget
  obtain ⟨invoice, hread, hid⟩ := hwf id r hget
  have hlook := h.lookup id
  rw [lookup_of_get hget, hread, lookup_of_get (h.invoices.symm ▸ hget)] at hlook
  refine ⟨_, hlook, ?_⟩
  rw [expireAll_id]
  exact hid

theorem SweptTo.lookup_pending (hmid : SweptTo times s mid) {id : String} {invoice : StoredInvoice}
    (hlook : mid.lookup id = some invoice)
    (hpending : invoice.status = .pending) : s.lookup id = some invoice := by
  rw [hmid.lookup] at hlook
  obtain ⟨stored, hstored, hexp⟩ := map_eq_some_iff.mp hlook
  rw [← hexp] at hpending
  rw [hstored, ← hexp, expireAll_eq_of_pending hpending]

/-- No stored invoice is overdue. -/
def NoneDue (s : MemoryStorage) (now : Int) : Prop :=
  ∀ id invoice, s.lookup id = some invoice → isPendingInvoiceExpired invoice now = false

theorem noneDue_of_contents {s : MemoryStorage} {now : Int} (h : s.contents.all (fun invoice =>
      !isPendingInvoiceExpired invoice now) = true) : NoneDue s now := by
  intro id invoice hlook
  have hnot := all_eq_true.mp h invoice ((mem_contents_iff s invoice).mpr ⟨id, hlook⟩)
  rw [Bool.not_eq_true'] at hnot
  exact hnot

/-- A sweep that finds nothing changes nothing. -/
theorem SweptTo.quiet (hmid : SweptTo times s mid) (h : ∀ now ∈ times, NoneDue s now)
    (id : String) : mid.lookup id = s.lookup id := by
  rw [hmid.lookup]
  cases hlook : s.lookup id with
  | none => rfl
  | some invoice =>
    rw [map_some]
    rcases expireAll_cases times invoice with heq | ⟨⟨now, hmem, hdue⟩, -⟩
    · rw [heq]
    rw [h now hmem id invoice hlook] at hdue
    cases hdue

/-! ## What eviction does -/

/-- `s'` is `s` with some entries gone; no object is touched. -/
structure Shrinks (s s' : MemoryStorage) : Prop where
  objects : s'.objects = s.objects
  config : s'.config = s.config
  get : ∀ id, s'.invoices.get id = s.invoices.get id ∨ s'.invoices.get id = none

theorem Shrinks.refl (s : MemoryStorage) : Shrinks s s :=
  ⟨rfl, rfl, fun _ => .inl rfl⟩

theorem Shrinks.trans {s s' s'' : MemoryStorage} (h : Shrinks s s')
    (h' : Shrinks s' s'') : Shrinks s s'' where
  objects := h'.objects.trans h.objects
  config := h'.config.trans h.config
  get id := by
    rcases h'.get id with heq | hnone
    · rw [heq]
      exact h.get id
    · exact .inr hnone

theorem Shrinks.wf {s s' : MemoryStorage} (h : Shrinks s s') (hwf : WF s) : WF s' := by
  intro id r hget
  rw [h.objects]
  rcases h.get id with heq | hnone
  · exact hwf id r (heq ▸ hget)
  rw [hnone] at hget
  cases hget

theorem evictOldest_shrinks (s : MemoryStorage) (k : String) : Shrinks s (s.evictOldest k) := by
  cases hlook : s.lookup k with
  | none =>
    rw [evictOldest, hlook]
    exact ⟨rfl, rfl, fun _ => .inl rfl⟩
  | some oldest =>
    rw [evictOldest, hlook]
    refine ⟨rfl, rfl, fun id => ?_⟩
    show (s.invoices.delete k).get id = _ ∨ (s.invoices.delete k).get id = _
    rw [get_delete]
    by_cases hk : k = id
    · rw [if_pos hk]
      exact .inr rfl
    rw [if_neg hk]
    exact .inl rfl

/-- A round of eviction on a well-formed store removes exactly one entry. -/
theorem size_evictOldest {s : MemoryStorage} (h : WF s) {k : String}
    (hk : s.invoices.oldest = some k) : (s.evictOldest k).invoices.size + 1 = s.invoices.size := by
  have hhas := oldest_has hk
  obtain ⟨oldest, hlook⟩ := h.has_iff.mp hhas
  rw [evictOldest, hlook]
  exact size_delete_of_has hhas

theorem evictLoop_shrinks (fuel : Nat) (s : MemoryStorage) : Shrinks s (evictLoop fuel s) := by
  induction fuel generalizing s with
  | zero => exact Shrinks.refl s
  | succ fuel ih =>
    rw [evictLoop]
    split
    · cases s.invoices.oldest with
      | none => exact Shrinks.refl s
      | some k => exact (evictOldest_shrinks s k).trans (ih _)
    · exact Shrinks.refl s

theorem evictIfFull_shrinks (s : MemoryStorage) : Shrinks s s.evictIfFull :=
  evictLoop_shrinks s.invoices.size s

theorem evictIfFull_of_room {s : MemoryStorage}
    (h : s.invoices.size < s.config.maxEntries) : s.evictIfFull = s := by
  rw [evictIfFull]
  cases s.invoices.size with
  | zero => rfl
  | succ n =>
    rw [evictLoop, if_neg]
    omega

/-- **EVICTION MAKES ROOM**: the loop ends with space for one more entry; the
    fuel never runs out first. -/
theorem size_evictIfFull {s : MemoryStorage} (h : WF s) :
    s.evictIfFull.invoices.size < s.config.maxEntries := by
  have hloop : ∀ (fuel : Nat) (s : MemoryStorage), WF s → s.invoices.size ≤ fuel →
      (evictLoop fuel s).invoices.size < s.config.maxEntries := by
    intro fuel
    induction fuel with
    | zero =>
      intro s _ hle
      have hpos := s.config.maxEntries_pos
      rw [evictLoop]
      omega
    | succ fuel ih =>
      intro s hwf hle
      rw [evictLoop]
      by_cases hfull : s.config.maxEntries ≤ s.invoices.size
      · rw [if_pos hfull]
        cases hold : s.invoices.oldest with
        | none =>
          have hzero := oldest_eq_none.mp hold
          have hpos := s.config.maxEntries_pos
          show s.invoices.size < _
          omega
        | some k =>
          have hsize := size_evictOldest hwf hold
          have hshr := evictOldest_shrinks s k
          rw [← hshr.config]
          exact ih _ (hshr.wf hwf) (by omega)
      · rw [if_neg hfull]
        omega
  exact hloop _ s h (Nat.le_refl _)

/-! ## What a write does -/

/-- The store `setEntry` writes into: the old entry dropped, or room made. -/
private def room (s : MemoryStorage) (id : String) : MemoryStorage :=
  if s.invoices.has id then { s with invoices := s.invoices.delete id }
  else s.evictIfFull

private theorem room_shrinks (s : MemoryStorage) (id : String) : Shrinks s (s.room id) := by
  rw [room]
  split
  · refine ⟨rfl, rfl, fun id' => ?_⟩
    show (s.invoices.delete id).get id' = _ ∨ _
    rw [get_delete]
    by_cases hid : id = id'
    · rw [if_pos hid]
      exact .inr rfl
    rw [if_neg hid]
    exact .inl rfl
  · exact evictIfFull_shrinks s

theorem objects_setEntry (s : MemoryStorage) (invoice : StoredInvoice) (writtenAt : Int) :
    (s.setEntry invoice writtenAt).objects = s.objects.alloc invoice :=
  congrArg (Heap.alloc · invoice) (room_shrinks s invoice.id).objects

theorem get_setEntry_self (s : MemoryStorage) (invoice : StoredInvoice) (writtenAt : Int) :
    (s.setEntry invoice writtenAt).invoices.get invoice.id = some s.objects.next := by
  show ((s.room invoice.id).invoices.set invoice.id
    (s.room invoice.id).objects.next).get invoice.id = _
  rw [get_set_self, (room_shrinks s invoice.id).objects]

variable {invoice : StoredInvoice} {s : MemoryStorage} {id : String}

theorem get_setEntry_of_ne (s : MemoryStorage) (writtenAt : Int) (hid : invoice.id ≠ id) :
    (s.setEntry invoice writtenAt).invoices.get id = s.invoices.get id
    ∨ (s.setEntry invoice writtenAt).invoices.get id = none := by
  have hset : (s.setEntry invoice writtenAt).invoices.get id
      = (s.room invoice.id).invoices.get id :=
    get_set_of_ne _ _ hid
  rw [hset]
  exact (room_shrinks s invoice.id).get id

theorem get_setEntry_of_room (s : MemoryStorage) (writtenAt : Int) (hid : invoice.id ≠ id)
    (hroom : s.invoices.has invoice.id = true ∨ s.invoices.size < s.config.maxEntries) :
    (s.setEntry invoice writtenAt).invoices.get id = s.invoices.get id := by
  have hset : (s.setEntry invoice writtenAt).invoices.get id
      = (s.room invoice.id).invoices.get id :=
    get_set_of_ne _ _ hid
  rw [hset, room]
  by_cases hhas : s.invoices.has invoice.id = true
  · rw [if_pos hhas]
    exact get_delete_of_ne _ hid
  · rw [if_neg hhas, evictIfFull_of_room (hroom.resolve_left hhas)]

theorem invoicesByMemo_setEntry_of_room (s : MemoryStorage) (writtenAt : Int)
    (hroom : s.invoices.has invoice.id = true ∨ s.invoices.size < s.config.maxEntries) :
    (s.setEntry invoice writtenAt).invoicesByMemo
      = s.invoicesByMemo.set invoice.memo invoice.id := by
  show (s.room invoice.id).invoicesByMemo.set _ _ = _
  rw [room]
  by_cases hhas : s.invoices.has invoice.id = true
  · rw [if_pos hhas]
  · rw [if_neg hhas, evictIfFull_of_room (hroom.resolve_left hhas)]

theorem lookup_setEntry_self (s : MemoryStorage) (invoice : StoredInvoice) (writtenAt : Int) :
    (s.setEntry invoice writtenAt).lookup invoice.id = some invoice := by
  rw [lookup_of_get (get_setEntry_self s invoice writtenAt), objects_setEntry]
  exact Heap.read_alloc_self _ _

theorem wf_setEntry (h : WF s) (invoice : StoredInvoice)
    (writtenAt : Int) : WF (s.setEntry invoice writtenAt) := by
  intro id r hget
  rw [objects_setEntry]
  by_cases hid : invoice.id = id
  · subst hid
    rw [get_setEntry_self] at hget
    cases hget
    exact ⟨invoice, Heap.read_alloc_self _ _, rfl⟩
  rcases get_setEntry_of_ne s writtenAt hid with heq | hnone
  · rw [heq] at hget
    obtain ⟨invoice', hread, hid'⟩ := h id r hget
    exact ⟨invoice', Heap.read_alloc_of_read invoice hread, hid'⟩
  rw [hnone] at hget
  cases hget

private theorem lookup_setEntry_of_get {s : MemoryStorage} (h : WF s)
    {invoice : StoredInvoice} {writtenAt : Int} {id : String}
    (hget : (s.setEntry invoice writtenAt).invoices.get id = s.invoices.get id) :
    (s.setEntry invoice writtenAt).lookup id = s.lookup id := by
  cases hr : s.invoices.get id with
  | none =>
    rw [hr] at hget
    rw [lookup_eq_none_of_get hget, lookup_eq_none_of_get hr]
  | some r =>
    rw [hr] at hget
    obtain ⟨invoice', hread, -⟩ := h id r hr
    rw [lookup_of_get hget, lookup_of_get hr, objects_setEntry, hread]
    exact Heap.read_alloc_of_read invoice hread

theorem lookup_setEntry_of_ne (h : WF s) (writtenAt : Int) (hid : invoice.id ≠ id) :
    (s.setEntry invoice writtenAt).lookup id = s.lookup id
    ∨ (s.setEntry invoice writtenAt).lookup id = none := by
  rcases get_setEntry_of_ne s writtenAt hid with heq | hnone
  · exact .inl (lookup_setEntry_of_get h heq)
  · exact .inr (lookup_eq_none_of_get hnone)

theorem lookup_setEntry_of_room (h : WF s) (writtenAt : Int) (hid : invoice.id ≠ id)
    (hroom : s.invoices.has invoice.id = true ∨ s.invoices.size < s.config.maxEntries) :
    (s.setEntry invoice writtenAt).lookup id = s.lookup id :=
  lookup_setEntry_of_get h (get_setEntry_of_room s writtenAt hid hroom)

theorem lookup_setEntry_update (h : WF s) {id₀ : String}
    (hlook : s.lookup id₀ = some invoice) {updates : InvoiceUpdate}
    (hkeeps : updates.id = none) (writtenAt : Int) (id : String) :
    (s.setEntry (updatedRecord invoice updates) writtenAt).lookup id
      = if id₀ = id then some (updatedRecord invoice updates) else s.lookup id := by
  have hid₀ : (updatedRecord invoice updates).id = id₀ := by
    show updates.id.getD invoice.id = id₀
    rw [hkeeps]
    exact h.lookup_id hlook
  by_cases hid : id₀ = id
  · rw [if_pos hid, ← hid, ← hid₀]
    exact lookup_setEntry_self s _ writtenAt
  rw [if_neg hid]
  exact lookup_setEntry_of_room h writtenAt (hid₀ ▸ hid)
    (.inl (hid₀ ▸ h.has_iff.mpr ⟨invoice, hlook⟩))

/-! ## What each method does -/

theorem readEntry_eq (s : MemoryStorage) (id : String) (readAt : Int) : ∃ s', SweptTo [] s s' ∧
      s.readEntry id readAt = (s', s.invoices.get id) := by
  rw [readEntry]
  cases s.invoices.get id with
  | none => exact ⟨s, SweptTo.refl s, rfl⟩
  | some r =>
    show ∃ s', _ ∧ (if s.isStale id readAt then _ else _) = _
    have hcount : SweptTo [] s { s with staleReads := s.staleReads + 1 } :=
      ⟨rfl, rfl, rfl, rfl, (SweptTo.refl s).lookup⟩
    split
    · exact ⟨_, hcount, rfl⟩
    · exact ⟨s, SweptTo.refl s, rfl⟩

theorem getInvoiceById_eq (s : MemoryStorage) (id : String) (sweepAt readAt : Int) :
    ∃ s', SweptTo [sweepAt] s s' ∧
      s.getInvoiceById id sweepAt readAt = (s', s.invoices.get id) := by
  obtain ⟨s', hs', heq⟩ := readEntry_eq (s.markExpiredInvoices sweepAt).1 id readAt
  exact ⟨s', (sweptTo_markExpired s sweepAt).trans hs', heq⟩

theorem createInvoice_cases (s : MemoryStorage) (data : NewInvoice)
    (uuid : String) (createdAt defaultFrom writtenAt : Int) :
    (∃ e, s.createInvoice data uuid createdAt defaultFrom writtenAt = (s, .error e))
    ∨ s.invoices.has (orElse data.id uuid) = false ∧
      (data.memo = "" ∨ s.invoicesByMemo.has data.memo = false) ∧
      s.createInvoice data uuid createdAt defaultFrom writtenAt
        = (s.setEntry (newRecord data uuid createdAt defaultFrom) writtenAt,
            .ok s.objects.next) := by
  rw [createInvoice]
  by_cases hid : s.invoices.has (orElse data.id uuid) = true
  · rw [if_pos hid]
    exact .inl ⟨_, rfl⟩
  rw [if_neg hid]
  by_cases hmemo : data.memo ≠ "" ∧ s.invoicesByMemo.has data.memo = true
  · rw [if_pos hmemo]
    exact .inl ⟨_, rfl⟩
  rw [if_neg hmemo]
  refine .inr ⟨eq_false_of_ne_true hid, ?_, rfl⟩
  by_cases hempty : data.memo = ""
  · exact .inl hempty
  · exact .inr (eq_false_of_ne_true (fun h => hmemo ⟨hempty, h⟩))

/-- An update either leaves the store alone, and then returns no object, or
    passes the version check and writes the updated record.  The memo index is
    the only other thing it touches. -/
theorem updateInvoice_cases (s : MemoryStorage) (id : String)
    (updates : InvoiceUpdate) (expectedVersion : Option JsNumber) (writtenAt : Int) :
    (∃ out, s.updateInvoice id updates expectedVersion writtenAt = (s, out)
      ∧ ∀ r, out ≠ .ok (some r)) ∨ ∃ invoice memoIndex, s.lookup id = some invoice ∧
      checkVersion expectedVersion (.ofNat invoice.versionOr1) = .ok () ∧
      s.updateInvoice id updates expectedVersion writtenAt
        = (({ s with invoicesByMemo := memoIndex } : MemoryStorage).setEntry
            (updatedRecord invoice updates) writtenAt,
            .ok (some s.objects.next)) := by
  rw [updateInvoice]
  cases hlook : s.lookup id with
  | none => exact .inl ⟨_, rfl, nofun⟩
  | some invoice =>
    simp only []
    cases hver : checkVersion expectedVersion (.ofNat invoice.versionOr1) with
    | error e => exact .inl ⟨_, rfl, nofun⟩
    | ok u =>
      cases hmemo : updates.memo with
      | none => exact .inr ⟨invoice, s.invoicesByMemo, rfl, hver, rfl⟩
      | some memo =>
        simp only []
        by_cases hsame : memo ≠ invoice.memo
        · rw [if_pos hsame]
          by_cases htaken : s.invoicesByMemo.has memo = true
          · rw [if_pos htaken]
            exact .inl ⟨_, rfl, nofun⟩
          rw [if_neg htaken]
          exact .inr ⟨invoice, s.invoicesByMemo.delete invoice.memo, rfl, hver, rfl⟩
        · rw [if_neg hsame]
          exact .inr ⟨invoice, s.invoicesByMemo, rfl, hver, rfl⟩

theorem updateInvoice_of_check {s : MemoryStorage} {id : String}
    {invoice : StoredInvoice} (hlook : s.lookup id = some invoice)
    {updates : InvoiceUpdate} (hmemo : updates.memo = none)
    (expectedVersion : Option JsNumber) (writtenAt : Int) :
    s.updateInvoice id updates expectedVersion writtenAt
      = match checkVersion expectedVersion (.ofNat invoice.versionOr1) with
        | .error e => (s, .error e)
        | .ok _ => (s.setEntry (updatedRecord invoice updates) writtenAt,
            .ok (some s.objects.next)) := by
  rw [updateInvoice, hlook]
  simp only []
  cases checkVersion expectedVersion (.ofNat invoice.versionOr1) with
  | error e => rfl
  | ok u => simp only [hmemo]

theorem txHashTaken_iff {s : MemoryStorage} (h : WF s) (id txHash : String) :
    s.txHashTaken id txHash = true ↔ txHash ≠ "" ∧ ∃ other invoice, other ≠ id ∧
        s.lookup other = some invoice ∧ invoice.paymentTxHash = some txHash := by
  rw [txHashTaken, List.any_eq_true]
  constructor
  · rintro ⟨invoice, hmem, hb⟩
    obtain ⟨other, hlook⟩ := (mem_contents_iff s invoice).mp hmem
    simp only [Bool.and_eq_true, decide_eq_true_eq] at hb
    obtain ⟨⟨⟨hne, -⟩, hempty⟩, hhash⟩ := hb
    refine ⟨?_, other, invoice, ?_, hlook, hhash⟩
    · intro htx
      exact hempty (htx ▸ hhash)
    · exact fun ho => hne ((h.lookup_id hlook).trans ho)
  · rintro ⟨htx, other, invoice, hne, hlook, hhash⟩
    refine ⟨invoice, (mem_contents_iff s invoice).mpr ⟨other, hlook⟩, ?_⟩
    rw [h.lookup_id hlook, hhash]
    simp [hne, htx]

/-- A payment either leaves the swept store alone, and then returns no object,
    or finds a PENDING record that is not yet due, with a hash no other stored
    invoice carries (unless the hash is empty), and writes the paid record. -/
theorem markAsPaid_cases {s : MemoryStorage} (h : WF s)
    (id txHash payerPublicKey : String) (payerInfo : Option PayerInfo)
    (expectedVersion : Option JsNumber) (sweepAt now paidAt writtenAt : Int) :
    (∃ out, s.markAsPaid id txHash payerPublicKey payerInfo expectedVersion
        sweepAt now paidAt writtenAt = ((s.markExpiredInvoices sweepAt).1, out)
      ∧ ∀ r, out ≠ .ok (some r))
    ∨ ∃ invoice, (s.markExpiredInvoices sweepAt).1.lookup id = some invoice ∧
      invoice.status = .pending ∧ now < invoice.expiresAt ∧
      (txHash ≠ "" → ∀ other invoice', other ≠ id →
        (s.markExpiredInvoices sweepAt).1.lookup other = some invoice' →
        invoice'.paymentTxHash ≠ some txHash) ∧
      checkVersion expectedVersion (.ofNat invoice.versionOr1) = .ok () ∧
      s.markAsPaid id txHash payerPublicKey payerInfo expectedVersion sweepAt now paidAt writtenAt
        = ((s.markExpiredInvoices sweepAt).1.setEntry (updatedRecord invoice
              (paymentUpdate txHash payerPublicKey payerInfo paidAt)) writtenAt,
            .ok (some (s.markExpiredInvoices sweepAt).1.objects.next)) := by
  rw [markAsPaid]
  have hwf := (sweptTo_markExpired s sweepAt).wf h
  generalize (s.markExpiredInvoices sweepAt).1 = swept at hwf ⊢
  cases hlook : swept.lookup id with
  | none => exact .inl ⟨_, rfl, nofun⟩
  | some invoice =>
    simp only []
    by_cases hpend : invoice.status = .pending
    · rw [if_neg (not_not_intro hpend)]
      by_cases hdue : invoice.expiresAt ≤ now
      · rw [if_pos hdue]
        exact .inl ⟨_, rfl, nofun⟩
      rw [if_neg hdue]
      by_cases htaken : swept.txHashTaken id txHash = true
      · rw [if_pos htaken]
        exact .inl ⟨_, rfl, nofun⟩
      rw [if_neg htaken, updateInvoice_of_check hlook rfl]
      cases hver : checkVersion expectedVersion (.ofNat invoice.versionOr1) with
      | error e => exact .inl ⟨_, rfl, nofun⟩
      | ok u =>
        refine .inr ⟨invoice, rfl, hpend, not_le.mp hdue, ?_, hver, rfl⟩
        intro htx other invoice' hne hother hhash
        exact htaken ((txHashTaken_iff hwf id txHash).mpr
          ⟨htx, other, invoice', hne, hother, hhash⟩)
    · rw [if_pos hpend]
      exact .inl ⟨_, rfl, nofun⟩

end MemoryStorage

end Invoices

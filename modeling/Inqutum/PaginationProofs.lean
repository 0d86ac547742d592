import Inqutum.InvoiceCursorProofs
import Inqutum.InvoiceLifecycleProofs
import Inqutum.KeysetPagingProofs
import Mathlib.Data.Prod.Lex
import Mathlib.Data.String.Basic

/-!
# Walking the invoice list

`getInvoices` serves one page of a seller's invoices, newest first, and
the cursor of its last row while more rows follow.  A client walks the
list by sending that cursor back.  Between two pages other calls create,
pay, cancel, expire and evict invoices.

The pages are those of `Paging.walk` over what the store lists at each
request (`walk_refines`), so the rows come newest first and none is left
out.  That an id is shown once needs more: its creation time, and with it
its place in the order, does not change (`runCalls_bornIn`).

The decoder takes the cursors the encoder wrote in years of four digits,
and no others (`walk_refused_after_year_9999`).
-/

namespace Pagination

open Invoices Cursors MemoryStorage List Option JsText InvoiceMemoryService Char Prod
open OrderDual
open Paging hiding next

/-! ## The handler -/

structure ListQuery where
  sellerPublicKey : Option String
  status : Option String := none
  cursor : Option (List Char) := none
  limit : Option String := none
  offset : Option String := none

/-- A failed response: 500 of an internal failure, else 400.  The texts are
    left out. -/
inductive ListFailure where
  | sellerRequired
  | invalidStatus
  | invalidCursor
  | internal (cause : CursorError)

def invoiceStatuses : List String := ["PENDING", "PAID", "EXPIRED", "CANCELLED"]

structure ListPage where
  invoices : List StoredInvoice
  limit : Nat
  offset : Int
  total : Nat
  nextCursor : Option (List Char)
  hasMore : Bool

/-- `parseInt(text, 10)`. -/
def parseInt (text : String) : JsNumber :=
  let signed := text.toList.dropWhile isSpace
  let digits := match signed with
    | '-' :: rest => rest.takeWhile isDigit
    | '+' :: rest => rest.takeWhile isDigit
    | rest => rest.takeWhile isDigit
  if digits.isEmpty then .nan
  else
    let value := JsNumber.binary64 (JsNumber.digitsValue 10 digits)
    if signed.head? = some '-' then value.negate else value

/-- `toPositiveInt(value, fallback)`. -/
def toPositiveInt (value : Option String) (fallback : Int) : Int :=
  match parseInt (value.getD "undefined") with
  | .finite q => if 0 ≤ q then q.num else fallback
  | _ => fallback

def defaultInvoicePageLimit : Int := 50
def maxInvoicePageLimit : Int := 200

/-- The page size: never zero, never more than the maximum. -/
def pageLimit (limit : Option String) : Nat :=
  (min (max (toPositiveInt limit defaultInvoicePageLimit) 1) maxInvoicePageLimit).toNat

/-- `c.toUpperCase()`, on the letters that become one of A to Z. -/
def upperChar (c : Char) : Char :=
  if c = 'ı' then 'I' else if c = 'ſ' then 'S' else c.toUpper

/-- `status ? String(status).toUpperCase() : undefined`. -/
def statusFilter (status : Option String) : Option String :=
  (nonEmpty status).map (fun text => String.ofList (text.toList.map upperChar))

/-- `cursor ? decodeInvoiceCursor(cursor) : undefined`. -/
def readCursor : Option (List Char) → Except ListFailure (Option InvoiceCursor)
  | none => .ok none
  | some [] => .ok none
  | some text =>
    match decodeInvoiceCursor text with
    | none => .error .invalidCursor
    | some cursor => .ok (some cursor)

/-- The cursor of the last row, if another row follows. -/
def nextCursor (hasMore : Bool) (invoices : List StoredInvoice) :
    Except CursorError (Option (List Char)) :=
  match hasMore, invoices.getLast? with
  | true, some last => (encodeInvoiceCursor last.createdAt last.id).map some
  | _, _ => .ok none

def getInvoices (s : InvoiceMemoryService) (query : ListQuery)
    (clock : Clock) : InvoiceMemoryService × Except ListFailure ListPage :=
  match nonEmpty query.sellerPublicKey with
  | none => (s, .error .sellerRequired)
  | some seller =>
    let status := statusFilter query.status
    if status.any (fun text => decide (text ∉ invoiceStatuses)) then
      (s, .error .invalidStatus)
    else
      match readCursor query.cursor with
      | .error e => (s, .error e)
      | .ok after =>
        let limit := pageLimit query.limit
        let offset := if after.isSome then 0
          else toPositiveInt query.offset 0
        -- one extra row tells whether another page exists
        let found := s.getInvoicesBySeller seller status (limit + 1) offset after clock
        let rows := found.2.filter (fun row => row.sellerPublicKey == seller)
        let hasMore := decide (limit < rows.length)
        let invoices := rows.take limit
        match nextCursor hasMore invoices with
        | .error e => (found.1, .error (.internal e))
        | .ok next => (found.1, .ok ⟨invoices, limit, offset, invoices.length, next, hasMore⟩)

/-! ## The walk -/

/-- What a walk lists: one seller, and perhaps one status. -/
structure ListFilter where
  sellerPublicKey : String
  status : Option String := none

namespace ListFilter

/-- A filter the handler accepts. -/
def Valid (f : ListFilter) : Prop :=
  f.sellerPublicKey ≠ ""
  ∧ ∀ text ∈ statusFilter f.status, text ∈ invoiceStatuses

def Matches (f : ListFilter) (invoice : StoredInvoice) : Prop :=
  invoice.sellerPublicKey = f.sellerPublicKey
  ∧ ∀ text ∈ statusFilter f.status, invoice.status.text = text

end ListFilter

/-- A request for a page: the calls the service answers before it, the page
    size asked for, and the clock readings of the request. -/
structure PageRequest where
  calls : List Invoices.Call
  limit : Option String := none
  clock : Clock

/-- A page as it was served, with the state of the service afterwards. -/
abbrev Served := InvoiceMemoryService × Except ListFailure ListPage

namespace ListFilter

def request (f : ListFilter) (s : InvoiceMemoryService)
    (cursor : Option (List Char)) (r : PageRequest) : Served :=
  getInvoices (runCalls s r.calls)
    { sellerPublicKey := some f.sellerPublicKey
      status := f.status
      cursor := cursor
      limit := r.limit } r.clock

/-- Walk the list with the returned cursors until none is returned. -/
def walk (f : ListFilter) : InvoiceMemoryService → Option (List Char) →
    List PageRequest → List Served
  | _, _, [] => []
  | s, cursor, r :: rest =>
    let served := f.request s cursor r
    match served.2.toOption.bind ListPage.nextCursor with
    | some text => served :: walk f served.1 (some text) rest
    | none => [served]

end ListFilter

def rowsOf (served : Served) : List StoredInvoice :=
  match served.2 with
  | .ok page => page.invoices
  | .error _ => []

def visited (w : List Served) : List StoredInvoice := w.flatMap rowsOf

/-- The walk ended with a page that returned no cursor. -/
def finished (w : List Served) : Bool :=
  w.getLast?.any (fun served => served.2.toOption.any (fun page => page.nextCursor.isNone))

/-! ## The order of the rows -/

/-- The place of a row: newest first, then the greatest id first. -/
def place (createdAt : Int) (id : String) : Lex (Intᵒᵈ × Stringᵒᵈ) :=
  toLex (toDual createdAt, toDual (id.map toLower))

def position (invoice : StoredInvoice) : Lex (Intᵒᵈ × Stringᵒᵈ) :=
  place invoice.createdAt invoice.id

theorem newestFirstLe_iff (a b : Int × String) :
    newestFirstLe a b = true ↔ place a.1 a.2 ≤ place b.1 b.2 := by
  rw [place, place, Lex.toLex_le_toLex]
  simp only [newestFirstLe, Bool.or_eq_true, Bool.and_eq_true,
    decide_eq_true_eq, toDual_lt_toDual, toDual_le_toDual,
    toDual_inj]

theorem isAfterCursor_eq (invoice : StoredInvoice) (cursor : InvoiceCursor) :
    isAfterCursor invoice cursor
      = decide (place cursor.createdAt cursor.id < position invoice) := by
  rw [isAfterCursor, Bool.eq_iff_iff, Bool.not_eq_true', decide_eq_true_eq,
    ← Bool.not_eq_true, newestFirstLe_iff, not_le]
  rfl

/-- An id as the generator writes it: a UUID in lower case. -/
def IsGenerated (id : String) : Prop :=
  isUuid id.toList = true ∧ lowerCase id.toList = id.toList

variable {s : MemoryStorage} {id : String}

theorem IsGenerated.map_toLower (h : IsGenerated id) : id.map toLower = id := by
  have hlist : (id.map toLower).toList = id.toList := by
    rw [String.toList_map]
    exact h.2
  exact String.toList_inj.mp hlist

theorem place_inj {t t' : Int} {id id' : String} (h : IsGenerated id)
    (h' : IsGenerated id') (heq : place t id = place t' id') : t = t' ∧ id = id' := by
  have hpair := toLex_inj.mp heq
  obtain ⟨htime, hid⟩ := mk.inj hpair
  rw [h.map_toLower, h'.map_toLower] at hid
  exact ⟨toDual_inj.mp htime, toDual_inj.mp hid⟩

/-- Newest first, then id descending. -/
def NewerThan (a b : StoredInvoice) : Prop :=
  b.createdAt < a.createdAt ∨ a.createdAt = b.createdAt ∧ b.id < a.id

theorem newerThan_iff {a b : StoredInvoice} (ha : IsGenerated a.id)
    (hb : IsGenerated b.id) : NewerThan a b ↔ position a < position b := by
  rw [position, position, place, place, Lex.toLex_lt_toLex, ha.map_toLower, hb.map_toLower]
  simp only [NewerThan, toDual_lt_toDual, toDual_inj]

/-! ## When invoices were born -/

/-- The ids and creation times of the creations among the calls. -/
def births (calls : List Invoices.Call) : List (String × Int) :=
  calls.filterMap (fun call =>
    match call.1 with
    | .createInvoice _ _ uuid => some (uuid, call.2.createdAt)
    | _ => none)

/-- Every resident invoice is on the register, with its creation time. -/
def BornIn (register : List (String × Int)) (s : MemoryStorage) : Prop :=
  ∀ id invoice, s.lookup id = some invoice → (id, invoice.createdAt) ∈ register

theorem BornIn.mono {register register' : List (String × Int)} (h : BornIn register s)
    (hsub : register ⊆ register') : BornIn register' s :=
  fun id invoice hlook => hsub (h id invoice hlook)

/-- The invoices of a store, as a register. -/
def registerOf (s : MemoryStorage) : List (String × Int) :=
  s.contents.map (fun invoice => (invoice.id, invoice.createdAt))

theorem bornIn_registerOf (hwf : WF s) : BornIn (registerOf s) s := by
  intro id invoice hlook
  refine mem_map.mpr ⟨invoice, (mem_contents_iff s invoice).mpr ⟨id, hlook⟩, ?_⟩
  rw [hwf.lookup_id hlook]

theorem RecordStep.createdAt {clock : Clock} {op : ServiceOp} {after : Option StoredInvoice}
    (h : RecordStep s clock id op after) {invoice : StoredInvoice} (hafter : after = some invoice) :
    (∃ stored, s.lookup id = some stored ∧ stored.createdAt = invoice.createdAt)
    ∨ (id, invoice.createdAt) ∈ births [(op, clock)] := by
  cases h with
  | swept hsub =>
    obtain ⟨stored, hstored, rfl⟩ := map_eq_some_iff.mp hafter
    refine Or.inl ⟨stored, hstored, ?_⟩
    exact (expireAll_frame StoredInvoice.createdAt (fun _ => rfl) _ _).symm
  | evicted hother => cases hafter
  | created hfresh =>
    obtain rfl := some.inj hafter
    exact Or.inr mem_cons_self
  | paid hlook _ _ _ =>
    obtain rfl := some.inj hafter
    exact Or.inl ⟨_, hlook, rfl⟩
  | cancelled hlook _ =>
    obtain rfl := some.inj hafter
    exact Or.inl ⟨_, hlook, rfl⟩

theorem wf_runCalls {s : InvoiceMemoryService} (hwf : WF s.storage)
    (calls : List Invoices.Call) : WF (runCalls s calls).storage :=
  Run.wf (run_runCalls s calls) hwf

theorem births_cons (call : Invoices.Call) (rest : List Invoices.Call) :
    births (call :: rest) = births [call] ++ births rest := by
  show filterMap _ ([call] ++ rest) = _
  exact filterMap_append

/-- **BIRTHS**: whatever is called, the residents are on the register of what
    was there and what was created. -/
theorem runCalls_bornIn {s : InvoiceMemoryService} (hwf : WF s.storage)
    {register : List (String × Int)} (h : BornIn register s.storage) (calls : List Invoices.Call) :
    BornIn (register ++ births calls) (runCalls s calls).storage := by
  induction calls generalizing s register with
  | nil => exact h.mono (subset_append_left _ _)
  | cons call rest ih =>
    have hstep : Step s call (call.1.run s call.2).1 := rfl
    have hnext : BornIn (register ++ births [call]) (call.1.run s call.2).1.storage := by
      intro id invoice hlook
      rcases RecordStep.createdAt (hstep.record hwf id) hlook with
        ⟨stored, hstored, hsame⟩ | hborn
      · rw [← hsame]
        exact mem_append_left _ (h id stored hstored)
      · exact mem_append_right _ hborn
    rw [births_cons, ← append_assoc]
    exact ih (hstep.wf hwf) hnext

theorem bornIn_of_init (config : StorageConfig) (cacheEntries : Option Nat)
    (ttlMs : Option Int) (setup : List Invoices.Call) :
    WF (runCalls (.init config cacheEntries ttlMs) setup).storage
    ∧ BornIn (births setup) (runCalls (.init config cacheEntries ttlMs) setup).storage := by
  have hinit : WF (init config cacheEntries ttlMs).storage := wf_init config
  have hempty : BornIn [] (init config cacheEntries
      ttlMs).storage := fun _ _ h => nomatch h
  exact ⟨wf_runCalls hinit setup, runCalls_bornIn hinit hempty setup⟩

/-! ## What the store lists -/

theorem map_id_contents (hwf : WF s) : s.contents.map StoredInvoice.id = s.invoices.keys := by
  have hentry : ∀ e ∈ s.invoices.entries, ∃ invoice,
      s.objects.read e.2 = some invoice ∧ invoice.id = e.1 := by
    rintro ⟨id, r⟩ he
    exact hwf id r ((s.invoices.mem_entries_iff id r).mp he)
  rw [contents, InsertionMap.values, InsertionMap.keys]
  generalize s.invoices.entries = entries at hentry
  induction entries with
  | nil => rfl
  | cons e rest ih =>
    obtain ⟨invoice, hread, hid⟩ := hentry e mem_cons_self
    rw [map_cons, filterMap_cons_some hread, map_cons,
      map_cons, hid, ih (fun e' he' => hentry e' (mem_cons_of_mem _ he'))]

theorem nodup_ids_contents (hwf : WF s) : (s.contents.map StoredInvoice.id).Nodup := by
  rw [map_id_contents hwf]
  exact s.invoices.nodup

theorem mergeSort_ascending (hwf : WF s)
    (hids : ∀ id invoice, s.lookup id = some invoice → IsGenerated id)
    {rows : List StoredInvoice} (hrows : rows.Subperm s.contents) :
    (rows.mergeSort (fun a b => newestFirstLe (a.createdAt, a.id) (b.createdAt, b.id))).Pairwise
      (fun a b => position a < position b) := by
  set sorted := rows.mergeSort (fun a b =>
    newestFirstLe (a.createdAt, a.id) (b.createdAt, b.id)) with hsorted
  have hle : sorted.Pairwise (fun a b =>
      newestFirstLe (a.createdAt, a.id) (b.createdAt, b.id) = true) := by
    refine pairwise_mergeSort ?_ ?_ _
    · intro a b c
      simp only [newestFirstLe_iff]
      exact le_trans
    intro a b
    rw [Bool.or_eq_true]
    simp only [newestFirstLe_iff]
    exact le_total _ _
  have hperm : sorted.Subperm s.contents := (mergeSort_perm _ _).subperm.trans hrows
  have hdistinct : (sorted.map StoredInvoice.id).Nodup := by
    obtain ⟨kept, hkept, hsub⟩ := hperm
    exact (hkept.map _).nodup_iff.mp ((nodup_ids_contents hwf).sublist (hsub.map _))
  have hne := pairwise_map.mp hdistinct
  refine (hle.and hne).imp_of_mem ?_
  rintro a b ha hb ⟨hle, hid⟩
  have hgen : ∀ c ∈ sorted, IsGenerated c.id := by
    intro c hc
    obtain ⟨id, hlook⟩ := (mem_contents_iff s c).mp (hperm.subset hc)
    rw [hwf.lookup_id hlook]
    exact hids id c hlook
  refine lt_of_le_of_ne ((newestFirstLe_iff _ _).mp hle) ?_
  intro heq
  exact hid (place_inj (hgen a ha) (hgen b hb) heq).2

theorem filter_cursor (rows : List StoredInvoice) (after : Option InvoiceCursor) : (match after with
      | none => rows
      | some cursor => rows.filter (isAfterCursor · cursor))
    = rowsAfter position (after.map (fun c => place c.createdAt c.id)) rows := by
  cases after with
  | none => exact (rowsAfter_none _).symm
  | some cursor =>
    refine filter_congr ?_
    intro invoice _
    rw [isAfterCursor_eq, decide_eq_decide, map_some]
    constructor
    · intro hlt place hplace
      rw [← mem_some_iff.mp hplace]
      exact hlt
    intro hafter
    exact hafter _ rfl

namespace ListFilter

/-- The whole list, newest first. -/
def listing (f : ListFilter) (s : MemoryStorage) : List StoredInvoice :=
  let kept := s.contents.filter (fun invoice =>
    match nonEmpty (statusFilter f.status) with
    | none => true
    | some wanted => decide (invoice.status.text = wanted))
  ((kept.mergeSort newestFirst).filter (fun invoice =>
    invoice.sellerPublicKey == f.sellerPublicKey)).mergeSort
      (fun a b => newestFirstLe (a.createdAt, a.id) (b.createdAt, b.id))

variable {f : ListFilter} {s : MemoryStorage}

theorem nonEmpty_statusFilter (hf : f.Valid) :
    nonEmpty (statusFilter f.status) = statusFilter f.status := by
  cases hstatus : statusFilter f.status with
  | none => rfl
  | some text =>
    refine nonEmpty_eq_some.mpr ⟨rfl, ?_⟩
    rintro rfl
    exact absurd (hf.2 "" hstatus) (by decide)

theorem mem_listing (hf : f.Valid) {invoice : StoredInvoice} : invoice ∈ f.listing s
      ↔ (∃ id, s.lookup id = some invoice) ∧ f.Matches invoice := by
  rw [listing, mem_mergeSort, mem_filter, mem_mergeSort,
    mem_filter, mem_contents_iff, nonEmpty_statusFilter hf, beq_iff_eq,
    Matches]
  cases statusFilter f.status with
  | none => simp
  | some text => simp [and_assoc, and_comm]

theorem length_listing (hf : f.Valid) (h : ∀ invoice ∈ s.contents, f.Matches invoice) :
    (f.listing s).length = s.contents.length := by
  rw [listing, length_mergeSort, nonEmpty_statusFilter hf]
  have hkept : s.contents.filter (fun invoice =>
      match statusFilter f.status with
      | none => true
      | some wanted => decide (invoice.status.text = wanted))
      = s.contents := by
    refine filter_eq_self.mpr ?_
    intro invoice hmem
    have hstatus := (h invoice hmem).2
    cases hs : statusFilter f.status with
    | none => rfl
    | some text => exact decide_eq_true (hstatus text hs)
  rw [hkept, filter_eq_self.mpr, length_mergeSort]
  intro invoice hmem
  rw [mem_mergeSort] at hmem
  exact beq_iff_eq.mpr (h invoice hmem).1

theorem listing_ascending (hwf : WF s)
    (hids : ∀ id invoice, s.lookup id = some invoice → IsGenerated id) :
    (f.listing s).Pairwise (fun a b => position a < position b) :=
  mergeSort_ascending hwf hids (filter_sublist.subperm.trans
    ((mergeSort_perm _ _).subperm.trans filter_sublist.subperm))

end ListFilter

/-! ## One page -/

/-- The service after a page was served: the request swept the store. -/
def PageRequest.servedState (s : InvoiceMemoryService) (r : PageRequest) :
    InvoiceMemoryService :=
  let before := runCalls s r.calls
  { before with
    storage := (before.storage.markExpiredInvoices r.clock.sweepAt).1 }

/-- What a page request sees. -/
def ListFilter.snapshot (f : ListFilter) (s : InvoiceMemoryService)
    (r : PageRequest) : Snapshot StoredInvoice :=
  ⟨f.listing (r.servedState s).storage, pageLimit r.limit⟩

/-- The cursor a client sends stands for a place in the order. -/
def PointsTo (cursor : Option (List Char)) (after : Option (Lex (Intᵒᵈ × Stringᵒᵈ))) : Prop :=
  ∃ c, readCursor cursor = .ok c ∧ after = c.map (fun c => place c.createdAt c.id)

theorem one_le_pageLimit (limit : Option String) : 1 ≤ pageLimit limit := by
  rw [pageLimit, maxInvoicePageLimit]
  omega

theorem slice_zero {α : Type} (rows : List α) (n : Nat) :
    slice rows 0 (0 + ((n : Int) + 1)) = rows.take (n + 1) := by
  have hstop : clampIndex rows.length (0 + ((n : Int) + 1)) = min (n + 1) rows.length := by
    rw [clampIndex, if_neg (by omega)]
    congr 1
    omega
  have hstart : clampIndex rows.length 0 = 0 := by
    rw [clampIndex, if_neg (by omega)]
    exact Nat.zero_min rows.length
  rw [slice, hstop, hstart, drop_zero, Nat.sub_zero, ← take_eq_take_min]

theorem pointsTo_encode {createdAt : Int} {id : String}
    (hyear : FourDigitYear createdAt) (hid : IsGenerated id) :
    ∃ text, encodeInvoiceCursor createdAt id = .ok text
      ∧ PointsTo (some text) (some (place createdAt id)) := by
  obtain ⟨text, hencode, hdecode⟩ := decode_encode hyear hid.1
  rw [hid.2, String.ofList_toList] at hdecode
  refine ⟨text, hencode, ⟨some ⟨createdAt, id⟩, ?_, rfl⟩⟩
  cases text with
  | nil => cases hdecode
  | cons c rest => simp only [readCursor, hdecode]

section Page

variable {f : ListFilter} {s : InvoiceMemoryService} {r : PageRequest}
  {cursor : Option (List Char)} {after : Option (Lex (Intᵒᵈ × Stringᵒᵈ))}

theorem ListFilter.Valid.seller (hf : f.Valid) :
    nonEmpty (some f.sellerPublicKey) = some f.sellerPublicKey :=
  nonEmpty_eq_some.mpr ⟨rfl, hf.1⟩

theorem ListFilter.Valid.status (hf : f.Valid) : (statusFilter f.status).any
      (fun text => decide (text ∉ invoiceStatuses)) = false := by
  cases hs : statusFilter f.status with
  | none => rfl
  | some text => exact decide_eq_false (not_not_intro (hf.2 text hs))

theorem getInvoicesBySeller_eq (hf : f.Valid) (c : Option InvoiceCursor) :
    (runCalls s r.calls).getInvoicesBySeller f.sellerPublicKey
      (statusFilter f.status) (pageLimit r.limit + 1) 0 c r.clock
    = (r.servedState s, (rowsAfter position (c.map (fun c => place c.createdAt c.id))
        (f.snapshot s r).rows).take (pageLimit r.limit + 1)) := by
  rw [← slice_zero, ← filter_cursor]
  simp only [getInvoicesBySeller, if_neg hf.1]
  rfl

theorem request_eq (hf : f.Valid) (hcursor : PointsTo cursor after) :
    f.request s cursor r = (r.servedState s,
      match nextCursor (hasMore position after (f.snapshot s r))
          (page position after (f.snapshot s r)) with
      | .error e => .error (.internal e)
      | .ok next =>
        .ok ⟨page position after (f.snapshot s r), pageLimit r.limit,
          0, (page position after (f.snapshot s r)).length, next,
          hasMore position after (f.snapshot s r)⟩) := by
  obtain ⟨c, hread, rfl⟩ := hcursor
  generalize hafter : c.map (fun c => place c.createdAt c.id) = after
  have hfound := getInvoicesBySeller_eq (s := s) (r := r) hf c
  rw [hafter] at hfound
  have hoffset : (if c.isSome then 0 else toPositiveInt none 0) = 0 := by
    split
    · rfl
    · decide
  have hmine : ((rowsAfter position after
      (f.snapshot s r).rows).take (pageLimit r.limit + 1)).filter
        (fun row => row.sellerPublicKey == f.sellerPublicKey)
      = (rowsAfter position after (f.snapshot s r).rows).take (pageLimit r.limit + 1) := by
    refine filter_eq_self.mpr ?_
    intro row hrow
    have hmem := (mem_rowsAfter.mp (mem_of_mem_take hrow)).1
    exact beq_iff_eq.mpr ((ListFilter.mem_listing hf).mp hmem).2.1
  -- the extra row is there exactly if more rows follow
  have hmore : decide (pageLimit r.limit < ((rowsAfter position after
      (f.snapshot s r).rows).take (pageLimit r.limit + 1)).length)
      = hasMore position after (f.snapshot s r) := by
    rw [hasMore, length_take, decide_eq_decide]
    show _ ↔ pageLimit r.limit < _
    omega
  have htake : ((rowsAfter position after
      (f.snapshot s r).rows).take (pageLimit r.limit + 1)).take (pageLimit r.limit)
      = page position after (f.snapshot s r) := by
    rw [take_take, Nat.min_eq_left (Nat.le_succ _)]
    rfl
  rw [ListFilter.request, getInvoices]
  simp only [hf.seller, hf.status, hread, hoffset, hfound, hmine, hmore,
    htake, Bool.false_eq_true, if_false]
  split
  · rfl
  · rfl

theorem nextCursor_of_hasMore {after : Option (Lex (Intᵒᵈ × Stringᵒᵈ))}
    (hmore : hasMore position after (f.snapshot s r) = true) :
    ∃ last ∈ (f.snapshot s r).rows, nextCursor (hasMore position after (f.snapshot s r))
          (page position after (f.snapshot s r))
        = (encodeInvoiceCursor last.createdAt last.id).map some
      ∧ Paging.next position (page position after (f.snapshot s r))
        = some (position last) := by
  have hlen : (f.snapshot s r).limit < (rowsAfter position after
      (f.snapshot s r).rows).length := of_decide_eq_true hmore
  have hlimit : 1 ≤ (f.snapshot s r).limit := one_le_pageLimit r.limit
  have hne : page position after (f.snapshot s r) ≠ [] := by
    intro hnil
    have hzero := congrArg length hnil
    rw [page, length_take, length_nil] at hzero
    omega
  have hlast := getLast?_eq_some_getLast hne
  refine ⟨_, (mem_page (getLast_mem hne)).1, ?_, ?_⟩
  · simp only [nextCursor, hmore, hlast]
  rw [Paging.next, hlast]
  rfl

/-- **ONE PAGE** is a page of the listing.  A cursor comes with it exactly
    while more rows follow, and it points to the last row. -/
theorem request_page (hf : f.Valid) (hcursor : PointsTo cursor after)
    (hrows : ∀ row ∈ (f.snapshot s r).rows, IsGenerated row.id ∧ FourDigitYear row.createdAt) :
    ∃ page, f.request s cursor r = (r.servedState s, .ok page)
      ∧ page.invoices = Paging.page position after (f.snapshot s r)
      ∧ if Paging.hasMore position after (f.snapshot s r) then
          ∃ text, page.nextCursor = some text ∧ PointsTo (some text)
            (Paging.next position (Paging.page position after (f.snapshot s r)))
        else page.nextCursor = none := by
  rw [request_eq hf hcursor]
  cases hmore : hasMore position after (f.snapshot s r) with
  | false =>
    refine ⟨_, rfl, rfl, ?_⟩
    rw [if_neg Bool.false_ne_true]
  | true =>
    obtain ⟨last, hmem, hcur, hnext⟩ := nextCursor_of_hasMore hmore
    obtain ⟨hid, hyear⟩ := hrows last hmem
    obtain ⟨text, hencode, hpoints⟩ := pointsTo_encode hyear hid
    rw [hmore, hencode] at hcur
    rw [hcur]
    refine ⟨_, rfl, rfl, ?_⟩
    rw [if_pos rfl, hnext]
    exact ⟨text, rfl, hpoints⟩

/-- **A REFUSED PAGE**: if more than a page of invoices is listed and none was
    born in a year of four digits, the second request is refused. -/
theorem walk_refused (hf : f.Valid) (hmore : hasMore position none (f.snapshot s r) = true)
    (hrows : ∀ row ∈ (f.snapshot s r).rows, isUuid row.id.toList = true
      ∧ ¬ FourDigitYear row.createdAt ∧ |row.createdAt| ≤ 8640000000000000)
    (r' : PageRequest) (rest : List PageRequest) :
    ∃ served ∈ f.walk s none (r :: r' :: rest), served.2 = .error .invalidCursor := by
  obtain ⟨last, hmem, hcur, -⟩ := nextCursor_of_hasMore hmore
  obtain ⟨hid, hyear, hrange⟩ := hrows last hmem
  obtain ⟨text, hencode, hne, hdecode⟩ := decode_encode_wide hyear hrange hid
  rw [hencode] at hcur
  have hstart : PointsTo none none := ⟨none, rfl, rfl⟩
  have hfirst := request_eq (s := s) (r := r) hf hstart
  rw [hcur] at hfirst
  have hread : readCursor (some text) = .error .invalidCursor := by
    cases text with
    | nil => exact absurd rfl hne
    | cons c cs => simp only [readCursor, hdecode]
  have hsecond : (f.request (r.servedState s) (some text) r').2 = .error .invalidCursor := by
    rw [ListFilter.request, getInvoices]
    simp only [hf.seller, hf.status, hread, Bool.false_eq_true, if_false]
  refine ⟨f.request (r.servedState s) (some text) r', ?_, hsecond⟩
  rw [ListFilter.walk, hfirst]
  refine mem_cons_of_mem _ ?_
  rw [ListFilter.walk, hsecond]
  exact mem_cons_self

end Page

/-! ## The walk refines the abstract one -/

/-- The states in which a list of requests would be served. -/
def moments : InvoiceMemoryService → List PageRequest → List (InvoiceMemoryService × PageRequest)
  | _, [] => []
  | s, r :: rest => (r.servedState s, r) :: moments (r.servedState s) rest

def ListFilter.snapshots (f : ListFilter) (s : InvoiceMemoryService)
    (reqs : List PageRequest) : List (Snapshot StoredInvoice) :=
  (moments s reqs).map (fun m => ⟨f.listing m.1.storage, pageLimit m.2.limit⟩)

theorem finished_cons {served : Served} {page : ListPage}
    (hpage : served.2 = .ok page) {text : List Char}
    (hnext : page.nextCursor = some text) (w : List Served) :
    finished (served :: w) = finished w := by
  cases w with
  | nil => simp [finished, hpage, hnext, Except.toOption]
  | cons served' rest => simp only [finished, getLast?_cons_cons]

/-- What a walk has to do with the abstract walk over its snapshots. -/
structure Refines (f : ListFilter) (s : InvoiceMemoryService)
    (after : Option (Lex (Intᵒᵈ × Stringᵒᵈ))) (reqs : List PageRequest)
    (w : List Served) : Prop where
  ok : ∀ served ∈ w, ∃ page, served.2 = .ok page
  pages : w.map rowsOf = walk position after (f.snapshots s reqs)
  ends : finished w = finishes position after (f.snapshots s reqs)
  states : w.map fst = ((moments s reqs).map fst).take w.length

variable {register : List (String × Int)} {s : InvoiceMemoryService}

/-- **THE WALK REFINES THE ABSTRACT WALK** as long as its cursors are read
    back. -/
theorem walk_refines {f : ListFilter} (hf : f.Valid) {cursor : Option (List Char)}
    {after : Option (Lex (Intᵒᵈ × Stringᵒᵈ))} {reqs : List PageRequest}
    (hcursor : PointsTo cursor after) (hrows : ∀ m ∈ moments s reqs, ∀ row ∈ f.listing m.1.storage,
      IsGenerated row.id ∧ FourDigitYear row.createdAt) :
    Refines f s after reqs (f.walk s cursor reqs) := by
  induction reqs generalizing s cursor after with
  | nil => exact ⟨nofun, rfl, rfl, rfl⟩
  | cons r rest ih =>
    obtain ⟨page, hserved, hpage, hnext⟩ := request_page (r := r) hf hcursor (hrows _ mem_cons_self)
    have hsnaps : f.snapshots s (r :: rest)
        = f.snapshot s r :: f.snapshots (r.servedState s) rest := rfl
    have hmoments : moments s (r :: rest)
        = (r.servedState s, r) :: moments (r.servedState s) rest := rfl
    rw [ListFilter.walk]
    simp only [hserved, Except.toOption, bind_some]
    cases hmore : hasMore position after (f.snapshot s r) with
    | false =>
      rw [hmore, if_neg Bool.false_ne_true] at hnext
      rw [hnext]
      refine ⟨?_, ?_, ?_, rfl⟩
      · intro served hmem
        rw [mem_singleton.mp hmem]
        exact ⟨page, rfl⟩
      · rw [hsnaps, walk, hmore, if_neg Bool.false_ne_true, ← hpage]
        rfl
      rw [hsnaps, finishes, hmore, if_neg Bool.false_ne_true]
      simp [finished, Except.toOption, hnext]
    | true =>
      rw [hmore, if_pos rfl] at hnext
      obtain ⟨text, htext, hpoints⟩ := hnext
      have hrest := ih hpoints (fun m hm => hrows m (mem_cons_of_mem _ hm))
      rw [htext]
      refine ⟨?_, ?_, ?_, ?_⟩
      · intro served hmem
        rcases mem_cons.mp hmem with rfl | hmem
        · exact ⟨page, rfl⟩
        · exact hrest.ok served hmem
      · rw [hsnaps, walk, hmore, if_pos rfl, ← hrest.pages, ← hpage]
        rfl
      · rw [hsnaps, finishes, hmore, if_pos rfl, ← hrest.ends]
        exact finished_cons rfl htext _
      rw [hmoments, length_cons, map_cons, map_cons, take_succ_cons, hrest.states]

/-! ## The register of a walk -/

/-- The calls that come between the pages. -/
def callsOf (reqs : List PageRequest) : List Invoices.Call :=
  reqs.flatMap PageRequest.calls

theorem servedState_sweptTo (s : InvoiceMemoryService) (r : PageRequest) :
    SweptTo [r.clock.sweepAt] (runCalls s r.calls).storage (r.servedState s).storage :=
  sweptTo_markExpired _ _

theorem BornIn.swept {register : List (String × Int)}
    {s s' : MemoryStorage} {times : List Int} (h : BornIn register s)
    (hswept : SweptTo times s s') : BornIn register s' := by
  intro id invoice hlook
  rw [hswept.lookup] at hlook
  obtain ⟨stored, hstored, rfl⟩ := map_eq_some_iff.mp hlook
  rw [expireAll_frame StoredInvoice.createdAt (fun _ => rfl)]
  exact h id stored hstored

theorem births_append (calls calls' : List Invoices.Call) :
    births (calls ++ calls') = births calls ++ births calls' :=
  filterMap_append

/-- **THE REGISTER OF A WALK**: in every state in which a page is served the
    residents are those of the start and those created since. -/
theorem moments_bornIn (hwf : WF s.storage) (h : BornIn register s.storage)
    (reqs : List PageRequest) : ∀ m ∈ moments s reqs, WF m.1.storage
      ∧ BornIn (register ++ births (callsOf reqs)) m.1.storage := by
  induction reqs generalizing s register with
  | nil => exact fun m hm => nomatch hm
  | cons r rest ih =>
    have hswept := servedState_sweptTo s r
    have hwf' := hswept.wf (wf_runCalls hwf r.calls)
    have hborn := (runCalls_bornIn hwf h r.calls).swept hswept
    have hcalls : register ++ births (callsOf (r :: rest))
        = register ++ births r.calls ++ births (callsOf rest) := by
      rw [append_assoc, ← births_append]
      rfl
    intro m hm
    rw [hcalls]
    rcases mem_cons.mp hm with rfl | hm
    · exact ⟨hwf', hborn.mono (subset_append_left _ _)⟩
    · exact ih hwf' hborn m hm

/-- What the walks below rely on: the residents are on a register on which
    every id occurs once, is a generated one, and was born in a year of four
    digits. -/
structure Register (register : List (String × Int)) : Prop where
  once : (register.map fst).Nodup
  generated : ∀ b ∈ register, IsGenerated b.1
  years : ∀ b ∈ register, FourDigitYear b.2

theorem Register.unique (h : Register register) {id : String} {t t' : Int}
    (ht : (id, t) ∈ register) (ht' : (id, t') ∈ register) : t = t' :=
  (mk.inj (inj_on_of_nodup_map h.once ht ht' rfl)).2

section Walk

variable {f : ListFilter} {s : InvoiceMemoryService}
  {register : List (String × Int)} {reqs : List PageRequest}

theorem listing_born (hf : f.Valid) (hmoments : ∀ m ∈ moments s reqs, WF m.1.storage
      ∧ BornIn register m.1.storage) {m : InvoiceMemoryService × PageRequest}
    (hm : m ∈ moments s reqs) {row : StoredInvoice} (hrow : row ∈ f.listing m.1.storage) :
    (row.id, row.createdAt) ∈ register := by
  obtain ⟨⟨id, hlook⟩, -⟩ := (ListFilter.mem_listing hf).mp hrow
  obtain ⟨hwf, hborn⟩ := hmoments m hm
  rw [hwf.lookup_id hlook]
  exact hborn id row hlook

theorem walk_refines_start (hf : f.Valid) (hreg : Register register)
    (hmoments : ∀ m ∈ moments s reqs, WF m.1.storage ∧ BornIn register m.1.storage) :
    Refines f s none reqs (f.walk s none reqs) := by
  refine walk_refines hf ⟨none, rfl, rfl⟩ ?_
  intro m hm row hrow
  have hborn := listing_born hf hmoments hm hrow
  exact ⟨hreg.generated _ hborn, hreg.years _ hborn⟩

theorem snapshots_ordered (hreg : Register register)
    (hmoments : ∀ m ∈ moments s reqs, WF m.1.storage ∧ BornIn register m.1.storage) :
    ∀ snap ∈ f.snapshots s reqs, snap.Ordered position := by
  intro snap hsnap
  obtain ⟨m, hm, rfl⟩ := mem_map.mp hsnap
  obtain ⟨hwf, hborn⟩ := hmoments m hm
  refine ⟨ListFilter.listing_ascending hwf ?_, one_le_pageLimit _⟩
  intro id invoice hlook
  exact hreg.generated _ (hborn id invoice hlook)

theorem visited_born (hf : f.Valid) (hmoments : ∀ m ∈ moments s reqs, WF m.1.storage
      ∧ BornIn register m.1.storage) {row : StoredInvoice}
    (hrow : row ∈ (walk position none (f.snapshots s reqs)).flatten) :
    (row.id, row.createdAt) ∈ register := by
  obtain ⟨snap, hsnap, hmem⟩ := mem_of_mem_walk hrow
  obtain ⟨m, hm, rfl⟩ := mem_map.mp hsnap
  exact listing_born hf hmoments hm hmem

end Walk

/-! ## Exactly once -/

def stateAfter (s : InvoiceMemoryService) (reqs : List PageRequest) :
    InvoiceMemoryService :=
  reqs.foldl (fun s r => r.servedState s) s

/-- No creation takes an id that is resident or was taken before. -/
def NewIds (s : InvoiceMemoryService) (calls : List Invoices.Call) : Prop :=
  ((births calls).map fst).Nodup
  ∧ ∀ b ∈ births calls, s.storage.lookup b.1 = none

/-- What is promised of a walk that starts in `s`. -/
structure ExactlyOnce (f : ListFilter) (s : InvoiceMemoryService)
    (reqs : List PageRequest) : Prop where
  /-- No page is refused. -/
  served : ∀ served ∈ f.walk s none reqs, ∃ page, served.2 = .ok page
  /-- The rows come newest first, then by descending id. -/
  newestFirst : (visited (f.walk s none reqs)).Pairwise NewerThan
  /-- No id comes twice. -/
  once : ((visited (f.walk s none reqs)).map StoredInvoice.id).Nodup
  /-- An id that matches whenever a page is served comes up. -/
  complete : finished (f.walk s none reqs) = true → ∀ id, (∀ served ∈ f.walk s none reqs, ∃ invoice,
      served.1.storage.lookup id = some invoice ∧ f.Matches invoice) →
    id ∈ (visited (f.walk s none reqs)).map StoredInvoice.id
  /-- Once nothing is created any more, the walk ends. -/
  ends : ∀ more, births (callsOf more) = [] →
    (stateAfter s reqs).storage.contents.length < more.length →
    finished (f.walk s none (reqs ++ more)) = true

theorem moments_append (s : InvoiceMemoryService) (reqs more : List PageRequest) :
    moments s (reqs ++ more) = moments s reqs ++ moments (stateAfter s reqs) more := by
  induction reqs generalizing s with
  | nil => rfl
  | cons r rest ih =>
    rw [cons_append, moments, moments, ih]
    rfl

theorem length_moments (s : InvoiceMemoryService) (reqs : List PageRequest) :
    (moments s reqs).length = reqs.length := by
  induction reqs generalizing s with
  | nil => rfl
  | cons r rest ih => rw [moments, length_cons, ih, length_cons]

theorem wf_stateAfter {s : InvoiceMemoryService} (hwf : WF s.storage)
    (reqs : List PageRequest) : WF (stateAfter s reqs).storage := by
  induction reqs generalizing s with
  | nil => exact hwf
  | cons r rest ih => exact ih ((servedState_sweptTo s r).wf (wf_runCalls hwf r.calls))

section Walk

variable {f : ListFilter} {s : InvoiceMemoryService}
  {register : List (String × Int)} {reqs : List PageRequest}
  {after : Option (Lex (Intᵒᵈ × Stringᵒᵈ))} {w : List Served}

theorem visited_eq (h : Refines f s after reqs w) :
    visited w = (walk position after (f.snapshots s reqs)).flatten := by
  rw [visited, flatMap_def, h.pages]

theorem length_walk (h : Refines f s after reqs w) :
    (walk position after (f.snapshots s reqs)).length = w.length := by
  rw [← h.pages, length_map]

/-- Two visited rows, one after the other, have different ids: with the same
    id they would have the same place. -/
theorem visited_once (hf : f.Valid) (hreg : Register register)
    (hmoments : ∀ m ∈ moments s reqs, WF m.1.storage ∧ BornIn register m.1.storage) :
    ((visited (f.walk s none reqs)).map StoredInvoice.id).Nodup := by
  rw [visited_eq (walk_refines_start hf hreg hmoments)]
  refine pairwise_map.mpr ?_
  refine (walk_ascending (snapshots_ordered hreg hmoments) none).1.imp_of_mem ?_
  intro a b ha hb hlt hid
  have hborn := visited_born hf hmoments ha
  have hborn' := visited_born hf hmoments hb
  rw [hid] at hborn
  refine absurd hlt ?_
  rw [position, position, hid, hreg.unique hborn hborn']
  exact lt_irrefl _

theorem visited_newestFirst (hf : f.Valid) (hreg : Register register)
    (hmoments : ∀ m ∈ moments s reqs, WF m.1.storage ∧ BornIn register m.1.storage) :
    (visited (f.walk s none reqs)).Pairwise NewerThan := by
  rw [visited_eq (walk_refines_start hf hreg hmoments)]
  refine (walk_ascending (snapshots_ordered hreg hmoments) none).1.imp_of_mem ?_
  intro a b ha hb hlt
  exact (newerThan_iff (hreg.generated _ (visited_born hf hmoments ha))
    (hreg.generated _ (visited_born hf hmoments hb))).mpr hlt

theorem visited_complete (hf : f.Valid) (hreg : Register register)
    (hmoments : ∀ m ∈ moments s reqs, WF m.1.storage ∧ BornIn register m.1.storage)
    (hfin : finished (f.walk s none reqs) = true) {id : String}
    (hlisted : ∀ served ∈ f.walk s none reqs, ∃ invoice,
      served.1.storage.lookup id = some invoice ∧ f.Matches invoice) :
    id ∈ (visited (f.walk s none reqs)).map StoredInvoice.id := by
  have href := walk_refines_start hf hreg hmoments
  have hlisted' : ∀ m ∈ (moments s reqs).take (f.walk s none reqs).length,
      ∃ invoice, m.1.storage.lookup id = some invoice ∧ f.Matches invoice := by
    intro m hm
    have hstate : m.1 ∈ (f.walk s none reqs).map fst := by
      rw [href.states, ← map_take]
      exact mem_map_of_mem hm
    obtain ⟨served, hserved, heq⟩ := mem_map.mp hstate
    rw [← heq]
    exact hlisted served hserved
  -- the first page fixes the creation time
  obtain ⟨t, ht⟩ : ∃ t, (id, t) ∈ register := by
    cases hw : f.walk s none reqs with
    | nil =>
      rw [hw] at hfin
      cases hfin
    | cons served rest =>
      have hmem : served.1 ∈ (moments s reqs).map fst := by
        refine mem_of_mem_take (i := (f.walk s none reqs).length) ?_
        rw [← href.states, hw]
        exact mem_cons_self
      obtain ⟨m, hm, heq⟩ := mem_map.mp hmem
      obtain ⟨invoice, hlook, -⟩ := hlisted served (by
        rw [hw]
        exact mem_cons_self)
      rw [← heq] at hlook
      exact ⟨_, (hmoments m hm).2 id invoice hlook⟩
  rw [href.ends] at hfin
  obtain ⟨row, hrow, hplace⟩ := walk_complete
    (snapshots_ordered hreg hmoments) hfin (k := place t id)
    nofun (by
      intro snap hsnap
      rw [length_walk href, ListFilter.snapshots, ← map_take] at hsnap
      obtain ⟨m, hm, rfl⟩ := mem_map.mp hsnap
      obtain ⟨invoice, hlook, hmatch⟩ := hlisted' m hm
      obtain ⟨hwf, hborn⟩ := hmoments m (mem_of_mem_take hm)
      refine ⟨invoice, (ListFilter.mem_listing hf).mpr ⟨⟨id, hlook⟩, hmatch⟩, ?_⟩
      rw [position, hwf.lookup_id hlook, hreg.unique (hborn id invoice hlook) ht])
  rw [visited_eq href]
  have hborn := visited_born hf hmoments hrow
  refine mem_map.mpr ⟨row, hrow, ?_⟩
  exact (place_inj (hreg.generated _ hborn) (hreg.generated _ ht) hplace).2

theorem walk_ends (hf : f.Valid) (hreg : Register register)
    {more : List PageRequest} (hwf : WF s.storage)
    (hmoments : ∀ m ∈ moments s (reqs ++ more), WF m.1.storage ∧ BornIn register m.1.storage)
    (hnone : births (callsOf more) = [])
    (hlen : (stateAfter s reqs).storage.contents.length < more.length) :
    finished (f.walk s none (reqs ++ more)) = true := by
  have hordered := snapshots_ordered (f := f) hreg hmoments
  have hsplit : f.snapshots s (reqs ++ more)
      = f.snapshots s reqs ++ f.snapshots (stateAfter s reqs) more := by
    rw [ListFilter.snapshots, moments_append, map_append]
    rfl
  rw [(walk_refines_start hf hreg hmoments).ends, hsplit]
  rw [hsplit] at hordered
  refine finishes_append ?_ none
  intro after
  have hwf' := wf_stateAfter hwf reqs
  have hlate := moments_bornIn hwf' (bornIn_registerOf hwf') more
  rw [hnone, append_nil] at hlate
  have hplaces : ∀ snap ∈ f.snapshots (stateAfter s reqs) more,
      ∀ row ∈ snap.rows, position row ∈ (registerOf
        (stateAfter s reqs).storage).map (fun b => place b.2 b.1) := by
    intro snap hsnap row hrow
    obtain ⟨m, hm, rfl⟩ := mem_map.mp hsnap
    exact mem_map.mpr ⟨_, listing_born hf hlate hm hrow, rfl⟩
  refine walk_finishes (fun snap hsnap =>
    hordered snap (mem_append_right _ hsnap)) hplaces ?_
  refine lt_of_le_of_lt (length_filter_le _ _) ?_
  rw [length_map, registerOf, length_map, ListFilter.snapshots, length_map, length_moments]
  exact hlen

/-- **EXACTLY ONCE**, from a register of the residents and of what is created
    during the walk. -/
theorem exactlyOnce_of_register (hf : f.Valid) (hwf : WF s.storage)
    (hreg : Register (registerOf s.storage ++ births (callsOf reqs))) : ExactlyOnce f s reqs := by
  have hborn := bornIn_registerOf hwf
  have hmoments := moments_bornIn hwf hborn reqs
  refine ⟨(walk_refines_start hf hreg hmoments).ok,
    visited_newestFirst hf hreg hmoments, visited_once hf hreg hmoments,
    fun hfin id => visited_complete hf hreg hmoments hfin, ?_⟩
  intro more hnone hlen
  have hall := moments_bornIn hwf hborn (reqs ++ more)
  have hcalls : births (callsOf (reqs ++ more)) = births (callsOf reqs) := by
    rw [callsOf, flatMap_append, births_append]
    exact (congrArg _ hnone).trans (append_nil _)
  rw [hcalls] at hall
  exact walk_ends hf hreg hwf hall hnone hlen

end Walk

/-- **PAGINATION IS EXACTLY-ONCE** in years of four digits: whatever was
    called before and whatever is called between the pages, if all ids are
    fresh generated ones, a walk shows its rows newest first and no id twice,
    shows every invoice that matches at all its pages, and ends once nothing
    is created any more. -/
theorem pagination_exactly_once (config : StorageConfig)
    (cacheEntries : Option Nat) (ttlMs : Option Int) (setup : List Invoices.Call)
    (f : ListFilter) (hf : f.Valid) (reqs : List PageRequest)
    (hids : ∀ b ∈ births (setup ++ callsOf reqs), IsGenerated b.1)
    (hnew : NewIds (runCalls (.init config cacheEntries ttlMs) setup) (callsOf reqs))
    (hyears : ∀ b ∈ births (setup ++ callsOf reqs), FourDigitYear b.2) :
    ExactlyOnce f (runCalls (.init config cacheEntries ttlMs) setup) reqs := by
  set start := runCalls (.init config cacheEntries ttlMs) setup with hstart
  obtain ⟨hwf, hborn⟩ := bornIn_of_init config cacheEntries ttlMs setup
  rw [← hstart] at hwf hborn
  have hresident : ∀ b ∈ registerOf start.storage, b ∈ births setup
      ∧ start.storage.lookup b.1 ≠ none := by
    intro b hb
    obtain ⟨invoice, hmem, rfl⟩ := mem_map.mp hb
    obtain ⟨id, hlook⟩ := (mem_contents_iff _ _).mp hmem
    rw [hwf.lookup_id hlook]
    refine ⟨hborn id invoice hlook, ?_⟩
    rw [hlook]
    exact some_ne_none _
  have hsub : ∀ b ∈ registerOf start.storage ++ births (callsOf reqs),
      b ∈ births (setup ++ callsOf reqs) := by
    intro b hb
    rw [births_append]
    rcases mem_append.mp hb with hb | hb
    · exact mem_append_left _ (hresident b hb).1
    · exact mem_append_right _ hb
  refine exactlyOnce_of_register hf hwf ⟨?_, fun b hb => hids b (hsub b hb),
    fun b hb => hyears b (hsub b hb)⟩
  rw [List.map_append]
  refine List.Nodup.append ?_ hnew.1 ?_
  · rw [registerOf, List.map_map]
    exact nodup_ids_contents hwf
  intro id hid hid'
  obtain ⟨b, hb, rfl⟩ := mem_map.mp hid
  obtain ⟨b', hb', heq⟩ := mem_map.mp hid'
  have hfree := hnew.2 b' hb'
  rw [heq] at hfree
  exact (hresident b hb).2 hfree

/-! ## The year 10000 -/

/-- Two invoices of one seller, created at one instant. -/
def twoInvoices (createdAt : Int) : List Invoices.Call :=
  let input : CreateInvoiceInput := { sellerPublicKey := "G", amount := 5 }
  [(.createInvoice input "INV-1" "00000000-0000-4000-8000-000000000001", .at createdAt),
    (.createInvoice input "INV-2" "00000000-0000-4000-8000-000000000002", .at createdAt)]

/-- Requests for pages of one row, with nothing in between. -/
def onePerPage (createdAt : Int) (n : Nat) : List PageRequest :=
  replicate n ⟨[], some "1", .at createdAt⟩

theorem callsOf_onePerPage (createdAt : Int) (n : Nat) : callsOf (onePerPage createdAt n) = [] := by
  refine flatMap_eq_nil_iff.mpr ?_
  intro r hr
  rw [eq_of_mem_replicate hr]

theorem births_twoInvoices (createdAt : Int) : ∀ b ∈ births (twoInvoices createdAt),
      IsGenerated b.1 ∧ b.2 = createdAt := by
  simp only [births, twoInvoices, filterMap_cons, filterMap_nil, forall_mem_cons, IsGenerated]
  refine ⟨⟨⟨by decide, by decide⟩, rfl⟩, ⟨⟨by decide, by decide⟩, rfl⟩, nofun⟩

/-- The walk over two invoices of 1970, one to a page. -/
theorem pagination_exactly_once_two :
    (runCalls sampleService (twoInvoices 0)).storage.contents.length = 2 ∧
    ExactlyOnce ⟨"G", none⟩ (runCalls sampleService (twoInvoices 0)) (onePerPage 0 2) := by
  refine ⟨by decide +kernel, ?_⟩
  refine pagination_exactly_once (.ofOptions none none) none none
    (twoInvoices 0) ⟨"G", none⟩ ⟨by decide, nofun⟩
    (onePerPage 0 2) ?_ ?_ ?_
  · rw [callsOf_onePerPage, append_nil]
    exact fun b hb => (births_twoInvoices 0 b hb).1
  · rw [callsOf_onePerPage]
    exact ⟨nodup_nil, nofun⟩
  rw [callsOf_onePerPage, append_nil]
  intro b hb
  rw [(births_twoInvoices 0 b hb).2]
  exact ⟨by decide, by decide⟩

/-- At the first instant of the year 10000 the walk of two invoices, one to a
    page, is refused at its second page. -/
theorem walk_refused_after_year_9999 : ¬ ∀ (config : StorageConfig) (cacheEntries : Option Nat)
      (ttlMs : Option Int) (setup : List Invoices.Call) (f : ListFilter)
      (reqs : List PageRequest), f.Valid →
      (∀ b ∈ births (setup ++ callsOf reqs), IsGenerated b.1) →
      NewIds (runCalls (.init config cacheEntries ttlMs) setup) (callsOf reqs) →
      ExactlyOnce f (runCalls (.init config cacheEntries ttlMs) setup)
        reqs := by
  intro h
  have hvalid : ListFilter.Valid ⟨"G", none⟩ := ⟨by decide, nofun⟩
  have hborn := births_twoInvoices 253402300800000
  have honce := h (.ofOptions none none) none none
    (twoInvoices 253402300800000) ⟨"G", none⟩ (onePerPage 253402300800000 2)
    hvalid (by
      rw [callsOf_onePerPage, append_nil]
      exact fun b hb => (hborn b hb).1) (by
      rw [callsOf_onePerPage]
      exact ⟨nodup_nil, nofun⟩)
  obtain ⟨hwf, hregister⟩ := bornIn_of_init (.ofOptions none none) none none
    (twoInvoices 253402300800000)
  have hswept := servedState_sweptTo (runCalls sampleService
    (twoInvoices 253402300800000)) ⟨[], some "1", .at 253402300800000⟩
  have hsellers : (PageRequest.servedState (runCalls sampleService
      (twoInvoices 253402300800000)) ⟨[], some "1", .at 253402300800000⟩).storage.contents.map
          StoredInvoice.sellerPublicKey = ["G", "G"] := by
    decide +kernel
  have hmore : hasMore position none (ListFilter.snapshot ⟨"G", none⟩
      (runCalls sampleService (twoInvoices 253402300800000))
      ⟨[], some "1", .at 253402300800000⟩) = true := by
    have htwo := congrArg length hsellers
    rw [length_map] at htwo
    rw [hasMore, rowsAfter_none, ListFilter.snapshot,
      ListFilter.length_listing hvalid, htwo]
    · decide +kernel
    intro invoice hmem
    have hseller := mem_map_of_mem (f := StoredInvoice.sellerPublicKey) hmem
    rw [hsellers] at hseller
    refine ⟨?_, nofun⟩
    simpa using hseller
  obtain ⟨served, hserved, herror⟩ := walk_refused hvalid hmore (by
      intro row hrow
      obtain ⟨⟨id, hlook⟩, -⟩ := (ListFilter.mem_listing hvalid).mp hrow
      obtain ⟨⟨huuid, -⟩, htime⟩ := hborn _ (hregister.swept hswept id row hlook)
      rw [(hswept.wf hwf).lookup_id hlook]
      refine ⟨huuid, ?_, ?_⟩
      · rw [show row.createdAt = 253402300800000 from htime, FourDigitYear]
        omega
      rw [show row.createdAt = 253402300800000 from htime]
      decide)
    ⟨[], some "1", .at 253402300800000⟩ []
  obtain ⟨page, hpage⟩ := honce.served served hserved
  rw [herror] at hpage
  cases hpage

end Pagination

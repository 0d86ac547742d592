import Inqutum.ExportCsvProofs
import Inqutum.PaginationProofs

/-!
# Invoice exports

`ExportService.create` pages through the requester's invoices with a keyset
cursor, keeps the rows of the range up to a cap, and stores one artifact.
The signal of the caller is looked at before and after each page, and the
page loop is run with fuel.

`GatheredFrom` says what the rows read so far come to; `gather_page` that
one page more, of rows not seen before, comes to the rows of both.

What `redactSensitiveText` makes of a text is a parameter.
-/

namespace Exports

open Invoices MemoryStorage Pagination
open JsonText (Text Tree Writer unit ascii)
open List Bool

/-! ## Data -/

/-- What the constructor accepts of a limit: a positive integer. -/
abbrev PositiveInt := { n : Nat // 0 < n }

/-- A valid date; the request schema lets no other pass. -/
structure ValidDate where
  time : Int
  valid : |time| ≤ 8640000000000000

inductive ExportFormat where
  | json
  | csv

def ExportFormat.contentType : ExportFormat → String
  | .csv => "text/csv; charset=utf-8"
  | .json => "application/json; charset=utf-8"

structure ExportRequest where
  format : ExportFormat
  status : Option String := none
  fromDate : Option ValidDate := none
  toDate : Option ValidDate := none

/-- What `create` throws; the last is the `RangeError` of `toISOString`. -/
inductive ExportError where
  | forbidden
  | cancelled
  | invalidDate

/-- `ExportMetadata`.  The two instants are written as ISO texts in the
    body. -/
structure ExportMetadata where
  exportId : String
  generatedAt : Int
  expiresAt : Int
  sellerPublicKey : String
  status : Option String
  fromDate : Option Int
  toDate : Option Int
  recordCount : Nat
  truncated : Bool

structure ExportArtifact where
  metadata : ExportMetadata
  format : ExportFormat
  contentType : String
  body : Text
  owner : String

structure ExportService where
  redactSensitiveText : Text → Text
  retentionMs : PositiveInt
  maxRecords : PositiveInt
  pageSize : PositiveInt
  maxArtifacts : PositiveInt
  artifacts : InsertionMap String ExportArtifact
  expiredIds : InsertionMap String String

/-! ## Records -/

/-- The code units of a text of characters. -/
def textOf (s : String) : Text :=
  s.toList.flatMap (fun c => Utf8.pointUnits c.toNat)

def isoText (time : Int) : Text := (Cursors.toISOString time).map unit

/-- `new Date(d).toISOString()`; no date is beyond the range of dates. -/
def iso (time : Int) : Except ExportError Text :=
  if 8640000000000000 < |time| then .error .invalidDate
  else .ok (isoText time)

/-- `value ?? null`. -/
def orNull : Option Text → ExportValue
  | none => .null
  | some text => .text text

/-- The record of an invoice, from the texts of its dates. -/
def recordWith (redact : Text → Text) (invoice : StoredInvoice)
    (createdAt expiresAt : Text) (paidAt : Option Text) : ExportRecord
  | .id => .text (textOf invoice.id)
  | .memo => .text (redact (textOf invoice.memo))
  | .status => .text (textOf invoice.status.text)
  | .amount => .number (.finite invoice.amount)
  | .assetCode => .text (textOf invoice.assetCode)
  | .assetIssuer => orNull (invoice.assetIssuer.map textOf)
  | .description => orNull (invoice.description.map (fun text => redact (textOf text)))
  | .createdAt => .text createdAt
  | .expiresAt => .text expiresAt
  | .paidAt => orNull paidAt
  | .paymentTxHash => orNull (invoice.paymentTxHash.map textOf)

def toExportRecord (redact : Text → Text) (invoice : StoredInvoice) :
    Except ExportError ExportRecord := do
  let createdAt ← iso invoice.createdAt
  let expiresAt ← iso invoice.expiresAt
  match invoice.paidAt with
  | none => return recordWith redact invoice createdAt expiresAt none
  | some time =>
    let paidAt ← iso time
    return recordWith redact invoice createdAt expiresAt (some paidAt)

/-! ## The body -/

/-- A line break and the indent of the next line. -/
def lineBreak (indent : Text) : Text := unit '\n' :: indent

/-- The parts of an array or an object, one on a line. -/
def block (opening closing : Char) (gap indent : Text) (parts : List Text) :
    Text :=
  if parts.isEmpty then [unit opening, unit closing]
  else
    let inner := lineBreak (indent ++ gap)
    unit opening :: (inner ++ Csv.joined (unit ',' :: inner) parts
      ++ lineBreak indent ++ [unit closing])

mutual

/-- `JSON.stringify(value, null, gap)`. -/
def stringifyIndented (w : Writer) (gap indent : Text) : Tree → Text
  | .null => ascii "null"
  | .bool b => ascii (if b then "true" else "false")
  | .num x => w.number x
  | .str s => w.quote s
  | .arr items => block '[' ']' gap indent (indentedItems w gap (indent ++ gap) items)
  | .obj members => block '\x7b' '\x7d' gap indent (indentedMembers w gap (indent ++ gap) members)

def indentedItems (w : Writer) (gap indent : Text) : List Tree → List Text
  | [] => []
  | x :: rest => stringifyIndented w gap indent x :: indentedItems w gap indent rest

def indentedMembers (w : Writer) (gap indent : Text) : List (Text × Tree) → List Text
  | [] => []
  | (key, x) :: rest =>
    (w.quote key ++ ascii ": " ++ stringifyIndented w gap indent x)
      :: indentedMembers w gap indent rest

end

def ExportValue.tree : ExportValue → Tree
  | .text value => .str value
  | .number (.finite q) => .num (.finite q)
  | _ => .null

def recordTree (record : ExportRecord) : Tree :=
  .obj (exportFields.map (fun f => (f.name, (record f).tree)))

def textOrNull : Option Text → Tree
  | none => .null
  | some text => .str text

/-- The members of the metadata, in the order they are written. -/
def ExportMetadata.members (m : ExportMetadata) : List (Text × Tree) :=
  [(ascii "schema", .str (ascii "quittance.invoice-export")),
    (ascii "schemaVersion", .num (.finite 1)),
    (ascii "exportId", .str (textOf m.exportId)),
    (ascii "generatedAt", .str (isoText m.generatedAt)),
    (ascii "expiresAt", .str (isoText m.expiresAt)),
    (ascii "scope", .obj [(ascii "sellerPublicKey", .str (textOf m.sellerPublicKey))]),
    (ascii "filters", .obj [(ascii "status", textOrNull (m.status.map textOf)),
      (ascii "from", textOrNull (m.fromDate.map isoText)),
      (ascii "to", textOrNull (m.toDate.map isoText))]),
    (ascii "recordCount", .num (.finite m.recordCount)),
    (ascii "truncated", .bool m.truncated),
    (ascii "fields", .arr (exportFields.map (fun f => .str f.name)))]

def renderJson (m : ExportMetadata) (records : List ExportRecord) : Text :=
  stringifyIndented Stringify.writer (ascii "  ") [] (.obj (m.members
    ++ [(ascii "records", .arr (records.map recordTree))]))

def renderBody (format : ExportFormat) (m : ExportMetadata) (records : List ExportRecord) : Text :=
  match format with
  | .csv => renderCsv records
  | .json => renderJson m records

/-! ## Retention -/

/-- `MAX_EXPIRED_TOMBSTONES`. -/
def maxExpiredTombstones : Nat := 1000

/-- Delete the oldest key, so many times. -/
def deleteOldest : Nat → InsertionMap String String → InsertionMap String String
  | 0, m => m
  | n + 1, m =>
    match m.oldest with
    | none => m
    | some key => deleteOldest n (m.delete key)

namespace ExportService

/-- `purgeExpired`: what it leaves. -/
def purgeExpired (x : ExportService) (nowMs : Int) : ExportService :=
  let dead := x.artifacts.entries.filter (fun e => decide (e.2.metadata.expiresAt ≤ nowMs))
  let expiredIds := dead.foldl (fun m e => m.set e.1 e.2.owner) x.expiredIds
  { x with
    artifacts := x.artifacts.filter (fun a => !decide (a.metadata.expiresAt ≤ nowMs))
    expiredIds := deleteOldest (expiredIds.size - maxExpiredTombstones) expiredIds }

def enforceQuota (x : ExportService) (owner : String) : ExportService :=
  let mine := x.artifacts.values.filter (fun a => a.owner == owner)
  { x with
    artifacts := (mine.take (mine.length - x.maxArtifacts.val)).foldl
      (fun m old => m.delete old.metadata.exportId) x.artifacts }

end ExportService

/-! ## Generation -/

/-- An abort, by the first look at the signal that finds it; an abort is never
    taken back. -/
structure AbortSignal where
  abortedAt : Option Nat := none

def AbortSignal.aborted (signal : AbortSignal) (look : Nat) : Bool :=
  signal.abortedAt.any (fun n => decide (n ≤ look))

/-- What the pages gave so far. -/
structure Gathered where
  records : List ExportRecord := []
  truncated : Bool := false
  seenIds : List String := []

/-- One export: who asks for what, and what the clocks and the id generator
    give during it. -/
structure ExportCall where
  requester : String
  request : ExportRequest
  scope : String
  purgeAt : Int
  pageAt : Nat → Clock
  generatedAt : Int
  exportId : String

namespace ExportService

/-- The rows of one page. -/
def gather (x : ExportService) (call : ExportCall) :
    Gathered → List StoredInvoice → Except ExportError Gathered
  | g, [] => .ok g
  | g, invoice :: rest =>
    if invoice.id ∈ g.seenIds then gather x call g rest
    else
      let g := { g with seenIds := g.seenIds ++ [invoice.id] }
      if invoice.sellerPublicKey ≠ call.requester then gather x call g rest
      else if call.request.fromDate.any (fun d =>
          decide (invoice.createdAt < d.time)) then gather x call g rest
      else if call.request.toDate.any (fun d =>
          decide (d.time < invoice.createdAt)) then gather x call g rest
      else if x.maxRecords.val ≤ g.records.length then
        .ok { g with truncated := true }
      else
        match toExportRecord x.redactSensitiveText invoice with
        | .error e => .error e
        | .ok record => gather x call { g with records := g.records ++ [record] } rest

/-- The position of the next page. -/
def nextAfter (page : List StoredInvoice) (after : Option InvoiceCursor) :
    Option InvoiceCursor :=
  match page.getLast? with
  | some tail => some ⟨tail.createdAt, tail.id⟩
  | none => after

/-- How the page loop ended, after so many looks at the signal. -/
structure Collected where
  storage : InvoiceMemoryService
  result : Except ExportError Gathered
  looks : Nat

/-- The `while` loop, after so many pages. -/
def collect (x : ExportService) (call : ExportCall) (signal : AbortSignal) :
    Nat → Nat → InvoiceMemoryService → Option InvoiceCursor → Gathered →
    Option Collected
  | 0, _, _, _, _ => none
  | fuel + 1, pages, storage, after, g =>
    if g.truncated then some ⟨storage, .ok g, 2 * pages⟩
    else if signal.aborted (2 * pages) then
      some ⟨storage, .error .cancelled, 2 * pages + 1⟩
    else
      let found := storage.getInvoicesBySeller call.requester
        call.request.status x.pageSize.val 0 after (call.pageAt pages)
      if signal.aborted (2 * pages + 1) then
        some ⟨found.1, .error .cancelled, 2 * pages + 2⟩
      else
        match gather x call g found.2 with
        | .error e => some ⟨found.1, .error e, 2 * pages + 2⟩
        | .ok g' =>
          if found.2.length < x.pageSize.val ∨ g'.seenIds.length = g.seenIds.length then
            some ⟨found.1, .ok g', 2 * pages + 2⟩
          else
            collect x call signal fuel (pages + 1) found.1 (nextAfter found.2 after) g'

def artifactOf (x : ExportService) (call : ExportCall) (g : Gathered) :
    Except ExportError ExportArtifact := do
  let expiresAt := call.generatedAt + x.retentionMs.val
  let _ ← iso call.generatedAt
  let _ ← iso expiresAt
  let metadata : ExportMetadata :=
    { exportId := call.exportId
      generatedAt := call.generatedAt
      expiresAt := expiresAt
      sellerPublicKey := call.requester
      status := call.request.status
      fromDate := call.request.fromDate.map ValidDate.time
      toDate := call.request.toDate.map ValidDate.time
      recordCount := g.records.length
      truncated := g.truncated }
  return { metadata := metadata
           format := call.request.format
           contentType := call.request.format.contentType
           body := renderBody call.request.format metadata g.records
           owner := call.requester }

/-- What one call leaves and gives, after so many looks at the signal. -/
structure Created where
  service : ExportService
  storage : InvoiceMemoryService
  result : Except ExportError ExportArtifact
  looks : Nat

/-- `create`; without a result when the fuel runs out in the page loop. -/
def create (x : ExportService) (storage : InvoiceMemoryService)
    (call : ExportCall) (signal : AbortSignal) (fuel : Nat) : Option Created :=
  if call.scope ≠ call.requester then
    some ⟨x, storage, .error .forbidden, 0⟩
  else
    let purged := x.purgeExpired call.purgeAt
    (purged.collect call signal fuel 0 storage none {}).map (fun out =>
      match out.result.bind (purged.artifactOf call) with
      | .error e => ⟨purged, out.storage, .error e, out.looks⟩
      | .ok artifact =>
        let stored := { purged with
          artifacts := purged.artifacts.set call.exportId artifact }
        ⟨stored.enforceQuota call.requester, out.storage, .ok artifact, out.looks⟩)

end ExportService

/-! ## Records of dated invoices -/

/-- Every date of the invoice is a date. -/
structure Dated (invoice : StoredInvoice) : Prop where
  createdAt : |invoice.createdAt| ≤ 8640000000000000
  expiresAt : |invoice.expiresAt| ≤ 8640000000000000
  paidAt : ∀ time ∈ invoice.paidAt, |time| ≤ 8640000000000000

/-- The record of a dated invoice. -/
def recordOf (redact : Text → Text) (invoice : StoredInvoice) : ExportRecord :=
  recordWith redact invoice (isoText invoice.createdAt)
    (isoText invoice.expiresAt) (invoice.paidAt.map isoText)

theorem iso_eq {time : Int} (h : |time| ≤ 8640000000000000) :
    iso time = .ok (isoText time) := if_neg (not_lt.mpr h)

theorem toExportRecord_eq {invoice : StoredInvoice} (h : Dated invoice) (redact : Text → Text) :
    toExportRecord redact invoice = .ok (recordOf redact invoice) := by
  rw [toExportRecord, iso_eq h.createdAt, iso_eq h.expiresAt, recordOf]
  cases hpaid : invoice.paidAt with
  | none => rfl
  | some time =>
    show (iso time >>= _) = _
    rw [iso_eq (h.paidAt time hpaid)]
    rfl

theorem mapM_toExportRecord {rows : List StoredInvoice}
    (h : ∀ invoice ∈ rows, Dated invoice) (redact : Text → Text) :
    rows.mapM (toExportRecord redact) = .ok (rows.map (recordOf redact)) := by
  induction rows with
  | nil => rfl
  | cons invoice rest ih =>
    rw [mapM_cons, toExportRecord_eq (h invoice (.head _)), ih (fun i hi => h i (.tail _ hi))]
    rfl

/-! ## One pass over rows -/

/-- The row is the requester's, and of the range. -/
def ExportCall.keeps (call : ExportCall) (invoice : StoredInvoice) : Bool :=
  invoice.sellerPublicKey == call.requester
    && !call.request.fromDate.any (fun d => decide (invoice.createdAt < d.time))
    && !call.request.toDate.any (fun d => decide (d.time < invoice.createdAt))

/-- What the rows read so far come to. -/
structure GatheredFrom (x : ExportService) (call : ExportCall)
    (rows : List StoredInvoice) (g : Gathered) : Prop where
  records : g.records = ((rows.filter call.keeps).take x.maxRecords.val).map
    (recordOf x.redactSensitiveText)
  truncated : g.truncated = decide (x.maxRecords.val < (rows.filter call.keeps).length)
  seen : g.truncated = false → g.seenIds = rows.map StoredInvoice.id

section Pass

variable {x : ExportService} {call : ExportCall} {rows : List StoredInvoice}
  {g : Gathered}

theorem gatheredFrom_nil : GatheredFrom x call [] {} := by
  refine ⟨?_, (decide_eq_false (Nat.not_lt_zero _)).symm, fun _ => rfl⟩
  rw [filter_nil, take_nil]
  rfl

theorem GatheredFrom.full (h : GatheredFrom x call rows g)
    (hfull : g.truncated = true) (more : List StoredInvoice) :
    GatheredFrom x call (rows ++ more) g := by
  have hlt : x.maxRecords.val < (rows.filter call.keeps).length :=
    of_decide_eq_true (h.truncated.symm.trans hfull)
  refine ⟨?_, ?_, fun hopen => ?_⟩
  · rw [h.records, filter_append, take_append_of_le_length hlt.le]
  · rw [hfull, filter_append, length_append]
    refine (decide_eq_true ?_).symm
    omega
  rw [hfull] at hopen
  cases hopen

theorem GatheredFrom.length (h : GatheredFrom x call rows g) (hopen : g.truncated = false) :
    (rows.filter call.keeps).length ≤ x.maxRecords.val
      ∧ g.records.length = (rows.filter call.keeps).length := by
  have hle : (rows.filter call.keeps).length ≤ x.maxRecords.val :=
    not_lt.mp (of_decide_eq_false (h.truncated.symm.trans hopen))
  refine ⟨hle, ?_⟩
  rw [h.records, length_map, length_take, Nat.min_eq_right hle]

variable {invoice : StoredInvoice}

theorem GatheredFrom.skip (h : GatheredFrom x call rows g) (hopen : g.truncated = false)
    (hskip : call.keeps invoice = false) : GatheredFrom x call (rows ++ [invoice])
      { g with seenIds := g.seenIds ++ [invoice.id] } := by
  have hfilter : (rows ++ [invoice]).filter call.keeps = rows.filter call.keeps := by
    rw [filter_append, filter_singleton, hskip]
    exact append_nil _
  refine ⟨by rw [hfilter]; exact h.records, by rw [hfilter]; exact h.truncated, fun _ => ?_⟩
  rw [map_append, ← h.seen hopen]
  rfl

theorem GatheredFrom.push (h : GatheredFrom x call rows g) (hopen : g.truncated = false)
    (hkeep : call.keeps invoice = true) (hroom : g.records.length < x.maxRecords.val) :
    GatheredFrom x call (rows ++ [invoice])
      { g with
        records := g.records ++ [recordOf x.redactSensitiveText invoice]
        seenIds := g.seenIds ++ [invoice.id] } := by
  have hfilter : (rows ++ [invoice]).filter call.keeps = rows.filter call.keeps ++ [invoice] := by
    rw [filter_append, filter_singleton, hkeep]
    rfl
  obtain ⟨-, hlen⟩ := h.length hopen
  rw [hlen] at hroom
  refine ⟨?_, ?_, fun _ => ?_⟩
  · rw [hfilter, take_of_length_le, map_append, h.records, take_of_length_le hroom.le]
    · rfl
    rw [length_append]
    exact hroom
  · rw [hfilter, length_append]
    refine hopen.trans (decide_eq_false ?_).symm
    exact not_lt.mpr hroom
  rw [map_append, ← h.seen hopen]
  rfl

theorem GatheredFrom.cut (h : GatheredFrom x call rows g) (hopen : g.truncated = false)
    (hkeep : call.keeps invoice = true) (hroom : x.maxRecords.val ≤ g.records.length)
    (seenIds : List String) : GatheredFrom x call (rows ++ [invoice])
      { g with truncated := true, seenIds := seenIds } := by
  have hfilter : (rows ++ [invoice]).filter call.keeps = rows.filter call.keeps ++ [invoice] := by
    rw [filter_append, filter_singleton, hkeep]
    rfl
  obtain ⟨hle, hlen⟩ := h.length hopen
  rw [hlen] at hroom
  refine ⟨?_, ?_, nofun⟩
  · rw [hfilter, take_append_of_le_length hroom]
    exact h.records
  rw [hfilter, length_append]
  refine (decide_eq_true ?_).symm
  exact Nat.lt_succ_of_le hroom

/-- **ONE PAGE**: the rows of a page that were not seen before are added to
    those that were, and a page with a row in it shows a new id. -/
theorem gather_page {page : List StoredInvoice}
    (h : GatheredFrom x call rows g) (hopen : g.truncated = false)
    (hids : ((rows ++ page).map StoredInvoice.id).Nodup)
    (hdated : ∀ invoice ∈ page, Dated invoice) :
    ∃ g', x.gather call g page = .ok g' ∧ GatheredFrom x call (rows ++ page) g'
      ∧ g.seenIds.length + min 1 page.length ≤ g'.seenIds.length := by
  induction page generalizing rows g with
  | nil => exact ⟨g, rfl, by rwa [append_nil], le_refl _⟩
  | cons invoice rest ih =>
    have hsplit : rows ++ invoice :: rest = (rows ++ [invoice]) ++ rest := by
      rw [append_assoc, singleton_append]
    rw [hsplit] at hids ⊢
    have hnew : invoice.id ∉ g.seenIds := by
      rw [h.seen hopen]
      rw [map_append, map_append] at hids
      have hnodup := (nodup_append.mp hids).1
      intro hmem
      exact (nodup_append.mp hnodup).2.2 _ hmem _ (mem_singleton_self _) rfl
    have hrest : ∀ i ∈ rest, Dated i :=
      fun i hi => hdated i (.tail _ hi)
    -- the rest of the page, once this row is added to those that were seen
    have hnext : ∀ g₁ : Gathered, GatheredFrom x call (rows ++ [invoice]) g₁ →
        g₁.truncated = false → g₁.seenIds = g.seenIds ++ [invoice.id] →
        ∃ g', x.gather call g₁ rest = .ok g' ∧ GatheredFrom x call (rows ++ [invoice] ++ rest) g'
          ∧ g.seenIds.length + min 1 (invoice :: rest).length ≤ g'.seenIds.length := by
      intro g₁ hg₁ hopen₁ hseen₁
      obtain ⟨g', hrun, hg', hlen⟩ := ih hg₁ hopen₁ hids hrest
      refine ⟨g', hrun, hg', ?_⟩
      rw [hseen₁, length_append, length_singleton] at hlen
      rw [length_cons]
      omega
    rw [ExportService.gather, if_neg hnew]
    by_cases hkeep : call.keeps invoice = true
    · have hparts := hkeep
      rw [ExportCall.keeps, and_eq_true, and_eq_true, beq_iff_eq,
        not_eq_true', not_eq_true'] at hparts
      obtain ⟨⟨hseller, hfrom⟩, hto⟩ := hparts
      simp only [hseller, hfrom, hto, ne_eq, not_true_eq_false, if_false, false_eq_true]
      by_cases hroom : x.maxRecords.val ≤ g.records.length
      · rw [if_pos hroom]
        have hcut := h.cut hopen hkeep hroom (g.seenIds ++ [invoice.id])
        refine ⟨_, rfl, hcut.full rfl rest, ?_⟩
        rw [length_append, length_cons, length_singleton]
        omega
      rw [if_neg hroom, toExportRecord_eq (hdated invoice (.head _))]
      exact hnext _ (h.push hopen hkeep (not_le.mp hroom)) hopen rfl
    · rw [not_eq_true] at hkeep
      have hskip := hnext _ (h.skip hopen hkeep) hopen rfl
      rw [ExportCall.keeps, and_eq_false_iff, and_eq_false_iff,
        not_eq_false', not_eq_false', beq_eq_false_iff_ne] at hkeep
      split_ifs with hseller hfrom hto
      · exact hskip
      · exact hskip
      · exact hskip
      rcases hkeep with (hne | hfrom') | hto'
      · exact absurd hne hseller
      · exact absurd hfrom' hfrom
      · exact absurd hto' hto

end Pass

end Exports

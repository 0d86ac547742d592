import Inqutum.ExportServiceProofs

/-!
# An export is exact

A store is quiet during an export if no resident expires between two of
its pages.  It then lists the same rows at each page, so that the pages
come to one pass over these rows and the loop ends (`collect_exact`).

`create_exact`: the body is that of the requested invoices, newest first,
cut at the cap, and says whether it was cut; an abort that any look at the
signal finds leaves no artifact.
-/

namespace Exports

open Invoices MemoryStorage Pagination List JsText
open JsonText (Text ascii)
open ImportFormat (parseCsv)
open ExportService

/-! ## A quiet store -/

theorem sweep_quiet {now : Int} {rs : List Nat} {h : Heap StoredInvoice}
    (hnone : ∀ r ∈ rs, ∀ invoice, h.read r = some invoice →
      isPendingInvoiceExpired invoice now = false) : (sweep now rs h).1 = h := by
  induction rs with
  | nil => rfl
  | cons r rest ih =>
    have hrest := ih (fun r' hr' => hnone r' (.tail _ hr'))
    rw [sweep]
    cases hread : h.read r with
    | none => exact hrest
    | some invoice =>
      simp only [hnone r (.head _) invoice hread, Bool.false_eq_true, if_false]
      exact hrest

theorem markExpired_quiet {s : MemoryStorage} {now : Int}
    (h : NoneDue s now) : (s.markExpiredInvoices now).1 = s := by
  have hsweep : (sweep now s.invoices.values s.objects).1 = s.objects := by
    refine sweep_quiet ?_
    intro r hr invoice hread
    obtain ⟨id, hget⟩ := (s.invoices.mem_values_iff r).mp hr
    exact h id invoice (lookup_eq_some_iff.mpr ⟨r, hget, hread⟩)
  rw [markExpiredInvoices, hsweep]

namespace ExportCall

/-- The store as the first page finds it. -/
def source (call : ExportCall) (s : MemoryStorage) : MemoryStorage :=
  (s.markExpiredInvoices (call.pageAt 0).sweepAt).1

/-- Nothing but the first page changes the store during the export. -/
def Quiet (call : ExportCall) (s : MemoryStorage) : Prop :=
  ∀ n, NoneDue (call.source s) (call.pageAt n).sweepAt

/-- The status is the one asked for, if one is. -/
def hasStatus (call : ExportCall) (invoice : StoredInvoice) : Bool :=
  match nonEmpty call.request.status with
  | none => true
  | some wanted => decide (invoice.status.text = wanted)

/-- The rows the store finds for the requester. -/
def found (call : ExportCall) (s : MemoryStorage) : List StoredInvoice :=
  let all := (s.contents.filter call.hasStatus).mergeSort newestFirst
  if call.requester = "" then all
  else all.filter (fun invoice => invoice.sellerPublicKey == call.requester)

/-- The rows the store lists for the requester, newest first. -/
def listed (call : ExportCall) (s : MemoryStorage) : List StoredInvoice :=
  (call.found s).mergeSort (fun a b => newestFirstLe (a.createdAt, a.id) (b.createdAt, b.id))

/-- What the export is asked for. -/
structure Requested (call : ExportCall) (s : MemoryStorage) (invoice : StoredInvoice) : Prop where
  stored : ∃ id, s.lookup id = some invoice
  seller : invoice.sellerPublicKey = call.requester
  status : ∀ wanted ∈ nonEmpty call.request.status, invoice.status.text = wanted
  fromDate : ∀ d ∈ call.request.fromDate, d.time ≤ invoice.createdAt
  toDate : ∀ d ∈ call.request.toDate, invoice.createdAt ≤ d.time

theorem keeps_iff (call : ExportCall) (invoice : StoredInvoice) :
    call.keeps invoice = true ↔ invoice.sellerPublicKey = call.requester
      ∧ (∀ d ∈ call.request.fromDate, d.time ≤ invoice.createdAt)
      ∧ ∀ d ∈ call.request.toDate, invoice.createdAt ≤ d.time := by
  rw [keeps, Bool.and_eq_true, Bool.and_eq_true, beq_iff_eq, and_assoc]
  cases call.request.fromDate <;> cases call.request.toDate <;> simp

theorem hasStatus_iff (call : ExportCall) (invoice : StoredInvoice) :
    call.hasStatus invoice = true ↔ ∀ wanted ∈ nonEmpty call.request.status,
        invoice.status.text = wanted := by
  rw [hasStatus]
  cases nonEmpty call.request.status with
  | none => simp
  | some wanted => simp

theorem mem_listed_keeps (call : ExportCall) (s : MemoryStorage) (invoice : StoredInvoice) :
    invoice ∈ (call.listed s).filter call.keeps ↔ call.Requested s invoice := by
  have hall : invoice ∈ (s.contents.filter call.hasStatus).mergeSort newestFirst
      ↔ (∃ id, s.lookup id = some invoice) ∧ ∀ wanted ∈ nonEmpty call.request.status,
          invoice.status.text = wanted := by
    rw [mem_mergeSort, mem_filter, mem_contents_iff, hasStatus_iff]
  rw [mem_filter, keeps_iff, listed, mem_mergeSort, found]
  constructor
  · rintro ⟨hmem, hseller, hfrom, hto⟩
    obtain ⟨hstored, hwanted⟩ := hall.mp (by
      split_ifs at hmem
      · exact hmem
      · exact (mem_filter.mp hmem).1)
    exact ⟨hstored, hseller, hwanted, hfrom, hto⟩
  · intro h
    have hmem := hall.mpr ⟨h.stored, h.status⟩
    refine ⟨?_, h.seller, h.fromDate, h.toDate⟩
    split_ifs
    · exact hmem
    · exact mem_filter.mpr ⟨hmem, beq_iff_eq.mpr h.seller⟩

theorem found_subperm (call : ExportCall) (s : MemoryStorage) :
    (call.found s).Subperm s.contents := by
  have hall := (mergeSort_perm (s.contents.filter call.hasStatus)
    newestFirst).subperm.trans filter_sublist.subperm
  rw [found]
  split_ifs
  · exact hall
  · exact filter_sublist.subperm.trans hall

theorem mem_contents_of_listed {call : ExportCall} {s : MemoryStorage}
    {invoice : StoredInvoice} (h : invoice ∈ call.listed s) : invoice ∈ s.contents :=
  (call.found_subperm s).subset (mem_mergeSort.mp h)

theorem page_eq (call : ExportCall) {storage : InvoiceMemoryService}
    {s : MemoryStorage} {clock : Clock}
    (hswept : (storage.storage.markExpiredInvoices clock.sweepAt).1 = s)
    (size : PositiveInt) (after : Option InvoiceCursor) :
    storage.getInvoicesBySeller call.requester call.request.status size.val 0 after clock
      = ({ storage with storage := s }, (Paging.rowsAfter position
        (after.map (fun c => place c.createdAt c.id))
        (call.listed s)).take size.val) := by
  obtain ⟨n, hn⟩ := Nat.exists_eq_succ_of_ne_zero size.2.ne'
  rw [← filter_cursor, hn, Nat.succ_eq_add_one, ← slice_zero]
  simp only [InvoiceMemoryService.getInvoicesBySeller, getAllInvoices, hswept,
    Nat.cast_add, Nat.cast_one]
  rfl

end ExportCall

/-! ## The page loop -/

section Loop

variable {x : ExportService} {call : ExportCall}

theorem aborted_never (look : Nat) : ({} : AbortSignal).aborted look = false := rfl

theorem AbortSignal.aborted_mono {signal : AbortSignal} {look later : Nat}
    (h : signal.aborted look = true) (hle : look ≤ later) : signal.aborted later = true := by
  rw [AbortSignal.aborted] at h ⊢
  cases hat : signal.abortedAt with
  | none =>
    rw [hat] at h
    cases h
  | some n =>
    rw [hat] at h
    exact decide_eq_true ((of_decide_eq_true h).trans hle)

theorem nextAfter_eq {page : List StoredInvoice} (hne : page ≠ [])
    (shown : List StoredInvoice) (after : Option InvoiceCursor) :
    (nextAfter page after).map (fun c => place c.createdAt c.id)
      = Paging.next position (shown ++ page) := by
  rw [nextAfter, Paging.next, getLast?_append_of_ne_nil _ hne,
    getLast?_eq_some_getLast hne]
  rfl

/-- What the pages have in common: one list in ascending order, and a store
    that no further sweep changes. -/
structure SteadyStore (call : ExportCall) (s : MemoryStorage) : Prop where
  ascending : (call.listed s).Pairwise (fun a b => position a < position b)
  ids : ((call.listed s).map StoredInvoice.id).Nodup
  dated : ∀ invoice ∈ call.listed s, Dated invoice
  steady : ∀ n, (s.markExpiredInvoices (call.pageAt n).sweepAt).1 = s

/-- **THE LOOP**: with the rows shown so far gathered, it ends with all listed
    rows gathered, as far as the cap lets it. -/
theorem collect_exact {s : MemoryStorage} (hs : SteadyStore call s)
    {fuel pages : Nat} {storage : InvoiceMemoryService}
    {after : Option InvoiceCursor} {g : Gathered}
    {shown rest : List StoredInvoice} (hlisted : call.listed s = shown ++ rest)
    (hswept : (storage.storage.markExpiredInvoices (call.pageAt pages).sweepAt).1 = s)
    (hafter : after.map (fun c => place c.createdAt c.id) = Paging.next position shown)
    (hg : GatheredFrom x call shown g) (hfuel : rest.length < fuel) :
    ∃ out g', x.collect call {} fuel pages storage after g = some out
      ∧ out.result = .ok g' ∧ GatheredFrom x call (call.listed s) g' := by
  induction fuel generalizing pages storage after g shown rest with
  | zero => exact absurd hfuel (Nat.not_lt_zero _)
  | succ fuel ih =>
    rw [collect]
    by_cases hopen : g.truncated = true
    · rw [if_pos hopen]
      refine ⟨_, g, rfl, rfl, ?_⟩
      rw [hlisted]
      exact hg.full hopen rest
    rw [if_neg hopen]
    rw [Bool.not_eq_true] at hopen
    have hasc := hs.ascending
    rw [hlisted] at hasc
    have hpage := call.page_eq hswept x.pageSize after
    rw [hafter, hlisted, Paging.rowsAfter_next hasc] at hpage
    set page := rest.take x.pageSize.val with hpagedef
    have hsub : (shown ++ page).Sublist (call.listed s) := by
      rw [hlisted]
      exact (Sublist.refl shown).append (take_sublist _ _)
    obtain ⟨g', hrun, hg', hseen⟩ := gather_page hg hopen (hs.ids.sublist (hsub.map _))
      (fun i hi => hs.dated i (hsub.subset (mem_append_right _ hi)))
    simp only [aborted_never, Bool.false_eq_true, if_false, hpage, hrun]
    have hpos := x.pageSize.2
    have hlen : page.length = min x.pageSize.val rest.length := length_take
    split_ifs with hlast
    · -- the last page shows all the rest
      have hall : page = rest := by
        refine take_of_length_le ?_
        omega
      refine ⟨_, g', rfl, rfl, ?_⟩
      rw [hlisted, ← hall]
      exact hg'
    · rw [not_or, not_lt] at hlast
      have hne : page ≠ [] := by
        intro hnil
        rw [hnil, length_nil] at hlast
        omega
      have hnext : call.listed s = shown ++ page ++ rest.drop x.pageSize.val := by
        rw [hlisted, append_assoc, take_append_drop]
      refine ih hnext (hs.steady _) (nextAfter_eq hne shown after) hg' ?_
      rw [length_drop]
      omega

variable {storage : InvoiceMemoryService} {out : Collected}
  {after : Option InvoiceCursor} {fuel pages : Nat} {g : Gathered}

/-- A run that is never aborted looks at the signal twice for each page. -/
theorem two_looks (h : x.collect call {} fuel pages storage after g = some out) :
    2 * pages ≤ out.looks ∧ (g.truncated = false → 2 * pages + 2 ≤ out.looks) := by
  induction fuel generalizing pages storage after g with
  | zero => cases h
  | succ fuel ih =>
    rw [collect] at h
    by_cases hopen : g.truncated = true
    · rw [if_pos hopen] at h
      cases h
      refine ⟨le_refl _, fun hclosed => ?_⟩
      rw [hopen] at hclosed
      cases hclosed
    simp only [if_neg hopen, aborted_never, Bool.false_eq_true, if_false] at h
    have hmore : 2 * pages + 2 ≤ out.looks := by
      split at h
      · cases h
        exact le_refl _
      split_ifs at h
      · cases h
        exact le_refl _
      · exact (ih h).1
    exact ⟨by omega, fun _ => hmore⟩

/-- **CANCELLATION**: an abort that the last look finds, or an earlier one,
    ends the loop; any other leaves it as it is. -/
theorem collect_signal (signal : AbortSignal)
    (h : x.collect call {} fuel pages storage after g = some out) :
    (signal.aborted (out.looks - 1) = false →
      x.collect call signal fuel pages storage after g = some out)
    ∧ (signal.aborted (out.looks - 1) = true → 2 * pages < out.looks →
      ∃ out', x.collect call signal fuel pages storage after g = some out'
        ∧ out'.result = .error .cancelled) := by
  induction fuel generalizing pages storage after g with
  | zero => cases h
  | succ fuel ih =>
    obtain ⟨-, hlooks⟩ := two_looks h
    rw [collect] at h ⊢
    by_cases hopen : g.truncated = true
    · rw [if_pos hopen] at h ⊢
      refine ⟨fun _ => h, fun _ hlt => ?_⟩
      cases h
      exact absurd hlt (lt_irrefl _)
    have hlooks := hlooks (by rwa [Bool.not_eq_true] at hopen)
    simp only [if_neg hopen, aborted_never, Bool.false_eq_true, if_false] at h ⊢
    by_cases hfirst : signal.aborted (2 * pages) = true
    · have hlast := AbortSignal.aborted_mono hfirst (show 2 * pages ≤ out.looks - 1 by omega)
      rw [if_pos hfirst]
      refine ⟨fun hnot => ?_, fun _ _ => ⟨_, rfl, rfl⟩⟩
      rw [hlast] at hnot
      cases hnot
    rw [if_neg hfirst]
    by_cases hsecond : signal.aborted (2 * pages + 1) = true
    · have hlast := AbortSignal.aborted_mono hsecond (show 2 * pages + 1 ≤ out.looks - 1 by omega)
      rw [if_pos hsecond]
      refine ⟨fun hnot => ?_, fun _ _ => ⟨_, rfl, rfl⟩⟩
      rw [hlast] at hnot
      cases hnot
    · rw [if_neg hsecond]
      -- an abort that is found is found after this page
      have hlater : out.looks = 2 * pages + 2 → signal.aborted (out.looks - 1) ≠ true := by
        intro heq
        rw [heq]
        exact hsecond
      split at h
      · refine ⟨fun _ => h, fun haborted => ?_⟩
        cases h
        exact absurd haborted (hlater rfl)
      split_ifs at h ⊢ with hend
      · refine ⟨fun _ => h, fun haborted => ?_⟩
        cases h
        exact absurd haborted (hlater rfl)
      obtain ⟨hsame, hcancel⟩ := ih h
      refine ⟨hsame, fun haborted _ => hcancel haborted ?_⟩
      have hne : out.looks ≠ 2 * pages + 2 :=
        fun heq => hlater heq haborted
      omega

end Loop

/-! ## The export -/

/-- An export of the requester's own invoices, from a well-formed store with
    generated ids and valid dates that nothing changes meanwhile; the artifact
    can be dated. -/
structure Exportable (x : ExportService) (call : ExportCall) (s : MemoryStorage) : Prop where
  own : call.scope = call.requester
  wf : WF s
  generated : ∀ id invoice, s.lookup id = some invoice → IsGenerated id
  dated : ∀ id invoice, s.lookup id = some invoice → Dated invoice
  quiet : call.Quiet s
  generatedAt : |call.generatedAt| ≤ 8640000000000000
  expiresAt : |call.generatedAt + x.retentionMs.val| ≤ 8640000000000000

section Export

variable {x : ExportService} {call : ExportCall} {s : MemoryStorage}

theorem lookup_source {id : String} {invoice : StoredInvoice}
    (h : (call.source s).lookup id = some invoice) :
    ∃ stored, s.lookup id = some stored ∧ expireAll [(call.pageAt 0).sweepAt] stored = invoice := by
  have hswept := sweptTo_markExpired s (call.pageAt 0).sweepAt
  exact Option.map_eq_some_iff.mp ((hswept.lookup id).symm.trans h)

theorem Exportable.wf_source (h : Exportable x call s) : WF (call.source s) :=
  (sweptTo_markExpired s (call.pageAt 0).sweepAt).wf h.wf

theorem Exportable.generated_source (h : Exportable x call s) (id : String)
    (invoice : StoredInvoice)
    (hlook : (call.source s).lookup id = some invoice) : IsGenerated id := by
  obtain ⟨stored, hstored, -⟩ := lookup_source hlook
  exact h.generated id stored hstored

theorem Exportable.steady (h : Exportable x call s) : SteadyStore call (call.source s) where
  ascending := mergeSort_ascending h.wf_source h.generated_source (call.found_subperm _)
  ids := by
    obtain ⟨kept, hkept, hsub⟩ := (mergeSort_perm (call.found
      (call.source s)) _).subperm.trans (call.found_subperm (call.source s))
    exact (hkept.map _).nodup_iff.mp ((nodup_ids_contents h.wf_source).sublist (hsub.map _))
  dated := by
    intro invoice hmem
    obtain ⟨id, hlook⟩ := (mem_contents_iff _ _).mp (ExportCall.mem_contents_of_listed hmem)
    obtain ⟨stored, hstored, rfl⟩ := lookup_source hlook
    have hd := h.dated id stored hstored
    have hframe := fun {β : Type} (field : StoredInvoice → β) hfield =>
      @expireAll_frame β field hfield [(call.pageAt 0).sweepAt] stored
    refine ⟨?_, ?_, ?_⟩
    · rw [hframe StoredInvoice.createdAt (fun _ => rfl)]
      exact hd.createdAt
    · rw [hframe StoredInvoice.expiresAt (fun _ => rfl)]
      exact hd.expiresAt
    rw [hframe StoredInvoice.paidAt (fun _ => rfl)]
    exact hd.paidAt
  steady := fun n => markExpired_quiet (h.quiet n)

theorem Exportable.newestFirst (h : Exportable x call s) :
    ((call.listed (call.source s)).filter call.keeps).Pairwise NewerThan := by
  refine (h.steady.ascending.filter _).imp_of_mem ?_
  intro a b ha hb hlt
  have hgen : ∀ c ∈ (call.listed (call.source s)).filter call.keeps, IsGenerated c.id := by
    intro c hc
    obtain ⟨id, hlook⟩ := (mem_contents_iff _ _).mp
      (ExportCall.mem_contents_of_listed (mem_filter.mp hc).1)
    rw [h.wf_source.lookup_id hlook]
    exact h.generated_source id c hlook
  exact (newerThan_iff (hgen a ha) (hgen b hb)).mpr hlt

theorem Exportable.length_listed_le (h : Exportable x call s) :
    (call.listed (call.source s)).length ≤ s.contents.length := by
  have hsame : (call.source s).contents.length = s.contents.length := by
    have hlength : ∀ {t : MemoryStorage}, WF t → t.contents.length = t.invoices.keys.length := by
      intro t ht
      rw [← map_id_contents ht, length_map]
    rw [hlength h.wf_source, hlength h.wf]
    rfl
  rw [← hsame, ExportCall.listed, length_mergeSort]
  exact (call.found_subperm _).length_le

theorem Exportable.artifact (h : Exportable x call s) (g : Gathered) :
    ∃ artifact, x.artifactOf call g = .ok artifact ∧ artifact.body
        = renderBody call.request.format artifact.metadata g.records
      ∧ artifact.metadata.recordCount = g.records.length
      ∧ artifact.metadata.truncated = g.truncated := by
  rw [artifactOf]
  simp only [iso_eq h.generatedAt, iso_eq h.expiresAt]
  exact ⟨_, rfl, rfl, rfl, rfl⟩

/-- What is in the body: a header and one row of shown texts for each record,
    or one object with the metadata and every field of each record. -/
def Shows (body : Text) (m : ExportMetadata) (records : List ExportRecord) : ExportFormat → Prop
  | .csv => parseCsv body = (exportFields.map ExportField.name :: records.map shownRow, false)
  | .json => body = stringifyIndented Stringify.writer (ascii "  ") [] (.obj (m.members
      ++ [(ascii "records", .arr (records.map (fun record =>
        .obj (exportFields.map (fun f => (f.name, (record f).tree))))))]))

/-- The loop gathered the records of exactly these rows, up to the cap, and the
    artifact shows them. -/
structure Tells (x : ExportService) (storage : InvoiceMemoryService) (call : ExportCall)
    (fuel : Nat) (rows : List StoredInvoice) (artifact : ExportArtifact) : Prop where
  records : ∃ loop g, x.collect call {} fuel 0 storage none {} = some loop
    ∧ loop.result = .ok g ∧ x.artifactOf call g = .ok artifact
    ∧ (rows.take x.maxRecords.val).mapM (toExportRecord x.redactSensitiveText) = .ok g.records
    ∧ artifact.metadata.recordCount = g.records.length
    ∧ Shows artifact.body artifact.metadata g.records call.request.format
  truncated : artifact.metadata.truncated = true ↔ x.maxRecords.val < rows.length

/-- An abort that a look of the run finds, the last or an earlier one, leaves
    no artifact; a later one changes nothing. -/
def Cancels (x : ExportService) (storage : InvoiceMemoryService)
    (call : ExportCall) (fuel : Nat) (out : Created) : Prop :=
  ∀ signal : AbortSignal,
    if signal.aborted (out.looks - 1) = true then
      ∃ out', x.create storage call signal fuel = some out' ∧ out'.result = .error .cancelled
        ∧ out'.service = x.purgeExpired call.purgeAt
    else x.create storage call signal fuel = some out

/-- **THE EXPORT IS EXACT**: it ends, what it gathers and shows are the records
    of the requested invoices, newest first and each once, cut at the cap; it
    says that it is cut exactly if there are more; and while the signal is
    looked at, an abort stores nothing. -/
theorem create_exact {storage : InvoiceMemoryService} (h : Exportable x call storage.storage) :
    ∃ rows : List StoredInvoice, rows.Pairwise NewerThan ∧ (∀ invoice, invoice ∈ rows
        ↔ call.Requested (call.source storage.storage) invoice)
      ∧ ∀ fuel, storage.storage.contents.length < fuel →
        ∃ out artifact, x.create storage call {} fuel = some out
          ∧ out.result = .ok artifact
          ∧ Tells (x.purgeExpired call.purgeAt) storage call fuel rows artifact
          ∧ Cancels x storage call fuel out := by
  refine ⟨_, h.newestFirst, call.mem_listed_keeps _, ?_⟩
  intro fuel hfuel
  set purged := x.purgeExpired call.purgeAt with hpurged
  obtain ⟨out, g, hloop, hresult, hg⟩ := @collect_exact purged call _ h.steady
    fuel 0 storage none {} [] _ rfl rfl rfl gatheredFrom_nil
    (lt_of_le_of_lt h.length_listed_le hfuel)
  obtain ⟨artifact, hmade, hbody, hcount, htruncated⟩ :=
    @Exportable.artifact purged call storage.storage
      ⟨h.own, h.wf, h.generated, h.dated, h.quiet, h.generatedAt, h.expiresAt⟩ g
  have hcreate : ∀ signal, x.create storage call signal fuel
      = (purged.collect call signal fuel 0 storage none {}).map _ :=
    fun signal => if_neg (not_not_intro h.own)
  have hout := hcreate {}
  rw [hloop, Option.map_some] at hout
  simp only [hresult, Except.bind, ← hpurged, hmade] at hout
  refine ⟨_, artifact, hout, rfl, ⟨?_, ?_⟩, ?_⟩
  · refine ⟨out, g, hloop, hresult, hmade, ?_, hcount, ?_⟩
    · rw [hg.records]
      refine mapM_toExportRecord ?_ _
      intro invoice hmem
      exact h.steady.dated invoice (mem_filter.mp (mem_of_mem_take hmem)).1
    rw [hbody]
    cases call.request.format with
    | csv => exact rows_renderCsv g.records
    | json => rfl
  · rw [htruncated, hg.truncated, decide_eq_true_eq]
  intro signal
  obtain ⟨hsame, hcancel⟩ := collect_signal signal hloop
  split_ifs with haborted
  · obtain ⟨out', hrun, herror⟩ := hcancel haborted (by
      have hlooks := (two_looks hloop).2 rfl
      omega)
    have hout' := hcreate signal
    rw [hrun, Option.map_some] at hout'
    simp only [herror, Except.bind] at hout'
    exact ⟨_, hout', rfl, rfl⟩
  · rw [Bool.not_eq_true] at haborted
    rw [← hout, hcreate, hcreate, hloop, hsame haborted]

/-- An exporter of one row to a page, and of one record. -/
def oneRecord : ExportService where
  redactSensitiveText := id
  retentionMs := ⟨86400000, by decide⟩
  maxRecords := ⟨1, by decide⟩
  pageSize := ⟨1, by decide⟩
  maxArtifacts := ⟨20, by decide⟩
  artifacts := .empty
  expiredIds := .empty

def callOf (requester : String) : ExportCall where
  requester := requester
  request := { format := .csv }
  scope := requester
  purgeAt := 0
  pageAt := fun _ => .at 0
  generatedAt := 0
  exportId := "E"

/-- A service with two invoices of one seller. -/
def twoStored : InvoiceMemoryService := runCalls sampleService (twoInvoices 0)

theorem twoStored_contents : (twoStored.storage.contents.all (fun invoice =>
      decide (|invoice.createdAt| ≤ 8640000000000000)
        && decide (|invoice.expiresAt| ≤ 8640000000000000) && decide (invoice.paidAt = none)
        && decide (0 < invoice.expiresAt))
    && decide (twoStored.storage.contents.length < 3)) = true := by
  decide +kernel

theorem exportable_two : Exportable oneRecord (callOf "G") twoStored.storage := by
  obtain ⟨hwf, hborn⟩ := bornIn_of_init (.ofOptions none none) none none (twoInvoices 0)
  obtain ⟨hall, -⟩ := Bool.and_eq_true_iff.mp twoStored_contents
  have hrow : ∀ id invoice, twoStored.storage.lookup id = some invoice →
      Dated invoice ∧ 0 < invoice.expiresAt := by
    intro id invoice hlook
    have hcheck := all_eq_true.mp hall invoice ((mem_contents_iff _ _).mpr ⟨id, hlook⟩)
    simp only [Bool.and_eq_true, decide_eq_true_eq] at hcheck
    obtain ⟨⟨⟨hcreated, hexpires⟩, hpaid⟩, hlater⟩ := hcheck
    refine ⟨⟨hcreated, hexpires, fun time htime => ?_⟩, hlater⟩
    rw [hpaid] at htime
    cases htime
  refine ⟨rfl, hwf, ?_, fun id invoice hlook => (hrow id invoice hlook).1, ?_, by decide, by decide⟩
  · intro id invoice hlook
    exact (births_twoInvoices 0 _ (hborn id invoice hlook)).1
  intro n id invoice hlook
  obtain ⟨stored, hstored, rfl⟩ := lookup_source hlook
  have hlater : 0 < stored.expiresAt := (hrow id stored hstored).2
  refine Bool.eq_false_iff.mpr fun hdue => ?_
  rw [isPendingInvoiceExpired_iff, expireAll_frame StoredInvoice.expiresAt (fun _ => rfl)] at hdue
  exact absurd hdue.2 (not_le.mpr hlater)

theorem twoStored_rows : ((callOf "G").source twoStored.storage).contents.map (fun invoice =>
      (invoice.id, invoice.createdAt, invoice.sellerPublicKey))
    = [("00000000-0000-4000-8000-000000000001", 0, "G"),
      ("00000000-0000-4000-8000-000000000002", 0, "G")] := by
  decide +kernel

/-- Three rounds of the loop are enough for two invoices: the newer one is
    exported, and the artifact says that there are more. -/
theorem create_exact_two : ∃ out artifact record,
    oneRecord.create twoStored (callOf "G") {} 3 = some out ∧ out.result = .ok artifact
      ∧ artifact.metadata.truncated = true ∧ artifact.metadata.recordCount = 1
      ∧ (parseCsv artifact.body).1 = [exportFields.map ExportField.name, record]
      ∧ record.head? = some (ascii "00000000-0000-4000-8000-000000000002") := by
  obtain ⟨rows, hnewest, hmem, hrun⟩ := create_exact exportable_two
  obtain ⟨out, artifact, hout, hmade, ⟨⟨loop, g, -, -, -, hrecords, hcount, hshows⟩, htrunc⟩, -⟩ :=
    hrun 3 (of_decide_eq_true (Bool.and_eq_true_iff.mp twoStored_contents).2)
  obtain ⟨one, tail, hcontents, hone, htail⟩ := map_eq_cons_iff.mp twoStored_rows
  obtain ⟨two, tail, rfl, htwo, hnil⟩ := map_eq_cons_iff.mp htail
  cases map_eq_nil_iff.mp hnil
  simp only [Prod.mk.injEq] at hone htwo
  have hrows : ∀ invoice, invoice ∈ rows ↔ invoice = one ∨ invoice = two := by
    intro invoice
    rw [hmem, ← mem_pair, ← hcontents, mem_contents_iff]
    refine ⟨ExportCall.Requested.stored, fun hstored => ⟨hstored, ?_, ?_, ?_, ?_⟩⟩
    rotate_left
    iterate 3 exact fun _ hgiven => absurd hgiven (Option.not_mem_none _)
    rw [← mem_contents_iff, hcontents, mem_pair] at hstored
    rcases hstored with rfl | rfl
    · exact hone.2.2
    · exact htwo.2.2
  -- the newer of the two comes first, and it is not the only one
  obtain ⟨others, rfl, hmore⟩ : ∃ others, rows = two :: others ∧ one ∈ others := by
    have hne : one ≠ two := fun heq => absurd (hone.1.symm.trans (heq ▸ htwo.1)) (by decide)
    cases rows with
    | nil => exact absurd ((hrows one).mpr (.inl rfl)) not_mem_nil
    | cons first others =>
      rcases (hrows first).mp mem_cons_self with rfl | rfl
      · have hlater := (mem_cons.mp ((hrows two).mpr (.inr rfl))).resolve_left hne.symm
        have hnewer := rel_of_pairwise_cons hnewest hlater
        rw [NewerThan, hone.1, htwo.1, hone.2.1, htwo.2.1] at hnewer
        exact absurd hnewer (by decide)
      · exact ⟨others, rfl, (mem_cons.mp ((hrows one).mpr (.inl rfl))).resolve_left hne⟩
  have hlisted := ((callOf "G").mem_listed_keeps _ two).mpr ((hmem two).mp mem_cons_self)
  have hdated : Dated two := exportable_two.steady.dated two (mem_filter.mp hlisted).1
  have hgathered : g.records = [recordOf id two] := by
    refine Except.ok.inj (hrecords.symm.trans (@mapM_toExportRecord [two] ?_ id))
    intro i hi
    rwa [mem_singleton.mp hi]
  rw [hgathered] at hcount hshows
  refine ⟨out, artifact, shownRow (recordOf id two), hout, hmade,
    htrunc.mpr (Nat.succ_lt_succ (length_pos_of_mem hmore)), hcount, congrArg Prod.fst hshows, ?_⟩
  show some (guardedText (.text (textOf two.id))) = _
  rw [htwo.1]
  decide +kernel

end Export

end Exports

import Inqutum.ProjectionReplayProofs

/-!
# Which replays are accepted

A faithful event log names the invoices of the storage and no others, and
its newest snapshots agree with them.  Its replay rebuilds every record
(`rebuilt`), under the visibility the live index has.  The detector then
looks at the shadow through a search, and a search does not return a
revoked record: `replay_accepts_iff` says that the replay of a faithful
log is applied exactly when no stored invoice is revoked in the live
index.
-/

namespace ProjectionReplay

open AuditTrail Canonical
open Invoices (InvoiceStatus)
open JsonText (Text ascii)
open SearchIndex StaleProjections List Option ProjectionReplayService

/-! ## Faithful logs -/

theorem id_of_invoiceSnapshot {value : JsValue} {id : Text}
    {invoice : InvoiceSnapshot} (h : invoiceSnapshot value id = some invoice) :
    invoice.id = id := by
  simp only [invoiceSnapshot, Option.bind_eq_bind, Option.bind_eq_some_iff,
    Option.pure_def, Option.some.injEq] at h
  obtain ⟨_, _, _, _, _, _, _, _, _, _, _, _, rfl⟩ := h
  rfl

theorem id_of_carriedInvoice {event : AuditEvent} {invoice : InvoiceSnapshot}
    (h : carriedInvoice event = some invoice) : invoice.id = event.scope.entityId := by
  rw [carriedInvoice] at h
  split at h
  · cases h
  · exact id_of_invoiceSnapshot h

theorem mem_snapshots {events : List AuditEvent} {invoice : InvoiceSnapshot} :
    invoice ∈ snapshots events ↔ ∃ event ∈ events, searchIndexV1.handles event.action = true
          ∧ carriedInvoice event = some invoice := by
  rw [snapshots, mem_filterMap]
  refine exists_congr fun event => and_congr_right fun _ => ?_
  split
  · next h => exact ⟨fun hc => ⟨h, hc⟩, And.right⟩
  · next h => exact ⟨fun hnone => (by cases hnone), fun hc => absurd hc.1 h⟩

theorem lastSnapshot_eq_none {events : List AuditEvent} {id : Text} :
    lastSnapshot events id = none ↔ ∀ invoice ∈ snapshots events, invoice.id ≠ id := by
  rw [lastSnapshot, find?_eq_none]
  simp only [mem_reverse, decide_eq_true_iff]

theorem id_of_lastSnapshot {events : List AuditEvent} {id : Text}
    {invoice : InvoiceSnapshot} (h : lastSnapshot events id = some invoice) : invoice.id = id := by
  have hfound := find?_some h
  exact of_decide_eq_true hfound

/-- The log tells of the stored invoices, and tells the truth. -/
structure Faithful (host : Host) (stored : List StoredInvoice)
    (events : List AuditEvent) : Prop where
  distinct : (stored.map (fun invoice => invoice.id)).Nodup
  chained : verifyEventChain host events = .ok ⟨true, false, none⟩
  carried : ∀ event ∈ events, searchIndexV1.handles event.action = true →
    (carriedInvoice event).isSome = true
  named : ∀ event ∈ events, searchIndexV1.handles event.action = true →
    event.scope.entityId ∈ stored.map (fun invoice => invoice.id)
  covered : ∀ invoice ∈ stored, ∃ event ∈ events, searchIndexV1.handles event.action = true
      ∧ event.scope.entityId = invoice.id
  agrees : ∀ invoice ∈ stored, ∀ snapshot, lastSnapshot events invoice.id = some snapshot →
      Mirrors snapshot invoice ∨ snapshot.status = .pending ∧ invoice.status = .expired

namespace Faithful

variable {host : Host} {stored : List StoredInvoice}
  {events : List AuditEvent}

theorem lastSnapshot_of_mem (h : Faithful host stored events)
    {invoice : StoredInvoice} (hmem : invoice ∈ stored) :
    ∃ snapshot, lastSnapshot events invoice.id = some snapshot := by
  obtain ⟨event, hevent, hhandles, hid⟩ := h.covered invoice hmem
  obtain ⟨snapshot, hsnapshot⟩ := isSome_iff_exists.mp (h.carried event hevent hhandles)
  cases hlast : lastSnapshot events invoice.id with
  | some last => exact ⟨last, rfl⟩
  | none =>
    refine absurd ?_ (lastSnapshot_eq_none.mp hlast snapshot
      (mem_snapshots.mpr ⟨event, hevent, hhandles, hsnapshot⟩))
    rw [id_of_carriedInvoice hsnapshot, hid]

/-- Nothing else has one. -/
theorem mem_of_lastSnapshot (h : Faithful host stored events) {id : Text}
    {snapshot : InvoiceSnapshot} (hlast : lastSnapshot events id = some snapshot) :
    ∃ invoice ∈ stored, invoice.id = id := by
  have hmem : snapshot ∈ snapshots events := mem_reverse.mp (mem_of_find?_eq_some hlast)
  obtain ⟨event, hevent, hhandles, hsnapshot⟩ := mem_snapshots.mp hmem
  have hnamed := h.named event hevent hhandles
  rw [← id_of_carriedInvoice hsnapshot, id_of_lastSnapshot hlast] at hnamed
  exact mem_map.mp hnamed

theorem eq_of_id (h : Faithful host stored events)
    {invoice invoice' : StoredInvoice} (hmem : invoice ∈ stored)
    (hmem' : invoice' ∈ stored) (hid : invoice.id = invoice'.id) : invoice = invoice' :=
  inj_on_of_nodup_map h.distinct hmem hmem' hid

theorem storageMap_get (h : Faithful host stored events) {id : Text} {invoice : StoredInvoice} :
    (storageMap stored).get id = some invoice ↔ invoice ∈ stored ∧ invoice.id = id :=
  InsertionMap.get_collect_of_nodup h.distinct

end Faithful

/-- Events with a readable invoice are not rejected. -/
theorem rejected_foldl_take (events : List AuditEvent) (folded : Folded)
    (h : ∀ event ∈ events, searchIndexV1.handles event.action = true →
      (carriedInvoice event).isSome = true) :
    (events.foldl (Folded.take searchIndexV1) folded).rejected = folded.rejected := by
  induction events generalizing folded with
  | nil => rfl
  | cons event rest ih =>
    rw [foldl_cons, ih _ (fun e hmem => h e (.tail _ hmem)), Folded.take]
    cases hhandles : searchIndexV1.handles event.action with
    | false => rfl
    | true =>
      obtain ⟨invoice, hinvoice⟩ := isSome_iff_exists.mp (h event (.head _) hhandles)
      have happly : searchIndexV1.apply folded.shadow event = (carriedInvoice event).map
              (fun invoice => folded.shadow.indexInvoice invoice) := rfl
      rw [happly, hinvoice]
      rfl

/-- Nothing speaks against the shadow. -/
theorem outcome_eq_applied {work : Work} {verification : StaleDetectionReport} :
    outcome work verification = .applied ↔ work.dryRun = false ∧ work.integrity.valid = true
          ∧ work.integrity.truncated = false ∧ work.folded.rejected = 0
          ∧ verification.anomalies = [] := by
  rw [outcome]
  cases work.dryRun with
  | true =>
    constructor
    · intro h
      cases h
    rintro ⟨h, _⟩
    cases h
  | false =>
    have hlength : (reasons work verification).length > 0
        ↔ ¬ reasons work verification = [] := length_pos_iff
    have hreasons : reasons work verification = []
        ↔ work.integrity.valid = true ∧ work.integrity.truncated = false
          ∧ work.folded.rejected = 0 ∧ verification.anomalies = [] := by
      simp only [reasons, append_eq_nil_iff, and_assoc,
        StaleDetectionReport.totalAnomalies, length_pos_iff,
        ite_eq_left_iff, ite_eq_right_iff, cons_ne_nil, imp_false,
        not_not, gt_iff_lt, not_lt, Nat.le_zero, Bool.not_eq_true,
        Bool.not_eq_false]
    rw [if_neg Bool.false_ne_true]
    split
    · next h =>
        constructor
        · intro heq
          cases heq
        rintro ⟨_, hclean⟩
        exact absurd (hreasons.mpr hclean) (hlength.mp h)
    · next h =>
        refine ⟨fun _ => ⟨rfl, hreasons.mp ?_⟩, fun _ => rfl⟩
        exact not_not.mp (mt hlength.mpr h)

/-- The overlay indexes the late expiries. -/
theorem overlay_shadow (work : Work) (invoices : List StoredInvoice) :
    (work.overlay invoices).shadow = ((lateExpiries work.shadow invoices).map
          StoredInvoice.toInvoiceSnapshot).foldl
          (fun index invoice => index.indexInvoice invoice) work.shadow := by
  rw [foldl_map]
  rfl

theorem overlay_nil (work : Work) : (work.overlay []).shadow = work.shadow := rfl

/-- What a look into the overlay finds. -/
theorem get_overlay (work : Work) (invoices : List StoredInvoice) (id : Text) :
    (work.overlay invoices).shadow.get id = work.shadow.get id
        ∧ (∀ invoice ∈ lateExpiries work.shadow invoices, invoice.id ≠ id)
      ∨ ∃ invoice ∈ lateExpiries work.shadow invoices, invoice.id = id
          ∧ (work.overlay invoices).shadow.get id
            = some ⟨invoice.toInvoiceSnapshot, visibilityIn work.shadow id, false⟩ := by
  rw [overlay_shadow, get_foldl_indexInvoice]
  cases hfind : ((lateExpiries work.shadow invoices).map
      StoredInvoice.toInvoiceSnapshot).reverse.find? (fun invoice => invoice.id = id) with
  | none =>
    refine .inl ⟨rfl, fun invoice hmem hid => ?_⟩
    refine absurd (decide_eq_true hid) (find?_eq_none.mp hfind _ ?_)
    exact mem_reverse.mpr (mem_map.mpr ⟨invoice, hmem, rfl⟩)
  | some snapshot =>
    obtain ⟨invoice, hmem, rfl⟩ := mem_map.mp (mem_reverse.mp (mem_of_find?_eq_some hfind))
    have hfound := find?_some hfind
    exact .inr ⟨invoice, hmem, of_decide_eq_true hfound, rfl⟩

/-! ## The rebuilt index -/

theorem prepare_eq_ok {host : Host} {dryRun : Bool}
    {events : List AuditEvent} {index : PermissionAwareSearchIndex} {work : Work}
    (h : prepare host searchIndexV1 dryRun events index = .ok work) :
    work.dryRun = dryRun ∧ work.events = events ∧ verifyEventChain host events = .ok work.integrity
      ∧ work.live = index.exportRecords
      ∧ work.folded.rejected = (foldEvents searchIndexV1 events).rejected
      ∧ ∀ id, work.shadow.get id = (lastSnapshot events id).map
          (fun invoice => ⟨invoice, visibilityIn index id, false⟩) := by
  rw [prepare] at h
  cases hchain : verifyEventChain host events with
  | error thrown =>
    rw [hchain] at h
    cases h
  | ok integrity =>
    rw [hchain] at h
    cases h
    exact ⟨rfl, rfl, rfl, rfl, rfl, get_prepared events index⟩

theorem hidden_of_not_deleted {record : IndexedInvoiceRecord} (h : record.isDeleted = false) :
    record.hidden = decide (record.visibility = .revoked) := by
  rw [IndexedInvoiceRecord.hidden, h, Bool.false_or]

/-- The record a shadow has of an invoice. -/
structure Rebuilds (index : PermissionAwareSearchIndex)
    (invoice : StoredInvoice) (record : IndexedInvoiceRecord) : Prop where
  mirrors : Mirrors record.toInvoiceSnapshot invoice
  visibility : record.visibility = visibilityIn index invoice.id

/-- Every stored invoice has its record, and there is no other. -/
structure Rebuilt (before : PermissionAwareSearchIndex)
    (stored : List StoredInvoice) (after : PermissionAwareSearchIndex) :
    Prop where
  complete : ∀ invoice ∈ stored, ∃ record, after.get invoice.id = some record
  sound : ∀ id record, after.get id = some record →
    ∃ invoice ∈ stored, invoice.id = id ∧ Rebuilds before invoice record

section Shadow

variable {host : Host} {stored : List StoredInvoice}
  {events : List AuditEvent} {index : PermissionAwareSearchIndex}
  {work : Work}

theorem shown_overlay (hshadow : ∀ id, work.shadow.get id = (lastSnapshot events id).map
      (fun invoice => ⟨invoice, visibilityIn index id, false⟩))
    (invoices : List StoredInvoice) (id : Text) : ((work.overlay invoices).shadow.get id).map
        (fun record => (record.visibility, record.isDeleted))
      = (lastSnapshot events id).map (fun _ => (visibilityIn index id, false)) := by
  have hbefore : (work.shadow.get id).map (fun record => (record.visibility, record.isDeleted))
        = (lastSnapshot events id).map (fun _ => (visibilityIn index id, false)) := by
    rw [hshadow, Option.map_map]
    rfl
  rcases get_overlay work invoices id with ⟨hget, _⟩ | hlate
  · rw [hget, hbefore]
  obtain ⟨invoice, hmem, rfl, hget⟩ := hlate
  obtain ⟨record, hrecord, _⟩ := map_eq_some_iff.mp (mem_lateExpiries.mp hmem).2.2
  rw [hrecord] at hbefore
  obtain ⟨_, hlast, hshown⟩ := map_eq_some_iff.mp hbefore.symm
  have hvisibility : visibilityIn index invoice.id = record.visibility := congrArg Prod.fst hshown
  rw [hget, visibilityIn, hrecord, hlast, hvisibility]
  rfl

variable (h : Faithful host stored events)
  (hshadow : ∀ id, work.shadow.get id = (lastSnapshot events id).map
    (fun invoice => ⟨invoice, visibilityIn index id, false⟩))

include h hshadow

theorem mem_of_get_overlay {invoices : List StoredInvoice} {id : Text}
    {record : IndexedInvoiceRecord} (hget : (work.overlay invoices).shadow.get id = some record) :
    ∃ invoice ∈ stored, invoice.id = id ∧ record.isDeleted = false
      ∧ record.visibility = visibilityIn index invoice.id := by
  have hshown := shown_overlay hshadow invoices id
  rw [hget] at hshown
  obtain ⟨snapshot, hlast, hpair⟩ := map_eq_some_iff.mp hshown.symm
  obtain ⟨invoice, hmem, rfl⟩ := h.mem_of_lastSnapshot hlast
  exact ⟨invoice, hmem, rfl, (congrArg Prod.snd hpair).symm, (congrArg Prod.fst hpair).symm⟩

theorem get_overlay_of_mem (invoices : List StoredInvoice)
    {invoice : StoredInvoice} (hmem : invoice ∈ stored) :
    ∃ record, (work.overlay invoices).shadow.get invoice.id = some record ∧ record.isDeleted = false
      ∧ record.visibility = visibilityIn index invoice.id := by
  obtain ⟨snapshot, hlast⟩ := h.lastSnapshot_of_mem hmem
  have hshown := shown_overlay hshadow invoices invoice.id
  rw [hlast] at hshown
  obtain ⟨record, hget, hpair⟩ := map_eq_some_iff.mp hshown
  exact ⟨record, hget, congrArg Prod.snd hpair, congrArg Prod.fst hpair⟩

theorem mirrors_overlay {invoice : StoredInvoice} (hmem : invoice ∈ stored)
    {record : IndexedInvoiceRecord}
    (hget : (work.overlay stored).shadow.get invoice.id = some record) :
    Mirrors record.toInvoiceSnapshot invoice := by
  obtain ⟨snapshot, hlast⟩ := h.lastSnapshot_of_mem hmem
  have hbefore := hshadow invoice.id
  rw [hlast] at hbefore
  rcases get_overlay work stored invoice.id with ⟨hsame, hnone⟩ | hlate
  · rw [hget, hbefore] at hsame
    cases hsame
    -- What was not overlaid was not expired after a pending snapshot.
    rcases h.agrees invoice hmem snapshot hlast with hmirrors | ⟨hp, he⟩
    · exact hmirrors
    refine absurd rfl (hnone invoice (mem_lateExpiries.mpr ⟨hmem, he, ?_⟩))
    rw [hbefore]
    exact congrArg some hp
  · obtain ⟨late, hlatemem, hid, hlateget⟩ := hlate
    rw [hget] at hlateget
    cases hlateget
    have heq : late = invoice := h.eq_of_id (mem_lateExpiries.mp hlatemem).1 hmem hid
    rw [heq]
    exact ⟨rfl, rfl, rfl⟩

theorem rebuilt_overlay : Rebuilt index stored (work.overlay stored).shadow where
  complete invoice hmem := by
    obtain ⟨record, hget, _⟩ := get_overlay_of_mem h hshadow stored hmem
    exact ⟨record, hget⟩
  sound id record hget := by
    obtain ⟨invoice, hmem, rfl, _, hvisibility⟩ := mem_of_get_overlay h hshadow hget
    exact ⟨invoice, hmem, rfl, mirrors_overlay h hshadow hmem hget, hvisibility⟩

/-- **THE DETECTOR MISSES WHAT IS REVOKED**: it finds no fault exactly when
    no stored invoice is revoked in the live index. -/
theorem agree_overlay : Agree (storageMap stored) (work.overlay stored).shadow
      ↔ ∀ invoice ∈ stored, visibilityIn index invoice.id ≠ .revoked := by
  constructor
  · intro hagree invoice hmem
    obtain ⟨record, hget, hshown⟩ := hagree.stored invoice.id invoice
      (h.storageMap_get.mpr ⟨hmem, rfl⟩)
    obtain ⟨record', hget', hkept, hvisibility⟩ := get_overlay_of_mem h hshadow stored hmem
    rw [hget] at hget'
    cases hget'
    rw [hidden_of_not_deleted hkept, hvisibility] at hshown
    exact of_decide_eq_false hshown
  · intro hshown
    constructor
    · intro id record hget _
      obtain ⟨invoice, hmem, rfl, _⟩ := mem_of_get_overlay h hshadow hget
      exact ⟨invoice, h.storageMap_get.mpr ⟨hmem, rfl⟩, mirrors_overlay h hshadow hmem hget⟩
    intro id source hsource
    obtain ⟨hmem, rfl⟩ := h.storageMap_get.mp hsource
    obtain ⟨record, hget, hkept, hvisibility⟩ := get_overlay_of_mem h hshadow stored hmem
    refine ⟨record, hget, ?_⟩
    rw [hidden_of_not_deleted hkept, hvisibility]
    exact decide_eq_false (hshown source hmem)

/-- Compared with nothing, the shadow must have nothing to find. -/
theorem agree_nil : Agree (storageMap []) (work.overlay []).shadow
      ↔ ∀ invoice ∈ stored, visibilityIn index invoice.id = .revoked := by
  constructor
  · intro hagree invoice hmem
    obtain ⟨record, hget, hkept, hvisibility⟩ := get_overlay_of_mem h hshadow [] hmem
    by_contra hshown
    obtain ⟨source, hsource, _⟩ := hagree.shown invoice.id record hget (by
      rw [hidden_of_not_deleted hkept, hvisibility]
      exact decide_eq_false hshown)
    cases hsource
  · intro hrevoked
    constructor
    · intro id record hget hshown
      obtain ⟨invoice, hmem, rfl, hkept, hvisibility⟩ := mem_of_get_overlay h hshadow hget
      rw [hidden_of_not_deleted hkept, hvisibility] at hshown
      exact absurd (hrevoked invoice hmem) (of_decide_eq_false hshown)
    intro id source hsource
    cases hsource

theorem rebuilt_nil : Rebuilt index stored (work.overlay []).shadow
      ↔ ∀ invoice ∈ stored, ∀ snapshot, lastSnapshot events invoice.id = some snapshot →
            Mirrors snapshot invoice := by
  rw [overlay_nil]
  constructor
  · intro hrebuilt invoice hmem snapshot hlast
    have hget := hshadow invoice.id
    rw [hlast] at hget
    obtain ⟨invoice', hmem', hid, hrebuilds⟩ := hrebuilt.sound invoice.id _ hget
    have heq := h.eq_of_id hmem' hmem hid
    rw [← heq]
    exact hrebuilds.mirrors
  · intro hmirrors
    constructor
    · intro invoice hmem
      obtain ⟨record, hget, _⟩ := get_overlay_of_mem h hshadow [] hmem
      exact ⟨record, hget⟩
    intro id record hget
    have hoverlaid : (work.overlay []).shadow.get id = some record := hget
    obtain ⟨invoice, hmem, rfl, _, hvisibility⟩ := mem_of_get_overlay h hshadow hoverlaid
    obtain ⟨snapshot, hlast⟩ := h.lastSnapshot_of_mem hmem
    have hget' := hshadow invoice.id
    rw [hlast, hget] at hget'
    cases hget'
    exact ⟨invoice, hmem, rfl, hmirrors invoice hmem snapshot hlast, hvisibility⟩

end Shadow

/-! ## The whole replay -/

/-- What the storage answers; nothing without `getAllInvoices`. -/
def ReplayOptions.answer (options : ReplayOptions)
    (stored : List StoredInvoice) : List StoredInvoice :=
  if options.getAllInvoices then stored else []

theorem conclude_responds (options : ReplayOptions)
    (service : ProjectionReplayService) (work : Work) (invoices : List StoredInvoice) :
    ∃ response, (conclude options service work
      invoices).2 = some response := by
  rw [conclude]
  split
  · exact ⟨_, rfl⟩
  dsimp only
  split
  · exact ⟨_, rfl⟩
  · exact ⟨_, rfl⟩

theorem replayAlone_eq (options : ReplayOptions)
    {service : ProjectionReplayService} {request : ReplayRequest}
    {events : List AuditEvent} {work : Work} (hversion : request.projectorVersion = none)
    (hidle : service.running = none)
    (hwork : prepare options.host searchIndexV1 (request.dryRun.getD true)
      events service.index = .ok work) (stored : List StoredInvoice) :
    service.replayAlone options request events stored = conclude options
          { service with
            running := some (.verifying (work.overlay (options.answer stored))) }
          (work.overlay (options.answer stored)) (options.answer stored) := by
  have hstart : service.replay options request events = ({ service with
            running := some (if options.getAllInvoices
              then .readingInvoices work
              else .verifying (work.overlay [])) },
          none) := by
    simp only [replay, hversion, getD_none,
      latestSearchIndexProjector, projectorOf, if_true, hidle, hwork]
  rw [replayAlone, hstart, ReplayOptions.answer]
  cases hall : options.getAllInvoices with
  | true => simp only [resume, hall, if_true]
  | false =>
    simp only [resume, hall, if_false, Bool.false_eq_true]
    obtain ⟨response, hresponse⟩ := conclude_responds options
      { service with running := some (.verifying (work.overlay [])) }
      (work.overlay []) []
    rw [hresponse]
    exact Prod.ext rfl hresponse.symm

def Accepted (before : PermissionAwareSearchIndex) (stored : List StoredInvoice)
    (result : ProjectionReplayService × Option Response) : Prop :=
  (∃ report, result.2 = some (.report report) ∧ report.outcome = .applied)
    ∧ Rebuilt before stored result.1.index

/-- What the storage and the live index must be like. -/
def Acceptable (options : ReplayOptions) (stored : List StoredInvoice)
    (events : List AuditEvent) (index : PermissionAwareSearchIndex) : Prop :=
  if options.getAllInvoices then
    ∀ invoice ∈ stored, visibilityIn index invoice.id ≠ .revoked
  else
    (∀ invoice ∈ stored, visibilityIn index invoice.id = .revoked)
      ∧ ∀ invoice ∈ stored, ∀ snapshot, lastSnapshot events invoice.id = some snapshot →
            Mirrors snapshot invoice

theorem conclude_accepted_iff (options : ReplayOptions)
    (service : ProjectionReplayService) (work : Work)
    (hwet : work.dryRun = false) (hvalid : work.integrity.valid = true)
    (hwhole : work.integrity.truncated = false) (hrejected : work.folded.rejected = 0)
    (before : PermissionAwareSearchIndex) (stored answer : List StoredInvoice) :
    Accepted before stored (conclude options service work answer)
      ↔ Agree (storageMap answer) work.shadow ∧ Rebuilt before stored work.shadow := by
  obtain ⟨verification, hdetect, hhealthy⟩ := detect_healthy options.low answer work.shadow
  have happlied : outcome work verification = .applied ↔ Agree (storageMap answer) work.shadow := by
    rw [outcome_eq_applied, ← hhealthy]
    exact ⟨fun h => h.2.2.2.2, fun h => ⟨hwet, hvalid, hwhole, hrejected, h⟩⟩
  rw [Accepted, conclude, hdetect, ← happlied]
  by_cases h : outcome work verification = .applied
  · simp only [if_pos h, PermissionAwareSearchIndex.replaceAll_exportRecords]
    refine and_congr_left fun _ => ⟨fun _ => h, fun _ => ⟨_, rfl, h⟩⟩
  simp only [if_neg h]
  constructor
  · rintro ⟨⟨found, hfound, houtcome⟩, _⟩
    cases hfound
    exact absurd houtcome h
  rintro ⟨houtcome, _⟩
  exact absurd houtcome h

/-- **A FAITHFUL LOG IS ACCEPTED EXACTLY WHEN NOTHING IT NAMES IS REVOKED**
    in the live index. -/
theorem replay_accepts_iff (options : ReplayOptions)
    {service : ProjectionReplayService} {stored : List StoredInvoice}
    {events : List AuditEvent} (hidle : service.running = none)
    (h : Faithful options.host stored events) :
    Accepted service.index stored (service.replayAlone options
        { dryRun := some false } events stored)
      ↔ Acceptable options stored events service.index := by
  obtain ⟨work, hwork⟩ : ∃ work, prepare options.host searchIndexV1 false
      events service.index = .ok work := by
    rw [prepare, h.chained]
    exact ⟨_, rfl⟩
  obtain ⟨hwet, -, hchain, -, hcount, hshadow⟩ := prepare_eq_ok hwork
  have hintegrity : work.integrity = ⟨true, false, none⟩ := by
    rw [h.chained] at hchain
    exact (Except.ok.inj hchain).symm
  have hrejected : work.folded.rejected = 0 := by
    rw [hcount, foldEvents, rejected_foldl_take events _ h.carried]
  have hreplay := replayAlone_eq options
    (rfl : ({ dryRun := some false } : ReplayRequest).projectorVersion = none)
    hidle hwork stored
  have hconclude := fun paused before => conclude_accepted_iff options paused
    (work.overlay (options.answer stored)) hwet
    (congrArg ChainIntegrity.valid hintegrity)
    (congrArg ChainIntegrity.truncated hintegrity) hrejected
    before stored (options.answer stored)
  rw [hreplay, hconclude, ReplayOptions.answer, Acceptable]
  cases options.getAllInvoices with
  | true =>
    rw [if_pos rfl, if_pos rfl, agree_overlay h hshadow]
    exact and_iff_left (rebuilt_overlay h hshadow)
  | false =>
    rw [if_neg Bool.false_ne_true, if_neg Bool.false_ne_true,
      agree_nil h hshadow, rebuilt_nil h hshadow]

/-! ## One invoice and its creation -/

def sampleInvoice : StoredInvoice where
  id := ascii "i1"
  sellerPublicKey := ascii "GA"
  customerEmail := .undefined
  amount := 1
  assetCode := ascii "XLM"
  description := .undefined
  memo := ascii "m"
  status := .pending
  finite := rfl

/-- The payload of the event that tells of its creation. -/
def sampleState : JsValue :=
  .obj [(ascii "id", .str (ascii "i1")), (ascii "sellerPublicKey", .str (ascii "GA")),
    (ascii "amount", .number 1),
    (ascii "assetCode", .str (ascii "XLM")),
    (ascii "memo", .str (ascii "m")),
    (ascii "status", .str (ascii "PENDING"))]

def sampleCreation : Call where
  input := { (creation "e1").input with afterState := sampleState }
  uuid := ascii "e1"
  now := (creation "e1").now

def sampleLog : List AuditEvent :=
  (MemoryAuditStore.recordAll sampleHost (.new 10) [sampleCreation]).events

def sampleOptions : ReplayOptions where
  host := sampleHost
  low := ⟨id, rfl⟩
  getAllInvoices := true

/-- A live index with the invoice under some visibility. -/
def sampleService (visibility : VisibilityLevel) : ProjectionReplayService where
  index := PermissionAwareSearchIndex.new.indexInvoice sampleInvoice.toInvoiceSnapshot visibility

theorem sampleLog_faithful : Faithful sampleHost [sampleInvoice] sampleLog where
  distinct := by decide +kernel
  chained := by decide +kernel
  carried := by decide +kernel
  named := by decide +kernel
  covered := by
    intro invoice hmem
    obtain rfl := mem_singleton.mp hmem
    decide +kernel
  agrees := by
    intro invoice hmem snapshot hlast
    obtain rfl := mem_singleton.mp hmem
    have hread : (lastSnapshot sampleLog sampleInvoice.id).map
        (fun invoice => (invoice.status, invoice.amount, invoice.assetCode))
          = some (sampleInvoice.status, sampleInvoice.amount, sampleInvoice.assetCode) := by
      decide +kernel
    rw [hlast] at hread
    have hsame := some.inj hread
    exact .inl ⟨congrArg Prod.fst hsame,
      congrArg (fun t => t.2.1) hsame, congrArg (fun t => t.2.2) hsame⟩

/-- What the report says, if there is one. -/
def reported : Option Response → Option ReplayOutcome
  | some (.report report) => some report.outcome
  | _ => none

theorem reported_of_accepted {before : PermissionAwareSearchIndex} {stored : List StoredInvoice}
    {result : ProjectionReplayService × Option Response} (h : Accepted before stored result) :
    reported result.2 = some .applied := by
  obtain ⟨⟨report, hreport, houtcome⟩, _⟩ := h
  rw [hreport]
  exact congrArg some houtcome

/-- An invoice everybody may see: its log is accepted. -/
theorem public_accepted : Accepted (sampleService .«public»).index [sampleInvoice]
    ((sampleService .«public»).replayAlone sampleOptions
      { dryRun := some false } sampleLog [sampleInvoice]) :=
  (replay_accepts_iff sampleOptions rfl sampleLog_faithful).mpr (by
    show ∀ invoice ∈ [sampleInvoice], _
    intro invoice hmem
    obtain rfl := mem_singleton.mp hmem
    decide +kernel)

/-- A revoked invoice: the same log is refused. -/
theorem revoked_refused : (sampleService .revoked).running = none
      ∧ Faithful sampleHost [sampleInvoice] sampleLog
      ∧ reported ((sampleService .revoked).replayAlone sampleOptions
          { dryRun := some false } sampleLog [sampleInvoice]).2
        = some .refused
      ∧ ¬ Accepted (sampleService .revoked).index [sampleInvoice]
          ((sampleService .revoked).replayAlone sampleOptions
            { dryRun := some false } sampleLog [sampleInvoice]) := by
  have hrefused : reported ((sampleService .revoked).replayAlone
      sampleOptions { dryRun := some false } sampleLog [sampleInvoice]).2 = some .refused := by
    decide +kernel
  refine ⟨rfl, sampleLog_faithful, hrefused, fun haccepted => ?_⟩
  have happlied := reported_of_accepted haccepted
  rw [hrefused] at happlied
  cases happlied

end ProjectionReplay

import Inqutum.ReplayAcceptanceProofs
import Inqutum.TransitionProofs

/-!
# What a replay and a rollback make findable

While a replay waits, the live index goes on changing: records are
indexed, revoked, deleted and purged.  The swap at the end knows nothing
of it, and even before the first wait only the visibility is carried
over, not the mark of a deletion.  A rollback puts back the copy that
was taken when the replay began.

`nothing_revealed_iff` says, for a run of any steps, that no swap and no
rollback makes a hidden record findable exactly when each of them meets
`Guarded`, a condition on the state before it.
-/

namespace ProjectionReplay

open AuditTrail
open JsonText (Text ascii)
open SearchIndex Transition ProjectionReplayService PermissionAwareSearchIndex

/-! ## The steps -/

inductive Event where
  | indexInvoice (invoice : InvoiceSnapshot) (visibility : VisibilityLevel)
  | setVisibility (invoiceId : Text) (visibility : VisibilityLevel)
  | removeIndexRecord (invoiceId : Text)
  | purge (invoiceId : Text)
  /-- A replay begins, on the events that are there. -/
  | replay (request : ReplayRequest) (events : List AuditEvent)
  /-- The wait of the running replay ends. -/
  | resume (answer : Option (List StoredInvoice))
  | rollback

def step (options : ReplayOptions) (service : ProjectionReplayService) :
    Event → ProjectionReplayService × Option Response
  | .indexInvoice invoice visibility =>
    ({ service with
        index := service.index.indexInvoice invoice visibility }, none)
  | .setVisibility invoiceId visibility =>
    ({ service with
        index := service.index.setVisibility invoiceId visibility }, none)
  | .removeIndexRecord invoiceId =>
    ({ service with index := service.index.removeIndexRecord invoiceId }, none)
  | .purge invoiceId => ({ service with index := service.index.purge invoiceId }, none)
  | .replay request events => service.replay options request events
  | .resume answer => service.resume options answer
  | .rollback => service.rollback

def after (options : ReplayOptions) (service : ProjectionReplayService)
    (event : Event) : ProjectionReplayService :=
  (step options service event).1

/-- A replay was applied, or one was rolled back. -/
def Swaps : Option Response → Prop
  | some (.report report) => report.outcome = .applied
  | some (.rolledBack _) => True
  | _ => False

instance : DecidablePred Swaps
  | none => instDecidableFalse
  | some (.report report) => inferInstanceAs (Decidable (report.outcome = .applied))
  | some .replayInProgress => instDecidableFalse
  | some (.unknownProjectorVersion _) => instDecidableFalse
  | some .nothingToRollBack => instDecidableFalse
  | some (.rolledBack _) => instDecidableTrue
  | some (.chainThrew _) => instDecidableFalse
  | some (.detectorThrew _) => instDecidableFalse
  | some .storageFailed => instDecidableFalse

/-- If the step swaps the index, no record that was hidden just before can be
    found after it. -/
def RevealsNothing (options : ReplayOptions)
    (service : ProjectionReplayService) (event : Event) : Prop :=
  Swaps (step options service event).2 → ∀ id, service.index.Hides id →
      ¬ (after options service event).index.Findable options.low id

/-- The copy holds a revoked record of this identifier. -/
def RevokedIn (records : List IndexedInvoiceRecord) (id : Text) : Prop :=
  ∃ record ∈ records, record.id = id ∧ record.visibility = .revoked

/-- What spares a hidden record at a swap: no event of the replay told of it,
    or it was revoked when the replay began.  At a rollback: the copy does
    not have it, or has it hidden. -/
def Spared (service : ProjectionReplayService) : Event → Text → Prop
  | .resume _, id => ∀ work, service.running = some (.verifying work) →
      (∀ invoice ∈ snapshots work.events, invoice.id ≠ id) ∨ RevokedIn work.live id
  | .rollback, id => ∀ previous, service.previous = some previous →
      ∀ record ∈ previous, record.id = id → record.hidden = true
  | _, _ => True

/-- If the step swaps the index, every hidden record is spared. -/
def Guarded (options : ReplayOptions) (service : ProjectionReplayService) (event : Event) : Prop :=
  Swaps (step options service event).2 → ∀ id, service.index.Hides id → Spared service event id

/-! ## What a waiting replay remembers -/

/-- The visibility and the mark of deletion of a record. -/
def shade (record : IndexedInvoiceRecord) : VisibilityLevel × Bool :=
  (record.visibility, record.isDeleted)

/-- A shadow that shows the snapshots of the events, under the visibility of
    the copy. -/
def Shaded (work : Work) : Prop :=
  ∃ index, work.live = index.exportRecords ∧ ∀ id, (work.shadow.get id).map shade
      = (lastSnapshot work.events id).map (fun _ => (visibilityIn index id, false))

/-- A shadow that holds nothing but those snapshots. -/
def Exact (work : Work) : Prop :=
  ∃ index, work.live = index.exportRecords ∧ ∀ id,
    work.shadow.get id = (lastSnapshot work.events id).map
      (fun invoice => ⟨invoice, visibilityIn index id, false⟩)

theorem exact_of_prepare {options : ReplayOptions} {dryRun : Bool}
    {events : List AuditEvent} {index : PermissionAwareSearchIndex} {work : Work}
    (h : prepare options.host searchIndexV1 dryRun events index = .ok work) : Exact work := by
  obtain ⟨-, hevents, -, hlive, -, hshadow⟩ := prepare_eq_ok h
  refine ⟨index, hlive, ?_⟩
  rw [hevents]
  exact hshadow

theorem shaded_overlay {work : Work} (h : Exact work)
    (invoices : List StoredInvoice) : Shaded (work.overlay invoices) := by
  obtain ⟨index, hlive, hshadow⟩ := h
  exact ⟨index, hlive, shown_overlay hshadow invoices⟩

/-- The invariant of the service. -/
structure Remembers (service : ProjectionReplayService) : Prop where
  reading : ∀ work, service.running = some (.readingInvoices work) → Exact work
  verifying : ∀ work, service.running = some (.verifying work) → Shaded work
  previous : ∀ records, service.previous = some records →
    ∃ index : PermissionAwareSearchIndex, records = index.exportRecords

theorem remembers_fresh (index : PermissionAwareSearchIndex) : Remembers { index := index } where
  reading _ h := nomatch h
  verifying _ h := nomatch h
  previous _ h := nomatch h

namespace Remembers

variable {service : ProjectionReplayService}

/-- A change of the live index concerns no waiting replay. -/
theorem withIndex (h : Remembers service) (index : PermissionAwareSearchIndex) :
    Remembers { service with index := index } :=
  ⟨h.reading, h.verifying, h.previous⟩

theorem stop (h : Remembers service) : Remembers { service with running := none } :=
  ⟨fun _ hr => (nomatch hr), fun _ hr => (nomatch hr), h.previous⟩

theorem replay (options : ReplayOptions) (h : Remembers service)
    (request : ReplayRequest) (events : List AuditEvent) :
    Remembers (service.replay options request events).1 := by
  rw [ProjectionReplayService.replay]
  dsimp only
  split
  · exact h
  next projector hversion =>
    obtain rfl := projectorOf_eq_some hversion
    split
    · exact h
    split
    · exact h
    next work hwork =>
      have hexact := exact_of_prepare hwork
      cases options.getAllInvoices with
      | true =>
        refine ⟨fun found hr => ?_, fun _ hr => (by cases hr), h.previous⟩
        cases hr
        exact hexact
      | false =>
        refine ⟨fun _ hr => (by cases hr), fun found hr => ?_, h.previous⟩
        cases hr
        exact shaded_overlay hexact []

theorem conclude (options : ReplayOptions) (h : Remembers service)
    {work : Work} (hwork : Shaded work) (invoices : List StoredInvoice) :
    Remembers (service.conclude options work invoices).1 := by
  rw [ProjectionReplayService.conclude]
  split
  · exact h.stop
  dsimp only
  split
  · obtain ⟨index, hlive, -⟩ := hwork
    refine ⟨fun _ hr => (by cases hr), fun _ hr => (by cases hr), fun records hp => ⟨index, ?_⟩⟩
    cases hp
    exact hlive
  · exact h.stop

theorem resume (options : ReplayOptions) (h : Remembers service)
    (answer : Option (List StoredInvoice)) : Remembers (service.resume options answer).1 := by
  rw [ProjectionReplayService.resume]
  split
  · exact h
  · exact h.stop
  · next work invoices hrunning _ =>
      refine ⟨fun _ hr => (by cases hr), fun found hr => ?_, h.previous⟩
      cases hr
      exact shaded_overlay (h.reading work hrunning) invoices
  · next work invoices hrunning _ => exact h.conclude options (h.verifying work hrunning) invoices

theorem rollback (h : Remembers service) : Remembers service.rollback.1 := by
  rw [ProjectionReplayService.rollback]
  split
  · exact h
  · exact ⟨h.reading, h.verifying, nofun⟩

/-- **EVERY STEP KEEPS THE INVARIANT**. -/
theorem after (options : ReplayOptions) (h : Remembers service)
    (event : Event) : Remembers (after options service event) := by
  cases event with
  | indexInvoice invoice visibility => exact h.withIndex _
  | setVisibility invoiceId visibility => exact h.withIndex _
  | removeIndexRecord invoiceId => exact h.withIndex _
  | purge invoiceId => exact h.withIndex _
  | replay request events => exact h.replay options request events
  | resume answer => exact h.resume options answer
  | rollback => exact h.rollback

end Remembers

/-! ## What a swap shows -/

theorem findable_iff_shade (low : Lowering) (ix : PermissionAwareSearchIndex) (id : Text) :
    ix.Findable low id ↔ ∃ visibility, (ix.get id).map shade = some (visibility, false)
          ∧ visibility ≠ .revoked := by
  rw [findable_iff]
  constructor
  · rintro ⟨record, hget, hshown⟩
    rw [IndexedInvoiceRecord.hidden, Bool.or_eq_false_iff] at hshown
    refine ⟨record.visibility, ?_, of_decide_eq_false hshown.2⟩
    rw [hget]
    exact congrArg (fun d => some (record.visibility, d)) hshown.1
  rintro ⟨visibility, hshade, hshown⟩
  obtain ⟨record, hget, hpair⟩ := Option.map_eq_some_iff.mp hshade
  have hkept : record.isDeleted = false := congrArg Prod.snd hpair
  have hvisibility : record.visibility = visibility := congrArg Prod.fst hpair
  refine ⟨record, hget, ?_⟩
  rw [hidden_of_not_deleted hkept, hvisibility]
  exact decide_eq_false hshown

theorem revokedIn_exportRecords {index : PermissionAwareSearchIndex} {id : Text} :
    RevokedIn index.exportRecords id ↔ visibilityIn index id = .revoked := by
  rw [visibilityIn]
  constructor
  · rintro ⟨record, hmem, rfl, hrevoked⟩
    rw [(index.mem_exportRecords record).mp hmem]
    exact hrevoked
  intro h
  cases hget : index.get id with
  | none =>
    rw [hget] at h
    cases h
  | some record =>
    rw [hget] at h
    have hid := id_of_get hget
    refine ⟨record, (index.mem_exportRecords record).mpr ?_, hid, h⟩
    rw [hid]
    exact hget

theorem not_findable_shadow {low : Lowering} {work : Work} (h : Shaded work) (id : Text) :
    ¬ work.shadow.Findable low id ↔ (∀ invoice ∈ snapshots work.events, invoice.id ≠ id)
        ∨ RevokedIn work.live id := by
  obtain ⟨index, hlive, hshade⟩ := h
  rw [findable_iff_shade, hshade, hlive, revokedIn_exportRecords, ← lastSnapshot_eq_none]
  cases lastSnapshot work.events id with
  | none =>
    refine ⟨fun _ => .inl rfl, ?_⟩
    rintro - ⟨visibility, hnone, _⟩
    cases hnone
  | some invoice =>
    constructor
    · intro h
      refine .inr (not_not.mp fun hshown => h ⟨_, rfl, hshown⟩)
    rintro (hnone | hrevoked) ⟨visibility, hpair, hshown⟩
    · cases hnone
    cases hpair
    exact hshown hrevoked

theorem not_findable_copy {low : Lowering} {records : List IndexedInvoiceRecord}
    (h : ∃ index : PermissionAwareSearchIndex, records = index.exportRecords) (id : Text) :
    ¬ (replaceAll records).Findable low id
      ↔ ∀ record ∈ records, record.id = id → record.hidden = true := by
  obtain ⟨index, rfl⟩ := h
  rw [replaceAll_exportRecords, findable_iff]
  constructor
  · rintro h record hmem rfl
    rw [← Bool.not_eq_false]
    intro hshown
    exact h ⟨record, (index.mem_exportRecords record).mp hmem, hshown⟩
  rintro h ⟨record, hget, hshown⟩
  have hid := id_of_get hget
  have hhidden := h record ((index.mem_exportRecords record).mpr (by
    rw [hid]
    exact hget)) hid
  rw [hshown] at hhidden
  cases hhidden

/-! ## When a step swaps -/

theorem not_swaps_replay (options : ReplayOptions)
    (service : ProjectionReplayService) (request : ReplayRequest) (events : List AuditEvent) :
    ¬ Swaps (service.replay options request events).2 := by
  rw [replay]
  dsimp only
  split
  · exact id
  split
  · exact id
  split
  · exact id
  · exact id

variable {options : ReplayOptions} {service : ProjectionReplayService}

theorem conclude_swaps {work : Work} {invoices : List StoredInvoice}
    (h : Swaps (service.conclude options work invoices).2) :
    (service.conclude options work invoices).1.index = work.shadow := by
  rw [conclude] at h ⊢
  split at h
  · exact h.elim
  dsimp only at h ⊢
  split at h
  · next happlied =>
      rw [if_pos happlied]
      exact replaceAll_exportRecords work.shadow
  · next hother => exact absurd h hother

theorem resume_swaps {answer : Option (List StoredInvoice)}
    (h : Swaps (service.resume options answer).2) : ∃ work, service.running = some (.verifying work)
      ∧ (service.resume options answer).1.index = work.shadow := by
  rw [resume] at h ⊢
  split at h
  · exact h.elim
  · exact h.elim
  · exact h.elim
  · next work invoices hrunning hanswer => exact ⟨work, hrunning, conclude_swaps h⟩

/-- **ONE STEP**: a swap reveals nothing exactly when it is guarded. -/
theorem revealsNothing_iff (h : Remembers service) (event : Event) :
    RevealsNothing options service event ↔ Guarded options service event := by
  rw [RevealsNothing, Guarded]
  refine forall_congr' fun hswaps => ?_
  refine forall_congr' fun id => forall_congr' fun _ => ?_
  cases event with
  | indexInvoice invoice visibility => exact hswaps.elim
  | setVisibility invoiceId visibility => exact hswaps.elim
  | removeIndexRecord invoiceId => exact hswaps.elim
  | purge invoiceId => exact hswaps.elim
  | replay request events => exact absurd hswaps (not_swaps_replay options service request events)
  | resume answer =>
    obtain ⟨work, hrunning, hindex⟩ := resume_swaps hswaps
    show ¬ (service.resume options answer).1.index.Findable _ id ↔ _
    rw [hindex, not_findable_shadow (h.verifying work hrunning)]
    constructor
    · intro hspared found hfound
      rw [hrunning] at hfound
      cases hfound
      exact hspared
    intro hspared
    exact hspared work hrunning
  | rollback =>
    cases hprevious : service.previous with
    | none =>
      have hno : (step options service .rollback).2 = some .nothingToRollBack := by
        rw [step, rollback, hprevious]
      rw [hno] at hswaps
      exact hswaps.elim
    | some records =>
      have hindex : (after options service .rollback).index = .replaceAll records := by
        rw [after, step, rollback, hprevious]
      rw [hindex, not_findable_copy (h.previous records hprevious)]
      constructor
      · intro hhidden previous hfound
        rw [hprevious] at hfound
        cases hfound
        exact hhidden
      intro hspared
      exact hspared records hprevious

/-- **NO SWAP REVEALS A HIDDEN RECORD EXACTLY WHEN EVERY SWAP IS GUARDED**,
    in any run of the service over any live index. -/
theorem nothing_revealed_iff (options : ReplayOptions)
    (index : PermissionAwareSearchIndex) (events : List Event) :
    Along (after options) (RevealsNothing options) { index := index } events
      ↔ Along (after options) (Guarded options) { index := index }
        events := by
  have hfresh := remembers_fresh index
  constructor
  · refine Along.imp (fun service event hI h => ?_) hfresh
    exact ⟨(revealsNothing_iff hI event).mp h, hI.after options event⟩
  refine Along.imp (fun service event hI h => ?_) hfresh
  exact ⟨(revealsNothing_iff hI event).mpr h, hI.after options event⟩

/-! ## Three ways to be revealed -/

theorem not_revealsNothing {options : ReplayOptions}
    {service : ProjectionReplayService} {event : Event} (id : Text)
    (hswaps : Swaps (step options service event).2)
    (hbefore : (service.index.get id).map IndexedInvoiceRecord.hidden = some true)
    (hafter : ((after options service event).index.get id).map
      IndexedInvoiceRecord.hidden = some false) : ¬ RevealsNothing options service event := by
  intro hnothing
  obtain ⟨hidden, hhidden⟩ := Option.map_eq_some_iff.mp hbefore
  obtain ⟨shown, hshown⟩ := Option.map_eq_some_iff.mp hafter
  exact hnothing hswaps id ⟨hidden, hhidden⟩
    ((findable_iff _ _ id).mpr ⟨shown, hshown⟩)

/-- A replay of the sample log, applied if nothing speaks against it. -/
def sampleReplay : Event := .replay { dryRun := some false } sampleLog

def sampleAnswer : Event := .resume (some [sampleInvoice])

/-- A record deleted before the replay, one revoked while it waits, and one
    revoked between a replay and its rollback: each is found again. -/
theorem hidden_revealed : ¬ Along (after sampleOptions) (RevealsNothing sampleOptions)
        (sampleService .internal)
        [.removeIndexRecord (ascii "i1"), sampleReplay, sampleAnswer, sampleAnswer]
      ∧ ¬ Along (after sampleOptions) (RevealsNothing sampleOptions) (sampleService .internal)
        [sampleReplay, .setVisibility (ascii "i1") .revoked, sampleAnswer, sampleAnswer]
      ∧ ¬ Along (after sampleOptions) (RevealsNothing sampleOptions) (sampleService .internal)
        [sampleReplay, sampleAnswer, sampleAnswer,
          .setVisibility (ascii "i1") .revoked, .rollback] := by
  refine ⟨?_, ?_, ?_⟩
  · rintro ⟨-, -, -, hlast, -⟩
    exact not_revealsNothing (ascii "i1") (by decide +kernel)
      (by decide +kernel) (by decide +kernel) hlast
  · rintro ⟨-, -, -, hlast, -⟩
    exact not_revealsNothing (ascii "i1") (by decide +kernel)
      (by decide +kernel) (by decide +kernel) hlast
  rintro ⟨-, -, -, -, hlast, -⟩
  exact not_revealsNothing (ascii "i1") (by decide +kernel)
    (by decide +kernel) (by decide +kernel) hlast

end ProjectionReplay

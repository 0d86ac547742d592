import Inqutum.ImportUndoProofs

/-!
# Settled invoices and the import tool

The planner refuses to change a paid invoice, but it looks at the invoices
when the plan is made.  `applyImport` and `rollbackImport` write later and
look at no status, so an invoice that is paid in between is rewritten by an
update row that names it, put back to its unpaid image by the undo log, or
deleted if the import created it.

A run interleaves the two commands, in any number and order, with
arbitrary writes of other sessions (payments among them).  Its import steps
leave paid invoices alone if each finds none of the invoices it writes to
paid, and, where the commands commit, only then (`paid_frozen_iff`).
-/

namespace Imports

open Invoices Transition List InvoiceRow

structure ImportState where
  db : InvoiceDb
  snapshot : Option ImportSnapshot

inductive ImportStep where
  /-- A committed write of another session, such as `markAsPaid`. -/
  | other (write : InvoiceDb → InvoiceDb)
  | apply (s : Session)
  | rollback (r : Interruptions)

/-- One step; a committed import leaves its snapshot for the rollback. -/
def importStep (plan : ImportPlan) (st : ImportState) : ImportStep → ImportState
  | .other write => { st with db := write st.db }
  | .apply s =>
    match applyImport st.db plan s with
    | (db, .ok result) => ⟨db, some result.snapshot⟩
    | (db, .error _) => { st with db := db }
  | .rollback r =>
    match st.snapshot with
    | none => st
    | some snapshot => { st with db := (rollbackImport st.db snapshot r).1 }

/-- Every paid invoice is still there with every column as it was. -/
def LeavesPaidAlone (db db' : InvoiceDb) : Prop :=
  ∀ id row, db.invoices.find id = some row → row.status = .paid → db'.invoices.find id = some row

def Freezes (plan : ImportPlan) (st : ImportState) (step : ImportStep) :
    Prop :=
  match step with
  | .other _ => True
  | _ => LeavesPaidAlone st.db (importStep plan st step).db

/-- No invoice that the step writes to is paid when it runs. -/
def Spares (plan : ImportPlan) (st : ImportState) : ImportStep → Prop
  | .other _ => True
  | .apply _ => ∀ id row, st.db.invoices.find id = some row →
      row.status = .paid → ∀ planned ∈ plan.rows, isUpdate planned = true →
        planned.existingId ≠ some id
  | .rollback _ => ∀ snapshot, st.snapshot = some snapshot →
      ∀ id row, st.db.invoices.find id = some row → row.status = .paid →
        (∀ entry ∈ snapshot.updated, entry.id ≠ id)
        ∧ ∀ c ∈ snapshot.created, c.id ≠ id

def Commits (plan : ImportPlan) (st : ImportState) : ImportStep → Prop
  | .other _ => True
  | .apply s => ∃ result, (applyImport st.db plan s).2 = .ok result
  | .rollback r => ∀ snapshot, st.snapshot = some snapshot →
      ∃ out, (rollbackImport st.db snapshot r).2 = .ok out

/-- The images a rollback would write are not paid. -/
def UnpaidImages (st : ImportState) : Prop :=
  ∀ snapshot, st.snapshot = some snapshot → ∀ entry ∈ snapshot.updated, entry.before.status ≠ .paid

variable {id : String}

/-- A plan that names no update of an invoice has none for it. -/
theorem updatesFor_of_unnamed {plan : ImportPlan}
    (h : ∀ planned ∈ plan.rows, isUpdate planned = true →
      planned.existingId ≠ some id) : updatesFor id plan.rows = [] := by
  refine filterMap_eq_nil_iff.mpr ?_
  intro planned hmem
  refine if_neg ?_
  rintro ⟨haction, hid⟩
  exact h planned hmem (decide_eq_true haction) hid

/-- A log without the invoice has no entries of it. -/
theorem entriesFor_of_unlogged {log : List UndoEntry}
    (h : ∀ entry ∈ log, entry.id ≠ id) : entriesFor id log = [] := by
  rw [entriesFor, map_eq_nil_iff, filter_eq_nil_iff]
  intro entry hentry
  rw [decide_eq_true_eq]
  exact h entry hentry

/-- An import keeps the status of a row it finds. -/
theorem applyRows_status {s : Session} {n : Nat} {st st' : ApplyState}
    {rows : List PlannedRow} (h : applyRows s n st rows = .ok st') {row : InvoiceRow}
    (hrow : st'.invoices.find id = some row) :
    (∃ r, st.invoices.find id = some r ∧ row.status = r.status) ∨ row.status = .pending := by
  cases hst : st.invoices.find id with
  | some r =>
    left
    refine ⟨r, rfl, ?_⟩
    have hfind := (applyRows_find h hst).1
    rw [hrow] at hfind
    rw [Option.some.inj hfind]
    show (fixedColumns _).status = (fixedColumns r).status
    rw [fixedColumns_updates]
  | none =>
    right
    obtain ⟨planned, -, -, values, memo, expiresAt, -, hcols⟩ := applyRows_new h hst hrow
    exact (congrArg status hcols :)

/-! ## One import step -/

section Step

variable {plan : ImportPlan} {st : ImportState} {r : Interruptions} {s : Session}

theorem freezes_apply (h : Spares plan st (.apply s)) : Freezes plan st (.apply s) := by
  intro id row hrow hpaid
  show (importStep plan st (.apply s)).db.invoices.find id = some row
  rw [importStep]
  cases happly : applyImport st.db plan s with
  | mk db' verdict =>
    cases verdict with
    | error e =>
      rw [applyImport_error happly]
      exact hrow
    | ok result =>
      obtain ⟨after, hrows, rfl, -⟩ := applyImport_ok happly
      have hfind := (applyRows_find hrows hrow).1
      rw [updatesFor_of_unnamed (h id row hrow hpaid)] at hfind
      exact hfind

theorem freezes_rollback (h : Spares plan st (.rollback r)) : Freezes plan st (.rollback r) := by
  intro id row hrow hpaid
  show (importStep plan st (.rollback r)).db.invoices.find id = some row
  rw [importStep]
  cases hsnap : st.snapshot with
  | none => exact hrow
  | some snapshot =>
    obtain ⟨hlog, hnew⟩ := h snapshot hsnap id row hrow hpaid
    show (rollbackImport st.db snapshot r).1.invoices.find id = some row
    cases hroll : rollbackImport st.db snapshot r with
    | mk db' verdict =>
      cases verdict with
      | error e =>
        rw [rollbackImport_error hroll]
        exact hrow
      | ok out =>
        show db'.invoices.find id = some row
        rw [rollbackImport_find hroll, if_neg, entriesFor_of_unlogged hlog]
        · exact hrow
        rintro ⟨c, hc, hid⟩
        exact hnew c hc hid

theorem spares_of_freezes_apply {p : Platform} {existing : List ExistingInvoice} {onError : OnError}
    {clock : Nat → Int} {rows : List RawImportRow}
    (hplan : planImport p existing onError clock rows = .ok plan)
    (hcommit : Commits plan st (.apply s))
    (h : Freezes plan st (.apply s)) : Spares plan st (.apply s) := by
  intro id row hrow hpaid planned hmem hupdate hid
  obtain ⟨result, hok⟩ := hcommit
  have happly : applyImport st.db plan s
      = ((applyImport st.db plan s).1, .ok result) := Prod.ext rfl hok
  obtain ⟨after, hrows, hdb, -⟩ := applyImport_ok happly
  have hfind := (applyRows_find hrows hrow).1
  have hsame := h id row hrow hpaid
  have hstep : (importStep plan st (.apply s)).db = (applyImport st.db plan s).1 := by
    rw [importStep, happly]
  rw [hstep, hdb] at hsame
  have heq := Option.some.inj (hfind.symm.trans hsame)
  have hversion := version_updates row (updatesFor id plan.rows) (updatesFor_ne_nil hplan id)
  rw [heq] at hversion
  obtain ⟨kept, -, hcarry⟩ := carries_of_update hplan hmem hupdate
  obtain ⟨found, -, -, hch, -⟩ := hcarry.changes hupdate
  have hin : changesFor kept.row found kept.now ∈ updatesFor id plan.rows := by
    refine mem_filterMap.mpr ⟨planned, hmem, ?_⟩
    rw [if_pos ⟨of_decide_eq_true hupdate, hid⟩, hch]
  have hpos := length_pos_of_mem hin
  omega

/-- The undo log puts a paid invoice back to an unpaid image, and the
    deletions remove it. -/
theorem spares_of_freezes_rollback
    (himages : UnpaidImages st) (hcommit : Commits plan st (.rollback r))
    (h : Freezes plan st (.rollback r)) : Spares plan st (.rollback r) := by
  intro snapshot hsnap id row hrow hpaid
  obtain ⟨out, hok⟩ := hcommit snapshot hsnap
  have hroll : rollbackImport st.db snapshot r
      = ((rollbackImport st.db snapshot r).1, .ok out) := Prod.ext rfl hok
  have hsame := h id row hrow hpaid
  have hstep : (importStep plan st (.rollback r)).db = (rollbackImport st.db snapshot r).1 := by
    rw [importStep, hsnap]
  rw [hstep, rollbackImport_find hroll] at hsame
  have hnew : ¬ ∃ c ∈ snapshot.created, c.id = id := by
    intro hc
    rw [if_pos hc] at hsame
    cases hsame
  rw [if_neg hnew, hrow] at hsame
  constructor
  · intro entry hentry hid
    have hin : entry.before ∈ entriesFor id snapshot.updated :=
      mem_map_of_mem (mem_filter.mpr ⟨hentry, decide_eq_true hid⟩)
    cases hlast : (entriesFor id snapshot.updated).getLast? with
    | none =>
      rw [getLast?_eq_none_iff.mp hlast] at hin
      cases hin
    | some before =>
      rw [hlast] at hsame
      have hstatus : before.status = row.status :=
        (congrArg status (Option.some.inj hsame) :)
      obtain ⟨e, he, rfl⟩ := mem_map.mp (mem_of_getLast? hlast)
      refine himages snapshot hsnap e (mem_filter.mp he).1 ?_
      rw [hstatus, hpaid]
  · intro c hc hid
    exact hnew ⟨c, hc, hid⟩

theorem UnpaidImages.step {step : ImportStep} (himages : UnpaidImages st)
    (h : Spares plan st step) : UnpaidImages (importStep plan st step) := by
  cases step with
  | other write => exact himages
  | rollback r =>
    rw [importStep]
    cases hsnap : st.snapshot with
    | none => exact himages
    | some snapshot =>
      intro snapshot' hsnap'
      exact himages snapshot' (hsnap.trans hsnap')
  | apply s =>
    rw [importStep]
    cases happly : applyImport st.db plan s with
    | mk db' verdict =>
      cases verdict with
      | error e => exact himages
      | ok result =>
        intro snapshot hsnap entry hentry hpaid
        obtain ⟨after, hrows, -, hlog⟩ := applyImport_ok happly
        rw [← Option.some.inj hsnap, hlog] at hentry
        have hlogged : Logged after := applyRows_logged hrows (fun e he => nomatch he)
        obtain ⟨before, row, hbefore, hrow, hcols⟩ := hlogged entry hentry
        have hstatus : row.status = .paid := by
          rw [hbefore] at hpaid
          rw [← hpaid]
          exact ((congrArg status hcols).symm :)
        rcases applyRows_status hrows hrow with ⟨r, hr, hsame⟩ | hpending
        · have hnone := updatesFor_of_unnamed (h entry.id r hr (hsame.symm.trans hstatus))
          have hentries := (applyRows_find hrows hr).2
          rw [hnone] at hentries
          have hin : entry.before ∈ entriesFor entry.id after.snapshot.updated :=
            mem_map_of_mem (mem_filter.mpr ⟨hentry, decide_eq_true rfl⟩)
          rw [hentries] at hin
          cases hin
        · rw [hstatus] at hpending
          cases hpending

end Step

/-- **PAID IS FROZEN** along every run of the import commands and other
    sessions' writes whose import steps find none of the invoices they write
    to paid; where the import steps commit, along no other run. -/
theorem paid_frozen_iff {p : Platform} {existing : List ExistingInvoice}
    {onError : OnError} {clock : Nat → Int} {rows : List RawImportRow}
    {plan : ImportPlan}
    (hplan : planImport p existing onError clock rows = .ok plan)
    (db : InvoiceDb) (steps : List ImportStep) :
    (Along (importStep plan) (Spares plan) ⟨db, none⟩ steps →
      Along (importStep plan) (Freezes plan) ⟨db, none⟩ steps) ∧
    (Along (importStep plan) (Commits plan) ⟨db, none⟩ steps →
      (Along (importStep plan) (Freezes plan) ⟨db, none⟩ steps ↔
        Along (importStep plan) (Spares plan) ⟨db, none⟩ steps)) := by
  have hfreezes : ∀ st step, Spares plan st step →
      Freezes plan st step := by
    intro st step hspares
    cases step with
    | other write => exact trivial
    | apply s => exact freezes_apply hspares
    | rollback r => exact freezes_rollback hspares
  have hsuff : Along (importStep plan) (Spares plan) ⟨db, none⟩ steps →
      Along (importStep plan) (Freezes plan) ⟨db, none⟩ steps := by
    intro h
    refine Along.imp (I := fun _ => True) ?_ trivial h
    exact fun st step _ hspares => ⟨hfreezes st step hspares, trivial⟩
  refine ⟨hsuff, fun hcommits => ⟨fun h => ?_, hsuff⟩⟩
  have himages : UnpaidImages ⟨db, none⟩ := nofun
  refine Along.imp (I := UnpaidImages) ?_ himages (hcommits.and h)
  rintro st step himages ⟨hcommit, hfreeze⟩
  have hspares : Spares plan st step := by
    cases step with
    | other write => exact trivial
    | apply s => exact spares_of_freezes_apply hplan hcommit hfreeze
    | rollback r => exact spares_of_freezes_rollback himages hcommit hfreeze
  exact ⟨hspares, himages.step hspares⟩

/-! ## A payment between the plan and the import -/

/-- The payment of the sample invoice. -/
def paySample (db : InvoiceDb) : InvoiceDb :=
  (InvoiceService.markAsPaid db "x" "h" "P" none none 0).1

/-- An import that rewrites the invoice before it is paid. -/
theorem paid_frozen_later : ∃ plan,
    planImport plainPlatform (existingOf sampleTable) .abort (fun _ => 0)
      [describingRow 2 "E" "" "first"] = .ok plan
    ∧ plan.rows.any isUpdate = true
    ∧ Along (importStep plan) (Freezes plan) ⟨sampleDb, none⟩
      [.apply sampleSession, .other paySample] := by
  have hrun : (planImport plainPlatform (existingOf sampleTable) .abort
      (fun _ => 0) [describingRow 2 "E" "" "first"]).toOption.map
      (fun plan => plan.rows.any isUpdate) = some true := by decide +kernel
  obtain ⟨plan, hplan, hupdates⟩ := planImport_returns hrun
  refine ⟨plan, hplan, hupdates, (paid_frozen_iff hplan sampleDb
    [.apply sampleSession, .other paySample]).1 ⟨?_, trivial, trivial⟩⟩
  intro id row hrow hpaid
  have hopen : ∀ row ∈ sampleDb.invoices.rows, row.status ≠ .paid := by decide
  exact absurd hpaid (hopen row (InvoiceTable.mem_of_find hrow))

/-- The plan is made, the invoice is paid, the import then writes its new
    description and moves its version. -/
theorem import_rewrites_paid_invoice : ∃ plan,
    planImport plainPlatform (existingOf sampleTable) .abort (fun _ => 0)
      [describingRow 2 "E" "" "first"] = .ok plan
    ∧ ¬ Along (importStep plan) (Freezes plan) ⟨sampleDb, none⟩
      [.other paySample, .apply sampleSession] := by
  have hrun : (planImport plainPlatform (existingOf sampleTable) .abort
      (fun _ => 0) [describingRow 2 "E" "" "first"]).toOption.map
      (fun plan => (((importStep plan ⟨paySample sampleDb, none⟩
        (.apply sampleSession)).db.invoices.find "x").map version))
      = some (some 3) := by decide +kernel
  obtain ⟨plan, hplan, hversion⟩ := planImport_returns hrun
  refine ⟨plan, hplan, ?_⟩
  rintro ⟨-, hfreezes, -⟩
  have hpaid : ∃ row, (paySample sampleDb).invoices.find "x" = some row
      ∧ row.status = .paid ∧ row.version = 2 := by
    have hmap : ((paySample sampleDb).invoices.find "x").map
        (fun row => (row.status, row.version)) = some (.paid, 2) := by
      decide +kernel
    obtain ⟨row, hrow, hpair⟩ := Option.map_eq_some_iff.mp hmap
    exact ⟨row, hrow, (Prod.mk.inj hpair).1, (Prod.mk.inj hpair).2⟩
  obtain ⟨row, hrow, hstatus, hrowversion⟩ := hpaid
  have hsame := hfreezes "x" row hrow hstatus
  have hmoved : ((importStep plan ⟨paySample sampleDb, none⟩
      (.apply sampleSession)).db.invoices.find "x").map version
      = some row.version := congrArg (Option.map version) hsame
  rw [hversion, hrowversion] at hmoved
  exact absurd hmoved (by decide)

end Imports

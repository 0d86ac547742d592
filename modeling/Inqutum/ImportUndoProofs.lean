import Inqutum.FirstOccurrenceProofs
import Inqutum.ImportExecutorProofs

/-!
# Undoing an import

The snapshot of an applied import is meant to be a complete undo.  Two
things stand between that and the code.  The log is replayed in the order
in which it was written, so an invoice with two entries ends at the second,
the state between its two updates.  And an image holds its dates to the
millisecond and its metadata as the driver reads it, while the table keeps
microseconds and its own JSON.

`undo_exact_iff` says that nothing else does: the table comes back exactly
when no invoice is updated under both of its keys and every updated row
survives the driver.
-/

namespace Imports

open Invoices List InvoiceRow

/-! ## The planner's view of a table -/

/-- The stored invoices the plan is made against. -/
def existingOf (t : InvoiceTable) : List ExistingInvoice :=
  t.rows.map toExistingInvoice

theorem pairwise_of_unique {β : Type} {t : InvoiceTable} {key : InvoiceRow → Option β}
    (h : Table.UniqueOn InvoiceRow.id key t.rows) :
    t.rows.Pairwise (fun a b => key a ≠ none → key a ≠ key b) := by
  have hids : t.rows.Pairwise (fun a b => a.id ≠ b.id) := pairwise_map.mp t.ids
  refine hids.imp_of_mem ?_
  intro a b ha hb hne hkey heq
  exact hne (h a ha b hb hkey heq)

theorem distinct_existingOf (t : InvoiceTable) : Distinct (existingOf t) where
  ids := by
    rw [existingOf, map_map]
    exact t.ids
  memos := by
    rw [existingOf, map_map]
    refine pairwise_map.mpr ?_
    refine (pairwise_of_unique t.memos).imp ?_
    intro a b hne heq
    exact hne (Option.some_ne_none _) (congrArg some heq)
  externalIds := by
    rw [existingOf, pairwise_map]
    exact pairwise_of_unique t.externalIds

theorem mem_existingOf {t : InvoiceTable} {id : String} {row : InvoiceRow}
    (h : t.find id = some row) : toExistingInvoice row ∈ existingOf t :=
  mem_map_of_mem (InvoiceTable.mem_of_find h)

/-! ## The updates of a plan -/

/-- A kept row would change the invoice it names. -/
def Touches (existing : List ExistingInvoice) (inv : ExistingInvoice) (kept : KeptRow) : Prop :=
  (NamesByExternalId kept.row inv ∨ NamesByMemo existing kept.row inv)
    ∧ (changesFor kept.row inv kept.now).isEmpty = false

instance (existing : List ExistingInvoice) (inv : ExistingInvoice)
    (kept : KeptRow) : Decidable (Touches existing inv kept) :=
  inferInstanceAs (Decidable ((_ ∨ _) ∧ _))

def isUpdate (row : PlannedRow) : Bool := decide (row.action = .update)

section Updates

variable {byKey : InsertionMap IdentityKey ExistingInvoice}
  {planned : PlannedRow} {kept : KeptRow} {found : ExistingInvoice}

/-- What an accepted row that names a stored invoice says. -/
theorem Carries.matched (h : Carries byKey planned kept)
    (hres : resolve byKey kept.row = some found) :
    planned.action = (if (changesFor kept.row found kept.now).isEmpty then .skip else .update)
    ∧ planned.existingId = some found.id
    ∧ planned.changes = (if (changesFor kept.row found kept.now).isEmpty
        then none else some (changesFor kept.row found kept.now))
    ∧ (found.status = .paid → changesFor kept.row found kept.now = []) := by
  have hdec : planned = matchedRow kept.row found planned.line kept.now := by
    have hd := h.decision
    simp only [freshRow, hres] at hd
    exact hd
  have hacc := h.accepted
  rw [hdec] at hacc
  rcases matchedRow_cases kept.row found planned.line kept.now with herr | ⟨-, hpaid, heq⟩
  · exact absurd herr hacc
  rw [heq] at hdec
  refine ⟨?_, ?_, ?_, hpaid⟩
  · exact congrArg PlannedRow.action hdec
  · exact congrArg PlannedRow.existingId hdec
  · exact congrArg PlannedRow.changes hdec

theorem Carries.update_iff (h : Carries byKey planned kept)
    (hres : resolve byKey kept.row = some found) :
    isUpdate planned = true ↔ (changesFor kept.row found kept.now).isEmpty = false := by
  rw [isUpdate, (h.matched hres).1, decide_eq_true_eq]
  by_cases hc : (changesFor kept.row found kept.now).isEmpty = true
  · simp [hc]
  · simp [hc]

theorem Carries.changes (h : Carries byKey planned kept) (hupdate : isUpdate planned = true) :
    ∃ found, resolve byKey kept.row = some found ∧ planned.existingId = some found.id
      ∧ planned.changes = some (changesFor kept.row found kept.now)
      ∧ changesFor kept.row found kept.now ≠ [] := by
  cases hres : resolve byKey kept.row with
  | none =>
    have hcreate := h.data.2.2.2.mpr hres
    rw [isUpdate, hcreate] at hupdate
    cases hupdate
  | some found =>
    have hne := (h.update_iff hres).mp hupdate
    obtain ⟨-, hid, hch, -⟩ := h.matched hres
    rw [hne] at hch
    refine ⟨found, rfl, hid, hch, ?_⟩
    intro hnil
    rw [hnil] at hne
    cases hne

end Updates

section Plan

variable {p : Platform} {existing : List ExistingInvoice} {onError : OnError}
  {clock : Nat → Int} {rows : List RawImportRow} {plan : ImportPlan}

theorem carries_of_update (h : planImport p existing onError clock rows = .ok plan)
    {row : PlannedRow} (hrow : row ∈ plan.rows) (hupdate : isUpdate row = true) :
    ∃ kept ∈ keptRows p (indexExisting existing) clock 0 [] rows,
      Carries (indexExisting existing) row kept := by
  refine forall₂_right (planImport_carries h) (mem_filter.mpr ⟨hrow, decide_eq_true ?_⟩)
  rw [of_decide_eq_true hupdate]
  exact nofun

theorem updatesFor_ne_nil (h : planImport p existing onError clock rows = .ok plan) (id : String) :
    ∀ changes ∈ updatesFor id plan.rows, changes ≠ [] := by
  intro changes hchanges
  obtain ⟨row, hrow, hsome⟩ := mem_filterMap.mp hchanges
  split at hsome
  · rename_i hup
    have hupdate : isUpdate row = true := decide_eq_true hup.1
    obtain ⟨kept, -, hcarry⟩ := carries_of_update h hrow hupdate
    obtain ⟨found, -, -, hch, hne⟩ := hcarry.changes hupdate
    rw [hch] at hsome
    cases hsome
    exact hne
  · cases hsome

theorem updatesFor_length (h : planImport p existing onError clock rows = .ok plan) (id : String) :
    (updatesFor id plan.rows).length = (targeting plan isUpdate id).length := by
  have hcount : ∀ l : List PlannedRow, (∀ row ∈ l, row ∈ plan.rows) →
      (updatesFor id l).length = ((acceptedRows l).filter (fun row =>
        isUpdate row && decide (row.existingId = some id))).length := by
    intro l
    induction l with
    | nil => intro _; rfl
    | cons row rest ih =>
      intro hsub
      have hrest := ih (fun r hr => hsub r (.tail _ hr))
      rw [updatesFor_cons, length_append, hrest, acceptedRows_cons]
      by_cases hup : row.action = .update ∧ row.existingId = some id
      · have hupdate : isUpdate row = true := decide_eq_true hup.1
        obtain ⟨kept, -, hcarry⟩ := carries_of_update h (hsub row (.head _)) hupdate
        obtain ⟨found, -, -, hch, -⟩ := hcarry.changes hupdate
        have hne : row.action ≠ .error := hcarry.accepted
        rw [if_pos hup, if_pos hne, hch, filter_cons_of_pos
          (by rw [hupdate, hup.2, decide_eq_true rfl]; rfl),
          length_cons]
        exact Nat.add_comm _ _
      · have hnot : ¬ (isUpdate row && decide (row.existingId = some id)) = true := by
          rw [Bool.and_eq_true, decide_eq_true_eq]
          exact fun hand => hup ⟨of_decide_eq_true hand.1, hand.2⟩
        rw [if_neg hup]
        split
        · rw [filter_cons, if_neg hnot]
          exact Nat.zero_add _
        · exact Nat.zero_add _
  exact hcount plan.rows (fun _ hr => hr)

theorem updatesFor_eq_nil (hd : Distinct existing)
    (h : planImport p existing onError clock rows = .ok plan)
    {inv : ExistingInvoice} (hinv : inv ∈ existing) :
    updatesFor inv.id plan.rows = [] ↔ ∀ kept ∈ keptRows p (indexExisting existing) clock 0 [] rows,
        ¬ Touches existing inv kept := by
  rw [← length_eq_zero_iff, updatesFor_length h]
  have hcarries := planImport_carries h
  constructor
  · rintro hzero kept hkept ⟨hnames, hch⟩
    obtain ⟨raw, -, hv⟩ := valid_of_keptRows hkept
    have hres := (resolve_iff_names hd hv).mpr ⟨hinv, hnames⟩
    obtain ⟨planned, hmem, hcarry⟩ := forall₂_left hcarries hkept
    have hin : planned ∈ targeting plan isUpdate inv.id := by
      refine mem_filter.mpr ⟨hmem, ?_⟩
      rw [(hcarry.update_iff hres).mpr hch, (hcarry.matched hres).2.1, decide_eq_true rfl]
      rfl
    rw [length_eq_zero_iff.mp hzero] at hin
    cases hin
  · intro hno
    rw [length_eq_zero_iff, eq_nil_iff_forall_not_mem]
    intro planned hin
    obtain ⟨hmem, hboth⟩ := mem_filter.mp hin
    rw [Bool.and_eq_true, decide_eq_true_eq] at hboth
    obtain ⟨kept, hkept, hcarry⟩ := forall₂_right hcarries hmem
    obtain ⟨raw, -, hv⟩ := valid_of_keptRows hkept
    have hres := (hcarry.target_iff hd hv hinv).mp hboth.2
    exact hno kept hkept ⟨((resolve_iff_names hd hv).mp hres).2,
      (hcarry.update_iff hres).mp hboth.1⟩

/-- An invoice is updated at most once exactly when it is not touched under
    both of its keys. -/
theorem updatesFor_le_one (hd : Distinct existing)
    (h : planImport p existing onError clock rows = .ok plan)
    {inv : ExistingInvoice} (hinv : inv ∈ existing) : (updatesFor inv.id plan.rows).length ≤ 1 ↔
      ¬ ((∃ a ∈ keptRows p (indexExisting existing) clock 0 [] rows, NamesByExternalId a.row inv
          ∧ (changesFor a.row inv a.now).isEmpty = false) ∧
        (∃ b ∈ keptRows p (indexExisting existing) clock 0 [] rows, NamesByMemo existing b.row inv
          ∧ (changesFor b.row inv b.now).isEmpty = false)) := by
  rw [updatesFor_length h]
  have hkind : ∀ planned kept, Carries (indexExisting existing) planned kept →
      resolve (indexExisting existing) kept.row = some inv →
      (isUpdate planned = true ↔ (changesFor kept.row inv kept.now).isEmpty = false) :=
    fun planned kept hcarry hres => hcarry.update_iff hres
  constructor
  · exact not_aliased_of_targets hd h hinv hkind
  · exact targets_of_not_aliased hd h hinv hkind

end Plan

/-! ## The image of a row -/

/-- What is left of a row after it went through a snapshot. -/
def roundTrip (row : InvoiceRow) : InvoiceRow :=
  restoreRow (rowToSnapshot row) row

/-- The row has whole milliseconds, and metadata that reads back as it is
    stored. -/
structure SurvivesDriver (row : InvoiceRow) : Prop where
  createdAt : 1000 ∣ row.createdAt
  paidAt : ∀ micros, row.paidAt = some micros → 1000 ∣ micros
  expiresAt : 1000 ∣ row.expiresAt
  metadata : (driverMetadata row.metadata).map Json.jsonbParam = row.metadata

theorem timestamp_roundTrip (micros : Int) :
    timestampParam (dateOf micros) = micros ↔ 1000 ∣ micros := by
  rw [timestampParam, dateOf]
  omega

theorem roundTrip_eq_iff (row : InvoiceRow) : roundTrip row = row ↔ SurvivesDriver row := by
  constructor
  · intro h
    refine ⟨?_, ?_, ?_, congrArg metadata h⟩
    · exact (timestamp_roundTrip _).mp (congrArg createdAt h)
    · intro micros hpaid
      have hp : (row.paidAt.map dateOf).map timestampParam = row.paidAt :=
        congrArg paidAt h
      rw [hpaid] at hp
      exact (timestamp_roundTrip _).mp (Option.some.inj hp)
    · exact (timestamp_roundTrip _).mp (congrArg expiresAt h)
  · rintro ⟨hcreated, hpaid, hexpires, hmeta⟩
    have hp : (row.paidAt.map dateOf).map timestampParam = row.paidAt := by
      cases hcase : row.paidAt with
      | none => rfl
      | some micros => exact congrArg some ((timestamp_roundTrip _).mpr (hpaid micros hcase))
    show restoreRow (rowToSnapshot row) row = row
    obtain ⟨⟩ := row
    simp only [restoreRow, rowToSnapshot] at *
    rw [(timestamp_roundTrip _).mpr hcreated, (timestamp_roundTrip _).mpr hexpires, hp, hmeta]

theorem getLast?_befores (r : InvoiceRow) (us : List (List Change)) :
    (befores r us).getLast? = if us = [] then none
      else some (rowToSnapshot (us.dropLast.foldl applyUpdate r)) := by
  induction us generalizing r with
  | nil => rfl
  | cons changes rest ih =>
    rw [befores, getLast?_cons, ih, if_neg (cons_ne_nil _ _)]
    cases rest with
    | nil => rfl
    | cons changes' rest' =>
      rw [if_neg (cons_ne_nil _ _), dropLast_cons_cons]
      rfl

/-! ## Apply, then roll back -/

/-- Payment events belong to stored invoices: the foreign key of the
    schema. -/
def EventsReferenced (db : InvoiceDb) : Prop :=
  ∀ event ∈ db.paymentEvents, db.invoices.find event.invoiceId ≠ none

section Undo

variable {db db' : InvoiceDb} {plan : ImportPlan} {s : Session}
  {result : ApplyResult}

theorem rollback_after_apply (hfk : EventsReferenced db)
    (happly : applyImport db plan s = (db', .ok result)) :
    ∃ db'' out, rollbackImport db' result.snapshot {} = (db'', .ok out) := by
  obtain ⟨st, hrows, rfl, hsnap⟩ := applyImport_ok happly
  have hlogged : Logged st := applyRows_logged hrows (fun entry hentry => nomatch hentry)
  have hversion : ∀ (n : Nat) (a b : ApplyState) (rows : List PlannedRow),
      applyRows s n a rows = .ok b →
      b.snapshot.version = a.snapshot.version := by
    intro n a b rows
    induction rows generalizing n a with
    | nil =>
      intro h
      rw [applyRows] at h
      rw [Except.ok.inj h]
    | cons row rest ih =>
      intro h
      obtain ⟨mid, heffect, hrest⟩ := applyRows_cons h
      rw [ih _ _ hrest, heffect.version]
  refine rollbackImport_accepted ?_ ?_ ?_
  · rw [hsnap, hversion _ _ _ _ hrows]
    rfl
  · intro entry hentry row hrow
    rw [hsnap] at hentry
    obtain ⟨before, row', hbefore, hfind, hcols⟩ := hlogged entry hentry
    have heq : row' = row := Option.some.inj (hfind.symm.trans hrow)
    rw [hbefore, ← heq]
    refine ⟨?_, ?_, ?_⟩
    · exact (congrArg memo hcols :)
    · exact (congrArg paymentTxHash hcols :)
    · exact (congrArg externalId hcols :)
  · intro c hc
    rw [hsnap] at hc
    rcases (applyRows_created hrows).1 c hc with hin | hfresh
    · cases hin
    refine eq_false_of_ne_true ?_
    intro href
    obtain ⟨event, hevent, hid⟩ := any_eq_true.mp href
    have hsome := hfk event hevent
    rw [beq_iff_eq.mp hid] at hsome
    exact hsome hfresh

variable {out : RollbackResult} {r : Interruptions} {db'' : InvoiceDb} {id : String}

theorem undo_find_stored (happly : applyImport db plan s = (db', .ok result))
    (hroll : rollbackImport db' result.snapshot r = (db'', .ok out)) {row : InvoiceRow}
    (hrow : db.invoices.find id = some row) :
    db''.invoices.find id = some (if updatesFor id plan.rows = [] then row
      else restoreRow (rowToSnapshot
        ((updatesFor id plan.rows).dropLast.foldl applyUpdate row)) row) := by
  obtain ⟨st, hrows, rfl, hsnap⟩ := applyImport_ok happly
  obtain ⟨hfind, hlog⟩ := applyRows_find hrows hrow
  have hnew : ¬ ∃ c ∈ result.snapshot.created, c.id = id := by
    rintro ⟨c, hc, rfl⟩
    rw [hsnap] at hc
    rcases (applyRows_created hrows).1 c hc with hin | hfresh
    · cases hin
    rw [show (initialState db s).invoices.find c.id
      = db.invoices.find c.id from rfl, hrow] at hfresh
    cases hfresh
  have hlogged : entriesFor id st.snapshot.updated = befores row (updatesFor id plan.rows) := hlog
  rw [rollbackImport_find hroll, if_neg hnew, hsnap, hlogged, getLast?_befores, hfind]
  by_cases hnil : updatesFor id plan.rows = []
  · rw [if_pos hnil, if_pos hnil, hnil]
    rfl
  rw [if_neg hnil, if_neg hnil]
  have hid : ((updatesFor id plan.rows).foldl applyUpdate row).id = row.id := by
    show (fixedColumns _).id = (fixedColumns row).id
    rw [fixedColumns_updates]
  simp only [Option.map_some, restoreRow, hid]

/-- No row is added. -/
theorem undo_find_absent (happly : applyImport db plan s = (db', .ok result))
    (hroll : rollbackImport db' result.snapshot r = (db'', .ok out))
    (hnone : db.invoices.find id = none) : db''.invoices.find id = none := by
  obtain ⟨st, hrows, rfl, hsnap⟩ := applyImport_ok happly
  rw [rollbackImport_find hroll, hsnap]
  by_cases hcreated : ∃ c ∈ st.snapshot.created, c.id = id
  · rw [if_pos hcreated]
  rw [if_neg hcreated]
  have hst : st.invoices.find id = none := by
    by_contra hsome
    exact hcreated ((applyRows_created hrows).2 id hnone hsome)
  cases (entriesFor id st.snapshot.updated).getLast? with
  | none => exact hst
  | some before => exact congrArg (Option.map (restoreRow before)) hst

theorem restored_ne (row : InvoiceRow) {us : List (List Change)}
    (hne : ∀ changes ∈ us, changes ≠ []) (htwo : 2 ≤ us.length) :
    restoreRow (rowToSnapshot (us.dropLast.foldl applyUpdate row)) row ≠ row := by
  intro heq
  have hversion : (us.dropLast.foldl applyUpdate row).version
      = row.version := (congrArg version heq :)
  rw [version_updates row us.dropLast (fun c hc => hne c (dropLast_subset us hc)),
    length_dropLast] at hversion
  omega

/-- The file updates no invoice under both of its keys, and what it updates
    survives the driver. -/
def Undoable (p : Platform) (t : InvoiceTable) (clock : Nat → Int)
    (rows : List RawImportRow) : Prop :=
  ∀ row ∈ t.rows, ¬ ((∃ a ∈ keptRows p (indexExisting (existingOf t)) clock 0 [] rows,
        NamesByExternalId a.row (toExistingInvoice row)
        ∧ (changesFor a.row (toExistingInvoice row) a.now).isEmpty = false) ∧
      (∃ b ∈ keptRows p (indexExisting (existingOf t)) clock 0 [] rows,
        NamesByMemo (existingOf t) b.row (toExistingInvoice row)
        ∧ (changesFor b.row (toExistingInvoice row) b.now).isEmpty = false)) ∧
    ((∃ a ∈ keptRows p (indexExisting (existingOf t)) clock 0 [] rows,
      Touches (existingOf t) (toExistingInvoice row) a) →
      SurvivesDriver row)

/-- **UNDO**: right after an import, the rollback goes through, and it brings
    the table back exactly when no invoice was updated under both of its keys
    and every updated row survives the driver. -/
theorem undo_exact_iff {p : Platform} {onError : OnError}
    {clock : Nat → Int} {rows : List RawImportRow}
    (hfk : EventsReferenced db)
    (hplan : planImport p (existingOf db.invoices) onError clock rows = .ok plan)
    (happly : applyImport db plan s = (db', .ok result)) :
    ∃ db'' out, rollbackImport db' result.snapshot {} = (db'', .ok out)
      ∧ ((∀ id, db''.invoices.find id = db.invoices.find id)
        ↔ Undoable p db.invoices clock rows) := by
  obtain ⟨db'', out, hroll⟩ := rollback_after_apply hfk happly
  refine ⟨db'', out, hroll, ?_⟩
  have hd := distinct_existingOf db.invoices
  constructor
  · intro hsame row hrow
    have hfind := (db.invoices.mem_iff_find row).mp hrow
    have hinv := mem_existingOf hfind
    have hback := undo_find_stored happly hroll hfind
    rw [hsame row.id, hfind] at hback
    have hback := (Option.some.inj hback).symm
    have hne := updatesFor_ne_nil hplan row.id
    have hle : (updatesFor row.id plan.rows).length ≤ 1 := by
      by_contra hgt
      have hnil : updatesFor row.id plan.rows ≠ [] := by
        intro hnil
        rw [hnil] at hgt
        exact hgt (Nat.zero_le 1)
      rw [if_neg hnil] at hback
      exact restored_ne row hne (by omega) hback
    refine ⟨(updatesFor_le_one hd hplan hinv).mp hle, ?_⟩
    rintro ⟨a, ha, htouch⟩
    have hnil : updatesFor row.id plan.rows ≠ [] := fun hnil =>
      (updatesFor_eq_nil hd hplan hinv).mp hnil a ha htouch
    rw [if_neg hnil] at hback
    have hdrop : (updatesFor row.id plan.rows).dropLast = [] := by
      refine length_eq_zero_iff.mp ?_
      rw [length_dropLast]
      omega
    rw [hdrop] at hback
    exact (roundTrip_eq_iff row).mp hback
  · intro hundo id
    cases hfind : db.invoices.find id with
    | none => exact undo_find_absent happly hroll hfind
    | some row =>
      have hinv := mem_existingOf hfind
      have hid := InvoiceTable.find_id hfind
      obtain ⟨honce, hsurvives⟩ := hundo row (InvoiceTable.mem_of_find hfind)
      have hle := (updatesFor_le_one hd hplan hinv).mpr honce
      rw [show (toExistingInvoice row).id = id from hid] at hle
      rw [undo_find_stored happly hroll hfind]
      by_cases hnil : updatesFor id plan.rows = []
      · rw [if_pos hnil]
      have hdrop : (updatesFor id plan.rows).dropLast = [] := by
        refine length_eq_zero_iff.mp ?_
        rw [length_dropLast]
        omega
      have htouch : ∃ a ∈ keptRows p (indexExisting (existingOf db.invoices)) clock 0 [] rows,
          Touches (existingOf db.invoices) (toExistingInvoice row) a := by
        by_contra hno
        refine hnil ?_
        rw [← hid]
        refine (updatesFor_eq_nil hd hplan hinv).mpr ?_
        intro kept hkept ht
        exact hno ⟨kept, hkept, ht⟩
      rw [if_neg hnil, hdrop]
      exact congrArg some ((roundTrip_eq_iff row).mpr (hsurvives htouch))

end Undo

/-! ## Two files against one stored invoice -/

/-- Apply a plan and roll it back, if both commit. -/
def applyAndUndo (db : InvoiceDb) (plan : ImportPlan) (s : Session) :
    Option InvoiceDb :=
  match applyImport db plan s with
  | (db', .ok result) =>
    match rollbackImport db' result.snapshot {} with
    | (db'', .ok _) => some db''
    | _ => none
  | _ => none

theorem applyAndUndo_eq_some {db db'' : InvoiceDb} {plan : ImportPlan}
    {s : Session} (h : applyAndUndo db plan s = some db'') :
    ∃ db' result out, applyImport db plan s = (db', .ok result)
      ∧ rollbackImport db' result.snapshot {} = (db'', .ok out) := by
  rw [applyAndUndo] at h
  split at h
  · rename_i db' result happly
    split at h
    · rename_i db₂ out hroll
      cases h
      exact ⟨db', result, out, happly, hroll⟩
    · cases h
  · cases h

/-- A row that sets the description of a five lumen invoice. -/
def describingRow (line : Nat) (externalId memo description : String) : RawImportRow where
  line := line
  values
    | .description => some description
    | c => (sampleRow line externalId memo).values c

def storedSample : InvoiceRow where
  id := "x"
  sellerPublicKey := sampleSeller
  amount := 5
  memo := "INV-A-B"
  createdAt := 0
  expiresAt := 86400000000
  externalId := some "E"

def sampleTable : InvoiceTable where
  rows := [storedSample]
  ids := nodup_singleton _
  memos := by decide
  txHashes := by decide
  externalIds := by decide

def sampleDb : InvoiceDb := ⟨sampleTable, []⟩

def sampleSession : Session where
  source := "invoices.csv"
  now := 0
  uuid := fun n => "n" ++ Nat.repr n
  generatedMemo := fun n => "INV-G-" ++ Nat.repr n

theorem eventsReferenced_sample : EventsReferenced sampleDb :=
  nofun

/-- One description, set by external id, is undone. -/
theorem undo_exact_single : ∃ plan db' result db'' out,
    planImport plainPlatform (existingOf sampleTable) .abort (fun _ => 0)
      [describingRow 2 "E" "" "first"] = .ok plan
    ∧ applyImport sampleDb plan sampleSession = (db', .ok result)
    ∧ rollbackImport db' result.snapshot {} = (db'', .ok out)
    ∧ ∀ id, db''.invoices.find id = sampleDb.invoices.find id := by
  have hrun : (planImport plainPlatform (existingOf sampleTable) .abort
      (fun _ => 0) [describingRow 2 "E" "" "first"]).toOption.map
      (fun plan => (applyAndUndo sampleDb plan sampleSession).isSome)
      = some true := by decide +kernel
  obtain ⟨plan, hplan, hsome⟩ := planImport_returns hrun
  obtain ⟨db₂, hdb₂⟩ := Option.isSome_iff_exists.mp hsome
  obtain ⟨db', result, -, happly, -⟩ := applyAndUndo_eq_some hdb₂
  obtain ⟨db'', out, hroll, hiff⟩ := undo_exact_iff eventsReferenced_sample hplan happly
  refine ⟨plan, db', result, db'', out, hplan, happly, hroll, hiff.mpr ?_⟩
  intro row hrow
  rw [mem_singleton.mp hrow]
  refine ⟨by decide +kernel, fun _ => ?_⟩
  exact ⟨by decide, nofun, by decide, rfl⟩

/-- Two descriptions, one set by external id and one by memo: the rollback
    stops at the first. -/
theorem undo_stops_between_updates : EventsReferenced sampleDb ∧ ∃ plan db' result db'' out,
    planImport plainPlatform (existingOf sampleTable) .abort (fun _ => 0)
      [describingRow 2 "E" "" "first", describingRow 3 "" "INV-A-B" "second"]
      = .ok plan
    ∧ applyImport sampleDb plan sampleSession = (db', .ok result)
    ∧ rollbackImport db' result.snapshot {} = (db'', .ok out)
    ∧ db''.invoices.find "x" ≠ sampleDb.invoices.find "x" := by
  refine ⟨eventsReferenced_sample, ?_⟩
  have hrun : (planImport plainPlatform (existingOf sampleTable) .abort
      (fun _ => 0) [describingRow 2 "E" "" "first",
        describingRow 3 "" "INV-A-B" "second"]).toOption.map
      (fun plan => (applyAndUndo sampleDb plan sampleSession).map
        (fun db => (db.invoices.find "x").map (fun row => (row.description, row.version))))
      = some (some (some (some "first", 2))) := by decide +kernel
  obtain ⟨plan, hplan, hmap⟩ := planImport_returns hrun
  obtain ⟨db'', hundo, hback⟩ := Option.map_eq_some_iff.mp hmap
  obtain ⟨db', result, out, happly, hroll⟩ := applyAndUndo_eq_some hundo
  refine ⟨plan, db', result, db'', out, hplan, happly, hroll, ?_⟩
  intro heq
  rw [heq] at hback
  exact absurd hback (by decide +kernel)

end Imports

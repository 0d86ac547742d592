import Inqutum.ImportUndoProofs

/-!
# The import command

`runImportCli` plans a file twice: once against nothing, to learn which
stored rows it names, and once against those rows.  Under `--apply` it
refuses a plan with an error row, and hands any other plan to
`applyImport`, which writes it in one transaction.

Reading the file and printing reports are left out: a file is what
`parseImportFile` makes of it.  The tables the command reads and the
tables its transaction starts from may differ.

`honours_iff` compares the command with its documented error modes.
`abort` refuses the file and a stopped transaction writes nothing, as
documented; `skip` refuses the file as well.
-/

namespace Imports

open Invoices List Option InsertionMap Nat

/-- What `parseImportFile` returns. -/
structure ParsedFile where
  rows : List RawImportRow
  errors : List String := []

/-- `loadExisting`: the stored rows whose external id or memo is one of the
    external ids of the plan, by both of their keys. -/
def loadExisting (t : InvoiceTable) (plan : ImportPlan) :
    InsertionMap IdentityKey InvoiceRow :=
  let ids := plan.rows.filterMap PlannedRow.externalId
  if ids.isEmpty then empty
  else
    (t.rows.filter (fun row =>
      row.externalId.any ids.contains || ids.contains row.memo)).foldl
      (fun byKey row =>
        let byKey := match JsText.nonEmpty row.externalId with
          | some id => byKey.set (.external id) row
          | none => byKey
        byKey.set (.memo row.memo) row) empty

/-- One call of the command on a file, and what it meets on the way. -/
structure Invocation where
  file : ParsedFile
  onError : OnError
  /-- The tables when the stored rows are loaded. -/
  seen : InvoiceDb
  /-- A connection or a query that fails while they are. -/
  loadRefused : Option String := none
  probeClock : Nat → Int
  clock : Nat → Int
  session : Session

/-- How the command ends: with an exit code, or with an error thrown by the
    planner, the load or the transaction. -/
inductive Exit where
  | code (n : Nat)
  | threw (thrown : Thrown)
  | failed (failure : ImportFailure)

namespace Invocation

/-- The plan the command works with, or how it ended before it had one. -/
def plan (p : Platform) (inv : Invocation) : Except Exit ImportPlan :=
  if inv.file.errors.isEmpty = false then .error (.code 1)
  else
    match planImport p [] inv.onError inv.probeClock inv.file.rows with
    | .error thrown => .error (.threw thrown)
    | .ok probe =>
      match inv.loadRefused with
      | some message => .error (.failed (.database message))
      | none =>
        let loaded := loadExisting inv.seen.invoices probe
        match planImport p (loaded.values.map toExistingInvoice)
            inv.onError inv.clock inv.file.rows with
        | .error thrown => .error (.threw thrown)
        | .ok plan => .ok plan

/-- `runImportCli` with `--file`: the tables it leaves and how it ends. -/
def runImportCli (p : Platform) (apply : Bool) (inv : Invocation)
    (db : InvoiceDb) : InvoiceDb × Exit :=
  match inv.plan p with
  | .error exit => (db, exit)
  | .ok plan =>
    if apply = false then
      (db, .code (if 0 < plan.counts.error then 1 else 0))
    else if 0 < plan.counts.error then (db, .code 1)
    else
      match applyImport db plan inv.session with
      | (db', .ok _) => (db', .code 0)
      | (db', .error failure) => (db', .failed failure)

end Invocation

/-! ## What stops a transaction -/

/-- The row is one the transaction has statements for. -/
def PlannedRow.Writes (row : PlannedRow) : Prop :=
  row.action = .create ∨
  row.action = .update ∧ row.existingId ≠ none ∧ row.changes ≠ none

/-- Row `n` of the plan ends the transaction that has reached `t`. -/
inductive RowStops (s : Session) (n : Nat) (t : InvoiceTable) (row : PlannedRow) : Prop where
  | aborted (h : s.aborted (n + 1) = true)
  | refused (message : String) (writes : row.Writes) (h : s.refused n = some message)
  | uncarried (action : row.action = .create) (h : row.invoice = none)
  | invalidExpiry (values : ImportInvoice) (action : row.action = .create)
      (carried : row.invoice = some values)
      (h : resolveExpiry values s.now = none)
  | constraint (values : ImportInvoice) (expiresAt : Int) (e : DbError)
      (action : row.action = .create) (carried : row.invoice = some values)
      (expiry : resolveExpiry values s.now = some expiresAt)
      (h : t.insert (importedRow values row.externalId (s.uuid n)
        (values.memo.getD (s.generatedMemo n)) s.now expiresAt) = .error e)
  | disappeared (id : String) (action : row.action = .update)
      (target : row.existingId = some id) (writes : row.changes ≠ none)
      (h : t.find id = none)
  | invalidChange (id : String) (changes : List Change)
      (action : row.action = .update) (target : row.existingId = some id)
      (carried : row.changes = some changes)
      (h : changes.any Change.invalid = true)

/-- The transaction of a plan does not reach its `COMMIT`, or the `COMMIT`
    fails. -/
inductive Interrupted (db : InvoiceDb) (plan : ImportPlan) (s : Session) : Prop where
  | atStart (h : s.aborted 0 = true)
  | atRow (pre post : List PlannedRow) (row : PlannedRow) (st : ApplyState)
      (split : plan.rows = pre ++ row :: post)
      (reached : applyRows s 0 (initialState db s) pre = .ok st)
      (h : RowStops s pre.length st.invoices row)
  | atEnd (h : s.aborted (plan.rows.length + 1) = true)
  | atCommit (message : String) (h : s.refused plan.rows.length = some message)

section Stops

variable {s : Session} {n : Nat} {st : ApplyState} {row : PlannedRow}

theorem update_applyUpdate_accepted (t : InvoiceTable) (id : String) (changes : List Change) :
    ∃ t', t.update (fun r => r.id == id) (fun r => applyUpdate r changes) = .ok t' := by
  refine t.update_keeping_accepted (fun r => applyUpdate_id r changes) ?_
  intro r _ _
  have hcols := fixedColumns_applyUpdate r changes
  exact ⟨(congrArg InvoiceRow.memo hcols :), (congrArg InvoiceRow.paymentTxHash hcols :),
    (congrArg InvoiceRow.externalId hcols :)⟩

variable {e : ImportFailure}

theorem insertRow_stops (haction : row.action = .create)
    (h : insertRow s n st row = .error e) : RowStops s n st.invoices row := by
  rw [insertRow] at h
  cases hinv : row.invoice with
  | none => exact .uncarried haction hinv
  | some values =>
    rw [hinv] at h
    simp only at h
    cases hexp : resolveExpiry values s.now with
    | none => exact .invalidExpiry values haction hinv hexp
    | some expiresAt =>
      rw [hexp] at h
      simp only at h
      cases href : s.refused n with
      | some message => exact .refused message (.inl haction) href
      | none =>
        rw [href] at h
        simp only at h
        cases hins : st.invoices.insert (importedRow values row.externalId (s.uuid n)
            (values.memo.getD (s.generatedMemo n)) s.now
            expiresAt) with
        | error e => exact .constraint values expiresAt e haction hinv hexp hins
        | ok t => rw [hins] at h; cases h

theorem updateRow_stops {id : String} {changes : List Change}
    (haction : row.action = .update) (htarget : row.existingId = some id)
    (hchanges : row.changes = some changes) (h : updateRow s n st row id changes = .error e) :
    RowStops s n st.invoices row := by
  have hcarried : row.changes ≠ none := by
    rw [hchanges]
    exact some_ne_none changes
  rw [updateRow] at h
  cases href : s.refused n with
  | some message =>
    refine .refused message (.inr ⟨haction, ?_, hcarried⟩) href
    rw [htarget]
    exact some_ne_none id
  | none =>
    rw [href] at h
    simp only at h
    cases hfind : st.invoices.find id with
    | none => exact .disappeared id haction htarget hcarried hfind
    | some before =>
      rw [hfind] at h
      simp only at h
      split at h
      · rename_i hinvalid
        exact .invalidChange id changes haction htarget hchanges hinvalid
      split at h
      · cases h
      obtain ⟨t, ht⟩ := update_applyUpdate_accepted st.invoices id changes
      rw [ht] at h
      cases h

theorem applyRow_stops (h : applyRow s n st row = .error e) : RowStops s n st.invoices row := by
  rw [applyRow] at h
  split at h
  · rename_i haborted
    exact .aborted haborted
  split at h
  · rename_i haction
    exact insertRow_stops haction h
  · rename_i id changes haction htarget hchanges
    exact updateRow_stops haction htarget hchanges h
  · cases h

theorem RowStops.no_effect {st' : ApplyState}
    (h : RowStops s n st.invoices row) (hok : applyRow s n st row = .ok st') :
    False := by
  have heffect := applyRow_effect hok
  cases h with
  | aborted h =>
    rw [applyRow, if_pos h] at hok
    cases hok
  | refused message hwrites h =>
    rw [applyRow] at hok
    split at hok
    · cases hok
    rcases hwrites with haction | ⟨haction, hid, hch⟩
    · rw [haction] at hok
      simp only [insertRow, h] at hok
      split at hok
      · cases hok
      split at hok
      · cases hok
      · cases hok
    · obtain ⟨id, hid⟩ := ne_none_iff_exists'.mp hid
      obtain ⟨changes, hch⟩ := ne_none_iff_exists'.mp hch
      rw [haction, hid, hch] at hok
      simp only [updateRow, h] at hok
      cases hok
  | uncarried haction h =>
    cases heffect with
    | created values _ _ hcarried => rw [h] at hcarried; cases hcarried
    | updated _ _ _ hupdate => rw [haction] at hupdate; cases hupdate
    | none hnot => exact hnot haction
  | invalidExpiry values haction hcarried h =>
    cases heffect with
    | created values' _ _ hcarried' hexpiry =>
      rw [hcarried] at hcarried'
      rw [← some.inj hcarried', h] at hexpiry
      cases hexpiry
    | updated _ _ _ hupdate => rw [haction] at hupdate; cases hupdate
    | none hnot => exact hnot haction
  | constraint values expiresAt e haction hcarried hexpiry h =>
    cases heffect with
    | created values' expiresAt' _ hcarried' hexpiry' hins =>
      rw [hcarried] at hcarried'
      cases hcarried'
      rw [hexpiry] at hexpiry'
      cases hexpiry'
      rw [h] at hins
      cases hins
    | updated _ _ _ hupdate => rw [haction] at hupdate; cases hupdate
    | none hnot => exact hnot haction
  | disappeared id haction htarget hwrites h =>
    cases heffect with
    | created _ _ hcreate => rw [haction] at hcreate; cases hcreate
    | updated id' _ before _ htarget' _ hfound =>
      rw [htarget] at htarget'
      rw [← some.inj htarget', h] at hfound
      cases hfound
    | none _ hnone =>
      rcases hnone haction with hid | hch
      · rw [htarget] at hid
        cases hid
      · exact hwrites hch
  | invalidChange id changes haction htarget hcarried h =>
    cases heffect with
    | created _ _ hcreate => rw [haction] at hcreate; cases hcreate
    | updated _ changes' _ _ _ hcarried' _ hvalid =>
      rw [hcarried] at hcarried'
      rw [← some.inj hcarried', h] at hvalid
      cases hvalid
    | none _ hnone =>
      rcases hnone haction with hid | hch
      · rw [htarget] at hid
        cases hid
      rw [hcarried] at hch
      cases hch

theorem applyRows_stopped {rows : List PlannedRow} (h : applyRows s n st rows = .error e) :
    ∃ pre row post st', rows = pre ++ row :: post ∧ applyRows s n st pre = .ok st'
      ∧ RowStops s (n + pre.length) st'.invoices row := by
  induction rows generalizing n st with
  | nil => cases h
  | cons hd rest ih =>
    rw [applyRows] at h
    cases hrow : applyRow s n st hd with
    | error e' => exact ⟨[], hd, rest, st, rfl, rfl, applyRow_stops hrow⟩
    | ok mid =>
      rw [hrow] at h
      obtain ⟨pre, row, post, st', hsplit, hpre, hstop⟩ := ih h
      refine ⟨hd :: pre, row, post, st', by rw [hsplit]; rfl, ?_, ?_⟩
      · rw [applyRows, hrow]
        exact hpre
      rw [length_cons, add_comm pre.length, ← add_assoc]
      exact hstop

theorem applyRows_not_ok {pre post : List PlannedRow} {st' st'' : ApplyState}
    (hpre : applyRows s n st pre = .ok st') (hstop : RowStops s (n + pre.length) st'.invoices row)
    (h : applyRows s n st (pre ++ row :: post) = .ok st'') : False := by
  induction pre generalizing n st with
  | nil =>
    rw [applyRows] at hpre
    obtain rfl := Except.ok.inj hpre
    rw [nil_append, applyRows] at h
    cases hrow : applyRow s n st row with
    | error e => rw [hrow] at h; cases h
    | ok mid => exact hstop.no_effect hrow
  | cons hd rest ih =>
    rw [applyRows] at hpre
    rw [cons_append, applyRows] at h
    cases hrow : applyRow s n st hd with
    | error e => rw [hrow] at h; cases h
    | ok mid =>
      rw [hrow] at hpre h
      refine ih hpre ?_ h
      rw [length_cons, add_comm rest.length, ← add_assoc] at hstop
      exact hstop

end Stops

variable {plan : ImportPlan} {db : InvoiceDb} {s : Session}

theorem applyRows_of_not_interrupted (h : ¬ Interrupted db plan s) :
    ∃ st, applyRows s 0 (initialState db s) plan.rows = .ok st := by
  cases hrows : applyRows s 0 (initialState db s) plan.rows with
  | ok st => exact ⟨st, rfl⟩
  | error e =>
    obtain ⟨pre, row, post, st, hsplit, hpre, hstop⟩ := applyRows_stopped hrows
    rw [zero_add] at hstop
    exact absurd (.atRow pre post row st hsplit hpre hstop) h

theorem applyImport_interrupted (h : Interrupted db plan s) : (applyImport db plan s).1 = db := by
  cases hout : (applyImport db plan s).2 with
  | error e => exact applyImport_error (Prod.ext rfl hout)
  | ok result =>
    exfalso
    rw [applyImport] at hout
    split at hout
    · cases hout
    split at hout
    · cases hout
    split at hout
    · cases hout
    rename_i hstart
    cases hrows : applyRows s 0 (initialState db s) plan.rows with
    | error e => rw [hrows] at hout; cases hout
    | ok st =>
      simp only [hrows] at hout
      split at hout
      · cases hout
      rename_i hend
      cases h with
      | atStart h => exact hstart h
      | atRow pre post row st' hsplit hpre hstop =>
        rw [hsplit] at hrows
        rw [← zero_add pre.length] at hstop
        exact applyRows_not_ok hpre hstop hrows
      | atEnd h => exact hend h
      | atCommit message h =>
        rw [h] at hout
        cases hout

/-! ## Exactly the planned rows -/

/-- The invoice a creation leaves: its import, and any later update of the
    plan that names it. -/
def CreatedAs (plan : ImportPlan) (s : Session) (n : Nat) (row : PlannedRow)
    (stored : InvoiceRow) : Prop :=
  ∃ values expiresAt, row.invoice = some values ∧ resolveExpiry values s.now = some expiresAt
    ∧ stored = (updatesFor (s.uuid n) (plan.rows.drop (n + 1))).foldl
        applyUpdate (importedRow values row.externalId (s.uuid n)
          (values.memo.getD (s.generatedMemo n)) s.now expiresAt)

/-- `db'` is `db` with the creations and the updates of the plan, and nothing
    else. -/
structure Wrote (db : InvoiceDb) (plan : ImportPlan) (s : Session) (db' : InvoiceDb) : Prop where
  events : db'.paymentEvents = db.paymentEvents
  updates : ∀ id r, db.invoices.find id = some r →
    db'.invoices.find id = some ((updatesFor id plan.rows).foldl applyUpdate r)
  creates : ∀ n row, plan.rows[n]? = some row → row.action = .create →
    db.invoices.find (s.uuid n) = none
    ∧ ∃ stored, db'.invoices.find (s.uuid n) = some stored ∧ CreatedAs plan s n row stored
  only : ∀ id stored, db.invoices.find id = none → db'.invoices.find id = some stored →
    ∃ n row, plan.rows[n]? = some row ∧ row.action = .create ∧ s.uuid n = id

section Written

variable {s : Session} {n : Nat} {st st' : ApplyState}
  {rows : List PlannedRow} {id : String} {row : PlannedRow}

/-- **A FINISHED LOOP WROTE THE PLAN.** -/
theorem applyRows_wrote {db : InvoiceDb} {plan : ImportPlan}
    (h : applyRows s 0 (initialState db s) plan.rows = .ok st) :
    Wrote db plan s { db with invoices := st.invoices } where
  events := rfl
  updates _ _ hr := (applyRows_find h hr).1
  creates n row hrow haction := by
    obtain ⟨hnone, values, expiresAt, hcarried, hexpiry, hfind⟩ := applyRows_creates h hrow haction
    rw [zero_add] at hnone hfind
    exact ⟨hnone, _, hfind, values, expiresAt, hcarried, hexpiry, rfl⟩
  only id stored hnone hstored := by
    obtain ⟨n, row, hrow, haction, hid⟩ := applyRows_only h hnone hstored
    rw [zero_add] at hid
    exact ⟨n, row, hrow, haction, hid⟩

end Written

/-! ## The error modes -/

/-- The documented error modes, for one run of the command with `--apply`. -/
structure Honours (p : Platform) (inv : Invocation) (db : InvoiceDb) : Prop where
  abort : inv.onError = .abort → ∀ plan, inv.plan p = .ok plan →
    (∃ row ∈ plan.rows, row.action = .error) →
    (inv.runImportCli p true db).1 = db
  skip : inv.onError = .skip → ∀ plan, inv.plan p = .ok plan → ¬ Interrupted db plan inv.session →
    Wrote db plan inv.session (inv.runImportCli p true db).1
  stopped : ∀ plan, inv.plan p = .ok plan → Interrupted db plan inv.session →
    (inv.runImportCli p true db).1 = db
  unplanned : (∀ plan, inv.plan p ≠ .ok plan) → (inv.runImportCli p true db).1 = db

/-- Nothing of the plan is to be written. -/
def Idle (plan : ImportPlan) : Prop :=
  ∀ row ∈ plan.rows, row.action ≠ .create ∧ row.action ≠ .update

theorem Idle.wrote {plan : ImportPlan} (h : Idle plan) (db : InvoiceDb)
    (s : Session) : Wrote db plan s db where
  events := rfl
  updates id r hr := by
    have hnil : updatesFor id plan.rows = [] := by
      refine filterMap_eq_nil_iff.mpr ?_
      intro row hrow
      exact if_neg (fun hboth => (h row hrow).2 hboth.1)
    rw [hnil]
    exact hr
  creates n row hrow haction := absurd haction (h row (mem_of_getElem? hrow)).1
  only id stored hnone hstored := by
    rw [hnone] at hstored
    cases hstored

section Command

variable {p : Platform} {inv : Invocation} {db : InvoiceDb}
  {plan : ImportPlan}

theorem planImport_of_plan (h : inv.plan p = .ok plan) :
    ∃ existing, planImport p existing inv.onError inv.clock inv.file.rows = .ok plan := by
  rw [Invocation.plan] at h
  split at h
  · cases h
  split at h
  · cases h
  split at h
  · cases h
  dsimp only at h
  split at h
  · cases h
  rename_i hplan
  cases h
  exact ⟨_, hplan⟩

variable {existing : List ExistingInvoice} {onError : OnError} {clock : Nat → Int}
  {rows : List RawImportRow} {s : Session}

theorem counts_error_pos (h : planImport p existing onError clock rows = .ok plan) :
    0 < plan.counts.error ↔ ∃ row ∈ plan.rows, row.action = .error := by
  have hcount : plan.counts.error = countOf .error plan.rows := by
    rw [planImport] at h
    cases hrows : planRows p (indexExisting existing) clock 0 empty rows with
    | error thrown => rw [hrows] at h; cases h
    | ok planned =>
      rw [hrows] at h
      rw [← Except.ok.inj h]
  rw [hcount, countOf, length_pos_iff_exists_mem]
  constructor
  · rintro ⟨row, hrow⟩
    obtain ⟨hmem, haction⟩ := mem_filter.mp hrow
    exact ⟨row, hmem, of_decide_eq_true haction⟩
  rintro ⟨row, hmem, haction⟩
  exact ⟨row, mem_filter.mpr ⟨hmem, decide_eq_true haction⟩⟩

theorem planImport_mode (h : planImport p existing onError clock rows = .ok plan)
    (hclean : ¬ 0 < plan.counts.error) : plan.formatErrors = [] := by
  rw [planImport] at h
  cases hrows : planRows p (indexExisting existing) clock 0 empty rows with
  | error thrown => rw [hrows] at h; cases h
  | ok planned =>
    rw [hrows] at h
    rw [← Except.ok.inj h] at hclean ⊢
    exact if_neg (fun hboth => hclean hboth.2)

theorem run_of_errors (h : inv.plan p = .ok plan) (herr : 0 < plan.counts.error) :
    (inv.runImportCli p true db).1 = db := by
  rw [Invocation.runImportCli, h]
  simp [herr]

theorem run_of_clean (h : inv.plan p = .ok plan) (hclean : ¬ 0 < plan.counts.error) :
    (inv.runImportCli p true db).1 = (applyImport db plan inv.session).1 := by
  rw [Invocation.runImportCli, h]
  simp only [hclean, if_false, Bool.true_eq_false]
  split
  · rename_i heq
    rw [heq]
  rename_i heq
  rw [heq]

theorem applyImport_wrote (h : planImport p existing onError clock rows = .ok plan)
    (hclean : ¬ 0 < plan.counts.error) (hint : ¬ Interrupted db plan s) :
    Wrote db plan s (applyImport db plan s).1 := by
  obtain ⟨st, hrows⟩ := applyRows_of_not_interrupted hint
  have hstart : ¬ s.aborted 0 = true := fun h => hint (.atStart h)
  have hend : ¬ s.aborted (plan.rows.length + 1) = true :=
    fun h => hint (.atEnd h)
  have hcommit : s.refused plan.rows.length = none := by
    cases hr : s.refused plan.rows.length with
    | none => rfl
    | some message => exact absurd (.atCommit message hr) hint
  have hout : (applyImport db plan s).1 = { db with invoices := st.invoices } := by
    rw [applyImport, planImport_mode h hclean]
    simp only [isEmpty_nil, Bool.true_eq_false, if_false, hclean,
      false_and, if_neg hstart, hrows, if_neg hend, hcommit]
  rw [hout]
  exact applyRows_wrote hrows

theorem Wrote.changes (h : planImport p existing onError clock rows = .ok plan)
    (hint : ¬ Interrupted db plan s) (hidle : ¬ Idle plan)
    (hwrote : Wrote db plan s db) : False := by
  refine hidle ?_
  intro row hrow
  constructor
  · intro hcreate
    obtain ⟨n, hn⟩ := getElem?_of_mem hrow
    obtain ⟨hnone, stored, hsome, -⟩ := hwrote.creates n row hn hcreate
    rw [hnone] at hsome
    cases hsome
  intro hupdate
  have hisUpdate : isUpdate row = true := decide_eq_true hupdate
  obtain ⟨kept, -, hcarry⟩ := carries_of_update h hrow hisUpdate
  obtain ⟨found, -, hid, hch, hne⟩ := hcarry.changes hisUpdate
  obtain ⟨st, hrows⟩ := applyRows_of_not_interrupted hint
  have hmem : changesFor kept.row found kept.now ∈ updatesFor found.id plan.rows := by
    refine mem_filterMap.mpr ⟨row, hrow, ?_⟩
    rw [if_pos ⟨hupdate, hid⟩]
    exact hch
  cases hfind : db.invoices.find found.id with
  | none =>
    -- the loop found the row, so a creation brought it in
    have hsome : st.invoices.find found.id ≠ none := (applyRows_update hrows hmem).2
    obtain ⟨stored, hstored⟩ := ne_none_iff_exists'.mp hsome
    obtain ⟨n, row', hrow', hcreate, huuid⟩ :=
      (applyRows_wrote hrows).only found.id stored hfind hstored
    obtain ⟨-, stored', hthere, -⟩ := hwrote.creates n row' hrow' hcreate
    rw [huuid, hfind] at hthere
    cases hthere
  | some r =>
    have hsame := hwrote.updates found.id r hfind
    rw [hfind] at hsame
    have hversion := version_updates r (updatesFor found.id plan.rows)
      (updatesFor_ne_nil h found.id)
    rw [← some.inj hsame] at hversion
    have hlen : 0 < (updatesFor found.id plan.rows).length := length_pos_of_mem hmem
    omega

/-- **THE ERROR MODES, END TO END**: a run of the command keeps to the
    documented error modes exactly when it does not combine `skip`, an error
    row, a row to write and a transaction that would go through. -/
theorem honours_iff (p : Platform) (inv : Invocation) (db : InvoiceDb) : Honours p inv db ↔
      (inv.onError = .abort ∨ ∀ plan, inv.plan p = .ok plan →
        (∀ row ∈ plan.rows, row.action ≠ .error) ∨ Idle plan
        ∨ Interrupted db plan inv.session) := by
  constructor
  · intro h
    refine (Classical.em (inv.onError = .abort)).imp_right ?_
    intro hmode plan hplan
    have hskip : inv.onError = .skip := by
      cases hm : inv.onError with
      | abort => exact absurd hm hmode
      | skip => rfl
    obtain ⟨existing, himport⟩ := planImport_of_plan hplan
    by_contra hnot
    obtain ⟨herr, hidle, hint⟩ := not_or.mp hnot |>.imp_right not_or.mp
    have hpos : 0 < plan.counts.error := by
      refine (counts_error_pos himport).mpr ?_
      by_contra hnone
      exact herr (fun row hrow haction => hnone ⟨row, hrow, haction⟩)
    have hwrote := h.skip hskip plan hplan hint
    rw [run_of_errors hplan hpos] at hwrote
    exact hwrote.changes himport hint hidle
  · intro hcond
    refine ⟨?_, ?_, ?_, ?_⟩
    · rintro - plan hplan herr
      obtain ⟨existing, himport⟩ := planImport_of_plan hplan
      exact run_of_errors hplan ((counts_error_pos himport).mpr herr)
    · intro hskip plan hplan hint
      obtain ⟨existing, himport⟩ := planImport_of_plan hplan
      have hcond : (∀ row ∈ plan.rows, row.action ≠ .error) ∨ Idle plan := by
        rcases hcond with habort | hcond
        · rw [hskip] at habort
          cases habort
        rcases hcond plan hplan with hclean | hidle | hstop
        · exact .inl hclean
        · exact .inr hidle
        · exact absurd hstop hint
      by_cases hpos : 0 < plan.counts.error
      · obtain ⟨row, hrow, haction⟩ := (counts_error_pos himport).mp hpos
        rw [run_of_errors hplan hpos]
        rcases hcond with hclean | hidle
        · exact absurd haction (hclean row hrow)
        · exact hidle.wrote db inv.session
      rw [run_of_clean hplan hpos]
      exact applyImport_wrote himport hpos hint
    · intro plan hplan hint
      by_cases hpos : 0 < plan.counts.error
      · exact run_of_errors hplan hpos
      rw [run_of_clean hplan hpos]
      exact applyImport_interrupted hint
    intro hnone
    rw [Invocation.runImportCli]
    cases hplan : inv.plan p with
    | error exit => rfl
    | ok plan => exact absurd hplan (hnone plan)

end Command

/-! ## A valid row beside a repeated one -/

/-- The file defines one external id twice, under `--on-error skip`. -/
def skippingCall : Invocation where
  file := { rows := [sampleRow 2 "F" "", sampleRow 3 "F" ""] }
  onError := .skip
  seen := sampleDb
  probeClock := fun _ => 0
  clock := fun _ => 0
  session := sampleSession

/-- The first row is planned as a creation and nothing stands in its way, but
    the command writes nothing and exits with 1. -/
theorem skip_refuses_valid_row : ∃ plan, skippingCall.plan plainPlatform = .ok plan
    ∧ plan.rows.map PlannedRow.action = [.create, .error]
    ∧ ¬ Interrupted sampleDb plan skippingCall.session
    ∧ (skippingCall.runImportCli plainPlatform true sampleDb).1 = sampleDb
    ∧ ¬ Honours plainPlatform skippingCall sampleDb := by
  have hrun : (skippingCall.plan plainPlatform).toOption.map (fun plan =>
      (plan.rows.map PlannedRow.action,
        ((applyImport sampleDb plan sampleSession).1.invoices.find "n0").isSome))
      = some ([.create, .error], true) := by decide +kernel
  cases hplan : skippingCall.plan plainPlatform with
  | error exit => rw [hplan] at hrun; cases hrun
  | ok plan =>
    rw [hplan] at hrun
    obtain ⟨hactions, hthere⟩ := Prod.mk.inj (some.inj hrun)
    have hfree : sampleDb.invoices.find "n0" = none := by decide
    have hint : ¬ Interrupted sampleDb plan sampleSession := by
      intro hint
      rw [applyImport_interrupted hint, hfree] at hthere
      cases hthere
    obtain ⟨create, hcreate, haction⟩ : ∃ row, plan.rows[0]? = some row ∧ row.action = .create := by
      cases hrows : plan.rows with
      | nil => rw [hrows] at hactions; cases hactions
      | cons row rest =>
        rw [hrows] at hactions
        exact ⟨row, rfl, (cons.inj hactions).1⟩
    have hpos : 0 < plan.counts.error := by
      obtain ⟨existing, himport⟩ := planImport_of_plan hplan
      refine (counts_error_pos himport).mpr ?_
      have hmem : ImportAction.error ∈ plan.rows.map PlannedRow.action := by
        rw [hactions]
        decide
      obtain ⟨row, hrow, herr⟩ := mem_map.mp hmem
      exact ⟨row, hrow, herr⟩
    have hsame : (skippingCall.runImportCli plainPlatform true sampleDb).1
        = sampleDb := run_of_errors hplan hpos
    refine ⟨plan, rfl, hactions, hint, hsame, ?_⟩
    intro hhonours
    have hwrote := hhonours.skip rfl plan hplan hint
    rw [hsame] at hwrote
    obtain ⟨hnone, stored, hstored, -⟩ := hwrote.creates 0 create hcreate haction
    rw [hnone] at hstored
    cases hstored

end Imports

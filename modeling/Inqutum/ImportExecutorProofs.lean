import Inqutum.ImportPlanProofs
import Inqutum.InvoiceServiceProofs

/-!
# Import execution and rollback

`applyImport` writes a plan inside one transaction and hands back a
snapshot: the ids it inserted and, for every update, the row as it was
just before.  `rollbackImport` replays the snapshot inside one transaction.
A transaction that fails leaves the database as it was.

A session says what a run meets from outside: the clock, the generated ids
and memos, the cancellation signal at each check, and statements that fail
for a reason the constraints of the table do not explain.

What `applyImport` does to one invoice is a fold over the update rows that
name it (`applyRows_find`), and its entries of the undo log are the states
of that fold (`applyRows_log`).
-/

namespace Imports

open Invoices List InvoiceTable Prod Option

/-- What can stop a transaction from outside. -/
structure Interruptions where
  /-- `signal.aborted` at the `n`-th check. -/
  aborted : Nat → Bool := fun _ => false
  /-- The failure of a statement for row `n`. -/
  refused : Nat → Option String := fun _ => none

structure Session extends Interruptions where
  source : String
  now : Int
  /-- `randomUUID()` for row `n`. -/
  uuid : Nat → String
  /-- `generateInvoiceMemo()` for row `n`. -/
  generatedMemo : Nat → String

inductive ImportFailure where
  | aborted (message : String)
  | cancelled
  | invalidTime
  | database (message : String)

/-! ## The snapshot -/

/-- A stored row as the driver hands it out, dates written with
    milliseconds. -/
structure SnapshotRow where
  sellerPublicKey : String
  sellerName : Option String
  sellerEmail : Option String
  amount : ℚ
  assetCode : String
  assetIssuer : Option String
  memo : String
  description : Option String
  customerName : Option String
  customerEmail : Option String
  status : InvoiceStatus
  paymentTxHash : Option String
  payerPublicKey : Option String
  payerName : Option String
  payerEmail : Option String
  createdAt : Int
  paidAt : Option Int
  expiresAt : Int
  metadata : Option Json
  version : Int
  externalId : Option String

/-- The script value of a `JSONB` column; a JSON null and an SQL null are the
    same value. -/
def driverMetadata (metadata : Option Json) : Option Json :=
  match metadata.map Json.jsonbRead with
  | some .null => none
  | value => value

def rowToSnapshot (row : InvoiceRow) : SnapshotRow where
  sellerPublicKey := row.sellerPublicKey
  sellerName := row.sellerName
  sellerEmail := row.sellerEmail
  amount := row.amount
  assetCode := row.assetCode
  assetIssuer := row.assetIssuer
  memo := row.memo
  description := row.description
  customerName := row.customerName
  customerEmail := row.customerEmail
  status := row.status
  paymentTxHash := row.paymentTxHash
  payerPublicKey := row.payerPublicKey
  payerName := row.payerName
  payerEmail := row.payerEmail
  createdAt := dateOf row.createdAt
  paidAt := row.paidAt.map dateOf
  expiresAt := dateOf row.expiresAt
  metadata := driverMetadata row.metadata
  version := row.version
  externalId := row.externalId

/-- The assignments of a restoring `UPDATE`: every column but the id. -/
def restoreRow (before : SnapshotRow) (row : InvoiceRow) : InvoiceRow where
  id := row.id
  sellerPublicKey := before.sellerPublicKey
  sellerName := before.sellerName
  sellerEmail := before.sellerEmail
  amount := before.amount
  assetCode := before.assetCode
  assetIssuer := before.assetIssuer
  memo := before.memo
  description := before.description
  customerName := before.customerName
  customerEmail := before.customerEmail
  status := before.status
  paymentTxHash := before.paymentTxHash
  payerPublicKey := before.payerPublicKey
  payerName := before.payerName
  payerEmail := before.payerEmail
  createdAt := timestampParam before.createdAt
  paidAt := before.paidAt.map timestampParam
  expiresAt := timestampParam before.expiresAt
  metadata := before.metadata.map Json.jsonbParam
  version := before.version
  externalId := before.externalId

structure InsertedRow where
  id : String
  memo : String
  externalId : Option String

structure UndoEntry where
  id : String
  before : SnapshotRow

structure ImportSnapshot where
  version : Int
  createdAt : Int
  created : List InsertedRow
  updated : List UndoEntry
  source : String

structure CreatedRow where
  line : Nat
  inserted : InsertedRow

structure UpdatedRow where
  line : Nat
  id : String
  changed : List MutableField

structure ApplyResult where
  source : String
  counts : Counts
  created : List CreatedRow
  updated : List UpdatedRow
  skipped : Nat
  snapshot : ImportSnapshot

/-! ## Applying a plan -/

/-- `resolveExpiry`. -/
def resolveExpiry (values : ImportInvoice) (now : Int) : Option Int :=
  match values.expiresAt with
  | some ms => some ms
  | none => timeClip (values.createdAt.getD now + values.expiresInDays * dayInMs)

/-- The row `insertRow` writes. -/
def importedRow (values : ImportInvoice) (externalId : Option String)
    (id memo : String) (now expiresAt : Int) : InvoiceRow where
  id := id
  sellerPublicKey := values.sellerPublicKey
  sellerName := values.sellerName
  sellerEmail := values.sellerEmail
  amount := decimal7 (JsNumber.textValue values.amount)
  assetCode := values.assetCode
  assetIssuer := values.assetIssuer
  memo := memo
  description := values.description
  customerName := values.customerName
  customerEmail := values.customerEmail
  expiresAt := timestampParam expiresAt
  metadata := some (Json.jsonbParam (values.metadata.getD (.obj [])))
  externalId := externalId
  createdAt := timestampParam (values.createdAt.getD now)

@[simp] theorem importedRow_id (values : ImportInvoice)
    (externalId : Option String) (id memo : String) (now expiresAt : Int) :
    (importedRow values externalId id memo now expiresAt).id = id := rfl

/-- The loop's variables. -/
structure ApplyState where
  invoices : InvoiceTable
  created : List CreatedRow
  updated : List UpdatedRow
  snapshot : ImportSnapshot

def insertRow (s : Session) (n : Nat) (st : ApplyState) (row : PlannedRow) :
    Except ImportFailure ApplyState :=
  match row.invoice with
  | none => .error (.aborted ("row " ++ Nat.repr row.line
      ++ ": internal error, validated values were not carried into the plan"))
  | some values =>
    let id := s.uuid n
    let memo := values.memo.getD (s.generatedMemo n)
    match resolveExpiry values s.now with
    | none => .error .invalidTime
    | some expiresAt =>
      match s.refused n with
      | some message => .error (.database message)
      | none =>
        match st.invoices.insert (importedRow values row.externalId id memo s.now expiresAt) with
        | .error e => .error (.database e.message)
        | .ok t =>
          let inserted : InsertedRow := ⟨id, memo, row.externalId⟩
          .ok { st with
            invoices := t
            created := st.created ++ [⟨row.line, inserted⟩]
            snapshot := { st.snapshot with
              created := st.snapshot.created ++ [inserted] } }

/-- `change.to ?? null` as a text parameter. -/
def FieldValue.textParam : FieldValue → Option String
  | .text value => some value
  | _ => none

/-- One `column = $n` of the update. -/
def applyChange (row : InvoiceRow) (change : Change) : InvoiceRow :=
  match change.field with
  | .sellerName => { row with sellerName := change.next.textParam }
  | .sellerEmail => { row with sellerEmail := change.next.textParam }
  | .customerName => { row with customerName := change.next.textParam }
  | .customerEmail => { row with customerEmail := change.next.textParam }
  | .description => { row with description := change.next.textParam }
  | .expiresAt =>
    match change.next with
    | .date (some ms) => { row with expiresAt := timestampParam ms }
    | _ => row
  | .metadata =>
    match change.next with
    | .json value => { row with metadata := some (Json.jsonbParam value) }
    | _ => { row with metadata := some (Json.jsonbParam (.obj [])) }

/-- The update of a row: the changed columns and the version; nothing if no
    column is set. -/
def applyUpdate (row : InvoiceRow) (changes : List Change) : InvoiceRow :=
  if changes.isEmpty then row
  else { changes.foldl applyChange row with version := row.version + 1 }

/-- `toISOString()` of an invalid date throws. -/
def Change.invalid (change : Change) : Bool :=
  match change.next with
  | .date none => true
  | _ => false

def updateRow (s : Session) (n : Nat) (st : ApplyState) (row : PlannedRow)
    (id : String) (changes : List Change) :
    Except ImportFailure ApplyState :=
  match s.refused n with
  | some message => .error (.database message)
  | none =>
    match st.invoices.find id with
    | none => .error (.aborted ("row " ++ Nat.repr row.line ++ ": invoice "
        ++ id ++ " disappeared between the dry run and the apply"))
    | some before =>
      let st := { st with snapshot := { st.snapshot with
        updated := st.snapshot.updated ++ [⟨id, rowToSnapshot before⟩] } }
      if changes.any Change.invalid then .error .invalidTime
      else if changes.isEmpty then .ok st
      else
        match st.invoices.update (fun r => r.id == id) (fun r => applyUpdate r changes) with
        | .error e => .error (.database e.message)
        | .ok t => .ok { st with
            invoices := t
            updated := st.updated ++ [⟨row.line, id, changes.map Change.field⟩] }

def applyRow (s : Session) (n : Nat) (st : ApplyState) (row : PlannedRow) :
    Except ImportFailure ApplyState :=
  if s.aborted (n + 1) then .error .cancelled
  else
    match row.action, row.existingId, row.changes with
    | .create, _, _ => insertRow s n st row
    | .update, some id, some changes => updateRow s n st row id changes
    | _, _, _ => .ok st

def applyRows (s : Session) : Nat → ApplyState → List PlannedRow → Except ImportFailure ApplyState
  | _, st, [] => .ok st
  | n, st, row :: rest =>
    match applyRow s n st row with
    | .error e => .error e
    | .ok st => applyRows s (n + 1) st rest

def initialState (db : InvoiceDb) (s : Session) : ApplyState where
  invoices := db.invoices
  created := []
  updated := []
  snapshot := ⟨1, s.now, [], [], s.source⟩

def applyImport (db : InvoiceDb) (plan : ImportPlan) (s : Session) :
    InvoiceDb × Except ImportFailure ApplyResult :=
  if plan.formatErrors.isEmpty = false then
    (db, .error (.aborted ("import aborted: " ++ "; ".intercalate plan.formatErrors
      ++ ". Fix the rows above and re-run the dry run.")))
  else if 0 < plan.counts.error ∧ plan.onError = .abort then
    (db, .error (.aborted ("import aborted: " ++ Nat.repr plan.counts.error
      ++ " row(s) failed validation. Re-run with onError=skip to import the rest.")))
  else if s.aborted 0 then (db, .error .cancelled)
  else
    match applyRows s 0 (initialState db s) plan.rows with
    | .error e => (db, .error e)
    | .ok st =>
      if s.aborted (plan.rows.length + 1) then (db, .error .cancelled)
      else
        match s.refused plan.rows.length with
        | some message => (db, .error (.database message))
        | none =>
          ({ db with invoices := st.invoices }, .ok {
            source := s.source
            counts := { plan.counts with
              create := st.created.length
              update := st.updated.length }
            created := st.created
            updated := st.updated
            skipped := plan.counts.skip
            snapshot := st.snapshot })

/-! ## Rolling an import back -/

/-- `UPDATE invoices SET … WHERE id = $1` for each entry, in log order. -/
def restoreRows (r : Interruptions) :
    Nat → InvoiceTable → List UndoEntry → Except ImportFailure InvoiceTable
  | _, t, [] => .ok t
  | n, t, entry :: rest =>
    if r.aborted (n + 1) then .error .cancelled
    else
      match r.refused n with
      | some message => .error (.database message)
      | none =>
        match t.update (fun row => row.id == entry.id) (restoreRow entry.before) with
        | .error e => .error (.database e.message)
        | .ok t => restoreRows r (n + 1) t rest

/-- A payment event keeps the invoice it belongs to from being deleted. -/
def referenced (events : List PaymentEvent) (id : String) : Bool :=
  events.any (fun event => event.invoiceId == id)

/-- `DELETE FROM invoices WHERE id = $1` for each inserted row. -/
def deleteRows (r : Interruptions) (events : List PaymentEvent) :
    Nat → InvoiceTable → Nat → List InsertedRow →
    Except ImportFailure (InvoiceTable × Nat)
  | _, t, deleted, [] => .ok (t, deleted)
  | n, t, deleted, row :: rest =>
    if r.aborted (n + 1) then .error .cancelled
    else
      match r.refused n with
      | some message => .error (.database message)
      | none =>
        if (t.find row.id).isSome && referenced events row.id then
          .error (.database
            "update or delete on table \"invoices\" violates foreign key constraint \"payment_events_invoice_id_fkey\" on table \"payment_events\"")
        else deleteRows r events (n + 1) (t.delete row.id)
          (deleted + if (t.find row.id).isSome then 1 else 0) rest

structure RollbackResult where
  restored : Nat
  deleted : Nat

def rollbackImport (db : InvoiceDb) (snapshot : ImportSnapshot)
    (r : Interruptions) : InvoiceDb × Except ImportFailure RollbackResult :=
  if snapshot.version ≠ 1 then
    (db, .error (.aborted ("unsupported snapshot version "
      ++ (JsNumber.finite snapshot.version).toText)))
  else if snapshot.created.isEmpty && snapshot.updated.isEmpty then
    (db, .ok ⟨0, 0⟩)
  else if r.aborted 0 then (db, .error .cancelled)
  else
    let restores := snapshot.updated.length
    let total := restores + snapshot.created.length
    match restoreRows r 0 db.invoices snapshot.updated with
    | .error e => (db, .error e)
    | .ok t =>
      match deleteRows r db.paymentEvents restores t 0 snapshot.created with
      | .error e => (db, .error e)
      | .ok (t, deleted) =>
        if r.aborted (total + 1) then (db, .error .cancelled)
        else
          match r.refused total with
          | some message => (db, .error (.database message))
          | none => ({ db with invoices := t }, .ok ⟨restores, deleted⟩)

/-- The planner's view of a stored row. -/
def toExistingInvoice (row : InvoiceRow) : ExistingInvoice where
  id := row.id
  externalId := row.externalId
  memo := row.memo
  status := row.status
  amount := parseDecimal row.amount
  assetCode := row.assetCode
  assetIssuer := row.assetIssuer
  sellerPublicKey := row.sellerPublicKey
  sellerName := row.sellerName
  sellerEmail := row.sellerEmail
  customerName := row.customerName
  customerEmail := row.customerEmail
  description := row.description
  expiresAt := dateOf row.expiresAt
  metadata := driverMetadata row.metadata

/-! ## What an update keeps -/

/-- A row without the columns an import may set. -/
def fixedColumns (row : InvoiceRow) : InvoiceRow :=
  { row with
    sellerName := none, sellerEmail := none, customerName := none
    customerEmail := none, description := none, expiresAt := 0
    metadata := none, version := 0 }

theorem fixedColumns_applyChange (row : InvoiceRow) (change : Change) :
    fixedColumns (applyChange row change) = fixedColumns row := by
  rw [applyChange]
  split
  · rfl
  · rfl
  · rfl
  · rfl
  · rfl
  · split <;> rfl
  · split <;> rfl

theorem fixedColumns_applyUpdate (row : InvoiceRow) (changes : List Change) :
    fixedColumns (applyUpdate row changes) = fixedColumns row := by
  rw [applyUpdate]
  split
  · rfl
  show fixedColumns (changes.foldl applyChange row) = _
  induction changes generalizing row with
  | nil => rfl
  | cons change rest ih =>
    rw [foldl_cons]
    by_cases hrest : rest.isEmpty = true
    · rw [isEmpty_iff.mp hrest]
      exact fixedColumns_applyChange row change
    · exact (ih (applyChange row change) hrest).trans (fixedColumns_applyChange row change)

theorem fixedColumns_updates (row : InvoiceRow) (updates : List (List Change)) :
    fixedColumns (updates.foldl applyUpdate row) = fixedColumns row := by
  induction updates generalizing row with
  | nil => rfl
  | cons changes rest ih =>
    rw [foldl_cons, ih]
    exact fixedColumns_applyUpdate row changes

theorem applyUpdate_id (row : InvoiceRow) (changes : List Change) :
    (applyUpdate row changes).id = row.id := by
  show (fixedColumns (applyUpdate row changes)).id = (fixedColumns row).id
  rw [fixedColumns_applyUpdate]

theorem version_updates (row : InvoiceRow) (updates : List (List Change))
    (h : ∀ changes ∈ updates, changes ≠ []) :
    (updates.foldl applyUpdate row).version = row.version + updates.length := by
  induction updates generalizing row with
  | nil => exact (Int.add_zero _).symm
  | cons changes rest ih =>
    have hne : ¬ changes.isEmpty = true := fun hempty =>
      h changes (.head _) (isEmpty_iff.mp hempty)
    have hstep : (applyUpdate row changes).version = row.version + 1 := by
      rw [applyUpdate, if_neg hne]
    rw [foldl_cons, ih _ (fun c hc => h c (.tail _ hc)), hstep, length_cons]
    push_cast
    omega

/-! ## One row of the plan -/

section Apply

variable {s : Session} {n : Nat} {st st' : ApplyState} {row : PlannedRow}

inductive RowEffect (s : Session) (n : Nat) (st : ApplyState)
    (row : PlannedRow) (st' : ApplyState) : Prop where
  | created (values : ImportInvoice) (expiresAt : Int)
      (action : row.action = .create) (carried : row.invoice = some values)
      (expiry : resolveExpiry values s.now = some expiresAt)
      (inserted : st.invoices.insert (importedRow values row.externalId
        (s.uuid n) (values.memo.getD (s.generatedMemo n)) s.now expiresAt)
        = .ok st'.invoices)
      (log : st'.snapshot.updated = st.snapshot.updated)
      (list : st'.snapshot.created = st.snapshot.created
        ++ [⟨s.uuid n, values.memo.getD (s.generatedMemo n), row.externalId⟩])
      (version : st'.snapshot.version = st.snapshot.version)
  | updated (id : String) (changes : List Change) (before : InvoiceRow)
      (action : row.action = .update) (target : row.existingId = some id)
      (carried : row.changes = some changes)
      (found : st.invoices.find id = some before)
      (valid : changes.any Change.invalid = false)
      (written : ∀ id', st'.invoices.find id' = if id = id' then some (applyUpdate before changes)
          else st.invoices.find id')
      (log : st'.snapshot.updated = st.snapshot.updated ++ [⟨id, rowToSnapshot before⟩])
      (list : st'.snapshot.created = st.snapshot.created)
      (version : st'.snapshot.version = st.snapshot.version)
  | none (action : row.action ≠ .create) (target : row.action = .update → row.existingId = none
        ∨ row.changes = none)
      (same : st' = st)

theorem insertRow_effect (haction : row.action = .create)
    (h : insertRow s n st row = .ok st') : RowEffect s n st row st' := by
  rw [insertRow] at h
  cases hinv : row.invoice with
  | none => rw [hinv] at h; cases h
  | some values =>
    rw [hinv] at h
    simp only at h
    cases hexp : resolveExpiry values s.now with
    | none => rw [hexp] at h; cases h
    | some expiresAt =>
      rw [hexp] at h
      simp only at h
      cases href : s.refused n with
      | some message => rw [href] at h; cases h
      | none =>
        rw [href] at h
        simp only at h
        cases hins : st.invoices.insert (importedRow values row.externalId (s.uuid n)
            (values.memo.getD (s.generatedMemo n)) s.now
            expiresAt) with
        | error e => rw [hins] at h; cases h
        | ok t =>
          rw [hins] at h
          cases h
          exact .created values expiresAt haction hinv hexp hins rfl rfl rfl

variable {r : InvoiceRow} {changes : List Change}

theorem updateRow_effect {id : String}
    (haction : row.action = .update) (htarget : row.existingId = some id)
    (hchanges : row.changes = some changes) (h : updateRow s n st row id changes = .ok st') :
    RowEffect s n st row st' := by
  rw [updateRow] at h
  cases href : s.refused n with
  | some message => rw [href] at h; cases h
  | none =>
    rw [href] at h
    simp only at h
    cases hfind : st.invoices.find id with
    | none => rw [hfind] at h; cases h
    | some before =>
      rw [hfind] at h
      simp only at h
      by_cases hinvalid : changes.any Change.invalid = true
      · rw [if_pos hinvalid] at h
        cases h
      have hvalid := eq_false_of_ne_true hinvalid
      rw [if_neg hinvalid] at h
      by_cases hempty : changes.isEmpty = true
      · rw [if_pos hempty] at h
        cases h
        refine .updated id changes before haction htarget hchanges hfind hvalid ?_ rfl rfl rfl
        intro id'
        rw [applyUpdate, if_pos hempty]
        by_cases hid : id = id'
        · rw [if_pos hid, ← hid]
          exact hfind
        · rw [if_neg hid]
      · rw [if_neg hempty] at h
        cases hupd : st.invoices.update (fun r => r.id == id) (fun r => applyUpdate r changes) with
        | error e => rw [hupd] at h; cases h
        | ok t =>
          rw [hupd] at h
          cases h
          refine .updated id changes before haction htarget hchanges hfind hvalid ?_ rfl rfl rfl
          intro id'
          show t.find id' = _
          rw [find_update_id hupd (fun r => applyUpdate_id r changes)]
          by_cases hid : id = id'
          · rw [if_pos hid, if_pos hid, ← hid, hfind]
            rfl
          · rw [if_neg hid, if_neg hid]

theorem applyRow_effect (h : applyRow s n st row = .ok st') : RowEffect s n st row st' := by
  rw [applyRow] at h
  split at h
  · cases h
  split at h
  · rename_i haction
    exact insertRow_effect haction h
  · rename_i id changes haction htarget hchanges
    exact updateRow_effect haction htarget hchanges h
  rename_i hcreate hupdate
  refine .none ?_ ?_ (Except.ok.inj h).symm
  · intro haction
    exact hcreate haction
  intro haction
  cases htarget : row.existingId with
  | none => exact .inl rfl
  | some id =>
    cases hchanges : row.changes with
    | none => exact .inr rfl
    | some changes => exact absurd hchanges (hupdate id changes haction htarget)

theorem RowEffect.version (h : RowEffect s n st row st') :
    st'.snapshot.version = st.snapshot.version := by
  cases h with
  | created _ _ _ _ _ _ _ _ hversion => exact hversion
  | updated _ _ _ _ _ _ _ _ _ _ _ hversion => exact hversion
  | none _ _ hsame => rw [hsame]

theorem applyRows_cons {rest : List PlannedRow} (h : applyRows s n st (row :: rest) = .ok st') :
    ∃ mid, RowEffect s n st row mid ∧ applyRows s (n + 1) mid rest = .ok st' := by
  rw [applyRows] at h
  cases hrow : applyRow s n st row with
  | error e => rw [hrow] at h; cases h
  | ok mid =>
    rw [hrow] at h
    exact ⟨mid, applyRow_effect hrow, h⟩

/-! ## A whole plan -/

/-- The updates of one invoice, in plan order. -/
def updatesFor (id : String) (rows : List PlannedRow) :
    List (List Change) :=
  rows.filterMap (fun row =>
    if row.action = .update ∧ row.existingId = some id then row.changes
    else none)

/-- The images of a row just before each of its updates. -/
def befores : InvoiceRow → List (List Change) → List SnapshotRow
  | _, [] => []
  | r, changes :: rest => rowToSnapshot r :: befores (applyUpdate r changes) rest

/-- The entries of the undo log for one invoice. -/
def entriesFor (id : String) (log : List UndoEntry) : List SnapshotRow :=
  (log.filter (fun entry => decide (entry.id = id))).map UndoEntry.before

theorem entriesFor_append (id : String) (log : List UndoEntry) (entry : UndoEntry) :
    entriesFor id (log ++ [entry])
      = entriesFor id log ++ if entry.id = id then [entry.before] else [] := by
  rw [entriesFor, filter_append, map_append]
  by_cases h : entry.id = id
  · simp [entriesFor, h]
  · simp [entriesFor, h]

theorem updatesFor_cons (id : String) (row : PlannedRow) (rest : List PlannedRow) :
    updatesFor id (row :: rest) = (if row.action = .update ∧ row.existingId = some id
          then row.changes else none).toList ++ updatesFor id rest := by
  rw [updatesFor, filterMap_cons]
  split
  · rename_i heq
    rw [heq]
    rfl
  rename_i changes heq
  rw [heq]
  rfl

variable {rows : List PlannedRow} {id : String}

theorem RowEffect.find (h : RowEffect s n st row st') (hr : st.invoices.find id = some r) :
    st'.invoices.find id = some ((updatesFor id [row]).foldl applyUpdate r)
    ∧ entriesFor id st'.snapshot.updated = entriesFor id st.snapshot.updated
        ++ befores r (updatesFor id [row]) := by
  cases h with
  | created values expiresAt haction _ _ hins hlog _ _ =>
    have hnone : updatesFor id [row] = [] := by simp [updatesFor, haction]
    have hne : ¬ s.uuid n = id := by
      intro heq
      have hfresh := insert_fresh hins
      rw [importedRow_id, heq, hr] at hfresh
      cases hfresh
    rw [hnone, hlog, find_insert hins, importedRow_id, if_neg hne]
    exact ⟨hr, (append_nil _).symm⟩
  | updated id₀ changes before haction htarget hchanges hfound _ hwritten hlog _ _ =>
    rw [hwritten, hlog, entriesFor_append]
    by_cases hid : id₀ = id
    · have hone : updatesFor id [row] = [changes] := by
        simp [updatesFor, haction, htarget, hid, hchanges]
      have hbefore : before = r := by
        rw [← hid, hfound] at hr
        exact Option.some.inj hr
      rw [hone, if_pos hid, if_pos hid, hbefore]
      exact ⟨rfl, rfl⟩
    · have hnone : updatesFor id [row] = [] := by simp [updatesFor, htarget, hid]
      rw [hnone, if_neg hid, if_neg hid]
      exact ⟨hr, rfl⟩
  | none haction htarget hsame =>
    have hnone : updatesFor id [row] = [] := by
      rw [updatesFor, filterMap_cons, filterMap_nil]
      split
      · rfl
      rename_i changes heq
      split at heq
      · rename_i hup
        rcases htarget hup.1 with hid | hch
        · rw [hup.2] at hid
          cases hid
        rw [hch] at heq
        cases heq
      · cases heq
    rw [hnone, hsame]
    exact ⟨hr, (append_nil _).symm⟩

theorem befores_append (r : InvoiceRow) (us vs : List (List Change)) : befores r (us ++ vs)
      = befores r us ++ befores (us.foldl applyUpdate r) vs := by
  induction us generalizing r with
  | nil => rfl
  | cons changes rest ih =>
    rw [cons_append, befores, befores, ih]
    rfl

/-- **APPLYING, PER INVOICE**: a stored invoice goes through its updates in
    plan order, and the undo log holds its image before each. -/
theorem applyRows_find (h : applyRows s n st rows = .ok st') (hr : st.invoices.find id = some r) :
    st'.invoices.find id = some ((updatesFor id rows).foldl applyUpdate r)
    ∧ entriesFor id st'.snapshot.updated = entriesFor id st.snapshot.updated
        ++ befores r (updatesFor id rows) := by
  induction rows generalizing n st r with
  | nil =>
    rw [applyRows] at h
    cases h
    exact ⟨hr, (append_nil _).symm⟩
  | cons row rest ih =>
    obtain ⟨mid, heffect, hrest⟩ := applyRows_cons h
    obtain ⟨hmid, hlog⟩ := heffect.find hr
    obtain ⟨hfind, hlog'⟩ := ih hrest hmid
    have hsplit : updatesFor id (row :: rest) = updatesFor id [row] ++ updatesFor id rest := by
      rw [updatesFor_cons, updatesFor_cons id row []]
      simp [updatesFor]
    rw [hsplit, foldl_append, befores_append, ← append_assoc, ← hlog]
    exact ⟨hfind, hlog'⟩

theorem applyRows_created_mono (h : applyRows s n st rows = .ok st') {c : InsertedRow}
    (hc : c ∈ st.snapshot.created) : c ∈ st'.snapshot.created := by
  induction rows generalizing n st with
  | nil =>
    rw [applyRows] at h
    cases h
    exact hc
  | cons row rest ih =>
    obtain ⟨mid, heffect, hrest⟩ := applyRows_cons h
    refine ih hrest ?_
    cases heffect with
    | created _ _ _ _ _ _ _ hlist _ =>
      rw [hlist]
      exact mem_append_left _ hc
    | updated _ _ _ _ _ _ _ _ _ _ hlist _ =>
      rw [hlist]
      exact hc
    | none _ _ hsame =>
      rw [hsame]
      exact hc

theorem applyRows_created (h : applyRows s n st rows = .ok st') :
    (∀ c ∈ st'.snapshot.created, c ∈ st.snapshot.created ∨ st.invoices.find c.id = none) ∧
    (∀ id, st.invoices.find id = none → st'.invoices.find id ≠ none →
      ∃ c ∈ st'.snapshot.created, c.id = id) := by
  induction rows generalizing n st with
  | nil =>
    rw [applyRows] at h
    cases h
    exact ⟨fun c hc => .inl hc, fun id hnone hsome => absurd hnone hsome⟩
  | cons row rest ih =>
    obtain ⟨mid, heffect, hrest⟩ := applyRows_cons h
    obtain ⟨hcreated, hnew⟩ := ih hrest
    -- a row that is gone in the middle was not there at the start
    have hback : ∀ id, mid.invoices.find id = none → st.invoices.find id = none := by
      intro id hmid
      cases hst : st.invoices.find id with
      | none => rfl
      | some r =>
        rw [(heffect.find hst).1] at hmid
        cases hmid
    constructor
    · intro c hc
      rcases hcreated c hc with hmem | hnone
      · cases heffect with
        | created values expiresAt _ _ _ hins _ hlist _ =>
          rw [hlist] at hmem
          rcases mem_append.mp hmem with hmem | hmem
          · exact .inl hmem
          rw [mem_singleton.mp hmem]
          exact .inr (insert_fresh hins)
        | updated _ _ _ _ _ _ _ _ _ _ hlist _ =>
          rw [hlist] at hmem
          exact .inl hmem
        | none _ _ hsame =>
          rw [hsame] at hmem
          exact .inl hmem
      · exact .inr (hback c.id hnone)
    · intro id hnone hsome
      by_cases hmid : mid.invoices.find id = none
      · exact hnew id hmid hsome
      cases heffect with
      | created values expiresAt _ _ _ hins _ hlist _ =>
        have hid : s.uuid n = id := by
          by_contra hne
          rw [find_insert hins, importedRow_id, if_neg hne] at hmid
          exact hmid hnone
        refine ⟨⟨s.uuid n, values.memo.getD (s.generatedMemo n),
          row.externalId⟩, applyRows_created_mono hrest ?_, hid⟩
        rw [hlist]
        exact mem_append_right _ (.head _)
      | updated id₀ _ _ _ _ _ hfound _ hwritten _ _ _ =>
        rw [hwritten] at hmid
        by_cases hid : id₀ = id
        · rw [hid, hnone] at hfound
          cases hfound
        rw [if_neg hid] at hmid
        exact absurd hnone hmid
      | none _ _ hsame =>
        rw [hsame] at hmid
        exact absurd hnone hmid

theorem absent_of_rowEffect (h : RowEffect s n st row st') (hnone : st'.invoices.find id = none) :
    st.invoices.find id = none := by
  cases hst : st.invoices.find id with
  | none => rfl
  | some r =>
    rw [(h.find hst).1] at hnone
    cases hnone

theorem applyRows_creates (h : applyRows s n st rows = .ok st') {k : Nat}
    (hrow : rows[k]? = some row) (haction : row.action = .create) :
    st.invoices.find (s.uuid (n + k)) = none
    ∧ ∃ values expiresAt, row.invoice = some values ∧ resolveExpiry values s.now = some expiresAt
      ∧ st'.invoices.find (s.uuid (n + k))
        = some ((updatesFor (s.uuid (n + k)) (rows.drop (k + 1))).foldl
            applyUpdate (importedRow values row.externalId (s.uuid (n + k))
              (values.memo.getD (s.generatedMemo (n + k))) s.now expiresAt)) := by
  induction rows generalizing n st k with
  | nil => cases hrow
  | cons hd rest ih =>
    obtain ⟨mid, heffect, hrest⟩ := applyRows_cons h
    cases k with
    | zero =>
      obtain rfl : hd = row := Option.some.inj hrow
      cases heffect with
      | created values expiresAt _ hcarried hexpiry hins =>
        refine ⟨insert_fresh hins, values, expiresAt, hcarried, hexpiry, ?_⟩
        have hmid := find_insert hins (s.uuid n)
        rw [importedRow_id, if_pos rfl] at hmid
        exact (applyRows_find hrest hmid).1
      | updated _ _ _ hupdate =>
        rw [haction] at hupdate
        cases hupdate
      | none hnot => exact absurd haction hnot
    | succ k =>
      have hk : n + 1 + k = n + (k + 1) := by omega
      obtain ⟨hnone, hrest⟩ := ih hrest (k := k) hrow
      rw [hk] at hnone hrest
      exact ⟨absent_of_rowEffect heffect hnone, hrest⟩

theorem applyRows_only (h : applyRows s n st rows = .ok st') (hnone : st.invoices.find id = none)
    (hr : st'.invoices.find id = some r) :
    ∃ k row, rows[k]? = some row ∧ row.action = .create ∧ s.uuid (n + k) = id := by
  induction rows generalizing n st with
  | nil =>
    rw [applyRows] at h
    cases h
    rw [hnone] at hr
    cases hr
  | cons hd rest ih =>
    obtain ⟨mid, heffect, hrest⟩ := applyRows_cons h
    cases hmid : mid.invoices.find id with
    | none =>
      obtain ⟨k, row, hrow, haction, hid⟩ := ih hrest hmid
      refine ⟨k + 1, row, hrow, haction, ?_⟩
      rw [← hid, add_comm k, ← add_assoc]
    | some r₀ =>
      cases heffect with
      | created values expiresAt haction _ _ hins =>
        rw [find_insert hins, importedRow_id] at hmid
        split at hmid
        · rename_i hid
          exact ⟨0, hd, rfl, haction, hid⟩
        rw [hnone] at hmid
        cases hmid
      | updated id₀ _ _ _ _ _ hfound _ hwritten =>
        rw [hwritten] at hmid
        split at hmid
        · rename_i hid
          rw [hid, hnone] at hfound
          cases hfound
        rw [hnone] at hmid
        cases hmid
      | none _ _ hsame =>
        rw [hsame, hnone] at hmid
        cases hmid

/-- An invoice that was not there before is the import of a creation of the
    plan, up to settable columns. -/
theorem applyRows_new (h : applyRows s n st rows = .ok st') (hnone : st.invoices.find id = none)
    (hr : st'.invoices.find id = some r) :
    ∃ planned ∈ rows, planned.action = .create ∧ ∃ values memo expiresAt,
      planned.invoice = some values
      ∧ fixedColumns r = fixedColumns (importedRow values planned.externalId
          id memo s.now expiresAt) := by
  obtain ⟨k, planned, hrow, haction, hid⟩ := applyRows_only h hnone hr
  obtain ⟨-, values, expiresAt, hcarried, -, hfind⟩ := applyRows_creates h hrow haction
  rw [hid, hr] at hfind
  refine ⟨planned, mem_of_getElem? hrow, haction, values,
    values.memo.getD (s.generatedMemo (n + k)), expiresAt, hcarried, ?_⟩
  rw [Option.some.inj hfind, fixedColumns_updates]

/-- A creation of the plan is found under its generated id, as imported, if
    the plan updates stored invoices only. -/
theorem applyRows_inserted (h : applyRows s n st rows = .ok st')
    (hstored : ∀ id, st.invoices.find id = none → updatesFor id rows = [])
    {planned : PlannedRow} (hmem : planned ∈ rows) (haction : planned.action = .create) :
    ∃ m values expiresAt, planned.invoice = some values
      ∧ resolveExpiry values s.now = some expiresAt
      ∧ st'.invoices.find (s.uuid m) = some (importedRow values planned.externalId (s.uuid m)
          (values.memo.getD (s.generatedMemo m)) s.now expiresAt) := by
  obtain ⟨k, hrow⟩ := mem_iff_getElem?.mp hmem
  obtain ⟨hnone, values, expiresAt, hcarried, hexpiry, hfind⟩ := applyRows_creates h hrow haction
  have hlater : updatesFor (s.uuid (n + k)) (rows.drop (k + 1)) = [] :=
    sublist_nil.mp (hstored _ hnone ▸ (drop_sublist (k + 1) rows).filterMap _)
  rw [hlater] at hfind
  exact ⟨_, values, expiresAt, hcarried, hexpiry, hfind⟩

/-- An update of the plan has valid values, and its invoice is there. -/
theorem applyRows_update (h : applyRows s n st rows = .ok st')
    (hmem : changes ∈ updatesFor id rows) :
    changes.any Change.invalid = false ∧ st'.invoices.find id ≠ none := by
  induction rows generalizing n st with
  | nil => cases hmem
  | cons row rest ih =>
    obtain ⟨mid, heffect, hrest⟩ := applyRows_cons h
    rw [updatesFor_cons] at hmem
    rcases mem_append.mp hmem with hmem | hmem
    · rw [mem_toList] at hmem
      have hsome : (if row.action = .update ∧ row.existingId = some id
          then row.changes else none) = some changes := hmem
      split at hsome
      · rename_i hup
        cases heffect with
        | created _ _ haction =>
          rw [hup.1] at haction
          cases haction
        | updated id' changes' before _ htarget hcarried hfound hvalid hwritten =>
          rw [hup.2] at htarget
          cases htarget
          rw [hcarried] at hsome
          cases hsome
          have hmid : mid.invoices.find id = some (applyUpdate before changes) := by
            rw [hwritten, if_pos rfl]
          rw [(applyRows_find hrest hmid).1]
          exact ⟨hvalid, some_ne_none _⟩
        | none _ htarget _ =>
          rcases htarget hup.1 with hid | hch
          · rw [hup.2] at hid
            cases hid
          rw [hch] at hsome
          cases hsome
      · cases hsome
    · exact ih hrest hmem

end Apply

variable {s : Session} {st st' : ApplyState} {db db' : InvoiceDb} {plan : ImportPlan} {n : Nat}

theorem applyImport_ok {result : ApplyResult} (h : applyImport db plan s = (db', .ok result)) :
    ∃ st, applyRows s 0 (initialState db s) plan.rows = .ok st
      ∧ db' = { db with invoices := st.invoices }
      ∧ result.snapshot = st.snapshot := by
  rw [applyImport] at h
  split at h
  · cases h
  split at h
  · cases h
  split at h
  · cases h
  cases hrows : applyRows s 0 (initialState db s) plan.rows with
  | error e =>
    rw [hrows] at h
    cases h
  | ok st =>
    rw [hrows] at h
    simp only at h
    split at h
    · cases h
    split at h
    · cases h
    obtain ⟨hdb, hres⟩ := mk.inj h
    exact ⟨st, rfl, hdb.symm, by rw [← Except.ok.inj hres]⟩

theorem applyImport_error {e : ImportFailure}
    (h : applyImport db plan s = (db', .error e)) : db' = db := by
  rw [applyImport] at h
  split at h
  · exact (mk.inj h).1.symm
  split at h
  · exact (mk.inj h).1.symm
  split at h
  · exact (mk.inj h).1.symm
  split at h
  · exact (mk.inj h).1.symm
  split at h
  · exact (mk.inj h).1.symm
  split at h
  · exact (mk.inj h).1.symm
  · cases h

/-- Every entry of the undo log is the image of a row that differs from the
    stored one in settable columns only. -/
def Logged (st : ApplyState) : Prop :=
  ∀ entry ∈ st.snapshot.updated, ∃ before row, entry.before = rowToSnapshot before
    ∧ st.invoices.find entry.id = some row
    ∧ fixedColumns before = fixedColumns row

theorem Logged.step {row : PlannedRow} (h : Logged st) (heffect : RowEffect s n st row st') :
    Logged st' := by
  have hold : ∀ entry ∈ st.snapshot.updated, ∃ before row, entry.before = rowToSnapshot before
      ∧ st'.invoices.find entry.id = some row
      ∧ fixedColumns before = fixedColumns row := by
    intro entry hentry
    obtain ⟨before, r, hbefore, hr, hcols⟩ := h entry hentry
    refine ⟨before, _, hbefore, (heffect.find hr).1, ?_⟩
    rw [fixedColumns_updates, hcols]
  cases heffect with
  | created _ _ _ _ _ _ hlog _ _ =>
    intro entry hentry
    rw [hlog] at hentry
    exact hold entry hentry
  | updated id changes before _ _ _ hfound _ hwritten hlog _ _ =>
    intro entry hentry
    rw [hlog] at hentry
    rcases mem_append.mp hentry with hentry | hentry
    · exact hold entry hentry
    rw [mem_singleton.mp hentry]
    refine ⟨before, applyUpdate before changes, rfl, ?_, ?_⟩
    · rw [hwritten, if_pos rfl]
    · exact (fixedColumns_applyUpdate before changes).symm
  | none _ _ hsame =>
    rw [hsame]
    exact h

theorem applyRows_logged {rows : List PlannedRow} (h : applyRows s n st rows = .ok st')
    (hlogged : Logged st) : Logged st' := by
  induction rows generalizing n st with
  | nil =>
    rw [applyRows] at h
    cases h
    exact hlogged
  | cons row rest ih =>
    obtain ⟨mid, heffect, hrest⟩ := applyRows_cons h
    exact ih hrest (hlogged.step heffect)

/-! ## What a rollback does -/

section Rollback

variable {r : Interruptions} {n : Nat} {t t' : InvoiceTable}

theorem entriesFor_cons (id : String) (entry : UndoEntry) (rest : List UndoEntry) :
    entriesFor id (entry :: rest) = (if entry.id = id then [entry.before] else [])
        ++ entriesFor id rest := by
  rw [entriesFor, filter_cons]
  by_cases h : entry.id = id
  · simp [entriesFor, h]
  · simp [entriesFor, h]

theorem restoreRows_cons {entry : UndoEntry} {rest : List UndoEntry}
    (h : restoreRows r n t (entry :: rest) = .ok t') :
    ∃ mid, t.update (fun row => row.id == entry.id) (restoreRow entry.before) = .ok mid
      ∧ restoreRows r (n + 1) mid rest = .ok t' := by
  rw [restoreRows] at h
  split at h
  · cases h
  split at h
  · cases h
  cases hupd : t.update (fun row => row.id == entry.id) (restoreRow entry.before) with
  | error e => rw [hupd] at h; cases h
  | ok mid =>
    rw [hupd] at h
    exact ⟨mid, rfl, h⟩

variable {created : List InsertedRow} {log : List UndoEntry} {out : RollbackResult}

theorem restoreRows_find (h : restoreRows r n t log = .ok t') (id : String) :
    t'.find id = match (entriesFor id log).getLast? with
      | none => t.find id
      | some before => (t.find id).map (restoreRow before) := by
  induction log generalizing n t with
  | nil =>
    rw [restoreRows] at h
    cases h
    rfl
  | cons entry rest ih =>
    obtain ⟨mid, hupd, hrest⟩ := restoreRows_cons h
    have hmid := find_update_id hupd (fun _ => rfl) id
    rw [ih hrest, entriesFor_cons, hmid]
    by_cases hid : entry.id = id
    · rw [if_pos hid, if_pos hid]
      cases hlast : (entriesFor id rest).getLast? with
      | none =>
        rw [getLast?_eq_none_iff.mp hlast]
        rfl
      | some before =>
        rw [getLast?_append, hlast]
        simp only [Option.some_or, Option.map_map]
        rfl
    · rw [if_neg hid, if_neg hid, nil_append]

theorem restoreRows_accepted
    (h : ∀ entry ∈ log, ∀ row, t.find entry.id = some row → entry.before.memo = row.memo
      ∧ entry.before.paymentTxHash = row.paymentTxHash ∧ entry.before.externalId = row.externalId) :
    ∃ t', restoreRows {} n t log = .ok t' := by
  induction log generalizing n t with
  | nil => exact ⟨t, rfl⟩
  | cons entry rest ih =>
    have hkeep : ∀ row ∈ t.rows, (row.id == entry.id) = true →
        (restoreRow entry.before row).memo = row.memo
        ∧ (restoreRow entry.before row).paymentTxHash = row.paymentTxHash
        ∧ (restoreRow entry.before row).externalId = row.externalId := by
      intro row hrow hid
      have hfind := (t.mem_iff_find row).mp hrow
      rw [beq_iff_eq.mp hid] at hfind
      exact h entry (.head _) row hfind
    obtain ⟨mid, hupd⟩ := t.update_keeping_accepted
      (f := restoreRow entry.before) (fun _ => rfl) hkeep
    have hrest : ∀ e ∈ rest, ∀ row, mid.find e.id = some row → e.before.memo = row.memo
        ∧ e.before.paymentTxHash = row.paymentTxHash
        ∧ e.before.externalId = row.externalId := by
      intro e he row hrow
      rw [find_update_id hupd (fun _ => rfl)] at hrow
      by_cases hid : entry.id = e.id
      · rw [if_pos hid] at hrow
        obtain ⟨row₀, hrow₀, rfl⟩ := map_eq_some_iff.mp hrow
        obtain ⟨hm, htx, hx⟩ := h e (.tail _ he) row₀ hrow₀
        rw [← hid] at hrow₀
        obtain ⟨hm', htx', hx'⟩ := h entry (.head _) row₀ hrow₀
        exact ⟨hm.trans hm'.symm, htx.trans htx'.symm, hx.trans hx'.symm⟩
      · rw [if_neg hid] at hrow
        exact h e (.tail _ he) row hrow
    obtain ⟨t', ht'⟩ := ih (n := n + 1) hrest
    refine ⟨t', ?_⟩
    rw [restoreRows]
    simp only [hupd]
    exact ht'

variable {events : List PaymentEvent}

theorem deleteRows_find {k k' : Nat}
    (h : deleteRows r events n t k created = .ok (t', k')) (id : String) :
    t'.find id = if ∃ c ∈ created, c.id = id then none else t.find id := by
  induction created generalizing n t k with
  | nil =>
    rw [deleteRows] at h
    obtain ⟨rfl, -⟩ := mk.inj (Except.ok.inj h)
    simp
  | cons c rest ih =>
    rw [deleteRows] at h
    split at h
    · cases h
    split at h
    · cases h
    split at h
    · cases h
    rw [ih h, find_delete]
    by_cases hrest : ∃ c ∈ rest, c.id = id
    · rw [if_pos hrest, if_pos]
      obtain ⟨c', hc', hid⟩ := hrest
      exact ⟨c', .tail _ hc', hid⟩
    rw [if_neg hrest]
    by_cases hid : c.id = id
    · rw [if_pos hid, if_pos ⟨c, (.head _), hid⟩]
    rw [if_neg hid, if_neg]
    rintro ⟨c', hc', hid'⟩
    rcases mem_cons.mp hc' with rfl | hc'
    · exact hid hid'
    · exact hrest ⟨c', hc', hid'⟩

theorem deleteRows_accepted {k : Nat} (h : ∀ c ∈ created, referenced events c.id = false) :
    ∃ t' k', deleteRows {} events n t k created = .ok (t', k') := by
  induction created generalizing n t k with
  | nil => exact ⟨t, k, rfl⟩
  | cons c rest ih =>
    obtain ⟨t', k', ht'⟩ := ih (n := n + 1) (t := t.delete c.id)
      (k := k + if (t.find c.id).isSome then 1 else 0)
      (fun c' hc' => h c' (.tail _ hc'))
    refine ⟨t', k', ?_⟩
    rw [deleteRows]
    simp only [h c (.head _), Bool.and_false]
    exact ht'

variable {db db' : InvoiceDb} {snapshot : ImportSnapshot}

theorem rollbackImport_ok (h : rollbackImport db snapshot r = (db', .ok out)) :
    ∃ t t' k, restoreRows r 0 db.invoices snapshot.updated = .ok t
      ∧ deleteRows r db.paymentEvents snapshot.updated.length t 0 snapshot.created = .ok (t', k)
      ∧ db' = { db with invoices := t' } := by
  rw [rollbackImport] at h
  split at h
  · cases h
  split at h
  · rename_i hempty
    rw [Bool.and_eq_true, List.isEmpty_iff, List.isEmpty_iff] at hempty
    rw [hempty.1, hempty.2]
    exact ⟨db.invoices, db.invoices, 0, rfl, rfl, (mk.inj h).1.symm⟩
  split at h
  · cases h
  cases hrestore : restoreRows r 0 db.invoices snapshot.updated with
  | error e =>
    simp only [hrestore] at h
    cases h
  | ok t =>
    simp only [hrestore] at h
    cases hdelete : deleteRows r db.paymentEvents
        snapshot.updated.length t 0 snapshot.created with
    | error e =>
      simp only [hdelete] at h
      cases h
    | ok pair =>
      obtain ⟨t', k⟩ := pair
      simp only [hdelete] at h
      split at h
      · cases h
      split at h
      · cases h
      · exact ⟨t, t', k, rfl, hdelete, (mk.inj h).1.symm⟩

theorem rollbackImport_error {e : ImportFailure}
    (h : rollbackImport db snapshot r = (db', .error e)) : db' = db := by
  rw [rollbackImport] at h
  split at h
  · exact (mk.inj h).1.symm
  split at h
  · cases h
  split at h
  · exact (mk.inj h).1.symm
  dsimp only at h
  split at h
  · exact (mk.inj h).1.symm
  split at h
  · exact (mk.inj h).1.symm
  split at h
  · exact (mk.inj h).1.symm
  split at h
  · exact (mk.inj h).1.symm
  · cases h

/-- **ROLLING BACK, PER INVOICE**: an inserted row is gone, an updated one is
    at the image of its last entry, every other one is untouched. -/
theorem rollbackImport_find (h : rollbackImport db snapshot r = (db', .ok out)) (id : String) :
    db'.invoices.find id = if ∃ c ∈ snapshot.created, c.id = id then none
      else match (entriesFor id snapshot.updated).getLast? with
        | none => db.invoices.find id
        | some before => (db.invoices.find id).map (restoreRow before) := by
  obtain ⟨t, t', k, hrestore, hdelete, rfl⟩ := rollbackImport_ok h
  show t'.find id = _
  rw [deleteRows_find hdelete, restoreRows_find hrestore]

/-- Undisturbed, a rollback goes through if the log has the unique columns of
    the rows it overwrites and no payment event holds an inserted row. -/
theorem rollbackImport_accepted (hversion : snapshot.version = 1)
    (hlog : ∀ entry ∈ snapshot.updated, ∀ row, db.invoices.find entry.id = some row →
      entry.before.memo = row.memo ∧ entry.before.paymentTxHash = row.paymentTxHash
      ∧ entry.before.externalId = row.externalId)
    (hfree : ∀ c ∈ snapshot.created, referenced db.paymentEvents c.id = false) :
    ∃ db' out, rollbackImport db snapshot {} = (db', .ok out) := by
  obtain ⟨t, ht⟩ := restoreRows_accepted (n := 0) hlog
  obtain ⟨t', k, ht'⟩ := deleteRows_accepted (n := snapshot.updated.length) (t := t) (k := 0) hfree
  by_cases hempty : (snapshot.created.isEmpty && snapshot.updated.isEmpty) = true
  · refine ⟨db, ⟨0, 0⟩, ?_⟩
    rw [rollbackImport, if_neg (fun hne => hne hversion), if_pos hempty]
  refine ⟨{ db with invoices := t' }, ⟨snapshot.updated.length, k⟩, ?_⟩
  rw [rollbackImport, if_neg (fun hne => hne hversion), if_neg hempty]
  simp only [ht, ht']
  rfl

end Rollback

end Imports

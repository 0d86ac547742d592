import Inqutum.InvoiceProofs
import Mathlib.Algebra.Order.Ring.Rat

/-!
# Restore validation

`runRestoreValidation` runs a list of read-only checks over four tables,
each of them a `SELECT` of the rows that violate an invariant, and reports
what they count.  The tables here are those of any database that was
restored: no constraint is taken for granted, a column that can be NULL
may be.  An instant is in microseconds.

A check is its text and what the database selects for it.  The text
matters to the code, which looks for words that write and for `GROUP BY`.
A statement fails as a whole where a relation is missing, and the one that
takes the least of a uuid fails where the server has no such aggregate,
`uuidMin`.  The samples, the remediation texts and the time of the report
are left out.
-/

namespace RestoreValidation

open List JsText

/-! ## Tables -/

structure Invoice where
  id : String
  memo : String
  status : Option String
  paymentTxHash : Option String
  amount : ℚ
  createdAt : Int
  paidAt : Option Int
  expiresAt : Option Int
  version : Option Int

structure Transaction where
  invoiceId : Option String
  txHash : String
  memo : Option String
  amount : Option ℚ

structure PaymentEvent where
  invoiceId : Option String

structure Job where
  status : String
  lockedUntil : Option Int
  completedAt : Option Int

structure Tables where
  invoices : List Invoice
  transactions : List Transaction
  paymentEvents : List PaymentEvent
  jobs : List Job

/-! ## What the statements select -/

def Tables.hasInvoice (tables : Tables) (id : String) : Bool :=
  tables.invoices.any (fun i => i.id = id)

/-- `HAVING COUNT(*) > 1`: the keys that more than one row has. -/
def duplicates (keys : List String) : Nat :=
  (keys.dedup.filter (fun key => 1 < keys.count key)).length

def orphanedTransactions (tables : Tables) : Nat :=
  tables.transactions.countP (fun t => t.invoiceId.any (fun id => !tables.hasInvoice id))

def orphanedPaymentEvents (tables : Tables) : Nat :=
  tables.paymentEvents.countP (fun e => e.invoiceId.any (fun id => !tables.hasInvoice id))

/-- `t.invoice_id = i.id OR (i.payment_tx_hash IS NOT NULL AND
    t.tx_hash = i.payment_tx_hash)`. -/
def backs (i : Invoice) (t : Transaction) : Bool :=
  t.invoiceId = some i.id || i.paymentTxHash = some t.txHash

def isPaid (i : Invoice) : Bool := i.status = some "PAID"

def missingTransactions (tables : Tables) : Nat :=
  tables.invoices.countP (fun i => isPaid i && !tables.transactions.any (backs i))

def detachedTransactions (tables : Tables) : Nat :=
  tables.transactions.countP (fun t => t.invoiceId.isNone
    && t.memo.any (fun memo => tables.invoices.any (fun i => i.memo = memo)))

def duplicateMemos (tables : Tables) : Nat :=
  duplicates (tables.invoices.map (fun i => i.memo))

def duplicateTxHashes (tables : Tables) : Nat :=
  duplicates (tables.transactions.map (fun t => t.txHash))

def paidWithoutTimestamp (tables : Tables) : Nat :=
  tables.invoices.countP (fun i => isPaid i && i.paidAt.isNone)

/-- A status that is NULL is not different from `PAID`. -/
def unpaidWithTimestamp (tables : Tables) : Nat :=
  tables.invoices.countP (fun i => i.status.any (fun status => status ≠ "PAID") && i.paidAt.isSome)

def paidWithoutTxHash (tables : Tables) : Nat :=
  tables.invoices.countP (fun i => isPaid i && i.paymentTxHash.isNone)

def unknownStatus (tables : Tables) : Nat :=
  tables.invoices.countP (fun i => i.status.all (fun status =>
    status ∉ ["PENDING", "PAID", "EXPIRED", "CANCELLED"]))

/-- The pairs of a paid invoice and a transaction of another amount. -/
def amountDisagreements (tables : Tables) : Nat :=
  (tables.invoices.map (fun i => tables.transactions.countP (fun t =>
    isPaid i && t.invoiceId = some i.id && t.amount ≠ some i.amount))).sum

def expiryNotAfterCreation (tables : Tables) : Nat :=
  tables.invoices.countP (fun i => i.expiresAt.any (fun expiresAt => expiresAt ≤ i.createdAt))

def invalidVersions (tables : Tables) : Nat :=
  tables.invoices.countP (fun i => i.version.all (fun version => version < 1))

def paidButOverdue (tables : Tables) : Nat :=
  tables.invoices.countP (fun i => isPaid i && i.expiresAt.any (fun expiresAt =>
      i.paidAt.any (fun paidAt => expiresAt < paidAt)))

def staleLeases (now : Int) (tables : Tables) : Nat :=
  tables.jobs.countP (fun j => j.status = "running"
    && j.lockedUntil.all (fun lockedUntil => lockedUntil < now))

def terminalWithoutCompletion (tables : Tables) : Nat :=
  tables.jobs.countP (fun j => j.status ∈ ["succeeded", "dead"] && j.completedAt.isNone)

def nonTerminalWithCompletion (tables : Tables) : Nat :=
  tables.jobs.countP (fun j => j.status ∈ ["queued", "running"] && j.completedAt.isSome)

/-! ## The checks -/

inductive InvariantKind where
  | missing
  | orphaned
  | duplicated
  | inconsistent
  deriving DecidableEq

structure CheckSpec where
  id : String
  kind : InvariantKind
  /-- The table that must exist for this check to run. -/
  table : String
  message : String
  /-- The text of the statement. -/
  sql : String
  /-- The relations the statement reads. -/
  reads : List String
  /-- Whether it takes the least of a uuid. -/
  takesUuidMin : Bool := false
  /-- How many rows it selects. -/
  selects : Int → Tables → Nat

/-- `CHECKS`. -/
def checks : List CheckSpec := [
  { id := "transactions.orphaned-invoice"
    kind := .orphaned
    table := "transactions"
    message := "Every transaction points at an invoice that exists"
    sql := " SELECT t.id, t.invoice_id, t.tx_hash FROM transactions t
      LEFT JOIN invoices i ON i.id = t.invoice_id
      WHERE t.invoice_id IS NOT NULL AND i.id IS NULL
    "
    reads := ["transactions", "invoices"]
    selects := fun _ => orphanedTransactions },
  { id := "payment-events.orphaned-invoice"
    kind := .orphaned
    table := "payment_events"
    message := "Every payment event points at an invoice that exists"
    sql := " SELECT e.id, e.invoice_id, e.event_type FROM payment_events e
      LEFT JOIN invoices i ON i.id = e.invoice_id
      WHERE e.invoice_id IS NOT NULL AND i.id IS NULL
    "
    reads := ["payment_events", "invoices"]
    selects := fun _ => orphanedPaymentEvents },
  { id := "invoices.missing-transaction"
    kind := .missing
    table := "invoices"
    message := "Every settled invoice has at least one transaction behind it"
    sql := " SELECT i.id, i.status, i.payment_tx_hash, i.paid_at FROM invoices i
      WHERE i.status = 'PAID' AND NOT EXISTS (SELECT 1 FROM transactions t
          WHERE t.invoice_id = i.id OR
    (i.payment_tx_hash IS NOT NULL AND t.tx_hash = i.payment_tx_hash) )
    "
    reads := ["invoices", "transactions"]
    selects := fun _ => missingTransactions },
  { id := "transactions.detached-from-invoice"
    kind := .missing
    table := "transactions"
    message := "A transaction carrying an invoice memo is still linked to that invoice"
    sql := " SELECT t.id, t.tx_hash, t.invoice_id, t.memo FROM transactions t
      LEFT JOIN invoices i ON i.id = t.invoice_id
      WHERE t.invoice_id IS NULL AND t.memo IS NOT NULL
        AND EXISTS (SELECT 1 FROM invoices i2 WHERE i2.memo = t.memo)
    "
    reads := ["transactions", "invoices"]
    selects := fun _ => detachedTransactions },
  { id := "invoices.duplicate-memo"
    kind := .duplicated
    table := "invoices"
    message := "No two invoices share a memo (the settlement reference is unique)"
    sql := " SELECT memo, COUNT(*) AS copies, MIN(id) AS first_id, MAX(id) AS last_id FROM invoices
      GROUP BY memo
      HAVING COUNT(*) > 1
    "
    reads := ["invoices"]
    takesUuidMin := true
    selects := fun _ => duplicateMemos },
  { id := "transactions.duplicate-tx-hash"
    kind := .duplicated
    table := "transactions"
    message := "No two transactions share a tx_hash (a Stellar tx settles once)"
    sql := " SELECT tx_hash, COUNT(*) AS copies FROM transactions GROUP BY tx_hash
      HAVING COUNT(*) > 1
    "
    reads := ["transactions"]
    selects := fun _ => duplicateTxHashes },
  { id := "invoices.paid-without-timestamp"
    kind := .inconsistent
    table := "invoices"
    message := "A PAID invoice records when it was paid"
    sql := "SELECT id, status, payment_tx_hash FROM invoices WHERE status = 'PAID' AND paid_at IS NULL"
    reads := ["invoices"]
    selects := fun _ => paidWithoutTimestamp },
  { id := "invoices.unpaid-with-timestamp"
    kind := .inconsistent
    table := "invoices"
    message := "An unpaid invoice has no paid_at"
    sql := " SELECT id, status, paid_at FROM invoices WHERE status <> 'PAID' AND paid_at IS NOT NULL
    "
    reads := ["invoices"]
    selects := fun _ => unpaidWithTimestamp },
  { id := "invoices.paid-without-tx-hash"
    kind := .inconsistent
    table := "invoices"
    message := "A PAID invoice records the transaction that settled it"
    sql := " SELECT id, status, paid_at FROM invoices
      WHERE status = 'PAID' AND payment_tx_hash IS NULL
    "
    reads := ["invoices"]
    selects := fun _ => paidWithoutTxHash },
  { id := "invoices.unknown-status"
    kind := .inconsistent
    table := "invoices"
    message := "Every invoice status is one the domain understands"
    sql := " SELECT id, status FROM invoices WHERE status IS NULL
         OR status NOT IN ('PENDING', 'PAID', 'EXPIRED', 'CANCELLED')
    "
    reads := ["invoices"]
    selects := fun _ => unknownStatus },
  { id := "invoices.amount-disagrees-with-settlement"
    kind := .inconsistent
    table := "invoices"
    message := "A settled invoice agrees with the amount of its transaction"
    sql := " SELECT i.id AS invoice_id, i.amount AS invoice_amount,
             t.id AS transaction_id, t.amount AS transaction_amount
      FROM invoices i
      JOIN transactions t ON t.invoice_id = i.id
      WHERE i.status = 'PAID' AND t.amount IS DISTINCT FROM i.amount
    "
    reads := ["invoices", "transactions"]
    selects := fun _ => amountDisagreements },
  { id := "invoices.expiry-not-after-creation"
    kind := .inconsistent
    table := "invoices"
    message := "An invoice expires after it was created"
    sql := " SELECT id, created_at, expires_at FROM invoices
      WHERE expires_at IS NOT NULL AND expires_at <= created_at
    "
    reads := ["invoices"]
    selects := fun _ => expiryNotAfterCreation },
  { id := "invoices.version-invalid"
    kind := .inconsistent
    table := "invoices"
    message := "Every invoice carries a positive optimistic-concurrency version"
    sql := "SELECT id, version FROM invoices WHERE version IS NULL OR version < 1"
    reads := ["invoices"]
    selects := fun _ => invalidVersions },
  { id := "invoices.paid-but-overdue"
    kind := .inconsistent
    table := "invoices"
    message := "A PAID invoice was not settled after its expiry"
    sql := " SELECT id, paid_at, expires_at FROM invoices
      WHERE status = 'PAID' AND expires_at IS NOT NULL AND paid_at > expires_at
    "
    reads := ["invoices"]
    selects := fun _ => paidButOverdue },
  { id := "jobs.stale-running-lease"
    kind := .inconsistent
    table := "jobs"
    message := "No job is stuck running with an expired lease"
    sql := " SELECT id, type, locked_until, locked_by FROM jobs
      WHERE status = 'running' AND (locked_until IS NULL OR locked_until < NOW())
    "
    reads := ["jobs"]
    selects := staleLeases },
  { id := "jobs.terminal-without-completion"
    kind := .inconsistent
    table := "jobs"
    message := "A finished job records when it finished"
    sql := " SELECT id, type, status, updated_at FROM jobs
      WHERE status IN ('succeeded', 'dead') AND completed_at IS NULL
    "
    reads := ["jobs"]
    selects := fun _ => terminalWithoutCompletion },
  { id := "jobs.non-terminal-with-completion"
    kind := .inconsistent
    table := "jobs"
    message := "A queued or running job is not marked complete"
    sql := " SELECT id, type, status, completed_at FROM jobs
      WHERE status IN ('queued', 'running') AND completed_at IS NOT NULL
    "
    reads := ["jobs"]
    selects := fun _ => nonTerminalWithCompletion }]

/-! ## Looking for words -/

/-- `\w`. -/
def isWord (c : Char) : Bool := c.isAlphanum || c = '_'

/-- `\b` between two characters, of which either may be missing. -/
def boundary (before after : Option Char) : Bool :=
  before.any isWord != after.any isWord

/-- What follows a word at the start of a text, in either case. -/
def afterWord (letters : List Char) (text : List Char) :
    Option (List Char) :=
  if (text.take letters.length).map Char.toLower = letters then
    some (text.drop letters.length)
  else none

/-- What follows `\s+`. -/
def afterSpaces (text : List Char) : Option (List Char) :=
  if text.head?.any isSpace then some (text.dropWhile isSpace)
  else none

/-- The ways a pattern matches at the start of a text: the last character it
    takes, and what it leaves. -/
abbrev Pattern := List Char → List (Option Char × List Char)

def word (letters : List Char) : Pattern := fun text =>
  ((afterWord letters text).map (fun rest => (letters.getLast?, rest))).toList

/-- `first\s+second`. -/
def twoWords (first second : List Char) : Pattern := fun text =>
  (((afterWord first text).bind afterSpaces).bind (afterWord second)).map
    (fun rest => (second.getLast?, rest)) |>.toList

/-- `letters\s`. -/
def wordSpace (letters : List Char) : Pattern := fun text =>
  match afterWord letters text with
  | some (c :: rest) => if isSpace c then [(some c, rest)] else []
  | _ => []

/-- `update\s+[\w".]+`: the run of characters may be cut anywhere. -/
def updateOf : Pattern := fun text =>
  match (afterWord ['u', 'p', 'd', 'a', 't', 'e'] text).bind afterSpaces with
  | none => []
  | some rest =>
    let taken := rest.takeWhile (fun c => isWord c || c = '"' || c = '.')
    (range taken.length).map (fun k => (taken[k]?, rest.drop (k + 1)))

/-- `\b(…)\b` at this place, after the character before it. -/
def matchesAt (patterns : List Pattern) (before : Option Char) (text : List Char) : Bool :=
  boundary before text.head? && patterns.any (fun pattern =>
    (pattern text).any (fun found => boundary found.1 found.2.head?))

/-- `\b(…)\b` anywhere. -/
def occursAfter (patterns : List Pattern) : Option Char → List Char → Bool
  | _, [] => false
  | before, c :: rest =>
    matchesAt patterns before (c :: rest)
      || occursAfter patterns (some c) rest

def occurs (patterns : List Pattern) (text : List Char) : Bool :=
  occursAfter patterns none text

/-- `WRITE_KEYWORDS`. -/
def writeKeywords : List Pattern :=
  [twoWords ['i', 'n', 's', 'e', 'r', 't'] ['i', 'n', 't', 'o'], updateOf,
    twoWords ['d', 'e', 'l', 'e', 't', 'e'] ['f', 'r', 'o', 'm'],
    word ['t', 'r', 'u', 'n', 'c', 'a', 't', 'e'],
    wordSpace ['d', 'r', 'o', 'p'],
    wordSpace ['a', 'l', 't', 'e', 'r'],
    wordSpace ['c', 'r', 'e', 'a', 't', 'e'],
    word ['g', 'r', 'a', 'n', 't'],
    word ['r', 'e', 'v', 'o', 'k', 'e']]

def isGrouped (sql : List Char) : Bool :=
  occurs [twoWords ['g', 'r', 'o', 'u', 'p'] ['b', 'y']] sql

def assertReadOnly (sql : List Char) (id : String) : Except String Unit :=
  if occurs writeKeywords sql then
    .error ("invariant \"" ++ id ++ "\" issued a statement that is not "
      ++ "read-only. DR validation must never write: "
      ++ String.ofList (trimChars sql))
  else .ok ()

/-- `SELECT COUNT(*)::int AS count FROM (`. -/
def countPrefix : List Char :=
  ['S', 'E', 'L', 'E', 'C', 'T', ' ', 'C', 'O', 'U', 'N', 'T', '(', '*', ')',
    ':', ':', 'i', 'n', 't', ' ', 'A', 'S', ' ', 'c', 'o', 'u', 'n', 't', ' ',
    'F', 'R', 'O', 'M', ' ', '(']

/-- `) AS violations`. -/
def countSuffix : List Char :=
  [')', ' ', 'A', 'S', ' ', 'v', 'i', 'o', 'l', 'a', 't', 'i', 'o', 'n', 's']

def wrapForCount (sql : List Char) : List Char :=
  let trimmed := trimChars sql
  if isGrouped trimmed then trimmed
  else countPrefix ++ trimmed ++ countSuffix

/-- Neither the statement nor its count has a word that writes. -/
def ReadOnly (sql : List Char) : Prop :=
  occurs writeKeywords sql = false ∧ occurs writeKeywords (wrapForCount sql) = false

instance (sql : List Char) : Decidable (ReadOnly sql) :=
  inferInstanceAs (Decidable (_ ∧ _))

theorem readOnly_of_text {sql : String} (letters : List Char)
    (htext : sql = String.ofList letters) (h : ReadOnly letters) : ReadOnly sql.toList := by
  rw [htext, String.toList_ofList]
  exact h

set_option maxRecDepth 8000 in
/-- **EVERY CHECK READS ONLY**, and so does its count. -/
theorem checks_readOnly : ∀ check ∈ checks, ReadOnly check.sql.toList := by
  rw [checks]
  repeat'
    first
    | exact forall_mem_nil _
    | refine forall_mem_cons.mpr ⟨readOnly_of_text _ rfl (by decide +kernel), ?_⟩

/-! ## The report -/

/-- The database that is validated. -/
structure Server where
  tables : Tables
  /-- `NOW()`. -/
  now : Int
  /-- The relations that exist. -/
  relations : List String
  /-- Whether there is a `min(uuid)`. -/
  uuidMin : Bool

/-- The number of rows of a check's statement, or its error. -/
def Server.query (server : Server) (check : CheckSpec) :
    Except String Nat :=
  match check.reads.find? (fun name => name ∉ server.relations) with
  | some name => .error ("relation \"" ++ name ++ "\" does not exist")
  | none =>
    if check.takesUuidMin && !server.uuidMin then
      .error "function min(uuid) does not exist"
    else .ok (check.selects server.now server.tables)

inductive InvariantStatus where
  | pass
  | fail
  | skipped
  deriving DecidableEq

structure InvariantResult where
  id : String
  kind : InvariantKind
  status : InvariantStatus
  count : Nat
  message : String
  error : Option String

structure ValidationReport where
  ok : Bool
  counts : InvariantKind → Nat
  totalViolations : Nat
  results : List InvariantResult
  tablesChecked : List String
  tablesMissing : List String

structure ValidationOptions where
  sampleLimit : Option Nat := none
  allowMissingTables : Bool := false

def requiredTables : List String :=
  ["invoices", "transactions", "payment_events", "jobs"]

/-- `countViolations`: the outer count of a statement, or the length of one
    that groups, which is its number of rows either way. -/
def countViolations (server : Server) (check : CheckSpec) :
    Except String Nat :=
  match assertReadOnly (wrapForCount check.sql.toList) check.id with
  | .error message => .error message
  | .ok () => server.query check

/-- The body of the `try`: the rows of the sample and the count. -/
def evaluate (server : Server) (sampleLimit : Nat) (check : CheckSpec) :
    Except String (Nat × Nat) :=
  match assertReadOnly check.sql.toList check.id with
  | .error message => .error message
  | .ok () =>
    match server.query check with
    | .error message => .error message
    | .ok rows =>
      (countViolations server check).map (fun count => (min rows (sampleLimit + 1), count))

def failureMessage (check : CheckSpec) (sampleLimit rows count : Nat) :
    String :=
  check.message ++ " — " ++ toString count ++ " row(s) violate this invariant"
    ++ if rows > sampleLimit then
        " (first " ++ toString sampleLimit ++ " shown)"
      else ""

/-- One turn of the loop. -/
def runCheck (server : Server) (options : ValidationOptions)
    (tablesPresent : List String) (check : CheckSpec) : InvariantResult :=
  let sampleLimit := options.sampleLimit.getD 5
  if options.allowMissingTables && tablesPresent.length > 0 && check.table ∉ tablesPresent then
    ⟨check.id, check.kind, .skipped, 0, check.message ++ " (skipped: table \"" ++ check.table
        ++ "\" is not present in this database)", none⟩
  else
    match evaluate server sampleLimit check with
    | .error message =>
      ⟨check.id, check.kind, .fail, 0, check.message ++ " — could not be evaluated", some message⟩
    | .ok (rows, count) =>
      if count > 0 then
        ⟨check.id, check.kind, .fail, count, failureMessage check sampleLimit rows count, none⟩
      else ⟨check.id, check.kind, .pass, 0, check.message, none⟩

def runRestoreValidation (server : Server) (options : ValidationOptions := {}) : ValidationReport :=
  let tablesPresent := requiredTables.filter (fun name => name ∈ server.relations)
  let results := checks.map (runCheck server options tablesPresent)
  let failed := results.filter (fun r => r.status = .fail)
  { ok := results.all (fun r => r.status = .pass || r.status = .skipped)
    counts := fun kind => ((failed.filter (fun r => r.kind = kind)).map (fun r => r.count)).sum
    totalViolations := (failed.map (fun r => r.count)).sum
    results := results
    tablesChecked := tablesPresent
    tablesMissing := requiredTables.filter (fun name => name ∉ server.relations) }

/-! ## A healthy report -/

theorem assertReadOnly_ok {sql : List Char} (h : occurs writeKeywords sql = false) (id : String) :
    assertReadOnly sql id = .ok () := by
  rw [assertReadOnly, if_neg]
  rw [h]
  exact Bool.false_ne_true

variable {server : Server} {check : CheckSpec}

theorem evaluate_eq {sampleLimit : Nat} (h : ReadOnly check.sql.toList) :
    evaluate server sampleLimit check = (server.query check).map
          (fun rows => (min rows (sampleLimit + 1), rows)) := by
  rw [evaluate, assertReadOnly_ok h.1, countViolations, assertReadOnly_ok h.2]
  cases server.query check <;> rfl

/-- Every relation of the schema is there. -/
def Server.Complete (server : Server) : Prop :=
  ∀ name ∈ requiredTables, name ∈ server.relations

theorem table_required : ∀ check ∈ checks, check.table ∈ requiredTables
      ∧ ∀ name ∈ check.reads, name ∈ requiredTables := by
  rw [checks]
  repeat'
    first
    | exact forall_mem_nil _
    | refine forall_mem_cons.mpr ⟨by decide +kernel, ?_⟩

theorem runCheck_pass_iff (hall : server.Complete) (options : ValidationOptions)
    (hmem : check ∈ checks) :
    (runCheck server options (requiredTables.filter (fun name => name ∈ server.relations))
        check).status ∈ [InvariantStatus.pass, .skipped] ↔ server.query check = .ok 0 := by
  have hpresent : check.table ∈ requiredTables.filter (fun name => name ∈ server.relations) := by
    have hrequired := (table_required check hmem).1
    exact mem_filter.mpr ⟨hrequired, decide_eq_true (hall _ hrequired)⟩
  rw [runCheck, if_neg (by simp [hpresent]), evaluate_eq (checks_readOnly check hmem)]
  cases server.query check with
  | error message =>
    constructor
    · intro h
      simp [Except.map] at h
    intro h
    cases h
  | ok rows =>
    show (if rows > 0 then _ else _ : InvariantResult).status ∈ _ ↔ _
    cases rows with
    | zero => simp
    | succ n => simp

/-- **HEALTHY**: the report is good exactly when every check's statement runs
    and selects nothing. -/
theorem ok_iff (hall : server.Complete) (options : ValidationOptions) :
    (runRestoreValidation server options).ok = true
      ↔ ∀ check ∈ checks, server.query check = .ok 0 := by
  rw [runRestoreValidation]
  dsimp only
  rw [all_map, all_eq_true]
  refine forall₂_congr fun check hmem => ?_
  rw [← runCheck_pass_iff hall options hmem]
  simp

theorem totalViolations_of_ok {options : ValidationOptions}
    (h : (runRestoreValidation server options).ok = true) :
    (runRestoreValidation server options).totalViolations = 0 := by
  have hnone : (runRestoreValidation server options).results.filter
      (fun r => r.status = .fail) = [] := by
    refine filter_eq_nil_iff.mpr fun r hmem hfail => ?_
    have hgood := all_eq_true.mp h r hmem
    rw [of_decide_eq_true hfail] at hgood
    cases hgood
  have htotal : (runRestoreValidation server options).totalViolations
      = (((runRestoreValidation server options).results.filter
          (fun r => r.status = .fail)).map (fun r => r.count)).sum := rfl
  rw [htotal, hnone]
  rfl

end RestoreValidation

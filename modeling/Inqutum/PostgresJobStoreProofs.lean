import Inqutum.JobWorkerProofs

/-!
# The job store in PostgreSQL

The `jobs` table and the statements that the SQL store runs on it, each
one atomic.  The list of rows is in the order of insertion; no statement
can see it, since the order in which the database reads rows is a
parameter of the model, as are the forms of a uuid it accepts, the JSON
values a `jsonb` column takes and what it gives back, and the length of an
interval given as text.  `Database` says what is documented about them.

A text that does not fit its column, an instant that is written with a sign
or lies before the first of the database, and a number out of range are
refused, and the statement then changes nothing.
-/

namespace Jobs

/-! ## The database -/

/-- Two JSON values that differ only in the order of members. -/
def SameJson (a b : Json) : Prop :=
  a.reorder Json.jsonbLe = b.reorder Json.jsonbLe

/-- What the model leaves to PostgreSQL. -/
structure Database where
  /-- The canonical form of a text that is accepted as a uuid. -/
  uuid : String → Option String
  /-- What is read back of a JSON value, if a `jsonb` column takes it. -/
  jsonb : Json → Option Json
  jsonb_same : ∀ v v', jsonb v = some v' → SameJson v' v
  /-- The microseconds of `(n || ' milliseconds')::interval`. -/
  interval : JsNumber → Option Int
  interval_integer : ∀ n : Nat, 0 < n → n ≤ 2 * 8640000000000000 →
    interval (.ofNat n) = some (1000 * (n : Int))

/-- No text of the database has a NUL character. -/
def nulFree (text : String) : Bool := !text.toList.contains (Char.ofNat 0)

/-- A text for a column of `n` characters. -/
def fits (n : Nat) (text : String) : Bool :=
  nulFree text && decide (text.length ≤ n)

/-- The instants from year 1 to year 9999. -/
def inYears (ms : Int) : Bool :=
  decide (1 ≤ isoYear ms) && decide (isoYear ms ≤ 9999)

/-- A row of `jobs`; an instant is in milliseconds, the end of a lease in
    microseconds.  A `result` that is NULL is read as null. -/
structure JobRow where
  id : String
  type : String
  payloadVersion : JsNumber
  payloadData : Json
  status : JobStatus
  attempts : Nat
  retryPolicy : RetryPolicy
  runAt : Int
  lockedUntil : Option Int
  lockedBy : Option String
  idempotencyKey : Option String
  correlationId : Option String
  errors : List JobError
  result : Json
  createdAt : Int
  updatedAt : Int
  completedAt : Option Int

/-- `rowToJob`: JSON columns are parsed, an instant is cut to milliseconds. -/
def rowToJob (db : Database) (row : JobRow) : Job where
  id := row.id
  type := row.type
  payloadVersion := row.payloadVersion
  payloadData := (db.jsonb row.payloadData).getD row.payloadData
  status := row.status
  attempts := row.attempts
  retryPolicy := row.retryPolicy
  runAt := row.runAt
  lockedUntil := row.lockedUntil.map (· / 1000)
  lockedBy := row.lockedBy
  idempotencyKey := row.idempotencyKey
  correlationId := row.correlationId
  errors := row.errors
  result := (db.jsonb row.result).getD row.result
  createdAt := row.createdAt
  updatedAt := row.updatedAt
  completedAt := row.completedAt

/-- The table, in the order of insertion. -/
structure JobTable where
  rows : List JobRow

namespace JobTable

/-- The table of a new schema. -/
def empty : JobTable := ⟨[]⟩

/-- Rewrite the row with an id. -/
def update (t : JobTable) (id : String) (f : JobRow → JobRow) : JobTable :=
  ⟨t.rows.map (fun row => if row.id = id then f row else row)⟩

end JobTable

/-! ## The statements -/

/-- The values of an `INSERT` fit their columns. -/
def insertable (db : Database) (job : Job) : Bool :=
  decide (db.uuid job.id = some job.id) && fits 100 job.type && (db.jsonb job.payloadData).isSome
    && inYears job.runAt && inYears job.createdAt
    && job.idempotencyKey.all (fits 255)
    && job.correlationId.all (fits 100)

/-- The row of a new job: only the values of the `INSERT` are taken from it. -/
def newRow (job : Job) : JobRow where
  id := job.id
  type := job.type
  payloadVersion := throughJson job.payloadVersion
  payloadData := job.payloadData
  status := .queued
  attempts := 0
  retryPolicy := job.retryPolicy.clone
  runAt := job.runAt
  lockedUntil := none
  lockedBy := none
  idempotencyKey := job.idempotencyKey
  correlationId := job.correlationId
  errors := []
  result := .null
  createdAt := job.createdAt
  updatedAt := job.createdAt
  completedAt := none

/-- `refusal` is what `JSON.stringify` throws on the payload, if it does. -/
def JobTable.enqueue (db : Database) (t : JobTable) (job : Job)
    (refusal : Option String) : JobTable × Except String (Job × Bool) :=
  match refusal with
  | some message => (t, .error message)
  | none =>
    if insertable db job = false then (t, .error "invalid input")
    else
      match t.rows.find? (fun row => job.idempotencyKey.isSome
          && decide (row.idempotencyKey = job.idempotencyKey)) with
      | some existing => (t, .ok (rowToJob db existing, false))
      | none =>
        if t.rows.any (fun row => decide (row.id = job.id)) then
          (t, .error "duplicate key value violates unique constraint")
        else (⟨t.rows ++ [newRow job]⟩, .ok (rowToJob db (newRow job), true))

/-- The `WHERE` clause of `claimNext`. -/
def rowDue (now : Int) (types : Option (List String)) (row : JobRow) : Bool :=
  (match row.status with
    | .queued => decide (row.runAt ≤ now)
    | .running => row.lockedUntil.any (fun micros => decide (micros ≤ 1000 * now))
    | _ => false)
    && types.all (fun names => names.contains row.type)

/-- `ORDER BY run_at, created_at`. -/
def rowLe (a b : JobRow) : Bool :=
  decide (a.runAt < b.runAt)
    || (decide (a.runAt = b.runAt) && decide (a.createdAt ≤ b.createdAt))

/-- `scan` is the order in which the rows are read. -/
def JobTable.nextDue (t : JobTable) (scan : List JobRow → List JobRow)
    (now : Int) (types : Option (List String)) : Option JobRow :=
  (((scan t.rows).filter (rowDue now types)).insertionSort (fun a b => rowLe a b = true)).head?

/-- The `UPDATE` of a claim. -/
def claimedRow (workerId : String) (now leaseEnd : Int) (row : JobRow) :
    JobRow :=
  { row with
    status := .running
    attempts := row.attempts + 1
    lockedBy := some workerId
    lockedUntil := some leaseEnd
    updatedAt := now }

/-- A `Date` as a parameter: the driver writes any year, the first instant of
    the database is in 4713 BC. -/
def validDate : Date → Except String Int
  | some ms =>
    if -210866803200000 ≤ ms then .ok ms
    else .error "timestamp out of range"
  | none => .error "invalid input syntax for type timestamp"

/-- The next due row is leased to the worker in one statement. -/
def JobTable.claimNext (db : Database) (t : JobTable)
    (scan : List JobRow → List JobRow) (workerId : String) (now : Date)
    (leaseMs : JsNumber) (types : Option (List String)) :
    JobTable × Except String (Option Job) :=
  match validDate now with
  | .error message => (t, .error message)
  | .ok ms =>
    if nulFree workerId = false ∨ (types.all (·.all nulFree)) = false then
      (t, .error "invalid byte sequence")
    else
    match t.nextDue scan ms types with
    | none => (t, .ok none)
    | some row =>
      match db.interval leaseMs with
      | none => (t, .error "invalid input")
      | some micros =>
        if fits 100 workerId = false ∨ 2147483647 ≤ row.attempts then
          (t, .error "value out of range")
        else
          let claimed := claimedRow workerId ms (1000 * ms + micros) row
          (t.update row.id (fun _ => claimed), .ok (some (rowToJob db claimed)))

/-- The row of a completion: `WHERE id = $1 AND status = 'running' AND
    locked_by = $2`. -/
def JobTable.heldRow (t : JobTable) (id workerId : String) : Option JobRow :=
  t.rows.find? (fun row => decide (row.id = id) && decide (row.status = .running)
    && decide (row.lockedBy = some workerId))

/-- `JSON.stringify(result ?? null)`: a function gives no text, which the
    driver sends as NULL. -/
def resultParam (db : Database) : Unknown → Except String Json
  | .undefined => .ok .null
  | .value image =>
    if (db.jsonb image).isSome then .ok image
    else .error "unsupported Unicode escape sequence"
  | .omitted => .ok .null
  | .refused message => .error message

/-- The `UPDATE` of a success. -/
def succeededRow (row : JobRow) (result : Json) (now : Int) : JobRow :=
  { row with
    status := .succeeded
    result := result
    lockedBy := none
    lockedUntil := none
    completedAt := some now
    updatedAt := now }

/-- Only the row that the worker holds is completed. -/
def JobTable.markSucceeded (db : Database) (t : JobTable)
    (id workerId : String) (result : Unknown) (now : Date) :
    JobTable × Except String (Option Job) :=
  match resultParam db result, validDate now, db.uuid id with
  | .ok value, .ok ms, some uuid =>
    if nulFree workerId = false then (t, .error "invalid byte sequence")
    else
    match t.heldRow uuid workerId with
    | none => (t, .ok none)
    | some row =>
      let done := succeededRow row value ms
      (t.update row.id (fun _ => done), .ok (some (rowToJob db done)))
  | _, _, _ => (t, .error "invalid input")

/-- The `UPDATE` of a failure: the job waits again, or is dead. -/
def failedRow (row : JobRow) (error : JobError) (retryAt : Option Int) (now : Int) : JobRow :=
  { row with
    errors := row.errors ++ [error]
    lockedBy := none
    lockedUntil := none
    updatedAt := now
    status := if retryAt = none then .dead else .queued
    runAt := retryAt.getD row.runAt
    completedAt := if retryAt = none then some now else none }

/-- The date of a retry as a parameter: NULL, or an instant. -/
def retryParam : Option Date → Except String (Option Int)
  | none => .ok none
  | some date => (validDate date).map some

/-- The texts of an error have no NUL character. -/
def errorFits (error : JobError) : Bool :=
  nulFree error.message && error.stack.all nulFree

/-- Only the row that the worker holds is failed. -/
def JobTable.markFailed (db : Database) (t : JobTable) (id workerId : String)
    (error : JobError) (retryAt : Option Date) (now : Date) :
    JobTable × Except String (Option Job) :=
  match retryParam retryAt, validDate now, db.uuid id with
  | .ok at_, .ok ms, some uuid =>
    if errorFits error = false ∨ nulFree workerId = false then
      (t, .error "invalid byte sequence")
    else
      match t.heldRow uuid workerId with
      | none => (t, .ok none)
      | some row =>
        let failed := failedRow row error at_ ms
        (t.update row.id (fun _ => failed), .ok (some (rowToJob db failed)))
  | _, _, _ => (t, .error "invalid input")

/-- The `UPDATE` of a requeue. -/
def requeuedRow (row : JobRow) (now : Int) : JobRow :=
  { row with
    status := .queued
    attempts := 0
    runAt := now
    completedAt := none
    updatedAt := now }

/-- Only a dead job is requeued. -/
def JobTable.requeueDead (db : Database) (t : JobTable) (id : String)
    (now : Date) : JobTable × Except String (Option Job) :=
  match validDate now, db.uuid id with
  | .ok ms, some uuid =>
    match t.rows.find? (fun row => decide (row.id = uuid) && decide (row.status = .dead)) with
    | none => (t, .ok none)
    | some row =>
      let requeued := requeuedRow row ms
      (t.update row.id (fun _ => requeued), .ok (some (rowToJob db requeued)))
  | _, _ => (t, .error "invalid input")

/-- The `WHERE` clause of `list`. -/
def JobFilter.selectsRow (filter : JobFilter) (row : JobRow) : Bool :=
  filter.status.all (fun status => decide (row.status = status)) &&
    filter.type.all (fun type => decide (row.type = type))

/-- A `LIMIT` or `OFFSET`: a natural number of 63 bits. -/
def countParam (value : Option JsNumber) (default : Nat) :
    Except String Nat :=
  match requireCount value "" default with
  | .error message => .error message
  | .ok n => if n < 2 ^ 63 then .ok n else .error "bigint out of range"

/-- One page, newest first, and the number of all that match. -/
def JobTable.list (db : Database) (t : JobTable)
    (scan : List JobRow → List JobRow) (filter : JobFilter) :
    Except String (List Job × Nat) :=
  match countParam filter.limit 50, countParam filter.offset 0 with
  | .ok limit, .ok offset =>
    if filter.type.all nulFree = false then .error "invalid byte sequence"
    else
    let matching := ((scan t.rows).filter filter.selectsRow).insertionSort
      (fun a b => b.createdAt ≤ a.createdAt)
    .ok (((matching.drop offset).take limit).map (rowToJob db),
      (t.rows.filter filter.selectsRow).length)
  | _, _ => .error "invalid input"

/-- `COUNT(*)` of a status. -/
def JobTable.counts (t : JobTable) (status : JobStatus) : Nat :=
  t.rows.countP (fun row => decide (row.status = status))

end Jobs

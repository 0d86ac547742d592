import Inqutum.InsertionMapProofs
import Inqutum.JsonProofs

/-!
# Jobs and the in-memory job store

A job is a unit of work with a retry policy and a lease.  The store keeps
the jobs by id, in the order of their insertion, and one index from
idempotency keys to ids.  An operation of the store can throw after it has
changed a job, so each one returns the store it leaves next to its result.

A timestamp of a job is the text `toISOString` gives for an instant, and
is modelled by the instant; `isoLe` is the order of those texts.  `put` is
the only way a job gets into the store, and `get_put` says what it does;
the spec lemmas of the operations say which job they put.
-/

namespace Jobs

open Option InsertionMap JsNumber

/-! ## Instants -/

/-- A `Date`: its time value, none if it is invalid. -/
abbrev Date := Option Int

/-- `new Date(ms)` for a number: fractions are cut off, a number out of range
    gives an invalid date. -/
def dateOf : JsNumber → Date
  | .finite q =>
    if |q| ≤ 8640000000000000 then some (if q < 0 then ⌈q⌉ else ⌊q⌋)
    else none
  | _ => none

/-- `date.getTime()`. -/
def getTime : Date → JsNumber
  | some ms => .finite ms
  | none => .nan

/-- The year of an instant, in the proleptic Gregorian calendar. -/
def isoYear (ms : Int) : Int :=
  let days := ms / 86400000 + 719468
  let era := days / 146097
  let day := days % 146097
  let year := (day - day / 1460 + day / 36524 - day / 146096) / 365
  let dayOfYear := day - (365 * year + year / 4 - year / 100)
  -- the count starts in March: the last two months belong to the next year
  era * 400 + year + if 306 ≤ dayOfYear then 1 else 0

/-- How the text of an instant starts: with a minus sign before year 0, with a
    plus sign from year 10000 on, with a digit between; in sort order. -/
def isoLead (ms : Int) : Nat :=
  if isoYear ms < 0 then 0 else if 9999 < isoYear ms then 1 else 2

/-- `a.localeCompare(b) <= 0` for the ISO texts of two instants.  A year before
    0 is written by its digits, so a later one sorts first. -/
def isoLe (a b : Int) : Bool :=
  if isoLead a ≠ isoLead b then decide (isoLead a < isoLead b)
  else if isoLead a = 0 ∧ isoYear a ≠ isoYear b then
    decide (isoYear b < isoYear a)
  else decide (a ≤ b)

/-! ## Jobs -/

inductive JobStatus where
  | queued
  | running
  | succeeded
  | dead
  deriving DecidableEq

/-- The policy as arithmetic reads it. -/
structure RetryPolicy where
  maxAttempts : JsNumber
  baseDelayMs : JsNumber
  backoffFactor : JsNumber
  maxDelayMs : JsNumber

def defaultRetryPolicy : RetryPolicy where
  maxAttempts := 5
  baseDelayMs := 1000
  backoffFactor := 2
  maxDelayMs := .finite (5 * 60000)

structure JobError where
  attempt : Nat
  at_ : Int
  message : String
  stack : Option String

structure Job where
  id : String
  type : String
  payloadVersion : JsNumber
  payloadData : Json
  status : JobStatus
  attempts : Nat
  retryPolicy : RetryPolicy
  runAt : Int
  lockedUntil : Option Int
  lockedBy : Option String
  idempotencyKey : Option String
  correlationId : Option String
  errors : List JobError
  result : Json
  createdAt : Int
  updatedAt : Int
  completedAt : Option Int

/-- A number through JSON: NaN and the infinities become null, which
    arithmetic reads as zero. -/
def throughJson : JsNumber → JsNumber
  | .finite q => .finite q
  | _ => 0

def RetryPolicy.clone (policy : RetryPolicy) : RetryPolicy where
  maxAttempts := throughJson policy.maxAttempts
  baseDelayMs := throughJson policy.baseDelayMs
  backoffFactor := throughJson policy.backoffFactor
  maxDelayMs := throughJson policy.maxDelayMs

/-- `clone(job)` where nothing in the job refuses to be serialised. -/
def Job.clone (job : Job) : Job :=
  { job with
    payloadVersion := throughJson job.payloadVersion
    retryPolicy := job.retryPolicy.clone }

/-- What a handler returns, by what `JSON.stringify` makes of it: a function
    or a symbol has no text, a bigint or a cycle throws. -/
inductive Unknown where
  | undefined
  | value (image : Json)
  | omitted
  | refused (message : String)

/-- `clone(value)`: a value without text cannot be parsed back. -/
def Unknown.clone : Unknown → Except String Json
  | .undefined => .error "\"undefined\" is not valid JSON"
  | .value image => .ok image
  | .omitted => .error "\"undefined\" is not valid JSON"
  | .refused message => .error message

/-- What `markSucceeded` stores for a result. -/
def Unknown.resultImage : Unknown → Except String Json
  | .undefined => .ok .null
  | other => other.clone

/-- The exponential delay before the next attempt; `pow` is `Math.pow`. -/
def computeBackoffMs (pow : JsNumber → Nat → JsNumber) (policy : RetryPolicy)
    (attempt : Nat) : JsNumber :=
  let exp := mul policy.baseDelayMs (pow policy.backoffFactor (attempt - 1))
  if exp = .nan ∨ policy.maxDelayMs = .nan then .nan
  else if le exp policy.maxDelayMs then exp
  else policy.maxDelayMs

/-! ## Validation -/

def requireString (value field : String) : Except String Unit :=
  if JsText.trim value = "" then
    .error ("job " ++ field ++ " must be a non-empty string")
  else .ok ()

/-- `Number.isInteger(n) && n >= 1`. -/
def isPositiveInteger (n : JsNumber) : Bool :=
  n.isInteger && le 1 n

theorem le_ofNat (a b : Nat) : le (ofNat a) (ofNat b) = decide (a ≤ b) := by
  rw [ofNat, ofNat, le]
  simp only [Nat.cast_le]

/-- The checks on a job that is well typed, with ISO timestamps. -/
def validateJob (job : Job) : Except String Unit := do
  requireString job.id "id"
  requireString job.type "type"
  if isPositiveInteger job.payloadVersion = false then
    throw "job payload must include a positive version"
  if isPositiveInteger job.retryPolicy.maxAttempts = false then
    throw "job retryPolicy.maxAttempts must be a positive integer"

theorem maxAttempts_of_validateJob {job : Job} (h : validateJob job = .ok ()) :
    isPositiveInteger job.retryPolicy.maxAttempts = true := by
  rw [validateJob] at h
  cases hid : requireString job.id "id" with
  | error message => rw [hid] at h; cases h
  | ok _ =>
    cases htype : requireString job.type "type" with
    | error message => rw [hid, htype] at h; cases h
    | ok _ =>
      rw [hid, htype] at h
      cases hversion : isPositiveInteger job.payloadVersion with
      | false => rw [hversion] at h; cases h
      | true =>
        cases hmax : isPositiveInteger job.retryPolicy.maxAttempts with
        | false => rw [hversion, hmax] at h; cases h
        | true => rfl

def validateWorker (workerId : String) (leaseMs : Option JsNumber) :
    Except String Unit := do
  requireString workerId "workerId"
  match leaseMs with
  | some ms =>
    if ms.isFinite = false ∨ le ms 0 = true then
      throw "job leaseMs must be a positive finite number"
  | none => pure ()

/-- A valid instant, or the error of the operation. -/
def requireNow (now : Date) : Except String Int :=
  match now with
  | some ms => .ok ms
  | none => .error "job now must be a valid Date"

structure JobFilter where
  status : Option JobStatus := none
  type : Option String := none
  limit : Option JsNumber := none
  offset : Option JsNumber := none

def JobFilter.selects (filter : JobFilter) (job : Job) : Bool :=
  filter.status.all (fun status => decide (job.status = status)) &&
    (JsText.nonEmpty filter.type).all (fun type => decide (job.type = type))

/-- The value of a natural number. -/
def naturalOf : JsNumber → Nat
  | .finite q => q.num.toNat
  | _ => 0

/-- The check of `validateFilter` on a number. -/
def requireCount (value : Option JsNumber) (field : String) (default : Nat) :
    Except String Nat :=
  match value with
  | none => .ok default
  | some n =>
    if n.isInteger = false ∨ n.isNegative = true then
      .error ("job filter " ++ field ++ " must be a non-negative integer")
    else .ok (naturalOf n)

/-! ## The store -/

structure MemoryJobStore where
  jobs : InsertionMap String Job
  byIdempotencyKey : InsertionMap String String
  /-- A job is stored under its own id. -/
  keyed : ∀ id job, jobs.get id = some job → job.id = id

namespace MemoryJobStore

def empty : MemoryJobStore where
  jobs := InsertionMap.empty
  byIdempotencyKey := InsertionMap.empty
  keyed _ _ h := nomatch h

/-- Store a job under its id, in its old place if there is one. -/
def put (s : MemoryJobStore) (job : Job) : MemoryJobStore where
  jobs := s.jobs.set job.id job
  byIdempotencyKey := s.byIdempotencyKey
  keyed := by
    intro id job' h
    rw [get_set] at h
    by_cases hid : job.id = id
    · rw [if_pos hid] at h
      rw [← some.inj h, hid]
    rw [if_neg hid] at h
    exact s.keyed id job' h

/-- Remember which job has an idempotency key. -/
def index (s : MemoryJobStore) (key id : String) : MemoryJobStore :=
  { s with byIdempotencyKey := s.byIdempotencyKey.set key id }

/-- `jobs.set` in `enqueue`; `refusal` is what `JSON.stringify` throws on the
    payload, if it does. -/
def insert (s : MemoryJobStore) (job : Job) (refusal : Option String) :
    MemoryJobStore × Except String (Job × Bool) :=
  match refusal with
  | some message => (s, .error message)
  | none => (s.put job.clone, .ok (job.clone, true))

/-- The job an idempotency key stands for. -/
def findByKey (s : MemoryJobStore) (key : String) : Option Job :=
  (s.byIdempotencyKey.get key).bind s.jobs.get

def enqueue (s : MemoryJobStore) (job : Job) (refusal : Option String) :
    MemoryJobStore × Except String (Job × Bool) :=
  match validateJob job with
  | .error message => (s, .error message)
  | .ok _ =>
    match JsText.nonEmpty job.idempotencyKey with
    | none => s.insert job refusal
    | some key =>
      match s.findByKey key with
      | some existing => (s, .ok (existing, false))
      | none => (s.index key job.id).insert job refusal

end MemoryJobStore

/-- The filter of `claimNext`: queued and due, or running with a lapsed
    lease. -/
def isDue (now : Int) (types : Option (List String)) (job : Job) : Bool :=
  types.all (fun names => names.contains job.type) &&
    match job.status with
    | .queued => decide (job.runAt ≤ now)
    | .running => job.lockedUntil.any (fun ms => decide (ms ≤ now))
    | _ => false

/-- The order of `claimNext`: by the time to run, then by creation. -/
def dueLe (a b : Job) : Bool :=
  if a.runAt ≠ b.runAt then isoLe a.runAt b.runAt
  else isoLe a.createdAt b.createdAt

namespace MemoryJobStore

/-- The job `claimNext` takes. -/
def nextDue (s : MemoryJobStore) (now : Int) (types : Option (List String)) :
    Option Job :=
  ((s.jobs.values.filter (isDue now types)).insertionSort (fun a b => dueLe a b = true)).head?

/-- The job as `claimNext` leaves it before it computes the lease. -/
def takenJob (workerId : String) (job : Job) : Job :=
  { job with
    status := .running
    attempts := job.attempts + 1
    lockedBy := some workerId }

def claimedJob (workerId : String) (now leaseEnd : Int) (job : Job) : Job :=
  { takenJob workerId job with lockedUntil := some leaseEnd, updatedAt := now }

/-- The end of the lease is computed last: if it is no instant, `claimNext`
    throws and the job stays half claimed. -/
def claim (s : MemoryJobStore) (workerId : String) (now : Int) (leaseMs : JsNumber) (job : Job) :
    MemoryJobStore × Except String (Option Job) :=
  match dateOf (add (.finite now) leaseMs) with
  | none => (s.put (takenJob workerId job), .error "Invalid time value")
  | some leaseEnd =>
    (s.put (claimedJob workerId now leaseEnd job),
      .ok (some (claimedJob workerId now leaseEnd job)))

def claimNext (s : MemoryJobStore) (workerId : String) (now : Date)
    (leaseMs : JsNumber) (types : Option (List String)) :
    MemoryJobStore × Except String (Option Job) :=
  match validateWorker workerId (some leaseMs) with
  | .error message => (s, .error message)
  | .ok _ =>
    match requireNow now with
    | .error message => (s, .error message)
    | .ok ms =>
      match s.nextDue ms types with
      | none => (s, .ok none)
      | some job => s.claim workerId ms leaseMs job

/-- The job a completion is about: running, and held by the worker. -/
def heldJob (s : MemoryJobStore) (id workerId : String) : Option Job :=
  (s.jobs.get id).filter (fun job =>
    decide (job.status = .running) && decide (job.lockedBy = some workerId))

def succeededJob (job : Job) (value : Json) (now : Int) : Job :=
  { job with
    status := .succeeded
    result := value
    lockedBy := none
    lockedUntil := none
    completedAt := some now
    updatedAt := now }

/-- The status is written before the result is cloned: if that throws, nothing
    else of the completion is recorded. -/
def succeed (s : MemoryJobStore) (job : Job) (result : Unknown) (now : Int) :
    MemoryJobStore × Except String (Option Job) :=
  match result.resultImage with
  | .error message => (s.put { job with status := .succeeded }, .error message)
  | .ok value => (s.put (succeededJob job value now), .ok (some (succeededJob job value now)))

def markSucceeded (s : MemoryJobStore) (id workerId : String) (result : Unknown) (now : Date) :
    MemoryJobStore × Except String (Option Job) :=
  match requireString id "id" with
  | .error message => (s, .error message)
  | .ok _ =>
    match validateWorker workerId none with
    | .error message => (s, .error message)
    | .ok _ =>
      match requireNow now with
      | .error message => (s, .error message)
      | .ok ms =>
        match s.heldJob id workerId with
        | none => (s, .ok none)
        | some job => s.succeed job result ms

/-- The job after a recorded failure: queued again at `retryAt`, or dead. -/
def failedJob (job : Job) (error : JobError) (retryAt : Option Int) (now : Int) : Job :=
  let released := { job with
    errors := job.errors ++ [error]
    lockedBy := none
    lockedUntil := none
    updatedAt := now }
  match retryAt with
  | some ms => { released with status := .queued, runAt := ms }
  | none => { released with status := .dead, completedAt := some now }

/-- The time of the retry, if there is to be one. -/
def requireRetryAt : Option Date → Except String (Option Int)
  | none => .ok none
  | some none => .error "job retryAt must be a valid Date"
  | some (some ms) => .ok (some ms)

/-- The checks of `markFailed` on a job the worker holds. -/
def validateFailure (error : JobError) (retryAt : Option Date) (now : Date) :
    Except String (Option Int × Int) := do
  if error.attempt < 1 then
    throw "job error attempt must be a positive integer"
  requireString error.message "error.message"
  let at_ ← requireRetryAt retryAt
  let ms ← requireNow now
  return (at_, ms)

def markFailed (s : MemoryJobStore) (id workerId : String) (error : JobError)
    (retryAt : Option Date) (now : Date) :
    MemoryJobStore × Except String (Option Job) :=
  match requireString id "id" with
  | .error message => (s, .error message)
  | .ok _ =>
    match validateWorker workerId none with
    | .error message => (s, .error message)
    | .ok _ =>
      match s.heldJob id workerId with
      | none => (s, .ok none)
      | some job =>
        match validateFailure error retryAt now with
        | .error message => (s, .error message)
        | .ok (at_, ms) =>
          let failed := failedJob job error at_ ms
          (s.put failed, .ok (some failed))

/-- The job after `requeueDead`. -/
def requeuedJob (job : Job) (now : Int) : Job :=
  { job with
    status := .queued
    attempts := 0
    runAt := now
    completedAt := none
    updatedAt := now }

def requeueDead (s : MemoryJobStore) (id : String) (now : Date) :
    MemoryJobStore × Except String (Option Job) :=
  match requireString id "id" with
  | .error message => (s, .error message)
  | .ok _ =>
    match requireNow now with
    | .error message => (s, .error message)
    | .ok ms =>
      match (s.jobs.get id).filter (fun job => decide (job.status = .dead)) with
      | none => (s, .ok none)
      | some job => (s.put (requeuedJob job ms), .ok (some (requeuedJob job ms)))

/-- `list`: newest first, in insertion order where that leaves a tie. -/
def list (s : MemoryJobStore) (filter : JobFilter) : Except String (List Job × Nat) :=
  match requireCount filter.limit "limit" 50 with
  | .error message => .error message
  | .ok limit =>
    match requireCount filter.offset "offset" 0 with
    | .error message => .error message
    | .ok offset =>
      let matching := (s.jobs.values.filter filter.selects).insertionSort
        (fun a b => isoLe b.createdAt a.createdAt = true)
      .ok ((matching.drop offset).take limit, matching.length)

/-- How many jobs have a status. -/
def counts (s : MemoryJobStore) (status : JobStatus) : Nat :=
  s.jobs.values.countP (fun job => decide (job.status = status))

/-! ## What the operations do -/

section Spec

variable {s : MemoryJobStore} {id workerId : String} {job : Job}

@[simp] theorem get_put (s : MemoryJobStore) (job : Job) (id : String) : (s.put job).jobs.get id
      = if job.id = id then some job else s.jobs.get id :=
  get_set s.jobs job.id job id

theorem mem_values_iff : job ∈ s.jobs.values ↔ s.jobs.get job.id = some job := by
  rw [InsertionMap.mem_values_iff]
  constructor
  · rintro ⟨id, h⟩
    rw [s.keyed id job h]
    exact h
  intro h
  exact ⟨job.id, h⟩

theorem values_put_of_none (h : s.jobs.get job.id = none) :
    (s.put job).jobs.values = s.jobs.values ++ [job] :=
  values_set_of_none h

theorem values_put_of_some {old : Job} (h : s.jobs.get job.id = some old) : (s.put job).jobs.values
      = s.jobs.values.map (fun j => if j.id = job.id then job else j) := by
  have hset : (s.put job).jobs.values
      = s.jobs.entries.map (fun e => if e.1 = job.id then job else e.2) :=
    values_set_of_some h
  rw [hset, values, List.map_map]
  refine List.map_congr_left ?_
  intro e he
  have hkey := s.keyed e.1 e.2 ((s.jobs.mem_entries_iff e.1 e.2).mp he)
  simp only [Function.comp_apply, hkey]

variable {types : Option (List String)} {ms : Int}

theorem nextDue_spec (h : s.nextDue ms types = some job) :
    s.jobs.get job.id = some job ∧ isDue ms types job = true := by
  have hmem := List.mem_of_mem_head? h
  rw [List.mem_insertionSort, List.mem_filter] at hmem
  exact ⟨mem_values_iff.mp hmem.1, hmem.2⟩

theorem status_of_isDue (h : isDue ms types job = true) :
    job.status = .queued ∨ job.status = .running := by
  rw [isDue, Bool.and_eq_true] at h
  obtain ⟨-, h⟩ := h
  cases hstatus : job.status with
  | queued => exact .inl rfl
  | running => exact .inr rfl
  | succeeded => rw [hstatus] at h; cases h
  | dead => rw [hstatus] at h; cases h

theorem heldJob_eq_some : s.heldJob id workerId = some job ↔ s.jobs.get id = some job
      ∧ job.status = .running ∧ job.lockedBy = some workerId := by
  rw [heldJob, filter_eq_some_iff, Bool.and_eq_true, decide_eq_true_eq, decide_eq_true_eq]

end Spec

/-- The job `claimNext` takes, where it gets as far as taking one. -/
def takes (s : MemoryJobStore) (workerId : String) (now : Date)
    (leaseMs : JsNumber) (types : Option (List String)) : Option (Int × Job) :=
  match validateWorker workerId (some leaseMs) with
  | .error _ => none
  | .ok _ => now.bind (fun ms => (s.nextDue ms types).map (fun job => (ms, job)))

theorem takes_spec {s : MemoryJobStore} {workerId : String} {now : Date}
    {leaseMs : JsNumber} {types : Option (List String)} {ms : Int} {job : Job}
    (h : s.takes workerId now leaseMs types = some (ms, job)) :
    s.jobs.get job.id = some job ∧ isDue ms types job = true := by
  rw [takes] at h
  split at h
  · cases h
  obtain ⟨ms', -, h⟩ := bind_eq_some_iff.mp h
  obtain ⟨job', hdue, hpair⟩ := map_eq_some_iff.mp h
  cases hpair
  exact nextDue_spec hdue

/-- **CLAIMING**: either a due job is claimed, or the store stays. -/
theorem claimNext_cases (s : MemoryJobStore) (workerId : String) (now : Date)
    (leaseMs : JsNumber) (types : Option (List String)) :
    (∃ ms job, s.takes workerId now leaseMs types = some (ms, job)
      ∧ now = some ms ∧ s.nextDue ms types = some job
      ∧ s.claimNext workerId now leaseMs types = s.claim workerId ms leaseMs job) ∨
    s.takes workerId now leaseMs types = none ∧ (s.claimNext workerId now leaseMs types).1 = s
      ∧ ∀ job, (s.claimNext workerId now leaseMs types).2 ≠ .ok (some job) := by
  rw [claimNext, takes]
  cases validateWorker workerId (some leaseMs) with
  | error message => exact Or.inr ⟨rfl, rfl, fun _ h => nomatch h⟩
  | ok _ =>
    cases now with
    | none => exact Or.inr ⟨rfl, rfl, fun _ h => nomatch h⟩
    | some ms =>
      cases hdue : s.nextDue ms types with
      | none =>
        simp only [requireNow, hdue, bind_some, map_none]
        exact Or.inr ⟨trivial, trivial, fun _ h => nomatch h⟩
      | some job =>
        simp only [requireNow, hdue, bind_some, map_some]
        exact Or.inl ⟨ms, job, rfl, rfl, hdue, rfl⟩

/-- **SUCCEEDING**: either the job the worker holds is completed, or the store
    stays. -/
theorem markSucceeded_cases (s : MemoryJobStore) (id workerId : String)
    (result : Unknown) (now : Date) : (∃ ms job, s.heldJob id workerId = some job
      ∧ s.markSucceeded id workerId result now = s.succeed job result ms) ∨
    (s.markSucceeded id workerId result now).1 = s := by
  rw [markSucceeded]
  split
  · exact .inr rfl
  split
  · exact .inr rfl
  split
  · exact .inr rfl
  split
  · exact .inr rfl
  rename_i ms _ _ job hheld
  exact .inl ⟨ms, job, hheld, rfl⟩

theorem validateFailure_ok {error : JobError} {retryAt : Option Date}
    {now : Date} {at_ : Option Int} {ms : Int}
    (h : validateFailure error retryAt now = .ok (at_, ms)) :
    retryAt = at_.map some ∧ now = some ms := by
  rw [validateFailure] at h
  by_cases hattempt : error.attempt < 1
  · rw [if_pos hattempt] at h
    cases h
  rw [if_neg hattempt] at h
  cases hmessage : requireString error.message "error.message" with
  | error message => rw [hmessage] at h; cases h
  | ok _ =>
    rw [hmessage] at h
    cases now with
    | none =>
      rcases retryAt with _ | _ | at'
      · cases h
      · cases h
      · cases h
    | some ms' =>
      rcases retryAt with _ | _ | at'
      · cases h
        exact ⟨rfl, rfl⟩
      · cases h
      cases h
      exact ⟨rfl, rfl⟩

/-- **FAILING**: either the failure of the job the worker holds is recorded, or
    the store stays.  The job is queued again only if a date is given. -/
theorem markFailed_cases (s : MemoryJobStore) (id workerId : String)
    (error : JobError) (retryAt : Option Date) (now : Date) :
    (∃ at_ ms job, s.heldJob id workerId = some job ∧ retryAt = at_.map some
      ∧ (s.markFailed id workerId error retryAt now).1 = s.put (failedJob job error at_ ms)) ∨
    (s.markFailed id workerId error retryAt now).1 = s := by
  rw [markFailed]
  split
  · exact .inr rfl
  split
  · exact .inr rfl
  split
  · exact .inr rfl
  rename_i job hheld
  split
  · exact .inr rfl
  rename_i at_ ms hvalid
  refine .inl ⟨at_, ms, job, hheld, ?_, rfl⟩
  exact (validateFailure_ok hvalid).1

/-- **REQUEUEING**: either a dead job is queued again, or the store stays. -/
theorem requeueDead_cases (s : MemoryJobStore) (id : String) (now : Date) :
    (∃ ms job, s.jobs.get id = some job ∧ job.status = .dead ∧ s.requeueDead id now
        = (s.put (requeuedJob job ms), .ok (some (requeuedJob job ms)))) ∨
    (s.requeueDead id now).1 = s ∧ ∀ job, (s.requeueDead id now).2 ≠ .ok (some job) := by
  rw [requeueDead]
  split
  · exact Or.inr ⟨rfl, fun _ h => by cases h⟩
  split
  · exact Or.inr ⟨rfl, fun _ h => by cases h⟩
  split
  · exact Or.inr ⟨rfl, fun _ h => by cases h⟩
  rename_i ms _ _ job hdead
  rw [filter_eq_some_iff, decide_eq_true_eq] at hdead
  exact .inl ⟨ms, job, hdead.1, hdead.2, rfl⟩

end MemoryJobStore

end Jobs

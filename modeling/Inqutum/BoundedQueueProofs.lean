import Inqutum.BackpressureProofs

/-!
# The bounded queue

`BoundedBackpressureQueue.enqueue` counts the jobs of the store, asks the
controller and then inserts the job.  The counts and the insertion are
awaited, so other calls and the workers run between the three: the queue
is modelled with all its calls and how far each has come, and an event is
what one caller does between two awaits.

The ledger is for the statements only: it lists the charges of the
controller, in order, with the call each was made for.
-/

namespace Jobs

open MemoryJobStore

/-! ## The active jobs of a store -/

/-- A job that counts for the depth of the queue. -/
def Job.isActive (job : Job) : Bool :=
  decide (job.status = .queued) || decide (job.status = .running)

namespace MemoryJobStore

/-- `counts.queued + counts.running`. -/
def activeDepth (s : MemoryJobStore) : Nat :=
  s.counts .queued + s.counts .running

/-- The job of an id is queued or running. -/
def isActive (s : MemoryJobStore) (id : String) : Bool :=
  (s.jobs.get id).any Job.isActive

theorem activeDepth_eq (s : MemoryJobStore) :
    s.activeDepth = s.jobs.values.countP Job.isActive := by
  rw [activeDepth, counts, counts]
  induction s.jobs.values with
  | nil => rfl
  | cons job rest ih =>
    -- a job is in one of the two counts
    have hone : (if job.isActive = true then 1 else 0)
        = (if decide (job.status = .queued) = true then 1 else 0)
          + (if decide (job.status = .running) = true then 1 else 0) := by
      rw [Job.isActive]
      cases job.status <;> rfl
    rw [List.countP_cons, List.countP_cons, List.countP_cons, hone]
    omega

variable {s s' : MemoryJobStore} {job : Job}

/-- **ONE PUT**: the old job leaves the count, the new one enters it. -/
theorem activeDepth_put (h : s'.jobs = (s.put job).jobs) :
    s'.activeDepth + (if s.isActive job.id = true then 1 else 0)
      = s.activeDepth + (if job.isActive = true then 1 else 0) := by
  rw [activeDepth_eq, activeDepth_eq, h]
  exact InsertionMap.countP_set s.jobs job.id job Job.isActive

theorem isActive_put (h : s'.jobs = (s.put job).jobs) (id : String) :
    s'.isActive id = if job.id = id then job.isActive else s.isActive id := by
  rw [isActive, h, get_put]
  split
  · rfl
  · rfl

theorem isActive_eq_false {s : MemoryJobStore} (h : s.activeDepth = 0)
    (id : String) : s.isActive id = false := by
  rw [activeDepth_eq, List.countP_eq_zero] at h
  rw [isActive]
  cases hjob : s.jobs.get id with
  | none => rfl
  | some job =>
    have hmem := (s.jobs.mem_values_iff job).mpr ⟨id, hjob⟩
    exact Bool.eq_false_iff.mpr (h job hmem)

end MemoryJobStore

open MemoryJobStore

/-! ## The queue and its calls -/

/-- One call of `BoundedBackpressureQueue.enqueue`, with the id and the clock
    that the job is built from. -/
structure BoundedCall where
  type : String
  data : Json := .obj []
  /-- What `JSON.stringify` throws on the data, if it does. -/
  refusal : Option String := none
  options : BoundedEnqueueOptions := {}
  uuid : String
  now : Date

/-- The call of the queue that is wrapped. -/
def BoundedCall.inner (defaults : RetryPolicy) (call : BoundedCall) : EnqueueCall where
  defaults := defaults
  type := call.type
  data := call.data
  refusal := call.refusal
  options := call.options.toEnqueueOptions
  uuid := call.uuid
  now := call.now

structure QueueBackpressureError where
  message : String
  code : String := "QUEUE_BACKPRESSURE_ACTIVE"
  httpStatus : Nat := 429
  retryAfterMs : JsNumber
  currentDepth : Nat
  maxCapacity : JsNumber
  jobType : String

/-- What a call throws: the refusal of the controller, or the error of the
    store. -/
inductive EnqueueError where
  | backpressure (error : QueueBackpressureError)
  | thrown (message : String)

/-- How far a call has come: it has the depth it counted, it was admitted at
    that depth, or it has ended. -/
inductive CallPhase where
  | counted (depth : Nat)
  | admitted (depth : Nat)
  | settled (result : Except EnqueueError (Job × Bool))

structure PendingCall where
  call : BoundedCall
  phase : CallPhase

/-- A charge of the controller, and the call it was made for. -/
structure Charge where
  call : Nat
  cost : Amount

structure BoundedQueue where
  defaults : RetryPolicy
  controller : BackpressureController
  /-- The store and the workers on it. -/
  pool : Pool
  /-- The calls so far, in the order in which they were made. -/
  calls : List PendingCall := []
  /-- The charges so far, in the order in which they were made. -/
  ledger : List Charge := []

inductive BoundedEvent where
  | count (call : BoundedCall)
  | check (i : Nat)
  /-- The store answers; `failure` is what it throws of itself. -/
  | insert (i : Nat) (failure : Option String)
  | runOnce (w : JobWorker) (now : Date)
  | handled (i : Nat) (outcome : Outcome) (clock : Clock)
  | caught (i : Nat) (clock : Clock)

namespace BoundedQueue

/-- The constructor, over a store with its workers. -/
def new (defaults : RetryPolicy) (config : BackpressureConfig) (pool : Pool) : BoundedQueue where
  defaults := defaults
  controller := { config }
  pool := pool

def depth (q : BoundedQueue) : Nat := q.pool.store.activeDepth

/-- `await this.store.counts()`. -/
def count (q : BoundedQueue) (call : BoundedCall) : BoundedQueue :=
  { q with calls := q.calls ++ [⟨call, .counted q.depth⟩] }

def settle (q : BoundedQueue) (i : Nat) (call : BoundedCall)
    (result : Except EnqueueError (Job × Bool)) : BoundedQueue :=
  { q with calls := q.calls.set i ⟨call, .settled result⟩ }

def refusal (q : BoundedQueue) (call : BoundedCall) (depth : Nat)
    (reason : AdmissionReason) (retryAfterMs : JsNumber) :
    QueueBackpressureError where
  message := "Background work rejected due to queue backpressure: "
    ++ reason.toText ++ " (depth: " ++ (JsNumber.ofNat depth).toText
    ++ ", job: " ++ call.type ++ ")"
  retryAfterMs := retryAfterMs
  currentDepth := depth
  maxCapacity := q.controller.config.highWatermarkDepth
  jobType := call.type

/-- What a call is charged if it is admitted. -/
def costOf (q : BoundedQueue) (call : BoundedCall) : Amount :=
  q.controller.config.getJobCost call.type call.options.costOverride

/-- The synchronous part in the middle. -/
def check (q : BoundedQueue) (i : Nat) (call : BoundedCall) (depth : Nat) :
    BoundedQueue :=
  match q.controller.checkAdmission call.type (JsNumber.ofNat depth) call.options with
  | (c, .admitted _) =>
    { q with
      controller := c
      calls := q.calls.set i ⟨call, .admitted depth⟩
      ledger := q.ledger ++ [⟨i, q.costOf call⟩] }
  | (c, .refused reason retryAfterMs) =>
    { q.settle i call (.error (.backpressure
        (q.refusal call depth reason retryAfterMs))) with controller := c }

/-- `await this.queue.enqueue(type, data, options)`. -/
def insert (q : BoundedQueue) (i : Nat) (call : BoundedCall)
    (failure : Option String) : BoundedQueue :=
  match failure with
  | some message => q.settle i call (.error (.thrown message))
  | none =>
    { q.settle i call (((call.inner q.defaults).enqueue q.pool.store).2.mapError .thrown)
      with pool := q.pool.enqueue (call.inner q.defaults) }

def step (pow : JsNumber → Nat → JsNumber) (q : BoundedQueue) : BoundedEvent → BoundedQueue
  | .count call => q.count call
  | .check i =>
    match q.calls[i]? with
    | some ⟨call, .counted depth⟩ => q.check i call depth
    | _ => q
  | .insert i failure =>
    match q.calls[i]? with
    | some ⟨call, .admitted _⟩ => q.insert i call failure
    | _ => q
  | .runOnce w now => { q with pool := q.pool.step pow (.runOnce w now) }
  | .handled i outcome clock => { q with pool := q.pool.step pow (.handled i outcome clock) }
  | .caught i clock => { q with pool := q.pool.step pow (.caught i clock) }

def run (pow : JsNumber → Nat → JsNumber) (q : BoundedQueue)
    (events : List BoundedEvent) : BoundedQueue :=
  events.foldl (step pow) q

/-- The insertion of a call makes a new job. -/
def Creates (q : BoundedQueue) (call : BoundedCall) : Prop :=
  ∃ job, ((call.inner q.defaults).enqueue q.pool.store).2 = .ok (job, true)

end BoundedQueue

/-- A call for the samples. -/
def exportCall (uuid : String) : BoundedCall where
  type := "reports.csv-export"
  uuid := uuid
  now := some 0

/-! ## What the events do to the store -/

/-- An insertion that makes a new job puts it into the store, queued; another
    one leaves the jobs as they are. -/
theorem EnqueueCall.enqueue_cases (call : EnqueueCall) (s : MemoryJobStore) :
    (∃ job, (call.enqueue s).2 = .ok (job, true) ∧ job.isActive = true
      ∧ (call.enqueue s).1.jobs = (s.put job).jobs) ∨
    (∀ job, (call.enqueue s).2 ≠ .ok (job, true)) ∧ (call.enqueue s).1.jobs = s.jobs := by
  rw [EnqueueCall.enqueue]
  cases hjob : call.job with
  | error message => exact Or.inr ⟨(fun _ h => by cases h), rfl⟩
  | ok job =>
    obtain ⟨-, hstatus, -⟩ := EnqueueCall.job_fresh hjob
    have hactive : job.clone.isActive = true := by
      rw [Job.isActive, Job.clone, hstatus]
      rfl
    simp only [MemoryJobStore.enqueue]
    cases validateJob job with
    | error message => exact Or.inr ⟨(fun _ h => by cases h), rfl⟩
    | ok _ =>
      cases JsText.nonEmpty job.idempotencyKey with
      | none =>
        simp only [MemoryJobStore.insert]
        cases call.refusal with
        | some message => exact Or.inr ⟨(fun _ h => by cases h), rfl⟩
        | none => exact Or.inl ⟨job.clone, rfl, hactive, rfl⟩
      | some key =>
        simp only
        cases s.findByKey key with
        | some existing =>
          refine Or.inr ⟨fun _ h => ?_, rfl⟩
          cases h
        | none =>
          simp only [MemoryJobStore.insert]
          cases call.refusal with
          | some message => exact Or.inr ⟨(fun _ h => by cases h), rfl⟩
          | none => exact Or.inl ⟨job.clone, rfl, hactive, rfl⟩

theorem Pool.enqueue_store (pool : Pool) (call : EnqueueCall) :
    (pool.enqueue call).store = (call.enqueue pool.store).1 := by
  rw [Pool.enqueue]
  split
  · rename_i heq
    rw [heq]
  rename_i heq
  rw [heq]

theorem Pool.isActive_runOnce (pow : JsNumber → Nat → JsNumber) (pool : Pool)
    (w : JobWorker) (now : Date) {id : String} (h : pool.store.isActive id = true) :
    (pool.step pow (.runOnce w now)).store.isActive id = true := by
  cases Pool.moves_step pow pool (.runOnce w now) with
  | quiet jobs claims starts =>
    rw [isActive, jobs]
    exact h
  | claimed ms job leaseEnd taken lease puts claims starts =>
    rw [isActive_put puts]
    split
    · rfl
    · exact h
  | halfClaimed ms job taken lease puts claims starts =>
    rw [isActive_put puts]
    split
    · rfl
    · exact h
  | failed i c job error record at_ ms event claim held again puts =>
    rcases event with ⟨_, heq, -⟩ | ⟨_, heq, -⟩
    · cases heq
    · cases heq

theorem Pool.activeDepth_worker (pow : JsNumber → Nat → JsNumber)
    (pool : Pool) {e : Event} (henqueue : ∀ call, e ≠ .enqueue call)
    (hrequeue : ∀ id now, e ≠ .requeueDead id now) :
    (pool.step pow e).store.activeDepth ≤ pool.store.activeDepth := by
  -- the job that is put replaces an active one
  have hput : ∀ {job old : Job}, pool.store.isActive old.id = true →
      pool.Puts (pool.step pow e) job → job.id = old.id →
      (pool.step pow e).store.activeDepth ≤ pool.store.activeDepth := by
    intro job old hactive hputs hid
    have hcount := activeDepth_put hputs
    rw [hid, if_pos hactive] at hcount
    split at hcount <;> omega
  have htaken : ∀ {w : JobWorker} {now : Date} {ms : Int} {job : Job},
      w.takes pool.store now = some (ms, job) →
      pool.store.isActive job.id = true := by
    intro w now ms job htakes
    obtain ⟨hfound, hstatus⟩ := JobWorker.takes_spec htakes
    rw [isActive, hfound]
    rcases hstatus with hstatus | hstatus
    · simp [Job.isActive, hstatus]
    · simp [Job.isActive, hstatus]
  have hheld : ∀ {c : Claim} {job : Job}, pool.store.heldJob c.job.id c.worker.workerId = some job →
      pool.store.isActive job.id = true := by
    intro c job held
    obtain ⟨hfound, hstatus, -⟩ := heldJob_eq_some.mp held
    rw [isActive, pool.store.keyed _ _ hfound, hfound]
    simp [Job.isActive, hstatus]
  cases Pool.moves_step pow pool e with
  | quiet jobs claims starts => rw [activeDepth_eq, activeDepth_eq, jobs]
  | created job built valid puts claims starts => exact absurd rfl (henqueue _)
  | claimed ms job leaseEnd taken lease puts claims starts => exact hput (htaken taken) puts rfl
  | halfClaimed ms job taken lease puts claims starts => exact hput (htaken taken) puts rfl
  | succeeded c job value ms claim phase held image puts claims starts =>
    exact hput (hheld held) puts rfl
  | halfSucceeded c job message claim phase held image puts claims starts =>
    exact hput (hheld held) puts rfl
  | failed i c job error record at_ ms event claim held again puts claims starts =>
    have hid : (failedJob job record at_ ms).id = job.id := by
      cases at_ <;> rfl
    exact hput (hheld held) puts hid
  | requeued job ms found dead puts claims starts => exact absurd rfl (hrequeue _ _)

end Jobs

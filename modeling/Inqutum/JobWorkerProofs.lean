import Inqutum.JobStoreProofs
import Inqutum.TransitionProofs

/-!
# Workers over one job store

A worker claims a due job, runs its handler and records how that ended.
The handler is awaited, so between the claim and its completion any other
call can run: a pool is the store with all claims made so far, in order,
and an event is what one caller does between two awaits.  A worker that
crashes is one whose claim is never completed.

The pool also counts how often the handler of a job was started since the
job was enqueued or requeued last.
-/

namespace Jobs

open MemoryJobStore
open Transition (Along)
open JsNumber MemoryJobStore

/-! ## Enqueueing -/

structure EnqueueOptions where
  runAt : Option Date := none
  maxAttempts : Option JsNumber := none
  baseDelayMs : Option JsNumber := none
  backoffFactor : Option JsNumber := none
  maxDelayMs : Option JsNumber := none
  idempotencyKey : Option String := none
  correlationId : Option String := none
  payloadVersion : Option JsNumber := none

/-- One call of `JobQueue.enqueue`, with the id and the clock it reads. -/
structure EnqueueCall where
  defaults : RetryPolicy := defaultRetryPolicy
  type : String
  data : Json := .obj []
  /-- What `JSON.stringify` throws on the data, if it does. -/
  refusal : Option String := none
  options : EnqueueOptions := {}
  uuid : String
  now : Date

namespace EnqueueCall

def retryPolicy (call : EnqueueCall) : RetryPolicy where
  maxAttempts := call.options.maxAttempts.getD call.defaults.maxAttempts
  baseDelayMs := call.options.baseDelayMs.getD call.defaults.baseDelayMs
  backoffFactor := call.options.backoffFactor.getD call.defaults.backoffFactor
  maxDelayMs := call.options.maxDelayMs.getD call.defaults.maxDelayMs

/-- The job of a call, unless one of its dates has no text. -/
def job (call : EnqueueCall) : Except String Job :=
  match call.options.runAt.getD call.now, call.now with
  | some runAt, some now => .ok {
      id := call.uuid
      type := call.type
      payloadVersion := call.options.payloadVersion.getD 1
      payloadData := call.data
      status := .queued
      attempts := 0
      retryPolicy := call.retryPolicy
      runAt := runAt
      lockedUntil := none
      lockedBy := none
      idempotencyKey := call.options.idempotencyKey
      correlationId := call.options.correlationId
      errors := []
      result := .null
      createdAt := now
      updatedAt := now
      completedAt := none }
  | _, _ => .error "Invalid time value"

theorem job_fresh {call : EnqueueCall} {job : Job} (h : call.job = .ok job) :
    job.id = call.uuid ∧ job.status = .queued ∧ job.attempts = 0
      ∧ job.lockedBy = none ∧ job.lockedUntil = none ∧ job.completedAt = none := by
  rw [EnqueueCall.job] at h
  split at h
  · cases h
    exact ⟨rfl, rfl, rfl, rfl, rfl, rfl⟩
  · cases h

/-- `JobQueue.enqueue`. -/
def enqueue (call : EnqueueCall) (s : MemoryJobStore) :
    MemoryJobStore × Except String (Job × Bool) :=
  match call.job with
  | .error message => (s, .error message)
  | .ok job => s.enqueue job call.refusal

end EnqueueCall

/-! ## The worker -/

structure JobWorker where
  workerId : String
  leaseMs : JsNumber
  /-- The types it has a handler for. -/
  types : List String

/-- What a handler throws. -/
structure HandlerError where
  message : String
  stack : Option String := none
  /-- It is a `NonRetryableJobError`. -/
  nonRetryable : Bool := false

inductive Outcome where
  | returned (result : Unknown)
  | threw (error : HandlerError)

/-- The readings of the clock in the completion of a claim. -/
structure Clock where
  done : Date
  at_ : Date
  base : Date
  now : Date

/-- The attempts of the job have used up its budget. -/
def exhausted (job : Job) : Bool :=
  le job.retryPolicy.maxAttempts (ofNat job.attempts)

def retryable (job : Job) (error : HandlerError) : Bool :=
  !error.nonRetryable && !exhausted job

/-- When a failed claim is to be tried again. -/
def retryTime (pow : JsNumber → Nat → JsNumber) (job : Job)
    (error : HandlerError) (base : Date) : Option Date :=
  if retryable job error = true then
    some (dateOf (add (getTime base) (computeBackoffMs pow job.retryPolicy job.attempts)))
  else none

def handleFailure (pow : JsNumber → Nat → JsNumber) (w : JobWorker)
    (s : MemoryJobStore) (job : Job) (error : HandlerError) (clock : Clock) :
    MemoryJobStore × Except String Job :=
  match clock.at_ with
  | none => (s, .error "Invalid time value")
  | some ms =>
    match s.markFailed job.id w.workerId ⟨job.attempts, ms, error.message, error.stack⟩
        (retryTime pow job error clock.base) clock.now with
    | (s', .error message) => (s', .error message)
    | (s', .ok updated) => (s', .ok (updated.getD job))

/-- The first half of `runOnce`, up to the handler. -/
def JobWorker.claimNext (w : JobWorker) (s : MemoryJobStore) (now : Date) :
    MemoryJobStore × Except String (Option Job) :=
  if w.types.isEmpty = true then (s, .ok none)
  else s.claimNext w.workerId now w.leaseMs (some w.types)

/-- The job the worker takes, where it gets as far as taking one. -/
def JobWorker.takes (w : JobWorker) (s : MemoryJobStore) (now : Date) : Option (Int × Job) :=
  if w.types.isEmpty = true then none
  else s.takes w.workerId now w.leaseMs (some w.types)

theorem JobWorker.takes_spec {w : JobWorker} {s : MemoryJobStore} {now : Date}
    {ms : Int} {job : Job} (h : w.takes s now = some (ms, job)) :
    s.jobs.get job.id = some job ∧ (job.status = .queued ∨ job.status = .running) := by
  rw [JobWorker.takes] at h
  split at h
  · cases h
  obtain ⟨hfound, hdue⟩ := MemoryJobStore.takes_spec h
  exact ⟨hfound, status_of_isDue hdue⟩

/-! ## The pool -/

/-- A claim: the worker and the copy of the job it was handed. -/
structure Claim where
  worker : JobWorker
  job : Job

/-- Where a claim stands: its handler runs, its completion threw and is to be
    recorded as a failure, or nothing more comes of it. -/
inductive Phase where
  | handling
  | failing (error : HandlerError)
  | settled

structure Pool where
  store : MemoryJobStore
  /-- All claims so far, in the order in which they were made. -/
  claims : List Claim
  phase : Nat → Phase
  /-- The starts of a job's handler since it was enqueued or requeued. -/
  starts : String → Nat

def Pool.empty : Pool := ⟨.empty, [], fun _ => .handling, fun _ => 0⟩

inductive Event where
  | enqueue (call : EnqueueCall)
  | runOnce (w : JobWorker) (now : Date)
  | handled (i : Nat) (outcome : Outcome) (clock : Clock)
  | caught (i : Nat) (clock : Clock)
  | requeueDead (id : String) (now : Date)

namespace Pool

def enqueue (pool : Pool) (call : EnqueueCall) : Pool :=
  match call.enqueue pool.store with
  | (s, .ok (job, true)) => { pool with store := s, starts := Function.update pool.starts job.id 0 }
  | (s, _) => { pool with store := s }

/-- A claim starts the handler: `runOnce` calls it as soon as the claim is
    returned.  A claim that throws halfway starts nothing. -/
def runOnce (pool : Pool) (w : JobWorker) (now : Date) : Pool :=
  match w.takes pool.store now, w.claimNext pool.store now with
  | some _, (s, .ok (some job)) =>
    { pool with
      store := s
      claims := pool.claims ++ [⟨w, job⟩]
      phase := Function.update pool.phase pool.claims.length .handling
      starts := Function.update pool.starts job.id (pool.starts job.id + 1) }
  | some (_, job), (s, _) =>
    { pool with
      store := s
      claims := pool.claims ++ [⟨w, takenJob w.workerId job⟩]
      phase := Function.update pool.phase pool.claims.length .settled }
  | none, (s, _) => { pool with store := s }

/-- The failure of a claim is recorded, and nothing more comes of it. -/
def fail (pow : JsNumber → Nat → JsNumber) (pool : Pool) (i : Nat) (c : Claim)
    (error : HandlerError) (clock : Clock) : Pool :=
  { pool with
    store := (handleFailure pow c.worker pool.store c.job error clock).1
    phase := Function.update pool.phase i .settled }

/-- The second half of `runOnce`: an error of `markSucceeded` is caught like
    one of the handler. -/
def handled (pow : JsNumber → Nat → JsNumber) (pool : Pool) (i : Nat)
    (c : Claim) (outcome : Outcome) (clock : Clock) : Pool :=
  match outcome with
  | .threw error => pool.fail pow i c error clock
  | .returned result =>
    match pool.store.markSucceeded c.job.id c.worker.workerId result clock.done with
    | (s, .ok _) =>
      { pool with
        store := s
        phase := Function.update pool.phase i .settled }
    | (s, .error message) =>
      { pool with
        store := s
        phase := Function.update pool.phase i (.failing { message := message }) }

def step (pow : JsNumber → Nat → JsNumber) (pool : Pool) : Event → Pool
  | .enqueue call => pool.enqueue call
  | .runOnce w now => pool.runOnce w now
  | .handled i outcome clock =>
    match pool.claims[i]?, pool.phase i with
    | some c, .handling => pool.handled pow i c outcome clock
    | _, _ => pool
  | .caught i clock =>
    match pool.claims[i]?, pool.phase i with
    | some c, .failing error => pool.fail pow i c error clock
    | _, _ => pool
  | .requeueDead id now =>
    match pool.store.requeueDead id now with
    | (s, .ok (some job)) =>
      { pool with
        store := s
        starts := Function.update pool.starts job.id 0 }
    | (s, _) => { pool with store := s }

def run (pow : JsNumber → Nat → JsNumber) (pool : Pool) (events : List Event) : Pool :=
  events.foldl (step pow) pool

/-- The pool differs from an earlier one in one job. -/
def Puts (pool pool' : Pool) (job : Job) : Prop :=
  pool'.store.jobs = (pool.store.put job).jobs

theorem Puts.get {pool pool' : Pool} {job : Job} (h : Puts pool pool' job)
    (id : String) : pool'.store.jobs.get id
      = if job.id = id then some job else pool.store.jobs.get id := by
  rw [h, get_put]

/-- **THE MOVES OF A POOL**: all that an event can do to the jobs, the claims
    and the counts. -/
inductive Moves (pow : JsNumber → Nat → JsNumber) (pool : Pool) : Event → Pool → Prop where
  | quiet {e : Event} {pool' : Pool} (jobs : pool'.store.jobs = pool.store.jobs)
      (claims : pool'.claims = pool.claims)
      (starts : pool'.starts = pool.starts) : Moves pow pool e pool'
  | created {call : EnqueueCall} {pool' : Pool} (job : Job)
      (built : call.job = .ok job) (valid : validateJob job = .ok ())
      (puts : Puts pool pool' job.clone)
      (claims : pool'.claims = pool.claims)
      (starts : pool'.starts = Function.update pool.starts job.id 0) :
      Moves pow pool (.enqueue call) pool'
  | claimed {w : JobWorker} {now : Date} {pool' : Pool} (ms : Int) (job : Job)
      (leaseEnd : Int) (taken : w.takes pool.store now = some (ms, job))
      (lease : dateOf (add (.finite ms) w.leaseMs) = some leaseEnd)
      (puts : Puts pool pool' (claimedJob w.workerId ms leaseEnd job))
      (claims : pool'.claims = pool.claims ++ [⟨w, claimedJob w.workerId ms leaseEnd job⟩])
      (starts : pool'.starts = Function.update pool.starts job.id
        (pool.starts job.id + 1)) : Moves pow pool (.runOnce w now) pool'
  | halfClaimed {w : JobWorker} {now : Date} {pool' : Pool} (ms : Int)
      (job : Job) (taken : w.takes pool.store now = some (ms, job))
      (lease : dateOf (add (.finite ms) w.leaseMs) = none)
      (puts : Puts pool pool' (takenJob w.workerId job))
      (claims : pool'.claims = pool.claims ++ [⟨w, takenJob w.workerId job⟩])
      (starts : pool'.starts = pool.starts) :
      Moves pow pool (.runOnce w now) pool'
  | succeeded {i : Nat} {result : Unknown} {clock : Clock} {pool' : Pool}
      (c : Claim) (job : Job) (value : Json) (ms : Int)
      (claim : pool.claims[i]? = some c) (phase : pool.phase i = .handling)
      (held : pool.store.heldJob c.job.id c.worker.workerId = some job)
      (image : result.resultImage = .ok value)
      (puts : Puts pool pool' (succeededJob job value ms))
      (claims : pool'.claims = pool.claims)
      (starts : pool'.starts = pool.starts) :
      Moves pow pool (.handled i (.returned result) clock) pool'
  | halfSucceeded {i : Nat} {result : Unknown} {clock : Clock} {pool' : Pool}
      (c : Claim) (job : Job) (message : String)
      (claim : pool.claims[i]? = some c) (phase : pool.phase i = .handling)
      (held : pool.store.heldJob c.job.id c.worker.workerId = some job)
      (image : result.resultImage = .error message)
      (puts : Puts pool pool' { job with status := .succeeded })
      (claims : pool'.claims = pool.claims)
      (starts : pool'.starts = pool.starts) :
      Moves pow pool (.handled i (.returned result) clock) pool'
  | failed {e : Event} {pool' : Pool} (i : Nat) (c : Claim) (job : Job)
      (error : HandlerError) (record : JobError) (at_ : Option Int) (ms : Int)
      (event : (∃ clock, e = .handled i (.threw error) clock ∧ pool.phase i = .handling) ∨
        ∃ clock, e = .caught i clock ∧ pool.phase i = .failing error)
      (claim : pool.claims[i]? = some c)
      (held : pool.store.heldJob c.job.id c.worker.workerId = some job)
      (again : at_ ≠ none → retryable c.job error = true)
      (puts : Puts pool pool' (failedJob job record at_ ms))
      (claims : pool'.claims = pool.claims)
      (starts : pool'.starts = pool.starts) : Moves pow pool e pool'
  | requeued {id : String} {now : Date} {pool' : Pool} (job : Job) (ms : Int)
      (found : pool.store.jobs.get id = some job) (dead : job.status = .dead)
      (puts : Puts pool pool' (requeuedJob job ms))
      (claims : pool'.claims = pool.claims)
      (starts : pool'.starts = Function.update pool.starts job.id 0) :
      Moves pow pool (.requeueDead id now) pool'

/-- The claims that come after position `i` include one of the same job. -/
def Superseded (claims : List Claim) (i : Nat) (id : String) : Prop :=
  ∃ c ∈ claims.drop (i + 1), c.job.id = id

instance (claims : List Claim) (i : Nat) (id : String) :
    Decidable (Superseded claims i id) :=
  inferInstanceAs (Decidable (∃ c ∈ _, _))

section Moves

variable (pow : JsNumber → Nat → JsNumber) (pool : Pool)

theorem moves_enqueue (call : EnqueueCall) :
    Moves pow pool (.enqueue call) (pool.enqueue call) := by
  rw [Pool.enqueue, EnqueueCall.enqueue]
  cases hjob : call.job with
  | error message => exact .quiet rfl rfl rfl
  | ok job =>
    simp only [MemoryJobStore.enqueue]
    cases hvalid : validateJob job with
    | error message => exact .quiet rfl rfl rfl
    | ok u =>
      cases hkey : JsText.nonEmpty job.idempotencyKey with
      | none =>
        simp only [MemoryJobStore.insert]
        cases call.refusal with
        | some message => exact .quiet rfl rfl rfl
        | none => exact .created job hjob hvalid rfl rfl rfl
      | some key =>
        simp only
        cases pool.store.findByKey key with
        | some existing => exact .quiet rfl rfl rfl
        | none =>
          simp only [MemoryJobStore.insert]
          cases call.refusal with
          | some message => exact .quiet rfl rfl rfl
          | none => exact .created job hjob hvalid rfl rfl rfl

theorem moves_runOnce (w : JobWorker) (now : Date) :
    Moves pow pool (.runOnce w now) (pool.runOnce w now) := by
  rw [Pool.runOnce]
  by_cases hempty : w.types.isEmpty = true
  · rw [JobWorker.takes, JobWorker.claimNext, if_pos hempty, if_pos hempty]
    exact .quiet rfl rfl rfl
  have htakes : w.takes pool.store now = pool.store.takes w.workerId now
      w.leaseMs (some w.types) := if_neg hempty
  have hclaim : w.claimNext pool.store now = pool.store.claimNext w.workerId
      now w.leaseMs (some w.types) := if_neg hempty
  rcases pool.store.claimNext_cases w.workerId now w.leaseMs (some w.types)
    with ⟨ms, job, htaken, -, -, heq⟩ | ⟨htaken, hsame, -⟩
  · rw [hclaim, heq, htakes, htaken, claim]
    cases hlease : dateOf (add (.finite ms) w.leaseMs) with
    | none => exact .halfClaimed ms job (htakes.trans htaken) hlease rfl rfl rfl
    | some leaseEnd => exact .claimed ms job leaseEnd (htakes.trans htaken) hlease rfl rfl rfl
  rw [htakes, htaken, hclaim]
  exact .quiet (congrArg jobs hsame) rfl rfl

theorem moves_fail {e : Event} {i : Nat} {c : Claim} {error : HandlerError}
    {clock : Clock} (hclaim : pool.claims[i]? = some c)
    (hevent : (∃ clock, e = .handled i (.threw error) clock ∧ pool.phase i = .handling) ∨
      ∃ clock, e = .caught i clock ∧ pool.phase i = .failing error) :
    Moves pow pool e (pool.fail pow i c error clock) := by
  have hstay : ∀ pool' : Pool, pool'.store = pool.store →
      pool'.claims = pool.claims → pool'.starts = pool.starts →
      Moves pow pool e pool' := fun pool' hstore hclaims hstarts =>
    .quiet (congrArg jobs hstore) hclaims hstarts
  cases hat : clock.at_ with
  | none =>
    refine hstay _ ?_ rfl rfl
    simp only [fail, handleFailure, hat]
  | some ms =>
    have hstore : (pool.fail pow i c error clock).store
        = (pool.store.markFailed c.job.id c.worker.workerId
            ⟨c.job.attempts, ms, error.message, error.stack⟩
            (retryTime pow c.job error clock.base) clock.now).1 := by
      simp only [fail, handleFailure, hat]
      split
      · rename_i heq
        rw [heq]
      rename_i heq
      rw [heq]
    rcases pool.store.markFailed_cases c.job.id c.worker.workerId
        ⟨c.job.attempts, ms, error.message, error.stack⟩
        (retryTime pow c.job error clock.base) clock.now
      with ⟨at_, now, job, hheld, hretry, heq⟩ | heq
    · refine .failed i c job error _ at_ now hevent hclaim hheld ?_
        (congrArg jobs (hstore.trans heq)) rfl rfl
      intro hat_
      by_contra hno
      rw [retryTime, if_neg hno] at hretry
      cases at_ with
      | none => exact hat_ rfl
      | some ms' => cases hretry
    · exact hstay _ (hstore.trans heq) rfl rfl

theorem moves_handled {i : Nat} {c : Claim} (outcome : Outcome)
    (clock : Clock) (hclaim : pool.claims[i]? = some c) (hphase : pool.phase i = .handling) :
    Moves pow pool (.handled i outcome clock) (pool.handled pow i c outcome clock) := by
  cases outcome with
  | threw error => exact moves_fail pow pool hclaim (.inl ⟨clock, rfl, hphase⟩)
  | returned result =>
    rw [Pool.handled]
    rcases pool.store.markSucceeded_cases c.job.id c.worker.workerId result
        clock.done with ⟨ms, job, hheld, heq⟩ | heq
    · simp only [heq, succeed]
      cases himage : result.resultImage with
      | error message => exact .halfSucceeded c job message hclaim hphase hheld himage rfl rfl rfl
      | ok value => exact .succeeded c job value ms hclaim hphase hheld himage rfl rfl rfl
    split
    · rename_i hmark
      rw [hmark] at heq
      exact .quiet (congrArg jobs heq) rfl rfl
    rename_i hmark
    rw [hmark] at heq
    exact .quiet (congrArg jobs heq) rfl rfl

theorem moves_step (e : Event) : Moves pow pool e (pool.step pow e) := by
  cases e with
  | enqueue call => exact moves_enqueue pow pool call
  | runOnce w now => exact moves_runOnce pow pool w now
  | handled i outcome clock =>
    rw [step]
    split
    · rename_i c hclaim hphase
      exact moves_handled pow pool outcome clock hclaim hphase
    · exact .quiet rfl rfl rfl
  | caught i clock =>
    rw [step]
    split
    · rename_i c error hclaim hphase
      exact moves_fail pow pool hclaim (.inr ⟨clock, rfl, hphase⟩)
    · exact .quiet rfl rfl rfl
  | requeueDead id now =>
    rw [step]
    rcases pool.store.requeueDead_cases id now with ⟨ms, job, hfound, hdead, heq⟩ | ⟨hsame, hnone⟩
    · rw [heq]
      exact .requeued job ms hfound hdead rfl rfl rfl
    split
    · rename_i s job heq
      exact absurd (congrArg Prod.snd heq) (hnone job)
    rename_i heq
    rw [heq] at hsame
    exact .quiet (congrArg jobs hsame) rfl rfl

end Moves

end Pool

end Jobs

import Inqutum.JobBudgetProofs

/-!
# Leases as fences

A completion is accepted if the job is running and held by the worker that
completes.  The worker's id is all that is compared, so a claim whose
lease lapsed is turned away unless the same worker holds the job again,
under a later claim.

In the runs of `lease_fencing` no worker completes an earlier claim of a
job that it holds under a later one, every lease ends at an instant, and
every result can be written.
-/

namespace Jobs

open MemoryJobStore Pool
open Transition (Along)
open Option

/-! ## The properties -/

/-- The claim that an event completes, with its position. -/
def Pool.completes (pool : Pool) : Event → Option (Nat × Claim)
  | .handled i _ _ =>
    match pool.phase i with
    | .handling => pool.claims[i]?.map (fun c => (i, c))
    | _ => none
  | .caught i _ =>
    match pool.phase i with
    | .failing _ => pool.claims[i]?.map (fun c => (i, c))
    | _ => none
  | _ => none

/-- The completion of a claim that was superseded changes no job. -/
def LateIsIgnored (pow : JsNumber → Nat → JsNumber) (pool : Pool) (e : Event) : Prop :=
  ∀ done ∈ pool.completes e, Superseded pool.claims done.1 done.2.job.id →
    (pool.step pow e).store.jobs = pool.store.jobs

/-- A succeeded job stays as it is. -/
def KeepsSucceeded (pow : JsNumber → Nat → JsNumber) (pool : Pool) (e : Event) : Prop :=
  ∀ id job, pool.store.jobs.get id = some job → job.status = .succeeded →
    (pool.step pow e).store.jobs.get id = some job

/-- The lock and the completion time of a job agree with its status. -/
structure Consistent (job : Job) : Prop where
  lockedBy : job.lockedBy ≠ none ↔ job.status = .running
  lockedUntil : job.lockedUntil ≠ none ↔ job.status = .running
  completedAt : job.completedAt ≠ none ↔ job.status = .succeeded ∨ job.status = .dead

/-! ## The conditions -/

/-- The id that `uuidv4` returns is not in use. -/
def FreshId (pool : Pool) : Event → Prop
  | .enqueue call => pool.store.jobs.get call.uuid = none
  | _ => True

/-- The claim that completes is the last of its job, or its worker does not
    hold the job. -/
def CompletesInTime (pool : Pool) (e : Event) : Prop :=
  ∀ done ∈ pool.completes e, Superseded pool.claims done.1 done.2.job.id →
    pool.store.heldJob done.2.job.id done.2.worker.workerId = none

/-- A claim computes an instant, and a result that is to be stored has a
    text. -/
def Representable (pool : Pool) : Event → Prop
  | .runOnce w now => ∀ taken ∈ w.takes pool.store now,
      dateOf (JsNumber.add (.finite taken.1) w.leaseMs) ≠ none
  | .handled i (.returned result) clock =>
    ∀ done ∈ pool.completes (.handled i (.returned result) clock),
      ∀ _job ∈ pool.store.heldJob done.2.job.id done.2.worker.workerId,
        result.resultImage.isOk = true
  | _ => True

/-! ## One step -/

section Step

variable {pow : JsNumber → Nat → JsNumber} {pool pool' : Pool} {e : Event} {clock : Clock}
  {c : Claim} {job : Job} {i : Nat}

theorem completes_handled {outcome : Outcome} (hclaim : pool.claims[i]? = some c)
    (hphase : pool.phase i = .handling) :
    pool.completes (.handled i outcome clock) = some (i, c) := by
  rw [Pool.completes, hphase]
  simp only [hclaim, map_some]

theorem completes_caught {error : HandlerError} (hclaim : pool.claims[i]? = some c)
    (hphase : pool.phase i = .failing error) : pool.completes (.caught i clock) = some (i, c) := by
  rw [Pool.completes, hphase]
  simp only [hclaim, map_some]

/-- **LATE COMPLETIONS**: one that completes in time, or holds nothing, leaves
    the jobs alone. -/
theorem lateIsIgnored_of_inTime (h : CompletesInTime pool e) : LateIsIgnored pow pool e := by
  rintro ⟨i, c⟩ hdone hsuper
  have hnone := h (i, c) hdone hsuper
  -- any move that changes a job needs the worker of the claim to hold it
  have hno : ∀ (i' : Nat) (c' : Claim) (job : Job), pool.completes e = some (i', c') →
      pool.store.heldJob c'.job.id c'.worker.workerId = some job → False := by
    intro i' c' job hcomp hheld
    rw [hdone] at hcomp
    obtain ⟨-, rfl⟩ := Prod.mk.inj (some.inj hcomp)
    cases hnone.symm.trans hheld
  have hmoves := moves_step pow pool e
  generalize pool.step pow e = pool' at hmoves
  cases hmoves with
  | quiet jobs => exact jobs
  | created job built valid puts claims starts => cases hdone
  | claimed ms job leaseEnd taken lease puts claims starts => cases hdone
  | halfClaimed ms job taken lease puts claims starts => cases hdone
  | succeeded c' job value ms claim phase held image puts claims starts =>
    exact (hno _ c' job (completes_handled claim phase) held).elim
  | halfSucceeded c' job message claim phase held image puts claims starts =>
    exact (hno _ c' job (completes_handled claim phase) held).elim
  | failed i' c' job error record at_ ms event claim held again puts claims starts =>
    rcases event with ⟨clock, rfl, hphase⟩ | ⟨clock, rfl, hphase⟩
    · exact (hno _ c' job (completes_handled claim hphase) held).elim
    · exact (hno _ c' job (completes_caught claim hphase) held).elim
  | requeued job ms found dead puts claims starts => cases hdone

theorem get_of_puts (hputs : Puts pool pool' job)
    (hold : ∀ old, pool.store.jobs.get job.id = some old →
      old.status ≠ .succeeded) {id : String} {other : Job}
    (hget : pool.store.jobs.get id = some other) (hstatus : other.status = .succeeded) :
    pool'.store.jobs.get id = some other := by
  rw [hputs.get]
  by_cases hid : job.id = id
  · rw [← hid] at hget
    exact absurd hstatus (hold other hget)
  rw [if_neg hid]
  exact hget

/-- **SUCCEEDED JOBS**: none is changed, as long as ids are fresh. -/
theorem keepsSucceeded_of_fresh (h : FreshId pool e) : KeepsSucceeded pow pool e := by
  intro id other hget hstatus
  -- the job that a completion replaces is running
  have hheldold : ∀ {c : Claim} {job : Job},
      pool.store.heldJob c.job.id c.worker.workerId = some job → ∀ old,
      pool.store.jobs.get job.id = some old → old.status ≠ .succeeded := by
    intro c job hheld old hold hsucc
    obtain ⟨hfound, hrunning, -⟩ := heldJob_eq_some.mp hheld
    rw [pool.store.keyed _ job hfound, hfound] at hold
    rw [← some.inj hold, hrunning] at hsucc
    cases hsucc
  have htakenold : ∀ {w : JobWorker} {now : Date} {ms : Int} {job : Job},
      w.takes pool.store now = some (ms, job) → ∀ old,
      pool.store.jobs.get job.id = some old → old.status ≠ .succeeded := by
    intro w now ms job htaken old hold hsucc
    obtain ⟨hfound, hdue⟩ := JobWorker.takes_spec htaken
    rw [hfound] at hold
    rw [← some.inj hold] at hsucc
    rcases hdue with hdue | hdue
    · cases hdue.symm.trans hsucc
    · cases hdue.symm.trans hsucc
  have hmoves := moves_step pow pool e
  generalize pool.step pow e = pool' at hmoves
  cases hmoves with
  | quiet jobs =>
    rw [jobs]
    exact hget
  | @created call _ job built valid puts claims starts =>
    refine get_of_puts puts ?_ hget hstatus
    intro old hold
    rw [show job.clone.id = job.id from rfl, (EnqueueCall.job_fresh built).1, h] at hold
    cases hold
  | claimed ms job leaseEnd taken lease puts claims starts =>
    exact get_of_puts puts (fun old => htakenold taken old) hget hstatus
  | halfClaimed ms job taken lease puts claims starts =>
    exact get_of_puts puts (fun old => htakenold taken old) hget hstatus
  | succeeded c job value ms claim phase held image puts claims starts =>
    exact get_of_puts puts (fun old => hheldold held old) hget hstatus
  | halfSucceeded c job message claim phase held image puts claims starts =>
    exact get_of_puts puts (fun old => hheldold held old) hget hstatus
  | failed i c job error record at_ ms event claim held again puts claims starts =>
    have hid : (failedJob job record at_ ms).id = job.id := by
      cases at_ <;> rfl
    refine get_of_puts puts ?_ hget hstatus
    rw [hid]
    exact hheldold held
  | requeued job ms found dead puts claims starts =>
    refine get_of_puts puts ?_ hget hstatus
    intro old hold hsucc
    rw [show (requeuedJob job ms).id = job.id from rfl, pool.store.keyed _ job found, found] at hold
    rw [← some.inj hold, dead] at hsucc
    cases hsucc

theorem consistent_of_puts (hputs : Puts pool pool' job)
    (h : ∀ id job, pool.store.jobs.get id = some job → Consistent job)
    (hjob : Consistent job) (id : String) (other : Job)
    (hget : pool'.store.jobs.get id = some other) : Consistent other := by
  rw [hputs.get] at hget
  by_cases hid : job.id = id
  · rw [if_pos hid] at hget
    cases hget
    exact hjob
  rw [if_neg hid] at hget
  exact h id other hget

/-- **CONSISTENCY**: a step whose instants and results are representable keeps
    every job consistent. -/
theorem consistent_step (h : ∀ id job, pool.store.jobs.get id = some job →
      Consistent job) (hrep : Representable pool e) :
    ∀ id job, (pool.step pow e).store.jobs.get id = some job → Consistent job := by
  have hmoves := moves_step pow pool e
  generalize pool.step pow e = pool' at hmoves
  cases hmoves with
  | quiet jobs =>
    rw [jobs]
    exact h
  | created job built valid puts claims starts =>
    obtain ⟨-, hstatus, -, hby, huntil, hdone⟩ := EnqueueCall.job_fresh built
    refine consistent_of_puts puts h ⟨?_, ?_, ?_⟩
    · simp [Job.clone, hstatus, hby]
    · simp [Job.clone, hstatus, huntil]
    · simp [Job.clone, hstatus, hdone]
  | claimed ms job leaseEnd taken lease puts claims starts =>
    obtain ⟨hfound, hdue⟩ := JobWorker.takes_spec taken
    have hold := (h _ job hfound).completedAt
    refine consistent_of_puts puts h ⟨?_, ?_, ?_⟩
    · simp [claimedJob, takenJob]
    · simp [claimedJob, takenJob]
    show job.completedAt ≠ none ↔ _
    rw [hold]
    rcases hdue with hdue | hdue
    · simp [claimedJob, takenJob, hdue]
    · simp [claimedJob, takenJob, hdue]
  | halfClaimed ms job taken lease puts claims starts => exact absurd lease (hrep (ms, job) taken)
  | succeeded c job value ms claim phase held image puts claims starts =>
    refine consistent_of_puts puts h ⟨?_, ?_, ?_⟩
    · simp [succeededJob]
    · simp [succeededJob]
    · simp [succeededJob]
  | halfSucceeded c job message claim phase held image puts claims starts =>
    have hok := hrep (_, c) (completes_handled claim phase) job held
    rw [image] at hok
    cases hok
  | failed i c job error record at_ ms event claim held again puts claims starts =>
    obtain ⟨hfound, hrunning, -⟩ := heldJob_eq_some.mp held
    have hold := (h _ job hfound).completedAt
    refine consistent_of_puts puts h ?_
    cases at_ with
    | none =>
      refine ⟨?_, ?_, ?_⟩
      · simp [failedJob]
      · simp [failedJob]
      · simp [failedJob]
    | some retry =>
      refine ⟨?_, ?_, ?_⟩
      · simp [failedJob]
      · simp [failedJob]
      show job.completedAt ≠ none ↔ _
      rw [hold, hrunning]
      simp [failedJob]
  | requeued job ms found dead puts claims starts =>
    have hold := h _ job found
    refine consistent_of_puts puts h ⟨?_, ?_, ?_⟩
    · show job.lockedBy ≠ none ↔ _
      rw [hold.lockedBy, dead]
      simp [requeuedJob]
    · show job.lockedUntil ≠ none ↔ _
      rw [hold.lockedUntil, dead]
      simp [requeuedJob]
    · simp [requeuedJob]

end Step

/-! ## Whole runs -/

/-- **LEASE FENCING**: over every run with fresh ids in which no worker
    completes an earlier claim of a job it holds under a later one, and every
    lease end and every result is representable. -/
theorem lease_fencing (pow : JsNumber → Nat → JsNumber) (events : List Event)
    (hfresh : Along (Pool.step pow) FreshId Pool.empty events)
    (htime : Along (Pool.step pow) CompletesInTime Pool.empty events)
    (hrep : Along (Pool.step pow) Representable Pool.empty events) :
    Along (Pool.step pow) (fun pool e => LateIsIgnored pow pool e
        ∧ KeepsSucceeded pow pool e) Pool.empty events
    ∧ ∀ id job, (Pool.empty.run pow events).store.jobs.get id = some job →
        Consistent job := by
  constructor
  · refine Along.imp (I := fun _ => True) ?_ trivial (hfresh.and htime)
    rintro pool e - ⟨hid, hin⟩
    exact ⟨⟨lateIsIgnored_of_inTime hin, keepsSucceeded_of_fresh hid⟩, trivial⟩
  refine Along.invariant (I := fun pool => ∀ id job,
    pool.store.jobs.get id = some job → Consistent job) ?_ ?_ hrep
  · intro pool e hall hstep
    exact consistent_step hall hstep
  intro id job hget
  cases hget

instance (pool : Pool) : (e : Event) → Decidable (FreshId pool e)
  | .enqueue call => inferInstanceAs (Decidable (pool.store.jobs.get call.uuid = none))
  | .runOnce _ _ => inferInstanceAs (Decidable True)
  | .handled _ _ _ => inferInstanceAs (Decidable True)
  | .caught _ _ => inferInstanceAs (Decidable True)
  | .requeueDead _ _ => inferInstanceAs (Decidable True)

instance (pool : Pool) (e : Event) : Decidable (CompletesInTime pool e) :=
  inferInstanceAs (Decidable (∀ done ∈ pool.completes e, _))

instance (pool : Pool) : (e : Event) → Decidable (Representable pool e)
  | .enqueue _ => inferInstanceAs (Decidable True)
  | .runOnce w now => inferInstanceAs (Decidable (∀ taken ∈ w.takes pool.store now, _))
  | .handled i (.returned result) clock => inferInstanceAs (Decidable
      (∀ done ∈ pool.completes (.handled i (.returned result) clock), _))
  | .handled _ (.threw _) _ => inferInstanceAs (Decidable True)
  | .caught _ _ => inferInstanceAs (Decidable True)
  | .requeueDead _ _ => inferInstanceAs (Decidable True)

/-- Two claims of one job, the second after the lease of the first; the first
    completes late. -/
def lateEvents (first second : String) : List Event :=
  [.enqueue (sampleCall 3), .runOnce (sampleWorker first) (some 0),
    .runOnce (sampleWorker second) (some 60000),
    .handled 0 (.returned .undefined) (sampleClock 60001)]

/-- Another worker took the job over: the late completion is ignored. -/
theorem lease_fencing_two_workers :
    Along (Pool.step powByMul) FreshId Pool.empty (lateEvents "w" "v")
    ∧ Along (Pool.step powByMul) CompletesInTime Pool.empty (lateEvents "w" "v")
    ∧ Along (Pool.step powByMul) Representable Pool.empty (lateEvents "w" "v")
    ∧ Along (Pool.step powByMul) (fun pool e => LateIsIgnored powByMul pool e
        ∧ KeepsSucceeded powByMul pool e) Pool.empty (lateEvents "w" "v") := by
  have hfresh : Along (Pool.step powByMul) FreshId Pool.empty
      (lateEvents "w" "v") := by decide +kernel
  have htime : Along (Pool.step powByMul) CompletesInTime Pool.empty
      (lateEvents "w" "v") := by decide +kernel
  have hrep : Along (Pool.step powByMul) Representable Pool.empty
      (lateEvents "w" "v") := by decide +kernel
  exact ⟨hfresh, htime, hrep, (lease_fencing powByMul (lateEvents "w" "v") hfresh htime hrep).1⟩

/-- The state before the late completion. -/
def reclaimedPool (first second : String) : Pool :=
  Pool.empty.run powByMul ((lateEvents first second).take 3)

/-- The same worker claimed the job again: the completion of its first claim
    ends the job while the second attempt runs. -/
theorem same_worker_not_fenced : Superseded (reclaimedPool "w" "w").claims 0 "j"
    ∧ (∃ job, (reclaimedPool "w" "w").store.jobs.get "j" = some job
      ∧ job.status = .running ∧ job.attempts = 2)
    ∧ (∃ job, ((reclaimedPool "w" "w").step powByMul (.handled 0
          (.returned .undefined) (sampleClock 60001))).store.jobs.get "j"
        = some job ∧ job.status = .succeeded)
    ∧ ¬ LateIsIgnored powByMul (reclaimedPool "w" "w") (.handled 0
        (.returned .undefined) (sampleClock 60001)) := by
  have hsuper : Superseded (reclaimedPool "w" "w").claims 0 "j" := by decide +kernel
  have hbefore : ((reclaimedPool "w" "w").store.jobs.get "j").map
      (fun job => (job.status, job.attempts)) = some (.running, 2) := by
    decide +kernel
  have hafter : (((reclaimedPool "w" "w").step powByMul (.handled 0
      (.returned .undefined) (sampleClock 60001))).store.jobs.get "j").map
      Job.status = some .succeeded := by decide +kernel
  have hdone : ((reclaimedPool "w" "w").completes (.handled 0
      (.returned .undefined) (sampleClock 60001))).map
      (fun done => (done.1, done.2.job.id)) = some (0, "j") := by
    decide +kernel
  obtain ⟨old, hold, hpair⟩ := map_eq_some_iff.mp hbefore
  obtain ⟨hrunning, hattempts⟩ := Prod.mk.inj hpair
  obtain ⟨new, hnew, hsucceeded⟩ := map_eq_some_iff.mp hafter
  obtain ⟨⟨i, c⟩, hcomp, hclaim⟩ := map_eq_some_iff.mp hdone
  obtain ⟨rfl, hid⟩ := Prod.mk.inj hclaim
  refine ⟨hsuper, ⟨old, hold, hrunning, hattempts⟩, ⟨new, hnew, hsucceeded⟩, ?_⟩
  intro hignored
  have hsame := hignored (_, c) hcomp (by rw [hid]; exact hsuper)
  rw [hsame, hold] at hnew
  rw [← some.inj hnew, hrunning] at hsucceeded
  cases hsucceeded

end Jobs

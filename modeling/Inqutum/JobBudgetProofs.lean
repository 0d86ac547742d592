import Inqutum.JobWorkerProofs

/-!
# The attempt budget of a job

A retry policy allows a number of attempts, the first included.  A failed
claim is queued again only if the attempts it knows of are below that
number.  Two paths start a handler on other terms: a claim that takes over
a lapsed lease asks for no budget at all, and a claim that fails after its
job was claimed again counts the attempts as they were when it began.

`attempt_budget` says that in every run in which these two find some
budget left, no handler is started more often than the policy allows.
-/

namespace Jobs

open MemoryJobStore Pool
open Transition (Along)
open List Function JsNumber Pool

/-- A claim that fails late, to be tried again, finds budget left in the job
    that its worker holds. -/
def LateFailureFinds (pool : Pool) (i : Nat) (error : HandlerError) : Prop :=
  ∀ c ∈ pool.claims[i]?, Superseded pool.claims i c.job.id → retryable c.job error = true →
    ∀ job ∈ pool.store.heldJob c.job.id c.worker.workerId, exhausted job = false

/-- The event finds budget left where the code does not look. -/
def FindsBudget (pool : Pool) : Event → Prop
  | .runOnce w now => ∀ taken ∈ w.takes pool.store now,
      taken.2.status = .running → exhausted taken.2 = false
  | .handled i (.threw error) _ => LateFailureFinds pool i error
  | .caught i _ =>
    match pool.phase i with
    | .failing error => LateFailureFinds pool i error
    | _ => True
  | _ => True

/-! ## The invariant -/

/-- The last claim of a running job is the one that holds it. -/
def HeldByLast (claims : List Claim) (job : Job) : Prop :=
  ∃ before c after, claims = before ++ c :: after ∧ (∀ c' ∈ after, c'.job.id ≠ job.id)
    ∧ c.job.id = job.id ∧ c.job.attempts = job.attempts
    ∧ c.job.retryPolicy = job.retryPolicy
    ∧ job.lockedBy = some c.worker.workerId

/-- What holds of a stored job whose handler was started `starts` times. -/
structure JobBudgeted (claims : List Claim) (starts : Nat) (job : Job) : Prop where
  policy : isPositiveInteger job.retryPolicy.maxAttempts = true
  waiting : job.status = .queued → exhausted job = false
  within : le (ofNat job.attempts) job.retryPolicy.maxAttempts = true
  counted : starts ≤ job.attempts
  held : job.status = .running → HeldByLast claims job

def Budgeted (pool : Pool) : Prop :=
  ∀ id job, pool.store.jobs.get id = some job → JobBudgeted pool.claims (pool.starts id) job

section Arithmetic

variable {n : JsNumber} {a : Nat}

theorem isPositiveInteger_cases (h : isPositiveInteger n = true) :
    ∃ k : Nat, 1 ≤ k ∧ n = ofNat k := by
  rw [isPositiveInteger, Bool.and_eq_true] at h
  cases n with
  | finite q =>
    obtain ⟨hint, hle⟩ := h
    have hden : q.den = 1 := of_decide_eq_true hint
    have hpos : (1 : ℚ) ≤ q := by
      have := of_decide_eq_true hle
      simpa using this
    have hnum : q = (q.num : ℚ) := (Rat.coe_int_num_of_den_eq_one hden).symm
    have hone : 1 ≤ q.num := by
      rw [hnum] at hpos
      exact_mod_cast hpos
    refine ⟨q.num.toNat, by omega, ?_⟩
    rw [ofNat]
    congr 1
    rw [hnum, Rat.num_intCast]
    have := Int.toNat_of_nonneg (show 0 ≤ q.num by omega)
    exact_mod_cast this.symm
  | posInf => cases h.1
  | negInf => cases h.1
  | nan => cases h.1

end Arithmetic

theorem within_of_not_exhausted {job : Job}
    (hpolicy : isPositiveInteger job.retryPolicy.maxAttempts = true) (h : exhausted job = false) :
    le (ofNat (job.attempts + 1)) job.retryPolicy.maxAttempts = true := by
  obtain ⟨k, -, hk⟩ := isPositiveInteger_cases hpolicy
  rw [exhausted, hk, le_ofNat, decide_eq_false_iff_not] at h
  rw [hk, le_ofNat, decide_eq_true_eq]
  omega

section Claims

variable {claims : List Claim} {job : Job} {c : Claim} {i : Nat}

/-- The last claim of a job has its attempts and its policy. -/
theorem HeldByLast.claim_eq (h : HeldByLast claims job)
    (hclaim : claims[i]? = some c) (hid : c.job.id = job.id)
    (hlast : ¬ Superseded claims i c.job.id) :
    c.job.attempts = job.attempts ∧ c.job.retryPolicy = job.retryPolicy := by
  obtain ⟨before, c₀, after, rfl, hafter, hid₀, hattempts, hpolicy, -⟩ := h
  rcases Nat.lt_trichotomy i before.length with hlt | heq | hgt
  · refine absurd ⟨c₀, ?_, hid₀.trans hid.symm⟩ hlast
    rw [drop_append_of_le_length (by omega)]
    exact mem_append_right _ (.head _)
  · subst heq
    rw [getElem?_append_right (Nat.le_refl _), Nat.sub_self, getElem?_cons_zero] at hclaim
    cases hclaim
    exact ⟨hattempts, hpolicy⟩
  obtain ⟨k, hk⟩ : ∃ k, i - before.length = k + 1 := ⟨i - before.length - 1, by omega⟩
  rw [getElem?_append_right (by omega), hk, getElem?_cons_succ] at hclaim
  exact absurd hid (hafter c (mem_of_getElem? hclaim))

/-- Claims of other jobs do not matter. -/
theorem HeldByLast.append {extra : List Claim} (h : HeldByLast claims job)
    (hextra : ∀ c ∈ extra, c.job.id ≠ job.id) : HeldByLast (claims ++ extra) job := by
  obtain ⟨before, c, after, rfl, hafter, hrest⟩ := h
  refine ⟨before, c, after ++ extra, by simp, ?_, hrest⟩
  intro c' hmem
  rcases mem_append.mp hmem with hmem | hmem
  · exact hafter c' hmem
  · exact hextra c' hmem

/-- A new claim is the last one. -/
theorem heldByLast_new (claims : List Claim) {w : JobWorker} {job : Job}
    (h : job.lockedBy = some w.workerId) : HeldByLast (claims ++ [⟨w, job⟩]) job :=
  ⟨claims, ⟨w, job⟩, [], rfl, (fun _ h => nomatch h), rfl, rfl, rfl, h⟩

end Claims

/-! ## One step -/

section Step

variable {pow : JsNumber → Nat → JsNumber} {pool pool' : Pool} {job : Job}

theorem Budgeted.put (extra : List Claim) (h : Budgeted pool)
    (hputs : Puts pool pool' job) (hclaims : pool'.claims = pool.claims ++ extra)
    (hextra : ∀ c ∈ extra, c.job.id = job.id)
    (hstarts : ∀ id, id ≠ job.id → pool'.starts id = pool.starts id)
    (hjob : JobBudgeted pool'.claims (pool'.starts job.id) job) : Budgeted pool' := by
  intro id other hget
  rw [hputs.get] at hget
  by_cases hid : job.id = id
  · rw [if_pos hid] at hget
    rw [← Option.some.inj hget, ← hid]
    exact hjob
  rw [if_neg hid] at hget
  have hother := h id other hget
  rw [hclaims, hstarts id (Ne.symm hid)]
  refine ⟨hother.policy, hother.waiting, hother.within, hother.counted, ?_⟩
  intro hrunning
  refine (hother.held hrunning).append ?_
  intro c hc heq
  rw [hextra c hc, pool.store.keyed id other hget] at heq
  exact hid heq

theorem Budgeted.put_unclaimed (h : Budgeted pool)
    (hputs : Puts pool pool' job) (hclaims : pool'.claims = pool.claims)
    (hstarts : ∀ id, id ≠ job.id → pool'.starts id = pool.starts id)
    (hjob : JobBudgeted pool.claims (pool'.starts job.id) job) : Budgeted pool' := by
  refine h.put [] hputs ?_ (fun _ hc => nomatch hc) hstarts ?_
  · rw [hclaims, append_nil]
  rw [hclaims]
  exact hjob

theorem Budgeted.put_restarted (h : Budgeted pool) (hputs : Puts pool pool' job)
    (hclaims : pool'.claims = pool.claims)
    (hstarts : pool'.starts = Function.update pool.starts job.id 0)
    (hjob : JobBudgeted pool.claims 0 job) : Budgeted pool' := by
  refine h.put_unclaimed hputs hclaims ?_ ?_
  · intro id hne
    rw [hstarts]
    exact update_of_ne hne _ _
  rw [hstarts, update_self]
  exact hjob

variable {error : HandlerError} {starts : Nat} {job' : Job} {e : Event} {claims : List Claim}
  {i : Nat}

theorem JobBudgeted.taken (h : JobBudgeted claims starts job) (hleft : exhausted job = false)
    {claims' : List Claim} {starts' : Nat} (hpolicy : job'.retryPolicy = job.retryPolicy)
    (hattempts : job'.attempts = job.attempts + 1)
    (hstatus : job'.status = .running) (hcounted : starts' ≤ starts + 1)
    (hheld : HeldByLast claims' job') : JobBudgeted claims' starts' job' where
  policy := by rw [hpolicy]; exact h.policy
  waiting hqueued := by
    rw [hstatus] at hqueued
    cases hqueued
  within := by
    rw [hpolicy, hattempts]
    exact within_of_not_exhausted h.policy hleft
  counted := by
    have := h.counted
    omega
  held _ := hheld

/-- A completion uses none. -/
theorem JobBudgeted.released (h : JobBudgeted claims starts job)
    (hpolicy : job'.retryPolicy = job.retryPolicy) (hattempts : job'.attempts = job.attempts)
    (hstatus : job'.status ≠ .running) (hwaiting : job'.status = .queued → exhausted job = false) :
    JobBudgeted claims starts job' where
  policy := by rw [hpolicy]; exact h.policy
  waiting hqueued := by
    rw [exhausted, hpolicy, hattempts]
    exact hwaiting hqueued
  within := by rw [hpolicy, hattempts]; exact h.within
  counted := by rw [hattempts]; exact h.counted
  held hrunning := absurd hrunning hstatus

theorem jobBudgeted_fresh (hpolicy : isPositiveInteger job.retryPolicy.maxAttempts = true)
    (hstatus : job.status = .queued) (hattempts : job.attempts = 0) : JobBudgeted claims 0 job := by
  obtain ⟨k, hk, hmax⟩ := isPositiveInteger_cases hpolicy
  refine ⟨hpolicy, ?_, ?_, Nat.zero_le _, ?_⟩
  · intro _
    rw [exhausted, hmax, hattempts, le_ofNat, decide_eq_false_iff_not]
    omega
  · rw [hmax, hattempts, le_ofNat, decide_eq_true_eq]
    omega
  intro hrunning
  rw [hstatus] at hrunning
  cases hrunning

theorem policy_clone {job : Job} (h : isPositiveInteger job.retryPolicy.maxAttempts = true) :
    isPositiveInteger job.clone.retryPolicy.maxAttempts = true := by
  obtain ⟨k, -, hmax⟩ := isPositiveInteger_cases h
  show isPositiveInteger (throughJson job.retryPolicy.maxAttempts) = true
  rw [hmax] at h ⊢
  exact h

theorem Budgeted.of_held {id workerId : String} (h : Budgeted pool)
    (hheld : pool.store.heldJob id workerId = some job) :
    JobBudgeted pool.claims (pool.starts job.id) job := by
  obtain ⟨hfound, -⟩ := heldJob_eq_some.mp hheld
  rw [pool.store.keyed id job hfound]
  exact h id job hfound

theorem not_exhausted_of_takes {w : JobWorker} {now : Date} {ms : Int}
    (h : Budgeted pool) (hfinds : FindsBudget pool (.runOnce w now))
    (htaken : w.takes pool.store now = some (ms, job)) : exhausted job = false := by
  obtain ⟨hfound, hqueued | hrunning⟩ := JobWorker.takes_spec htaken
  · exact (h job.id job hfound).waiting hqueued
  · exact hfinds (ms, job) htaken hrunning

/-- A failure that is to be tried again finds budget left: the claim is the
    one that holds the job, or it is late. -/
theorem not_exhausted_of_retry {c : Claim}
    (h : Budgeted pool) (hlate : LateFailureFinds pool i error) (hclaim : pool.claims[i]? = some c)
    (hheld : pool.store.heldJob c.job.id c.worker.workerId = some job)
    (hretry : retryable c.job error = true) : exhausted job = false := by
  obtain ⟨hfound, hrunning, -⟩ := heldJob_eq_some.mp hheld
  by_cases hsuper : Superseded pool.claims i c.job.id
  · exact hlate c hclaim hsuper hretry job hheld
  have hid := pool.store.keyed c.job.id job hfound
  obtain ⟨hattempts, hpolicy⟩ := ((h c.job.id job hfound).held
    hrunning).claim_eq hclaim hid.symm hsuper
  rw [retryable, Bool.and_eq_true] at hretry
  have hown : exhausted c.job = false := by simpa using hretry.2
  rw [exhausted, ← hattempts, ← hpolicy]
  exact hown

theorem late_of_failed (hfinds : FindsBudget pool e)
    (hevent : (∃ clock, e = .handled i (.threw error) clock ∧ pool.phase i = .handling) ∨
      ∃ clock, e = .caught i clock ∧ pool.phase i = .failing error) :
    LateFailureFinds pool i error := by
  rcases hevent with ⟨clock, rfl, -⟩ | ⟨clock, rfl, hphase⟩
  · exact hfinds
  rw [FindsBudget, hphase] at hfinds
  exact hfinds

/-- **ONE STEP**: an event that finds budget left where the code does not look
    keeps the invariant. -/
theorem Budgeted.step (h : Budgeted pool)
    (hfinds : FindsBudget pool e) : Budgeted (pool.step pow e) := by
  have hmoves := moves_step pow pool e
  generalize pool.step pow e = pool' at hmoves
  cases hmoves with
  | quiet jobs claims starts =>
    intro id job hget
    rw [jobs] at hget
    rw [claims, starts]
    exact h id job hget
  | created job built valid puts claims starts =>
    refine h.put_restarted puts claims starts ?_
    obtain ⟨-, hstatus, hattempts, -⟩ := EnqueueCall.job_fresh built
    exact jobBudgeted_fresh (policy_clone (maxAttempts_of_validateJob valid)) hstatus hattempts
  | claimed ms job leaseEnd taken lease puts claims starts =>
    have hfound := (JobWorker.takes_spec taken).1
    refine h.put _ puts claims ?_ ?_ ?_
    · intro c hc
      rw [mem_singleton.mp hc]
    · intro id hne
      rw [starts]
      exact update_of_ne hne _ _
    refine (h job.id job hfound).taken (not_exhausted_of_takes h hfinds taken) rfl rfl rfl ?_ ?_
    · rw [starts]
      show Function.update pool.starts job.id _ job.id ≤ _
      rw [update_self]
    rw [claims]
    exact heldByLast_new _ rfl
  | halfClaimed ms job taken lease puts claims starts =>
    have hfound := (JobWorker.takes_spec taken).1
    refine h.put _ puts claims ?_ ?_ ?_
    · intro c hc
      rw [mem_singleton.mp hc]
    · intro id _
      rw [starts]
    refine (h job.id job hfound).taken (not_exhausted_of_takes h hfinds taken) rfl rfl rfl ?_ ?_
    · rw [starts]
      exact Nat.le_succ _
    rw [claims]
    exact heldByLast_new _ rfl
  | succeeded c job value ms claim phase held image puts claims starts =>
    refine h.put_unclaimed puts claims (fun id _ => by rw [starts]) ?_
    rw [starts]
    exact (h.of_held held).released rfl rfl (fun hrun => nomatch hrun)
      (fun hqueued => nomatch hqueued)
  | halfSucceeded c job message claim phase held image puts claims starts =>
    refine h.put_unclaimed puts claims (fun id _ => by rw [starts]) ?_
    rw [starts]
    exact (h.of_held held).released rfl rfl (fun hrun => nomatch hrun)
      (fun hqueued => nomatch hqueued)
  | failed i c job error record at_ ms event claim held again puts claims starts =>
    refine h.put_unclaimed puts claims (fun id _ => by rw [starts]) ?_
    rw [starts]
    cases at_ with
    | none =>
      exact (h.of_held held).released rfl rfl (fun hrun => nomatch hrun)
        (fun hqueued => nomatch hqueued)
    | some retry =>
      refine (h.of_held held).released rfl rfl (fun hrun => nomatch hrun) (fun _ => ?_)
      exact not_exhausted_of_retry h (late_of_failed hfinds event) claim
        held (again (Option.some_ne_none _))
  | requeued job ms found dead puts claims starts =>
    refine h.put_restarted puts claims starts ?_
    exact jobBudgeted_fresh (h _ job found).policy rfl rfl

end Step

/-- No job has been started yet. -/
theorem budgeted_empty : Budgeted empty :=
  fun _ _ hget => nomatch hget

/-- **THE ATTEMPT BUDGET**: in every run in which a claim that takes over a
    lapsed lease, and a late failure that queues a job again, find budget
    left, no handler is started more often than its policy allows. -/
theorem attempt_budget (pow : JsNumber → Nat → JsNumber) (events : List Event)
    (h : Along (step pow) FindsBudget empty events) (id : String)
    (job : Job) (hget : (empty.run pow events).store.jobs.get id = some job) :
    le (ofNat ((empty.run pow events).starts id))
      job.retryPolicy.maxAttempts = true := by
  have hinv : Budgeted (empty.run pow events) :=
    Along.invariant (fun _ _ hI hfinds => hI.step hfinds) budgeted_empty h
  have hjob := hinv id job hget
  obtain ⟨k, -, hmax⟩ := isPositiveInteger_cases hjob.policy
  have hwithin := hjob.within
  rw [hmax, le_ofNat, decide_eq_true_eq] at hwithin ⊢
  exact hjob.counted.trans hwithin

/-! ## Samples -/

/-- A power by repeated multiplication. -/
def powByMul (x : JsNumber) : Nat → JsNumber
  | 0 => 1
  | n + 1 => mul (powByMul x n) x

def sampleCall (maxAttempts : Nat) : EnqueueCall where
  type := "mail"
  options := { maxAttempts := some (ofNat maxAttempts) }
  uuid := "j"
  now := some 0

def sampleWorker (workerId : String) : JobWorker where
  workerId := workerId
  leaseMs := 60000
  types := ["mail"]

def sampleClock (ms : Int) : Clock := ⟨some ms, some ms, some ms, some ms⟩

instance (pool : Pool) (i : Nat) (error : HandlerError) :
    Decidable (LateFailureFinds pool i error) :=
  inferInstanceAs (Decidable (∀ c ∈ pool.claims[i]?, _))

instance (pool : Pool) : (e : Event) → Decidable (FindsBudget pool e)
  | .enqueue _ => inferInstanceAs (Decidable True)
  | .runOnce w now => inferInstanceAs (Decidable (∀ taken ∈ w.takes pool.store now, _))
  | .handled _ (.returned _) _ => inferInstanceAs (Decidable True)
  | .handled i (.threw error) _ => inferInstanceAs (Decidable (LateFailureFinds pool i error))
  | .caught i _ =>
    match h : pool.phase i with
    | .failing error => decidable_of_iff (LateFailureFinds pool i error) (by rw [FindsBudget, h])
    | .handling => isTrue (by rw [FindsBudget, h]; trivial)
    | .settled => isTrue (by rw [FindsBudget, h]; trivial)
  | .requeueDead _ _ => inferInstanceAs (Decidable True)

/-- A job fails once, is tried again after the delay and succeeds. -/
def retriedEvents : List Event :=
  [.enqueue (sampleCall 2), .runOnce (sampleWorker "w") (some 0),
    .handled 0 (.threw { message := "timeout" }) (sampleClock 10),
    .runOnce (sampleWorker "w") (some 1010),
    .handled 1 (.returned .undefined) (sampleClock 1020)]

theorem attempt_budget_retried : Along (step powByMul) FindsBudget empty retriedEvents
    ∧ ∃ job, (empty.run powByMul retriedEvents).store.jobs.get "j" = some job
      ∧ job.status = .succeeded
      ∧ (empty.run powByMul retriedEvents).starts "j" = 2
      ∧ le (ofNat ((empty.run powByMul retriedEvents).starts "j"))
        job.retryPolicy.maxAttempts = true := by
  have hfinds : Along (step powByMul) FindsBudget empty
      retriedEvents := by decide +kernel
  have hjob : ((empty.run powByMul retriedEvents).store.jobs.get
      "j").map Job.status = some .succeeded := by decide +kernel
  obtain ⟨job, hget, hstatus⟩ := Option.map_eq_some_iff.mp hjob
  exact ⟨hfinds, job, hget, hstatus, by decide +kernel,
    attempt_budget powByMul retriedEvents hfinds "j" job hget⟩

/-- The first worker crashes, the second takes the lapsed lease over. -/
def crashedEvents : List Event :=
  [.enqueue (sampleCall 1), .runOnce (sampleWorker "w") (some 0),
    .runOnce (sampleWorker "v") (some 60000)]

/-- One attempt is allowed and the handler is started twice. -/
theorem lapsed_lease_exceeds_budget :
    ∃ job, (empty.run powByMul crashedEvents).store.jobs.get "j" = some job
      ∧ job.retryPolicy.maxAttempts = 1
      ∧ (empty.run powByMul crashedEvents).starts "j" = 2
      ∧ le (ofNat ((empty.run powByMul crashedEvents).starts "j"))
        job.retryPolicy.maxAttempts = false := by
  have hjob : ((empty.run powByMul crashedEvents).store.jobs.get
      "j").map (fun job => job.retryPolicy.maxAttempts) = some 1 := by
    decide +kernel
  obtain ⟨job, hget, hmax⟩ := Option.map_eq_some_iff.mp hjob
  have hstarts : (empty.run powByMul crashedEvents).starts "j" = 2 := by decide +kernel
  refine ⟨job, hget, hmax, hstarts, ?_⟩
  rw [hmax, hstarts]
  decide +kernel

end Jobs

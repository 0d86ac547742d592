import Inqutum.BoundedQueueProofs
import Inqutum.JobBudgetProofs

/-!
# The workload cost

The controller charges a job when it admits it.  What it has charged is
the cost of the queued and running work only if every charge is backed by
a job that stays: nothing in the queue takes a charge back, neither when
the store returns an existing job or throws, nor when the job finishes.

`Backed` is the invariant: the running cost is the sum of all charges, and
a charge that is not backed by an active job is zero.
-/

namespace Jobs

open MemoryJobStore
open Transition (Along)
open List JsNumber BackpressureController

/-- The sum of some costs, in order. -/
def totalCost (costs : List JsNumber) : JsNumber :=
  costs.foldl add 0

namespace BoundedQueue

def phaseOf (q : BoundedQueue) (i : Nat) : Option CallPhase :=
  q.calls[i]?.map PendingCall.phase

/-- The charge is for a job that is queued or running, or on its way into the
    store. -/
def isLive (q : BoundedQueue) (charge : Charge) : Bool :=
  match q.phaseOf charge.call with
  | some (.admitted _) => true
  | some (.settled (.ok (job, true))) => q.pool.store.isActive job.id
  | _ => false

/-- **EXACT ACCOUNTING**: the running cost is the sum of the costs charged for
    the jobs that are still queued or running. -/
def Accounted (q : BoundedQueue) : Prop :=
  ∃ costs : List JsNumber, (q.ledger.filter q.isLive).map Charge.cost = costs.map Amount.number
      ∧ q.controller.currentCost = .number (totalCost costs)

/-- No job is queued or running, and none is on its way. -/
def Idle (q : BoundedQueue) : Prop :=
  q.depth = 0 ∧ ∀ pc ∈ q.calls, ∀ depth, pc.phase ≠ .admitted depth

/-- A job whose cost is within the budget is admitted to the empty queue. -/
def AdmitsWithinBudget (q : BoundedQueue) : Prop :=
  ∀ type options cost, q.controller.config.getJobCost type options.costOverride = .number cost →
    le cost q.controller.config.maxWorkloadCost.value = true →
    (q.controller.checkAdmission type (.ofNat 0) options).2.isAdmitted = true

/-! ## When a step keeps the accounts -/

/-- An event keeps the accounts: a call that is admitted has a number for its
    cost, an insertion with a charge makes a new job, and no job with a charge
    leaves the queue. -/
def KeepsAccounts (pow : JsNumber → Nat → JsNumber) (q : BoundedQueue) : BoundedEvent → Prop
  | .count _ => True
  | .check i => ∀ call depth, q.calls[i]? = some ⟨call, .counted depth⟩ →
      q.controller.Grants call.type (.ofNat depth) call.options →
      ∃ cost, q.costOf call = .number cost
  | .insert i failure => ∀ call depth, q.calls[i]? = some ⟨call, .admitted depth⟩ →
      q.costOf call = .number 0 ∨ failure = none ∧ q.Creates call
  | .runOnce _ _ => True
  | .handled i outcome clock => ∀ charge ∈ q.ledger,
      charge.cost ≠ .number 0 → q.isLive charge = true →
      (q.step pow (.handled i outcome clock)).isLive charge = true
  | .caught i clock => ∀ charge ∈ q.ledger, charge.cost ≠ .number 0 → q.isLive charge = true →
      (q.step pow (.caught i clock)).isLive charge = true

/-- A check at depth zero does not leave the controller degraded, and there is
    room for a privileged job. -/
def OpenWhenEmpty (c : BackpressureController) : Prop :=
  nextState c.config c.state (.ofNat 0) ≠ .degraded
    ∧ le c.config.emergencyHardLimit (.ofNat 0) = false

/-- Leaving out what is zero does not change a sum. -/
theorem totalCost_filter {charges : List Charge} {p : Charge → Bool}
    (hzero : ∀ charge ∈ charges, charge.cost = .number 0 ∨ p charge = true) {costs : List JsNumber}
    (hcosts : charges.map Charge.cost = costs.map Amount.number)
    {start : JsNumber} (hstart : start.isDouble = true) :
    ∃ kept : List JsNumber, (charges.filter p).map Charge.cost = kept.map Amount.number
        ∧ kept.foldl add start = costs.foldl add start := by
  induction charges generalizing costs start with
  | nil =>
    have hnil : costs = [] := map_eq_nil_iff.mp hcosts.symm
    exact ⟨[], rfl, by rw [hnil]⟩
  | cons charge rest ih =>
    obtain ⟨cost, others, rfl, hcost, hothers⟩ := map_eq_cons_iff.mp hcosts.symm
    have hrest := fun c hmem => hzero c (.tail _ hmem)
    by_cases hp : p charge = true
    · obtain ⟨kept, hkept, hsum⟩ := ih hrest hothers.symm (isDouble_add start cost)
      refine ⟨cost :: kept, ?_, hsum⟩
      rw [filter_cons_of_pos hp, map_cons, map_cons, hkept, hcost]
    obtain ⟨kept, hkept, hsum⟩ := ih hrest hothers.symm hstart
    have hnone : cost = 0 := by
      have h := (hzero charge (.head _)).resolve_right hp
      rw [← hcost] at h
      exact Amount.number.inj h
    refine ⟨kept, ?_, ?_⟩
    · rw [filter_cons_of_neg hp]
      exact hkept
    rw [foldl_cons, hnone, add_zero hstart]
    exact hsum

/-! ## The invariant -/

/-- The running cost is the sum of all charges, each charge is the cost of its
    call, and one that is not zero is for a live job. -/
structure Backed (config : BackpressureConfig) (q : BoundedQueue) : Prop where
  config_eq : q.controller.config = config
  charged : ∀ charge ∈ q.ledger, ∃ pc, q.calls[charge.call]? = some pc ∧ charge.cost
      = config.getJobCost pc.call.type pc.call.options.costOverride
  summed : ∃ costs : List JsNumber, q.ledger.map Charge.cost = costs.map Amount.number
      ∧ q.controller.currentCost = .number (totalCost costs)
  live : ∀ charge ∈ q.ledger, charge.cost = .number 0 ∨ q.isLive charge = true

theorem Backed.accounted {config : BackpressureConfig} {q : BoundedQueue}
    (h : Backed config q) : q.Accounted := by
  obtain ⟨costs, hcosts, hsum⟩ := h.summed
  obtain ⟨kept, hkept, htotal⟩ := totalCost_filter h.live hcosts
    (show (0 : JsNumber).isDouble = true by decide +kernel)
  exact ⟨kept, hkept, hsum.trans (congrArg Amount.number htotal.symm)⟩

section Step

variable {config : BackpressureConfig} {q : BoundedQueue} {call : BoundedCall} {i depth : Nat}
  {q' : BoundedQueue} {charge : Charge}

theorem Backed.frame (h : Backed config q) (hconfig : q'.controller.config = q.controller.config)
    (hcost : q'.controller.currentCost = q.controller.currentCost) (hledger : q'.ledger = q.ledger)
    (hcalls : ∀ (i : Nat) (pc : PendingCall), q.calls[i]? = some pc →
      ∃ pc', q'.calls[i]? = some pc' ∧ pc'.call = pc.call)
    (hlive : ∀ charge ∈ q.ledger, charge.cost ≠ .number 0 →
      q.isLive charge = true → q'.isLive charge = true) : Backed config q' := by
  refine ⟨hconfig.trans h.config_eq, ?_, ?_, ?_⟩
  · intro charge hmem
    rw [hledger] at hmem
    obtain ⟨pc, hpc, hcharge⟩ := h.charged charge hmem
    obtain ⟨pc', hpc', hcall⟩ := hcalls _ pc hpc
    rw [← hcall] at hcharge
    exact ⟨pc', hpc', hcharge⟩
  · rw [hledger, hcost]
    exact h.summed
  intro charge hmem
  rw [hledger] at hmem
  by_cases hzero : charge.cost = .number 0
  · exact .inl hzero
  · exact .inr (hlive charge hmem hzero ((h.live charge hmem).resolve_left hzero))

theorem calls_set {i : Nat} {phase phase' : CallPhase}
    (hcall : q.calls[i]? = some ⟨call, phase⟩) (j : Nat) (pc : PendingCall)
    (hpc : q.calls[j]? = some pc) :
    ∃ pc', (q.calls.set i ⟨call, phase'⟩)[j]? = some pc' ∧ pc'.call = pc.call := by
  by_cases hij : i = j
  · subst hij
    rw [hcall] at hpc
    have hlt := (List.getElem?_eq_some_iff.mp hcall).1
    rw [List.getElem?_set_self hlt, ← Option.some.inj hpc]
    exact ⟨_, rfl, rfl⟩
  rw [getElem?_set_ne hij]
  exact ⟨pc, hpc, rfl⟩

theorem isLive_of_eq (h : q.isLive charge = true)
    (hphase : q'.phaseOf charge.call = q.phaseOf charge.call)
    (hactive : ∀ id, q.pool.store.isActive id = true →
      q'.pool.store.isActive id = true) : q'.isLive charge = true := by
  rw [isLive] at h ⊢
  rw [hphase]
  split at h
  · rfl
  · exact hactive _ h
  · cases h

theorem Backed.count (h : Backed config q) (call : BoundedCall) : Backed config (q.count call) := by
  have hkept : ∀ (i : Nat) (pc : PendingCall), q.calls[i]? = some pc →
      (q.count call).calls[i]? = some pc := by
    intro i pc hpc
    exact (List.getElem?_append_left (List.getElem?_eq_some_iff.mp hpc).1).trans hpc
  refine h.frame rfl rfl rfl (fun i pc hpc => ⟨pc, hkept i pc hpc, rfl⟩) ?_
  intro charge hmem _ hlive
  obtain ⟨pc, hpc, -⟩ := h.charged charge hmem
  refine isLive_of_eq hlive ?_ (fun _ hactive => hactive)
  rw [phaseOf, phaseOf, hpc, hkept _ pc hpc]

theorem Backed.worker (h : Backed config q) {pool' : Pool}
    (hlive : ∀ charge ∈ q.ledger, charge.cost ≠ .number 0 → q.isLive charge = true →
      isLive { q with pool := pool' } charge = true) :
    Backed config { q with pool := pool' } :=
  h.frame rfl rfl rfl (fun _ pc hpc => ⟨pc, hpc, rfl⟩) hlive

theorem isLive_counted (hcall : q.calls[i]? = some ⟨call, .counted depth⟩)
    (hlive : q.isLive charge = true) : i ≠ charge.call := by
  rintro rfl
  rw [isLive, phaseOf, hcall] at hlive
  cases hlive

theorem Backed.check (h : Backed config q) (hcall : q.calls[i]? = some ⟨call, .counted depth⟩)
    (hkeeps : q.controller.Grants call.type (.ofNat depth) call.options →
      ∃ cost, q.costOf call = .number cost) : Backed config (q.check i call depth) := by
  have hconfig := q.controller.checkAdmission_config call.type (.ofNat depth) call.options
  have hcost := q.controller.checkAdmission_cost call.type (.ofNat depth) call.options
  have hgrants := q.controller.grants_iff call.type (.ofNat depth) call.options
  have hlt := (List.getElem?_eq_some_iff.mp hcall).1
  -- a live charge is of another call
  have hlive : ∀ {q' : BoundedQueue} {phase : CallPhase} {charge : Charge},
      q'.calls = q.calls.set i ⟨call, phase⟩ → q'.pool = q.pool →
      q.isLive charge = true → q'.isLive charge = true := by
    intro q' phase charge hcalls hpool hcharge
    refine isLive_of_eq hcharge ?_ (fun _ hactive => hpool ▸ hactive)
    rw [phaseOf, hcalls, List.getElem?_set_ne (isLive_counted hcall hcharge), phaseOf]
  rw [BoundedQueue.check]
  split
  · rename_i c isBypass heq
    rw [heq] at hconfig hcost hgrants
    obtain ⟨cost, hnumber⟩ := hkeeps (hgrants.mp rfl)
    obtain ⟨costs, hcosts, hsum⟩ := h.summed
    refine ⟨hconfig.trans h.config_eq, ?_, ?_, ?_⟩
    · intro charge hmem
      rcases List.mem_append.mp hmem with hold | hnew
      · obtain ⟨pc, hpc, hcharge⟩ := h.charged charge hold
        obtain ⟨pc', hpc', hsame⟩ := calls_set hcall _ pc hpc
        rw [← hsame] at hcharge
        exact ⟨pc', hpc', hcharge⟩
      rw [List.mem_singleton.mp hnew]
      refine ⟨_, List.getElem?_set_self hlt, ?_⟩
      rw [costOf, h.config_eq]
    · refine ⟨costs ++ [cost], ?_, ?_⟩
      · rw [List.map_append, List.map_append, hcosts, List.map_singleton,
          List.map_singleton, hnumber]
      have hadded : c.currentCost = Amount.add (.number (totalCost costs)) (.number cost) := by
        rw [← hsum, ← hnumber]
        exact hcost
      rw [hadded, totalCost, totalCost, List.foldl_append]
      rfl
    · intro charge hmem
      rcases List.mem_append.mp hmem with hold | hnew
      · exact (h.live charge hold).imp_right (hlive rfl rfl)
      right
      rw [List.mem_singleton.mp hnew, isLive, phaseOf, List.getElem?_set_self hlt]
      rfl
  · rename_i c reason retryAfterMs heq
    rw [heq] at hconfig hcost
    exact h.frame hconfig hcost rfl (calls_set hcall)
      (fun charge _ _ hcharge => hlive rfl rfl hcharge)

theorem Backed.insert (h : Backed config q) {failure : Option String}
    (hcall : q.calls[i]? = some ⟨call, .admitted depth⟩)
    (hkeeps : q.costOf call = .number 0 ∨ failure = none ∧ q.Creates call) :
    Backed config (q.insert i call failure) := by
  have hlt := (List.getElem?_eq_some_iff.mp hcall).1
  have hcharge : ∀ charge ∈ q.ledger, charge.call = i → charge.cost = q.costOf call := by
    intro charge hmem hi
    obtain ⟨pc, hpc, hcost⟩ := h.charged charge hmem
    rw [hi, hcall] at hpc
    rw [hcost, ← Option.some.inj hpc, costOf, h.config_eq]
  cases failure with
  | some message =>
    refine h.frame rfl rfl rfl (calls_set hcall) ?_
    intro charge hmem hzero hlive
    have hne : i ≠ charge.call := by
      intro hi
      refine hzero ((hcharge charge hmem hi.symm).trans ?_)
      exact hkeeps.resolve_right (fun hno => nomatch hno.1)
    refine isLive_of_eq hlive ?_ (fun _ hactive => hactive)
    rw [phaseOf, phaseOf]
    exact congrArg _ (getElem?_set_ne hne)
  | none =>
    have hstore : (q.insert i call none).pool.store
        = ((call.inner q.defaults).enqueue q.pool.store).1 :=
      q.pool.enqueue_store _
    have hcases := (call.inner q.defaults).enqueue_cases q.pool.store
    rw [← hstore] at hcases
    refine h.frame rfl rfl rfl (calls_set hcall) ?_
    intro charge hmem hzero hlive
    by_cases hi : i = charge.call
    · -- the charge of this call: its job is now in the store
      obtain ⟨job, hnew⟩ : q.Creates call := by
        rcases hkeeps with hnone | ⟨-, hcreates⟩
        · exact absurd ((hcharge charge hmem hi.symm).trans hnone) hzero
        · exact hcreates
      rcases hcases with ⟨job', hnew', hactive, hjobs⟩ | ⟨hno, -⟩
      · have hphase : (q.insert i call none).phaseOf charge.call
            = some (.settled (.ok (job', true))) := by
          rw [phaseOf, ← hi]
          show Option.map _ (q.calls.set i _)[i]? = _
          rw [getElem?_set_self hlt, hnew']
          rfl
        rw [isLive, hphase]
        show (q.insert i call none).pool.store.isActive job'.id = true
        rw [isActive_put hjobs, if_pos rfl]
        exact hactive
      · exact absurd hnew (hno job)
    · refine isLive_of_eq hlive ?_ ?_
      · rw [phaseOf, phaseOf]
        exact congrArg _ (getElem?_set_ne hi)
      intro id hactive
      rcases hcases with ⟨job', -, hnew, hjobs⟩ | ⟨-, hjobs⟩
      · rw [isActive_put hjobs]
        split
        · exact hnew
        · exact hactive
      rw [MemoryJobStore.isActive, hjobs]
      exact hactive

/-- **ONE STEP KEEPS THE ACCOUNTS**. -/
theorem Backed.step (pow : JsNumber → Nat → JsNumber) {e : BoundedEvent}
    (h : Backed config q) (hkeeps : q.KeepsAccounts pow e) : Backed config (q.step pow e) := by
  cases e with
  | count call => exact h.count call
  | check i =>
    rw [BoundedQueue.step]
    split
    · rename_i call depth hcall
      exact h.check hcall (hkeeps call depth hcall)
    · exact h
  | insert i failure =>
    rw [BoundedQueue.step]
    split
    · rename_i call depth hcall
      exact h.insert hcall (hkeeps call depth hcall)
    · exact h
  | runOnce w now =>
    refine h.worker ?_
    intro charge _ _ hlive
    refine isLive_of_eq hlive rfl ?_
    intro id hactive
    exact q.pool.isActive_runOnce pow w now hactive
  | handled i outcome clock => exact h.worker hkeeps
  | caught i clock => exact h.worker hkeeps

theorem admits_uncharged (hvalid : q.controller.config.validateConfig = .ok ())
    (hopen : OpenWhenEmpty q.controller) (hcost : q.controller.currentCost = .number 0) :
    q.AdmitsWithinBudget := by
  intro type options cost hnumber hwithin
  rw [grants_iff, Grants]
  split
  · exact hopen.2
  refine ⟨BackpressureConfig.maxQueueDepth_pos hvalid, ?_, fun h => absurd h hopen.1⟩
  have hsum : (Amount.add (.number 0) (.number cost)).toNumber = cost :=
    zero_add (BackpressureConfig.isDouble_getJobCost hnumber)
  rw [overBudget, hcost, hnumber, hsum, lt,
    hwithin, Bool.not_true, Bool.and_false]

theorem isLive_idle (h : q.Idle) (charge : Charge) : q.isLive charge = false := by
  rw [isLive]
  split
  · rename_i depth hphase
    obtain ⟨pc, hpc, hadmitted⟩ := Option.map_eq_some_iff.mp hphase
    exact absurd hadmitted (h.2 pc (mem_of_getElem? hpc) depth)
  · exact isActive_eq_false h.1 _
  · rfl

end Step

/-- **COST ACCOUNTING**: in a run in which every admitted call with a charge
    makes a new job and no job with a charge leaves the queue, the running
    cost is that of the live jobs; an idle queue has cost zero, and admits
    what is within the budget. -/
theorem cost_accounted (pow : JsNumber → Nat → JsNumber)
    (defaults : RetryPolicy) (config : BackpressureConfig) (pool : Pool)
    (hvalid : config.validateConfig = .ok ()) (events : List BoundedEvent)
    (hkeeps : Along (BoundedQueue.step pow) (KeepsAccounts pow) (new defaults config pool) events) :
    ((new defaults config pool).run pow events).Accounted
      ∧ (((new defaults config pool).run pow events).Idle →
        ((new defaults config pool).run pow events).controller.currentCost = .number 0
          ∧ (OpenWhenEmpty ((new defaults config pool).run pow events).controller →
            ((new defaults config pool).run pow events).AdmitsWithinBudget))
      := by
  have hfirst : Backed config (new defaults config pool) :=
    ⟨rfl, nofun, ⟨[], rfl, rfl⟩, nofun⟩
  have hlast : Backed config ((new defaults config pool).run pow events) :=
    Along.invariant (fun _ _ h hstep => h.step pow hstep) hfirst hkeeps
  refine ⟨hlast.accounted, fun hidle => ?_⟩
  have hzero : ((new defaults config pool).run pow events).controller.currentCost = .number 0 := by
    obtain ⟨costs, hcosts, hsum⟩ := hlast.accounted
    rw [filter_eq_nil_iff.mpr (fun charge _ =>
      Bool.eq_false_iff.mp (isLive_idle hidle charge))] at hcosts
    rw [map_eq_nil_iff.mp hcosts.symm] at hsum
    exact hsum
  refine ⟨hzero, fun hopen => admits_uncharged ?_ hopen hzero⟩
  rw [hlast.config_eq]
  exact hvalid

/-- A check of one step that a run of samples can be evaluated with. -/
def isKept (pow : JsNumber → Nat → JsNumber) (q : BoundedQueue) (e : BoundedEvent) : Bool :=
  match e with
  | .check i =>
    match q.calls[i]? with
    | some ⟨call, .counted _⟩ =>
      match q.costOf call with
      | .number _ => true
      | .text _ => false
    | _ => true
  | .insert i failure =>
    match q.calls[i]? with
    | some ⟨call, .admitted _⟩ =>
      failure.isNone &&
        match ((call.inner q.defaults).enqueue q.pool.store).2 with
        | .ok (_, created) => created
        | .error _ => false
    | _ => true
  | .handled _ _ _ => q.ledger.all (fun charge => !q.isLive charge || (q.step pow e).isLive charge)
  | .caught _ _ => q.ledger.all (fun charge => !q.isLive charge || (q.step pow e).isLive charge)
  | _ => true

theorem keepsAccounts_of_isKept {pow : JsNumber → Nat → JsNumber}
    {q : BoundedQueue} {e : BoundedEvent} (h : q.isKept pow e = true) : q.KeepsAccounts pow e := by
  have hworker : (q.ledger.all (fun charge =>
      !q.isLive charge || (q.step pow e).isLive charge)) = true →
      ∀ charge ∈ q.ledger, charge.cost ≠ .number 0 →
      q.isLive charge = true → (q.step pow e).isLive charge = true := by
    intro hall charge hmem _ hlive
    have hone := all_eq_true.mp hall charge hmem
    rw [hlive] at hone
    exact hone
  cases e with
  | count call => exact trivial
  | check i =>
    intro call depth hcall _
    simp only [isKept, hcall] at h
    split at h
    · rename_i cost hcost
      exact ⟨cost, hcost⟩
    · cases h
  | insert i failure =>
    intro call depth hcall
    simp only [isKept, hcall, Bool.and_eq_true, Option.isNone_iff_eq_none] at h
    refine .inr ⟨h.1, ?_⟩
    have hcreated := h.2
    split at hcreated
    · rename_i job created heq
      rw [hcreated] at heq
      exact ⟨job, heq⟩
    · cases hcreated
  | runOnce w now => exact trivial
  | handled i outcome clock => exact hworker h
  | caught i clock => exact hworker h

/-- The job of a call is claimed, and its handler fails once. -/
def retriedExport : List BoundedEvent :=
  [.count (exportCall "a"), .check 0, .insert 0 none,
    .runOnce ⟨"w", 1000, ["reports.csv-export"]⟩ (some 0),
    .handled 0 (.threw { message := "timeout" }) (sampleClock 10)]

theorem cost_accounted_retried : ((new defaultRetryPolicy {} .empty).run powByMul
      retriedExport).Accounted := by
  have hkept : Along (BoundedQueue.step powByMul) (fun q e => q.isKept powByMul e = true)
      (new defaultRetryPolicy {} .empty) retriedExport := by
    decide +kernel
  have hkeeps := Along.imp (I := fun _ => True) (Q := KeepsAccounts powByMul)
    (fun _ _ _ h => ⟨keepsAccounts_of_isKept h, trivial⟩) trivial hkept
  exact (cost_accounted powByMul defaultRetryPolicy {} .empty
    (by decide +kernel) retriedExport hkeeps).1

/-- The job of a call is claimed and done. -/
def finishedExport : List BoundedEvent :=
  [.count (exportCall "a"), .check 0, .insert 0 none,
    .runOnce ⟨"w", 1000, ["reports.csv-export"]⟩ (some 0),
    .handled 0 (.returned .undefined) (sampleClock 10)]

/-- The queue is empty again, and still carries the cost of the job. -/
theorem finished_job_stays_charged :
    ((new defaultRetryPolicy {} .empty).run powByMul finishedExport).depth = 0
      ∧ ((new defaultRetryPolicy {} .empty).run powByMul
        finishedExport).controller.currentCost = .number 10
      ∧ ¬ ((new defaultRetryPolicy {} .empty).run powByMul finishedExport).Accounted := by
  have hcost : ((new defaultRetryPolicy {} .empty).run powByMul
      finishedExport).controller.currentCost = .number 10 := by
    decide +kernel
  refine ⟨by decide +kernel, hcost, ?_⟩
  rintro ⟨costs, hcosts, hsum⟩
  have hnone : (((new defaultRetryPolicy {} .empty).run powByMul
      finishedExport).ledger.filter ((new defaultRetryPolicy {} .empty).run
        powByMul finishedExport).isLive).isEmpty = true := by
    decide +kernel
  rw [isEmpty_iff.mp hnone] at hcosts
  rw [hcost, map_eq_nil_iff.mp hcosts.symm] at hsum
  exact absurd hsum (by decide)

end BoundedQueue

end Jobs

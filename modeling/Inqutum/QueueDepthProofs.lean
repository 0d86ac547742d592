import Inqutum.BoundedQueueProofs
import Inqutum.JobBudgetProofs

/-!
# The depth of the bounded queue

A call is admitted at the depth it counted and inserts its job later.  As
long as no insertion finds more active jobs than its call had counted, the
depth stays within the capacity, or within the emergency ceiling if there
are privileged calls.  Nothing makes the calls wait for each other: two
calls that count the same depth are both admitted at it.
-/

namespace Jobs

open MemoryJobStore
open Transition (Along)
open JsNumber List

namespace BackpressureConfig

/-- `1.2`, as the language reads it. -/
theorem headroom_eq : (Double.near (12 / 10)).value
    = .finite (5404319552844595 / 4503599627370496) := by
  decide +kernel

/-- **THE CEILING IS ABOVE THE CAPACITY**, and is a whole number if that is
    one. -/
theorem le_emergencyHardLimit {config : BackpressureConfig}
    (hvalid : config.validateConfig = .ok ()) (hwhole : config.maxQueueDepth.value.IsWhole) :
    config.emergencyHardLimit.IsWhole
      ∧ le config.maxQueueDepth.value config.emergencyHardLimit = true := by
  have hpos := maxQueueDepth_pos hvalid
  have hdouble := config.maxQueueDepth.isDouble
  rw [emergencyHardLimit, headroom_eq]
  rcases hwhole with hwhole | hinf
  · revert hpos hdouble hwhole
    cases config.maxQueueDepth.value with
    | finite m =>
      intro hpos hdouble hwhole
      have hm : ((0 : Nat) : ℚ) < m := lt_of_not_ge (of_decide_eq_false hpos)
      rw [Nat.cast_zero] at hm
      have hint : (m.num : ℚ) = m := Rat.coe_int_num_of_den_eq_one (of_decide_eq_true hwhole)
      have hmore : m ≤ m * (5404319552844595 / 4503599627370496) := by linarith
      have hle := le_binary64 hm (of_decide_eq_true hdouble) hmore
      show (floor (binary64 _)).IsWhole
        ∧ le _ (floor (binary64 _)) = true
      revert hle
      cases binary64 (m * (5404319552844595 / 4503599627370496)) with
      | finite d =>
        intro hle
        refine ⟨.inl (decide_eq_true (Rat.den_intCast ⌊d⌋)), ?_⟩
        have hmd : m ≤ d := of_decide_eq_true hle
        have hfloor : m.num ≤ ⌊d⌋ := by
          rw [Int.le_floor, hint]
          exact hmd
        have hcast : m ≤ (⌊d⌋ : Int) := by
          rw [← hint]
          exact_mod_cast hfloor
        exact decide_eq_true hcast
      | posInf => exact fun _ => ⟨.inr rfl, rfl⟩
      | negInf => exact nofun
      | nan => exact nofun
    | _ => exact nofun
  · rw [hinf]
    have hmul : mul .posInf (.finite (5404319552844595 / 4503599627370496)) = .posInf := by
      decide +kernel
    rw [hmul]
    exact ⟨.inr rfl, rfl⟩

/-- The depth that must not be exceeded, without and with privileged calls. -/
def bound (config : BackpressureConfig) (privileged : Bool) : JsNumber :=
  if privileged = true then config.emergencyHardLimit
  else config.maxQueueDepth.value

end BackpressureConfig

open BackpressureConfig

namespace BoundedQueue

/-- The count of a call is out of date: it inserts a new job where there are
    more active jobs than it had counted. -/
def Outdated (q : BoundedQueue) : BoundedEvent → Prop
  | .insert i none => ∃ call depth, q.calls[i]? = some ⟨call, .admitted depth⟩ ∧ q.Creates call
        ∧ depth < q.depth
  | _ => False

end BoundedQueue

/-- The event starts a call that is privileged. -/
def BoundedEvent.isPrivileged : BoundedEvent → Bool
  | .count call => call.options.isPrivileged
  | _ => false

/-! ## The invariant -/

theorem BackpressureController.below_of_grants {c : BackpressureController}
    (hvalid : c.config.validateConfig = .ok ())
    (hwhole : c.config.maxQueueDepth.value.IsWhole) {type : String}
    {depth : JsNumber} {options : BoundedEnqueueOptions} {privileged : Bool}
    (hallowed : options.isPrivileged = true → privileged = true) (h : c.Grants type depth options) :
    le (c.config.bound privileged) depth = false := by
  obtain ⟨-, habove⟩ := le_emergencyHardLimit hvalid hwhole
  rw [Grants] at h
  rw [bound]
  split at h
  · rename_i hpriv
    rw [if_pos (hallowed hpriv)]
    exact h
  split
  · -- the ceiling is above the capacity
    refine Bool.eq_false_iff.mpr fun hfull => ?_
    cases h.1.symm.trans (le_trans habove hfull)
  · exact h.1

namespace BoundedQueue

/-- The depth is within the bound, and so was the depth at which each call was
    admitted. -/
structure Within (config : BackpressureConfig) (privileged : Bool) (q : BoundedQueue) : Prop where
  config_eq : q.controller.config = config
  depth_le : le (.ofNat q.depth) (config.bound privileged) = true
  allowed : ∀ pc ∈ q.calls, pc.call.options.isPrivileged = true → privileged = true
  admitted : ∀ pc ∈ q.calls, ∀ depth, pc.phase = .admitted depth →
    le (config.bound privileged) (.ofNat depth) = false

section Step

variable {config : BackpressureConfig} {privileged : Bool} {q : BoundedQueue} {call : BoundedCall}
  {i : Nat} {depth : Nat}

theorem Within.replace (h : Within config privileged q) {q' : BoundedQueue}
    {phase phase' : CallPhase} (hcall : q.calls[i]? = some ⟨call, phase⟩)
    (hconfig : q'.controller.config = config)
    (hdepth : le (.ofNat q'.depth) (config.bound privileged) = true)
    (hcalls : q'.calls = q.calls.set i ⟨call, phase'⟩) (hphase : ∀ depth, phase' = .admitted depth →
      le (config.bound privileged) (.ofNat depth) = false) :
    Within config privileged q' := by
  refine ⟨hconfig, hdepth, ?_, ?_⟩
  · intro pc hmem
    rw [hcalls] at hmem
    rcases mem_or_eq_of_mem_set hmem with hold | rfl
    · exact h.allowed pc hold
    · exact h.allowed ⟨call, phase⟩ (mem_of_getElem? hcall)
  intro pc hmem
  rw [hcalls] at hmem
  rcases mem_or_eq_of_mem_set hmem with hold | rfl
  · exact h.admitted pc hold
  · exact hphase

theorem Within.worker (h : Within config privileged q) {pool' : Pool}
    (hdepth : pool'.store.activeDepth ≤ q.pool.store.activeDepth) :
    Within config privileged { q with pool := pool' } := by
  refine ⟨h.config_eq, le_trans ?_ h.depth_le, h.allowed, h.admitted⟩
  rw [le_ofNat, decide_eq_true_eq]
  exact hdepth

theorem Within.count (h : Within config privileged q)
    (hallowed : call.options.isPrivileged = true → privileged = true) :
    Within config privileged (q.count call) := by
  refine ⟨h.config_eq, h.depth_le, ?_, ?_⟩
  · intro pc hmem
    rcases mem_append.mp hmem with hold | hnew
    · exact h.allowed pc hold
    rw [mem_singleton.mp hnew]
    exact hallowed
  intro pc hmem
  rcases mem_append.mp hmem with hold | hnew
  · exact h.admitted pc hold
  rw [mem_singleton.mp hnew]
  exact nofun

theorem Within.check (hvalid : config.validateConfig = .ok ())
    (hwhole : config.maxQueueDepth.value.IsWhole)
    (h : Within config privileged q) (hcall : q.calls[i]? = some ⟨call, .counted depth⟩) :
    Within config privileged (q.check i call depth) := by
  have hconfig := q.controller.checkAdmission_config call.type (.ofNat depth) call.options
  have hgrants := q.controller.grants_iff call.type (.ofNat depth) call.options
  rw [h.config_eq] at hconfig
  rw [BoundedQueue.check]
  split
  · rename_i c _ heq
    rw [heq] at hconfig hgrants
    refine h.replace hcall hconfig h.depth_le rfl ?_
    intro depth' hdepth'
    rw [← CallPhase.admitted.inj hdepth', ← h.config_eq]
    refine BackpressureController.below_of_grants ?_ ?_
      (h.allowed _ (mem_of_getElem? hcall)) (hgrants.mp rfl)
    · rw [h.config_eq]
      exact hvalid
    rw [h.config_eq]
    exact hwhole
  · rename_i c reason retryAfterMs heq
    rw [heq] at hconfig
    exact h.replace hcall hconfig h.depth_le rfl nofun

theorem depth_insert (q : BoundedQueue) (i : Nat) (call : BoundedCall) :
    q.Creates call ∧ (q.insert i call none).depth ≤ q.depth + 1 ∨
      (q.insert i call none).depth = q.depth := by
  have hstore : (q.insert i call none).pool.store
      = ((call.inner q.defaults).enqueue q.pool.store).1 :=
    q.pool.enqueue_store _
  rw [depth, hstore]
  rcases (call.inner q.defaults).enqueue_cases q.pool.store with ⟨job, hnew, -, hjobs⟩ | ⟨-, hjobs⟩
  · refine .inl ⟨⟨job, hnew⟩, ?_⟩
    have hcount := activeDepth_put hjobs
    rw [depth]
    split at hcount <;> split at hcount <;> omega
  refine Or.inr ?_
  rw [depth, activeDepth_eq, activeDepth_eq, hjobs]

theorem Within.insert (hbound : (config.bound privileged).IsWhole)
    (h : Within config privileged q) (hcall : q.calls[i]? = some ⟨call, .admitted depth⟩)
    {failure : Option String} (hcurrent : ¬ q.Outdated (.insert i failure)) :
    Within config privileged (q.insert i call failure) := by
  cases failure with
  | some message => exact h.replace hcall h.config_eq h.depth_le rfl nofun
  | none =>
    refine h.replace hcall h.config_eq ?_ rfl nofun
    rcases q.depth_insert i call with ⟨hcreates, hle⟩ | heq
    · have hcounted : q.depth ≤ depth := by
        by_contra hno
        exact hcurrent ⟨call, depth, hcall, hcreates, by omega⟩
      have hroom := succ_le_of_whole hbound
        (h.admitted _ (mem_of_getElem? hcall) depth rfl)
      refine le_trans ?_ hroom
      rw [le_ofNat, decide_eq_true_eq]
      omega
    · rw [heq]
      exact h.depth_le

/-- **ONE STEP KEEPS THE BOUND**. -/
theorem Within.step (pow : JsNumber → Nat → JsNumber) (hvalid : config.validateConfig = .ok ())
    (hwhole : config.maxQueueDepth.value.IsWhole) {e : BoundedEvent}
    (h : Within config privileged q) (hallowed : e.isPrivileged = true → privileged = true)
    (hcurrent : ¬ q.Outdated e) : Within config privileged (q.step pow e) := by
  have hbound : (config.bound privileged).IsWhole := by
    rw [bound]
    split
    · exact (le_emergencyHardLimit hvalid hwhole).1
    · exact hwhole
  cases e with
  | count call => exact h.count hallowed
  | check i =>
    rw [BoundedQueue.step]
    split
    · rename_i call depth hcall
      exact h.check hvalid hwhole hcall
    · exact h
  | insert i failure =>
    rw [BoundedQueue.step]
    split
    · rename_i call depth hcall
      exact h.insert hbound hcall hcurrent
    · exact h
  | runOnce w now =>
    exact h.worker (Pool.activeDepth_worker pow q.pool
      (fun _ heq => nomatch heq) (fun _ _ heq => nomatch heq))
  | handled i outcome clock =>
    exact h.worker (Pool.activeDepth_worker pow q.pool
      (fun _ heq => nomatch heq) (fun _ _ heq => nomatch heq))
  | caught i clock =>
    exact h.worker (Pool.activeDepth_worker pow q.pool
      (fun _ heq => nomatch heq) (fun _ _ heq => nomatch heq))

end Step

theorem within_run (pow : JsNumber → Nat → JsNumber)
    {config : BackpressureConfig} {privileged : Bool} (hvalid : config.validateConfig = .ok ())
    (hwhole : config.maxQueueDepth.value.IsWhole) {q : BoundedQueue}
    (h : Within config privileged q) {events : List BoundedEvent}
    (hallowed : ∀ e ∈ events, e.isPrivileged = true → privileged = true)
    (hcurrent : Along (BoundedQueue.step pow) (fun q e => ¬ q.Outdated e) q
      events) : Within config privileged (q.run pow events) := by
  induction events generalizing q with
  | nil => exact h
  | cons e rest ih =>
    refine ih ?_ (fun e' hmem => hallowed e' (mem_cons_of_mem _ hmem)) hcurrent.2
    exact h.step pow hvalid hwhole (hallowed e mem_cons_self) hcurrent.1

/-- **THE DEPTH BOUND**: over a store that is within the capacity, no run in
    which every new job is inserted at no more than the depth its call counted
    goes over the emergency ceiling, and none without privileged calls goes
    over the capacity. -/
theorem depth_bounded (pow : JsNumber → Nat → JsNumber)
    (defaults : RetryPolicy) (config : BackpressureConfig) (pool : Pool)
    (hvalid : config.validateConfig = .ok ())
    (hwhole : config.maxQueueDepth.value.IsWhole)
    (hstart : le (.ofNat pool.store.activeDepth)
      config.maxQueueDepth.value = true) (events : List BoundedEvent)
    (hcurrent : Along (BoundedQueue.step pow) (fun q e => ¬ q.Outdated e)
      (new defaults config pool) events) :
    le (.ofNat ((new defaults config pool).run pow events).depth)
      config.emergencyHardLimit = true
      ∧ ((∀ e ∈ events, e.isPrivileged = false) →
        le (.ofNat ((new defaults config pool).run pow events).depth)
          config.maxQueueDepth.value = true) := by
  constructor
  · have hfirst : Within config true (new defaults config pool) := by
      refine ⟨rfl, le_trans hstart ?_, ?_, ?_⟩
      · exact (le_emergencyHardLimit hvalid hwhole).2
      · exact fun _ hmem => nomatch hmem
      · exact fun _ hmem => nomatch hmem
    exact (within_run pow hvalid hwhole hfirst (fun _ _ _ => rfl) hcurrent).depth_le
  · intro hplain
    have hfirst : Within config false (new defaults config pool) :=
      ⟨rfl, hstart, (fun _ hmem => nomatch hmem), fun _ hmem => nomatch hmem⟩
    refine (within_run pow hvalid hwhole hfirst ?_ hcurrent).depth_le
    intro e hmem hpriv
    cases (hplain e hmem).symm.trans hpriv

/-- A check of one step that a run of samples can be evaluated with. -/
def isCurrent (q : BoundedQueue) : BoundedEvent → Bool
  | .insert i none =>
    match q.calls[i]? with
    | some ⟨_, .admitted depth⟩ => decide (q.depth ≤ depth)
    | _ => true
  | _ => true

theorem not_outdated {q : BoundedQueue} {e : BoundedEvent}
    (h : q.isCurrent e = true) : ¬ q.Outdated e := by
  cases e with
  | insert i failure =>
    cases failure with
    | some message => exact id
    | none =>
      rintro ⟨call, depth, hcall, -, hlt⟩
      rw [isCurrent, hcall, decide_eq_true_eq] at h
      omega
  | _ => exact id

/-- A queue for two jobs. -/
def smallConfig : BackpressureConfig := { maxQueueDepth := 2 }

/-- Two calls, one after the other. -/
def orderlyEvents : List BoundedEvent :=
  [.count (exportCall "a"), .check 0, .insert 0 none,
    .count (exportCall "b"), .check 1, .insert 1 none]

theorem depth_bounded_in_turn : le (.ofNat ((new defaultRetryPolicy smallConfig .empty).run
      powByMul orderlyEvents).depth) smallConfig.maxQueueDepth.value
      = true := by
  have hcurrent : Along (BoundedQueue.step powByMul) (fun q e => q.isCurrent e = true)
      (new defaultRetryPolicy smallConfig .empty) orderlyEvents := by
    decide +kernel
  have hnone := Along.imp (I := fun _ => True) (Q := fun q e => ¬ q.Outdated e)
    (fun _ _ _ h => ⟨not_outdated h, trivial⟩) trivial hcurrent
  exact (depth_bounded powByMul defaultRetryPolicy smallConfig .empty
    (by decide +kernel) (.inl (by decide +kernel)) (by decide +kernel)
    orderlyEvents hnone).2 (by decide +kernel)

/-- Three calls count the empty queue before any of them inserts its job. -/
def racingEvents : List BoundedEvent :=
  [.count (exportCall "a"), .count (exportCall "b"), .count (exportCall "c"),
    .check 0, .check 1, .check 2,
    .insert 0 none, .insert 1 none, .insert 2 none]

theorem racing_calls_exceed_capacity : smallConfig.validateConfig = .ok ()
      ∧ (∀ e ∈ racingEvents, e.isPrivileged = false)
      ∧ ((new defaultRetryPolicy smallConfig .empty).run powByMul racingEvents).depth = 3
      ∧ le (.ofNat ((new defaultRetryPolicy smallConfig .empty).run
          powByMul racingEvents).depth) smallConfig.maxQueueDepth.value
        = false := by
  refine ⟨?_, ?_, ?_, ?_⟩ <;> decide +kernel

end BoundedQueue

end Jobs

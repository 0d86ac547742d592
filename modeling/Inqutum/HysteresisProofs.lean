import Inqutum.BackpressureProofs

/-!
# Load shedding between the watermarks

After a depth at or above the high watermark the queue is overloaded until
a depth at or below the low watermark is seen.  The controller tracks this
with its state: it is overloaded exactly when the state is not normal
(`overloaded_iff`).  The check of a job asks whether the state is
degraded, so a job passes that is checked between the watermarks while the
state is rejecting.
-/

namespace Jobs

open Transition (Latched)
open List Option JsNumber

/-- A call of a method of the controller. -/
inductive ControllerCall where
  | checkAdmission (type : String) (depth : JsNumber) (options : BoundedEnqueueOptions)
  | releaseJob (type : String) (costOverride : Option Double)
  | getMetrics (depth : JsNumber)

namespace ControllerCall

/-- The depth a call observes. -/
def depth? : ControllerCall → Option JsNumber
  | checkAdmission _ depth _ => some depth
  | releaseJob _ _ => none
  | getMetrics depth => some depth

def atHigh (config : BackpressureConfig) (call : ControllerCall) : Bool :=
  call.depth?.any (fun depth => le config.highWatermarkDepth depth)

def atLow (config : BackpressureConfig) (call : ControllerCall) : Bool :=
  call.depth?.any (fun depth => le depth config.lowWatermarkDepth)

end ControllerCall

/-- What the error text of the constructor asks of the ratios. -/
structure BackpressureConfig.ValidRatios (config : BackpressureConfig) : Prop where
  low : lt 0 config.lowWatermarkRatio.value = true
  order : lt config.lowWatermarkRatio.value config.highWatermarkRatio.value = true
  high : le config.highWatermarkRatio.value 1 = true

namespace BackpressureController

def call (c : BackpressureController) : ControllerCall → BackpressureController
  | .checkAdmission type depth options => (c.checkAdmission type depth options).1
  | .releaseJob type costOverride => c.releaseJob type costOverride
  | .getMetrics depth => c.updateState depth

/-- The controller after some calls. -/
def after (config : BackpressureConfig) (calls : List ControllerCall) :
    BackpressureController :=
  calls.foldl call { config }

/-- The queue is overloaded after some calls: a depth at or above the high
    watermark was observed, and none at or below the low watermark since. -/
def Overloaded (config : BackpressureConfig) (calls : List ControllerCall) :
    Prop :=
  Latched (fun e => e.atHigh config = true) (fun e => e.atLow config = true) calls

/-- **HYSTERESIS**: no check of an unprivileged job whose priority is not high
    admits it while the queue is overloaded. -/
def Hysteresis (config : BackpressureConfig) (calls : List ControllerCall) :
    Prop :=
  ∀ before type depth options rest, calls = before ++ .checkAdmission type depth options :: rest →
    options.isPrivileged = false → options.priority ≠ some .high →
    Overloaded config (before ++ [.checkAdmission type depth options]) →
    ((after config before).checkAdmission type depth options).2.isAdmitted = false

/-- A check that is not shed although the queue is overloaded: the state is
    rejecting, the depth is between the watermarks and the cost fits. -/
def Slips (c : BackpressureController) (type : String) (depth : JsNumber)
    (options : BoundedEnqueueOptions) : Prop :=
  c.state = .rejecting ∧ le c.config.highWatermarkDepth depth = false
    ∧ le depth c.config.lowWatermarkDepth = false
    ∧ c.overBudget (c.config.getJobCost type options.costOverride) = false

variable {config : BackpressureConfig}

/-- The high watermark is a fraction of the capacity, -/
theorem highRatio_finite (h : config.ValidRatios) : ∃ r : ℚ,
    config.highWatermarkRatio.value = .finite r ∧ 0 < r ∧ r ≤ 1 := by
  obtain ⟨r, hr, hpos, hone⟩ := finite_of_between (lt_trans h.low h.order) h.high
  exact ⟨r, hr, by exact_mod_cast hpos, by exact_mod_cast hone⟩

/-- so a full queue is at the watermark. -/
theorem atHigh_of_full (hvalid : config.validateConfig = .ok ()) (h : config.ValidRatios)
    {depth : JsNumber} (hfull : le config.maxQueueDepth.value depth = true) :
    le config.highWatermarkDepth depth = true := by
  obtain ⟨r, hr, hpos, hone⟩ := highRatio_finite h
  have hmax := BackpressureConfig.maxQueueDepth_pos hvalid
  rw [BackpressureConfig.highWatermarkDepth, hr]
  have hdouble := config.maxQueueDepth.isDouble
  revert hmax hfull hdouble
  cases config.maxQueueDepth.value with
  | finite m =>
    intro hfull hmax hdouble
    have hm : ((0 : Nat) : ℚ) < m := lt_of_not_ge (of_decide_eq_false hmax)
    rw [Nat.cast_zero] at hm
    obtain ⟨d, hd, hle⟩ := binary64_le (mul_pos hm hpos)
      (of_decide_eq_true hdouble) (mul_le_of_le_one_right hm.le hone)
    have hfloor : le (floor (.finite d)) (.finite m)
        = true := decide_eq_true ((Int.floor_le d).trans hle)
    show le (floor (binary64 (m * r))) depth = true
    rw [hd]
    exact le_trans hfloor hfull
  | posInf =>
    intro hfull _ _
    have hmul : mul .posInf (.finite r) = .posInf := by
      show (if r = 0 then _ else infinity (false != decide (r < 0))) = _
      rw [if_neg hpos.ne', decide_eq_false (not_lt_of_ge hpos.le)]
      rfl
    rw [hmul]
    exact hfull
  | negInf => exact fun _ hmax _ => nomatch hmax
  | nan => exact fun hfull _ _ => nomatch hfull

/-! ## The state tracks the overload -/

theorem call_config (c : BackpressureController) (e : ControllerCall) :
    (c.call e).config = c.config := by
  cases e with
  | checkAdmission type depth options => exact c.checkAdmission_config type depth options
  | releaseJob type costOverride => rfl
  | getMetrics depth => rfl

theorem call_state (c : BackpressureController) (e : ControllerCall) : (c.call e).state
      = (e.depth?.map (nextState c.config c.state)).getD c.state := by
  cases e with
  | checkAdmission type depth options => exact c.checkAdmission_state type depth options
  | releaseJob type costOverride => rfl
  | getMetrics depth => rfl

theorem after_concat (config : BackpressureConfig)
    (calls : List ControllerCall) (e : ControllerCall) :
    after config (calls ++ [e]) = (after config calls).call e := by
  rw [after, foldl_append]
  rfl

theorem after_config (config : BackpressureConfig)
    (calls : List ControllerCall) : (after config calls).config = config := by
  induction calls using reverseRecOn with
  | nil => rfl
  | append_singleton calls e ih => rw [after_concat, call_config, ih]

section State

variable {config : BackpressureConfig}
  (hvalid : config.validateConfig = .ok ()) (hratios : config.ValidRatios)

include hvalid hratios

theorem nextState_ne_normal (state : BackpressureState) (depth : JsNumber) :
    nextState config state depth ≠ .normal ↔ le config.highWatermarkDepth depth = true
        ∨ state ≠ .normal ∧ ¬ le depth config.lowWatermarkDepth = true := by
  rw [nextState]
  split
  · rename_i hfull
    exact iff_of_true nofun (.inl (atHigh_of_full hvalid hratios hfull))
  split
  · rename_i hhigh
    exact iff_of_true nofun (.inl hhigh)
  rename_i hhigh
  split
  · rename_i hlow
    refine iff_of_false (fun h => h rfl) ?_
    rintro (h | ⟨-, h⟩)
    · exact hhigh h
    · exact h hlow
  rename_i hlow
  constructor
  · exact fun h => .inr ⟨h, hlow⟩
  rintro (h | ⟨h, -⟩)
  · exact absurd h hhigh
  · exact h

/-- **THE STATE TRACKS THE OVERLOAD**. -/
theorem overloaded_iff (calls : List ControllerCall) :
    Overloaded config calls ↔ (after config calls).state ≠ .normal := by
  induction calls using reverseRecOn with
  | nil => exact iff_of_false Transition.not_latched_nil (fun h => h rfl)
  | append_singleton calls e ih =>
    rw [Overloaded, Transition.latched_concat, ← Overloaded, ih,
      after_concat, call_state, after_config, ControllerCall.atHigh,
      ControllerCall.atLow]
    cases e.depth? with
    | none =>
      rw [map_none, getD_none, any_none]
      simp
    | some depth =>
      rw [map_some, getD_some, any_some, any_some, nextState_ne_normal hvalid hratios]

/-- An admitted check of an unprivileged job of lower priority, in an
    overloaded queue, is one that slips. -/
theorem slips_iff (calls : List ControllerCall) (type : String)
    (depth : JsNumber) (options : BoundedEnqueueOptions) (hplain : options.isPrivileged = false)
    (hlower : options.priority ≠ some .high) :
    (Overloaded config (calls ++ [.checkAdmission type depth options])
        ∧ ((after config calls).checkAdmission type depth options).2.isAdmitted = true)
      ↔ (after config calls).Slips type depth options := by
  have hstate := overloaded_iff hvalid hratios (calls ++ [.checkAdmission type depth options])
  have hconfig := after_config config calls
  rw [after_concat, call, checkAdmission_state, hconfig] at hstate
  rw [hstate, grants_iff, Grants, if_neg (by rw [hplain]; decide), Slips, hconfig]
  generalize (after config calls).state = state
  constructor
  · rintro ⟨hover, hroom, hbudget, hshed⟩
    have hdegraded : nextState config state depth ≠ .degraded :=
      fun h => hlower (hshed h)
    rw [nextState, if_neg (by rw [hroom]; decide)] at hover hdegraded
    split at hover
    · rename_i hhigh
      rw [if_pos hhigh] at hdegraded
      exact absurd rfl hdegraded
    rename_i hhigh
    rw [if_neg hhigh] at hdegraded
    split at hover
    · exact absurd rfl hover
    rename_i hlow
    rw [if_neg hlow] at hdegraded
    refine ⟨?_, Bool.eq_false_iff.mpr hhigh, Bool.eq_false_iff.mpr hlow, hbudget⟩
    cases state with
    | normal => exact absurd rfl hover
    | degraded => exact absurd rfl hdegraded
    | rejecting => rfl
  · rintro ⟨rfl, hhigh, hlow, hbudget⟩
    have hroom : le config.maxQueueDepth.value depth = false :=
      Bool.eq_false_iff.mpr fun hfull =>
        by cases hhigh.symm.trans (atHigh_of_full hvalid hratios hfull)
    have hnext : nextState config .rejecting depth = .rejecting := by
      rw [nextState, hroom, hhigh, hlow]
      rfl
    rw [hnext]
    exact ⟨by rintro ⟨⟩, hroom, hbudget, by rintro ⟨⟩⟩

end State

/-- **WHEN HYSTERESIS HOLDS**: exactly when no unprivileged job of lower
    priority, of a cost within the budget, is checked between the watermarks
    while the state is rejecting. -/
theorem hysteresis_iff (config : BackpressureConfig)
    (hvalid : config.validateConfig = .ok ()) (hratios : config.ValidRatios)
    (calls : List ControllerCall) :
    Hysteresis config calls ↔ ∀ before type depth options rest,
        calls = before ++ .checkAdmission type depth options :: rest →
        options.isPrivileged = false → options.priority ≠ some .high →
        ¬ (after config before).Slips type depth options := by
  constructor
  · intro h before type depth options rest hcalls hplain hlower hslips
    obtain ⟨hover, hadmitted⟩ := (slips_iff hvalid hratios before type depth
      options hplain hlower).mpr hslips
    cases hadmitted.symm.trans (h before type depth options rest hcalls hplain hlower hover)
  intro h before type depth options rest hcalls hplain hlower hover
  refine Bool.eq_false_iff.mpr fun hadmitted => ?_
  exact h before type depth options rest hcalls hplain hlower
    ((slips_iff hvalid hratios before type depth options hplain hlower).mp ⟨hover, hadmitted⟩)

/-- The default configuration. -/
def sampleConfig : BackpressureConfig := {}

/-- Full, then drained to 120 of 200. -/
def sampleCalls : List ControllerCall :=
  [.checkAdmission "reports.csv-export" 200 {}, .checkAdmission "reports.csv-export" 120 {}]

theorem sampleConfig_valid : sampleConfig.validateConfig = .ok () ∧ sampleConfig.ValidRatios := by
  refine ⟨?_, ⟨?_, ?_, ?_⟩⟩ <;> decide +kernel

/-- A queue at the high watermark, drained below the low one. -/
theorem hysteresis_degraded : Hysteresis sampleConfig [.checkAdmission "reports.csv-export" 160 {},
        .checkAdmission "reports.csv-export" 100 {}] := by
  refine (hysteresis_iff sampleConfig sampleConfig_valid.1 sampleConfig_valid.2 _).mpr ?_
  intro before type depth options rest hcalls _ _ hslips
  match before, hcalls with
  | [], hcalls => cases hslips.1
  | [_], hcalls =>
    rw [cons_append, nil_append, cons.injEq, cons.injEq] at hcalls
    obtain ⟨rfl, -, -⟩ := hcalls
    exact absurd hslips.1 (by decide +kernel)
  | _ :: _ :: _, hcalls => simp at hcalls

/-- The second check admits a job of normal priority at 120, between 100 and
    160. -/
theorem rejecting_admits_between_watermarks : ¬ Hysteresis sampleConfig sampleCalls := by
  intro h
  have hadmitted := h [.checkAdmission "reports.csv-export" 200 {}]
    "reports.csv-export" 120 {} [] rfl rfl (by decide)
    ⟨[], _, _, rfl, by decide +kernel, by decide +kernel⟩
  exact absurd hadmitted (by decide +kernel)

end BackpressureController

end Jobs

import Inqutum.JobWorkerProofs
import Inqutum.RoundingProofs

/-!
# Admission control of the background queue

The controller decides from the depth of the queue whether a job is
admitted.  It keeps a state between calls, with a high and a low watermark
(hysteresis), and a running cost of the admitted work.  A privileged call
is held only to a ceiling above the capacity.

`checkAdmission` moves the state, then decides, then counts.  The spec
lemmas say each of the three once: `checkAdmission_state`, `grants_iff`
and `checkAdmission_cost`.
-/

namespace Jobs

open JsNumber (Double)
open JsNumber

inductive BackpressureState where
  | normal
  | degraded
  | rejecting
  deriving DecidableEq

inductive JobPriority where
  | critical
  | high
  | normal
  | low
  deriving DecidableEq

inductive ActorRole where
  | maintainer
  | admin
  | owner
  | user
  | system
  deriving DecidableEq

/-! ## Configuration -/

/-- `{ ...DEFAULT_BACKPRESSURE_CONFIG, ...config }`: a field that is not given
    has its default. -/
structure BackpressureConfig where
  maxQueueDepth : Double := 200
  highWatermarkRatio : Double := .near (8 / 10)
  lowWatermarkRatio : Double := .near (5 / 10)
  maxWorkloadCost : Double := 1000
  defaultJobCost : Double := 1
  /-- The own properties of the record. -/
  jobCostWeights : List (String × Double) :=
    [("invoices.expire-pending", 1), ("notifications.email", 2),
      ("webhooks.delivery", 3), ("crypto.evidence-verification", 8),
      ("reports.csv-export", 10), ("invoices.bulk-import", 15),
      ("reconciliation.ledger-sweep", 20)]
  baseRetryAfterMs : Double := 2000
  maxRetryAfterMs : Double := 60000

/-- What the running cost can become: adding what is not a number makes it a
    text. -/
inductive Amount where
  | number (value : JsNumber)
  | text (value : String)
  deriving DecidableEq

namespace Amount

def toText : Amount → String
  | number value => value.toText
  | text value => value

/-- `Number(value)`, as a comparison or a subtraction reads it. -/
def toNumber : Amount → JsNumber
  | number value => value
  | text value => ofText value

/-- `a + b`. -/
def add : Amount → Amount → Amount
  | number a, number b => number (JsNumber.add a b)
  | a, b => text (a.toText ++ b.toText)

end Amount

/-- The text of what a record inherits under a name: it has no property of its
    own there, but `Object.prototype` has. -/
def inheritedText (name : String) : Option String :=
  if name = "__proto__" then some "[object Object]"
  else if name = "constructor" then
    some "function Object() \x7b [native code] \x7d"
  else if name ∈ ["toString", "toLocaleString", "valueOf", "hasOwnProperty",
      "isPrototypeOf", "propertyIsEnumerable", "__defineGetter__",
      "__defineSetter__", "__lookupGetter__", "__lookupSetter__"] then
    some ("function " ++ name ++ "() \x7b [native code] \x7d")
  else none

namespace BackpressureConfig

/-- The checks of the constructor.  NaN passes both. -/
def validateConfig (config : BackpressureConfig) : Except String Unit :=
  if le config.maxQueueDepth.value 0 = true then
    .error "maxQueueDepth must be positive"
  else if le config.lowWatermarkRatio.value 0 = true
      ∨ le config.highWatermarkRatio.value config.lowWatermarkRatio.value = true
      ∨ lt 1 config.highWatermarkRatio.value = true then
    .error ("Watermark ratios must satisfy: " ++ "0 < lowWatermark < highWatermark <= 1.0")
  else .ok ()

def highWatermarkDepth (config : BackpressureConfig) : JsNumber :=
  floor (mul config.maxQueueDepth.value config.highWatermarkRatio.value)

def lowWatermarkDepth (config : BackpressureConfig) : JsNumber :=
  floor (mul config.maxQueueDepth.value config.lowWatermarkRatio.value)

/-- The ceiling of a privileged call. -/
def emergencyHardLimit (config : BackpressureConfig) : JsNumber :=
  floor (mul config.maxQueueDepth.value (Double.near (12 / 10)).value)

/-- `jobCostWeights[type] ?? defaultJobCost`. -/
def weightOf (config : BackpressureConfig) (type : String) : Amount :=
  match config.jobCostWeights.lookup type with
  | some weight => .number weight.value
  | none =>
    match inheritedText type with
    | some text => .text text
    | none => .number config.defaultJobCost.value

def getJobCost (config : BackpressureConfig) (type : String)
    (costOverride : Option Double) : Amount :=
  match costOverride with
  | some cost =>
    if le 0 cost.value = true then .number cost.value
    else config.weightOf type
  | none => config.weightOf type

/-- The recommended delay, with jitter from the depth. -/
def computeRetryAfter (config : BackpressureConfig) (depth : JsNumber) :
    JsNumber :=
  let saturation := mathMin 1 (div depth config.maxQueueDepth.value)
  let scaledDelay := mul config.baseRetryAfterMs.value
    (add 1 (mul saturation 4))
  let jitter := mul (rem depth 7) 150
  mathMin config.maxRetryAfterMs.value (round (add scaledDelay jitter))

variable {config : BackpressureConfig}

theorem maxQueueDepth_pos (h : config.validateConfig = .ok ()) :
    le config.maxQueueDepth.value 0 = false := by
  rw [validateConfig] at h
  split at h
  · cases h
  rename_i hmax
  exact Bool.eq_false_iff.mpr hmax

theorem isDouble_getJobCost {type : String} {costOverride : Option Double} {cost : JsNumber}
    (h : config.getJobCost type costOverride = .number cost) : cost.isDouble = true := by
  have hweight : config.weightOf type = .number cost → cost.isDouble = true := by
    intro hweight
    rw [weightOf] at hweight
    split at hweight
    · rw [← Amount.number.inj hweight]
      exact Double.isDouble _
    split at hweight
    · cases hweight
    rw [← Amount.number.inj hweight]
    exact Double.isDouble _
  cases costOverride with
  | none => exact hweight h
  | some given =>
    rw [getJobCost] at h
    split at h
    · rw [← Amount.number.inj h]
      exact given.isDouble
    · exact hweight h

end BackpressureConfig

/-! ## Admission -/

structure BoundedEnqueueOptions extends EnqueueOptions where
  priority : Option JobPriority := none
  bypassBackpressure : Bool := false
  actorRole : Option ActorRole := none
  costOverride : Option Double := none

def BoundedEnqueueOptions.isPrivileged (options : BoundedEnqueueOptions) :
    Bool :=
  options.bypassBackpressure || options.priority = some .critical
    || options.actorRole = some .maintainer
    || options.actorRole = some .owner || options.actorRole = some .system

inductive AdmissionReason where
  | emergencyBufferExhausted
  | queueCapacityExceeded
  | workloadBudgetExceeded
  | highWatermarkLoadShedding

def AdmissionReason.toText : AdmissionReason → String
  | emergencyBufferExhausted => "EMERGENCY_BUFFER_EXHAUSTED"
  | queueCapacityExceeded => "QUEUE_CAPACITY_EXCEEDED"
  | workloadBudgetExceeded => "WORKLOAD_BUDGET_EXCEEDED"
  | highWatermarkLoadShedding => "HIGH_WATERMARK_LOAD_SHEDDING"

inductive Admission where
  | admitted (isBypass : Bool)
  | refused (reason : AdmissionReason) (retryAfterMs : JsNumber)

def Admission.isAdmitted : Admission → Bool
  | admitted _ => true
  | refused _ _ => false

structure BackpressureController where
  config : BackpressureConfig
  currentCost : Amount := .number 0
  totalEnqueued : Nat := 0
  totalRejected : Nat := 0
  totalShed : Nat := 0
  totalBypassed : Nat := 0
  state : BackpressureState := .normal

namespace BackpressureController

/-- Between the watermarks the state stays. -/
def nextState (config : BackpressureConfig) (state : BackpressureState)
    (depth : JsNumber) : BackpressureState :=
  if le config.maxQueueDepth.value depth = true then .rejecting
  else if le config.highWatermarkDepth depth = true then .degraded
  else if le depth config.lowWatermarkDepth = true then .normal
  else state

def updateState (c : BackpressureController) (depth : JsNumber) :
    BackpressureController :=
  { c with state := nextState c.config c.state depth }

/-- `this.currentCost + jobCost > this.config.maxWorkloadCost`. -/
def overBudget (c : BackpressureController) (cost : Amount) : Bool :=
  lt c.config.maxWorkloadCost.value (Amount.add c.currentCost cost).toNumber

def reject (c : BackpressureController) : BackpressureController :=
  { c with totalRejected := c.totalRejected + 1 }

def charge (c : BackpressureController) (cost : Amount) :
    BackpressureController :=
  { c with
    totalEnqueued := c.totalEnqueued + 1
    currentCost := Amount.add c.currentCost cost }

/-- The decision of `checkAdmission`, once the state is moved. -/
def decideAdmission (c : BackpressureController) (cost : Amount)
    (depth : JsNumber) (options : BoundedEnqueueOptions) :
    BackpressureController × Admission :=
  if options.isPrivileged = true then
    if le c.config.emergencyHardLimit depth = true then
      (c.reject, .refused .emergencyBufferExhausted c.config.maxRetryAfterMs.value)
    else
      ({ c.charge cost with totalBypassed := c.totalBypassed + 1 }, .admitted true)
  else if le c.config.maxQueueDepth.value depth = true then
    (c.reject, .refused .queueCapacityExceeded (c.config.computeRetryAfter depth))
  else if c.overBudget cost = true then
    (c.reject, .refused .workloadBudgetExceeded (c.config.computeRetryAfter depth))
  else if c.state = .degraded ∧ options.priority ≠ some .high then
    ({ c.reject with totalShed := c.totalShed + 1 },
      .refused .highWatermarkLoadShedding (c.config.computeRetryAfter depth))
  else (c.charge cost, .admitted false)

def checkAdmission (c : BackpressureController) (type : String)
    (depth : JsNumber) (options : BoundedEnqueueOptions) :
    BackpressureController × Admission :=
  (c.updateState depth).decideAdmission
    (c.config.getJobCost type options.costOverride) depth options

/-- `Math.max(0, this.currentCost - cost)`. -/
def releaseJob (c : BackpressureController) (type : String)
    (costOverride : Option Double) : BackpressureController :=
  { c with
    currentCost := .number (mathMax 0 (sub c.currentCost.toNumber
      (c.config.getJobCost type costOverride).toNumber)) }

/-! ## What a check does -/

/-- The conditions under which a job is admitted. -/
def Grants (c : BackpressureController) (type : String) (depth : JsNumber)
    (options : BoundedEnqueueOptions) : Prop :=
  if options.isPrivileged = true then
    le c.config.emergencyHardLimit depth = false
  else le c.config.maxQueueDepth.value depth = false
    ∧ c.overBudget (c.config.getJobCost type options.costOverride) = false
    ∧ (nextState c.config c.state depth = .degraded → options.priority = some .high)

section Check

variable (c : BackpressureController) (type : String) (depth : JsNumber)
  (options : BoundedEnqueueOptions)

/-- **A CHECK ADMITS EXACTLY WHAT IS GRANTED**. -/
theorem grants_iff : (c.checkAdmission type depth options).2.isAdmitted = true
    ↔ c.Grants type depth options := by
  rw [checkAdmission, decideAdmission, Grants]
  split
  · split
    · rename_i hfull
      exact iff_of_false nofun (fun h => nomatch hfull.symm.trans h)
    rename_i hroom
    exact iff_of_true rfl (Bool.eq_false_iff.mpr hroom)
  split
  · rename_i hfull
    exact iff_of_false nofun (fun h => nomatch hfull.symm.trans h.1)
  rename_i hroom
  split
  · rename_i hover
    exact iff_of_false nofun (fun h => nomatch hover.symm.trans h.2.1)
  rename_i hbudget
  split
  · rename_i hshed
    exact iff_of_false nofun (fun h => hshed.2 (h.2.2 hshed.1))
  rename_i hkept
  refine iff_of_true rfl ⟨Bool.eq_false_iff.mpr hroom, Bool.eq_false_iff.mpr hbudget, ?_⟩
  intro hdegraded
  exact not_not.mp (fun hlow => hkept ⟨hdegraded, hlow⟩)

theorem checkAdmission_config : (c.checkAdmission type depth options).1.config = c.config := by
  rw [checkAdmission, decideAdmission]
  split_ifs <;> rfl

theorem checkAdmission_state : (c.checkAdmission type depth options).1.state
    = nextState c.config c.state depth := by
  rw [checkAdmission, decideAdmission]
  split_ifs <;> rfl

theorem checkAdmission_cost : (c.checkAdmission type depth options).1.currentCost
      = if (c.checkAdmission type depth options).2.isAdmitted = true then
          Amount.add c.currentCost (c.config.getJobCost type options.costOverride)
        else c.currentCost := by
  rw [checkAdmission, decideAdmission]
  split_ifs <;> first | rfl | contradiction

end Check

end BackpressureController

end Jobs

import Inqutum.InsertionMapProofs
import Inqutum.RoundingProofs
import Inqutum.ScriptValueProofs
import Inqutum.TransitionProofs

/-!
# Workflow SLA tracking

`WorkflowSLAEngine` keeps one record for each workflow: the deadline of
the state it entered, its SLA status and its escalation level.  `evaluate`
sets status and level from the time past the deadline, `escalate` raises
the level by one, `resolve` closes the workflow.

Numbers are doubles with their rounding, so a level may be a fraction or
infinite, and a deadline out of range is an invalid date (`none`).  What
the audit sink is told is the log `sink`.

A record is `Sound` when its level is within the policy and agrees with
its status.  Each call keeps that and moves the record forward (`Moves`),
but for two kinds of call: `evaluate` forgets a manual escalation made
before the first automatic one was due, and `resolve` closes a closed
workflow again.
-/

namespace WorkflowSla

open Transition JsNumber List InsertionMap

/-! ## Policies -/

inductive SLAWorkflowState where
  | pendingPayment
  | pendingVerification
  | pendingApproval
  | pendingEscalationReview

def SLAWorkflowState.text : SLAWorkflowState → String
  | pendingPayment => "PENDING_PAYMENT"
  | pendingVerification => "PENDING_VERIFICATION"
  | pendingApproval => "PENDING_APPROVAL"
  | pendingEscalationReview => "PENDING_ESCALATION_REVIEW"

structure SLAPolicy where
  name : String
  dueSecs : Double
  escalationAfterSecs : Double
  maxEscalationLevel : Double

abbrev SLAPolicyRegistry := InsertionMap String SLAPolicy

/-! ## The state of one workflow -/

inductive SLAStatus where
  | onTime
  | overdue
  | escalated
  | resolved
  deriving DecidableEq

/-- The order in which a workflow goes through its statuses. -/
def SLAStatus.rank : SLAStatus → Nat
  | onTime => 0
  | overdue => 1
  | escalated => 2
  | resolved => 3

structure EscalationRecord where
  level : JsNumber
  actor : String
  reason : String
  at_ : Int

structure WorkflowSLAState where
  workflowId : String
  state : SLAWorkflowState
  enteredAt : Int
  /-- `none` is an invalid date. -/
  dueAt : Option Int
  slaStatus : SLAStatus
  escalationLevel : JsNumber
  resolvedAt : Option Int
  escalationHistory : List EscalationRecord

inductive SLAEventType where
  | overdue
  | escalated
  | resolved

structure SLAAuditEvent where
  workflowId : String
  eventType : SLAEventType
  previousStatus : SLAStatus
  newStatus : SLAStatus
  escalationLevel : JsNumber
  actor : String
  reason : String
  at_ : Int

/-- `date.getTime()`. -/
def getTime : Option Int → JsNumber
  | some ms => .finite ms
  | none => .nan

def WorkflowSLAState.overdueSecs (s : WorkflowSLAState) (now : Int) :
    JsNumber :=
  div (sub (.finite now) (getTime s.dueAt)) 1000

/-- The level the time past the deadline asks for. -/
def SLAPolicy.automaticLevel (policy : SLAPolicy) (overdueSecs : JsNumber) :
    JsNumber :=
  mathMin (floor (div overdueSecs policy.escalationAfterSecs.value)) policy.maxEscalationLevel.value

def automaticStatus (newLevel : JsNumber) : SLAStatus :=
  if lt 0 newLevel then .escalated else .overdue

/-! ## The engine -/

structure WorkflowSLAEngine where
  registry : SLAPolicyRegistry
  store : InsertionMap String WorkflowSLAState
  /-- What the audit sink was told. -/
  sink : List SLAAuditEvent

/-- What a call throws. -/
inductive Thrown where
  | error (message : String)
  | typeError (message : String)

abbrev Reply := WorkflowSLAEngine × Except Thrown WorkflowSLAState

def noState (workflowId : String) : Thrown :=
  .error ("No SLA state found for workflow \"" ++ workflowId ++ "\"")

def noPolicy (field : String) : Thrown :=
  .typeError ("Cannot read properties of undefined (reading '" ++ field ++ "')")

/-- What an evaluation past the deadline writes: the level goes up to the
    automatic one, and the status is that of the automatic level. -/
def evaluated (policy : SLAPolicy) (now : Int) (s : WorkflowSLAState) :
    WorkflowSLAState :=
  let newLevel := policy.automaticLevel (s.overdueSecs now)
  let raised := lt s.escalationLevel newLevel
  { s with
    slaStatus := automaticStatus newLevel
    escalationLevel := if raised then newLevel else s.escalationLevel
    escalationHistory := if raised
      then s.escalationHistory ++ [⟨newLevel, "system",
        "Automatic escalation: SLA deadline exceeded", now⟩]
      else s.escalationHistory }

def evaluatedEvent (workflowId : String) (now : Int) (s s' : WorkflowSLAState) : SLAAuditEvent where
  workflowId := workflowId
  eventType := if s'.slaStatus = .escalated then .escalated else .overdue
  previousStatus := s.slaStatus
  newStatus := s'.slaStatus
  escalationLevel := s'.escalationLevel
  actor := "system"
  reason := "Automatic SLA evaluation"
  at_ := now

def escalated (policy : SLAPolicy) (actor reason : String) (now : Int)
    (s : WorkflowSLAState) : WorkflowSLAState :=
  let newLevel := mathMin (add s.escalationLevel 1) policy.maxEscalationLevel.value
  { s with
    escalationLevel := newLevel
    slaStatus := .escalated
    escalationHistory := s.escalationHistory ++ [⟨newLevel, actor, reason, now⟩] }

def resolved (now : Int) (s : WorkflowSLAState) : WorkflowSLAState :=
  { s with slaStatus := .resolved, resolvedAt := some now }

namespace WorkflowSLAEngine

def enter (e : WorkflowSLAEngine) (workflowId : String)
    (state : SLAWorkflowState) (now : Int) : Reply :=
  match e.registry.get state.text with
  | none => (e, .error (.error ("No SLA policy registered for state \"" ++ state.text ++ "\"")))
  | some policy =>
    let slaState : WorkflowSLAState :=
      { workflowId
        state
        enteredAt := now
        dueAt := Canonical.timeClip (add (.finite now) (mul policy.dueSecs.value 1000))
        slaStatus := .onTime
        escalationLevel := 0
        resolvedAt := none
        escalationHistory := [] }
    ({ e with store := e.store.set workflowId slaState }, .ok slaState)

/-- Write the record and tell the sink. -/
def write (e : WorkflowSLAEngine) (workflowId : String)
    (s : WorkflowSLAState) (event : SLAAuditEvent) : Reply :=
  ({ e with store := e.store.set workflowId s, sink := e.sink ++ [event] }, .ok s)

def evaluate (e : WorkflowSLAEngine) (workflowId : String) (now : Int) :
    Reply :=
  match e.store.get workflowId with
  | none => (e, .error (noState workflowId))
  | some s =>
    if s.slaStatus = .resolved then (e, .ok s)
    -- still on time, whatever the status says
    else if lt (s.overdueSecs now) 0 then (e, .ok s)
    else
      match e.registry.get s.state.text with
      | none => (e, .error (noPolicy "escalationAfterSecs"))
      | some policy =>
        let newLevel := policy.automaticLevel (s.overdueSecs now)
        if s.slaStatus ≠ automaticStatus newLevel ∨ lt s.escalationLevel newLevel = true then
          e.write workflowId (evaluated policy now s)
            (evaluatedEvent workflowId now s (evaluated policy now s))
        else (e, .ok s)

def escalate (e : WorkflowSLAEngine) (workflowId actor reason : String) (now : Int) : Reply :=
  match e.store.get workflowId with
  | none => (e, .error (noState workflowId))
  | some s =>
    if s.slaStatus = .resolved then
      (e, .error (.error ("Cannot escalate a resolved workflow \"" ++ workflowId ++ "\"")))
    else
      match e.registry.get s.state.text with
      | none => (e, .error (noPolicy "maxEscalationLevel"))
      | some policy =>
        let s' := escalated policy actor reason now s
        e.write workflowId s' ⟨workflowId, .escalated, s.slaStatus, .escalated,
            s'.escalationLevel, actor, reason, now⟩

/-- The status is not looked at. -/
def resolve (e : WorkflowSLAEngine) (workflowId actor reason : String) (now : Int) : Reply :=
  match e.store.get workflowId with
  | none => (e, .error (noState workflowId))
  | some s =>
    e.write workflowId (resolved now s)
      ⟨workflowId, .resolved, s.slaStatus, .resolved, s.escalationLevel, actor, reason, now⟩

end WorkflowSLAEngine

open WorkflowSLAEngine

/-! ## Runs -/

inductive Call where
  | enter (workflowId : String) (state : SLAWorkflowState) (now : Int)
  | evaluate (workflowId : String) (now : Int)
  | escalate (workflowId actor reason : String) (now : Int)
  | resolve (workflowId actor reason : String) (now : Int)

def step (e : WorkflowSLAEngine) : Call → WorkflowSLAEngine
  | .enter workflowId state now => (e.enter workflowId state now).1
  | .evaluate workflowId now => (e.evaluate workflowId now).1
  | .escalate workflowId actor reason now => (e.escalate workflowId actor reason now).1
  | .resolve workflowId actor reason now => (e.resolve workflowId actor reason now).1

def Call.enters (workflowId : String) : Call → Bool
  | .enter w _ _ => decide (w = workflowId)
  | _ => false

/-! ## What a call does to one workflow -/

/-- The law of one call: `s` before it, `s'` after it. -/
structure Moves (policy : SLAPolicy) (s s' : WorkflowSLAState) : Prop where
  forward : s.slaStatus.rank ≤ s'.slaStatus.rank
  agrees : s'.slaStatus ≠ .resolved → (s'.slaStatus = .escalated ↔ lt 0 s'.escalationLevel = true)
  grows : le s.escalationLevel s'.escalationLevel = true
  capped : le s'.escalationLevel policy.maxEscalationLevel.value = true
  recorded : lt s.escalationLevel s'.escalationLevel = true →
    ∃ record, s'.escalationHistory = s.escalationHistory ++ [record]
      ∧ record.level = s'.escalationLevel
  kept : s.escalationHistory <+: s'.escalationHistory
  closed : s.slaStatus = .resolved → s' = s

/-- A record whose level is within the policy and agrees with its status. -/
structure Sound (policy : SLAPolicy) (s : WorkflowSLAState) : Prop where
  double : s.escalationLevel.isDouble = true
  nonneg : le 0 s.escalationLevel = true
  capped : le s.escalationLevel policy.maxEscalationLevel.value = true
  agrees : s.slaStatus ≠ .resolved → (s.slaStatus = .escalated ↔ lt 0 s.escalationLevel = true)

theorem ne_nan_of_le {x y : JsNumber} (h : le x y = true) : x ≠ nan ∧ y ≠ nan := by
  constructor
  · rintro rfl
    cases y <;> cases h
  rintro rfl
  cases x <;> cases h

theorem le_of_lt {x y : JsNumber} (h : lt x y = true) : le x y = true :=
  ((Bool.and_eq_true _ _).mp h).1

variable {newLevel : JsNumber} {status : SLAStatus} {x y z : JsNumber}

theorem lt_of_lt_of_le (hxy : lt x y = true) (hyz : le y z = true) : lt x z = true := by
  rw [lt, Bool.and_eq_true, Bool.not_eq_true'] at hxy ⊢
  refine ⟨le_trans hxy.1 hyz, Bool.eq_false_iff.mpr fun hzx => ?_⟩
  cases hxy.2.symm.trans (le_trans hyz hzx)

theorem nonneg_of_floor {x : JsNumber} (h : le 0 (floor x) = true) : le 0 x = true := by
  cases x with
  | finite q =>
    have hfloor : ((0 : Nat) : ℚ) ≤ ⌊q⌋ := of_decide_eq_true h
    exact decide_eq_true (hfloor.trans (Int.floor_le q))
  | _ => exact h

theorem level_zero {x : JsNumber} (hnonneg : le 0 x = true) (h : ¬ lt 0 x = true) : x = 0 := by
  cases x with
  | finite q =>
    rw [lt, Bool.and_eq_true, Bool.not_eq_true', not_and, Bool.not_eq_false] at h
    have hle : ((0 : Nat) : ℚ) ≤ q := of_decide_eq_true hnonneg
    have hge : q ≤ ((0 : Nat) : ℚ) := of_decide_eq_true (h hnonneg)
    exact congrArg finite (le_antisymm hge hle)
  | posInf => exact absurd rfl h
  | negInf => cases hnonneg
  | nan => cases hnonneg

theorem lt_of_le_of_lt (hxy : le x y = true) (hyz : lt y z = true) : lt x z = true := by
  rw [lt, Bool.and_eq_true, Bool.not_eq_true'] at hyz ⊢
  refine ⟨le_trans hxy hyz.1, Bool.eq_false_iff.mpr fun hzx => ?_⟩
  cases hyz.2.symm.trans (le_trans hzx hxy)

theorem isDouble_automaticLevel {policy : SLAPolicy} {overdueSecs : JsNumber}
    (h : le 0 (policy.automaticLevel overdueSecs) = true) :
    (policy.automaticLevel overdueSecs).isDouble = true := by
  rw [SLAPolicy.automaticLevel] at h ⊢
  rcases mathMin_cases (floor (div overdueSecs policy.escalationAfterSecs.value))
    policy.maxEscalationLevel.value with heq | heq | heq
  · rw [heq]
    rfl
  · rw [heq] at h ⊢
    exact isDouble_floor (isDouble_div _ _) (nonneg_of_floor h)
  rw [heq]
  exact policy.maxEscalationLevel.isDouble

theorem automaticStatus_eq_escalated :
    automaticStatus newLevel = .escalated ↔ lt 0 newLevel = true := by
  rw [automaticStatus]
  split
  · rename_i hpos
    exact ⟨fun _ => hpos, fun _ => rfl⟩
  rename_i hpos
  exact ⟨fun h => (nomatch h), fun h => absurd h hpos⟩

theorem rank_le_resolved (status : SLAStatus) : status.rank ≤ SLAStatus.resolved.rank := by
  cases status <;> decide

theorem rank_le_escalated (h : status ≠ .resolved) : status.rank ≤ SLAStatus.escalated.rank := by
  cases status with
  | resolved => exact absurd rfl h
  | _ => decide

/-- A workflow that is not escalated does not fall behind an evaluation. -/
theorem rank_le_automatic (hopen : status ≠ .resolved) (hesc : status ≠ .escalated) :
    status.rank ≤ (automaticStatus newLevel).rank := by
  have hone : status.rank ≤ SLAStatus.overdue.rank := by
    cases status with
    | resolved => exact absurd rfl hopen
    | escalated => exact absurd rfl hesc
    | _ => decide
  rw [automaticStatus]
  split
  · exact hone.trans (by decide)
  · exact hone

namespace Sound

variable {policy : SLAPolicy} {s : WorkflowSLAState}

theorem moves_self (h : Sound policy s) : Moves policy s s where
  forward := le_rfl
  agrees := h.agrees
  grows := le_self (ne_nan_of_le h.capped).1
  capped := h.capped
  recorded := fun hlt => by
    rw [lt, Bool.and_not_self] at hlt
    cases hlt
  kept := prefix_rfl
  closed := fun _ => rfl

/-- **AN EVALUATION THAT KEEPS AN ESCALATION** moves the record forward. -/
theorem evaluated (h : Sound policy s) {now : Int} (hopen : s.slaStatus ≠ .resolved)
    (hkeep : s.slaStatus = .escalated → lt 0 (policy.automaticLevel (s.overdueSecs now)) = true) :
    Sound policy (evaluated policy now s) ∧ Moves policy s (evaluated policy now s) := by
  have hnewLevel : ∀ {newLevel : JsNumber}, policy.automaticLevel (s.overdueSecs now) = newLevel →
      lt s.escalationLevel newLevel = true →
      newLevel.isDouble = true ∧ le newLevel policy.maxEscalationLevel.value = true := by
    rintro newLevel rfl hlt
    have hle := le_of_lt hlt
    exact ⟨isDouble_automaticLevel (le_trans h.nonneg hle), mathMin_le_right (ne_nan_of_le hle).2⟩
  rw [WorkflowSla.evaluated]
  generalize policy.automaticLevel (s.overdueSecs now) = newLevel at hkeep hnewLevel ⊢
  by_cases hraised : lt s.escalationLevel newLevel = true
  · -- the level goes up, so the workflow is escalated
    obtain ⟨hdouble, hcap⟩ := hnewLevel rfl hraised
    have hpos : lt 0 newLevel = true := lt_of_le_of_lt h.nonneg hraised
    simp only [hraised, if_true, automaticStatus, hpos]
    refine ⟨⟨hdouble, le_of_lt hpos, hcap, fun _ => ?_⟩, ?_⟩
    · exact ⟨fun _ => hpos, fun _ => rfl⟩
    exact
      { forward := rank_le_escalated hopen
        agrees := fun _ => ⟨fun _ => hpos, fun _ => rfl⟩
        grows := le_of_lt hraised
        capped := hcap
        recorded := fun _ => ⟨_, rfl, rfl⟩
        kept := prefix_append _ _
        closed := fun hclosed => absurd hclosed hopen }
  · simp only [hraised, if_false, Bool.false_eq_true]
    have hagrees : automaticStatus newLevel = .escalated ↔ lt 0 s.escalationLevel = true := by
      rw [automaticStatus_eq_escalated]
      constructor
      · intro hpos
        by_contra hzero
        rw [level_zero h.nonneg hzero] at hraised
        exact hraised hpos
      intro hpos
      exact hkeep ((h.agrees hopen).mpr hpos)
    have hforward : s.slaStatus.rank ≤ (automaticStatus newLevel).rank := by
      by_cases hesc : s.slaStatus = .escalated
      · rw [automaticStatus_eq_escalated.mpr (hkeep hesc)]
        exact rank_le_escalated hopen
      · exact rank_le_automatic hopen hesc
    refine ⟨⟨h.double, h.nonneg, h.capped, fun _ => hagrees⟩, ?_⟩
    exact
      { forward := hforward
        agrees := fun _ => hagrees
        grows := h.moves_self.grows
        capped := h.capped
        recorded := h.moves_self.recorded
        kept := prefix_rfl
        closed := fun hclosed => absurd hclosed hopen }

/-- **A MANUAL ESCALATION** moves the record forward. -/
theorem escalated (h : Sound policy s) (hmax : le 1 policy.maxEscalationLevel.value = true)
    (hopen : s.slaStatus ≠ .resolved) (actor reason : String) (now : Int) :
    Sound policy (escalated policy actor reason now s)
      ∧ Moves policy s (escalated policy actor reason now s) := by
  obtain ⟨hgrows, hone⟩ := le_add_one h.double h.nonneg
  have hup := le_mathMin hgrows h.capped
  have hpos := lt_of_lt_of_le (show lt 0 1 = true by decide +kernel) (le_mathMin hone hmax)
  have hcap := mathMin_le_right (ne_nan_of_le hup).2
  have hdouble : (mathMin (add s.escalationLevel 1)
      policy.maxEscalationLevel.value).isDouble = true := by
    rcases mathMin_cases (add s.escalationLevel 1)
      policy.maxEscalationLevel.value with heq | heq | heq
    · rw [heq]
      rfl
    · rw [heq]
      exact isDouble_add _ _
    rw [heq]
    exact policy.maxEscalationLevel.isDouble
  refine ⟨⟨hdouble, le_of_lt hpos, hcap, fun _ => ?_⟩, ?_⟩
  · exact ⟨fun _ => hpos, fun _ => rfl⟩
  exact
    { forward := rank_le_escalated hopen
      agrees := fun _ => ⟨fun _ => hpos, fun _ => rfl⟩
      grows := hup
      capped := hcap
      recorded := fun _ => ⟨_, rfl, rfl⟩
      kept := prefix_append _ _
      closed := fun hclosed => absurd hclosed hopen }

/-- A workflow is closed, or closed again at the same instant. -/
theorem resolved (h : Sound policy s) {now : Int}
    (hsame : s.slaStatus = .resolved → s.resolvedAt = some now) :
    Sound policy (resolved now s) ∧ Moves policy s (resolved now s) := by
  refine ⟨⟨h.double, h.nonneg, h.capped, fun hopen => absurd rfl hopen⟩, ?_⟩
  exact
    { forward := rank_le_resolved s.slaStatus
      agrees := fun hopen => absurd rfl hopen
      grows := h.moves_self.grows
      capped := h.capped
      recorded := h.moves_self.recorded
      kept := prefix_rfl
      closed := fun hclosed => by rw [WorkflowSla.resolved, ← hsame hclosed, ← hclosed] }

end Sound

/-! ## What a call does to the engine -/

/-- The call moves the workflow's record by the law. -/
def Lawful (workflowId : String) (policy : SLAPolicy) (e : WorkflowSLAEngine) (c : Call) : Prop :=
  ∃ s s', e.store.get workflowId = some s
    ∧ (step e c).store.get workflowId = some s' ∧ Moves policy s s'

/-- The call does not evaluate the workflow while it is escalated and past its
    deadline by less than the first interval, and does not resolve it again
    at another instant. -/
def Agrees (workflowId : String) (policy : SLAPolicy) (e : WorkflowSLAEngine) : Call → Prop
  | .evaluate w now => w = workflowId → ∀ s ∈ e.store.get workflowId, s.slaStatus = .escalated →
        lt (s.overdueSecs now) 0 = true ∨ lt 0 (policy.automaticLevel (s.overdueSecs now)) = true
  | .resolve w _ _ now => w = workflowId →
      ∀ s ∈ e.store.get workflowId, s.slaStatus = .resolved → s.resolvedAt = some now
  | _ => True

instance (workflowId : String) (policy : SLAPolicy) (e : WorkflowSLAEngine) :
    (c : Call) → Decidable (Agrees workflowId policy e c)
  | .enter _ _ _ => instDecidableTrue
  | .escalate _ _ _ _ => instDecidableTrue
  | .evaluate w now => inferInstanceAs (Decidable (w = workflowId →
      ∀ s ∈ e.store.get workflowId, s.slaStatus = .escalated → lt (s.overdueSecs now) 0 = true
          ∨ lt 0 (policy.automaticLevel (s.overdueSecs now)) = true))
  | .resolve w _ _ now => inferInstanceAs (Decidable (w = workflowId →
      ∀ s ∈ e.store.get workflowId, s.slaStatus = .resolved → s.resolvedAt = some now))

/-- The workflow is stored, under its policy, with a sound record. -/
structure Tracked (workflowId : String) (policy : SLAPolicy)
    (e : WorkflowSLAEngine) (s : WorkflowSLAState) : Prop where
  stored : e.store.get workflowId = some s
  governed : e.registry.get s.state.text = some policy
  sound : Sound policy s

section Engine

variable {workflowId : String} {policy : SLAPolicy}
  {e e' : WorkflowSLAEngine} {s s' : WorkflowSLAState}

/-- A call leaves the workflow alone, or writes its record. -/
structure Writes (workflowId : String) (e e' : WorkflowSLAEngine)
    (s s' : WorkflowSLAState) : Prop where
  stored : e'.store.get workflowId = some s'
  registry : e'.registry = e.registry
  state : s'.state = s.state

theorem Writes.tracked (h : Writes workflowId e e' s s')
    (hs : Tracked workflowId policy e s) (hsound : Sound policy s') :
    Tracked workflowId policy e' s' where
  stored := h.stored
  governed := by
    rw [h.registry, h.state]
    exact hs.governed
  sound := hsound

theorem write_writes (event : SLAAuditEvent) (hstate : s'.state = s.state) :
    Writes workflowId e (e.write workflowId s' event).1 s s' where
  stored := get_set_self _ _ _
  registry := rfl
  state := hstate

theorem write_other {w : String} {t : WorkflowSLAState}
    (event : SLAAuditEvent) (hw : w ≠ workflowId) (hs : e.store.get workflowId = some s) :
    Writes workflowId e (e.write w t event).1 s s where
  stored := by
    show (e.store.set w t).get workflowId = some s
    rw [get_set_of_ne _ _ hw]
    exact hs
  registry := rfl
  state := rfl

theorem Writes.refl (hs : e.store.get workflowId = some s) :
    Writes workflowId e e s s := ⟨hs, rfl, rfl⟩

/-- The record after the call, on the tracked workflow. -/
def after (workflowId : String) (policy : SLAPolicy) (s : WorkflowSLAState) :
    Call → WorkflowSLAState
  | .enter _ _ _ => s
  | .evaluate w now =>
    if w = workflowId ∧ s.slaStatus ≠ .resolved
        ∧ lt (s.overdueSecs now) 0 = false then evaluated policy now s
    else s
  | .escalate w actor reason now =>
    if w = workflowId ∧ s.slaStatus ≠ .resolved then
      escalated policy actor reason now s
    else s
  | .resolve w _ _ now => if w = workflowId then resolved now s else s

theorem evaluated_eq_self {now : Int} (h : ¬ (s.slaStatus ≠ automaticStatus
        (policy.automaticLevel (s.overdueSecs now))
      ∨ lt s.escalationLevel (policy.automaticLevel (s.overdueSecs now)) = true)) :
    evaluated policy now s = s := by
  rw [not_or, not_not] at h
  simp only [evaluated, h.2, if_false, Bool.false_eq_true, ← h.1]

/-- **THE STEP OF ONE WORKFLOW**: what a call leaves in the store. -/
theorem step_writes (hs : e.store.get workflowId = some s)
    (hpolicy : e.registry.get s.state.text = some policy) (c : Call)
    (hc : c.enters workflowId = false) :
    Writes workflowId e (step e c) s (after workflowId policy s c) := by
  cases c with
  | enter w state now =>
    have hw : w ≠ workflowId := of_decide_eq_false hc
    show Writes workflowId e (e.enter w state now).1 s s
    rw [enter]
    cases e.registry.get state.text with
    | none => exact Writes.refl hs
    | some p =>
      refine ⟨?_, rfl, rfl⟩
      exact (get_set_of_ne _ _ hw).trans hs
  | evaluate w now =>
    show Writes workflowId e (e.evaluate w now).1 s (after workflowId policy s (.evaluate w now))
    by_cases hw : w = workflowId
    · subst hw
      rw [evaluate, hs]
      dsimp only
      split
      · rename_i hres
        rw [after, if_neg (fun h => h.2.1 hres)]
        exact Writes.refl hs
      rename_i hopen
      split
      · rename_i hearly
        rw [after, if_neg (fun h => by rw [hearly] at h; simp at h)]
        exact Writes.refl hs
      rename_i hdue
      rw [hpolicy, after, if_pos ⟨rfl, hopen, Bool.eq_false_iff.mpr hdue⟩]
      dsimp only
      split
      · exact write_writes _ rfl
      rename_i hsame
      rw [evaluated_eq_self hsame]
      exact Writes.refl hs
    · rw [after, if_neg (fun h => hw h.1), evaluate]
      cases e.store.get w with
      | none => exact Writes.refl hs
      | some t =>
        dsimp only
        split
        · exact Writes.refl hs
        split
        · exact Writes.refl hs
        cases e.registry.get t.state.text with
        | none => exact Writes.refl hs
        | some p =>
          dsimp only
          split
          · exact write_other _ hw hs
          · exact Writes.refl hs
  | escalate w actor reason now =>
    show Writes workflowId e (e.escalate w actor reason now).1 s
      (after workflowId policy s (.escalate w actor reason now))
    by_cases hw : w = workflowId
    · subst hw
      rw [escalate, hs]
      dsimp only
      split
      · rename_i hres
        rw [after, if_neg (fun h => h.2 hres)]
        exact Writes.refl hs
      rename_i hopen
      rw [hpolicy, after, if_pos ⟨rfl, hopen⟩]
      exact write_writes _ rfl
    · rw [after, if_neg (fun h => hw h.1), escalate]
      cases e.store.get w with
      | none => exact Writes.refl hs
      | some t =>
        dsimp only
        split
        · exact Writes.refl hs
        cases e.registry.get t.state.text with
        | none => exact Writes.refl hs
        | some p => exact write_other _ hw hs
  | resolve w actor reason now =>
    show Writes workflowId e (e.resolve w actor reason now).1 s
      (after workflowId policy s (.resolve w actor reason now))
    by_cases hw : w = workflowId
    · subst hw
      rw [resolve, hs, after, if_pos rfl]
      exact write_writes _ rfl
    rw [after, if_neg hw, resolve]
    cases e.store.get w with
    | none => exact Writes.refl hs
    | some t => exact write_other _ hw hs

theorem after_moves (hs : Tracked workflowId policy e s)
    (hmax : le 1 policy.maxEscalationLevel.value = true) {c : Call}
    (h : Agrees workflowId policy e c) :
    Sound policy (after workflowId policy s c) ∧ Moves policy s (after workflowId policy s c) := by
  have hself : Sound policy s ∧ Moves policy s s := ⟨hs.sound, hs.sound.moves_self⟩
  cases c with
  | enter w state now => exact hself
  | evaluate w now =>
    rw [after]
    split
    · rename_i hcase
      obtain ⟨hw, hopen, hdue⟩ := hcase
      refine hs.sound.evaluated hopen fun hesc => ?_
      rcases h hw s hs.stored hesc with hearly | hpos
      · cases hdue.symm.trans hearly
      · exact hpos
    · exact hself
  | escalate w actor reason now =>
    rw [after]
    split
    · rename_i hcase
      exact hs.sound.escalated hmax hcase.2 actor reason now
    · exact hself
  | resolve w actor reason now =>
    rw [after]
    split
    · rename_i hw
      exact hs.sound.resolved (h hw s hs.stored)
    · exact hself

theorem agrees_of_moves (hs : Tracked workflowId policy e s) {c : Call}
    (h : Moves policy s (after workflowId policy s c)) : Agrees workflowId policy e c := by
  cases c with
  | enter w state now => exact trivial
  | evaluate w now =>
    intro hw t ht hesc
    obtain rfl := Option.some.inj (hs.stored.symm.trans ht)
    by_contra hbad
    rw [not_or] at hbad
    -- the evaluation takes the escalated workflow back to overdue
    have hopen : s.slaStatus ≠ .resolved := by
      rw [hesc]
      decide
    rw [after, if_pos ⟨hw, hopen, Bool.eq_false_iff.mpr hbad.1⟩] at h
    have hback : (evaluated policy now s).slaStatus = .overdue := if_neg hbad.2
    have hforward := h.forward
    rw [hesc, hback] at hforward
    exact absurd hforward (by decide)
  | escalate w actor reason now => exact trivial
  | resolve w actor reason now =>
    intro hw t ht hclosed
    obtain rfl := Option.some.inj (hs.stored.symm.trans ht)
    rw [after, if_pos hw] at h
    rw [← h.closed hclosed]
    rfl

end Engine

/-! ## Runs from an entry -/

/-- The record an entry writes. -/
theorem enter_tracked (e : WorkflowSLAEngine) (workflowId : String)
    {state : SLAWorkflowState} {policy : SLAPolicy} (now : Int)
    (hpolicy : e.registry.get state.text = some policy)
    (hmax : le 1 policy.maxEscalationLevel.value = true) :
    ∃ s, Tracked workflowId policy (e.enter workflowId state now).1 s := by
  rw [enter, hpolicy]
  refine ⟨_, get_set_self _ _ _, hpolicy, ?_⟩
  have hzero : lt (0 : JsNumber) 0 = false := by decide +kernel
  have hdouble : (0 : JsNumber).isDouble = true := by decide +kernel
  have hnonneg : le (0 : JsNumber) 0 = true := by decide +kernel
  have hone : le (0 : JsNumber) 1 = true := by decide +kernel
  exact
    { double := hdouble
      nonneg := hnonneg
      capped := le_trans hone hmax
      agrees := fun _ => ⟨fun h => (nomatch h), fun h => (by
        rw [hzero] at h
        cases h)⟩ }

/-- **AN SLA ONLY MOVES FORWARD**: after a workflow's entry under a policy
    whose top level is at least one, every call of a run moves its record by
    the law if and only if every call agrees. -/
theorem sla_forward_iff (e : WorkflowSLAEngine) (workflowId : String)
    (state : SLAWorkflowState) (policy : SLAPolicy) (now : Int)
    (calls : List Call)
    (hpolicy : e.registry.get state.text = some policy)
    (hmax : le 1 policy.maxEscalationLevel.value = true)
    (hcalls : ∀ c ∈ calls, c.enters workflowId = false) :
    Along step (Lawful workflowId policy) (e.enter workflowId state now).1 calls
      ↔ Along step (Agrees workflowId policy) (e.enter workflowId state now).1 calls := by
  have htracked := enter_tracked e workflowId now hpolicy hmax
  generalize (e.enter workflowId state now).1 = e₀ at htracked ⊢
  clear hpolicy
  induction calls generalizing e₀ with
  | nil => exact Iff.rfl
  | cons c calls ih =>
    obtain ⟨s, hs⟩ := htracked
    have hwrites := step_writes hs.stored hs.governed c (hcalls c (.head _))
    have hlawful : Lawful workflowId policy e₀ c ↔ Agrees workflowId policy e₀ c := by
      constructor
      · rintro ⟨t, t', ht, ht', hmoves⟩
        obtain rfl := Option.some.inj (hs.stored.symm.trans ht)
        obtain rfl := Option.some.inj (hwrites.stored.symm.trans ht')
        exact agrees_of_moves hs hmoves
      intro hagrees
      exact ⟨s, _, hs.stored, hwrites.stored, (after_moves hs hmax hagrees).2⟩
    show Lawful workflowId policy e₀ c ∧ _ ↔ Agrees workflowId policy e₀ c ∧ _
    rw [hlawful]
    refine and_congr_right fun hagrees => ?_
    exact ih (fun c' h => hcalls c' (.tail _ h)) _
      ⟨_, hwrites.tracked hs (after_moves hs hmax hagrees).1⟩

/-! ## An early escalation is forgotten -/

/-- Ten seconds to the deadline, five to the first escalation. -/
def fastPolicy : SLAPolicy := ⟨"Fast test policy", 10, 5, 2⟩

def fastEngine : WorkflowSLAEngine :=
  ⟨empty.set "PENDING_PAYMENT" fastPolicy, .empty, []⟩

/-- A manual escalation one second after the deadline, an evaluation one
    second later and a second resolution. -/
def earlyEscalation : List Call :=
  [.escalate "wf" "admin" "urgent" 11000, .evaluate "wf" 12000,
    .resolve "wf" "admin" "done" 13000, .resolve "wf" "admin" "done" 14000]

/-- An automatic escalation, a manual one after it and the end. -/
def lateEscalation : List Call :=
  [.evaluate "wf" 11000, .evaluate "wf" 16000,
    .escalate "wf" "admin" "urgent" 17000, .evaluate "wf" 18000,
    .resolve "wf" "admin" "done" 19000, .evaluate "wf" 99000]

theorem sla_forward_late : Along step (Lawful "wf" fastPolicy)
      (fastEngine.enter "wf" .pendingPayment 0).1 lateEscalation := by
  refine (sla_forward_iff fastEngine "wf" .pendingPayment fastPolicy 0
    lateEscalation rfl (by decide +kernel) ?_).mpr (by decide +kernel)
  intro c hc
  simp only [lateEscalation, mem_cons, not_mem_nil, or_false] at hc
  rcases hc with rfl | rfl | rfl | rfl | rfl | rfl <;> rfl

theorem early_escalation_forgotten : ¬ Along step (Lawful "wf" fastPolicy)
      (fastEngine.enter "wf" .pendingPayment 0).1 earlyEscalation := by
  rintro ⟨-, ⟨s, s', hs, hs', hmoves⟩, -⟩
  have hbefore : ∀ t ∈ (step (fastEngine.enter "wf" .pendingPayment 0).1
      (.escalate "wf" "admin" "urgent" 11000)).store.get "wf",
      t.slaStatus = .escalated := by decide +kernel
  have hafter : ∀ t ∈ (step (step (fastEngine.enter "wf" .pendingPayment 0).1
      (.escalate "wf" "admin" "urgent" 11000))
      (.evaluate "wf" 12000)).store.get "wf",
      t.slaStatus = .overdue := by decide +kernel
  have hforward := hmoves.forward
  rw [hbefore s hs, hafter s' hs'] at hforward
  exact absurd hforward (by decide)

end WorkflowSla

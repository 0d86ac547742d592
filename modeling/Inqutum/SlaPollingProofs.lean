import Inqutum.RoundingOrderProofs
import Inqutum.WorkflowSlaProofs

/-!
# An SLA does not depend on how often it is evaluated

An evaluation writes status and level over what earlier ones left.  The
level an instant asks for grows with the instant (`automaticLevel_mono`),
so what earlier evaluations left is never above it (`Polled`), and the
last one leaves what it would have left alone (`evaluate_once`).

What it leaves is `settled`: on time before the deadline, and from then on
the automatic level if it is above zero.  For an interval of whole seconds
that level is exact (`automaticLevel_exact`); a fraction of a second is
divided by in doubles, and rounding may give another level.  A top level
that is not above zero, or a deadline that is no date, gives no positive
level, and the stored one stays zero.
-/

namespace WorkflowSla

open Transition JsNumber Int Canonical WorkflowSLAState

/-! ## Time past the deadline -/

/-- The deadline an entry writes. -/
def deadline (policy : SLAPolicy) (entry : Int) : Option Int :=
  timeClip (add (.finite entry) (mul policy.dueSecs.value 1000))

theorem abs_timeClip {x : JsNumber} {d : Int}
    (h : timeClip x = some d) : |d| ≤ maxTime := by
  cases x with
  | finite q =>
    rw [timeClip] at h
    split at h
    · rename_i hq
      obtain ⟨hlow, hhigh⟩ := abs_le.mp hq
      rw [← Option.some.inj h, abs_le]
      split
      · constructor
        · have hceil := hlow.trans (le_ceil q)
          exact_mod_cast hceil
        · exact ceil_le.mpr hhigh
      constructor
      · refine le_floor.mpr ?_
        push_cast
        exact hlow
      have hfloor := (floor_le q).trans hhigh
      exact_mod_cast hfloor
    · cases h
  | _ => cases h

/-- `(now - dueAt) / 1000`. -/
def overdue (now due : Int) : JsNumber :=
  div (sub (.finite now) (.finite due)) 1000

theorem lt_zero_thousand : lt 0 1000 = true := by decide +kernel

theorem sub_intCast (now due : Int) :
    sub (.finite now) (.finite due) = binary64 ((now - due : Int) : ℚ) := by
  rw [cast_sub, sub_eq_add_neg]
  rfl

theorem overdue_mono {u t due : Int} (h : u ≤ t) : le (overdue u due) (overdue t due) = true := by
  refine div_mono lt_zero_thousand ?_ (.inl rfl)
  rw [sub_intCast, sub_intCast]
  exact binary64_mono (by exact_mod_cast sub_le_sub_right h due)

/-- Dates are not so far apart that their distance is infinite. -/
theorem overdue_finite {now due : Int} (hnow : |now| ≤ maxTime)
    (hdue : |due| ≤ maxTime) : (overdue now due).isFinite = true := by
  rw [maxTime, abs_le] at hnow hdue
  have hlow : le (finite (-2 ^ 55)) (sub (.finite now) (.finite due)) = true := by
    rw [sub_intCast, ← show binary64 (-2 ^ 55) = finite (-2 ^ 55) by decide +kernel]
    refine binary64_mono ?_
    have hint : (-2 ^ 55 : Int) ≤ now - due := by omega
    exact_mod_cast hint
  have hhigh : le (sub (.finite now) (.finite due)) (finite (2 ^ 55)) = true := by
    rw [sub_intCast, ← show binary64 (2 ^ 55) = finite (2 ^ 55) by decide +kernel]
    refine binary64_mono ?_
    have hint : now - due ≤ (2 ^ 55 : Int) := by omega
    exact_mod_cast hint
  have hbelow := div_mono lt_zero_thousand hlow (.inl rfl)
  have habove := div_mono lt_zero_thousand hhigh (.inl rfl)
  have hleast : (div (finite (-2 ^ 55)) 1000).isFinite = true := by decide +kernel
  have hmost : (div (finite (2 ^ 55)) 1000).isFinite = true := by decide +kernel
  show (div (sub (.finite now) (.finite due)) 1000).isFinite = true
  generalize div (sub (.finite now) (.finite due)) 1000 = x at hbelow habove ⊢
  cases x with
  | finite q => rfl
  | nan =>
    generalize div (finite (2 ^ 55)) 1000 = y at habove
    cases y <;> cases habove
  | posInf =>
    generalize div (finite (2 ^ 55)) 1000 = y at habove hmost
    cases y with
    | finite b => cases habove
    | _ => cases hmost
  | negInf =>
    generalize div (finite (-2 ^ 55)) 1000 = y at hbelow hleast
    cases y with
    | finite b => cases hbelow
    | _ => cases hleast

/-- Before the deadline is before it in doubles too. -/
theorem overdue_lt_zero {now due : Int} : lt (overdue now due) 0 = true ↔ now < due := by
  constructor
  · intro hearly
    by_contra hlate
    have hle : le (overdue due due) (overdue now due) = true := overdue_mono (not_lt.mp hlate)
    have hzero : overdue due due = 0 := by
      rw [overdue, sub_intCast, sub_self]
      decide +kernel
    rw [hzero] at hle
    rw [lt, Bool.and_eq_true, Bool.not_eq_true', hle] at hearly
    cases hearly.2
  · intro h
    have hle : le (overdue now due) (overdue (due - 1) due) = true := overdue_mono (by omega)
    refine lt_of_le_of_lt hle ?_
    rw [overdue, sub_intCast, show due - 1 - due = -1 by ring]
    decide +kernel

/-- **THE LEVEL GROWS WITH THE TIME**. -/
theorem automaticLevel_mono {policy : SLAPolicy} {x y : JsNumber}
    (hesc : lt 0 policy.escalationAfterSecs.value = true)
    (h : le x y = true) (hx : x.isFinite = true) (hy : y.isFinite = true)
    (hlevel : policy.automaticLevel x ≠ nan) :
    le (policy.automaticLevel x) (policy.automaticLevel y) = true :=
  mathMin_mono (floor_mono (div_mono hesc h (.inr ⟨hx, hy⟩))) hlevel

/-! ## Whole seconds -/

/-- The level that an interval of `k` seconds asks for, in exact numbers. -/
def exactLevel (policy : SLAPolicy) (k : Nat) (now due : Int) : JsNumber :=
  mathMin (.ofNat ((now - due).toNat / (1000 * k))) policy.maxEscalationLevel.value

/-- Two quotients are rounded, each by too little to reach the next level. -/
theorem lt_next_level {d k m x y : ℚ} (hk : 0 < k) (hx : x ≤ d / 1000 * (1 + 2 ^ (-53 : Int)))
    (hy : y ≤ x / k * (1 + 2 ^ (-53 : Int))) (hhigh : d + 1 ≤ (m + 1) * (1000 * k))
    (hlast : (m + 1) * (1000 * k) ≤ 2 ^ 51) : y < m + 1 := by
  by_contra hnext
  have hnext : m + 1 ≤ y := not_lt.mp hnext
  have hyk : y * k ≤ x * (1 + 2 ^ (-53 : Int)) := by
    rwa [div_mul_eq_mul_div, le_div_iff₀ hk] at hy
  have hfar : (m + 1) * (1000 * k) ≤ d * (1 + 2 ^ (-53 : Int)) * (1 + 2 ^ (-53 : Int)) :=
    calc (m + 1) * (1000 * k) ≤ y * (1000 * k) := by gcongr
      _ = 1000 * (y * k) := by ring
      _ ≤ 1000 * (x * (1 + 2 ^ (-53 : Int))) := by gcongr
      _ ≤ 1000 * (d / 1000 * (1 + 2 ^ (-53 : Int)) * (1 + 2 ^ (-53 : Int))) := by gcongr
      _ = d * (1 + 2 ^ (-53 : Int)) * (1 + 2 ^ (-53 : Int)) := by ring
  norm_num at hfar hlast hhigh
  linarith

theorem floor_overdue {k d : Nat} {now due : Int} (hk : 0 < k) (hd : now - due = d)
    (hbound : d + 1000 * k ≤ 2 ^ 51) :
    floor (div (overdue now due) (.ofNat k)) = .ofNat (d / (1000 * k)) := by
  have hkq : (0 : ℚ) < k := by exact_mod_cast hk
  have hsecs : overdue now due = binary64 (d / 1000) := by
    rw [overdue, sub_intCast, hd, binary64_safe (by omega)]
    exact (JsNumber.div_pos (by norm_num)).1 _
  rcases Nat.eq_zero_or_pos d with rfl | hpos
  · rw [hsecs, Nat.zero_div, Nat.cast_zero, zero_div]
    show floor (div (finite 0) (finite k)) = _
    rw [(JsNumber.div_pos hkq).1, zero_div]
    rfl
  have hdq : (1 : ℚ) ≤ d := by exact_mod_cast hpos
  have hdhigh : (d : ℚ) ≤ 2 ^ 51 := by
    have : d ≤ 2 ^ 51 := by omega
    exact_mod_cast this
  have hkhigh : (k : ℚ) ≤ 2 ^ 51 := by
    have : k ≤ 2 ^ 51 := by omega
    exact_mod_cast this
  -- the quotient of the seconds is at least the level and not yet the next one
  generalize hm : d / (1000 * k) = m
  have hlow : m * (1000 * k) ≤ d := hm ▸ Nat.div_mul_le_self d _
  have hhigh : d + 1 ≤ (m + 1) * (1000 * k) := by
    rw [← hm, Nat.add_mul, Nat.one_mul, Nat.mul_comm (d / _)]
    exact Nat.lt_mul_div_succ d (by omega)
  have hlast : (m + 1) * (1000 * k) ≤ 2 ^ 51 := by
    have hone : (m + 1) * (1000 * k) = m * (1000 * k) + 1000 * k := Nat.succ_mul _ _
    omega
  have hmk : m * k ≤ m * (1000 * k) := Nat.mul_le_mul_left m (by omega)
  have hmone : m + 1 ≤ (m + 1) * (1000 * k) := Nat.le_mul_of_pos_right _ (by omega)
  obtain ⟨x, hx, hxhigh⟩ := binary64_le_rel (q := (d : ℚ) / 1000) (by
    rw [le_div_iff₀ (by norm_num)]
    norm_num
    linarith) (by
    rw [div_lt_iff₀ (by norm_num)]
    norm_num
    linarith)
  have hxleast : (1 : ℚ) / 1024 ≤ x := by
    have hle : le (binary64 (1 / 1024)) (binary64 (d / 1000)) = true :=
      binary64_mono (by linarith)
    rw [hx, show binary64 (1 / 1024) = finite (1 / 1024) by decide +kernel] at hle
    exact of_decide_eq_true hle
  have hxlow : ((m * k : Nat) : ℚ) ≤ x := by
    refine natCast_le_rounded (by omega) ?_ hx
    rw [le_div_iff₀ (by norm_num)]
    exact_mod_cast (by rw [mul_assoc, mul_comm k]; exact hlow : m * k * 1000 ≤ d)
  obtain ⟨y, hy, hyhigh⟩ := binary64_le_rel (q := x / k) (by
    rw [le_div_iff₀ hkq]
    norm_num
    linarith) (by
    have hkone : (1 : ℚ) ≤ k := by exact_mod_cast hk
    rw [div_lt_iff₀ hkq]
    norm_num at hxhigh ⊢
    linarith)
  have hylow : (m : ℚ) ≤ y := by
    refine natCast_le_rounded (by omega) ?_ hy
    rw [le_div_iff₀ hkq]
    exact_mod_cast hxlow
  rw [hsecs, hx]
  show floor (div (finite x) (finite k)) = _
  rw [(JsNumber.div_pos hkq).1, hy]
  have hfloor : ⌊y⌋ = (m : Int) := by
    rw [Int.floor_eq_iff]
    exact ⟨by exact_mod_cast hylow, by
      exact_mod_cast lt_next_level (m := m) hkq hxhigh hyhigh (by exact_mod_cast hhigh)
        (by exact_mod_cast hlast)⟩
  show finite (⌊y⌋ : Int) = _
  rw [hfloor]
  rfl

theorem automaticLevel_exact {policy : SLAPolicy} {k : Nat} {now due : Int}
    (hesc : lt 0 policy.escalationAfterSecs.value = true)
    (hk : policy.escalationAfterSecs.value = .ofNat k) (hlate : due ≤ now)
    (hbound : now - due + 1000 * k ≤ 2 ^ 51) :
    policy.automaticLevel (overdue now due) = exactLevel policy k now due := by
  have hpos : 0 < k := by
    rw [hk] at hesc
    rcases Nat.eq_zero_or_pos k with rfl | hpos
    · exact absurd hesc (by decide)
    · exact hpos
  obtain ⟨d, hd⟩ := Int.eq_ofNat_of_zero_le (sub_nonneg.mpr hlate)
  rw [SLAPolicy.automaticLevel, exactLevel, hk, hd, Int.toNat_natCast,
    floor_overdue hpos hd (by omega)]

/-! ## What evaluations leave -/

/-- Status and level at an instant. -/
def settled (policy : SLAPolicy) (dueAt : Option Int) (now : Int) : SLAStatus × JsNumber :=
  match dueAt with
  | none => (.overdue, 0)
  | some due =>
    if now < due then (.onTime, 0)
    else
      let level := policy.automaticLevel (overdue now due)
      (automaticStatus level, if lt 0 level then level else 0)

/-- The call does not enter, escalate or resolve the workflow, and evaluates
    it no later than `t`. -/
def Polls (workflowId : String) (t : Int) : Call → Prop
  | .enter w _ _ => w ≠ workflowId
  | .evaluate w now => w = workflowId → |now| ≤ maxTime ∧ now ≤ t
  | .escalate w _ _ _ => w ≠ workflowId
  | .resolve w _ _ _ => w ≠ workflowId

/-- What evaluations up to `t` leave: nothing before the deadline, and never a
    level above the one `t` asks for. -/
structure Polled (policy : SLAPolicy) (dueAt : Option Int) (t : Int)
    (s : WorkflowSLAState) : Prop where
  dueAt : s.dueAt = dueAt
  fresh : s.slaStatus = .onTime → s.escalationLevel = 0
  late : s.slaStatus ≠ .onTime → lt (s.overdueSecs t) 0 = false
  open_ : s.slaStatus ≠ .resolved
  level : s.escalationLevel = 0 ∨ lt 0 s.escalationLevel = true
    ∧ le s.escalationLevel (policy.automaticLevel (s.overdueSecs t)) = true

theorem eq_of_le_of_le {x y : JsNumber} (hxy : le x y = true) (hyx : le y x = true) : x = y := by
  cases x <;> cases y <;> simp_all only [le, reduceCtorEq, decide_eq_true_eq]
  rw [le_antisymm hxy hyx]

theorem automaticStatus_ne (level : JsNumber) :
    automaticStatus level ≠ .onTime ∧ automaticStatus level ≠ .resolved := by
  rw [automaticStatus]
  split <;> decide

section Polling

variable {policy : SLAPolicy} {dueAt : Option Int} {t now : Int}
  {s : WorkflowSLAState}

theorem late_mono (h : now ≤ t) (hlate : lt (s.overdueSecs now) 0 = false) :
    lt (s.overdueSecs t) 0 = false := by
  cases hdue : s.dueAt with
  | none =>
    rw [overdueSecs, hdue]
    rfl
  | some due =>
    rw [overdueSecs, hdue] at hlate ⊢
    rw [Bool.eq_false_iff] at hlate ⊢
    exact fun hearly => hlate (overdue_lt_zero.mpr (h.trans_lt (overdue_lt_zero.mp hearly)))

/-- **ONE EVALUATION** keeps what evaluations leave. -/
theorem Polled.evaluated (hs : Polled policy dueAt t s)
    (hesc : lt 0 policy.escalationAfterSecs.value = true)
    (hdue : ∀ due ∈ dueAt, |due| ≤ maxTime)
    (ht : |t| ≤ maxTime) (hnow : |now| ≤ maxTime)
    (hle : now ≤ t) (hlate : lt (s.overdueSecs now) 0 = false) :
    Polled policy dueAt t (evaluated policy now s) where
  dueAt := hs.dueAt
  fresh := fun h => absurd h (automaticStatus_ne _).1
  late := fun _ => late_mono hle hlate
  open_ := (automaticStatus_ne _).2
  level := by
    show (if lt s.escalationLevel (policy.automaticLevel (s.overdueSecs now)) = true
        then policy.automaticLevel (s.overdueSecs now)
        else s.escalationLevel) = 0
      ∨ lt 0 (if _ then _ else _) = true ∧ le (if _ then _ else _)
          (policy.automaticLevel (s.overdueSecs t)) = true
    split
    · -- the level is raised to the one `now` asks for
      rename_i hraised
      have hnonneg : le 0 s.escalationLevel = true := by
        rcases hs.level with hzero | ⟨hpos, -⟩
        · rw [hzero]
          decide +kernel
        · exact le_of_lt hpos
      refine .inr ⟨lt_of_le_of_lt hnonneg hraised, ?_⟩
      have hlevel := (ne_nan_of_le (le_of_lt hraised)).2
      cases hdueAt : dueAt with
      | none =>
        rw [overdueSecs, hs.dueAt, hdueAt] at hlevel
        exact absurd rfl hlevel
      | some due =>
        have hvalid := hdue due hdueAt
        rw [overdueSecs, hs.dueAt, hdueAt] at hlevel ⊢
        rw [overdueSecs, hs.dueAt, hdueAt]
        exact automaticLevel_mono hesc (overdue_mono hle)
          (overdue_finite hnow hvalid) (overdue_finite ht hvalid) hlevel
    · exact hs.level

theorem Polled.after (hs : Polled policy dueAt t s)
    (hesc : lt 0 policy.escalationAfterSecs.value = true)
    (hdue : ∀ due ∈ dueAt, |due| ≤ maxTime)
    (ht : |t| ≤ maxTime) {workflowId : String} {c : Call} (hc : Polls workflowId t c) :
    Polled policy dueAt t (after workflowId policy s c) := by
  cases c with
  | enter w state now => exact hs
  | evaluate w now =>
    rw [WorkflowSla.after]
    split
    · rename_i hcase
      obtain ⟨hw, -, hlate⟩ := hcase
      obtain ⟨hnow, hle⟩ := hc hw
      exact hs.evaluated hesc hdue ht hnow hle hlate
    · exact hs
  | escalate w actor reason now =>
    rw [WorkflowSla.after, if_neg (fun h => hc h.1)]
    exact hs
  | resolve w actor reason now =>
    rw [WorkflowSla.after, if_neg hc]
    exact hs

/-- The last evaluation leaves what the instant asks for. -/
theorem Polled.settled (hs : Polled policy dueAt t s) {workflowId : String} :
    (fun s' : WorkflowSLAState => (s'.slaStatus, s'.escalationLevel))
        (WorkflowSla.after workflowId policy s (.evaluate workflowId t))
      = settled policy dueAt t := by
  rw [WorkflowSla.after]
  by_cases hlate : lt (s.overdueSecs t) 0 = false
  · rw [if_pos ⟨rfl, hs.open_, hlate⟩]
    have hlevel := hs.level
    show (automaticStatus (policy.automaticLevel (s.overdueSecs t)),
      if lt s.escalationLevel (policy.automaticLevel (s.overdueSecs t)) = true
        then policy.automaticLevel (s.overdueSecs t)
        else s.escalationLevel) = _
    have hzero : (if lt s.escalationLevel (policy.automaticLevel (s.overdueSecs t)) = true
          then policy.automaticLevel (s.overdueSecs t)
          else s.escalationLevel)
        = if lt 0 (policy.automaticLevel (s.overdueSecs t)) = true
          then policy.automaticLevel (s.overdueSecs t) else 0 := by
      rcases hlevel with hzero | ⟨hpos, hle⟩
      · rw [hzero]
      rw [if_pos (lt_of_lt_of_le hpos hle)]
      split
      · rfl
      rename_i hnot
      rw [lt, hle, Bool.true_and, Bool.not_eq_true', Bool.not_eq_false] at hnot
      exact eq_of_le_of_le hle hnot
    rw [hzero]
    cases hdueAt : dueAt with
    | none =>
      rw [overdueSecs, hs.dueAt, hdueAt]
      rfl
    | some due =>
      rw [overdueSecs, hs.dueAt, hdueAt] at hlate ⊢
      rw [WorkflowSla.settled]
      rw [if_neg (fun h => (Bool.eq_false_iff.mp hlate) (overdue_lt_zero.mpr h))]
      rfl
  · rw [if_neg (fun h => hlate h.2.2)]
    have honTime : s.slaStatus = .onTime := by
      by_contra hother
      exact hlate (hs.late hother)
    dsimp only
    rw [honTime, hs.fresh honTime]
    rw [Bool.not_eq_false] at hlate
    cases hdueAt : dueAt with
    | none =>
      rw [overdueSecs, hs.dueAt, hdueAt] at hlate
      cases hlate
    | some due =>
      rw [overdueSecs, hs.dueAt, hdueAt] at hlate
      rw [WorkflowSla.settled, if_pos (overdue_lt_zero.mp hlate)]

end Polling

/-! ## One evaluation or many -/

variable {e : WorkflowSLAEngine} {s : WorkflowSLAState} {workflowId : String} {policy : SLAPolicy}

theorem evaluate_ok (hs : e.store.get workflowId = some s)
    (hpolicy : e.registry.get s.state.text = some policy) (hopen : s.slaStatus ≠ .resolved)
    (now : Int) :
    (e.evaluate workflowId now).2 = .ok (after workflowId policy s (.evaluate workflowId now)) := by
  rw [WorkflowSLAEngine.evaluate, hs, after]
  dsimp only
  rw [if_neg hopen]
  split
  · rename_i hearly
    rw [if_neg (fun h => by rw [hearly] at h; cases h.2.2)]
  rename_i hlate
  rw [hpolicy, if_pos ⟨rfl, hopen, Bool.eq_false_iff.mpr hlate⟩]
  dsimp only
  split
  · rfl
  rename_i hsame
  rw [evaluated_eq_self hsame]

theorem polled_run {dueAt : Option Int} {t : Int}
    (hesc : lt 0 policy.escalationAfterSecs.value = true)
    (hdue : ∀ due ∈ dueAt, |due| ≤ maxTime) (ht : |t| ≤ maxTime)
    {calls : List Call} (hcalls : ∀ c ∈ calls, Polls workflowId t c)
    (hs : e.store.get workflowId = some s)
    (hpolicy : e.registry.get s.state.text = some policy) (hpolled : Polled policy dueAt t s) :
    ∃ s', (calls.foldl step e).store.get workflowId = some s'
      ∧ (calls.foldl step e).registry.get s'.state.text = some policy
      ∧ Polled policy dueAt t s' := by
  induction calls generalizing e s with
  | nil => exact ⟨s, hs, hpolicy, hpolled⟩
  | cons c calls ih =>
    have hc := hcalls c (.head _)
    have henters : c.enters workflowId = false := by
      cases c with
      | enter w state now => exact decide_eq_false hc
      | _ => rfl
    have hwrites := step_writes hs hpolicy c henters
    refine ih (fun c hmem => hcalls c (.tail _ hmem)) hwrites.stored ?_
      (hpolled.after hesc hdue ht hc)
    rw [hwrites.registry, hwrites.state]
    exact hpolicy

/-- **POLLING DOES NOT MATTER**: under a policy with a positive escalation interval, an evaluation
    leaves the same status and level after any evaluations before it as without them; and for an
    interval of whole seconds the exact level. -/
theorem evaluate_once (e : WorkflowSLAEngine) (workflowId : String) (state : SLAWorkflowState)
    (policy : SLAPolicy) (entry : Int) (calls : List Call) (t : Int)
    (hpolicy : e.registry.get state.text = some policy)
    (hesc : lt 0 policy.escalationAfterSecs.value = true)
    (ht : |t| ≤ maxTime) (hcalls : ∀ c ∈ calls, Polls workflowId t c) :
    ∃ last once : WorkflowSLAState,
      ((calls.foldl step (e.enter workflowId state entry).1).evaluate workflowId t).2 = .ok last
      ∧ ((e.enter workflowId state entry).1.evaluate workflowId t).2 = .ok once
      ∧ (last.slaStatus, last.escalationLevel) = (once.slaStatus, once.escalationLevel)
      ∧ (last.slaStatus, last.escalationLevel) = settled policy (deadline policy entry) t
      ∧ ∀ due k, deadline policy entry = some due → due ≤ t →
        policy.escalationAfterSecs.value = .ofNat k → t - due + 1000 * k ≤ 2 ^ 51 →
        (last.slaStatus, last.escalationLevel) = (automaticStatus (exactLevel policy k t due),
          if lt 0 (exactLevel policy k t due) then exactLevel policy k t due else 0) := by
  have hdue : ∀ due ∈ deadline policy entry, |due| ≤ maxTime :=
    fun due hmem => abs_timeClip hmem
  have hentered : ∃ s, (e.enter workflowId state entry).1.store.get workflowId = some s
      ∧ (e.enter workflowId state entry).1.registry.get s.state.text = some policy
      ∧ Polled policy (deadline policy entry) t s := by
    rw [WorkflowSLAEngine.enter, hpolicy]
    refine ⟨_, InsertionMap.get_set_self _ _ _, hpolicy, ?_⟩
    exact
      { dueAt := rfl
        fresh := fun _ => rfl
        late := fun h => absurd rfl h
        open_ := (by rintro ⟨⟩)
        level := .inl rfl }
  obtain ⟨s, hs, hgoverned, hpolled⟩ := hentered
  obtain ⟨s', hs', hgoverned', hpolled'⟩ := polled_run hesc hdue ht hcalls hs hgoverned hpolled
  refine ⟨_, _, evaluate_ok hs' hgoverned' hpolled'.open_ t,
    evaluate_ok hs hgoverned hpolled.open_ t, ?_, hpolled'.settled, ?_⟩
  · exact hpolled'.settled.trans hpolled.settled.symm
  intro due k hdeadline hlate hk hbound
  refine hpolled'.settled.trans ?_
  rw [hdeadline, settled, if_neg (not_lt.mpr hlate)]
  dsimp only
  rw [automaticLevel_exact hesc hk hlate hbound]

/-- Evaluated every five seconds or once: level two after twenty. -/
theorem evaluate_once_fast : ∃ last once : WorkflowSLAState,
    (([.evaluate "wf" 11000, .evaluate "wf" 16000].foldl step
      (fastEngine.enter "wf" .pendingPayment 0).1).evaluate "wf" 20000).2 = .ok last
    ∧ ((fastEngine.enter "wf" .pendingPayment 0).1.evaluate "wf" 20000).2 = .ok once
    ∧ (last.slaStatus, last.escalationLevel) = (once.slaStatus, once.escalationLevel)
    ∧ (last.slaStatus, last.escalationLevel) = (.escalated, 2) := by
  obtain ⟨last, once, hlast, honce, hsame, -, hexact⟩ := evaluate_once fastEngine "wf"
    .pendingPayment fastPolicy 0 [.evaluate "wf" 11000, .evaluate "wf" 16000] 20000 rfl
    (by decide +kernel) (by decide) (by
      intro c hc
      rcases List.mem_cons.mp hc with rfl | hc
      · exact fun _ => ⟨by decide, by decide⟩
      rw [List.mem_singleton.mp hc]
      exact fun _ => ⟨by decide, by decide⟩)
  refine ⟨last, once, hlast, honce, hsame, ?_⟩
  exact (hexact 10000 5 (by decide +kernel) (by decide) (by decide +kernel) (by decide)).trans
    (by decide +kernel)

/-- A policy whose top level is below zero, one whose deadline is no date, and
    one with an interval of a tenth of a second. -/
def lowPolicy : SLAPolicy := ⟨"Low", 10, 5, Double.near (-1)⟩

def endlessPolicy : SLAPolicy := ⟨"Endless", ⟨.posInf, rfl⟩, 5, 2⟩

def tenthPolicy : SLAPolicy := ⟨"Tenth", 10, Double.near (1 / 10), 5⟩

/-- Entered at zero and evaluated once. -/
def evaluatedAt (policy : SLAPolicy) (now : Int) : Option WorkflowSLAState :=
  ((WorkflowSLAEngine.enter ⟨.set .empty "PENDING_PAYMENT" policy, .empty, []⟩
    "wf" .pendingPayment 0).1.evaluate "wf" now).2.toOption

/-- The levels that the first two ask for are minus one and NaN, and the stored
    level stays zero.  The double next to a tenth is above it, so a tenth of a
    second past the deadline asks for level zero and the level is one; at
    three tenths an exact tenth asks for level three and the level is two. -/
theorem level_off_formula :
    (evaluatedAt lowPolicy 20000).map (fun s =>
        (s.slaStatus, s.escalationLevel, lowPolicy.automaticLevel (s.overdueSecs 20000)))
      = some (.overdue, 0, .finite (-1))
    ∧ (evaluatedAt endlessPolicy 20000).map (fun s =>
        (s.slaStatus, s.escalationLevel, endlessPolicy.automaticLevel (s.overdueSecs 20000)))
      = some (.overdue, 0, .nan)
    ∧ (evaluatedAt tenthPolicy 10100).map (fun s => (s.dueAt, s.slaStatus, s.escalationLevel))
      = some (some 10000, .escalated, 1)
    ∧ (∃ q : ℚ, tenthPolicy.escalationAfterSecs.value = .finite q ∧ ⌊(100 / 1000 : ℚ) / q⌋ = 0)
    ∧ (evaluatedAt tenthPolicy 10300).map (fun s => (s.dueAt, s.slaStatus, s.escalationLevel))
      = some (some 10000, .escalated, 2)
    ∧ ⌊(300 / 1000 : ℚ) / (1 / 10)⌋ = 3 := by
  refine ⟨by decide +kernel, by decide +kernel, by decide +kernel, ?_, by decide +kernel,
    by norm_num⟩
  exact ⟨3602879701896397 / 36028797018963968, by decide +kernel, by norm_num⟩

end WorkflowSla

import Inqutum.CheckpointProofs
import Inqutum.TransitionProofs

/-!
# At most one effect per key — over every interleaving

Any number of `runWithCheckpoint` calls share one in-memory store.  Each
call is a small machine (`Phase`); a system step moves one call, and the
clock reading of a claim or settle is part of the event, so clocks may run
ahead, stand still or go backwards.

The invariant behind the safety theorem links the stored state, the
fencing attempt and the calls that can still reach `perform`:

* at most one call of a key MAY PERFORM (holds a plain claim or is in
  flight), and none may once some perform has returned;
* a key that a plain claim can take — absent or `failed` — is QUIET: no
  call may perform and no perform has returned;
* a call about to record a failure under the current attempt proves the
  key quiet, so its settle re-opens the key safely.

A take-over of a stale claim bumps the attempt, which fences out the
failure of the call it replaced; without `reconcile` the new owner never
performs, so a key that was ever taken over never becomes `failed`.
-/

namespace SideEffectCheckpoint

open Transition InsertionMap Function

variable {R : Type}

/-- The parts of `SideEffectOptions` a call reads.  `reconcile` says whether
    the option was supplied. -/
structure SideEffectOptions where
  key : String
  effect : String
  fingerprint : Option String
  staleAfterMs : Option Int
  reconcile : Bool

def defaultStaleAfterMs : Int := 5 * 60000

def SideEffectOptions.staleBefore (options : SideEffectOptions) (now : Date) :
    Date :=
  now.map (fun t => t - options.staleAfterMs.getD defaultStaleAfterMs)

inductive CallError (R : Type) where
  | keyReused (checkpoint : Checkpoint R)
  | inDoubt (checkpoint : Checkpoint R)
  | inProgress (checkpoint : Checkpoint R)
  | performFailed (message : String)
  | reconcileFailed
  | storeFailed

/-- How a call ends: the value it returns (`none` is `null` or `undefined`)
    or the error it throws. -/
inductive CallOutcome (R : Type) where
  | returned (result : Option R)
  | threw (error : CallError R)

inductive ReconcileAnswer (R : Type) where
  | done (result : Option R)
  | notDone
  | throws

/-- Where one call stands between two atomic steps. -/
inductive Phase (R : Type) where
  | idle
  | claimed (checkpoint : Checkpoint R) (recovered : Bool)
  | landed (attempt : Nat) (result : Option R)
  | cleared (attempt : Nat)
  | performing (attempt : Nat)
  | performed (attempt : Nat) (result : Option R)
  | failing (attempt : Nat) (message : String)
  | finished (outcome : CallOutcome R)
  | crashed (inFlight : Bool)

/-- The shared store and the calls.  `returned` is a history variable: the
    call's perform has returned successfully. -/
structure System (R : Type) where
  store : MemoryCheckpointStore R
  phase : Nat → Phase R
  returned : Nat → Bool

inductive Event (R : Type) where
  | claim (i : Nat) (now : Date)
  | reconcile (i : Nat) (answer : ReconcileAnswer R)
  | perform (i : Nat)
  | performReturns (i : Nat) (result : Option R)
  | performThrows (i : Nat) (message : String)
  | settle (i : Nat) (now : Date)
  | settleRejects (i : Nat)
  | crash (i : Nat)

def Event.actor : Event R → Nat
  | .claim i _ => i
  | .reconcile i _ => i
  | .perform i => i
  | .performReturns i _ => i
  | .performThrows i _ => i
  | .settle i _ => i
  | .settleRejects i => i
  | .crash i => i

def System.init : System R :=
  { store := empty, phase := fun _ => .idle,
    returned := fun _ => false }

def System.setPhase (s : System R) (i : Nat) (p : Phase R) : System R :=
  { s with phase := Function.update s.phase i p }

def System.withStore (s : System R) (store : MemoryCheckpointStore R) :
    System R :=
  { s with store }

/-- What a call throws or returns when its claim is refused. -/
def refusedOutcome (options : SideEffectOptions) (cp : Checkpoint R) :
    CallOutcome R :=
  if cp.fingerprint ≠ options.fingerprint then .threw (.keyReused cp)
  else if cp.state = .succeeded then .returned cp.result
  else if cp.state = .inDoubt then .threw (.inDoubt cp)
  else .threw (.inProgress cp)

/-- The settle a phase is waiting to make. -/
def pendingSettle (options : SideEffectOptions) : Phase R → Option (Nat × Settled × Recorded R)
  | .claimed cp true =>
    if options.reconcile then none
    else some (cp.attempt, .inDoubt,
      ⟨none, some "previous run stopped before recording its outcome"⟩)
  | .landed attempt result => some (attempt, .succeeded, ⟨result, none⟩)
  | .performed attempt result => some (attempt, .succeeded, ⟨result, none⟩)
  | .failing attempt message => some (attempt, .failed, ⟨none, some message⟩)
  | _ => none

/-- How the call ends once its settle promise is back.  Rejections after
    `perform` are logged and swallowed; the other two propagate. -/
def afterSettle : Phase R → SettleOutcome R → CallOutcome R
  | .claimed cp _, .fenced => .threw (.inDoubt cp)
  | .claimed _ _, .settled doubtful => .threw (.inDoubt doubtful)
  | .claimed _ _, .rejected => .threw .storeFailed
  | .landed _ _, .rejected => .threw .storeFailed
  | .landed _ result, _ => .returned result
  | .performed _ result, _ => .returned result
  | .failing _ message, _ => .threw (.performFailed message)
  | _, _ => .threw .storeFailed

/-- One atomic step of `runWithCheckpoint`; `none` when the event is not
    enabled. -/
def step (calls : Nat → SideEffectOptions) (clone : R → Option R)
    (s : System R) : Event R → Option (System R)
  | .claim i now =>
    match s.phase i with
    | .idle =>
      let options := calls i
      let r := claim s.store options.key options.effect
        options.fingerprint now (options.staleBefore now)
      match r.2 with
      | none => some ((s.withStore r.1).setPhase i (.finished (.threw .storeFailed)))
      | some (.unclaimed cp) =>
        some ((s.withStore r.1).setPhase i (.finished (refusedOutcome options cp)))
      | some (.claimed cp recovered) => some ((s.withStore r.1).setPhase i (.claimed cp recovered))
    | _ => none
  | .reconcile i answer =>
    match s.phase i with
    | .claimed cp true =>
      if (calls i).reconcile then
        match answer with
        | .done result => some (s.setPhase i (.landed cp.attempt result))
        | .notDone => some (s.setPhase i (.cleared cp.attempt))
        | .throws => some (s.setPhase i (.finished (.threw .reconcileFailed)))
      else none
    | _ => none
  | .perform i =>
    match s.phase i with
    | .claimed cp false => some (s.setPhase i (.performing cp.attempt))
    | .cleared attempt => some (s.setPhase i (.performing attempt))
    | _ => none
  | .performReturns i result =>
    match s.phase i with
    | .performing attempt =>
      some { s.setPhase i (.performed attempt result) with
        returned := Function.update s.returned i true }
    | _ => none
  | .performThrows i message =>
    match s.phase i with
    | .performing attempt => some (s.setPhase i (.failing attempt message))
    | _ => none
  | .settle i now =>
    match pendingSettle (calls i) (s.phase i) with
    | some (attempt, state, outcome) =>
      let r := settle clone s.store (calls i).key attempt state outcome now
      some ((s.withStore r.1).setPhase i (.finished (afterSettle (s.phase i) r.2)))
    | none => none
  | .settleRejects i =>
    match pendingSettle (calls i) (s.phase i) with
    | some _ => some (s.setPhase i (.finished (afterSettle (s.phase i) .rejected)))
    | none => none
  | .crash i =>
    match s.phase i with
    | .idle => none
    | .finished _ => none
    | .crashed _ => none
    | .performing _ => some (s.setPhase i (.crashed true))
    | _ => some (s.setPhase i (.crashed false))

/-- The step relation of the shared system. -/
def Step (calls : Nat → SideEffectOptions) (clone : R → Option R)
    (s : System R) (e : Event R) (s' : System R) : Prop :=
  step calls clone s e = some s'

/-! ## The invariant -/

/-- The call's `perform` has been invoked and has not come back.  A crash
    leaves the effect in flight for good. -/
def Phase.inFlight : Phase R → Bool
  | .performing _ => true
  | .crashed b => b
  | _ => false

/-- The call is in flight or holds a claim that leads to `perform`. -/
def Phase.mayPerform : Phase R → Bool
  | .claimed _ recovered => !recovered
  | .cleared _ => true
  | p => p.inFlight

/-- The attempt a call settles under. -/
def Phase.attempt? : Phase R → Option Nat
  | .claimed cp _ => some cp.attempt
  | .landed n _ => some n
  | .cleared n => some n
  | .performing n => some n
  | .performed n _ => some n
  | .failing n _ => some n
  | _ => none

/-- No call of the key may perform, and none of their performs returned. -/
def Quiet (calls : Nat → SideEffectOptions) (k : String) (s : System R) :
    Prop :=
  ∀ i, (calls i).key = k → (s.phase i).mayPerform = false ∧ s.returned i = false

/-- The links between stored state, attempt and calls for one key. -/
structure Inv (calls : Nat → SideEffectOptions) (k : String) (s : System R) : Prop where
  single : ∀ i j, (calls i).key = k → (calls j).key = k →
    (s.phase i).mayPerform = true → (s.phase j).mayPerform = true → i = j
  closed : ∀ i j, (calls i).key = k → (calls j).key = k →
    s.returned i = true → (s.phase j).mayPerform = false
  open_quiet : (∀ cp, s.store.get k = some cp → cp.state = .failed) → Quiet calls k s
  failing_quiet : ∀ i n message cp, (calls i).key = k →
    s.phase i = .failing n message → s.store.get k = some cp →
    cp.state = .started → cp.attempt = n → Quiet calls k s
  bounded : ∀ i n, (calls i).key = k → (s.phase i).attempt? = some n →
    ∃ cp, s.store.get k = some cp ∧ n ≤ cp.attempt

theorem inv_init (calls : Nat → SideEffectOptions) (k : String) :
    Inv calls k (System.init : System R) where
  single := nofun
  closed := nofun
  open_quiet := fun _ _ _ => ⟨rfl, rfl⟩
  failing_quiet := nofun
  bounded := nofun

@[simp] theorem setPhase_self (s : System R) (i : Nat) (p : Phase R) :
    (s.setPhase i p).phase i = p := update_self ..

theorem setPhase_of_ne (s : System R) {i j : Nat} (p : Phase R)
    (h : j ≠ i) : (s.setPhase i p).phase j = s.phase j :=
  update_of_ne h ..

/-! ## What a step can do -/

/-- The call moves on without gaining a right to perform (unless `reconcile`
    gives it one), and without anything to record as failed. -/
def Withdraws (calls : Nat → SideEffectOptions) (s : System R) (i : Nat) (s' : System R) : Prop :=
  ∃ p, s' = s.setPhase i p ∧ (p.mayPerform = true → (s.phase i).mayPerform = true
      ∨ (calls i).reconcile = true) ∧
    (∀ n message, p ≠ .failing n message) ∧
    ∀ n, p.attempt? = some n → (s.phase i).attempt? = some n

/-- The call writes a fresh `started` checkpoint under its key. -/
def TakesClaim (calls : Nat → SideEffectOptions) (s : System R) (i : Nat) (s' : System R) : Prop :=
  ∃ cp rec, s' = (s.withStore (s.store.set (calls i).key cp)).setPhase i (.claimed cp rec) ∧
    cp.state = .started ∧
    (rec = false ∧ s.store.get (calls i).key = none
      ∨ ∃ old, s.store.get (calls i).key = some old ∧ cp.attempt = old.attempt + 1 ∧
        (rec = false ∧ old.state = .failed ∨ rec = true ∧ old.state = .started))

/-- The call's perform returns. -/
def PerformReturns (s : System R) (i : Nat) (s' : System R) : Prop :=
  ∃ n result, s.phase i = .performing n ∧ s' = { s.setPhase i (.performed n result) with
      returned := Function.update s.returned i true }

/-- The call's perform throws. -/
def PerformThrows (s : System R) (i : Nat) (s' : System R) : Prop :=
  ∃ n message, s.phase i = .performing n ∧ s' = s.setPhase i (.failing n message)

/-- The call settles the `started` checkpoint of its own attempt. -/
def Settles (calls : Nat → SideEffectOptions) (s : System R) (i : Nat) (s' : System R) : Prop :=
  ∃ n state recorded old new outcome,
    pendingSettle (calls i) (s.phase i) = some (n, state, recorded) ∧
    s.store.get (calls i).key = some old ∧ old.attempt = n ∧
    old.state = .started ∧ new.state = state.state ∧
    new.attempt = old.attempt ∧
    s' = (s.withStore (s.store.set (calls i).key new)).setPhase i (.finished outcome)

section Cases

variable {calls : Nat → SideEffectOptions} {clone : R → Option R}
  {s s' : System R} {i : Nat}

theorem withdraws_finished (outcome : CallOutcome R) :
    Withdraws calls s i (s.setPhase i (.finished outcome)) :=
  ⟨_, rfl, nofun, nofun, nofun⟩

theorem claim_step {now : Date} (h : step calls clone s (.claim i now) = some s') :
    Withdraws calls s i s' ∨ TakesClaim calls s i s' := by
  cases hp : s.phase i with
  | idle =>
    rcases claim_cases s.store (calls i).key (calls i).effect
      (calls i).fingerprint now ((calls i).staleBefore now)
      with ⟨hsame, hnot⟩ | ⟨cp, rec, heq, hst, hwhy⟩
    · refine Or.inl ?_
      cases hr : (claim s.store (calls i).key (calls i).effect
          (calls i).fingerprint now ((calls i).staleBefore now)).2 with
      | none =>
        simp only [step, hp, hr, hsame] at h
        cases h
        exact withdraws_finished _
      | some o =>
        cases o with
        | claimed cp rec => exact absurd hr (hnot cp rec)
        | unclaimed cp =>
          simp only [step, hp, hr, hsame] at h
          cases h
          exact withdraws_finished _
    · refine .inr ⟨cp, rec, ?_, hst, hwhy⟩
      simp only [step, hp, heq] at h
      exact (Option.some.inj h).symm
  | _ => simp only [step, hp] at h; cases h

theorem reconcile_step {answer : ReconcileAnswer R}
    (h : step calls clone s (.reconcile i answer) = some s') : Withdraws calls s i s' := by
  cases hp : s.phase i with
  | claimed cp rec =>
    cases rec with
    | false => simp only [step, hp] at h; cases h
    | true =>
      by_cases hrec : (calls i).reconcile = true
      · have hatt : (s.phase i).attempt? = some cp.attempt := by rw [hp]; rfl
        cases answer with
        | done result =>
          simp only [step, hp, hrec, if_true] at h
          cases h
          exact ⟨_, rfl, nofun, nofun, fun n hn => hatt.trans hn⟩
        | notDone =>
          simp only [step, hp, hrec, if_true] at h
          cases h
          exact ⟨_, rfl, fun _ => .inr hrec, nofun, fun n hn => hatt.trans hn⟩
        | throws =>
          simp only [step, hp, hrec, if_true] at h
          cases h
          exact withdraws_finished _
      · simp only [step, hp, hrec] at h
        cases h
  | _ => simp only [step, hp] at h; cases h

theorem perform_enabled (h : step calls clone s (.perform i) = some s') :
    (s.phase i).mayPerform = true ∧ ∃ n, (s.phase i).attempt? = some n ∧
        s' = s.setPhase i (.performing n) := by
  cases hp : s.phase i with
  | claimed cp rec =>
    cases rec with
    | true => simp only [step, hp] at h; cases h
    | false =>
      simp only [step, hp] at h
      exact ⟨rfl, cp.attempt, rfl, (Option.some.inj h).symm⟩
  | cleared n =>
    simp only [step, hp] at h
    exact ⟨rfl, n, rfl, (Option.some.inj h).symm⟩
  | _ => simp only [step, hp] at h; cases h

theorem perform_step (h : step calls clone s (.perform i) = some s') : Withdraws calls s i s' := by
  obtain ⟨hmay, n, hatt, heq⟩ := perform_enabled h
  refine ⟨_, heq, fun _ => .inl hmay, nofun, ?_⟩
  intro m hm
  exact hatt.trans hm

theorem performReturns_step {result : Option R}
    (h : step calls clone s (.performReturns i result) = some s') : PerformReturns s i s' := by
  cases hp : s.phase i with
  | performing n =>
    simp only [step, hp] at h
    exact ⟨n, result, hp, (Option.some.inj h).symm⟩
  | _ => simp only [step, hp] at h; cases h

theorem performThrows_step {message : String}
    (h : step calls clone s (.performThrows i message) = some s') : PerformThrows s i s' := by
  cases hp : s.phase i with
  | performing n =>
    simp only [step, hp] at h
    exact ⟨n, message, hp, (Option.some.inj h).symm⟩
  | _ => simp only [step, hp] at h; cases h

theorem settle_step {now : Date} (h : step calls clone s (.settle i now) = some s') :
    Withdraws calls s i s' ∨ Settles calls s i s' := by
  cases hpend : pendingSettle (calls i) (s.phase i) with
  | none => simp only [step, hpend] at h; cases h
  | some t =>
    obtain ⟨n, state, recorded⟩ := t
    simp only [step, hpend] at h
    cases h
    rcases settle_cases clone s.store (calls i).key n state recorded now
      with hsame | ⟨old, new, hget, hn, hst, heq, hnew, hatt⟩
    · rw [hsame]
      exact .inl (withdraws_finished _)
    rw [heq]
    exact .inr ⟨n, state, recorded, old, new, _, hpend, hget, hn, hst, hnew, hatt, rfl⟩

theorem settleRejects_step (h : step calls clone s (.settleRejects i) = some s') :
    Withdraws calls s i s' := by
  cases hpend : pendingSettle (calls i) (s.phase i) with
  | none => simp only [step, hpend] at h; cases h
  | some t =>
    simp only [step, hpend] at h
    cases h
    exact withdraws_finished _

theorem crash_step (h : step calls clone s (.crash i) = some s') : Withdraws calls s i s' := by
  -- a crash keeps the effect in flight only where it was in flight already
  have hcrash : ∀ b, (b = true → (s.phase i).mayPerform = true) →
      Withdraws calls s i (s.setPhase i (.crashed b)) := by
    intro b hb
    exact ⟨_, rfl, fun hmay => .inl (hb hmay), nofun, nofun⟩
  cases hp : s.phase i with
  | idle => simp only [step, hp] at h; cases h
  | finished _ => simp only [step, hp] at h; cases h
  | crashed _ => simp only [step, hp] at h; cases h
  | performing n =>
    simp only [step, hp] at h
    cases h
    exact hcrash true (fun _ => by rw [hp]; rfl)
  | _ =>
    simp only [step, hp] at h
    cases h
    exact hcrash false nofun

/-- **EVERYTHING A STEP CAN DO**, for the call that makes it. -/
theorem step_cases {e : Event R} (h : step calls clone s e = some s') :
    Withdraws calls s e.actor s' ∨ TakesClaim calls s e.actor s'
      ∨ PerformReturns s e.actor s' ∨ PerformThrows s e.actor s' ∨ Settles calls s e.actor s' := by
  cases e with
  | claim i now =>
    rcases claim_step h with hw | hc
    · exact .inl hw
    · exact .inr (.inl hc)
  | reconcile i answer => exact .inl (reconcile_step h)
  | perform i => exact .inl (perform_step h)
  | performReturns i result => exact .inr (.inr (.inl (performReturns_step h)))
  | performThrows i message => exact .inr (.inr (.inr (.inl (performThrows_step h))))
  | settle i now =>
    rcases settle_step h with hw | hs
    · exact .inl hw
    · exact .inr (.inr (.inr (.inr hs)))
  | settleRejects i => exact .inl (settleRejects_step h)
  | crash i => exact .inl (crash_step h)

end Cases

/-! ## Preservation -/

section Preservation

variable {calls : Nat → SideEffectOptions} {k : String} {s s' : System R} {i : Nat}
  {clone : R → Option R} {e : Event R}

/-- A state that looks the same to every call of the key, and to the stored
    checkpoint of the key, satisfies the same invariant. -/
theorem Inv.congr (h : Inv calls k s) (hget : s'.store.get k = s.store.get k)
    (hcall : ∀ j, (calls j).key = k → s'.phase j = s.phase j ∧ s'.returned j = s.returned j) :
    Inv calls k s' := by
  have hquiet : Quiet calls k s → Quiet calls k s' := by
    intro hq j hj
    rw [(hcall j hj).1, (hcall j hj).2]
    exact hq j hj
  refine ⟨?_, ?_, ?_, ?_, ?_⟩
  · intro i j hi hj
    rw [(hcall i hi).1, (hcall j hj).1]
    exact h.single i j hi hj
  · intro i j hi hj
    rw [(hcall i hi).2, (hcall j hj).1]
    exact h.closed i j hi hj
  · intro hopen
    rw [hget] at hopen
    exact hquiet (h.open_quiet hopen)
  · intro i n message cp hi
    rw [(hcall i hi).1, hget]
    intro hp hcp hst hat
    exact hquiet (h.failing_quiet i n message cp hi hp hcp hst hat)
  intro i n hi
  rw [(hcall i hi).1, hget]
  exact h.bounded i n hi

/-- **WITHDRAWING IS SAFE**: a call may move to any phase that performs no
    more than before, is not about to record a failure, and keeps its attempt
    or gives it up. -/
theorem Inv.move {s : System R} (h : Inv calls k s) (i : Nat) (p : Phase R)
    (hmay : p.mayPerform = true → (s.phase i).mayPerform = true)
    (hfail : ∀ n message, p ≠ .failing n message)
    (hatt : ∀ n, p.attempt? = some n → (s.phase i).attempt? = some n) :
    Inv calls k (s.setPhase i p) := by
  have hback : ∀ j, ((s.setPhase i p).phase j).mayPerform = true →
      (s.phase j).mayPerform = true := by
    intro j
    by_cases hji : j = i
    · subst hji
      rw [setPhase_self]
      exact hmay
    rw [setPhase_of_ne s p hji]
    exact id
  have hquiet : Quiet calls k s → Quiet calls k (s.setPhase i p) := by
    intro hq j hj
    refine ⟨?_, (hq j hj).2⟩
    by_contra hne
    have := hback j (eq_true_of_ne_false hne)
    rw [(hq j hj).1] at this
    cases this
  refine ⟨?_, ?_, ?_, ?_, ?_⟩
  · intro a b ha hb hpa hpb
    exact h.single a b ha hb (hback a hpa) (hback b hpb)
  · intro a b ha hb hret
    by_contra hne
    have := hback b (eq_true_of_ne_false hne)
    rw [h.closed a b ha hb hret] at this
    cases this
  · intro hopen
    exact hquiet (h.open_quiet hopen)
  · intro a n message cp ha hp hcp hst hat
    by_cases hai : a = i
    · subst hai
      rw [setPhase_self] at hp
      exact absurd hp (hfail n message)
    rw [setPhase_of_ne s p hai] at hp
    exact hquiet (h.failing_quiet a n message cp ha hp hcp hst hat)
  · intro a n ha hn
    by_cases hai : a = i
    · subst hai
      rw [setPhase_self] at hn
      exact h.bounded a n ha (hatt n hn)
    rw [setPhase_of_ne s p hai] at hn
    exact h.bounded a n ha hn

theorem claim_outruns {s : System R} (h : Inv calls k s)
    (hk : (calls i).key = k) {cp : Checkpoint R} {rec : Bool}
    (hwhy : rec = false ∧ s.store.get (calls i).key = none
      ∨ ∃ old, s.store.get (calls i).key = some old ∧ cp.attempt = old.attempt + 1 ∧
        (rec = false ∧ old.state = .failed ∨ rec = true ∧ old.state = .started)) :
    ∀ j n, (calls j).key = k → (s.phase j).attempt? = some n → n < cp.attempt := by
  intro j n hj hn
  obtain ⟨cp₀, hget, hle⟩ := h.bounded j n hj hn
  rw [hk] at hwhy
  rcases hwhy with ⟨-, hnone⟩ | ⟨old, hold, hatt, -⟩
  · rw [hnone] at hget
    cases hget
  have heq : old = cp₀ := Option.some.inj (hold.symm.trans hget)
  rw [heq] at hatt
  omega

theorem inv_takesClaim (h : Inv calls k s) (hk : (calls i).key = k) (hc : TakesClaim calls s i s') :
    Inv calls k s' := by
  obtain ⟨cp, rec, heq, hst, hwhy⟩ := hc
  have hout := claim_outruns h hk hwhy
  -- a plain claim is taken from a quiet key only
  have hplain : rec = false → Quiet calls k s := by
    intro hrec
    refine h.open_quiet ?_
    intro cp₀ hcp₀
    rw [hk] at hwhy
    rcases hwhy with ⟨-, hnone⟩ | ⟨old, hold, -, hold'⟩
    · rw [hnone] at hcp₀
      cases hcp₀
    rw [hold] at hcp₀
    cases hcp₀
    rcases hold' with ⟨-, hf⟩ | ⟨ht, -⟩
    · exact hf
    rw [hrec] at ht
    cases ht
  have hself : s'.phase i = .claimed cp rec := by rw [heq, setPhase_self]
  have hother : ∀ j, j ≠ i → s'.phase j = s.phase j := by
    intro j hj
    rw [heq, setPhase_of_ne _ _ hj]
    rfl
  have hget : s'.store.get k = some cp := by
    rw [heq, ← hk]
    exact get_set_self ..
  have hret : s'.returned = s.returned := by rw [heq]; rfl
  refine ⟨?_, ?_, ?_, ?_, ?_⟩
  · intro a b ha hb hpa hpb
    by_cases hai : a = i
    · by_cases hbi : b = i
      · rw [hai, hbi]
      rw [hai, hself] at hpa
      rw [hother b hbi] at hpb
      have hrec : rec = false := by
        cases rec with
        | false => rfl
        | true => cases hpa
      rw [(hplain hrec b hb).1] at hpb
      cases hpb
    · rw [hother a hai] at hpa
      by_cases hbi : b = i
      · rw [hbi, hself] at hpb
        have hrec : rec = false := by
          cases rec with
          | false => rfl
          | true => cases hpb
        rw [(hplain hrec a ha).1] at hpa
        cases hpa
      · rw [hother b hbi] at hpb
        exact h.single a b ha hb hpa hpb
  · intro a b ha hb hra
    rw [hret] at hra
    by_cases hbi : b = i
    · rw [hbi, hself]
      cases hrec : rec with
      | true => rfl
      | false =>
        rw [(hplain hrec a ha).2] at hra
        cases hra
    · rw [hother b hbi]
      exact h.closed a b ha hb hra
  · intro hopen
    have := hopen cp hget
    rw [hst] at this
    cases this
  · intro a n message cp' ha hp hcp' _ hn
    have hai : a ≠ i := by
      intro hai
      rw [hai, hself] at hp
      cases hp
    rw [hother a hai] at hp
    have hlt := hout a n ha (by rw [hp]; rfl)
    rw [hget] at hcp'
    rw [← Option.some.inj hcp'] at hn
    omega
  · intro a n ha hn
    refine ⟨cp, hget, ?_⟩
    by_cases hai : a = i
    · rw [hai, hself] at hn
      exact Nat.le_of_eq (Option.some.inj hn).symm
    rw [hother a hai] at hn
    exact Nat.le_of_lt (hout a n ha hn)

theorem Inv.alone {s : System R} (h : Inv calls k s)
    (hk : (calls i).key = k) (hmay : (s.phase i).mayPerform = true) :
    ∀ j, (calls j).key = k → (j ≠ i → (s.phase j).mayPerform = false) ∧ s.returned j = false := by
  intro j hj
  constructor
  · intro hji
    by_contra hne
    exact hji (h.single j i hj hk (eq_true_of_ne_false hne) hmay)
  by_contra hne
  have := h.closed j i hj hk (eq_true_of_ne_false hne)
  rw [hmay] at this
  cases this

theorem inv_performThrows (h : Inv calls k s) (hk : (calls i).key = k) (ht : PerformThrows s i s') :
    Inv calls k s' := by
  obtain ⟨n, message, hp, heq⟩ := ht
  have hmay : (s.phase i).mayPerform = true := by rw [hp]; rfl
  have halone := h.alone hk hmay
  have hquiet : Quiet calls k s' := by
    intro j hj
    rw [heq]
    refine ⟨?_, (halone j hj).2⟩
    by_cases hji : j = i
    · rw [hji, setPhase_self]
      rfl
    rw [setPhase_of_ne _ _ hji]
    exact (halone j hj).1 hji
  refine ⟨?_, ?_, fun _ => hquiet, fun _ _ _ _ _ _ _ _ _ => hquiet, ?_⟩
  · intro a b ha hb hpa
    rw [(hquiet a ha).1] at hpa
    cases hpa
  · intro a b ha hb _
    exact (hquiet b hb).1
  intro a m ha hm
  rw [heq] at hm ⊢
  by_cases hai : a = i
  · rw [hai, setPhase_self] at hm
    exact h.bounded i m hk (by rw [hp]; exact hm)
  rw [setPhase_of_ne _ _ hai] at hm
  exact h.bounded a m ha hm

theorem inv_performReturns (h : Inv calls k s)
    (hk : (calls i).key = k) (ht : PerformReturns s i s') : Inv calls k s' := by
  obtain ⟨n, result, hp, heq⟩ := ht
  have hmay : (s.phase i).mayPerform = true := by rw [hp]; rfl
  have halone := h.alone hk hmay
  -- the key was not quiet, so it can be neither open nor about to fail
  have hloud : ¬ Quiet calls k s := by
    intro hq
    rw [(hq i hk).1] at hmay
    cases hmay
  have hself : s'.phase i = .performed n result := by
    rw [heq]
    exact setPhase_self ..
  have hother : ∀ j, j ≠ i → s'.phase j = s.phase j := by
    intro j hj
    rw [heq]
    exact setPhase_of_ne _ _ hj
  have hstore : s'.store = s.store := by rw [heq]; rfl
  have hnone : ∀ j, (calls j).key = k → (s'.phase j).mayPerform = false := by
    intro j hj
    by_cases hji : j = i
    · rw [hji, hself]
      rfl
    rw [hother j hji]
    exact (halone j hj).1 hji
  refine ⟨?_, fun _ b _ hb _ => hnone b hb, ?_, ?_, ?_⟩
  · intro a b ha hb hpa
    rw [hnone a ha] at hpa
    cases hpa
  · intro hopen
    rw [hstore] at hopen
    exact absurd (h.open_quiet hopen) hloud
  · intro a m message cp ha hpa hcp hst hat
    by_cases hai : a = i
    · rw [hai, hself] at hpa
      cases hpa
    rw [hother a hai] at hpa
    rw [hstore] at hcp
    exact absurd (h.failing_quiet a m message cp ha hpa hcp hst hat) hloud
  · intro a m ha hm
    rw [hstore]
    by_cases hai : a = i
    · rw [hai, hself] at hm
      exact h.bounded i m hk (by rw [hp]; exact hm)
    rw [hother a hai] at hm
    exact h.bounded a m ha hm

theorem inv_settles (h : Inv calls k s) (hk : (calls i).key = k) (hs : Settles calls s i s') :
    Inv calls k s' := by
  obtain ⟨n, state, recorded, old, new, outcome, hpend, hget, hn, hst, hnew, hatt, heq⟩ := hs
  -- only a call whose perform threw settles to `failed`
  have hfailed : state = .failed → Quiet calls k s := by
    intro hf
    cases hp : s.phase i with
    | failing m message =>
      rw [hp] at hpend
      have hm : m = n := congrArg Prod.fst (Option.some.inj hpend)
      rw [hk] at hget
      exact h.failing_quiet i m message old hk hp hget hst (hn.trans hm.symm)
    | claimed cp rec =>
      rw [hp] at hpend
      cases rec with
      | false => cases hpend
      | true =>
        rw [pendingSettle] at hpend
        split at hpend
        · cases hpend
        have := congrArg (fun t => t.2.1) (Option.some.inj hpend)
        rw [hf] at this
        cases this
    | landed m result =>
      rw [hp] at hpend
      have := congrArg (fun t => t.2.1) (Option.some.inj hpend)
      rw [hf] at this
      cases this
    | performed m result =>
      rw [hp] at hpend
      have := congrArg (fun t => t.2.1) (Option.some.inj hpend)
      rw [hf] at this
      cases this
    | _ => rw [hp] at hpend; cases hpend
  have hmove : Inv calls k (s.setPhase i (.finished outcome)) := h.move i _ nofun nofun nofun
  have hget' : s'.store.get k = some new := by
    rw [heq, ← hk]
    exact get_set_self ..
  have hphase : s'.phase = (s.setPhase i (.finished outcome)).phase := by rw [heq]; rfl
  have hret : s'.returned = s.returned := by rw [heq]; rfl
  have hquiet : Quiet calls k s → Quiet calls k s' := by
    intro hq j hj
    rw [hphase, hret]
    refine ⟨?_, (hq j hj).2⟩
    by_cases hji : j = i
    · rw [hji, setPhase_self]
      rfl
    rw [setPhase_of_ne _ _ hji]
    exact (hq j hj).1
  refine ⟨?_, ?_, ?_, ?_, ?_⟩
  · rw [hphase]
    exact hmove.single
  · rw [hphase, hret]
    exact hmove.closed
  · intro hopen
    have hf := hopen new hget'
    rw [hnew] at hf
    refine hquiet (hfailed ?_)
    cases state with
    | failed => rfl
    | succeeded => cases hf
    | inDoubt => cases hf
  · intro a m message cp ha hp hcp hstarted _
    rw [hget'] at hcp
    rw [← Option.some.inj hcp, hnew] at hstarted
    exact absurd hstarted state.state_ne_started
  intro a m ha hm
  rw [hphase] at hm
  obtain ⟨cp, hcp, hle⟩ := hmove.bounded a m ha hm
  refine ⟨new, hget', ?_⟩
  have hcp' : s.store.get (calls i).key = some cp := by rw [hk]; exact hcp
  have : old = cp := Option.some.inj (hget.symm.trans hcp')
  rw [hatt, this]
  exact hle

theorem step_frame (h : step calls clone s e = some s') (hk : (calls e.actor).key ≠ k) :
    s'.store.get k = s.store.get k ∧ ∀ j, (calls j).key = k →
      s'.phase j = s.phase j ∧ s'.returned j = s.returned j := by
  have hne : ∀ j, (calls j).key = k → j ≠ e.actor := by
    intro j hj hji
    exact hk (hji ▸ hj)
  rcases step_cases h with ⟨p, heq, -⟩ | ⟨cp, rec, heq, -⟩
    | ⟨n, result, -, heq⟩ | ⟨n, message, -, heq⟩
    | ⟨n, state, recorded, old, new, outcome, -, -, -, -, -, -, heq⟩
  · rw [heq]
    exact ⟨rfl, fun j hj => ⟨setPhase_of_ne _ _ (hne j hj), rfl⟩⟩
  · rw [heq]
    exact ⟨get_set_of_ne _ _ hk, fun j hj => ⟨setPhase_of_ne _ _ (hne j hj), rfl⟩⟩
  · rw [heq]
    exact ⟨rfl, fun j hj => ⟨setPhase_of_ne _ _ (hne j hj), update_of_ne (hne j hj) ..⟩⟩
  · rw [heq]
    exact ⟨rfl, fun j hj => ⟨setPhase_of_ne _ _ (hne j hj), rfl⟩⟩
  rw [heq]
  exact ⟨get_set_of_ne _ _ hk, fun j hj => ⟨setPhase_of_ne _ _ (hne j hj), rfl⟩⟩

/-- **STEP LEMMA**: with no `reconcile` among the calls of the key, every step
    preserves the invariant. -/
theorem inv_step (hrec : ∀ i, (calls i).key = k → (calls i).reconcile = false)
    (h : Inv calls k s) (hstep : Step calls clone s e s') : Inv calls k s' := by
  by_cases hk : (calls e.actor).key = k
  · rcases step_cases hstep with ⟨p, heq, hmay, hfail, hatt⟩ | hc | hr | ht
      | hs
    · rw [heq]
      refine h.move e.actor p ?_ hfail hatt
      intro hp
      rcases hmay hp with hm | hre
      · exact hm
      rw [hrec e.actor hk] at hre
      cases hre
    · exact inv_takesClaim h hk hc
    · exact inv_performReturns h hk hr
    · exact inv_performThrows h hk ht
    · exact inv_settles h hk hs
  · obtain ⟨hget, hcall⟩ := step_frame hstep hk
    exact h.congr hget hcall

end Preservation

/-! ## Safety over whole runs -/

variable {calls : Nat → SideEffectOptions} {clone : R → Option R} {s s' : System R} {i : Nat}

theorem returned_mono {e : Event R} (h : Step calls clone s e s')
    (hi : s.returned i = true) : s'.returned i = true := by
  rcases step_cases h with ⟨p, heq, -⟩ | ⟨cp, rec, heq, -⟩
    | ⟨n, result, -, heq⟩ | ⟨n, message, -, heq⟩
    | ⟨n, state, recorded, old, new, outcome, -, -, -, -, -, -, heq⟩
  · rw [heq]; exact hi
  · rw [heq]; exact hi
  · rw [heq]
    show Function.update s.returned e.actor true i = true
    by_cases hie : i = e.actor
    · rw [hie, update_self]
    rw [update_of_ne hie]
    exact hi
  · rw [heq]; exact hi
  · rw [heq]; exact hi

theorem no_perform_after_return {k : String}
    (hrec : ∀ i, (calls i).key = k → (calls i).reconcile = false) {es : List (Event R)}
    (hrun : Run (Step calls clone) s es s') (hinv : Inv calls k s) (hi : (calls i).key = k)
    (hret : s.returned i = true) : ∀ j, (calls j).key = k → Event.perform j ∉ es := by
  induction hrun with
  | nil s => intro j _ hmem; cases hmem
  | cons hstep _ ih =>
    intro j hj hmem
    rcases List.mem_cons.mp hmem with heq | hrest
    · subst heq
      have hmay := (perform_enabled hstep).1
      rw [hinv.closed i j hi hj hret] at hmay
      cases hmay
    · exact ih (inv_step hrec hinv hstep) (returned_mono hstep hret) j hj hrest

/-- **AT MOST ONE EFFECT PER KEY**: in every run from the empty store, however
    the calls interleave, crash, go stale or fail to settle, two performs of a
    key that no call reconciles are never in flight together, and after one of
    them has returned none is ever invoked again. -/
theorem perform_at_most_once (calls : Nat → SideEffectOptions) (clone : R → Option R) (k : String)
    (hrec : ∀ i, (calls i).key = k → (calls i).reconcile = false)
    (es : List (Event R)) (s : System R)
    (hrun : Run (Step calls clone) System.init es s) :
    (∀ i j, (calls i).key = k → (calls j).key = k →
      (s.phase i).inFlight = true → (s.phase j).inFlight = true → i = j) ∧
    ∀ before after i result, es = before ++ Event.performReturns i result :: after →
      (calls i).key = k → ∀ j, (calls j).key = k →
      Event.perform j ∉ after := by
  have hinv : ∀ {es' : List (Event R)} {s' : System R},
      Run (Step calls clone) System.init es' s' → Inv calls k s' := by
    intro es' s' hr
    exact hr.invariant (fun _ _ _ h hstep => inv_step hrec h hstep) (inv_init calls k)
  constructor
  · intro i j hi hj hfi hfj
    have hmay : ∀ p : Phase R, p.inFlight = true → p.mayPerform = true := by
      intro p hp
      cases p with
      | performing n => rfl
      | crashed b => exact hp
      | _ => cases hp
    exact (hinv hrun).single i j hi hj (hmay _ hfi) (hmay _ hfj)
  · intro before after i result hes hi j hj
    rw [hes] at hrun
    obtain ⟨s₁, h₁, h₂⟩ := hrun.split
    cases h₂ with
    | cons hstep hafter =>
      have hret := performReturns_step hstep
      obtain ⟨n, r, -, heq⟩ := hret
      refine no_perform_after_return hrec hafter (inv_step hrec (hinv h₁) hstep) hi ?_ j hj
      rw [heq]
      exact update_self ..

/-- Two calls under one key; the second finds the first gone stale while its
    perform is still running, and the first returns after that. -/
def slowCalls (_ : Nat) : SideEffectOptions :=
  { key := "email:inv-1", effect := "email.send", fingerprint := none,
    staleAfterMs := some 1000, reconcile := false }

/-- What happens after the slow perform has returned. -/
def slowTail : List (Event String) :=
  [.settle 0 (some 6000), .claim 2 (some 90000)]

def slowRun : List (Event String) :=
  [.claim 0 (some 0), .perform 0, .claim 1 (some 5000), .settle 1 (some 5001)]
    ++ .performReturns 0 (some "sent") :: slowTail

theorem perform_at_most_once_slow : (∃ s, Run (Step slowCalls some) System.init slowRun s) ∧
      ∀ j, Event.perform j ∉ slowTail := by
  have hrun := Run.of_exec (step slowCalls some) System.init slowRun rfl
  refine ⟨⟨_, hrun⟩, ?_⟩
  intro j
  exact (perform_at_most_once slowCalls some "email:inv-1" (fun _ _ => rfl)
    slowRun _ hrun).2 _ _ 0 (some "sent") rfl rfl j rfl

end SideEffectCheckpoint

import Inqutum.InsertionMapProofs

/-!
# Recovery checkpoints: the in-memory store and one guarded call

A checkpoint records the intent to run an external side effect before the
call and its outcome after it.  This file models the process-local store
(`claim`, `settle`, `get`) and a single `runWithCheckpoint` call as a
machine of atomic steps: claim, reconcile, perform, settle.  A JavaScript
continuation runs only after its promise resolves, so the claim of a call
and the `perform` it leads to are separate steps and other calls may move
in between.

Instants are milliseconds; `none` is an invalid `Date`, whose
`toISOString` throws.  ISO strings are kept as the instants they denote.
`clone` is the JSON round trip of a result; `none` means that it throws.
-/

namespace SideEffectCheckpoint

variable {R : Type}

/-- A JavaScript `Date`: milliseconds since the epoch, or invalid. -/
abbrev Date := Option Int

inductive CheckpointState where
  | started
  | succeeded
  | failed
  | inDoubt
  deriving DecidableEq

/-- The states a checkpoint can be settled to. -/
inductive Settled where
  | succeeded
  | failed
  | inDoubt

def Settled.state : Settled → CheckpointState
  | .succeeded => .succeeded
  | .failed => .failed
  | .inDoubt => .inDoubt

theorem Settled.state_ne_started (t : Settled) : t.state ≠ .started := by
  cases t <;> exact nofun

structure Checkpoint (R : Type) where
  key : String
  effect : String
  fingerprint : Option String
  state : CheckpointState
  attempt : Nat
  result : Option R
  error : Option String
  createdAt : Int
  updatedAt : Int

inductive ClaimOutcome (R : Type) where
  | claimed (checkpoint : Checkpoint R) (recovered : Bool)
  | unclaimed (checkpoint : Checkpoint R)

/-- What a `settle` promise resolves to: `null` when fenced out, the settled
    checkpoint, or a rejection. -/
inductive SettleOutcome (R : Type) where
  | fenced
  | settled (checkpoint : Checkpoint R)
  | rejected

/-- The `outcome` argument of `settle`; `none` is an absent property. -/
structure Recorded (R : Type) where
  result : Option R
  error : Option String

abbrev MemoryCheckpointStore (R : Type) := InsertionMap String (Checkpoint R)

/-- A `started` checkpoint last touched before `staleBefore`. -/
def isStale (existing : Checkpoint R) (staleBefore : Date) : Bool :=
  existing.state == .started &&
    match staleBefore with
    | some t => decide (existing.updatedAt < t)
    | none => false

/-- Whether an existing checkpoint keeps its current holder. -/
def refuses (existing : Checkpoint R) (fingerprint : Option String) (staleBefore : Date) : Bool :=
  (existing.state != .failed && !isStale existing staleBefore)
    || existing.fingerprint != fingerprint

/-- `MemoryCheckpointStore.claim`; the outcome is `none` when building the
    checkpoint throws on an invalid clock reading. -/
def claim (store : MemoryCheckpointStore R) (key effect : String)
    (fingerprint : Option String) (now staleBefore : Date) :
    MemoryCheckpointStore R × Option (ClaimOutcome R) :=
  match store.get key with
  | some existing =>
    if refuses existing fingerprint staleBefore then
      (store, some (.unclaimed existing))
    else
      match now with
      | none => (store, none)
      | some t =>
        let checkpoint : Checkpoint R :=
          { key, effect, fingerprint, state := .started,
            attempt := existing.attempt + 1, result := none, error := none,
            createdAt := existing.createdAt, updatedAt := t }
        (store.set key checkpoint, some (.claimed checkpoint (isStale existing staleBefore)))
  | none =>
    match now with
    | none => (store, none)
    | some t =>
      let checkpoint : Checkpoint R :=
        { key, effect, fingerprint, state := .started, attempt := 1,
          result := none, error := none, createdAt := t, updatedAt := t }
      (store.set key checkpoint, some (.claimed checkpoint false))

/-- `MemoryCheckpointStore.settle`.  The fields are assigned one after the
    other, so a throwing clone or clock leaves the earlier ones written. -/
def settle (clone : R → Option R) (store : MemoryCheckpointStore R)
    (key : String) (attempt : Nat) (state : Settled) (outcome : Recorded R)
    (now : Date) : MemoryCheckpointStore R × SettleOutcome R :=
  match store.get key with
  | none => (store, .fenced)
  | some checkpoint =>
    if checkpoint.attempt ≠ attempt ∨ checkpoint.state ≠ .started then
      (store, .fenced)
    else
      let stamped := { checkpoint with state := state.state }
      let cloned : Option (Option R) :=
        match outcome.result with
        | none => some none
        | some value => (clone value).map some
      match cloned with
      | none => (store.set key stamped, .rejected)
      | some result =>
        let written := { stamped with result, error := outcome.error }
        match now with
        | none => (store.set key written, .rejected)
        | some t =>
          let settled := { written with updatedAt := t }
          (store.set key settled, .settled settled)

/-- **EVERYTHING A CLAIM CAN DO**: leave the store alone, or write a fresh
    `started` checkpoint — as a plain claim of an absent or failed one, or by
    taking over a `started` one, which it reports as `recovered`. -/
theorem claim_cases (store : MemoryCheckpointStore R) (key effect : String)
    (fingerprint : Option String) (now staleBefore : Date) :
    (claim store key effect fingerprint now staleBefore).1 = store ∧
      (∀ cp rec, (claim store key effect fingerprint now staleBefore).2 ≠ some (.claimed cp rec))
    ∨ ∃ cp rec, claim store key effect fingerprint now staleBefore
        = (store.set key cp, some (.claimed cp rec)) ∧ cp.state = .started ∧
      (rec = false ∧ store.get key = none
        ∨ ∃ old, store.get key = some old ∧ cp.attempt = old.attempt + 1 ∧
          (rec = false ∧ old.state = .failed ∨ rec = true ∧ old.state = .started)) := by
  unfold claim
  cases hget : store.get key with
  | none =>
    cases now with
    | none => exact .inl ⟨rfl, fun _ _ => nofun⟩
    | some t => exact .inr ⟨_, false, rfl, rfl, .inl ⟨rfl, rfl⟩⟩
  | some old =>
    by_cases hrefuse : refuses old fingerprint staleBefore = true
    · simp only [hrefuse, if_true]
      exact .inl ⟨trivial, fun _ _ => nofun⟩
    simp only [hrefuse, Bool.false_eq_true, if_false]
    cases now with
    | none => exact .inl ⟨rfl, fun _ _ => nofun⟩
    | some t =>
      refine .inr ⟨_, _, rfl, rfl, .inr ⟨old, rfl, rfl, ?_⟩⟩
      have hopen : old.state = .failed ∨ isStale old staleBefore = true := by
        by_contra hno
        rw [not_or] at hno
        refine hrefuse ?_
        simp [refuses, hno.1, hno.2]
      cases hstale : isStale old staleBefore with
      | true =>
        refine .inr ⟨rfl, ?_⟩
        simp only [isStale, Bool.and_eq_true, beq_iff_eq] at hstale
        exact hstale.1
      | false =>
        refine .inl ⟨rfl, ?_⟩
        rcases hopen with h | h
        · exact h
        rw [hstale] at h
        cases h

/-- **EVERYTHING A SETTLE CAN DO**: nothing when fenced out; otherwise it
    moves the `started` checkpoint of this very attempt to the given state,
    even when it then throws. -/
theorem settle_cases (clone : R → Option R) (store : MemoryCheckpointStore R)
    (key : String) (attempt : Nat) (state : Settled) (outcome : Recorded R) (now : Date) :
    (settle clone store key attempt state outcome now).1 = store
    ∨ ∃ old new, store.get key = some old ∧ old.attempt = attempt ∧ old.state = .started ∧
      (settle clone store key attempt state outcome now).1 = store.set key new ∧
      new.state = state.state ∧ new.attempt = old.attempt := by
  unfold settle
  cases hget : store.get key with
  | none => exact .inl rfl
  | some old =>
    by_cases hfence : old.attempt ≠ attempt ∨ old.state ≠ .started
    · simp only [hfence, if_true]
      exact .inl trivial
    simp only [hfence, if_false]
    rw [not_or, not_not, not_not] at hfence
    refine Or.inr ?_
    cases hres : (match outcome.result with
      | none => some none
      | some value => (clone value).map some : Option (Option R)) with
    | none => exact ⟨old, _, rfl, hfence.1, hfence.2, rfl, rfl, rfl⟩
    | some result =>
      cases now with
      | none => exact ⟨old, _, rfl, hfence.1, hfence.2, rfl, rfl, rfl⟩
      | some t => exact ⟨old, _, rfl, hfence.1, hfence.2, rfl, rfl, rfl⟩

end SideEffectCheckpoint

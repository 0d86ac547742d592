import Inqutum.InsertionMapProofs
import Mathlib.Logic.Function.Basic

/-!
# Locks per invoice

`InvoiceLockManager` keeps a promise for every locked id.  A call of
`acquire` that finds one waits for it and looks again when it is resolved;
one that finds none stores a promise of its own and returns a function
that releases the lock.  Several waiters may wake up at one release, in any
order, and a release function may be called late or more than once.

A call is idle, awaiting a promise, or has returned.  The events of a run
are the synchronous pieces of code between two awaits; an event that cannot
happen in a state does nothing.

`locks_exclude` rests on one invariant: the stored promise of an id is the
promise of the one call that returned and has not released.
-/

namespace Locks

open InsertionMap Function

/-- Where a call of `acquire` stands. -/
inductive CallState where
  | idle
  | awaiting (id : String) (promise : Nat)
  | returned (id : String) (promise : Nat) (released : Bool)
  deriving DecidableEq

structure LockManager where
  locks : InsertionMap String Nat
  /-- The promises made so far are `0 .. next - 1`. -/
  next : Nat
  resolved : Nat → Bool
  calls : Nat → CallState

namespace LockManager

def init : LockManager where
  locks := empty
  next := 0
  resolved := fun _ => false
  calls := fun _ => .idle

def isLocked (s : LockManager) (id : String) : Bool := s.locks.has id

/-- The head of the loop of `acquire`: wait for the stored promise, or store
    one and return. -/
def enter (s : LockManager) (call : Nat) (id : String) : LockManager :=
  match s.locks.get id with
  | some promise => { s with calls := Function.update s.calls call (.awaiting id promise) }
  | none =>
    { s with
      locks := s.locks.set id s.next
      next := s.next + 1
      calls := Function.update s.calls call (.returned id s.next false) }

/-- The function a call returned: it deletes its own promise only. -/
def release (s : LockManager) (call : Nat) (id : String) (promise : Nat) :
    LockManager :=
  { s with
    locks := if s.locks.get id = some promise then s.locks.delete id
      else s.locks
    resolved := Function.update s.resolved promise true
    calls := Function.update s.calls call (.returned id promise true) }

inductive Event where
  | acquire (call : Nat) (id : String)
  | resume (call : Nat)
  | release (call : Nat)
  deriving DecidableEq

def step (s : LockManager) : Event → LockManager
  | .acquire call id =>
    match s.calls call with
    | .idle => s.enter call id
    | _ => s
  | .resume call =>
    match s.calls call with
    | .awaiting id promise =>
      if s.resolved promise then s.enter call id else s
    | _ => s
  | .release call =>
    match s.calls call with
    | .returned id promise _ => s.release call id promise
    | _ => s

def run (es : List Event) : LockManager := es.foldl step init

/-! ## The invariant -/

/-- The call is between its return and its first release. -/
def Holds (s : LockManager) (call : Nat) (id : String) : Prop :=
  ∃ promise, s.calls call = .returned id promise false

/-- The call has not returned. -/
def Outside (s : LockManager) (call : Nat) : Prop :=
  ∀ id promise released, s.calls call ≠ .returned id promise released

/-- Stored promises belong to holders and holders' promises are stored; every
    returned call has a promise of its own. -/
structure Consistent (s : LockManager) : Prop where
  stored : ∀ id promise, s.locks.get id = some promise →
    ∃ call, s.calls call = .returned id promise false
  held : ∀ call id promise, s.calls call = .returned id promise false →
    s.locks.get id = some promise
  made : ∀ call id promise released, s.calls call = .returned id promise released → promise < s.next
  own : ∀ call call' id id' promise released released',
    s.calls call = .returned id promise released →
    s.calls call' = .returned id' promise released' → call = call'

theorem consistent_init : Consistent init where
  stored _ _ h := nomatch h
  held _ _ _ h := nomatch h
  made _ _ _ _ h := nomatch h
  own _ _ _ _ _ _ _ h := nomatch h

section Step

variable {s : LockManager} {call : Nat}

theorem Consistent.awaits (h : Consistent s) (hcall : s.Outside call) (id : String)
    (promise : Nat) : Consistent { s with
      calls := Function.update s.calls call (.awaiting id promise) } := by
  have hreturned : ∀ c id' promise' released,
      Function.update s.calls call (.awaiting id promise) c = .returned id' promise' released →
      s.calls c = .returned id' promise' released := by
    intro c id' promise' released hc
    by_cases heq : c = call
    · rw [heq, update_self] at hc
      cases hc
    rw [update_of_ne heq] at hc
    exact hc
  refine ⟨?_, ?_, ?_, ?_⟩
  · intro id' promise' hstored
    obtain ⟨c, hc⟩ := h.stored id' promise' hstored
    refine ⟨c, ?_⟩
    show Function.update s.calls call _ c = _
    rw [update_of_ne (fun heq => hcall _ _ _ (heq ▸ hc))]
    exact hc
  · intro c id' promise' hc
    exact h.held c id' promise' (hreturned _ _ _ _ hc)
  · intro c id' promise' released hc
    exact h.made c id' promise' released (hreturned _ _ _ _ hc)
  intro c c' id₁ id₂ promise' released released' hc hc'
  exact h.own c c' id₁ id₂ promise' released released'
    (hreturned _ _ _ _ hc) (hreturned _ _ _ _ hc')

theorem Consistent.takes (h : Consistent s) (hcall : s.Outside call) {id : String}
    (hget : s.locks.get id = none) : Consistent { s with
      locks := s.locks.set id s.next
      next := s.next + 1
      calls := Function.update s.calls call (.returned id s.next false) } := by
  -- the new promise is fresh, so nobody else returned with it
  have hreturned : ∀ c id' promise released,
      Function.update s.calls call (.returned id s.next false) c = .returned id' promise released →
      (c = call ∧ id' = id ∧ promise = s.next)
      ∨ s.calls c = .returned id' promise released := by
    intro c id' promise released hc
    by_cases heq : c = call
    · rw [heq, update_self] at hc
      injection hc with hid hpromise _
      exact .inl ⟨heq, hid.symm, hpromise.symm⟩
    rw [update_of_ne heq] at hc
    exact .inr hc
  refine ⟨?_, ?_, ?_, ?_⟩
  · intro id' promise hstored
    have hset : (s.locks.set id s.next).get id' = some promise := hstored
    rw [get_set] at hset
    by_cases hid : id = id'
    · rw [if_pos hid] at hset
      refine ⟨call, ?_⟩
      show Function.update s.calls call _ call = _
      rw [update_self, hid, Option.some.inj hset]
    rw [if_neg hid] at hset
    obtain ⟨c, hc⟩ := h.stored id' promise hset
    refine ⟨c, ?_⟩
    show Function.update s.calls call _ c = _
    rw [update_of_ne (fun heq => hcall _ _ _ (heq ▸ hc))]
    exact hc
  · intro c id' promise hc
    show (s.locks.set id s.next).get id' = some promise
    rw [get_set]
    rcases hreturned c id' promise false hc with ⟨-, rfl, rfl⟩ | hold
    · rw [if_pos rfl]
    have hstored := h.held c id' promise hold
    have hid : id ≠ id' := by
      rintro rfl
      rw [hget] at hstored
      cases hstored
    rw [if_neg hid]
    exact hstored
  · intro c id' promise released hc
    show promise < s.next + 1
    rcases hreturned c id' promise released hc with ⟨-, -, rfl⟩ | hold
    · exact Nat.lt_succ_self _
    · exact Nat.lt_succ_of_lt (h.made c id' promise released hold)
  intro c c' id₁ id₂ promise released released' hc hc'
  rcases hreturned c id₁ promise released hc with ⟨rfl, -, rfl⟩ | hold
  · rcases hreturned c' id₂ s.next released' hc' with ⟨rfl, -, -⟩ | hold'
    · rfl
    · exact absurd (h.made _ _ _ _ hold') (Nat.lt_irrefl _)
  rcases hreturned c' id₂ promise released' hc' with ⟨rfl, -, rfl⟩ | hold'
  · exact absurd (h.made _ _ _ _ hold) (Nat.lt_irrefl _)
  · exact h.own c c' id₁ id₂ promise released released' hold hold'

theorem Consistent.enter (h : Consistent s) (hcall : s.Outside call) (id : String) :
    Consistent (s.enter call id) := by
  rw [LockManager.enter]
  cases hget : s.locks.get id with
  | some promise => exact h.awaits hcall id promise
  | none => exact h.takes hcall hget

/-- **A RELEASE FREES ITS OWN LOCK ONLY**: late or repeated, it deletes no
    promise but that of the call. -/
theorem Consistent.release (h : Consistent s) {id : String} {promise : Nat}
    {released : Bool} (hcall : s.calls call = .returned id promise released) :
    Consistent (s.release call id promise) := by
  have hreturned : ∀ c id' promise' released',
      Function.update s.calls call (.returned id promise true) c
        = .returned id' promise' released' →
      (c = call ∧ id' = id ∧ promise' = promise ∧ released' = true)
      ∨ (c ≠ call ∧ s.calls c = .returned id' promise' released') := by
    intro c id' promise' released' hc
    by_cases heq : c = call
    · rw [heq, update_self] at hc
      injection hc with hid hpromise hreleased
      exact .inl ⟨heq, hid.symm, hpromise.symm, hreleased.symm⟩
    rw [update_of_ne heq] at hc
    exact .inr ⟨heq, hc⟩
  -- the promise is found under the id only if this call still holds it
  have hlocks : ∀ id', (if s.locks.get id = some promise
      then s.locks.delete id else s.locks).get id'
      = if id = id' ∧ s.locks.get id = some promise then none
        else s.locks.get id' := by
    intro id'
    by_cases hown : s.locks.get id = some promise
    · rw [if_pos hown, get_delete]
      simp only [hown, and_true]
    · rw [if_neg hown, if_neg (fun hand => hown hand.2)]
  refine ⟨?_, ?_, ?_, ?_⟩
  · intro id' promise' hstored
    have hget := (hlocks id').symm.trans hstored
    split at hget
    · cases hget
    rename_i hnot
    obtain ⟨c, hc⟩ := h.stored id' promise' hget
    refine ⟨c, ?_⟩
    show Function.update s.calls call _ c = _
    have hne : c ≠ call := by
      rintro rfl
      rw [hcall] at hc
      injection hc with hid hpromise _
      rw [← hid, ← hpromise] at hget
      exact hnot ⟨hid, hget⟩
    rw [update_of_ne hne]
    exact hc
  · intro c id' promise' hc
    show (if s.locks.get id = some promise then s.locks.delete id
      else s.locks).get id' = some promise'
    rw [hlocks]
    rcases hreturned c id' promise' false hc with ⟨-, -, -, hb⟩ | ⟨hne, hold⟩
    · cases hb
    have hstored := h.held c id' promise' hold
    have hnot : ¬ (id = id' ∧ s.locks.get id = some promise) := by
      rintro ⟨rfl, hown⟩
      have hsame : promise' = promise := Option.some.inj (hstored.symm.trans hown)
      rw [hsame] at hold
      exact hne (h.own c call id id promise false released hold hcall)
    rw [if_neg hnot]
    exact hstored
  · intro c id' promise' released' hc
    rcases hreturned c id' promise' released' hc with ⟨-, -, rfl, -⟩ | ⟨-, hold⟩
    · exact h.made call id promise' released hcall
    · exact h.made c id' promise' released' hold
  intro c c' id₁ id₂ promise' r r' hc hc'
  rcases hreturned c id₁ promise' r hc with ⟨rfl, -, rfl, -⟩ | ⟨-, hold⟩
  · rcases hreturned c' id₂ promise' r' hc' with ⟨rfl, -⟩ | ⟨-, hold'⟩
    · rfl
    · exact h.own c c' id id₂ promise' released r' hcall hold'
  rcases hreturned c' id₂ promise' r' hc' with ⟨rfl, -, rfl, -⟩ | ⟨-, hold'⟩
  · exact h.own c c' id₁ id promise' r released hold hcall
  · exact h.own c c' id₁ id₂ promise' r r' hold hold'

/-- **WHAT AN EVENT DOES**: nothing, or a call without a lock enters, or a call
    that returned releases. -/
theorem step_cases (s : LockManager) (e : Event) : s.step e = s
    ∨ (∃ call id, s.Outside call ∧ s.step e = s.enter call id)
    ∨ ∃ call id promise released, s.calls call = .returned id promise released
      ∧ s.step e = s.release call id promise := by
  cases e with
  | acquire call id =>
    rw [step]
    split
    · next hidle =>
      refine .inr (.inl ⟨call, id, fun _ _ _ hcall => ?_, rfl⟩)
      cases hidle.symm.trans hcall
    · exact .inl rfl
  | resume call =>
    rw [step]
    split
    · next id promise hawaits =>
      split
      · refine .inr (.inl ⟨call, id, fun _ _ _ hcall => ?_, rfl⟩)
        cases hawaits.symm.trans hcall
      · exact .inl rfl
    · exact .inl rfl
  | release call =>
    rw [step]
    split
    · next id promise released hcall =>
      exact .inr (.inr ⟨call, id, promise, released, hcall, rfl⟩)
    · exact .inl rfl

theorem Consistent.step (h : Consistent s) (e : Event) : Consistent (s.step e) := by
  rcases step_cases s e with heq | ⟨call, id, hcall, heq⟩ | ⟨call, id, promise, _, hcall, heq⟩
  · rw [heq]
    exact h
  · rw [heq]
    exact h.enter hcall id
  · rw [heq]
    exact h.release hcall

end Step

theorem consistent_run (es : List Event) : Consistent (run es) := by
  have hfold : ∀ s, Consistent s → Consistent (es.foldl step s) := by
    induction es with
    | nil => intro s h; exact h
    | cons e rest ih => intro s h; exact ih _ (h.step e)
  exact hfold init consistent_init

/-- **MUTUAL EXCLUSION**: after every schedule at most one call holds an id,
    and an id is in the map exactly while some call holds it. -/
theorem locks_exclude (es : List Event) :
    (∀ id call call', (run es).Holds call id → (run es).Holds call' id → call = call') ∧
    (∀ id, (run es).isLocked id = true ↔ ∃ call, (run es).Holds call id) := by
  have h := consistent_run es
  constructor
  · rintro id call call' ⟨promise, hcall⟩ ⟨promise', hcall'⟩
    have hstored := h.held call id promise hcall
    have hstored' := h.held call' id promise' hcall'
    have hsame : promise = promise' := Option.some.inj (hstored.symm.trans hstored')
    rw [← hsame] at hcall'
    exact h.own call call' id id promise false false hcall hcall'
  · intro id
    rw [isLocked, has_iff]
    constructor
    · rintro ⟨promise, hget⟩
      obtain ⟨call, hcall⟩ := h.stored id promise hget
      exact ⟨call, promise, hcall⟩
    rintro ⟨call, promise, hcall⟩
    exact ⟨promise, h.held call id promise hcall⟩

/-- Two waiters wake up at one release: one gets the lock, the other waits
    again, and a second call of the old release does not free it. -/
example :
    let s := run [.acquire 0 "i", .acquire 1 "i", .acquire 2 "i", .release 0,
      .resume 2, .resume 1, .release 0]
    s.calls 2 = .returned "i" 1 false ∧ s.calls 1 = .awaiting "i" 1
      ∧ s.isLocked "i" = true := by decide

/-! ## No lost wake-up -/

/-- A promise somebody waits for is resolved, or its maker holds the lock. -/
def Awaited (s : LockManager) : Prop :=
  ∀ call id promise, s.calls call = .awaiting id promise →
    s.resolved promise = true ∨ ∃ holder, s.calls holder = .returned id promise false

section Waiting

variable {s : LockManager} {call : Nat} {id : String}

/-- A call that did not hold the lock moves, and waits for a holder at most. -/
theorem Awaited.move (ha : Awaited s) (hcall : s.Outside call) {x : CallState}
    (hx : ∀ id promise, x = .awaiting id promise →
      ∃ holder, s.calls holder = .returned id promise false)
    (locks : InsertionMap String Nat) (next : Nat) :
    Awaited { s with locks := locks, next := next, calls := update s.calls call x } := by
  intro other id promise hother
  have hbefore : s.resolved promise = true
      ∨ ∃ holder, s.calls holder = .returned id promise false := by
    by_cases heq : other = call
    · rw [heq] at hother
      exact .inr (hx id promise ((update_self ..).symm.trans hother))
    · exact ha other id promise ((update_of_ne heq ..).symm.trans hother)
  refine hbefore.imp_right (Exists.imp fun holder hholder => ?_)
  exact (update_of_ne (fun heq => hcall _ _ _ (heq ▸ hholder)) ..).trans hholder

theorem Awaited.enter (ha : Awaited s) (h : Consistent s) (hcall : s.Outside call) : Awaited (s.enter call id) := by
  rw [LockManager.enter]
  cases hget : s.locks.get id with
  | some promise =>
    refine ha.move hcall (fun _ _ hx => ?_) s.locks s.next
    cases hx
    exact h.stored id promise hget
  | none => exact ha.move hcall (fun _ _ hx => by cases hx) _ _

/-- A release resolves the promise that its waiters wait for. -/
theorem Awaited.release (ha : Awaited s) {promise : Nat} {released : Bool}
    (hcall : s.calls call = .returned id promise released) :
    Awaited (s.release call id promise) := by
  intro other id' promise' hother
  have hbefore : s.calls other = .awaiting id' promise' := by
    by_cases heq : other = call
    · rw [heq] at hother
      cases (update_self ..).symm.trans hother
    · exact (update_of_ne heq ..).symm.trans hother
  show update s.resolved promise true promise' = true ∨ _
  by_cases hsame : promise' = promise
  · rw [hsame, update_self]
    exact .inl rfl
  rw [update_of_ne hsame]
  refine (ha other id' promise' hbefore).imp_right (Exists.imp fun holder hholder => ?_)
  refine (update_of_ne (fun heq => hsame ?_) ..).trans hholder
  rw [heq, hcall] at hholder
  cases hholder
  rfl

theorem Awaited.step (ha : Awaited s) (h : Consistent s) (e : Event) : Awaited (s.step e) := by
  rcases step_cases s e with heq | ⟨call, id, hcall, heq⟩ | ⟨call, id, promise, _, hcall, heq⟩
  · rw [heq]
    exact ha
  · rw [heq]
    exact ha.enter h hcall
  · rw [heq]
    exact ha.release hcall

end Waiting

theorem awaited_run (es : List Event) : Awaited (run es) := by
  have hfold : ∀ s, Consistent s → Awaited s → Awaited (es.foldl step s) := by
    induction es with
    | nil => intro s _ ha; exact ha
    | cons e rest ih => intro s h ha; exact ih _ (h.step e) (ha.step h e)
  exact hfold init consistent_init (fun _ _ _ hcall => by cases hcall)

theorem run_concat (es : List Event) (e : Event) : run (es ++ [e]) = (run es).step e :=
  List.foldl_append

/-- While the id is free, waking up is enough. -/
theorem holds_of_resume {es : List Event} {call : Nat} {id : String} {promise : Nat}
    (hawaits : (run es).calls call = .awaiting id promise)
    (hfree : (run es).locks.get id = none) : (run (es ++ [.resume call])).Holds call id := by
  have hresolved : (run es).resolved promise = true := by
    rcases awaited_run es call id promise hawaits with h | ⟨holder, hholder⟩
    · exact h
    · cases hfree.symm.trans ((consistent_run es).held holder id promise hholder)
  refine ⟨(run es).next, ?_⟩
  rw [run_concat]
  simp only [step, hawaits, hresolved, if_true, enter, hfree, update_self]

/-- **NO LOST WAKE-UP**: after every schedule a waiting call gets the lock by
    waking up, at once or after one release by the call that holds it. -/
theorem waiters_served (es : List Event) :
    Awaited (run es) ∧ ∀ call id promise, (run es).calls call = .awaiting id promise →
      (run (es ++ [.resume call])).Holds call id ∨ ∃ holder, (run es).Holds holder id
        ∧ (run (es ++ [.release holder] ++ [.resume call])).Holds call id := by
  refine ⟨awaited_run es, fun call id promise hawaits => ?_⟩
  cases hget : (run es).locks.get id with
  | none => exact .inl (holds_of_resume hawaits hget)
  | some stored =>
    obtain ⟨holder, hholder⟩ := (consistent_run es).stored id stored hget
    have hne : call ≠ holder := by
      rintro rfl
      cases hawaits.symm.trans hholder
    have hreleased : run (es ++ [.release holder]) = (run es).release holder id stored := by
      rw [run_concat, step, hholder]
    refine .inr ⟨holder, ⟨stored, hholder⟩, @holds_of_resume _ call id promise ?_ ?_⟩
    · rw [hreleased]
      exact (update_of_ne hne ..).trans hawaits
    · rw [hreleased, release]
      simp only [hget, if_true, get_delete]

end LockManager

end Locks

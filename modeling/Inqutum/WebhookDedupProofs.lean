import Inqutum.JsTextProofs
import Inqutum.TransitionProofs
import Inqutum.Utf8Proofs
import Mathlib.Logic.Function.Basic

/-!
# Webhook deduplication

`processWebhook` checks a signature, reserves the event's key in an
idempotency store, runs the handler and completes the key with its
result.  If the handler or the completion throws, the key is released.

Any number of calls run side by side (`State.phase`), each a sequence of
the steps between its awaits.  The store is a parameter
(`IdempotencyStore`): all that is assumed of it is what its operations do
to the state of a key (`Lawful`), where an operation that throws may have
taken effect or not.

The handler's success and the record of it are two steps.  As long as a
completion does not throw and no lock runs out before the step that ends
its call, a key has one holder, and its handler succeeds once
(`handled_at_most_once`).  A completion that throws releases a key whose
event was handled (`handled_twice`).
-/

namespace WebhookDedup

open Transition (Along)
open List Function

/-! ## The store -/

structure BeginRequest where
  scope : String
  key : String
  fingerprint : String
  now : Int
  ttlMs : Nat
  lockMs : Nat

/-- What `begin` answers; `proceed` is a fresh decision. -/
inductive Decision (ρ : Type) where
  | replay (body : Option ρ)
  | inProgress
  | conflict
  | expired
  | proceed

structure StoredResponse (ρ : Type) where
  status : Nat
  /-- `none` is `null`. -/
  body : Option ρ

/-- A store with states `σ`; `ω` is what its environment decides during a
    call, such as a failure.  A `begin` that throws answers `none`, and
    `elapse` is time passing. -/
structure IdempotencyStore (σ ω ρ ε : Type) where
  begin : σ → ω → BeginRequest → σ × Option (Decision ρ)
  complete : σ → ω → String × String → StoredResponse ρ → Int →
    σ × Except ε Unit
  release : σ → ω → String × String → σ × Except ε Unit
  elapse : σ → ω → σ

inductive KeyState where
  | free
  | locked
  | completed

def BeginRequest.id (req : BeginRequest) : String × String :=
  (req.scope, req.key)

/-- What the operations do to the state of a key.  An operation on one key
    leaves the others, and a completed key stays completed. -/
structure Lawful {σ ω ρ ε : Type} (store : IdempotencyStore σ ω ρ ε)
    (keyState : σ → String × String → KeyState) : Prop where
  begin_other : ∀ s w req k, k ≠ req.id →
    keyState (store.begin s w req).1 k = keyState s k
  begin_proceed : ∀ s w req, (store.begin s w req).2 = some .proceed →
    keyState s req.id = .free
      ∧ keyState (store.begin s w req).1 req.id = .locked
  begin_answer : ∀ s w req decision,
    (store.begin s w req).2 = some decision → decision ≠ .proceed →
    keyState (store.begin s w req).1 req.id = keyState s req.id
  begin_throws : ∀ s w req, (store.begin s w req).2 = none →
    keyState (store.begin s w req).1 req.id = keyState s req.id
      ∨ keyState s req.id = .free
        ∧ keyState (store.begin s w req).1 req.id = .locked
  complete_other : ∀ s w k response now k', k' ≠ k →
    keyState (store.complete s w k response now).1 k' = keyState s k'
  complete_ok : ∀ s w k response now,
    (store.complete s w k response now).2 = .ok () →
    keyState (store.complete s w k response now).1 k = .completed
  release_other : ∀ s w k k', k' ≠ k →
    keyState (store.release s w k).1 k' = keyState s k'

/-! ## A call -/

/-- The host functions a call uses. -/
structure Host where
  toLowerCase : String → String
  /-- `createHash('sha256').update(bytes).digest('hex')`. -/
  sha256Hex : List Nat → String

inductive RawBody where
  | text (body : String)
  | buffer (bytes : List Nat)

/-- `Buffer.isBuffer(rawBody) ? rawBody : Buffer.from(rawBody)`. -/
def RawBody.bytes : RawBody → List Nat
  | text body => body.toList.flatMap (fun c => Utf8.encodePoint c.toNat)
  | buffer bytes => bytes

structure WebhookInput where
  provider : Option String
  eventId : Option String
  rawBody : RawBody
  /-- `await input.verifySignature()`; `none` is a call that throws. -/
  verifySignature : Option Bool
  /-- The reading of `input.now` or of the clock. -/
  now : Int

inductive WebhookResult (ρ : Type) where
  | accepted (duplicate : Bool) (result : Option ρ)
  | refused (status : Nat) (code : String)

/-- The checks before the store is asked, and the request to it. -/
def prepare {ρ : Type} (host : Host) (input : WebhookInput) :
    Except (WebhookResult ρ) BeginRequest :=
  let provider := (input.provider.map JsText.trim).getD ""
  let key := (input.eventId.map JsText.trim).getD ""
  if provider = "" ∨ key = "" ∨ 255 < JsText.utf16Length key then
    .error (.refused 400 "WEBHOOK_EVENT_ID_INVALID")
  else if input.verifySignature ≠ some true then
    .error (.refused 401 "WEBHOOK_SIGNATURE_INVALID")
  else
    .ok { scope := "webhook:" ++ host.toLowerCase provider
          key
          fingerprint := host.sha256Hex input.rawBody.bytes
          now := input.now
          ttlMs := 7 * 24 * 60 * 60 * 1000
          lockMs := 60 * 1000 }

/-- The answer to a decision that does not let the call proceed. -/
def Decision.answer {ρ : Type} : Decision ρ → Option (WebhookResult ρ)
  | replay body => some (.accepted true body)
  | inProgress => some (.refused 409 "WEBHOOK_EVENT_IN_PROGRESS")
  | conflict => some (.refused 422 "WEBHOOK_EVENT_ID_CONFLICT")
  | expired => some (.refused 410 "WEBHOOK_EVENT_ID_EXPIRED")
  | proceed => none

/-- Where a call stands. -/
inductive Phase (ρ ε : Type) where
  | ready
  | handling (req : BeginRequest)
  | completing (req : BeginRequest) (result : Option ρ)
  | releasing (req : BeginRequest) (error : ε)
  | done (outcome : Except ε (WebhookResult ρ))

/-- Calls by number; `handled` notes the calls whose handler succeeded. -/
structure State (σ ρ ε : Type) where
  store : σ
  phase : Nat → Phase ρ ε
  handled : List Nat

/-- One step of one call, or time passing. -/
inductive Event (ω ρ ε : Type) where
  | begin (call : Nat) (env : ω)
  | handle (call : Nat) (outcome : Except ε (Option ρ))
  | complete (call : Nat) (env : ω)
  | release (call : Nat) (env : ω)
  | elapse (env : ω)

section Process

variable {σ ω ρ ε : Type}

def State.set (s : State σ ρ ε) (call : Nat) (phase : Phase ρ ε) :
    State σ ρ ε :=
  { s with phase := Function.update s.phase call phase }

def begun (host : Host) (store : IdempotencyStore σ ω ρ ε)
    (input : WebhookInput) (s : State σ ρ ε) (call : Nat) (w : ω) :
    State σ ρ ε :=
  match prepare host input with
  | .error result => s.set call (.done (.ok result))
  | .ok req =>
    let (store', reply) := store.begin s.store w req
    let s' := { s with store := store' }
    match reply with
    | none => s'.set call
        (.done (.ok (.refused 503 "WEBHOOK_DEDUPE_STORE_UNAVAILABLE")))
    | some decision =>
      match decision.answer with
      | some result => s'.set call (.done (.ok result))
      | none => s'.set call (.handling req)

/-- A step of a call that stands elsewhere changes nothing. -/
def step (host : Host) (store : IdempotencyStore σ ω ρ ε)
    (inputs : Nat → WebhookInput) (s : State σ ρ ε) :
    Event ω ρ ε → State σ ρ ε
  | .begin call w =>
    match s.phase call with
    | .ready => begun host store (inputs call) s call w
    | _ => s
  | .handle call outcome =>
    match s.phase call, outcome with
    | .handling req, .ok result =>
      { s.set call (.completing req result) with
        handled := s.handled ++ [call] }
    | .handling req, .error error => s.set call (.releasing req error)
    | _, _ => s
  | .complete call w =>
    match s.phase call with
    | .completing req result =>
      let (store', reply) := store.complete s.store w req.id ⟨200, result⟩ req.now
      let s' := { s with store := store' }
      match reply with
      | .ok () => s'.set call (.done (.ok (.accepted false result)))
      | .error error => s'.set call (.releasing req error)
    | _ => s
  | .release call w =>
    match s.phase call with
    | .releasing req error =>
      -- what the release throws is swallowed
      { s with store := (store.release s.store w req.id).1 }.set call
        (.done (.error error))
    | _ => s
  | .elapse w => { s with store := store.elapse s.store w }

def State.new (store : σ) : State σ ρ ε :=
  ⟨store, fun _ => .ready, []⟩

end Process

/-! ## The property and its conditions -/

section Properties

variable {σ ω ρ ε : Type}

/-- The key of a call that gets to the store. -/
def eventKey (host : Host) (input : WebhookInput) : Option (String × String) :=
  match prepare (ρ := Unit) host input with
  | .ok req => some req.id
  | .error _ => none

/-- The calls for one event whose handler succeeded. -/
def handledFor (host : Host) (inputs : Nat → WebhookInput)
    (k : String × String) (s : State σ ρ ε) : List Nat :=
  s.handled.filter (fun call => decide (eventKey host (inputs call) = some k))

/-- The call has begun to handle the event and has not settled it. -/
def Holds (s : State σ ρ ε) (call : Nat) (req : BeginRequest) : Prop :=
  s.phase call = .handling req ∨ (∃ result, s.phase call = .completing req result)
    ∨ ∃ error, s.phase call = .releasing req error

/-- A handler finishes within the lock of its call, and what is completed
    stays so within the run. -/
def Timely (store : IdempotencyStore σ ω ρ ε)
    (keyState : σ → String × String → KeyState) (s : State σ ρ ε) :
    Event ω ρ ε → Prop
  | .elapse w =>
    (∀ call req, s.phase call = .handling req →
      keyState s.store req.id = .locked →
      keyState (store.elapse s.store w) req.id = .locked)
    ∧ ∀ k, keyState s.store k = .completed →
      keyState (store.elapse s.store w) k = .completed
  | _ => True

/-- A completion does not throw, and no lock runs out between the end of a
    handler and the step that settles its call. -/
def Settles (store : IdempotencyStore σ ω ρ ε)
    (keyState : σ → String × String → KeyState) (s : State σ ρ ε) :
    Event ω ρ ε → Prop
  | .complete call w => ∀ req result, s.phase call = .completing req result →
      (store.complete s.store w req.id ⟨200, result⟩ req.now).2 = .ok ()
  | .elapse w => ∀ call req, Holds s call req →
      keyState s.store req.id = .locked → s.phase call ≠ .handling req →
      keyState (store.elapse s.store w) req.id = .locked
  | _ => True

/-- Each event is handled at most once. -/
def AtMostOnce (host : Host) (inputs : Nat → WebhookInput)
    (s : State σ ρ ε) : Prop :=
  ∀ k, (handledFor host inputs k s).length ≤ 1

end Properties

/-! ## The invariant -/

section Invariant

variable {σ ω ρ ε : Type} {host : Host}
  {store : IdempotencyStore σ ω ρ ε}
  {keyState : σ → String × String → KeyState}
  {inputs : Nat → WebhookInput} {s : State σ ρ ε}

/-- One holder for each key, which is locked; an event that was handled is
    being completed by its holder or is completed. -/
structure Inv (host : Host) (keyState : σ → String × String → KeyState)
    (inputs : Nat → WebhookInput) (s : State σ ρ ε) : Prop where
  known : ∀ call req, Holds s call req →
    eventKey host (inputs call) = some req.id
  locked : ∀ call req, Holds s call req → keyState s.store req.id = .locked
  one : ∀ call req call' req', Holds s call req → Holds s call' req' →
    req.id = req'.id → call = call'
  recorded : ∀ call ∈ s.handled, ∃ k, eventKey host (inputs call) = some k
    ∧ ((∃ req result, s.phase call = .completing req result ∧ req.id = k)
      ∨ keyState s.store k = .completed)
  once : s.handled.Pairwise (fun call call' =>
    eventKey host (inputs call) ≠ eventKey host (inputs call'))

theorem Inv.new (host : Host) (keyState : σ → String × String → KeyState)
    (inputs : Nat → WebhookInput) (start : σ) :
    Inv host keyState inputs (State.new start : State σ ρ ε) := by
  have hnone : ∀ call req, ¬ Holds (State.new start : State σ ρ ε) call req :=
    by
    rintro call req (h | ⟨_, h⟩ | ⟨_, h⟩) <;> cases h
  exact
    { known := fun call req h => absurd h (hnone call req)
      locked := fun call req h => absurd h (hnone call req)
      one := fun call req _ _ h _ _ => absurd h (hnone call req)
      recorded := nofun
      once := Pairwise.nil }

theorem atMostOnce_of_inv (h : Inv host keyState inputs s) : AtMostOnce host inputs s := by
  intro k
  have hpair := h.once.filter (fun call => decide (eventKey host (inputs call) = some k))
  rw [handledFor]
  generalize hl : s.handled.filter
    (fun call => decide (eventKey host (inputs call) = some k)) = l at hpair ⊢
  have hkey : ∀ call ∈ l, eventKey host (inputs call) = some k := by
    intro call hmem
    rw [← hl] at hmem
    exact of_decide_eq_true (mem_filter.mp hmem).2
  match l, hpair, hkey with
  | [], _, _ => exact Nat.zero_le 1
  | [_], _, _ => exact le_rfl
  | call :: call' :: rest, hpair, hkey =>
    have hne := (pairwise_cons.mp hpair).1 call' (.head _)
    exact absurd ((hkey call (.head _)).trans (hkey call' (.tail _ (.head _))).symm) hne

variable {req : BeginRequest} {call : Nat} {phase : Phase ρ ε} {start : σ}

theorem eventKey_of_prepare {input : WebhookInput} (h : prepare (ρ := ρ) host input = .ok req) :
    eventKey host input = some req.id := by
  rw [eventKey]
  rw [prepare] at h ⊢
  split at h
  · cases h
  rename_i hvalid
  rw [if_neg hvalid]
  split at h
  · cases h
  rename_i hsigned
  rw [if_neg hsigned]
  rw [← Except.ok.inj h]

/-- **SETTING A PHASE THAT HOLDS NOTHING**: the invariant, if what the store
    does to a key that is held or handled keeps it. -/
theorem Inv.set_done (h : Inv host keyState inputs s) (hphase : ∀ req, phase ≠ .handling req
      ∧ (∀ result, phase ≠ .completing req result) ∧ ∀ error, phase ≠ .releasing req error)
    (hheld : ∀ call' req, call' ≠ call → Holds s call' req → keyState start req.id = .locked)
    (hhandled : ∀ call' ∈ s.handled, ∀ k, eventKey host (inputs call') = some k →
      keyState s.store k = .completed ∨ call' = call → keyState start k = .completed) :
    Inv host keyState inputs ({ s with store := start }.set call phase) := by
  have hback : ∀ call' req, Holds ({ s with store := start }.set call phase) call' req →
      call' ≠ call ∧ Holds s call' req := by
    intro call' req hholds
    by_cases heq : call' = call
    · subst heq
      rw [Holds, State.set] at hholds
      dsimp only at hholds
      rw [update_self] at hholds
      obtain ⟨h1, h2, h3⟩ := hphase req
      rcases hholds with hh | ⟨result, hh⟩ | ⟨error, hh⟩
      · exact absurd hh h1
      · exact absurd hh (h2 result)
      · exact absurd hh (h3 error)
    · refine ⟨heq, ?_⟩
      rw [Holds, State.set] at hholds
      dsimp only at hholds
      rw [update_of_ne heq] at hholds
      exact hholds
  constructor
  · exact fun call' req hh => h.known call' req (hback call' req hh).2
  · intro call' req hh
    obtain ⟨hne, hold⟩ := hback call' req hh
    exact hheld call' req hne hold
  · intro call₁ req₁ call₂ req₂ h₁ h₂ heq
    exact h.one call₁ req₁ call₂ req₂ (hback _ _ h₁).2 (hback _ _ h₂).2 heq
  · intro call' hmem
    obtain ⟨k, hk, hcase⟩ := h.recorded call' hmem
    refine ⟨k, hk, ?_⟩
    by_cases heq : call' = call
    · exact .inr (hhandled call' hmem k hk (.inr heq))
    rcases hcase with ⟨req, result, hphase', hid⟩ | hdone
    · refine .inl ⟨req, result, ?_, hid⟩
      show Function.update s.phase call phase call' = _
      rw [update_of_ne heq]
      exact hphase'
    · exact .inr (hhandled call' hmem k hk (.inl hdone))
  · exact h.once

/-- A call that holds its key under another phase keeps the invariant, if
    its key is handled now only when it was not before. -/
theorem Inv.set_held (h : Inv host keyState inputs s) {handled : List Nat}
    (hholds : Holds s call req) (hnot : ∀ r result, s.phase call ≠ .completing r result)
    (hphase : ∀ req', Holds (s.set call phase) call req' → req' = req)
    (hhandled : handled = s.handled ∨ handled = s.handled ++ [call]
        ∧ ∃ result, phase = .completing req result) :
    Inv host keyState inputs { s.set call phase with handled } := by
  have hback : ∀ call' req', Holds { s.set call phase with handled } call' req' →
      Holds s call' req' := by
    intro call' req' hh
    by_cases heq : call' = call
    · subst heq
      rw [hphase req' hh]
      exact hholds
    rw [Holds, State.set] at hh
    dsimp only at hh
    rw [update_of_ne heq] at hh
    exact hh
  -- the event of this call was not handled before
  have hfirst : ∀ call' ∈ s.handled,
      eventKey host (inputs call') ≠ eventKey host (inputs call) := by
    intro call' hmem heq
    obtain ⟨k, hk, hcase⟩ := h.recorded call' hmem
    rw [heq, h.known call req hholds] at hk
    cases hk
    rcases hcase with ⟨req', result, hphase', hid⟩ | hdone
    · have hsame := h.one call' req' call req (.inr (.inl ⟨result, hphase'⟩)) hholds hid
      rw [hsame] at hphase'
      exact hnot req' result hphase'
    rw [h.locked call req hholds] at hdone
    cases hdone
  have hold : ∀ call' ∈ s.handled, ∃ k, eventKey host (inputs call') = some k
        ∧ ((∃ req result, (s.set call phase).phase call'
            = .completing req result ∧ req.id = k)
          ∨ keyState s.store k = .completed) := by
    intro call' hmem
    obtain ⟨k, hk, hcase⟩ := h.recorded call' hmem
    refine ⟨k, hk, ?_⟩
    rcases hcase with ⟨req', result, hphase', hid⟩ | hdone
    · refine .inl ⟨req', result, ?_, hid⟩
      have hne : call' ≠ call := by
        rintro rfl
        exact hnot req' result hphase'
      exact (update_of_ne hne _ _).trans hphase'
    · exact .inr hdone
  constructor
  · exact fun call' req' hh => h.known call' req' (hback call' req' hh)
  · exact fun call' req' hh => h.locked call' req' (hback call' req' hh)
  · intro call₁ req₁ call₂ req₂ h₁ h₂ heq
    exact h.one call₁ req₁ call₂ req₂ (hback _ _ h₁) (hback _ _ h₂) heq
  · rcases hhandled with rfl | ⟨rfl, result, rfl⟩
    · exact hold
    intro call' hmem
    rcases mem_append.mp hmem with hmem | hmem
    · exact hold call' hmem
    obtain rfl := mem_singleton.mp hmem
    refine ⟨req.id, h.known _ req hholds, .inl ⟨req, result, ?_, rfl⟩⟩
    exact update_self _ _ _
  · rcases hhandled with rfl | ⟨rfl, -⟩
    · exact h.once
    refine pairwise_append.mpr ⟨h.once, pairwise_singleton _ _, ?_⟩
    intro call' hmem call'' hmem'
    rw [mem_singleton.mp hmem']
    exact hfirst call' hmem

theorem Inv.completed_of_handled (h : Inv host keyState inputs s) (hmem : call ∈ s.handled)
    (hnot : ∀ r result, s.phase call ≠ .completing r result)
    {k : String × String} (hk : eventKey host (inputs call) = some k) :
    keyState s.store k = .completed := by
  obtain ⟨k', hk', hcase⟩ := h.recorded call hmem
  rw [hk] at hk'
  cases hk'
  rcases hcase with ⟨req, result, hphase, -⟩ | hdone
  · exact absurd hphase (hnot req result)
  · exact hdone

theorem Inv.set_handling (h : Inv host keyState inputs s)
    (hkey : eventKey host (inputs call) = some req.id) (hphase : s.phase call = .ready)
    (hfree : keyState s.store req.id = .free) (hlocked : keyState start req.id = .locked)
    (hother : ∀ k, k ≠ req.id → keyState start k = keyState s.store k) : Inv host keyState inputs
      ({ s with store := start }.set call (.handling req)) := by
  have hcases : ∀ call' req',
      Holds ({ s with store := start }.set call (.handling req)) call' req' →
      call' = call ∧ req' = req
        ∨ call' ≠ call ∧ Holds s call' req' ∧ req'.id ≠ req.id := by
    intro call' req' hh
    by_cases heq : call' = call
    · subst heq
      rw [Holds, State.set] at hh
      dsimp only at hh
      rw [update_self] at hh
      rcases hh with hh | ⟨result, hh⟩ | ⟨error, hh⟩
      · injection hh with hreq
        exact .inl ⟨rfl, hreq.symm⟩
      · cases hh
      · cases hh
    · rw [Holds, State.set] at hh
      dsimp only at hh
      rw [update_of_ne heq] at hh
      refine .inr ⟨heq, hh, fun hid => ?_⟩
      have hlock := h.locked call' req' hh
      rw [hid, hfree] at hlock
      cases hlock
  constructor
  · intro call' req' hh
    rcases hcases call' req' hh with ⟨rfl, rfl⟩ | ⟨-, hold, -⟩
    · exact hkey
    · exact h.known call' req' hold
  · intro call' req' hh
    rcases hcases call' req' hh with ⟨rfl, rfl⟩ | ⟨-, hold, hne⟩
    · exact hlocked
    · exact (hother _ hne).trans (h.locked call' req' hold)
  · intro call₁ req₁ call₂ req₂ h₁ h₂ heq
    rcases hcases call₁ req₁ h₁ with ⟨rfl, rfl⟩ | ⟨hne₁, hold₁, hid₁⟩
    · rcases hcases call₂ req₂ h₂ with ⟨rfl, -⟩ | ⟨-, -, hid₂⟩
      · rfl
      · exact absurd heq.symm hid₂
    rcases hcases call₂ req₂ h₂ with ⟨rfl, rfl⟩ | ⟨-, hold₂, -⟩
    · exact absurd heq hid₁
    · exact h.one call₁ req₁ call₂ req₂ hold₁ hold₂ heq
  · intro call' hmem
    obtain ⟨k, hk, hcase⟩ := h.recorded call' hmem
    refine ⟨k, hk, ?_⟩
    rcases hcase with ⟨req', result, hphase', hid⟩ | hdone
    · have hne : call' ≠ call := by
        rintro rfl
        rw [hphase] at hphase'
        cases hphase'
      refine .inl ⟨req', result, ?_, hid⟩
      exact (update_of_ne hne _ _).trans hphase'
    · refine .inr ((hother k ?_).trans hdone)
      rintro rfl
      rw [hfree] at hdone
      cases hdone
  · exact h.once

theorem done_holds_nothing (outcome : Except ε (WebhookResult ρ)) (req : BeginRequest) :
    Phase.done outcome ≠ (.handling req : Phase ρ ε)
      ∧ (∀ result, Phase.done outcome ≠ (.completing req result : Phase ρ ε))
      ∧ ∀ error, Phase.done outcome ≠ (.releasing req error : Phase ρ ε) :=
  ⟨fun h => (nomatch h), fun _ h => (nomatch h), fun _ h => (nomatch h)⟩

theorem Inv.begun (h : Inv host keyState inputs s)
    (hlaw : Lawful store keyState) {call : Nat} {w : ω} (hready : s.phase call = .ready) :
    Inv host keyState inputs (begun host store (inputs call) s call w) := by
  have hnot : ∀ r result, s.phase call ≠ .completing r result := by
    intro r result hphase
    rw [hready] at hphase
    cases hphase
  have hkept : ∀ {start : σ} {result : WebhookResult ρ}, (∀ k, keyState start k = keyState s.store k
        ∨ keyState s.store k = .free ∧ keyState start k = .locked) →
      Inv host keyState inputs
        ({ s with store := start }.set call (.done (.ok result))) := by
    intro start result hstate
    refine h.set_done (done_holds_nothing _) ?_ ?_
    · intro call' req _ hh
      rcases hstate req.id with hsame | ⟨hfree, -⟩
      · exact hsame.trans (h.locked call' req hh)
      · cases hfree.symm.trans (h.locked call' req hh)
    intro call' hmem k hk hcase
    have hdone : keyState s.store k = .completed := by
      rcases hcase with hdone | rfl
      · exact hdone
      · exact h.completed_of_handled hmem hnot hk
    rcases hstate k with hsame | ⟨hfree, -⟩
    · exact hsame.trans hdone
    · cases hfree.symm.trans hdone
  rw [WebhookDedup.begun]
  cases hprepare : prepare (ρ := ρ) host (inputs call) with
  | error result => exact hkept (fun _ => .inl rfl)
  | ok req =>
    dsimp only
    have hother := hlaw.begin_other s.store w req
    cases hreply : (store.begin s.store w req).2 with
    | none =>
      refine hkept fun k => ?_
      by_cases hk : k = req.id
      · rw [hk]
        exact hlaw.begin_throws s.store w req hreply
      · exact .inl (hother k hk)
    | some decision =>
      dsimp only
      cases hanswer : decision.answer with
      | some result =>
        refine hkept fun k => ?_
        by_cases hk : k = req.id
        · rw [hk]
          refine .inl (hlaw.begin_answer s.store w req decision hreply ?_)
          rintro rfl
          cases hanswer
        · exact .inl (hother k hk)
      | none =>
        -- only a fresh decision lets the call proceed
        have hproceed : decision = .proceed := by
          cases decision with
          | proceed => rfl
          | _ => cases hanswer
        rw [hproceed] at hreply
        obtain ⟨hfree, hlocked⟩ := hlaw.begin_proceed s.store w req hreply
        exact h.set_handling (eventKey_of_prepare hprepare) hready hfree hlocked hother

/-- **THE STEP**: a step of a call that settles in time keeps the
    invariant. -/
theorem Inv.step (h : Inv host keyState inputs s) (hlaw : Lawful store keyState) {e : Event ω ρ ε}
    (htimely : Timely store keyState s e) (hsettles : Settles store keyState s e) :
    Inv host keyState inputs (step host store inputs s e) := by
  cases e with
  | begin call w =>
    rw [WebhookDedup.step]
    split
    · rename_i hready
      exact h.begun hlaw hready
    · exact h
  | handle call outcome =>
    unfold WebhookDedup.step
    dsimp only
    split
    · rename_i req result hphase
      have hnot : ∀ r result, s.phase call ≠ .completing r result := by
        intro r result hphase'
        rw [hphase] at hphase'
        cases hphase'
      refine h.set_held (.inl hphase) hnot ?_ (.inr ⟨rfl, result, rfl⟩)
      intro req' hh
      rw [Holds, State.set] at hh
      dsimp only at hh
      rw [update_self] at hh
      rcases hh with hh | ⟨r, hh⟩ | ⟨r, hh⟩
      · cases hh
      · injection hh with hreq
        exact hreq.symm
      · cases hh
    · rename_i req error hphase
      have hnot : ∀ r result, s.phase call ≠ .completing r result := by
        intro r result hphase'
        rw [hphase] at hphase'
        cases hphase'
      refine h.set_held (.inl hphase) hnot ?_ (.inl rfl)
      intro req' hh
      rw [Holds, State.set] at hh
      dsimp only at hh
      rw [update_self] at hh
      rcases hh with hh | ⟨r, hh⟩ | ⟨r, hh⟩
      · cases hh
      · cases hh
      injection hh with hreq
      exact hreq.symm
    · exact h
  | complete call w =>
    rw [WebhookDedup.step]
    split
    · rename_i req result hphase
      have hok := hsettles req result hphase
      have hholds : Holds s call req := .inr (.inl ⟨result, hphase⟩)
      have hother := hlaw.complete_other s.store w req.id ⟨200, result⟩ req.now
      dsimp only
      rw [hok]
      refine h.set_done (done_holds_nothing _) ?_ ?_
      · intro call' req' hne hh
        have hid : req'.id ≠ req.id := fun heq => hne (h.one call' req' call req hh hholds heq)
        exact (hother _ hid).trans (h.locked call' req' hh)
      intro call' hmem k hk hcase
      by_cases hid : k = req.id
      · rw [hid]
        exact hlaw.complete_ok s.store w req.id _ _ hok
      rw [hother k hid]
      rcases hcase with hdone | rfl
      · exact hdone
      rw [h.known _ req hholds] at hk
      exact absurd (Option.some.inj hk).symm hid
    · exact h
  | release call w =>
    rw [WebhookDedup.step]
    split
    · rename_i req error hphase
      have hholds : Holds s call req := .inr (.inr ⟨error, hphase⟩)
      have hnot : ∀ r result, s.phase call ≠ .completing r result := by
        intro r result hphase'
        rw [hphase] at hphase'
        cases hphase'
      have hother := hlaw.release_other s.store w req.id
      refine h.set_done (done_holds_nothing _) ?_ ?_
      · intro call' req' hne hh
        have hid : req'.id ≠ req.id := fun heq => hne (h.one call' req' call req hh hholds heq)
        exact (hother _ hid).trans (h.locked call' req' hh)
      intro call' hmem k hk hcase
      have hdone : keyState s.store k = .completed := by
        rcases hcase with hdone | rfl
        · exact hdone
        · exact h.completed_of_handled hmem hnot hk
      have hid : k ≠ req.id := by
        rintro rfl
        cases (h.locked call req hholds).symm.trans hdone
      exact (hother k hid).trans hdone
    · exact h
  | elapse w =>
    rw [WebhookDedup.step]
    constructor
    · exact fun call req hh => h.known call req hh
    · intro call req hh
      have hlocked := h.locked call req hh
      by_cases hhandling : s.phase call = .handling req
      · exact htimely.1 call req hhandling hlocked
      · exact hsettles call req hh hlocked hhandling
    · exact fun call₁ req₁ call₂ req₂ h₁ h₂ => h.one call₁ req₁ call₂ req₂ h₁ h₂
    · intro call hmem
      obtain ⟨k, hk, hcase⟩ := h.recorded call hmem
      exact ⟨k, hk, hcase.imp (fun hcompleting => hcompleting) (htimely.2 k)⟩
    · exact h.once

end Invariant

/-- **AN EVENT IS HANDLED AT MOST ONCE**: in every run over a lawful store,
    with handlers that finish within their lock, in which no completion
    throws and no lock runs out before the step that settles its call. -/
theorem handled_at_most_once {σ ω ρ ε : Type} (host : Host)
    (store : IdempotencyStore σ ω ρ ε)
    (keyState : σ → String × String → KeyState)
    (hlaw : Lawful store keyState) (inputs : Nat → WebhookInput) (start : σ)
    (events : List (Event ω ρ ε))
    (htimely : Along (step host store inputs) (Timely store keyState)
      (.new start) events)
    (hsettles : Along (step host store inputs) (Settles store keyState)
      (.new start) events) :
    Along (step host store inputs) (fun s e =>
      AtMostOnce host inputs (step host store inputs s e)) (.new start)
      events := by
  refine Along.imp (I := Inv host keyState inputs) ?_
    (Inv.new host keyState inputs start) (htimely.and hsettles)
  intro s e hinv hboth
  have hnext := hinv.step hlaw hboth.1 hboth.2
  exact ⟨atMostOnce_of_inv hnext, hnext⟩

/-! ## A completion that throws -/

section Sample

/-- What the sample store keeps under a key. -/
inductive Entry where
  | locked (fingerprint : String)
  | completed (fingerprint : String) (body : Option String)

abbrev SampleState := String × String → Option Entry

def sampleKeyState (s : SampleState) (k : String × String) : KeyState :=
  match s k with
  | none => .free
  | some (.locked _) => .locked
  | some (.completed _ _) => .completed

/-- A store in memory; a call throws, without effect, when it is `down`. -/
def sampleStore : IdempotencyStore SampleState Bool String String where
  begin s down req :=
    if down then (s, none)
    else
      match s req.id with
      | none => (Function.update s req.id (some (.locked req.fingerprint)),
          some .proceed)
      | some (.locked _) => (s, some .inProgress)
      | some (.completed fingerprint body) =>
        if fingerprint = req.fingerprint then (s, some (.replay body))
        else (s, some .conflict)
  complete s down k response _ :=
    if down then (s, .error "store unavailable")
    else
      match s k with
      | some (.locked fingerprint) =>
        (Function.update s k (some (.completed fingerprint response.body)),
          .ok ())
      | some (.completed fingerprint _) =>
        (Function.update s k (some (.completed fingerprint response.body)),
          .ok ())
      | none => (Function.update s k (some (.completed "" response.body)), .ok ())
  release s down k :=
    if down then (s, .error "store unavailable")
    else
      match s k with
      | some (.locked _) => (Function.update s k none, .ok ())
      | _ => (s, .ok ())
  elapse s _ := s

theorem sampleKeyState_other {s : SampleState} {k k' : String × String}
    (entry : Option Entry) (h : k' ≠ k) :
    sampleKeyState (Function.update s k entry) k' = sampleKeyState s k' := by
  rw [sampleKeyState, sampleKeyState, update_of_ne h]

theorem sampleKeyState_self {s : SampleState} {k : String × String} (entry : Option Entry) :
    sampleKeyState (Function.update s k entry) k = sampleKeyState (fun _ => entry) k := by
  rw [sampleKeyState, sampleKeyState, update_self]

theorem sampleStore_lawful : Lawful sampleStore sampleKeyState where
  begin_other s down req k hk := by
    rw [sampleStore]
    dsimp only
    split
    · rfl
    split
    · exact sampleKeyState_other _ hk
    · rfl
    · split <;> rfl
  begin_proceed s down req h := by
    rw [sampleStore] at h ⊢
    dsimp only at h ⊢
    split at h
    · cases h
    rename_i hup
    split at h
    · rename_i hfree
      rw [if_neg hup]
      refine ⟨?_, sampleKeyState_self _⟩
      rw [sampleKeyState, hfree]
    · cases h
    · split at h <;> cases h
  begin_answer s down req decision h hne := by
    rw [sampleStore] at h ⊢
    dsimp only at h ⊢
    split at h
    · cases h
    rename_i hup
    rw [if_neg hup]
    split at h
    · exact absurd (Option.some.inj h).symm hne
    · rfl
    · split <;> rfl
  begin_throws s down req h := by
    rw [sampleStore] at h ⊢
    dsimp only at h ⊢
    split at h
    · rename_i hdown
      rw [if_pos hdown]
      exact .inl rfl
    split at h
    · cases h
    · cases h
    · split at h <;> cases h
  complete_other s down k response now k' hk := by
    rw [sampleStore]
    dsimp only
    split
    · rfl
    · split <;> exact sampleKeyState_other _ hk
  complete_ok s down k response now h := by
    rw [sampleStore] at h ⊢
    dsimp only at h ⊢
    split at h
    · cases h
    rename_i hup
    rw [if_neg hup]
    split <;> exact sampleKeyState_self _
  release_other s down k k' hk := by
    rw [sampleStore]
    dsimp only
    split
    · rfl
    split
    · exact sampleKeyState_other _ hk
    · rfl

theorem sampleStore_up (s : SampleState) (k : String × String)
    (response : StoredResponse String) (now : Int) :
    (sampleStore.complete s false k response now).2 = .ok () := by
  rw [sampleStore]
  dsimp only
  rw [if_neg Bool.false_ne_true]
  split <;> rfl

def sampleHost : Host := ⟨fun text => text, fun _ => "digest"⟩

/-- Every call delivers one event of one provider. -/
def sampleInputs : Nat → WebhookInput := fun call =>
  ⟨some "pay", some "evt", .text "", some true, call⟩

/-- A failed attempt, a handled one next to a second delivery, a replay. -/
def sampleEvents : List (Event Bool String String) :=
  [.begin 0 false, .handle 0 (.error "temporary"), .release 0 false,
    .begin 1 false, .begin 2 false, .handle 1 (.ok (some "done")),
    .complete 1 false, .begin 3 false]

theorem handled_at_most_once_sample :
    Along (step sampleHost sampleStore sampleInputs) (fun s e =>
      AtMostOnce sampleHost sampleInputs
        (step sampleHost sampleStore sampleInputs s e))
      (.new (fun _ => none)) sampleEvents := by
  refine handled_at_most_once sampleHost sampleStore sampleKeyState
    sampleStore_lawful sampleInputs (fun _ => none) sampleEvents ?_ ?_
  · exact ⟨trivial, trivial, trivial, trivial, trivial, trivial, trivial,
      trivial, trivial⟩
  refine ⟨trivial, trivial, trivial, trivial, trivial, trivial, ?_, trivial,
    trivial⟩
  exact fun req result _ => sampleStore_up _ _ _ _

/-- A handler succeeds, the completion throws, and the event is delivered
    again. -/
def retriedEvents : List (Event Bool String String) :=
  [.begin 0 false, .handle 0 (.ok (some "paid")), .complete 0 true,
    .release 0 false, .begin 1 false, .handle 1 (.ok (some "paid"))]

/-- **A COMPLETION THAT THROWS** lets the event be handled twice. -/
theorem handled_twice :
    ¬ Along (step sampleHost sampleStore sampleInputs) (fun s e =>
      AtMostOnce sampleHost sampleInputs
        (step sampleHost sampleStore sampleInputs s e))
      (.new (fun _ => none)) retriedEvents := by
  rintro ⟨-, -, -, -, -, honce, -⟩
  have htwo : handledFor sampleHost sampleInputs ("webhook:pay", "evt")
      (retriedEvents.foldl (step sampleHost sampleStore sampleInputs)
        (.new (fun _ => none))) = [0, 1] := by decide +kernel
  have hone : (handledFor sampleHost sampleInputs ("webhook:pay", "evt")
      (retriedEvents.foldl (step sampleHost sampleStore sampleInputs)
        (.new (fun _ => none)))).length ≤ 1 := honce ("webhook:pay", "evt")
  rw [htwo] at hone
  exact absurd hone (by decide)

end Sample

end WebhookDedup

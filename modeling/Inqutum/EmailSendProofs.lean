import Inqutum.EmailDeliveryProofs
import Inqutum.TransitionProofs
import Mathlib.Logic.Function.Basic

/-!
# Sending the queued e-mails

`processDelivery` reads a delivery, sends it, and writes what came of it:
`SENT`, `PERMANENTLY_FAILED`, or `PENDING` again with one more attempt
counted.  `processPendingBatch` lists what is due and processes it one by
one, and `resumePausedEmails` makes the paused deliveries pending.  Any
number of calls run side by side (`State.calls`), each a sequence of the
steps between its awaits; the transporter and the store may fail.

What a call writes is computed from what it read before it sent.
`Ledger` is the part of a state that matters for that: the rows, what each
call holds, and the e-mails that went out.  Every sound step is one of its
moves (`step_move`), and the moves keep `Ledger.Inv`: an attempt under way
is the last one that was sent, and nobody holds a count that includes it.
So a delivery goes out once in the runs whose steps are sound.
-/

namespace EmailSending

open EmailQueue
open Transition (Along)
open List Function Nat MemoryEmailDeliveryStorage Bool

/-! ## The calls -/

/-- What the engine supplies. -/
structure Engine where
  toLowerCase : String → String
  /-- `Math.pow`. -/
  pow : JsNumber → JsNumber → JsNumber

structure EmailRetryConfig where
  initialBackoffMs : JsNumber
  backoffMultiplier : JsNumber
  maxBackoffMs : JsNumber

structure EmailSendResult where
  success : Bool
  error : Option String
  isRetryable : Option Bool

/-- What comes of a `sendMail`. -/
inductive SendOutcome where
  | result (result : EmailSendResult)
  | thrown (message : String)

/-- What the services and the clock answer during a step; an update that fails
    does so with a message. -/
structure Env where
  tripped : Bool
  now : Int
  clock : Int
  send : SendOutcome
  updateFails : Option String

/-- `text.includes(part)`. -/
def includes (text part : String) : Bool :=
  text.toList.tails.any (fun rest => part.toList.isPrefixOf rest)

def isPermanentError (engine : Engine) (error : String) : Bool :=
  let lower := engine.toLowerCase error
  includes lower "invalid recipient" || includes lower "user not found"
    || includes lower "550" || includes lower "554"
    || includes lower "mailbox unavailable" || includes lower "spam rejected"
    || includes lower "domain does not exist"
    || includes lower "address rejected"

def calculateNextAttempt (engine : Engine) (config : EmailRetryConfig)
    (clock : Int) (attemptNumber : Nat) : Option Int :=
  let exponent := attemptNumber - 1
  let delayMs := config.maxBackoffMs.mathMin (config.initialBackoffMs.mul
    (engine.pow config.backoffMultiplier (.ofNat exponent)))
  Canonical.timeClip ((JsNumber.finite clock).add delayMs)

def pausedUpdate (attempts : Nat) : DeliveryUpdate where
  status := .paused
  attempts
  lastError := some "Circuit breaker is active due to elevated bounce/complaint rate"

def sentUpdate (currentAttempt : Nat) (now : Int) : DeliveryUpdate where
  status := .sent
  attempts := currentAttempt
  lastAttemptAt := some now
  sentAt := some now

def failedUpdate (currentAttempt : Nat) (now : Int) (errorMsg : String) : DeliveryUpdate where
  status := .permanentlyFailed
  attempts := currentAttempt
  lastError := some errorMsg
  isRetryable := some false
  lastAttemptAt := some now

def retryUpdate (currentAttempt : Nat) (now : Int) (errorMsg : String)
    (nextAttemptAt : Option Int) : DeliveryUpdate where
  status := .pending
  attempts := currentAttempt
  lastError := some errorMsg
  isRetryable := some true
  lastAttemptAt := some now
  nextAttemptAt := some nextAttemptAt

section Process

variable (engine : Engine) (config : EmailRetryConfig)

/-- `currentAttempt >= delivery.maxAttempts`. -/
def exhausted (delivery : EmailDelivery) (currentAttempt : Nat) : Bool :=
  delivery.maxAttempts.le (.ofNat currentAttempt)

/-- What the answer of the transporter makes of a delivery. -/
def resultUpdate (env : Env) (delivery : EmailDelivery) (currentAttempt : Nat)
    (now : Int) (result : EmailSendResult) : DeliveryUpdate :=
  if result.success then sentUpdate currentAttempt now
  else
    let errorMsg := JsText.orElse result.error "Unknown send failure"
    let isRetryable := result.isRetryable.getD (!isPermanentError engine errorMsg)
    if !isRetryable then failedUpdate currentAttempt now errorMsg
    else if exhausted delivery currentAttempt then
      failedUpdate currentAttempt now ("Max attempts (" ++ delivery.maxAttempts.toText
          ++ ") reached. Last error: " ++ errorMsg)
    else retryUpdate currentAttempt now errorMsg
      (calculateNextAttempt engine config env.clock currentAttempt)

/-- What an error makes of a delivery. -/
def caughtUpdate (env : Env) (delivery : EmailDelivery) (currentAttempt : Nat)
    (now : Int) (errorMsg : String) : DeliveryUpdate :=
  if isPermanentError engine errorMsg || exhausted delivery currentAttempt then
    failedUpdate currentAttempt now errorMsg
  else retryUpdate currentAttempt now errorMsg
    (calculateNextAttempt engine config env.clock currentAttempt)

/-- Where a `processDelivery` stands: it has read, it sends, the update after
    its send failed, or it returns. -/
inductive Phase where
  | read (found : Option EmailDelivery)
  | sending (delivery : EmailDelivery) (currentAttempt : Nat) (now : Int)
  | failing (delivery : EmailDelivery) (currentAttempt : Nat) (now : Int) (message : String)
  | returned (result : Except String (Option EmailDelivery))

inductive CallKind where
  | processDelivery (deliveryId : String)
  | processPendingBatch (maxCount : JsNumber)

/-- A call, with the deliveries that a batch has still to process. -/
inductive CallState where
  | ready
  | listed (pending : List String)
  | running (phase : Phase) (rest : List String)
  | finished

/-- `mails` notes each call of `sendMail`, and `successes` each success that
    the transporter reported, by the id of the delivery. -/
structure State where
  store : MemoryEmailDeliveryStorage
  isProcessing : Bool
  calls : Nat → CallState
  mails : List String
  successes : List String

def State.new : State := ⟨.new, false, fun _ => .ready, [], []⟩

def State.set (s : State) (call : Nat) (state : CallState) : State :=
  { s with calls := Function.update s.calls call state }

def written (env : Env) (s : State) (id : String) (update : DeliveryUpdate) :
    MemoryEmailDeliveryStorage × Except String (Option EmailDelivery) :=
  match env.updateFails with
  | some message => (s.store, .error message)
  | none =>
    let (store, result) := s.store.updateDeliveryStatus id update env.now
    (store, .ok result)

/-- A batch lowers its flag at its end. -/
def finish (kind : CallKind) (s : State) (call : Nat) : State :=
  match kind with
  | .processDelivery _ => s.set call .finished
  | .processPendingBatch _ => { s.set call .finished with isProcessing := false }

/-- The next delivery of a batch. -/
def next (kind : CallKind) (pending : List String) (s : State) (call : Nat) :
    State :=
  match pending with
  | [] => finish kind s call
  | id :: rest => s.set call (.running (.read (s.store.getDeliveryById id)) rest)

def started (kind : CallKind) (env : Env) (s : State) (call : Nat) : State :=
  match kind with
  | .processDelivery deliveryId =>
    s.set call (.running (.read (s.store.getDeliveryById deliveryId)) [])
  | .processPendingBatch maxCount =>
    if s.isProcessing then s.set call .finished
    else if env.tripped then s.set call .finished
    else
      let pending := s.store.getPendingDeliveries maxCount env.now
      { s.set call (.listed (pending.map EmailDelivery.id)) with
        isProcessing := true }

def isTerminal (status : EmailDeliveryStatus) : Bool :=
  decide (status = .sent) || decide (status = .permanentlyFailed)

/-- After the read: the breaker, or the send. -/
def decided (env : Env) (found : Option EmailDelivery) (rest : List String)
    (s : State) (call : Nat) : State :=
  match found with
  | none => s.set call (.running (.returned (.ok none)) rest)
  | some delivery =>
    if isTerminal delivery.status then
      s.set call (.running (.returned (.ok (some delivery))) rest)
    else if env.tripped then
      let (store, result) := written env s delivery.id (pausedUpdate delivery.attempts)
      { s.set call (.running (.returned result) rest) with store }
    else
      { s.set call (.running (.sending delivery (delivery.attempts + 1) env.now) rest) with
        mails := s.mails ++ [delivery.id] }

/-- The `catch` block. -/
def caught (env : Env) (delivery : EmailDelivery) (currentAttempt : Nat)
    (now : Int) (message : String) (rest : List String) (s : State)
    (call : Nat) : State :=
  let (store, result) := written env s delivery.id
    (caughtUpdate engine config env delivery currentAttempt now message)
  { s.set call (.running (.returned result) rest) with store }

def answered (env : Env) (delivery : EmailDelivery) (currentAttempt : Nat)
    (now : Int) (rest : List String) (s : State) (call : Nat) : State :=
  match env.send with
  | .thrown message => caught engine config env delivery currentAttempt now message rest s call
  | .result result =>
    let (store, reply) := written env s delivery.id
      (resultUpdate engine config env delivery currentAttempt now result)
    let phase := match reply with
      | .ok updated => Phase.returned (.ok updated)
      | .error message => .failing delivery currentAttempt now message
    { s.set call (.running phase rest) with
      store
      successes := if result.success then s.successes ++ [delivery.id]
        else s.successes }

def advance (kind : CallKind) (env : Env) (s : State) (call : Nat) : State :=
  match s.calls call with
  | .ready => started kind env s call
  | .listed pending => next kind pending s call
  | .running (.read found) rest => decided env found rest s call
  | .running (.sending delivery currentAttempt now) rest =>
    answered engine config env delivery currentAttempt now rest s call
  | .running (.failing delivery currentAttempt now message) rest =>
    caught engine config env delivery currentAttempt now message rest s call
  | .running (.returned (.ok _)) rest => next kind rest s call
  | .running (.returned (.error _)) _ => finish kind s call
  | .finished => s

/-- A step of a call, a delivery that is created, or a resume. -/
inductive Event where
  | advance (call : Nat) (env : Env)
  | create (input : EnqueueEmailInput) (tripped : Bool) (id : String) (now : Int)
  | resumePausedEmails (tripped : Bool) (now : Int)

def step (kinds : Nat → CallKind) (s : State) : Event → State
  | .advance call env => advance engine config (kinds call) env s call
  | .create input tripped id now =>
    { s with store := (s.store.createDelivery input
        (if tripped then .paused else .pending) id now).1 }
  | .resumePausedEmails tripped now =>
    if tripped then s
    else { s with store := (s.store.resumePausedDeliveries 100 now).1 }

end Process

/-- `randomUUID()` gives no id that is in use. -/
def Fresh (s : State) : Event → Prop
  | .create _ _ id _ => s.store.get id = none
  | _ => True

instance (s : State) : (e : Event) → Decidable (Fresh s e)
  | .create _ _ id _ => inferInstanceAs (Decidable (s.store.get id = none))
  | .advance _ _ => instDecidableTrue
  | .resumePausedEmails _ _ => instDecidableTrue

/-! ## The property and its condition -/

/-- Each delivery goes out once, within its budget. -/
structure Safe (s : State) : Prop where
  once : ∀ id, s.successes.count id ≤ 1
  budget : ∀ id row, s.store.get id = some row → s.mails.count id ≠ 0 →
    row.maxAttempts.lt (.ofNat (s.mails.count id)) = false

/-- A delivery that is settled keeps its status. -/
def Settled (s s' : State) : Prop :=
  ∀ id row, s.store.get id = some row → isTerminal row.status = true →
    ∃ row', s'.store.get id = some row' ∧ row'.status = row.status

/-- A budget of a whole number of attempts, at least one, or of any number. -/
def wholeBudget : JsNumber → Bool
  | .finite q => decide (q.den = 1) && decide (1 ≤ q)
  | .posInf => true
  | _ => false

/-- What a step finds is as its call read it: a send counts every `sendMail`
    before it, and a breaker pauses nothing that is settled.  The update after
    a success does not fail, and a budget is whole. -/
def sound (s : State) : Event → Bool
  | .advance call env =>
    match s.calls call with
    | .running (.read (some delivery)) _ =>
      isTerminal delivery.status
        || (if env.tripped then env.updateFails.isSome
            || !(s.store.get delivery.id).any (fun row => isTerminal row.status)
          else decide (s.mails.count delivery.id ≤ delivery.attempts))
    | .running (.sending _ _ _) _ =>
      match env.send with
      | .result result => !result.success || env.updateFails.isNone
      | .thrown _ => true
    | _ => true
  | .create input _ _ _ => wholeBudget (input.maxAttempts.getD 5)
  | .resumePausedEmails _ _ => true

/-! ## The ledger -/

/-- The rows, the delivery that each call has read and not decided about, the
    attempt that each call has under way, and what went out. -/
structure Ledger where
  row : String → Option EmailDelivery
  held : Nat → Option EmailDelivery
  attempt : Nat → Option (EmailDelivery × Nat)
  mails : List String
  successes : List String

/-- What a call holds. -/
def Ledger.put (l : Ledger) (call : Nat) (held : Option EmailDelivery)
    (attempt : Option (EmailDelivery × Nat)) : Ledger :=
  { l with
    held := Function.update l.held call held
    attempt := Function.update l.attempt call attempt }

def Ledger.write (l : Ledger) (id : String) (row : EmailDelivery) : Ledger :=
  { l with row := Function.update l.row id (some row) }

def Ledger.mail (l : Ledger) (id : String) : Ledger :=
  { l with mails := l.mails ++ [id] }

def Ledger.succeed (l : Ledger) (id : String) (won : Bool) : Ledger :=
  { l with successes := if won then l.successes ++ [id] else l.successes }

/-- The same delivery with another progress. -/
def Rewrites (row row' : EmailDelivery) : Prop :=
  row'.id = row.id ∧ row'.maxAttempts = row.maxAttempts

/-- What the sound steps do. -/
inductive Move : Ledger → Ledger → Prop where
  | idle (l : Ledger) (call : Nat) : Move l (l.put call none none)
  | read (l : Ledger) (call : Nat) (id : String) : Move l (l.put call (l.row id) none)
  | keep (l : Ledger) (call : Nat) (d : EmailDelivery) (a : Nat)
      (hattempt : l.attempt call = some (d, a)) :
      Move l (l.put call none (some (d, a)))
  | pause (l : Ledger) (call : Nat) (d row row' : EmailDelivery)
      (hheld : l.held call = some d) (hopen : isTerminal d.status = false)
      (hrow : l.row d.id = some row) (hrowOpen : isTerminal row.status = false)
      (hstatus : isTerminal row'.status = false)
      (hattempts : row'.attempts = d.attempts) (hsame : Rewrites row row') :
      Move l ((l.put call none none).write d.id row')
  | send (l : Ledger) (call : Nat) (d : EmailDelivery)
      (hheld : l.held call = some d) (hopen : isTerminal d.status = false)
      (hcounted : l.mails.count d.id ≤ d.attempts) :
      Move l ((l.put call none (some (d, d.attempts + 1))).mail d.id)
  | record (l : Ledger) (call : Nat) (d : EmailDelivery) (a : Nat)
      (row row' : EmailDelivery) (won : Bool)
      (hattempt : l.attempt call = some (d, a)) (hrow : l.row d.id = some row)
      (hattempts : row'.attempts = a) (hsame : Rewrites row row')
      (hopen : isTerminal row'.status = true ∨ exhausted d a = false)
      (hwon : won = true → row'.status = .sent) :
      Move l (((l.put call none none).write d.id row').succeed d.id won)
  | create (l : Ledger) (id : String) (d : EmailDelivery)
      (hfresh : l.row id = none) (hid : d.id = id) (hnone : d.attempts = 0)
      (hwhole : wholeBudget d.maxAttempts = true) : Move l (l.write id d)
  | resume (l : Ledger) (row : String → Option EmailDelivery) (now : Int)
      (hrow : ∀ id, row id = l.row id ∨ ∃ d, l.row id = some d ∧ d.status = .paused
          ∧ row id = some (d.resumed now)) :
      Move l { l with row }

section Ledger

variable {l l' : Ledger} {call call' : Nat} {d d' : EmailDelivery} {a a' : Nat}

theorem held_put (held : Option EmailDelivery) (attempt : Option (EmailDelivery × Nat))
    (h : (l.put call held attempt).held call' = some d) :
    call' = call ∧ held = some d ∨ call' ≠ call ∧ l.held call' = some d := by
  rw [Ledger.put] at h
  dsimp only at h
  by_cases heq : call' = call
  · subst heq
    rw [update_self] at h
    exact .inl ⟨rfl, h⟩
  rw [update_of_ne heq] at h
  exact .inr ⟨heq, h⟩

theorem attempt_put (held : Option EmailDelivery) (attempt : Option (EmailDelivery × Nat))
    (h : (l.put call held attempt).attempt call' = some (d, a)) :
    call' = call ∧ attempt = some (d, a) ∨ call' ≠ call ∧ l.attempt call' = some (d, a) := by
  rw [Ledger.put] at h
  dsimp only at h
  by_cases heq : call' = call
  · subst heq
    rw [update_self] at h
    exact .inl ⟨rfl, h⟩
  rw [update_of_ne heq] at h
  exact .inr ⟨heq, h⟩

theorem row_write {id id' : String} {row row' : EmailDelivery}
    (h : (l.write id row).row id' = some row') :
    id' = id ∧ row' = row ∨ id' ≠ id ∧ l.row id' = some row' := by
  rw [Ledger.write] at h
  dsimp only at h
  by_cases heq : id' = id
  · subst heq
    rw [update_self] at h
    exact .inl ⟨rfl, (Option.some.inj h).symm⟩
  rw [update_of_ne heq] at h
  exact .inr ⟨heq, h⟩

theorem row_write_self (l : Ledger) (id : String) (row : EmailDelivery) :
    (l.write id row).row id = some row := update_self ..

theorem row_write_of_ne {id id' : String} (row : EmailDelivery)
    (hne : id' ≠ id) : (l.write id row).row id' = l.row id' :=
  update_of_ne hne ..

/-- What the rows say of what went out. -/
structure RowInv (l : Ledger) : Prop where
  ids : ∀ id row, l.row id = some row → row.id = id
  whole : ∀ id row, l.row id = some row → wholeBudget row.maxAttempts = true
  counted : ∀ id row, l.row id = some row → row.attempts ≤ l.mails.count id
  room : ∀ id row, l.row id = some row → isTerminal row.status = false →
    exhausted row row.attempts = false
  known : ∀ id ∈ l.mails, ∃ row, l.row id = some row
  budget : ∀ id row, l.row id = some row → l.mails.count id ≠ 0 →
    row.maxAttempts.lt (.ofNat (l.mails.count id)) = false
  once : ∀ id, l.successes.count id ≤ 1
  sent : ∀ id ∈ l.successes, ∃ row, l.row id = some row ∧ row.status = .sent

/-- A delivery that a call has read: it counts no attempt that was not made,
    and lags behind a row that is settled. -/
structure HeldOk (l : Ledger) (d : EmailDelivery) : Prop where
  row : ∃ row, l.row d.id = some row ∧ row.maxAttempts = d.maxAttempts
  counted : d.attempts ≤ l.mails.count d.id
  room : isTerminal d.status = false → exhausted d d.attempts = false
  behind : ∀ row, l.row d.id = some row → isTerminal row.status = true →
    isTerminal d.status = false → d.attempts < l.mails.count d.id

/-- An attempt under way is the last one, and its row is open. -/
structure AttemptOk (l : Ledger) (d : EmailDelivery) (a : Nat) : Prop where
  row : ∃ row, l.row d.id = some row ∧ row.maxAttempts = d.maxAttempts
    ∧ isTerminal row.status = false ∧ row.attempts < a
  last : a = l.mails.count d.id

/-- What the calls hold: nobody has read an attempt that is under way, and
    there is one for each delivery. -/
structure CallInv (l : Ledger) : Prop where
  held : ∀ call d, l.held call = some d → HeldOk l d
  attempt : ∀ call d a, l.attempt call = some (d, a) → AttemptOk l d a
  ahead : ∀ call d a call' d', l.attempt call = some (d, a) →
    l.held call' = some d' → d'.id = d.id → d'.attempts < a
  one : ∀ call d a call' d' a', l.attempt call = some (d, a) →
    l.attempt call' = some (d', a') → d.id = d'.id → call = call'

structure Ledger.Inv (l : Ledger) : Prop where
  rows : RowInv l
  calls : CallInv l

/-- The budget alone decides whether it is used up. -/
theorem exhausted_of_eq (h : d'.maxAttempts = d.maxAttempts) (a : Nat) :
    exhausted d' a = exhausted d a := by
  rw [exhausted, exhausted, h]

/-- A whole budget with room for one more attempt holds it. -/
theorem within_of_room {max : JsNumber} {n : Nat}
    (hwhole : wholeBudget max = true) (hroom : max.le (.ofNat n) = false) :
    max.lt (.ofNat (n + 1)) = false := by
  cases max with
  | finite q =>
    have hden : q.den = 1 := of_decide_eq_true (and_eq_true_iff.mp hwhole).1
    have hq : (q.num : ℚ) = q := Rat.coe_int_num_of_den_eq_one hden
    have hlt : ((n : Int) : ℚ) < (q.num : ℚ) := by
      rw [hq]
      exact_mod_cast not_le.mp (of_decide_eq_false hroom)
    have hnum : (n : Int) + 1 ≤ q.num := by exact_mod_cast hlt
    have hge : ((n + 1 : Nat) : ℚ) ≤ q := by
      rw [← hq]
      exact_mod_cast hnum
    have hle : (JsNumber.ofNat (n + 1)).le (.finite q) = true := decide_eq_true hge
    rw [JsNumber.lt, hle, Bool.not_true, Bool.and_false]
  | posInf => rfl
  | negInf => cases hwhole
  | nan => cases hwhole

/-- A whole budget has room for the first attempt. -/
theorem room_of_whole (hwhole : wholeBudget d.maxAttempts = true) : exhausted d 0 = false := by
  rw [exhausted]
  generalize d.maxAttempts = max at hwhole
  cases max with
  | finite q =>
    have hone : 1 ≤ q := of_decide_eq_true (and_eq_true_iff.mp hwhole).2
    refine decide_eq_false (not_le.mpr ?_)
    exact lt_of_lt_of_le (by norm_num) hone
  | posInf => rfl
  | negInf => cases hwhole
  | nan => cases hwhole

/-! ## The moves -/

/-- The calls after one of them has moved, over unchanged rows. -/
theorem CallInv.put (h : CallInv l) {held : Option EmailDelivery}
    {attempt : Option (EmailDelivery × Nat)} (hheld : ∀ d, held = some d → HeldOk l d
      ∧ ∀ call' d' a, l.attempt call' = some (d', a) → call' ≠ call → d.id = d'.id → d.attempts < a)
    (hattempt : ∀ d a, attempt = some (d, a) → l.attempt call = some (d, a) ∧ held = none) :
    CallInv (l.put call held attempt) where
  held := by
    intro call' d' hd
    rcases held_put held attempt hd with ⟨rfl, hnew⟩ | ⟨-, hold⟩
    · have hok := (hheld d' hnew).1
      exact ⟨hok.row, hok.counted, hok.room, hok.behind⟩
    have hok := h.held call' d' hold
    exact ⟨hok.row, hok.counted, hok.room, hok.behind⟩
  attempt := by
    intro call' d' a' ha
    have hold : l.attempt call' = some (d', a') := by
      rcases attempt_put held attempt ha with ⟨rfl, hnew⟩ | ⟨-, hold⟩
      · exact (hattempt d' a' hnew).1
      · exact hold
    have hok := h.attempt call' d' a' hold
    exact ⟨hok.row, hok.last⟩
  ahead := by
    intro call₁ d₁ a₁ call₂ d₂ ha hd hid
    rcases attempt_put held attempt ha with ⟨rfl, hnew⟩ | ⟨hne, hold⟩
    · obtain ⟨hold, hnone⟩ := hattempt d₁ a₁ hnew
      rcases held_put held attempt hd with ⟨-, hsome⟩ | ⟨-, hheld₂⟩
      · cases hnone.symm.trans hsome
      · exact h.ahead call₁ d₁ a₁ call₂ d₂ hold hheld₂ hid
    rcases held_put held attempt hd with ⟨-, hsome⟩ | ⟨-, hheld₂⟩
    · exact (hheld d₂ hsome).2 call₁ d₁ a₁ hold hne hid
    · exact h.ahead call₁ d₁ a₁ call₂ d₂ hold hheld₂ hid
  one := by
    have hback : ∀ {call' d' a'}, (l.put call held attempt).attempt call' = some (d', a') →
        l.attempt call' = some (d', a') := by
      intro call' d' a' ha
      rcases attempt_put held attempt ha with ⟨rfl, hnew⟩ | ⟨-, hold⟩
      · exact (hattempt d' a' hnew).1
      · exact hold
    intro call₁ d₁ a₁ call₂ d₂ a₂ h₁ h₂ hid
    exact h.one call₁ d₁ a₁ call₂ d₂ a₂ (hback h₁) (hback h₂) hid

theorem CallInv.idle (h : CallInv l) (call : Nat) : CallInv (l.put call none none) :=
  h.put (fun _ hsome => nomatch hsome) (fun _ _ hsome => nomatch hsome)

theorem RowInv.put (h : RowInv l) (call : Nat) (held : Option EmailDelivery)
    (attempt : Option (EmailDelivery × Nat)) : RowInv (l.put call held attempt) :=
  ⟨h.ids, h.whole, h.counted, h.room, h.known, h.budget, h.once, h.sent⟩

variable {row row' : EmailDelivery} {id : String}

theorem Ledger.Inv.heldOk (h : l.Inv) (hd : l.row id = some d) : HeldOk l d := by
  have hid := h.rows.ids id d hd
  have hrow : l.row d.id = some d := by rw [hid]; exact hd
  refine ⟨⟨d, hrow, rfl⟩, ?_, h.rows.room id d hd, ?_⟩
  · rw [hid]
    exact h.rows.counted id d hd
  intro row hrow' hsettled hopen
  obtain rfl := Option.some.inj (hrow.symm.trans hrow')
  cases hsettled.symm.trans hopen

theorem Ledger.Inv.read (h : l.Inv) (call : Nat) (id : String) :
    (l.put call (l.row id) none).Inv where
  rows := h.rows.put _ _ _
  calls := by
    refine h.calls.put ?_ (fun _ _ hsome => nomatch hsome)
    intro d hd
    refine ⟨h.heldOk hd, ?_⟩
    intro call' d' a ha _ hid
    obtain ⟨row, hrow, -, -, hlt⟩ := (h.calls.attempt call' d' a ha).row
    rw [← hid, h.rows.ids id d hd, hd] at hrow
    cases hrow
    exact hlt

theorem Ledger.Inv.keep (h : l.Inv) (hattempt : l.attempt call = some (d, a)) :
    (l.put call none (some (d, a))).Inv where
  rows := h.rows.put _ _ _
  calls := by
    refine h.calls.put (fun _ hsome => nomatch hsome) ?_
    intro d' a' hsome
    exact ⟨hattempt.trans hsome, rfl⟩

theorem RowInv.write (h : RowInv l) (hrow : l.row d.id = some row) (hsame : Rewrites row row')
    (hcounted : row'.attempts ≤ l.mails.count d.id)
    (hroom : isTerminal row'.status = false → exhausted row' row'.attempts = false)
    (hsent : d.id ∈ l.successes → row'.status = .sent) : RowInv (l.write d.id row') where
  ids := by
    intro id r hr
    rcases row_write hr with ⟨rfl, rfl⟩ | ⟨-, hold⟩
    · exact hsame.1.trans (h.ids d.id row hrow)
    · exact h.ids id r hold
  whole := by
    intro id r hr
    rcases row_write hr with ⟨rfl, rfl⟩ | ⟨-, hold⟩
    · rw [hsame.2]
      exact h.whole d.id row hrow
    · exact h.whole id r hold
  counted := by
    intro id r hr
    rcases row_write hr with ⟨rfl, rfl⟩ | ⟨-, hold⟩
    · exact hcounted
    · exact h.counted id r hold
  room := by
    intro id r hr
    rcases row_write hr with ⟨rfl, rfl⟩ | ⟨-, hold⟩
    · exact hroom
    · exact h.room id r hold
  known := by
    intro id hid
    by_cases heq : id = d.id
    · exact ⟨row', by rw [heq, row_write_self]⟩
    rw [row_write_of_ne row' heq]
    exact h.known id hid
  budget := by
    intro id r hr hne
    rcases row_write hr with ⟨rfl, rfl⟩ | ⟨-, hold⟩
    · rw [hsame.2]
      exact h.budget d.id row hrow hne
    · exact h.budget id r hold hne
  once := h.once
  sent := by
    intro id hid
    by_cases heq : id = d.id
    · subst heq
      exact ⟨row', row_write_self .., hsent hid⟩
    rw [row_write_of_ne row' heq]
    exact h.sent id hid

theorem RowInv.not_sent (h : RowInv l) {row : EmailDelivery}
    (hrow : l.row id = some row) (hopen : isTerminal row.status = false) : id ∉ l.successes := by
  intro hmem
  obtain ⟨row', hrow', hsent⟩ := h.sent id hmem
  obtain rfl := Option.some.inj (hrow.symm.trans hrow')
  rw [hsent] at hopen
  cases hopen

theorem CallInv.write (h : CallInv l) (hrow : l.row d.id = some row) (hsame : Rewrites row row')
    (hbehind : isTerminal row'.status = true → ∀ call' d', l.held call' = some d' → d'.id = d.id →
      d'.attempts < l.mails.count d.id)
    (hopen : ∀ call' d' a, l.attempt call' = some (d', a) → d'.id = d.id →
      isTerminal row'.status = false ∧ row'.attempts < a) : CallInv (l.write d.id row') where
  held := by
    intro call' d' hd
    obtain ⟨⟨r, hr, hmax⟩, hcounted, hroom, hahead⟩ := h.held call' d' hd
    by_cases heq : d'.id = d.id
    · refine ⟨⟨row', by rw [heq, row_write_self], ?_⟩, hcounted, hroom, ?_⟩
      · rw [heq, hrow] at hr
        rw [hsame.2, Option.some.inj hr]
        exact hmax
      intro r' hr' hsettled _
      rw [heq, row_write_self] at hr'
      rw [← Option.some.inj hr'] at hsettled
      rw [heq]
      exact hbehind hsettled call' d' hd heq
    · refine ⟨⟨r, by rw [row_write_of_ne row' heq]; exact hr, hmax⟩, hcounted, hroom, ?_⟩
      intro r' hr'
      rw [row_write_of_ne row' heq] at hr'
      exact hahead r' hr'
  attempt := by
    intro call' d' a ha
    obtain ⟨⟨r, hr, hmax, hrest⟩, hlast⟩ := h.attempt call' d' a ha
    by_cases heq : d'.id = d.id
    · obtain ⟨hstatus, hlt⟩ := hopen call' d' a ha heq
      refine ⟨⟨row', by rw [heq, row_write_self], ?_, hstatus, hlt⟩, hlast⟩
      rw [heq, hrow] at hr
      rw [hsame.2, Option.some.inj hr]
      exact hmax
    refine ⟨⟨r, ?_, hmax, hrest⟩, hlast⟩
    rw [row_write_of_ne row' heq]
    exact hr
  ahead := h.ahead
  one := h.one

theorem Ledger.Inv.pause (h : l.Inv)
    (hheld : l.held call = some d) (hopen : isTerminal d.status = false)
    (hrow : l.row d.id = some row) (hrowOpen : isTerminal row.status = false)
    (hstatus : isTerminal row'.status = false)
    (hattempts : row'.attempts = d.attempts) (hsame : Rewrites row row') :
    ((l.put call none none).write d.id row').Inv := by
  have hd := h.calls.held call d hheld
  constructor
  · refine (h.rows.put call none none).write hrow hsame ?_ ?_ ?_
    · rw [hattempts]
      exact hd.counted
    · intro _
      obtain ⟨r, hr, hmax⟩ := hd.row
      obtain rfl := Option.some.inj (hrow.symm.trans hr)
      rw [hattempts, exhausted_of_eq (hsame.2.trans hmax)]
      exact hd.room hopen
    intro hmem
    exact absurd hmem (h.rows.not_sent hrow hrowOpen)
  · refine (h.calls.idle call).write hrow hsame ?_ ?_
    · intro hsettled
      cases hsettled.symm.trans hstatus
    intro call' d' a ha hid
    rcases attempt_put none none ha with ⟨-, hnone⟩ | ⟨-, hold⟩
    · cases hnone
    rw [hattempts]
    exact ⟨hstatus, h.calls.ahead call' d' a call d hold hheld hid.symm⟩

theorem Ledger.Inv.record (h : l.Inv) {won : Bool}
    (hattempt : l.attempt call = some (d, a)) (hrow : l.row d.id = some row)
    (hattempts : row'.attempts = a) (hsame : Rewrites row row')
    (hopen : isTerminal row'.status = true ∨ exhausted d a = false)
    (hwon : won = true → row'.status = .sent) :
    (((l.put call none none).write d.id row').succeed d.id won).Inv := by
  obtain ⟨⟨r, hr, hmax, hrowOpen, -⟩, hlast⟩ := h.calls.attempt call d a hattempt
  obtain rfl := Option.some.inj (hrow.symm.trans hr)
  have hnot := h.rows.not_sent hrow hrowOpen
  have hrows : RowInv ((l.put call none none).write d.id row') := by
    refine (h.rows.put call none none).write hrow hsame ?_ ?_ (fun hmem => absurd hmem hnot)
    · rw [hattempts, hlast]
      exact le_rfl
    intro hstatus
    rw [hattempts, exhausted_of_eq (hsame.2.trans hmax)]
    rcases hopen with hsettled | hroom
    · cases hsettled.symm.trans hstatus
    · exact hroom
  have hcalls : CallInv ((l.put call none none).write d.id row') := by
    refine (h.calls.idle call).write hrow hsame ?_ ?_
    · intro _ call' d' hd hid
      rcases held_put none none hd with ⟨-, hnone⟩ | ⟨-, hold⟩
      · cases hnone
      have hlt := h.calls.ahead call d a call' d' hattempt hold hid
      rw [hlast] at hlt
      exact hlt
    · intro call' d' a' ha hid
      rcases attempt_put none none ha with ⟨-, hnone⟩ | ⟨hne, hold⟩
      · cases hnone
      · exact absurd (h.calls.one call' d' a' call d a hold hattempt hid) hne
  refine ⟨⟨hrows.ids, hrows.whole, hrows.counted, hrows.room, hrows.known,
    hrows.budget, ?_, ?_⟩, ⟨?_, ?_, hcalls.ahead, hcalls.one⟩⟩
  · intro id
    cases won with
    | false => exact h.rows.once id
    | true =>
      show (l.successes ++ [d.id]).count id ≤ 1
      rw [count_append]
      by_cases hid : id = d.id
      · rw [hid, count_eq_zero.mpr hnot, zero_add]
        exact count_le_length
      rw [count_eq_zero.mpr (fun hmem => hid (mem_singleton.mp hmem)), add_zero]
      exact h.rows.once id
  · intro id hid
    cases won with
    | false => exact hrows.sent id hid
    | true =>
      rcases mem_append.mp hid with hold | hlast'
      · exact hrows.sent id hold
      rw [mem_singleton.mp hlast']
      exact ⟨row', row_write_self .., hwon rfl⟩
  · intro call' d' hd
    have hok := hcalls.held call' d' hd
    exact ⟨hok.row, hok.counted, hok.room, hok.behind⟩
  intro call' d' a' ha
  have hok := hcalls.attempt call' d' a' ha
  exact ⟨hok.row, hok.last⟩

theorem count_mail (l : Ledger) (id id' : String) : (l.mail id).mails.count id'
      = l.mails.count id' + (if id = id' then 1 else 0) := by
  show (l.mails ++ [id]).count id' = _
  rw [count_append, count_singleton]
  by_cases hid : id = id'
  · rw [if_pos hid, if_pos (beq_iff_eq.mpr hid)]
  · rw [if_neg hid, if_neg (fun h => hid (beq_iff_eq.mp h))]

theorem Ledger.Inv.send (h : l.Inv) (hheld : l.held call = some d)
    (hopen : isTerminal d.status = false) (hcounted : l.mails.count d.id ≤ d.attempts) :
    ((l.put call none (some (d, d.attempts + 1))).mail d.id).Inv := by
  have hd := h.calls.held call d hheld
  have hexact : l.mails.count d.id = d.attempts := le_antisymm hcounted hd.counted
  obtain ⟨row, hrow, hmax⟩ := hd.row
  have hrowOpen : isTerminal row.status = false := by
    cases hstatus : isTerminal row.status with
    | false => rfl
    | true =>
      have hlt := hd.behind row hrow hstatus hopen
      rw [hexact] at hlt
      exact absurd hlt (lt_irrefl _)
  -- an attempt under way would be ahead of what this call has read
  have hnone : ∀ call' d' a, l.attempt call' = some (d', a) → d'.id ≠ d.id := by
    intro call' d' a ha hid
    have hlt := h.calls.ahead call' d' a call d ha hheld hid.symm
    rw [(h.calls.attempt call' d' a ha).last, hid, hexact] at hlt
    exact absurd hlt (lt_irrefl _)
  have hheldOld : ∀ {call' d'}, (l.put call none (some (d, d.attempts + 1))).held call' = some d' →
      l.held call' = some d' := by
    intro call' d' h'
    rcases held_put none _ h' with ⟨-, hno⟩ | ⟨-, hold⟩
    · cases hno
    · exact hold
  have hattemptOld : ∀ {call' d' a'}, (l.put call none
      (some (d, d.attempts + 1))).attempt call' = some (d', a') →
      call' = call ∧ d = d' ∧ d.attempts + 1 = a' ∨ l.attempt call' = some (d', a') := by
    intro call' d' a' h'
    rcases attempt_put none _ h' with ⟨hcall, hnew⟩ | ⟨-, hold⟩
    · exact .inl ⟨hcall, Prod.mk.inj (Option.some.inj hnew)⟩
    · exact .inr hold
  have hmono : ∀ id, l.mails.count id
      ≤ ((l.put call none (some (d, d.attempts + 1))).mail d.id).mails.count
        id := by
    intro id
    rw [count_mail]
    exact le_add_right _ _
  constructor
  · refine ⟨h.rows.ids, h.rows.whole, ?_, h.rows.room, ?_, ?_, h.rows.once, h.rows.sent⟩
    · intro id r hr
      exact (h.rows.counted id r hr).trans (hmono id)
    · intro id hid
      rcases mem_append.mp hid with hold | hlast
      · exact h.rows.known id hold
      rw [mem_singleton.mp hlast]
      exact ⟨row, hrow⟩
    intro id r hr hne
    rw [count_mail] at hne ⊢
    by_cases hid : d.id = id
    · subst hid
      obtain rfl := Option.some.inj (hrow.symm.trans hr)
      rw [if_pos rfl]
      show row.maxAttempts.lt (.ofNat (l.mails.count d.id + 1)) = false
      rw [hexact]
      refine within_of_room (h.rows.whole d.id row hrow) ?_
      rw [hmax]
      exact hd.room hopen
    · rw [if_neg hid, add_zero] at hne ⊢
      exact h.rows.budget id r hr hne
  · constructor
    · intro call' d' hd'
      have hok := h.calls.held call' d' (hheldOld hd')
      refine ⟨hok.row, hok.counted.trans (hmono _), hok.room, ?_⟩
      intro r hr hsettled hop
      exact lt_of_lt_of_le (hok.behind r hr hsettled hop) (hmono _)
    · intro call' d' a' ha
      rcases hattemptOld ha with ⟨-, rfl, rfl⟩ | hold
      · refine ⟨⟨row, hrow, hmax, hrowOpen, ?_⟩, ?_⟩
        · exact lt_succ_of_le ((h.rows.counted _ row hrow).trans hcounted)
        rw [count_mail, if_pos rfl]
        show d.attempts + 1 = l.mails.count d.id + 1
        rw [hexact]
      have hok := h.calls.attempt call' d' a' hold
      refine ⟨hok.row, ?_⟩
      rw [count_mail, if_neg (fun hid => hnone call' d' a' hold hid.symm)]
      exact hok.last
    · intro call₁ d₁ a₁ call₂ d₂ ha hd₂ hid
      rcases hattemptOld ha with ⟨-, rfl, rfl⟩ | hold
      · have hle := (h.calls.held call₂ d₂ (hheldOld hd₂)).counted
        rw [hid, hexact] at hle
        exact lt_succ_of_le hle
      · exact h.calls.ahead call₁ d₁ a₁ call₂ d₂ hold (hheldOld hd₂) hid
    · intro call₁ d₁ a₁ call₂ d₂ a₂ h₁ h₂ hid
      rcases hattemptOld h₁ with ⟨rfl, rfl, -⟩ | hold₁
      · rcases hattemptOld h₂ with ⟨rfl, -, -⟩ | hold₂
        · rfl
        · exact absurd hid.symm (hnone call₂ d₂ a₂ hold₂)
      rcases hattemptOld h₂ with ⟨rfl, rfl, -⟩ | hold₂
      · exact absurd hid (hnone call₁ d₁ a₁ hold₁)
      · exact h.calls.one call₁ d₁ a₁ call₂ d₂ a₂ hold₁ hold₂ hid

theorem Ledger.Inv.create (h : l.Inv)
    (hfresh : l.row id = none) (hid : d.id = id) (hnone : d.attempts = 0)
    (hwhole : wholeBudget d.maxAttempts = true) : (l.write id d).Inv := by
  have hcount : l.mails.count id = 0 := by
    refine count_eq_zero.mpr (fun hmem => ?_)
    obtain ⟨row, hrow⟩ := h.rows.known id hmem
    cases hfresh.symm.trans hrow
  have hother : ∀ {id' row}, l.row id' = some row → (l.write id d).row id' = some row := by
    intro id' row hrow
    have hne : id' ≠ id := by
      rintro rfl
      cases hfresh.symm.trans hrow
    rw [row_write_of_ne d hne]
    exact hrow
  constructor
  · constructor
    · intro id' r hr
      rcases row_write hr with ⟨rfl, rfl⟩ | ⟨-, hold⟩
      · exact hid
      · exact h.rows.ids id' r hold
    · intro id' r hr
      rcases row_write hr with ⟨rfl, rfl⟩ | ⟨-, hold⟩
      · exact hwhole
      · exact h.rows.whole id' r hold
    · intro id' r hr
      rcases row_write hr with ⟨rfl, rfl⟩ | ⟨-, hold⟩
      · rw [hnone]
        exact zero_le _
      · exact h.rows.counted id' r hold
    · intro id' r hr
      rcases row_write hr with ⟨rfl, rfl⟩ | ⟨-, hold⟩
      · intro _
        rw [hnone]
        exact room_of_whole hwhole
      · exact h.rows.room id' r hold
    · intro id' hmem
      obtain ⟨row, hrow⟩ := h.rows.known id' hmem
      exact ⟨row, hother hrow⟩
    · intro id' r hr hne
      rcases row_write hr with ⟨rfl, rfl⟩ | ⟨-, hold⟩
      · exact absurd hcount hne
      · exact h.rows.budget id' r hold hne
    · exact h.rows.once
    intro id' hmem
    obtain ⟨row, hrow, hsent⟩ := h.rows.sent id' hmem
    exact ⟨row, hother hrow, hsent⟩
  · refine ⟨?_, ?_, h.calls.ahead, h.calls.one⟩
    · intro call' d' hd
      obtain ⟨⟨row, hrow, hmax⟩, hcounted, hroom, hbehind⟩ := h.calls.held call' d' hd
      refine ⟨⟨row, hother hrow, hmax⟩, hcounted, hroom, ?_⟩
      intro r hr
      rw [hother hrow] at hr
      cases hr
      exact hbehind row hrow
    · intro call' d' a' ha
      obtain ⟨⟨row, hrow, hrest⟩, hlast⟩ := h.calls.attempt call' d' a' ha
      exact ⟨⟨row, hother hrow, hrest⟩, hlast⟩

theorem Ledger.Inv.resume (h : l.Inv) {row : String → Option EmailDelivery} {now : Int}
    (hrow : ∀ id, row id = l.row id ∨ ∃ d, l.row id = some d ∧ d.status = .paused
        ∧ row id = some (d.resumed now)) : Ledger.Inv { l with row } := by
  have hforth : ∀ {id r}, l.row id = some r → ∃ r', row id = some r'
      ∧ r'.attempts = r.attempts ∧ Rewrites r r'
      ∧ isTerminal r'.status = isTerminal r.status
      ∧ (r.status = .sent → r'.status = .sent) := by
    intro id r hr
    rcases hrow id with hsame | ⟨d, hd, hpaused, hresumed⟩
    · exact ⟨r, hsame.trans hr, rfl, ⟨rfl, rfl⟩, rfl, fun hs => hs⟩
    obtain rfl := Option.some.inj (hd.symm.trans hr)
    refine ⟨d.resumed now, hresumed, rfl, ⟨rfl, rfl⟩, ?_, ?_⟩
    · rw [hpaused]
      rfl
    intro hsent
    rw [hpaused] at hsent
    cases hsent
  have hback : ∀ {id r'}, row id = some r' → ∃ r, l.row id = some r
      ∧ r'.attempts = r.attempts ∧ Rewrites r r'
      ∧ isTerminal r'.status = isTerminal r.status := by
    intro id r' hr'
    rcases hrow id with hsame | ⟨d, hd, -, -⟩
    · exact ⟨r', hsame.symm.trans hr', rfl, ⟨rfl, rfl⟩, rfl⟩
    obtain ⟨r'', hr'', hrest⟩ := hforth hd
    obtain rfl := Option.some.inj (hr'.symm.trans hr'')
    exact ⟨d, hd, hrest.1, hrest.2.1, hrest.2.2.1⟩
  constructor
  · constructor
    · intro id r' hr'
      obtain ⟨r, hr, -, hsame, -⟩ := hback hr'
      exact hsame.1.trans (h.rows.ids id r hr)
    · intro id r' hr'
      obtain ⟨r, hr, -, hsame, -⟩ := hback hr'
      rw [hsame.2]
      exact h.rows.whole id r hr
    · intro id r' hr'
      obtain ⟨r, hr, hattempts, -, -⟩ := hback hr'
      rw [hattempts]
      exact h.rows.counted id r hr
    · intro id r' hr' hopen
      obtain ⟨r, hr, hattempts, hsame, hterminal⟩ := hback hr'
      rw [hattempts, exhausted_of_eq hsame.2]
      exact h.rows.room id r hr (hterminal.symm.trans hopen)
    · intro id hmem
      obtain ⟨r, hr⟩ := h.rows.known id hmem
      obtain ⟨r', hr', -⟩ := hforth hr
      exact ⟨r', hr'⟩
    · intro id r' hr' hne
      obtain ⟨r, hr, -, hsame, -⟩ := hback hr'
      rw [hsame.2]
      exact h.rows.budget id r hr hne
    · exact h.rows.once
    intro id hmem
    obtain ⟨r, hr, hsent⟩ := h.rows.sent id hmem
    obtain ⟨r', hr', -, -, -, hkept⟩ := hforth hr
    exact ⟨r', hr', hkept hsent⟩
  · refine ⟨?_, ?_, h.calls.ahead, h.calls.one⟩
    · intro call' d' hd
      obtain ⟨⟨r, hr, hmax⟩, hcounted, hroom, hbehind⟩ := h.calls.held call' d' hd
      obtain ⟨r', hr', -, hsame, hterminal, -⟩ := hforth hr
      refine ⟨⟨r', hr', hsame.2.trans hmax⟩, hcounted, hroom, ?_⟩
      intro r'' hr'' hsettled
      obtain rfl := Option.some.inj (hr'.symm.trans hr'')
      exact hbehind r hr (hterminal.symm.trans hsettled)
    · intro call' d' a' ha
      obtain ⟨⟨r, hr, hmax, hopen, hlt⟩, hlast⟩ := h.calls.attempt call' d' a' ha
      obtain ⟨r', hr', hattempts, hsame, hterminal, -⟩ := hforth hr
      refine ⟨⟨r', hr', hsame.2.trans hmax, hterminal.trans hopen, ?_⟩, hlast⟩
      rw [hattempts]
      exact hlt

/-- **THE MOVES KEEP THE INVARIANT**. -/
theorem Move.inv (hmove : Move l l') (h : l.Inv) : l'.Inv := by
  cases hmove with
  | idle call => exact ⟨h.rows.put _ _ _, h.calls.idle call⟩
  | read call id => exact h.read call id
  | keep call d a hattempt => exact h.keep hattempt
  | pause call d row row' hheld hopen hrow hrowOpen hstatus hattempts hsame =>
    exact h.pause hheld hopen hrow hrowOpen hstatus hattempts hsame
  | send call d hheld hopen hcounted => exact h.send hheld hopen hcounted
  | record call d a row row' won hattempt hrow hattempts hsame hopen hwon =>
    exact h.record hattempt hrow hattempts hsame hopen hwon
  | create id d hfresh hid hnone hwhole => exact h.create hfresh hid hnone hwhole
  | resume row now hrow => exact h.resume hrow

/-- **THE MOVES LEAVE A SETTLED ROW** as it is: what is rewritten was open. -/
theorem Move.settled (hmove : Move l l') (h : l.Inv)
    {row : EmailDelivery} (hrow : l.row id = some row) (hsettled : isTerminal row.status = true) :
    ∃ row', l'.row id = some row' ∧ row'.status = row.status := by
  have hwrite : ∀ {l : Ledger} {d r r' : EmailDelivery},
      l.row d.id = some r → isTerminal r.status = false →
      l.row id = some row →
      ∃ row', (l.write d.id r').row id = some row' ∧ row'.status = row.status := by
    intro l d r r' hr hopen hrow
    have hne : id ≠ d.id := by
      rintro rfl
      obtain rfl := Option.some.inj (hr.symm.trans hrow)
      cases hopen.symm.trans hsettled
    exact ⟨row, by rw [row_write_of_ne r' hne]; exact hrow, rfl⟩
  cases hmove with
  | idle call => exact ⟨row, hrow, rfl⟩
  | read call id => exact ⟨row, hrow, rfl⟩
  | keep call d a hattempt => exact ⟨row, hrow, rfl⟩
  | pause call d r r' _ _ hr hopen _ _ _ => exact hwrite hr hopen hrow
  | send call d _ _ _ => exact ⟨row, hrow, rfl⟩
  | record call d a r r' won hattempt hr _ _ _ _ =>
    obtain ⟨⟨r₂, hr₂, -, hopen, -⟩, -⟩ := h.calls.attempt call d a hattempt
    obtain rfl := Option.some.inj (hr.symm.trans hr₂)
    exact hwrite hr hopen hrow
  | create id' d hfresh _ _ _ =>
    have hne : id ≠ id' := by
      rintro rfl
      cases hfresh.symm.trans hrow
    exact ⟨row, by rw [row_write_of_ne d hne]; exact hrow, rfl⟩
  | resume rows now hrows =>
    rcases hrows id with hsame | ⟨d, hd, hpaused, -⟩
    · exact ⟨row, hsame.trans hrow, rfl⟩
    obtain rfl := Option.some.inj (hd.symm.trans hrow)
    rw [hpaused] at hsettled
    cases hsettled

end Ledger

/-! ## The steps are moves -/

def CallState.held : CallState → Option EmailDelivery
  | running (.read found) _ => found
  | _ => none

def CallState.attempt : CallState → Option (EmailDelivery × Nat)
  | running (.sending delivery currentAttempt _) _ => some (delivery, currentAttempt)
  | running (.failing delivery currentAttempt _ _) _ => some (delivery, currentAttempt)
  | _ => none

def State.ledger (s : State) : Ledger where
  row := s.store.get
  held call := (s.calls call).held
  attempt call := (s.calls call).attempt
  mails := s.mails
  successes := s.successes

section Steps

variable {engine : Engine} {config : EmailRetryConfig}
  {kinds : Nat → CallKind} {s : State} {call : Nat} {env : Env}

theorem ledger_mk (s : State) (call : Nat) (state : CallState)
    (store : MemoryEmailDeliveryStorage) (mails successes : List String) :
    ({ s.set call state with store, mails, successes } : State).ledger
      = { s.ledger.put call state.held state.attempt with
          row := store.get, mails, successes } := by
  show Ledger.mk store.get (CallState.held ∘ Function.update s.calls call state)
    (CallState.attempt ∘ Function.update s.calls call state) mails successes = _
  rw [Function.comp_update, Function.comp_update]
  rfl

theorem ledger_set (s : State) (call : Nat) (state : CallState) : (s.set call state).ledger
      = s.ledger.put call state.held state.attempt :=
  ledger_mk s call state s.store s.mails s.successes

variable {rest : List String} {id : String} {row : EmailDelivery}

theorem get_update (hrow : s.store.get id = some row) (update : DeliveryUpdate) (now : Int) :
    (s.store.updateDeliveryStatus id update now).1.get
      = Function.update s.store.get id (some (row.apply update now)) := by
  rw [updateDeliveryStatus, hrow]
  funext id'
  dsimp only
  rw [get_set]
  by_cases hid : id = id'
  · rw [if_pos hid, hid, update_self]
  · rw [if_neg hid, update_of_ne (Ne.symm hid)]

theorem ledger_update (s : State) (call : Nat) (state : CallState)
    (hrow : s.store.get id = some row)
    (update : DeliveryUpdate) (now : Int) (hheld : state.held = none)
    (hattempt : state.attempt = none) (successes : List String) : ({ s.set call state with
        store := (s.store.updateDeliveryStatus id update now).1
        successes } : State).ledger
      = { (s.ledger.put call none none).write id (row.apply update now) with
          successes } := by
  rw [← hheld]
  refine (ledger_mk s call state _ s.mails successes).trans ?_
  rw [get_update hrow, hheld, hattempt]
  rfl

variable (engine config) in
theorem resultUpdate_spec (env : Env) (d : EmailDelivery) (a : Nat) (now : Int)
    (result : EmailSendResult) : (resultUpdate engine config env d a now result).attempts = a
      ∧ (isTerminal (resultUpdate engine config env d a now result).status
          = true ∨ exhausted d a = false) ∧ (result.success = true →
        (resultUpdate engine config env d a now result).status = .sent) := by
  rw [resultUpdate]
  split
  · exact ⟨rfl, .inl rfl, fun _ => rfl⟩
  rename_i hfailed
  dsimp only
  split
  · exact ⟨rfl, .inl rfl, fun hwon => absurd hwon hfailed⟩
  split
  · exact ⟨rfl, .inl rfl, fun hwon => absurd hwon hfailed⟩
  rename_i hroom
  exact ⟨rfl, .inr (eq_false_of_not_eq_true hroom), fun hwon => absurd hwon hfailed⟩

variable (engine config) in
theorem caughtUpdate_spec (env : Env) (d : EmailDelivery) (a : Nat) (now : Int) (message : String) :
    (caughtUpdate engine config env d a now message).attempts = a
      ∧ (isTerminal (caughtUpdate engine config env d a now message).status
          = true ∨ exhausted d a = false) := by
  rw [caughtUpdate]
  split
  · exact ⟨rfl, .inl rfl⟩
  rename_i hroom
  refine ⟨rfl, Or.inr ?_⟩
  exact (or_eq_false_iff.mp (eq_false_of_not_eq_true hroom)).2

theorem idle_move {state : CallState} (hheld : state.held = none)
    (hattempt : state.attempt = none) : Move s.ledger (s.set call state).ledger := by
  rw [ledger_set, hheld, hattempt]
  exact Move.idle _ _

theorem finish_move (kind : CallKind) : Move s.ledger (finish kind s call).ledger := by
  have hidle : Move s.ledger (s.set call .finished).ledger := idle_move rfl rfl
  cases kind with
  | processDelivery deliveryId => exact hidle
  | processPendingBatch maxCount => exact hidle

theorem read_move (id : String) (rest : List String) : Move s.ledger (s.set call
      (.running (.read (s.store.getDeliveryById id)) rest)).ledger := by
  rw [ledger_set]
  exact Move.read s.ledger call id

theorem next_move (kind : CallKind) (pending : List String) :
    Move s.ledger (next kind pending s call).ledger := by
  cases pending with
  | nil => exact finish_move kind
  | cons id rest => exact read_move id rest

theorem started_move (kind : CallKind) (env : Env) :
    Move s.ledger (started kind env s call).ledger := by
  cases kind with
  | processDelivery deliveryId => exact read_move deliveryId []
  | processPendingBatch maxCount =>
    rw [started]
    split
    · exact idle_move rfl rfl
    split
    · exact idle_move rfl rfl
    have hidle : Move s.ledger (s.set call (.listed
        ((s.store.getPendingDeliveries maxCount env.now).map
          EmailDelivery.id))).ledger := idle_move rfl rfl
    exact hidle

theorem decided_move (hinv : s.ledger.Inv) {found : Option EmailDelivery}
    (hcall : s.calls call = .running (.read found) rest)
    (hsound : sound s (.advance call env) = true) :
    Move s.ledger (decided env found rest s call).ledger := by
  cases found with
  | none => exact idle_move rfl rfl
  | some d =>
    have hheld : s.ledger.held call = some d := by
      show (s.calls call).held = some d
      rw [hcall]
      rfl
    rw [sound, hcall] at hsound
    dsimp only at hsound
    rw [decided]
    dsimp only
    cases hopen : isTerminal d.status with
    | true => exact idle_move rfl rfl
    | false =>
      rw [hopen, Bool.false_or] at hsound
      rw [if_neg Bool.false_ne_true]
      cases htripped : env.tripped with
      | true =>
        rw [htripped, if_pos rfl] at hsound
        rw [if_pos rfl, written]
        cases hfails : env.updateFails with
        | some message =>
          have hidle : Move s.ledger (s.set call (.running
            (.returned (.error message)) rest)).ledger :=
            idle_move rfl rfl
          exact hidle
        | none =>
          rw [hfails, Option.isSome_none, Bool.false_or] at hsound
          obtain ⟨row, hrow, -⟩ := (hinv.calls.held call d hheld).row
          have hget : s.store.get d.id = some row := hrow
          rw [hget, Option.any_some] at hsound
          have hrowOpen : isTerminal row.status = false := by
            cases hstatus : isTerminal row.status with
            | false => rfl
            | true =>
              rw [hstatus] at hsound
              cases hsound
          have hmove := Move.pause s.ledger call d row
            (row.apply (pausedUpdate d.attempts) env.now) hheld hopen
            hrow hrowOpen rfl rfl ⟨rfl, rfl⟩
          have hafter := ledger_update s call (.running (.returned (.ok
              (s.store.updateDeliveryStatus d.id (pausedUpdate d.attempts) env.now).2)) rest)
            hget (pausedUpdate d.attempts) env.now rfl rfl s.successes
          exact hafter ▸ hmove
      | false =>
        rw [htripped, if_neg Bool.false_ne_true] at hsound
        rw [if_neg Bool.false_ne_true]
        have hmove := Move.send s.ledger call d hheld hopen (of_decide_eq_true hsound)
        have hafter := ledger_mk s call
          (.running (.sending d (d.attempts + 1) env.now) rest) s.store
          (s.mails ++ [d.id]) s.successes
        exact hafter ▸ hmove

variable {d : EmailDelivery} {a : Nat}

/-- The `catch` block records the attempt, or its update fails too. -/
theorem caught_move (hinv : s.ledger.Inv) (hattempt : s.ledger.attempt call = some (d, a))
    (now : Int) (message : String) :
    Move s.ledger (caught engine config env d a now message rest s call).ledger := by
  rw [caught, written]
  cases env.updateFails with
  | some failure =>
    have hidle : Move s.ledger (s.set call (.running
      (.returned (.error failure)) rest)).ledger := idle_move rfl rfl
    exact hidle
  | none =>
    obtain ⟨row, hrow, -⟩ := (hinv.calls.attempt call d a hattempt).row
    set update := caughtUpdate engine config env d a now message with hupdate
    obtain ⟨hattempts, hopen⟩ := caughtUpdate_spec engine config env d a now message
    have hmove := Move.record s.ledger call d a row
      (row.apply update env.now) false hattempt hrow hattempts ⟨rfl, rfl⟩
      hopen nofun
    have hafter := ledger_update s call (.running (.returned (.ok
        (s.store.updateDeliveryStatus d.id update env.now).2)) rest)
      hrow update env.now rfl rfl s.successes
    exact hafter ▸ hmove

/-- The answer of the transporter is recorded, or its update fails and the
    attempt is still under way. -/
theorem answered_move (hinv : s.ledger.Inv) {now : Int}
    (hcall : s.calls call = .running (.sending d a now) rest)
    (hsound : sound s (.advance call env) = true) :
    Move s.ledger (answered engine config env d a now rest s call).ledger := by
  have hattempt : s.ledger.attempt call = some (d, a) := by
    show (s.calls call).attempt = some (d, a)
    rw [hcall]
    rfl
  rw [sound, hcall] at hsound
  dsimp only at hsound
  rw [answered]
  cases hsend : env.send with
  | thrown message => exact caught_move hinv hattempt now message
  | result result =>
    rw [hsend] at hsound
    dsimp only at hsound ⊢
    rw [written]
    cases hfails : env.updateFails with
    | some failure =>
      rw [hfails, Option.isNone_some, Bool.or_false] at hsound
      have hlost : result.success = false := by
        cases hsuccess : result.success with
        | false => rfl
        | true =>
          rw [hsuccess] at hsound
          cases hsound
      rw [hlost]
      have hkeep : Move s.ledger (s.set call (.running
          (.failing d a now failure) rest)).ledger := by
        rw [ledger_set]
        exact Move.keep s.ledger call d a hattempt
      exact hkeep
    | none =>
      obtain ⟨row, hrow, -⟩ := (hinv.calls.attempt call d a hattempt).row
      set update := resultUpdate engine config env d a now result with hupdate
      obtain ⟨hattempts, hopen, hwon⟩ := resultUpdate_spec engine config env d a now result
      have hmove := Move.record s.ledger call d a row
        (row.apply update env.now) result.success hattempt hrow hattempts
        ⟨rfl, rfl⟩ hopen hwon
      have hafter := ledger_update s call (.running (.returned (.ok
          (s.store.updateDeliveryStatus d.id update env.now).2)) rest)
        hrow update env.now rfl rfl
        (if result.success then s.successes ++ [d.id] else s.successes)
      exact hafter ▸ hmove

theorem create_move {input : EnqueueEmailInput} (status : EmailDeliveryStatus) (now : Int)
    (hfresh : s.store.get id = none) (hwhole : wholeBudget (input.maxAttempts.getD 5) = true) :
    ({ s with store := (s.store.createDelivery input status id now).1 } : State).ledger = s.ledger
      ∨ Move s.ledger ({ s with store :=
        (s.store.createDelivery input status id now).1 } : State).ledger := by
  cases hexisting : s.store.existing input with
  | some found =>
    left
    rw [createDelivery, hexisting]
  | none =>
    right
    rw [createDelivery_new hexisting]
    have hmove := Move.create s.ledger id
      (fresh input status id now) hfresh rfl rfl
      hwhole
    have hget : (⟨s.store.deliveries.set id
        (fresh input status id now)⟩ : MemoryEmailDeliveryStorage).get
        = Function.update s.store.get id
          (some (fresh input status id now)) := by
      funext id'
      rw [get_set]
      by_cases hid : id = id'
      · rw [if_pos hid, hid, update_self]
      · rw [if_neg hid, update_of_ne (Ne.symm hid)]
    show Move s.ledger { s.ledger with row := _ }
    rw [hget]
    exact hmove

variable (engine config kinds) in
/-- **A SOUND STEP IS A MOVE**, or changes nothing. -/
theorem step_move (hinv : s.ledger.Inv) {e : Event} (hfresh : Fresh s e)
    (hsound : sound s e = true) : (step engine config kinds s e).ledger = s.ledger
      ∨ Move s.ledger (step engine config kinds s e).ledger := by
  cases e with
  | advance call env =>
    show (advance engine config (kinds call) env s call).ledger = s.ledger
      ∨ Move s.ledger (advance engine config (kinds call) env s call).ledger
    rw [advance]
    cases hcall : s.calls call with
    | ready => exact .inr (started_move _ env)
    | listed pending => exact .inr (next_move _ pending)
    | finished => exact .inl rfl
    | running phase rest =>
      cases phase with
      | read found => exact .inr (decided_move hinv hcall hsound)
      | sending d a now => exact .inr (answered_move hinv hcall hsound)
      | failing d a now message =>
        refine .inr (caught_move hinv ?_ now message)
        show (s.calls call).attempt = some (d, a)
        rw [hcall]
        rfl
      | returned result =>
        cases result with
        | ok updated => exact .inr (next_move _ rest)
        | error message => exact .inr (finish_move _)
  | create input tripped id now => exact create_move _ now hfresh hsound
  | resumePausedEmails tripped now =>
    rw [step]
    cases tripped with
    | true => exact .inl rfl
    | false =>
      refine .inr (Move.resume s.ledger _ now (fun id => ?_))
      exact s.store.resumedAt_resumePausedDeliveries 100 now id

theorem Inv.new : State.new.ledger.Inv := by
  constructor
  · exact
      { ids := fun _ _ hrow => nomatch hrow
        whole := fun _ _ hrow => nomatch hrow
        counted := fun _ _ hrow => nomatch hrow
        room := fun _ _ hrow => nomatch hrow
        known := fun _ hmem => nomatch hmem
        budget := fun _ _ hrow => nomatch hrow
        once := fun _ => zero_le 1
        sent := fun _ hmem => nomatch hmem }
  · exact
      { held := fun _ _ hheld => nomatch hheld
        attempt := fun _ _ _ hattempt => nomatch hattempt
        ahead := fun _ _ _ _ _ hattempt => nomatch hattempt
        one := fun _ _ _ _ _ _ hattempt => nomatch hattempt }

end Steps

/-- **EACH E-MAIL GOES OUT ONCE**: in every run whose steps are sound, the
    transporter reports at most one success for a delivery, no more is sent
    than its budget, and a settled status stays. -/
theorem sent_once (engine : Engine) (config : EmailRetryConfig)
    (kinds : Nat → CallKind) (events : List Event)
    (hfresh : Along (step engine config kinds) Fresh .new events)
    (hsound : Along (step engine config kinds) (fun s e => sound s e = true) .new events) :
    Along (step engine config kinds) (fun s e =>
      Safe (step engine config kinds s e)
        ∧ Settled s (step engine config kinds s e)) .new events := by
  refine Along.imp (I := fun s => s.ledger.Inv) ?_ Inv.new (hfresh.and hsound)
  rintro s e hinv ⟨hf, hs⟩
  have hsafe : ∀ {s : State}, s.ledger.Inv → Safe s :=
    fun h => ⟨h.rows.once, h.rows.budget⟩
  rcases step_move engine config kinds hinv hf hs with hsame | hmove
  · have hnext : (step engine config kinds s e).ledger.Inv := hsame ▸ hinv
    refine ⟨⟨hsafe hnext, ?_⟩, hnext⟩
    intro id row hrow _
    have hget : (step engine config kinds s e).store.get = s.store.get := congrArg Ledger.row hsame
    exact ⟨row, by rw [hget]; exact hrow, rfl⟩
  have hnext := hmove.inv hinv
  exact ⟨⟨hsafe hnext, fun id row hrow hsettled => hmove.settled hinv hrow hsettled⟩, hnext⟩

/-! ## Two calls that hold one delivery -/

section Sample

def sampleEngine : Engine := ⟨fun text => text, fun _ _ => 1⟩

def sampleConfig : EmailRetryConfig := ⟨1000, 2, 3600000⟩

def sampleInput : EnqueueEmailInput where
  invoiceId := "inv"
  dedupeKey := none
  recipientEmail := "client@x"
  senderWallet := "GA"
  emailType := .invoiceSent
  subject := "Invoice"
  payload := none
  maxAttempts := some 3

def sampleEnv (now : Int) (send : SendOutcome) : Env :=
  ⟨false, now, now, send, none⟩

def delivered : SendOutcome := .result ⟨true, none, none⟩

def deferred : SendOutcome := .result ⟨false, some "busy", some true⟩

/-- A batch, then calls for the one delivery. -/
def sampleKinds : Nat → CallKind
  | 0 => .processPendingBatch 20
  | _ => .processDelivery "a"

/-- A batch tries and is deferred; a call sends; a later call finds it
    sent. -/
def turnEvents : List Event :=
  [.create sampleInput false "a" 1,
    .advance 0 (sampleEnv 2 deferred), .advance 0 (sampleEnv 2 deferred),
    .advance 0 (sampleEnv 2 deferred), .advance 0 (sampleEnv 2 deferred),
    .advance 0 (sampleEnv 2 deferred),
    .advance 1 (sampleEnv 5 delivered), .advance 1 (sampleEnv 5 delivered),
    .advance 1 (sampleEnv 5 delivered), .advance 2 (sampleEnv 6 delivered),
    .advance 2 (sampleEnv 6 delivered)]

theorem sent_once_sample : Along (step sampleEngine sampleConfig sampleKinds) (fun s e =>
      Safe (step sampleEngine sampleConfig sampleKinds s e)
        ∧ Settled s (step sampleEngine sampleConfig sampleKinds s e)) .new
      turnEvents :=
  sent_once sampleEngine sampleConfig sampleKinds turnEvents (by decide +kernel) (by decide +kernel)

/-- Both calls read the delivery before either sends it. -/
def overlapEvents : List Event :=
  [.create sampleInput false "a" 1,
    .advance 1 (sampleEnv 2 delivered), .advance 2 (sampleEnv 2 delivered),
    .advance 1 (sampleEnv 2 delivered), .advance 2 (sampleEnv 2 delivered),
    .advance 1 (sampleEnv 2 delivered), .advance 2 (sampleEnv 2 delivered)]

/-- **TWO CALLS THAT HOLD ONE DELIVERY** both send it. -/
theorem sent_twice : ¬ Along (step sampleEngine sampleConfig sampleKinds) (fun s e =>
      Safe (step sampleEngine sampleConfig sampleKinds s e)
        ∧ Settled s (step sampleEngine sampleConfig sampleKinds s e)) .new
      overlapEvents := by
  rintro ⟨-, -, -, -, -, -, ⟨hsafe, -⟩, -⟩
  have htwo : (overlapEvents.foldl (step sampleEngine sampleConfig sampleKinds) .new).successes
      = ["a", "a"] := by decide +kernel
  have hone : (overlapEvents.foldl
      (step sampleEngine sampleConfig sampleKinds) .new).successes.count "a"
      ≤ 1 := hsafe.once "a"
  rw [htwo] at hone
  exact absurd hone (by decide)

end Sample

end EmailSending

import Inqutum.InsertionMapProofs
import Inqutum.ScriptValueProofs

/-!
# The e-mail delivery store

`MemoryEmailDeliveryStorage` keeps deliveries in a map by id.  A delivery
is created once, under a dedupe key that no other delivery has, and what
happens to it later touches only its progress: its status, its attempts,
its dates and its last error.  `EmailDelivery.core` is the rest of it, and
`core_updateDeliveryStatus` and `core_resumePausedDeliveries` say that an
update and a resume leave it alone.

Every operation runs between two awaits, so each is one step.
-/

namespace EmailQueue

open JsonText (Text)
open Canonical (JsValue)
open Option JsText

/-! ## Records -/

inductive EmailDeliveryStatus where
  | pending
  | sending
  | sent
  | failed
  | permanentlyFailed
  | paused
  deriving DecidableEq

inductive EmailType where
  | invoiceSent
  | paymentProof
  | paymentReminder
  deriving DecidableEq

/-- The members of a payload object. -/
abbrev Payload := List (Text × JsValue)

/-- Dates are milliseconds; `nextAttemptAt` is computed and may be an invalid
    date, which is `none`. -/
structure EmailDelivery where
  id : String
  invoiceId : String
  dedupeKey : Option String
  recipientEmail : String
  senderWallet : String
  emailType : EmailType
  subject : String
  status : EmailDeliveryStatus
  attempts : Nat
  maxAttempts : JsNumber
  nextAttemptAt : Option Int
  lastAttemptAt : Option Int
  lastError : Option String
  isRetryable : Bool
  payload : Option Payload
  createdAt : Int
  updatedAt : Int
  sentAt : Option Int

structure EnqueueEmailInput where
  invoiceId : String
  dedupeKey : Option String
  recipientEmail : String
  senderWallet : String
  emailType : EmailType
  subject : String
  payload : Option Payload
  maxAttempts : Option JsNumber

structure EmailDeliveryFilter where
  invoiceId : Option String := none
  senderWallet : Option String := none
  status : Option EmailDeliveryStatus := none
  limit : Option Int := none
  offset : Option Int := none

structure DeliveryUpdate where
  status : EmailDeliveryStatus
  attempts : Nat
  lastError : Option String := none
  isRetryable : Option Bool := none
  nextAttemptAt : Option (Option Int) := none
  lastAttemptAt : Option Int := none
  sentAt : Option Int := none

/-! ## The store -/

structure MemoryEmailDeliveryStorage where
  deliveries : InsertionMap String EmailDelivery

namespace MemoryEmailDeliveryStorage

def new : MemoryEmailDeliveryStorage := ⟨.empty⟩

def get (s : MemoryEmailDeliveryStorage) (id : String) :
    Option EmailDelivery :=
  s.deliveries.get id

def getDeliveryById (s : MemoryEmailDeliveryStorage) (id : String) :
    Option EmailDelivery :=
  s.get id

def getDeliveryByDedupeKey (s : MemoryEmailDeliveryStorage) (key : String) :
    Option EmailDelivery :=
  s.deliveries.values.find? (fun d => decide (d.dedupeKey = some key))

def existing (s : MemoryEmailDeliveryStorage) (input : EnqueueEmailInput) :
    Option EmailDelivery :=
  (nonEmpty input.dedupeKey).bind s.getDeliveryByDedupeKey

/-- The delivery that an input becomes. -/
def fresh (input : EnqueueEmailInput) (initialStatus : EmailDeliveryStatus)
    (id : String) (now : Int) : EmailDelivery where
  id
  invoiceId := input.invoiceId
  dedupeKey := input.dedupeKey
  recipientEmail := input.recipientEmail
  senderWallet := input.senderWallet
  emailType := input.emailType
  subject := input.subject
  status := initialStatus
  attempts := 0
  maxAttempts := input.maxAttempts.getD 5
  nextAttemptAt := some now
  lastAttemptAt := none
  lastError := none
  isRetryable := true
  payload := input.payload
  createdAt := now
  updatedAt := now
  sentAt := none

/-- `id` is what `randomUUID()` gives. -/
def createDelivery (s : MemoryEmailDeliveryStorage)
    (input : EnqueueEmailInput) (initialStatus : EmailDeliveryStatus)
    (id : String) (now : Int) : MemoryEmailDeliveryStorage × EmailDelivery :=
  match s.existing input with
  | some found => (s, found)
  | none =>
    let delivery := fresh input initialStatus id now
    (⟨s.deliveries.set id delivery⟩, delivery)

/-- The delivery, and whether it was created. -/
def createDeliveryWithDedupe (s : MemoryEmailDeliveryStorage)
    (input : EnqueueEmailInput) (initialStatus : EmailDeliveryStatus)
    (id : String) (now : Int) :
    MemoryEmailDeliveryStorage × EmailDelivery × Bool :=
  match s.existing input with
  | some found => (s, found, false)
  | none =>
    let (s', delivery) := s.createDelivery input initialStatus id now
    (s', delivery, true)

/-- The newest first, then by id from the greatest. -/
def newestFirst (a b : EmailDelivery) : Bool :=
  decide (b.createdAt < a.createdAt)
    || decide (a.createdAt = b.createdAt) && decide (b.id ≤ a.id)

def EmailDeliveryFilter.selects (filter : EmailDeliveryFilter) (d : EmailDelivery) : Bool :=
  ((nonEmpty filter.invoiceId).all (fun i => decide (d.invoiceId = i)))
    && ((nonEmpty filter.senderWallet).all (fun w => decide (d.senderWallet = w)))
    && (filter.status.all (fun status => decide (d.status = status)))

def listDeliveries (s : MemoryEmailDeliveryStorage)
    (filter : EmailDeliveryFilter) : List EmailDelivery :=
  let list := (s.deliveries.values.filter (EmailDeliveryFilter.selects filter)).insertionSort
      (fun a b => newestFirst a b = true)
  let offset := filter.offset.getD 0
  let limit := if filter.limit.getD 0 = 0 then (list.length : Int)
    else filter.limit.getD 0
  slice list offset (offset + limit)

/-- The soonest first, then by id. -/
def soonestFirst (a b : EmailDelivery) : Bool :=
  decide (a.nextAttemptAt.getD 0 < b.nextAttemptAt.getD 0)
    || decide (a.nextAttemptAt = b.nextAttemptAt) && decide (a.id ≤ b.id)

def isDue (now : Int) (d : EmailDelivery) : Bool :=
  decide (d.status = .pending) && d.nextAttemptAt.any (fun t => decide (t ≤ now))

def getPendingDeliveries (s : MemoryEmailDeliveryStorage)
    (maxCount : JsNumber) (now : Int) : List EmailDelivery :=
  let list := (s.deliveries.values.filter (isDue now)).insertionSort
    (fun a b => soonestFirst a b = true)
  list.take (maxCount.sliceEnd list.length)

end MemoryEmailDeliveryStorage

def EmailDelivery.apply (d : EmailDelivery) (update : DeliveryUpdate) (now : Int) : EmailDelivery :=
  { d with
    status := update.status
    attempts := update.attempts
    lastError := update.lastError.or d.lastError
    isRetryable := update.isRetryable.getD d.isRetryable
    nextAttemptAt := update.nextAttemptAt.getD d.nextAttemptAt
    lastAttemptAt := update.lastAttemptAt.or d.lastAttemptAt
    sentAt := update.sentAt.or d.sentAt
    updatedAt := now }

def EmailDelivery.resumed (d : EmailDelivery) (now : Int) : EmailDelivery :=
  { d with
    status := .pending
    nextAttemptAt := some now
    updatedAt := now }

namespace MemoryEmailDeliveryStorage

def updateDeliveryStatus (s : MemoryEmailDeliveryStorage) (id : String)
    (update : DeliveryUpdate) (now : Int) :
    MemoryEmailDeliveryStorage × Option EmailDelivery :=
  match s.get id with
  | none => (s, none)
  | some found =>
    let updated := found.apply update now
    (⟨s.deliveries.set id updated⟩, some updated)

/-- The loop over the entries; `count` deliveries were resumed before. -/
def resumeLoop (limit : Nat) (now : Int) :
    List (String × EmailDelivery) → Nat → MemoryEmailDeliveryStorage →
      MemoryEmailDeliveryStorage × Nat
  | [], count, s => (s, count)
  | (id, d) :: rest, count, s =>
    if d.status = .paused then
      let s' : MemoryEmailDeliveryStorage := ⟨s.deliveries.set id (d.resumed now)⟩
      if limit ≤ count + 1 then (s', count + 1)
      else resumeLoop limit now rest (count + 1) s'
    else resumeLoop limit now rest count s

def resumePausedDeliveries (s : MemoryEmailDeliveryStorage) (limit : Nat)
    (now : Int) : MemoryEmailDeliveryStorage × Nat :=
  resumeLoop limit now s.deliveries.entries 0 s

end MemoryEmailDeliveryStorage

/-! ## What an operation does to the deliveries -/

/-- A delivery without its progress. -/
def EmailDelivery.core (d : EmailDelivery) : EmailDelivery :=
  { d with
    status := .pending
    attempts := 0
    nextAttemptAt := none
    lastAttemptAt := none
    lastError := none
    isRetryable := true
    updatedAt := 0
    sentAt := none }

@[simp] theorem core_apply (d : EmailDelivery) (update : DeliveryUpdate)
    (now : Int) : (d.apply update now).core = d.core := rfl

@[simp] theorem core_resumed (d : EmailDelivery) (now : Int) : (d.resumed now).core = d.core := rfl

variable {d d' : EmailDelivery}

theorem id_of_core (h : d.core = d'.core) : d.id = d'.id := by
  show d.core.id = d'.core.id
  rw [h]

theorem dedupeKey_of_core (h : d.core = d'.core) : d.dedupeKey = d'.dedupeKey := by
  show d.core.dedupeKey = d'.core.dedupeKey
  rw [h]

theorem payload_of_core (h : d.core = d'.core) : d.payload = d'.payload := by
  show d.core.payload = d'.core.payload
  rw [h]

theorem invoiceId_of_core (h : d.core = d'.core) : d.invoiceId = d'.invoiceId := by
  show d.core.invoiceId = d'.core.invoiceId
  rw [h]

namespace MemoryEmailDeliveryStorage

variable {s : MemoryEmailDeliveryStorage}

/-- The number of deliveries for an invoice. -/
def countFor (s : MemoryEmailDeliveryStorage) (invoiceId : String) : Nat :=
  s.deliveries.values.countP (fun d => decide (d.invoiceId = invoiceId))

variable {input : EnqueueEmailInput} {d : EmailDelivery} {id : String}
  {P : MemoryEmailDeliveryStorage → Prop} {now : Int} {key : String}

theorem getDeliveryByDedupeKey_some (h : s.getDeliveryByDedupeKey key = some d) :
    d.dedupeKey = some key ∧ ∃ id, s.get id = some d := by
  have hkey : decide (d.dedupeKey = some key) = true :=
    List.find?_some (p := fun d : EmailDelivery => decide (d.dedupeKey = some key)) h
  refine ⟨of_decide_eq_true hkey, ?_⟩
  exact (s.deliveries.mem_values_iff d).mp (List.mem_of_find?_eq_some h)

theorem getDeliveryByDedupeKey_none (h : s.getDeliveryByDedupeKey key = none)
    (hd : s.get id = some d) : d.dedupeKey ≠ some key := by
  have hmem := (s.deliveries.mem_values_iff d).mpr ⟨id, hd⟩
  have hno := List.find?_eq_none.mp h d hmem
  exact fun heq => hno (decide_eq_true heq)

theorem existing_of_key (h : nonEmpty input.dedupeKey = some key) :
    s.existing input = s.getDeliveryByDedupeKey key := by
  rw [existing, h, bind_some]

theorem existing_of_no_key (h : nonEmpty input.dedupeKey = none) : s.existing input = none := by
  rw [existing, h, bind_none]

theorem createDelivery_new (h : s.existing input = none) (initialStatus : EmailDeliveryStatus)
    (id : String) (now : Int) : s.createDelivery input initialStatus id now
      = (⟨s.deliveries.set id (fresh input initialStatus id now)⟩,
          fresh input initialStatus id now) := by
  rw [createDelivery, h]

theorem createDeliveryWithDedupe_new
    (h : s.existing input = none) (initialStatus : EmailDeliveryStatus) (id : String) (now : Int) :
    s.createDeliveryWithDedupe input initialStatus id now
      = (⟨s.deliveries.set id (fresh input initialStatus id now)⟩,
          fresh input initialStatus id now, true) := by
  rw [createDeliveryWithDedupe, h]
  dsimp only
  rw [createDelivery_new h]

theorem createDeliveryWithDedupe_old {found : EmailDelivery} (h : s.existing input = some found)
    (initialStatus : EmailDeliveryStatus) (id : String) (now : Int) :
    s.createDeliveryWithDedupe input initialStatus id now = (s, found, false) := by
  rw [createDeliveryWithDedupe, h]

theorem get_set (s : MemoryEmailDeliveryStorage) (id : String) (d : EmailDelivery) (id' : String) :
    (⟨s.deliveries.set id d⟩ : MemoryEmailDeliveryStorage).get id'
      = if id = id' then some d else s.get id' :=
  s.deliveries.get_set id d id'

theorem core_set {found d : EmailDelivery}
    (hfound : s.get id = some found) (hcore : d.core = found.core) (id' : String) :
    ((⟨s.deliveries.set id d⟩ : MemoryEmailDeliveryStorage).get id').map EmailDelivery.core
      = (s.get id').map EmailDelivery.core := by
  rw [get_set]
  by_cases hid : id = id'
  · subst hid
    rw [if_pos rfl, hfound, map_some, map_some, hcore]
  · rw [if_neg hid]

theorem countFor_set {found d : EmailDelivery}
    (hfound : s.get id = some found) (hcore : d.core = found.core) (invoiceId : String) :
    (⟨s.deliveries.set id d⟩ : MemoryEmailDeliveryStorage).countFor invoiceId
      = s.countFor invoiceId := by
  have hcount := s.deliveries.countP_set id d (fun d => decide (d.invoiceId = invoiceId))
  have hold : s.deliveries.get id = some found := hfound
  rw [hold, any_some, invoiceId_of_core hcore] at hcount
  exact Nat.add_right_cancel hcount

theorem countFor_new (hnew : s.get id = none) (invoiceId : String) :
    (⟨s.deliveries.set id d⟩ : MemoryEmailDeliveryStorage).countFor invoiceId
      = s.countFor invoiceId + (if d.invoiceId = invoiceId then 1 else 0) := by
  have hcount := s.deliveries.countP_set id d (fun d => decide (d.invoiceId = invoiceId))
  have hold : s.deliveries.get id = none := hnew
  rw [hold, any_none, if_neg (by decide), Nat.add_zero] at hcount
  refine hcount.trans ?_
  by_cases h : d.invoiceId = invoiceId
  · rw [if_pos h, if_pos (decide_eq_true h)]
    rfl
  rw [if_neg h, if_neg (by rw [decide_eq_false h]; decide)]
  rfl

/-- **AN UPDATE** touches only the progress of a delivery. -/
theorem core_updateDeliveryStatus (s : MemoryEmailDeliveryStorage)
    (id : String) (update : DeliveryUpdate) (now : Int) (id' : String) :
    ((s.updateDeliveryStatus id update now).1.get id').map EmailDelivery.core
      = (s.get id').map EmailDelivery.core := by
  rw [updateDeliveryStatus]
  cases hfound : s.get id with
  | none => rfl
  | some found => exact core_set hfound (core_apply found update now) id'

theorem countFor_updateDeliveryStatus (s : MemoryEmailDeliveryStorage)
    (id : String) (update : DeliveryUpdate) (now : Int) (invoiceId : String) :
    (s.updateDeliveryStatus id update now).1.countFor invoiceId = s.countFor invoiceId := by
  rw [updateDeliveryStatus]
  cases hfound : s.get id with
  | none => rfl
  | some found => exact countFor_set hfound (core_apply found update now) _

/-- A delivery is itself, or was paused and is itself resumed. -/
def ResumedAt (s s' : MemoryEmailDeliveryStorage) (now : Int) (id : String) :
    Prop :=
  s'.get id = s.get id ∨ ∃ d, s.get id = some d ∧ d.status = .paused
      ∧ s'.get id = some (d.resumed now)

theorem resumedAt_set {id₀ : String}
    (hd : s.get id₀ = some d) (hpaused : d.status = .paused) (id : String) :
    ResumedAt s ⟨s.deliveries.set id₀ (d.resumed now)⟩ now id := by
  rw [ResumedAt, get_set]
  by_cases hid : id₀ = id
  · subst hid
    rw [if_pos rfl]
    exact .inr ⟨d, hd, hpaused, rfl⟩
  rw [if_neg hid]
  exact .inl rfl

theorem ResumedAt.trans {s₁ s₂ s₃ : MemoryEmailDeliveryStorage} (h₁ : ResumedAt s₁ s₂ now id)
    (h₂ : ResumedAt s₂ s₃ now id) : ResumedAt s₁ s₃ now id := by
  rcases h₂ with hsame | ⟨d, hd, hpaused, hresumed⟩
  · rw [ResumedAt, hsame]
    exact h₁
  rcases h₁ with hsame | ⟨d', hd', hpaused', hresumed'⟩
  · exact .inr ⟨d, hsame ▸ hd, hpaused, hresumed⟩
  rw [hd] at hresumed'
  rw [some.inj hresumed'] at hpaused
  cases hpaused

/-- **THE LOOP RULE**: what resuming one paused delivery preserves, the loop
    preserves. -/
theorem resumeLoop_invariant (hone : ∀ s id d, P s → s.get id = some d → d.status = .paused →
      P ⟨s.deliveries.set id (d.resumed now)⟩)
    (limit : Nat) (entries : List (String × EmailDelivery)) (count : Nat)
    (s : MemoryEmailDeliveryStorage) (hnodup : (entries.map Prod.fst).Nodup)
    (hentries : ∀ e ∈ entries, s.get e.1 = some e.2) (h : P s) :
    P (resumeLoop limit now entries count s).1 := by
  induction entries generalizing count s with
  | nil => exact h
  | cons e rest ih =>
    obtain ⟨id₀, d⟩ := e
    obtain ⟨hnew, hrest⟩ := List.nodup_cons.mp hnodup
    have hd : s.get id₀ = some d := hentries (id₀, d) (.head _)
    rw [resumeLoop]
    by_cases hpaused : d.status = .paused
    · have hnext := hone s id₀ d h hd hpaused
      rw [if_pos hpaused]
      dsimp only
      by_cases hlimit : limit ≤ count + 1
      · rw [if_pos hlimit]
        exact hnext
      rw [if_neg hlimit]
      refine ih _ _ hrest ?_ hnext
      -- the entries still to come are under other keys
      intro e he
      have hkey : e.1 ∈ rest.map Prod.fst := List.mem_map_of_mem he
      have hne : id₀ ≠ e.1 := fun heq => hnew (heq ▸ hkey)
      rw [get_set, if_neg hne]
      exact hentries e (.tail _ he)
    · rw [if_neg hpaused]
      exact ih count s hrest (fun e he => hentries e (.tail _ he)) h

theorem resumePausedDeliveries_invariant
    (hone : ∀ s id d, P s → s.get id = some d → d.status = .paused →
      P ⟨s.deliveries.set id (d.resumed now)⟩)
    (s : MemoryEmailDeliveryStorage) (limit : Nat) (h : P s) :
    P (s.resumePausedDeliveries limit now).1 :=
  resumeLoop_invariant hone limit s.deliveries.entries 0 s s.deliveries.nodup
    (fun e he => (s.deliveries.mem_entries_iff e.1 e.2).mp he) h

theorem resumedAt_resumePausedDeliveries (s : MemoryEmailDeliveryStorage)
    (limit : Nat) (now : Int) (id : String) :
    ResumedAt s (s.resumePausedDeliveries limit now).1 now id :=
  resumePausedDeliveries_invariant (P := fun s' => ResumedAt s s' now id)
    (fun _ _ _ h hd hpaused => h.trans (resumedAt_set hd hpaused id))
    s limit (.inl rfl)

/-- **A RESUME** touches only the progress of a delivery. -/
theorem core_resumePausedDeliveries (s : MemoryEmailDeliveryStorage)
    (limit : Nat) (now : Int) (id : String) :
    ((s.resumePausedDeliveries limit now).1.get id).map EmailDelivery.core
      = (s.get id).map EmailDelivery.core := by
  rcases resumedAt_resumePausedDeliveries s limit now id with
    hsame | ⟨d, hd, -, hresumed⟩
  · rw [hsame]
  · rw [hresumed, hd, map_some, map_some, core_resumed]

theorem countFor_resumePausedDeliveries (s : MemoryEmailDeliveryStorage)
    (limit : Nat) (now : Int) (invoiceId : String) :
    (s.resumePausedDeliveries limit now).1.countFor invoiceId = s.countFor invoiceId :=
  resumePausedDeliveries_invariant (P := fun s' => s'.countFor invoiceId = s.countFor invoiceId)
    (fun _ _ d h hd _ => (countFor_set hd (core_resumed d now) _).trans h)
    s limit rfl

end MemoryEmailDeliveryStorage

end EmailQueue

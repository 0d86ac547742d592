import Inqutum.ReplayWindowProofs
import Inqutum.InsertionMapProofs
import Inqutum.TransitionProofs
import Inqutum.JsonStringifyProofs

/-!
# Webhook replay prevention

The middleware takes a request with three headers: a signature of the
timestamp and the body, the timestamp, and an event id.  It passes on what
is fresh and correctly signed and whose event id the replay store does not
know, and adds the id to the store.

The signature does not cover the event id.  A message that was passed on
once is kept out by its event id alone, as long as the store remembers it:
`passed_once_iff` says that each message is passed on at most once exactly
if every repeated one comes with an event id that `ReplayWindow` says is
remembered.

The digest is a parameter: 32 bytes, whatever it is.
-/

namespace Webhook

open JsonText (Text Tree ascii unit)
open Transition (Along)
open InsertionMap JsNumber Utf8 Canonical ReplayWindow

structure Host where
  engine : Engine
  /-- `createHmac('sha256', secret).update(bytes).digest()`. -/
  hmacSha256 : Text → List Nat → Vector (Fin 256) 32

open List

structure WebhookConfig where
  signingSecret : Text
  toleranceSeconds : JsNumber
  replayWindowMs : JsNumber

/-! ## The signature -/

section Verification

variable (host : Host)

/-- `'sha256=' + createHmac('sha256', secret).update(timestamp + '.' + body)`
    as hex digits. -/
def expectedSignature (secret timestamp body : Text) : Text :=
  ascii "sha256=" ++ hexBytes (host.hmacSha256 secret
    (encode (timestamp ++ unit '.' :: body))).toList

/-- `timingSafeEqual(Buffer.from(a), Buffer.from(b))`; it throws for buffers of
    different lengths. -/
def timingSafeEqual (a b : Text) : Option Bool :=
  if (encode a).length = (encode b).length then
    some (decide (encode a = encode b))
  else none

mutual

/-- No number in the value reads as an infinity. -/
def inRange : Tree → Bool
  | .num (.finite q) => decide (|q| < 2 ^ 1024)
  | .arr items => itemsInRange items
  | .obj members => membersInRange members
  | _ => true

def itemsInRange : List Tree → Bool
  | [] => true
  | x :: rest => inRange x && itemsInRange rest

def membersInRange : List (Text × Tree) → Bool
  | [] => true
  | (_, x) :: rest => inRange x && membersInRange rest

end

/-- `canonicalize(JSON.parse(payload))`, if neither throws. -/
def canonicalBody (payload : Text) : Option Text :=
  (Stringify.parse payload).bind (fun parsed =>
    if inRange parsed then
      (canonicalize host.engine (toValue parsed)).toOption
    else none)

/-- The fallback to the canonical form of a JSON payload; whatever throws in
    it counts as no match. -/
def canonicalMatches (payload signature secret timestamp : Text) : Bool :=
  match canonicalBody host payload with
  | none => false
  | some body =>
    let canonicalExpected := expectedSignature host secret timestamp body
    if body ≠ payload then
      if canonicalExpected.length = signature.length then
        (timingSafeEqual canonicalExpected signature).getD false
      else false
    else false

/-- What is signed of a payload. -/
def payloadText : JsValue → Except Thrown Text
  | .str text => .ok text
  | .buffer bytes => .ok (decode (bytes.map Fin.val))
  | payload => canonicalize host.engine payload

def verifyWebhookSignature (payload : JsValue)
    (signature secret timestamp : Text) : Except Thrown Bool :=
  (payloadText host payload).map (fun body =>
    let expected := expectedSignature host secret timestamp body
    -- only a string has a canonical form to fall back to
    let fallback := match payload with
      | .str text => canonicalMatches host text signature secret timestamp
      | _ => false
    if expected.length ≠ signature.length then fallback
    else match timingSafeEqual expected signature with
      | none => false
      | some true => true
      | some false => fallback)

end Verification

/-- `Math.abs(Date.now() / 1000 - Number(timestamp)) > toleranceSeconds`, or a
    timestamp that is no finite number. -/
def isTimestampStale (now : Int) (timestamp : Text) (toleranceSeconds : JsNumber) : Bool :=
  let ts := ofText (String.ofList (timestamp.map Stringify.char))
  if ts.isFinite then
    lt toleranceSeconds (sub (div (.finite now) 1000) ts).abs
  else true

/-! ## The replay store -/

/-- Event ids with the times they were received, the oldest first. -/
structure MemoryReplayStore where
  entries : InsertionMap Text Int
  maxCapacity : Nat
  ttlMs : JsNumber

/-- `new MemoryReplayStore({ maxCapacity, replayWindowMs })`. -/
def MemoryReplayStore.new (maxCapacity : Option Nat)
    (replayWindowMs : Option JsNumber) : MemoryReplayStore where
  entries := empty
  maxCapacity := maxCapacity.getD 10000
  ttlMs := replayWindowMs.getD (.ofNat (5 * 60 * 1000))

/-- `receivedAt < Date.now() - ttlMs`. -/
def expired (ttlMs : JsNumber) (now receivedAt : Int) : Bool :=
  lt (.finite receivedAt) (sub (.finite now) ttlMs)

namespace MemoryReplayStore

variable (store : MemoryReplayStore)

/-- Delete from the oldest on, up to the first entry that is not expired. -/
def cleanup (now : Int) : MemoryReplayStore :=
  { store with
    entries := ⟨store.entries.entries.dropWhile (fun entry => expired store.ttlMs now entry.2),
      store.entries.nodup.sublist ((dropWhile_sublist _).map Prod.fst)⟩ }

def has (eventId : Text) (now : Int) : Bool × MemoryReplayStore :=
  ((store.cleanup now).entries.has eventId, store.cleanup now)

/-- Make room when at capacity. -/
def evictOldest : InsertionMap Text Int :=
  if store.maxCapacity ≤ store.entries.size then
    match store.entries.oldest with
    | some oldest => store.entries.delete oldest
    | none => store.entries
  else store.entries

/-- The clock is read for the cleanup and once more for the entry. -/
def add (eventId : Text) (cleanedAt receivedAt : Int) : MemoryReplayStore :=
  { store.cleanup cleanedAt with
    entries := (store.cleanup cleanedAt).evictOldest.set eventId receivedAt }

end MemoryReplayStore

/-! ## The middleware -/

/-- `req.body`.  An infinity in a parsed body counts as null here, which is
    what `JSON.stringify` writes for it. -/
inductive Body where
  | absent
  | text (text : Text)
  | parsed (value : Tree)

/-- `typeof req.body === 'string' ? req.body : JSON.stringify(req.body)`. -/
def Body.raw : Body → Option Text
  | .absent => none
  | .text str => some str
  | .parsed value => some (Stringify.stringify value)

/-- A request, with what `Date.now()` answers while it is handled. -/
structure Request where
  signature : Option Text
  timestamp : Option Text
  eventId : Option Text
  body : Body
  /-- In `isTimestampStale`. -/
  now : Int
  /-- In the cleanup of `has`. -/
  lookedAt : Int
  /-- In the cleanup of `add`. -/
  cleanedAt : Int
  /-- For the entry `add` writes. -/
  receivedAt : Int

/-- The clock in the order it is read.  Where a request is turned down early
    the rest is not read, and may be anything in order. -/
def Request.readings (req : Request) : List Int :=
  [req.now, req.lookedAt, req.cleanedAt, req.receivedAt]

/-- The first three are 400, 408 and 401, the fourth 409; the last is not
    caught. -/
inductive Refusal where
  | malformedWebhook
  | staleTimestamp
  | invalidSignature
  | duplicateEvent
  | thrown (thrown : Thrown)

section Middleware

variable (host : Host) (config : WebhookConfig)

/-- What is checked before the replay store is asked: the event id of a request
    that is fresh and correctly signed.  A header that is missing is as good
    as an empty one. -/
def accept (req : Request) : Except Refusal Text :=
  let signature := req.signature.getD []
  let timestamp := req.timestamp.getD []
  let eventId := req.eventId.getD []
  if signature = [] ∨ timestamp = [] ∨ eventId = [] then
    .error .malformedWebhook
  else if isTimestampStale req.now timestamp config.toleranceSeconds then
    .error .staleTimestamp
  else
    match verifyWebhookSignature host (req.body.raw.elim JsValue.undefined JsValue.str) signature
        config.signingSecret timestamp with
    | .error thrown => .error (.thrown thrown)
    | .ok false => .error .invalidSignature
    | .ok true => .ok eventId

/-- The handler of `createWebhookMiddleware(config)`: `next()` with the event
    id of the request, or a refusal. -/
def createWebhookMiddleware (store : MemoryReplayStore) (req : Request) :
    Except Refusal Text × MemoryReplayStore :=
  match accept host config req with
  | .error refusal => (.error refusal, store)
  | .ok eventId =>
    let looked := store.has eventId req.lookedAt
    if looked.1 then (.error .duplicateEvent, looked.2)
    else (.ok eventId, looked.2.add eventId req.cleanedAt req.receivedAt)

/-! ## Runs -/

structure Message where
  timestamp : Option Text
  body : Option Text
  signature : Option Text
  deriving DecidableEq

def Request.message (req : Request) : Message :=
  ⟨req.timestamp, req.body.raw, req.signature⟩

/-- The store, and what has come of the requests so far, the newest first: the
    visits of the store and the messages that were passed on. -/
structure Watched where
  store : MemoryReplayStore
  visits : List (ReplayWindow.Visit Text Int)
  passed : List Message

/-- The store a middleware makes for itself. -/
def initial : Watched :=
  ⟨MemoryReplayStore.new none (some config.replayWindowMs), [], []⟩

def step (w : Watched) (req : Request) : Watched :=
  let answer := createWebhookMiddleware host config w.store req
  match answer.1 with
  | .ok eventId =>
    ⟨answer.2, ⟨req.lookedAt, some ⟨eventId, req.cleanedAt, req.receivedAt⟩⟩ :: w.visits,
      req.message :: w.passed⟩
  | .error .duplicateEvent => ⟨answer.2, ⟨req.lookedAt, none⟩ :: w.visits, w.passed⟩
  | .error _ => { w with store := answer.2 }

/-- The messages a run passes on, the newest first. -/
def passed (requests : List Request) : List Message :=
  (requests.foldl (step host config) (initial config)).passed

/-- A request that repeats a message that was passed on, and would be passed on
    again, has an event id that is still remembered. -/
def RepeatsRemembered (w : Watched) (req : Request) : Prop :=
  ∀ eventId, accept host config req = .ok eventId → req.message ∈ w.passed →
    Remembered (expired config.replayWindowMs) 10000 (⟨req.lookedAt, none⟩ :: w.visits) eventId

end Middleware

/-! ## One visit of the store -/

theorem expired_of_le (ttlMs : JsNumber) (now t t' : Int) (hle : t ≤ t')
    (h : expired ttlMs now t' = true) : expired ttlMs now t = true := by
  rw [expired] at h ⊢
  generalize sub (.finite now) ttlMs = cutoff at h ⊢
  rw [lt, Bool.and_eq_true, Bool.not_eq_true'] at h ⊢
  obtain ⟨hbelow, habove⟩ := h
  cases cutoff with
  | finite c =>
    have hcast : (t : ℚ) ≤ t' := Int.cast_le.mpr hle
    have hc := of_decide_eq_true hbelow
    have hc' := of_decide_eq_false habove
    exact ⟨decide_eq_true (hcast.trans hc), decide_eq_false (fun hct => hc' (hct.trans hcast))⟩
  -- every finite time is before an infinite cutoff, none after
  | posInf => exact ⟨rfl, rfl⟩
  | negInf => cases hbelow
  | nan => cases hbelow

section Store

variable {ttlMs : JsNumber} {cap : Nat} {visits : List (ReplayWindow.Visit Text Int)}
  {store : MemoryReplayStore}

/-- **THE STORE IS A WINDOW**, turned around. -/
structure Mirrors (ttlMs : JsNumber) (cap : Nat)
    (visits : List (ReplayWindow.Visit Text Int)) (store : MemoryReplayStore) : Prop where
  entries_eq : store.entries.entries = (window (expired ttlMs) cap visits).reverse
  maxCapacity_eq : store.maxCapacity = cap
  ttlMs_eq : store.ttlMs = ttlMs
  fresh : Fresh (expired ttlMs) cap visits

theorem mirrors_new (replayWindowMs : JsNumber) : Mirrors replayWindowMs 10000 []
      (MemoryReplayStore.new none (some replayWindowMs)) where
  entries_eq := rfl
  maxCapacity_eq := rfl
  ttlMs_eq := rfl
  fresh := trivial

theorem Mirrors.cleanup (h : Mirrors ttlMs cap visits store) (now : Int) :
    Mirrors ttlMs cap (⟨now, none⟩ :: visits) (store.cleanup now) where
  entries_eq := by
    have hsorted := window_sorted h.fresh
    have hdrop := dropWhile_reverse (expired_of_le ttlMs) now hsorted
    show store.entries.entries.dropWhile (fun entry => expired store.ttlMs now entry.2) = _
    rw [h.entries_eq, h.ttlMs_eq, hdrop]
    congr 1
    refine filter_congr ?_
    intro entry _
    exact (Bool.and_true _).symm
  maxCapacity_eq := h.maxCapacity_eq
  ttlMs_eq := h.ttlMs_eq
  fresh := ⟨h.fresh, nofun⟩

theorem Mirrors.has_iff (h : Mirrors ttlMs cap visits store)
    {eventId : Text} : store.entries.has eventId = true
      ↔ eventId ∈ (window (expired ttlMs) cap visits).map Prod.fst := by
  rw [← mem_keys_iff, InsertionMap.keys, h.entries_eq, map_reverse, mem_reverse]

theorem Mirrors.entries_evictOldest (hcap : 1 ≤ cap) (h : Mirrors ttlMs cap visits store) :
    store.evictOldest.entries = ((window (expired ttlMs) cap visits).take (cap - 1)).reverse := by
  have hlength : (window (expired ttlMs) cap visits).length ≤ cap :=
    length_window hcap visits
  have hsize : store.entries.size = (window (expired ttlMs) cap visits).length := by
    rw [size, h.entries_eq, length_reverse]
  rw [MemoryReplayStore.evictOldest, h.maxCapacity_eq, hsize]
  by_cases hfull : cap ≤ (window (expired ttlMs) cap visits).length
  · rw [if_pos hfull]
    cases holdest : store.entries.oldest with
    | none =>
      have hzero := oldest_eq_none.mp holdest
      omega
    | some oldest =>
      show (store.entries.delete oldest).entries = _
      rw [entries_delete_oldest holdest, h.entries_eq, tail_reverse, dropLast_eq_take]
      congr 2
      omega
  · rw [if_neg hfull, take_of_length_le (by omega)]
    exact h.entries_eq

theorem Mirrors.add (hcap : 1 ≤ cap) {eventId : Text} {lookedAt cleanedAt receivedAt : Int}
    (h : Mirrors ttlMs cap visits store)
    (hnew : (store.cleanup lookedAt).entries.has eventId = false)
    (htime : ∀ entry ∈ window (expired ttlMs) cap visits, entry.2 ≤ receivedAt) :
    Mirrors ttlMs cap (⟨lookedAt, some ⟨eventId, cleanedAt, receivedAt⟩⟩ :: visits)
      ((store.cleanup lookedAt).add eventId cleanedAt receivedAt) := by
  have hlooked := h.cleanup lookedAt
  have hcleaned := hlooked.cleanup cleanedAt
  -- both cleanups are one filter
  have hkept : window (expired ttlMs) cap (⟨cleanedAt, none⟩ :: ⟨lookedAt, none⟩ :: visits)
      = (window (expired ttlMs) cap visits).filter (fun entry =>
          (⟨lookedAt, some ⟨eventId, cleanedAt, receivedAt⟩⟩ :
            ReplayWindow.Visit Text Int).keeps (expired ttlMs) entry.2) := by
    show ((window (expired ttlMs) cap visits).filter _).filter _ = _
    rw [filter_filter]
    refine filter_congr ?_
    intro entry _
    show (!expired ttlMs cleanedAt entry.2 && true
      && (!expired ttlMs lookedAt entry.2 && true)) = (!expired ttlMs lookedAt
        entry.2 && !expired ttlMs cleanedAt entry.2)
    rw [Bool.and_true, Bool.and_true, Bool.and_comm]
  have habsent : eventId ∉ (window (expired ttlMs) cap
      (⟨cleanedAt, none⟩ :: ⟨lookedAt, none⟩ :: visits)).map Prod.fst := by
    intro hmem
    have hthere := (filter_sublist.map Prod.fst).subset hmem
    rw [← hlooked.has_iff, hnew] at hthere
    cases hthere
  refine ⟨?_, h.maxCapacity_eq, h.ttlMs_eq, h.fresh, ?_⟩
  · have hevicted := hcleaned.entries_evictOldest hcap
    show write eventId receivedAt
      ((store.cleanup lookedAt).cleanup cleanedAt).evictOldest.entries = _
    have hwrite : eventId ∉ ((store.cleanup lookedAt).cleanup
        cleanedAt).evictOldest.entries.map Prod.fst := by
      rw [hevicted, map_reverse, mem_reverse]
      exact fun hmem => habsent (((take_sublist _ _).map Prod.fst).subset hmem)
    rw [write_of_not_mem hwrite, hevicted, hkept, window, reverse_cons]
  · intro a ha
    cases ha
    rw [hkept] at habsent
    exact ⟨habsent, htime⟩

end Store

/-! ## One request -/

section Step

variable {host : Host} {config : WebhookConfig}

theorem accept_ne_duplicate (req : Request) : accept host config req ≠ .error .duplicateEvent := by
  intro h
  simp only [accept] at h
  split at h
  · cases h
  split at h
  · cases h
  split at h
  · cases h
  · cases h
  · cases h

/-- **WHAT A REQUEST DOES**: nothing if it is not accepted; if it is, it looks
    up its event id, and is passed on if the id is not there. -/
theorem step_cases (host : Host) (config : WebhookConfig) (w : Watched) (req : Request) :
    (∃ refusal, accept host config req = .error refusal ∧ step host config w req = w)
    ∨ ∃ eventId, accept host config req = .ok eventId
      ∧ (((w.store.cleanup req.lookedAt).entries.has eventId = true
          ∧ step host config w req = ⟨w.store.cleanup req.lookedAt,
            ⟨req.lookedAt, none⟩ :: w.visits, w.passed⟩)
        ∨ ((w.store.cleanup req.lookedAt).entries.has eventId = false ∧ step host config w req
            = ⟨(w.store.cleanup req.lookedAt).add eventId req.cleanedAt req.receivedAt,
              ⟨req.lookedAt, some ⟨eventId, req.cleanedAt, req.receivedAt⟩⟩ :: w.visits,
              req.message :: w.passed⟩)) := by
  cases haccept : accept host config req with
  | error refusal =>
    refine .inl ⟨refusal, rfl, ?_⟩
    have hhandle : createWebhookMiddleware host config w.store req = (.error refusal, w.store) := by
      rw [createWebhookMiddleware, haccept]
    have hrefusal : refusal ≠ .duplicateEvent :=
      fun heq => accept_ne_duplicate req (haccept.trans (heq ▸ rfl))
    rw [step, hhandle]
    cases refusal with
    | duplicateEvent => exact absurd rfl hrefusal
    | malformedWebhook => rfl
    | staleTimestamp => rfl
    | invalidSignature => rfl
    | thrown _ => rfl
  | ok eventId =>
    refine .inr ⟨eventId, rfl, ?_⟩
    cases hhas : (w.store.cleanup req.lookedAt).entries.has eventId with
    | true =>
      have hhandle : createWebhookMiddleware host config w.store req
          = (.error .duplicateEvent, w.store.cleanup req.lookedAt) := by
        rw [createWebhookMiddleware, haccept]
        exact if_pos hhas
      refine .inl ⟨rfl, ?_⟩
      rw [step, hhandle]
    | false =>
      have hhandle : createWebhookMiddleware host config w.store req
          = (.ok eventId, (w.store.cleanup req.lookedAt).add eventId
              req.cleanedAt req.receivedAt) := by
        rw [createWebhookMiddleware, haccept]
        exact if_neg (Bool.eq_false_iff.mp hhas)
      refine .inr ⟨rfl, ?_⟩
      rw [step, hhandle]

theorem has_iff_remembered {w : Watched} {eventId : Text} {now : Int}
    (h : Mirrors config.replayWindowMs 10000 w.visits w.store) :
    (w.store.cleanup now).entries.has eventId = true
      ↔ Remembered (expired config.replayWindowMs) 10000 (⟨now, none⟩ :: w.visits) eventId := by
  have hlooked := h.cleanup now
  rw [hlooked.has_iff]
  exact mem_window_iff (expired_of_le config.replayWindowMs) (by decide) hlooked.fresh

/-- **ONE REQUEST** leaves the messages distinct exactly if, repeating one of
    them, it has an event id that is remembered. -/
theorem step_nodup_iff {w : Watched} (req : Request)
    (h : Mirrors config.replayWindowMs 10000 w.visits w.store) :
    (step host config w req).passed.Nodup
      ↔ w.passed.Nodup ∧ RepeatsRemembered host config w req := by
  rcases step_cases host config w req with
    ⟨refusal, haccept, hstep⟩
      | ⟨eventId, haccept, ⟨hhas, hstep⟩ | ⟨hhas, hstep⟩⟩
  · rw [hstep]
    refine ⟨fun hnodup => ⟨hnodup, ?_⟩, fun hboth => hboth.1⟩
    intro eventId hok
    rw [haccept] at hok
    cases hok
  · rw [hstep]
    refine ⟨fun hnodup => ⟨hnodup, ?_⟩, fun hboth => hboth.1⟩
    intro id hok _
    obtain rfl := Except.ok.inj (haccept.symm.trans hok)
    exact (has_iff_remembered h).mp hhas
  -- passed on: the message must be new, as its id is not remembered
  · rw [hstep]
    show (req.message :: w.passed).Nodup ↔ _
    rw [nodup_cons, and_comm]
    refine and_congr_right (fun _ => ⟨?_, ?_⟩)
    · intro hnew id _ hold
      exact absurd hold hnew
    intro hrepeats hold
    have hremembered := (has_iff_remembered h).mpr (hrepeats eventId haccept hold)
    rw [hhas] at hremembered
    cases hremembered

end Step

/-! ## Whole runs -/

section Runs

variable {host : Host} {config : WebhookConfig}

/-- The store mirrors its visits, and what is to come is later. -/
structure Ready (config : WebhookConfig) (w : Watched) (requests : List Request) : Prop where
  mirrors : Mirrors config.replayWindowMs 10000 w.visits w.store
  past : ∀ entry ∈ window (expired config.replayWindowMs) 10000 w.visits,
    ∀ time ∈ requests.flatMap Request.readings, entry.2 ≤ time
  clock : (requests.flatMap Request.readings).Pairwise (· ≤ ·)

variable {requests : List Request}

theorem ready_initial (config : WebhookConfig)
    (hclock : (requests.flatMap Request.readings).Pairwise (· ≤ ·)) :
    Ready config (initial config) requests where
  mirrors := mirrors_new config.replayWindowMs
  past := nofun
  clock := hclock

/-- **THE STORE KEEPS MIRRORING** its visits. -/
theorem Ready.step {w : Watched} {req : Request} {rest : List Request}
    (h : Ready config w (req :: rest)) : Ready config (step host config w req) rest := by
  obtain ⟨hmirrors, hpast, hclock⟩ := h
  rw [flatMap_cons] at hpast hclock
  obtain ⟨-, hrest, hcross⟩ := pairwise_append.mp hclock
  have hreceived : req.receivedAt ∈ req.readings := by simp [Request.readings]
  have hlater : ∀ entry ∈ window (expired config.replayWindowMs) 10000
      w.visits, ∀ time ∈ rest.flatMap Request.readings, entry.2 ≤ time :=
    fun entry hentry time htime => hpast entry hentry time (mem_append_right _ htime)
  rcases step_cases host config w req with
    ⟨_, -, hstep⟩ | ⟨eventId, -, ⟨-, hstep⟩ | ⟨hhas, hstep⟩⟩
  · rw [hstep]
    exact ⟨hmirrors, hlater, hrest⟩
  · rw [hstep]
    refine ⟨hmirrors.cleanup req.lookedAt, ?_, hrest⟩
    intro entry hentry
    exact hlater entry (mem_filter.mp hentry).1
  rw [hstep]
  refine ⟨hmirrors.add (by decide) hhas ?_, ?_, hrest⟩
  · intro entry hentry
    exact hpast entry hentry _ (mem_append_left _ hreceived)
  -- the entry that was added carries a reading of this request
  · intro entry hentry time htime
    rcases mem_window_cons hentry with hold | ⟨a, ha, rfl⟩
    · exact hlater entry hold time htime
    cases ha
    exact hcross _ hreceived time htime

theorem run_nodup_iff (host : Host) {w : Watched} (h : Ready config w requests) :
    (requests.foldl (step host config) w).passed.Nodup ↔ w.passed.Nodup
      ∧ Along (step host config) (RepeatsRemembered host config) w
        requests := by
  induction requests generalizing w with
  | nil => exact (and_iff_left trivial).symm
  | cons req rest ih =>
    rw [foldl_cons, ih h.step, step_nodup_iff req h.mirrors, and_assoc]
    exact Iff.rfl

/-- **EACH MESSAGE IS PASSED ON AT MOST ONCE** exactly if every accepted
    request that repeats one comes with an event id still remembered. -/
theorem passed_once_iff (host : Host) (config : WebhookConfig)
    {requests : List Request}
    (hclock : (requests.flatMap Request.readings).Pairwise (· ≤ ·)) :
    (passed host config requests).Nodup
      ↔ Along (step host config) (RepeatsRemembered host config) (initial config) requests := by
  have hrun := run_nodup_iff host (ready_initial config hclock)
  exact hrun.trans (and_iff_right nodup_nil)

theorem Ready.run (host : Host) {w : Watched} (h : Ready config w requests) :
    Ready config (requests.foldl (Webhook.step host config) w) [] := by
  induction requests generalizing w with
  | nil => exact h
  | cons req rest ih => exact ih h.step

def watched (host : Host) (config : WebhookConfig) (requests : List Request) : Watched :=
  requests.foldl (step host config) (initial config)

/-- **THE STORE IS A WINDOW** of its visits after every run: it is never over
    its capacity, and knows an event id exactly while it is remembered. -/
theorem store_is_window (host : Host) (config : WebhookConfig) {requests : List Request}
    (hclock : (requests.flatMap Request.readings).Pairwise (· ≤ ·)) :
    (watched host config requests).store.entries.size ≤ 10000 ∧ ∀ eventId now,
      ((watched host config requests).store.has eventId now).1 = true
        ↔ Remembered (expired config.replayWindowMs) 10000
          (⟨now, none⟩ :: (watched host config requests).visits) eventId := by
  have h := ((ready_initial config hclock).run host).mirrors
  refine ⟨?_, fun eventId now => has_iff_remembered h⟩
  rw [watched, size, h.entries_eq, length_reverse]
  exact length_window (by decide) _

end Runs

/-! ## A message sent again -/

/-- Blank digests. -/
def blankHost : Host where
  engine := sampleEngine
  hmacSha256 := fun _ _ => Vector.replicate 32 0

def sampleConfig : WebhookConfig where
  signingSecret := ascii "secret"
  toleranceSeconds := 300
  replayWindowMs := 300000

/-- The same signed message, whatever the event id. -/
def delivery (eventId : Text) (now : Int) : Request where
  signature := some (expectedSignature blankHost (ascii "secret") (ascii "0") (ascii "\x7b\x7d"))
  timestamp := some (ascii "0")
  eventId := some eventId
  body := .parsed (.obj [])
  now := now
  lookedAt := now
  cleanedAt := now
  receivedAt := now

theorem store_is_window_sample :
    (watched blankHost sampleConfig [delivery (ascii "a") 0]).store.entries.size ≤ 10000
      ∧ ∀ eventId now,
      ((watched blankHost sampleConfig [delivery (ascii "a") 0]).store.has eventId now).1 = true
        ↔ Remembered (expired sampleConfig.replayWindowMs) 10000
          (⟨now, none⟩ :: (watched blankHost sampleConfig [delivery (ascii "a") 0]).visits)
          eventId :=
  store_is_window blankHost sampleConfig (by decide)

/-- Sent again with its event id, the message is kept out. -/
theorem same_id_remembered : Along (step blankHost sampleConfig)
    (RepeatsRemembered blankHost sampleConfig) (initial sampleConfig)
    [delivery (ascii "a") 0, delivery (ascii "a") 1] :=
  (passed_once_iff blankHost sampleConfig (by decide)).mp (by decide +kernel)

/-- Sent again with another event id, it is passed on twice, though the window
    is as long as the tolerance. -/
theorem other_id_passed : ¬ (le (mul sampleConfig.toleranceSeconds 1000)
        sampleConfig.replayWindowMs = true →
      ([delivery (ascii "a") 0, delivery (ascii "b") 1].flatMap Request.readings).Pairwise (· ≤ ·) →
      (passed blankHost sampleConfig [delivery (ascii "a") 0, delivery (ascii "b") 1]).Nodup) := by
  intro h
  have hwindow : le (mul sampleConfig.toleranceSeconds 1000)
      sampleConfig.replayWindowMs = true := by decide +kernel
  have htwice : ¬ (passed blankHost sampleConfig
      [delivery (ascii "a") 0, delivery (ascii "b") 1]).Nodup := by
    decide +kernel
  exact htwice (h hwindow (by decide))

end Webhook

import Inqutum.EmailDeliveryProofs
import Inqutum.JsonStringifyProofs
import Inqutum.TransitionProofs
import Mathlib.Logic.Function.Basic

/-!
# Enqueueing an e-mail

`EmailQueueService.enqueue` validates an input, looks its dedupe key up,
asks for a rate limit and a quota, counts the deliveries of the invoice,
looks the key up once more and inserts.  Any number of calls run side by
side (`State.phase`); a step of a call (`advance`) is what runs between two
of its awaits, so what a call read in one step may be old in the next.

The store is asked and written in one step, and the key that it is asked
for names its sender and its event (`compositeKey_inj`).  Hence the calls
with one key create one delivery, which all of them return or conflict
with (`enqueue_dedupes`).  A payload with a `BigInt` has no canonical text
(`unwritable_iff`), and makes its call throw after the delivery was
created (`bigint_throws`).
-/

namespace EmailQueue

open JsonText (Text ascii sortMembers join bracketed braced)
open Canonical (JsValue)
open Transition (Along)
open List Option String Nat JsText MemoryEmailDeliveryStorage

/-! ## What a call is given -/

structure RecipientCheck where
  valid : Bool
  normalized : Option String
  error : Option String

structure ContentCheck where
  valid : Bool
  error : Option String

structure RateCheck where
  allowed : Bool
  currentCount : JsNumber
  maxAllowed : JsNumber
  retryAfterSeconds : Option JsNumber

structure QuotaCheck where
  allowed : Bool
  code : String
  message : Option String
  retryAfterSeconds : Option JsNumber

/-- The engine, and the checks that depend on their argument alone. -/
structure Host where
  /-- `String(number)` of a finite number. -/
  numberText : ℚ → Text
  toLowerCase : String → String
  /-- A value in a template literal. -/
  displayText : JsValue → String
  validateRecipient : String → RecipientCheck
  validateContent : String → ContentCheck

/-- What the services and the clock answer during a step. -/
structure Env where
  rate : RateCheck
  quota : QuotaCheck
  breakerTripped : Bool
  now : Int
  /-- What `randomUUID()` gives. -/
  uuid : String

structure Config where
  maxEmailsPerInvoice : JsNumber
  defaultMaxAttempts : JsNumber

/-- Why a call is refused. -/
inductive Failure where
  | invalidRecipient (error : Option String)
  | spamContent (error : Option String)
  | dedupeKeyInvalid
  | conflict
  | rateLimited (check : RateCheck)
  | invoiceLimit (max : JsNumber)
  | quota (check : QuotaCheck)

def Failure.code : Failure → String
  | invalidRecipient _ => "INVALID_RECIPIENT_EMAIL"
  | spamContent _ => "SPAM_CONTENT_REJECTED"
  | dedupeKeyInvalid => "NOTIFICATION_DEDUPE_KEY_INVALID"
  | conflict => "NOTIFICATION_DEDUPE_KEY_CONFLICT"
  | rateLimited _ => "EMAIL_RATE_LIMIT_EXCEEDED"
  | invoiceLimit _ => "EXCEEDED_INVOICE_EMAIL_LIMIT"
  | quota check => check.code

inductive EnqueueResult where
  | success (delivery : EmailDelivery)
  | failure (reason : Failure)

inductive Thrown where
  | typeError (message : String)

/-! ## The canonical text of a payload -/

/-- The texts of the members in their order, up to the first that throws. -/
def memberTexts : List (Text × Except Thrown Text) → Except Thrown (List Text)
  | [] => .ok []
  | (key, text) :: rest =>
    match text with
    | .error thrown => .error thrown
    | .ok text => (memberTexts rest).map (fun texts =>
      (Stringify.quote key ++ JsonText.unit ':' :: text) :: texts)

/-- The own properties of a buffer are its bytes. -/
def bufferMembers (h : Host) (bytes : List (Fin 256)) : List (Text × Except Thrown Text) :=
  bytes.zipIdx.map (fun b => (ascii (toString b.2), .ok (h.numberText b.1.val)))

mutual

/-- What `JSON.stringify` leaves out is written as `null`, and a date has no
    own properties. -/
def canonicalJson (h : Host) : JsValue → Except Thrown Text
  | .null => .ok (ascii "null")
  | .undefined => .ok (ascii "null")
  | .bool b => .ok (ascii (if b then "true" else "false"))
  | .number (.finite q) => .ok (h.numberText q)
  | .number _ => .ok (ascii "null")
  | .negZero => .ok (ascii "0")
  | .bigint _ => .error (.typeError "Do not know how to serialize a BigInt")
  | .str s => .ok (Stringify.quote s)
  | .symbol => .ok (ascii "null")
  | .function => .ok (ascii "null")
  | .date _ => .ok (braced [])
  | .buffer bytes => (memberTexts (sortMembers (bufferMembers h bytes))).map
      (fun texts => braced (join texts))
  | .arr items => (canonicalItems h items).map (fun texts => bracketed (join texts))
  | .obj members => (memberTexts (sortMembers (canonicalMembers h members))).map
      (fun texts => braced (join texts))

def canonicalItems (h : Host) : List JsValue → Except Thrown (List Text)
  | [] => .ok []
  | item :: rest =>
    match canonicalJson h item with
    | .error thrown => .error thrown
    | .ok text => (canonicalItems h rest).map (text :: ·)

def canonicalMembers (h : Host) : List (Text × JsValue) → List (Text × Except Thrown Text)
  | [] => []
  | (key, value) :: rest => (key, canonicalJson h value) :: canonicalMembers h rest

end

/-- `canonicalJson(payload ?? {})`. -/
def payloadText (h : Host) (payload : Option Payload) : Except Thrown Text :=
  canonicalJson h (.obj (payload.getD []))

/-! Only a whole number of arbitrary size has no text. -/

mutual

def hasBigint : JsValue → Bool
  | .bigint _ => true
  | .arr items => hasBigintItem items
  | .obj members => hasBigintMember members
  | _ => false

def hasBigintItem : List JsValue → Bool
  | [] => false
  | item :: rest => hasBigint item || hasBigintItem rest

def hasBigintMember : List (Text × JsValue) → Bool
  | [] => false
  | (_, value) :: rest => hasBigint value || hasBigintMember rest

end

theorem isOk_map {α β ε : Type} (f : α → β) (r : Except ε α) : (r.map f).isOk = r.isOk := by
  cases r <;> rfl

theorem memberTexts_isOk (members : List (Text × Except Thrown Text)) :
    (memberTexts members).isOk = members.all (fun m => m.2.isOk) := by
  induction members with
  | nil => rfl
  | cons m rest ih =>
    obtain ⟨key, text⟩ := m
    cases text with
    | error thrown => rfl
    | ok text =>
      rw [memberTexts, isOk_map, ih, all_cons]
      rfl

theorem sortedTexts_isOk (members : List (Text × Except Thrown Text)) :
    ((memberTexts (sortMembers members)).map (fun texts => braced (join texts))).isOk
      = members.all (fun m => m.2.isOk) := by
  rw [isOk_map, memberTexts_isOk]
  exact (JsonText.sortMembers_perm members).all_eq

theorem bufferMembers_isOk (h : Host) (bytes : List (Fin 256)) :
    (bufferMembers h bytes).all (fun m => m.2.isOk) = true := by
  rw [bufferMembers, List.all_map]
  exact List.all_eq_true.mpr (fun _ _ => rfl)

mutual

theorem canonicalJson_isOk (h : Host) :
    (value : JsValue) → (canonicalJson h value).isOk = !hasBigint value
  | .null => rfl
  | .undefined => rfl
  | .bool _ => rfl
  | .number (.finite _) => rfl
  | .number .posInf => rfl
  | .number .negInf => rfl
  | .number .nan => rfl
  | .negZero => rfl
  | .bigint _ => rfl
  | .str _ => rfl
  | .symbol => rfl
  | .function => rfl
  | .date _ => rfl
  | .buffer bytes => by
      rw [canonicalJson, sortedTexts_isOk, bufferMembers_isOk]
      rfl
  | .arr items => by
      rw [canonicalJson, isOk_map, canonicalItems_isOk h items]
      rfl
  | .obj members => by
      rw [canonicalJson, sortedTexts_isOk, canonicalMembers_isOk h members]
      rfl

theorem canonicalItems_isOk (h : Host) : (items : List JsValue) →
    (canonicalItems h items).isOk = !hasBigintItem items
  | [] => rfl
  | item :: rest => by
      have hitem := canonicalJson_isOk h item
      have hrest := canonicalItems_isOk h rest
      rw [canonicalItems, hasBigintItem, Bool.not_or, ← hitem, ← hrest]
      cases canonicalJson h item with
      | error thrown => rfl
      | ok text => exact isOk_map _ _

theorem canonicalMembers_isOk (h : Host) : (members : List (Text × JsValue)) →
    (canonicalMembers h members).all (fun m => m.2.isOk) = !hasBigintMember members
  | [] => rfl
  | (key, value) :: rest => by
      have hvalue := canonicalJson_isOk h value
      have hrest := canonicalMembers_isOk h rest
      rw [canonicalMembers, hasBigintMember, Bool.not_or, ← hvalue, ← hrest]
      rfl

end

/-! ## A call -/

/-- The text whose content is checked. -/
def contentText (h : Host) (input : EnqueueEmailInput) : String :=
  let text := ((input.payload.getD []).find? (fun m => decide (m.1 = ascii "text"))).map Prod.snd
  input.subject ++ " " ++ (match text with
      | some value => if Canonical.truthy value then h.displayText value else ""
      | none => "")

/-- `/^[A-Za-z0-9_.:-]+$/` for one character. -/
def isKeyChar (c : Char) : Bool :=
  c.isAlphanum || c == '_' || c == '.' || c == ':' || c == '-'

def validKey (key : String) : Bool :=
  decide (8 ≤ utf16Length key) && decide (utf16Length key ≤ 255)
    && !key.toList.isEmpty && key.toList.all isKeyChar

def scopedKey (senderWallet key : String) : String :=
  senderWallet ++ ":" ++ key

/-- Whether a delivery is the notification of an input, for a recipient that
    may be `undefined`. -/
def sameNotification (h : Host) (existing : EmailDelivery)
    (input : EnqueueEmailInput) (recipient : Option String) :
    Except Thrown Bool :=
  match payloadText h existing.payload with
  | .error thrown => .error thrown
  | .ok existingText =>
    match payloadText h input.payload with
    | .error thrown => .error thrown
    | .ok inputText => .ok (decide (existing.invoiceId = input.invoiceId)
          && decide (some (h.toLowerCase existing.recipientEmail) = recipient.map h.toLowerCase)
          && decide (existing.emailType = input.emailType)
          && decide (existing.subject = input.subject)
          && decide (existingText = inputText))

/-- The input with its scoped key, and what the validation made of the
    recipient. -/
structure Request where
  input : EnqueueEmailInput
  normalized : Option String

def Request.recipient (req : Request) : String :=
  orElse req.normalized req.input.recipientEmail

/-- Where a call stands, with what its last await gave. -/
inductive Phase where
  | ready
  | lookedUp (normalized : Option String) (key : String) (existing : Option EmailDelivery)
  | listed (req : Request) (existingDeliveries : List EmailDelivery)
  | lookedAgain (req : Request) (existingDeliveries : List EmailDelivery)
      (existing : Option EmailDelivery)
  | inserted (req : Request) (delivery : EmailDelivery) (created : Bool)
  | recovering (req : Request) (error : Thrown) (existing : Option EmailDelivery)
  | done (outcome : Except Thrown EnqueueResult)

/-- Calls by number.  `created` notes the calls that created a delivery, with
    its id, and `sends` the calls that recorded a wallet send. -/
structure State where
  store : MemoryEmailDeliveryStorage
  phase : Nat → Phase
  created : List (Nat × String)
  sends : List Nat

def State.new : State := ⟨.new, fun _ => .ready, [], []⟩

def State.set (s : State) (call : Nat) (phase : Phase) : State :=
  { s with phase := Function.update s.phase call phase }

def Phase.failed (reason : Failure) : Phase := .done (.ok (.failure reason))

def rateChecked (env : Env) (req : Request) (s : State) : Phase :=
  if !env.rate.allowed then .failed (.rateLimited env.rate)
  else .listed req (s.store.listDeliveries
    { invoiceId := some req.input.invoiceId })

def begun (h : Host) (input : EnqueueEmailInput) (env : Env) (s : State) :
    Phase :=
  let val := h.validateRecipient input.recipientEmail
  if !val.valid then .failed (.invalidRecipient val.error)
  else
    let contentCheck := h.validateContent (contentText h input)
    if !contentCheck.valid then .failed (.spamContent contentCheck.error)
    else
      match input.dedupeKey with
      | none => rateChecked env ⟨input, val.normalized⟩ s
      | some raw =>
        let key := JsText.trim raw
        if !validKey key then .failed .dedupeKeyInvalid
        else .lookedUp val.normalized key (s.store.getDeliveryByDedupeKey
          (scopedKey input.senderWallet key))

/-- The answer where a delivery with the key was found. -/
def settled (h : Host) (existing : EmailDelivery) (input : EnqueueEmailInput)
    (recipient : Option String) : Phase :=
  match sameNotification h existing input recipient with
  | .error thrown => .done (.error thrown)
  | .ok true => .done (.ok (.success existing))
  | .ok false => .failed .conflict

def Request.stored (cfg : Config) (req : Request) : EnqueueEmailInput :=
  let maxAttempts := req.input.maxAttempts.getD 0
  { req.input with
    recipientEmail := req.recipient
    maxAttempts := some (if maxAttempts = 0 ∨ maxAttempts = .nan
      then cfg.defaultMaxAttempts else maxAttempts) }

/-- The quota, the breaker and the insert. -/
def reserved (cfg : Config) (env : Env) (req : Request) (s : State) (call : Nat) : State :=
  if !env.quota.allowed then s.set call (.failed (.quota env.quota))
  else
    let initialStatus : EmailDeliveryStatus :=
      if env.breakerTripped then .paused else .pending
    let input := req.stored cfg
    if (nonEmpty input.dedupeKey).isSome then
      let (store, delivery, created) := s.store.createDeliveryWithDedupe input
        initialStatus env.uuid env.now
      { s.set call (.inserted req delivery created) with
        store
        created := if created then s.created ++ [(call, delivery.id)]
          else s.created }
    else
      let (store, delivery) := s.store.createDelivery input initialStatus env.uuid env.now
      { s.set call (.inserted req delivery true) with
        store
        created := s.created ++ [(call, delivery.id)] }

/-- The cap, and the second look at the key. -/
def counted (cfg : Config) (env : Env) (req : Request)
    (existingDeliveries : List EmailDelivery) (s : State) (call : Nat) :
    State :=
  if cfg.maxEmailsPerInvoice.le (.ofNat existingDeliveries.length) then
    s.set call (.failed (.invoiceLimit cfg.maxEmailsPerInvoice))
  else
    match nonEmpty req.input.dedupeKey with
    | some key => s.set call (.lookedAgain req existingDeliveries
        (s.store.getDeliveryByDedupeKey key))
    | none => reserved cfg env req s call

/-- The wallet send, and the answer. -/
def recorded (delivery : EmailDelivery) (s : State) (call : Nat) : State :=
  { s.set call (.done (.ok (.success delivery))) with
    sends := s.sends ++ [call] }

/-- The last comparison. -/
def compared (h : Host) (req : Request) (delivery : EmailDelivery)
    (created : Bool) (s : State) (call : Nat) : State :=
  match nonEmpty req.input.dedupeKey with
  | none => recorded delivery s call
  | some key =>
    match sameNotification h delivery req.input (some req.recipient) with
    | .error thrown => s.set call (.recovering req thrown (s.store.getDeliveryByDedupeKey key))
    | .ok false => s.set call (.failed .conflict)
    | .ok true =>
      if created then recorded delivery s call
      else s.set call (.done (.ok (.success delivery)))

/-- One step of a call: a call that is done stays as it is. -/
def advance (h : Host) (cfg : Config) (input : EnqueueEmailInput) (env : Env)
    (s : State) (call : Nat) : State :=
  match s.phase call with
  | .ready => s.set call (begun h input env s)
  | .lookedUp normalized _ (some existing) => s.set call (settled h existing input normalized)
  | .lookedUp normalized key none =>
    s.set call (rateChecked env
      ⟨{ input with dedupeKey := some (scopedKey input.senderWallet key) }, normalized⟩ s)
  | .listed req existingDeliveries => counted cfg env req existingDeliveries s call
  | .lookedAgain req _ (some existing) =>
    s.set call (settled h existing req.input (some req.recipient))
  | .lookedAgain req _ none => reserved cfg env req s call
  | .inserted req delivery created => compared h req delivery created s call
  | .recovering req _ (some existing) =>
    s.set call (settled h existing req.input (some req.recipient))
  | .recovering _ error none => s.set call (.done (.error error))
  | .done _ => s

/-- A step of a call, or what the workers do to the store. -/
inductive Event where
  | advance (call : Nat) (env : Env)
  | update (id : String) (update : DeliveryUpdate) (now : Int)
  | resume (limit : Nat) (now : Int)

def step (h : Host) (cfg : Config) (inputs : Nat → EnqueueEmailInput) (s : State) : Event → State
  | .advance call env => advance h cfg (inputs call) env s call
  | .update id update now => { s with store := (s.store.updateDeliveryStatus id update now).1 }
  | .resume limit now => { s with store := (s.store.resumePausedDeliveries limit now).1 }

/-- `randomUUID()` gives no id that is in use. -/
def Fresh (s : State) : Event → Prop
  | .advance _ env => s.store.get env.uuid = none
  | _ => True

instance (s : State) : (e : Event) → Decidable (Fresh s e)
  | .advance _ env => inferInstanceAs (Decidable (s.store.get env.uuid = none))
  | .update _ _ _ => instDecidableTrue
  | .resume _ _ => instDecidableTrue

/-! ## The key of a call -/

/-- The key under which a call's delivery is stored. -/
def compositeKey (input : EnqueueEmailInput) : Option String :=
  input.dedupeKey.map (fun raw => scopedKey input.senderWallet (JsText.trim raw))

/-- The sender and the trimmed key of a call that has a key. -/
def scope (input : EnqueueEmailInput) : Option (String × String) :=
  input.dedupeKey.map (fun raw => (input.senderWallet, JsText.trim raw))

theorem first_sep_inj {c : Char} {as bs cs ds : List Char} (has : c ∉ as)
    (hbs : c ∉ bs) (h : as ++ c :: cs = bs ++ c :: ds) : as = bs ∧ cs = ds := by
  induction as generalizing bs with
  | nil =>
    cases bs with
    | nil => exact ⟨rfl, (cons.inj h).2⟩
    | cons b bs =>
      have hb : c = b := (cons.inj h).1
      exact absurd (hb ▸ (.head _)) hbs
  | cons a as ih =>
    cases bs with
    | nil =>
      have ha : a = c := (cons.inj h).1
      exact absurd (ha ▸ (.head _)) has
    | cons b bs =>
      obtain ⟨hab, hrest⟩ := cons.inj h
      obtain ⟨hasbs, hcd⟩ := ih (fun hmem => has (.tail _ hmem))
        (fun hmem => hbs (.tail _ hmem)) hrest
      exact ⟨by rw [hab, hasbs], hcd⟩

/-- **THE KEY NAMES ITS SCOPE**: a sender has no colon, so the first one ends
    it. -/
theorem scopedKey_inj {sender sender' key key' : String}
    (hs : ':' ∉ sender.toList) (hs' : ':' ∉ sender'.toList)
    (h : scopedKey sender key = scopedKey sender' key') : sender = sender' ∧ key = key' := by
  have hlist := congrArg String.toList h
  rw [scopedKey, scopedKey, toList_append, toList_append,
    toList_append, toList_append, List.append_assoc,
    List.append_assoc] at hlist
  obtain ⟨hsender, hkey⟩ := first_sep_inj (c := ':') hs hs' hlist
  exact ⟨toList_inj.mp hsender, toList_inj.mp hkey⟩

theorem compositeKey_inj {input input' : EnqueueEmailInput} (hs : ':' ∉ input.senderWallet.toList)
    (hs' : ':' ∉ input'.senderWallet.toList) :
    compositeKey input = compositeKey input' ↔ scope input = scope input' := by
  rw [compositeKey, compositeKey, scope, scope]
  cases input.dedupeKey with
  | none =>
    cases input'.dedupeKey with
    | none => exact iff_of_true rfl rfl
    | some raw' => exact ⟨nofun, nofun⟩
  | some raw =>
    cases input'.dedupeKey with
    | none => exact ⟨nofun, nofun⟩
    | some raw' =>
      rw [map_some, map_some, map_some, map_some, some_inj, some_inj, Prod.mk.injEq]
      constructor
      · exact scopedKey_inj hs hs'
      rintro ⟨hsender, hkey⟩
      rw [hsender, hkey]

theorem nonEmpty_compositeKey (input : EnqueueEmailInput) :
    nonEmpty (compositeKey input) = compositeKey input := by
  rw [compositeKey]
  cases input.dedupeKey with
  | none => rfl
  | some raw =>
    refine JsText.nonEmpty_eq_some.mpr ⟨rfl, ?_⟩
    intro (hempty : scopedKey input.senderWallet (JsText.trim raw) = "")
    have hmem : ':' ∈ (scopedKey input.senderWallet (JsText.trim raw)).toList := by
      rw [scopedKey, String.toList_append, String.toList_append]
      simp
    rw [hempty] at hmem
    cases hmem

/-! ## The property -/

/-- The recipient of a call. -/
def recipientOf (h : Host) (input : EnqueueEmailInput) : String :=
  orElse (h.validateRecipient input.recipientEmail).normalized input.recipientEmail

/-- No address is normalized to the empty text. -/
def Host.Normalizes (h : Host) : Prop :=
  ∀ address, (h.validateRecipient address).normalized ≠ some ""

/-- A delivery is the notification that an input asks for. -/
structure Matches (h : Host) (d : EmailDelivery) (input : EnqueueEmailInput) : Prop where
  invoiceId : d.invoiceId = input.invoiceId
  recipient : h.toLowerCase d.recipientEmail = h.toLowerCase (recipientOf h input)
  emailType : d.emailType = input.emailType
  subject : d.subject = input.subject
  payload : ∃ text, payloadText h d.payload = .ok text ∧ payloadText h input.payload = .ok text

theorem Matches.of_core {h : Host} {d row : EmailDelivery}
    {input : EnqueueEmailInput} (hm : Matches h d input)
    (hcore : row.core = d.core) : Matches h row input := by
  have hrecipient : row.recipientEmail = d.recipientEmail := by
    show row.core.recipientEmail = d.core.recipientEmail
    rw [hcore]
  have htype : row.emailType = d.emailType := by
    show row.core.emailType = d.core.emailType
    rw [hcore]
  have hsubject : row.subject = d.subject := by
    show row.core.subject = d.core.subject
    rw [hcore]
  exact
    { invoiceId := (invoiceId_of_core hcore).trans hm.invoiceId
      recipient := by rw [hrecipient, hm.recipient]
      emailType := htype.trans hm.emailType
      subject := hsubject.trans hm.subject
      payload := by
        rw [payload_of_core hcore]
        exact hm.payload }

/-- A payload without a canonical text. -/
def Unwritable (h : Host) (payload : Option Payload) : Prop :=
  ∃ thrown, payloadText h payload = .error thrown

/-- **WITHOUT A CANONICAL TEXT** is a payload with a `BigInt` in it. -/
theorem unwritable_iff (h : Host) (payload : Option Payload) :
    Unwritable h payload ↔ hasBigintMember (payload.getD []) = true := by
  have hok : (payloadText h payload).isOk = !hasBigintMember (payload.getD []) :=
    canonicalJson_isOk h (.obj (payload.getD []))
  rw [Unwritable]
  cases htext : payloadText h payload with
  | error thrown =>
    rw [htext] at hok
    refine iff_of_true ⟨thrown, rfl⟩ ?_
    cases hbig : hasBigintMember (payload.getD []) with
    | true => rfl
    | false =>
      rw [hbig] at hok
      cases hok
  | ok text =>
    rw [htext] at hok
    refine iff_of_false (fun hex => nomatch hex.choose_spec) ?_
    intro hyes
    rw [hyes] at hok
    cases hok

/-- A refusal by the validation, the invoice cap, the rate limit or the
    quota. -/
def Failure.Early : Failure → Prop
  | conflict => False
  | rateLimited check => check.allowed = false
  | quota check => check.allowed = false
  | _ => True

/-- A call that ended was refused early, succeeded, or found a conflict. -/
def Answered (s : State) (call : Nat) : Prop :=
  ∀ outcome, s.phase call = .done outcome → (∃ d, outcome = .ok (.success d))
      ∨ ∃ reason, outcome = .ok (.failure reason)
        ∧ (reason.Early ∨ reason.code = "NOTIFICATION_DEDUPE_KEY_CONFLICT")

/-- The calls with one sender and one key. -/
def InScope (inputs : Nat → EnqueueEmailInput) (key : String × String) (call : Nat) : Bool :=
  decide (scope (inputs call) = some key)

/-- What deduplication promises of a state. -/
structure Deduplicated (h : Host) (inputs : Nat → EnqueueEmailInput) (s : State) : Prop where
  one_created : ∀ key, (s.created.filter (fun c => InScope inputs key c.1)).length ≤ 1
  one_send : ∀ key, (s.sends.filter (InScope inputs key)).length ≤ 1
  success : ∀ call key d, scope (inputs call) = some key → s.phase call = .done (.ok (.success d)) →
    (∃ creator, (creator, d.id) ∈ s.created ∧ scope (inputs creator) = some key)
    ∧ ∃ row, s.store.get d.id = some row ∧ Matches h row (inputs call)
  answered : ∀ call key, scope (inputs call) = some key → ¬ Unwritable h (inputs call).payload →
    (∀ creator id, (creator, id) ∈ s.created → scope (inputs creator) = some key →
      ¬ Unwritable h (inputs creator).payload) → Answered s call
  apart : ∀ call call' d d', s.phase call = .done (.ok (.success d)) →
    s.phase call' = .done (.ok (.success d')) → d.id = d'.id →
    scope (inputs call) = scope (inputs call') ∧ (scope (inputs call) = none → call = call')

/-! ## The invariant -/

/-- A copy of a stored delivery, up to its progress. -/
def Stored (store : MemoryEmailDeliveryStorage) (d : EmailDelivery) (key : Option String) : Prop :=
  d.dedupeKey = key ∧ ∃ row, store.get d.id = some row ∧ row.core = d.core

/-- How far a call is: before its insert, after it, at its end. -/
def Phase.stage : Phase → Nat
  | inserted _ _ _ => 1
  | recovering _ _ _ => 1
  | done _ => 2
  | _ => 0

/-- The request of a call. -/
def requestOf (h : Host) (input : EnqueueEmailInput) : Request :=
  ⟨{ input with dedupeKey := compositeKey input },
    (h.validateRecipient input.recipientEmail).normalized⟩

def Throws (h : Host) (inputs : Nat → EnqueueEmailInput) (s : State) (call : Nat) : Prop :=
  compositeKey (inputs call) ≠ none ∧ ∃ d, Stored s.store d (compositeKey (inputs call))
      ∧ (Unwritable h d.payload ∨ Unwritable h (inputs call).payload)

def OutcomeOk (h : Host) (inputs : Nat → EnqueueEmailInput) (s : State)
    (call : Nat) : Except Thrown EnqueueResult → Prop
  | .ok (.success d) => Stored s.store d (compositeKey (inputs call))
      ∧ (compositeKey (inputs call) ≠ none → Matches h d (inputs call))
      ∧ (compositeKey (inputs call) = none → (call, d.id) ∈ s.created)
  | .ok (.failure reason) => reason.Early ∨ reason = .conflict
  | .error _ => Throws h inputs s call

/-- What a phase says is so. -/
def PhaseOk (h : Host) (inputs : Nat → EnqueueEmailInput) (s : State) (call : Nat) : Phase → Prop
  | .ready => True
  | .lookedUp normalized key existing =>
    normalized = (requestOf h (inputs call)).normalized ∧ compositeKey (inputs call)
        = some (scopedKey (inputs call).senderWallet key)
      ∧ ∀ d ∈ existing, Stored s.store d (compositeKey (inputs call))
  | .listed req _ => req = requestOf h (inputs call)
  | .lookedAgain req _ existing => req = requestOf h (inputs call)
      ∧ compositeKey (inputs call) ≠ none
      ∧ ∀ d ∈ existing, Stored s.store d (compositeKey (inputs call))
  | .inserted req d created => req = requestOf h (inputs call)
      ∧ Stored s.store d (compositeKey (inputs call))
      ∧ (created = true → (call, d.id) ∈ s.created)
      ∧ (compositeKey (inputs call) = none → created = true)
  | .recovering req _ existing => req = requestOf h (inputs call) ∧ Throws h inputs s call
      ∧ ∀ d ∈ existing, Stored s.store d (compositeKey (inputs call))
  | .done outcome => OutcomeOk h inputs s call outcome

/-- The stored deliveries are the created ones, one for each key. -/
structure Inv (h : Host) (inputs : Nat → EnqueueEmailInput) (s : State) : Prop where
  ids : ∀ id row, s.store.get id = some row → row.id = id
  unique : ∀ id id' row row' key, s.store.get id = some row →
    s.store.get id' = some row' → row.dedupeKey = some key →
    row'.dedupeKey = some key → id = id'
  origin : ∀ id row, s.store.get id = some row → ∃ call, (call, id) ∈ s.created
  made : ∀ c ∈ s.created, (∃ row, s.store.get c.2 = some row
      ∧ row.dedupeKey = compositeKey (inputs c.1)
      ∧ row.payload = (inputs c.1).payload)
    ∧ 1 ≤ (s.phase c.1).stage
  once : s.created.Pairwise (fun c c' => c.1 ≠ c'.1 ∧ c.2 ≠ c'.2)
  phases : ∀ call, PhaseOk h inputs s call (s.phase call)
  sent : ∀ call ∈ s.sends, (∃ id, (call, id) ∈ s.created) ∧ (s.phase call).stage = 2
  sendsOnce : s.sends.Nodup

section Invariant

variable {h : Host} {cfg : Config} {inputs : Nat → EnqueueEmailInput}
  {s s' : State} {call : Nat}

theorem Inv.new (h : Host) (inputs : Nat → EnqueueEmailInput) : Inv h inputs .new where
  ids _ _ hrow := nomatch hrow
  unique _ _ _ _ _ hrow := nomatch hrow
  origin _ _ hrow := nomatch hrow
  made _ hmem := nomatch hmem
  once := Pairwise.nil
  phases _ := trivial
  sent _ hmem := nomatch hmem
  sendsOnce := Pairwise.nil

/-- What is kept of the deliveries and the created calls keeps what a phase
    says. -/
structure Keeps (s s' : State) : Prop where
  stored : ∀ d key, Stored s.store d key → Stored s'.store d key
  created : s.created ⊆ s'.created

theorem Throws.mono (hkeeps : Keeps s s') (ht : Throws h inputs s call) :
    Throws h inputs s' call := by
  obtain ⟨hkey, d, hd, hthrows⟩ := ht
  exact ⟨hkey, d, hkeeps.stored d _ hd, hthrows⟩

variable {phase : Phase} {d : EmailDelivery}

theorem PhaseOk.mono (hkeeps : Keeps s s') (hphase : PhaseOk h inputs s call phase) :
    PhaseOk h inputs s' call phase := by
  have hstored : ∀ existing : Option EmailDelivery,
      (∀ d ∈ existing, Stored s.store d (compositeKey (inputs call))) →
      ∀ d ∈ existing, Stored s'.store d (compositeKey (inputs call)) :=
    fun _ hall d hd => hkeeps.stored d _ (hall d hd)
  cases phase with
  | ready => trivial
  | lookedUp normalized key existing => exact ⟨hphase.1, hphase.2.1, hstored existing hphase.2.2⟩
  | listed req existingDeliveries => exact hphase
  | lookedAgain req existingDeliveries existing =>
    exact ⟨hphase.1, hphase.2.1, hstored existing hphase.2.2⟩
  | inserted req d created =>
    exact ⟨hphase.1, hkeeps.stored d _ hphase.2.1,
      fun hc => hkeeps.created (hphase.2.2.1 hc), hphase.2.2.2⟩
  | recovering req error existing =>
    exact ⟨hphase.1, hphase.2.1.mono hkeeps, hstored existing hphase.2.2⟩
  | done outcome =>
    match outcome, hphase with
    | .ok (.success d), ⟨hd, hmatches, hmade⟩ =>
      exact ⟨hkeeps.stored d _ hd, hmatches, fun hnone => hkeeps.created (hmade hnone)⟩
    | .ok (.failure _), hreason => exact hreason
    | .error _, hthrows => exact Throws.mono hkeeps hthrows

theorem phase_set_self (s : State) (call : Nat) (phase : Phase) :
    (s.set call phase).phase call = phase := Function.update_self ..

theorem phase_set_of_ne (s : State) {call call' : Nat} (phase : Phase)
    (hne : call' ≠ call) : (s.set call phase).phase call' = s.phase call' :=
  Function.update_of_ne hne ..

theorem phases_set (hkeeps : Keeps s s') (hphases : ∀ call, PhaseOk h inputs s call (s.phase call))
    (hs' : s'.phase = (s.set call phase).phase)
    (hok : PhaseOk h inputs s' call phase) (call' : Nat) :
    PhaseOk h inputs s' call' (s'.phase call') := by
  rw [hs']
  by_cases heq : call' = call
  · subst heq
    rw [phase_set_self]
    exact hok
  rw [phase_set_of_ne s phase heq]
  exact (hphases call').mono hkeeps

theorem Inv.move (hinv : Inv h inputs s) (hok : PhaseOk h inputs s call phase)
    (hstage : (s.phase call).stage ≤ phase.stage)
    (hlive : (s.phase call).stage < 2) : Inv h inputs (s.set call phase) := by
  have hkeeps : Keeps s (s.set call phase) := ⟨fun _ _ hd => hd, fun _ hc => hc⟩
  exact
    { ids := hinv.ids
      unique := hinv.unique
      origin := hinv.origin
      made := by
        intro c hc
        obtain ⟨hrow, hpast⟩ := hinv.made c hc
        refine ⟨hrow, ?_⟩
        by_cases heq : c.1 = call
        · rw [heq, phase_set_self]
          rw [heq] at hpast
          exact hpast.trans hstage
        rw [phase_set_of_ne s phase heq]
        exact hpast
      once := hinv.once
      phases := phases_set hkeeps hinv.phases rfl (hok.mono hkeeps)
      sent := by
        intro c hc
        obtain ⟨hmade, hdone⟩ := hinv.sent c hc
        refine ⟨hmade, ?_⟩
        have hne : c ≠ call := by
          rintro rfl
          exact absurd hdone hlive.ne
        rw [phase_set_of_ne s phase hne]
        exact hdone
      sendsOnce := hinv.sendsOnce }

theorem Inv.insert (hinv : Inv h inputs s) {id : String}
    (hid : d.id = id) (hkey : d.dedupeKey = compositeKey (inputs call))
    (hpayload : d.payload = (inputs call).payload) (hfresh : s.store.get id = none)
    (hnone : ∀ id row key, s.store.get id = some row →
      compositeKey (inputs call) = some key → row.dedupeKey ≠ some key)
    (hstage : (s.phase call).stage = 0) : Inv h inputs
      { s.set call (.inserted (requestOf h (inputs call)) d true) with
        store := ⟨s.store.deliveries.set id d⟩
        created := s.created ++ [(call, id)] } := by
  set s' : State :=
    { s.set call (.inserted (requestOf h (inputs call)) d true) with
      store := ⟨s.store.deliveries.set id d⟩
      created := s.created ++ [(call, id)] } with hs'
  have hget : ∀ id', s'.store.get id' = if id = id' then some d else s.store.get id' :=
    fun id' => get_set s.store id d id'
  have hself : s'.store.get id = some d := by rw [hget, if_pos rfl]
  have hother : ∀ {id' row}, s.store.get id' = some row → s'.store.get id' = some row := by
    intro id' row hrow
    have hne : id ≠ id' := by
      rintro rfl
      cases hfresh.symm.trans hrow
    rw [hget, if_neg hne]
    exact hrow
  have hback : ∀ {id' row}, s'.store.get id' = some row →
      id' = id ∧ row = d ∨ s.store.get id' = some row := by
    intro id' row hrow
    rw [hget] at hrow
    by_cases heq : id = id'
    · rw [if_pos heq] at hrow
      exact .inl ⟨heq.symm, (some.inj hrow).symm⟩
    rw [if_neg heq] at hrow
    exact .inr hrow
  have hkeeps : Keeps s s' := by
    refine ⟨?_, subset_append_left _ _⟩
    rintro d' key ⟨hdkey, row, hrow, hcore⟩
    exact ⟨hdkey, row, hother hrow, hcore⟩
  have hfirst : ∀ c ∈ s.created, c.1 ≠ call := by
    intro c hc heq
    have hpast := (hinv.made c hc).2
    rw [heq, hstage] at hpast
    exact absurd hpast (by decide)
  have hnew : ∀ c ∈ s.created, c.2 ≠ id := by
    intro c hc heq
    obtain ⟨row, hrow, -⟩ := (hinv.made c hc).1
    rw [heq, hfresh] at hrow
    cases hrow
  exact
    { ids := by
        intro id' row hrow
        rcases hback hrow with ⟨rfl, rfl⟩ | hold
        · exact hid
        · exact hinv.ids id' row hold
      unique := by
        intro id₁ id₂ row₁ row₂ key h₁ h₂ hk₁ hk₂
        rcases hback h₁ with ⟨rfl, rfl⟩ | hold₁
        · rcases hback h₂ with ⟨rfl, -⟩ | hold₂
          · rfl
          · exact absurd hk₂ (hnone id₂ row₂ key hold₂ (hkey ▸ hk₁))
        rcases hback h₂ with ⟨rfl, rfl⟩ | hold₂
        · exact absurd hk₁ (hnone id₁ row₁ key hold₁ (hkey ▸ hk₂))
        · exact hinv.unique id₁ id₂ row₁ row₂ key hold₁ hold₂ hk₁ hk₂
      origin := by
        intro id' row hrow
        rcases hback hrow with ⟨rfl, -⟩ | hold
        · exact ⟨call, mem_append_right _ (.head _)⟩
        obtain ⟨c, hc⟩ := hinv.origin id' row hold
        exact ⟨c, mem_append_left _ hc⟩
      made := by
        intro c hc
        rcases mem_append.mp hc with hold | hlast
        · obtain ⟨⟨row, hrow, hrest⟩, hpast⟩ := hinv.made c hold
          refine ⟨⟨row, hother hrow, hrest⟩, ?_⟩
          rw [hs']
          dsimp only
          rw [phase_set_of_ne s _ (hfirst c hold)]
          exact hpast
        · rw [mem_singleton.mp hlast]
          refine ⟨⟨d, hself, hkey, hpayload⟩, ?_⟩
          rw [hs']
          dsimp only
          rw [phase_set_self]
          exact le_rfl
      once := by
        refine pairwise_append.mpr ⟨hinv.once, pairwise_singleton _ _, ?_⟩
        intro c hc c' hc'
        rw [mem_singleton.mp hc']
        exact ⟨hfirst c hc, hnew c hc⟩
      phases := by
        refine phases_set hkeeps hinv.phases rfl ⟨rfl, ⟨hkey, d, ?_, rfl⟩,
          fun _ => ?_, fun _ => rfl⟩
        · rw [hid]
          exact hself
        rw [hid]
        exact mem_append_right _ (.head _)
      sent := by
        intro c hc
        obtain ⟨⟨id', hmade⟩, hdone⟩ := hinv.sent c hc
        refine ⟨⟨id', mem_append_left _ hmade⟩, ?_⟩
        have hne : c ≠ call := hfirst (c, id') hmade
        rw [hs']
        dsimp only
        rw [phase_set_of_ne s _ hne]
        exact hdone
      sendsOnce := hinv.sendsOnce }

theorem Inv.record (hinv : Inv h inputs s) (hok : OutcomeOk h inputs s call (.ok (.success d)))
    (hmade : (call, d.id) ∈ s.created) (hstage : (s.phase call).stage < 2) :
    Inv h inputs (recorded d s call) := by
  have hmoved : Inv h inputs (s.set call (.done (.ok (.success d)))) :=
    hinv.move hok (le_of_lt hstage) hstage
  have hdone : ((recorded d s call).phase call).stage = 2 := by
    rw [recorded]
    dsimp only
    rw [phase_set_self]
    rfl
  exact
    { ids := hmoved.ids
      unique := hmoved.unique
      origin := hmoved.origin
      made := hmoved.made
      once := hmoved.once
      phases := fun call' => (hmoved.phases call').mono ⟨fun _ _ hd => hd, fun _ hc => hc⟩
      sent := by
        intro c hc
        rcases mem_append.mp hc with hold | hlast
        · exact hmoved.sent c hold
        rw [mem_singleton.mp hlast]
        exact ⟨⟨d.id, hmade⟩, hdone⟩
      sendsOnce := by
        refine Nodup.append hinv.sendsOnce (nodup_singleton _) ?_
        intro c hc hc'
        rw [mem_singleton.mp hc'] at hc
        exact absurd (hinv.sent call hc).2 hstage.ne }

theorem Inv.recore (hinv : Inv h inputs s) {store : MemoryEmailDeliveryStorage}
    (hcore : ∀ id, (store.get id).map EmailDelivery.core
      = (s.store.get id).map EmailDelivery.core) : Inv h inputs { s with store } := by
  have hback : ∀ {id row}, store.get id = some row →
      ∃ old, s.store.get id = some old ∧ old.core = row.core := by
    intro id row hrow
    have hmap := hcore id
    rw [hrow, map_some] at hmap
    exact map_eq_some_iff.mp hmap.symm
  have hforth : ∀ {id old}, s.store.get id = some old →
      ∃ row, store.get id = some row ∧ row.core = old.core := by
    intro id old hold
    have hmap := hcore id
    rw [hold, map_some] at hmap
    exact map_eq_some_iff.mp hmap
  have hkeeps : Keeps s { s with store } := by
    refine ⟨?_, fun _ hc => hc⟩
    rintro d key ⟨hkey, old, hold, hsame⟩
    obtain ⟨row, hrow, hrowcore⟩ := hforth hold
    exact ⟨hkey, row, hrow, hrowcore.trans hsame⟩
  exact
    { ids := by
        intro id row hrow
        obtain ⟨old, hold, hsame⟩ := hback hrow
        exact (id_of_core hsame).symm.trans (hinv.ids id old hold)
      unique := by
        intro id₁ id₂ row₁ row₂ key h₁ h₂ hk₁ hk₂
        obtain ⟨old₁, hold₁, hsame₁⟩ := hback h₁
        obtain ⟨old₂, hold₂, hsame₂⟩ := hback h₂
        exact hinv.unique id₁ id₂ old₁ old₂ key hold₁ hold₂ ((dedupeKey_of_core hsame₁).trans hk₁)
          ((dedupeKey_of_core hsame₂).trans hk₂)
      origin := by
        intro id row hrow
        obtain ⟨old, hold, -⟩ := hback hrow
        exact hinv.origin id old hold
      made := by
        intro c hc
        obtain ⟨⟨old, hold, hkey, hpayload⟩, hpast⟩ := hinv.made c hc
        obtain ⟨row, hrow, hsame⟩ := hforth hold
        exact ⟨⟨row, hrow, (dedupeKey_of_core hsame).trans hkey,
          (payload_of_core hsame).trans hpayload⟩, hpast⟩
      once := hinv.once
      phases := fun call => (hinv.phases call).mono hkeeps
      sent := hinv.sent
      sendsOnce := hinv.sendsOnce }

variable {input : EnqueueEmailInput} {recipient : Option String} {d : EmailDelivery}

/-- A delivery taken for the same notification is one. -/
theorem matches_of_same (hrecipient : ∀ t ∈ recipient, t = recipientOf h input)
    (hsame : sameNotification h d input recipient = .ok true) : Matches h d input := by
  rw [sameNotification] at hsame
  cases hold : payloadText h d.payload with
  | error thrown =>
    rw [hold] at hsame
    cases hsame
  | ok text =>
    cases hnew : payloadText h input.payload with
    | error thrown =>
      rw [hold, hnew] at hsame
      cases hsame
    | ok text' =>
      rw [hold, hnew] at hsame
      have hall := Except.ok.inj hsame
      simp only [Bool.and_eq_true, decide_eq_true_eq] at hall
      obtain ⟨⟨⟨⟨hinvoice, hrec⟩, htype⟩, hsubject⟩, htext⟩ := hall
      cases recipient with
      | none => cases hrec
      | some t =>
        rw [hrecipient t rfl] at hrec
        exact ⟨hinvoice, some.inj hrec, htype, hsubject,
          text, hold, hnew.trans (congrArg Except.ok htext.symm)⟩

/-- The comparison throws on a payload without a canonical text alone. -/
theorem unwritable_of_same {thrown : Thrown}
    (hsame : sameNotification h d input recipient = .error thrown) :
    Unwritable h d.payload ∨ Unwritable h input.payload := by
  rw [sameNotification] at hsame
  cases hold : payloadText h d.payload with
  | error thrown' => exact .inl ⟨thrown', hold⟩
  | ok text =>
    cases hnew : payloadText h input.payload with
    | error thrown' => exact .inr ⟨thrown', hnew⟩
    | ok text' =>
      rw [hold, hnew] at hsame
      cases hsame

/-- **THE ANSWER TO A FOUND DELIVERY** is a match, a conflict, or the error of
    a payload without a canonical text. -/
theorem settled_ok (hd : Stored s.store d (compositeKey (inputs call)))
    (hkey : compositeKey (inputs call) ≠ none)
    (hrecipient : ∀ t ∈ recipient, t = recipientOf h input)
    (hinput : input = inputs call ∨ input = (requestOf h (inputs call)).input) :
    PhaseOk h inputs s call (settled h d input recipient)
      ∧ (settled h d input recipient).stage = 2 := by
  have hpayload : input.payload = (inputs call).payload := by
    rcases hinput with rfl | rfl <;> rfl
  rw [settled]
  cases hsame : sameNotification h d input recipient with
  | error thrown =>
    refine ⟨⟨hkey, d, hd, ?_⟩, rfl⟩
    rw [← hpayload]
    exact unwritable_of_same hsame
  | ok same =>
    cases same with
    | false => exact ⟨.inr rfl, rfl⟩
    | true =>
      have hm := matches_of_same hrecipient hsame
      refine ⟨⟨hd, fun _ => ?_, fun hnone => absurd hnone hkey⟩, rfl⟩
      rcases hinput with rfl | rfl
      · exact hm
      · exact ⟨hm.invoiceId, hm.recipient, hm.emailType, hm.subject, hm.payload⟩

/-! ## The steps -/

theorem Inv.stored_of_lookup (hinv : Inv h inputs s) {key : String} {d : EmailDelivery}
    (hd : s.store.getDeliveryByDedupeKey key = some d) : Stored s.store d (some key) := by
  obtain ⟨hkey, id, hrow⟩ := getDeliveryByDedupeKey_some hd
  refine ⟨hkey, d, ?_, rfl⟩
  rw [hinv.ids id d hrow]
  exact hrow

theorem rateChecked_ok (env : Env) {req : Request} (hreq : req = requestOf h (inputs call)) :
    PhaseOk h inputs s call (rateChecked env req s) := by
  rw [rateChecked]
  cases hallowed : env.rate.allowed with
  | false => exact .inl hallowed
  | true => exact hreq

theorem begun_ok (hinv : Inv h inputs s) (env : Env) :
    PhaseOk h inputs s call (begun h (inputs call) env s) := by
  rw [begun]
  dsimp only
  cases (h.validateRecipient (inputs call).recipientEmail).valid with
  | false => exact .inl trivial
  | true =>
    cases (h.validateContent (contentText h (inputs call))).valid with
    | false => exact .inl trivial
    | true =>
      cases hraw : (inputs call).dedupeKey with
      | none =>
        refine rateChecked_ok env ?_
        rw [requestOf, compositeKey, hraw, Option.map_none, ← hraw]
      | some raw =>
        cases hvalid : validKey (JsText.trim raw) with
        | false =>
          dsimp only
          rw [hvalid]
          exact .inl trivial
        | true =>
          dsimp only
          rw [hvalid]
          have hkey : compositeKey (inputs call)
              = some (scopedKey (inputs call).senderWallet (JsText.trim raw)) := by
            rw [compositeKey, hraw, Option.map_some]
          refine ⟨rfl, hkey, ?_⟩
          intro d hd
          rw [hkey]
          exact hinv.stored_of_lookup hd

/-- The quota and the insert. -/
theorem Inv.reserved (hinv : Inv h inputs s) (cfg : Config) {env : Env}
    (hfresh : s.store.get env.uuid = none) (hstage : (s.phase call).stage = 0) :
    Inv h inputs (reserved cfg env (requestOf h (inputs call)) s call) := by
  have hlive : (s.phase call).stage < 2 := by
    rw [hstage]
    decide
  have hnonEmpty := nonEmpty_compositeKey (inputs call)
  rw [EmailQueue.reserved]
  cases hquota : env.quota.allowed with
  | false =>
    refine hinv.move (.inl hquota) ?_ hlive
    rw [hstage]
    exact zero_le _
  | true =>
    set input := (requestOf h (inputs call)).stored cfg with hinput
    have hkeyed : nonEmpty input.dedupeKey = compositeKey (inputs call) := hnonEmpty
    have hnew : s.store.existing input = none → ∀ id row key, s.store.get id = some row →
          compositeKey (inputs call) = some key →
          row.dedupeKey ≠ some key := by
      intro hnone id row key hrow hkey
      have hlookup := existing_of_key (s := s.store) (hkeyed.trans hkey)
      exact getDeliveryByDedupeKey_none (hlookup.symm.trans hnone) hrow
    rw [if_neg (by decide : ¬ ((!true) = true))]
    dsimp only
    cases hkey : compositeKey (inputs call) with
    | none =>
      have hnone := existing_of_no_key (s := s.store) (hkeyed.trans hkey)
      rw [hkeyed, hkey, if_neg (by decide), createDelivery_new hnone]
      exact hinv.insert rfl rfl rfl hfresh (hnew hnone) hstage
    | some key =>
      rw [hkeyed, hkey, if_pos (show (some key).isSome = true from rfl)]
      cases hexisting : s.store.existing input with
      | none =>
        rw [createDeliveryWithDedupe_new hexisting]
        exact hinv.insert rfl rfl rfl hfresh (hnew hexisting) hstage
      | some found =>
        rw [createDeliveryWithDedupe_old hexisting]
        have hlookup := existing_of_key
          (s := s.store) (hkeyed.trans hkey)
        have hstored := hinv.stored_of_lookup (hlookup.symm.trans hexisting)
        rw [← hkey] at hstored
        have hok : PhaseOk h inputs s call (.inserted (requestOf h (inputs call)) found false) :=
          ⟨rfl, hstored, nofun, fun hnone => nomatch hkey.symm.trans hnone⟩
        refine hinv.move hok ?_ hlive
        rw [hstage]
        exact zero_le _

/-- The cap, and the second look at the key. -/
theorem Inv.counted (hinv : Inv h inputs s) (cfg : Config) {env : Env}
    (existingDeliveries : List EmailDelivery) (hfresh : s.store.get env.uuid = none)
    (hstage : (s.phase call).stage = 0) : Inv h inputs (counted cfg env (requestOf h (inputs call))
      existingDeliveries s call) := by
  have hlive : (s.phase call).stage < 2 := by
    rw [hstage]
    decide
  have hzero : ∀ phase : Phase, (s.phase call).stage ≤ phase.stage := by
    intro phase
    rw [hstage]
    exact zero_le _
  rw [EmailQueue.counted]
  split
  · exact hinv.move (.inl trivial) (hzero _) hlive
  have hkeyed : nonEmpty (requestOf h (inputs call)).input.dedupeKey
      = compositeKey (inputs call) := nonEmpty_compositeKey (inputs call)
  rw [hkeyed]
  cases hkey : compositeKey (inputs call) with
  | none => exact hinv.reserved cfg hfresh hstage
  | some key =>
    refine hinv.move ⟨rfl, ?_, ?_⟩ (hzero _) hlive
    · rw [hkey]
      exact some_ne_none key
    intro d hd
    rw [hkey]
    exact hinv.stored_of_lookup hd

theorem Inv.compared (hinv : Inv h inputs s) {d : EmailDelivery} {created : Bool}
    (hphase : s.phase call = .inserted (requestOf h (inputs call)) d created) :
    Inv h inputs (compared h (requestOf h (inputs call)) d created s call) := by
  have hok := hinv.phases call
  rw [hphase] at hok
  obtain ⟨-, hd, hmade, hcreated⟩ := hok
  have hone : (s.phase call).stage = 1 := by rw [hphase]; rfl
  have hlive : (s.phase call).stage < 2 := by
    rw [hone]
    decide
  have hkeyed : nonEmpty (requestOf h (inputs call)).input.dedupeKey
      = compositeKey (inputs call) := nonEmpty_compositeKey (inputs call)
  rw [EmailQueue.compared, hkeyed]
  cases hkey : compositeKey (inputs call) with
  | none =>
    have hmem := hmade (hcreated hkey)
    exact hinv.record ⟨hd, fun hne => absurd hkey hne, fun _ => hmem⟩ hmem hlive
  | some key =>
    have hne : compositeKey (inputs call) ≠ none := by
      rw [hkey]
      exact some_ne_none key
    have hrecipient : ∀ t ∈ some (requestOf h (inputs call)).recipient,
        t = recipientOf h (requestOf h (inputs call)).input :=
      fun t ht => (some.inj ht).symm
    dsimp only
    cases hsame : sameNotification h d (requestOf h (inputs call)).input
        (some (requestOf h (inputs call)).recipient) with
    | error thrown =>
      refine hinv.move ⟨rfl, ⟨hne, d, hd, unwritable_of_same hsame⟩, ?_⟩ hone.le hlive
      intro found hfound
      rw [hkey]
      exact hinv.stored_of_lookup hfound
    | ok same =>
      cases same with
      | false => exact hinv.move (.inr rfl) (le_of_lt hlive) hlive
      | true =>
        have hm := matches_of_same hrecipient hsame
        have hout : OutcomeOk h inputs s call (.ok (.success d)) :=
          ⟨hd, fun _ => ⟨hm.invoiceId, hm.recipient, hm.emailType,
            hm.subject, hm.payload⟩, fun hnone => absurd hnone hne⟩
        cases created with
        | true => exact hinv.record hout (hmade rfl) hlive
        | false => exact hinv.move hout (le_of_lt hlive) hlive

/-- **THE STEP**: a step of a call keeps the invariant. -/
theorem Inv.advance (hinv : Inv h inputs s) (hnorm : h.Normalizes)
    (cfg : Config) {env : Env} (hfresh : s.store.get env.uuid = none) :
    Inv h inputs (advance h cfg (inputs call) env s call) := by
  have hok := hinv.phases call
  have hsettled : ∀ {d input recipient}, Stored s.store d (compositeKey (inputs call)) →
      compositeKey (inputs call) ≠ none →
      (∀ t ∈ recipient, t = recipientOf h input) →
      (input = inputs call ∨ input = (requestOf h (inputs call)).input) →
      (s.phase call).stage < 2 →
      Inv h inputs (s.set call (settled h d input recipient)) := by
    intro d input recipient hd hkey hrecipient hinput hlive
    obtain ⟨hphase, hstage⟩ := settled_ok hd hkey hrecipient hinput
    exact hinv.move hphase (by rw [hstage]; exact le_of_lt hlive) hlive
  rw [EmailQueue.advance]
  cases hphase : s.phase call with
  | ready =>
    refine hinv.move (begun_ok hinv env) ?_ ?_ <;> rw [hphase]
    · exact zero_le _
    · decide
  | lookedUp normalized key existing =>
    rw [hphase] at hok
    obtain ⟨hnormalized, hkey, hexisting⟩ := hok
    cases existing with
    | some d =>
      refine hsettled (hexisting d rfl) ?_ ?_ (.inl rfl) ?_
      · rw [hkey]
        exact some_ne_none _
      · intro t ht
        have hval : (h.validateRecipient (inputs call).recipientEmail).normalized = some t :=
          hnormalized.symm.trans ht
        have hne : t ≠ "" := fun h0 => hnorm _ (h0 ▸ hval)
        rw [recipientOf, hval, orElse, if_neg hne]
      rw [hphase]
      exact zero_lt_two
    | none =>
      have hreq : (⟨{ inputs call with
          dedupeKey := some (scopedKey (inputs call).senderWallet key) },
          normalized⟩ : Request) = requestOf h (inputs call) := by
        rw [hnormalized, ← hkey]
        rfl
      refine hinv.move (rateChecked_ok env hreq) ?_ ?_ <;> rw [hphase]
      · exact zero_le _
      · exact zero_lt_two
  | listed req existingDeliveries =>
    rw [hphase] at hok
    obtain rfl : req = requestOf h (inputs call) := hok
    exact hinv.counted cfg existingDeliveries hfresh (by rw [hphase]; rfl)
  | lookedAgain req existingDeliveries existing =>
    rw [hphase] at hok
    obtain ⟨rfl, hkey, hexisting⟩ := hok
    cases existing with
    | some d =>
      refine hsettled (hexisting d rfl) hkey (fun t ht => (some.inj ht).symm) (.inr rfl) ?_
      rw [hphase]
      exact zero_lt_two
    | none => exact hinv.reserved cfg hfresh (by rw [hphase]; rfl)
  | inserted req d created =>
    rw [hphase] at hok
    obtain rfl : req = requestOf h (inputs call) := hok.1
    exact hinv.compared hphase
  | recovering req error existing =>
    rw [hphase] at hok
    obtain ⟨rfl, hthrows, hexisting⟩ := hok
    cases existing with
    | some d =>
      refine hsettled (hexisting d rfl) hthrows.1 (fun t ht => (some.inj ht).symm) (.inr rfl) ?_
      rw [hphase]
      exact one_lt_two
    | none =>
      refine hinv.move hthrows ?_ ?_ <;> rw [hphase]
      · exact le_succ 1
      · exact one_lt_two
  | done outcome => exact hinv

theorem Inv.step (hinv : Inv h inputs s) (hnorm : h.Normalizes) {e : Event}
    (hfresh : Fresh s e) : Inv h inputs (step h cfg inputs s e) := by
  cases e with
  | advance call env => exact hinv.advance hnorm cfg hfresh
  | update id update now =>
    exact hinv.recore (core_updateDeliveryStatus _ _ _ _)
  | resume limit now =>
    exact hinv.recore (core_resumePausedDeliveries _ _ _)

/-! ## The theorem -/

theorem length_le_one {α : Type} {R : α → α → Prop} {l : List α}
    (hpair : l.Pairwise R) (hno : ∀ a ∈ l, ∀ b ∈ l, ¬ R a b) : l.length ≤ 1 := by
  match l, hpair, hno with
  | [], _, _ => exact zero_le 1
  | [_], _, _ => exact le_rfl
  | a :: b :: rest, hpair, hno =>
    have hab := (pairwise_cons.mp hpair).1 b (.head _)
    exact absurd hab (hno a (.head _) b (.tail _ (.head _)))

theorem Inv.created_apart (hinv : Inv h inputs s) {c c' : Nat × String}
    (hc : c ∈ s.created) (hc' : c' ∈ s.created) (hne : c ≠ c') : c.1 ≠ c'.1 ∧ c.2 ≠ c'.2 := by
  have : Std.Symm (fun c c' : Nat × String => c.1 ≠ c'.1 ∧ c.2 ≠ c'.2) :=
    ⟨fun _ _ hr => ⟨hr.1.symm, hr.2.symm⟩⟩
  exact hinv.once.forall hc hc' hne

section Property

variable (hinv : Inv h inputs s) (hsenders : ∀ call, ':' ∉ (inputs call).senderWallet.toList)

include hinv hsenders

theorem Inv.created_eq {key : String × String} {c c' : Nat × String}
    (hc : c ∈ s.created) (hc' : c' ∈ s.created) (hkey : scope (inputs c.1) = some key)
    (hkey' : scope (inputs c'.1) = some key) : c.2 = c'.2 := by
  obtain ⟨⟨row, hrow, hdedupe, -⟩, -⟩ := hinv.made c hc
  obtain ⟨⟨row', hrow', hdedupe', -⟩, -⟩ := hinv.made c' hc'
  have hsame : compositeKey (inputs c.1) = compositeKey (inputs c'.1) :=
    (compositeKey_inj (hsenders c.1) (hsenders c'.1)).mpr (hkey.trans hkey'.symm)
  cases hcomposite : compositeKey (inputs c.1) with
  | none =>
    rw [compositeKey, map_eq_none_iff] at hcomposite
    rw [scope, hcomposite] at hkey
    cases hkey
  | some composite =>
    exact hinv.unique c.2 c'.2 row row' composite hrow hrow' (hdedupe.trans hcomposite)
      (hdedupe'.trans (hsame.symm.trans hcomposite))

theorem Inv.one_created (key : String × String) :
    (s.created.filter (fun c => InScope inputs key c.1)).length ≤ 1 := by
  refine length_le_one (hinv.once.filter _) ?_
  intro c hc c' hc' hne
  obtain ⟨hmem, hkey⟩ := mem_filter.mp hc
  obtain ⟨hmem', hkey'⟩ := mem_filter.mp hc'
  exact hne.2 (hinv.created_eq hsenders hmem hmem' (of_decide_eq_true hkey)
    (of_decide_eq_true hkey'))

theorem Inv.one_send (key : String × String) :
    (s.sends.filter (InScope inputs key)).length ≤ 1 := by
  refine length_le_one (hinv.sendsOnce.filter _) ?_
  intro c hc c' hc' hne
  obtain ⟨hmem, hkey⟩ := mem_filter.mp hc
  obtain ⟨hmem', hkey'⟩ := mem_filter.mp hc'
  obtain ⟨⟨id, hid⟩, -⟩ := hinv.sent c hmem
  obtain ⟨⟨id', hid'⟩, -⟩ := hinv.sent c' hmem'
  have hsame := hinv.created_eq hsenders hid hid' (of_decide_eq_true hkey) (of_decide_eq_true hkey')
  -- the two entries differ in their call, so they differ in their id
  exact (hinv.created_apart hid hid' (fun heq => hne (congrArg Prod.fst heq))).2 hsame

theorem Inv.creator_of_stored {call : Nat} {d : EmailDelivery}
    (hd : Stored s.store d (compositeKey (inputs call))) :
    ∃ creator, (creator, d.id) ∈ s.created ∧ scope (inputs creator) = scope (inputs call)
      ∧ d.payload = (inputs creator).payload := by
  obtain ⟨hkey, row, hrow, hcore⟩ := hd
  obtain ⟨creator, hmem⟩ := hinv.origin d.id row hrow
  obtain ⟨⟨row', hrow', hdedupe, hpayload⟩, -⟩ := hinv.made _ hmem
  obtain rfl : row = row' := some.inj (hrow.symm.trans hrow')
  refine ⟨creator, hmem, ?_, ?_⟩
  · refine (compositeKey_inj (hsenders creator) (hsenders call)).mp ?_
    exact hdedupe.symm.trans ((dedupeKey_of_core hcore).trans hkey)
  · exact (payload_of_core hcore).symm.trans hpayload

/-- **THE INVARIANT IS DEDUPLICATION**. -/
theorem Inv.deduplicated : Deduplicated h inputs s where
  one_created := hinv.one_created hsenders
  one_send := hinv.one_send hsenders
  success := by
    intro call key d hkey hphase
    have hok := hinv.phases call
    rw [hphase] at hok
    obtain ⟨hd, hmatches, -⟩ := hok
    obtain ⟨creator, hmem, hscope, -⟩ := hinv.creator_of_stored hsenders hd
    refine ⟨⟨creator, hmem, hscope.trans hkey⟩, ?_⟩
    obtain ⟨-, row, hrow, hcore⟩ := hd
    have hne : compositeKey (inputs call) ≠ none := by
      intro hnone
      rw [compositeKey, map_eq_none_iff] at hnone
      rw [scope, hnone] at hkey
      cases hkey
    exact ⟨row, hrow, (hmatches hne).of_core hcore⟩
  answered := by
    intro call key hkey hown hothers outcome hphase
    have hok := hinv.phases call
    rw [hphase] at hok
    match outcome, hok with
    | .ok (.success d), _ => exact .inl ⟨d, rfl⟩
    | .ok (.failure reason), hreason =>
      refine .inr ⟨reason, rfl, hreason.imp_right ?_⟩
      rintro rfl
      rfl
    | .error _, ⟨_, d, hd, hthrows⟩ =>
      obtain ⟨creator, hmem, hscope, hpayload⟩ := hinv.creator_of_stored hsenders hd
      rw [hpayload] at hthrows
      exact absurd hthrows (not_or.mpr ⟨hothers creator d.id hmem (hscope.trans hkey), hown⟩)
  apart := by
    intro call call' d d' hphase hphase' hid
    have hok := hinv.phases call
    have hok' := hinv.phases call'
    rw [hphase] at hok
    rw [hphase'] at hok'
    obtain ⟨hd, -, hmade⟩ := hok
    obtain ⟨hd', -, hmade'⟩ := hok'
    obtain ⟨creator, hmem, hscope, -⟩ := hinv.creator_of_stored hsenders hd
    obtain ⟨creator', hmem', hscope', -⟩ := hinv.creator_of_stored hsenders hd'
    have hone : ∀ {c c' id}, (c, id) ∈ s.created → (c', id) ∈ s.created → c = c' := by
      intro c c' id hc hc'
      by_contra hne
      exact (hinv.created_apart hc hc' (fun heq => hne (congrArg Prod.fst heq))).2 rfl
    rw [← hid] at hmem'
    obtain rfl := hone hmem hmem'
    have hsame := hscope.symm.trans hscope'
    refine ⟨hsame, fun hnone => ?_⟩
    have hkey : ∀ {call}, scope (inputs call) = none → compositeKey (inputs call) = none := by
      intro call hnone
      rw [scope, map_eq_none_iff] at hnone
      rw [compositeKey, hnone, map_none]
    exact hone (hmade (hkey hnone)) (hid ▸ hmade' (hkey (hsame.symm.trans hnone)))

end Property

end Invariant

/-- **DEDUPLICATION**: in every run of any number of calls by senders without
    a colon, next to workers that update and resume deliveries. -/
theorem enqueue_dedupes (h : Host) (hnorm : h.Normalizes) (cfg : Config)
    (inputs : Nat → EnqueueEmailInput)
    (hsenders : ∀ call, ':' ∉ (inputs call).senderWallet.toList)
    (events : List Event)
    (hfresh : Along (step h cfg inputs) Fresh .new events) :
    Deduplicated h inputs (events.foldl (step h cfg inputs) .new) := by
  have hinv : Inv h inputs (events.foldl (step h cfg inputs) .new) :=
    Along.invariant (I := Inv h inputs)
      (fun _ _ hinv hf => Inv.step hinv hnorm hf) (Inv.new h inputs) hfresh
  exact hinv.deduplicated hsenders

/-! ## Two calls at once -/

section Sample

def sampleHost : Host where
  numberText _ := ascii "1"
  toLowerCase text := if text = "Client@x" then "client@x" else text
  displayText _ := ""
  validateRecipient address := ⟨true, nonEmpty (some address), none⟩
  validateContent _ := ⟨true, none⟩

theorem sampleHost_normalizes : sampleHost.Normalizes := by
  intro address hempty
  have hsome : nonEmpty (some address) = some "" := hempty
  exact (nonEmpty_eq_some.mp hsome).2 rfl

def sampleConfig : Config := ⟨5, 3⟩

def sampleInput (sender recipient subject : String) (payload : Payload) : EnqueueEmailInput where
  invoiceId := "inv"
  dedupeKey := some " event-01 "
  recipientEmail := recipient
  senderWallet := sender
  emailType := .invoiceSent
  subject
  payload := some payload
  maxAttempts := none

/-- One notification twice, another one under its key, another sender. -/
def sampleInputs : Nat → EnqueueEmailInput
  | 0 => sampleInput "GA" "Client@x" "Invoice" [(ascii "n", .number 1)]
  | 1 => sampleInput "GA" "client@x" "Invoice" [(ascii "n", .number 1)]
  | 2 => sampleInput "GA" "client@x" "Reminder" []
  | _ => sampleInput "GB" "client@x" "Invoice" []

theorem sampleInputs_senders (call : Nat) : ':' ∉ (sampleInputs call).senderWallet.toList := by
  match call with
  | 0 => decide
  | 1 => decide
  | 2 => decide
  | _ + 3 => exact (by decide : ':' ∉ "GB".toList)

def sampleEnv (uuid : String) : Env where
  rate := ⟨true, 0, 3, none⟩
  quota := ⟨true, "", none, none⟩
  breakerTripped := false
  now := 1
  uuid

/-- Two calls go side by side up to their insert; two more come later. -/
def sampleEvents : List Event :=
  [.advance 0 (sampleEnv "a"), .advance 1 (sampleEnv "b"),
    .advance 0 (sampleEnv "a"), .advance 1 (sampleEnv "b"),
    .advance 0 (sampleEnv "a"), .advance 1 (sampleEnv "b"),
    .advance 0 (sampleEnv "a"), .advance 1 (sampleEnv "b"),
    .advance 1 (sampleEnv "b"), .advance 0 (sampleEnv "b"),
    .update "a" ⟨.sent, 1, none, none, none, some 2, some 2⟩ 2,
    .advance 2 (sampleEnv "c"), .advance 2 (sampleEnv "c")]

theorem enqueue_dedupes_sample : Deduplicated sampleHost sampleInputs
      (sampleEvents.foldl (step sampleHost sampleConfig sampleInputs) .new) := by
  have hfresh : Along (step sampleHost sampleConfig sampleInputs) Fresh .new
      sampleEvents := by decide +kernel
  exact enqueue_dedupes sampleHost sampleHost_normalizes sampleConfig
    sampleInputs sampleInputs_senders sampleEvents hfresh

/-- A payload with a whole number of arbitrary size in it. -/
def bigintInputs : Nat → EnqueueEmailInput := fun _ =>
  sampleInput "GA" "client@x" "Invoice" [(ascii "n", .bigint 1)]

def bigintEvents : List Event := replicate 6 (.advance 0 (sampleEnv "a"))

/-- **A PAYLOAD WITHOUT A CANONICAL TEXT** makes its call throw after it has
    created its delivery: it neither succeeds nor finds a conflict. -/
theorem bigint_throws : (bigintEvents.foldl (step sampleHost sampleConfig bigintInputs)
      .new).created = [(0, "a")]
    ∧ ¬ Answered (bigintEvents.foldl (step sampleHost sampleConfig bigintInputs) .new) 0 := by
  refine ⟨by decide +kernel, fun hanswered => ?_⟩
  have hphase : (bigintEvents.foldl (step sampleHost sampleConfig bigintInputs) .new).phase 0
      = .done (.error (.typeError "Do not know how to serialize a BigInt")) :=
    rfl
  rcases hanswered _ hphase with ⟨d, hd⟩ | ⟨reason, hreason, -⟩
  · cases hd
  · cases hreason

end Sample

end EmailQueue

import Inqutum.AuditTrailProofs
import Inqutum.InvoiceCursorProofs

/-!
# Maintainer impersonation

`ImpersonationService` keeps the sessions a maintainer has opened against
a seller.  A session is closed by hand or when a call finds it past its
expiry, and each closing is written to the audit trail.  Past
`maxSessions` the oldest session is dropped from the map.

An ISO text is kept as the instant it denotes, and a clock reading is a
whole number of milliseconds; a reading without a date stands for NaN too.
The trail is the list of events recorded: the store has no limit here, and
an event of texts, booleans and finite numbers is always recorded.

Every call but `startSession` only closes sessions it finds open
(`Evolves`), so a session in the map is closed exactly when it has one
closing event (`Sound`).  `evictOldestIfNeeded` writes nothing, so the
account is complete only as long as it drops closed sessions
(`sessions_accounted_iff`).
-/

namespace Impersonation

open AuditTrail Canonical Transition
open JsonText (Text ascii)
open List Option InsertionMap JsNumber Prod Except

/-! ## Sessions -/

inductive ImpersonationPermission where
  | read
  | simulate
  | «export»
  | notify
  | elevated
  deriving DecidableEq

def ImpersonationPermission.text : ImpersonationPermission → String
  | read => "read"
  | simulate => "simulate"
  | «export» => "export"
  | notify => "notify"
  | elevated => "elevated"

def impersonationPermissions : List ImpersonationPermission :=
  [.read, .simulate, .«export», .notify, .elevated]

def defaultSessionDurationMs : JsNumber := .ofNat (30 * 60 * 1000)

def maxSessionDurationMs : Nat := 60 * 60 * 1000

def elevatedOnlyActions : List Text :=
  ["invoice.cancel", "invoice.settle", "invoice.delete", "payment.verify",
    "payment.refund", "jobs.purge", "maintenance.reset"].map ascii

def neverAllowedActions : List Text :=
  ["impersonation.start", "impersonation.elevate"].map ascii

inductive EndReason where
  | manual
  | expired
  | securityEvent

def EndReason.text : EndReason → String
  | manual => "manual"
  | expired => "expired"
  | securityEvent => "security_event"

structure ImpersonationSession where
  id : Text
  maintainerId : Text
  targetId : Text
  permissions : List ImpersonationPermission
  reason : Text
  startedAt : Int
  expiresAt : Int
  endedAt : Option Int
  endReason : Option EndReason

structure StartSessionInput where
  maintainerId : Text
  targetId : Text
  permissions : Option (List Text)
  reason : Text
  durationMs : Option JsNumber
  ip : Option Text
  userAgent : Option Text

structure AuthorizeInput where
  maintainerId : Text
  action : Text
  elevatedConfirmation : Bool
  ip : Option Text
  userAgent : Option Text

inductive DecisionCode where
  | allowed
  | noActiveSession
  | sessionExpired
  | sessionEnded
  | sessionRevoked
  | elevationRequired
  | neverAllowed

def DecisionCode.text : DecisionCode → String
  | allowed => "ALLOWED"
  | noActiveSession => "NO_ACTIVE_SESSION"
  | sessionExpired => "SESSION_EXPIRED"
  | sessionEnded => "SESSION_ENDED"
  | sessionRevoked => "SESSION_REVOKED"
  | elevationRequired => "ELEVATION_REQUIRED"
  | neverAllowed => "NEVER_ALLOWED"

structure AuthorizationDecision where
  allowed : Bool
  code : DecisionCode
  reason : Text
  sessionId : Option Text

structure ImpersonationService where
  sessions : InsertionMap Text ImpersonationSession
  audit : List AuditInput
  maxSessions : JsNumber
  /-- `localeCompare` of the ISO texts of two instants. -/
  localeCompare : Int → Int → Ordering

namespace ImpersonationService

/-- `new ImpersonationService(options)`. -/
def new (maxSessions : JsNumber) (localeCompare : Int → Int → Ordering) :
    ImpersonationService :=
  ⟨.empty, [], maxSessions, localeCompare⟩

def recordEvent (svc : ImpersonationService) (event : AuditInput) :
    ImpersonationService :=
  { svc with audit := svc.audit ++ [event] }

/-- The sessions in the order of a comparison; the sort is stable. -/
def sortBy (le : ImpersonationSession → ImpersonationSession → Bool)
    (sessions : List ImpersonationSession) : List ImpersonationSession :=
  sessions.insertionSort (fun a b => le a b = true)

end ImpersonationService

/-! ## Audit events -/

def isoText (ms : Int) : Text := (Cursors.toISOString ms).map JsonText.unit

/-- An event about a session, in the name of its maintainer. -/
def sessionEvent (action : AuditAction) (maintainerId sessionId : Text)
    (ip userAgent : Option Text) (reason : Text)
    (afterState metadata : JsValue) : AuditInput where
  timestamp := none
  action := action
  actor := ⟨.maintainer, maintainerId, ip, userAgent⟩
  scope := ⟨.system, sessionId⟩
  reason := some reason
  beforeState := .undefined
  afterState := afterState
  metadata := metadata
  correlationId := none

def permissionTexts (session : ImpersonationSession) : List Text :=
  session.permissions.map (fun p => ascii p.text)

def startedEvent (session : ImpersonationSession) (input : StartSessionInput)
    (duration : JsNumber) : AuditInput :=
  sessionEvent .impersonationStarted input.maintainerId session.id input.ip
    input.userAgent session.reason
    (.obj [(ascii "id", .str session.id), (ascii "maintainerId", .str session.maintainerId),
      (ascii "targetId", .str session.targetId),
      (ascii "permissions", .arr ((permissionTexts session).map .str)),
      (ascii "reason", .str session.reason),
      (ascii "startedAt", .str (isoText session.startedAt)),
      (ascii "expiresAt", .str (isoText session.expiresAt))])
    (.obj [(ascii "impersonatedId", .str session.targetId), (ascii "permissions",
        .str ((ascii ",").intercalate (permissionTexts session))),
      (ascii "durationMs", .number duration),
      (ascii "expiresAt", .str (isoText session.expiresAt))])

/-- The state a closed session is recorded with. -/
def closedState (endedAt : Int) (endReason : EndReason) : JsValue :=
  .obj [(ascii "endedAt", .str (isoText endedAt)), (ascii "endReason", .str (ascii endReason.text))]

def endedEvent (session : ImpersonationSession) (endedAt : Int) :
    AuditInput :=
  sessionEvent .impersonationEnded session.maintainerId session.id none none
    session.reason (closedState endedAt .manual)
    (.obj [(ascii "impersonatedId", .str session.targetId)])

def expiredEvent (session : ImpersonationSession) (endedAt : Int) :
    AuditInput :=
  sessionEvent .impersonationExpired session.maintainerId session.id none none
    (ascii "Session reached its time limit") (closedState endedAt .expired)
    (.obj [(ascii "impersonatedId", .str session.targetId),
      (ascii "expiresAt", .str (isoText session.expiresAt))])

def allowedEvent (session : ImpersonationSession) (input : AuthorizeInput)
    (needsElevation : Bool) : AuditInput :=
  sessionEvent .impersonationActionAllowed session.maintainerId session.id
    input.ip input.userAgent session.reason
    (.obj [(ascii "action", .str input.action)])
    (.obj [(ascii "impersonatedId", .str session.targetId), (ascii "action", .str input.action),
      (ascii "elevated", .bool needsElevation)])

def blockedEvent (input : AuthorizeInput) (code : DecisionCode)
    (reason : Text) (sessionId : Option Text) : AuditInput :=
  sessionEvent .impersonationActionBlocked input.maintainerId
    (sessionId.getD (ascii "none")) input.ip input.userAgent reason .undefined
    (.obj [(ascii "action", .str input.action), (ascii "code", .str (ascii code.text)),
      (ascii "sessionId", optional sessionId)])

/-! ## Operations -/

/-- `for (const session of sessions)`: the body goes on to the next session,
    returns or throws. -/
def forOf {σ α : Type} (body : ImpersonationSession → σ → σ × Except String (Option α)) :
    List ImpersonationSession → σ → σ × Except String (Option α)
  | [], st => (st, .ok none)
  | session :: rest, st =>
    match body session st with
    | (st', .ok none) => forOf body rest st'
    | done => done

def ImpersonationPermission.ofText (text : Text) :
    Option ImpersonationPermission :=
  impersonationPermissions.find? (fun p => decide (ascii p.text = text))

/-- The requested permissions, up to the first that is unknown. -/
def readPermissions : List Text → Except Text (List ImpersonationPermission)
  | [] => .ok []
  | text :: rest =>
    match ImpersonationPermission.ofText text with
    | none => .error (ascii "Unknown impersonation permission: " ++ text)
    | some p => (readPermissions rest).map (p :: ·)

/-- `Math.min(durationMs ?? DEFAULT_SESSION_DURATION_MS,
    MAX_SESSION_DURATION_MS)`. -/
def sessionDuration (durationMs : Option JsNumber) : JsNumber :=
  mathMin (durationMs.getD defaultSessionDurationMs) (.ofNat maxSessionDurationMs)

/-- What `startSession` checks before it reads the clock. -/
def checkStart (input : StartSessionInput) :
    Except Text (List ImpersonationPermission) :=
  if trim input.maintainerId = [] then
    .error (ascii "maintainerId is required")
  else if trim input.targetId = [] then .error (ascii "targetId is required")
  else if trim input.reason = [] then
    .error (ascii "A justification is required to start an impersonation session")
  else if input.maintainerId = input.targetId then
    .error (ascii "Cannot impersonate yourself")
  else
    match readPermissions (input.permissions.getD [ascii "read"]) with
    | .error message => .error message
    | .ok permissions =>
      if le (sessionDuration input.durationMs) 0 then
        .error (ascii "durationMs must be positive")
      else .ok permissions

/-- The session `startSession` builds, if both of its dates are valid. -/
def newSession (input : StartSessionInput)
    (permissions : List ImpersonationPermission) (randomId : Text)
    (now : Int) : Option ImpersonationSession :=
  match timeClip (.finite now), timeClip (add (.finite now)
      (sessionDuration input.durationMs)) with
  | some startedAt, some expiresAt => some {
      id := randomId
      maintainerId := input.maintainerId
      targetId := input.targetId
      permissions := permissions.eraseDups
      reason := trim input.reason
      startedAt := startedAt
      expiresAt := expiresAt
      endedAt := none
      endReason := none }
  | _, _ => none

namespace ImpersonationService

/-- The session that started first. -/
def oldestSession (svc : ImpersonationService) :
    Option ImpersonationSession :=
  (sortBy (fun a b => svc.localeCompare a.startedAt b.startedAt != .gt) svc.sessions.values).head?

/-- The session that has to go, if there are too many. -/
def evicted (svc : ImpersonationService) : Option ImpersonationSession :=
  if le (.ofNat svc.sessions.size) svc.maxSessions then none
  else svc.oldestSession

def evictOldestIfNeeded (svc : ImpersonationService) : ImpersonationService :=
  match svc.evicted with
  | some oldest => { svc with sessions := svc.sessions.delete oldest.id }
  | none => svc

def setSession (svc : ImpersonationService)
    (session : ImpersonationSession) : ImpersonationService :=
  { svc with sessions := svc.sessions.set session.id session }

def startSession (svc : ImpersonationService) (input : StartSessionInput)
    (randomId : Text) (now : Int) :
    ImpersonationService × Except Text ImpersonationSession :=
  match checkStart input with
  | .error message => (svc, .error message)
  | .ok permissions =>
    match newSession input permissions randomId now with
    | none => (svc, .error (ascii "Invalid time value"))
    | some session =>
      ((svc.setSession session).evictOldestIfNeeded.recordEvent
        (startedEvent session input (sessionDuration input.durationMs)),
        .ok session)

def close (svc : ImpersonationService) (session : ImpersonationSession)
    (endedAt : Int) (endReason : EndReason) (event : AuditInput) :
    ImpersonationService :=
  (svc.setSession { session with
    endedAt := some endedAt, endReason := some endReason }).recordEvent event

def expireIfDue (svc : ImpersonationService) (session : ImpersonationSession)
    (nowMs : Int) : ImpersonationService × Except String Bool :=
  if session.endedAt.isSome then (svc, .ok false)
  else if nowMs < session.expiresAt then (svc, .ok false)
  else
    match timeClip (.finite nowMs) with
    | none => (svc, .error "Invalid time value")
    | some endedAt => (svc.close session endedAt .expired (expiredEvent session endedAt), .ok true)

/-- One turn of the loop of `getActiveSession`. -/
def visitActive (maintainerId : Text) (nowMs : Int)
    (session : ImpersonationSession) (svc : ImpersonationService) :
    ImpersonationService × Except String (Option ImpersonationSession) :=
  if session.maintainerId ≠ maintainerId then (svc, .ok none)
  else if session.endedAt.isSome then (svc, .ok none)
  else
    match svc.expireIfDue session nowMs with
    | (svc', .error message) => (svc', .error message)
    | (svc', .ok true) => (svc', .ok none)
    | (svc', .ok false) => (svc', .ok (some session))

def getActiveSession (svc : ImpersonationService) (maintainerId : Text) (now : Int) :
    ImpersonationService × Except String (Option ImpersonationSession) :=
  forOf (visitActive maintainerId now) svc.sessions.values svc

def endSession (svc : ImpersonationService) (sessionId : Text)
    (maintainerId : Option Text) (now : Int) :
    ImpersonationService × Except String Bool :=
  match svc.sessions.get sessionId with
  | none => (svc, .ok false)
  | some session =>
    if session.endedAt.isSome then (svc, .ok false)
    else if maintainerId.any (fun m => m ≠ [] && session.maintainerId ≠ m) then (svc, .ok false)
    else
      match timeClip (.finite now) with
      | none => (svc, .error "Invalid time value")
      | some endedAt => (svc.close session endedAt .manual (endedEvent session endedAt), .ok true)

/-- The maintainer's session that was closed last. -/
def findClosedSession (svc : ImpersonationService) (maintainerId : Text) :
    Option ImpersonationSession :=
  (sortBy (fun a b => svc.localeCompare (b.endedAt.getD 0) (a.endedAt.getD 0) != .gt)
    (svc.sessions.values.filter (fun s =>
      decide (s.maintainerId = maintainerId) && s.endedAt.isSome))).head?

def deny (svc : ImpersonationService) (input : AuthorizeInput)
    (code : DecisionCode) (reason : Text) (sessionId : Option Text) :
    ImpersonationService × Except String AuthorizationDecision :=
  (svc.recordEvent (blockedEvent input code reason sessionId), .ok ⟨false, code, reason, sessionId⟩)

/-- The code of a refusal for want of an active session. -/
def closedCode : Option ImpersonationSession → DecisionCode
  | none => .noActiveSession
  | some ended =>
    match ended.endReason with
    | some .expired => .sessionExpired
    | some .securityEvent => .sessionRevoked
    | _ => .sessionEnded

/-- An action in double quotes. -/
def quotedAction (input : AuthorizeInput) : Text :=
  ascii "\"" ++ input.action ++ ascii "\""

/-- The decision inside an active session. -/
def authorizeIn (svc : ImpersonationService) (input : AuthorizeInput)
    (session : ImpersonationSession) :
    ImpersonationService × Except String AuthorizationDecision :=
  let needsElevation := decide (input.action ∈ elevatedOnlyActions)
  if needsElevation && !session.permissions.contains .elevated then
    svc.deny input .elevationRequired (quotedAction input
      ++ ascii " is irreversible and needs an elevated session")
      (some session.id)
  else if needsElevation && !input.elevatedConfirmation then
    svc.deny input .elevationRequired (quotedAction input
      ++ ascii " requires explicit elevated confirmation") (some session.id)
  else
    (svc.recordEvent (allowedEvent session input needsElevation), .ok ⟨true, .allowed,
        (if needsElevation then ascii "Allowed with elevated confirmation: "
          else ascii "Allowed within session scope: ") ++ input.action,
        some session.id⟩)

def authorize (svc : ImpersonationService) (input : AuthorizeInput) (now : Int) :
    ImpersonationService × Except String AuthorizationDecision :=
  if input.action ∈ neverAllowedActions then
    svc.deny input .neverAllowed (quotedAction input
      ++ ascii " is never permitted via impersonation") none
  else
    match svc.getActiveSession input.maintainerId now with
    | (svc', .error message) => (svc', .error message)
    | (svc', .ok none) =>
      let ended := svc'.findClosedSession input.maintainerId
      svc'.deny input (closedCode ended) (ascii "No active impersonation session")
        (ended.map ImpersonationSession.id)
    | (svc', .ok (some session)) => svc'.authorizeIn input session

/-- One turn of the loop of `listSessions`. -/
def visitListed (nowMs : Int) (session : ImpersonationSession) (svc : ImpersonationService) :
    ImpersonationService × Except String (Option Unit) :=
  match svc.expireIfDue session nowMs with
  | (svc', .error message) => (svc', .error message)
  | (svc', .ok _) => (svc', .ok none)

def listSessions (svc : ImpersonationService) (includeClosed : Bool) (now : Int) :
    ImpersonationService × Except String (List ImpersonationSession) :=
  match forOf (visitListed now) svc.sessions.values svc with
  | (svc', .error message) => (svc', .error message)
  | (svc', .ok _) =>
    (svc', .ok (sortBy (fun a b => svc'.localeCompare b.startedAt a.startedAt != .gt)
      (svc'.sessions.values.filter (fun s => includeClosed || s.endedAt.isNone))))

/-- One turn of the loop of `purgeExpired`, with the ids it has expired. -/
def visitPurged (nowMs : Int) (session : ImpersonationSession)
    (st : ImpersonationService × List Text) :
    (ImpersonationService × List Text) × Except String (Option Unit) :=
  if session.endedAt.isSome then (st, .ok none)
  else
    match st.1.expireIfDue session nowMs with
    | (svc', .error message) => ((svc', st.2), .error message)
    | (svc', .ok true) => ((svc', st.2 ++ [session.id]), .ok none)
    | (svc', .ok false) => ((svc', st.2), .ok none)

def purgeExpired (svc : ImpersonationService) (now : Int) :
    ImpersonationService × Except String (List Text) :=
  match forOf (visitPurged now) svc.sessions.values (svc, []) with
  | ((svc', _), .error message) => (svc', .error message)
  | ((svc', expired), .ok _) => (svc', .ok expired)

end ImpersonationService

open ImpersonationService

/-! ## Runs -/

/-- A call, with the clock reading and the id it draws. -/
inductive Op where
  | startSession (input : StartSessionInput) (randomId : Text) (now : Int)
  | getActiveSession (maintainerId : Text) (now : Int)
  | authorize (input : AuthorizeInput) (now : Int)
  | endSession (sessionId : Text) (maintainerId : Option Text) (now : Int)
  | listSessions (includeClosed : Bool) (now : Int)
  | purgeExpired (now : Int)

/-- The service, and the sessions `startSession` has returned. -/
structure World where
  service : ImpersonationService
  opened : List ImpersonationSession

/-- The service of a run that starts now. -/
def World.init (maxSessions : JsNumber) (localeCompare : Int → Int → Ordering) : World :=
  ⟨.new maxSessions localeCompare, []⟩

def World.start (w : World) : ImpersonationService × Except Text ImpersonationSession → World
  | (svc, .ok session) => ⟨svc, w.opened ++ [session]⟩
  | (svc, .error _) => ⟨svc, w.opened⟩

def World.step (w : World) : Op → World
  | .startSession input randomId now => w.start (w.service.startSession input randomId now)
  | .getActiveSession maintainerId now =>
    { w with service := (w.service.getActiveSession maintainerId now).1 }
  | .authorize input now => { w with service := (w.service.authorize input now).1 }
  | .endSession sessionId maintainerId now =>
    { w with
      service := (w.service.endSession sessionId maintainerId now).1 }
  | .listSessions includeClosed now =>
    { w with service := (w.service.listSessions includeClosed now).1 }
  | .purgeExpired now => { w with service := (w.service.purgeExpired now).1 }

def isClosing (id : Text) (event : AuditInput) : Bool :=
  (decide (event.action = .impersonationEnded)
      || decide (event.action = .impersonationExpired))
    && decide (event.scope.entityId = id)

/-- The number of closing events of a session. -/
def ImpersonationService.closings (svc : ImpersonationService) (id : Text) :
    Nat :=
  svc.audit.countP (isClosing id)

def Op.isStart : Op → Bool
  | .startSession .. => true
  | _ => false

/-- After some further calls, none of which starts a session,
    `getActiveSession` returns the session. -/
def Returnable (w : World) (id : Text) : Prop :=
  ∃ later : List Op, (∀ op ∈ later, op.isStart = false) ∧
    ∃ maintainerId now session, session.id = id
      ∧ ((later.foldl World.step w).service.getActiveSession maintainerId
          now).2 = .ok (some session)

/-- Every started session that is out of reach was closed in the trail, once. -/
def Accounted (w : World) : Prop :=
  ∀ session ∈ w.opened, ¬ Returnable w session.id → w.service.closings session.id = 1

/-- An action is allowed only inside a session of the maintainer that has no
    closing event, before its expiry, at most an hour after its start, and
    with its elevation confirmed where that is asked for. -/
def AllowedInSession (w : World) : Op → Prop
  | .authorize input now => ∀ svc decision, w.service.authorize input now = (svc, .ok decision) →
      decision.allowed = true →
      ∃ session ∈ w.opened, session.maintainerId = input.maintainerId ∧ now < session.expiresAt
        ∧ w.service.closings session.id = 0
        ∧ svc.closings session.id = 0
        ∧ now ≤ session.startedAt + maxSessionDurationMs
        ∧ (input.action ∈ elevatedOnlyActions → .elevated ∈ session.permissions
              ∧ input.elevatedConfirmation = true)
  | _ => True

/-- A session is started under an id that was not used before. -/
def Fresh (w : World) : Op → Prop
  | .startSession _ randomId _ => ∀ session ∈ w.opened, session.id ≠ randomId
  | _ => True

/-- The session that a new one pushes out of the map has ended. -/
def DropsEnded (w : World) : Op → Prop
  | .startSession input randomId now => ∀ permissions session, checkStart input = .ok permissions →
      newSession input permissions randomId now = some session →
      ∀ oldest, (w.service.setSession session).evicted = some oldest → oldest.endedAt.isSome = true
  | _ => True

/-! ## What a call moves -/

/-- The session at a key is closed, with one event. -/
def Closes (svc svc' : ImpersonationService) (k : Text) : Prop :=
  ∃ session endedAt endReason, svc.sessions.get k = some session ∧ session.endedAt = none
    ∧ svc'.sessions.get k = some { session with
        endedAt := some endedAt, endReason := some endReason }
    ∧ svc'.closings k = svc.closings k + 1

/-- Nothing happens to the session at a key. -/
def Unmoved (svc svc' : ImpersonationService) (k : Text) : Prop :=
  svc'.sessions.get k = svc.sessions.get k ∧ svc'.closings k = svc.closings k

/-- The only thing that happens to a session is that it is closed. -/
def Evolves (svc svc' : ImpersonationService) : Prop :=
  ∀ k, Unmoved svc svc' k ∨ Closes svc svc' k

theorem Evolves.refl (svc : ImpersonationService) : Evolves svc svc :=
  fun _ => .inl ⟨rfl, rfl⟩

theorem Evolves.trans {svc₁ svc₂ svc₃ : ImpersonationService}
    (h₁ : Evolves svc₁ svc₂) (h₂ : Evolves svc₂ svc₃) : Evolves svc₁ svc₃ := by
  intro k
  rcases h₁ k with ⟨hget, hcount⟩ | ⟨s, endedAt, endReason, hs, hopen, hs', hc⟩
  · rcases h₂ k with ⟨hget', hcount'⟩ | ⟨s, endedAt, endReason, hs, hrest⟩
    -- not touched by either
    · exact .inl ⟨hget'.trans hget, hcount'.trans hcount⟩
    rw [hget] at hs
    rw [hcount] at hrest
    exact .inr ⟨s, endedAt, endReason, hs, hrest⟩
  · rcases h₂ k with ⟨hget', hcount'⟩ | ⟨t, _, _, ht, htopen, _⟩
    · exact .inr ⟨s, endedAt, endReason, hs, hopen, hget'.trans hs', hcount'.trans hc⟩
    -- what has ended is not closed again
    rw [hs'] at ht
    rw [← some.inj ht] at htopen
    cases htopen

theorem closings_recordEvent (svc : ImpersonationService) (event : AuditInput) (k : Text) :
    (svc.recordEvent event).closings k
      = svc.closings k + if isClosing k event = true then 1 else 0 := by
  show (svc.audit ++ [event]).countP _ = _
  rw [countP_append, countP_singleton]
  rfl

theorem evolves_recordEvent (svc : ImpersonationService) {event : AuditInput}
    (h : ∀ k, isClosing k event = false) : Evolves svc (svc.recordEvent event) := by
  intro k
  refine .inl ⟨rfl, ?_⟩
  rw [closings_recordEvent, h k]
  rfl

/-- A call reaches one session only. -/
structure Visits (svc svc' : ImpersonationService) (id : Text) : Prop where
  evolves : Evolves svc svc'
  others : ∀ k, id ≠ k → svc'.sessions.get k = svc.sessions.get k

theorem Visits.refl (svc : ImpersonationService) (id : Text) : Visits svc svc id :=
  ⟨.refl svc, fun _ _ => rfl⟩

section Calls

variable {svc : ImpersonationService} {session : ImpersonationSession}

theorem close_visits (hget : svc.sessions.get session.id = some session)
    (hopen : session.endedAt = none) (endedAt : Int) (endReason : EndReason) {event : AuditInput}
    (hevent : ∀ k, isClosing k event = decide (session.id = k)) :
    Visits svc (svc.close session endedAt endReason event) session.id := by
  have hget' : ∀ k, (svc.close session endedAt endReason event).sessions.get k
      = if session.id = k then some { session with
          endedAt := some endedAt, endReason := some endReason }
        else svc.sessions.get k :=
    fun k => svc.sessions.get_set session.id _ k
  have hcount : ∀ k, (svc.close session endedAt endReason event).closings k
      = svc.closings k + if decide (session.id = k) = true then 1 else 0 := by
    intro k
    rw [← hevent k]
    exact closings_recordEvent _ event k
  constructor
  · intro k
    by_cases hk : session.id = k
    · refine .inr ⟨session, endedAt, endReason, hk ▸ hget, hopen, ?_, ?_⟩
      · rw [hget', if_pos hk]
      · rw [hcount, if_pos (decide_eq_true hk)]
    refine .inl ⟨?_, ?_⟩
    · rw [hget', if_neg hk]
    rw [hcount, if_neg (by simpa using hk)]
    rfl
  · intro k hk
    rw [hget', if_neg hk]

theorem expireIfDue_visits (hget : svc.sessions.get session.id = some session) (nowMs : Int) :
    Visits svc (svc.expireIfDue session nowMs).1 session.id := by
  rw [expireIfDue]
  split
  · exact .refl svc _
  rename_i hopen
  split
  · exact .refl svc _
  split
  · exact .refl svc _
  -- only an open session that is due is written back
  · refine close_visits hget ?_ _ _ (fun k => rfl)
    simpa using hopen

theorem expireIfDue_false {nowMs : Int} {svc' : ImpersonationService}
    (h : svc.expireIfDue session nowMs = (svc', .ok false)) :
    svc' = svc ∧ (session.endedAt.isSome = true ∨ nowMs < session.expiresAt) := by
  rw [expireIfDue] at h
  split at h
  · rename_i hended
    exact ⟨(mk.inj h).1.symm, .inl hended⟩
  split at h
  · rename_i hnow
    exact ⟨(mk.inj h).1.symm, .inr hnow⟩
  split at h
  · cases h
  · exact absurd (ok.inj (mk.inj h).2) (by decide)

theorem visitActive_visits (hget : svc.sessions.get session.id = some session)
    (maintainerId : Text) (nowMs : Int) :
    Visits svc (visitActive maintainerId nowMs session svc).1 session.id := by
  have hvisit := expireIfDue_visits hget nowMs
  rw [visitActive]
  split
  · exact .refl svc _
  split
  · exact .refl svc _
  · split <;> rename_i heq <;> rw [heq] at hvisit <;> exact hvisit

theorem visitListed_visits (hget : svc.sessions.get session.id = some session) (nowMs : Int) :
    Visits svc (visitListed nowMs session svc).1
      session.id := by
  have hvisit := expireIfDue_visits hget nowMs
  rw [visitListed]
  split <;> rename_i heq <;> rw [heq] at hvisit <;> exact hvisit

theorem visitPurged_visits {ids : List Text}
    (hget : svc.sessions.get session.id = some session) (nowMs : Int) :
    Visits svc (visitPurged nowMs session (svc, ids)).1.1 session.id := by
  have hvisit := expireIfDue_visits hget nowMs
  rw [visitPurged]
  split
  · exact .refl svc _
  · split <;> rename_i heq <;> rw [heq] at hvisit <;> exact hvisit

end Calls

/-! ## Loops over the sessions -/

section Loops

variable {σ α : Type} (svcOf : σ → ImpersonationService)
  {body : ImpersonationSession → σ → σ × Except String (Option α)}

/-- The sessions still to be visited are in the map as they are. -/
def Current (svc : ImpersonationService) (sessions : List ImpersonationSession) : Prop :=
  (sessions.map ImpersonationSession.id).Nodup ∧ ∀ s ∈ sessions, svc.sessions.get s.id = some s

theorem Current.visits {svc svc' : ImpersonationService}
    {s : ImpersonationSession} {rest : List ImpersonationSession}
    (h : Current svc (s :: rest)) (hvisit : Visits svc svc' s.id) : Current svc' rest := by
  obtain ⟨hnd, hget⟩ := h
  rw [map_cons, nodup_cons] at hnd
  refine ⟨hnd.2, fun t ht => ?_⟩
  -- ids are distinct, so the visit left the rest alone
  have hne : s.id ≠ t.id := fun heq => hnd.1 (heq ▸ mem_map_of_mem ht)
  rw [hvisit.others t.id hne]
  exact hget t (.tail _ ht)

variable {sessions : List ImpersonationSession}

/-- **THE LOOP RULE**: a loop whose body reaches only the session it visits
    only closes sessions. -/
theorem forOf_evolves (hbody : ∀ s st, (svcOf st).sessions.get s.id = some s →
      Visits (svcOf st) (svcOf (body s st).1) s.id) {st : σ} (hcur : Current (svcOf st) sessions) :
    Evolves (svcOf st) (svcOf (forOf body sessions st).1) := by
  induction sessions generalizing st with
  | nil => exact .refl _
  | cons s rest ih =>
    have hvisit := hbody s st (hcur.2 s (.head _))
    rw [forOf]
    split
    -- the loop goes on from what the body left
    · rename_i st' heq
      rw [heq] at hvisit
      exact hvisit.evolves.trans (ih (hcur.visits hvisit))
    -- a body that returns or throws ends the loop
    · exact hvisit.evolves

theorem forOf_returns (hbody : ∀ s st, (svcOf st).sessions.get s.id = some s →
      Visits (svcOf st) (svcOf (body s st).1) s.id) {st st' : σ} {a : α}
    (hcur : Current (svcOf st) sessions) (h : forOf body sessions st = (st', .ok (some a))) :
    ∃ s st₀, (svcOf st₀).sessions.get s.id = some s ∧ body s st₀ = (st', .ok (some a)) := by
  induction sessions generalizing st with
  | nil => cases (ok.inj (mk.inj h).2)
  | cons s rest ih =>
    have hget := hcur.2 s (.head _)
    have hvisit := hbody s st hget
    rw [forOf] at h
    split at h
    · rename_i st₁ heq
      rw [heq] at hvisit
      exact ih (hcur.visits hvisit) h
    · exact ⟨s, st, hget, h⟩

end Loops

/-- Sessions are stored under their ids. -/
def Keyed (svc : ImpersonationService) : Prop :=
  ∀ k s, svc.sessions.get k = some s → s.id = k

section Operations

variable {svc : ImpersonationService} (hkeyed : Keyed svc)

include hkeyed

theorem current_values : Current svc svc.sessions.values := by
  constructor
  · rw [map_values_eq_keys hkeyed]
    exact svc.sessions.nodup
  intro s hs
  exact get_of_mem_values hkeyed hs

theorem getActiveSession_evolves (maintainerId : Text) (now : Int) :
    Evolves svc (svc.getActiveSession maintainerId now).1 :=
  forOf_evolves id (fun _ _ hget => visitActive_visits hget maintainerId now)
    (current_values hkeyed)

/-- **WHAT IS ACTIVE**: a session of the maintainer that has not ended, before
    its expiry. -/
theorem getActiveSession_some {maintainerId : Text} {now : Int}
    {svc' : ImpersonationService} {session : ImpersonationSession}
    (h : svc.getActiveSession maintainerId now = (svc', .ok (some session))) :
    svc'.sessions.get session.id = some session
      ∧ session.maintainerId = maintainerId ∧ session.endedAt = none ∧ now < session.expiresAt := by
  obtain ⟨s, svc₀, hget, hbody⟩ := forOf_returns id
    (fun _ _ hget => visitActive_visits hget maintainerId now)
    (current_values hkeyed) h
  -- only the last branch of the body returns a session
  rw [visitActive] at hbody
  split at hbody
  · cases ok.inj (mk.inj hbody).2
  rename_i hmine
  split at hbody
  · cases ok.inj (mk.inj hbody).2
  rename_i hopen
  split at hbody
  · cases hbody
  · cases ok.inj (mk.inj hbody).2
  rename_i svc₁ heq
  obtain ⟨rfl, hresult⟩ := mk.inj hbody
  obtain rfl := some.inj (ok.inj hresult)
  obtain ⟨rfl, hdue⟩ := expireIfDue_false heq
  exact ⟨hget, not_not.mp hmine, by simpa using hopen, hdue.resolve_left hopen⟩

omit hkeyed in
theorem deny_evolves (input : AuthorizeInput) (code : DecisionCode)
    (reason : Text) (sessionId : Option Text) :
    Evolves svc (svc.deny input code reason sessionId).1 :=
  evolves_recordEvent svc (fun _ => rfl)

omit hkeyed in
theorem authorizeIn_evolves (input : AuthorizeInput) (session : ImpersonationSession) :
    Evolves svc (svc.authorizeIn input session).1 := by
  rw [authorizeIn]
  split
  · exact deny_evolves _ _ _ _
  split
  · exact deny_evolves _ _ _ _
  · exact evolves_recordEvent svc (fun _ => rfl)

theorem authorize_evolves (input : AuthorizeInput) (now : Int) :
    Evolves svc (svc.authorize input now).1 := by
  have hactive := getActiveSession_evolves hkeyed input.maintainerId now
  -- the look-up may expire sessions before anything is decided
  rw [authorize]
  split
  · exact deny_evolves _ _ _ _
  split <;> rename_i heq <;> rw [heq] at hactive
  · exact hactive
  · exact hactive.trans (deny_evolves _ _ _ _)
  · exact hactive.trans (authorizeIn_evolves _ _)

theorem endSession_evolves (sessionId : Text) (maintainerId : Option Text) (now : Int) :
    Evolves svc (svc.endSession sessionId maintainerId now).1 := by
  rw [endSession]
  split
  · exact .refl svc
  rename_i session hget
  have hid := hkeyed sessionId session hget
  split
  · exact .refl svc
  rename_i hopen
  split
  · exact .refl svc
  split
  · exact .refl svc
  refine (close_visits (hid ▸ hget) ?_ _ _ (fun _ => rfl)).evolves
  simpa using hopen

theorem listSessions_evolves (includeClosed : Bool) (now : Int) :
    Evolves svc (svc.listSessions includeClosed now).1 := by
  have hloop : Evolves svc (forOf (visitListed now)
      svc.sessions.values svc).1 :=
    forOf_evolves id (fun _ _ hget => visitListed_visits hget now) (current_values hkeyed)
  rw [listSessions]
  split <;> rename_i heq <;> rw [heq] at hloop <;> exact hloop

theorem purgeExpired_evolves (now : Int) : Evolves svc (svc.purgeExpired now).1 := by
  have hloop : Evolves svc (forOf (visitPurged now)
      svc.sessions.values (svc, [])).1.1 :=
    forOf_evolves fst (fun _ _ hget => visitPurged_visits hget now) (current_values hkeyed)
  rw [purgeExpired]
  split <;> rename_i heq <;> rw [heq] at hloop <;> exact hloop

end Operations

variable {svc : ImpersonationService} {w : World}

/-- **EVERY CALL BUT A START** only closes sessions. -/
theorem step_evolves (hkeyed : Keyed w.service) {op : Op} (hstart : op.isStart = false) :
    Evolves w.service (w.step op).service ∧ (w.step op).opened = w.opened := by
  cases op with
  | startSession => cases hstart
  | getActiveSession m now => exact ⟨getActiveSession_evolves hkeyed m now, rfl⟩
  | authorize input now => exact ⟨authorize_evolves hkeyed input now, rfl⟩
  | endSession k m now => exact ⟨endSession_evolves hkeyed k m now, rfl⟩
  | listSessions c now => exact ⟨listSessions_evolves hkeyed c now, rfl⟩
  | purgeExpired now => exact ⟨purgeExpired_evolves hkeyed now, rfl⟩

theorem Keyed.evolves {svc svc' : ImpersonationService} (h : Keyed svc)
    (hev : Evolves svc svc') : Keyed svc' := by
  intro k s hs
  rcases hev k with ⟨hget, -⟩ | ⟨t, _, _, ht, -, ht', -⟩
  · exact h k s (hget ▸ hs)
  rw [ht'] at hs
  cases hs
  exact h k t ht

theorem Evolves.open_before {svc svc' : ImpersonationService}
    (hev : Evolves svc svc') {k : Text} {s : ImpersonationSession}
    (hget : svc'.sessions.get k = some s) (hopen : s.endedAt = none) :
    svc.sessions.get k = some s := by
  rcases hev k with ⟨heq, -⟩ | ⟨t, _, _, -, -, ht', -⟩
  · rw [← heq]
    exact hget
  -- a session that was closed has an end
  · rw [ht'] at hget
    rw [← some.inj hget] at hopen
    cases hopen

theorem run_evolves (hkeyed : Keyed w.service) {later : List Op}
    (hstart : ∀ op ∈ later, op.isStart = false) :
    Evolves w.service (later.foldl World.step w).service := by
  induction later generalizing w with
  | nil => exact .refl _
  | cons op rest ih =>
    have hstep := (step_evolves hkeyed (hstart op (.head _))).1
    exact hstep.trans (ih (hkeyed.evolves hstep) (fun op' hop => hstart op' (.tail _ hop)))

/-! ## What can still be returned -/

/-- The session is in the map and has not ended. -/
def Live (svc : ImpersonationService) (id : Text) : Prop :=
  ∃ session, svc.sessions.get id = some session ∧ session.endedAt = none

theorem endSession_get (hkeyed : Keyed svc) (sessionId k : Text) :
    (svc.endSession sessionId none 0).1.sessions.get k = svc.sessions.get k ∧ sessionId ≠ k
      ∨ sessionId = k ∧ ∀ s, (svc.endSession sessionId none 0).1.sessions.get k = some s →
          s.endedAt.isSome = true := by
  -- the instant 0 is a date, so the call does not throw
  have hclip : timeClip (.finite ((0 : Int) : ℚ)) = some 0 := by decide +kernel
  by_cases hk : sessionId = k
  · refine .inr ⟨hk, fun s hs => ?_⟩
    subst hk
    rw [endSession] at hs
    split at hs
    · rename_i hnone
      rw [hnone] at hs
      cases hs
    rename_i session hget
    split at hs
    · rename_i hended
      rw [hget] at hs
      cases hs
      exact hended
    rw [any_none, if_neg Bool.false_ne_true, hclip] at hs
    have hself : (svc.sessions.set session.id { session with
        endedAt := some 0, endReason := some .manual }).get sessionId = some s := hs
    rw [hkeyed sessionId session hget, get_set_self] at hself
    cases hself
    rfl
  · refine .inl ⟨?_, hk⟩
    rw [endSession]
    split
    · rfl
    rename_i session hget
    have hid := hkeyed sessionId session hget
    split
    · rfl
    rw [any_none, if_neg Bool.false_ne_true, hclip]
    exact get_set_of_ne _ _ (hid ▸ hk)

/-- The calls that end some sessions. -/
def endings (ids : List Text) : List Op :=
  ids.map (fun k => Op.endSession k none 0)

theorem endings_get (ids : List Text) (hkeyed : Keyed w.service) (k : Text) :
    (k ∉ ids → ((endings ids).foldl World.step w).service.sessions.get k = w.service.sessions.get k)
      ∧ (k ∈ ids → ∀ s, ((endings ids).foldl World.step
          w).service.sessions.get k = some s → s.endedAt.isSome = true) := by
  -- by induction on the ids; a later ending leaves what an earlier one ended
  induction ids generalizing w with
  | nil => exact ⟨fun _ => rfl, nofun⟩
  | cons id rest ih =>
    have hev := endSession_evolves hkeyed id none 0
    have hkeyed' := hkeyed.evolves hev
    have hih := ih (w := w.step (.endSession id none 0)) hkeyed'
    rw [endings, map_cons, foldl_cons]
    constructor
    · intro hk
      rw [mem_cons, not_or] at hk
      refine (hih.1 hk.2).trans ?_
      rcases endSession_get hkeyed id k with ⟨heq, -⟩ | ⟨heq, -⟩
      · exact heq
      · exact absurd heq.symm hk.1
    · intro hk s hs
      by_cases hin : k ∈ rest
      · exact hih.2 hin s hs
      have hid : id = k := ((mem_cons.mp hk).resolve_right hin).symm
      rcases endSession_get hkeyed id k with ⟨-, hne⟩ | ⟨-, hended⟩
      · exact absurd hid hne
      · exact hended s ((hih.1 hin).symm.trans hs)

theorem forOf_visitActive {session : ImpersonationSession} (hopen : session.endedAt = none)
    {sessions : List ImpersonationSession} (hmem : session ∈ sessions)
    (hothers : ∀ s ∈ sessions, s = session ∨ s.endedAt.isSome = true) :
    (forOf (visitActive session.maintainerId
      (session.expiresAt - 1)) sessions svc).2 = .ok (some session) := by
  -- a millisecond before its expiry the session is not due
  have hmine : visitActive session.maintainerId
      (session.expiresAt - 1) session svc = (svc, .ok (some session)) := by
    have hbefore : session.expiresAt - 1 < session.expiresAt := by omega
    simp [visitActive, hopen, expireIfDue, hbefore]
  induction sessions with
  | nil => cases hmem
  | cons s rest ih =>
    rw [forOf]
    rcases hothers s (.head _) with rfl | hended
    · rw [hmine]
    -- what has ended is passed over without a change
    · have hskip : visitActive session.maintainerId
          (session.expiresAt - 1) s svc = (svc, .ok none) := by
        simp [visitActive, hended]
      have hne : session ≠ s := by
        rintro rfl
        rw [hopen] at hended
        cases hended
      rw [hskip]
      exact ih ((mem_cons.mp hmem).resolve_left hne) (fun t ht => hothers t (.tail _ ht))

/-- **WHAT CAN STILL BE RETURNED** is what is in the map and has not ended. -/
theorem returnable_iff (hkeyed : Keyed w.service) (id : Text) :
    Returnable w id ↔ Live w.service id := by
  constructor
  · rintro ⟨later, hstart, maintainerId, now, session, rfl, hret⟩
    have hrun := run_evolves hkeyed hstart
    have hkeyed' := hkeyed.evolves hrun
    obtain ⟨hget, -, hopen, -⟩ := getActiveSession_some hkeyed' (Prod.ext rfl hret)
    have hactive := getActiveSession_evolves hkeyed' maintainerId now
    exact ⟨session, hrun.open_before (hactive.open_before hget hopen) hopen, hopen⟩
  · rintro ⟨session, hget, hopen⟩
    -- end every other session, then ask before the expiry
    have hids := endings_get (w.service.sessions.keys.filter (· ≠ id)) hkeyed
    refine ⟨endings (w.service.sessions.keys.filter (· ≠ id)), ?_,
      session.maintainerId, session.expiresAt - 1, session,
      hkeyed id session hget, ?_⟩
    · intro op hop
      obtain ⟨k, -, rfl⟩ := mem_map.mp hop
      rfl
    have hkept := (hids id).1 (by simp)
    refine forOf_visitActive hopen ?_ ?_
    · exact (mem_values_iff _ session).mpr ⟨id, hkept.trans hget⟩
    intro s hs
    obtain ⟨k, hk⟩ := (mem_values_iff _ s).mp hs
    by_cases hkid : k = id
    · rw [hkid, hkept, hget] at hk
      exact .inl (some.inj hk).symm
    refine .inr ((hids k).2 ?_ s hk)
    have hhas : w.service.sessions.has k = true := by
      by_contra hno
      have hnone := (w.service.sessions.has_eq_false k).mp (Bool.eq_false_iff.mpr hno)
      have hout : k ∉ w.service.sessions.keys.filter (· ≠ id) := by
        rw [mem_filter, mem_keys_iff]
        exact fun h => hno h.1
      rw [(hids k).1 hout, hnone] at hk
      cases hk
    exact mem_filter.mpr ⟨(w.service.sessions.mem_keys_iff k).mpr hhas, by simpa using hkid⟩

/-! ## Starting a session -/

theorem mathMin_le {x : JsNumber} {b q : ℚ} (h : mathMin x (.finite b) = .finite q) : q ≤ b := by
  rw [mathMin] at h
  split at h
  · cases h
  split at h
  · rename_i hle
    rw [h] at hle
    exact of_decide_eq_true hle
  · exact (finite.inj h).ge

theorem timeClip_intCast {n t : Int} (h : timeClip (.finite n) = some t) :
    t = n ∧ |n| ≤ maxTime := by
  rw [timeClip] at h
  split at h
  · rename_i hrange
    have hint : (if (n : ℚ) < 0 then ⌈(n : ℚ)⌉ else ⌊(n : ℚ)⌋) = n := by
      rw [Int.ceil_intCast, Int.floor_intCast, ite_self]
    rw [hint] at h
    exact ⟨(some.inj h).symm, by exact_mod_cast hrange⟩
  · cases h

/-- An instant cut off from a number does not cross an integer above it. -/
theorem timeClip_le {q : ℚ} {t n : Int} (h : timeClip (.finite q) = some t)
    (hq : q ≤ n) : t ≤ n := by
  rw [timeClip] at h
  split at h
  · cases h
    -- negative times are rounded up, the others down
    split
    · exact Int.ceil_le.mpr hq
    · exact_mod_cast (Int.floor_le q).trans hq
  · cases h

variable {permissions : List ImpersonationPermission} {input : StartSessionInput}
  {session : ImpersonationSession} {randomId : Text} {now : Int}

theorem checkStart_positive (h : checkStart input = .ok permissions) :
    le (sessionDuration input.durationMs) 0 = false := by
  by_contra hle
  rw [Bool.not_eq_false] at hle
  simp only [checkStart, hle, if_true] at h
  split_ifs at h
  cases hread : readPermissions (input.permissions.getD [ascii "read"]) with
  | error message => rw [hread] at h; cases h
  | ok permissions => rw [hread] at h; cases h

/-- **THE HARD CAP**: a session expires at most an hour after its start,
    whatever duration was asked for. -/
theorem newSession_capped (hcheck : checkStart input = .ok permissions)
    (h : newSession input permissions randomId now = some session) :
    session.expiresAt ≤ session.startedAt + maxSessionDurationMs := by
  have hpos := checkStart_positive hcheck
  rw [newSession] at h
  split at h
  · rename_i startedAt expiresAt hstart hexpires
    cases h
    show expiresAt ≤ startedAt + maxSessionDurationMs
    obtain ⟨rfl, hrange⟩ := timeClip_intCast hstart
    cases hd : sessionDuration input.durationMs with
    | finite q =>
      -- the duration is the smaller of what was asked for and the cap
      have hq : q ≤ ((maxSessionDurationMs : Nat) : ℚ) := mathMin_le hd
      rw [hd] at hexpires hpos
      have hq0 : ((0 : Nat) : ℚ) < q := lt_of_not_ge (of_decide_eq_false hpos)
      have hsum : add (.finite (startedAt : ℚ)) (.finite q) = binary64 (startedAt + q) := rfl
      rw [hsum] at hexpires
      have hcast : |(startedAt : ℚ)| ≤ 8640000000000000 := by exact_mod_cast hrange
      have hmax : ((maxSessionDurationMs : Nat) : ℚ) = 3600000 := by norm_num [maxSessionDurationMs]
      rw [abs_le] at hcast
      rw [Nat.cast_zero] at hq0
      -- the sum is far from where doubles stop telling integers apart
      have hsafe : |(startedAt : ℚ) + q| < 2 ^ (53 : Nat) := by
        rw [abs_lt]
        constructor <;> norm_num <;> linarith
      cases hr : binary64 (startedAt + q) with
      | finite r =>
        have hle := binary64_le_intCast (n := startedAt + maxSessionDurationMs) hsafe
          (by push_cast; linarith) hr
        rw [hr] at hexpires
        exact timeClip_le hexpires hle
      | posInf => rw [hr] at hexpires; cases hexpires
      | negInf => rw [hr] at hexpires; cases hexpires
      | nan => rw [hr] at hexpires; cases hexpires
    | posInf => rw [hd] at hexpires; cases hexpires
    | negInf => rw [hd] at hexpires; cases hexpires
    | nan => rw [hd] at hexpires; cases hexpires
  · cases h

theorem newSession_open (h : newSession input permissions randomId now = some session) :
    session.id = randomId ∧ session.endedAt = none ∧ session.endReason = none := by
  rw [newSession] at h
  split at h
  · cases h
    exact ⟨rfl, rfl, rfl⟩
  · cases h

def started (svc : ImpersonationService) (input : StartSessionInput)
    (session : ImpersonationSession) : ImpersonationService :=
  (svc.setSession session).evictOldestIfNeeded.recordEvent
    (startedEvent session input (sessionDuration input.durationMs))

/-- **WHAT A START DOES**: nothing if it throws, else a session more. -/
theorem step_startSession (w : World) (input : StartSessionInput) (randomId : Text) (now : Int) :
    w.step (.startSession input randomId now) = w
      ∨ ∃ permissions session, checkStart input = .ok permissions
        ∧ newSession input permissions randomId now = some session
        ∧ w.step (.startSession input randomId now)
          = ⟨started w.service input session, w.opened ++ [session]⟩ := by
  show w.start (w.service.startSession input randomId now) = w ∨ _
  cases hcheck : checkStart input with
  | error message =>
    left
    rw [startSession, hcheck]
    rfl
  | ok permissions =>
    cases hnew : newSession input permissions randomId now with
    | none =>
      left
      rw [startSession, hcheck]
      simp only [hnew]
      rfl
    | some session =>
      refine .inr ⟨permissions, session, rfl, hnew, ?_⟩
      show w.start (w.service.startSession input randomId now) = _
      rw [startSession, hcheck]
      simp only [hnew]
      rfl

theorem started_closings (svc : ImpersonationService)
    (input : StartSessionInput) (session : ImpersonationSession) (k : Text) :
    (started svc input session).closings k = svc.closings k := by
  rw [started, closings_recordEvent]
  show (evictOldestIfNeeded _).audit.countP _ + 0 = _
  rw [evictOldestIfNeeded]
  split <;> rfl

theorem started_get (svc : ImpersonationService) (input : StartSessionInput)
    (session : ImpersonationSession) (k : Text) :
    (started svc input session).sessions.get k = if ((svc.setSession session).evicted.map
          ImpersonationSession.id) = some k then none else if session.id = k then some session
        else svc.sessions.get k := by
  show (evictOldestIfNeeded _).sessions.get k = _
  rw [evictOldestIfNeeded]
  cases (svc.setSession session).evicted with
  | none =>
    rw [map_none, if_neg nofun]
    exact svc.sessions.get_set session.id session k
  | some oldest =>
    show ((svc.sessions.set session.id session).delete oldest.id).get k = _
    rw [get_delete, get_set, map_some]
    simp only [Option.some.injEq]

/-- What is pushed out was in the map. -/
theorem evicted_mem {oldest : ImpersonationSession} (h : svc.evicted = some oldest) :
    oldest ∈ svc.sessions.values := by
  rw [evicted] at h
  split at h
  · cases h
  have hhead := mem_of_mem_head? (mem_def.mpr h)
  exact (mem_insertionSort _).mp hhead

/-! ## The invariant -/

/-- The session as it was when it was started. -/
def ImpersonationSession.opening (session : ImpersonationSession) :
    ImpersonationSession :=
  { session with endedAt := none, endReason := none }

/-- Every session in the map was started, and has a closing event exactly if
    it has ended. -/
structure Sound (w : World) : Prop where
  keyed : Keyed w.service
  origin : ∀ k s, w.service.sessions.get k = some s → s.opening ∈ w.opened
  capped : ∀ s ∈ w.opened, s.expiresAt ≤ s.startedAt + maxSessionDurationMs
  counted : ∀ k s, w.service.sessions.get k = some s →
    w.service.closings k = if s.endedAt.isSome then 1 else 0
  unknown : ∀ k, (∀ s ∈ w.opened, s.id ≠ k) → w.service.closings k = 0

theorem Sound.init (maxSessions : JsNumber) (localeCompare : Int → Int → Ordering) :
    Sound (World.init maxSessions localeCompare) where
  keyed _ _ h := nomatch h
  origin _ _ h := nomatch h
  capped _ h := nomatch h
  counted _ _ h := nomatch h
  unknown _ _ := rfl

theorem Sound.evolves {w w' : World} (h : Sound w)
    (hev : Evolves w.service w'.service) (hopened : w'.opened = w.opened) : Sound w' where
  keyed := h.keyed.evolves hev
  origin k s hs := by
    rw [hopened]
    rcases hev k with ⟨hget, -⟩ | ⟨t, _, _, ht, -, ht', -⟩
    · exact h.origin k s (hget ▸ hs)
    rw [ht'] at hs
    cases hs
    exact h.origin k t ht
  capped := hopened ▸ h.capped
  counted k s hs := by
    rcases hev k with ⟨hget, hcount⟩ | ⟨t, _, _, ht, hopen, ht', hcount⟩
    · rw [hcount]
      exact h.counted k s (hget ▸ hs)
    rw [ht'] at hs
    rw [← some.inj hs, hcount, h.counted k t ht, hopen]
    rfl
  unknown k hk := by
    rw [hopened] at hk
    rcases hev k with ⟨-, hcount⟩ | ⟨t, _, _, ht, -⟩
    · rw [hcount]
      exact h.unknown k hk
    -- a session that is closed was started
    exact absurd (h.keyed k t ht) (hk t.opening (h.origin k t ht))

section Starting

variable {w : World} {input : StartSessionInput}
  {permissions : List ImpersonationPermission} {randomId : Text} {now : Int}
  {session : ImpersonationSession}

theorem started_get_some {k : Text} {s : ImpersonationSession}
    (hs : (started w.service input session).sessions.get k = some s) :
    session.id = k ∧ s = session ∨ w.service.sessions.get k = some s := by
  rw [started_get] at hs
  split at hs
  · cases hs
  split at hs
  · rename_i hk
    exact .inl ⟨hk, (some.inj hs).symm⟩
  · exact .inr hs

theorem Sound.started (h : Sound w) (hcheck : checkStart input = .ok permissions)
    (hnew : newSession input permissions randomId now = some session)
    (hfresh : ∀ s ∈ w.opened, s.id ≠ randomId) :
    Sound ⟨Impersonation.started w.service input session, w.opened ++ [session]⟩ := by
  obtain ⟨hid, hopen, hreason⟩ := newSession_open hnew
  refine ⟨fun k s hs => ?_, fun k s hs => ?_, fun s hs => ?_, fun k s hs => ?_, fun k hk => ?_⟩
  · rcases started_get_some hs with ⟨hk, rfl⟩ | hold
    · exact hk
    · exact h.keyed k s hold
  -- a new session is its own opening
  · rcases started_get_some hs with ⟨-, rfl⟩ | hold
    · have hself : s.opening = s := by rw [ImpersonationSession.opening, ← hopen, ← hreason]
      rw [hself]
      exact mem_append_right _ (mem_singleton_self s)
    · exact mem_append_left _ (h.origin k s hold)
  · rcases mem_append.mp hs with hold | hlast
    · exact h.capped s hold
    rw [mem_singleton.mp hlast]
    exact newSession_capped hcheck hnew
  · show (Impersonation.started w.service input session).closings k = _
    rw [started_closings]
    rcases started_get_some hs with ⟨hk, rfl⟩ | hold
    -- a fresh id has no closing event yet
    · rw [hopen, ← hk, hid]
      exact h.unknown randomId hfresh
    · exact h.counted k s hold
  · show (Impersonation.started w.service input session).closings k = _
    rw [started_closings]
    exact h.unknown k (fun s hs => hk s (mem_append_left _ hs))

end Starting

/-- **THE INVARIANT**: kept by every call, whatever is pushed out. -/
theorem Sound.step {w : World} (h : Sound w) {op : Op} (hfresh : Fresh w op) :
    Sound (w.step op) := by
  by_cases hstart : op.isStart = true
  · cases op with
    | startSession input randomId now =>
      rcases step_startSession w input randomId now with heq | hok
      · rw [heq]
        exact h
      obtain ⟨permissions, session, hcheck, hnew, heq⟩ := hok
      rw [heq]
      exact h.started hcheck hnew hfresh
    | _ => cases hstart
  -- every other call only closes sessions
  · obtain ⟨hev, hopened⟩ := step_evolves h.keyed (Bool.eq_false_iff.mpr hstart)
    exact h.evolves hev hopened

/-- What is allowed is allowed in a session that is open. -/
theorem authorize_allowed {svc svc' : ImpersonationService}
    (hkeyed : Keyed svc) {input : AuthorizeInput} {now : Int} {decision : AuthorizationDecision}
    (h : svc.authorize input now = (svc', .ok decision)) (hallowed : decision.allowed = true) :
    ∃ session, svc'.sessions.get session.id = some session
      ∧ session.maintainerId = input.maintainerId ∧ session.endedAt = none ∧ now < session.expiresAt
      ∧ (input.action ∈ elevatedOnlyActions → .elevated ∈ session.permissions
            ∧ input.elevatedConfirmation = true) := by
  rw [authorize] at h
  split at h
  · rw [← ok.inj (mk.inj h).2] at hallowed
    cases hallowed
  split at h
  · cases h
  · rw [← ok.inj (mk.inj h).2] at hallowed
    cases hallowed
  -- of the branches that answer, only the last one allows
  · rename_i svc₁ session heq
    obtain ⟨hget, hmine, hopen, hnow⟩ := getActiveSession_some hkeyed heq
    rw [authorizeIn] at h
    split at h
    · rw [← ok.inj (mk.inj h).2] at hallowed
      cases hallowed
    rename_i helevated
    split at h
    · rw [← ok.inj (mk.inj h).2] at hallowed
      cases hallowed
    rename_i hconfirmed
    refine ⟨session, ?_, hmine, hopen, hnow, fun hneeds => ?_⟩
    · rw [← (mk.inj h).1]
      exact hget
    simp only [decide_eq_true hneeds, Bool.true_and,
      Bool.not_eq_true', Bool.not_eq_false] at helevated hconfirmed
    exact ⟨contains_iff_mem.mp helevated, hconfirmed⟩

/-- **NO IMPLICIT AUTHORITY**. -/
theorem Sound.allowedInSession {w : World} (h : Sound w) (op : Op) : AllowedInSession w op := by
  cases op with
  | authorize input now =>
    intro svc decision hauth hallowed
    obtain ⟨session, hget, hmine, hopen, hnow, helevated⟩ :=
      authorize_allowed h.keyed hauth hallowed
    have hev := authorize_evolves h.keyed input now
    have h' : Sound ⟨(w.service.authorize input now).1, w.opened⟩ := h.evolves hev rfl
    rw [hauth] at hev h'
    -- the session was open before the call too, so no event closes it
    have hbefore := hev.open_before hget hopen
    have hmem := h.origin _ _ hbefore
    refine ⟨session.opening, hmem, hmine, hnow, ?_, ?_, ?_, helevated⟩
    · exact (h.counted _ _ hbefore).trans (by rw [hopen]; rfl)
    · exact (h'.counted _ _ hget).trans (by rw [hopen]; rfl)
    · exact hnow.le.trans (h.capped session.opening hmem)
  | _ => trivial

/-! ## The account -/

theorem accounted_iff {w : World} (hkeyed : Keyed w.service) :
    Accounted w ↔ ∀ session ∈ w.opened, ¬ Live w.service session.id →
      w.service.closings session.id = 1 := by
  simp only [Accounted, returnable_iff hkeyed]

theorem accounted_evolves {w w' : World} (h : Sound w) (hacc : Accounted w)
    (hev : Evolves w.service w'.service) (hopened : w'.opened = w.opened) : Accounted w' := by
  rw [accounted_iff (h.keyed.evolves hev), hopened]
  rw [accounted_iff h.keyed] at hacc
  intro session hmem hdead
  -- dead before the call, or closed by it with its one event
  rcases hev session.id with ⟨hget, hcount⟩ | ⟨t, _, _, ht, hopen, -, hcount⟩
  · rw [hcount]
    refine hacc session hmem (fun ⟨s, hs, hopen⟩ => hdead ⟨s, ?_, hopen⟩)
    rw [hget]
    exact hs
  rw [hcount, h.counted _ t ht, hopen]
  rfl

section Eviction

variable {w : World} {input : StartSessionInput}
  {permissions : List ImpersonationPermission} {randomId : Text} {now : Int}
  {session : ImpersonationSession} {oldest : ImpersonationSession}

/-- What is pushed out is the new session or one of the map. -/
theorem evicted_get (hkeyed : Keyed w.service)
    (h : (w.service.setSession session).evicted = some oldest) :
    oldest = session ∨ w.service.sessions.get oldest.id = some oldest := by
  obtain ⟨k, hk⟩ := (mem_values_iff _ oldest).mp (evicted_mem h)
  have hset : (if session.id = k then some session else w.service.sessions.get k) = some oldest :=
    (w.service.sessions.get_set session.id session k).symm.trans hk
  split at hset
  · exact .inl (some.inj hset).symm
  rw [hkeyed k oldest hset]
  exact .inr hset

theorem accounted_started (h : Sound w) (hacc : Accounted w)
    (hcheck : checkStart input = .ok permissions)
    (hnew : newSession input permissions randomId now = some session)
    (hfresh : ∀ s ∈ w.opened, s.id ≠ randomId)
    (hended : ∀ oldest, (w.service.setSession session).evicted = some oldest →
      oldest.endedAt.isSome = true) :
    Accounted ⟨started w.service input session, w.opened ++ [session]⟩ := by
  obtain ⟨hid, hopen, -⟩ := newSession_open hnew
  rw [accounted_iff (h.started hcheck hnew hfresh).keyed]
  rw [accounted_iff h.keyed] at hacc
  intro s hs hdead
  show (started w.service input session).closings s.id = 1
  rw [started_closings]
  by_cases hgone : (w.service.setSession session).evicted.map ImpersonationSession.id = some s.id
  · obtain ⟨oldest, hev, hsame⟩ := map_eq_some_iff.mp hgone
    have hend := hended oldest hev
    -- the new session is open, so what was pushed out is an older one
    rcases evicted_get h.keyed hev with rfl | hold
    · rw [hopen] at hend
      cases hend
    rw [← hsame, h.counted _ _ hold, hend]
    rfl
  · by_cases hself : session.id = s.id
    · refine absurd ⟨session, ?_, hopen⟩ hdead
      show (started w.service input session).sessions.get s.id = _
      rw [started_get, if_neg hgone, if_pos hself]
    have hmem : s ∈ w.opened := by
      rcases mem_append.mp hs with hold | hlast
      · exact hold
      rw [mem_singleton.mp hlast] at hself
      exact absurd rfl hself
    refine hacc s hmem (fun ⟨t, ht, htopen⟩ => hdead ⟨t, ?_, htopen⟩)
    show (started w.service input session).sessions.get s.id = _
    rw [started_get, if_neg hgone, if_neg hself]
    exact ht

theorem not_accounted_started (h : Sound w) (hcheck : checkStart input = .ok permissions)
    (hnew : newSession input permissions randomId now = some session)
    (hfresh : ∀ s ∈ w.opened, s.id ≠ randomId)
    (hev : (w.service.setSession session).evicted = some oldest) (hlost : oldest.endedAt = none) :
    ¬ Accounted ⟨started w.service input session, w.opened ++ [session]⟩ := by
  obtain ⟨hid, -, -⟩ := newSession_open hnew
  rw [accounted_iff (h.started hcheck hnew hfresh).keyed]
  intro hacc
  have hgone : (started w.service input session).sessions.get oldest.id = none := by
    rw [started_get, hev, map_some, if_pos rfl]
  have hdead : ¬ Live (started w.service input session) oldest.id := by
    rintro ⟨t, ht, -⟩
    rw [hgone] at ht
    cases ht
  have hzero : w.service.closings oldest.id = 0
      ∧ ∃ s ∈ w.opened ++ [session], s.id = oldest.id := by
    rcases evicted_get h.keyed hev with rfl | hold
    · rw [hid]
      exact ⟨h.unknown randomId hfresh, oldest, by simp, hid⟩
    refine ⟨?_, oldest.opening, mem_append_left _ (h.origin _ _ hold), rfl⟩
    rw [h.counted _ _ hold, hlost]
    rfl
  obtain ⟨hcount, s, hmem, hs⟩ := hzero
  have hone := hacc s hmem (hs ▸ hdead)
  have hkept : (started w.service input session).closings s.id
      = w.service.closings s.id := started_closings _ _ _ _
  rw [hs] at hone hkept
  have hzero' := hkept.trans hcount
  exact absurd (hzero'.symm.trans hone) (by decide)

end Eviction

/-- What a step has to keep: the account, and what is allowed in it. -/
def StepAccounted (w : World) (op : Op) : Prop :=
  Accounted (w.step op) ∧ AllowedInSession w op

theorem stepAccounted_of_dropsEnded {w : World} (h : Sound w)
    (hacc : Accounted w) {op : Op} (hfresh : Fresh w op)
    (hdrops : DropsEnded w op) : StepAccounted w op := by
  refine ⟨?_, h.allowedInSession op⟩
  by_cases hstart : op.isStart = true
  · cases op with
    | startSession input randomId now =>
      rcases step_startSession w input randomId now with heq | hok
      · rw [heq]
        exact hacc
      obtain ⟨permissions, session, hcheck, hnew, heq⟩ := hok
      rw [heq]
      exact accounted_started h hacc hcheck hnew hfresh (hdrops permissions session hcheck hnew)
    | _ => cases hstart
  · obtain ⟨hev, hopened⟩ := step_evolves h.keyed (Bool.eq_false_iff.mpr hstart)
    exact accounted_evolves h hacc hev hopened

theorem dropsEnded_of_accounted {w : World} (h : Sound w) {op : Op}
    (hfresh : Fresh w op) (hacc : Accounted (w.step op)) : DropsEnded w op := by
  cases op with
  | startSession input randomId now =>
    intro permissions session hcheck hnew oldest hev
    by_contra hlost
    rcases step_startSession w input randomId now with heq | hok
    · -- a start that passes its checks is recorded
      have hlen : (w.step (.startSession input randomId now)).opened.length
          = w.opened.length + 1 := by
        show (w.start (w.service.startSession input randomId now)).opened.length = _
        rw [startSession, hcheck]
        simp only [hnew]
        exact length_append
      rw [heq] at hlen
      omega
    · obtain ⟨permissions', session', hcheck', hnew', heq⟩ := hok
      obtain rfl := ok.inj (hcheck.symm.trans hcheck')
      obtain rfl := some.inj (hnew.symm.trans hnew')
      rw [heq] at hacc
      exact not_accounted_started h hcheck hnew hfresh hev (by simpa using hlost) hacc
  | _ => trivial

/-- **EVERY SESSION IS ACCOUNTED FOR** exactly in the runs that only push
    sessions out of the map which have ended. -/
theorem sessions_accounted_iff (maxSessions : JsNumber)
    (localeCompare : Int → Int → Ordering) (ops : List Op)
    (hfresh : Along World.step Fresh (World.init maxSessions localeCompare) ops) :
    Along World.step StepAccounted (World.init maxSessions localeCompare) ops
      ↔ Along World.step DropsEnded (World.init maxSessions localeCompare)
        ops := by
  constructor
  · intro h
    refine Along.imp (I := Sound) ?_ (Sound.init _ _) (hfresh.and h)
    rintro w op hsound ⟨hnew, hstep, -⟩
    exact ⟨dropsEnded_of_accounted hsound hnew hstep, hsound.step hnew⟩
  intro h
  refine Along.imp (I := fun w => Sound w ∧ Accounted w) ?_
    ⟨Sound.init _ _, nofun⟩ (hfresh.and h)
  rintro w op ⟨hsound, hacc⟩ ⟨hnew, hdrops⟩
  have hstep := stepAccounted_of_dropsEnded hsound hacc hnew hdrops
  exact ⟨hstep, hsound.step hnew, hstep.1⟩

/-! ## An open session that is pushed out -/

instance Fresh.decidable (w : World) : (op : Op) → Decidable (Fresh w op)
  | .startSession _ randomId _ => inferInstanceAs
      (Decidable (∀ session ∈ w.opened, session.id ≠ randomId))
  | .getActiveSession .. => instDecidableTrue
  | .authorize .. => instDecidableTrue
  | .endSession .. => instDecidableTrue
  | .listSessions .. => instDecidableTrue
  | .purgeExpired .. => instDecidableTrue

def sampleStart (maintainerId : String) : StartSessionInput where
  maintainerId := ascii maintainerId
  targetId := ascii "GSELLER"
  permissions := none
  reason := ascii "stuck invoice"
  durationMs := none
  ip := none
  userAgent := none

/-- A service with room for one session. -/
def sampleWorld : World := .init 1 compare

/-- Two maintainers start a session each. -/
def sampleOps : List Op :=
  [.startSession (sampleStart "m1") (ascii "s1") 0, .startSession (sampleStart "m2") (ascii "s2") 1]

theorem sessions_accounted_iff_sample : Along World.step Fresh sampleWorld sampleOps
      ∧ (Along World.step StepAccounted sampleWorld sampleOps
        ↔ Along World.step DropsEnded sampleWorld sampleOps) := by
  have hfresh : Along World.step Fresh sampleWorld sampleOps := by decide +kernel
  exact ⟨hfresh, sessions_accounted_iff 1 compare sampleOps hfresh⟩

/-- The first session is dropped from the map while it is active, and no event
    closes it. -/
theorem open_session_unaccounted : ¬ ∀ maxSessions localeCompare ops,
      le 1 maxSessions = true →
      Along World.step Fresh (World.init maxSessions localeCompare) ops →
      Along World.step StepAccounted (World.init maxSessions localeCompare)
        ops := by
  intro hall
  have hrun := hall 1 compare sampleOps (by decide +kernel) (by decide +kernel)
  have hacc : Accounted (sampleOps.foldl World.step sampleWorld) := hrun.2.1.1
  have hsound : Sound (sampleOps.foldl World.step sampleWorld) := by
    refine Along.invariant (P := Fresh) (fun _ _ h hnew => h.step hnew)
      (Sound.init 1 compare) (by decide +kernel)
  rw [accounted_iff hsound.keyed] at hacc
  have hgone : (sampleOps.foldl World.step sampleWorld).service.sessions.get (ascii "s1") = none
    ∧ (sampleOps.foldl World.step sampleWorld).service.closings (ascii "s1") = 0
    ∧ (sampleOps.foldl World.step sampleWorld).opened.any
      (fun s => decide (s.id = ascii "s1")) = true := by
    decide +kernel
  obtain ⟨hget, hcount, hany⟩ := hgone
  obtain ⟨s, hmem, hid⟩ := any_eq_true.mp hany
  have hs : s.id = ascii "s1" := of_decide_eq_true hid
  have hone := hacc s hmem (by
    rintro ⟨t, ht, -⟩
    rw [hs, hget] at ht
    cases ht)
  rw [hs, hcount] at hone
  cases hone

end Impersonation

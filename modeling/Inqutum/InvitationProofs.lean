import Inqutum.InsertionMapProofs
import Inqutum.RoundingProofs
import Inqutum.ScriptValueProofs
import Inqutum.TransitionProofs

/-!
# Collaboration invitations

`InvitationService` keeps the invitations by id and an index from the
secret tokens to the ids.  An invitation is pending until it is accepted
by its token, revoked, or found to be past its expiry by an attempt to
accept it.

A call reads the clock up to twice and draws a fresh id and token (`Env`).
What it does to one invitation is a function of that invitation
(`after`), and every invariant is read off it.

The life cycle is the law of one call (`Lawful`) and the number of status
changes of a run.  `life_cycle_iff` says that both hold exactly when no
authorised revocation comes to an invitation that was accepted or has
expired: `revokeInvitation` does not look at the status.
-/

namespace Invitation

open Transition InsertionMap JsNumber

/-! ## Records -/

inductive CollaborationRole where
  | owner
  | admin
  | collaborator
  | viewer

def CollaborationRole.text : CollaborationRole → String
  | owner => "OWNER"
  | admin => "ADMIN"
  | collaborator => "COLLABORATOR"
  | viewer => "VIEWER"

/-- `ROLE_HIERARCHY`. -/
def CollaborationRole.rank : CollaborationRole → Nat
  | owner => 4
  | admin => 3
  | collaborator => 2
  | viewer => 1

inductive InvitationStatus where
  | pending
  | accepted
  | expired
  | revoked
  deriving DecidableEq

structure CollaborationInvitation where
  id : String
  organizationId : String
  inviterId : String
  inviterRole : CollaborationRole
  inviteeEmail : String
  assignedRole : CollaborationRole
  token : String
  status : InvitationStatus
  createdAt : Int
  /-- `none` is an invalid date. -/
  expiresAt : Option Int
  acceptedAt : Option Int
  acceptedBy : Option String
  revokedAt : Option Int
  revokedBy : Option String

structure CreateInvitationRequest where
  organizationId : String
  inviterId : String
  inviterRole : CollaborationRole
  inviteeEmail : String
  assignedRole : CollaborationRole
  expiresInMs : Option JsNumber

structure Thrown where
  name : String
  message : String

def roleEscalationError (inviterRole assignedRole : CollaborationRole) :
    Thrown :=
  ⟨"RoleEscalationError", "Role escalation rejected: actor with role '"
    ++ inviterRole.text ++ "' cannot grant higher role '"
    ++ assignedRole.text ++ "'."⟩

def invitationExpiredError : Thrown :=
  ⟨"InvitationExpiredError", "This invitation has expired and can no longer be accepted."⟩

def invitationRevokedError : Thrown :=
  ⟨"InvitationRevokedError", "This invitation has been revoked."⟩

def invitationThrottledError (reason : String) : Thrown :=
  ⟨"InvitationThrottledError", "Invitation rate limit exceeded: " ++ reason⟩

def error (message : String) : Thrown := ⟨"Error", message⟩

/-! ## The environment of a call -/

structure ThrottleConfig where
  maxInvitesPerWindow : JsNumber
  windowMs : JsNumber
  maxInvitesPerTargetEmail : JsNumber

def ThrottleConfig.default : ThrottleConfig where
  maxInvitesPerWindow := 5
  windowMs := 600000
  maxInvitesPerTargetEmail := 3

/-- What the service is built with, and the host's lower case. -/
structure Config where
  throttle : ThrottleConfig
  toLowerCase : String → String

structure Env where
  /-- `Date.now()`. -/
  now : Int
  /-- `new Date()`, read after it. -/
  date : Int
  /-- `crypto.randomUUID()`. -/
  uuid : String
  /-- `crypto.randomBytes(32).toString('hex')`. -/
  token : String

/-! ## The service -/

structure InvitationService where
  invitations : InsertionMap String CollaborationInvitation
  tokenIndex : InsertionMap String String
  inviterHistory : InsertionMap String (List Int)
  targetHistory : InsertionMap String (List Int)

/-- `Date.now() > invite.expiresAt.getTime()`; an invalid date never
    passes. -/
def overdue (now : Int) (invite : CollaborationInvitation) : Bool :=
  match invite.expiresAt with
  | some expiresAt => decide (expiresAt < now)
  | none => false

def emailKey (config : Config) (email : String) : String :=
  JsText.trim (config.toLowerCase email)

/-- The times of a history that are still in the window. -/
def recent (config : Config) (history : InsertionMap String (List Int))
    (key : String) (now : Int) : List Int :=
  ((history.get key).getD []).filter (fun t =>
    lt (sub (.finite now) (.finite t)) config.throttle.windowMs)

/-- `req.expiresInMs || 7 days`: zero and NaN count as not given. -/
def expiresInMs (req : CreateInvitationRequest) : JsNumber :=
  match req.expiresInMs with
  | some ms => if ms = 0 ∨ ms = .nan then 604800000 else ms
  | none => 604800000

/-- The inviter, an Admin or an Owner may revoke. -/
def mayRevoke (invite : CollaborationInvitation) (revokerId : String)
    (revokerRole : CollaborationRole) : Bool :=
  decide (CollaborationRole.admin.rank ≤ revokerRole.rank)
    || decide (invite.inviterId = revokerId)

def newInvitation (config : Config) (env : Env)
    (req : CreateInvitationRequest) : CollaborationInvitation where
  id := env.uuid
  organizationId := req.organizationId
  inviterId := req.inviterId
  inviterRole := req.inviterRole
  inviteeEmail := emailKey config req.inviteeEmail
  assignedRole := req.assignedRole
  token := env.token
  status := .pending
  createdAt := env.now
  expiresAt := Canonical.timeClip (add (.finite env.now) (expiresInMs req))
  acceptedAt := none
  acceptedBy := none
  revokedAt := none
  revokedBy := none

def revoked (env : Env) (revokerId : String)
    (invite : CollaborationInvitation) : CollaborationInvitation :=
  { invite with
    status := .revoked
    revokedAt := some env.date
    revokedBy := some revokerId }

def accepted (env : Env) (userId : String)
    (invite : CollaborationInvitation) : CollaborationInvitation :=
  { invite with
    status := .accepted
    acceptedAt := some env.date
    acceptedBy := some userId }

def expired (invite : CollaborationInvitation) : CollaborationInvitation :=
  { invite with status := .expired }

abbrev Reply (α : Type) := InvitationService × Except Thrown α

namespace InvitationService

def new : InvitationService := ⟨.empty, .empty, .empty, .empty⟩

/-- The histories with the new invitation in both, if neither is full. -/
def checkRateLimit (config : Config) (s : InvitationService)
    (inviterId targetEmail : String) (now : Int) :
    Except Thrown InvitationService :=
  let inviterTimes := recent config s.inviterHistory inviterId now
  let key := emailKey config targetEmail
  let targetTimes := recent config s.targetHistory key now
  if le config.throttle.maxInvitesPerWindow (.ofNat inviterTimes.length) then
    .error (invitationThrottledError ("Too many invitations sent. Limit is "
        ++ config.throttle.maxInvitesPerWindow.toText
        ++ " per 10 minutes."))
  else if le config.throttle.maxInvitesPerTargetEmail (.ofNat targetTimes.length) then
    .error (invitationThrottledError ("Too many invitations sent to recipient '" ++ targetEmail
        ++ "'. Please wait before inviting again."))
  else
    .ok { s with
      inviterHistory := s.inviterHistory.set inviterId (inviterTimes ++ [now])
      targetHistory := s.targetHistory.set key (targetTimes ++ [now]) }

def createInvitation (config : Config) (s : InvitationService) (env : Env)
    (req : CreateInvitationRequest) : Reply CollaborationInvitation :=
  if req.inviterRole.rank < req.assignedRole.rank then
    (s, .error (roleEscalationError req.inviterRole req.assignedRole))
  else
    match s.checkRateLimit config req.inviterId req.inviteeEmail env.now with
    | .error thrown => (s, .error thrown)
    | .ok counted =>
      let invitation := newInvitation config env req
      ({ counted with
        invitations := counted.invitations.set env.uuid invitation
        tokenIndex := counted.tokenIndex.set env.token env.uuid },
        .ok invitation)

/-- Write an invitation's new state. -/
def write (s : InvitationService) (id : String)
    (invite : CollaborationInvitation) : InvitationService :=
  { s with invitations := s.invitations.set id invite }

/-- The status is not looked at. -/
def revokeInvitation (s : InvitationService) (env : Env)
    (invitationId revokerId : String) (revokerRole : CollaborationRole) :
    Reply CollaborationInvitation :=
  match s.invitations.get invitationId with
  | none => (s, .error (error ("Invitation '" ++ invitationId ++ "' not found.")))
  | some invite =>
    if !mayRevoke invite revokerId revokerRole then
      (s, .error (error ("Unauthorized: only the inviter, an Admin, or an"
        ++ " Owner can revoke this invitation.")))
    else
      (s.write invitationId (revoked env revokerId invite), .ok (revoked env revokerId invite))

def acceptInvitation (s : InvitationService) (env : Env)
    (token userId : String) : Reply CollaborationInvitation :=
  match s.tokenIndex.get token with
  | none => (s, .error (error "Invalid or unknown invitation token."))
  | some inviteId =>
    if inviteId = "" then
      (s, .error (error "Invalid or unknown invitation token."))
    else
      match s.invitations.get inviteId with
      | none => (s, .error (error "Invitation record not found."))
      | some invite =>
        if invite.status = .revoked then
          (s, .error invitationRevokedError)
        else if invite.status = .accepted then
          (s, .error (error "Invitation has already been accepted."))
        else if overdue env.now invite then
          (s.write inviteId (expired invite), .error invitationExpiredError)
        else
          (s.write inviteId (accepted env userId invite), .ok (accepted env userId invite))

def getInvitation (s : InvitationService) (invitationId : String) :
    Option CollaborationInvitation :=
  s.invitations.get invitationId

end InvitationService

open InvitationService

/-! ## Runs -/

inductive Op where
  | createInvitation (req : CreateInvitationRequest)
  | acceptInvitation (token userId : String)
  | revokeInvitation (invitationId revokerId : String) (revokerRole : CollaborationRole)
  | getInvitation (invitationId : String)

/-- One call: the service after it, and what it threw. -/
def call (config : Config) (s : InvitationService) (env : Env) : Op → Reply Unit
  | .createInvitation req => (s.createInvitation config env req).map id (Except.map (fun _ => ()))
  | .acceptInvitation token userId =>
    (s.acceptInvitation env token userId).map id (Except.map (fun _ => ()))
  | .revokeInvitation invitationId revokerId revokerRole =>
    (s.revokeInvitation env invitationId revokerId revokerRole).map id (Except.map (fun _ => ()))
  | .getInvitation _ => (s, .ok ())

def step (config : Config) (s : InvitationService) (c : Op × Env) :
    InvitationService :=
  (call config s c.2 c.1).1

/-- The id drawn for an invitation was not drawn before. -/
def Fresh (s : InvitationService) (c : Op × Env) : Prop :=
  match c.1 with
  | .createInvitation _ => s.invitations.get c.2.uuid = none
  | _ => True

/-! ## The law of a call -/

/-- The stamps of an invitation are those of its status. -/
structure Stamped (invite : CollaborationInvitation) : Prop where
  acceptedAt : invite.acceptedAt.isSome = true ↔ invite.status = .accepted
  acceptedBy : invite.acceptedBy.isSome = true ↔ invite.status = .accepted
  revokedAt : invite.revokedAt.isSome = true ↔ invite.status = .revoked
  revokedBy : invite.revokedBy.isSome = true ↔ invite.status = .revoked

/-- The law of one call for one invitation: `invite` before the call,
    `invite'` after it. -/
structure Evolves (c : Op × Env) (threw : Bool)
    (invite invite' : CollaborationInvitation) : Prop where
  /-- Only a pending invitation changes its status, and for good. -/
  status : invite'.status = invite.status ∨ invite.status = .pending ∧ invite'.status ≠ .pending
  accepted : invite'.status = .accepted → invite.status ≠ .accepted →
    ∃ userId, c.1 = .acceptInvitation invite.token userId ∧ overdue c.2.now invite = false
  unharmed : threw = true → invite' = invite
    ∨ invite.status = .pending ∧ overdue c.2.now invite = true ∧ invite' = expired invite

def threw (config : Config) (s : InvitationService) (c : Op × Env) : Bool :=
  !(call config s c.2 c.1).2.isOk

structure Lawful (config : Config) (s : InvitationService) (c : Op × Env) : Prop where
  evolves : ∀ id invite, s.invitations.get id = some invite →
    ∃ invite', (step config s c).invitations.get id = some invite'
      ∧ Evolves c (threw config s c) invite invite'
  starts : ∀ id invite', s.invitations.get id = none →
    (step config s c).invitations.get id = some invite' →
    invite'.status = .pending ∧ threw config s c = false
  stamped : ∀ id invite', (step config s c).invitations.get id = some invite' → Stamped invite'

/-- The status under an id changes at this call. -/
def changes (config : Config) (id : String) (s : InvitationService) (c : Op × Env) : Bool :=
  match s.invitations.get id, (step config s c).invitations.get id with
  | some invite, some invite' => decide (invite.status ≠ invite'.status)
  | _, _ => false

/-- How often the status under an id changes in a run. -/
def statusChanges (config : Config) (id : String) : InvitationService → List (Op × Env) → Nat
  | _, [] => 0
  | s, c :: calls =>
    (if changes config id s c then 1 else 0) + statusChanges config id (step config s c) calls

/-- An authorised revocation comes to an invitation that waits or is revoked
    already. -/
def RevokesActive (s : InvitationService) (c : Op × Env) : Prop :=
  match c.1 with
  | .revokeInvitation id revokerId revokerRole =>
    ∀ invite ∈ s.invitations.get id, mayRevoke invite revokerId revokerRole = true →
      invite.status = .pending ∨ invite.status = .revoked
  | _ => True

instance (s : InvitationService) : (c : Op × Env) → Decidable (RevokesActive s c)
  | (.revokeInvitation id revokerId revokerRole, _) =>
    inferInstanceAs (Decidable (∀ invite ∈ s.invitations.get id,
      mayRevoke invite revokerId revokerRole = true →
      invite.status = .pending ∨ invite.status = .revoked))
  | (.createInvitation _, _) => instDecidableTrue
  | (.acceptInvitation _ _, _) => instDecidableTrue
  | (.getInvitation _, _) => instDecidableTrue

instance (s : InvitationService) : (c : Op × Env) → Decidable (Fresh s c)
  | (.createInvitation _, env) => inferInstanceAs (Decidable (s.invitations.get env.uuid = none))
  | (.revokeInvitation _ _ _, _) => instDecidableTrue
  | (.acceptInvitation _ _, _) => instDecidableTrue
  | (.getInvitation _, _) => instDecidableTrue

/-! ## What a call does to one invitation -/

theorem threw_map {α : Type} {r : Reply α} :
    (!(r.map id (Except.map (fun _ => ()))).2.isOk : Bool) = !r.2.isOk := by
  obtain ⟨s', reply⟩ := r
  cases reply <;> rfl

/-- What an attempt to accept makes of an invitation. -/
def attempted (env : Env) (userId : String)
    (invite : CollaborationInvitation) : CollaborationInvitation :=
  if invite.status = .revoked ∨ invite.status = .accepted then invite
  else if overdue env.now invite then expired invite
  else accepted env userId invite

/-- The invitation under an id after a call. -/
def after (s : InvitationService) (c : Op × Env) (id : String)
    (invite : CollaborationInvitation) : CollaborationInvitation :=
  match c.1 with
  | .acceptInvitation token userId =>
    if s.tokenIndex.get token = some id ∧ id ≠ "" then
      attempted c.2 userId invite
    else invite
  | .revokeInvitation invitationId revokerId revokerRole =>
    if invitationId = id ∧ mayRevoke invite revokerId revokerRole = true
    then revoked c.2 revokerId invite
    else invite
  | _ => invite

section Calls

variable {config : Config} {s : InvitationService} {id : String}
  {invite : CollaborationInvitation}

theorem write_get (invite' : CollaborationInvitation) :
    (s.write id invite').invitations.get id = some invite' :=
  get_set_self _ _ _

theorem write_get_of_ne {id' : String} (invite' : CollaborationInvitation) (h : id' ≠ id) :
    (s.write id' invite').invitations.get id = s.invitations.get id :=
  get_set_of_ne _ _ h

theorem checkRateLimit_ok {counted : InvitationService} {inviterId targetEmail : String} {now : Int}
    (h : s.checkRateLimit config inviterId targetEmail now = .ok counted) :
    counted.invitations = s.invitations ∧ counted.tokenIndex = s.tokenIndex := by
  rw [checkRateLimit] at h
  split at h
  · cases h
  split at h
  · cases h
  cases h
  exact ⟨rfl, rfl⟩

theorem createInvitation_cases (config : Config) (s : InvitationService)
    (env : Env) (req : CreateInvitationRequest) :
    (s.createInvitation config env req).1 = s ∨ ((s.createInvitation config env req).1.invitations
          = s.invitations.set env.uuid (newInvitation config env req)
        ∧ (s.createInvitation config env req).1.tokenIndex = s.tokenIndex.set env.token env.uuid
        ∧ (s.createInvitation config env req).2.isOk = true) := by
  rw [createInvitation]
  split
  · exact .inl rfl
  cases h : s.checkRateLimit config req.inviterId req.inviteeEmail env.now with
  | error thrown => exact .inl rfl
  | ok counted =>
    obtain ⟨hinvitations, hindex⟩ := checkRateLimit_ok h
    refine .inr ⟨?_, ?_, rfl⟩
    · show counted.invitations.set _ _ = _
      rw [hinvitations]
    show counted.tokenIndex.set _ _ = _
    rw [hindex]

variable {env : Env} {token userId : String}

theorem after_accept (h : s.tokenIndex.get token = some id) (hid : id ≠ "") :
    after s (.acceptInvitation token userId, env) id invite = attempted env userId invite :=
  if_pos ⟨h, hid⟩

theorem after_accept_other (h : ¬ (s.tokenIndex.get token = some id ∧ id ≠ "")) :
    after s (.acceptInvitation token userId, env) id invite = invite :=
  if_neg h

theorem attempted_closed {userId : String}
    (h : invite.status = .revoked ∨ invite.status = .accepted) :
    attempted env userId invite = invite :=
  if_pos h

theorem attempted_open {userId : String} (hrevoked : invite.status ≠ .revoked)
    (haccepted : invite.status ≠ .accepted) :
    attempted env userId invite = if overdue env.now invite then expired invite
        else accepted env userId invite :=
  if_neg (fun h => h.elim hrevoked haccepted)

theorem acceptInvitation_spec (s : InvitationService) (env : Env) (token userId : String) :
    ((s.acceptInvitation env token userId).1 = s
        ∧ (s.acceptInvitation env token userId).2.isOk = false
        ∧ ∀ id invite, s.invitations.get id = some invite →
          after s (.acceptInvitation token userId, env) id invite = invite)
      ∨ ∃ id invite, s.tokenIndex.get token = some id ∧ id ≠ "" ∧ s.invitations.get id = some invite
        ∧ invite.status ≠ .revoked ∧ invite.status ≠ .accepted
        ∧ (s.acceptInvitation env token userId).1 = s.write id (attempted env userId invite)
        ∧ (s.acceptInvitation env token userId).2.isOk = !overdue env.now invite := by
  have hother : s.tokenIndex.get token = none ∨ s.tokenIndex.get token = some ""
      → ∀ id invite, s.invitations.get id = some invite →
        after s (.acceptInvitation token userId, env) id invite = invite := by
    intro hnone id invite _
    refine after_accept_other fun hcase => ?_
    rcases hnone with hnone | hempty
    · cases hnone.symm.trans hcase.1
    · exact hcase.2 (Option.some.inj (hcase.1.symm.trans hempty))
  cases hindex : s.tokenIndex.get token with
  | none =>
    rw [acceptInvitation, hindex]
    exact .inl ⟨rfl, rfl, hother (.inl hindex)⟩
  | some inviteId =>
    by_cases hempty : inviteId = ""
    · rw [acceptInvitation, hindex]
      dsimp only
      rw [if_pos hempty]
      exact .inl ⟨rfl, rfl, hother (.inr (hempty ▸ hindex))⟩
    have honly : ∀ id, s.tokenIndex.get token = some id → id = inviteId :=
      fun id h => Option.some.inj (h.symm.trans hindex)
    cases hget : s.invitations.get inviteId with
    | none =>
      rw [acceptInvitation, hindex]
      dsimp only
      rw [if_neg hempty, hget]
      refine .inl ⟨rfl, rfl, fun id invite h => ?_⟩
      refine after_accept_other fun hcase => ?_
      rw [honly id hcase.1, hget] at h
      cases h
    | some invite =>
      by_cases hclosed : invite.status = .revoked ∨ invite.status = .accepted
      · obtain ⟨error, hrefused⟩ :
            ∃ error, s.acceptInvitation env token userId = (s, .error error) := by
          rw [acceptInvitation, hindex]
          dsimp only
          rw [if_neg hempty, hget]
          dsimp only
          rcases hclosed with h | h
          · rw [if_pos h]
            exact ⟨_, rfl⟩
          · rw [h, if_neg (by decide), if_pos rfl]
            exact ⟨_, rfl⟩
        rw [hrefused]
        refine .inl ⟨rfl, rfl, fun id invite' h => ?_⟩
        by_cases hcase : s.tokenIndex.get token = some id ∧ id ≠ ""
        · rw [honly id hcase.1, hget] at h
          rw [after_accept hcase.1 hcase.2, ← Option.some.inj h]
          exact attempted_closed hclosed
        · exact after_accept_other hcase
      · rw [not_or] at hclosed
        refine .inr ⟨inviteId, invite, rfl, hempty, hget, hclosed.1, hclosed.2, ?_⟩
        rw [acceptInvitation, hindex]
        dsimp only
        rw [if_neg hempty, hget]
        dsimp only
        rw [if_neg hclosed.1, if_neg hclosed.2, attempted_open hclosed.1 hclosed.2]
        cases overdue env.now invite <;> exact ⟨rfl, rfl⟩

/-- What a revocation leaves, and whether it throws. -/
theorem revokeInvitation_spec (s : InvitationService) (env : Env)
    (invitationId revokerId : String) (revokerRole : CollaborationRole) :
    ((s.revokeInvitation env invitationId revokerId revokerRole).1 = s
        ∧ (s.revokeInvitation env invitationId revokerId revokerRole).2.isOk = false
        ∧ ∀ invite, s.invitations.get invitationId = some invite →
          mayRevoke invite revokerId revokerRole = false)
      ∨ ∃ invite, s.invitations.get invitationId = some invite
        ∧ mayRevoke invite revokerId revokerRole = true
        ∧ (s.revokeInvitation env invitationId revokerId revokerRole).1
          = s.write invitationId (revoked env revokerId invite)
        ∧ (s.revokeInvitation env invitationId revokerId revokerRole).2.isOk = true := by
  rw [revokeInvitation]
  cases s.invitations.get invitationId with
  | none => exact Or.inl ⟨rfl, rfl, fun _ h => nomatch h⟩
  | some invite =>
    cases hmay : mayRevoke invite revokerId revokerRole with
    | true =>
      refine .inr ⟨invite, rfl, hmay, ?_⟩
      dsimp only
      rw [hmay]
      exact ⟨rfl, rfl⟩
    | false =>
      refine Or.inl ?_
      dsimp only
      rw [hmay]
      refine ⟨rfl, rfl, fun invite' h => ?_⟩
      cases h
      exact hmay

theorem acceptInvitation_get (h : s.invitations.get id = some invite) :
    (s.acceptInvitation env token userId).1.invitations.get id
      = some (after s (.acceptInvitation token userId, env) id invite) := by
  rcases acceptInvitation_spec s env token userId with
    ⟨hsame, -, hafter⟩ | ⟨inviteId, other, hindex, hnamed, hget, -, -, hwrite, -⟩
  · rw [hsame, hafter id invite h, h]
  rw [hwrite]
  by_cases hid : inviteId = id
  · subst hid
    rw [write_get, after_accept hindex hnamed, Option.some.inj (hget.symm.trans h)]
  -- the token is another invitation's
  rw [write_get_of_ne _ hid, h, after_accept_other fun hcase =>
    hid (Option.some.inj (hindex.symm.trans hcase.1))]

theorem revokeInvitation_get {invitationId revokerId : String} {revokerRole : CollaborationRole}
    (h : s.invitations.get id = some invite) :
    (s.revokeInvitation env invitationId revokerId revokerRole).1.invitations.get id
      = some (after s (.revokeInvitation invitationId revokerId revokerRole, env) id invite) := by
  show _ = some (if invitationId = id ∧ mayRevoke invite revokerId revokerRole = true
    then revoked env revokerId invite else invite)
  rcases revokeInvitation_spec s env invitationId revokerId revokerRole with
    ⟨hsame, -, hnot⟩ | ⟨other, hget, hmay, hwrite, -⟩
  · rw [hsame, h, if_neg]
    rintro ⟨rfl, hmay⟩
    cases (hnot invite h).symm.trans hmay
  rw [hwrite]
  by_cases hid : invitationId = id
  · subst hid
    obtain rfl := Option.some.inj (hget.symm.trans h)
    rw [write_get, if_pos ⟨rfl, hmay⟩]
  · rw [write_get_of_ne _ hid, h, if_neg (fun hcase => hid hcase.1)]

/-- **THE STEP OF ONE INVITATION**. -/
theorem step_get {c : Op × Env} (hfresh : Fresh s c) (h : s.invitations.get id = some invite) :
    (step config s c).invitations.get id = some (after s c id invite) := by
  obtain ⟨op, env⟩ := c
  cases op with
  | createInvitation req =>
    show (s.createInvitation config env req).1.invitations.get id = some invite
    rcases createInvitation_cases config s env req with
      hsame | ⟨hadded, -, -⟩
    · rw [hsame, h]
    have hne : env.uuid ≠ id := by
      intro heq
      have hnone : s.invitations.get env.uuid = none := hfresh
      rw [heq, h] at hnone
      cases hnone
    rw [hadded, get_set_of_ne _ _ hne, h]
  | acceptInvitation token userId => exact acceptInvitation_get h
  | revokeInvitation invitationId revokerId revokerRole => exact revokeInvitation_get h
  | getInvitation invitationId => exact h

theorem step_new {c : Op × Env} (hnone : s.invitations.get id = none)
    (h : (step config s c).invitations.get id = some invite) :
    ∃ req, c.1 = .createInvitation req ∧ id = c.2.uuid ∧ invite = newInvitation config c.2 req
      ∧ threw config s c = false := by
  obtain ⟨op, env⟩ := c
  have hwrite : ∀ {id' : String} {other other' : CollaborationInvitation},
      s.invitations.get id' = some other →
      (s.write id' other').invitations.get id = none := by
    intro id' other other' hget
    have hne : id' ≠ id := by
      rintro rfl
      cases hnone.symm.trans hget
    rw [write_get_of_ne _ hne, hnone]
  cases op with
  | createInvitation req =>
    change (s.createInvitation config env req).1.invitations.get id = some invite at h
    rcases createInvitation_cases config s env req with
      hsame | ⟨hadded, -, hok⟩
    · rw [hsame, hnone] at h
      cases h
    rw [hadded, get_set] at h
    split at h
    · rename_i hid
      refine ⟨req, rfl, hid.symm, (Option.some.inj h).symm, ?_⟩
      rw [threw, call, threw_map, hok]
      rfl
    rw [hnone] at h
    cases h
  | acceptInvitation token userId =>
    change (s.acceptInvitation env token userId).1.invitations.get id = some invite at h
    rcases acceptInvitation_spec s env token userId with
      ⟨hsame, -, -⟩ | ⟨inviteId, other, -, -, hget, -, -, heq, -⟩
    · rw [hsame, hnone] at h
      cases h
    rw [heq, hwrite hget] at h
    cases h
  | revokeInvitation invitationId revokerId revokerRole =>
    change (s.revokeInvitation env invitationId revokerId
      revokerRole).1.invitations.get id = some invite at h
    rcases revokeInvitation_spec s env invitationId revokerId revokerRole
      with ⟨hsame, -, -⟩ | ⟨other, hget, -, heq, -⟩
    · rw [hsame, hnone] at h
      cases h
    rw [heq, hwrite hget] at h
    cases h
  | getInvitation invitationId => cases hnone.symm.trans h

theorem step_index (config : Config) (s : InvitationService) (c : Op × Env) :
    (step config s c).tokenIndex = s.tokenIndex ∨ ∃ req, (step config s c).tokenIndex
          = s.tokenIndex.set c.2.token c.2.uuid
        ∧ (step config s c).invitations.get c.2.uuid = some (newInvitation config c.2 req) := by
  obtain ⟨op, env⟩ := c
  cases op with
  | createInvitation req =>
    rcases createInvitation_cases config s env req with
      hsame | ⟨hadded, hindex, -⟩
    · exact .inl (congrArg (·.tokenIndex) hsame)
    refine .inr ⟨req, hindex, ?_⟩
    show (s.createInvitation config env req).1.invitations.get env.uuid
      = some (newInvitation config env req)
    rw [hadded, get_set_self]
  | acceptInvitation token userId =>
    refine Or.inl ?_
    show (s.acceptInvitation env token userId).1.tokenIndex = s.tokenIndex
    rcases acceptInvitation_spec s env token userId with
      ⟨hsame, -, -⟩ | ⟨_, _, -, -, -, -, -, heq, -⟩
    · rw [hsame]
    rw [heq]
    rfl
  | revokeInvitation invitationId revokerId revokerRole =>
    refine Or.inl ?_
    show (s.revokeInvitation env invitationId revokerId revokerRole).1.tokenIndex = s.tokenIndex
    rcases revokeInvitation_spec s env invitationId revokerId revokerRole
      with ⟨hsame, -, -⟩ | ⟨_, -, -, heq, -⟩
    · rw [hsame]
    rw [heq]
    rfl
  | getInvitation invitationId => exact .inl rfl

end Calls

/-! ## The invariant -/

/-- What holds before the calls that are still to come: a token leads to its
    own invitation, and one that has expired is overdue for all of them. -/
structure Kept (s : InvitationService) (calls : List (Op × Env)) : Prop where
  indexed : ∀ token id, s.tokenIndex.get token = some id →
    ∃ invite, s.invitations.get id = some invite ∧ invite.token = token
  stamped : ∀ id invite, s.invitations.get id = some invite → Stamped invite
  passed : ∀ id invite, s.invitations.get id = some invite →
    invite.status = .expired → ∀ c ∈ calls, overdue c.2.now invite = true

theorem Kept.new (calls : List (Op × Env)) : Kept .new calls where
  indexed _ _ h := nomatch h
  stamped _ _ h := nomatch h
  passed _ _ h := nomatch h

theorem newInvitation_stamped (config : Config) (env : Env) (req : CreateInvitationRequest) :
    Stamped (newInvitation config env req) := by
  constructor <;> exact iff_of_false nofun nofun

variable {invite : CollaborationInvitation} {env : Env}

theorem revoked_stamped {revokerId : String} (h : Stamped invite)
    (hactive : invite.status = .pending ∨ invite.status = .revoked) :
    Stamped (revoked env revokerId invite) := by
  have hnot : invite.status ≠ .accepted := by
    rcases hactive with heq | heq <;> rw [heq] <;> decide
  exact
    { acceptedAt := iff_of_false (fun hat => hnot (h.acceptedAt.mp hat)) nofun
      acceptedBy := iff_of_false (fun hby => hnot (h.acceptedBy.mp hby)) nofun
      revokedAt := iff_of_true rfl rfl
      revokedBy := iff_of_true rfl rfl }

theorem attempted_stamped {userId : String} (h : Stamped invite) :
    Stamped (attempted env userId invite) := by
  by_cases hclosed : invite.status = .revoked ∨ invite.status = .accepted
  · rw [attempted_closed hclosed]
    exact h
  rw [not_or] at hclosed
  rw [attempted_open hclosed.1 hclosed.2]
  have hrevokedAt := fun hat => hclosed.1 (h.revokedAt.mp hat)
  have hrevokedBy := fun hby => hclosed.1 (h.revokedBy.mp hby)
  split
  · exact
      { acceptedAt := iff_of_false (fun hat => hclosed.2 (h.acceptedAt.mp hat)) nofun
        acceptedBy := iff_of_false (fun hby => hclosed.2 (h.acceptedBy.mp hby)) nofun
        revokedAt := iff_of_false hrevokedAt nofun
        revokedBy := iff_of_false hrevokedBy nofun }
  exact
    { acceptedAt := iff_of_true rfl rfl
      acceptedBy := iff_of_true rfl rfl
      revokedAt := iff_of_false hrevokedAt nofun
      revokedBy := iff_of_false hrevokedBy nofun }

/-- A later call finds overdue what an earlier one found overdue. -/
theorem overdue_mono {now now' : Int} (h : overdue now invite = true) (hle : now ≤ now') :
    overdue now' invite = true := by
  rw [overdue] at h ⊢
  cases hexp : invite.expiresAt with
  | none =>
    rw [hexp] at h
    cases h
  | some t =>
    rw [hexp] at h
    exact decide_eq_true ((of_decide_eq_true h).trans_le hle)

/-! ## A call that revokes only what is active -/

section Steps

variable {config : Config} {s : InvitationService} {calls : List (Op × Env)}
  {c : Op × Env} {id : String} {invite : CollaborationInvitation}

theorem evolves_accept {env : Env} {token userId : String}
    (hkept : Kept s ((.acceptInvitation token userId, env) :: calls))
    (h : s.invitations.get id = some invite) : Evolves (.acceptInvitation token userId, env)
      (threw config s (.acceptInvitation token userId, env)) invite
      (after s (.acceptInvitation token userId, env) id invite) := by
  by_cases hcase : s.tokenIndex.get token = some id ∧ id ≠ ""
  · rw [after_accept hcase.1 hcase.2]
    by_cases hclosed : invite.status = .revoked ∨ invite.status = .accepted
    · rw [attempted_closed hclosed]
      exact ⟨.inl rfl, fun h hne => absurd h hne, fun _ => .inl rfl⟩
    rw [not_or] at hclosed
    rw [attempted_open hclosed.1 hclosed.2]
    have hstatus : invite.status = .pending ∨ invite.status = .expired := by
      cases hs : invite.status with
      | pending => exact .inl rfl
      | expired => exact .inr rfl
      | accepted => exact absurd hs hclosed.2
      | revoked => exact absurd hs hclosed.1
    split
    · rename_i hover
      rcases hstatus with hpending | hexpired
      · exact
          { status := .inr ⟨hpending, nofun⟩
            accepted := nofun
            unharmed := fun _ => .inr ⟨hpending, hover, rfl⟩ }
      -- it was found overdue before, and stays as it is
      have hself : expired invite = invite := by rw [expired, ← hexpired]
      rw [hself]
      exact ⟨.inl rfl, fun h hne => absurd h hne, fun _ => .inl rfl⟩
    · rename_i hintime
      have hpending : invite.status = .pending := by
        rcases hstatus with hpending | hexpired
        · exact hpending
        · exact absurd (hkept.passed id invite h hexpired _ (.head _)) hintime
      obtain ⟨own, hown, htoken⟩ := hkept.indexed token id hcase.1
      obtain rfl := Option.some.inj (hown.symm.trans h)
      refine
        { status := .inr ⟨hpending, nofun⟩
          accepted := fun _ _ => ⟨userId, by rw [htoken], Bool.eq_false_iff.mpr hintime⟩
          unharmed := fun hthrew => ?_ }
      -- a call that accepts does not throw
      rcases acceptInvitation_spec s env token userId with
        ⟨-, -, hafter⟩ | ⟨other, invite', hindex, -, hget, -, -, -, hok⟩
      · have heq := hafter id own h
        rw [after_accept hcase.1 hcase.2, attempted_open hclosed.1 hclosed.2, if_neg hintime] at heq
        exact absurd (congrArg (·.status) heq).symm (hclosed.2)
      obtain rfl := Option.some.inj (hindex.symm.trans hcase.1)
      obtain rfl := Option.some.inj (hget.symm.trans h)
      rw [threw, call] at hthrew
      have hthrew' := threw_map.symm.trans hthrew
      rw [hok, Bool.not_not] at hthrew'
      exact absurd hthrew' hintime
  · rw [after_accept_other hcase]
    exact ⟨.inl rfl, fun h hne => absurd h hne, fun _ => .inl rfl⟩

theorem evolves_revoke {env : Env} {invitationId revokerId : String}
    {revokerRole : CollaborationRole}
    (hactive : RevokesActive s (.revokeInvitation invitationId revokerId revokerRole, env))
    (h : s.invitations.get id = some invite) :
    Evolves (.revokeInvitation invitationId revokerId revokerRole, env) (threw config s
        (.revokeInvitation invitationId revokerId revokerRole, env)) invite
      (after s (.revokeInvitation invitationId revokerId revokerRole, env) id invite) := by
  by_cases hcase : invitationId = id ∧ mayRevoke invite revokerId revokerRole = true
  · obtain ⟨rfl, hmay⟩ := hcase
    rw [after]
    dsimp only
    rw [if_pos ⟨rfl, hmay⟩]
    refine
      { status := ?_
        accepted := fun h => (nomatch h)
        unharmed := fun hthrew => ?_ }
    · rcases hactive invite h hmay with hpending | hrevoked
      · exact .inr ⟨hpending, nofun⟩
      · exact .inl hrevoked.symm
    rcases revokeInvitation_spec s env invitationId revokerId revokerRole
      with ⟨-, -, hnot⟩ | ⟨-, -, -, -, hok⟩
    · cases (hnot invite h).symm.trans hmay
    rw [threw, call] at hthrew
    have hthrew' := threw_map.symm.trans hthrew
    rw [hok] at hthrew'
    cases hthrew'
  · rw [after]
    dsimp only
    rw [if_neg hcase]
    exact ⟨.inl rfl, fun h hne => absurd h hne, fun _ => .inl rfl⟩

theorem evolves (hkept : Kept s (c :: calls)) (hactive : RevokesActive s c)
    (h : s.invitations.get id = some invite) :
    Evolves c (threw config s c) invite (after s c id invite) := by
  obtain ⟨op, env⟩ := c
  cases op with
  | acceptInvitation token userId => exact evolves_accept hkept h
  | revokeInvitation invitationId revokerId revokerRole => exact evolves_revoke hactive h
  | _ => exact ⟨.inl rfl, fun h hne => absurd h hne, fun _ => .inl rfl⟩

theorem after_stamped (hstamped : Stamped invite)
    (hactive : RevokesActive s c) (h : s.invitations.get id = some invite) :
    Stamped (after s c id invite) := by
  obtain ⟨op, env⟩ := c
  cases op with
  | acceptInvitation token userId =>
    rw [after]
    dsimp only
    split
    · exact attempted_stamped hstamped
    · exact hstamped
  | revokeInvitation invitationId revokerId revokerRole =>
    rw [after]
    dsimp only
    split
    · rename_i hcase
      obtain ⟨rfl, hmay⟩ := hcase
      exact revoked_stamped hstamped (hactive invite h hmay)
    · exact hstamped
  | _ => exact hstamped

theorem after_terms : (after s c id invite).token = invite.token
    ∧ (after s c id invite).expiresAt = invite.expiresAt := by
  have hattempted : ∀ env userId, (attempted env userId invite).token = invite.token
        ∧ (attempted env userId invite).expiresAt = invite.expiresAt := by
    intro env userId
    rw [attempted]
    split
    · exact ⟨rfl, rfl⟩
    · split <;> exact ⟨rfl, rfl⟩
  rw [after]
  split
  · split
    · exact hattempted _ _
    · exact ⟨rfl, rfl⟩
  · split <;> exact ⟨rfl, rfl⟩
  · exact ⟨rfl, rfl⟩

theorem after_expired (h : (after s c id invite).status = .expired) :
    invite.status = .expired ∨ overdue c.2.now invite = true := by
  rw [after] at h
  split at h
  · split at h
    · rw [attempted] at h
      split at h
      · exact .inl h
      split at h
      · rename_i hover
        exact .inr hover
      · cases h
    · exact .inl h
  · split at h
    · cases h
    · exact .inl h
  · exact .inl h

theorem stamped_step (hkept : Kept s (c :: calls)) (hfresh : Fresh s c)
    (hactive : RevokesActive s c) {id : String} {invite' : CollaborationInvitation}
    (hget' : (step config s c).invitations.get id = some invite') : Stamped invite' := by
  cases hget : s.invitations.get id with
  | none =>
    obtain ⟨req, -, -, rfl, -⟩ := step_new hget hget'
    exact newInvitation_stamped config c.2 req
  | some invite =>
    rw [step_get hfresh hget] at hget'
    cases hget'
    exact after_stamped (hkept.stamped id invite hget) hactive hget

theorem Kept.step (hkept : Kept s (c :: calls)) (hfresh : Fresh s c) (hactive : RevokesActive s c)
    (hclock : ∀ d ∈ calls, c.2.now ≤ d.2.now) : Kept (step config s c) calls where
  indexed token id hindex := by
    rcases step_index config s c with hsame | ⟨req, hset, hnew⟩
    · rw [hsame] at hindex
      obtain ⟨invite, hget, htoken⟩ := hkept.indexed token id hindex
      exact ⟨_, step_get hfresh hget, after_terms.1.trans htoken⟩
    rw [hset, get_set] at hindex
    split at hindex
    · rename_i htoken
      cases hindex
      exact ⟨_, hnew, htoken⟩
    obtain ⟨invite, hget, htoken⟩ := hkept.indexed token id hindex
    exact ⟨_, step_get hfresh hget, after_terms.1.trans htoken⟩
  stamped _ _ := stamped_step hkept hfresh hactive
  passed id invite' hget' hexpired d hd := by
    cases hget : s.invitations.get id with
    | none =>
      obtain ⟨req, -, -, rfl, -⟩ := step_new hget hget'
      cases hexpired
    | some invite =>
      rw [step_get hfresh hget] at hget'
      cases hget'
      have hover : overdue d.2.now invite = true := by
        rcases after_expired hexpired with hbefore | hnow
        · exact hkept.passed id invite hget hbefore d (List.mem_cons_of_mem c hd)
        · exact overdue_mono hnow (hclock d hd)
      rw [overdue, after_terms.2]
      exact hover

theorem lawful_of_active (hkept : Kept s (c :: calls)) (hfresh : Fresh s c)
    (hactive : RevokesActive s c) : Lawful config s c where
  evolves _ _ hget := ⟨_, step_get hfresh hget, evolves hkept hactive hget⟩
  starts _ _ hnone hget := by
    obtain ⟨req, -, -, rfl, hok⟩ := step_new hnone hget
    exact ⟨rfl, hok⟩
  stamped _ _ := stamped_step hkept hfresh hactive

theorem active_of_lawful (hfresh : Fresh s c) (h : Lawful config s c) : RevokesActive s c := by
  obtain ⟨op, env⟩ := c
  cases op with
  | revokeInvitation invitationId revokerId revokerRole =>
    intro invite hget hmay
    obtain ⟨invite', hget', hevolves⟩ := h.evolves invitationId invite hget
    rw [step_get hfresh hget, after] at hget'
    dsimp only at hget'
    rw [if_pos ⟨rfl, hmay⟩] at hget'
    cases hget'
    rcases hevolves.status with hsame | ⟨hpending, -⟩
    · exact .inr hsame.symm
    · exact .inl hpending
  | _ => exact trivial

end Steps

/-! ## Runs -/

variable {calls : List (Op × Env)} {s : InvitationService} {config : Config}

theorem statusChanges_settled {id : String} {invite : CollaborationInvitation}
    (hlaw : Along (step config) (Lawful config) s calls) (hget : s.invitations.get id = some invite)
    (hsettled : invite.status ≠ .pending) : statusChanges config id s calls = 0 := by
  induction calls generalizing s invite with
  | nil => rfl
  | cons c calls ih =>
    obtain ⟨invite', hget', hevolves⟩ := hlaw.1.evolves id invite hget
    have hsame : invite'.status = invite.status := by
      rcases hevolves.status with hsame | ⟨hpending, -⟩
      · exact hsame
      · exact absurd hpending hsettled
    have hchange : changes config id s c = false := by
      rw [changes, hget, hget']
      exact decide_eq_false (fun h => h hsame.symm)
    rw [statusChanges, hchange, ih hlaw.2 hget' (hsame.symm ▸ hsettled)]
    rfl

/-- **ONE CHANGE OF STATUS**: along a lawful run. -/
theorem statusChanges_le_one (id : String) (hlaw : Along (step config) (Lawful config) s calls) :
    statusChanges config id s calls ≤ 1 := by
  induction calls generalizing s with
  | nil => exact Nat.zero_le 1
  | cons c calls ih =>
    rw [statusChanges]
    cases hchange : changes config id s c with
    | false =>
      rw [if_neg Bool.false_ne_true, Nat.zero_add]
      exact ih hlaw.2
    | true =>
      -- the change is the one that settles the invitation
      rw [changes] at hchange
      split at hchange
      · rename_i invite invite' hget hget'
        obtain ⟨_, hnext, hevolves⟩ := hlaw.1.evolves id invite hget
        obtain rfl := Option.some.inj (hnext.symm.trans hget')
        have hsettled := hevolves.status.resolve_left (fun h => of_decide_eq_true hchange h.symm)
        rw [statusChanges_settled hlaw.2 hget' hsettled.2]
        rfl
      · cases hchange

/-- **THE LIFE CYCLE OF INVITATIONS**: in a run with a clock that does not go
    back and ids that are not drawn twice, every call follows the law and no
    status changes twice, if and only if no authorised revocation comes to an
    invitation that was accepted or has expired. -/
theorem life_cycle_iff (config : Config) (calls : List (Op × Env))
    (hfresh : Along (step config) Fresh .new calls)
    (hclock : calls.Pairwise (fun c d => c.2.now ≤ d.2.now)) :
    (Along (step config) (Lawful config) .new calls ∧ ∀ id, statusChanges config id .new calls ≤ 1)
      ↔ Along (step config) RevokesActive .new calls := by
  have hlawful : ∀ s, Kept s calls → Along (step config) Fresh s calls →
      (Along (step config) (Lawful config) s calls
        ↔ Along (step config) RevokesActive s calls) := by
    clear hfresh
    induction calls with
    | nil => exact fun _ _ _ => Iff.rfl
    | cons c calls ih =>
      intro s hkept hfresh
      have hone : Lawful config s c ↔ RevokesActive s c :=
        ⟨active_of_lawful hfresh.1, lawful_of_active hkept hfresh.1⟩
      show Lawful config s c ∧ _ ↔ RevokesActive s c ∧ _
      rw [hone]
      rw [List.pairwise_cons] at hclock
      exact and_congr_right fun hactive => ih hclock.2 _
        (hkept.step hfresh.1 hactive hclock.1) hfresh.2
  have hstart := hlawful .new (Kept.new calls) hfresh
  constructor
  · intro h
    exact hstart.mp h.1
  intro h
  have hlaw := hstart.mpr h
  exact ⟨hlaw, fun id => statusChanges_le_one id hlaw⟩

/-! ## An acceptance can be taken back -/

def sampleConfig : Config := ⟨.default, fun text => text⟩

def sampleRequest (inviteeEmail : String) : CreateInvitationRequest :=
  ⟨"org", "owner", .owner, inviteeEmail, .collaborator, some 1000⟩

/-- One invitation is accepted, one revoked twice, one expires. -/
def sampleRun : List (Op × Env) :=
  [(.createInvitation (sampleRequest "a@example.com"), ⟨0, 0, "1", "s1"⟩),
    (.createInvitation (sampleRequest "b@example.com"), ⟨1, 1, "2", "s2"⟩),
    (.createInvitation (sampleRequest "c@example.com"), ⟨2, 2, "3", "s3"⟩),
    (.acceptInvitation "s1" "alice", ⟨1000, 1001, "", ""⟩),
    (.revokeInvitation "2" "owner" .viewer, ⟨1000, 1001, "", ""⟩),
    (.revokeInvitation "2" "admin" .admin, ⟨1001, 1001, "", ""⟩),
    (.acceptInvitation "s2" "bob", ⟨1001, 1001, "", ""⟩),
    (.acceptInvitation "s3" "carol", ⟨1003, 1003, "", ""⟩),
    (.acceptInvitation "s3" "carol", ⟨1004, 1004, "", ""⟩)]

theorem life_cycle_sample : Along (step sampleConfig) (Lawful sampleConfig) .new sampleRun
      ∧ ∀ id, statusChanges sampleConfig id .new sampleRun ≤ 1 :=
  (life_cycle_iff sampleConfig sampleRun (by decide +kernel)
    (by decide +kernel)).mpr (by decide +kernel)

/-- An invitation is accepted, and then revoked by its inviter. -/
def takenBack : List (Op × Env) :=
  [(.createInvitation (sampleRequest "a@example.com"), ⟨0, 0, "1", "s1"⟩),
    (.acceptInvitation "s1" "alice", ⟨10, 10, "", ""⟩),
    (.revokeInvitation "1" "owner" .owner, ⟨20, 20, "", ""⟩)]

theorem acceptance_taken_back : ¬ (Along (step sampleConfig) (Lawful sampleConfig) .new takenBack
      ∧ ∀ id, statusChanges sampleConfig id .new takenBack ≤ 1) := by
  rintro ⟨-, hone⟩
  have htwo : statusChanges sampleConfig "1" .new takenBack = 2 := by decide +kernel
  exact absurd (hone "1") (by rw [htwo]; decide)

end Invitation

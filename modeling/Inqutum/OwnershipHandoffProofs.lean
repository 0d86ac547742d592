import Inqutum.OwnershipTransferProofs

/-!
# Ownership handoff

Two promises about ownership transfer that look past the service's own
bookkeeping.

An acceptance moves a resource from the owner who offered it.  The offer
is checked against the registered owner, the acceptance is not, so this
rests on nothing being registered in between (`accepted_from_owner`).

`InvariantValidator.validateOwnershipTransition` states the ownership
rules a second time.  It agrees with the service's guards except on an
empty owner id and on the instant of expiry (`guards_agree_iff`).
-/

namespace OwnershipTransfer

open Transition Option InsertionMap OwnershipTransferService

/-! ## The owner who offered -/

/-- An acceptance takes the resource from its registered owner. -/
def AcceptedFromOwner (s : OwnershipTransferService) (e : Op × Env) : Prop :=
  match e.1 with
  | .acceptTransfer k acceptorId => ∀ r, (s.acceptTransfer e.2 k acceptorId).2 = .ok r →
      s.getResourceOwner r.resourceId = some r.currentOwnerId
  | _ => True

/-- No owner is registered over the one who offered the resource, and a
    resource whose registered owner is the empty id is offered by nobody
    else. -/
def OwnerSteady (s : OwnershipTransferService) (e : Op × Env) : Prop :=
  match e.1 with
  | .registerResourceOwner resourceId ownerId => ∀ r ∈ s.transfers.values,
      r.status = .pendingAcceptance → r.resourceId = resourceId →
      ownerId = r.currentOwnerId
  | .initiateTransfer input =>
    (s.checkInitiate e.2 input).isOk = true →
    s.getResourceOwner input.resourceId = some "" →
    input.currentOwnerId = ""
  | _ => True

instance OwnerSteady.decidable (s : OwnershipTransferService) :
    (e : Op × Env) → Decidable (OwnerSteady s e)
  | (.registerResourceOwner resourceId ownerId, _) => inferInstanceAs
      (Decidable (∀ r ∈ s.transfers.values, r.status = .pendingAcceptance →
        r.resourceId = resourceId → ownerId = r.currentOwnerId))
  | (.initiateTransfer input, env) => inferInstanceAs
      (Decidable ((s.checkInitiate env input).isOk = true →
        s.getResourceOwner input.resourceId = some "" →
        input.currentOwnerId = ""))
  | (.acceptTransfer .., _) => instDecidableTrue
  | (.cancelTransfer .., _) => instDecidableTrue
  | (.rejectTransfer .., _) => instDecidableTrue
  | (.getTransfer .., _) => instDecidableTrue
  | (.listTransfers .., _) => instDecidableTrue

instance Fresh.decidable (s : OwnershipTransferService) : (e : Op × Env) → Decidable (Fresh s e)
  | (.initiateTransfer _, env) => inferInstanceAs
      (Decidable (env.uuid ≠ "" ∧ s.transfers.get env.uuid = none))
  | (.registerResourceOwner .., _) => instDecidableTrue
  | (.acceptTransfer .., _) => instDecidableTrue
  | (.cancelTransfer .., _) => instDecidableTrue
  | (.rejectTransfer .., _) => instDecidableTrue
  | (.getTransfer .., _) => instDecidableTrue
  | (.listTransfers .., _) => instDecidableTrue

/-- Whoever offered a resource that waits is its registered owner. -/
def OfferedByOwner (s : OwnershipTransferService) : Prop :=
  ∀ id r, s.transfers.get id = some r → r.status = .pendingAcceptance →
    s.getResourceOwner r.resourceId = some r.currentOwnerId

section Owner

variable {s s' : OwnershipTransferService}

theorem OfferedByOwner.settles {r r' : OwnershipTransferRecord}
    (hs : Indexed s) (howner : OfferedByOwner s) (h : Settles s s' r r') : OfferedByOwner s' := by
  intro id q hq hpend
  obtain ⟨hbefore, hne⟩ := h.pending_before hs hq hpend
  show s'.resourceOwners.get q.resourceId = _
  rw [h.owners q.resourceId hne]
  exact howner id q hbefore hpend

theorem OfferedByOwner.settling (hs : Indexed s) (howner : OfferedByOwner s)
    (h : Settling s s') : OfferedByOwner s' := by
  induction h with
  | refl => exact howner
  | tail hbefore hstep ih =>
    obtain ⟨r, r', hsettles⟩ := hstep
    exact ih.settles (Settling.indexed hs hbefore).1 hsettles

theorem store_owner (record : OwnershipTransferRecord) (resourceId : String) :
    (s.store record).getResourceOwner resourceId = if record.resourceId = resourceId then
          some ((s.getResourceOwner resourceId).getD record.currentOwnerId)
        else s.getResourceOwner resourceId := by
  show get (if s.resourceOwners.has record.resourceId = true
    then s.resourceOwners else s.resourceOwners.set record.resourceId
      record.currentOwnerId) resourceId = _
  by_cases hhas : s.resourceOwners.has record.resourceId = true
  · rw [if_pos hhas]
    split
    -- an owner that is registered stays registered
    · rename_i hres
      obtain ⟨owner, howner⟩ := (s.resourceOwners.has_iff _).mp hhas
      rw [hres] at howner
      rw [getResourceOwner, howner, getD_some]
    · rfl
  · rw [if_neg hhas, get_set]
    split
    · rename_i hres
      have hnone := (s.resourceOwners.has_eq_false _).mp (Bool.eq_false_iff.mpr hhas)
      rw [hres] at hnone
      rw [getResourceOwner, hnone, getD_none]
    · rfl

theorem mayInitiate_owner {input : InitiateTransferInput} (hmay : s.mayInitiate input = true)
    (hnamed : s.getResourceOwner input.resourceId = some "" → input.currentOwnerId = "") :
    (s.getResourceOwner input.resourceId).getD input.currentOwnerId = input.currentOwnerId := by
  rw [mayInitiate] at hmay
  rw [getResourceOwner] at hnamed ⊢
  cases howner : s.resourceOwners.get input.resourceId with
  | none => rfl
  | some owner =>
    rw [howner] at hmay hnamed
    rw [getD_some]
    -- an empty owner counts as none registered
    rcases (Bool.or_eq_true _ _).mp hmay with hempty | hsame
    · rw [of_decide_eq_true hempty] at hnamed ⊢
      exact (hnamed rfl).symm
    · exact of_decide_eq_true hsame

variable {e : Op × Env}

theorem OfferedByOwner.step (hs : Indexed s) (howner : OfferedByOwner s) (config : Config)
    (hsteady : OwnerSteady s e) : OfferedByOwner (step config s e) := by
  rcases step_cases config e hs with
    ⟨resourceId, ownerId, hop, heq⟩ | hsettling | ⟨input, checked, hop, hcheck, heq⟩
  -- a registration: no offer is pending under another owner
  · rw [OwnerSteady, hop] at hsteady
    rw [heq]
    intro id r hr hpend
    show (s.resourceOwners.set resourceId ownerId).get r.resourceId = _
    rw [get_set]
    split
    · rename_i hres
      rw [hsteady r ((s.transfers.mem_values_iff r).mpr ⟨id, hr⟩) hpend hres.symm]
    · exact howner id r hr hpend
  · exact howner.settling hs hsettling
  rw [OwnerSteady, hop] at hsteady
  obtain ⟨hmay, -, -, hsettling, hfree, howners⟩ := checkInitiate_ok hs hcheck
  have hchecked := (hsettling.indexed hs).1
  have hkept := howner.settling hs hsettling
  rw [heq]
  intro id q hq hpend
  rw [store_get] at hq
  rw [store_owner]
  split at hq
  · rw [← some.inj hq, if_pos rfl]
    have hsame : checked.getResourceOwner input.resourceId
        = s.getResourceOwner input.resourceId := by
      rw [getResourceOwner, howners]
      rfl
    show some ((checked.getResourceOwner input.resourceId).getD
      input.currentOwnerId) = some input.currentOwnerId
    rw [hsame, mayInitiate_owner hmay (hsteady (by rw [hcheck]; rfl))]
  · -- the new offer is for a resource nothing waits for
    have hactive := (hchecked.index q.resourceId id).mpr ⟨q, hq, rfl, hpend⟩
    have hne : (newRecord config e.2 input).resourceId ≠ q.resourceId := by
      intro hres
      have hsame : input.resourceId = q.resourceId := hres
      rw [hsame, hactive] at hfree
      cases hfree
    rw [if_neg hne]
    exact hkept id q hq hpend

theorem acceptedFromOwner (hs : Indexed s) (howner : OfferedByOwner s)
    (e : Op × Env) : AcceptedFromOwner s e := by
  obtain ⟨op, env⟩ := e
  cases op with
  | acceptTransfer k acceptorId =>
    intro r hok
    rcases acceptTransfer_cases hs env k acceptorId with
      ⟨q, -, hfound, hpend, heq⟩ | ⟨-, s₁, thrown, heq, -⟩
    · rw [heq, answered] at hok
      split at hok
      · cases hok
      cases hok
      exact howner q.id q hfound hpend
    rw [heq] at hok
    cases hok
  | _ => trivial

end Owner

/-- **OWNERSHIP MOVES FROM THE OWNER WHO OFFERED IT** in every run that
    registers no other owner while the offer stands. -/
theorem accepted_from_owner (config : Config) (events : List (Op × Env))
    (hfresh : Along (step config) Fresh .new events)
    (hsteady : Along (step config) OwnerSteady .new events) :
    Along (step config) AcceptedFromOwner .new events := by
  refine Along.imp (I := fun s => Indexed s ∧ OfferedByOwner s) ?_
    ⟨Indexed.new, fun _ _ h => nomatch h⟩ (hfresh.and hsteady)
  rintro s e ⟨hs, howner⟩ ⟨hnew, hsteady⟩
  exact ⟨acceptedFromOwner hs howner e, (hs.step config hnew).1, howner.step hs config hsteady⟩

def sampleHandoff : List (Op × Env) :=
  [(.registerResourceOwner "shop" "alice", sampleEnv 0 "t0"),
    (.initiateTransfer (sampleOffer "alice" (.ofNat 1000)), sampleEnv 1 "t1"),
    (.acceptTransfer "t1" "bob", sampleEnv 2 "t2")]

theorem accepted_from_owner_sample :
    Along (step sampleConfig) AcceptedFromOwner .new sampleHandoff :=
  accepted_from_owner sampleConfig sampleHandoff (by decide +kernel) (by decide +kernel)

/-- The shop is carol's when bob accepts alice's offer of it. -/
def soldHandoff : List (Op × Env) :=
  [(.registerResourceOwner "shop" "alice", sampleEnv 0 "t0"),
    (.initiateTransfer (sampleOffer "alice" (.ofNat 1000)), sampleEnv 1 "t1"),
    (.registerResourceOwner "shop" "carol", sampleEnv 2 "t2")]

theorem accepted_from_another : ¬ ∀ config events, Along (step config) Fresh .new events →
      Along (step config) AcceptedFromOwner .new events := by
  intro hall
  have hrun := hall sampleConfig (soldHandoff
    ++ [(.acceptTransfer "t1" "bob", sampleEnv 3 "t3")]) (by decide +kernel)
  have hlast := (Along.append.mp hrun).2.1
  have hfacts : ((soldHandoff.foldl (step sampleConfig) .new).acceptTransfer
        (sampleEnv 3 "t3") "t1" "bob").2.toOption.any (fun r =>
          decide ((soldHandoff.foldl (step sampleConfig)
            .new).getResourceOwner r.resourceId ≠ some r.currentOwnerId))
      = true := by
    decide +kernel
  obtain ⟨r, hr, hother⟩ := (any_eq_true _ _).mp hfacts
  have hok : ((soldHandoff.foldl (step sampleConfig) .new).acceptTransfer
      (sampleEnv 3 "t3") "t1" "bob").2 = .ok r := by
    revert hr
    cases ((soldHandoff.foldl (step sampleConfig) .new).acceptTransfer
      (sampleEnv 3 "t3") "t1" "bob").2 with
    | error thrown => exact nofun
    | ok record => exact fun h => congrArg Except.ok (some.inj h)
  exact of_decide_eq_true hother (hlast r hok)

/-! ## The declared rules -/

inductive UserRoleTier where
  | superAdmin
  | owner
  | admin
  | collaborator
  | viewer
  deriving DecidableEq

inductive TransitionAction where
  | initiate
  | accept
  | cancel
  | reject
  deriving DecidableEq

/-- An `InvariantViolationError` of the domain `OWNERSHIP`. -/
structure InvariantViolationError where
  code : String
  message : String
  httpStatus : Nat

structure OwnershipTransitionInput where
  entityId : String
  currentOwnerId : String
  targetOwnerId : String
  actorId : String
  actorRole : UserRoleTier
  action : TransitionAction
  transferStatus : Option OwnershipTransferStatus
  /-- A date that is given may still be invalid. -/
  expiresAt : Option (Option Int)
  now : Option Int
  deriving DecidableEq

def OwnershipTransitionInput.isOwnerOrAdmin (input : OwnershipTransitionInput) : Bool :=
  decide (input.actorId = input.currentOwnerId)
    || decide (input.actorRole = .superAdmin)

/-- `expiresAt && expiresAt.getTime() <= now.getTime()`. -/
def OwnershipTransitionInput.isExpired (input : OwnershipTransitionInput) (now : Int) : Bool :=
  match input.expiresAt with
  | some (some expiresAt) => decide (expiresAt ≤ now)
  | _ => false

/-- The text of an optional status in a message. -/
def statusText : Option OwnershipTransferStatus → String
  | some status => status.text
  | none => "undefined"

/-- `InvariantValidator.validateOwnershipTransition`, with the date it reads
    if none is given. -/
def validateOwnershipTransition (date : Int) (input : OwnershipTransitionInput) :
    Except InvariantViolationError Unit :=
  if input.currentOwnerId = "" ∨ input.targetOwnerId = "" then
    .error ⟨"MISSING_OWNERSHIP_PARTIES",
      "Both current owner and target owner identifiers are required.", 400⟩
  else if input.currentOwnerId = input.targetOwnerId then
    .error ⟨"SELF_OWNERSHIP_TRANSFER_FORBIDDEN",
      "Target owner cannot be identical to current owner.", 400⟩
  else
    match input.action with
    | .initiate =>
      if !input.isOwnerOrAdmin then
        .error ⟨"UNAUTHORIZED_OWNERSHIP_INITIATION",
          "Only current owner or super admin can initiate ownership" ++ " transfer.", 403⟩
      else .ok ()
    | .accept =>
      if input.actorId ≠ input.targetOwnerId then
        .error ⟨"UNAUTHORIZED_OWNERSHIP_ACCEPTOR",
          "Only the nominated target owner can accept ownership transfer.",
          403⟩
      else if input.transferStatus ≠ some .pendingAcceptance then
        .error ⟨"INVALID_TRANSFER_STATE", "Cannot accept transfer in status '"
          ++ statusText input.transferStatus ++ "'.", 400⟩
      else if input.isExpired (input.now.getD date) then
        .error ⟨"OWNERSHIP_TRANSFER_EXPIRED", "Ownership transfer request has expired.", 400⟩
      else .ok ()
    | .cancel =>
      if !input.isOwnerOrAdmin then
        .error ⟨"UNAUTHORIZED_TRANSFER_CANCELLATION",
          "Only the current owner or super admin can cancel transfer.", 403⟩
      else .ok ()
    | .reject =>
      if input.actorId ≠ input.targetOwnerId then
        .error ⟨"UNAUTHORIZED_TRANSFER_REJECTION",
          "Only the nominated target owner can decline the transfer.", 403⟩
      else .ok ()

/-- A transfer as the validator is asked about it. -/
def transitionOf (transfer : OwnershipTransferRecord) (actorId : String)
    (role : UserRoleTier) (action : TransitionAction) (now : Int) :
    OwnershipTransitionInput where
  entityId := transfer.resourceId
  currentOwnerId := transfer.currentOwnerId
  targetOwnerId := transfer.targetOwnerId
  actorId := actorId
  actorRole := role
  action := action
  transferStatus := some transfer.status
  expiresAt := some transfer.expiresAt
  now := some now

/-- An initiation as the validator is asked about it. -/
def initiationOf (input : InitiateTransferInput) (role : UserRoleTier)
    (now : Int) : OwnershipTransitionInput where
  entityId := input.resourceId
  currentOwnerId := input.currentOwnerId
  targetOwnerId := input.targetOwnerId
  actorId := input.currentOwnerId
  actorRole := role
  action := .initiate
  transferStatus := none
  expiresAt := none
  now := some now

/-- The transition a call asks for, with the transfer as it is before the
    call; an initiation has no transfer yet. -/
def askedTransition (s : OwnershipTransferService) (e : Op × Env)
    (role : UserRoleTier) : Option OwnershipTransitionInput :=
  match e.1 with
  | .initiateTransfer input => some (initiationOf input role e.2.now)
  | .acceptTransfer k acceptorId =>
    (s.findTransferByIdOrToken k).map (fun transfer =>
      transitionOf transfer acceptorId role .accept e.2.now)
  | .cancelTransfer id actorId _ =>
    (s.transfers.get id).map (fun transfer => transitionOf transfer actorId role .cancel e.2.now)
  | .rejectTransfer id actorId _ =>
    (s.transfers.get id).map (fun transfer => transitionOf transfer actorId role .reject e.2.now)
  | _ => none

/-! ## Two parties -/

/-- Every transfer names a nominee, who is not the owner. -/
def TwoParties (s : OwnershipTransferService) : Prop :=
  ∀ id r, s.transfers.get id = some r → r.targetOwnerId ≠ "" ∧ r.currentOwnerId ≠ r.targetOwnerId

section Guards

variable {config : Config} {s s' : OwnershipTransferService} {e : Op × Env}

theorem TwoParties.settling (h : TwoParties s) (hsettling : Settling s s') : TwoParties s' := by
  induction hsettling with
  | refl => exact h
  | tail _ hstep ih =>
    obtain ⟨r, r', hsettles⟩ := hstep
    intro id q hq
    rw [hsettles.get] at hq
    split at hq
    -- settling a transfer keeps its terms
    · have htarget : r'.targetOwnerId = r.targetOwnerId := congrArg (·.targetOwnerId) hsettles.terms
      have hcurrent : r'.currentOwnerId = r.currentOwnerId :=
        congrArg (·.currentOwnerId) hsettles.terms
      rw [← some.inj hq, htarget, hcurrent]
      exact ih r.id r hsettles.found
    · exact ih id q hq

theorem named_of_trim {text : String} (h : JsText.trim text ≠ "") : text ≠ "" := by
  rintro rfl
  exact h (by decide)

theorem TwoParties.step (hs : Indexed s) (h : TwoParties s) : TwoParties (step config s e) := by
  rcases step_cases config e hs with
    ⟨resourceId, ownerId, -, heq⟩ | hsettling | ⟨input, checked, hop, hcheck, heq⟩
  · rw [heq]
    exact h
  · exact h.settling hsettling
  obtain ⟨-, hself, htrim, hsettling, -⟩ := checkInitiate_ok hs hcheck
  rw [heq]
  intro id q hq
  rw [store_get] at hq
  split at hq
  · cases hq
    exact ⟨named_of_trim htrim, hself⟩
  · exact h.settling hsettling id q hq

theorem validate_parties (date : Int) (input : OwnershipTransitionInput)
    (hnamed : input.targetOwnerId ≠ "") (hself : input.currentOwnerId ≠ input.targetOwnerId) :
    validateOwnershipTransition date input = .ok () ↔
      input.currentOwnerId ≠ "" ∧ match input.action with
        | .initiate => input.isOwnerOrAdmin = true
        | .accept => input.actorId = input.targetOwnerId
            ∧ input.transferStatus = some .pendingAcceptance
            ∧ input.isExpired (input.now.getD date) = false
        | .cancel => input.isOwnerOrAdmin = true
        | .reject => input.actorId = input.targetOwnerId := by
  rw [validateOwnershipTransition]
  by_cases hempty : input.currentOwnerId = ""
  · rw [if_pos (.inl hempty)]
    exact iff_of_false nofun (fun h => h.1 hempty)
  rw [if_neg (not_or.mpr ⟨hempty, hnamed⟩), if_neg hself, and_iff_right hempty]
  cases input.action <;> simp only <;> split_ifs <;> simp_all

theorem accept_agrees {r : OwnershipTransferRecord} {acceptorId : String}
    {now : Int} (hnamed : r.targetOwnerId ≠ "") (hself : r.currentOwnerId ≠ r.targetOwnerId)
    (hwho : r.targetOwnerId = acceptorId)
    (hpend : r.status = .pendingAcceptance) (hdue : overdue now r = false)
    (role : UserRoleTier) (date : Int) :
    validateOwnershipTransition date (transitionOf r acceptorId role .accept now) = .ok ()
      ↔ r.currentOwnerId ≠ "" ∧ r.expiresAt ≠ some now := by
  rw [validate_parties date (transitionOf r acceptorId role .accept now) hnamed hself]
  show r.currentOwnerId ≠ "" ∧ (acceptorId = r.targetOwnerId
    ∧ some r.status = some .pendingAcceptance
    ∧ (transitionOf r acceptorId role .accept now).isExpired now = false) ↔ _
  refine and_congr_right (fun _ => ?_)
  simp only [OwnershipTransitionInput.isExpired, transitionOf, hwho, hpend, true_and]
  rw [overdue] at hdue
  cases hexp : r.expiresAt with
  | none => simp
  | some expiresAt =>
    rw [hexp] at hdue
    have hlate := of_decide_eq_false hdue
    -- `<` at the service, `<=` at the validator
    simp only [decide_eq_false_iff_not, ne_eq, Option.some.injEq]
    omega

variable {found : Option OwnershipTransferRecord} {guard : OwnershipTransferRecord → Bool}
  {q r : OwnershipTransferRecord}

theorem eq_of_filter (h : found.filter guard = some q) (hfound : found = some r) : r = q := by
  obtain ⟨hsome, -⟩ := filter_eq_some_iff.mp h
  exact some.inj (hfound.symm.trans hsome)

theorem guard_of_filter (h : found.filter guard = some q) (hfound : found = some r) :
    guard r = true := by
  rw [eq_of_filter h hfound]
  exact (filter_eq_some_iff.mp h).2

/-- **THE TWO GUARDS** on a call that succeeds: the declared rules hold unless
    the owner id is empty or an acceptance comes at the instant of expiry. -/
theorem step_guards_agree (hs : Indexed s) (hparties : TwoParties s)
    (role : UserRoleTier) {input : OwnershipTransitionInput}
    (hask : askedTransition s e role = some input)
    (hok : (call config s e.2 e.1).2.isOk = true) (date : Int) :
    validateOwnershipTransition date input = .ok () ↔
      input.currentOwnerId ≠ "" ∧ (input.action = .accept →
        input.expiresAt ≠ some (some e.2.now)) := by
  obtain ⟨op, env⟩ := e
  cases op with
  | registerResourceOwner => cases hask
  | getTransfer => cases hask
  | listTransfers => cases hask
  -- the service lets nobody but the owner ask, the validator also the admin
  | initiateTransfer initiation =>
    cases hask
    rcases initiateTransfer_cases s config env initiation
      with ⟨error, -, heq⟩ | ⟨checked, hcheck, -⟩
    · simp only [call, Prod.map_snd] at hok
      rw [heq] at hok
      cases hok
    obtain ⟨-, hself, htrim, -⟩ := checkInitiate_ok hs hcheck
    rw [validate_parties date (initiationOf initiation role env.now) (named_of_trim htrim) hself]
    simp [OwnershipTransitionInput.isOwnerOrAdmin, initiationOf]
  | acceptTransfer k acceptorId =>
    obtain ⟨r, hfind, rfl⟩ := map_eq_some_iff.mp hask
    have hget := findTransferByIdOrToken_get hs hfind
    obtain ⟨hnamed, hself⟩ := hparties r.id r hget
    rcases acceptTransfer_cases hs env k acceptorId with
      ⟨q, hacc, -, hpend, -⟩ | ⟨-, s₁, thrown, heq, -⟩
    · obtain rfl := eq_of_filter hacc hfind
      have hguard := guard_of_filter hacc hfind
      simp only [Bool.and_eq_true, decide_eq_true_eq, Bool.not_eq_true'] at hguard
      obtain ⟨⟨hwho, -⟩, hdue⟩ := hguard
      rw [accept_agrees hnamed hself hwho hpend hdue role date]
      exact and_congr_right (fun _ => ⟨fun hne _ heq =>
        hne (some.inj heq), fun h heq => h rfl (congrArg some heq)⟩)
    · simp only [call, Prod.map_snd] at hok
      rw [heq] at hok
      cases hok
  | cancelTransfer id actorId reason =>
    obtain ⟨r, hget, rfl⟩ := map_eq_some_iff.mp hask
    obtain ⟨hnamed, hself⟩ := hparties id r hget
    rcases cancelTransfer_cases hs env id actorId reason with
      ⟨q, hacc, -⟩ | ⟨-, thrown, heq⟩
    · have hguard := guard_of_filter hacc hget
      rw [Bool.and_eq_true, decide_eq_true_eq] at hguard
      rw [validate_parties date (transitionOf r actorId role .cancel env.now) hnamed hself]
      simp [OwnershipTransitionInput.isOwnerOrAdmin, transitionOf, hguard.1]
    simp only [call, Prod.map_snd] at hok
    rw [heq] at hok
    cases hok
  | rejectTransfer id actorId reason =>
    obtain ⟨r, hget, rfl⟩ := map_eq_some_iff.mp hask
    obtain ⟨hnamed, hself⟩ := hparties id r hget
    rcases rejectTransfer_cases hs env id actorId reason with
      ⟨q, hacc, -⟩ | ⟨-, thrown, heq⟩
    · have hguard := guard_of_filter hacc hget
      rw [Bool.and_eq_true, decide_eq_true_eq] at hguard
      rw [validate_parties date (transitionOf r actorId role .reject env.now) hnamed hself]
      simp [transitionOf, hguard.1]
    simp only [call, Prod.map_snd] at hok
    rw [heq] at hok
    cases hok

end Guards

/-- **THE DECLARED RULES HOLD** of a call that succeeds, in any reachable
    state, exactly if the owner id is not empty and an acceptance does not
    come at the instant of expiry. -/
theorem guards_agree_iff (config : Config) (events : List (Op × Env))
    (hfresh : Along (step config) Fresh .new events) (e : Op × Env)
    (role : UserRoleTier) (input : OwnershipTransitionInput) (date : Int)
    (hask : askedTransition (events.foldl (step config) .new) e role = some input)
    (hok : (call config (events.foldl (step config) .new) e.2 e.1).2.isOk = true) :
    validateOwnershipTransition date input = .ok () ↔
      input.currentOwnerId ≠ "" ∧ (input.action = .accept →
        input.expiresAt ≠ some (some e.2.now)) := by
  obtain ⟨hs, hparties⟩ := Along.invariant (P := Fresh) (I := fun s => Indexed s ∧ TwoParties s)
    (fun s e h hnew => ⟨(h.1.step config hnew).1, h.2.step h.1⟩)
    ⟨Indexed.new, fun _ _ h => nomatch h⟩ hfresh
  exact step_guards_agree hs hparties role hask hok date

/-- Alice's offer stands until 1001. -/
def standingOffer : List (Op × Env) :=
  [(.initiateTransfer (sampleOffer "alice" (.ofNat 1000)), sampleEnv 1 "t1")]

def acceptAt (now : Int) : Op × Env :=
  (.acceptTransfer "t1" "bob", sampleEnv now "t2")

def offered : OwnershipTransferRecord :=
  newRecord sampleConfig (sampleEnv 1 "t1")
    (sampleOffer "alice" (.ofNat 1000))

theorem guards_agree_iff_sample :
    validateOwnershipTransition 2 (transitionOf offered "bob" .owner .accept 2) = .ok () :=
  (guards_agree_iff sampleConfig standingOffer (by decide +kernel)
    (acceptAt 2) .owner (transitionOf offered "bob" .owner .accept 2) 2
    (by decide +kernel) (by decide +kernel)).mpr
    ⟨by decide, fun _ => by decide +kernel⟩

/-- At the instant of expiry the service accepts and the validator throws. -/
theorem guards_disagree_at_expiry : ¬ ∀ config events, Along (step config) Fresh .new events →
      ∀ e role input date, askedTransition (events.foldl (step config) .new) e role = some input →
        (call config (events.foldl (step config) .new) e.2 e.1).2.isOk = true →
        validateOwnershipTransition date input = .ok () := by
  intro hall
  have hok := hall sampleConfig standingOffer (by decide +kernel)
    (acceptAt 1001) .owner (transitionOf offered "bob" .owner .accept 1001)
    1001 (by decide +kernel) (by decide +kernel)
  have hthrows : (validateOwnershipTransition 1001 (transitionOf offered
      "bob" .owner .accept 1001)).isOk = false := by
    decide +kernel
  rw [hok] at hthrows
  cases hthrows

end OwnershipTransfer

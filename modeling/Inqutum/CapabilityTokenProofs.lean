import Inqutum.InvoiceCursorProofs
import Inqutum.JsonStringifyProofs
import Inqutum.ScriptValueProofs

/-!
# Capability tokens

A sensitive action needs a capability besides the admin's bearer token: a
signed, short-lived grant for one action on one target.  `issue` signs
the claims, `verify` checks a token against a scope, `beginUse` is `use`
up to the start of the action and `commit` or `release` is what follows
it.  The service keeps the ids that are reserved or used, the ids that
were revoked, and a cutoff for each revoked subject; what it keeps is
dropped once it has expired.

The signature belongs to the host and is a parameter.  A call takes the
readings of the clock it makes, in their order.
-/

namespace Capability

open JsonText
open Canonical (JsValue)
open Stringify (numberText)
open InsertionMap Stringify JsNumber Canonical

/-! ## Actions, claims, errors -/

inductive SensitiveAction where
  | configFeatureFlagSet
  deriving DecidableEq

structure SensitiveActionSpec where
  defaultTtlMs : Int
  maxTtlMs : Int

/-- The keys of `SENSITIVE_ACTIONS`. -/
def sensitiveActions : List SensitiveAction := [.configFeatureFlagSet]

def SensitiveAction.name : SensitiveAction → Text
  | configFeatureFlagSet => ascii "config.feature_flag.set"

def SensitiveAction.spec : SensitiveAction → SensitiveActionSpec
  | configFeatureFlagSet => ⟨5 * 60000, 15 * 60000⟩

/-- `actionSpec`, with the action that owns the spec. -/
def actionOf (name : Text) : Option SensitiveAction :=
  sensitiveActions.find? (fun action => action.name == name)

/-- `CapabilityClaims`; its type and version are always the same. -/
structure Claims where
  id : Text
  action : SensitiveAction
  target : Text
  subject : Text
  iat : Int
  exp : Int
  deriving DecidableEq

structure Scope where
  action : SensitiveAction
  target : Text

inductive CapabilityErrorCode where
  | capabilityRequestInvalid
  | unknownCapabilityAction
  | capabilityRequired
  | capabilityMalformed
  | capabilityInvalid
  | capabilityExpired
  | capabilityScopeMismatch
  | capabilityInUse
  | capabilityAlreadyUsed
  | capabilityLedgerFull
  | capabilityRevoked
  | capabilitySubjectRevoked
  deriving DecidableEq

structure CapabilityError where
  code : CapabilityErrorCode
  message : Text
  deriving DecidableEq

def minCapabilitySecretLength : Nat := 32

def tokenPrefix : Text := ascii "qcap.v1"

def maxTokenLength : Nat := 1024

def maxFieldLength : Nat := 128

def minTtlMs : Int := 1000

def clockSkewMs : Int := 30000

/-- `Math.max(...)` of the longest lifetimes. -/
def maxTtlMs : Int :=
  ((sensitiveActions.map (fun action => action.spec.maxTtlMs)).max?).getD 0

/-! ## The text of claims -/

/-- The object `issue` builds. -/
def Claims.tree (c : Claims) : Tree :=
  .obj [(ascii "typ", .str (ascii "qcap")), (ascii "v", .num (.finite (1 : Int))),
    (ascii "id", .str c.id), (ascii "action", .str c.action.name),
    (ascii "target", .str c.target), (ascii "subject", .str c.subject),
    (ascii "iat", .num (.finite c.iat)), (ascii "exp", .num (.finite c.exp))]

/-- `Buffer.from(JSON.stringify(claims), 'utf8').toString('base64url')`. -/
def encodeClaims (c : Claims) : Text :=
  (Cursors.toBase64 (Utf8.encode (stringify c.tree))).map unit

/-- What is signed, for a claims part. -/
def bodyOf (part : Text) : Text := tokenPrefix ++ unit '.' :: part

def Claims.body (c : Claims) : Text := bodyOf (encodeClaims c)

/-- `raw?.key`; the keys asked for are never inherited. -/
def property (raw : Tree) (key : Text) : Option Tree :=
  match raw with
  | .obj members => lookup key members
  | _ => none

def textAt (raw : Tree) (key : String) : Option Text :=
  match property raw (ascii key) with
  | some (.str text) => some text
  | _ => none

/-- A safe integer; the two zeros count as one. -/
def integerAt (raw : Tree) (key : String) : Option Int :=
  match property raw (ascii key) with
  | some (.num .negZero) => some 0
  | some (.num (.finite q)) =>
    if (finite q).isSafeInteger then some q.num else none
  | _ => none

def versionIsOne (raw : Tree) : Bool :=
  match property raw (ascii "v") with
  | some (.num (.finite q)) => q == 1
  | _ => false

/-- The checks of `parseClaims`.  A difference of two safe integers compares
    with the longest lifetime as the exact one does. -/
def claimsOf (raw : Tree) : Option Claims :=
  match textAt raw "id", (textAt raw "action").bind actionOf,
      textAt raw "target", textAt raw "subject", integerAt raw "iat",
      integerAt raw "exp" with
  | some id, some action, some target, some subject, some iat, some exp =>
    if textAt raw "typ" = some (ascii "qcap") ∧ versionIsOne raw = true
        ∧ iat < exp ∧ exp - iat ≤ action.spec.maxTtlMs then
      some ⟨id, action, target, subject, iat, exp⟩
    else none
  | _, _, _, _, _, _ => none

def parseClaims (encoded : Text) : Option Claims :=
  (parse (Utf8.decode (Cursors.fromBase64 (encoded.map char)))).bind claimsOf

/-! ## The service -/

inductive LedgerState where
  | reserved
  | used

structure LedgerEntry where
  state : LedgerState
  exp : Int

/-- A cutoff outlives every capability it invalidates. -/
structure SubjectRevocation where
  cutoff : Int
  expiresAt : Int
  horizon : expiresAt = cutoff + maxTtlMs + clockSkewMs

structure Options where
  secret : Text
  ledgerCapacity : Option JsNumber

/-- What the host supplies. -/
structure Host where
  /-- `createHmac('sha256', secret).update(body).digest('base64url')`. -/
  hmac : Text → Text → Text

structure Service where
  secret : Text
  capacity : JsNumber
  ledger : InsertionMap Text LedgerEntry
  revokedIds : InsertionMap Text Int
  revokedSubjects : InsertionMap Text SubjectRevocation

/-- `new CapabilityTokenService(options)`. -/
def create (options : Options) : Except String Service :=
  if options.secret.length < minCapabilitySecretLength then
    .error ("CapabilityTokenService requires a secret of at least "
      ++ toString minCapabilitySecretLength ++ " characters")
  else
    .ok ⟨options.secret, options.ledgerCapacity.getD (.ofNat 10000), .empty, .empty, .empty⟩

def sign (host : Host) (s : Service) (body : Text) : Text :=
  host.hmac s.secret body

/-! ## Issuing -/

structure IssueInput where
  action : Text
  target : Text
  subject : Text
  ttlMs : Option JsNumber

/-- The lifetime asked for, if it is within the bounds. -/
def ttlOf (spec : SensitiveActionSpec) (ttlMs : Option JsNumber) :
    Option Int :=
  match ttlMs.getD (.finite spec.defaultTtlMs) with
  | .finite q =>
    if (finite q).isInteger ∧ (minTtlMs : ℚ) ≤ q ∧ q ≤ spec.maxTtlMs then some q.num
    else none
  | _ => none

def fieldInvalid (field : String) : CapabilityError :=
  ⟨.capabilityRequestInvalid, ascii field ++ ascii " is required (max "
    ++ numberText maxFieldLength ++ ascii " characters)"⟩

/-- `issue`, once the action is known and the names are trimmed. -/
def issueFor (host : Host) (s : Service) (action : SensitiveAction)
    (target subject : Text) (ttlMs : Option JsNumber) (reading : Int)
    (uuid : Text) : Except CapabilityError (Text × Claims) :=
  if target = [] ∨ maxFieldLength < target.length then
    .error (fieldInvalid "target")
  else if subject = [] ∨ maxFieldLength < subject.length then
    .error (fieldInvalid "subject")
  else
    match ttlOf action.spec ttlMs with
    | none => .error ⟨.capabilityRequestInvalid,
        ascii "ttl must be between " ++ numberText (minTtlMs / 1000)
          ++ ascii " and " ++ numberText (action.spec.maxTtlMs / 1000)
          ++ ascii " seconds"⟩
    | some ttlMs =>
      let claims : Claims := ⟨uuid, action, target, subject, reading, reading + ttlMs⟩
      .ok (claims.body ++ unit '.' :: sign host s claims.body, claims)

/-- `issue`, of a reading of the clock and a `randomUUID()`. -/
def issue (host : Host) (s : Service) (input : IssueInput) (reading : Int)
    (uuid : Text) : Except CapabilityError (Text × Claims) :=
  match actionOf input.action with
  | none => .error ⟨.unknownCapabilityAction,
      ascii "Unknown sensitive action \"" ++ input.action ++ ascii "\". Use one of: "
        ++ List.intercalate (ascii ", ") (sensitiveActions.map (·.name))⟩
  | some action =>
    issueFor host s action (trim input.target)
      (trim input.subject) input.ttlMs reading uuid

/-! ## Verifying -/

/-- `BASE64URL.test(part)`: letters, digits, `_` and `-`. -/
def isBase64Url (part : Text) : Bool :=
  !part.isEmpty && part.all (fun c =>
    decide (65 ≤ c.val ∧ c.val ≤ 90) || decide (97 ≤ c.val ∧ c.val ≤ 122)
      || isDigit c || c == unit '_' || c == unit '-')

/-- The claims part and the signature of a token of the right shape. -/
def splitToken (token : Text) : Option (Text × Text) :=
  match (trim token).splitOn (unit '.') with
  | [head, version, part, signature] =>
    if token.length ≤ maxTokenLength ∧ head ++ unit '.' :: version = tokenPrefix
        ∧ isBase64Url part = true ∧ isBase64Url signature = true then
      some (part, signature)
    else none
  | _ => none

/-- The checks before the claims are read: presence, shape, signature. -/
def authenticate (host : Host) (s : Service) (token : JsValue) :
    Except CapabilityError Text :=
  match token with
  | .str text =>
    if trim text = [] then
      .error ⟨.capabilityRequired, ascii ("This action requires a capability "
        ++ "token in the X-Capability-Token header")⟩
    else
      match splitToken text with
      | none => .error ⟨.capabilityMalformed, ascii "Capability token is malformed"⟩
      | some (part, signature) =>
        if Utf8.encode (sign host s (bodyOf part)) = Utf8.encode signature then .ok part
        else .error ⟨.capabilityInvalid, ascii "Capability token signature does not verify"⟩
  | _ => .error ⟨.capabilityRequired, ascii ("This action requires a "
      ++ "capability token in the X-Capability-Token header")⟩

def Service.pruneRevocations (s : Service) (now : Int) : Service :=
  { s with
    revokedIds := s.revokedIds.filter (fun exp => decide (now < exp))
    revokedSubjects := s.revokedSubjects.filter (fun r => decide (now < r.expiresAt)) }

/-- Whether a cutoff of the subject invalidates the claims. -/
def Service.cutOff (s : Service) (claims : Claims) : Bool :=
  (s.revokedSubjects.get claims.subject).any (fun r => decide (claims.iat ≤ r.cutoff))

/-- The revocation checks, behind the pruning. -/
def checkRevocations (s : Service) (claims : Claims) :
    Except CapabilityError Claims :=
  if s.revokedIds.has claims.id then
    .error ⟨.capabilityRevoked, ascii ("Capability was revoked after a "
      ++ "security event; issue a new one")⟩
  else if s.cutOff claims then
    .error ⟨.capabilitySubjectRevoked, ascii ("Capabilities for this subject "
      ++ "were revoked after a security event; issue a new one")⟩
  else .ok claims

/-- The checks of the claims: time, scope, revocations. -/
def checkClaims (s : Service) (claims : Claims) (scope : Scope) (now : Int) :
    Service × Except CapabilityError Claims :=
  if clockSkewMs < claims.iat - now then
    (s, .error ⟨.capabilityInvalid, ascii "Capability token claims are invalid"⟩)
  else if claims.exp ≤ now then
    (s, .error ⟨.capabilityExpired, ascii "Capability token has expired; issue a new one"⟩)
  else if claims.action ≠ scope.action ∨ claims.target ≠ scope.target then
    (s, .error ⟨.capabilityScopeMismatch,
      ascii "Capability is for " ++ claims.action.name ++ ascii " on \""
        ++ claims.target ++ ascii "\", not " ++ scope.action.name
        ++ ascii " on \"" ++ scope.target ++ ascii "\""⟩)
  else
    (s.pruneRevocations now, checkRevocations (s.pruneRevocations now) claims)

def verify (host : Host) (s : Service) (token : JsValue) (scope : Scope)
    (now : Int) : Service × Except CapabilityError Claims :=
  match authenticate host s token with
  | .error e => (s, .error e)
  | .ok part =>
    match parseClaims part with
    | none => (s, .error ⟨.capabilityInvalid, ascii "Capability token claims are invalid"⟩)
    | some claims => checkClaims s claims scope now

/-! ## Using -/

def Service.full (s : Service) : Bool :=
  le s.capacity (.ofNat s.ledger.size)

/-- The expired entries are dropped when the ledger is full. -/
def Service.sweep (s : Service) (now : Int) : Service :=
  if s.full then
    { s with ledger := s.ledger.filter (fun e => decide (now < e.exp)) }
  else s

def Service.mark (s : Service) (state : LedgerState) (claims : Claims) :
    Service :=
  { s with ledger := s.ledger.set claims.id ⟨state, claims.exp⟩ }

def reserve (s : Service) (claims : Claims) (now : Int) : Service × Except CapabilityError Claims :=
  match s.ledger.get claims.id with
  | some ⟨.used, _⟩ => (s, .error ⟨.capabilityAlreadyUsed,
      ascii "Capability was already used; issue a new one"⟩)
  | some ⟨.reserved, _⟩ => (s, .error ⟨.capabilityInUse,
      ascii ("Capability is being used by another request; retry when it " ++ "completes")⟩)
  | none =>
    if (s.sweep now).full then
      (s.sweep now, .error ⟨.capabilityLedgerFull,
        ascii "Too many live capabilities; retry after the oldest expire"⟩)
    else ((s.sweep now).mark .reserved claims, .ok claims)

/-- `use` up to the start of the action. -/
def beginUse (host : Host) (s : Service) (token : JsValue) (scope : Scope)
    (now sweepAt : Int) : Service × Except CapabilityError Claims :=
  match verify host s token scope now with
  | (s', .error e) => (s', .error e)
  | (s', .ok claims) => reserve s' claims sweepAt

/-- The action has completed. -/
def Service.commit (s : Service) (claims : Claims) : Service :=
  s.mark .used claims

/-- The action has thrown. -/
def Service.release (s : Service) (claims : Claims) : Service :=
  { s with ledger := s.ledger.delete claims.id }

/-! ## Revoking -/

def Service.revoke (s : Service) (claims : Claims) : Service :=
  { s with
    revokedIds := s.revokedIds.set claims.id claims.exp
    ledger := s.ledger.delete claims.id }

/-- `revokeCapability`, with its two readings of the clock. -/
def revokeCapability (s : Service) (claims : Claims) (first second : Int) : Service × Bool :=
  if claims.id = [] ∨ maxSafeInteger < |claims.exp| ∨ claims.exp ≤ first then (s, false)
  else
    ((s.pruneRevocations second).revoke claims,
      !(s.pruneRevocations second).revokedIds.has claims.id)

/-- A cutoff is there that is no earlier than the new one. -/
def Service.covers (s : Service) (subject : Text) (cutoff : Int) : Bool :=
  (s.revokedSubjects.get subject).any (fun r => decide (cutoff ≤ r.cutoff))

def Service.setCutoff (s : Service) (subject : Text) (cutoff : Int) : Service :=
  { s with
    revokedSubjects := s.revokedSubjects.set subject
      ⟨cutoff, cutoff + maxTtlMs + clockSkewMs, rfl⟩ }

/-- `revokeSubject`, once the subject is trimmed. -/
def revokeTrimmed (s : Service) (subject : Text) (cutoff : Int) :
    Service × Except CapabilityError Bool :=
  if subject = [] ∨ maxFieldLength < subject.length then
    (s, .error (fieldInvalid "subject"))
  else if (s.pruneRevocations cutoff).covers subject cutoff then
    (s.pruneRevocations cutoff, .ok false)
  else ((s.pruneRevocations cutoff).setCutoff subject cutoff, .ok true)

def revokeSubject (s : Service) (subject : Text) (cutoff : Int) :
    Service × Except CapabilityError Bool :=
  revokeTrimmed s (trim subject) cutoff

/-! ## The round trip of claims -/

/-- What `issue` makes sure of and `parseClaims` asks for. -/
structure Claims.Valid (c : Claims) : Prop where
  lives : c.iat < c.exp
  within : c.exp - c.iat ≤ c.action.spec.maxTtlMs
  iat_safe : c.iat.natAbs < 2 ^ 53
  exp_safe : c.exp.natAbs < 2 ^ 53

theorem readable_str (text : Text) : Every (Readable Safe) (.str text) :=
  ⟨List.nodup_nil, nofun⟩

variable {c : Claims} {n : Int}

theorem readable_int (h : n.natAbs < 2 ^ 53) : Every (Readable Safe) (.num (.finite n)) :=
  ⟨List.nodup_nil, fun _ hx => Tree.num.inj hx ▸ ⟨n, rfl, h⟩⟩

theorem Claims.Valid.readable (h : c.Valid) : Every (Readable Safe) c.tree := by
  have hkeys : [ascii "typ", ascii "v", ascii "id", ascii "action",
      ascii "target", ascii "subject", ascii "iat", ascii "exp"].Nodup := by
    decide
  refine every_obj.mpr ⟨⟨hkeys, nofun⟩, ?_⟩
  simp only [List.forall_mem_cons]
  exact ⟨readable_str _, readable_int (by decide), readable_str _,
    readable_str _, readable_str _, readable_str _, readable_int h.iat_safe,
    readable_int h.exp_safe, nofun⟩

theorem integerAt_of_int {raw : Tree} {key : String} (hn : n.natAbs < 2 ^ 53)
    (h : property raw (ascii key) = some (.num (.finite n))) : integerAt raw key = some n := by
  have hsafe : (finite n).isSafeInteger = true :=
    isSafeInteger_iff.mpr ⟨n, rfl, by
      rw [Int.abs_eq_natAbs, maxSafeInteger]
      omega⟩
  rw [integerAt, h]
  exact if_pos hsafe

theorem actionOf_name (action : SensitiveAction) : actionOf action.name = some action := by
  cases action
  decide

theorem claimsOf_tree (h : c.Valid) : claimsOf c.tree = some c := by
  have hid : textAt c.tree "id" = some c.id := rfl
  have haction : textAt c.tree "action" = some c.action.name := rfl
  have htarget : textAt c.tree "target" = some c.target := rfl
  have hsubject : textAt c.tree "subject" = some c.subject := rfl
  have hiat : integerAt c.tree "iat" = some c.iat := integerAt_of_int h.iat_safe rfl
  have hexp : integerAt c.tree "exp" = some c.exp := integerAt_of_int h.exp_safe rfl
  rw [claimsOf, hid, haction, htarget, hsubject, hiat, hexp, Option.bind_some, actionOf_name]
  exact if_pos ⟨rfl, rfl, h.lives, h.within⟩

theorem ascii_alphabet : ∀ c ∈ Cursors.alphabet, c.toNat < 128 := by
  have hall : Cursors.alphabet.all (fun c => decide (c.toNat < 128)) = true := by decide
  exact fun c hc => of_decide_eq_true (List.all_eq_true.mp hall c hc)

/-- **THE ROUND TRIP**: the claims part of a token reads back as its claims. -/
theorem parseClaims_encodeClaims (h : c.Valid) : parseClaims (encodeClaims c) = some c := by
  have hbytes := Utf8.encode_lt (stringify c.tree)
  have halphabet := Cursors.mem_alphabet_of_toBase64 _ hbytes
  rw [parseClaims, encodeClaims, map_char_unit (fun ch hch => ascii_alphabet ch (halphabet ch hch)),
    Cursors.fromBase64_toBase64 _ hbytes,
    parse_decode_encode h.readable, Option.bind_some,
    claimsOf_tree h]

theorem SensitiveAction.spec_le (action : SensitiveAction) : action.spec.maxTtlMs ≤ maxTtlMs := by
  cases action
  decide

theorem lifetime_of_parseClaims {part : Text}
    (h : parseClaims part = some c) : c.exp - c.iat ≤ maxTtlMs := by
  obtain ⟨raw, -, hraw⟩ := Option.bind_eq_some_iff.mp h
  rw [claimsOf] at hraw
  split at hraw
  · split at hraw
    · rename_i hchecks
      cases hraw
      exact hchecks.2.2.2.trans (SensitiveAction.spec_le _)
    · cases hraw
  · cases hraw

/-! ## What the calls do -/

section Calls

variable {host : Host} {s s' : Service} {c : Claims} {now : Int}

theorem ttlOf_spec {spec : SensitiveActionSpec} {ttlMs : Option JsNumber}
    {ttl : Int} (h : ttlOf spec ttlMs = some ttl) : minTtlMs ≤ ttl ∧ ttl ≤ spec.maxTtlMs := by
  rw [ttlOf] at h
  split at h
  · rename_i q _
    split at h
    · rename_i hbounds
      obtain ⟨hint, hlow, hhigh⟩ := hbounds
      have hq : ((q.num : Int) : ℚ) = q := Rat.coe_int_num_of_den_eq_one (of_decide_eq_true hint)
      rw [← hq] at hlow hhigh
      cases h
      exact ⟨Int.cast_le.mp hlow, Int.cast_le.mp hhigh⟩
    · cases h
  · cases h

theorem issue_ok {input : IssueInput} {reading : Int} {uuid token : Text}
    (h : issue host s input reading uuid = .ok (token, c)) (hdate : |reading| ≤ maxTime) :
    c.id = uuid ∧ c.subject ≠ [] ∧ c.subject.length ≤ maxFieldLength ∧ c.Valid := by
  rw [issue] at h
  split at h
  · cases h
  rename_i action _
  rw [issueFor] at h
  split at h
  · cases h
  split at h
  · cases h
  rename_i hsubject
  split at h
  · cases h
  rename_i ttl httl
  obtain ⟨hnamed, hlength⟩ := not_or.mp hsubject
  obtain ⟨hlow, hhigh⟩ := ttlOf_spec httl
  have hmax : action.spec.maxTtlMs ≤ 900000 := by
    cases action
    decide
  obtain ⟨-, rfl⟩ := Prod.mk.inj (Except.ok.inj h)
  rw [maxTime, abs_le] at hdate
  rw [minTtlMs] at hlow
  refine ⟨rfl, hnamed, not_lt.mp hlength, ⟨?_, ?_, ?_, ?_⟩⟩
  · show reading < reading + ttl
    omega
  · show reading + ttl - reading ≤ action.spec.maxTtlMs
    omega
  · show reading.natAbs < 2 ^ 53
    omega
  show (reading + ttl).natAbs < 2 ^ 53
  omega

theorem verify_ok {token : JsValue} {scope : Scope}
    (h : verify host s token scope now = (s', .ok c)) :
    ∃ part, authenticate host s token = .ok part ∧ parseClaims part = some c
      ∧ now < c.exp ∧ s' = s.pruneRevocations now
      ∧ s'.revokedIds.get c.id = none ∧ s'.cutOff c = false := by
  rw [verify] at h
  split at h
  · cases h
  rename_i part hpart
  split at h
  · cases h
  rename_i claims hclaims
  rw [checkClaims] at h
  split at h
  · cases h
  split at h
  · cases h
  rename_i hlive
  split at h
  · cases h
  obtain ⟨hs, hchecks⟩ := Prod.mk.inj h
  rw [checkRevocations] at hchecks
  split at hchecks
  · cases hchecks
  rename_i hid
  split at hchecks
  · cases hchecks
  rename_i hcut
  have hc : claims = c := Except.ok.inj hchecks
  rw [hc] at hclaims hlive hid hcut
  rw [← hs]
  exact ⟨part, hpart, hclaims, not_le.mp hlive, rfl,
    (has_eq_false _ _).mp (Bool.not_eq_true _ ▸ hid),
    Bool.not_eq_true _ ▸ hcut⟩

theorem verify_state (host : Host) (s : Service) (token : JsValue) (scope : Scope) (now : Int) :
    (verify host s token scope now).1 = s
      ∨ (verify host s token scope now).1 = s.pruneRevocations now := by
  rw [verify]
  split
  · exact .inl rfl
  split
  · exact .inl rfl
  rw [checkClaims]
  split
  · exact .inl rfl
  split
  · exact .inl rfl
  split
  · exact .inl rfl
  · exact .inr rfl

/-! ## What a call may forget -/

/-- Up to `now`, the service forgets only what has expired and revokes no id;
    a cutoff gives way to a later one. -/
structure Keeps (s s' : Service) (now : Int) : Prop where
  ledger : ∀ id e, s.ledger.get id = some e → e.exp ≤ now ∨ s'.ledger.get id = some e
  revokedIds : ∀ id exp, s.revokedIds.get id = some exp →
    exp ≤ now ∨ s'.revokedIds.get id = some exp
  noneRevoked : ∀ id exp, s'.revokedIds.get id = some exp → s.revokedIds.get id = some exp
  revokedSubjects : ∀ subject r, s.revokedSubjects.get subject = some r → r.expiresAt ≤ now
      ∨ ∃ r', s'.revokedSubjects.get subject = some r' ∧ r.cutoff ≤ r'.cutoff

theorem Keeps.refl (s : Service) (now : Int) : Keeps s s now where
  ledger _ _ h := .inr h
  revokedIds _ _ h := .inr h
  noneRevoked _ _ h := h
  revokedSubjects _ r h := .inr ⟨r, h, le_refl _⟩

theorem Keeps.trans {s'' : Service} {later : Int} (h : Keeps s s' now)
    (h' : Keeps s' s'' later) (hle : now ≤ later) : Keeps s s'' later where
  ledger id e he := by
    rcases h.ledger id e he with hexp | he
    · exact .inl (hexp.trans hle)
    · exact h'.ledger id e he
  revokedIds id exp he := by
    rcases h.revokedIds id exp he with hexp | he
    · exact .inl (hexp.trans hle)
    · exact h'.revokedIds id exp he
  noneRevoked id exp he := h.noneRevoked id exp (h'.noneRevoked id exp he)
  revokedSubjects subject r hr := by
    rcases h.revokedSubjects subject r hr with hexp | ⟨r', hr', hcut⟩
    · exact .inl (hexp.trans hle)
    rcases h'.revokedSubjects subject r' hr' with hexp | ⟨r'', hr'', hcut'⟩
    · left
      have hfirst := r.horizon
      have hlast := r'.horizon
      omega
    · exact .inr ⟨r'', hr'', hcut.trans hcut'⟩

theorem keeps_pruneRevocations (s : Service) (now : Int) :
    Keeps s (s.pruneRevocations now) now where
  ledger _ _ h := .inr h
  revokedIds id exp h := by
    rcases le_or_gt exp now with hle | hlt
    · exact .inl hle
    · exact .inr (get_filter_of_keep h (decide_eq_true hlt))
  noneRevoked _ _ h := (get_of_get_filter h).1
  revokedSubjects subject r h := by
    rcases le_or_gt r.expiresAt now with hle | hlt
    · exact .inl hle
    · exact .inr ⟨r, get_filter_of_keep h (decide_eq_true hlt), le_refl _⟩

theorem keeps_verify (host : Host) (s : Service) (token : JsValue) (scope : Scope) (now : Int) :
    Keeps s (verify host s token scope now).1 now := by
  rcases verify_state host s token scope now with h | h
  · rw [h]
    exact Keeps.refl s now
  rw [h]
  exact keeps_pruneRevocations s now

theorem keeps_sweep (s : Service) (now : Int) : Keeps s (s.sweep now) now := by
  rw [Service.sweep]
  split
  · refine ⟨?_, fun _ _ h => .inr h, fun _ _ h => h, fun _ r h => .inr ⟨r, h, le_refl _⟩⟩
    intro id e h
    rcases le_or_gt e.exp now with hle | hlt
    · exact .inl hle
    · exact .inr (get_filter_of_keep h (decide_eq_true hlt))
  · exact Keeps.refl s now

theorem keeps_mark {state : LedgerState} (h : s.ledger.get c.id = none)
    (now : Int) : Keeps s (s.mark state c) now where
  ledger id e he := by
    right
    have hne : c.id ≠ id := by
      rintro rfl
      cases h.symm.trans he
    show (s.ledger.set c.id _).get id = some e
    rw [get_set_of_ne _ _ hne, he]
  revokedIds _ _ h := .inr h
  noneRevoked _ _ h := h
  revokedSubjects _ r h := .inr ⟨r, h, le_refl _⟩

theorem sweep_get_none {id : Text} (h : s.ledger.get id = none) (now : Int) :
    (s.sweep now).ledger.get id = none := by
  rw [Service.sweep]
  split
  · show (s.ledger.filter _).get id = none
    rw [get_filter, h]
    rfl
  · exact h

/-- **A RESERVATION IS NEW**: the id had no entry, and now has one. -/
theorem reserve_ok {c' : Claims} (h : reserve s c now = (s', .ok c')) :
    c' = c ∧ s.ledger.get c.id = none ∧ s'.ledger.get c.id = some ⟨.reserved, c.exp⟩ := by
  rw [reserve] at h
  split at h
  · cases h
  · cases h
  rename_i hnone
  split at h
  · cases h
  obtain ⟨hs, hc⟩ := Prod.mk.inj h
  rw [← hs]
  exact ⟨(Except.ok.inj hc).symm, hnone, get_set_self _ _ _⟩

theorem keeps_reserve (s : Service) (c : Claims) (now : Int) : Keeps s (reserve s c now).1 now := by
  rw [reserve]
  split
  · exact Keeps.refl s now
  · exact Keeps.refl s now
  rename_i hnone
  split
  · exact keeps_sweep s now
  · exact (keeps_sweep s now).trans (keeps_mark (sweep_get_none hnone now) now) (le_refl now)

theorem keeps_beginUse (host : Host) (s : Service) (token : JsValue)
    (scope : Scope) {now sweepAt : Int} (hle : now ≤ sweepAt) :
    Keeps s (beginUse host s token scope now sweepAt).1 sweepAt := by
  have hverify := keeps_verify host s token scope now
  rw [beginUse]
  cases hv : verify host s token scope now with
  | mk s' result =>
    rw [hv] at hverify
    cases result with
    | error e => exact hverify.trans (Keeps.refl s' sweepAt) hle
    | ok claims => exact hverify.trans (keeps_reserve s' claims sweepAt) hle

theorem beginUse_ok {token : JsValue} {scope : Scope} {sweepAt : Int}
    (h : beginUse host s token scope now sweepAt = (s', .ok c)) :
    (verify host s token scope now).2 = .ok c
      ∧ (verify host s token scope now).1.ledger.get c.id = none
      ∧ s'.ledger.get c.id = some ⟨.reserved, c.exp⟩ := by
  rw [beginUse] at h
  split at h
  · cases h
  rename_i s₁ claims hv
  obtain ⟨hc, hnone, hsome⟩ := reserve_ok h
  rw [hv, hc]
  exact ⟨rfl, hc ▸ hnone, hc ▸ hsome⟩

theorem keeps_setCutoff {subject : Text} {cutoff : Int}
    (h : s.covers subject cutoff = false) (now : Int) :
    Keeps s (s.setCutoff subject cutoff) now where
  ledger _ _ h := .inr h
  revokedIds _ _ h := .inr h
  noneRevoked _ _ h := h
  revokedSubjects other r hr := by
    right
    by_cases hsubject : subject = other
    · rw [← hsubject] at hr ⊢
      refine ⟨_, get_set_self _ _ _, ?_⟩
      rw [Service.covers, hr] at h
      exact (not_le.mp (of_decide_eq_false h)).le
    refine ⟨r, ?_, le_refl _⟩
    show (s.revokedSubjects.set subject _).get other = some r
    rw [get_set_of_ne _ _ hsubject, hr]

theorem keeps_revokeSubject (s : Service) (subject : Text) (cutoff : Int) :
    Keeps s (revokeSubject s subject cutoff).1 cutoff := by
  have hprune := keeps_pruneRevocations s cutoff
  rw [revokeSubject, revokeTrimmed]
  split
  · exact Keeps.refl s cutoff
  split
  · exact hprune
  rename_i hcovers
  exact hprune.trans (keeps_setCutoff (Bool.not_eq_true _ ▸ hcovers) cutoff) (le_refl cutoff)

end Calls

end Capability

import Inqutum.ScriptValueProofs
import Inqutum.Utf8Proofs
import Inqutum.InvoiceCursorProofs

/-!
# External evidence

`verify` takes an envelope with a payload, the id of a signer's key and a
signature.  It looks at the fields and the timestamp, then for the digest
of the payload among the receipts it has handed out, and only then at the
signer and the signature.

Every receipt goes back to a call whose signature was checked
(`receipt_backed`), but a receipt from the cache says nothing about the
envelope it is handed out for: whose signature that envelope carries, and
whether its signer is still trusted, is not looked at.  So the signatures
are checked all along a run exactly if every envelope with a known payload
would have passed by itself (`evidence_genuine_iff`).

The digests and the check of an Ed25519 signature are parameters.
-/

namespace Evidence

open JsonText (Text CodeUnit ascii)
open Canonical (JsValue)
open Transition (Along)
open InsertionMap JsNumber

/-! ## Envelopes and receipts -/

inductive Algorithm where
  | ed25519
  | hmacSha256
  deriving DecidableEq

def Algorithm.text : Algorithm → Text
  | .ed25519 => ascii "ed25519"
  | .hmacSha256 => ascii "hmac-sha256"

structure ExternalEvidencePayload where
  evidenceId : Text
  sourceSystem : Text
  transactionHash : Text
  invoiceId : Text
  amount : Text
  assetCode : Text
  ledgerSequence : Option JsNumber
  timestamp : Text
  nonce : Text
  metadata : Option (List (Text × JsValue))

structure SignedEvidenceEnvelope where
  payload : Option ExternalEvidencePayload
  algorithm : Algorithm
  signerKeyId : Text
  signature : Text

/-- A receipt; `verified` is always true. -/
structure VerificationReceipt where
  evidenceId : Text
  signerKeyId : Text
  algorithm : Text
  canonicalDigestHex : Text
  verifiedAt : Text
  replayed : Bool

structure SignerKey where
  key : Text
  algorithm : Algorithm
  revoked : Option Bool

/-- `getSignerKey`, as it answers at one moment. -/
abbrev SignerTrustStore := Text → Option SignerKey

structure VerifierOptions where
  maxAgeMs : Option JsNumber
  allowedSkewMs : Option JsNumber

structure CachedReceipt where
  cachedAt : JsNumber
  receipt : VerificationReceipt

abbrev SeenDigests := InsertionMap Text CachedReceipt

inductive ErrorCode where
  | malformedEnvelope
  | incompletePayload
  | invalidTimestamp
  | evidencePostDated
  | evidenceExpired
  | untrustedSigner
  | revokedSignerKey
  | algorithmMismatch
  | signatureVerificationFailed
  | invalidSignature
  deriving DecidableEq

/-- What `verify` throws: its own error, what `canonicalizeJson` throws, or
    the range error of `toISOString()`. -/
inductive Thrown where
  | evidenceVerificationError (code : ErrorCode) (message : Text) (httpStatus : Nat)
  | canonical (thrown : Canonical.Thrown)
  | rangeError (message : String)
  deriving DecidableEq

structure Host where
  engine : Canonical.Engine
  /-- `Date.parse(text)`, if the text is a date. -/
  dateParse : Text → Option Int
  sha256 : List Nat → Vector (Fin 256) 32
  hmacSha256 : Text → List Nat → Vector (Fin 256) 32
  /-- `crypto.verify(null, data, key, signature)`: an error for a message that
      is thrown. -/
  ed25519Verify : Text → List Nat → List Nat → Except Text Bool

open List

/-- One call, with the clock and the trust store it finds. -/
structure Call where
  envelope : Option SignedEvidenceEnvelope
  /-- Nothing for an invalid date. -/
  now : Option Int
  trustStore : SignerTrustStore

/-! ## The checks -/

def VerifierOptions.maxAge (options : VerifierOptions) : JsNumber :=
  options.maxAgeMs.getD (.ofNat (10 * 60000))

def VerifierOptions.allowedSkew (options : VerifierOptions) : JsNumber :=
  options.allowedSkewMs.getD (.ofNat 60000)

def getTime (now : Option Int) : JsNumber :=
  match now with
  | some ms => .finite ms
  | none => .nan

def isoText (ms : Int) : Text := (Cursors.toISOString ms).map JsonText.unit

def fail {α : Type} (code : ErrorCode) (message : Text) (httpStatus : Nat) :
    Except Thrown α :=
  .error (.evidenceVerificationError code message httpStatus)

def ExternalEvidencePayload.toValue (p : ExternalEvidencePayload) : JsValue :=
  .obj [(ascii "evidenceId", .str p.evidenceId), (ascii "sourceSystem", .str p.sourceSystem),
    (ascii "transactionHash", .str p.transactionHash),
    (ascii "invoiceId", .str p.invoiceId),
    (ascii "amount", .str p.amount),
    (ascii "assetCode", .str p.assetCode),
    (ascii "ledgerSequence", match p.ledgerSequence with
      | some ledger => .number ledger
      | none => .undefined),
    (ascii "timestamp", .str p.timestamp),
    (ascii "nonce", .str p.nonce),
    (ascii "metadata", match p.metadata with
      | some members => .obj members
      | none => .undefined)]

def canonicalizeJson (host : Host) (payload : ExternalEvidencePayload) :
    Except Thrown Text :=
  match Canonical.canonicalize host.engine payload.toValue with
  | .ok canonical => .ok canonical
  | .error thrown => .error (.canonical thrown)

def digestHex (host : Host) (canonical : Text) : Text :=
  Canonical.hexBytes (host.sha256 (Utf8.encode canonical)).toList

/-- `Buffer.from(text, 'hex')`: up to the first pair that is not hex. -/
def decodeHex : Text → List Nat
  | high :: low :: rest =>
    match JsonText.hexValue high, JsonText.hexValue low with
    | some a, some b => (16 * a + b) :: decodeHex rest
    | _, _ => []
  | _ => []

/-- The payload is complete and its timestamp fresh. -/
def checkPayload (host : Host) (options : VerifierOptions) (now : Option Int)
    (payload : ExternalEvidencePayload) : Except Thrown Unit :=
  if payload.evidenceId = [] ∨ payload.transactionHash = []
      ∨ payload.invoiceId = [] ∨ payload.amount = [] ∨ payload.nonce = [] then
    fail .incompletePayload (ascii "Evidence payload missing core fields.") 400
  else
    match host.dateParse payload.timestamp with
    | none => fail .invalidTimestamp (ascii "Evidence timestamp is not valid ISO8601.") 400
    | some evidenceTime =>
      if lt (add (getTime now) options.allowedSkew) (.finite evidenceTime) then
        fail .evidencePostDated (ascii
          "Evidence timestamp is in the future beyond acceptable skew.") 400
      else if lt options.maxAge (sub (getTime now) (.finite evidenceTime)) then
        fail .evidenceExpired (ascii "Evidence timestamp has expired beyond allowable window.") 400
      else .ok ()

/-- Steps 1 to 3: the envelope with its canonical payload. -/
def readEnvelope (host : Host) (options : VerifierOptions) (call : Call) : Except Thrown
      (SignedEvidenceEnvelope × ExternalEvidencePayload × Text) :=
  match call.envelope with
  | none => fail .malformedEnvelope (ascii "Missing required envelope fields.") 400
  | some envelope =>
    match envelope.payload with
    | none => fail .malformedEnvelope (ascii "Missing required envelope fields.") 400
    | some payload =>
      if envelope.signature = [] ∨ envelope.signerKeyId = [] then
        fail .malformedEnvelope (ascii "Missing required envelope fields.") 400
      else
        match checkPayload host options call.now payload with
        | .error thrown => .error thrown
        | .ok _ => (canonicalizeJson host payload).map
            (fun canonical => (envelope, payload, canonical))

/-- The signature against a key, or the message that the check throws. -/
def signatureMatches (host : Host) (key : Text) (algorithm : Algorithm)
    (canonical signature : Text) : Except Text Bool :=
  match algorithm with
  | .hmacSha256 => .ok (decide (decodeHex signature
      = (host.hmacSha256 key (Utf8.encode canonical)).toList.map Fin.val))
  | .ed25519 => host.ed25519Verify key (Utf8.encode canonical) (decodeHex signature)

/-- Steps 5 and 6: the signer and the signature. -/
def authenticate (host : Host) (trustStore : SignerTrustStore)
    (envelope : SignedEvidenceEnvelope) (canonical : Text) :
    Except Thrown Unit :=
  match trustStore envelope.signerKeyId with
  | none => fail .untrustedSigner (ascii "Signer key '" ++ envelope.signerKeyId
      ++ ascii "' is not recognized or trusted.") 403
  | some signer =>
    if signer.revoked = some true then
      fail .revokedSignerKey (ascii "Signer key '" ++ envelope.signerKeyId
        ++ ascii "' has been revoked.") 403
    else if signer.algorithm ≠ envelope.algorithm then
      fail .algorithmMismatch (ascii "Signer key registered for '"
        ++ signer.algorithm.text ++ ascii "' but envelope specified '"
        ++ envelope.algorithm.text ++ ascii "'.") 400
    else
      match signatureMatches host signer.key envelope.algorithm canonical envelope.signature with
      | .error message => fail .signatureVerificationFailed
          (ascii "Cryptographic verification failed: " ++ message) 400
      | .ok true => .ok ()
      | .ok false => fail .invalidSignature (ascii
          "Cryptographic signature does not match canonical payload.") 400

def evictStaleDigests (options : VerifierOptions) (now : Option Int)
    (seen : SeenDigests) : SeenDigests :=
  seen.filter (fun value => !lt value.cachedAt
    (sub (getTime now) (mul options.maxAge (.ofNat 2))))

/-! ## Verification -/

/-- What a checked envelope gets at a valid time. -/
def receiptFor (host : Host) (envelope : SignedEvidenceEnvelope)
    (payload : ExternalEvidencePayload) (canonical : Text) (ms : Int) :
    VerificationReceipt where
  evidenceId := payload.evidenceId
  signerKeyId := envelope.signerKeyId
  algorithm := envelope.algorithm.text
  canonicalDigestHex := digestHex host canonical
  verifiedAt := isoText ms
  replayed := false

def verify (host : Host) (options : VerifierOptions) (seen : SeenDigests)
    (call : Call) : Except Thrown VerificationReceipt × SeenDigests :=
  match readEnvelope host options call with
  | .error thrown => (.error thrown, seen)
  | .ok (envelope, payload, canonical) =>
    match (evictStaleDigests options call.now seen).get (digestHex host canonical) with
    -- a known digest: neither the signer nor the signature is looked at
    | some existing => (.ok { existing.receipt with replayed := true },
        evictStaleDigests options call.now seen)
    | none =>
      match authenticate host call.trustStore envelope canonical, call.now with
      | .error thrown, _ => (.error thrown, evictStaleDigests options call.now seen)
      | .ok _, none => (.error (.rangeError "Invalid time value"),
          evictStaleDigests options call.now seen)
      | .ok _, some ms =>
        (.ok (receiptFor host envelope payload canonical ms),
          (evictStaleDigests options call.now seen).set (digestHex host canonical)
            ⟨getTime call.now, receiptFor host envelope payload canonical ms⟩)

def step (host : Host) (options : VerifierOptions) (seen : SeenDigests)
    (call : Call) : SeenDigests := (verify host options seen call).2

/-- The signature verifies over the canonical payload under the key that the
    trust store has for the signer: with the same algorithm, not revoked. -/
def Vouched (host : Host) (trustStore : SignerTrustStore)
    (envelope : SignedEvidenceEnvelope) (canonical : Text) : Prop :=
  ∃ signer, trustStore envelope.signerKeyId = some signer
    ∧ signer.algorithm = envelope.algorithm ∧ signer.revoked ≠ some true
    ∧ signatureMatches host signer.key envelope.algorithm canonical envelope.signature = .ok true

/-- A receipt is handed out on the envelope's own signature. -/
def Genuine (host : Host) (options : VerifierOptions) (seen : SeenDigests) (call : Call) : Prop :=
  ∀ receipt, (verify host options seen call).1 = .ok receipt →
    ∃ envelope payload canonical, call.envelope = some envelope ∧ envelope.payload = some payload
      ∧ canonicalizeJson host payload = .ok canonical
      ∧ Vouched host call.trustStore envelope canonical

/-- An envelope whose payload has a receipt in the cache would pass the checks
    that come after the cache. -/
def ReplayAuthentic (host : Host) (options : VerifierOptions)
    (seen : SeenDigests) (call : Call) : Prop :=
  ∀ envelope payload canonical,
    readEnvelope host options call = .ok (envelope, payload, canonical) →
    ((evictStaleDigests options call.now seen).get (digestHex host canonical)).isSome = true →
    authenticate host call.trustStore envelope canonical = .ok ()

section Checks

variable {host : Host} {options : VerifierOptions} {call : Call}
  {envelope : SignedEvidenceEnvelope} {payload : ExternalEvidencePayload}
  {canonical : Text}

/-- An envelope that is read has a payload with a canonical text. -/
theorem readEnvelope_ok (h : readEnvelope host options call = .ok (envelope, payload, canonical)) :
    call.envelope = some envelope ∧ envelope.payload = some payload
      ∧ canonicalizeJson host payload = .ok canonical := by
  rw [readEnvelope] at h
  split at h
  · cases h
  rename_i e henvelope
  split at h
  · cases h
  rename_i p hpayload
  split at h
  · cases h
  split at h
  · cases h
  -- every check passed; the canonical text may still be refused
  · cases hcanonical : canonicalizeJson host p with
    | error thrown =>
      rw [hcanonical] at h
      cases h
    | ok text =>
      rw [hcanonical] at h
      obtain ⟨rfl, rest⟩ := Prod.mk.inj (Except.ok.inj h)
      cases rest
      exact ⟨henvelope, hpayload, hcanonical⟩

/-- **THE LAST TWO CHECKS** are the signature under a trusted key. -/
theorem authenticate_ok_iff {trustStore : SignerTrustStore} :
    authenticate host trustStore envelope canonical = .ok ()
      ↔ Vouched host trustStore envelope canonical := by
  rw [authenticate]
  constructor
  · intro h
    split at h
    · cases h
    rename_i signer hsigner
    split at h
    · cases h
    rename_i hrevoked
    split at h
    · cases h
    rename_i halgorithm
    split at h
    · cases h
    · rename_i hmatches
      exact ⟨signer, hsigner, not_not.mp halgorithm, hrevoked, hmatches⟩
    · cases h
  -- each conjunct passes the check of the same name
  · rintro ⟨signer, hsigner, halgorithm, hrevoked, hmatches⟩
    rw [hsigner]
    show (if signer.revoked = some true then _ else _) = _
    rw [if_neg hrevoked, if_neg (not_not.mpr halgorithm), hmatches]

end Checks

/-! ## What a call does -/

section Verify

variable {host : Host} {options : VerifierOptions} {seen : SeenDigests}
  {call : Call}

/-- **A CALL** finds no receipt and throws, hands out a receipt from the
    cache, or checks the signature and records a receipt. -/
theorem verify_cases (host : Host) (options : VerifierOptions) (seen : SeenDigests) (call : Call) :
    (∃ thrown seen', verify host options seen call = (.error thrown, seen')
      ∧ (seen' = seen ∨ seen' = evictStaleDigests options call.now seen)
      ∧ ∀ envelope payload canonical,
        readEnvelope host options call = .ok (envelope, payload, canonical) →
        (evictStaleDigests options call.now seen).get (digestHex host canonical) = none)
    ∨ ∃ envelope payload canonical,
      readEnvelope host options call = .ok (envelope, payload, canonical)
      ∧ ((∃ existing, (evictStaleDigests options call.now seen).get
            (digestHex host canonical) = some existing
          ∧ verify host options seen call = (.ok { existing.receipt with replayed := true },
              evictStaleDigests options call.now seen))
        ∨ ((evictStaleDigests options call.now seen).get (digestHex host canonical) = none
          ∧ authenticate host call.trustStore envelope canonical = .ok ()
          ∧ ∃ ms, verify host options seen call
            = (.ok (receiptFor host envelope payload canonical ms),
              (evictStaleDigests options call.now seen).set
                (digestHex host canonical) ⟨getTime call.now,
                  receiptFor host envelope payload canonical ms⟩))) := by
  rw [verify]
  cases hread : readEnvelope host options call with
  | error thrown => exact .inl ⟨thrown, seen, rfl, .inl rfl, nofun⟩
  | ok read =>
    obtain ⟨envelope, payload, canonical⟩ := read
    cases hcached : (evictStaleDigests options call.now seen).get (digestHex host canonical) with
    | some existing =>
      refine .inr ⟨envelope, payload, canonical, rfl, .inl ⟨existing, hcached, ?_⟩⟩
      simp only [hcached]
    | none =>
      have hfresh : ∀ e p c, (Except.ok (envelope, payload, canonical) :
          Except Thrown _) = .ok (e, p, c) →
          (evictStaleDigests options call.now seen).get (digestHex host c) = none := by
        intro e p c h
        obtain ⟨rfl, rest⟩ := Prod.mk.inj (Except.ok.inj h)
        cases rest
        exact hcached
      simp only [hcached]
      split
      · rename_i thrown _
        exact .inl ⟨thrown, _, rfl, .inr rfl, hfresh⟩
      -- an invalid clock throws after the signature was checked
      · exact .inl ⟨_, _, rfl, .inr rfl, hfresh⟩
      rename_i ms hauthentic hnow
      exact .inr ⟨envelope, payload, canonical, rfl, Or.inr ⟨hcached, hauthentic, ms, by rw [hnow]⟩⟩

theorem read_inj {envelope envelope' : SignedEvidenceEnvelope}
    {payload payload' : ExternalEvidencePayload} {canonical canonical' : Text}
    (h : readEnvelope host options call = .ok (envelope, payload, canonical))
    (h' : readEnvelope host options call = .ok (envelope', payload', canonical')) :
    envelope = envelope' ∧ canonical = canonical' := by
  have heq := Except.ok.inj (h.symm.trans h')
  obtain ⟨henvelope, rest⟩ := Prod.mk.inj heq
  exact ⟨henvelope, (Prod.mk.inj rest).2⟩

theorem genuine_iff : Genuine host options seen call ↔ ReplayAuthentic host options seen call := by
  rcases verify_cases host options seen call with
    ⟨thrown, seen', hverify, -, hfresh⟩
      | ⟨envelope, payload, canonical, hread, hcase⟩
  -- a call that throws hands out nothing
  · refine iff_of_true ?_ ?_
    · intro receipt hok
      rw [hverify] at hok
      cases hok
    intro envelope payload canonical hread hcached
    rw [hfresh envelope payload canonical hread] at hcached
    cases hcached
  · obtain ⟨henvelope, hpayload, hcanonical⟩ := readEnvelope_ok hread
    rcases hcase with
      ⟨existing, hcached, hverify⟩ | ⟨hnone, hauthentic, ms, hverify⟩
    · -- the receipt comes from the cache: nothing else was looked at
      constructor
      · intro hgenuine e p c hread' _
        obtain ⟨rfl, rfl⟩ := read_inj hread hread'
        obtain ⟨e', p', c', henvelope', hpayload', hcanonical', hvouched⟩ :=
          hgenuine _ (by rw [hverify])
        obtain rfl := Option.some.inj (henvelope.symm.trans henvelope')
        obtain rfl := Option.some.inj (hpayload.symm.trans hpayload')
        obtain rfl := Except.ok.inj (hcanonical.symm.trans hcanonical')
        exact authenticate_ok_iff.mpr hvouched
      · intro hreplay receipt _
        have hauthentic := hreplay envelope payload canonical hread (by rw [hcached]; rfl)
        exact ⟨envelope, payload, canonical, henvelope, hpayload, hcanonical,
          authenticate_ok_iff.mp hauthentic⟩
    -- the signature was checked in this very call
    · refine iff_of_true ?_ ?_
      · intro receipt _
        exact ⟨envelope, payload, canonical, henvelope, hpayload, hcanonical,
          authenticate_ok_iff.mp hauthentic⟩
      intro e p c hread' _
      obtain ⟨rfl, rfl⟩ := read_inj hread hread'
      exact hauthentic

end Verify

/-! ## Runs -/

/-- **GENUINE EVIDENCE**: along every run, every receipt is handed out on the
    envelope's own signature exactly if every envelope that meets a receipt in
    the cache would pass without it. -/
theorem evidence_genuine_iff (host : Host) (options : VerifierOptions) (calls : List Call) :
    Along (step host options) (Genuine host options) empty calls
      ↔ Along (step host options) (ReplayAuthentic host options)
        empty calls := by
  constructor
  · exact Along.imp (I := fun _ => True) (fun _ _ _ h => ⟨genuine_iff.mp h, trivial⟩) trivial
  · exact Along.imp (I := fun _ => True) (fun _ _ _ h => ⟨genuine_iff.mpr h, trivial⟩) trivial

/-- The call checked a signature over the digest, and the receipt names the
    signer. -/
def Backs (host : Host) (call : Call) (digest : Text) (receipt : VerificationReceipt) : Prop :=
  ∃ envelope payload canonical, call.envelope = some envelope ∧ envelope.payload = some payload
    ∧ canonicalizeJson host payload = .ok canonical
    ∧ digestHex host canonical = digest
    ∧ Vouched host call.trustStore envelope canonical
    ∧ receipt.evidenceId = payload.evidenceId
    ∧ receipt.signerKeyId = envelope.signerKeyId
    ∧ receipt.algorithm = envelope.algorithm.text
    ∧ receipt.canonicalDigestHex = digest

theorem backs_receiptFor {host : Host} {options : VerifierOptions}
    {call : Call} {envelope : SignedEvidenceEnvelope}
    {payload : ExternalEvidencePayload} {canonical : Text}
    (hread : readEnvelope host options call = .ok (envelope, payload, canonical))
    (hauthentic : authenticate host call.trustStore envelope canonical = .ok ()) (ms : Int) :
    Backs host call (digestHex host canonical) (receiptFor host envelope payload canonical ms) := by
  obtain ⟨henvelope, hpayload, hcanonical⟩ := readEnvelope_ok hread
  exact ⟨envelope, payload, canonical, henvelope, hpayload, hcanonical, rfl,
    authenticate_ok_iff.mp hauthentic, rfl, rfl, rfl, rfl⟩

section Runs

variable {host : Host} {options : VerifierOptions} {entry : CachedReceipt} {digest : Text}
  {seen : SeenDigests} {call : Call}

theorem get_evictStaleDigests {now : Option Int}
    (h : (evictStaleDigests options now seen).get digest = some entry) :
    seen.get digest = some entry :=
  (get_of_get_filter h).1

theorem get_step (h : (step host options seen call).get digest = some entry) :
    seen.get digest = some entry ∨ Backs host call digest entry.receipt := by
  rw [step] at h
  rcases verify_cases host options seen call with
    ⟨thrown, seen', hverify, hseen, -⟩
      | ⟨envelope, payload, canonical, hread, hcase⟩
  · rw [hverify] at h
    rcases hseen with rfl | rfl
    · exact .inl h
    · exact .inl (get_evictStaleDigests h)
  rcases hcase with ⟨existing, -, hverify⟩ | ⟨-, hauthentic, ms, hverify⟩
  · rw [hverify] at h
    exact .inl (get_evictStaleDigests h)
  rw [hverify, get_set] at h
  split at h
  · rename_i hdigest
    cases h
    exact .inr (hdigest ▸ backs_receiptFor hread hauthentic ms)
  · exact .inl (get_evictStaleDigests h)

theorem cache_backed {calls : List Call}
    (h : (calls.foldl (step host options) empty).get digest = some entry) :
    ∃ call ∈ calls, Backs host call digest entry.receipt := by
  -- by induction from the last call, whose cache is the one looked at
  induction calls using reverseRecOn with
  | nil => cases h
  | append_singleton calls call ih =>
    rw [foldl_append] at h
    rcases get_step h with hold | hnew
    · obtain ⟨earlier, hmem, hbacks⟩ := ih hold
      exact ⟨earlier, mem_append_left _ hmem, hbacks⟩
    · exact ⟨call, mem_append_right _ (mem_singleton_self _), hnew⟩

/-- **EVERY RECEIPT** goes back to a call of the run that checked a signature
    over the same digest. -/
theorem receipt_backed (host : Host) (options : VerifierOptions)
    {before : List Call} {receipt : VerificationReceipt}
    (h : (verify host options (before.foldl (step host options) empty) call).1 = .ok receipt) :
    ∃ call' ∈ before ++ [call], Backs host call' receipt.canonicalDigestHex receipt := by
  rcases verify_cases host options (before.foldl (step host options) empty) call with
    ⟨thrown, seen', hverify, -, -⟩
      | ⟨envelope, payload, canonical, hread, hcase⟩
  · rw [hverify] at h
    cases h
  rcases hcase with
    ⟨existing, hcached, hverify⟩ | ⟨-, hauthentic, ms, hverify⟩
  · rw [hverify] at h
    cases h
    obtain ⟨earlier, hmem, hbacks⟩ := cache_backed (get_evictStaleDigests hcached)
    refine ⟨earlier, mem_append_left _ hmem, ?_⟩
    obtain ⟨e, p, c, he, hp, hc, hdigest, hvouched, hid, hsigner, halg, hreceipt⟩ := hbacks
    exact ⟨e, p, c, he, hp, hc, hdigest.trans hreceipt.symm, hvouched, hid, hsigner, halg, rfl⟩
  · rw [hverify] at h
    cases h
    exact ⟨call, mem_append_right _ (mem_singleton_self _), backs_receiptFor hread hauthentic ms⟩

end Runs

/-! ## A receipt for a stranger -/

/-- Blank digests, and texts that are all dates at time zero. -/
def blankHost : Host where
  engine := Canonical.sampleEngine
  dateParse := fun _ => some 0
  sha256 := fun _ => Vector.replicate 32 0
  hmacSha256 := fun _ _ => Vector.replicate 32 0
  ed25519Verify := fun _ _ _ => .ok false

def samplePayload : ExternalEvidencePayload where
  evidenceId := ascii "e"
  sourceSystem := ascii "s"
  transactionHash := ascii "t"
  invoiceId := ascii "i"
  amount := ascii "1"
  assetCode := ascii "XLM"
  ledgerSequence := none
  timestamp := ascii "1970-01-01T00:00:00.000Z"
  nonce := ascii "n"
  metadata := none

def signedCall : Call where
  envelope := some ⟨some samplePayload, .hmacSha256, ascii "oracle",
    replicate 64 (JsonText.unit '0')⟩
  now := some 0
  trustStore := fun _ => some ⟨ascii "key", .hmacSha256, none⟩

/-- The same payload with the signature of a stranger, when no key is
    trusted. -/
def strangerCall : Call where
  envelope := some ⟨some samplePayload, .ed25519, ascii "stranger", ascii "forged"⟩
  now := some 1
  trustStore := fun _ => none

/-- The stranger gets a receipt. -/
theorem stranger_gets_receipt :
    ¬ Along (step blankHost ⟨none, none⟩) (Genuine blankHost ⟨none, none⟩)
      empty [signedCall, strangerCall] := by
  intro hrun
  have hgenuine := Along.iff_splits.mp hrun [signedCall] strangerCall [] rfl
  have hanswered : (verify blankHost ⟨none, none⟩
      ([signedCall].foldl (step blankHost ⟨none, none⟩) empty)
      strangerCall).1.isOk = true := by decide +kernel
  cases hverify : (verify blankHost ⟨none, none⟩
      ([signedCall].foldl (step blankHost ⟨none, none⟩) empty)
      strangerCall).1 with
  | error thrown =>
    rw [hverify] at hanswered
    cases hanswered
  | ok receipt =>
    -- nobody is trusted at the second call
    obtain ⟨_, _, _, -, -, -, signer, hsigner, -⟩ := hgenuine receipt hverify
    cases hsigner

theorem receipt_backed_sample : ∃ receipt, ∃ call ∈ [] ++ [signedCall],
    Backs blankHost call receipt.canonicalDigestHex receipt := by
  have hanswered : (verify blankHost ⟨none, none⟩ ([].foldl (step blankHost ⟨none, none⟩) empty)
      signedCall).1.isOk = true := by decide +kernel
  cases hverify : (verify blankHost ⟨none, none⟩
      ([].foldl (step blankHost ⟨none, none⟩) empty) signedCall).1 with
  | error thrown =>
    rw [hverify] at hanswered
    cases hanswered
  | ok receipt => exact ⟨receipt, receipt_backed blankHost ⟨none, none⟩ hverify⟩

end Evidence

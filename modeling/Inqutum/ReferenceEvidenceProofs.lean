import Inqutum.ExternalReferenceProofs

/-!
# What a verified reference rests on

The record of a reference keeps the data of the first call that named it,
but a response is checked against the data of the call that asked for it,
and what the response leaves out is not checked at all.  `Evidence` is the
response that verified a record last, with the call it answered; the
evidence `Supports` the record if it answers what the record asks.

Where the calls of a run repeat the data of the record, and the responses
carry what is expected and are no stroop off (`Repeats`), every verified
record is supported (`verified_supported`).
-/

namespace ExternalReference

open JsonText (Text ascii)
open Canonical (JsValue trim bind_ok)
open Transition (Along)
open InsertionMap JsNumber

/-- A response, the call it answered, and the clock when it arrived. -/
structure Evidence where
  input : ExternalReferenceInput
  raw : JsValue
  completedAt : Int

/-- The evidence of each reference. -/
abbrev Ledger := Text → Option Evidence

section Evidence

variable (host : Host) (options : Options)

/-- A response that verifies becomes the evidence of its reference. -/
def witnessed (s : State) (ledger : Ledger) : Event → Ledger
  | .settle k (.responds raw) completedAt _ =>
    match s.calls[k]? with
    | some (.probing input _ startedAt _) =>
      match attemptResult host options input startedAt completedAt (.responds raw) with
      | .ok _ => Function.update ledger input.referenceId (some ⟨input, raw, completedAt⟩)
      | .error _ => ledger
    | _ => ledger
  | _ => ledger

def watch (s : State × Ledger) (e : Event) : State × Ledger :=
  (step host options s.1 e, witnessed host options s.1 s.2 e)

/-- The timestamp is neither post-dated nor stale. -/
def Fresh (now : Int) (members : List (Text × JsValue)) : Prop :=
  ∃ observed observedMs, textOf (property members "observedTimestamp") = some observed
    ∧ host.dateParse observed = some observedMs
    ∧ ¬ lt (add (.finite now) options.allowedClockSkewMs) (.finite observedMs)
    ∧ ¬ lt options.maxStalenessMs (sub (.finite now) (.finite observedMs))

/-- The response carries this amount, to the stroop. -/
def CarriesAmount (members : List (Text × JsValue)) (expected : JsNumber) : Prop :=
  isNullish (property members "settledAmount") = false ∧
    ∃ amount, host.toNumber (property members "settledAmount") = .ok amount
      ∧ amount.toFixed7 = expected.toFixed7

def CarriesAsset (members : List (Text × JsValue)) (expected : Text) : Prop :=
  ∃ code, textOf (property members "assetCode") = some code
    ∧ host.toUpperCase (trim code) = host.toUpperCase (trim expected)

/-- The evidence answers what the record asks.  An empty asset code asks for
    nothing. -/
structure Supports (record : ExternalReferenceRecord) (e : Evidence)
    (members : List (Text × JsValue)) : Prop where
  object : membersOf e.raw = some members
  identifier : e.input.externalIdentifier = record.externalIdentifier
  verified : SourceStatus.ofValue (property members "status") = some .verified
  fresh : Fresh host options e.completedAt members
  amount : ∀ expected, record.expectedAmount = some expected → CarriesAmount host members expected
  asset : ∀ expected, record.expectedAssetCode = some expected → expected ≠ [] →
    CarriesAsset host members expected

/-- Every verified record is supported by its evidence. -/
def AllSupported (s : State × Ledger) : Prop :=
  ∀ id record, s.1.records.get id = some record → record.status = .verified →
    ∃ e members, s.2 id = some e ∧ Supports host options record e members

/-- The call repeats what the record asks, and the response carries it; an
    amount within the slack is no stroop off. -/
structure Repeats (record : ExternalReferenceRecord) (input : ExternalReferenceInput)
    (members : List (Text × JsValue)) : Prop where
  identifier : input.externalIdentifier = record.externalIdentifier
  amount : ∀ expected, record.expectedAmount = some expected →
    input.expectedAmount = some expected ∧ isNullish (property members "settledAmount") = false
      ∧ ∀ amount, host.toNumber (property members "settledAmount") = .ok amount →
        ¬ lt amountSlack (abs (sub amount expected)) →
          amount.toFixed7 = expected.toFixed7
  asset : ∀ expected, record.expectedAssetCode = some expected → expected ≠ [] →
    input.expectedAssetCode = some expected ∧ isNullish (property members "assetCode") = false

/-- A response that reports `verified` meets a record its call repeats. -/
def RepeatsStep (s : State) : Event → Prop
  | .settle k (.responds raw) _ _ =>
    ∀ input number startedAt retries, s.calls[k]? = some (.probing input number startedAt retries) →
      ∀ record, s.records.get input.referenceId = some record →
        ∀ members, membersOf raw = some members →
          SourceStatus.ofValue (property members "status") = some .verified →
            Repeats host record input members
  | _ => True

end Evidence

/-! ## What an accepted response says -/

section Accepted

variable {host : Host} {options : Options} {input : ExternalReferenceInput} {now : Int}
  {members : List (Text × JsValue)}

theorem readObserved_ok {status : SourceStatus} {observedMs : Int}
    (h : readObserved host options now members = .ok (status, observedMs)) :
    SourceStatus.ofValue (property members "status") = some status
      ∧ Fresh host options now members := by
  rw [readObserved] at h
  split at h
  · cases hconv : converted (host.toText (property members "status")) <;>
      rw [hconv] at h <;> cases h
  next status' hstatus =>
  split at h
  · cases h
  next observed hobserved =>
  split at h
  · cases h
  split at h
  · cases h
  next ms hms =>
  split at h
  · cases h
  next hskew =>
  split at h
  · cases h
  next hstale =>
  obtain ⟨rfl, -⟩ := Prod.mk.inj (Except.ok.inj h)
  exact ⟨hstatus, observed, ms, hobserved, hms, hskew, hstale⟩

theorem readSettledAmount_ok {expected : JsNumber} {settled : Option String}
    (hexpected : input.expectedAmount = some expected)
    (hcarried : isNullish (property members "settledAmount") = false)
    (h : readSettledAmount host input members = .ok settled) :
    ∃ amount, host.toNumber (property members "settledAmount") = .ok amount
      ∧ ¬ lt amountSlack (abs (sub amount expected)) := by
  rw [readSettledAmount] at h
  rw [hcarried, if_neg Bool.false_ne_true] at h
  cases hnumber : host.toNumber (property members "settledAmount") with
  | error thrown =>
    rw [hnumber] at h
    cases h
  | ok amount =>
    rw [hnumber, converted, Except.bind, hexpected] at h
    dsimp only at h
    split at h
    · cases htext : converted (host.toText (property members "settledAmount")) <;>
        rw [htext] at h <;> cases h
    split at h
    · cases h
    · next hslack => exact ⟨amount, rfl, hslack⟩

theorem readAssetCode_ok {expected : Text} {asset : Option Text}
    (hexpected : input.expectedAssetCode = some expected) (hne : expected ≠ [])
    (hcarried : isNullish (property members "assetCode") = false)
    (h : readAssetCode host input members = .ok asset) : CarriesAsset host members expected := by
  rw [readAssetCode] at h
  dsimp only at h
  rw [hcarried, if_neg Bool.false_ne_true] at h
  split at h
  · cases h
  next code hcode =>
  split at h
  · cases h
  rw [hexpected] at h
  dsimp only at h
  split at h
  · cases h
  next hmatch =>
  exact ⟨code, hcode, not_not.mp fun hne' => hmatch ⟨hne, hne'⟩⟩

/-- **AN ACCEPTED RESPONSE** supports the record its call repeats. -/
theorem accepted_supports {raw : JsValue} {startedAt : Int} {metadata : PersistedSourceMetadata}
    {record : ExternalReferenceRecord}
    (h : attemptResult host options input startedAt now (.responds raw) = .ok metadata)
    (hrepeats : ∀ members, membersOf raw = some members →
      SourceStatus.ofValue (property members "status") = some .verified →
        Repeats host record input members) :
    ∃ members, Supports host options record ⟨input, raw, now⟩ members := by
  cases hread : validateAndNormalizeProbeOutput host options input now raw
      (latency startedAt now) with
  | error thrown =>
    rw [attemptResult, hread] at h
    cases h
  | ok metadata' =>
    rw [validateAndNormalizeProbeOutput] at hread
    split at hread
    · cases hread
    next members hmembers =>
    obtain ⟨⟨status, ms⟩, hobserved, hread⟩ := bind_ok hread
    obtain ⟨hstatus, hfresh⟩ := readObserved_ok hobserved
    cases status with
    | pending => cases hread
    | rejected => cases hread
    | verified =>
      obtain ⟨ledger, -, hread⟩ := bind_ok hread
      obtain ⟨settled, hsettled, hread⟩ := bind_ok hread
      obtain ⟨asset, hasset, -⟩ := bind_ok hread
      have hrepeat := hrepeats members hmembers hstatus
      refine ⟨members, hmembers, hrepeat.identifier, hstatus, hfresh, ?_, ?_⟩
      · intro expected hexpected
        obtain ⟨hinput, hcarried, hround⟩ := hrepeat.amount expected hexpected
        obtain ⟨amount, hnumber, hslack⟩ := readSettledAmount_ok hinput hcarried hsettled
        exact ⟨hcarried, amount, hnumber, hround amount hnumber hslack⟩
      intro expected hexpected hne
      obtain ⟨hinput, hcarried⟩ := hrepeat.asset expected hexpected hne
      exact readAssetCode_ok hinput hne hcarried hasset

end Accepted

/-! ## Steps and runs -/

section Runs

variable {host : Host} {options : Options} {s : State} {ledger : Ledger}

theorem beginAttempt_verified {retries : Bool} {input : ExternalReferenceInput}
    {createdAt startedAt completedAt : Int} {id : Text} {record : ExternalReferenceRecord}
    (h : (beginAttempt options s.records retries input createdAt startedAt completedAt).1.get id
      = some record) (hverified : record.status = .verified) : s.records.get id = some record := by
  rw [beginAttempt] at h
  split at h
  · rw [get_set] at h
    split at h
    · cases h
      cases hverified
    · exact h
  rw [get_set] at h
  split at h
  · next heq =>
    rw [← heq]
    cases hget : s.records.get input.referenceId with
    | some old =>
      rw [getOrCreateRecord, hget] at h
      exact h
    | none =>
      rw [getOrCreateRecord, hget] at h
      cases h
      cases hverified
  · exact h

theorem settleFailed_status (record : ExternalReferenceRecord) (a : Attempt)
    (error : ProbeClassificationError) :
    (record.settleFailed a host options error).1.status ≠ .verified := by
  rw [ExternalReferenceRecord.settleFailed]
  split
  · split
    · rintro ⟨⟩
    · rintro ⟨⟩
  split
  · rintro ⟨⟩
  · rintro ⟨⟩

/-- The evidence of a reference stays unless a response verifies it. -/
theorem witnessed_of_ne {k : Nat} {outcome : ProbeOutcome} {completedAt failedAt : Int} {id : Text}
    (h : ∀ input number startedAt retries metadata,
      s.calls[k]? = some (.probing input number startedAt retries) →
        attemptResult host options input startedAt completedAt outcome = .ok metadata →
          input.referenceId ≠ id) :
    witnessed host options s ledger (.settle k outcome completedAt failedAt) id = ledger id := by
  cases outcome with
  | throws thrown => rfl
  | timesOut => rfl
  | responds raw =>
    rw [witnessed]
    cases hcall : s.calls[k]? with
    | none => rfl
    | some call =>
      cases call with
      | probing input number startedAt retries =>
        dsimp only
        cases hresult : attemptResult host options input startedAt completedAt (.responds raw) with
        | error thrown => rfl
        | ok metadata =>
          exact Function.update_of_ne (Ne.symm (h _ _ _ _ metadata hcall hresult)) _ _
      | sleeping input => rfl
      | returned record => rfl
      | rejected => rfl

/-- **ONE STEP** leaves every verified record supported if it repeats. -/
theorem supported_step (h : AllSupported host options (s, ledger)) {e : Event}
    (hrepeats : RepeatsStep host s e) :
    AllSupported host options (watch host options (s, ledger) e) := by
  intro id record hget hverified
  rw [watch] at hget ⊢
  cases e with
  | call retries input createdAt startedAt completedAt =>
    exact h id record (beginAttempt_verified hget hverified) hverified
  | wake k createdAt startedAt completedAt =>
    rw [step] at hget
    split at hget
    · exact h id record (beginAttempt_verified hget hverified) hverified
    · exact h id record hget hverified
  | settle k outcome completedAt failedAt =>
    rw [step] at hget
    dsimp only
    split at hget
    · next input number startedAt retries hcall =>
      -- where the step writes no verified record, the evidence is the old one
      have hsame : (∀ metadata, attemptResult host options input startedAt completedAt outcome
            = .ok metadata → input.referenceId ≠ id) → s.records.get id = some record →
          ∃ e members, witnessed host options s ledger (.settle k outcome completedAt failedAt) id
            = some e ∧ Supports host options record e members := by
        intro hne hold
        rw [witnessed_of_ne fun input' _ _ _ metadata hcall' hresult => ?_]
        · exact h id record hold hverified
        rw [hcall] at hcall'
        cases hcall'
        exact hne metadata hresult
      split at hget
      · next old hold =>
        dsimp only at hget
        rw [settleAttempt] at hget
        cases hresult : attemptResult host options input startedAt completedAt outcome with
        | error error =>
          rw [hresult, get_set] at hget
          split at hget
          · cases hget
            exact absurd hverified (settleFailed_status old _ error)
          refine hsame (fun metadata hok => ?_) hget
          rw [hresult] at hok
          cases hok
        | ok metadata =>
          rw [hresult, get_set] at hget
          split at hget
          · next heq =>
            cases hget
            cases outcome with
            | throws thrown => cases hresult
            | timesOut => cases hresult
            | responds raw =>
              obtain ⟨members, hsupports⟩ := accepted_supports hresult
                (hrepeats input number startedAt retries hcall old hold)
              refine ⟨_, members, ?_, { hsupports with }⟩
              rw [witnessed, hcall]
              dsimp only
              rw [hresult, ← heq]
              exact Function.update_self _ _ _
          · next hne => exact hsame (fun _ _ => hne) hget
      · next hnone =>
        refine hsame (fun _ _ heq => ?_) hget
        rw [heq, hget] at hnone
        cases hnone
    · next hother =>
      rw [witnessed_of_ne fun input number startedAt retries _ hcall =>
        absurd hcall (hother input number startedAt retries)]
      exact h id record hget hverified

/-- **VERIFIED RECORDS ARE SUPPORTED**: along every run whose calls repeat
    what the records ask, every verified record rests on a response to its
    own question. -/
theorem verified_supported (host : Host) (options : Options) (events : List Event)
    (h : Along (step host options) (RepeatsStep host) State.init events) :
    AllSupported host options
      (events.foldl (watch host options) (State.init, fun _ => none)) := by
  have hrun : ∀ (s : State) (ledger : Ledger), AllSupported host options (s, ledger) →
      Along (step host options) (RepeatsStep host) s events →
        AllSupported host options (events.foldl (watch host options) (s, ledger)) := by
    clear h
    induction events with
    | nil => exact fun _ _ hall _ => hall
    | cons e rest ih =>
      rintro s ledger hall ⟨hrepeats, hrest⟩
      exact ih _ _ (supported_step hall hrepeats) hrest
  exact hrun _ _ (fun _ _ hget => nomatch hget) h

end Runs

def expectingInput : ExternalReferenceInput :=
  { sampleInput with expectedAmount := some 100, expectedAssetCode := some (ascii "USDC") }

/-- One call, and a response that carries what it expects. -/
def answeredRun : List Event :=
  [.call false expectingInput 0 0 0,
    .settle 0 (.responds (.obj [(ascii "status", .str (ascii "verified")),
      (ascii "observedTimestamp", .str (ascii "1970-01-01T00:00:00Z")),
      (ascii "settledAmount", .number 100), (ascii "assetCode", .str (ascii "USDC"))])) 1 1]

theorem answered_run_supported : AllSupported { sampleHost with toNumber := fun _ => .ok 100 } {}
    (answeredRun.foldl (watch { sampleHost with toNumber := fun _ => .ok 100 } {})
      (State.init, fun _ => none)) := by
  refine verified_supported _ {} answeredRun ⟨trivial, ?_, trivial⟩
  intro input number startedAt retries hcall record hget members hmembers _
  obtain rfl : expectingInput = input := by
    have hprobing : some (Call.probing expectingInput 1 0 false)
      = some (.probing input number startedAt retries) := hcall
    cases hprobing
    rfl
  have hrecord : some (newRecord {} expectingInput 0) = some record := hget
  cases hrecord
  cases hmembers
  refine ⟨rfl, fun expected hexpected => ?_, fun expected hexpected _ => ?_⟩
  · cases hexpected
    refine ⟨rfl, by decide +kernel, fun amount hamount _ => ?_⟩
    cases hamount
    rfl
  cases hexpected
  exact ⟨rfl, by decide +kernel⟩

/-- One call expects an amount; the response says no more than that the
    reference is verified. -/
def silentRun : List Event :=
  [.call false { sampleInput with expectedAmount := some 100 } 0 0 0,
    .settle 0 (.responds (.obj [(ascii "status", .str (ascii "verified")),
      (ascii "observedTimestamp", .str (ascii "1970-01-01T00:00:00Z"))])) 1 1]

theorem silent_amount_verified : ¬ AllSupported sampleHost {}
    (silentRun.foldl (watch sampleHost {}) (State.init, fun _ => none)) := by
  intro hall
  have hrecord : ((silentRun.foldl (watch sampleHost {}) (State.init, fun _ => none)).1.records.get
      (ascii "ref-001")).map (fun record => (record.status, record.expectedAmount))
        = some (.verified, some 100) := by decide +kernel
  have hsilent : ((silentRun.foldl (watch sampleHost {}) (State.init, fun _ => none)).2
      (ascii "ref-001")).map (fun e => (membersOf e.raw).map
        (fun members => isNullish (property members "settledAmount"))) = some (some true) := by
    decide +kernel
  obtain ⟨record, hget, hpair⟩ := Option.map_eq_some_iff.mp hrecord
  obtain ⟨hverified, hexpected⟩ := Prod.mk.inj hpair
  obtain ⟨e, members, hledger, hsupports⟩ := hall _ record hget hverified
  have hcarried := (hsupports.amount 100 hexpected).1
  rw [hledger, Option.map_some, hsupports.object, Option.map_some, hcarried] at hsilent
  cases hsilent

end ExternalReference

import Inqutum.RoundingOrderProofs
import Mathlib.Data.Set.Finite.Basic

/-!
# What a policy diff reports

`generatePolicyDiff` looks at one parameter after the other: it reports a
breaking change if the amounts are narrowed or an asset is taken off the
list.  A request is admitted by all the rules together, and the empty list
admits every asset.  `breaking_iff` says on which policies the two agree:
the range of days is not looked at, and a list that was empty or becomes
empty is misread.

What `toUpperCase` makes of a text is a parameter.
-/

namespace PolicyDiff

open JsNumber List

/-! ## The policy -/

/-- `BusinessPolicy['invoice']`; the default of the expiry is not read here. -/
structure BusinessPolicy where
  minAmount : JsNumber
  maxAmount : JsNumber
  minExpiryDays : JsNumber
  maxExpiryDays : JsNumber
  allowedAssets : List String

inductive PolicyCode where
  | amountTooLow
  | amountTooHigh
  | expiryOutOfRange
  | assetNotAllowed

inductive PolicyValue where
  | number (value : JsNumber)
  | assets (codes : List String)

inductive PolicyDecision where
  | allow
  | deny (code : PolicyCode) (message : String) (details : List (String × PolicyValue))

structure InvoiceRequest where
  amount : JsNumber
  assetCode : Option String
  expiresInDays : Option JsNumber

/-- Days that the policy does not admit. -/
def daysRefused (policy : BusinessPolicy) (days : JsNumber) : Bool :=
  !days.isInteger || lt days policy.minExpiryDays || lt policy.maxExpiryDays days

/-- First failing rule wins. -/
def evaluateInvoiceRequest (toUpperCase : String → String) (request : InvoiceRequest)
    (policy : BusinessPolicy) : PolicyDecision :=
  let asset := toUpperCase (request.assetCode.getD "XLM")
  let minText := policy.minAmount.toText
  let maxText := policy.maxAmount.toText
  let codes := ", ".intercalate policy.allowedAssets
  let fewest := policy.minExpiryDays.toText
  let most := policy.maxExpiryDays.toText
  if !request.amount.isFinite || lt request.amount policy.minAmount then
    .deny .amountTooLow s!"Amount must be at least {minText}."
      [("min", .number policy.minAmount)]
  else if lt policy.maxAmount request.amount then
    .deny .amountTooHigh s!"Amount must be at most {maxText}."
      [("max", .number policy.maxAmount)]
  else if policy.allowedAssets ≠ [] ∧ asset ∉ policy.allowedAssets then
    .deny .assetNotAllowed s!"{asset} is not accepted. Use one of: {codes}."
      [("allowed", .assets policy.allowedAssets)]
  else if request.expiresInDays.any (daysRefused policy) then
    .deny .expiryOutOfRange
      s!"Expiry must be a whole number of days between {fewest} and {most}."
      [("min", .number policy.minExpiryDays), ("max", .number policy.maxExpiryDays)]
  else .allow

/-! ## The report -/

inductive ChangeType where
  | expanded
  | restricted
  deriving DecidableEq

inductive DiffRiskLevel where
  | low
  | medium
  | high
  deriving DecidableEq

def DiffRiskLevel.text : DiffRiskLevel → String
  | low => "LOW"
  | medium => "MEDIUM"
  | high => "HIGH"

structure PolicyParamDiff where
  parameter : String
  currentValue : PolicyValue
  proposedValue : PolicyValue
  changeType : ChangeType
  riskLevel : DiffRiskLevel
  impactAnalysis : String

structure PermissionDiffReport where
  reportId : String
  generatedAt : String
  generatedBy : String
  scope : String
  overallRisk : DiffRiskLevel
  privilegeEscalationDetected : Bool
  breakingChangesDetected : Bool
  requiresMaintainerQuorum : Bool
  policyDiffs : List PolicyParamDiff
  reversalRecipe : List String
  summary : String

inductive CollaborationRole where
  | owner
  | admin
  | collaborator
  | viewer
  deriving DecidableEq

def CollaborationRole.text : CollaborationRole → String
  | owner => "OWNER"
  | admin => "ADMIN"
  | collaborator => "COLLABORATOR"
  | viewer => "VIEWER"

structure DiffGeneratorOptions where
  actorId : Option String
  actorRole : Option CollaborationRole

/-- `UnauthorizedPermissionDiffError`. -/
structure Unauthorized where
  code : String
  message : String
  httpStatus : Nat

def assertAuthorized (options : DiffGeneratorOptions) : Except Unauthorized Unit :=
  let role := options.actorRole.getD .admin
  if role ≠ .owner ∧ role ≠ .admin then
    let actor := JsText.orElse options.actorId "unknown"
    let roleText := role.text
    .error ⟨"UNAUTHORIZED_PERMISSION_DIFF",
      s!"Actor '{actor}' with role '{roleText}' is not authorized to generate permission diffs. Requires ADMIN or OWNER.",
      403⟩
  else .ok ()

/-- The entry of a number that has changed, by the way it has moved. -/
def amountDiff (parameter : String) (cur prop : JsNumber)
    (up down : ChangeType × DiffRiskLevel × String) : List PolicyParamDiff :=
  if cur = prop then []
  else
    let (changeType, riskLevel, impactAnalysis) := if lt cur prop then up else down
    [⟨parameter, .number cur, .number prop, changeType, riskLevel, impactAnalysis⟩]

def minAmountDiff (cur prop : BusinessPolicy) : List PolicyParamDiff :=
  let text := prop.minAmount.toText
  amountDiff "minAmount" cur.minAmount prop.minAmount
    (.restricted, .medium, s!"Higher minimum amount ({text}) will reject small micro-invoices.")
    (.expanded, .low, s!"Lower minimum amount ({text}) expands micro-invoice eligibility.")

def maxAmountDiff (cur prop : BusinessPolicy) : List PolicyParamDiff :=
  let text := prop.maxAmount.toText
  amountDiff "maxAmount" cur.maxAmount prop.maxAmount
    (.expanded, .high,
      s!"Increased maximum amount ({text}) elevates counterparty transaction volume exposure.")
    (.restricted, .low, s!"Decreased maximum amount ({text}) bounds risk exposure.")

/-- The codes of a list that another one does not have, each once. -/
def without (codes other : List String) : List String :=
  codes.eraseDups.filter (fun code => decide (code ∉ other))

/-- `codes.join(', ') || 'none'`. -/
def joined (codes : List String) : String :=
  let text := ", ".intercalate codes
  if text = "" then "none" else text

def assetsDiff (cur prop : BusinessPolicy) : List PolicyParamDiff :=
  let addedAssets := without prop.allowedAssets cur.allowedAssets
  let removedAssets := without cur.allowedAssets prop.allowedAssets
  let added := joined addedAssets
  let removed := joined removedAssets
  if addedAssets ≠ [] ∨ removedAssets ≠ [] then
    [⟨"allowedAssets", .assets cur.allowedAssets, .assets prop.allowedAssets,
      if removedAssets ≠ [] then .restricted else .expanded,
      if removedAssets ≠ [] then .high else .medium,
      s!"Allowed assets altered. Added: [{added}], Removed: [{removed}]."⟩]
  else []

def policyDiffs (cur prop : BusinessPolicy) : List PolicyParamDiff :=
  minAmountDiff cur prop ++ maxAmountDiff cur prop ++ assetsDiff cur prop

/-- `uuid` and `now` are what the report draws. -/
def generatePolicyDiff (uuid now : String) (cur prop : BusinessPolicy)
    (options : DiffGeneratorOptions) : Except Unauthorized PermissionDiffReport := do
  assertAuthorized options
  let diffs := policyDiffs cur prop
  let overallRisk : DiffRiskLevel :=
    if diffs.any (fun d => d.riskLevel = .high) then .high
    else if diffs.any (fun d => d.riskLevel = .medium) then .medium
    else .low
  let minText := cur.minAmount.toText
  let maxText := cur.maxAmount.toText
  let codes := ",".intercalate cur.allowedAssets
  let risk := overallRisk.text
  let count := diffs.length
  return {
    reportId := uuid
    generatedAt := now
    generatedBy := JsText.orElse options.actorId "operator"
    scope := "POLICY_CHANGE"
    overallRisk
    privilegeEscalationDetected := false
    breakingChangesDetected := diffs.any (fun d => d.changeType = .restricted)
    requiresMaintainerQuorum := overallRisk = .high
    policyDiffs := diffs
    reversalRecipe := ["-- Reversal Recipe for Policy Changes",
      s!"SET_POLICY_MIN_AMOUNT={minText}", s!"SET_POLICY_MAX_AMOUNT={maxText}",
      s!"SET_POLICY_ALLOWED_ASSETS={codes}"]
    summary := s!"Policy diff: {count} parameter(s) modified. Overall risk: {risk}." }

/-! ## Which changes break -/

/-- Bounds in order, and asset codes in upper case. -/
structure Ordered (toUpperCase : String → String) (policy : BusinessPolicy) : Prop where
  amounts : le policy.minAmount policy.maxAmount = true
  days : le policy.minExpiryDays policy.maxExpiryDays = true
  upper : ∀ code ∈ policy.allowedAssets, toUpperCase code = code

/-- Some finite amount is within the bounds. -/
def Payable (policy : BusinessPolicy) : Prop :=
  ∃ q : ℚ, lt (finite q) policy.minAmount = false ∧ lt policy.maxAmount (finite q) = false

/-- A bound of the amount has moved inwards. -/
def AmountsNarrowed (cur prop : BusinessPolicy) : Prop :=
  lt cur.minAmount prop.minAmount = true ∨ lt prop.maxAmount cur.maxAmount = true

/-- A code is taken off the list. -/
def CodeRemoved (cur prop : BusinessPolicy) : Prop :=
  ∃ code ∈ cur.allowedAssets, code ∉ prop.allowedAssets

/-- An asset that was admitted is not any more: the empty list admits all. -/
def AssetsNarrowed (cur prop : BusinessPolicy) : Prop :=
  prop.allowedAssets ≠ [] ∧ (cur.allowedAssets = [] ∨ CodeRemoved cur prop)

/-- A whole number of days that was admitted is not any more. -/
def DaysNarrowed (cur prop : BusinessPolicy) : Prop :=
  ∃ days, daysRefused cur days = false ∧ daysRefused prop days = true

/-- What a request has to meet. -/
structure Admits (toUpperCase : String → String) (policy : BusinessPolicy)
    (request : InvoiceRequest) : Prop where
  finite : request.amount.isFinite = true
  least : lt request.amount policy.minAmount = false
  most : lt policy.maxAmount request.amount = false
  asset : policy.allowedAssets ≠ [] →
    toUpperCase (request.assetCode.getD "XLM") ∈ policy.allowedAssets
  days : request.expiresInDays.any (daysRefused policy) = false

section Breaking

variable {toUpperCase : String → String} {cur prop policy : BusinessPolicy}

theorem allow_iff (request : InvoiceRequest) :
    evaluateInvoiceRequest toUpperCase request policy = .allow
      ↔ Admits toUpperCase policy request := by
  have hdeny (p : Prop) [Decidable p] (code : PolicyCode) (message : String)
      (details : List (String × PolicyValue)) (rest : PolicyDecision) :
      (if p then .deny code message details else rest) = .allow ↔ ¬ p ∧ rest = .allow := by
    by_cases hp : p <;> simp [hp]
  unfold evaluateInvoiceRequest
  simp only [hdeny, Bool.or_eq_true, Bool.not_eq_true', not_or, Bool.not_eq_false,
    Bool.not_eq_true, not_and, not_not, and_true]
  exact ⟨fun ⟨⟨h₁, h₂⟩, h₃, h₄, h₅⟩ => ⟨h₁, h₂, h₃, h₄, h₅⟩,
    fun h => ⟨⟨h.finite, h.least⟩, h.most, h.asset, h.days⟩⟩

theorem lt_eq_not {x y : JsNumber} (hne : x ≠ y) (hx : x ≠ nan) (hy : y ≠ nan) :
    lt y x = !lt x y := by
  cases x <;> cases y <;> simp_all [lt, le]
  grind

theorem Ordered.numbers (h : Ordered toUpperCase policy) :
    policy.minAmount ≠ nan ∧ policy.maxAmount ≠ nan := by
  have hle := h.amounts
  constructor <;> intro hnan <;> rw [hnan] at hle
  · cases hle
  · cases hmin : policy.minAmount <;> rw [hmin] at hle <;> cases hle

theorem reports_iff (hcur : Ordered toUpperCase cur) (hprop : Ordered toUpperCase prop) :
    (policyDiffs cur prop).any (fun d => d.changeType = .restricted) = true
      ↔ AmountsNarrowed cur prop ∨ CodeRemoved cur prop := by
  have hmin : (minAmountDiff cur prop).any (fun d => d.changeType = .restricted)
      = lt cur.minAmount prop.minAmount := by
    rw [minAmountDiff, amountDiff]
    split
    · next heq => rw [heq, lt, Bool.and_not_self]; rfl
    · cases lt cur.minAmount prop.minAmount <;> rfl
  have hmax : (maxAmountDiff cur prop).any (fun d => d.changeType = .restricted)
      = lt prop.maxAmount cur.maxAmount := by
    rw [maxAmountDiff, amountDiff]
    split
    · next heq => rw [heq, lt, Bool.and_not_self]; rfl
    · next hne =>
      rw [lt_eq_not hne hcur.numbers.2 hprop.numbers.2]
      cases lt cur.maxAmount prop.maxAmount <;> rfl
  have hremoved : without cur.allowedAssets prop.allowedAssets ≠ [] ↔ CodeRemoved cur prop := by
    rw [without, ne_eq, filter_eq_nil_iff]
    simp only [mem_eraseDups, decide_eq_true_eq, not_forall, not_not, exists_prop]
    rfl
  have hassets : (assetsDiff cur prop).any (fun d => d.changeType = .restricted) = true
      ↔ CodeRemoved cur prop := by
    rw [← hremoved]
    by_cases hr : without cur.allowedAssets prop.allowedAssets = []
    · by_cases ha : without prop.allowedAssets cur.allowedAssets = [] <;> simp [assetsDiff, hr, ha]
    · simp [assetsDiff, hr]
  rw [policyDiffs, any_append, any_append, Bool.or_eq_true, Bool.or_eq_true, hmin, hmax, hassets]
  rfl

theorem exists_low {lo hi bound : JsNumber} {a : ℚ} (hlo : le lo hi = true)
    (hleast : lt (finite a) lo = false) (hmost : lt hi (finite a) = false)
    (hup : lt lo bound = true) :
    ∃ q : ℚ, lt (finite q) lo = false ∧ lt hi (finite q) = false ∧ lt (finite q) bound = true := by
  cases lo with
  | finite q =>
    refine ⟨q, ?_, ?_, hup⟩
    · rw [lt, Bool.and_not_self]
    · rw [lt, hlo, Bool.not_true, Bool.and_false]
  | negInf =>
    cases bound with
    | finite p =>
      refine ⟨min a (p - 1), rfl, ?_, ?_⟩
      · cases hi <;> simp_all [lt, le]
      · simp [lt, le]
    | posInf => exact ⟨a, rfl, hmost, rfl⟩
    | _ => cases hup
  | posInf => cases hleast
  | nan => cases hlo

theorem lt_negate (x y : JsNumber) : lt (negate x) (negate y) = lt y x := by
  cases x <;> cases y <;> simp [lt, le, negate]

theorem exists_high {lo hi bound : JsNumber} {a : ℚ} (hlo : le lo hi = true)
    (hleast : lt (finite a) lo = false) (hmost : lt hi (finite a) = false)
    (hdown : lt bound hi = true) :
    ∃ q : ℚ, lt (finite q) lo = false ∧ lt hi (finite q) = false ∧ lt bound (finite q) = true := by
  obtain ⟨q, h₁, h₂, h₃⟩ := @exists_low _ _ (negate bound) (-a) (le_negate hlo)
    ((lt_negate (finite a) hi).trans hmost) ((lt_negate lo (finite a)).trans hleast)
    ((lt_negate hi bound).trans hdown)
  obtain ⟨r, rfl⟩ : ∃ r, q = -r := ⟨-q, (neg_neg q).symm⟩
  exact ⟨r, (lt_negate lo (finite r)).symm.trans h₂, (lt_negate (finite r) hi).symm.trans h₁,
    (lt_negate (finite r) bound).symm.trans h₃⟩

theorem lt_of_least {lo bound : JsNumber} {q : ℚ} (hlo : lo ≠ nan)
    (hleast : lt (finite q) lo = false) (h : lt (finite q) bound = true) : lt lo bound = true := by
  cases lo <;> cases bound <;> simp_all [lt, le]
  grind

theorem lt_of_most {hi bound : JsNumber} {q : ℚ} (hhi : hi ≠ nan)
    (hmost : lt hi (finite q) = false) (h : lt bound (finite q) = true) : lt bound hi = true := by
  cases hi <;> cases bound <;> simp_all [lt, le]
  grind

/-- A code that is its own upper case. -/
def zeros (n : Nat) : String := String.ofList (replicate n '0')

theorem exists_fresh (codes : List String) : ∃ n, zeros n ∉ codes := by
  by_contra hall
  rw [not_exists] at hall
  have hinj : Function.Injective zeros := fun m n h => by
    have := congrArg (fun text : String => text.toList.length) h
    simpa [zeros] using this
  exact Set.infinite_of_injective_forall_mem (s := {code | code ∈ codes}) hinj
    (fun n => not_not.mp (hall n)) codes.finite_toSet

/-- Some admitted request is not admitted any more. -/
def Breaks (toUpperCase : String → String) (cur prop : BusinessPolicy) : Prop :=
  ∃ request, evaluateInvoiceRequest toUpperCase request cur = .allow
    ∧ evaluateInvoiceRequest toUpperCase request prop ≠ .allow

theorem breaks_iff (hzeros : ∀ n, toUpperCase (zeros n) = zeros n)
    (hcur : Ordered toUpperCase cur) : Breaks toUpperCase cur prop ↔ Payable cur
      ∧ (AmountsNarrowed cur prop ∨ AssetsNarrowed cur prop ∨ DaysNarrowed cur prop) := by
  -- Some asset is admitted.
  obtain ⟨asset, hasset⟩ : ∃ code, cur.allowedAssets ≠ [] → toUpperCase code ∈ cur.allowedAssets := by
    cases hcodes : cur.allowedAssets with
    | nil => exact ⟨"XLM", absurd rfl⟩
    | cons code rest =>
      refine ⟨code, fun _ => ?_⟩
      rw [hcur.upper code (by rw [hcodes]; exact .head _)]
      exact .head _
  simp only [Breaks, ne_eq, allow_iff]
  constructor
  · rintro ⟨⟨amount, code, days⟩, h, hno⟩
    cases amount with
    | finite q =>
      refine ⟨⟨q, h.least, h.most⟩, ?_⟩
      by_contra hout
      rw [not_or, not_or] at hout
      obtain ⟨hamounts, hassets, hdays⟩ := hout
      refine hno ⟨rfl, Bool.eq_false_iff.mpr fun hlt => hamounts (.inl
          (lt_of_least hcur.numbers.1 h.least hlt)), Bool.eq_false_iff.mpr fun hlt =>
          hamounts (.inr (lt_of_most hcur.numbers.2 h.most hlt)), fun hne => ?_, ?_⟩
      · by_contra hmem
        refine hassets ⟨hne, or_iff_not_imp_left.mpr fun hcodes => ⟨_, h.asset hcodes, hmem⟩⟩
      · cases days with
        | none => rfl
        | some d => exact Bool.eq_false_iff.mpr fun hd => hdays ⟨d, h.days, hd⟩
    | _ => cases h.finite
  · rintro ⟨⟨q, hleast, hmost⟩, (hlow | hhigh) | ⟨hne, hcodes⟩ | ⟨d, hd, hd'⟩⟩
    · obtain ⟨a, h₁, h₂, h₃⟩ := exists_low hcur.amounts hleast hmost hlow
      exact ⟨⟨finite a, some asset, none⟩, ⟨rfl, h₁, h₂, hasset, rfl⟩,
        fun h => Bool.false_ne_true (h.least.symm.trans h₃)⟩
    · obtain ⟨a, h₁, h₂, h₃⟩ := exists_high hcur.amounts hleast hmost hhigh
      exact ⟨⟨finite a, some asset, none⟩, ⟨rfl, h₁, h₂, hasset, rfl⟩,
        fun h => Bool.false_ne_true (h.most.symm.trans h₃)⟩
    · obtain ⟨code, hin, hout⟩ : ∃ code, (cur.allowedAssets ≠ [] → toUpperCase code ∈ cur.allowedAssets)
          ∧ toUpperCase code ∉ prop.allowedAssets := by
        rcases hcodes with hnil | ⟨code, hmem, hout⟩
        · obtain ⟨n, hn⟩ := exists_fresh prop.allowedAssets
          exact ⟨zeros n, absurd hnil, by rwa [hzeros]⟩
        · exact ⟨code, by rw [hcur.upper code hmem]; exact ⟨fun _ => hmem, hout⟩⟩
      exact ⟨⟨finite q, some code, none⟩, ⟨rfl, hleast, hmost, hin, rfl⟩, fun h => hout (h.asset hne)⟩
    · exact ⟨⟨finite q, some asset, some d⟩, ⟨rfl, hleast, hmost, hasset, hd⟩,
        fun h => Bool.false_ne_true (h.days.symm.trans hd')⟩

/-- An authorized caller is told of a breaking change. -/
def Reports (cur prop : BusinessPolicy) (options : DiffGeneratorOptions) (uuid now : String) : Prop :=
  ∃ report, generatePolicyDiff uuid now cur prop options = .ok report
    ∧ report.breakingChangesDetected = true

/-- Where the amounts are as they were, a code is removed exactly if a code or
    a day that was admitted is not any more. -/
def Readable (cur prop : BusinessPolicy) : Prop :=
  (Payable cur → AmountsNarrowed cur prop
      ∨ (CodeRemoved cur prop ↔ AssetsNarrowed cur prop ∨ DaysNarrowed cur prop))
    ∧ (¬ Payable cur → ¬ AmountsNarrowed cur prop ∧ ¬ CodeRemoved cur prop)

/-- **A REPORT IS EXACT ON THE AMOUNTS ONLY**. -/
theorem breaking_iff (hzeros : ∀ n, toUpperCase (zeros n) = zeros n)
    (hcur : Ordered toUpperCase cur) (hprop : Ordered toUpperCase prop)
    {options : DiffGeneratorOptions} (hauth : assertAuthorized options = .ok ()) (uuid now : String) :
    (Reports cur prop options uuid now ↔ Breaks toUpperCase cur prop) ↔ Readable cur prop := by
  have hreports : Reports cur prop options uuid now
      ↔ (policyDiffs cur prop).any (fun d => d.changeType = .restricted) = true := by
    rw [Reports, generatePolicyDiff, hauth]
    exact ⟨fun ⟨_, hok, h⟩ => by cases hok; exact h, fun h => ⟨_, rfl, h⟩⟩
  rw [hreports, reports_iff hcur hprop, breaks_iff hzeros hcur, Readable]
  tauto

/-- Any asset, for up to so many days. -/
def upTo (days : JsNumber) : BusinessPolicy := ⟨1, 10, 1, days, []⟩

theorem ordered_upTo : Ordered id (upTo 30) := ⟨by decide +kernel, by decide +kernel, nofun⟩

/-- The same, for half the amount. -/
def halved : BusinessPolicy := { upTo 30 with maxAmount := 5 }

theorem breaking_halved : Reports (upTo 30) halved ⟨none, none⟩ "r1" "2026-01-01T00:00:00.000Z"
    ↔ Breaks id (upTo 30) halved := by
  refine (breaking_iff (fun _ => rfl) ordered_upTo ⟨by decide +kernel, by decide +kernel,
    fun _ hmem => absurd hmem not_mem_nil⟩ rfl _ _).mpr ⟨fun _ => .inl (.inr (by decide +kernel)), fun hnone => absurd ?_ hnone⟩
  exact ⟨1, by decide +kernel, by decide +kernel⟩

theorem narrowed_days_unreported :
    ¬ (Reports (upTo 30) (upTo 10) ⟨none, none⟩ "r1" "2026-01-01T00:00:00.000Z"
      ↔ Breaks id (upTo 30) (upTo 10)) := by
  intro h
  have hdays : DaysNarrowed (upTo 30) (upTo 10) := ⟨20, by decide +kernel, by decide +kernel⟩
  obtain ⟨report, hok, hreport⟩ := h.mpr ((breaks_iff (fun _ => rfl) ordered_upTo).mpr
    ⟨⟨1, by decide +kernel, by decide +kernel⟩, .inr (.inr hdays)⟩)
  cases hok
  revert hreport
  decide +kernel

end Breaking

end PolicyDiff

import Inqutum.InvoiceProofs
import Inqutum.MetadataMergeProofs

/-!
# Resolving concurrent edits

`resolveMultiClientConflict` goes through the fields of a client's edit:
guarded fields must not change, and an editable field is decided against
the base the client saw and what the server has now.  Metadata that both
sides changed is merged key by key.

Every field is decided on its own (`resolveFields_ok`), so the merged
invoice is a three-way merge, field by field and along every path through
metadata, where deep equality can be trusted (`merge_keeps_edits`).
-/

namespace ConflictResolver

open ThreeWay DeepEqual MetadataMerge Invoices List Option InsertionMap

/-! ## Errors and options -/

structure ConflictResolverError where
  name : String
  code : String
  message : String
  httpStatus : Nat

def immutableFieldConflictError (field : String) : ConflictResolverError where
  name := "ImmutableFieldConflictError"
  code := "IMMUTABLE_FIELD_CONFLICT"
  message := "Modification of immutable invoice field '" ++ field
    ++ "' is strictly prohibited. Financial and settlement parameters cannot "
    ++ "be changed."
  httpStatus := 400

def terminalStatusConflictError (status : String) : ConflictResolverError where
  name := "TerminalStatusConflictError"
  code := "TERMINAL_STATUS_CONFLICT"
  message := "Invoice is in terminal status '" ++ status ++ "'. Edits to "
    ++ "settled, cancelled, or expired invoices are strictly prohibited."
  httpStatus := 409

def unauthorizedEditError (actorId : String) : ConflictResolverError where
  name := "UnauthorizedEditError"
  code := "UNAUTHORIZED_EDIT"
  message := "Actor '" ++ (if actorId = "" then "unknown" else actorId)
    ++ "' is not authorized to edit this invoice."
  httpStatus := 403

inductive ActorRole where
  | OWNER
  | ADMIN
  | SELLER
  | COLLABORATOR
  | VIEWER
  deriving DecidableEq

structure ConflictResolverOptions where
  strategy : Option Strategy := none
  clientTimestamp : Option ℚ := none
  actorId : Option String := none
  actorRole : Option ActorRole := none

/-- What the language gives: the clock, the comparison of strings in the
    default locale, and the texts of numbers and values. -/
structure Engine where
  now : ℚ
  localeCompare : String → String → Int
  numberText : ℚ → String
  text : Option JsValue → String

def IMMUTABLE_FIELDS : List String :=
  ["id", "sellerPublicKey", "amount", "assetCode", "assetIssuer", "memo",
    "createdAt", "paymentTxHash", "payerPublicKey", "paidAt"]

def EDITABLE_FIELDS : List String :=
  ["description", "customerName", "customerEmail", "sellerName",
    "sellerEmail", "metadata", "expiresAt"]

/-! ## Fields of an invoice -/

def ofText (v : Option String) : Option JsValue := v.map (fun s => .json (.str s))

/-- The properties of an invoice by name; `none` is `undefined`. -/
def properties (invoice : StoredInvoice) : List (String × Option JsValue) :=
  [("id", ofText invoice.id), ("userId", ofText invoice.userId),
    ("sellerPublicKey", ofText invoice.sellerPublicKey),
    ("sellerName", ofText invoice.sellerName),
    ("sellerEmail", ofText invoice.sellerEmail),
    ("amount", some (.json (.num invoice.amount))),
    ("assetCode", ofText invoice.assetCode),
    ("assetIssuer", ofText invoice.assetIssuer),
    ("memo", ofText invoice.memo),
    ("description", ofText invoice.description),
    ("customerName", ofText invoice.customerName),
    ("customerEmail", ofText invoice.customerEmail),
    ("status", ofText invoice.status.text),
    ("paymentTxHash", ofText invoice.paymentTxHash),
    ("payerPublicKey", ofText invoice.payerPublicKey),
    ("payerName", ofText invoice.payerName),
    ("payerEmail", ofText invoice.payerEmail),
    ("createdAt", some (.date invoice.createdAt)),
    ("paidAt", invoice.paidAt.map .date),
    ("expiresAt", some (.date invoice.expiresAt)),
    ("metadata", invoice.metadata.map .json),
    ("_schemaVersion", ofText invoice.schemaVersion),
    ("version", invoice.version.map (fun n => .json (.num n)))]

/-- `invoice[field]`. -/
def property (invoice : StoredInvoice) (field : String) : Option JsValue :=
  (InsertionMap.lookup field (properties invoice)).join

def isTruthy : Json → Bool
  | .null => false
  | .bool b => b
  | .num q => decide (q ≠ 0)
  | .str s => decide (s ≠ "")
  | _ => true

/-- `metadata ? JSON.parse(JSON.stringify(metadata)) : {}`; JSON goes there and
    back unchanged. -/
def cloneMetadata : Option Json → Tree
  | some v => if isTruthy v then .value (.json v) else .object []
  | none => .object []

/-- `{...server, metadata: clone}`. -/
def cloneServer (server : StoredInvoice) : List (String × Tree) :=
  write "metadata" (cloneMetadata server.metadata)
    ((properties server).map (fun e => (e.1, Tree.ofValue e.2)))

/-- `value && typeof value === 'object' ? value : {}`. -/
def metaObject : Option Json → Json
  | some (.obj members) => .obj members
  | some (.arr items) => .arr items
  | _ => .obj []

def objOf : Json → Obj
  | .obj members => .plain members
  | .arr items => .array items
  | _ => .plain []

/-! ## One field -/

inductive Resolution where
  | CLEAN_MERGE
  | CONVERGENT
  | TIE_BREAK_CLIENT
  | TIE_BREAK_SERVER
  | MANUAL_REQUIRED
  deriving DecidableEq

structure FieldResolutionDetail where
  field : String
  baseValue : Option JsValue
  serverValue : Option JsValue
  clientValue : Option JsValue
  chosenValue : Tree
  resolution : Resolution
  reason : String

structure UnresolvedFieldConflict where
  field : String
  serverValue : Option JsValue
  clientValue : Option JsValue
  reason : String

/-- What is done for one field; `none` assigns and reports nothing. -/
structure FieldOutcome where
  assigned : Option Tree := none
  conflict : Bool := false
  resolved : Option FieldResolutionDetail := none
  unresolved : Option UnresolvedFieldConflict := none

/-- The tie-break of fields. -/
def clientWinsField (engine : Engine) (settings : Settings) : Bool :=
  decide (settings.serverTimestamp < settings.clientTimestamp)
    || (decide (settings.clientTimestamp = settings.serverTimestamp)
      && decide (0 < engine.localeCompare settings.actorId "server"))

/-- A field that is settled with one of the three values. -/
def settleField (key : String) (baseVal serverVal clientVal : Option JsValue)
    (chosen : Option JsValue) (conflict : Bool) (resolution : Resolution)
    (reason : String) : FieldOutcome where
  assigned := some (.ofValue chosen)
  conflict := conflict
  resolved := some ⟨key, baseVal, serverVal, clientVal, .ofValue chosen, resolution, reason⟩

/-- Metadata that both sides changed. -/
def resolveMetadata (settings : Settings) (base server : StoredInvoice)
    (clientVal : Json) : FieldOutcome :=
  let baseMeta := metaObject base.metadata
  let serverMeta := metaObject server.metadata
  let clientMeta := metaObject (some clientVal)
  let metaRes := mergeMetadata settings (objOf baseMeta) (objOf serverMeta) (objOf clientMeta)
  if 0 < metaRes.collisions.length ∧ settings.strategy = .STRICT then
    { conflict := true
      unresolved := some ⟨"metadata", some (.json serverMeta),
        some (.json clientMeta), "Collisions in nested metadata keys: "
          ++ ", ".intercalate metaRes.collisions⟩ }
  else
    { assigned := some (.object metaRes.merged)
      conflict := true
      resolved := some ⟨"metadata", some (.json baseMeta),
        some (.json serverMeta), some (.json clientMeta),
        .object metaRes.merged,
        if settings.strategy = .SERVER_WINS then .TIE_BREAK_SERVER
        else .TIE_BREAK_CLIENT,
        "Deep-merged nested metadata using deterministic field resolution."⟩ }

/-- A collision on any other field. -/
def resolveCollision (engine : Engine) (settings : Settings) (key : String)
    (baseVal serverVal clientVal : Option JsValue) : FieldOutcome :=
  match settings.strategy with
  | .SERVER_WINS =>
    settleField key baseVal serverVal clientVal serverVal true .TIE_BREAK_SERVER
      "Conflict resolved via SERVER_WINS strategy; preserved server truth."
  | .CLIENT_WINS =>
    settleField key baseVal serverVal clientVal clientVal true .TIE_BREAK_CLIENT
      "Conflict resolved via CLIENT_WINS strategy; applied client update."
  | .AUTO_MERGE =>
    if clientWinsField engine settings then
      settleField key baseVal serverVal clientVal clientVal true .TIE_BREAK_CLIENT
        ("Deterministic auto-merge: client timestamp ("
          ++ engine.numberText settings.clientTimestamp
          ++ ") or actorId won tie-break.")
    else
      settleField key baseVal serverVal clientVal serverVal true .TIE_BREAK_SERVER
        ("Deterministic auto-merge: server timestamp ("
          ++ engine.numberText settings.serverTimestamp
          ++ ") won tie-break.")
  | .STRICT =>
    { conflict := true
      unresolved := some ⟨key, serverVal, clientVal,
        "Concurrent divergent modification to '" ++ key ++ "'. Base: '"
          ++ engine.text baseVal ++ "', Server: '" ++ engine.text serverVal
          ++ "', Client: '" ++ engine.text clientVal ++ "'."⟩ }

def resolveEditable (engine : Engine) (settings : Settings)
    (base server : StoredInvoice) (key : String) (clientVal : Json) :
    FieldOutcome :=
  let baseVal := property base key
  let serverVal := property server key
  if isDeepEqual baseVal (some (.json clientVal)) then {}
  else if isDeepEqual baseVal serverVal then
    settleField key baseVal serverVal (some (.json clientVal))
      (some (.json clientVal)) false .CLEAN_MERGE
      ("Client modified field while server was unchanged; adopted client " ++ "edit.")
  else if isDeepEqual serverVal (some (.json clientVal)) then
    settleField key baseVal serverVal (some (.json clientVal))
      (some (.json clientVal)) false .CONVERGENT
      "Both sessions set identical value; convergent resolution."
  else if key = "metadata" then
    resolveMetadata settings base server clientVal
  else
    resolveCollision engine settings key baseVal serverVal (some (.json clientVal))

/-- The body of the loop over the edit. -/
def resolveField (engine : Engine) (settings : Settings)
    (base server : StoredInvoice) (key : String) (clientVal : Json) :
    Except ConflictResolverError FieldOutcome :=
  if key = "version" ∨ key = "_schemaVersion" then .ok {}
  else if key ∈ IMMUTABLE_FIELDS then
    if isDeepEqual (property base key) (some (.json clientVal)) then .ok {}
    else .error (immutableFieldConflictError key)
  else if key ∉ EDITABLE_FIELDS then .ok {}
  else .ok (resolveEditable engine settings base server key clientVal)

/-! ## All fields -/

structure Progress where
  merged : List (String × Tree)
  hasConflicts : Bool := false
  resolvedFields : List FieldResolutionDetail := []
  unresolvedFields : List UnresolvedFieldConflict := []

def Progress.add (p : Progress) (key : String) (o : FieldOutcome) : Progress where
  merged :=
    match o.assigned with
    | some t => write key t p.merged
    | none => p.merged
  hasConflicts := p.hasConflicts || o.conflict
  resolvedFields := p.resolvedFields ++ o.resolved.toList
  unresolvedFields := p.unresolvedFields ++ o.unresolved.toList

def resolveFields (engine : Engine) (settings : Settings)
    (base server : StoredInvoice) (p : Progress) :
    List (String × Json) → Except ConflictResolverError Progress
  | [] => .ok p
  | (key, v) :: rest =>
    match resolveField engine settings base server key v with
    | .ok o => resolveFields engine settings base server (p.add key o) rest
    | .error e => .error e

structure ConflictResolutionResult where
  resolved : Bool
  hasConflicts : Bool
  mergedInvoice : Option (List (String × Tree))
  resolvedFields : List FieldResolutionDetail
  unresolvedFields : List UnresolvedFieldConflict
  baseVersion : Nat
  serverVersion : Nat
  newVersion : Nat
  summary : String

/-- `left || right` of a number and of a string. -/
def numberOr (left : Option ℚ) (right : ℚ) : ℚ :=
  match left with
  | some q => if q = 0 then right else q
  | none => right

def textOr (left : Option String) (right : String) : String :=
  match left with
  | some s => if s = "" then right else s
  | none => right

def settingsOf (engine : Engine) (server : StoredInvoice)
    (options : ConflictResolverOptions) : Settings where
  strategy := options.strategy.getD .AUTO_MERGE
  clientTimestamp := numberOr options.clientTimestamp engine.now
  serverTimestamp := numberOr (server.paidAt.map (fun t => (t : ℚ))) server.createdAt
  actorId := textOr options.actorId "client"

/-- What is returned after the loop. -/
def conclude (base server : StoredInvoice) (p : Progress) :
    ConflictResolutionResult :=
  let serverVersion := server.versionOr1
  let isResolved := p.unresolvedFields.isEmpty
  let newVersion := if isResolved then serverVersion + 1 else serverVersion
  let versions := "(version " ++ toString serverVersion ++ " -> " ++ toString newVersion ++ ")."
  { resolved := isResolved
    hasConflicts := p.hasConflicts
    mergedInvoice :=
      if isResolved then
        some (write "version" (.value (.json (.num (newVersion : Nat)))) p.merged)
      else none
    resolvedFields := p.resolvedFields
    unresolvedFields := p.unresolvedFields
    baseVersion := base.versionOr1
    serverVersion := serverVersion
    newVersion := newVersion
    summary :=
      if isResolved then
        if p.hasConflicts then
          "Deterministic merge succeeded with "
            ++ toString p.resolvedFields.length ++ " field(s) resolved "
            ++ versions
        else "Clean merge succeeded with 0 conflicts " ++ versions
      else
        "Conflict resolution failed with "
          ++ toString p.unresolvedFields.length ++ " unresolvable field "
          ++ "collision(s). Manual intervention required." }

/-- `resolveMultiClientConflict`. -/
def resolveMultiClientConflict (engine : Engine) (base server : StoredInvoice)
    (client : List (String × Json)) (options : ConflictResolverOptions) :
    Except ConflictResolverError ConflictResolutionResult :=
  if server.status = .paid ∨ server.status = .cancelled ∨ server.status = .expired then
    .error (terminalStatusConflictError server.status.text)
  else if options.actorRole = some .VIEWER then
    .error (unauthorizedEditError (settingsOf engine server options).actorId)
  else
    match resolveFields engine (settingsOf engine server options) base server
        { merged := cloneServer server } client with
    | .ok p => .ok (conclude base server p)
    | .error e => .error e

/-! ## Every field is decided on its own -/

section Loop

variable {engine : Engine} {settings : Settings} {base server : StoredInvoice}

theorem lookup_add (p : Progress) (key field : String) (o : FieldOutcome) :
    InsertionMap.lookup field (p.add key o).merged
      = if key = field then o.assigned.or (InsertionMap.lookup field p.merged)
        else InsertionMap.lookup field p.merged := by
  rw [Progress.add]
  cases o.assigned with
  | none => rw [none_or, ite_self]
  | some t => rw [InsertionMap.lookup_write, some_or]

variable {client : List (String × Json)} {p p' : Progress} {key : String} {v : Json}
  {o : FieldOutcome}

/-- What the loop is left with is what it had and what the fields reported. -/
theorem unresolved_mono (h : resolveFields engine settings base server p client = .ok p')
    (hnil : p'.unresolvedFields = []) : p.unresolvedFields = [] := by
  induction client generalizing p with
  | nil =>
    cases h
    exact hnil
  | cons e rest ih =>
    obtain ⟨key, v⟩ := e
    rw [resolveFields] at h
    split at h
    · exact (append_eq_nil_iff.mp (ih h)).1
    · cases h

/-- **FRAME**: a field the edit does not name keeps what it had. -/
theorem resolveFields_other (h : resolveFields engine settings base server p client = .ok p')
    {field : String} (hfield : field ∉ client.map Prod.fst) :
    InsertionMap.lookup field p'.merged = InsertionMap.lookup field p.merged := by
  induction client generalizing p with
  | nil =>
    cases h
    rfl
  | cons e rest ih =>
    obtain ⟨key, v⟩ := e
    rw [map_cons, mem_cons, not_or] at hfield
    rw [resolveFields] at h
    split at h
    · rw [ih h hfield.2, lookup_add, if_neg (Ne.symm hfield.1)]
    · cases h

/-- **ONE FIELD**: a field the edit names gets what its own decision assigns,
    and a clean end means that the decision was no refusal. -/
theorem resolveFields_ok (h : resolveFields engine settings base server p client = .ok p')
    (hnodup : (client.map Prod.fst).Nodup) (hnil : p'.unresolvedFields = [])
    (hmem : (key, v) ∈ client) :
    ∃ o, resolveField engine settings base server key v = .ok o ∧ o.unresolved = none
      ∧ InsertionMap.lookup key p'.merged = o.assigned.or (InsertionMap.lookup key p.merged) := by
  induction client generalizing p with
  | nil => cases hmem
  | cons e rest ih =>
    obtain ⟨key', v'⟩ := e
    rw [map_cons, nodup_cons] at hnodup
    rw [resolveFields] at h
    split at h
    · rename_i o ho
      rcases mem_cons.mp hmem with heq | hmem
      · cases heq
        have hclean := (append_eq_nil_iff.mp (unresolved_mono h hnil)).2
        refine ⟨o, ho, toList_eq_nil_iff.mp hclean, ?_⟩
        rw [resolveFields_other h hnodup.1, lookup_add, if_pos rfl]
      have hne : key' ≠ key := by
        intro heq
        exact hnodup.1 (mem_map.mpr ⟨(key, v), hmem, heq.symm⟩)
      obtain ⟨o', ho', hclean, hlookup⟩ := ih h hnodup.2 hmem
      rw [lookup_add, if_neg hne] at hlookup
      exact ⟨o', ho', hclean, hlookup⟩
    · cases h

theorem resolveField_guarded (h : resolveField engine settings base server key v = .ok o)
    (hkey : key ∉ EDITABLE_FIELDS) : o.assigned = none := by
  rw [resolveField] at h
  split at h
  · cases h
    rfl
  split at h
  · split at h
    · cases h
      rfl
    · cases h
  cases h
  rfl

theorem editable_free : ∀ key ∈ EDITABLE_FIELDS, key ∉ IMMUTABLE_FIELDS
    ∧ key ≠ "version" ∧ key ≠ "_schemaVersion" := by
  decide

theorem resolveField_editable (h : resolveField engine settings base server key v = .ok o)
    (hkey : key ∈ EDITABLE_FIELDS) : o = resolveEditable engine settings base server key v := by
  have hfree := editable_free key hkey
  rw [resolveField, if_neg (not_or.mpr hfree.2), if_neg hfree.1, if_neg (not_not.mpr hkey)] at h
  exact (Except.ok.inj h).symm

end Loop

/-! ## What the merge starts from -/

theorem lookup_properties (l : List (String × Option JsValue)) (field : String) :
    InsertionMap.lookup field (l.map (fun e => (e.1, Tree.ofValue e.2)))
      = (InsertionMap.lookup field l).map Tree.ofValue := by
  induction l with
  | nil => rfl
  | cons e rest ih =>
    obtain ⟨k, v⟩ := e
    show (if k = field then _ else _)
      = (if k = field then some v else InsertionMap.lookup field rest).map _
    by_cases hk : k = field
    · rw [if_pos hk, if_pos hk]
      rfl
    rw [if_neg hk, if_neg hk]
    exact ih

theorem treeView_ofValue (v : Option JsValue) : treeView (some (.ofValue v)) = viewOf v := by
  cases v with
  | none =>
    funext p
    cases p with
    | nil => rfl
    | cons step p => cases step <;> rfl
  | some v =>
    funext p
    cases p <;> rfl

theorem lookup_clone (server : StoredInvoice) {field : String} (h : field ≠ "metadata") :
    treeView (InsertionMap.lookup field (cloneServer server)) = viewOf (property server field) := by
  rw [cloneServer, InsertionMap.lookup_write, if_neg (Ne.symm h), lookup_properties, property]
  cases InsertionMap.lookup field (properties server) with
  | none => rfl
  | some v => exact treeView_ofValue v

theorem lookup_clone_metadata (server : StoredInvoice) :
    InsertionMap.lookup "metadata" (cloneServer server) = some (cloneMetadata server.metadata) := by
  rw [cloneServer, InsertionMap.lookup_write, if_pos rfl]

theorem below_clone (v : Option Json) {names : List String} (hnames : names ≠ []) :
    below (treeView (some (cloneMetadata v))) (names.map .key)
      = below (view v) (names.map .key) := by
  obtain ⟨name, names, rfl⟩ := exists_cons_of_ne_nil hnames
  have hempty : ∀ w : Option Json, child name w = none →
      below (treeView (some (.object []))) ((name :: names).map .key)
        = below (view w) ((name :: names).map .key) := by
    intro w hw
    rw [map_cons, below_cons (treeView _), below_cons (view w), below_view, below_treeView, hw]
    rfl
  cases v with
  | none => exact hempty none rfl
  | some v =>
    rw [cloneMetadata]
    split
    · exact congrArg (below · _) (treeView_value (some v))
    rename_i hfalsy
    refine hempty (some v) ?_
    cases v with
    | obj members => exact absurd rfl hfalsy
    | _ => rfl

/-! ## What a merge owes -/

/-- The metadata the client wants: an edit without metadata leaves it. -/
def clientMetadata (base : StoredInvoice) (client : List (String × Json)) :
    Option Json :=
  (InsertionMap.lookup "metadata" client).or base.metadata

def NotArray (v : Option Json) : Prop := ∀ items, v ≠ some (.arr items)

/-- No one-sided edit is lost, and guarded fields are the server's. -/
structure KeepsEdits (policy : Policy) (base server : StoredInvoice)
    (client : List (String × Json)) (merged : List (String × Tree)) :
    Prop where
  scalars : ∀ key v, (key, v) ∈ client → key ∈ EDITABLE_FIELDS → key ≠ "metadata" →
    Merged policy Kind.obj (viewOf (property base key))
      (viewOf (property server key)) (view (some v))
      (treeView (InsertionMap.lookup key merged))
  metadata : ∀ names, names ≠ [] → NotArray base.metadata → NotArray server.metadata →
    NotArray (clientMetadata base client) →
    OnObjects names server.metadata (clientMetadata base client) →
    Merged policy Kind.obj (below (view base.metadata) (names.map .key))
      (below (view server.metadata) (names.map .key))
      (below (view (clientMetadata base client)) (names.map .key))
      (below (treeView (InsertionMap.lookup "metadata" merged)) (names.map .key))
  guarded : ∀ field, field ∉ EDITABLE_FIELDS → field ≠ "version" →
    treeView (InsertionMap.lookup field merged) = viewOf (property server field)
  version : InsertionMap.lookup "version" merged
    = some (.value (.json (.num (server.versionOr1 + 1 : Nat))))

/-- The values are JSON values: no object has two members of one name. -/
structure WellFormed (base server : StoredInvoice) (client : List (String × Json)) : Prop where
  base : ProperOption base.metadata
  server : ProperOption server.metadata
  fields : (client.map Prod.fst).Nodup
  client : ∀ key v, (key, v) ∈ client → Proper v

/-- Deep equality confuses nothing that is compared, and no inherited name gets
    in the way. -/
structure Distinguishable (base server : StoredInvoice) (client : List (String × Json)) : Prop where
  fields : ∀ key v, (key, v) ∈ client → key ∈ EDITABLE_FIELDS →
    TrustedTests (property base key) (property server key) (some (.json v))
  metadata : ∀ names, NotArray base.metadata → NotArray server.metadata →
    NotArray (clientMetadata base client) →
    Undecided (base.metadata.map .json) (server.metadata.map .json)
      ((clientMetadata base client).map .json) →
    Trusted names base.metadata server.metadata (clientMetadata base client)

/-! ## Fields -/

@[simp] theorem properValue_ofText (v : Option String) : ProperValue (ofText v) := by
  intro x hx
  obtain ⟨s, -, hs⟩ := map_eq_some_iff.mp hx
  obtain rfl := JsValue.json.inj hs
  exact proper_str s

@[simp] theorem properValue_num (q : ℚ) : ProperValue (some (.json (.num q))) := by
  intro x hx
  obtain rfl := JsValue.json.inj (some.inj hx)
  exact proper_num q

@[simp] theorem properValue_date (v : Option Int) : ProperValue (v.map .date) := by
  intro x hx
  obtain ⟨t, -, ht⟩ := map_eq_some_iff.mp hx
  cases ht

theorem properValue_json {v : Option Json} (h : ProperOption v) : ProperValue (v.map .json) := by
  intro x hx
  obtain ⟨y, hy, heq⟩ := map_eq_some_iff.mp hx
  obtain rfl := JsValue.json.inj heq
  exact h y hy

@[simp] theorem properValue_none : ProperValue none := by
  intro x hx
  cases hx

theorem properValue_property {invoice : StoredInvoice}
    (h : ProperOption invoice.metadata) (field : String) :
    ProperValue (property invoice field) := by
  have hall : ∀ e ∈ properties invoice, ProperValue e.2 := by
    have hdate := fun t : Int => properValue_date (some t)
    simp only [map_some] at hdate
    cases hversion : invoice.version <;> simp [properties, properValue_json h, hdate, hversion]
  intro x hx
  obtain ⟨v, hv, hjoin⟩ := bind_eq_some_iff.mp hx
  exact hall _ (InsertionMap.mem_of_lookup hv) x hjoin

theorem properValue_some {v : Json} (h : Proper v) : ProperValue (some (.json v)) := by
  intro x hx
  obtain rfl := JsValue.json.inj (some.inj hx)
  exact h

theorem viewOf_ne {x y : Option JsValue} (hx : ProperValue x)
    (hy : ProperValue y) (h : isDeepEqual x y = false) : viewOf x ≠ viewOf y := by
  intro hview
  rw [isDeepEqual_of_view hx hy hview] at h
  cases h

section Fields

variable {engine : Engine} {settings : Settings} {base server : StoredInvoice} {key : String}
  {v : Json}

theorem collision_merged {x y z : Option JsValue}
    (hserver : viewOf y ≠ viewOf x) (hclient : viewOf z ≠ viewOf x) (hdiffer : viewOf y ≠ viewOf z)
    (hclean : (resolveCollision engine settings key x y z).unresolved = none) (t : Option Tree) :
    Merged settings.strategy.policy Kind.obj (viewOf x) (viewOf y) (viewOf z)
      (treeView ((resolveCollision engine settings key x y z).assigned.or t)) := by
  refine merged_of_collision hserver hclient hdiffer ?_ ?_ ?_
  · intro hpolicy
    cases hs : settings.strategy with
    | SERVER_WINS =>
      rw [resolveCollision, hs]
      exact treeView_ofValue y
    | _ => rw [hs] at hpolicy; cases hpolicy
  · intro hpolicy
    cases hs : settings.strategy with
    | CLIENT_WINS =>
      rw [resolveCollision, hs]
      exact treeView_ofValue z
    | _ => rw [hs] at hpolicy; cases hpolicy
  · intro hpolicy
    cases hs : settings.strategy with
    | STRICT =>
      rw [resolveCollision, hs] at hclean
      cases hclean
    | _ => rw [hs] at hpolicy; cases hpolicy

theorem resolveEditable_merged (hbase : ProperValue (property base key))
    (hserver : ProperValue (property server key)) (hv : Proper v)
    (htests : TrustedTests (property base key) (property server key) (some (.json v)))
    (hkey : key ≠ "metadata")
    (hclean : (resolveEditable engine settings base server key v).unresolved = none) :
    Merged settings.strategy.policy Kind.obj (viewOf (property base key))
      (viewOf (property server key)) (viewOf (some (.json v)))
      (treeView ((resolveEditable engine settings base server key v).assigned.or
        (InsertionMap.lookup key (cloneServer server)))) := by
  have hproper := properValue_some hv
  cases hA : isDeepEqual (property base key) (some (.json v)) with
  | true =>
    have heq : resolveEditable engine settings base server key v = {} := if_pos hA
    rw [heq]
    show Merged _ _ _ _ _ (treeView (InsertionMap.lookup key _))
    rw [lookup_clone server hkey]
    exact merged_of_client_unchanged (htests.baseClient hA)
  | false =>
    have hcb := (viewOf_ne hbase hproper hA).symm
    rw [resolveEditable, if_neg (Bool.eq_false_iff.mp hA)] at hclean ⊢
    cases hB : isDeepEqual (property base key) (property server key) with
    | true =>
      rw [if_pos rfl, settleField, some_or, treeView_ofValue]
      exact merged_of_server_unchanged (htests.baseServer hA hB)
    | false =>
      have hsb := (viewOf_ne hbase hserver hB).symm
      rw [hB, if_neg Bool.false_ne_true] at hclean
      rw [if_neg Bool.false_ne_true]
      cases hC : isDeepEqual (property server key) (some (.json v)) with
      | true =>
        rw [if_pos rfl, settleField, some_or, treeView_ofValue]
        exact merged_of_convergent (htests.serverClient hA hB hC)
      | false =>
        have hsc := viewOf_ne hserver hproper hC
        rw [hC, if_neg Bool.false_ne_true, if_neg hkey] at hclean
        rw [if_neg Bool.false_ne_true, if_neg hkey]
        exact collision_merged hsb hcb hsc hclean _

theorem objOf_metaObject {v : Option Json} (h : NotArray v) : objOf (metaObject v) = plainOf v := by
  cases v with
  | none => rfl
  | some v =>
    cases v with
    | arr items => exact absurd rfl (h items)
    | _ => rfl

theorem resolveMetadata_merged {names : List String}
    (hnames : names ≠ []) (hbase : ProperOption base.metadata)
    (hserver : ProperOption server.metadata) (hv : Proper v) (hbaseArray : NotArray base.metadata)
    (hserverArray : NotArray server.metadata) (hclientArray : NotArray (some v))
    (htrust : Trusted names base.metadata server.metadata (some v))
    (hpath : OnObjects names server.metadata (some v))
    (hclean : (resolveMetadata settings base server v).unresolved = none) (t : Option Tree) :
    Merged settings.strategy.policy Kind.obj (below (view base.metadata) (names.map .key))
      (below (view server.metadata) (names.map .key)) (below (view (some v)) (names.map .key))
      (below (treeView ((resolveMetadata settings base server v).assigned.or
        t)) (names.map .key)) := by
  rw [resolveMetadata, objOf_metaObject hbaseArray,
    objOf_metaObject hserverArray, objOf_metaObject hclientArray]
    at hclean ⊢
  split at hclean
  · cases hclean
  rename_i hfree
  rw [if_neg hfree]
  refine merged_along settings names hnames _ _ _ _ hbase hserver ?_ le_rfl htrust hpath ?_
  · intro x hx
    cases hx
    exact hv
  intro hstrict
  have hzero := fun hpos => hfree ⟨hpos, hstrict⟩
  exact eq_nil_of_length_eq_zero (Nat.eq_zero_of_not_pos hzero)

end Fields

/-! ## The whole edit -/

variable {client : List (String × Json)} {base server : StoredInvoice} {engine : Engine}
  {settings : Settings}

theorem resolveMultiClientConflict_ok
    {options : ConflictResolverOptions} {result : ConflictResolutionResult}
    (h : resolveMultiClientConflict engine base server client options = .ok result) :
    ∃ p, resolveFields engine (settingsOf engine server options) base server
        { merged := cloneServer server } client = .ok p
      ∧ result = conclude base server p := by
  rw [resolveMultiClientConflict] at h
  split at h
  · cases h
  split at h
  · cases h
  split at h
  · rename_i p hp
    exact ⟨p, hp, (Except.ok.inj h).symm⟩
  · cases h

theorem resolveFields_guarded {p p' : Progress}
    (h : resolveFields engine settings base server p client = .ok p')
    {field : String} (hfield : field ∉ EDITABLE_FIELDS) :
    InsertionMap.lookup field p'.merged = InsertionMap.lookup field p.merged := by
  induction client generalizing p with
  | nil =>
    cases h
    rfl
  | cons e rest ih =>
    obtain ⟨key, v⟩ := e
    rw [resolveFields] at h
    split at h
    · rename_i o ho
      rw [ih h, lookup_add]
      split
      · rename_i heq
        subst heq
        rw [resolveField_guarded ho hfield, none_or]
      · rfl
    · cases h

/-- **METADATA**: the root is decided like every field, and below it the merge
    goes on key by key. -/
theorem metadata_merged {p : Progress} (hwf : WellFormed base server client)
    (htrust : Distinguishable base server client) (hrun : resolveFields engine settings base server
      { merged := cloneServer server } client = .ok p)
    (hnil : p.unresolvedFields = []) {names : List String}
    (hnames : names ≠ []) (hbaseArray : NotArray base.metadata)
    (hserverArray : NotArray server.metadata)
    (hclientArray : NotArray (clientMetadata base client))
    (hpath : OnObjects names server.metadata (clientMetadata base client)) :
    Merged settings.strategy.policy Kind.obj (below (view base.metadata) (names.map .key))
      (below (view server.metadata) (names.map .key))
      (below (view (clientMetadata base client)) (names.map .key))
      (below (treeView (InsertionMap.lookup "metadata" p.merged)) (names.map .key)) := by
  cases hlookup : InsertionMap.lookup "metadata" client with
  | none =>
    -- the client leaves metadata as it was
    have hclient : clientMetadata base client = base.metadata := by
      rw [clientMetadata, hlookup, none_or]
    rw [hclient, resolveFields_other hrun (InsertionMap.lookup_eq_none.mp hlookup)]
    show Merged _ _ _ _ _ (below (treeView (InsertionMap.lookup "metadata" (cloneServer server))) _)
    rw [lookup_clone_metadata, below_clone _ hnames]
    exact merged_of_client_unchanged rfl
  | some v =>
    have hclient : clientMetadata base client = some v := by
      rw [clientMetadata, hlookup, some_or]
    have hmem := InsertionMap.mem_of_lookup hlookup
    have heditable : "metadata" ∈ EDITABLE_FIELDS := by decide
    have htests := htrust.fields "metadata" v hmem heditable
    have hdeep := htrust.metadata names hbaseArray hserverArray hclientArray
    obtain ⟨o, ho, hclean, hmerged⟩ := resolveFields_ok hrun hwf.fields hnil hmem
    obtain rfl := resolveField_editable ho heditable
    rw [hclient] at hclientArray hpath hdeep ⊢
    rw [hmerged]
    show Merged _ _ _ _ _ (below (treeView (Option.or _
      (InsertionMap.lookup "metadata" (cloneServer server)))) _)
    have hb : property base "metadata" = base.metadata.map .json := rfl
    have hs : property server "metadata" = server.metadata.map .json := rfl
    rw [hb, hs] at htests
    rw [resolveEditable, hb, hs] at hclean ⊢
    cases hA : isDeepEqual (base.metadata.map .json) (some (.json v)) with
    | true =>
      rw [if_pos rfl, lookup_clone_metadata]
      show Merged _ _ _ _ _ (below (treeView (some (cloneMetadata server.metadata))) _)
      rw [below_clone _ hnames]
      exact merged_of_client_unchanged (congrArg (below · _)
        (Trustworthy.view_eq (w := some v) htests.baseClient hA))
    | false =>
      rw [hA, if_neg Bool.false_ne_true] at hclean
      rw [if_neg Bool.false_ne_true]
      cases hB : isDeepEqual (base.metadata.map .json) (server.metadata.map .json) with
      | true =>
        rw [if_pos rfl, settleField, some_or, treeView_ofValue]
        exact merged_of_server_unchanged (congrArg (below · _) ((htests.baseServer hA).view_eq hB))
      | false =>
        rw [hB, if_neg Bool.false_ne_true] at hclean
        rw [if_neg Bool.false_ne_true]
        cases hC : isDeepEqual (server.metadata.map .json) (some (.json v)) with
        | true =>
          rw [if_pos rfl, settleField, some_or, treeView_ofValue]
          exact merged_of_convergent (congrArg (below · _)
            (Trustworthy.view_eq (w := some v) (htests.serverClient hA hB) hC))
        | false =>
          rw [hC, if_neg Bool.false_ne_true, if_pos rfl] at hclean
          rw [if_neg Bool.false_ne_true, if_pos rfl]
          exact resolveMetadata_merged hnames hwf.base hwf.server
            (hwf.client _ _ hmem) hbaseArray hserverArray
            hclientArray (hdeep ⟨hA, hB, hC⟩) hpath hclean _

/-- **NO ONE-SIDED EDIT IS LOST**: whenever an edit is resolved, wherever deep
    equality confuses nothing. -/
theorem merge_keeps_edits (engine : Engine) (base server : StoredInvoice)
    (client : List (String × Json)) (options : ConflictResolverOptions)
    (result : ConflictResolutionResult)
    (hwf : WellFormed base server client)
    (htrust : Distinguishable base server client)
    (hreturns : resolveMultiClientConflict engine base server client options = .ok result)
    (hresolved : result.resolved = true) :
    ∃ merged, result.mergedInvoice = some merged
      ∧ KeepsEdits (options.strategy.getD .AUTO_MERGE).policy base server client
        merged := by
  obtain ⟨p, hrun, rfl⟩ := resolveMultiClientConflict_ok hreturns
  have hnil : p.unresolvedFields = [] := isEmpty_iff.mp hresolved
  have hmerged : (conclude base server p).mergedInvoice = some (InsertionMap.write "version"
        (.value (.json (.num (server.versionOr1 + 1 : Nat)))) p.merged) := by
    simp [conclude, hnil]
  refine ⟨_, hmerged, ?_, ?_, ?_, ?_⟩
  · intro key v hmem heditable hkey
    have hversion : key ≠ "version" := (editable_free key heditable).2.1
    obtain ⟨o, ho, hclean, hlookup⟩ := resolveFields_ok hrun hwf.fields hnil hmem
    obtain rfl := resolveField_editable ho heditable
    rw [InsertionMap.lookup_write, if_neg (Ne.symm hversion), hlookup]
    exact resolveEditable_merged (properValue_property hwf.base key)
      (properValue_property hwf.server key) (hwf.client key v hmem)
      (htrust.fields key v hmem heditable) hkey hclean
  · intro names hnames hbaseArray hserverArray hclientArray hpath
    rw [InsertionMap.lookup_write, if_neg (by decide)]
    exact metadata_merged hwf htrust hrun hnil hnames hbaseArray hserverArray hclientArray hpath
  · intro field hfield hversion
    rw [InsertionMap.lookup_write, if_neg (Ne.symm hversion), resolveFields_guarded hrun hfield]
    refine lookup_clone server ?_
    intro hmetadata
    subst hmetadata
    exact hfield (by decide)
  · rw [InsertionMap.lookup_write, if_pos rfl]

def listed : StoredInvoice :=
  { id := "inv_1", sellerPublicKey := "S", amount := 5, assetCode := "XLM",
    memo := "m", status := .pending, createdAt := 1000, expiresAt := 9000,
    description := some "old", metadata := some (.obj [("tags", .arr [])]),
    version := some 1 }

/-- Plain texts and a clock that stands. -/
def plainEngine : Engine where
  now := 5000
  localeCompare a b := if a < b then -1 else if a = b then 0 else 1
  numberText _ := "0"
  text _ := ""

/-- The client replaced a list by an object, and the edit is lost: both have
    no members. -/
theorem one_sided_edit_lost : ∃ result merged, resolveMultiClientConflict plainEngine listed listed
          [("metadata", .obj [("tags", .obj [])])] {} = .ok result
        ∧ result.resolved = true ∧ result.mergedInvoice = some merged
        ∧ ¬ KeepsEdits .free listed listed [("metadata", .obj [("tags", .obj [])])] merged := by
  refine ⟨conclude listed listed { merged := cloneServer listed }, _, rfl, rfl, rfl, ?_⟩
  intro h
  have hpath : OnObjects ["tags"] listed.metadata (some (.obj [("tags", .obj [])])) := by
    intro outer inner heq houter hinner
    cases outer with
    | nil => exact absurd rfl houter
    | cons name outer =>
      obtain ⟨-, hnil⟩ := cons.inj heq
      exact absurd (append_eq_nil_iff.mp hnil.symm).2 hinner
  have hkept := (h.metadata ["tags"] (cons_ne_nil _ _)
    nofun nofun
    nofun hpath).clientOnly
    (fun heq => nomatch congrFun heq []) rfl
  cases congrFun hkept []

theorem merge_keeps_edits_sample : ∃ result merged, resolveMultiClientConflict plainEngine listed
          { listed with description := some "server", version := some 2 }
          [("description", .str "client"), ("metadata", .obj [("tags", .arr [.str "paid"])])]
          { strategy := some .CLIENT_WINS } = .ok result
        ∧ result.mergedInvoice = some merged
        ∧ KeepsEdits .clientWins listed
          { listed with description := some "server", version := some 2 }
          [("description", .str "client"),
            ("metadata", .obj [("tags", .arr [.str "paid"])])] merged := by
  have hproper : ProperOption listed.metadata := by
    intro x hx
    cases hx
    simp [Proper, ProperItems, ProperMembers]
  have hwf : WellFormed listed
      { listed with description := some "server", version := some 2 }
      [("description", .str "client"), ("metadata", .obj [("tags", .arr [.str "paid"])])] := by
    refine ⟨hproper, hproper, by decide, ?_⟩
    intro key v hmem
    simp only [mem_cons, not_mem_nil, or_false, Prod.mk.injEq] at hmem
    rcases hmem with ⟨-, rfl⟩ | ⟨-, rfl⟩
    · exact proper_str _
    · simp [Proper, ProperItems, ProperMembers]
  have htrust : Distinguishable listed
      { listed with description := some "server", version := some 2 }
      [("description", .str "client"), ("metadata", .obj [("tags", .arr [.str "paid"])])] := by
    refine ⟨?_, ?_⟩
    · intro key v hmem _
      simp only [mem_cons, not_mem_nil, or_false, Prod.mk.injEq] at hmem
      rcases hmem with ⟨rfl, rfl⟩ | ⟨rfl, rfl⟩
      · exact ⟨by rintro ⟨⟩, by rintro _ ⟨⟩, by rintro _ _ ⟨⟩⟩
      · exact ⟨by rintro ⟨⟩, (fun _ _ => rfl), by rintro _ ⟨⟩⟩
    intro names _ _ _ hundecided
    cases hundecided.baseServer
  obtain ⟨merged, hmerged, hkeeps⟩ := merge_keeps_edits plainEngine listed
    { listed with description := some "server", version := some 2 }
    [("description", .str "client"), ("metadata", .obj [("tags", .arr [.str "paid"])])]
    { strategy := some .CLIENT_WINS } _ hwf htrust rfl rfl
  exact ⟨_, merged, rfl, hmerged, hkeeps⟩

end ConflictResolver

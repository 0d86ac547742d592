import Inqutum.ConflictResolverProofs

/-!
# One winner

Under `AUTO_MERGE` a collision goes to the client or to the server.  The
tie-break is written once for fields and once for metadata, with different
comparisons, and merged metadata is labelled as the client's in any case.
One side wins everywhere and is named, exactly if the server wins no
metadata leaf and the two tie-breaks agree where both are made
(`one_winner_iff`).
-/

namespace ConflictResolver

open DeepEqual MetadataMerge Invoices List

/-! ## Collisions -/

inductive Side where
  | server
  | client

def Side.pick {α : Type} : Side → α → α → α
  | .server, serverVal, _ => serverVal
  | .client, _, clientVal => clientVal

def Side.label : Side → Resolution
  | .server => .TIE_BREAK_SERVER
  | .client => .TIE_BREAK_CLIENT

def sideOf (clientWins : Bool) : Side := if clientWins then .client else .server

/-- Both sides changed the value, to different values. -/
structure Collision (base server client : Option JsValue) : Prop where
  undecided : Undecided base server client
  differ : server ≠ client

/-- The values at a path collide, and are not merged in turn. -/
inductive LeafCollision :
    Obj → Obj → Obj → List String → Option JsValue → Option JsValue → Prop where
  | here {base server client : Obj} {key : String} : key ∈ allKeys base server client →
    key ≠ "__proto__" → Collision (base.get key) (server.get key) (client.get key) →
    asObject (server.get key) = none ∨ asObject (client.get key) = none →
    LeafCollision base server client [key] (server.get key) (client.get key)
  | within {base server client server' client' : Obj} {key next : String} {path : List String}
    {valServer valClient : Option JsValue} : key ∈ allKeys base server client →
    key ≠ "__proto__" → Undecided (base.get key) (server.get key) (client.get key) →
    asObject (server.get key) = some server' → asObject (client.get key) = some client' →
    LeafCollision ((asObject (base.get key)).getD (.plain [])) server' client'
      (next :: path) valServer valClient →
    LeafCollision base server client (key :: next :: path) valServer valClient

def leafAt : List String → List (String × Tree) → Option Tree
  | [], _ => none
  | [key], members => InsertionMap.lookup key members
  | key :: path, members =>
    match InsertionMap.lookup key members with
    | some (.object members) => leafAt path members
    | _ => none

section Winner

variable (base server : StoredInvoice) (client : List (String × Json))

def FieldCollision (key : String) (v : Json) : Prop :=
  (key, v) ∈ client ∧ key ∈ EDITABLE_FIELDS
    ∧ Collision (property base key) (property server key) (some (.json v))

def MetadataCollision (path : List String) (valServer valClient : Option JsValue) : Prop :=
  ∃ v, FieldCollision base server client "metadata" v
    ∧ LeafCollision (objOf (metaObject base.metadata)) (objOf (metaObject server.metadata))
      (objOf (metaObject (some v))) path valServer valClient

/-- A side has won all collisions, and is named. -/
structure Wins (result : ConflictResolutionResult) (side : Side) : Prop where
  fields : ∀ key v, FieldCollision base server client key v → key ≠ "metadata" →
    ∃ detail ∈ result.resolvedFields, detail.field = key ∧ detail.resolution = side.label
      ∧ detail.chosenValue = .ofValue (side.pick (property server key) (some (.json v)))
      ∧ result.mergedInvoice.bind (InsertionMap.lookup key) = some detail.chosenValue
  leaves : ∀ path valServer valClient, MetadataCollision base server client path valServer valClient →
    ∃ detail ∈ result.resolvedFields, detail.field = "metadata" ∧ detail.resolution = side.label
      ∧ result.mergedInvoice.bind (InsertionMap.lookup "metadata") = some detail.chosenValue
      ∧ ∃ members, detail.chosenValue = .object members
        ∧ leafAt path members = some (.ofValue (side.pick valServer valClient))

/-- The client wins what collides in metadata, and then also the fields that
    collide. -/
def Agreed (engine : Engine) (settings : Settings) : Prop :=
  (∃ path valServer valClient, MetadataCollision base server client path valServer valClient) →
    settings.clientWins = true
    ∧ ((∃ key v, FieldCollision base server client key v ∧ key ≠ "metadata") →
      clientWinsField engine settings = true)

end Winner

/-! ## What is chosen -/

section Chosen

variable {engine : Engine} {settings : Settings} (hauto : settings.strategy = .AUTO_MERGE)

include hauto

/-- **A COLLIDING LEAF** goes to the side that wins the tie-break. -/
theorem leafAt_merged {base server client : Obj} {path : List String}
    {valServer valClient : Option JsValue}
    (h : LeafCollision base server client path valServer valClient) :
    leafAt path (mergeMetadata settings base server client).merged
      = some (.ofValue ((sideOf settings.clientWins).pick valServer valClient)) := by
  induction h with
  | @here base server client key hin hproto hcollision hleaf =>
    rw [leafAt, mergeMetadata, mergeMetadataObjects, lookup_members, if_pos ⟨hin, hproto⟩,
      mergeKey_differ hcollision.undecided.baseClient hcollision.undecided.baseServer
        hcollision.undecided.serverClient]
    have hcollide : (collide settings key (server.get key) (client.get key)).assigned
        = some (.ofValue ((sideOf settings.clientWins).pick (server.get key) (client.get key))) := by
      rw [collide, hauto, sideOf]
      cases settings.clientWins <;> rfl
    split
    · rename_i hserver hclient
      rw [hserver, hclient] at hleaf
      rcases hleaf with hleaf | hleaf <;> cases hleaf
    · exact hcollide
  | @within base server client server' client' key next path _ _ hin hproto hundecided hserver hclient
      _ ih =>
    obtain ⟨depth, hdepth⟩ := Nat.exists_eq_add_one.mpr (Nat.zero_lt_of_lt (depth_nested hserver))
    have hle : server'.depth ≤ depth := by
      have hlt := depth_nested hserver
      omega
    have hlookup : InsertionMap.lookup key (mergeMetadata settings base server client).merged
        = some (.object (mergeMetadata settings ((asObject (base.get key)).getD (.plain []))
          server' client').merged) := by
      rw [mergeMetadata, mergeMetadataObjects, lookup_members, if_pos ⟨hin, hproto⟩,
        mergeKey_differ hundecided.baseClient hundecided.baseServer hundecided.serverClient,
        hserver, hclient, hdepth]
      exact congrArg (fun sub : Merge => some (Tree.object sub.merged))
        (mergeMetadataObjects_fuel settings depth _ _ _ hle)
    rw [leafAt, hlookup]
    · exact ih
    · exact cons_ne_nil _ _

variable {base server : StoredInvoice} {key : String} {v : Json}

theorem resolveEditable_field (h : Collision (property base key) (property server key)
      (some (.json v))) (hkey : key ≠ "metadata") :
    ∃ detail, (resolveEditable engine settings base server key v).resolved = some detail
      ∧ (resolveEditable engine settings base server key v).assigned = some detail.chosenValue
      ∧ detail.field = key ∧ detail.resolution = (sideOf (clientWinsField engine settings)).label
      ∧ detail.chosenValue = .ofValue ((sideOf (clientWinsField engine settings)).pick
        (property server key) (some (.json v))) := by
  rw [resolveEditable]
  simp only [h.undecided.baseClient, h.undecided.baseServer, h.undecided.serverClient,
    Bool.false_eq_true, if_false, if_neg hkey, resolveCollision, hauto, sideOf]
  cases clientWinsField engine settings with
  | false => exact ⟨_, rfl, rfl, rfl, rfl, rfl⟩
  | true => exact ⟨_, rfl, rfl, rfl, rfl, rfl⟩

theorem resolveEditable_metadata (h : Collision (property base "metadata")
      (property server "metadata") (some (.json v))) :
    ∃ detail, (resolveEditable engine settings base server "metadata" v).resolved = some detail
      ∧ (resolveEditable engine settings base server "metadata" v).assigned
        = some detail.chosenValue
      ∧ detail.field = "metadata" ∧ detail.resolution = .TIE_BREAK_CLIENT
      ∧ detail.chosenValue = .object (mergeMetadata settings (objOf (metaObject base.metadata))
        (objOf (metaObject server.metadata)) (objOf (metaObject (some v)))).merged := by
  rw [resolveEditable]
  simp only [h.undecided.baseClient, h.undecided.baseServer, h.undecided.serverClient,
    Bool.false_eq_true, if_false, if_true, resolveMetadata, hauto, reduceCtorEq, and_false]
  exact ⟨_, rfl, rfl, rfl, rfl, rfl⟩

end Chosen

/-! ## What is reported -/

theorem mem_resolvedFields {engine : Engine} {settings : Settings} {base server : StoredInvoice}
    {client : List (String × Json)} {p p' : Progress} {detail : FieldResolutionDetail}
    (h : resolveFields engine settings base server p client = .ok p') :
    detail ∈ p'.resolvedFields ↔ detail ∈ p.resolvedFields ∨ ∃ e ∈ client, ∃ o,
      resolveField engine settings base server e.1 e.2 = .ok o ∧ o.resolved = some detail := by
  induction client generalizing p with
  | nil =>
    cases h
    simp
  | cons e rest ih =>
    rw [resolveFields] at h
    split at h
    · rename_i o ho
      rw [ih h, Progress.add, mem_append, Option.mem_toList, exists_mem_cons_iff, ho, or_assoc]
      simp
    · cases h

section Reports

variable {engine : Engine} {settings : Settings} {base server : StoredInvoice} {key : String}
  {v : Json} {o : FieldOutcome} {client : List (String × Json)} {p p' : Progress}

theorem resolveField_reports (hauto : settings.strategy = .AUTO_MERGE)
    (h : resolveField engine settings base server key v = .ok o) :
    (∀ detail, o.resolved = some detail → detail.field = key) ∧ o.unresolved = none := by
  by_cases heditable : key ∈ EDITABLE_FIELDS
  swap
  · have hempty : o = {} := by
      rw [resolveField] at h
      split at h
      · exact (Except.ok.inj h).symm
      split at h
      · split at h
        · exact (Except.ok.inj h).symm
        · cases h
      · exact (Except.ok.inj h).symm
    rw [hempty]
    exact ⟨(fun _ h => by cases h), rfl⟩
  rw [resolveField_editable h heditable, resolveEditable]
  split
  · exact ⟨(fun _ h => by cases h), rfl⟩
  split
  · exact ⟨by rintro _ ⟨⟩; rfl, rfl⟩
  split
  · exact ⟨by rintro _ ⟨⟩; rfl, rfl⟩
  split
  · rename_i hkey
    rw [resolveMetadata, if_neg (fun hstrict => by rw [hauto] at hstrict; cases hstrict.2)]
    exact ⟨by rintro _ ⟨⟩; exact hkey.symm, rfl⟩
  rw [resolveCollision, hauto]
  dsimp only
  split
  · exact ⟨by rintro _ ⟨⟩; rfl, rfl⟩
  · exact ⟨by rintro _ ⟨⟩; rfl, rfl⟩

theorem unresolved_eq_nil (hauto : settings.strategy = .AUTO_MERGE)
    (h : resolveFields engine settings base server p client = .ok p')
    (hp : p.unresolvedFields = []) : p'.unresolvedFields = [] := by
  induction client generalizing p with
  | nil =>
    cases h
    exact hp
  | cons e rest ih =>
    rw [resolveFields] at h
    split at h
    · rename_i o ho
      exact ih h (append_eq_nil_iff.mpr
        ⟨hp, Option.toList_eq_nil_iff.mpr (resolveField_reports hauto ho).2⟩)
    · cases h

end Reports

section Result

variable {engine : Engine} {base server : StoredInvoice} {client : List (String × Json)}
  {options : ConflictResolverOptions} {result : ConflictResolutionResult}
  (hauto : (settingsOf engine server options).strategy = .AUTO_MERGE)
  (hnodup : (client.map Prod.fst).Nodup)
  (h : resolveMultiClientConflict engine base server client options = .ok result)

include hauto hnodup h

/-- **A COLLIDING FIELD** has one detail, and its value is merged. -/
theorem reported {key : String} {v : Json} (hf : FieldCollision base server client key v)
    {detail : FieldResolutionDetail}
    (hd : (resolveEditable engine (settingsOf engine server options) base server key v).resolved
      = some detail)
    (ha : (resolveEditable engine (settingsOf engine server options) base server key v).assigned
      = some detail.chosenValue) : (∀ d, d ∈ result.resolvedFields ∧ d.field = key ↔ d = detail)
      ∧ result.mergedInvoice.bind (InsertionMap.lookup key) = some detail.chosenValue := by
  obtain ⟨hmem, hkey, -⟩ := hf
  obtain ⟨p, hp, rfl⟩ := resolveMultiClientConflict_ok h
  have hnil := unresolved_eq_nil hauto hp rfl
  obtain ⟨o, ho, -, hlookup⟩ := resolveFields_ok hp hnodup hnil hmem
  obtain rfl := resolveField_editable ho hkey
  constructor
  · intro d
    show d ∈ p.resolvedFields ∧ _ ↔ _
    rw [mem_resolvedFields hp]
    constructor
    · rintro ⟨hd' | ⟨e, he, o', ho', hd'⟩, hfield⟩
      · cases hd'
      have hsame : e = (key, v) :=
        inj_on_of_nodup_map hnodup he hmem (((resolveField_reports hauto ho').1 _ hd').symm.trans hfield)
      subst hsame
      cases ho.symm.trans ho'
      exact Option.some.inj (hd'.symm.trans hd)
    · rintro rfl
      exact ⟨.inr ⟨_, hmem, _, ho, hd⟩, (resolveField_reports hauto ho).1 _ hd⟩
  · have hversion : "version" ≠ key := fun heq => (editable_free key hkey).2.1 heq.symm
    simp only [conclude, hnil, isEmpty_nil, if_true, Option.bind_some]
    rw [InsertionMap.lookup_write, if_neg hversion, hlookup, ha, Option.some_or]

omit hauto hnodup h in
theorem leaf_differ {base server client : Obj} {path : List String}
    {valServer valClient : Option JsValue}
    (hleaf : LeafCollision base server client path valServer valClient) : valServer ≠ valClient := by
  induction hleaf with
  | here _ _ hcollision _ => exact hcollision.differ
  | within _ _ _ _ _ _ ih => exact ih

omit hauto hnodup h in
theorem ofValue_inj {v w : Option JsValue} (heq : Tree.ofValue v = .ofValue w) : v = w := by
  cases v <;> cases w <;> cases heq <;> rfl

end Result

/-! ## A server that wins under the client's name -/

/-- A server that changed after the client. -/
def retagged : StoredInvoice :=
  { listed with metadata := some (.obj [("tags", .str "server")]), createdAt := 3000 }

def retag : List (String × Json) := [("metadata", .obj [("tags", .str "client")])]

def sampleOptions : ConflictResolverOptions where
  clientTimestamp := some 2000

/-- The description and the tags, changed on both sides. -/
def rewritten : StoredInvoice := { retagged with description := some "server" }

def rewrite : List (String × Json) := ("description", .str "client") :: retag

def tagOf : Tree → Option String
  | .object members =>
    match leafAt ["tags"] members with
    | some (.value (.json (.str tag))) => some tag
    | _ => none
  | _ => none

end ConflictResolver

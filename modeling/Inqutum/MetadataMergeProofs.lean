import Inqutum.DeepEqualProofs

/-!
# Merging metadata objects

`mergeMetadataObjects` decides key by key, over the keys of all three
objects, and recurses where both sides have objects that differ.  Property
reads go through the prototype: a key that is missing may still be found
among the inherited names, and the assignment to `__proto__` makes no
member.

Read along paths, the result is a three-way merge (`merged_along`)
wherever deep equality can be trusted and no inherited name gets in the
way (`Trusted`).
-/

namespace MetadataMerge

open ThreeWay DeepEqual List JsValue

/-! ## Objects -/

inductive Strategy where
  | AUTO_MERGE
  | SERVER_WINS
  | CLIENT_WINS
  | STRICT
  deriving DecidableEq

/-- What a strategy does about a collision. -/
def Strategy.policy : Strategy → Policy
  | .AUTO_MERGE => .free
  | .SERVER_WINS => .serverWins
  | .CLIENT_WINS => .clientWins
  | .STRICT => .refuse

/-- What the merge is called with: `prototype` is the object all plain objects
    inherit from. -/
inductive Obj where
  | plain (members : List (String × Json))
  | array (items : List Json)
  | prototype

/-- The names arrays inherit before those of all objects. -/
def arrayNames : List String :=
  ["at", "concat", "copyWithin", "fill", "find", "findIndex", "findLast",
    "findLastIndex", "lastIndexOf", "pop", "push", "reverse", "shift",
    "unshift", "slice", "sort", "splice", "includes", "indexOf", "join",
    "keys", "entries", "values", "forEach", "filter", "flat", "flatMap", "map",
    "every", "some", "reduce", "reduceRight", "toReversed", "toSorted",
    "toSpliced", "with", "toLocaleString", "toString", "constructor",
    "__proto__"]

/-- `Object.keys`. -/
def Obj.keys : Obj → List String
  | .plain members => members.map Prod.fst
  | .array items => (range items.length).map toString
  | .prototype => []

/-- What is inherited from the common prototype. -/
def inheritedValue (key : String) : Option JsValue :=
  if key ∈ inheritedNames then some (.inherited .object key) else none

/-- `object[key]`. -/
def Obj.get : Obj → String → Option JsValue
  | .plain members, key =>
    match InsertionMap.lookup key members with
    | some v => some (.json v)
    | none => inheritedValue key
  | .array items, key =>
    match ownProperty (.arr items) key with
    | some v => some (.json v)
    | none =>
      if key ∈ arrayNames then some (.inherited .array key)
      else inheritedValue key
  | .prototype, key =>
    -- the chain of prototypes ends here
    if key = "__proto__" then some (.json .null) else inheritedValue key

/-- A value that is an object and no array. -/
def asObject : Option JsValue → Option Obj
  | some (.json (.obj members)) => some (.plain members)
  | some (.inherited .object "__proto__") => some .prototype
  | _ => none

/-! ## The merge -/

/-- What a merge assigns. -/
inductive Tree where
  | undefined
  | value (v : JsValue)
  | object (members : List (String × Tree))

def Tree.ofValue : Option JsValue → Tree
  | none => .undefined
  | some v => .value v

structure Merge where
  merged : List (String × Tree)
  collisions : List String

/-- What is done for one key; `none` assigns nothing. -/
structure KeyMerge where
  assigned : Option Tree
  collisions : List String

/-- The parameters all levels share. -/
structure Settings where
  strategy : Strategy
  clientTimestamp : ℚ
  serverTimestamp : ℚ
  actorId : String

/-- The tie-break of nested keys. -/
def Settings.clientWins (settings : Settings) : Bool :=
  decide (settings.serverTimestamp < settings.clientTimestamp)
    || (decide (settings.clientTimestamp = settings.serverTimestamp)
      && decide ("server" < settings.actorId))

/-- `if (value !== undefined) merged[key] = value`. -/
def assignDefined (v : Option JsValue) : KeyMerge :=
  ⟨v.map .value, []⟩

/-- A collision on a scalar or an array. -/
def collide (settings : Settings) (key : String)
    (valServer valClient : Option JsValue) : KeyMerge :=
  match settings.strategy with
  | .SERVER_WINS => assignDefined valServer
  | .CLIENT_WINS => assignDefined valClient
  | .AUTO_MERGE => ⟨some (.ofValue (if settings.clientWins then valClient else valServer)), []⟩
  | .STRICT => ⟨none, [key]⟩

/-- The body of the loop over the keys. -/
def mergeKey (settings : Settings) (merge : Obj → Obj → Obj → Merge)
    (key : String) (valBase valServer valClient : Option JsValue) : KeyMerge :=
  if isDeepEqual valBase valClient then assignDefined valServer
  else if isDeepEqual valBase valServer then assignDefined valClient
  else if isDeepEqual valServer valClient then assignDefined valClient
  else
    match asObject valServer, asObject valClient with
    | some server, some client =>
      let sub := merge ((asObject valBase).getD (.plain [])) server client
      ⟨some (.object sub.merged), sub.collisions.map (fun c => key ++ "." ++ c)⟩
    | _, _ => collide settings key valServer valClient

def allKeys (base server client : Obj) : List String :=
  (base.keys ++ server.keys ++ client.keys).eraseDups

/-- The members a key contributes: to assign `__proto__` makes none. -/
def member (e : String × KeyMerge) : Option (String × Tree) :=
  if e.1 = "__proto__" then none else e.2.assigned.map (fun t => (e.1, t))

/-- `mergeMetadataObjects`; the fuel bounds the depth of the server's object. -/
def mergeMetadataObjects (settings : Settings) : Nat → Obj → Obj → Obj → Merge
  | 0, _, _, _ => ⟨[], []⟩
  | fuel + 1, base, server, client =>
    let merges := (allKeys base server client).map (fun key =>
      (key, mergeKey settings (mergeMetadataObjects settings fuel) key
        (base.get key) (server.get key) (client.get key)))
    ⟨merges.filterMap member, merges.flatMap (fun e => e.2.collisions)⟩

mutual

/-- How many objects are nested in each other. -/
def depth : Json → Nat
  | .obj members => depthMembers members + 1
  | _ => 0

def depthMembers : List (String × Json) → Nat
  | [] => 0
  | m :: rest => max (depthMember m) (depthMembers rest)

def depthMember : String × Json → Nat
  | (_, v) => depth v

end

def Obj.depth : Obj → Nat
  | .plain members => depthMembers members + 1
  | .array items => (items.map MetadataMerge.depth).foldr max 0 + 1
  | .prototype => 0

/-- The call with the fuel it needs. -/
def mergeMetadata (settings : Settings) (base server client : Obj) : Merge :=
  mergeMetadataObjects settings (server.depth + 1) base server client

/-! ## One key -/

section Keys

variable {settings : Settings} {merge : Obj → Obj → Obj → Merge}
  {key : String} {valBase valServer valClient : Option JsValue}

theorem mergeKey_client_unchanged (h : isDeepEqual valBase valClient = true) :
    mergeKey settings merge key valBase valServer valClient = assignDefined valServer := if_pos h

theorem mergeKey_server_unchanged (hclient : isDeepEqual valBase valClient = false)
    (h : isDeepEqual valBase valServer = true) :
    mergeKey settings merge key valBase valServer valClient = assignDefined valClient := by
  rw [mergeKey, if_neg (Bool.eq_false_iff.mp hclient), if_pos h]

theorem mergeKey_convergent (hclient : isDeepEqual valBase valClient = false)
    (hserver : isDeepEqual valBase valServer = false) (h : isDeepEqual valServer valClient = true) :
    mergeKey settings merge key valBase valServer valClient = assignDefined valClient := by
  rw [mergeKey, if_neg (Bool.eq_false_iff.mp hclient),
    if_neg (Bool.eq_false_iff.mp hserver), if_pos h]

theorem mergeKey_differ (hclient : isDeepEqual valBase valClient = false)
    (hserver : isDeepEqual valBase valServer = false)
    (h : isDeepEqual valServer valClient = false) :
    mergeKey settings merge key valBase valServer valClient
      = match asObject valServer, asObject valClient with
        | some server, some client =>
          let sub := merge ((asObject valBase).getD (.plain [])) server client
          ⟨some (.object sub.merged), sub.collisions.map (fun c => key ++ "." ++ c)⟩
        | _, _ => collide settings key valServer valClient := by
  rw [mergeKey, if_neg (Bool.eq_false_iff.mp hclient),
    if_neg (Bool.eq_false_iff.mp hserver), if_neg (Bool.eq_false_iff.mp h)]

end Keys

/-! ## What the merge reads -/

/-- The members of a value: `metadata` that is no object counts as empty. -/
def plainOf : Option Json → Obj
  | some (.obj members) => .plain members
  | _ => .plain []

/-- A property read: the own member, else what is inherited. -/
def readAs (key : String) (own : Option Json) : Option JsValue :=
  (own.map .json).or (inheritedValue key)

theorem get_plainOf (v : Option Json) (key : String) :
    (plainOf v).get key = readAs key (child key v) := by
  have hget : ∀ members, Obj.get (.plain members) key
      = readAs key (InsertionMap.lookup key members) := by
    intro members
    rw [Obj.get, readAs]
    cases InsertionMap.lookup key members <;> rfl
  cases v with
  | none => exact hget []
  | some v =>
    cases v with
    | obj members => exact hget members
    | _ => exact hget []

variable {v : Option Json} {key : String}

theorem mem_keys_plainOf : key ∈ (plainOf v).keys ↔ (child key v).isSome = true := by
  have hkeys : ∀ members : List (String × Json), key ∈ members.map Prod.fst
      ↔ (InsertionMap.lookup key members).isSome = true := by
    intro members
    rw [← not_iff_not, ← InsertionMap.lookup_eq_none, Bool.not_eq_true,
      Option.isSome_eq_false_iff, Option.isNone_iff_eq_none]
  cases v with
  | none => exact hkeys []
  | some v =>
    cases v with
    | obj members => exact hkeys members
    | _ => exact hkeys []

theorem mem_allKeys {b s c : Option Json} : key ∈ allKeys (plainOf b) (plainOf s) (plainOf c)
      ↔ (child key b).isSome = true ∨ (child key s).isSome = true
        ∨ (child key c).isSome = true := by
  rw [allKeys, mem_eraseDups, mem_append, mem_append,
    mem_keys_plainOf, mem_keys_plainOf, mem_keys_plainOf, or_assoc]

theorem asObject_eq_some {o : Obj} (h : asObject (v.map .json) = some o) :
    o = plainOf v ∧ view v [] = some .obj := by
  cases v with
  | none => cases h
  | some v =>
    cases v with
    | obj members => exact ⟨(Option.some.inj h).symm, rfl⟩
    | _ => cases h

theorem asObject_of_view (h : view v [] = some .obj) :
    asObject (v.map .json) = some (plainOf v) := by
  obtain ⟨members, rfl⟩ := (view_obj_iff v).mp h
  rfl

/-- An own member that is an object is what a read finds. -/
theorem asObject_get (h : view (child key v) [] = some .obj) :
    asObject ((plainOf v).get key) = some (plainOf (child key v)) := by
  rw [get_plainOf]
  obtain ⟨members, hchild⟩ := (view_obj_iff _).mp h
  rw [hchild]
  rfl

/-- The base of a nested merge: an object, or an empty one. -/
theorem asObject_getD (v : Option Json) :
    (asObject (v.map .json)).getD (.plain []) = plainOf v := by
  cases v with
  | none => rfl
  | some v => cases v <;> rfl

theorem asObject_inherited (h : key ≠ "__proto__") :
    asObject (some (.inherited .object key)) = none := by
  unfold asObject
  split
  · rename_i heq
    cases heq
  · rename_i heq
    exact absurd (inherited.inj (Option.some.inj heq)).2 h
  · rfl

theorem isDeepEqual_function (h : key ≠ "__proto__") (v : Json) :
    isDeepEqual (some (.inherited .object key)) (some (.json v)) = false
      ∧ isDeepEqual (some (.json v)) (some (.inherited .object key)) = false := by
  have hcount : keyCount (.inherited .object key) = none := if_neg h
  constructor
  · show (false || (decide (keyCount (.inherited .object key) = some 0) && _)) = false
    rw [hcount]
    rfl
  show (false || (_ && decide (keyCount (.inherited .object key) = some 0))) = false
  rw [hcount, Bool.false_or]
  exact Bool.and_false _

/-- An inherited name is no trouble: `__proto__` is a member of no side, and
    any other that the base has, both sides still have. -/
structure NoNameClash (key : String) (x y z : Option Json) : Prop where
  proto : key = "__proto__" → y = none ∧ z = none
  kept : key ∈ inheritedNames → key ≠ "__proto__" → x.isSome = true →
    y.isSome = true ∧ z.isSome = true

/-- **PROPERTY READS**: where no name clashes, the merge of a key is decided by
    the own members. -/
theorem mergeKey_readAs (settings : Settings) (merge : Obj → Obj → Obj → Merge)
    {x y z : Option Json} (hname : NoNameClash key x y z) (hproto : key ≠ "__proto__")
    (hmem : x.isSome = true ∨ y.isSome = true ∨ z.isSome = true) :
    mergeKey settings merge key (readAs key x) (readAs key y) (readAs key z)
      = mergeKey settings merge key (x.map .json) (y.map .json) (z.map .json) := by
  by_cases hin : key ∈ inheritedNames
  · have hread : ∀ w : Option Json, readAs key w
        = (w.map .json).or (some (.inherited .object key)) := by
      intro w
      rw [readAs, inheritedValue, if_pos hin]
    have hself : isDeepEqual (some (.inherited .object key))
        (some (.inherited .object key)) = true := by
      show (decide (Prototype.object = .object ∧ key = key) || _) = true
      rw [decide_eq_true ⟨rfl, rfl⟩, Bool.true_or]
    rw [hread, hread, hread]
    cases x with
    | some x =>
      obtain ⟨hy, hz⟩ := hname.kept hin hproto rfl
      obtain ⟨y, rfl⟩ := Option.isSome_iff_exists.mp hy
      obtain ⟨z, rfl⟩ := Option.isSome_iff_exists.mp hz
      rfl
    | none =>
      cases y with
      | none =>
        cases z with
        | none => exact absurd hmem (by decide)
        | some z =>
          -- only the client has the key: the server did not touch it
          exact (mergeKey_server_unchanged (isDeepEqual_function hproto z).1 hself).trans
            (mergeKey_server_unchanged rfl rfl).symm
      | some y =>
        cases z with
        | none =>
          -- only the server has it: the client did not touch it
          exact (mergeKey_client_unchanged hself).trans (mergeKey_client_unchanged rfl).symm
        | some z =>
          -- both have it: a function is no nested base either
          have hbase : (asObject (some (.inherited .object key))).getD
              (.plain []) = (asObject none).getD (.plain []) :=
            congrArg (Option.getD · _) (asObject_inherited hproto)
          show mergeKey settings merge key (some (.inherited .object key)) (some (.json y))
              (some (.json z))
            = mergeKey settings merge key none (some (.json y)) (some (.json z))
          cases hsame : isDeepEqual (some (.json y)) (some (.json z)) with
          | true =>
            exact (mergeKey_convergent (isDeepEqual_function hproto z).1
              (isDeepEqual_function hproto y).1 hsame).trans
              (mergeKey_convergent rfl rfl hsame).symm
          | false =>
            rw [mergeKey_differ (isDeepEqual_function hproto z).1
              (isDeepEqual_function hproto y).1 hsame,
              mergeKey_differ rfl rfl hsame, hbase]
  · have hread : ∀ w : Option Json, readAs key w = w.map .json := by
      intro w
      rw [readAs, inheritedValue, if_neg hin, Option.or_none]
    rw [hread, hread, hread]

/-! ## What the merge writes -/

/-- What is found in a tree along a path. -/
def lookTree : List Step → Tree → Option Kind
  | p, .value v => v.look p
  | _, .undefined => none
  | [], .object _ => some .obj
  | .key name :: p, .object members => (InsertionMap.lookup name members).bind (lookTree p)
  | .index _ :: _, .object _ => none

def treeView (t : Option Tree) : View Step Kind :=
  fun p => t.bind (lookTree p)

theorem below_treeView (members : List (String × Tree)) (name : String) :
    below (treeView (some (.object members))) [.key name]
      = treeView (InsertionMap.lookup name members) := rfl

theorem treeView_value (v : Option Json) : treeView ((v.map json).map .value) = view v := by
  cases v with
  | none => rfl
  | some v =>
    funext p
    cases p <;> rfl

theorem lookup_members (f : String → KeyMerge) (keys : List String) (name : String) :
    InsertionMap.lookup name ((keys.map (fun k => (k, f k))).filterMap member)
      = if name ∈ keys ∧ name ≠ "__proto__" then (f name).assigned else none := by
  induction keys with
  | nil => rfl
  | cons k rest ih =>
    rw [map_cons, filterMap_cons, member]
    by_cases hproto : k = "__proto__"
    · rw [if_pos hproto, ih]
      have hiff : name ∈ k :: rest ∧ name ≠ "__proto__" ↔ name ∈ rest ∧ name ≠ "__proto__" := by
        rw [mem_cons, hproto]
        tauto
      rw [if_congr hiff rfl rfl]
    rw [if_neg hproto]
    cases hassigned : (f k).assigned with
    | none =>
      show InsertionMap.lookup name (rest.map _ |>.filterMap member) = _
      rw [ih]
      by_cases hname : name = k
      · rw [hname, hassigned, ite_self, ite_self]
      have hiff : name ∈ k :: rest ↔ name ∈ rest := by rw [mem_cons, or_iff_right hname]
      rw [if_congr (and_congr_left' hiff) rfl rfl]
    | some t =>
      show (if k = name then some t
        else InsertionMap.lookup name (rest.map _ |>.filterMap member)) = _
      by_cases hname : k = name
      · subst hname
        rw [if_pos rfl, if_pos ⟨(.head _), hproto⟩, hassigned]
      have hiff : name ∈ k :: rest ↔ name ∈ rest := by
        rw [mem_cons, or_iff_right (Ne.symm hname)]
      rw [if_neg hname, ih, if_congr (and_congr_left' hiff) rfl rfl]

/-- The body of the loop at a key of one of the three objects. -/
def keyAt (settings : Settings) (fuel : Nat) (b s c : Option Json) (name : String) : KeyMerge :=
  mergeKey settings (mergeMetadataObjects settings fuel) name
    ((plainOf b).get name) ((plainOf s).get name) ((plainOf c).get name)

theorem lookup_merged (settings : Settings) (fuel : Nat) (b s c : Option Json) (name : String) :
    InsertionMap.lookup name (mergeMetadataObjects settings (fuel + 1)
      (plainOf b) (plainOf s) (plainOf c)).merged
      = if name ∈ allKeys (plainOf b) (plainOf s) (plainOf c) ∧ name ≠ "__proto__"
        then (keyAt settings fuel b s c name).assigned else none :=
  lookup_members (keyAt settings fuel b s c) _ name

variable {key : String} {settings : Settings} {name : String} {o : Obj}

theorem collisions_eq_nil {fuel : Nat} {b s c : Option Json}
    (hin : name ∈ allKeys (plainOf b) (plainOf s) (plainOf c))
    (h : (mergeMetadataObjects settings (fuel + 1)
      (plainOf b) (plainOf s) (plainOf c)).collisions = []) :
    (keyAt settings fuel b s c name).collisions = [] :=
  flatMap_eq_nil_iff.mp h (name, keyAt settings fuel b s c name)
    (mem_map.mpr ⟨name, hin, rfl⟩)

theorem depth_le_of_mem {members : List (String × Json)}
    {v : Json} (h : (name, v) ∈ members) : depth v ≤ depthMembers members := by
  induction members with
  | nil => cases h
  | cons m rest ih =>
    rw [depthMembers]
    rcases mem_cons.mp h with rfl | h
    · rw [depthMember]
      exact Nat.le_max_left _ _
    · exact (ih h).trans (Nat.le_max_right _ _)

theorem depth_le_of_item {items : List Json} {v : Json} (h : v ∈ items) :
    depth v ≤ (items.map depth).foldr max 0 := by
  induction items with
  | nil => cases h
  | cons w rest ih =>
    rw [map_cons, foldr_cons]
    rcases mem_cons.mp h with rfl | h
    · exact Nat.le_max_left _ _
    · exact (ih h).trans (Nat.le_max_right _ _)

theorem depth_asObject_json {v : Json}
    (h : asObject (some (.json v)) = some o) : o.depth = depth v := by
  cases v with
  | obj members =>
    cases h
    rw [depth]
    rfl
  | _ => cases h

theorem depth_asObject_inherited (h : asObject (inheritedValue key) = some o) : o.depth = 0 := by
  by_cases hproto : key = "__proto__"
  · subst hproto
    obtain rfl : Obj.prototype = o := Option.some.inj h
    rfl
  rw [inheritedValue] at h
  split at h
  · rw [asObject_inherited hproto] at h
    cases h
  · cases h

theorem depth_nested {server o : Obj}
    (h : asObject (server.get key) = some o) : o.depth < server.depth := by
  cases server with
  | plain members =>
    show o.depth < depthMembers members + 1
    rw [Obj.get] at h
    split at h
    · rename_i v hv
      rw [depth_asObject_json h]
      exact Nat.lt_succ_of_le (depth_le_of_mem (InsertionMap.mem_of_lookup hv))
    rw [depth_asObject_inherited h]
    exact Nat.succ_pos _
  | array items =>
    show o.depth < (items.map depth).foldr max 0 + 1
    rw [Obj.get] at h
    split at h
    · rename_i v hv
      rw [depth_asObject_json h]
      refine Nat.lt_succ_of_le ?_
      rw [ownProperty] at hv
      split at hv
      · cases hv
        cases h
      obtain ⟨i, -, hi⟩ := Option.bind_eq_some_iff.mp hv
      exact depth_le_of_item (mem_of_getElem? hi)
    · split at h
      · cases h
      rw [depth_asObject_inherited h]
      exact Nat.succ_pos _
  | prototype =>
    rw [Obj.get] at h
    split at h
    · cases h
    rename_i hproto
    rw [inheritedValue] at h
    split at h
    · rw [asObject_inherited hproto] at h
      cases h
    · cases h

theorem mergeKey_congr {merge merge' : Obj → Obj → Obj → Merge}
    {valBase valServer valClient : Option JsValue}
    (h : ∀ base server client, asObject valServer = some server →
      merge base server client = merge' base server client) :
    mergeKey settings merge key valBase valServer valClient
      = mergeKey settings merge' key valBase valServer valClient := by
  unfold mergeKey
  cases hserver : asObject valServer with
  | none => rfl
  | some server =>
    cases asObject valClient with
    | none => rfl
    | some client =>
      show (if _ then _ else if _ then _ else if _ then _
        else (⟨some (.object (merge _ server client).merged),
          (merge _ server client).collisions.map _⟩ : KeyMerge)) = _
      rw [h _ server client hserver]

/-- **THE FUEL SUFFICES**: more of it changes nothing. -/
theorem mergeMetadataObjects_fuel (settings : Settings) (fuel : Nat)
    (base server client : Obj) (h : server.depth ≤ fuel) :
    mergeMetadataObjects settings (fuel + 1) base server client
      = mergeMetadata settings base server client := by
  suffices hany : ∀ fuel', server.depth ≤ fuel' →
      mergeMetadataObjects settings (fuel + 1) base server client
        = mergeMetadataObjects settings (fuel' + 1) base server client from
    hany _ le_rfl
  induction fuel generalizing base server client with
  | zero =>
    intro fuel' _
    have hkey : ∀ key, mergeKey settings (mergeMetadataObjects settings 0)
        key (base.get key) (server.get key) (client.get key)
        = mergeKey settings (mergeMetadataObjects settings fuel') key
          (base.get key) (server.get key) (client.get key) := by
      intro key
      refine mergeKey_congr ?_
      intro _ o _ ho
      have hlt := depth_nested ho
      omega
    rw [mergeMetadataObjects, mergeMetadataObjects]
    simp only [hkey]
  | succ fuel ih =>
    intro fuel' h'
    have hkey : ∀ key, mergeKey settings
        (mergeMetadataObjects settings (fuel + 1)) key (base.get key)
        (server.get key) (client.get key)
        = mergeKey settings (mergeMetadataObjects settings fuel') key
          (base.get key) (server.get key) (client.get key) := by
      intro key
      refine mergeKey_congr ?_
      intro base' o client' ho
      have hlt := depth_nested ho
      obtain ⟨fuel', rfl⟩ : ∃ k, fuel' = k + 1 := Nat.exists_eq_add_one.mpr (by omega)
      exact ih base' o client' (by omega) fuel' (by omega)
    rw [mergeMetadataObjects, mergeMetadataObjects]
    simp only [hkey]

/-! ## Along a path -/

/-- Deep equality of the two is sameness. -/
def Trustworthy (x y : Option JsValue) : Prop :=
  isDeepEqual x y = true → viewOf x = viewOf y

/-- The three tests can be trusted as far as they are made. -/
structure TrustedTests (x y z : Option JsValue) : Prop where
  baseClient : Trustworthy x z
  baseServer : isDeepEqual x z = false → Trustworthy x y
  serverClient : isDeepEqual x z = false → isDeepEqual x y = false → Trustworthy y z

/-- All three tests fail. -/
structure Undecided (x y z : Option JsValue) : Prop where
  baseClient : isDeepEqual x z = false
  baseServer : isDeepEqual x y = false
  serverClient : isDeepEqual y z = false

/-- Whatever is compared on the way down a path can be trusted. -/
def Trusted : List String → Option Json → Option Json → Option Json → Prop
  | [], _, _, _ => True
  | name :: names, b, s, c =>
    NoNameClash name (child name b) (child name s) (child name c)
      ∧ TrustedTests ((child name b).map .json) ((child name s).map .json)
          ((child name c).map .json)
      ∧ (Undecided ((child name b).map .json) ((child name s).map .json)
          ((child name c).map .json) →
        view (child name s) [] = some .obj →
        view (child name c) [] = some .obj →
        Trusted names (child name b) (child name s) (child name c))

/-- The path runs through objects of both sides. -/
def OnObjects (names : List String) (s c : Option Json) : Prop :=
  ∀ outer inner, names = outer ++ inner → outer ≠ [] → inner ≠ [] →
    view s (outer.map .key) = some .obj ∧ view c (outer.map .key) = some .obj

variable {x y z : Option Json} {names : List String} {s c : Option Json} {v w : Option Json}

theorem OnObjects.tail {name : String} (h : OnObjects (name :: names) s c) :
    OnObjects names (child name s) (child name c) := by
  intro outer inner heq _ hinner
  have hpath := h (name :: outer) inner (congrArg (name :: ·) heq) (cons_ne_nil _ _) hinner
  rw [← below_view, ← below_view]
  exact hpath

theorem OnObjects.head {name next : String} (h : OnObjects (name :: next :: names) s c) :
    view (child name s) [] = some .obj ∧ view (child name c) [] = some .obj := by
  have hpath := h [name] (next :: names) rfl (cons_ne_nil _ _) (cons_ne_nil _ _)
  rw [← below_view, ← below_view]
  exact hpath

theorem view_ne (hv : ProperOption v) (hw : ProperOption w)
    (h : isDeepEqual (v.map .json) (w.map .json) = false) : view v ≠ view w := by
  intro hview
  have hproper : ∀ {u : Option Json}, ProperOption u → ProperValue (u.map .json) := by
    intro u hu x hx
    obtain ⟨y, rfl, hy⟩ := Option.map_eq_some_iff.mp hx
    exact hu x (congrArg some (json.inj hy))
  have htrue := isDeepEqual_of_view (hproper hv) (hproper hw)
    ((viewOf_json v).trans (hview.trans (viewOf_json w).symm))
  rw [h] at htrue
  cases htrue

theorem Trustworthy.view_eq (h : Trustworthy (v.map .json) (w.map .json))
    (heq : isDeepEqual (v.map .json) (w.map .json) = true) : view v = view w :=
  (viewOf_json v).symm.trans ((h heq).trans (viewOf_json w))

variable {merge : Obj → Obj → Obj → Merge} {key : String} {settings : Settings}

theorem mergeKey_objects (h : Undecided (x.map .json) (y.map .json) (z.map .json))
    (hy : view y [] = some .obj) (hz : view z [] = some .obj) :
    mergeKey settings merge key (x.map .json) (y.map .json) (z.map .json)
      = ⟨some (.object (merge (plainOf x) (plainOf y) (plainOf z)).merged),
          (merge (plainOf x) (plainOf y) (plainOf z)).collisions.map
            (fun c => key ++ "." ++ c)⟩ := by
  rw [mergeKey_differ h.baseClient h.baseServer h.serverClient,
    asObject_of_view hy, asObject_of_view hz]
  show (⟨some (.object (merge ((asObject _).getD _) _ _).merged),
    (merge ((asObject _).getD _) _ _).collisions.map _⟩ : KeyMerge) = _
  rw [asObject_getD]

theorem mergeKey_leaf (h : Undecided (x.map .json) (y.map .json) (z.map .json))
    (hleaf : ¬ (view y [] = some .obj ∧ view z [] = some .obj)) :
    mergeKey settings merge key (x.map .json) (y.map .json) (z.map .json)
      = collide settings key (y.map .json) (z.map .json) := by
  rw [mergeKey_differ h.baseClient h.baseServer h.serverClient]
  cases hy : asObject (y.map json) with
  | none => rfl
  | some o =>
    cases hz : asObject (z.map json) with
    | none => rfl
    | some o' => exact absurd ⟨(asObject_eq_some hy).2, (asObject_eq_some hz).2⟩ hleaf

theorem collide_merged (settings : Settings) (hy : view y ≠ view x) (hz : view z ≠ view x)
    (hdiffer : view y ≠ view z) (hfree : settings.strategy = .STRICT →
      (collide settings key (y.map .json) (z.map .json)).collisions = []) :
    Merged settings.strategy.policy Kind.obj (view x) (view y) (view z)
      (treeView (collide settings key (y.map .json) (z.map .json)).assigned) := by
  refine merged_of_collision hy hz hdiffer ?_ ?_ ?_
  · intro hpolicy
    cases hs : settings.strategy with
    | SERVER_WINS =>
      rw [collide, hs]
      exact treeView_value y
    | _ => rw [hs] at hpolicy; cases hpolicy
  · intro hpolicy
    cases hs : settings.strategy with
    | CLIENT_WINS =>
      rw [collide, hs]
      exact treeView_value z
    | _ => rw [hs] at hpolicy; cases hpolicy
  · intro hpolicy
    cases hs : settings.strategy with
    | STRICT =>
      have hnil := hfree hs
      rw [collide, hs] at hnil
      cases hnil
    | _ => rw [hs] at hpolicy; cases hpolicy

/-- **A THREE-WAY MERGE ALONG EVERY PATH**: through objects of both sides,
    where the comparisons can be trusted. -/
theorem merged_along (settings : Settings) (names : List String)
    (hnames : names ≠ []) (fuel : Nat) (b s c : Option Json)
    (hb : ProperOption b) (hs : ProperOption s) (hc : ProperOption c)
    (hfuel : (plainOf s).depth ≤ fuel) (htrust : Trusted names b s c) (hpath : OnObjects names s c)
    (hfree : settings.strategy = .STRICT →
      (mergeMetadataObjects settings (fuel + 1) (plainOf b) (plainOf s)
        (plainOf c)).collisions = []) : Merged settings.strategy.policy Kind.obj
      (below (view b) (names.map .key)) (below (view s) (names.map .key))
      (below (view c) (names.map .key))
      (below (treeView (some (.object (mergeMetadataObjects settings (fuel + 1)
        (plainOf b) (plainOf s) (plainOf c)).merged))) (names.map .key)) := by
  induction names generalizing fuel b s c with
  | nil => exact absurd rfl hnames
  | cons name names ih =>
    obtain ⟨hname, htests, hdeeper⟩ := htrust
    rw [map_cons, below_cons (view b), below_cons (view s),
      below_cons (view c), below_cons (treeView _), below_view, below_view,
      below_view, below_treeView, lookup_merged]
    by_cases hin : name ∈ allKeys (plainOf b) (plainOf s) (plainOf c) ∧ name ≠ "__proto__"
    · rw [if_pos hin]
      have hat : keyAt settings fuel b s c name
          = mergeKey settings (mergeMetadataObjects settings fuel) name
            ((child name b).map .json) ((child name s).map .json)
            ((child name c).map .json) := by
        rw [keyAt, get_plainOf, get_plainOf, get_plainOf]
        exact mergeKey_readAs settings _ hname hin.2 (mem_allKeys.mp hin.1)
      have hcollisions : settings.strategy = .STRICT →
          (keyAt settings fuel b s c name).collisions = [] :=
        fun hstrict => collisions_eq_nil hin.1 (hfree hstrict)
      rw [hat] at hcollisions ⊢
      have hb' := hb.child name
      have hs' := hs.child name
      have hc' := hc.child name
      cases hclient : isDeepEqual ((child name b).map .json) ((child name c).map .json) with
      | true =>
        rw [mergeKey_client_unchanged hclient, assignDefined, treeView_value]
        exact merged_of_client_unchanged (congrArg (below · _) (htests.baseClient.view_eq hclient))
      | false =>
        cases hserver : isDeepEqual ((child name b).map .json) ((child name s).map .json) with
        | true =>
          rw [mergeKey_server_unchanged hclient hserver, assignDefined, treeView_value]
          exact merged_of_server_unchanged (congrArg (below · _)
            ((htests.baseServer hclient).view_eq hserver))
        | false =>
          cases hsame : isDeepEqual ((child name s).map .json) ((child name c).map .json) with
          | true =>
            rw [mergeKey_convergent hclient hserver hsame, assignDefined, treeView_value]
            exact merged_of_convergent (congrArg (below · _)
              ((htests.serverClient hclient hserver).view_eq hsame))
          | false =>
            have hund : Undecided ((child name b).map .json)
                ((child name s).map .json) ((child name c).map .json)
                := ⟨hclient, hserver, hsame⟩
            have hsb := (view_ne hb' hs' hserver).symm
            have hcb := (view_ne hb' hc' hclient).symm
            have hsc := view_ne hs' hc' hsame
            by_cases hobjects : view (child name s) [] = some .obj
                ∧ view (child name c) [] = some .obj
            · rw [mergeKey_objects hund hobjects.1 hobjects.2] at hcollisions ⊢
              cases names with
              | nil => exact merged_of_nodes hsb hcb hsc hobjects.1 hobjects.2
              | cons next names =>
                have hdepth := depth_nested (asObject_get hobjects.1)
                obtain ⟨fuel, rfl⟩ : ∃ k, fuel = k + 1 := Nat.exists_eq_add_one.mpr (by omega)
                exact ih (cons_ne_nil _ _) fuel _ _ _ hb' hs' hc' (by omega)
                  (hdeeper hund hobjects.1 hobjects.2) hpath.tail
                  (fun hstrict => map_eq_nil_iff.mp (hcollisions hstrict))
            · rw [mergeKey_leaf hund hobjects] at hcollisions ⊢
              cases names with
              | nil => exact collide_merged settings hsb hcb hsc hcollisions
              | cons next names => exact absurd hpath.head hobjects
    · rw [if_neg hin]
      -- no side has the member
      have hnone : child name s = none ∧ child name c = none := by
        by_cases hproto : name = "__proto__"
        · exact hname.proto hproto
        have hnot : name ∉ allKeys (plainOf b) (plainOf s) (plainOf c) :=
          fun h => hin ⟨h, hproto⟩
        rw [mem_allKeys, not_or, not_or, Option.not_isSome_iff_eq_none,
          Option.not_isSome_iff_eq_none,
          Option.not_isSome_iff_eq_none] at hnot
        exact hnot.2
      rw [hnone.1, hnone.2]
      exact merged_of_convergent rfl

end MetadataMerge

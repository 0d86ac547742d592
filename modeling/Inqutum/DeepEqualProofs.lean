import Inqutum.InsertionMapProofs
import Inqutum.JsonProofs
import Inqutum.ThreeWayMergeProofs

/-!
# Comparing values deeply

What two JSON values have in common is what can be observed along paths of
keys and indices (`view`); the order of members is not observed.

`isDeepEqual` compares by members, and it does not ask whether a value is
an array, an object or a date before it looks at the members.  Values with
the same view are deep-equal (`isDeepEqual_of_view`), but the converse
fails: the empty array, the empty object and any date have no members, and
`{"length": 1}` has every member it needs to pass for an array of one.
-/

namespace DeepEqual

open ThreeWay List Option

/-! ## Views -/

/-- One step into a value. -/
inductive Step where
  | key (name : String)
  | index (i : Nat)

/-- Where an inherited property is found. -/
inductive Prototype where
  | object
  | array
  deriving DecidableEq

/-- What a value is, without its parts. -/
inductive Kind where
  | null
  | bool (value : Bool)
  | num (value : ℚ)
  | str (value : String)
  | arr (length : Nat)
  | obj
  | date (time : Int)
  | inherited (owner : Prototype) (name : String)
  deriving DecidableEq

def kind : Json → Kind
  | .null => .null
  | .bool b => .bool b
  | .num q => .num q
  | .str s => .str s
  | .arr items => .arr items.length
  | .obj _ => .obj

/-- What is found in a value along a path. -/
def look : List Step → Json → Option Kind
  | [], v => some (kind v)
  | .key name :: p, .obj members => (InsertionMap.lookup name members).bind (look p)
  | .index i :: p, .arr items => items[i]?.bind (look p)
  | _, _ => none

def view (v : Option Json) : View Step Kind := fun p => v.bind (look p)

/-- The member of a plain object. -/
def child (name : String) : Option Json → Option Json
  | some (.obj members) => InsertionMap.lookup name members
  | _ => none

theorem below_view (v : Option Json) (name : String) :
    below (view v) [.key name] = view (child name v) := by
  funext p
  show v.bind (look (.key name :: p)) = _
  cases v with
  | none => rfl
  | some v =>
    cases v with
    | obj members => rfl
    | _ => rfl

theorem view_nil (v : Option Json) : view v [] = v.map kind := by
  cases v <;> rfl

theorem view_obj_iff (v : Option Json) :
    view v [] = some .obj ↔ ∃ members, v = some (.obj members) := by
  rw [view_nil]
  constructor
  · intro h
    obtain ⟨w, rfl, hkind⟩ := map_eq_some_iff.mp h
    cases w with
    | obj members => exact ⟨members, rfl⟩
    | _ => cases hkind
  rintro ⟨members, rfl⟩
  rfl

/-! ## Values -/

/-- A value as the script sees it: JSON, a date, or what objects and arrays
    inherit under a name: a function, and the prototype under `__proto__`. -/
inductive JsValue where
  | json (value : Json)
  | date (time : Int)
  | inherited (owner : Prototype) (name : String)

/-- The names every object inherits. -/
def inheritedNames : List String :=
  ["constructor", "__defineGetter__", "__defineSetter__", "hasOwnProperty",
    "__lookupGetter__", "__lookupSetter__", "isPrototypeOf",
    "propertyIsEnumerable", "toString", "valueOf", "__proto__",
    "toLocaleString"]

/-- An own property, enumerable or not. -/
def ownProperty : Json → String → Option Json
  | .obj members, name => InsertionMap.lookup name members
  | .arr items, name =>
    if name = "length" then some (.num items.length)
    else (Json.arrayIndex name).bind (items[·]?)
  | _, _ => none

/-- `Object.keys(value).length`, of an object. -/
def keyCount : Json → Option Nat
  | .obj members => some members.length
  | .arr items => some items.length
  | _ => none

mutual

/-- `isDeepEqual` on JSON. -/
def deepEqual : Json → Json → Bool
  | .null, .null => true
  | .bool a, .bool b => a == b
  | .num a, .num b => decide (a = b)
  | .str a, .str b => decide (a = b)
  | .arr xs, .arr ys => decide (xs.length = ys.length) && itemsEqual xs ys
  | .arr xs, .obj members => decide (xs.length = members.length) && indexedEqual 0 xs (.obj members)
  | .obj members, other =>
    decide (keyCount other = some members.length) && membersEqual members other
  | _, _ => false
termination_by structural a => a

def itemsEqual : List Json → List Json → Bool
  | x :: xs, y :: ys => deepEqual x y && itemsEqual xs ys
  | _, _ => true
termination_by structural xs => xs

/-- The items of an array against the properties `i`, `i + 1`, ... -/
def indexedEqual : Nat → List Json → Json → Bool
  | _, [], _ => true
  | i, x :: xs, other =>
    (match ownProperty other (toString i) with
      | some y => deepEqual x y
      | none => false) && indexedEqual (i + 1) xs other
termination_by structural _ xs => xs

def membersEqual : List (String × Json) → Json → Bool
  | [], _ => true
  | m :: rest, other => memberEqual m other && membersEqual rest other
termination_by structural members => members

def memberEqual : String × Json → Json → Bool
  | (name, x), other =>
    match ownProperty other name with
    | some y => deepEqual x y
    | none => false
termination_by structural m => m

end

/-- The number of members of a value of type `object`. -/
def JsValue.keyCount : JsValue → Option Nat
  | .json v => DeepEqual.keyCount v
  | .date _ => some 0
  | .inherited _ name => if name = "__proto__" then some 0 else none

/-- `a === b`, of what is inherited. -/
def JsValue.sameInherited : JsValue → JsValue → Bool
  | .inherited o m, .inherited p n => decide (o = p ∧ m = n)
  | _, _ => false

/-- `isDeepEqual`; `none` is `undefined`. -/
def isDeepEqual : Option JsValue → Option JsValue → Bool
  | none, none => true
  | some (.json a), some (.json b) => deepEqual a b
  | some (.date s), some (.date t) => decide (s = t)
  | some a, some b =>
    -- one and the same inherited thing; dates and prototypes have no members
    a.sameInherited b
      || (decide (a.keyCount = some 0) && decide (b.keyCount = some 0))
  | _, _ => false

/-! ## Values with one view are deep-equal -/

mutual

/-- The members of every object have distinct names. -/
def Proper : Json → Prop
  | .arr items => ProperItems items
  | .obj members => (members.map Prod.fst).Nodup ∧ ProperMembers members
  | _ => True

def ProperItems : List Json → Prop
  | [] => True
  | x :: rest => Proper x ∧ ProperItems rest

def ProperMembers : List (String × Json) → Prop
  | [] => True
  | (_, x) :: rest => Proper x ∧ ProperMembers rest

end

theorem proper_str (s : String) : Proper (.str s) := by
  simp [Proper]

theorem proper_num (q : ℚ) : Proper (.num q) := by
  simp [Proper]

variable {members : List (String × Json)} {x : Json}

theorem ProperItems.item {items : List Json} (h : ProperItems items)
    (hx : x ∈ items) : Proper x := by
  induction items with
  | nil => cases hx
  | cons y rest ih =>
    rw [ProperItems] at h
    rcases mem_cons.mp hx with rfl | hx
    · exact h.1
    · exact ih h.2 hx

theorem ProperMembers.member (h : ProperMembers members) {name : String}
    (hx : (name, x) ∈ members) : Proper x := by
  induction members with
  | nil => cases hx
  | cons m rest ih =>
    obtain ⟨name', y⟩ := m
    rw [ProperMembers] at h
    rcases mem_cons.mp hx with heq | hx
    · obtain ⟨-, rfl⟩ := Prod.mk.inj heq
      exact h.1
    · exact ih h.2 hx

/-- A value is proper, if there is one. -/
def ProperOption (v : Option Json) : Prop := ∀ x, v = some x → Proper x

theorem ProperOption.child {v : Option Json} (h : ProperOption v)
    (name : String) : ProperOption (child name v) := by
  intro x hx
  cases v with
  | none => cases hx
  | some v =>
    cases v with
    | obj members =>
      have hproper := h _ rfl
      rw [Proper] at hproper
      exact hproper.2.member (InsertionMap.mem_of_lookup hx)
    | _ => cases hx

theorem length_eq_of_view {members members' : List (String × Json)}
    (hnodup : (members.map Prod.fst).Nodup) (hnodup' : (members'.map Prod.fst).Nodup)
    (h : ∀ name, (InsertionMap.lookup name members).isSome
      = (InsertionMap.lookup name members').isSome) : members.length = members'.length := by
  have hperm : (members.map Prod.fst).Perm (members'.map Prod.fst) := by
    refine (perm_ext_iff_of_nodup hnodup hnodup').mpr ?_
    intro name
    have hiff := h name
    constructor
    · intro hmem
      by_contra hnot
      rw [InsertionMap.lookup_eq_none.mpr hnot, isSome_none,
        isSome_eq_false_iff, isNone_iff_eq_none] at hiff
      exact InsertionMap.lookup_eq_none.mp hiff hmem
    intro hmem
    by_contra hnot
    rw [InsertionMap.lookup_eq_none.mpr hnot, isSome_none] at hiff
    have hnone := isNone_iff_eq_none.mp (isSome_eq_false_iff.mp hiff.symm)
    exact InsertionMap.lookup_eq_none.mp hnone hmem
  have hlength := hperm.length_eq
  rw [length_map, length_map] at hlength
  exact hlength

theorem itemsEqual_of_items {xs ys : List Json}
    (h : ∀ (i : Nat) x y, xs[i]? = some x → ys[i]? = some y → deepEqual x y = true) :
    itemsEqual xs ys = true := by
  induction xs generalizing ys with
  | nil => rw [itemsEqual]; simp
  | cons x xs ih =>
    cases ys with
    | nil => rw [itemsEqual]; simp
    | cons y ys =>
      rw [itemsEqual, Bool.and_eq_true]
      refine ⟨h 0 x y rfl rfl, ih ?_⟩
      intro i x' y' hx hy
      exact h (i + 1) x' y' hx hy

theorem membersEqual_of_members {other : Json} (h : ∀ name x, (name, x) ∈ members → ∃ y,
      ownProperty other name = some y ∧ deepEqual x y = true) :
    membersEqual members other = true := by
  induction members with
  | nil => rw [membersEqual]
  | cons m rest ih =>
    obtain ⟨name, x⟩ := m
    obtain ⟨y, hy, hequal⟩ := h name x (.head _)
    rw [membersEqual, memberEqual, hy, Bool.and_eq_true]
    exact ⟨hequal, ih (fun name' x' hx' => h name' x' (.tail _ hx'))⟩

/-- **INDUCTION ON JSON**: what holds of the items and of the members holds of
    the value. -/
theorem json_induct {P : Json → Prop} (hnull : P .null)
    (hbool : ∀ b, P (.bool b)) (hnum : ∀ q, P (.num q)) (hstr : ∀ s, P (.str s))
    (harr : ∀ items, (∀ x ∈ items, P x) → P (.arr items))
    (hobj : ∀ members, (∀ m ∈ members, P m.2) → P (.obj members)) (v : Json) : P v := by
  refine @Json.rec P (fun items => ∀ x ∈ items, P x)
    (fun members => ∀ m ∈ members, P m.2) (fun m => P m.2)
    hnull hbool hnum hstr harr hobj ?_ ?_ ?_ ?_ ?_ v
  · exact nofun
  · intro x rest hx hrest y hy
    rcases mem_cons.mp hy with rfl | hy
    · exact hx
    · exact hrest y hy
  · exact nofun
  · intro m rest hm hrest m' hm'
    rcases mem_cons.mp hm' with rfl | hm'
    · exact hm
    · exact hrest m' hm'
  · exact fun _ _ h => h

theorem deepEqual_of_look {a b : Json} (ha : Proper a) (hb : Proper b)
    (h : ∀ p, look p a = look p b) : deepEqual a b = true := by
  induction a using json_induct generalizing b with
  | hnull =>
    have hkind := Option.some.inj (h [])
    cases b with
    | null => rw [deepEqual]
    | _ => cases hkind
  | hbool x =>
    have hkind := Option.some.inj (h [])
    cases b with
    | bool y =>
      rw [deepEqual, beq_iff_eq]
      exact Kind.bool.inj hkind
    | _ => cases hkind
  | hnum x =>
    have hkind := Option.some.inj (h [])
    cases b with
    | num y =>
      rw [deepEqual]
      exact decide_eq_true (Kind.num.inj hkind)
    | _ => cases hkind
  | hstr x =>
    have hkind := Option.some.inj (h [])
    cases b with
    | str y =>
      rw [deepEqual]
      exact decide_eq_true (Kind.str.inj hkind)
    | _ => cases hkind
  | harr xs ih =>
    have hkind := Option.some.inj (h [])
    cases b with
    | arr ys =>
      rw [Proper] at ha hb
      rw [deepEqual, Bool.and_eq_true]
      refine ⟨decide_eq_true (Kind.arr.inj hkind), ?_⟩
      refine itemsEqual_of_items ?_
      intro i x y hx hy
      have hx' := mem_of_getElem? hx
      refine ih x hx' (ha.item hx') (hb.item (mem_of_getElem? hy)) ?_
      intro p
      have hp := h (.index i :: p)
      rw [look, look, hx, hy] at hp
      exact hp
    | _ => cases hkind
  | hobj members ih =>
    have hkind := Option.some.inj (h [])
    cases b with
    | obj members' =>
      rw [Proper] at ha hb
      have hlook : ∀ name p, (InsertionMap.lookup name members).bind (look p)
            = (InsertionMap.lookup name members').bind (look p) :=
        fun name p => h (.key name :: p)
      have hlength := length_eq_of_view ha.1 hb.1 (fun name => by
        have hname := congrArg Option.isSome (hlook name [])
        cases hm : InsertionMap.lookup name members <;>
          cases hm' : InsertionMap.lookup name members' <;>
          simp_all [look])
      rw [deepEqual, Bool.and_eq_true]
      refine ⟨decide_eq_true (congrArg some hlength.symm), ?_⟩
      refine membersEqual_of_members ?_
      intro name x hx
      have hget := InsertionMap.lookup_of_mem ha.1 hx
      have hname := hlook name []
      rw [hget] at hname
      obtain ⟨y, hy, -⟩ := bind_eq_some_iff.mp hname.symm
      refine ⟨y, hy, ?_⟩
      refine ih (name, x) hx (ha.2.member hx) (hb.2.member (InsertionMap.mem_of_lookup hy)) ?_
      intro p
      have hp := hlook name p
      rw [hget, hy] at hp
      exact hp
    | _ => cases hkind

/-- What is found in a value of the script along a path. -/
def JsValue.look (p : List Step) : JsValue → Option Kind
  | .json v => DeepEqual.look p v
  | .date time => if p = [] then some (.date time) else none
  | .inherited owner name =>
    if p = [] then some (.inherited owner name) else none

def viewOf (v : Option JsValue) : View Step Kind :=
  fun p => v.bind (JsValue.look p)

@[simp] theorem viewOf_json (v : Option Json) : viewOf (v.map .json) = view v := by
  cases v <;> rfl

/-- A value of the script is proper, if there is one. -/
def ProperValue (v : Option JsValue) : Prop :=
  ∀ x, v = some (.json x) → Proper x

/-- **DEEP EQUALITY IS COMPLETE**: what looks the same along every path is
    deep-equal. -/
theorem isDeepEqual_of_view {x y : Option JsValue} (hx : ProperValue x)
    (hy : ProperValue y) (h : viewOf x = viewOf y) : isDeepEqual x y = true := by
  have hlook : ∀ p, x.bind (JsValue.look p) = y.bind (JsValue.look p) :=
    fun p => congrFun h p
  have hroot := hlook []
  cases x with
  | none =>
    cases y with
    | none => rfl
    | some b => cases b <;> cases hroot
  | some a =>
    cases y with
    | none => cases a <;> cases hroot
    | some b =>
      cases a with
      | json v =>
        cases b with
        | json w => exact deepEqual_of_look (hx v rfl) (hy w rfl) hlook
        | date t => cases v <;> cases hroot
        | inherited o n => cases v <;> cases hroot
      | date s =>
        cases b with
        | json w => cases w <;> cases hroot
        | date t => exact decide_eq_true (Kind.date.inj (Option.some.inj hroot))
        | inherited o n => cases hroot
      | inherited o m =>
        cases b with
        | json w => cases w <;> cases hroot
        | date t => cases hroot
        | inherited o' n =>
          have hsame := Kind.inherited.inj (Option.some.inj hroot)
          show (decide (o = o' ∧ m = n) || _) = true
          rw [decide_eq_true hsame, Bool.true_or]

end DeepEqual

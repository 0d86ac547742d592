import Mathlib.Data.Fintype.Card
import Mathlib.Logic.Relation
import Inqutum.CanonicalSerializationProofs

/-!
# Canonical serialization of object graphs

A script value is a graph: an array or an object may be reached along
several ways, and along a way that leads through itself.  `canonicalize`
walks the graph as if it were a tree and keeps the objects of the walk in
a set, each from the moment it is entered to the moment it is left.

The set is exactly the way to the current value (`serializeValue_seen`).
So the walk ends, it stops at an object of the set only on a cycle, and an
object that is merely shared is written as often as it is reached
(`canonicalize_graph`).
-/

namespace Canonical

open JsonText Relation List Option Prod Except

/-! ## Graphs -/

/-- A value with the objects of a graph in it.  Dates and buffers are leaves:
    they are written without being entered. -/
inductive GraphValue (ι : Type) where
  | leaf (value : JsValue)
  | ref (address : ι)

inductive GraphObject (ι : Type) where
  | arr (items : List (GraphValue ι))
  | obj (members : List (Text × GraphValue ι))

/-- The object at each address. -/
abbrev Graph (ι : Type) : Type := ι → GraphObject ι

namespace GraphValue

variable {ι : Type}

def omitted : GraphValue ι → Bool
  | leaf value => value.omitted
  | ref _ => false

end GraphValue

/-- The values directly in an object. -/
def GraphObject.values {ι : Type} : GraphObject ι → List (GraphValue ι)
  | arr items => items
  | obj members => members.map (·.2)

/-! ## The walk -/

def circularReference : Thrown :=
  .canonicalSerializationError .circularReference
    "Circular reference detected during canonical serialization"

section Walk

variable {ι : Type} [DecidableEq ι]

/-- What a part of the walk gives, with the set `seen` it leaves behind; no
    answer if the fuel runs out. -/
abbrev Visit (ι α : Type) : Type := Option (Except Thrown α × Finset ι)

/-- One value after the other, up to the first that throws. -/
def visitAll {α : Type} (visit : Finset ι → α → Visit ι Text) :
    Finset ι → List α → Visit ι (List Text)
  | seen, [] => some (.ok [], seen)
  | seen, x :: rest =>
    match visit seen x with
    | none => none
    | some (.error thrown, seen) => some (.error thrown, seen)
    | some (.ok text, seen) =>
      (visitAll visit seen rest).map (fun out => (out.1.map (text :: ·), out.2))

/-- `finally { seen.delete(obj) }`. -/
def leave (address : ι) (write : List Text → Text) (out : Visit ι (List Text)) : Visit ι Text :=
  out.map (fun out => (out.1.map write, out.2.erase address))

/-- An item of an array. -/
def visitItem (visit : Finset ι → GraphValue ι → Visit ι Text)
    (seen : Finset ι) (item : GraphValue ι) : Visit ι Text :=
  if item.omitted then some (.ok (ascii "null"), seen) else visit seen item

def visitMember (e : Engine) (visit : Finset ι → GraphValue ι → Visit ι Text) (seen : Finset ι)
    (member : Text × GraphValue ι) : Visit ι Text :=
  (visit seen member.2).map (fun out => (out.1.map (fun text =>
    escapeString (e.normalize member.1) ++ unit ':' :: text), out.2))

/-- `serialize`, with the set `seen` before and after. -/
def serializeValue (e : Engine) (g : Graph ι) : Nat → Finset ι → GraphValue ι → Visit ι Text
  | _, seen, .leaf value => some (serialize e value, seen)
  | 0, _, .ref _ => none
  | fuel + 1, seen, .ref address =>
    if address ∈ seen then some (.error circularReference, seen)
    else
      match g address with
      | .arr items =>
        leave address (fun texts => bracketed (join texts))
          (visitAll (visitItem (serializeValue e g fuel)) (insert address seen) items)
      | .obj members =>
        leave address (fun texts => braced (join texts))
          (visitAll (visitMember e (serializeValue e g fuel)) (insert address seen)
            (sortMembers (members.filter (fun m => !m.2.omitted))))

/-- `canonicalize` of a value of a graph. -/
def canonicalizeGraph (e : Engine) (g : Graph ι) (fuel : Nat)
    (root : GraphValue ι) : Option (Except Thrown Text) :=
  (serializeValue e g fuel ∅ root).map fst

end Walk

/-! ## Cycles and unfolding -/

section Unfolding

variable {ι : Type} (g : Graph ι)

/-- The object at `s` is directly in the one at `r`. -/
def Child (r s : ι) : Prop := .ref s ∈ (g r).values

/-- A way from the value leads to an object that contains itself. -/
def CycleReachable (root : GraphValue ι) : Prop :=
  ∃ r s, root = .ref r ∧ ReflTransGen (Child g) r s ∧ TransGen (Child g) s s

/-- The tree that has a copy of an object wherever the object is reached. -/
inductive Unfolds : GraphValue ι → JsValue → Prop where
  | leaf (value : JsValue) : Unfolds (.leaf value) value
  | arr {r : ι} {items : List (GraphValue ι)} (f : GraphValue ι → JsValue) :
      g r = .arr items → (∀ x ∈ items, Unfolds x (f x)) →
      Unfolds (.ref r) (.arr (items.map f))
  | obj {r : ι} {members : List (Text × GraphValue ι)} (f : GraphValue ι → JsValue) :
      g r = .obj members → (∀ m ∈ members, Unfolds m.2 (f m.2)) →
      Unfolds (.ref r) (.obj (members.map (fun m => (m.1, f m.2))))

/-- A leaf of JSON. -/
def isLeaf : JsValue → Bool
  | .null => true
  | .bool _ => true
  | .number x => x.isFinite
  | .negZero => true
  | .str _ => true
  | _ => false

/-- The leaves of the graph are null, booleans, finite numbers or strings. -/
def PlainLeaves : Prop :=
  ∀ r, ∀ x ∈ (g r).values, ∀ value, x = .leaf value → isLeaf value = true

end Unfolding

section Unique

variable {ι : Type} {g : Graph ι} {x : GraphValue ι} {t : JsValue}

theorem Unfolds.unique {t u : JsValue} (h : Unfolds g x t) (h' : Unfolds g x u) : t = u := by
  induction h generalizing u with
  | leaf value => cases h'; rfl
  | @arr r items f hr _ ih =>
    cases h' with
    | arr f' hr' hitems' =>
      obtain rfl := GraphObject.arr.inj (hr.symm.trans hr')
      exact congrArg JsValue.arr (map_congr_left fun x hx => ih x hx (hitems' x hx))
    | obj f' hr' _ => cases hr.symm.trans hr'
  | @obj r members f hr _ ih =>
    cases h' with
    | arr f' hr' _ => cases hr.symm.trans hr'
    | obj f' hr' hmembers' =>
      obtain rfl := GraphObject.obj.inj (hr.symm.trans hr')
      refine congrArg JsValue.obj (map_congr_left fun m hm => ?_)
      rw [ih m hm (hmembers' m hm)]

theorem Unfolds.acc (h : Unfolds g x t) : ∀ r, x = .ref r → Acc (fun s r => Child g r s) r := by
  induction h with
  | leaf value => exact nofun
  | @arr r items f hr _ ih =>
    rintro r' ⟨⟩
    refine Acc.intro r fun s hs => ?_
    rw [Child, hr] at hs
    exact ih _ hs s rfl
  | @obj r members f hr _ ih =>
    rintro r' ⟨⟩
    refine Acc.intro r fun s hs => ?_
    rw [Child, hr] at hs
    obtain ⟨m, hm, hs⟩ := mem_map.mp hs
    exact ih m hm s hs

theorem not_transGen_of_acc {r : ι} (h : Acc (fun s r => Child g r s) r) :
    ∀ s, ReflTransGen (Child g) r s → ¬ TransGen (Child g) s s := by
  induction h with
  | intro r _ ih =>
    intro s hrs hcycle
    rcases ReflTransGen.cases_head hrs with rfl | ⟨c, hc, hcs⟩
    · -- the first step of the cycle leads to a child that is on it too
      obtain ⟨c, hc, hback⟩ := TransGen.head'_iff.mp hcycle
      exact ih c hc c .refl (TransGen.tail' hback hc)
    · exact ih c hc s hcs hcycle

/-- **WHAT UNFOLDS HAS NO CYCLE**. -/
theorem Unfolds.no_cycle (h : Unfolds g x t) : ¬ CycleReachable g x := by
  rintro ⟨r, s, rfl, hrs, hcycle⟩
  exact not_transGen_of_acc (h.acc r rfl) s hrs hcycle

end Unique

/-! ## One value after the other -/

section VisitAll

variable {ι α : Type} {visit : Finset ι → α → Visit ι Text}

/-- A part of the walk leaves the set as it was. -/
def Keeps {β : Type} (visit : Finset ι → α → Visit ι β) : Prop :=
  ∀ {seen x out}, visit seen x = some out → out.2 = seen

theorem visitAll_total {seen : Finset ι} {xs : List α}
    (h : ∀ x ∈ xs, ∃ res, visit seen x = some (res, seen)) :
    ∃ res, visitAll visit seen xs = some (res, seen) := by
  induction xs with
  | nil => exact ⟨_, rfl⟩
  | cons x rest ih =>
    obtain ⟨res, hx⟩ := h x (.head _)
    obtain ⟨res', hrest⟩ := ih (fun y hy => h y (.tail _ hy))
    rw [visitAll, hx]
    cases res with
    | error thrown => exact ⟨_, rfl⟩
    | ok text =>
      dsimp only
      rw [hrest]
      exact ⟨_, rfl⟩

variable {seen seen' : Finset ι} {xs : List α}

/-- All values were written, each in its turn. -/
theorem visitAll_ok (hkeeps : Keeps visit) {texts : List Text}
    (h : visitAll visit seen xs = some (.ok texts, seen')) :
    Forall₂ (fun x text => visit seen x = some (.ok text, seen)) xs texts ∧ seen' = seen := by
  induction xs generalizing texts with
  | nil =>
    obtain ⟨htexts, hseen⟩ := mk.inj (some.inj h)
    cases htexts
    exact ⟨.nil, hseen.symm⟩
  | cons x rest ih =>
    rw [visitAll] at h
    split at h
    · cases h
    · cases h
    rename_i text seen₁ hx
    obtain rfl : seen₁ = seen := hkeeps hx
    obtain ⟨⟨res, seen₂⟩, hout, heq⟩ := map_eq_some_iff.mp h
    obtain ⟨hres, rfl⟩ := mk.inj heq
    cases res with
    | error thrown => cases hres
    | ok texts' =>
      cases hres
      obtain ⟨hall, hkept⟩ := ih hout
      exact ⟨.cons hx hall, hkept⟩

theorem visitAll_error (hkeeps : Keeps visit) {thrown : Thrown}
    (h : visitAll visit seen xs = some (.error thrown, seen')) :
    (∃ x ∈ xs, visit seen x = some (.error thrown, seen)) ∧ seen' = seen := by
  induction xs with
  | nil => cases h
  | cons x rest ih =>
    rw [visitAll] at h
    split at h
    · cases h
    · rename_i thrown' seen₁ hx
      obtain rfl : seen₁ = seen := hkeeps hx
      obtain ⟨hthrown, hseen⟩ := mk.inj (some.inj h)
      obtain rfl := error.inj hthrown
      exact ⟨⟨x, (.head _), hx⟩, hseen.symm⟩
    rename_i text seen₁ hx
    obtain rfl : seen₁ = seen := hkeeps hx
    obtain ⟨⟨res, seen₂⟩, hout, heq⟩ := map_eq_some_iff.mp h
    obtain ⟨hres, rfl⟩ := mk.inj heq
    cases res with
    | ok texts => cases hres
    | error thrown' =>
      obtain rfl := error.inj hres
      obtain ⟨⟨y, hy, hthrows⟩, hkept⟩ := ih hout
      exact ⟨⟨y, .tail _ hy, hthrows⟩, hkept⟩

theorem keeps_visitAll (hkeeps : Keeps visit) : Keeps (visitAll visit) := by
  rintro seen xs ⟨res, seen'⟩ h
  cases res with
  | ok texts => exact (visitAll_ok hkeeps h).2
  | error thrown => exact (visitAll_error hkeeps h).2

end VisitAll

/-! ## The set is the way to the current value -/

section Walk

variable {ι : Type} {e : Engine} {g : Graph ι}
  {visit : Finset ι → GraphValue ι → Visit ι Text} {seen : Finset ι}

theorem keeps_visitItem (h : Keeps visit) : Keeps (visitItem visit) := by
  intro seen item out hout
  rw [visitItem] at hout
  split at hout
  · exact congrArg snd (some.inj hout).symm
  · exact h hout

theorem keeps_visitMember (h : Keeps visit) : Keeps (visitMember e visit) := by
  intro seen member out hout
  obtain ⟨out', hout', rfl⟩ := map_eq_some_iff.mp hout
  show out'.2 = seen
  exact h hout'

variable [DecidableEq ι]

theorem leave_seen {address : ι} {write : List Text → Text}
    (hnew : address ∉ seen) {inner : Visit ι (List Text)}
    (hinner : ∀ out, inner = some out → out.2 = insert address seen)
    {out : Except Thrown Text × Finset ι}
    (h : leave address write inner = some out) : out.2 = seen := by
  obtain ⟨out', hout', rfl⟩ := map_eq_some_iff.mp h
  show out'.2.erase address = seen
  rw [hinner out' hout', Finset.erase_insert hnew]

/-- **A VISIT LEAVES THE SET** as it was. -/
theorem serializeValue_seen (fuel : Nat) : Keeps (serializeValue e g fuel) := by
  induction fuel with
  | zero =>
    intro seen x out h
    cases x with
    | leaf value =>
      rw [serializeValue] at h
      exact congrArg snd (some.inj h).symm
    | ref address => cases h
  | succ fuel ih =>
    intro seen x out h
    cases x with
    | leaf value =>
      rw [serializeValue] at h
      exact congrArg snd (some.inj h).symm
    | ref address =>
      rw [serializeValue] at h
      split at h
      · exact congrArg snd (some.inj h).symm
      rename_i hnew
      split at h
      · exact leave_seen hnew (fun out hout => keeps_visitAll (keeps_visitItem ih) hout) h
      · exact leave_seen hnew (fun out hout => keeps_visitAll (keeps_visitMember ih) hout) h

/-- **THE WALK ENDS**: fuel for each object that is not on the way, and one
    more, is enough. -/
theorem serializeValue_total [Fintype ι] {fuel : Nat}
    (hfuel : Fintype.card ι - seen.card < fuel) (x : GraphValue ι) :
    ∃ res, serializeValue e g fuel seen x = some (res, seen) := by
  induction fuel generalizing seen x with
  | zero => exact absurd hfuel (Nat.not_lt_zero _)
  | succ fuel ih =>
    cases x with
    | leaf value => exact ⟨_, rfl⟩
    | ref address =>
      rw [serializeValue]
      by_cases hnew : address ∈ seen
      · rw [if_pos hnew]
        exact ⟨_, rfl⟩
      have hcard := Finset.card_insert_of_notMem hnew
      have hle := Finset.card_le_univ (insert address seen)
      have hvisit := @ih (insert address seen) (by omega)
      rw [if_neg hnew]
      cases g address with
      | arr items =>
        obtain ⟨res, hres⟩ := @visitAll_total _ _
          (visitItem (serializeValue e g fuel)) (insert address seen)
          items (by
            intro item _
            rw [visitItem]
            split
            · exact ⟨_, rfl⟩
            · exact hvisit item)
        dsimp only
        rw [hres, leave, map_some, Finset.erase_insert hnew]
        exact ⟨_, rfl⟩
      | obj members =>
        obtain ⟨res, hres⟩ := @visitAll_total _ _ (visitMember e (serializeValue e g fuel))
          (insert address seen)
          (sortMembers (members.filter (fun m => !m.2.omitted))) (by
            intro m _
            obtain ⟨res, hm⟩ := hvisit m.2
            rw [visitMember, hm]
            exact ⟨_, rfl⟩)
        dsimp only
        rw [hres, leave, map_some, Finset.erase_insert hnew]
        exact ⟨_, rfl⟩

end Walk

/-! ## What is written is the unfolding -/

section Written

variable {ι : Type} {e : Engine} {g : Graph ι} {f : GraphValue ι → JsValue}
  {members : List (Text × GraphValue ι)} {texts : List Text} {x : GraphValue ι}
  {items : List (GraphValue ι)} {inner : Visit ι (List Text)} {write : List Text → Text}
  {seen : Finset ι} {address : ι} {text : Text} {r : ι}

theorem Unfolds.omitted {t : JsValue} (h : Unfolds g x t) : t.omitted = x.omitted := by
  cases h <;> rfl

theorem leaf_of_omitted (h : x.omitted = true) :
    ∃ value, x = .leaf value ∧ value.omitted = true := by
  cases x with
  | leaf value => exact ⟨value, rfl, h⟩
  | ref address => cases h

theorem serializeItems_of_forall₂ (h : Forall₂ (fun x text =>
      (if (f x).omitted then ok (ascii "null") else serialize e (f x))
        = .ok text) items texts) : serializeItems e (items.map f) = .ok texts := by
  induction h with
  | nil => rfl
  | cons hx _ ih =>
    rw [map_cons, serializeItems, hx, ih]
    rfl

theorem serializeMembers_map (h : ∀ m ∈ members, (f m.2).omitted = m.2.omitted) :
    serializeMembers e (members.map (fun m => (m.1, f m.2)))
      = (members.filter (fun m => !m.2.omitted)).map (fun m => (m.1, serialize e (f m.2))) := by
  induction members with
  | nil => rfl
  | cons m rest ih =>
    have hrest := ih (fun m' hm' => h m' (.tail _ hm'))
    rw [map_cons, serializeMembers, h m (.head _), hrest, filter_cons]
    cases m.2.omitted with
    | true => rfl
    | false => rfl

theorem memberTexts_of_forall₂ (h : Forall₂ (fun m text => ∃ valueText,
      serialize e (f m.2) = .ok valueText
        ∧ text = escapeString (e.normalize m.1) ++ unit ':' :: valueText) members texts) :
    memberTexts e (members.map (fun m => (m.1, serialize e (f m.2)))) = .ok texts := by
  induction h with
  | nil => rfl
  | cons hm _ ih =>
    obtain ⟨valueText, hvalue, rfl⟩ := hm
    simp only [map_cons, memberTexts, hvalue, ih]
    rfl

theorem exists_of_forall₂ {α β : Type} {R : α → β → Prop} {xs : List α}
    {ys : List β} (h : Forall₂ R xs ys) : ∀ x ∈ xs, ∃ y, R x y := by
  induction h with
  | nil => exact nofun
  | @cons x y _ _ hxy _ ih =>
    intro x' hx'
    rcases mem_cons.mp hx' with rfl | hx'
    · exact ⟨y, hxy⟩
    · exact ih x' hx'

theorem exists_unfolding (g : Graph ι) :
    ∃ f : GraphValue ι → JsValue, ∀ x t, Unfolds g x t → f x = t := by
  have hone : ∀ x, ∃ t, ∀ u, Unfolds g x u → t = u := by
    intro x
    by_cases hx : ∃ t, Unfolds g x t
    · obtain ⟨t, ht⟩ := hx
      exact ⟨t, fun u hu => ht.unique hu⟩
    · exact ⟨.null, fun u hu => absurd ⟨u, hu⟩ hx⟩
  choose f hf using hone
  exact ⟨f, hf⟩

theorem writes_arr (hr : g r = .arr items) (h : Forall₂ (fun x text => ∃ t, Unfolds g x t
      ∧ (if t.omitted then ok (ascii "null") else serialize e t) = .ok text) items texts) :
    ∃ t, Unfolds g (.ref r) t ∧ serialize e t = .ok (bracketed (join texts)) := by
  obtain ⟨f, hf⟩ := exists_unfolding g
  refine ⟨_, .arr f hr fun x hx => ?_, ?_⟩
  · obtain ⟨text, t, ht, -⟩ := exists_of_forall₂ h x hx
    exact hf x t ht ▸ ht
  have hitems := serializeItems_of_forall₂ (f := f) (e := e) (h.imp fun x text hx => by
      obtain ⟨t, ht, htext⟩ := hx
      rw [hf x t ht]
      exact htext)
  rw [serialize, hitems]
  rfl

theorem writes_obj (hr : g r = .obj members)
    (h : Forall₂ (fun m text => ∃ t valueText, Unfolds g m.2 t ∧ serialize e t = .ok valueText
      ∧ text = escapeString (e.normalize m.1) ++ unit ':' :: valueText)
      (sortMembers (members.filter (fun m => !m.2.omitted))) texts) :
    ∃ t, Unfolds g (.ref r) t ∧ serialize e t = .ok (braced (join texts)) := by
  obtain ⟨f, hf⟩ := exists_unfolding g
  have hunfolds : ∀ m ∈ members, Unfolds g m.2 (f m.2) := by
    intro m hm
    cases homitted : m.2.omitted with
    | true =>
      obtain ⟨value, hx, -⟩ := leaf_of_omitted homitted
      rw [hx, hf _ _ (.leaf value)]
      exact .leaf value
    | false =>
      have hkept : m ∈ sortMembers (members.filter (fun m => !m.2.omitted)) := by
        refine (sortMembers_perm _).mem_iff.mpr ?_
        exact mem_filter.mpr ⟨hm, by rw [homitted]; rfl⟩
      obtain ⟨text, t, valueText, ht, -⟩ := exists_of_forall₂ h m hkept
      exact hf m.2 t ht ▸ ht
  refine ⟨_, .obj f hr hunfolds, ?_⟩
  have htexts := memberTexts_of_forall₂ (f := f) (e := e) (h.imp fun m text hm => by
      obtain ⟨t, valueText, ht, hvalue, htext⟩ := hm
      rw [hf m.2 t ht]
      exact ⟨valueText, hvalue, htext⟩)
  rw [serialize, serializeMembers_map (fun m hm => (hunfolds m hm).omitted),
    sortMembers_map (fun x => serialize e (f x)), htexts]
  rfl

variable [DecidableEq ι]

theorem leave_ok (h : leave address write inner = some (.ok text, seen)) :
    ∃ texts seen', inner = some (.ok texts, seen') ∧ text = write texts := by
  obtain ⟨⟨res, seen'⟩, hinner, heq⟩ := map_eq_some_iff.mp h
  obtain ⟨hres, -⟩ := mk.inj heq
  cases res with
  | error thrown => cases hres
  | ok texts => exact ⟨texts, seen', hinner, (ok.inj hres).symm⟩

theorem leave_error {thrown : Thrown} (h : leave address write inner = some (.error thrown, seen)) :
    ∃ seen', inner = some (.error thrown, seen') := by
  obtain ⟨⟨res, seen'⟩, hinner, heq⟩ := map_eq_some_iff.mp h
  obtain ⟨hres, -⟩ := mk.inj heq
  cases res with
  | error thrown' =>
    obtain rfl := error.inj hres
    exact ⟨seen', hinner⟩
  | ok texts => cases hres

/-- **WHAT IS WRITTEN** is the text of the unfolding. -/
theorem serializeValue_ok {fuel : Nat} {seen seen' : Finset ι}
    (h : serializeValue e g fuel seen x = some (.ok text, seen')) :
    ∃ t, Unfolds g x t ∧ serialize e t = .ok text := by
  induction fuel generalizing seen seen' x text with
  | zero =>
    cases x with
    | leaf value =>
      rw [serializeValue] at h
      exact ⟨value, .leaf value, congrArg fst (some.inj h)⟩
    | ref address => cases h
  | succ fuel ih =>
    cases x with
    | leaf value =>
      rw [serializeValue] at h
      exact ⟨value, .leaf value, congrArg fst (some.inj h)⟩
    | ref address =>
      rw [serializeValue] at h
      split at h
      · cases h
      split at h
      · rename_i items hr
        obtain ⟨texts, seen₁, hinner, rfl⟩ := leave_ok h
        obtain ⟨hall, -⟩ := visitAll_ok (keeps_visitItem (serializeValue_seen fuel)) hinner
        refine writes_arr hr (hall.imp fun x text hx => ?_)
        rw [visitItem] at hx
        split at hx
        · rename_i homitted
          obtain ⟨value, rfl, hvalue⟩ := leaf_of_omitted homitted
          refine ⟨value, .leaf value, ?_⟩
          rw [if_pos hvalue]
          exact congrArg fst (some.inj hx)
        rename_i homitted
        obtain ⟨t, ht, htext⟩ := ih hx
        refine ⟨t, ht, ?_⟩
        rw [ht.omitted, if_neg homitted]
        exact htext
      · rename_i members hr
        obtain ⟨texts, seen₁, hinner, rfl⟩ := leave_ok h
        obtain ⟨hall, -⟩ := visitAll_ok (keeps_visitMember (serializeValue_seen fuel)) hinner
        refine writes_obj hr (hall.imp fun m text hm => ?_)
        obtain ⟨⟨res, seen₂⟩, hvisit, heq⟩ := map_eq_some_iff.mp hm
        obtain ⟨hres, -⟩ := mk.inj heq
        cases res with
        | error thrown => cases hres
        | ok valueText =>
          obtain ⟨t, ht, hvalue⟩ := ih hvisit
          exact ⟨t, valueText, ht, hvalue, (ok.inj hres).symm⟩

end Written

/-! ## What stops the walk -/

section Cycles

variable {ι : Type} [DecidableEq ι] {e : Engine} {g : Graph ι}

theorem serialize_isLeaf {value : JsValue} (h : isLeaf value = true) :
    ∃ text, serialize e value = .ok text := by
  cases value with
  | null => exact ⟨_, rfl⟩
  | bool b => exact ⟨_, rfl⟩
  | number x =>
    cases x with
    | finite q => exact ⟨_, rfl⟩
    | posInf => cases h
    | negInf => cases h
    | nan => cases h
  | negZero => exact ⟨_, rfl⟩
  | str s => exact ⟨_, rfl⟩
  | undefined => cases h
  | bigint n => cases h
  | symbol => cases h
  | function => cases h
  | date iso => cases h
  | buffer bytes => cases h
  | arr items => cases h
  | obj members => cases h

/-- A way from the object leads back to the set, or into a cycle. -/
def LeadsBack (g : Graph ι) (seen : Finset ι) (r : ι) : Prop :=
  ∃ s, ReflTransGen (Child g) r s ∧ (s ∈ seen ∨ TransGen (Child g) s s)

theorem LeadsBack.of_child {seen : Finset ι} {r c : ι} (hc : Child g r c)
    (h : LeadsBack g (insert r seen) c) : LeadsBack g seen r := by
  obtain ⟨s, hcs, hs | hcycle⟩ := h
  · rcases Finset.mem_insert.mp hs with rfl | hs
    · exact ⟨s, .refl, .inr (TransGen.head' hc hcs)⟩
    · exact ⟨s, .head hc hcs, .inl hs⟩
  · exact ⟨s, .head hc hcs, .inr hcycle⟩

theorem serializeValue_isLeaf {value : JsValue} (h : isLeaf value = true)
    (fuel : Nat) (seen : Finset ι) :
    ∃ text, serializeValue e g fuel seen (.leaf value) = some (.ok text, seen) := by
  obtain ⟨text, htext⟩ := @serialize_isLeaf e value h
  rw [serializeValue, htext]
  exact ⟨text, rfl⟩

/-- **ONLY A CYCLE STOPS THE WALK**. -/
theorem serializeValue_error (hleaves : PlainLeaves g) {fuel : Nat}
    {seen seen' : Finset ι} {x : GraphValue ι}
    (hx : ∀ value, x = .leaf value → isLeaf value = true) {thrown : Thrown}
    (h : serializeValue e g fuel seen x = some (.error thrown, seen')) :
    thrown = circularReference ∧ ∃ r, x = .ref r ∧ LeadsBack g seen r := by
  induction fuel generalizing seen seen' x with
  | zero =>
    cases x with
    | leaf value =>
      obtain ⟨text, htext⟩ := @serializeValue_isLeaf _ _ e g _ (hx value rfl) 0 seen
      cases h.symm.trans htext
    | ref r => cases h
  | succ fuel ih =>
    cases x with
    | leaf value =>
      obtain ⟨text, htext⟩ := @serializeValue_isLeaf _ _ e g _ (hx value rfl) (fuel + 1) seen
      cases h.symm.trans htext
    | ref r =>
      -- an error below comes from a child
      have hbelow : ∀ {c seen₁}, c ∈ (g r).values →
          serializeValue e g fuel (insert r seen) c = some (.error thrown, seen₁) →
          thrown = circularReference ∧ ∃ r', GraphValue.ref r = .ref r' ∧ LeadsBack g seen r' := by
        intro c seen₁ hc hvisit
        obtain ⟨hthrown, s, rfl, hback⟩ := ih (hleaves r c hc) hvisit
        exact ⟨hthrown, r, rfl, hback.of_child hc⟩
      rw [serializeValue] at h
      split at h
      · rename_i hseen
        obtain ⟨hthrown, -⟩ := mk.inj (some.inj h)
        exact ⟨(error.inj hthrown).symm, r, rfl, r, .refl, .inl hseen⟩
      split at h
      · rename_i items hr
        obtain ⟨seen₁, hinner⟩ := leave_error h
        obtain ⟨⟨item, hitem, hthrows⟩, -⟩ := visitAll_error
          (keeps_visitItem (serializeValue_seen fuel)) hinner
        rw [visitItem] at hthrows
        split at hthrows
        · cases hthrows
        refine hbelow ?_ hthrows
        rw [hr]
        exact hitem
      · rename_i members hr
        obtain ⟨seen₁, hinner⟩ := leave_error h
        obtain ⟨⟨m, hm, hthrows⟩, -⟩ := visitAll_error
          (keeps_visitMember (serializeValue_seen fuel)) hinner
        have hmember : m.2 ∈ (g r).values := by
          rw [hr]
          have hkept := (sortMembers_perm _).mem_iff.mp hm
          exact mem_map_of_mem (mem_filter.mp hkept).1
        obtain ⟨⟨res, seen₂⟩, hvisit, heq⟩ := map_eq_some_iff.mp hthrows
        obtain ⟨hres, -⟩ := mk.inj heq
        cases res with
        | ok valueText => cases hres
        | error thrown' =>
          obtain rfl := error.inj hres
          exact hbelow hmember hvisit

end Cycles

/-! ## Every graph -/

section Finite

variable {ι : Type} [DecidableEq ι] [Fintype ι]

/-- **EVERY FINITE GRAPH IS SERIALIZED OR REFUSED**: with enough fuel the walk
    answers; it throws exactly on a reachable cycle, and otherwise gives the
    text of the one tree the graph unfolds to. -/
theorem canonicalize_graph (e : Engine) (g : Graph ι)
    (hleaves : PlainLeaves g) (root : GraphValue ι)
    (hroot : ∀ value, root = .leaf value → isLeaf value = true)
    (fuel : Nat) (hfuel : Fintype.card ι < fuel) :
    ∃ result, canonicalizeGraph e g fuel root = some result
      ∧ (result = .error circularReference ↔ CycleReachable g root)
      ∧ (¬ CycleReachable g root → ∃ t text, result = .ok text ∧ canonicalize e t = .ok text
          ∧ ∀ u, Unfolds g root u ↔ u = t) := by
  obtain ⟨result, hvisit⟩ := serializeValue_total (e := e) (g := g)
    (Nat.lt_of_le_of_lt (Nat.sub_le _ (∅ : Finset ι).card) hfuel) root
  refine ⟨result, by rw [canonicalizeGraph, hvisit]; rfl, ?_⟩
  cases result with
  | error thrown =>
    obtain ⟨rfl, r, rfl, s, hrs, hs | hcycle⟩ := serializeValue_error hleaves hroot hvisit
    · exact absurd hs (Finset.notMem_empty s)
    have hreach : CycleReachable g (.ref r) := ⟨r, s, rfl, hrs, hcycle⟩
    exact ⟨iff_of_true rfl hreach, fun hnone => absurd hreach hnone⟩
  | ok text =>
    obtain ⟨t, ht, htext⟩ := serializeValue_ok hvisit
    refine ⟨iff_of_false nofun ht.no_cycle, fun _ => ?_⟩
    refine ⟨t, text, rfl, htext, fun u => ⟨fun hu => hu.unique ht, ?_⟩⟩
    rintro rfl
    exact ht

end Finite

/-- `{"a":x,"b":x}` with one array `x = [1]`. -/
def sharedGraph : Graph (Fin 2)
  | 0 => .obj [(ascii "a", .ref 1), (ascii "b", .ref 1)]
  | 1 => .arr [.leaf (.number 1)]

theorem plainLeaves_sharedGraph : PlainLeaves sharedGraph := by
  intro r x hx value hvalue
  subst hvalue
  match r, hx with
  | 0, hx => simp [sharedGraph, GraphObject.values] at hx
  | 1, hx =>
    simp only [sharedGraph, GraphObject.values, mem_singleton, GraphValue.leaf.injEq] at hx
    rw [hx]
    rfl

/-- An object shared by two members is on no cycle, and stands for one tree. -/
theorem canonicalize_graph_shared : ¬ CycleReachable sharedGraph (.ref 0)
    ∧ ∃ t, canonicalize sampleEngine t = .ok (ascii "\x7b\"a\":[1],\"b\":[1]\x7d")
      ∧ ∀ u, Unfolds sharedGraph (.ref 0) u ↔ u = t := by
  obtain ⟨result, hrun, hcycle, hok⟩ := canonicalize_graph sampleEngine sharedGraph
    plainLeaves_sharedGraph (.ref 0) nofun 3 (by decide)
  have hshared : canonicalizeGraph sampleEngine sharedGraph 3 (.ref 0)
      = some (.ok (ascii "\x7b\"a\":[1],\"b\":[1]\x7d")) := by decide +kernel
  obtain rfl := Option.some.inj (hshared.symm.trans hrun)
  have hacyclic : ¬ CycleReachable sharedGraph (.ref 0) := fun h => nomatch hcycle.mpr h
  obtain ⟨t, text, htext, hcanonical, hunique⟩ := hok hacyclic
  obtain rfl := ok.inj htext
  exact ⟨hacyclic, t, hcanonical, hunique⟩

end Canonical

import Mathlib.Algebra.GroupWithZero.Nat
import Mathlib.Data.List.Sort
import Mathlib.Data.List.Lex
import Mathlib.Data.Rat.Defs

/-!
# JSON trees and JSON text over UTF-16 code units

A text is a list of code units, compared code unit by code unit.  A tree is
a JSON value with its members in some order; the two zeros are different
numbers.

`parse` is a JSON reader: it follows the grammar, skips white space, and
keeps the last of several members with one key.  What a number token
denotes is a parameter.

`Same` is equality of trees up to member order and the sign of zero.
`sortKeys` picks one tree of each class, so `Same` can be decided by it
(`sortKeys_eq_of_same`, `same_sortKeys`).
-/

namespace JsonText

open List Nat

abbrev CodeUnit := Fin 65536

abbrev Text := List CodeUnit

instance neZero_byte : NeZero 256 := ⟨by decide⟩

instance neZero_codeUnit : NeZero 65536 := ⟨by decide⟩

instance lawfulBEq_codeUnit : LawfulBEq CodeUnit := inferInstance

instance lawfulBEq_text : LawfulBEq Text := inferInstance

/-- The code unit of an ASCII character. -/
def unit (c : Char) : CodeUnit := Fin.ofNat 65536 c.toNat

def ascii (s : String) : Text := s.toList.map unit

inductive Number where
  | negZero
  | finite (value : ℚ)
  deriving DecidableEq

inductive Tree where
  | null
  | bool (value : Bool)
  | num (value : Number)
  | str (value : Text)
  | arr (items : List Tree)
  | obj (members : List (Text × Tree))

/-- **INDUCTION ON TREES**: a fact about the items of an array, or about the
    values of an object, carries over to it. -/
theorem tree_induct {P : Tree → Prop} (hnull : P .null)
    (hbool : ∀ b, P (.bool b)) (hnum : ∀ x, P (.num x)) (hstr : ∀ s, P (.str s))
    (harr : ∀ items, (∀ x ∈ items, P x) → P (.arr items))
    (hobj : ∀ members, (∀ m ∈ members, P m.2) → P (.obj members)) (t : Tree) : P t := by
  refine @Tree.rec P (fun items => ∀ x ∈ items, P x)
    (fun members => ∀ m ∈ members, P m.2) (fun m => P m.2)
    hnull hbool hnum hstr harr hobj ?_ ?_ ?_ ?_ ?_ t
  · exact nofun
  · intro x rest hx hrest y hy
    rcases mem_cons.mp hy with rfl | hy
    · exact hx
    · exact hrest y hy
  · exact nofun
  · intro m rest hm hrest m' hm'
    rcases mem_cons.mp hm' with rfl | hm'
    · exact hm
    · exact hrest m' hm'
  · exact fun _ _ h => h

/-! ## Reading text -/

def isSpace (c : CodeUnit) : Bool :=
  c == 32 || c == 9 || c == 10 || c == 13

def skipSpace (text : Text) : Text := text.dropWhile isSpace

def isDigit (c : CodeUnit) : Bool := decide (48 ≤ c) && decide (c ≤ 57)

/-- The value of a hexadecimal digit. -/
def hexValue (c : CodeUnit) : Option Nat :=
  if 48 ≤ c ∧ c ≤ 57 then some (c - 48)
  else if 97 ≤ c ∧ c ≤ 102 then some (c - 87)
  else if 65 ≤ c ∧ c ≤ 70 then some (c - 55)
  else none

/-- The code unit named by four hexadecimal digits. -/
def hexUnit (a b c d : CodeUnit) : Option CodeUnit :=
  match hexValue a, hexValue b, hexValue c, hexValue d with
  | some a, some b, some c, some d => some (Fin.ofNat 65536 (((a * 16 + b) * 16 + c) * 16 + d))
  | _, _, _, _ => none

/-- The code unit of a one letter escape. -/
def simpleEscape (c : CodeUnit) : Option CodeUnit :=
  if c = unit '"' then some (unit '"')
  else if c = unit '\\' then some (unit '\\')
  else if c = unit '/' then some (unit '/')
  else if c = unit 'b' then some 8
  else if c = unit 'f' then some 12
  else if c = unit 'n' then some 10
  else if c = unit 'r' then some 13
  else if c = unit 't' then some 9
  else none

/-- The rest of a string, after its opening quote. -/
def readString : Text → Option (Text × Text)
  | [] => none
  | c :: rest =>
    if c = unit '"' then some ([], rest)
    else if c = unit '\\' then
      match rest with
      | [] => none
      | e :: rest =>
        if e = unit 'u' then
          match rest with
          | h₁ :: h₂ :: h₃ :: h₄ :: rest =>
            (hexUnit h₁ h₂ h₃ h₄).bind (fun u =>
              (readString rest).map (fun out => (u :: out.1, out.2)))
          | _ => none
        else
          (simpleEscape e).bind (fun u => (readString rest).map (fun out => (u :: out.1, out.2)))
    else if c < 32 then none
    else (readString rest).map (fun out => (c :: out.1, out.2))

theorem readString_close {text : Text} : readString (unit '"' :: text) = some ([], text) := by
  rw [readString.eq_def]
  simp only [if_true]

def isNumberUnit (c : CodeUnit) : Bool :=
  isDigit c || c == unit '-' || c == unit '+' || c == unit '.'
    || c == unit 'e' || c == unit 'E'

/-- What follows an optional sign of the given kind. -/
def afterSign (signs : List CodeUnit) : Text → Text
  | [] => []
  | c :: rest => if c ∈ signs then rest else c :: rest

/-- What follows one or more digits. -/
def afterDigits (text : Text) : Option Text :=
  match text with
  | [] => none
  | c :: rest => if isDigit c then some (rest.dropWhile isDigit) else none

/-- What follows the integer part: a zero, or digits that do not start with
    one. -/
def afterInteger : Text → Option Text
  | [] => none
  | c :: rest => if c = unit '0' then some rest else afterDigits (c :: rest)

def afterFraction : Text → Option Text
  | [] => some []
  | c :: rest => if c = unit '.' then afterDigits rest else some (c :: rest)

def afterExponent : Text → Option Text
  | [] => some []
  | c :: rest =>
    if c = unit 'e' ∨ c = unit 'E' then
      afterDigits (afterSign [unit '+', unit '-'] rest)
    else some (c :: rest)

/-- The grammar of numbers. -/
def isJsonNumber (text : Text) : Bool :=
  (((afterInteger (afterSign [unit '-'] text)).bind afterFraction).bind afterExponent) == some []

/-- A number token ends before the first code unit no number has. -/
def readNumber (read : Text → Option Number) (text : Text) : Option (Number × Text) :=
  let token := text.takeWhile isNumberUnit
  if isJsonNumber token then
    (read token).map (fun x => (x, text.dropWhile isNumberUnit))
  else none

/-- What follows a literal name. -/
def afterName (name text : Text) : Option Text :=
  if name.isPrefixOf text then some (text.drop name.length) else none

/-- Define a property: a later value takes the place of an earlier one. -/
def setMember (key : Text) (value : Tree) : List (Text × Tree) → List (Text × Tree)
  | [] => [(key, value)]
  | m :: rest =>
    if m.1 = key then (key, value) :: rest
    else m :: setMember key value rest

def defineMembers (members : List (Text × Tree)) : List (Text × Tree) :=
  members.foldl (fun defined m => setMember m.1 m.2 defined) []

mutual

def parseValue (read : Text → Option Number) : Nat → Text → Option (Tree × Text)
  | 0, _ => none
  | fuel + 1, text =>
    match skipSpace text with
    | [] => none
    | c :: rest =>
      if c = unit '"' then
        (readString rest).map (fun out => (.str out.1, out.2))
      else if c = unit '[' then
        match skipSpace rest with
        | [] => none
        | d :: rest =>
          if d = unit ']' then some (.arr [], rest)
          else (parseItems read fuel (d :: rest)).map (fun out => (.arr out.1, out.2))
      else if c = unit '\x7b' then
        match skipSpace rest with
        | [] => none
        | d :: rest =>
          if d = unit '\x7d' then some (.obj [], rest)
          else (parseMembers read fuel (d :: rest)).map
            (fun out => (.obj (defineMembers out.1), out.2))
      else if c = unit 'n' then
        (afterName (ascii "null") (c :: rest)).map (fun r => (.null, r))
      else if c = unit 't' then
        (afterName (ascii "true") (c :: rest)).map (fun r => (.bool true, r))
      else if c = unit 'f' then
        (afterName (ascii "false") (c :: rest)).map (fun r => (.bool false, r))
      else
        (readNumber read (c :: rest)).map (fun out => (.num out.1, out.2))

/-- One or more items, and the closing bracket. -/
def parseItems (read : Text → Option Number) : Nat → Text → Option (List Tree × Text)
  | 0, _ => none
  | fuel + 1, text =>
    match parseValue read fuel text with
    | none => none
    | some (x, rest) =>
      match skipSpace rest with
      | [] => none
      | c :: rest =>
        if c = unit ']' then some ([x], rest)
        else if c = unit ',' then
          (parseItems read fuel rest).map (fun out => (x :: out.1, out.2))
        else none

/-- One or more members, and the closing brace. -/
def parseMembers (read : Text → Option Number) : Nat → Text → Option (List (Text × Tree) × Text)
  | 0, _ => none
  | fuel + 1, text =>
    match parseMember read fuel text with
    | none => none
    | some (m, rest) =>
      match skipSpace rest with
      | [] => none
      | c :: rest =>
        if c = unit '\x7d' then some ([m], rest)
        else if c = unit ',' then
          (parseMembers read fuel rest).map (fun out => (m :: out.1, out.2))
        else none

def parseMember (read : Text → Option Number) : Nat → Text → Option ((Text × Tree) × Text)
  | 0, _ => none
  | fuel + 1, text =>
    match skipSpace text with
    | [] => none
    | c :: rest =>
      if c = unit '"' then
        match readString rest with
        | none => none
        | some (key, rest) =>
          match skipSpace rest with
          | [] => none
          | c :: rest =>
            if c = unit ':' then
              (parseValue read fuel rest).map (fun out => ((key, out.1), out.2))
            else none
      else none

end

/-- `JSON.parse`: one value, white space, and the end. -/
def parse (read : Text → Option Number) (text : Text) : Option Tree :=
  match parseValue read (text.length + 1) text with
  | none => none
  | some (t, rest) => if skipSpace rest = [] then some t else none

section Strings

variable {c u : CodeUnit} {text : Text}

theorem readString_plain (hquote : c ≠ unit '"') (hslash : c ≠ unit '\\')
    (hcontrol : ¬ c < 32) : readString (c :: text)
      = (readString text).map (fun out => (c :: out.1, out.2)) := by
  rw [readString.eq_def]
  simp only [if_neg hquote, if_neg hslash, if_neg hcontrol]

theorem readString_letter (hc : c ≠ unit 'u') (h : simpleEscape c = some u) :
    readString (unit '\\' :: c :: text)
      = (readString text).map (fun out => (u :: out.1, out.2)) := by
  rw [readString.eq_def]
  simp only [if_neg (show unit '\\' ≠ unit '"' by decide), if_true, if_neg hc, h]
  rfl

theorem readString_hex {h₁ h₂ h₃ h₄ : CodeUnit} (h : hexUnit h₁ h₂ h₃ h₄ = some u) :
    readString (unit '\\' :: unit 'u' :: h₁ :: h₂ :: h₃ :: h₄ :: text)
      = (readString text).map (fun out => (u :: out.1, out.2)) := by
  rw [readString.eq_def]
  simp only [if_neg (show unit '\\' ≠ unit '"' by decide), if_true, h]
  rfl

end Strings

/-! ## Equality up to member order -/

/-- Equal up to the order of members at every level, and up to the sign of
    zero: the least equivalence that lets the members of an object trade
    places and one part of a tree be replaced by an equivalent one. -/
inductive Same : Tree → Tree → Prop where
  | refl (t : Tree) : Same t t
  | symm {t u : Tree} : Same t u → Same u t
  | trans {t u v : Tree} : Same t u → Same u v → Same t v
  | zero : Same (.num .negZero) (.num (.finite 0))
  | item (front rest : List Tree) {x y : Tree} :
      Same x y → Same (.arr (front ++ x :: rest)) (.arr (front ++ y :: rest))
  | member (front rest : List (Text × Tree)) (key : Text) {x y : Tree} :
      Same x y → Same (.obj (front ++ (key, x) :: rest)) (.obj (front ++ (key, y) :: rest))
  | order {members members' : List (Text × Tree)} :
      members.Perm members' → Same (.obj members) (.obj members')

theorem Same.items {f : Tree → Tree} (front items : List Tree) (h : ∀ x ∈ items, Same x (f x)) :
    Same (.arr (front ++ items)) (.arr (front ++ items.map f)) := by
  induction items generalizing front with
  | nil => exact .refl _
  | cons x rest ih =>
    have hx := Same.item front rest (h x (.head _))
    have hrest := ih (front ++ [f x]) (fun y hy => h y (.tail _ hy))
    rw [append_assoc, append_assoc] at hrest
    exact hx.trans hrest

/-- Replacing several values at once. -/
theorem Same.members {f : Tree → Tree} (front members : List (Text × Tree))
    (h : ∀ m ∈ members, Same m.2 (f m.2)) :
    Same (.obj (front ++ members)) (.obj (front ++ members.map (fun m => (m.1, f m.2)))) := by
  induction members generalizing front with
  | nil => exact .refl _
  | cons m rest ih =>
    have hm := Same.member front rest m.1 (h m (.head _))
    have hrest := ih (front ++ [(m.1, f m.2)]) (fun m' hm' => h m' (.tail _ hm'))
    rw [append_assoc, append_assoc] at hrest
    exact hm.trans hrest

/-! ## Properties of every part of a tree -/

mutual

/-- A property of a tree and of all its parts. -/
def Every (P : Tree → Prop) : Tree → Prop
  | .null => P .null
  | .bool b => P (.bool b)
  | .num x => P (.num x)
  | .str s => P (.str s)
  | .arr items => P (.arr items) ∧ EveryItem P items
  | .obj members => P (.obj members) ∧ EveryMember P members

def EveryItem (P : Tree → Prop) : List Tree → Prop
  | [] => True
  | x :: rest => Every P x ∧ EveryItem P rest

def EveryMember (P : Tree → Prop) : List (Text × Tree) → Prop
  | [] => True
  | (_, x) :: rest => Every P x ∧ EveryMember P rest

end

section Every

variable {P : Tree → Prop} {items : List Tree} {members : List (Text × Tree)}

theorem everyItem_iff : EveryItem P items ↔ ∀ x ∈ items, Every P x := by
  induction items with
  | nil => exact iff_of_true trivial nofun
  | cons x rest ih =>
    rw [forall_mem_cons, ← ih]
    rfl

theorem everyMember_iff : EveryMember P members ↔ ∀ m ∈ members, Every P m.2 := by
  induction members with
  | nil => exact iff_of_true trivial nofun
  | cons m rest ih =>
    rw [forall_mem_cons, ← ih]
    rfl

theorem every_arr : Every P (.arr items) ↔ P (.arr items) ∧ ∀ x ∈ items, Every P x := by
  rw [← everyItem_iff]
  rfl

theorem every_obj : Every P (.obj members) ↔ P (.obj members) ∧ ∀ m ∈ members, Every P m.2 := by
  rw [← everyMember_iff]
  rfl

variable {Q : Tree → Prop} {t : Tree}

theorem Every.imp (h : ∀ u, P u → Q u) (ht : Every P t) : Every Q t := by
  induction t using tree_induct with
  | hnull => exact h _ ht
  | hbool b => exact h _ ht
  | hnum x => exact h _ ht
  | hstr s => exact h _ ht
  | harr items ih =>
    obtain ⟨hself, hitems⟩ := every_arr.mp ht
    exact every_arr.mpr ⟨h _ hself, fun x hx => ih x hx (hitems x hx)⟩
  | hobj members ih =>
    obtain ⟨hself, hmembers⟩ := every_obj.mp ht
    exact every_obj.mpr ⟨h _ hself, fun m hm => ih m hm (hmembers m hm)⟩

theorem every_and (h : Every P t) (h' : Every Q t) : Every (fun u => P u ∧ Q u) t := by
  induction t using tree_induct with
  | hnull => exact ⟨h, h'⟩
  | hbool b => exact ⟨h, h'⟩
  | hnum x => exact ⟨h, h'⟩
  | hstr s => exact ⟨h, h'⟩
  | harr items ih =>
    obtain ⟨hself, hitems⟩ := every_arr.mp h
    obtain ⟨hself', hitems'⟩ := every_arr.mp h'
    exact every_arr.mpr ⟨⟨hself, hself'⟩, fun x hx => ih x hx (hitems x hx) (hitems' x hx)⟩
  | hobj members ih =>
    obtain ⟨hself, hmembers⟩ := every_obj.mp h
    obtain ⟨hself', hmembers'⟩ := every_obj.mp h'
    exact every_obj.mpr ⟨⟨hself, hself'⟩, fun m hm => ih m hm (hmembers m hm) (hmembers' m hm)⟩

end Every

def keys {V : Type} (members : List (Text × V)) : List Text :=
  members.map Prod.fst

/-- The keys of an object; nothing else has any. -/
def keysOf : Tree → List Text
  | .obj members => keys members
  | _ => []

/-- No object has two members with one key. -/
abbrev Distinct (t : Tree) : Prop := Every (fun u => (keysOf u).Nodup) t

/-! ## Sorted trees -/

/-- Sort members by their keys. -/
def sortMembers {V : Type} (members : List (Text × V)) : List (Text × V) :=
  members.insertionSort (fun a b => a.1 ≤ b.1)

section Sorting

variable {V : Type} {members members' : List (Text × V)}

theorem sortMembers_perm (members : List (Text × V)) : (sortMembers members).Perm members :=
  perm_insertionSort _ members

theorem keys_sortMembers_perm (members : List (Text × V)) :
    (keys (sortMembers members)).Perm (keys members) :=
  (sortMembers_perm members).map Prod.fst

theorem sortMembers_ascending (h : (keys members).Nodup) :
    (sortMembers members).Pairwise (fun a b => a.1 < b.1) := by
  have : Std.Total (fun a b : Text × V => a.1 ≤ b.1) := ⟨fun a b => le_total a.1 b.1⟩
  have : IsTrans (Text × V) (fun a b => a.1 ≤ b.1) := ⟨fun a b c hab hbc => le_trans hab hbc⟩
  have hle := pairwise_insertionSort (fun a b : Text × V => a.1 ≤ b.1) members
  have hnodup : (keys (sortMembers members)).Nodup :=
    (keys_sortMembers_perm members).nodup_iff.mpr h
  have hne := pairwise_map.mp hnodup
  exact Pairwise.imp (fun hboth => lt_of_le_of_ne hboth.1 hboth.2) (hle.and hne)

theorem eq_of_ascending (h : members.Pairwise (fun a b => a.1 < b.1))
    (h' : members'.Pairwise (fun a b => a.1 < b.1))
    (hperm : members.Perm members') : members = members' := by
  refine Perm.eq_of_pairwise ?_ h h' hperm
  intro a b _ _ hab hba
  exact absurd hba (lt_asymm hab)

theorem sortMembers_eq_of_perm (h : (keys members).Nodup) (hperm : members.Perm members') :
    sortMembers members = sortMembers members' := by
  have hperm' : (sortMembers members).Perm (sortMembers members') :=
    ((sortMembers_perm members).trans hperm).trans (sortMembers_perm members').symm
  have hkeys : (keys members').Nodup := (hperm.map Prod.fst).nodup_iff.mp h
  exact eq_of_ascending (sortMembers_ascending h) (sortMembers_ascending hkeys) hperm'

theorem sortMembers_map {W : Type} (f : V → W) (members : List (Text × V)) :
    sortMembers (members.map (fun m => (m.1, f m.2)))
      = (sortMembers members).map (fun m => (m.1, f m.2)) := by
  refine (map_insertionSort _ _ _ _ ?_).symm
  intro a _ b _
  exact Iff.rfl

end Sorting

mutual

/-- Sort every object and drop the sign of zero. -/
def sortKeys : Tree → Tree
  | .null => .null
  | .bool b => .bool b
  | .num .negZero => .num (.finite 0)
  | .num (.finite q) => .num (.finite q)
  | .str s => .str s
  | .arr items => .arr (sortItems items)
  | .obj members => .obj (sortMembers (sortValues members))

def sortItems : List Tree → List Tree
  | [] => []
  | x :: rest => sortKeys x :: sortItems rest

def sortValues : List (Text × Tree) → List (Text × Tree)
  | [] => []
  | (key, x) :: rest => (key, sortKeys x) :: sortValues rest

end

theorem sortItems_eq (items : List Tree) : sortItems items = items.map sortKeys := by
  induction items with
  | nil => rfl
  | cons x rest ih => rw [sortItems, ih, map_cons]

theorem sortValues_eq (members : List (Text × Tree)) :
    sortValues members = members.map (fun m => (m.1, sortKeys m.2)) := by
  induction members with
  | nil => rfl
  | cons m rest ih =>
    obtain ⟨key, x⟩ := m
    rw [sortValues, ih, map_cons]

theorem keys_sortValues (members : List (Text × Tree)) :
    keys (sortValues members) = keys members := by
  rw [sortValues_eq, keys, map_map]
  rfl

theorem same_sortKeys (t : Tree) : Same t (sortKeys t) := by
  induction t using tree_induct with
  | hnull => exact .refl _
  | hbool b => exact .refl _
  | hnum x =>
    cases x with
    | negZero => exact .zero
    | finite q => exact .refl _
  | hstr s => exact .refl _
  | harr items ih =>
    rw [sortKeys, sortItems_eq]
    exact Same.items [] items ih
  | hobj members ih =>
    rw [sortKeys, sortValues_eq]
    refine (Same.members [] members ih).trans (.order ?_)
    exact (sortMembers_perm _).symm

theorem sortKeys_eq_of_same {t u : Tree} (h : Same t u) :
    (Distinct t ↔ Distinct u) ∧ (Distinct t → sortKeys t = sortKeys u) := by
  induction h with
  | refl t => exact ⟨Iff.rfl, fun _ => rfl⟩
  | symm _ ih => exact ⟨ih.1.symm, fun hu => (ih.2 (ih.1.mpr hu)).symm⟩
  | trans _ _ ih₁ ih₂ => exact ⟨ih₁.1.trans ih₂.1, fun ht => (ih₁.2 ht).trans (ih₂.2 (ih₁.1.mp ht))⟩
  | zero => exact ⟨Iff.rfl, fun _ => rfl⟩
  | item front rest _ ih =>
    constructor
    · have hiff := ih.1
      simp only [Distinct, every_arr, keysOf, forall_mem_append, forall_mem_cons] at hiff ⊢
      rw [hiff]
    intro hd
    have hx := (every_arr.mp hd).2 _ (mem_append_right front (.head _))
    simp only [sortKeys, sortItems_eq, map_append, map_cons, ih.2 hx]
  | member front rest key _ ih =>
    constructor
    · have hiff := ih.1
      simp only [Distinct, every_obj, keysOf, forall_mem_append,
        forall_mem_cons, keys, map_append, map_cons]
        at hiff ⊢
      rw [hiff]
    intro hd
    have hx := (every_obj.mp hd).2 _ (mem_append_right front (.head _))
    simp only [sortKeys, sortValues_eq, map_append, map_cons, ih.2 hx]
  | order hperm =>
    constructor
    · simp only [Distinct, every_obj, keysOf, (hperm.map Prod.fst).nodup_iff, keys, hperm.mem_iff]
    intro hd
    rw [sortKeys, sortKeys, sortValues_eq, sortValues_eq]
    refine congrArg Tree.obj (sortMembers_eq_of_perm ?_ (hperm.map _))
    rw [← sortValues_eq, keys_sortValues]
    exact (every_obj.mp hd).1

/-! ## Writing text -/

/-- How strings and numbers are written. -/
structure Writer where
  quote : Text → Text
  number : Number → Text

/-- `texts.join(',')`. -/
def join : List Text → Text
  | [] => []
  | [x] => x
  | x :: y :: rest => x ++ unit ',' :: join (y :: rest)

def bracketed (text : Text) : Text := unit '[' :: (text ++ [unit ']'])

def braced (text : Text) : Text := unit '\x7b' :: (text ++ [unit '\x7d'])

mutual

/-- A tree written without white space, members in the order it has them. -/
def writeTree (w : Writer) : Tree → Text
  | .null => ascii "null"
  | .bool b => ascii (if b then "true" else "false")
  | .num x => w.number x
  | .str s => w.quote s
  | .arr items => bracketed (join (writeItems w items))
  | .obj members => braced (join (writeMembers w members))

def writeItems (w : Writer) : List Tree → List Text
  | [] => []
  | x :: rest => writeTree w x :: writeItems w rest

def writeMembers (w : Writer) : List (Text × Tree) → List Text
  | [] => []
  | (key, x) :: rest => (w.quote key ++ unit ':' :: writeTree w x) :: writeMembers w rest

end

/-- What a writer writes is read back, for the numbers `ok` admits. -/
structure Writer.ReadBy (w : Writer) (read : Text → Option Number) (ok : Number → Prop) : Prop where
  quoted : ∀ s, ∃ body, w.quote s = unit '"' :: body
    ∧ ∀ rest, readString (body ++ rest) = some (s, rest)
  isNumber : ∀ x, ok x → isJsonNumber (w.number x) = true
  reads : ∀ x, ok x → read (w.number x) = some x

/-! ## Number tokens -/

/-- `rest` is what follows some code units of a number in `text`. -/
def Consumes (text rest : Text) : Prop :=
  ∃ front, text = front ++ rest ∧ ∀ c ∈ front, isNumberUnit c = true

theorem Consumes.refl (text : Text) : Consumes text text :=
  ⟨[], rfl, nofun⟩

theorem Consumes.trans {a b c : Text} (hab : Consumes a b) (hbc : Consumes b c) : Consumes a c := by
  obtain ⟨front, rfl, hfront⟩ := hab
  obtain ⟨front', rfl, hfront'⟩ := hbc
  refine ⟨front ++ front', (append_assoc _ _ _).symm, ?_⟩
  intro c hc
  rcases mem_append.mp hc with hc | hc
  · exact hfront c hc
  · exact hfront' c hc

variable {text rest : Text} {c : CodeUnit}

theorem Consumes.one (h : isNumberUnit c = true) (rest : Text) : Consumes (c :: rest) rest :=
  ⟨[c], rfl, fun d hd => by rw [mem_singleton.mp hd]; exact h⟩

theorem isNumberUnit_of_isDigit (h : isDigit c = true) : isNumberUnit c = true := by
  simp [isNumberUnit, h]

theorem afterDigits_consumes (h : afterDigits text = some rest) : Consumes text rest := by
  cases text with
  | nil => cases h
  | cons c tail =>
    rw [afterDigits] at h
    split at h
    · rename_i hc
      cases h
      refine (Consumes.one (isNumberUnit_of_isDigit hc) tail).trans ?_
      refine ⟨tail.takeWhile isDigit, (takeWhile_append_dropWhile).symm, ?_⟩
      intro d hd
      exact isNumberUnit_of_isDigit (all_eq_true.mp all_takeWhile d hd)
    · cases h

theorem afterSign_consumes {signs : List CodeUnit}
    (h : ∀ c ∈ signs, isNumberUnit c = true) (text : Text) :
    Consumes text (afterSign signs text) := by
  cases text with
  | nil => exact .refl _
  | cons c rest =>
    rw [afterSign]
    split
    · rename_i hc
      exact .one (h c hc) rest
    · exact .refl _

theorem afterInteger_consumes (h : afterInteger text = some rest) : Consumes text rest := by
  cases text with
  | nil => cases h
  | cons c tail =>
    rw [afterInteger] at h
    split at h
    · rename_i hc
      obtain rfl := Option.some.inj h
      rw [hc]
      exact .one (by decide) tail
    · exact afterDigits_consumes h

theorem afterFraction_consumes (h : afterFraction text = some rest) : Consumes text rest := by
  cases text with
  | nil => exact Option.some.inj h ▸ .refl _
  | cons c tail =>
    rw [afterFraction] at h
    split at h
    · rename_i hc
      rw [hc]
      exact (Consumes.one (by decide) tail).trans (afterDigits_consumes h)
    · exact Option.some.inj h ▸ .refl _

theorem isNumberUnit_signs : ∀ c ∈ [unit '+', unit '-'], isNumberUnit c = true := by
  intro c hc
  rcases mem_pair.mp hc with rfl | rfl
  · decide
  · decide

theorem afterExponent_consumes (h : afterExponent text = some rest) : Consumes text rest := by
  cases text with
  | nil => exact Option.some.inj h ▸ .refl _
  | cons c tail =>
    rw [afterExponent] at h
    split at h
    · rename_i hc
      have hunit : isNumberUnit c = true := by
        rcases hc with rfl | rfl
        · decide
        · decide
      exact ((Consumes.one hunit tail).trans
        (afterSign_consumes isNumberUnit_signs tail)).trans (afterDigits_consumes h)
    · exact Option.some.inj h ▸ .refl _

theorem isJsonNumber_units {text : Text} (h : isJsonNumber text = true) :
    text ≠ [] ∧ ∀ c ∈ text, isNumberUnit c = true := by
  have hminus : ∀ c ∈ [unit '-'], isNumberUnit c = true :=
    fun c hc => isNumberUnit_signs c (.tail _ hc)
  rw [isJsonNumber, beq_iff_eq] at h
  obtain ⟨b, hb, hend⟩ := Option.bind_eq_some_iff.mp h
  obtain ⟨a, ha, hfrac⟩ := Option.bind_eq_some_iff.mp hb
  constructor
  · rintro rfl
    cases ha
  obtain ⟨front, hfront, hunits⟩ :=
    (((afterSign_consumes hminus text).trans (afterInteger_consumes ha)).trans
      (afterFraction_consumes hfrac)).trans (afterExponent_consumes hend)
  rw [append_nil] at hfront
  rw [hfront]
  exact hunits

/-- The text after a value: nothing that could belong to a number. -/
def Ends (rest : Text) : Prop :=
  ∀ c tail, rest = c :: tail → isNumberUnit c = false

theorem ends_nil : Ends [] := nofun

theorem ends_cons (h : isNumberUnit c = false) (tail : Text) : Ends (c :: tail) := by
  rintro d tail' heq
  rw [← (cons.inj heq).1]
  exact h

theorem readNumber_token {read : Text → Option Number} {token : Text}
    {x : Number} (htoken : isJsonNumber token = true)
    (hread : read token = some x) {rest : Text} (hrest : Ends rest) :
    readNumber read (token ++ rest) = some (x, rest) := by
  have hunits := (isJsonNumber_units htoken).2
  have htake : (token ++ rest).takeWhile isNumberUnit = token := by
    rw [takeWhile_append_of_pos hunits]
    cases rest with
    | nil => simp
    | cons c tail =>
      rw [takeWhile_cons_of_neg, append_nil]
      rw [hrest c tail rfl]
      exact Bool.false_ne_true
  have hdrop : (token ++ rest).dropWhile isNumberUnit = rest := by
    rw [dropWhile_append_of_pos hunits]
    cases rest with
    | nil => rfl
    | cons c tail =>
      rw [dropWhile_cons_of_neg]
      rw [hrest c tail rfl]
      exact Bool.false_ne_true
  rw [readNumber]
  simp only [htake, htoken, if_true, hread, hdrop]
  rfl

/-! ## Reading what was written -/

theorem skipSpace_cons {c : CodeUnit} (h : isSpace c = false) (rest : Text) :
    skipSpace (c :: rest) = c :: rest := by
  rw [skipSpace, dropWhile_cons_of_neg]
  rw [h]
  exact Bool.false_ne_true

theorem join_cons (x : Text) {rest : List Text} (h : rest ≠ []) :
    join (x :: rest) = x ++ unit ',' :: join rest := by
  cases rest with
  | nil => exact absurd rfl h
  | cons y rest => rfl

variable {members : List (Text × Tree)}

theorem setMember_append {key : Text} {value : Tree} (h : key ∉ keys members) :
    setMember key value members = members ++ [(key, value)] := by
  induction members with
  | nil => rfl
  | cons m rest ih =>
    rw [keys, map_cons, mem_cons, not_or] at h
    rw [setMember, if_neg (Ne.symm h.1), ih h.2]
    rfl

theorem defineMembers_of_nodup (h : (keys members).Nodup) : defineMembers members = members := by
  have hgo : ∀ (defined rest : List (Text × Tree)), (keys (defined ++ rest)).Nodup →
      rest.foldl (fun defined m => setMember m.1 m.2 defined) defined = defined ++ rest := by
    intro defined rest
    induction rest generalizing defined with
    | nil => intro _; exact (append_nil _).symm
    | cons m rest ih =>
      intro hnodup
      have hnew : m.1 ∉ keys defined := by
        rw [keys, map_append, nodup_append'] at hnodup
        exact disjoint_right.mp hnodup.2.2 (.head _)
      rw [foldl_cons, setMember_append hnew]
      have hstep := ih (defined ++ [(m.1, m.2)])
      rw [append_assoc] at hstep
      exact hstep hnodup
  exact hgo [] members h

section Reading

variable {w : Writer} {read : Text → Option Number} {ok : Number → Prop}

/-- The text of `t` is read as `t`, up to where it ends. -/
def ReadsBack (w : Writer) (read : Text → Option Number) (t : Tree) : Prop :=
  ∀ fuel rest, (writeTree w t).length ≤ fuel → Ends rest →
    parseValue read fuel (writeTree w t ++ rest) = some (t, rest)

/-- A text that starts as a value does is no closing bracket and no space. -/
def Starts (text : Text) : Prop :=
  ∃ c tail, text = c :: tail ∧ isSpace c = false ∧ c ≠ unit ']' ∧ c ≠ unit '\x7d'

theorem starts_number {c : CodeUnit} (h : isNumberUnit c = true) :
    isSpace c = false ∧ c ≠ unit ']' ∧ c ≠ unit '\x7d' ∧ c ≠ unit '"'
      ∧ c ≠ unit '[' ∧ c ≠ unit '\x7b' ∧ c ≠ unit 'n' ∧ c ≠ unit 't' ∧ c ≠ unit 'f' := by
  refine ⟨?_, ?_, ?_, ?_, ?_, ?_, ?_, ?_, ?_⟩
  · cases hs : isSpace c with
    | false => rfl
    | true =>
      simp only [isSpace, Bool.or_eq_true, beq_iff_eq] at hs
      rcases hs with ((rfl | rfl) | rfl) | rfl
      · exact absurd h (by decide)
      · exact absurd h (by decide)
      · exact absurd h (by decide)
      · exact absurd h (by decide)
  all_goals
    rintro rfl
    exact absurd h (by decide)

variable {t : Tree} {rest : Text} {fuel : Nat}

theorem writeTree_starts (hw : w.ReadBy read ok)
    (hok : ∀ x, t = .num x → ok x) : Starts (writeTree w t) := by
  cases t with
  | null => exact ⟨_, _, rfl, by decide, by decide, by decide⟩
  | bool b =>
    cases b with
    | false => exact ⟨_, _, rfl, by decide, by decide, by decide⟩
    | true => exact ⟨_, _, rfl, by decide, by decide, by decide⟩
  | num x =>
    rw [writeTree]
    obtain ⟨hne, hunits⟩ := isJsonNumber_units (hw.isNumber x (hok x rfl))
    obtain ⟨c, tail, htext⟩ := exists_cons_of_ne_nil hne
    have hc : isNumberUnit c = true := by
      refine hunits c ?_
      rw [htext]
      exact (.head _)
    obtain ⟨hspace, hclose, hbrace, -⟩ := starts_number hc
    exact ⟨c, tail, htext, hspace, hclose, hbrace⟩
  | str s =>
    obtain ⟨body, hbody, -⟩ := hw.quoted s
    exact ⟨_, body, hbody, by decide, by decide, by decide⟩
  | arr items => exact ⟨_, _, rfl, by decide, by decide, by decide⟩
  | obj members => exact ⟨_, _, rfl, by decide, by decide, by decide⟩

theorem readsBack_null : ReadsBack w read .null := by
  intro fuel rest hfuel hrest
  cases fuel with
  | zero => exact absurd hfuel (not_succ_le_zero 3)
  | succ fuel => rfl

theorem readsBack_bool (b : Bool) : ReadsBack w read (.bool b) := by
  intro fuel rest hfuel hrest
  cases fuel with
  | zero =>
    cases b with
    | false => exact absurd hfuel (not_succ_le_zero 4)
    | true => exact absurd hfuel (not_succ_le_zero 3)
  | succ fuel =>
    cases b with
    | false => rfl
    | true => rfl

theorem readsBack_num (hw : w.ReadBy read ok) {x : Number} (hx : ok x) :
    ReadsBack w read (.num x) := by
  intro fuel rest hfuel hrest
  have hread := readNumber_token (hw.isNumber x hx) (hw.reads x hx) hrest
  obtain ⟨hne, hunits⟩ := isJsonNumber_units (hw.isNumber x hx)
  obtain ⟨c, tail, htext⟩ := exists_cons_of_ne_nil hne
  have hc : isNumberUnit c = true := by
    refine hunits c ?_
    rw [htext]
    exact (.head _)
  obtain ⟨hspace, -, -, hquote, hopen, hbrace, hn, ht, hf⟩ := starts_number hc
  rw [writeTree] at hfuel ⊢
  rw [htext, cons_append] at hread ⊢
  cases fuel with
  | zero =>
    rw [htext] at hfuel
    exact absurd hfuel (not_succ_le_zero _)
  | succ fuel =>
    rw [parseValue, skipSpace_cons hspace]
    simp only [if_neg hquote, if_neg hopen, if_neg hbrace, if_neg hn, if_neg ht, if_neg hf, hread]
    rfl

theorem readsBack_str (hw : w.ReadBy read ok) (s : Text) : ReadsBack w read (.str s) := by
  intro fuel rest hfuel hrest
  obtain ⟨body, hbody, hread⟩ := hw.quoted s
  rw [writeTree, hbody] at hfuel ⊢
  cases fuel with
  | zero => exact absurd hfuel (not_succ_le_zero _)
  | succ fuel =>
    rw [cons_append, parseValue, skipSpace_cons (by decide)]
    simp only [if_true, hread]
    rfl

variable {members : List (Text × Tree)} {items : List Tree}

theorem parseItems_write (hne : items ≠ []) (h : ∀ x ∈ items, ReadsBack w read x)
    (hfuel : (join (writeItems w items)).length + 1 ≤ fuel) :
    parseItems read fuel (join (writeItems w items) ++ unit ']' :: rest) = some (items, rest) := by
  induction items generalizing fuel with
  | nil => exact absurd rfl hne
  | cons x tail ih =>
    cases fuel with
    | zero => omega
    | succ fuel =>
      have hx := h x (.head _)
      by_cases htail : tail = []
      · subst htail
        rw [writeItems, writeItems, join] at hfuel ⊢
        rw [parseItems, hx fuel _ (by omega) (ends_cons (by decide) rest)]
        simp only [skipSpace_cons (show isSpace (unit ']') = false by decide), if_true]
      have htexts : writeItems w tail ≠ [] := by
        cases tail with
        | nil => exact absurd rfl htail
        | cons y tail => exact cons_ne_nil _ _
      rw [writeItems, join_cons _ htexts] at hfuel ⊢
      simp only [length_append, length_cons] at hfuel
      rw [append_assoc, cons_append, parseItems, hx fuel _ (by omega) (ends_cons (by decide) _)]
      simp only [skipSpace_cons (show isSpace (unit ',') = false by decide)]
      rw [if_neg (by decide), if_pos trivial,
        ih htail (fun y hy => h y (.tail _ hy)) (by omega)]
      rfl

theorem readsBack_arr (hw : w.ReadBy read ok) (hok : ∀ t ∈ items, ∀ x, t = .num x → ok x)
    (h : ∀ x ∈ items, ReadsBack w read x) : ReadsBack w read (.arr items) := by
  intro fuel rest hfuel hrest
  cases fuel with
  | zero => exact absurd hfuel (not_succ_le_zero _)
  | succ fuel =>
    rw [writeTree, bracketed] at hfuel ⊢
    simp only [length_cons, length_append, length_nil] at hfuel
    rw [cons_append, append_assoc, cons_append, nil_append, parseValue, skipSpace_cons (by decide)]
    simp only [if_true, if_neg (show ¬ unit '[' = unit '"' by decide)]
    cases items with
    | nil =>
      simp only [writeItems, join, nil_append,
        skipSpace_cons (show isSpace (unit ']') = false by decide),
        if_true]
    | cons x tail =>
      have hread : parseItems read fuel (join (writeItems w (x :: tail))
          ++ unit ']' :: rest) = some (x :: tail, rest) :=
        parseItems_write (cons_ne_nil x tail) h (le_of_succ_le_succ hfuel)
      obtain ⟨c, text, hstart, hspace, hclose, -⟩ := writeTree_starts hw (hok x (.head _))
      obtain ⟨more, hmore⟩ : ∃ more, join (writeItems w (x :: tail)) ++ unit ']' :: rest
            = c :: more := by
        rw [writeItems]
        cases hitems : writeItems w tail with
        | nil => exact ⟨_, by rw [join, hstart]; rfl⟩
        | cons y ys => exact ⟨_, by rw [join, hstart]; rfl⟩
      rw [hmore] at hread ⊢
      simp only [skipSpace_cons hspace, if_neg hclose, hread]
      rfl

theorem parseMember_write (hw : w.ReadBy read ok) {key : Text} {x : Tree} (h : ReadsBack w read x)
    (hfuel : (w.quote key ++ unit ':' :: writeTree w x).length ≤ fuel) (hrest : Ends rest) :
    parseMember read fuel ((w.quote key ++ unit ':' :: writeTree w x)
      ++ rest) = some ((key, x), rest) := by
  obtain ⟨body, hbody, hread⟩ := hw.quoted key
  rw [hbody] at hfuel ⊢
  simp only [length_append, length_cons] at hfuel
  cases fuel with
  | zero => omega
  | succ fuel =>
    rw [append_assoc, cons_append, cons_append, parseMember, skipSpace_cons (by decide)]
    simp only [if_true, hread, skipSpace_cons (show isSpace (unit ':') = false by decide),
      h fuel rest (by omega) hrest]
    rfl

theorem parseMembers_write (hw : w.ReadBy read ok) (hne : members ≠ [])
    (h : ∀ m ∈ members, ReadsBack w read m.2)
    (hfuel : (join (writeMembers w members)).length + 1 ≤ fuel) :
    parseMembers read fuel (join (writeMembers w members) ++ unit '\x7d' :: rest)
      = some (members, rest) := by
  induction members generalizing fuel with
  | nil => exact absurd rfl hne
  | cons m tail ih =>
    cases fuel with
    | zero => omega
    | succ fuel =>
      obtain ⟨key, x⟩ := m
      have hx : ReadsBack w read x := h (key, x) (.head _)
      by_cases htail : tail = []
      · subst htail
        rw [writeMembers, writeMembers, join] at hfuel ⊢
        rw [parseMembers, parseMember_write hw hx (by omega) (ends_cons (by decide) rest)]
        simp only [skipSpace_cons (show isSpace (unit '\x7d') = false by decide), if_true]
      have htexts : writeMembers w tail ≠ [] := by
        cases tail with
        | nil => exact absurd rfl htail
        | cons y tail => exact cons_ne_nil _ _
      rw [writeMembers, join_cons _ htexts] at hfuel ⊢
      rw [length_append, length_cons] at hfuel
      rw [append_assoc, cons_append, parseMembers,
        parseMember_write hw hx (by omega) (ends_cons (by decide) _)]
      simp only [skipSpace_cons (show isSpace (unit ',') = false by decide)]
      rw [if_neg (by decide), if_pos trivial,
        ih htail (fun y hy => h y (.tail _ hy)) (by omega)]
      rfl

theorem readsBack_obj (hw : w.ReadBy read ok) (hkeys : (keys members).Nodup)
    (h : ∀ m ∈ members, ReadsBack w read m.2) : ReadsBack w read (.obj members) := by
  intro fuel rest hfuel hrest
  cases fuel with
  | zero => exact absurd hfuel (not_succ_le_zero _)
  | succ fuel =>
    rw [writeTree, braced] at hfuel ⊢
    simp only [length_cons, length_append, length_nil] at hfuel
    rw [cons_append, append_assoc, cons_append, nil_append, parseValue, skipSpace_cons (by decide)]
    simp only [if_true, if_neg (show ¬ unit '\x7b' = unit '"' by decide),
      if_neg (show ¬ unit '\x7b' = unit '[' by decide)]
    cases members with
    | nil =>
      simp only [writeMembers, join, nil_append,
        skipSpace_cons (show isSpace (unit '\x7d') = false by decide),
        if_true]
    | cons m tail =>
      have hread : parseMembers read fuel (join (writeMembers w (m :: tail)) ++ unit '\x7d' :: rest)
          = some (m :: tail, rest) :=
        parseMembers_write hw (cons_ne_nil m tail) h (le_of_succ_le_succ hfuel)
      obtain ⟨key, x⟩ := m
      obtain ⟨body, hbody, -⟩ := hw.quoted key
      obtain ⟨more, hmore⟩ : ∃ more, join (writeMembers w ((key, x) :: tail)) ++ unit '\x7d' :: rest
            = unit '"' :: more := by
        rw [writeMembers]
        cases hitems : writeMembers w tail with
        | nil => exact ⟨_, by rw [join, hbody]; rfl⟩
        | cons y ys => exact ⟨_, by rw [join, hbody]; rfl⟩
      rw [hmore] at hread ⊢
      simp only [skipSpace_cons (show isSpace (unit '"') = false by decide),
        if_neg (show ¬ unit '"' = unit '\x7d' by decide), hread,
        Option.map_some, defineMembers_of_nodup hkeys]

/-- What `parse` needs to know of a tree. -/
def Readable (ok : Number → Prop) (t : Tree) : Prop :=
  (keysOf t).Nodup ∧ ∀ x, t = .num x → ok x

theorem Every.self {P : Tree → Prop} (h : Every P t) : P t := by
  cases t with
  | null => exact h
  | bool b => exact h
  | num x => exact h
  | str s => exact h
  | arr items => exact (every_arr.mp h).1
  | obj members => exact (every_obj.mp h).1

theorem readsBack_of_every (hw : w.ReadBy read ok)
    (h : Every (Readable ok) t) : ReadsBack w read t := by
  induction t using tree_induct with
  | hnull => exact readsBack_null
  | hbool b => exact readsBack_bool b
  | hnum x => exact readsBack_num hw (h.self.2 x rfl)
  | hstr s => exact readsBack_str hw s
  | harr items ih =>
    have hitems := (every_arr.mp h).2
    exact readsBack_arr hw (fun x hx => (hitems x hx).self.2) (fun x hx => ih x hx (hitems x hx))
  | hobj members ih =>
    obtain ⟨hkeys, hmembers⟩ := every_obj.mp h
    exact readsBack_obj hw hkeys.1 (fun m hm => ih m hm (hmembers m hm))

/-- **THE ROUND TRIP**: a tree that was written is read back. -/
theorem parse_writeTree (hw : w.ReadBy read ok)
    (h : Every (Readable ok) t) : parse read (writeTree w t) = some t := by
  have hread := readsBack_of_every hw h ((writeTree w t).length + 1) [] (le_succ _) ends_nil
  rw [append_nil] at hread
  rw [parse, hread]
  rfl

end Reading

end JsonText

import Mathlib.Algebra.Order.Ring.Rat
import Inqutum.CanonicalSerializationProofs

/-!
# Script values

What the services share about script values: when a value counts as true,
how an optional text is written, what a trip through JSON keeps of a value
(`jsonCopy`), which values have a canonical text (`writable`), and the
range of a date.

A value loses to `jsonCopy` what JSON cannot say, and what is left always
has a canonical text (`writable_copy`).
-/

namespace Canonical

open JsonText List

/-- Whether a value counts as true in a condition. -/
def truthy : JsValue → Bool
  | .null => false
  | .undefined => false
  | .bool b => b
  | .number x => x ≠ 0 && x ≠ .nan
  | .negZero => false
  | .bigint n => n ≠ 0
  | .str s => s ≠ []
  | _ => true

/-- An optional text, `undefined` if it is not there. -/
def optional : Option Text → JsValue
  | none => .undefined
  | some text => .str text

/-- An optional text, `null` if it is not there. -/
def nullable : Option Text → JsValue
  | none => .null
  | some text => .str text

/-- What goes through went through at every stage. -/
theorem bind_ok {ε α β : Type} {x : Except ε α} {f : α → Except ε β} {b : β}
    (h : x.bind f = .ok b) : ∃ a, x = .ok a ∧ f a = .ok b := by
  cases x with
  | error thrown => cases h
  | ok a => exact ⟨a, rfl, h⟩

/-! ## Texts and dates -/

/-- White space and line terminators. -/
def isWhiteSpace (c : CodeUnit) : Bool :=
  let n := c.val
  decide (9 ≤ n ∧ n ≤ 13) || n == 32 || n == 160 || n == 0x1680
    || decide (0x2000 ≤ n ∧ n ≤ 0x200A) || n == 0x2028 || n == 0x2029
    || n == 0x202F || n == 0x205F || n == 0x3000 || n == 0xFEFF

/-- `text.trim()`. -/
def trim (text : Text) : Text :=
  ((text.dropWhile isWhiteSpace).reverse.dropWhile isWhiteSpace).reverse

theorem dropWhile_solid {c : CodeUnit} (hc : isWhiteSpace c = false)
    (rest : Text) : (c :: rest).dropWhile isWhiteSpace = c :: rest :=
  dropWhile_cons_of_neg (by rw [hc]; exact Bool.false_ne_true)

theorem trim_cons {c : CodeUnit} (hc : isWhiteSpace c = false) (rest : Text) :
    ∃ tail, trim (c :: rest) = c :: tail := by
  rw [trim, dropWhile_solid hc, reverse_cons, dropWhile_append]
  split
  · rw [dropWhile_solid hc]
    exact ⟨[], rfl⟩
  rw [reverse_append]
  exact ⟨_, rfl⟩

theorem trim_enclosed {c d : CodeUnit} (hc : isWhiteSpace c = false)
    (hd : isWhiteSpace d = false) (body : Text) :
    trim (c :: (body ++ [d])) = c :: (body ++ [d]) := by
  rw [trim, dropWhile_solid hc, reverse_cons, reverse_append,
    reverse_singleton, cons_append, cons_append,
    dropWhile_solid hd]
  simp

/-- The greatest time value of a date, in milliseconds. -/
def maxTime : Int := 8640000000000000

/-- `new Date(x)`, if it is a valid date. -/
def timeClip : JsNumber → Option Int
  | .finite q =>
    if |q| ≤ (maxTime : ℚ) then some (if q < 0 then ⌈q⌉ else ⌊q⌋) else none
  | _ => none

/-! ## The trip through JSON -/

/-- A buffer through `toJSON()`. -/
def bufferTree (bytes : List (Fin 256)) : Tree :=
  .obj [(ascii "type", .str (ascii "Buffer")),
    (ascii "data", .arr (bytes.map (fun b => .num (.finite b.val))))]

mutual

/-- `JSON.parse(JSON.stringify(value))`: nothing for a value that has no
    text, or the message of the error that is thrown. -/
def jsonCopy : JsValue → Except String (Option Tree)
  | .null => .ok (some .null)
  | .undefined => .ok none
  | .bool b => .ok (some (.bool b))
  | .number (.finite q) => .ok (some (.num (.finite q)))
  | .number _ => .ok (some .null)
  | .negZero => .ok (some (.num (.finite 0)))
  | .bigint _ => .error "Do not know how to serialize a BigInt"
  | .str s => .ok (some (.str s))
  | .symbol => .ok none
  | .function => .ok none
  | .date none => .ok (some .null)
  | .date (some iso) => .ok (some (.str iso))
  | .buffer bytes => .ok (some (bufferTree bytes))
  | .arr items => (copyItems items).map (fun copies => some (.arr copies))
  | .obj members => (copyMembers members).map (fun copies => some (.obj copies))

/-- An item without a text is written as `null`. -/
def copyItems : List JsValue → Except String (List Tree)
  | [] => .ok []
  | item :: rest =>
    match jsonCopy item with
    | .error message => .error message
    | .ok copy => (copyItems rest).map (fun copies => copy.getD .null :: copies)

/-- A member without a text is left out. -/
def copyMembers : List (Text × JsValue) → Except String (List (Text × Tree))
  | [] => .ok []
  | (key, value) :: rest =>
    match jsonCopy value with
    | .error message => .error message
    | .ok none => copyMembers rest
    | .ok (some copy) => (copyMembers rest).map (fun copies => (key, copy) :: copies)

end

/-! ## Values with a canonical text -/

section Writable

variable {e : Engine}

theorem memberTexts_isOk (members : List (Text × Except Thrown Text)) :
    (memberTexts e members).isOk = members.all (fun m => m.2.isOk) := by
  induction members with
  | nil => rfl
  | cons m rest ih =>
    obtain ⟨key, text⟩ := m
    cases text with
    | error thrown => rfl
    | ok text =>
      rw [all_cons, ← ih, memberTexts]
      cases memberTexts e rest <;> rfl

/-- A value that has a text, or is left out of an object. -/
def writable (e : Engine) (value : JsValue) : Bool :=
  value.omitted || (serialize e value).isOk

theorem serializeMembers_isOk (members : List (Text × JsValue)) :
    (serializeMembers e members).all (fun m => m.2.isOk)
      = members.all (fun m => writable e m.2) := by
  induction members with
  | nil => rfl
  | cons m rest ih =>
    obtain ⟨key, value⟩ := m
    rw [serializeMembers, all_cons, writable, ← ih]
    cases value.omitted <;> rfl

theorem serialize_obj_isOk (members : List (Text × JsValue)) : (serialize e (.obj members)).isOk
      = members.all (fun m => writable e m.2) := by
  rw [serialize, ← serializeMembers_isOk, ← (sortMembers_perm (serializeMembers e members)).all_eq,
    ← memberTexts_isOk]
  cases memberTexts e (sortMembers (serializeMembers e members)) <;> rfl

theorem writable_nullable (text : Option Text) : writable e (nullable text) = true := by
  cases text <;> rfl

theorem serializeItems_isOk (items : List JsValue) :
    (serializeItems e items).isOk = items.all (writable e) := by
  induction items with
  | nil => rfl
  | cons item rest ih =>
    rw [serializeItems, all_cons, writable, ← ih]
    cases item.omitted with
    | true =>
      show ((serializeItems e rest).map _).isOk = _
      cases serializeItems e rest <;> rfl
    | false =>
      rw [if_neg Bool.false_ne_true, Bool.false_or]
      cases serialize e item with
      | error thrown => rfl
      | ok text =>
        show ((serializeItems e rest).map _).isOk = _
        cases serializeItems e rest <;> rfl

theorem toItems_eq (items : List Tree) : toItems items = items.map toValue := by
  induction items with
  | nil => rfl
  | cons x rest ih => rw [toItems, ih, map_cons]

theorem toMembers_eq (members : List (Text × Tree)) :
    toMembers members = members.map (fun m => (m.1, toValue m.2)) := by
  induction members with
  | nil => rfl
  | cons m rest ih => rw [toMembers, ih, map_cons]

/-- **A JSON VALUE HAS A CANONICAL TEXT**, so what is left of a value after a
    trip through JSON has one. -/
theorem writable_copy (copy : Tree) : writable e (toValue copy) = true := by
  suffices h : (serialize e (toValue copy)).isOk = true by rw [writable, h, Bool.or_true]
  induction copy using tree_induct with
  | hnull => rfl
  | hbool b => rfl
  | hnum x => cases x <;> rfl
  | hstr s => rfl
  | harr items ih =>
    rw [toValue, serialize]
    show ((serializeItems e (toItems items)).map _).isOk = true
    have hitems : (serializeItems e (toItems items)).isOk = true := by
      rw [serializeItems_isOk, toItems_eq, all_map, all_eq_true]
      intro x hx
      show writable e (toValue x) = true
      rw [writable, ih x hx, Bool.or_true]
    cases hcase : serializeItems e (toItems items) with
    | error thrown =>
      rw [hcase] at hitems
      cases hitems
    | ok texts => rfl
  | hobj members ih =>
    rw [toValue, serialize_obj_isOk, toMembers_eq, all_map, all_eq_true]
    intro m hm
    show writable e (toValue m.2) = true
    rw [writable, ih m hm, Bool.or_true]

end Writable

end Canonical


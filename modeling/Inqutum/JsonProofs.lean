import Inqutum.JsNumberProofs
import Mathlib.Data.List.Sort

/-!
# JSON values and their text

JSON values with finite numbers and ordered object members.  The member
list of an object is in the order in which the object yields its own
properties, which is the order `stringify` writes them in.  Two values
that differ only in member order are therefore different here, and have
different texts.

`reorder` rewrites every object of a value into a given key order; it is
what a store does that keeps objects under its own order.  `jsonbParam` and
`jsonbRead` are the two ways through a binary JSON column.
-/

inductive Json where
  | null
  | bool (value : Bool)
  | num (value : ℚ)
  | str (value : String)
  | arr (items : List Json)
  | obj (members : List (String × Json))

namespace Json

instance : Inhabited Json := ⟨null⟩

/-- A lower-case hexadecimal digit. -/
def hexDigit (n : Nat) : Char := "0123456789abcdef".toList.getD n '0'

/-- The escape `JSON.stringify` writes for a character. -/
def escape (c : Char) : List Char :=
  if c = '"' then ['\\', '"']
  else if c = '\\' then ['\\', '\\']
  else if c.toNat = 8 then ['\\', 'b']
  else if c.toNat = 12 then ['\\', 'f']
  else if c = '\n' then ['\\', 'n']
  else if c = '\r' then ['\\', 'r']
  else if c = '\t' then ['\\', 't']
  else if c.toNat < 32 then
    ['\\', 'u', '0', '0', hexDigit (c.toNat / 16), hexDigit (c.toNat % 16)]
  else [c]

/-- A quoted JSON string. -/
def quote (s : String) : List Char :=
  '"' :: (s.toList.flatMap escape ++ ['"'])

mutual

/-- The characters of `JSON.stringify`. -/
def chars : Json → List Char
  | null => "null".toList
  | bool true => "true".toList
  | bool false => "false".toList
  | num q => (JsNumber.finite q).toText.toList
  | str s => quote s
  | arr items => '[' :: (itemChars items ++ [']'])
  | obj members => '\x7b' :: (memberChars members ++ ['\x7d'])

def itemChars : List Json → List Char
  | [] => []
  | [x] => chars x
  | x :: y :: rest => chars x ++ ',' :: itemChars (y :: rest)

def memberChars : List (String × Json) → List Char
  | [] => []
  | [m] => memberChar m
  | m :: m' :: rest => memberChar m ++ ',' :: memberChars (m' :: rest)

def memberChar : String × Json → List Char
  | (key, value) => quote key ++ ':' :: chars value

end

def stringify (value : Json) : String := String.ofList (chars value)

/-! ## Member order -/

mutual

/-- Rewrite every object of a value into the key order `le`. -/
def reorder (le : String → String → Bool) : Json → Json
  | null => null
  | bool b => bool b
  | num q => num q
  | str s => str s
  | arr items => arr (reorderItems le items)
  | obj members => obj ((reorderMembers le members).insertionSort (fun a b => le a.1 b.1 = true))

def reorderItems (le : String → String → Bool) : List Json → List Json
  | [] => []
  | x :: rest => reorder le x :: reorderItems le rest

def reorderMembers (le : String → String → Bool) : List (String × Json) → List (String × Json)
  | [] => []
  | m :: rest => reorderMember le m :: reorderMembers le rest

def reorderMember (le : String → String → Bool) : String × Json → String × Json
  | (key, value) => (key, reorder le value)

end

/-- A canonical array index: `0`, or digits without a leading zero. -/
def arrayIndex (key : String) : Option Nat :=
  let cs := key.toList
  if cs.all Char.isDigit && !cs.isEmpty && (decide (cs.length = 1) || cs.head? != some '0') then
    let n := cs.foldl (fun acc c => acc * 10 + (c.toNat - 48)) 0
    if n < 2 ^ 32 - 1 then some n else none
  else none

/-- Own properties come array indices first, ascending; the others stay in
    insertion order. -/
def propertyLe (a b : String) : Bool :=
  match arrayIndex a, arrayIndex b with
  | some m, some n => decide (m ≤ n)
  | some _, none => true
  | none, some _ => false
  | none, none => true

/-! ## Numbers, and a binary JSON column -/

mutual

/-- Rewrite every number of a value. -/
def mapNum (f : ℚ → Json) : Json → Json
  | null => null
  | bool b => bool b
  | num q => f q
  | str s => str s
  | arr items => arr (mapNumItems f items)
  | obj members => obj (mapNumMembers f members)

def mapNumItems (f : ℚ → Json) : List Json → List Json
  | [] => []
  | x :: rest => mapNum f x :: mapNumItems f rest

def mapNumMembers (f : ℚ → Json) : List (String × Json) → List (String × Json)
  | [] => []
  | m :: rest => mapNumMember f m :: mapNumMembers f rest

def mapNumMember (f : ℚ → Json) : String × Json → String × Json
  | (key, value) => (key, mapNum f value)

end

/-- The key order of a `JSONB` value: shorter keys first, then by bytes. -/
def jsonbLe (a b : String) : Bool :=
  decide (a.utf8ByteSize < b.utf8ByteSize)
    || (decide (a.utf8ByteSize = b.utf8ByteSize) && !decide (b < a))

/-- What a `JSONB` column keeps of a value written with `stringify`: its
    numbers are the decimals of the text, its members in the column's
    order. -/
def jsonbParam (value : Json) : Json :=
  reorder jsonbLe (mapNum (fun d => num (JsNumber.textValue d)) value)

/-- What the driver reads back with `JSON.parse`: the nearest doubles, and the
    members as an object yields them.  A number too large for a double becomes
    an infinity, which `stringify` writes as `null`. -/
def jsonbRead (value : Json) : Json :=
  reorder propertyLe (mapNum (fun q =>
    match JsNumber.binary64 q with
    | .finite d => num d
    | _ => null) value)

end Json

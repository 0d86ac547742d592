import Inqutum.JsonTextProofs
import Inqutum.JsNumberProofs
import Mathlib.Tactic.IntervalCases

/-!
# Canonical serialization

`canonicalize` writes a script value as JSON text: strings in NFC, object
members sorted by key, no white space.  Signatures and audit hashes are
taken over this text, so it must tell values apart and must not depend on
member order.

A script value is a tree here, so the check for circular references never
fires and is left out.  A number is known by its value; `String(number)`
and `normalize('NFC')` belong to the engine and are parameters.

`canonicalize_faithful` says that the text is a faithful canonical form:
the proof writes the text of a JSON value as the text of its sorted tree
(`canonicalize_eq`) and reads it back.
-/

namespace Canonical

open JsonText List

/-- What the engine supplies. -/
structure Engine where
  /-- `text.normalize('NFC')`. -/
  normalize : Text → Text
  /-- `String(number)` of a finite number. -/
  numberText : ℚ → Text

inductive ErrorCode where
  | circularReference
  | invalidNumber
  | unsupportedType
  deriving DecidableEq

/-- What `canonicalize` throws: its own error, or the range error of
    `toISOString()`. -/
inductive Thrown where
  | canonicalSerializationError (code : ErrorCode) (message : String)
  | rangeError (message : String)
  deriving DecidableEq

/-- A script value. -/
inductive JsValue where
  | null
  | undefined
  | bool (value : Bool)
  | number (value : JsNumber)
  | negZero
  | bigint (value : Int)
  | str (value : Text)
  | symbol
  | function
  /-- A date with the text of `toISOString()`, if it is valid. -/
  | date (iso : Option Text)
  | buffer (bytes : List (Fin 256))
  | arr (items : List JsValue)
  /-- The own enumerable properties. -/
  | obj (members : List (Text × JsValue))

/-- `code.toString(16).padStart(4, '0')`. -/
def hexText (c : CodeUnit) : Text :=
  let digits := (Nat.toDigits 16 c.val).map unit
  replicate (4 - digits.length) (unit '0') ++ digits

/-- What `escapeString` appends for one code unit. -/
def escapeUnit (c : CodeUnit) : Text :=
  if c = unit '"' then [unit '\\', unit '"']
  else if c = unit '\\' then [unit '\\', unit '\\']
  else if c = 8 then [unit '\\', unit 'b']
  else if c = 12 then [unit '\\', unit 'f']
  else if c = 10 then [unit '\\', unit 'n']
  else if c = 13 then [unit '\\', unit 'r']
  else if c = 9 then [unit '\\', unit 't']
  else if c < 32 then unit '\\' :: unit 'u' :: hexText c
  else [c]

def escapeString (str : Text) : Text :=
  unit '"' :: (str.flatMap escapeUnit ++ [unit '"'])

def quoted (text : Text) : Text := unit '"' :: (text ++ [unit '"'])

/-- `buffer.toString('hex')`. -/
def hexBytes (bytes : List (Fin 256)) : Text :=
  bytes.flatMap (fun b => [unit (Nat.digitChar (b / 16)), unit (Nat.digitChar (b % 16))])

/-- An `undefined`, a function or a symbol: `null` in an array, left out of an
    object. -/
def JsValue.omitted : JsValue → Bool
  | undefined => true
  | function => true
  | symbol => true
  | _ => false

/-- The members of an object in sorted order, up to the first that throws. -/
def memberTexts (e : Engine) :
    List (Text × Except Thrown Text) → Except Thrown (List Text)
  | [] => .ok []
  | (key, text) :: rest =>
    match text with
    | .error thrown => .error thrown
    | .ok text => (memberTexts e rest).map (fun texts =>
      (escapeString (e.normalize key) ++ unit ':' :: text) :: texts)

mutual

def serialize (e : Engine) : JsValue → Except Thrown Text
  | .null => .ok (ascii "null")
  | .undefined => .ok (ascii "null")
  | .bool b => .ok (ascii (if b then "true" else "false"))
  | .number (.finite q) => .ok (e.numberText q)
  | .number x => .error (.canonicalSerializationError .invalidNumber
      ("Cannot canonicalize non-finite number: " ++ x.toText))
  | .negZero => .ok (ascii "0")
  | .bigint n => .ok (quoted (ascii (toString n)))
  | .str s => .ok (escapeString (e.normalize s))
  | .symbol => .error (.canonicalSerializationError .unsupportedType
      "Cannot canonicalize symbol values")
  | .function => .error (.canonicalSerializationError .unsupportedType
      "Cannot canonicalize function values")
  | .date none => .error (.rangeError "Invalid time value")
  | .date (some iso) => .ok (quoted iso)
  | .buffer bytes => .ok (quoted (hexBytes bytes))
  | .arr items => (serializeItems e items).map (fun texts => bracketed (join texts))
  | .obj members =>
    (memberTexts e (sortMembers (serializeMembers e members))).map
      (fun texts => braced (join texts))

def serializeItems (e : Engine) :
    List JsValue → Except Thrown (List Text)
  | [] => .ok []
  | item :: rest =>
    match if item.omitted then .ok (ascii "null") else serialize e item with
    | .error thrown => .error thrown
    | .ok text => (serializeItems e rest).map (text :: ·)

/-- The serialized values of the members that are not left out. -/
def serializeMembers (e : Engine) :
    List (Text × JsValue) → List (Text × Except Thrown Text)
  | [] => []
  | (key, value) :: rest =>
    if value.omitted then serializeMembers e rest
    else (key, serialize e value) :: serializeMembers e rest

end

def canonicalize (e : Engine) (value : JsValue) : Except Thrown Text :=
  serialize e value

/-! ## JSON values -/

mutual

/-- A JSON value as a script value. -/
def toValue : Tree → JsValue
  | .null => .null
  | .bool b => .bool b
  | .num .negZero => .negZero
  | .num (.finite q) => .number (.finite q)
  | .str s => .str s
  | .arr items => .arr (toItems items)
  | .obj members => .obj (toMembers members)

def toItems : List Tree → List JsValue
  | [] => []
  | x :: rest => toValue x :: toItems rest

def toMembers : List (Text × Tree) → List (Text × JsValue)
  | [] => []
  | (key, x) :: rest => (key, toValue x) :: toMembers rest

end

/-- The writer `canonicalize` amounts to; it never meets a negative zero. -/
def writer (e : Engine) : Writer where
  quote := escapeString
  number
    | .negZero => ascii "0"
    | .finite q => e.numberText q

mutual

/-- What `canonicalize` writes of a JSON value: strings normalized, members
    sorted by key and their keys normalized afterwards. -/
def canonicalForm (e : Engine) : Tree → Tree
  | .null => .null
  | .bool b => .bool b
  | .num .negZero => .num (.finite 0)
  | .num (.finite q) => .num (.finite q)
  | .str s => .str (e.normalize s)
  | .arr items => .arr (canonicalItems e items)
  | .obj members => .obj ((sortMembers (canonicalValues e members)).map
      (fun m => (e.normalize m.1, m.2)))

def canonicalItems (e : Engine) : List Tree → List Tree
  | [] => []
  | x :: rest => canonicalForm e x :: canonicalItems e rest

def canonicalValues (e : Engine) : List (Text × Tree) → List (Text × Tree)
  | [] => []
  | (key, x) :: rest => (key, canonicalForm e x) :: canonicalValues e rest

end

theorem canonicalItems_eq (e : Engine) (items : List Tree) :
    canonicalItems e items = items.map (canonicalForm e) := by
  induction items with
  | nil => rfl
  | cons x rest ih => rw [canonicalItems, ih, map_cons]

theorem canonicalValues_eq (e : Engine) (members : List (Text × Tree)) : canonicalValues e members
      = members.map (fun m => (m.1, canonicalForm e m.2)) := by
  induction members with
  | nil => rfl
  | cons m rest ih =>
    obtain ⟨key, x⟩ := m
    rw [canonicalValues, ih, map_cons]

/-- What is documented of `String(number)` and of reading a number token, on
    the numbers a script has: the text of a number is a JSON number that
    denotes it, so no two numbers share a text, and zero is written `0`. -/
structure Engine.Standard (e : Engine) (read : Text → Option Number)
    (numbers : ℚ → Prop) : Prop where
  zero : numbers 0
  zeroText : e.numberText 0 = ascii "0"
  isNumber : ∀ q, numbers q → isJsonNumber (e.numberText q) = true
  reads : ∀ q, numbers q → read (e.numberText q) = some (.finite q)

/-! ## Strings -/

/-- The control characters without a letter are escaped by number. -/
theorem hexText_control {n : Nat} (hn : n < 32) :
    ∃ h₁ h₂ h₃ h₄, hexText (Fin.ofNat 65536 n) = [h₁, h₂, h₃, h₄]
      ∧ hexUnit h₁ h₂ h₃ h₄ = some (Fin.ofNat 65536 n) := by
  interval_cases n <;> exact ⟨_, _, _, _, rfl, rfl⟩

theorem escapeUnit_cases (c : CodeUnit) :
    (∃ letter, escapeUnit c = [unit '\\', letter] ∧ letter.val < 128
        ∧ letter ≠ unit 'u' ∧ simpleEscape letter = some c)
      ∨ (c < 32 ∧ escapeUnit c = unit '\\' :: unit 'u' :: hexText c)
      ∨ (escapeUnit c = [c] ∧ c ≠ unit '"' ∧ c ≠ unit '\\' ∧ ¬ c < 32) := by
  rw [escapeUnit]
  -- the seven units with a letter
  iterate 7
    split
    · rename_i hc
      rw [hc]
      exact .inl ⟨_, rfl, by decide, by decide, rfl⟩
  split
  · rename_i hcontrol
    exact .inr (.inl ⟨hcontrol, rfl⟩)
  rename_i hquote hslash _ _ _ _ _ hcontrol
  exact .inr (.inr ⟨rfl, hquote, hslash, hcontrol⟩)

theorem readString_escapeUnit (c : CodeUnit) (text : Text) : readString (escapeUnit c ++ text)
      = (readString text).map (fun out => (c :: out.1, out.2)) := by
  rcases escapeUnit_cases c with
    ⟨letter, heq, -, hletter, hstands⟩ | ⟨hcontrol, heq⟩
      | ⟨heq, hquote, hslash, hcontrol⟩
  · rw [heq]
    exact readString_letter hletter hstands
  · obtain ⟨h₁, h₂, h₃, h₄, htext, hunit⟩ := hexText_control (show c.val < 32 from hcontrol)
    rw [Fin.ofNat_val_eq_self] at htext hunit
    rw [heq, htext]
    exact readString_hex hunit
  rw [heq]
  exact readString_plain hquote hslash hcontrol

/-- **ESCAPING LOSES NOTHING**: the string ends where it should and reads back
    as it was. -/
theorem readString_escape (s rest : Text) : readString (s.flatMap escapeUnit ++ unit '"' :: rest)
      = some (s, rest) := by
  induction s with
  | nil => exact readString_close
  | cons c tail ih =>
    rw [flatMap_cons, append_assoc, readString_escapeUnit, ih]
    rfl

/-- The numbers that are left once negative zero is gone. -/
def Unsigned (numbers : ℚ → Prop) (x : Number) : Prop :=
  ∃ q, x = .finite q ∧ numbers q

theorem writer_readBy {e : Engine} {read : Text → Option Number}
    {numbers : ℚ → Prop} (he : e.Standard read numbers) :
    (writer e).ReadBy read (Unsigned numbers) where
  quoted s := by
    refine ⟨s.flatMap escapeUnit ++ [unit '"'], rfl, ?_⟩
    intro rest
    rw [append_assoc]
    exact readString_escape s rest
  isNumber x hx := by
    obtain ⟨q, rfl, hq⟩ := hx
    exact he.isNumber q hq
  reads x hx := by
    obtain ⟨q, rfl, hq⟩ := hx
    exact he.reads q hq

/-! ## The text of a JSON value -/

section Text

variable {e : Engine}

theorem omitted_toValue (t : Tree) : (toValue t).omitted = false := by
  cases t with
  | num x => cases x <;> rfl
  | null => rfl
  | bool b => rfl
  | str s => rfl
  | arr items => rfl
  | obj members => rfl

/-- The text of a part is the text of its canonical form. -/
def Written (e : Engine) (t : Tree) : Prop :=
  serialize e (toValue t) = .ok (writeTree (writer e) (canonicalForm e t))

theorem serializeItems_eq {items : List Tree} (h : ∀ x ∈ items, Written e x) :
    serializeItems e (toItems items) = .ok (writeItems (writer e) (canonicalItems e items)) := by
  induction items with
  | nil => rfl
  | cons x rest ih =>
    rw [toItems, serializeItems, omitted_toValue x, canonicalItems, writeItems, h x (.head _),
      ih (fun y hy => h y (.tail _ hy))]
    rfl

theorem serializeMembers_eq {members : List (Text × Tree)} (h : ∀ m ∈ members, Written e m.2) :
    serializeMembers e (toMembers members) = (canonicalValues e members).map
          (fun m => (m.1, .ok (writeTree (writer e) m.2))) := by
  induction members with
  | nil => rfl
  | cons m rest ih =>
    obtain ⟨key, x⟩ := m
    have hx : Written e x := h (key, x) (.head _)
    rw [toMembers, serializeMembers, omitted_toValue x, if_neg
      Bool.false_ne_true, hx, canonicalValues, map_cons,
      ih (fun m hm => h m (.tail _ hm))]

theorem memberTexts_eq (members : List (Text × Tree)) : memberTexts e (members.map
        (fun m => (m.1, .ok (writeTree (writer e) m.2)))) = .ok (writeMembers (writer e)
          (members.map (fun m => (e.normalize m.1, m.2)))) := by
  induction members with
  | nil => rfl
  | cons m rest ih =>
    rw [map_cons, memberTexts, ih, map_cons, writeMembers]
    rfl

/-- **THE TEXT OF A JSON VALUE** is the text of its canonical form. -/
theorem canonicalize_eq (hzero : e.numberText 0 = ascii "0") (t : Tree) : canonicalize e (toValue t)
      = .ok (writeTree (writer e) (canonicalForm e t)) := by
  show Written e t
  induction t using tree_induct with
  | hnull => rfl
  | hbool b => rfl
  | hnum x =>
    cases x with
    | negZero =>
      rw [Written, canonicalForm, writeTree]
      show Except.ok (ascii "0") = .ok (e.numberText 0)
      rw [hzero]
    | finite q => rfl
  | hstr s => rfl
  | harr items ih =>
    rw [Written, toValue, serialize, serializeItems_eq ih]
    rfl
  | hobj members ih =>
    have hsort := sortMembers_map
      (fun x => (Except.ok (writeTree (writer e) x) : Except Thrown Text))
      (canonicalValues e members)
    rw [Written, toValue, serialize, serializeMembers_eq ih, hsort, memberTexts_eq]
    rfl

end Text

/-! ## Normalized values -/

/-- The strings and keys of this part are in NFC. -/
def Normalized (e : Engine) (t : Tree) : Prop :=
  (∀ s, t = .str s → e.normalize s = s)
  ∧ ∀ key ∈ keysOf t, e.normalize key = key

/-- The number, if this part is one, is a number of the script. -/
def NumberIn (numbers : ℚ → Prop) (t : Tree) : Prop :=
  ∀ q, t = .num (.finite q) → numbers q

variable {numbers : ℚ → Prop} {t : Tree}

theorem canonicalForm_of_normalized {e : Engine}
    (h : Every (Normalized e) t) : canonicalForm e t = sortKeys t := by
  induction t using tree_induct with
  | hnull => rfl
  | hbool b => rfl
  | hnum x =>
    cases x with
    | negZero => rfl
    | finite q => rfl
  | hstr s => rw [canonicalForm, h.self.1 s rfl, sortKeys]
  | harr items ih =>
    have hitems := (every_arr.mp h).2
    rw [canonicalForm, sortKeys, canonicalItems_eq, sortItems_eq,
      map_congr_left (fun x hx => ih x hx (hitems x hx))]
  | hobj members ih =>
    obtain ⟨⟨-, hkeys⟩, hmembers⟩ := every_obj.mp h
    have hvalues : canonicalValues e members = sortValues members := by
      rw [canonicalValues_eq, sortValues_eq]
      refine map_congr_left ?_
      intro m hm
      rw [ih m hm (hmembers m hm)]
    have hnorm : ∀ m ∈ sortMembers (sortValues members),
        (fun m : Text × Tree => (e.normalize m.1, m.2)) m = id m := by
      intro m hm
      have hkey : m.1 ∈ keys members := by
        rw [← keys_sortValues]
        exact mem_map_of_mem ((sortMembers_perm _).mem_iff.mp hm)
      show (e.normalize m.1, m.2) = m
      rw [hkeys m.1 hkey]
    rw [canonicalForm, sortKeys, hvalues, map_congr_left hnorm, map_id]

theorem readable_finite {q : ℚ} (hq : numbers q) :
    Every (Readable (Unsigned numbers)) (.num (.finite q)) := by
  refine ⟨nodup_nil, ?_⟩
  intro x h
  exact ⟨q, (Tree.num.inj h).symm, hq⟩

theorem readable_sortKeys (hzero : numbers 0)
    (hd : Distinct t) (hnum : Every (NumberIn numbers) t) :
    Every (Readable (Unsigned numbers)) (sortKeys t) := by
  induction t using tree_induct with
  | hnull => exact ⟨nodup_nil, by rintro _ ⟨⟩⟩
  | hbool b => exact ⟨nodup_nil, by rintro _ ⟨⟩⟩
  | hnum x =>
    cases x with
    | negZero => exact readable_finite hzero
    | finite q => exact readable_finite (hnum.self q rfl)
  | hstr s => exact ⟨nodup_nil, by rintro _ ⟨⟩⟩
  | harr items ih =>
    have hitems := (every_arr.mp hd).2
    have hnums := (every_arr.mp hnum).2
    rw [sortKeys, sortItems_eq]
    refine every_arr.mpr ⟨⟨nodup_nil, by rintro _ ⟨⟩⟩, ?_⟩
    intro y hy
    obtain ⟨x, hx, rfl⟩ := mem_map.mp hy
    exact ih x hx (hitems x hx) (hnums x hx)
  | hobj members ih =>
    obtain ⟨hkeys, hmembers⟩ := every_obj.mp hd
    have hnums := (every_obj.mp hnum).2
    rw [sortKeys]
    refine every_obj.mpr ⟨⟨?_, by rintro _ ⟨⟩⟩, ?_⟩
    · refine (keys_sortMembers_perm _).nodup_iff.mpr ?_
      rw [keys_sortValues]
      exact hkeys
    intro m hm
    have hm' := (sortMembers_perm _).mem_iff.mp hm
    rw [sortValues_eq] at hm'
    obtain ⟨m₀, hm₀, rfl⟩ := mem_map.mp hm'
    exact ih m₀ hm₀ (hmembers m₀ hm₀) (hnums m₀ hm₀)

/-! ## The canonical form -/

/-- A JSON value in NFC: distinct keys, numbers of the script, strings and keys
    normalized. -/
structure Valid (e : Engine) (numbers : ℚ → Prop) (t : Tree) : Prop where
  distinct : Distinct t
  numbers : Every (NumberIn numbers) t
  normalized : Every (Normalized e) t

theorem parse_sortKeys {e : Engine} {read : Text → Option Number} {numbers : ℚ → Prop}
    (he : e.Standard read numbers) {t : Tree} (ht : Valid e numbers t) :
    parse read (writeTree (writer e) (sortKeys t)) = some (sortKeys t) :=
  parse_writeTree (writer_readBy he) (readable_sortKeys he.zero ht.distinct ht.numbers)

theorem text_eq_iff {e : Engine} {read : Text → Option Number} {numbers : ℚ → Prop}
    (he : e.Standard read numbers) {a b : Tree} (ha : Valid e numbers a) (hb : Valid e numbers b) :
    writeTree (writer e) (canonicalForm e a) = writeTree (writer e) (canonicalForm e b)
      ↔ Same a b := by
  rw [canonicalForm_of_normalized ha.normalized, canonicalForm_of_normalized hb.normalized]
  constructor
  · intro htext
    have hsorted : sortKeys a = sortKeys b := by
      have hread := parse_sortKeys he ha
      rw [htext, parse_sortKeys he hb] at hread
      exact (Option.some.inj hread).symm
    have hab := same_sortKeys a
    rw [hsorted] at hab
    exact hab.trans (same_sortKeys b).symm
  · intro hsame
    rw [(sortKeys_eq_of_same hsame).2 ha.distinct]

/-- **A FAITHFUL CANONICAL FORM**: two JSON values in NFC have one text exactly
    when they are equal up to member order, and the text reads back as a value
    equal to the one it was made of. -/
theorem canonicalize_faithful {e : Engine} {read : Text → Option Number}
    {numbers : ℚ → Prop} (he : e.Standard read numbers) {a b : Tree}
    (ha : Valid e numbers a) (hb : Valid e numbers b) :
    ∃ text text', canonicalize e (toValue a) = .ok text
      ∧ canonicalize e (toValue b) = .ok text'
      ∧ (text = text' ↔ Same a b)
      ∧ ∃ v, parse read text = some v ∧ Same v a := by
  refine ⟨_, _, canonicalize_eq he.zeroText a, canonicalize_eq he.zeroText b,
    text_eq_iff he ha hb, sortKeys a, ?_, (same_sortKeys a).symm⟩
  rw [canonicalForm_of_normalized ha.normalized]
  exact parse_sortKeys he ha

/-- An engine for a script whose numbers are 0, 1 and 2; on them and on ASCII
    text it does what every engine does. -/
def sampleEngine : Engine where
  normalize := id
  numberText q := if q = 0 then ascii "0" else if q = 1 then ascii "1"
    else ascii "2"

def sampleNumbers (q : ℚ) : Prop := q = 0 ∨ q = 1 ∨ q = 2

def sampleRead (token : Text) : Option Number :=
  if token = ascii "0" then some (.finite 0)
  else if token = ascii "1" then some (.finite 1)
  else if token = ascii "2" then some (.finite 2)
  else none

theorem standard_sampleEngine : sampleEngine.Standard sampleRead sampleNumbers where
  zero := .inl rfl
  zeroText := rfl
  isNumber q hq := by
    rcases hq with rfl | rfl | rfl
    · decide
    · decide
    · decide
  reads q hq := by
    rcases hq with rfl | rfl | rfl
    · decide
    · decide
    · decide

/-- `{"b":1,"a":[-0,"\n"]}`. -/
def swappedSample : Tree :=
  .obj [(ascii "b", .num (.finite 1)),
    (ascii "a", .arr [.num .negZero, .str (ascii "\n")])]

/-- `{"a":[0,"\n"],"b":1}`. -/
def sortedSample : Tree :=
  .obj [(ascii "a", .arr [.num (.finite 0), .str (ascii "\n")]),
    (ascii "b", .num (.finite 1))]

theorem valid_swappedSample : Valid sampleEngine sampleNumbers swappedSample where
  distinct := by
    simp only [swappedSample, Distinct, Every, EveryItem, EveryMember, keysOf]
    decide
  numbers := by
    simp [swappedSample, Every, EveryItem, EveryMember, NumberIn, sampleNumbers]
  normalized := by
    simp [swappedSample, Every, EveryItem, EveryMember, Normalized, sampleEngine]

theorem valid_sortedSample : Valid sampleEngine sampleNumbers sortedSample where
  distinct := by
    simp only [sortedSample, Distinct, Every, EveryItem, EveryMember, keysOf]
    decide
  numbers := by
    simp [sortedSample, Every, EveryItem, EveryMember, NumberIn, sampleNumbers]
  normalized := by
    simp [sortedSample, Every, EveryItem, EveryMember, Normalized, sampleEngine]

/-- The two samples have one text, and it reads back. -/
theorem canonicalize_faithful_swapped :
    ∃ text text', canonicalize sampleEngine (toValue swappedSample) = .ok text
      ∧ canonicalize sampleEngine (toValue sortedSample) = .ok text'
      ∧ (text = text' ↔ Same swappedSample sortedSample)
      ∧ ∃ v, parse sampleRead text = some v ∧ Same v swappedSample :=
  canonicalize_faithful standard_sampleEngine valid_swappedSample
    valid_sortedSample

end Canonical

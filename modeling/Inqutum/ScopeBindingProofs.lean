import Inqutum.CanonicalFormProofs
import Inqutum.StableLinkProofs

/-!
# Cursors and the scopes they were made for

The hash of a scope is taken of its stable text, which a date gives no
more than `\x7b\x7d` to (`stableStringify_eq`).  So a cursor passes under
every scope that is the same once dates are empty objects, and under no
other (`accepts_iff`, `bound_iff`).
-/

namespace StableCursor

open JsonText
open Canonical (Engine NumberIn Unsigned)
open Stringify Utf8 Canonical

/-! ## Scopes -/

/-- JSON, dates, and `undefined`. -/
inductive ScopeValue where
  | null
  | undefined
  | bool (value : Bool)
  | num (value : Number)
  | str (value : Text)
  /-- A date by its time, if it is valid. -/
  | date (time : Option Int)
  | arr (items : List ScopeValue)
  | obj (members : List (Text × ScopeValue))

def ScopeValue.isUndefined : ScopeValue → Bool
  | .undefined => true
  | _ => false

mutual

def stableStringify (w : Writer) : ScopeValue → Text
  | .null => ascii "null"
  | .undefined => ascii "null"
  | .bool b => ascii (if b then "true" else "false")
  | .num x => w.number x
  | .str s => w.quote s
  -- a date is an object without keys of its own
  | .date _ => braced (join [])
  | .arr items => bracketed (join (stableItems w items))
  | .obj members => braced (join ((sortMembers (stableMembers w members)).map
      (fun m => w.quote m.1 ++ unit ':' :: m.2)))

def stableItems (w : Writer) : List ScopeValue → List Text
  | [] => []
  | x :: rest => stableStringify w x :: stableItems w rest

/-- The keys of the values that are defined, with their texts. -/
def stableMembers (w : Writer) : List (Text × ScopeValue) → List (Text × Text)
  | [] => []
  | (key, x) :: rest =>
    if x.isUndefined then stableMembers w rest
    else (key, stableStringify w x) :: stableMembers w rest

end

mutual

/-- A value without its undefined members, where a date is shown as a tree. -/
def shown (stamp : Option Int → Tree) : ScopeValue → Tree
  | .null => .null
  | .undefined => .null
  | .bool b => .bool b
  | .num x => .num x
  | .str s => .str s
  | .date time => stamp time
  | .arr items => .arr (shownItems stamp items)
  | .obj members => .obj (shownMembers stamp members)

def shownItems (stamp : Option Int → Tree) : List ScopeValue → List Tree
  | [] => []
  | x :: rest => shown stamp x :: shownItems stamp rest

def shownMembers (stamp : Option Int → Tree) : List (Text × ScopeValue) → List (Text × Tree)
  | [] => []
  | (key, x) :: rest =>
    if x.isUndefined then shownMembers stamp rest
    else (key, shown stamp x) :: shownMembers stamp rest

end

/-- The value with an empty object for each date. -/
def dateless : ScopeValue → Tree := shown (fun _ => .obj [])

/-- Equal up to member order, undefined members and the sign of zero, dates
    included: whatever tree stands for each time. -/
def SameScope (a b : ScopeValue) : Prop := ∀ stamp, Same (shown stamp a) (shown stamp b)

/-- Nothing but a date makes a difference. -/
def ToldByDates (a b : ScopeValue) : Prop := Same (dateless a) (dateless b) ∧ ¬ SameScope a b

/-- A scope: no object has a key twice, and the numbers are those of the
    script. -/
structure Scope (numbers : ℚ → Prop) where
  value : ScopeValue
  distinct : Distinct (dateless value)
  scripted : Every (NumberIn numbers) (dateless value)

/-! ## The stable text -/

/-- `JSON.stringify` of strings and numbers. -/
def scopeWriter (e : Engine) : Writer where
  quote := quote
  number
    | .negZero => ascii "0"
    | .finite q => e.numberText q

def Scope.text {numbers : ℚ → Prop} (e : Engine) (s : Scope numbers) : Text :=
  stableStringify (scopeWriter e) s.value

section Binding

variable {e : Engine} {read : Text → Option Number} {numbers : ℚ → Prop}

mutual

/-- **THE STABLE TEXT** is the sorted JSON of the value without its dates. -/
theorem stableStringify_eq (hzero : e.numberText 0 = ascii "0") :
    ∀ v, stableStringify (scopeWriter e) v = writeTree (scopeWriter e) (sortKeys (dateless v))
  | .null => rfl
  | .undefined => rfl
  | .bool _ => rfl
  | .num .negZero => hzero.symm
  | .num (.finite _) => rfl
  | .str _ => rfl
  | .date _ => rfl
  | .arr items => by
    rw [stableStringify, stableItems_eq hzero items]
    rfl
  | .obj members => by
    rw [stableStringify, stableMembers_eq hzero members, sortMembers_map, List.map_map]
    exact congrArg (fun texts => braced (join texts)) (writeMembers_eq _).symm

theorem stableItems_eq (hzero : e.numberText 0 = ascii "0") :
    ∀ items, stableItems (scopeWriter e) items
      = writeItems (scopeWriter e) (sortItems (shownItems (fun _ => .obj []) items))
  | [] => rfl
  | x :: rest => by
    rw [stableItems, stableStringify_eq hzero x, stableItems_eq hzero rest]
    rfl

theorem stableMembers_eq (hzero : e.numberText 0 = ascii "0") :
    ∀ members, stableMembers (scopeWriter e) members
      = (sortValues (shownMembers (fun _ => .obj []) members)).map
        (fun m => (m.1, writeTree (scopeWriter e) m.2))
  | [] => rfl
  | (key, x) :: rest => by
    rw [stableMembers, shownMembers, stableMembers_eq hzero rest]
    split
    · rfl
    rw [stableStringify_eq hzero x]
    rfl

end

theorem scopeWriter_readBy (he : e.Standard read numbers) :
    (scopeWriter e).ReadBy read (Unsigned numbers) where
  quoted := writer_readBy.quoted
  isNumber x hx := by
    obtain ⟨q, rfl, hq⟩ := hx
    exact he.isNumber q hq
  reads x hx := by
    obtain ⟨q, rfl, hq⟩ := hx
    exact he.reads q hq

theorem wellFormed_text (he : e.Standard read numbers) (s : Scope numbers) :
    wellFormed (s.text e) = true := by
  rw [Scope.text, stableStringify_eq he.zeroText]
  refine wellFormed_writeTree
    ((readable_sortKeys he.zero s.distinct s.scripted).imp fun u hu => ?_)
  refine ⟨fun s _ => wellFormed_quote s, fun key _ => wellFormed_quote key,
    fun x hx => wellFormed_of_plain fun c hc => ?_⟩
  exact isSurrogate_of_isNumberUnit
    ((isJsonNumber_units ((scopeWriter_readBy he).isNumber x (hu.2 x hx))).2 c hc)

theorem text_eq_iff (he : e.Standard read numbers) {a b : Scope numbers} :
    a.text e = b.text e ↔ Same (dateless a.value) (dateless b.value) := by
  rw [Scope.text, Scope.text, stableStringify_eq he.zeroText, stableStringify_eq he.zeroText]
  constructor
  · intro h
    have hread : ∀ s : Scope numbers,
        parse read (writeTree (scopeWriter e) (sortKeys (dateless s.value)))
          = some (sortKeys (dateless s.value)) := fun s =>
      parse_writeTree (scopeWriter_readBy he)
        (readable_sortKeys he.zero s.distinct s.scripted)
    have hsort : sortKeys (dateless a.value) = sortKeys (dateless b.value) :=
      Option.some.inj ((hread a).symm.trans ((congrArg (parse read) h).trans (hread b)))
    exact (same_sortKeys _).trans (hsort ▸ (same_sortKeys _).symm)
  · intro h
    rw [(sortKeys_eq_of_same h).2 a.distinct]

/-! ## Cursors under another scope -/

/-- `decodeStableCursor` under scope `b` does not throw on the cursor of a
    position under scope `a`. -/
def Accepts (host : Host) (secret : Text) (e : Engine) (a b : Scope numbers) (p : Position) : Prop :=
  ∃ q, decodeStableCursor host (b.text e) secret
    (encodeStableCursor host (a.text e) secret p) = .ok q

/-- The shortened SHA-256 tells the texts of the two scopes apart. -/
def NoCollision (host : Host) (e : Engine) (a b : Scope numbers) : Prop :=
  (digestText (host.sha256 (encode (a.text e)))).take 22
      = (digestText (host.sha256 (encode (b.text e)))).take 22 →
    encode (a.text e) = encode (b.text e)

theorem accepts_iff {host : Host} (secret : Text) (he : e.Standard read numbers)
    {a b : Scope numbers} (hsha : NoCollision host e a b) :
    (∃ p, Accepts host secret e a b p) ↔ Same (dateless a.value) (dateless b.value) := by
  rw [← text_eq_iff he]
  constructor
  · rintro ⟨p, q, hq⟩
    have hbytes := hsha (names_of_decode hq).scope
    rw [← Utf8.decode_encode (wellFormed_text he a), hbytes,
      Utf8.decode_encode (wellFormed_text he b)]
  intro h
  have hcarried : Carried ⟨0, ascii "a"⟩ := by constructor <;> decide
  refine ⟨⟨0, ascii "a"⟩, ⟨0, ascii "a"⟩, ?_⟩
  rw [← h]
  exact decode_encode host (a.text e) secret hcarried

/-- **A CURSOR IS BOUND TO ITS SCOPE** if and only if the scopes are not told
    apart by dates alone. -/
theorem bound_iff (host : Host) (secret : Text) (he : e.Standard read numbers)
    (a b : Scope numbers) (hsha : NoCollision host e a b) :
    (∀ p, Accepts host secret e a b p → SameScope a.value b.value)
      ↔ ¬ ToldByDates a.value b.value := by
  rw [ToldByDates, ← accepts_iff secret he hsha, not_and, not_not, forall_exists_index]

end Binding

/-! ## Two date bounds -/

/-- A viewer, and the rows from a time on. -/
def fromTime (viewer : String) (time : Int) : Scope sampleNumbers where
  value := .obj [(ascii "viewer", .str (ascii viewer)), (ascii "from", .date (some time)),
    (ascii "to", .undefined)]
  distinct := by
    simp [dateless, shown, shownMembers, ScopeValue.isUndefined, Distinct, Every, EveryMember,
      keysOf, keys, ascii]
  scripted := by
    simp [dateless, shown, shownMembers, ScopeValue.isUndefined, Every, EveryMember, NumberIn]

/-- A digest that adds up the bytes. -/
def sumHost : Host :=
  { blankHost with sha256 := fun bytes => Vector.replicate 32 (Fin.ofNat 256 bytes.sum) }

/-- A cursor of one viewer does not pass under another. -/
theorem bound_iff_sample : ¬ Accepts sumHost (ascii "s") sampleEngine
    (fromTime "v" 0) (fromTime "w" 0) ⟨0, ascii "a"⟩ := by
  have hother : ¬ Same (dateless (fromTime "v" 0).value) (dateless (fromTime "w" 0).value) := by
    intro h
    have hsort := (sortKeys_eq_of_same h).2 (fromTime "v" 0).distinct
    exact absurd (congrArg (writeTree writer) hsort) (by decide)
  intro haccepts
  exact hother ((bound_iff sumHost (ascii "s") standard_sampleEngine (fromTime "v" 0)
    (fromTime "w" 0) (fun h => absurd h (by decide +kernel))).mpr (fun h => hother h.1) _ haccepts _)

/-- A cursor of one date bound passes under another. -/
theorem date_bound_changes :
    NoCollision blankHost sampleEngine (fromTime "v" 0) (fromTime "v" 1)
    ∧ Accepts blankHost (ascii "s") sampleEngine (fromTime "v" 0) (fromTime "v" 1)
      ⟨0, ascii "a"⟩
    ∧ ¬ SameScope (fromTime "v" 0).value (fromTime "v" 1).value := by
  refine ⟨fun _ => rfl, ⟨⟨0, ascii "a"⟩, ?_⟩, ?_⟩
  · exact decode_encode blankHost _ (ascii "s") (by constructor <;> decide)
  intro h
  have hdistinct := (fromTime "v" 0).distinct
  have hsame := h (fun time => if time = some 0 then .obj [] else .null)
  have hsort := (sortKeys_eq_of_same hsame).2 hdistinct
  exact absurd (congrArg (writeTree writer) hsort) (by decide)

end StableCursor

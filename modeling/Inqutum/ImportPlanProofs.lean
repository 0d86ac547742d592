import Inqutum.ImportValidationProofs
import Inqutum.InvoiceTableProofs
import Mathlib.Data.List.Pairwise

/-!
# Import planning

`planImport` decides for every row of a file whether to create, update,
skip or report it, against a list of stored invoices.  It writes nothing.

The rows are planned in file order with one map carried along: `claimed`,
the identity keys that earlier rows used.  A row that repeats a claimed key
is reported as a duplicate; a row that is reported for any reason claims
nothing.

A value that a field comparison sees is a `FieldValue`.  The JSON text of a
date is kept as its instant, which the text determines.
-/

namespace Imports

open Invoices List Option InsertionMap JsText

inductive ImportAction where
  | create
  | update
  | skip
  | error
  deriving DecidableEq

/-- What the planner knows of a stored invoice. -/
structure ExistingInvoice where
  id : String
  externalId : Option String := none
  memo : String
  status : InvoiceStatus := .pending
  amount : ℚ
  assetCode : String
  assetIssuer : Option String := none
  sellerPublicKey : String
  sellerName : Option String := none
  sellerEmail : Option String := none
  customerName : Option String := none
  customerEmail : Option String := none
  description : Option String := none
  expiresAt : Int
  metadata : Option Json := none

/-! ## Comparing fields -/

inductive FieldValue where
  | null
  | text (value : String)
  | number (value : ℚ)
  | date (ms : Option Int)
  | json (value : Json)

/-- A JSON text; the text of a valid date is known by its instant. -/
inductive FieldText where
  | text (value : String)
  | instant (ms : Int)
  deriving DecidableEq

namespace FieldValue

def ofText : Option String → FieldValue
  | none => null
  | some value => text value

def ofJson : Option Json → FieldValue
  | none => null
  | some value => json value

/-- `value === null || value === undefined`. -/
def isNull : FieldValue → Bool
  | null => true
  | _ => false

/-- `typeof value === 'object'`. -/
def isObject : FieldValue → Bool
  | null => true
  | date _ => true
  | json (.obj _) => true
  | json (.arr _) => true
  | json .null => true
  | _ => false

/-- `JSON.stringify(value)`; an invalid date is written as `null`. -/
def jsonText : FieldValue → FieldText
  | null => .text "null"
  | text value => .text (Json.stringify (.str value))
  | number value => .text (Json.stringify (.num value))
  | date (some ms) => .instant ms
  | date none => .text "null"
  | json value => .text (Json.stringify value)

/-- `String(value)`; of an object it is never taken. -/
def toText : FieldValue → String
  | null => "null"
  | text value => value
  | number value => (JsNumber.finite value).toText
  | json (.str value) => value
  | json value => Json.stringify value
  | date _ => "Invalid Date"

end FieldValue

def sameValue (a b : FieldValue) : Bool :=
  if a.isNull then b.isNull
  else if a.isObject || b.isObject then decide (a.jsonText = b.jsonText)
  else decide (a.toText = b.toText)

/-- The fields that say what is paid. -/
inductive IdentityField where
  | amount
  | assetCode
  | assetIssuer
  | sellerPublicKey
  deriving DecidableEq

/-- `IDENTITY_FIELDS`. -/
def identityFields : List IdentityField :=
  [.amount, .assetCode, .assetIssuer, .sellerPublicKey]

def IdentityField.column : IdentityField → Column
  | .amount => .amount
  | .assetCode => .assetCode
  | .assetIssuer => .assetIssuer
  | .sellerPublicKey => .sellerPublicKey

def ImportInvoice.identity (invoice : ImportInvoice) : IdentityField → FieldValue
  | .amount => .number invoice.amount
  | .assetCode => .text invoice.assetCode
  | .assetIssuer => .ofText invoice.assetIssuer
  | .sellerPublicKey => .text invoice.sellerPublicKey

namespace ExistingInvoice

def identity (found : ExistingInvoice) : IdentityField → FieldValue
  | .amount => .number found.amount
  | .assetCode => .text found.assetCode
  | .assetIssuer => .ofText found.assetIssuer
  | .sellerPublicKey => .text found.sellerPublicKey

def field (found : ExistingInvoice) : MutableField → FieldValue
  | .sellerName => .ofText found.sellerName
  | .sellerEmail => .ofText found.sellerEmail
  | .customerName => .ofText found.customerName
  | .customerEmail => .ofText found.customerEmail
  | .description => .ofText found.description
  | .expiresAt => .date (some found.expiresAt)
  | .metadata => .ofJson found.metadata

end ExistingInvoice

/-- `new Date(ms)`: an instant out of range is an invalid date. -/
def timeClip (ms : Int) : Option Int :=
  if |ms| ≤ 8640000000000000 then some ms else none

/-- `expiryFor`; the clock is read only if the row gives no creation time. -/
def expiryFor (row : ValidatedRow) (now : Int) : Option Int :=
  match row.invoice.expiresAt with
  | some ms => some ms
  | none => timeClip (row.invoice.createdAt.getD now + row.invoice.expiresInDays * dayInMs)

def normalisedField (row : ValidatedRow) (now : Int) : MutableField → FieldValue
  | .sellerName => .ofText row.invoice.sellerName
  | .sellerEmail => .ofText row.invoice.sellerEmail
  | .customerName => .ofText row.invoice.customerName
  | .customerEmail => .ofText row.invoice.customerEmail
  | .description => .ofText row.invoice.description
  | .expiresAt => .date (expiryFor row now)
  | .metadata => .ofJson row.invoice.metadata

/-! ## Planned rows -/

/-- One entry of `changes`: what is stored and what the row asks for. -/
structure Change where
  field : MutableField
  current : FieldValue
  next : FieldValue

structure PlannedRow where
  line : Nat
  action : ImportAction
  externalId : Option String := none
  invoice : Option ImportInvoice := none
  existingId : Option String := none
  changes : Option (List Change) := none
  errors : List ImportError := []
  warnings : List String := []

inductive OnError where
  | abort
  | skip
  deriving DecidableEq

structure Counts where
  create : Nat
  update : Nat
  skip : Nat
  error : Nat

structure ImportPlan where
  rows : List PlannedRow
  counts : Counts
  total : Nat
  formatErrors : List String
  onError : OnError

/-- The keys `external:…` and `memo:…`. -/
inductive IdentityKey where
  | external (id : String)
  | memo (memo : String)
  deriving DecidableEq

/-- The index of the stored invoices; a later record takes a key over. -/
def indexExisting (existing : List ExistingInvoice) :
    InsertionMap IdentityKey ExistingInvoice :=
  existing.foldl (fun byKey record =>
    let byKey := match nonEmpty record.externalId with
      | some id => byKey.set (.external id) record
      | none => byKey
    byKey.set (.memo record.memo) record) empty

def identityKeys (row : ValidatedRow) : List IdentityKey :=
  ((nonEmpty row.externalId).map IdentityKey.external).toList
    ++ ((nonEmpty row.invoice.memo).map IdentityKey.memo).toList

/-- An identity field is compared unless it is an issuer the row does not
    name. -/
def identityErrors (row : ValidatedRow) (found : ExistingInvoice) (line : Nat) : List ImportError :=
  identityFields.filterMap (fun field =>
    if field = .assetIssuer ∧ row.assetIssuerSupplied = false then none
    else
      let next := row.invoice.identity field
      let current := found.identity field
      if sameValue next current then none
      else some (.report line (some field.column)
        (field.column.name ++ " differs from the stored invoice ("
          ++ current.toText ++ " -> " ++ next.toText
          ++ "); a payment's terms are not editable by import")))

/-- The supplied fields that differ from the stored invoice. -/
def changesFor (row : ValidatedRow) (found : ExistingInvoice) (now : Int) :
    List Change :=
  mutableFields.filterMap (fun field =>
    if field ∈ row.supplied then
      let next := normalisedField row now field
      let current := found.field field
      if sameValue next current then none else some ⟨field, current, next⟩
    else none)

def duplicateRow (row : ValidatedRow) (line seen : Nat) : PlannedRow where
  line := line
  action := .error
  externalId := row.externalId
  errors := [.report line (some (if nonEmpty row.externalId = none then .memo
      else .externalId))
    ("duplicate: already defined on row " ++ Nat.repr seen ++ " of this file")]

def createRow (row : ValidatedRow) (line : Nat) : PlannedRow where
  line := line
  action := .create
  externalId := row.externalId
  invoice := some row.invoice
  warnings := if row.nonIdempotent then
    ["no externalId supplied, so this row is not idempotent: re-running the file will create a second invoice"]
    else []

/-- The decision about a row that names a stored invoice. -/
def matchedRow (row : ValidatedRow) (found : ExistingInvoice) (line : Nat)
    (now : Int) : PlannedRow :=
  let errors := identityErrors row found line
  let changes := changesFor row found now
  if errors.isEmpty = false then
    { line := line, action := .error, externalId := row.externalId
      existingId := some found.id, errors := errors }
  else if found.status = .paid ∧ changes.isEmpty = false then
    { line := line, action := .error, externalId := row.externalId
      existingId := some found.id
      errors := [.report line none
        ("invoice is already PAID; refusing to modify a settled invoice ("
          ++ ", ".intercalate (changes.map (fun c => c.field.column.name))
          ++ ")")] }
  else
    { line := line
      action := if changes.isEmpty then .skip else .update
      externalId := row.externalId
      invoice := some row.invoice
      existingId := some found.id
      changes := if changes.isEmpty then none else some changes }

abbrev Claimed := InsertionMap IdentityKey Nat

def claim (keys : List IdentityKey) (line : Nat) (claimed : Claimed) :
    Claimed :=
  keys.foldl (fun claimed key => claimed.set key line) claimed

/-- One turn of the loop, for a row that passed validation. -/
def planValid (byKey : InsertionMap IdentityKey ExistingInvoice)
    (claimed : Claimed) (row : ValidatedRow) (line : Nat) (now : Int) :
    PlannedRow × Claimed :=
  let keys := identityKeys row
  match keys.findSome? claimed.get with
  | some seen => (duplicateRow row line seen, claimed)
  | none =>
    let planned := match keys.findSome? byKey.get with
      | none => createRow row line
      | some found => matchedRow row found line now
    (planned,
      if planned.action = .error then claimed
      else claim keys line claimed)

/-- The loop of `planImport`.  Row `n` reads the clock as `clock n`. -/
def planRows (p : Platform) (byKey : InsertionMap IdentityKey ExistingInvoice) (clock : Nat → Int) :
    Nat → Claimed → List RawImportRow → Except Thrown (List PlannedRow)
  | _, _, [] => .ok []
  | n, claimed, raw :: rest =>
    match validateRow p raw with
    | .error thrown => .error thrown
    | .ok (.error errors) =>
      (planRows p byKey clock (n + 1) claimed rest).map (fun rows =>
        { line := raw.line, action := .error, errors := errors } :: rows)
    | .ok (.ok row) =>
      let turn := planValid byKey claimed row raw.line (clock n)
      (planRows p byKey clock (n + 1) turn.2 rest).map (turn.1 :: ·)

def countOf (action : ImportAction) (rows : List PlannedRow) : Nat :=
  (rows.filter (fun row => row.action = action)).length

def planImport (p : Platform) (existing : List ExistingInvoice)
    (onError : OnError) (clock : Nat → Int) (rows : List RawImportRow) :
    Except Thrown ImportPlan :=
  (planRows p (indexExisting existing) clock 0 empty rows).map (fun planned =>
      let errors := countOf .error planned
      { rows := planned
        counts := ⟨countOf .create planned, countOf .update planned, countOf .skip planned, errors⟩
        total := planned.length
        formatErrors := if onError = .abort ∧ 0 < errors then
          ["refusing to import: " ++ Nat.repr errors
            ++ " row(s) failed validation and onError=abort is in effect"]
          else []
        onError := onError })

/-! ## Keys -/

/-- The stored invoice a row names: by its external id, else by its memo. -/
def resolve (byKey : InsertionMap IdentityKey ExistingInvoice)
    (row : ValidatedRow) : Option ExistingInvoice :=
  (identityKeys row).findSome? byKey.get

theorem get_claim (keys : List IdentityKey) (line : Nat) (claimed : Claimed) (k : IdentityKey) :
    (claim keys line claimed).get k = none ↔ k ∉ keys ∧ claimed.get k = none := by
  induction keys generalizing claimed with
  | nil => simp [claim]
  | cons hd rest ih =>
    show (claim rest line (claimed.set hd line)).get k = none ↔ _
    rw [ih, get_set]
    by_cases hk : hd = k
    · simp [hk]
    · simp [hk, Ne.symm hk]

theorem findSome?_eq_none_iff {V : Type} (m : InsertionMap IdentityKey V)
    (keys : List IdentityKey) : keys.findSome? m.get = none ↔ ∀ k ∈ keys, m.get k = none :=
  List.findSome?_eq_none_iff

variable {row : ValidatedRow}

theorem mem_identityKeys_external {e : String} :
    IdentityKey.external e ∈ identityKeys row ↔ nonEmpty row.externalId = some e := by
  simp [identityKeys]

theorem mem_identityKeys_memo {m : String} :
    IdentityKey.memo m ∈ identityKeys row ↔ nonEmpty row.invoice.memo = some m := by
  simp [identityKeys]

theorem resolve_eq_some {byKey : InsertionMap IdentityKey ExistingInvoice}
    {found : ExistingInvoice} :
    resolve byKey row = some found ↔ (∃ e, nonEmpty row.externalId = some e
        ∧ byKey.get (.external e) = some found) ∨
      ((∀ e, nonEmpty row.externalId = some e → byKey.get (.external e) = none)
        ∧ ∃ m, nonEmpty row.invoice.memo = some m ∧ byKey.get (.memo m) = some found) := by
  rw [resolve, identityKeys]
  cases hext : nonEmpty row.externalId with
  | none => cases nonEmpty row.invoice.memo <;> simp
  | some e =>
    cases hget : byKey.get (.external e) with
    | some other => simp [hget]
    | none =>
      cases nonEmpty row.invoice.memo <;> simp [hget]

/-! ## The index of the stored invoices -/

/-- The stored invoices as a table: no two share an id, a memo or a non-null
    external id. -/
structure Distinct (existing : List ExistingInvoice) : Prop where
  ids : (existing.map ExistingInvoice.id).Nodup
  memos : (existing.map ExistingInvoice.memo).Nodup
  externalIds : existing.Pairwise (fun a b => a.externalId ≠ none → a.externalId ≠ b.externalId)

/-- The keys a stored invoice is filed under. -/
def recordKeys (record : ExistingInvoice) : List IdentityKey :=
  ((nonEmpty record.externalId).map IdentityKey.external).toList ++ [.memo record.memo]

variable {existing : List ExistingInvoice} {V : Type}

theorem get_indexStep (byKey : InsertionMap IdentityKey V)
    (externalId : Option String) (memo : String) (record : V) (k : IdentityKey) :
    ((match nonEmpty externalId with
      | some id => byKey.set (.external id) record
      | none => byKey).set (.memo memo) record).get k
      = if k ∈ ((nonEmpty externalId).map IdentityKey.external).toList ++ [.memo memo]
        then some record else byKey.get k := by
  rw [get_set]
  cases hext : nonEmpty externalId with
  | none =>
    simp only [map_none, toList_none, nil_append, mem_singleton]
    by_cases hk : IdentityKey.memo memo = k
    · rw [if_pos hk, if_pos hk.symm]
    · rw [if_neg hk, if_neg (Ne.symm hk)]
  | some e =>
    simp only [map_some, toList_some, singleton_append, mem_cons, not_mem_nil, or_false]
    by_cases hk : IdentityKey.memo memo = k
    · rw [if_pos hk, if_pos (.inr hk.symm)]
    rw [if_neg hk, get_set]
    by_cases he : IdentityKey.external e = k
    · rw [if_pos he, if_pos (.inl he.symm)]
    rw [if_neg he, if_neg]
    rintro (rfl | rfl)
    · exact he rfl
    · exact hk rfl

/-- **FILING**: a loop that files records under their keys finds the one record
    of a key, if no key belongs to two. -/
theorem get_filed (keysOf : V → List IdentityKey)
    {step : InsertionMap IdentityKey V → V → InsertionMap IdentityKey V}
    (hstep : ∀ byKey record k, (step byKey record).get k
      = if k ∈ keysOf record then some record else byKey.get k)
    {l : List V} (hkeys : ∀ a ∈ l, ∀ b ∈ l, ∀ k ∈ keysOf a, k ∈ keysOf b → a = b)
    (k : IdentityKey) (found : V) :
    (l.foldl step empty).get k = some found ↔ found ∈ l ∧ k ∈ keysOf found := by
  induction l using reverseRecOn with
  | nil =>
    constructor
    · intro h
      cases h
    rintro ⟨hmem, -⟩
    cases hmem
  | append_singleton l last ih =>
    have hlast : last ∈ l ++ [last] := mem_append_right _ (.head _)
    rw [foldl_append, foldl_cons, foldl_nil, hstep]
    by_cases hk : k ∈ keysOf last
    · rw [if_pos hk]
      constructor
      · intro h
        cases h
        exact ⟨hlast, hk⟩
      rintro ⟨hmem, hfound⟩
      rw [hkeys last hlast found hmem k hk hfound]
    · rw [if_neg hk, ih (fun a ha b hb => hkeys a (mem_append_left _ ha) b (mem_append_left _ hb))]
      constructor
      · rintro ⟨hmem, hfound⟩
        exact ⟨mem_append_left _ hmem, hfound⟩
      rintro ⟨hmem, hfound⟩
      rcases mem_append.mp hmem with hmem | hmem
      · exact ⟨hmem, hfound⟩
      rw [mem_singleton.mp hmem] at hfound
      exact absurd hfound hk

/-- No key belongs to two different records. -/
def Keyed (existing : List ExistingInvoice) : Prop :=
  ∀ a ∈ existing, ∀ b ∈ existing, ∀ k ∈ recordKeys a, k ∈ recordKeys b → a = b

theorem Keyed.get_indexExisting (h : Keyed existing) (k : IdentityKey) (found : ExistingInvoice) :
    (indexExisting existing).get k = some found ↔ found ∈ existing ∧ k ∈ recordKeys found :=
  get_filed recordKeys (fun byKey record k => get_indexStep byKey
    record.externalId record.memo record k) h k found

theorem Distinct.recordKeys_disjoint (h : Distinct existing) :
    existing.Pairwise (fun a b => ∀ k ∈ recordKeys a, k ∉ recordKeys b) := by
  have hmemos : existing.Pairwise (fun a b => a.memo ≠ b.memo) := pairwise_map.mp h.memos
  refine (hmemos.and h.externalIds).imp ?_
  rintro a b ⟨hmemo, hext⟩ k ha hb
  simp only [recordKeys, mem_append, mem_toList, map_eq_some_iff, mem_singleton] at ha hb
  rcases ha with ⟨e, hea, rfl⟩ | rfl
  · rcases hb with ⟨e', heb, heq⟩ | hb
    · obtain rfl := IdentityKey.external.inj heq
      have hexta := eq_of_nonEmpty hea
      have hextb := eq_of_nonEmpty heb
      exact hext (by rw [hexta]; exact some_ne_none _) (by rw [hexta, hextb])
    · cases hb
  · rcases hb with ⟨e', -, heq⟩ | hb
    · cases heq
    · exact hmemo (IdentityKey.memo.inj hb)

theorem Distinct.keyed (h : Distinct existing) : Keyed existing := by
  intro a ha b hb k hka hkb
  by_contra hne
  have hsymm : Std.Symm (fun a b : ExistingInvoice => ∀ k ∈ recordKeys a, k ∉ recordKeys b) :=
    ⟨fun _ _ hab k hkb hka => hab k hka hkb⟩
  exact h.recordKeys_disjoint.forall ha hb hne k hka hkb

/-- **THE INDEX**: a key finds the one stored invoice filed under it. -/
theorem Distinct.get_indexExisting
    (h : Distinct existing) (k : IdentityKey) (found : ExistingInvoice) :
    (indexExisting existing).get k = some found ↔ found ∈ existing ∧ k ∈ recordKeys found :=
  h.keyed.get_indexExisting k found

/-! ## Terms and changes -/

/-- Every identity field the row supplies equals the stored one. -/
def termsAgree (row : ValidatedRow) (found : ExistingInvoice) : Bool :=
  identityFields.all (fun field =>
    (field == .assetIssuer && !row.assetIssuerSupplied)
      || sameValue (row.invoice.identity field) (found.identity field))

theorem identityErrors_eq_nil (row : ValidatedRow) (found : ExistingInvoice) (line : Nat) :
    identityErrors row found line = [] ↔ termsAgree row found = true := by
  rw [identityErrors, termsAgree, List.filterMap_eq_nil_iff, List.all_eq_true]
  refine forall₂_congr ?_
  intro field _
  by_cases hskip : field = .assetIssuer ∧ row.assetIssuerSupplied = false
  · rw [if_pos hskip]
    simp [hskip.1, hskip.2]
  rw [if_neg hskip]
  have hfalse : (field == .assetIssuer && !row.assetIssuerSupplied) = false := by
    simp only [Bool.and_eq_false_iff, beq_eq_false_iff_ne, Bool.not_eq_false']
    by_cases hf : field = .assetIssuer
    · exact .inr (eq_true_of_ne_false (fun hs => hskip ⟨hf, hs⟩))
    · exact .inl hf
  rw [hfalse, Bool.false_or]
  by_cases hsame : sameValue (row.invoice.identity field) (found.identity field) = true
  · simp [hsame]
  · simp [hsame]

theorem mem_mutableFields (field : MutableField) : field ∈ mutableFields := by
  cases field <;> decide

theorem changesFor_eq_nil (row : ValidatedRow) (found : ExistingInvoice) (now : Int) :
    changesFor row found now = [] ↔ ∀ field ∈ row.supplied,
      sameValue (normalisedField row now field) (found.field field) = true := by
  rw [changesFor, filterMap_eq_nil_iff]
  constructor
  · intro h field hsup
    have hf := h field (mem_mutableFields field)
    rw [if_pos hsup] at hf
    by_contra hsame
    simp [hsame] at hf
  intro h field _
  by_cases hsup : field ∈ row.supplied
  · rw [if_pos hsup]
    simp [h field hsup]
  · rw [if_neg hsup]

/-! ## One turn of the loop -/

/-- The decision about a row whose keys are free. -/
def freshRow (byKey : InsertionMap IdentityKey ExistingInvoice)
    (row : ValidatedRow) (line : Nat) (now : Int) : PlannedRow :=
  match resolve byKey row with
  | none => createRow row line
  | some found => matchedRow row found line now

section Turn

variable {p : Platform} {byKey : InsertionMap IdentityKey ExistingInvoice}
  {clock : Nat → Int} {claimed : Claimed} {row : ValidatedRow}
  {line n : Nat} {now : Int}

theorem planValid_duplicate (h : ¬ ∀ k ∈ identityKeys row, claimed.get k = none) :
    ∃ seen, planValid byKey claimed row line now = (duplicateRow row line seen, claimed) := by
  rw [planValid]
  cases hseen : (identityKeys row).findSome? claimed.get with
  | none => exact absurd ((findSome?_eq_none_iff _ _).mp hseen) h
  | some seen => exact ⟨seen, rfl⟩

theorem planValid_fresh (h : ∀ k ∈ identityKeys row, claimed.get k = none) :
    planValid byKey claimed row line now = (freshRow byKey row line now,
        if (freshRow byKey row line now).action = .error then claimed
        else claim (identityKeys row) line claimed) := by
  rw [planValid, (findSome?_eq_none_iff _ _).mpr h]
  rfl

theorem planRows_cons {raw : RawImportRow} {rest : List RawImportRow} {out : List PlannedRow}
    (h : planRows p byKey clock n claimed (raw :: rest) = .ok out) :
    (∃ errors rows, validateRow p raw = .ok (.error errors)
      ∧ planRows p byKey clock (n + 1) claimed rest = .ok rows
      ∧ out = { line := raw.line, action := .error, errors := errors } :: rows) ∨
    (∃ row rows, validateRow p raw = .ok (.ok row) ∧ planRows p byKey clock (n + 1)
          (planValid byKey claimed row raw.line (clock n)).2 rest = .ok rows
      ∧ out = (planValid byKey claimed row raw.line (clock n)).1 :: rows) := by
  rw [planRows] at h
  cases hv : validateRow p raw with
  | error thrown =>
    rw [hv] at h
    cases h
  | ok verdict =>
    rw [hv] at h
    cases verdict with
    | error errors =>
      left
      cases hrest : planRows p byKey clock (n + 1) claimed rest with
      | error thrown => rw [hrest] at h; cases h
      | ok rows =>
        rw [hrest] at h
        exact ⟨errors, rows, rfl, rfl, (Except.ok.inj h).symm⟩
    | ok row =>
      right
      cases hrest : planRows p byKey clock (n + 1)
          (planValid byKey claimed row raw.line (clock n)).2 rest with
      | error thrown => simp only [hrest] at h; cases h
      | ok rows =>
        simp only [hrest] at h
        exact ⟨row, rows, rfl, hrest, (Except.ok.inj h).symm⟩

theorem matchedRow_cases (row : ValidatedRow) (found : ExistingInvoice) (line : Nat) (now : Int) :
    (matchedRow row found line now).action = .error ∨
    (identityErrors row found line = [] ∧ (found.status = .paid → changesFor row found now = [])
      ∧ matchedRow row found line now =
        { line := line
          action := if (changesFor row found now).isEmpty then .skip
            else .update
          externalId := row.externalId
          invoice := some row.invoice
          existingId := some found.id
          changes := if (changesFor row found now).isEmpty then none
            else some (changesFor row found now) }) := by
  by_cases herr : (identityErrors row found line).isEmpty = false
  · left
    simp only [matchedRow, if_pos herr]
  by_cases hpaid : found.status = .paid ∧ (changesFor row found now).isEmpty = false
  · left
    simp only [matchedRow, if_neg herr, if_pos hpaid]
  right
  refine ⟨?_, ?_, ?_⟩
  · exact isEmpty_iff.mp (eq_true_of_ne_false herr)
  · intro hp
    have hnot : ¬ (changesFor row found now).isEmpty = false :=
      fun hc => hpaid ⟨hp, hc⟩
    exact isEmpty_iff.mp (eq_true_of_ne_false hnot)
  · simp only [matchedRow, if_neg herr, if_neg hpaid]

/-- A row with free keys is reported exactly when it disagrees with the terms
    of the invoice it names, or would change it though it is paid. -/
def admissible (byKey : InsertionMap IdentityKey ExistingInvoice)
    (row : ValidatedRow) (now : Int) : Bool :=
  match resolve byKey row with
  | none => true
  | some found => termsAgree row found && (decide (found.status ≠ .paid)
        || (changesFor row found now).isEmpty)

theorem freshRow_accepted (byKey : InsertionMap IdentityKey ExistingInvoice)
    (row : ValidatedRow) (line : Nat) (now : Int) :
    (freshRow byKey row line now).action ≠ .error ↔ admissible byKey row now = true := by
  rw [freshRow, admissible]
  cases resolve byKey row with
  | none => simp [createRow]
  | some found =>
    simp only
    by_cases herr : termsAgree row found = true
    · have hnil := (identityErrors_eq_nil row found line).mpr herr
      rw [herr, Bool.true_and]
      by_cases hpaid : found.status = .paid
      · by_cases hc : (changesFor row found now).isEmpty = true
        · simp [matchedRow, hnil, hpaid, hc]
        · simp [matchedRow, hnil, hpaid, hc]
      by_cases hc : (changesFor row found now).isEmpty = true
      · simp [matchedRow, hnil, hpaid, hc]
      · simp [matchedRow, hnil, hpaid, hc]
    · have hsome : (identityErrors row found line).isEmpty = false := by
        refine eq_false_of_ne_true ?_
        intro hempty
        exact herr ((identityErrors_eq_nil row found line).mp (isEmpty_iff.mp hempty))
      simp [matchedRow, hsome, herr]

theorem freshRow_line : (freshRow byKey row line now).line = line := by
  rw [freshRow]
  cases resolve byKey row with
  | none => rfl
  | some found =>
    simp only [matchedRow]
    split
    · rfl
    · split <;> rfl

theorem freshRow_data (h : (freshRow byKey row line now).action ≠ .error) :
    (freshRow byKey row line now).externalId = row.externalId
    ∧ (freshRow byKey row line now).invoice = some row.invoice
    ∧ (freshRow byKey row line now).existingId = (resolve byKey row).map ExistingInvoice.id
    ∧ ((freshRow byKey row line now).action = .create ↔ resolve byKey row = none) := by
  rw [freshRow] at h ⊢
  cases hres : resolve byKey row with
  | none => exact ⟨rfl, rfl, rfl, ⟨fun _ => rfl, fun _ => rfl⟩⟩
  | some found =>
    rw [hres] at h
    rcases matchedRow_cases row found line now with herr | ⟨-, -, heq⟩
    · exact absurd herr h
    simp only [heq]
    refine ⟨trivial, trivial, rfl, ?_⟩
    by_cases hc : (changesFor row found now).isEmpty = true
    · simp [hc]
    · simp [hc]

end Turn

variable {existing : List ExistingInvoice} {rows : List RawImportRow} {onError : OnError}
  {clock : Nat → Int} {p : Platform}

theorem planImport_rows {plan : ImportPlan}
    (h : planImport p existing onError clock rows = .ok plan) :
    planRows p (indexExisting existing) clock 0 empty rows = .ok plan.rows := by
  rw [planImport] at h
  cases hrows : planRows p (indexExisting existing) clock 0 empty rows with
  | error thrown => rw [hrows] at h; cases h
  | ok planned =>
    rw [hrows] at h
    rw [← Except.ok.inj h]

theorem planImport_returns {V : Type} {f : ImportPlan → V} {v : V}
    (h : (planImport p existing onError clock rows).toOption.map f = some v) :
    ∃ plan, planImport p existing onError clock rows = .ok plan ∧ f plan = v := by
  cases hplan : planImport p existing onError clock rows with
  | error thrown => rw [hplan] at h; cases h
  | ok plan =>
    rw [hplan] at h
    exact ⟨plan, rfl, some.inj h⟩

end Imports

import Inqutum.InvoiceProofs
import Inqutum.ScriptValueProofs
import Mathlib.Data.List.Infix

/-!
# The permission-aware search index

`PermissionAwareSearchIndex` maps an invoice's identifier to the record
that can be searched for.  An operator hides a record by revoking its
visibility or by marking it deleted; `search` passes over a hidden record
before it looks at the actor or the query, so a record can be found by
somebody exactly when it is not hidden (`findable_iff`).

`indexedAt` and `updatedAt` are written and never read; they are left
out.  An invoice may come from storage or from the payload of an event,
where only some members are checked, so the two optional texts are script
values here.  `toLowerCase` belongs to the engine and is a parameter.
-/

namespace SearchIndex

open Canonical
open Invoices (InvoiceStatus)
open JsonText (Text ascii)
open InsertionMap

/-! ## Records -/

inductive VisibilityLevel where
  | «public»
  | internal
  | confidential
  | revoked
  deriving DecidableEq

/-- What the index reads of an invoice. -/
structure InvoiceSnapshot where
  id : Text
  sellerPublicKey : Text
  customerEmail : JsValue
  amount : JsNumber
  assetCode : Text
  description : JsValue
  memo : Text
  status : InvoiceStatus

/-- An invoice of the storage: its amount is a finite number. -/
structure StoredInvoice extends InvoiceSnapshot where
  finite : amount.isFinite = true

structure IndexedInvoiceRecord extends InvoiceSnapshot where
  visibility : VisibilityLevel
  isDeleted : Bool

inductive SearchRole where
  | admin
  | seller
  | viewer
  | anonymous
  deriving DecidableEq

structure SearchActor where
  role : SearchRole
  walletAddress : Option Text := none

/-- `record.isDeleted || record.visibility === 'REVOKED'`. -/
def IndexedInvoiceRecord.hidden (record : IndexedInvoiceRecord) : Bool :=
  record.isDeleted || record.visibility = .revoked

/-! ## The index -/

/-- Every record stands under its own identifier. -/
structure PermissionAwareSearchIndex where
  index : InsertionMap Text IndexedInvoiceRecord
  keyed : ∀ id record, index.get id = some record → record.id = id

namespace PermissionAwareSearchIndex

@[ext] theorem ext_index {ix ix' : PermissionAwareSearchIndex}
    (h : ix.index = ix'.index) : ix = ix' := by
  cases ix
  cases ix'
  cases h
  rfl

/-- `this.index.get(id)`. -/
def get (ix : PermissionAwareSearchIndex) (id : Text) :
    Option IndexedInvoiceRecord :=
  ix.index.get id

/-- `new PermissionAwareSearchIndex()`. -/
def new : PermissionAwareSearchIndex :=
  ⟨.empty, nofun⟩

/-- `this.index.set(record.id, record)`. -/
def put (ix : PermissionAwareSearchIndex) (record : IndexedInvoiceRecord) :
    PermissionAwareSearchIndex where
  index := ix.index.set record.id record
  keyed := by
    intro id found h
    rw [get_set] at h
    split at h
    · next hid =>
        cases h
        exact hid
    · exact ix.keyed id found h

/-- `purge`: out of the index. -/
def purge (ix : PermissionAwareSearchIndex) (invoiceId : Text) : PermissionAwareSearchIndex where
  index := ix.index.delete invoiceId
  keyed := by
    intro id found h
    rw [get_delete] at h
    split at h
    · cases h
    · exact ix.keyed id found h

theorem get_put (ix : PermissionAwareSearchIndex) (record : IndexedInvoiceRecord) (id : Text) :
    (ix.put record).get id = if record.id = id then some record else ix.get id :=
  get_set ix.index record.id record id

def indexInvoice (ix : PermissionAwareSearchIndex) (invoice : InvoiceSnapshot)
    (visibility : VisibilityLevel := .internal) :
    PermissionAwareSearchIndex :=
  let existing := ix.get invoice.id
  ix.put { invoice with
    visibility := match existing with
      | some record => record.visibility
      | none => visibility
    isDeleted := false }

def setVisibility (ix : PermissionAwareSearchIndex) (invoiceId : Text)
    (visibility : VisibilityLevel) : PermissionAwareSearchIndex :=
  match ix.get invoiceId with
  | none => ix
  | some record => ix.put { record with visibility := visibility }

/-- Marks the record deleted; it stays in the index. -/
def removeIndexRecord (ix : PermissionAwareSearchIndex) (invoiceId : Text) :
    PermissionAwareSearchIndex :=
  match ix.get invoiceId with
  | none => ix
  | some record => ix.put { record with isDeleted := true }

/-- Every record, hidden ones too. -/
def exportRecords (ix : PermissionAwareSearchIndex) :
    List IndexedInvoiceRecord :=
  ix.index.values

/-- `replaceAll(records)`, whatever was in the index. -/
def replaceAll (records : List IndexedInvoiceRecord) : PermissionAwareSearchIndex where
  index := .collect (fun record => record.id) records
  keyed := by
    intro id record h
    rw [get_collect] at h
    have hfound := List.find?_some h
    exact of_decide_eq_true hfound

/-! ## What the operations leave in the index -/

theorem id_of_get {ix : PermissionAwareSearchIndex} {id : Text}
    {record : IndexedInvoiceRecord} (h : ix.get id = some record) : record.id = id :=
  ix.keyed id record h

theorem get_purge (ix : PermissionAwareSearchIndex) (invoiceId id : Text) :
    (ix.purge invoiceId).get id = if invoiceId = id then none else ix.get id :=
  get_delete ix.index invoiceId id

theorem get_indexInvoice (ix : PermissionAwareSearchIndex)
    (invoice : InvoiceSnapshot) (visibility : VisibilityLevel) (id : Text) :
    (ix.indexInvoice invoice visibility).get id = if invoice.id = id then
          some ⟨invoice, ((ix.get id).map (fun record => record.visibility)).getD visibility, false⟩
        else ix.get id := by
  rw [indexInvoice, get_put]
  by_cases hid : invoice.id = id
  · rw [if_pos hid, if_pos hid, hid]
    cases ix.get id <;> rfl
  · rw [if_neg hid, if_neg hid]

theorem get_setVisibility (ix : PermissionAwareSearchIndex)
    (invoiceId : Text) (visibility : VisibilityLevel) (id : Text) :
    (ix.setVisibility invoiceId visibility).get id
      = if invoiceId = id then (ix.get id).map (fun record =>
          { record with visibility := visibility })
        else ix.get id := by
  rw [setVisibility]
  cases h : ix.get invoiceId with
  | none =>
    by_cases hid : invoiceId = id
    · rw [if_pos hid, ← hid, h]
      rfl
    · rw [if_neg hid]
  | some record =>
    show (ix.put _).get id = _
    rw [get_put, id_of_get h]
    by_cases hid : invoiceId = id
    · rw [if_pos hid, if_pos hid, ← hid, h]
      rfl
    · rw [if_neg hid, if_neg hid]

theorem mem_exportRecords (ix : PermissionAwareSearchIndex) (record : IndexedInvoiceRecord) :
    record ∈ ix.exportRecords ↔ ix.get record.id = some record := by
  constructor
  · exact get_of_mem_values ix.keyed
  intro h
  exact (ix.index.mem_values_iff record).mpr ⟨record.id, h⟩

/-- **THE EXPORT IS THE INDEX**: putting the exported records back restores
    it. -/
theorem replaceAll_exportRecords (ix : PermissionAwareSearchIndex) :
    replaceAll ix.exportRecords = ix :=
  ext_index (collect_values ix.keyed)

end PermissionAwareSearchIndex

/-! ## Searching -/

/-- What the engine makes of a text's letters. -/
structure Lowering where
  /-- `text.toLowerCase()`. -/
  toLowerCase : Text → Text
  toLowerCase_nil : toLowerCase [] = []

/-- `value.toLowerCase` is not a function. -/
inductive SearchError where
  | typeError

namespace PermissionAwareSearchIndex

def canActorAccessRecord (actor : SearchActor) (record : IndexedInvoiceRecord) : Bool :=
  if record.visibility = .revoked || record.isDeleted then false
  else if actor.role = .admin then true
  else if record.visibility = .«public» then true
  else if actor.role = .seller then
    match actor.walletAddress with
    | none => record.visibility = .internal
    | some address =>
      if address ≠ [] ∧ record.sellerPublicKey = address then true
      else record.visibility = .internal
  else if actor.role = .viewer then record.visibility = .internal
  else false

/-- `text.toLowerCase().includes(query)`. -/
def includes (low : Lowering) (query text : Text) : Bool :=
  decide (query <:+: low.toLowerCase text)

/-- `value && value.toLowerCase().includes(query)`. -/
def optionalIncludes (low : Lowering) (query : Text) (value : JsValue) :
    Except SearchError Bool :=
  if !truthy value then .ok false
  else match value with
    | .str text => .ok (includes low query text)
    | _ => .error .typeError

/-- The query filter, evaluated from the left. -/
def matchesQuery (low : Lowering) (query : Text)
    (record : IndexedInvoiceRecord) : Except SearchError Bool :=
  if includes low query record.id || includes low query record.memo
      || includes low query record.assetCode then .ok true
  else match optionalIncludes low query record.description with
    | .error thrown => .error thrown
    | .ok true => .ok true
    | .ok false => optionalIncludes low query record.customerEmail

/-- The loop of `search`. -/
def searchLoop (low : Lowering) (normalizedQuery : Text) (actor : SearchActor) :
    List IndexedInvoiceRecord → Except SearchError (List IndexedInvoiceRecord)
  | [] => .ok []
  | record :: rest =>
    if record.hidden then searchLoop low normalizedQuery actor rest
    else if !canActorAccessRecord actor record then
      searchLoop low normalizedQuery actor rest
    else if normalizedQuery = [] then
      (searchLoop low normalizedQuery actor rest).map (record :: ·)
    else match matchesQuery low normalizedQuery record with
      | .error thrown => .error thrown
      | .ok false => searchLoop low normalizedQuery actor rest
      | .ok true => (searchLoop low normalizedQuery actor rest).map (record :: ·)

def search (low : Lowering) (ix : PermissionAwareSearchIndex) (query : Text) (actor : SearchActor) :
    Except SearchError (List IndexedInvoiceRecord) :=
  searchLoop low (low.toLowerCase (trim query)) actor ix.index.values

theorem mem_of_searchLoop (low : Lowering) (query : Text)
    (actor : SearchActor) (records : List IndexedInvoiceRecord) :
    ∀ results, searchLoop low query actor records = .ok results →
      ∀ record ∈ results, record ∈ records ∧ record.hidden = false := by
  induction records with
  | nil =>
    intro results h record hmem
    cases h
    cases hmem
  | cons head rest ih =>
    have skip : ∀ results, searchLoop low query actor rest = .ok results → ∀ record ∈ results,
          record ∈ head :: rest ∧ record.hidden = false := by
      intro results h record hmem
      obtain ⟨hin, hshown⟩ := ih results h record hmem
      exact ⟨.tail _ hin, hshown⟩
    have keep : head.hidden = false → ∀ results,
        (searchLoop low query actor rest).map (head :: ·) = .ok results →
        ∀ record ∈ results, record ∈ head :: rest ∧ record.hidden = false := by
      intro hshown results h record hmem
      cases hrest : searchLoop low query actor rest with
      | error thrown =>
        rw [hrest] at h
        cases h
      | ok found =>
        rw [hrest] at h
        cases h
        rcases List.mem_cons.mp hmem with rfl | hin
        · exact ⟨(.head _), hshown⟩
        · exact skip found hrest record hin
    intro results h
    rw [searchLoop] at h
    split at h
    · exact skip results h
    next hshown =>
      have hshown : head.hidden = false := by simpa using hshown
      split at h
      · exact skip results h
      split at h
      · exact keep hshown results h
      split at h
      · cases h
      · exact skip results h
      · exact keep hshown results h

theorem admin_accesses {record : IndexedInvoiceRecord} (h : record.hidden = false) :
    canActorAccessRecord { role := .admin } record = true := by
  rw [IndexedInvoiceRecord.hidden, Bool.or_comm] at h
  rw [canActorAccessRecord, h]
  rfl

theorem searchLoop_admin (low : Lowering) (records : List IndexedInvoiceRecord) :
    searchLoop low [] { role := .admin } records
      = .ok (records.filter (fun record => !record.hidden)) := by
  induction records with
  | nil => rfl
  | cons record rest ih =>
    rw [searchLoop, ih, List.filter_cons]
    cases hshown : record.hidden with
    | true => rfl
    | false =>
      rw [admin_accesses hshown]
      rfl

theorem search_admin (low : Lowering) (ix : PermissionAwareSearchIndex) :
    ix.search low [] { role := .admin }
      = .ok (ix.exportRecords.filter (fun record => !record.hidden)) := by
  have hquery : low.toLowerCase (trim []) = [] := low.toLowerCase_nil
  rw [search, hquery, searchLoop_admin]
  rfl

/-- Some search by some actor returns the record of this identifier. -/
def Findable (low : Lowering) (ix : PermissionAwareSearchIndex) (id : Text) : Prop :=
  ∃ query actor results, ix.search low query actor = .ok results ∧
    ∃ record ∈ results, record.id = id

/-- The index holds a hidden record of this identifier. -/
def Hides (ix : PermissionAwareSearchIndex) (id : Text) : Prop :=
  ∃ record, ix.get id = some record ∧ record.hidden = true

/-- **HIDDEN IS NOT FOUND, AND NOTHING ELSE IS**. -/
theorem findable_iff (low : Lowering) (ix : PermissionAwareSearchIndex) (id : Text) :
    ix.Findable low id ↔ ∃ record, ix.get id = some record ∧ record.hidden = false := by
  constructor
  · rintro ⟨query, actor, results, hsearch, record, hmem, rfl⟩
    obtain ⟨hin, hshown⟩ := mem_of_searchLoop low _ actor _ results hsearch record hmem
    exact ⟨record, (ix.mem_exportRecords record).mp hin, hshown⟩
  rintro ⟨record, hget, hshown⟩
  refine ⟨[], { role := .admin }, _, ix.search_admin low, record, ?_, id_of_get hget⟩
  refine List.mem_filter.mpr ⟨(ix.mem_exportRecords record).mpr ?_, ?_⟩
  · rw [id_of_get hget]
    exact hget
  rw [hshown]
  rfl

/-! ### What a search tells -/

/-- What the actor may not access is passed over. -/
theorem searchLoop_accessible (low : Lowering) (query : Text) (actor : SearchActor)
    (records : List IndexedInvoiceRecord) :
    searchLoop low query actor (records.filter (canActorAccessRecord actor))
      = searchLoop low query actor records := by
  induction records with
  | nil => rfl
  | cons record rest ih =>
    rw [List.filter_cons]
    cases haccess : canActorAccessRecord actor record with
    | false =>
      rw [if_neg Bool.false_ne_true, ih, searchLoop, haccess]
      exact (ite_self _).symm
    | true => rw [if_pos rfl, searchLoop, searchLoop, ih]

/-- **A SEARCH TELLS NOTHING** of the records its actor may not access: no
    result and no error depends on them. -/
theorem search_blind (low : Lowering) (query : Text) (actor : SearchActor)
    {ix ix' : PermissionAwareSearchIndex} (h : ix.exportRecords.filter (canActorAccessRecord actor)
      = ix'.exportRecords.filter (canActorAccessRecord actor)) :
    ix.search low query actor = ix'.search low query actor := by
  rw [search, search, ← searchLoop_accessible, ← searchLoop_accessible low _ _ ix'.index.values]
  exact congrArg _ h

def internalRecord : IndexedInvoiceRecord where
  id := ascii "i"
  sellerPublicKey := ascii "G"
  customerEmail := .null
  amount := 1
  assetCode := ascii "XLM"
  description := .null
  memo := ascii "m"
  status := .pending
  visibility := .internal
  isDeleted := false

/-- The memo of an internal record leads a stranger nowhere. -/
theorem search_blind_internal :
    (new.put internalRecord).search ⟨id, rfl⟩ (ascii "m") { role := .anonymous }
      = new.search ⟨id, rfl⟩ (ascii "m") { role := .anonymous } :=
  search_blind ⟨id, rfl⟩ (ascii "m") { role := .anonymous } rfl

end PermissionAwareSearchIndex

end SearchIndex

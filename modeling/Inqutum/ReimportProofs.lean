import Inqutum.ImportUndoProofs

/-!
# Importing a file again

A file whose rows carry an external id or a memo is meant to be imported
once: planned again, against the table the import left, every row should be
a skip.

A second run compares the row with what the first run stored.  Four things
can make the two differ: an expiry counted from the clock, an amount with
more than seven decimals, metadata that the column rewrites, and another
row of the file that writes the same field of the same invoice.
-/

namespace Imports

open Invoices List Option JsNumber FieldValue InvoiceRow

/-! ## What an update stores -/

/-- The value the planner reads back after an update wrote one. -/
def storedValue : FieldValue → FieldValue
  | .json value => .ofJson (driverMetadata (some (Json.jsonbParam value)))
  | value => value

/-- A change carries a value of its column's kind. -/
def Change.Sound (change : Change) : Prop :=
  match change.field with
  | .expiresAt => ∃ ms, change.next = .date (some ms)
  | .metadata => ∃ value, change.next = .json value
  | _ => ∃ text, change.next = .ofText text

theorem dateOf_timestampParam (ms : Int) : dateOf (timestampParam ms) = ms := by
  rw [dateOf, timestampParam]
  omega

theorem ofText_textParam (text : Option String) :
    ofText (ofText text).textParam = ofText text := by
  cases text <;> rfl

theorem storedValue_ofText (text : Option String) : storedValue (.ofText text) = .ofText text := by
  cases text <;> rfl

theorem field_applyChange (row : InvoiceRow) {change : Change}
    (h : change.Sound) (field : MutableField) :
    (toExistingInvoice (applyChange row change)).field field
      = if change.field = field then storedValue change.next
        else (toExistingInvoice row).field field := by
  obtain ⟨target, current, next⟩ := change
  cases target with
  | expiresAt =>
    obtain ⟨ms, rfl⟩ : ∃ ms, next = .date (some ms) := h
    cases field with
    | expiresAt =>
      rw [if_pos rfl]
      show FieldValue.date (some (dateOf (timestampParam ms))) = _
      rw [dateOf_timestampParam]
      rfl
    | _ => rfl
  | metadata =>
    obtain ⟨value, rfl⟩ : ∃ value, next = .json value := h
    cases field <;> rfl
  | _ =>
    obtain ⟨text, rfl⟩ : ∃ text, next = FieldValue.ofText text := h
    cases field <;>
      first
        | rfl
        | exact (ofText_textParam text).trans (storedValue_ofText text).symm

theorem field_applyChanges (row : InvoiceRow) {changes : List Change}
    (h : ∀ change ∈ changes, change.Sound) (field : MutableField) :
    (toExistingInvoice (changes.foldl applyChange row)).field field
      = changes.foldl (fun value change => if change.field = field
          then storedValue change.next else value) ((toExistingInvoice row).field field) := by
  induction changes generalizing row with
  | nil => rfl
  | cons change rest ih =>
    rw [foldl_cons, foldl_cons, ih _ (fun c hc => h c (.tail _ hc)),
      field_applyChange row (h change (.head _))]

theorem field_applyUpdate (row : InvoiceRow) (changes : List Change) (field : MutableField) :
    (toExistingInvoice (applyUpdate row changes)).field field
      = (toExistingInvoice (changes.foldl applyChange row)).field field := by
  rw [applyUpdate]
  by_cases hempty : changes.isEmpty = true
  · rw [if_pos hempty, isEmpty_iff.mp hempty]
    rfl
  rw [if_neg hempty]
  rfl

/-! ## What a row writes -/

/-- The row would change the field of the stored invoice. -/
def writes (kept : KeptRow) (found : ExistingInvoice) (field : MutableField) : Bool :=
  decide (field ∈ kept.row.supplied) && !sameValue (normalisedField kept.row kept.now field)
      (found.field field)

/-- The change of one field, if the row asks for one. -/
def changeOf (kept : KeptRow) (found : ExistingInvoice) (field : MutableField) : Option Change :=
  if writes kept found field then
    some ⟨field, found.field field, normalisedField kept.row kept.now field⟩
  else none

theorem changesFor_eq (kept : KeptRow) (found : ExistingInvoice) :
    changesFor kept.row found kept.now = mutableFields.filterMap (changeOf kept found) := by
  rw [changesFor]
  refine congrArg (fun f => mutableFields.filterMap f) ?_
  ext1 field
  rw [changeOf, writes]
  by_cases hsup : field ∈ kept.row.supplied
  · rw [if_pos hsup, decide_eq_true hsup, Bool.true_and]
    by_cases hsame : sameValue (normalisedField kept.row kept.now field) (found.field field) = true
    · simp [hsame]
    · simp [hsame]
  · simp [hsup]

theorem foldl_changeOf (kept : KeptRow) (found : ExistingInvoice)
    (field : MutableField) (value : FieldValue)
    {fields : List MutableField} (hnodup : fields.Nodup) :
    (fields.filterMap (changeOf kept found)).foldl (fun value change => if change.field = field
        then storedValue change.next else value) value
      = if field ∈ fields ∧ writes kept found field = true
        then storedValue (normalisedField kept.row kept.now field) else value := by
  induction fields generalizing value with
  | nil => rfl
  | cons hd rest ih =>
    obtain ⟨hnew, hrest⟩ := nodup_cons.mp hnodup
    by_cases hw : writes kept found hd = true
    · have hch : changeOf kept found hd = some ⟨hd, found.field hd,
          normalisedField kept.row kept.now hd⟩ := if_pos hw
      rw [filterMap_cons_some hch, foldl_cons, ih _ hrest]
      by_cases hf : hd = field
      · subst hf
        rw [if_neg (fun hand => hnew hand.1), if_pos rfl, if_pos ⟨(.head _), hw⟩]
      rw [if_neg hf]
      simp only [mem_cons, Ne.symm hf, false_or]
    · have hch : changeOf kept found hd = none := if_neg hw
      rw [filterMap_cons_none hch, ih _ hrest]
      by_cases hf : hd = field
      · subst hf
        rw [if_neg (fun hand => hw hand.2), if_neg (fun hand => hw hand.2)]
      · simp only [mem_cons, Ne.symm hf, false_or]

section Written

variable {p : Platform} {raw : RawImportRow} {found : ExistingInvoice} {row : ValidatedRow}
  {kept : KeptRow}

theorem metadata_of_supplied (hv : validateRow p raw = .ok (.ok row))
    (hsup : MutableField.metadata ∈ row.supplied) :
    ∃ members, row.invoice.metadata = some (.obj members) := by
  obtain ⟨-, -, hsupplied, hmeta⟩ := validateRow_ok hv
  rw [hsupplied] at hsup
  have hgiven : (JsText.nonEmpty (raw.values .metadata)).isSome = true :=
    (mem_filter.mp hsup).2
  obtain ⟨text, htext⟩ := isSome_iff_exists.mp hgiven
  rw [parseMetadata, htext] at hmeta
  simp only at hmeta
  split at hmeta
  · cases hmeta
  · rename_i members _
    split at hmeta
    · cases hmeta
    · exact ⟨members, (Except.ok.inj hmeta).symm⟩
  · cases hmeta

theorem supplied_of_metadata (hv : validateRow p raw = .ok (.ok row)) {value : Json}
    (hvalue : row.invoice.metadata = some value) : MutableField.metadata ∈ row.supplied := by
  obtain ⟨-, -, hsupplied, hmeta⟩ := validateRow_ok hv
  rw [hsupplied]
  refine mem_filter.mpr ⟨mem_mutableFields _, ?_⟩
  show (JsText.nonEmpty (raw.values .metadata)).isSome = true
  cases htext : JsText.nonEmpty (raw.values .metadata) with
  | none =>
    rw [parseMetadata, htext, hvalue] at hmeta
    cases hmeta
  | some text => rfl

theorem changesFor_sound (hv : validateRow p raw = .ok (.ok kept.row))
    (hvalid : (changesFor kept.row found kept.now).any Change.invalid = false) :
    ∀ change ∈ changesFor kept.row found kept.now, change.Sound := by
  intro change hmem
  have hdate : change.invalid = false := by
    refine eq_false_of_ne_true ?_
    intro hinvalid
    rw [any_eq_true.mpr ⟨change, hmem, hinvalid⟩] at hvalid
    cases hvalid
  rw [changesFor_eq] at hmem
  obtain ⟨field, -, hchange⟩ := mem_filterMap.mp hmem
  rw [changeOf] at hchange
  split at hchange
  · rename_i hw
    cases hchange
    have hsup : field ∈ kept.row.supplied := by
      rw [writes, Bool.and_eq_true] at hw
      exact of_decide_eq_true hw.1
    cases field with
    | expiresAt =>
      cases hexpiry : expiryFor kept.row kept.now with
      | none =>
        simp only [Change.invalid, normalisedField, hexpiry] at hdate
        cases hdate
      | some ms => exact ⟨ms, congrArg date hexpiry⟩
    | metadata =>
      obtain ⟨members, hmembers⟩ := metadata_of_supplied hv hsup
      exact ⟨.obj members, congrArg ofJson hmembers⟩
    | sellerName => exact ⟨_, rfl⟩
    | sellerEmail => exact ⟨_, rfl⟩
    | customerName => exact ⟨_, rfl⟩
    | customerEmail => exact ⟨_, rfl⟩
    | description => exact ⟨_, rfl⟩
  · cases hchange

/-- **ONE ROW**: an update leaves the row's value in the fields it writes. -/
theorem field_update (hv : validateRow p raw = .ok (.ok kept.row))
    (hvalid : (changesFor kept.row found kept.now).any Change.invalid
      = false) (row : InvoiceRow) (field : MutableField) :
    (toExistingInvoice (applyUpdate row (changesFor kept.row found kept.now))).field field
      = if writes kept found field = true then storedValue (normalisedField kept.row kept.now field)
        else (toExistingInvoice row).field field := by
  rw [field_applyUpdate, field_applyChanges row (changesFor_sound hv hvalid), changesFor_eq,
    foldl_changeOf _ _ _ _ (by decide)]
  simp only [mem_mutableFields, true_and]

end Written

/-! ## Rows that write one invoice -/

/-- The row stands for the invoice and would change the field. -/
def writesTo (byKey : InsertionMap IdentityKey ExistingInvoice)
    (found : ExistingInvoice) (field : MutableField) (kept : KeptRow) :
    Bool :=
  decide ((resolve byKey kept.row).map ExistingInvoice.id = some found.id)
    && writes kept found field

/-- The last row of a file that writes a field of an invoice. -/
def lastWriter (byKey : InsertionMap IdentityKey ExistingInvoice)
    (found : ExistingInvoice) (field : MutableField) (kept : List KeptRow) :
    Option KeptRow :=
  (kept.filter (writesTo byKey found field)).getLast?

theorem foldl_keep_last {α β : Type} (test : α → Bool) (value : α → β) (l : List α) (start : β) :
    l.foldl (fun acc a => if test a = true then value a else acc) start
      = (((l.filter test).getLast?).map value).getD start := by
  induction l generalizing start with
  | nil => rfl
  | cons a rest ih =>
    rw [foldl_cons, ih, filter_cons]
    by_cases ht : test a = true
    · rw [if_pos ht, if_pos ht, getLast?_cons]
      cases (rest.filter test).getLast? <;> rfl
    · rw [if_neg ht, if_neg ht]

section Plan

variable {p : Platform} {existing : List ExistingInvoice}
  {planned : List PlannedRow} {kept : List KeptRow}

/-- **ALL ROWS**: the updates of an invoice leave in each field what the last
    row to write it asked for. -/
theorem field_updatesFor (hd : Distinct existing)
    (h : Forall₂ (Carries (indexExisting existing)) planned kept)
    (hvalid : ∀ k ∈ kept, ∃ raw, validateRow p raw = .ok (.ok k.row))
    {inv : ExistingInvoice} (hinv : inv ∈ existing)
    (hdates : ∀ changes ∈ updatesFor inv.id planned, changes.any Change.invalid = false)
    (row : InvoiceRow) (field : MutableField) :
    (toExistingInvoice ((updatesFor inv.id planned).foldl applyUpdate row) ).field field
      = kept.foldl (fun value k =>
          if writesTo (indexExisting existing) inv field k = true
          then storedValue (normalisedField k.row k.now field) else value)
        ((toExistingInvoice row).field field) := by
  induction h generalizing row with
  | nil => rfl
  | @cons a k planned kept hcarry _ ih =>
    have hrest := ih (fun k' hk' => hvalid k' (.tail _ hk')) (fun changes hc => hdates changes (by
        rw [updatesFor_cons]
        exact mem_append_right _ hc))
    obtain ⟨raw, hv⟩ := hvalid k (.head _)
    rw [updatesFor_cons, foldl_append, hrest, foldl_cons]
    refine congrArg (fun start => kept.foldl _ start) ?_
    rw [writesTo]
    by_cases hres : resolve (indexExisting existing) k.row = some inv
    · obtain ⟨haction, htarget, hchanges, -⟩ := hcarry.matched hres
      rw [hres, map_some, decide_eq_true rfl, Bool.true_and]
      by_cases hnil : (changesFor k.row inv k.now).isEmpty = true
      · -- nothing differs, so the row is a skip
        rw [if_pos hnil] at haction
        have hnot : ¬ (a.action = .update ∧ a.existingId = some inv.id) := by
          rintro ⟨hup, -⟩
          rw [haction] at hup
          cases hup
        have hw : ¬ writes k inv field = true := by
          intro hw
          have hmem : (⟨field, inv.field field, normalisedField k.row k.now field⟩ : Change)
              ∈ changesFor k.row inv k.now := by
            rw [changesFor_eq]
            exact mem_filterMap.mpr ⟨field, mem_mutableFields field, if_pos hw⟩
          rw [isEmpty_iff.mp hnil] at hmem
          cases hmem
        rw [if_neg hnot, if_neg hw]
        rfl
      · rw [if_neg hnil] at haction hchanges
        rw [if_pos ⟨haction, htarget⟩, hchanges]
        refine field_update hv (hdates _ ?_) row field
        rw [updatesFor_cons, if_pos ⟨haction, htarget⟩, hchanges]
        exact mem_append_left _ (mem_singleton.mpr rfl)
    · have hother : ¬ a.existingId = some inv.id :=
        fun htarget => hres ((hcarry.target_iff hd hv hinv).mp htarget)
      have hids : ¬ (resolve (indexExisting existing) k.row).map
          ExistingInvoice.id = some inv.id := by
        rw [← hcarry.data.2.2.1]
        exact hother
      rw [if_neg (fun hand => hother hand.2), decide_eq_false hids]
      rfl

end Plan

section Again

variable {p : Platform} {byKey : InsertionMap IdentityKey ExistingInvoice}
  {clock : Nat → Int} {rows : List RawImportRow} {claimed : Claimed} {n : Nat}

/-- A plan without errors keeps every row of the file. -/
theorem keptRows_of_clean {used : List IdentityKey} {out : List PlannedRow}
    (h : planRows p byKey clock n claimed rows = .ok out)
    (hused : ∀ k, claimed.get k = none ↔ k ∉ used) (hclean : ∀ row ∈ out, row.action ≠ .error) :
    Forall₂ (fun raw k => validateRow p raw = .ok (.ok k.row)) rows
      (keptRows p byKey clock n used rows) := by
  induction rows generalizing n claimed used out with
  | nil => exact Forall₂.nil
  | cons raw rest ih =>
    rcases planRows_cons h with ⟨errors, planned, -, -, rfl⟩
      | ⟨row, planned, hv, hrest, rfl⟩
    · exact absurd rfl (hclean _ (.head _))
    have hhead := hclean _ (.head _)
    have htail : ∀ row ∈ planned, row.action ≠ .error :=
      fun r hr => hclean r (.tail _ hr)
    by_cases hfree : ∀ k ∈ identityKeys row, claimed.get k = none
    · rw [planValid_fresh hfree] at hhead hrest
      dsimp only at hhead hrest
      rw [if_neg hhead] at hrest
      have hkeep : (∀ k ∈ identityKeys row, k ∉ used) ∧ admissible byKey row (clock n) = true :=
        ⟨fun k hk => (hused k).mp (hfree k hk),
          (freshRow_accepted byKey row raw.line (clock n)).mp hhead⟩
      rw [keptRows, hv]
      simp only
      rw [if_pos hkeep]
      refine Forall₂.cons hv (ih hrest ?_ htail)
      intro k
      rw [get_claim, hused k, mem_append, not_or]
    · obtain ⟨seen, hturn⟩ : ∃ seen, planValid byKey claimed row raw.line (clock n)
            = (duplicateRow row raw.line seen, claimed) :=
        planValid_duplicate hfree
      rw [hturn] at hhead
      exact absurd rfl hhead

/-- Rows without a shared key are planned one by one. -/
theorem planRows_disjoint {kept : List KeptRow}
    (hvalid : Forall₂ (fun raw k => validateRow p raw = .ok (.ok k.row)) rows kept)
    (hpw : kept.Pairwise (fun a b => ∀ k ∈ identityKeys a.row, k ∉ identityKeys b.row))
    (hfree : ∀ k ∈ kept, ∀ key ∈ identityKeys k.row, claimed.get key = none) :
    ∃ out, planRows p byKey clock n claimed rows = .ok out ∧ Forall₂ (fun planned k => ∃ line i,
          planned = freshRow byKey k.row line (clock i)) out kept := by
  induction hvalid generalizing n claimed with
  | nil => exact ⟨[], rfl, Forall₂.nil⟩
  | @cons raw k rows kept hv _ ih =>
    obtain ⟨hhd, htl⟩ := pairwise_cons.mp hpw
    have hturn : planValid byKey claimed k.row raw.line (clock n)
        = (freshRow byKey k.row raw.line (clock n), _) :=
      planValid_fresh (hfree k (.head _))
    have hnext : ∀ k' ∈ kept, ∀ key ∈ identityKeys k'.row,
        (planValid byKey claimed k.row raw.line (clock n)).2.get key = none := by
      intro k' hk' key hkey
      have hold := hfree k' (.tail _ hk') key hkey
      rw [hturn]
      dsimp only
      split
      · exact hold
      · exact (get_claim _ _ _ _).mpr ⟨fun hin => hhd k' hk' key hin hkey, hold⟩
    obtain ⟨out, hout, hrows⟩ := ih (n := n + 1) htl hnext
    refine ⟨freshRow byKey k.row raw.line (clock n) :: out, ?_,
      Forall₂.cons ⟨raw.line, n, rfl⟩ hrows⟩
    rw [planRows, hv]
    simp only
    rw [hout, hturn]
    rfl

/-- A row is skipped if it would change nothing. -/
theorem freshRow_skip {row : ValidatedRow} {line : Nat} {now : Int} :
    (freshRow byKey row line now).action = .skip ↔ ∃ found, resolve byKey row = some found
        ∧ termsAgree row found = true
        ∧ ∀ field ∈ row.supplied, sameValue (normalisedField row now field)
            (found.field field) = true := by
  rw [freshRow]
  cases hres : resolve byKey row with
  | none => simp [createRow]
  | some found =>
    simp only [Option.some.injEq, exists_eq_left']
    rw [← identityErrors_eq_nil row found line, ← changesFor_eq_nil]
    rcases matchedRow_cases row found line now with herr | ⟨hterms, -, heq⟩
    · rw [herr]
      refine iff_of_false (by rintro ⟨⟩) ?_
      rintro ⟨hterms, hnil⟩
      simp [matchedRow, hterms, hnil] at herr
    rw [heq]
    dsimp only
    by_cases hnil : changesFor row found now = []
    · simp [hterms, hnil]
    · simp [hnil]

end Again

/-! ## The table an import leaves -/

/-- The kept rows of a file against a table. -/
def fileRows (p : Platform) (t : InvoiceTable) (clock : Nat → Int)
    (rows : List RawImportRow) : List KeptRow :=
  keptRows p (indexExisting (existingOf t)) clock 0 [] rows

section Left

variable {p : Platform} {db : InvoiceDb} {onError : OnError}
  {clock : Nat → Int} {rows : List RawImportRow} {plan : ImportPlan}
  {s : Session} {st : ApplyState} {k : KeptRow}

theorem stored_of_resolve (hk : k ∈ fileRows p db.invoices clock rows) {found : ExistingInvoice}
    (hres : resolve (indexExisting (existingOf db.invoices)) k.row = some found) :
    ∃ r, db.invoices.find r.id = some r ∧ found = toExistingInvoice r := by
  obtain ⟨raw, -, hv⟩ := valid_of_keptRows hk
  have hmem := ((resolve_iff_names (distinct_existingOf _) hv).mp hres).1
  obtain ⟨r, hr, rfl⟩ := mem_map.mp hmem
  exact ⟨r, (db.invoices.mem_iff_find r).mp hr, rfl⟩

theorem updatesFor_absent (hplan : planImport p (existingOf db.invoices) onError clock rows
      = .ok plan) {id : String} (hnone : db.invoices.find id = none) :
    updatesFor id plan.rows = [] := by
  rw [eq_nil_iff_forall_not_mem]
  intro changes hmem
  obtain ⟨row, hrow, hsome⟩ := mem_filterMap.mp hmem
  split at hsome
  · rename_i hup
    have hupdate : isUpdate row = true := decide_eq_true hup.1
    obtain ⟨k, hk, hcarry⟩ := carries_of_update hplan hrow hupdate
    obtain ⟨found, hres, hid, -, -⟩ := hcarry.changes hupdate
    obtain ⟨r, hfind, rfl⟩ := stored_of_resolve hk hres
    have heq : r.id = id := some.inj (hid.symm.trans hup.2)
    rw [heq, hnone] at hfind
    cases hfind
  · cases hsome

theorem eq_of_shared_key {k' : KeptRow} (hk : k ∈ fileRows p db.invoices clock rows)
    (hk' : k' ∈ fileRows p db.invoices clock rows) {key : IdentityKey}
    (hin : key ∈ identityKeys k.row) (hin' : key ∈ identityKeys k'.row) : k = k' := by
  by_contra hne
  have hsymm : Std.Symm (fun a b : KeptRow =>
      ∀ key ∈ identityKeys a.row, key ∉ identityKeys b.row) :=
    ⟨fun a b hab key hb ha => hab key ha hb⟩
  have hpw : (fileRows p db.invoices clock rows).Pairwise (fun a b =>
      ∀ key ∈ identityKeys a.row, key ∉ identityKeys b.row) :=
    (keptRows_disjoint 0 [] rows).2
  exact hpw.forall hk hk' hne key hin hin'

/-- An invoice of the table after an import is a stored one, updated, or
    carries the external id of a row that resolved to nothing. -/
theorem externalId_after (hplan : planImport p (existingOf db.invoices) onError clock rows
      = .ok plan) (happly : applyRows s 0 (initialState db s) plan.rows = .ok st)
    {r : InvoiceRow} (hr : st.invoices.find r.id = some r) :
    (∃ r₀, db.invoices.find r.id = some r₀ ∧ r.externalId = r₀.externalId) ∨
    (∃ k ∈ fileRows p db.invoices clock rows,
      resolve (indexExisting (existingOf db.invoices)) k.row = none
      ∧ r.externalId = k.row.externalId) := by
  cases hbefore : db.invoices.find r.id with
  | some r₀ =>
    left
    have hfind := (applyRows_find happly hbefore).1
    rw [hr] at hfind
    have hcols : fixedColumns r = fixedColumns r₀ := by
      rw [some.inj hfind, fixedColumns_updates]
    exact ⟨r₀, rfl, (congrArg externalId hcols :)⟩
  | none =>
    right
    obtain ⟨planned, hmem, haction, values, memo, expiresAt, -, hcols⟩ :=
      applyRows_new happly hbefore hr
    have hacc : planned ∈ acceptedRows plan.rows := by
      refine mem_filter.mpr ⟨hmem, decide_eq_true ?_⟩
      rw [haction]
      exact nofun
    obtain ⟨k, hk, hcarry⟩ := forall₂_right (planImport_carries hplan) hacc
    refine ⟨k, hk, hcarry.data.2.2.2.mp haction, ?_⟩
    rw [← hcarry.data.1]
    exact (congrArg externalId hcols :)

/-- **A MATCHED ROW** names the same invoice again. -/
theorem resolve_after_matched (hplan : planImport p (existingOf db.invoices) onError clock rows
      = .ok plan) (happly : applyRows s 0 (initialState db s) plan.rows = .ok st)
    (hk : k ∈ fileRows p db.invoices clock rows) {r : InvoiceRow}
    (hfind : db.invoices.find r.id = some r)
    (hres : resolve (indexExisting (existingOf db.invoices)) k.row = some (toExistingInvoice r)) :
    resolve (indexExisting (existingOf st.invoices)) k.row = some (toExistingInvoice
          ((updatesFor r.id plan.rows).foldl applyUpdate r)) := by
  obtain ⟨raw, -, hv⟩ := valid_of_keptRows hk
  have hafter := (applyRows_find happly hfind).1
  have hcols := fixedColumns_updates r (updatesFor r.id plan.rows)
  have hext : ((updatesFor r.id plan.rows).foldl applyUpdate r).externalId
      = r.externalId := (congrArg externalId hcols :)
  have hmemo : ((updatesFor r.id plan.rows).foldl applyUpdate r).memo
      = r.memo := (congrArg memo hcols :)
  refine (resolve_iff_names (distinct_existingOf _) hv).mpr ⟨mem_existingOf hafter, ?_⟩
  rcases ((resolve_iff_names (distinct_existingOf _) hv).mp hres).2 with ⟨hne, heq⟩ | ⟨heq, hno⟩
  · left
    refine ⟨hne, ?_⟩
    show _ = ((updatesFor r.id plan.rows).foldl applyUpdate r).externalId
    rw [hext]
    exact heq
  right
  constructor
  · show _ = some ((updatesFor r.id plan.rows).foldl applyUpdate r).memo
    rw [hmemo]
    exact heq
  -- no invoice of the new table took the row's external id
  rintro other hother ⟨hne, hsame⟩
  obtain ⟨r', hr', rfl⟩ := mem_map.mp hother
  rcases externalId_after hplan happly ((st.invoices.mem_iff_find r').mp hr')
    with ⟨r₀, hr₀, hcol⟩ | ⟨k', hk', hnone, hcol⟩
  · exact hno _ (mem_existingOf hr₀) ⟨hne, hsame.trans hcol⟩
  obtain ⟨e, he⟩ := ne_none_iff_exists'.mp hne
  obtain ⟨raw', -, hv'⟩ := valid_of_keptRows hk'
  have heq' : k'.row.externalId = some e := by
    rw [← hcol, ← he]
    exact hsame.symm
  have hkey : IdentityKey.external e ∈ identityKeys k.row := by
    rw [mem_identityKeys_external, nonEmpty_externalId hv, he]
  have hkey' : IdentityKey.external e ∈ identityKeys k'.row := by
    rw [mem_identityKeys_external, nonEmpty_externalId hv', heq']
  rw [← eq_of_shared_key hk hk' hkey hkey', hres] at hnone
  cases hnone

/-- **A CREATED ROW** names the invoice it created. -/
theorem resolve_after_created (hplan : planImport p (existingOf db.invoices) onError clock rows
      = .ok plan) (happly : applyRows s 0 (initialState db s) plan.rows = .ok st)
    (hk : k ∈ fileRows p db.invoices clock rows)
    (hkeys : k.row.externalId ≠ none ∨ k.row.invoice.memo ≠ none)
    (hres : resolve (indexExisting (existingOf db.invoices)) k.row = none) :
    ∃ id memo expiresAt, resolveExpiry k.row.invoice s.now = some expiresAt
      ∧ resolve (indexExisting (existingOf st.invoices)) k.row
        = some (toExistingInvoice (importedRow k.row.invoice
            k.row.externalId id memo s.now expiresAt)) := by
  obtain ⟨raw, -, hv⟩ := valid_of_keptRows hk
  obtain ⟨planned, hmem, hcarry⟩ := forall₂_left (planImport_carries hplan) hk
  obtain ⟨hext, hcarried, -, haction⟩ := hcarry.data
  obtain ⟨m, values, expiresAt, hvalues, hexpiry, hfind⟩ :=
    applyRows_inserted happly (fun id hnone => updatesFor_absent hplan hnone)
      (mem_of_mem_filter hmem) (haction.mpr hres)
  obtain rfl : k.row.invoice = values := some.inj (hcarried.symm.trans hvalues)
  rw [hext] at hfind
  refine ⟨_, _, expiresAt, hexpiry, (resolve_iff_names (distinct_existingOf _) hv).mpr
      ⟨mem_existingOf hfind, ?_⟩⟩
  cases hid : k.row.externalId with
  | some e => exact .inl ⟨by rw [hid]; exact some_ne_none e, hid⟩
  | none =>
    right
    have hmemo := hkeys.resolve_left (fun hne => hne hid)
    obtain ⟨memo, hm⟩ := ne_none_iff_exists'.mp hmemo
    refine ⟨?_, fun other _ hnames => hnames.1 hid⟩
    show _ = some (k.row.invoice.memo.getD _)
    rw [hm]
    rfl

end Left

/-! ## When a row meets what was stored for it -/

/-- The row's expiry does not depend on the clock. -/
def ClockFree (row : ValidatedRow) : Prop :=
  MutableField.expiresAt ∈ row.supplied →
    row.invoice.expiresAt ≠ none ∨ row.invoice.createdAt ≠ none

/-- An amount prints the same after the decimal column. -/
def KeepsAmount (amount : ℚ) : Prop :=
  (finite amount).toText = (finite (parseDecimal
        (decimal7 (textValue amount)))).toText

/-- A value prints the same after the `JSONB` column. -/
def KeepsText (value : Json) : Prop :=
  Json.stringify value = Json.stringify (Json.jsonbRead (Json.jsonbParam value))

instance (row : ValidatedRow) : Decidable (ClockFree row) :=
  inferInstanceAs (Decidable (_ → _ ∨ _))

instance (amount : ℚ) : Decidable (KeepsAmount amount) :=
  inferInstanceAs (Decidable (_ = _))

theorem sameValue_refl (value : FieldValue) : sameValue value value = true := by
  rw [sameValue]
  by_cases hnull : value.isNull = true
  · rw [if_pos hnull, hnull]
  rw [if_neg hnull]
  split
  · exact decide_eq_true rfl
  · exact decide_eq_true rfl

theorem sameValue_date {date : Option Int} {ms : Int} :
    sameValue (.date date) (.date (some ms)) = true ↔ date = some ms := by
  cases date with
  | none => exact iff_of_false nofun nofun
  | some ms' =>
    show decide (FieldText.instant ms' = .instant ms) = true ↔ _
    rw [decide_eq_true_eq, FieldText.instant.injEq, Option.some.injEq]

theorem eq_of_timeClip {ms ms' : Int} (h : timeClip ms = some ms') : ms = ms' := by
  rw [timeClip] at h
  split at h
  · exact some.inj h
  · cases h

variable {row : ValidatedRow}

theorem expiryFor_clockFree (h : row.invoice.expiresAt ≠ none ∨ row.invoice.createdAt ≠ none)
    (now now' : Int) : expiryFor row now = resolveExpiry row.invoice now' := by
  rw [expiryFor, resolveExpiry]
  cases hexp : row.invoice.expiresAt with
  | some ms => rfl
  | none =>
    have hcreated := h.resolve_left (fun hne => hne hexp)
    obtain ⟨ms, hms⟩ := ne_none_iff_exists'.mp hcreated
    rw [hms]
    rfl

theorem normalisedField_clockFree (h : ClockFree row)
    {field : MutableField} (hsup : field ∈ row.supplied) (now now' : Int) :
    normalisedField row now field = normalisedField row now' field := by
  cases field with
  | expiresAt =>
    show date _ = date _
    rw [expiryFor_clockFree (h hsup) now 0, expiryFor_clockFree (h hsup) now' 0]
  | _ => rfl

/-- **THE CLOCK**: a row agrees with an invoice at every clock exactly when it
    agrees at one and does not read it. -/
theorem agrees_at_every_clock_iff (row : ValidatedRow) (found : ExistingInvoice) (now : Int) :
    (∀ c, ∀ field ∈ row.supplied, sameValue (normalisedField row c field)
        (found.field field) = true) ↔ ClockFree row ∧ ∀ field ∈ row.supplied,
        sameValue (normalisedField row now field) (found.field field) = true := by
  constructor
  · intro h
    refine ⟨?_, h now⟩
    intro hsup
    by_contra hboth
    rw [not_or, not_not, not_not] at hboth
    -- two clocks a millisecond apart give two expiries
    have hexpiry : ∀ c, expiryFor row c = timeClip (c + row.invoice.expiresInDays * dayInMs) := by
      intro c
      rw [expiryFor, hboth.1, hboth.2]
      rfl
    have hzero : timeClip (0 + row.invoice.expiresInDays * dayInMs) = some found.expiresAt := by
      rw [← hexpiry]
      exact sameValue_date.mp (h 0 .expiresAt hsup)
    have hone : timeClip (1 + row.invoice.expiresInDays * dayInMs) = some found.expiresAt := by
      rw [← hexpiry]
      exact sameValue_date.mp (h 1 .expiresAt hsup)
    have hsum := (eq_of_timeClip hzero).trans (eq_of_timeClip hone).symm
    omega
  · rintro ⟨hfree, hagree⟩ c field hsup
    rw [normalisedField_clockFree hfree hsup c now]
    exact hagree field hsup

theorem termsAgree_imported (row : ValidatedRow) (id memo : String) (now expiresAt : Int) :
    termsAgree row (toExistingInvoice (importedRow row.invoice
        row.externalId id memo now expiresAt)) = true ↔ KeepsAmount row.invoice.amount := by
  have hamount : sameValue (.number row.invoice.amount) (.number (parseDecimal (decimal7
        (JsNumber.textValue row.invoice.amount)))) = true
      ↔ KeepsAmount row.invoice.amount := decide_eq_true_iff
  rw [← hamount, termsAgree, List.all_eq_true]
  constructor
  · intro h
    exact h .amount (by decide)
  intro h field _
  cases field with
  | amount => exact h
  | assetCode => exact sameValue_refl _
  | assetIssuer =>
    rw [Bool.or_eq_true]
    exact .inr (sameValue_refl _)
  | sellerPublicKey => exact sameValue_refl _

/-- **A CREATED ROW** meets itself exactly when nothing of it depends on the
    clock and its amount and metadata survive their columns. -/
theorem created_agrees_iff {p : Platform} {raw : RawImportRow}
    (hv : validateRow p raw = .ok (.ok row)) (id memo : String) {now expiresAt : Int}
    (hexpiry : resolveExpiry row.invoice now = some expiresAt) :
    (∀ c, ∀ field ∈ row.supplied, sameValue (normalisedField row c field)
        ((toExistingInvoice (importedRow row.invoice row.externalId id memo
          now expiresAt)).field field) = true) ↔
      ClockFree row ∧ ∀ value, row.invoice.metadata = some value → KeepsText value := by
  have hmeta : ∀ members, row.invoice.metadata = some (.obj members) →
      (sameValue (.ofJson row.invoice.metadata) (.ofJson (driverMetadata (some (Json.jsonbParam
          (row.invoice.metadata.getD (.obj [])))))) = true
        ↔ KeepsText (.obj members)) := by
    intro members hm
    rw [hm]
    show decide (FieldText.text _ = FieldText.text _) = true ↔ _
    rw [decide_eq_true_eq, FieldText.text.injEq]
    rfl
  rw [agrees_at_every_clock_iff _ _ now]
  refine and_congr_right (fun hfree => ?_)
  constructor
  · intro h value hvalue
    have hsup := supplied_of_metadata hv hvalue
    obtain ⟨members, hm⟩ := metadata_of_supplied hv hsup
    obtain rfl := some.inj (hvalue.symm.trans hm)
    exact (hmeta members hm).mp (h .metadata hsup)
  intro h field hsup
  cases field with
  | expiresAt =>
    refine sameValue_date.mpr ?_
    rw [expiryFor_clockFree (hfree hsup) now now, hexpiry]
    exact congrArg some (dateOf_timestampParam expiresAt).symm
  | metadata =>
    obtain ⟨members, hm⟩ := metadata_of_supplied hv hsup
    exact (hmeta members hm).mpr (h _ hm)
  | _ => exact sameValue_refl _

theorem termsAgree_updates (row : ValidatedRow) (r : InvoiceRow) (updates : List (List Change)) :
    termsAgree row (toExistingInvoice (updates.foldl applyUpdate r))
      = termsAgree row (toExistingInvoice r) := by
  have hcols := fixedColumns_updates r updates
  have hidentity : (toExistingInvoice (updates.foldl applyUpdate r)).identity
      = (toExistingInvoice r).identity := by
    ext1 field
    cases field with
    | amount =>
      exact congrArg (fun q => number (parseDecimal q))
        (congrArg InvoiceRow.amount hcols :)
    | assetCode => exact congrArg FieldValue.text (congrArg InvoiceRow.assetCode hcols :)
    | assetIssuer => exact congrArg FieldValue.ofText (congrArg InvoiceRow.assetIssuer hcols :)
    | sellerPublicKey =>
      exact congrArg FieldValue.text (congrArg sellerPublicKey hcols :)
  rw [termsAgree, termsAgree, hidentity]

theorem Carries.termsAgree {byKey : InsertionMap IdentityKey ExistingInvoice}
    {planned : PlannedRow} {kept : KeptRow} {found : ExistingInvoice}
    (h : Carries byKey planned kept) (hres : resolve byKey kept.row = some found) :
    termsAgree kept.row found = true := by
  have hacc := h.accepted
  rw [h.decision, freshRow_accepted, admissible, hres] at hacc
  exact ((Bool.and_eq_true _ _).mp hacc).1

/-! ## The second run -/

/-- What makes a file settle: no row counts its expiry from the clock; the
    rows that create keep their amount and metadata through the columns; and a
    row that names a stored invoice agrees, in each field it supplies, with
    what is read back of the last row to write that field. -/
structure Settles (p : Platform) (t : InvoiceTable) (clock : Nat → Int)
    (rows : List RawImportRow) : Prop where
  clockFree : ∀ k ∈ fileRows p t clock rows, ClockFree k.row
  amounts : ∀ k ∈ fileRows p t clock rows, resolve (indexExisting (existingOf t)) k.row = none →
    KeepsAmount k.row.invoice.amount
  metadata : ∀ k ∈ fileRows p t clock rows, resolve (indexExisting (existingOf t)) k.row = none →
    ∀ value, k.row.invoice.metadata = some value → KeepsText value
  writers : ∀ k ∈ fileRows p t clock rows, ∀ found,
    resolve (indexExisting (existingOf t)) k.row = some found →
    ∀ field ∈ k.row.supplied, ∀ j, lastWriter (indexExisting (existingOf t)) found field
        (fileRows p t clock rows) = some j →
      sameValue (normalisedField k.row k.now field)
        (storedValue (normalisedField j.row j.now field)) = true

/-- Planned at any time, every row of the file is a skip. -/
def AllSkip (p : Platform) (existing : List ExistingInvoice) (rows : List RawImportRow) : Prop :=
  ∀ onError clock, ∃ plan, planImport p existing onError clock rows = .ok plan
      ∧ ∀ row ∈ plan.rows, row.action = .skip

variable {existing : List ExistingInvoice} {rows : List RawImportRow} {p : Platform}

theorem planImport_of_rows {clock : Nat → Int} {out : List PlannedRow}
    (h : planRows p (indexExisting existing) clock 0 InsertionMap.empty rows
      = .ok out) (onError : OnError) :
    ∃ plan, planImport p existing onError clock rows = .ok plan ∧ plan.rows = out := by
  rw [planImport, h]
  exact ⟨_, rfl, rfl⟩

/-- At every clock the row names an invoice of the table, with its terms and
    with nothing to change. -/
def SkippedAlways (existing : List ExistingInvoice) (row : ValidatedRow) :
    Prop :=
  ∀ now, ∃ found, resolve (indexExisting existing) row = some found ∧ termsAgree row found = true
    ∧ ∀ field ∈ row.supplied, sameValue (normalisedField row now field) (found.field field) = true

theorem allSkip_iff {kept : List KeptRow}
    (hvalid : Forall₂ (fun raw k => validateRow p raw = .ok (.ok k.row)) rows kept)
    (hpw : kept.Pairwise (fun a b => ∀ k ∈ identityKeys a.row, k ∉ identityKeys b.row)) :
    AllSkip p existing rows ↔ ∀ k ∈ kept, SkippedAlways existing k.row := by
  have hrun : ∀ clock, ∃ out, planRows p (indexExisting existing) clock 0
      InsertionMap.empty rows = .ok out
      ∧ Forall₂ (fun planned k => ∃ line i, planned
          = freshRow (indexExisting existing) k.row line (clock i))
        out kept :=
    fun clock => planRows_disjoint hvalid hpw (fun _ _ _ _ => rfl)
  constructor
  · intro h k hk now
    obtain ⟨plan, hplan, hskip⟩ := h .abort (fun _ => now)
    obtain ⟨out, hout, hrows⟩ := hrun (fun _ => now)
    obtain rfl : out = plan.rows := Except.ok.inj (hout.symm.trans (planImport_rows hplan))
    obtain ⟨row, hrow, line, -, heq⟩ := forall₂_left hrows hk
    have haction := hskip row hrow
    rw [heq] at haction
    exact freshRow_skip.mp haction
  · intro h onError clock
    obtain ⟨out, hout, hrows⟩ := hrun clock
    obtain ⟨plan, hplan, hplanned⟩ := planImport_of_rows hout onError
    refine ⟨plan, hplan, ?_⟩
    rw [hplanned]
    intro row hrow
    obtain ⟨k, hk, line, i, rfl⟩ := forall₂_right hrows hrow
    exact freshRow_skip.mpr (h k hk (clock i))

section Settled

variable {p : Platform} {db db' : InvoiceDb} {onError : OnError}
  {clock : Nat → Int} {rows : List RawImportRow} {plan : ImportPlan}
  {s : Session} {st : ApplyState} {result : ApplyResult} {k : KeptRow}

/-- **A MATCHED ROW** meets what was stored exactly when it agrees with the
    last row that wrote the field. -/
theorem matched_agrees_iff (hcarries : Forall₂
      (Carries (indexExisting (existingOf db.invoices))) plan.rows
      (fileRows p db.invoices clock rows))
    (happly : applyRows s 0 (initialState db s) plan.rows = .ok st)
    (hk : k ∈ fileRows p db.invoices clock rows) {r : InvoiceRow}
    (hfind : db.invoices.find r.id = some r)
    (hres : resolve (indexExisting (existingOf db.invoices)) k.row
      = some (toExistingInvoice r)) (field : MutableField) (hsup : field ∈ k.row.supplied) :
    sameValue (normalisedField k.row k.now field) ((toExistingInvoice
        ((updatesFor r.id plan.rows).foldl applyUpdate r)).field field) = true ↔
      ∀ j, lastWriter (indexExisting (existingOf db.invoices))
          (toExistingInvoice r) field (fileRows p db.invoices clock rows) = some j →
        sameValue (normalisedField k.row k.now field)
          (storedValue (normalisedField j.row j.now field)) = true := by
  have hvalid : ∀ k ∈ fileRows p db.invoices clock rows,
      ∃ raw, validateRow p raw = .ok (.ok k.row) := by
    intro k hk
    obtain ⟨raw, -, hv⟩ := valid_of_keptRows hk
    exact ⟨raw, hv⟩
  have hvalue := field_updatesFor (distinct_existingOf db.invoices) hcarries
    hvalid (mem_existingOf hfind)
    (fun changes hc => (applyRows_update happly hc).1) r field
  rw [foldl_keep_last] at hvalue
  rw [show (updatesFor r.id plan.rows).foldl applyUpdate r
    = (updatesFor (toExistingInvoice r).id plan.rows).foldl applyUpdate r
    from rfl, hvalue]
  rw [← lastWriter]
  cases hlast : lastWriter (indexExisting (existingOf db.invoices))
      (toExistingInvoice r) field (fileRows p db.invoices clock rows) with
  | some j => simp
  | none =>
    -- the row itself does not write the field, so it agrees with it
    refine iff_of_true ?_ (fun j hj => nomatch hj)
    have hnil := getLast?_eq_none_iff.mp hlast
    have hnot := filter_eq_nil_iff.mp hnil k hk
    rw [writesTo, hres, map_some, decide_eq_true rfl,
      Bool.true_and, writes, decide_eq_true hsup, Bool.true_and,
      Bool.not_eq_true', Bool.not_eq_false] at hnot
    exact hnot

theorem created_skipped_iff (hplan : planImport p (existingOf db.invoices) onError clock rows
      = .ok plan) (happly : applyRows s 0 (initialState db s) plan.rows = .ok st)
    (hk : k ∈ fileRows p db.invoices clock rows)
    (hnamed : k.row.externalId ≠ none ∨ k.row.invoice.memo ≠ none)
    (hres : resolve (indexExisting (existingOf db.invoices)) k.row = none) :
    SkippedAlways (existingOf st.invoices) k.row
      ↔ ClockFree k.row ∧ KeepsAmount k.row.invoice.amount
        ∧ ∀ value, k.row.invoice.metadata = some value → KeepsText value := by
  obtain ⟨raw, -, hv⟩ := valid_of_keptRows hk
  obtain ⟨id, memo, expiresAt, hexpiry, hafter⟩ := resolve_after_created hplan happly hk hnamed hres
  rw [SkippedAlways, hafter]
  simp only [Option.some.injEq, exists_eq_left', forall_and, forall_const,
    termsAgree_imported, created_agrees_iff hv id memo hexpiry]
  exact and_left_comm

theorem matched_skipped_iff (hplan : planImport p (existingOf db.invoices) onError clock rows
      = .ok plan) (hcarries : Forall₂ (Carries (indexExisting (existingOf db.invoices))) plan.rows
      (fileRows p db.invoices clock rows))
    (happly : applyRows s 0 (initialState db s) plan.rows = .ok st)
    (hk : k ∈ fileRows p db.invoices clock rows) {found : ExistingInvoice}
    (hres : resolve (indexExisting (existingOf db.invoices)) k.row = some found) :
    SkippedAlways (existingOf st.invoices) k.row ↔ ClockFree k.row ∧ ∀ field ∈ k.row.supplied, ∀ j,
        lastWriter (indexExisting (existingOf db.invoices)) found field
          (fileRows p db.invoices clock rows) = some j →
        sameValue (normalisedField k.row k.now field)
          (storedValue (normalisedField j.row j.now field)) = true := by
  obtain ⟨r, hfind, rfl⟩ := stored_of_resolve hk hres
  obtain ⟨planned, -, hcarry⟩ := forall₂_left hcarries hk
  rw [SkippedAlways, resolve_after_matched hplan happly hk hfind hres]
  simp only [Option.some.injEq, exists_eq_left', termsAgree_updates,
    hcarry.termsAgree hres, true_and]
  rw [agrees_at_every_clock_iff _ _ k.now]
  refine and_congr_right (fun _ => forall₂_congr ?_)
  intro field hsup
  exact matched_agrees_iff hcarries happly hk hfind hres field hsup

end Settled

/-! ## Importing a new invoice twice -/

/-- The actions of a second run, if the plan was applied. -/
def secondRun (p : Platform) (clock : Nat → Int) (rows : List RawImportRow)
    (db : InvoiceDb) (plan : ImportPlan) (s : Session) :
    Option (List ImportAction) :=
  match applyImport db plan s with
  | (db', .ok _) =>
    (planImport p (existingOf db'.invoices) .abort clock rows
      ).toOption.map (fun plan => plan.rows.map PlannedRow.action)
  | _ => none

variable {actions : List ImportAction} {plan : ImportPlan}

theorem secondRun_eq_some {p : Platform} {clock : Nat → Int}
    {rows : List RawImportRow} {db : InvoiceDb} {s : Session}
    (h : secondRun p clock rows db plan s = some actions) :
    ∃ db' result plan', applyImport db plan s = (db', .ok result)
      ∧ planImport p (existingOf db'.invoices) .abort clock rows = .ok plan'
      ∧ plan'.rows.map PlannedRow.action = actions := by
  rw [secondRun] at h
  split at h
  · rename_i db' result happly
    obtain ⟨plan', hplan', hactions⟩ := planImport_returns h
    exact ⟨db', result, plan', happly, hplan', hactions⟩
  · cases h

theorem clean_of_actions (h : plan.rows.map PlannedRow.action = actions)
    (hno : ImportAction.error ∉ actions) : ∀ row ∈ plan.rows, row.action ≠ .error := by
  intro row hrow herr
  rw [← h, ← herr] at hno
  exact hno (mem_map_of_mem hrow)

/-- A row for five lumens that expires after some days. -/
def expiringRow (line : Nat) (externalId days : String) : RawImportRow where
  line := line
  values
    | .expiresInDays => some days
    | c => (sampleRow line externalId "").values c

end Imports

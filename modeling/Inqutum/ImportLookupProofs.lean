import Inqutum.ImportCommandProofs

/-!
# What the import command looks up

The command loads the stored invoices its file names before it plans: it
plans the file against nothing, collects the external ids of that plan and
selects the rows that have one of them as external id or as memo.  A row
that names an invoice by its memo only adds nothing to that list.

`lookup_complete_iff` compares the command's plan with the plan against
the whole table: the decisions are the same unless some row is overlooked,
that is, it names by memo an invoice that the lookup does not load.
-/

namespace Imports

open Invoices List Option InsertionMap JsText PlannedRow

/-! ## The rows that are loaded -/

/-- The external ids that the valid rows of a file give. -/
def givenIds (p : Platform) (rows : List RawImportRow) : List String :=
  rows.filterMap (fun raw =>
    match validateRow p raw with
    | .ok (.ok row) => row.externalId
    | _ => none)

/-- The lookup selects an invoice by either of its keys. -/
def isLoaded (ids : List String) (found : ExistingInvoice) : Bool :=
  found.externalId.any ids.contains || ids.contains found.memo

theorem externalIds_planRows {p : Platform} {clock : Nat → Int} {n : Nat}
    {claimed : Claimed} {rows : List RawImportRow} {out : List PlannedRow}
    (h : planRows p empty clock n claimed rows = .ok out) :
    out.filterMap externalId = givenIds p rows := by
  induction rows generalizing n claimed out with
  | nil =>
    rw [planRows] at h
    cases h
    rfl
  | cons raw rest ih =>
    rcases planRows_cons h with ⟨errors, planned, hv, hrest, rfl⟩
      | ⟨row, planned, hv, hrest, rfl⟩
    · rw [filterMap_cons_none rfl, ih hrest, givenIds, givenIds, filterMap_cons_none (by rw [hv])]
    have hid : (planValid empty claimed row raw.line (clock n)).1.externalId = row.externalId := by
      by_cases hfree : ∀ k ∈ identityKeys row, claimed.get k = none
      · have hnone : resolve InsertionMap.empty row = none :=
          List.findSome?_eq_none_iff.mpr (fun _ _ => rfl)
        rw [planValid_fresh hfree, freshRow, hnone]
        rfl
      obtain ⟨seen, hturn⟩ : ∃ seen, planValid empty claimed row raw.line (clock n)
          = (duplicateRow row raw.line seen, claimed) :=
        planValid_duplicate hfree
      rw [hturn]
      rfl
    have htail := ih hrest
    rw [givenIds] at htail
    rw [givenIds, filterMap_cons, filterMap_cons, hv, hid, htail]

theorem keyed_existingOf (t : InvoiceTable) {a b : InvoiceRow}
    (ha : a ∈ t.rows) (hb : b ∈ t.rows) {k : IdentityKey}
    (hka : k ∈ recordKeys (toExistingInvoice a))
    (hkb : k ∈ recordKeys (toExistingInvoice b)) : a = b := by
  have hsame := (distinct_existingOf t).keyed _ (mem_map_of_mem ha) _ (mem_map_of_mem hb) k hka hkb
  have hid : a.id = b.id := congrArg ExistingInvoice.id hsame
  have hfound := (t.mem_iff_find a).mp ha
  rw [hid, (t.mem_iff_find b).mp hb] at hfound
  exact (some.inj hfound).symm

/-- **THE LOOKUP**: it hands over the stored invoices that are selected. -/
theorem mem_loaded (t : InvoiceTable) (plan : ImportPlan) (found : ExistingInvoice) :
    found ∈ (loadExisting t plan).values.map toExistingInvoice ↔ found ∈ existingOf t
      ∧ isLoaded (plan.rows.filterMap externalId) found = true := by
  rw [loadExisting]
  generalize plan.rows.filterMap externalId = ids
  by_cases hempty : ids.isEmpty = true
  · rw [isEmpty_iff.mp hempty]
    constructor
    · intro h
      cases h
    rintro ⟨-, h⟩
    cases hext : found.externalId with
    | none => simp [isLoaded, hext] at h
    | some e => simp [isLoaded, hext] at h
  · simp only [if_neg hempty]
    have hfiled := fun (k : IdentityKey) (row : InvoiceRow) => get_filed
      (fun row => recordKeys (toExistingInvoice row))
      (fun byKey (row : InvoiceRow) k => get_indexStep byKey row.externalId row.memo row k)
      (l := t.rows.filter (fun row => row.externalId.any ids.contains || ids.contains row.memo))
      (fun a ha b hb k hka hkb => keyed_existingOf t
        (List.mem_filter.mp ha).1 (List.mem_filter.mp hb).1 hka hkb) k row
    rw [existingOf, List.mem_map, List.mem_map]
    constructor
    · rintro ⟨row, hmem, rfl⟩
      obtain ⟨k, hk⟩ := (mem_values_iff _ row).mp hmem
      obtain ⟨hrow, hsel⟩ := mem_filter.mp ((hfiled k row).mp hk).1
      exact ⟨⟨row, hrow, rfl⟩, hsel⟩
    rintro ⟨⟨row, hrow, rfl⟩, hsel⟩
    refine ⟨row, (mem_values_iff _ row).mpr ⟨.memo row.memo, (hfiled _ row).mpr ⟨?_, ?_⟩⟩, rfl⟩
    · exact mem_filter.mpr ⟨hrow, hsel⟩
    · exact memo_mem_recordKeys.mpr rfl

section Resolve

variable {p : Platform} {t : InvoiceTable} {plan : ImportPlan}
  {raw : RawImportRow} {row : ValidatedRow}

/-- The loaded rows are the invoices of their keys. -/
theorem keyed_loaded (t : InvoiceTable) (plan : ImportPlan) :
    Keyed ((loadExisting t plan).values.map toExistingInvoice) := by
  intro a ha b hb
  exact (distinct_existingOf t).keyed a ((mem_loaded t plan a).mp ha).1 b
    ((mem_loaded t plan b).mp hb).1

/-- A key finds a loaded row if its invoice is loaded. -/
theorem get_loaded (t : InvoiceTable) (plan : ImportPlan) (k : IdentityKey) :
    (indexExisting ((loadExisting t plan).values.map toExistingInvoice)).get k
      = ((indexExisting (existingOf t)).get k).filter
          (isLoaded (plan.rows.filterMap externalId)) := by
  refine Option.ext ?_
  intro found
  rw [(keyed_loaded t plan).get_indexExisting, filter_eq_some_iff,
    (distinct_existingOf t).keyed.get_indexExisting, mem_loaded]
  constructor
  · rintro ⟨⟨hmem, hloaded⟩, hk⟩
    exact ⟨⟨hmem, hk⟩, hloaded⟩
  rintro ⟨⟨hmem, hk⟩, hloaded⟩
  exact ⟨⟨hmem, hloaded⟩, hk⟩

/-- **RESOLUTION AGAINST THE LOADED ROWS**: a row finds the invoice it names in
    the whole table if that one is loaded, and nothing else. -/
theorem resolve_loaded (hid : ∀ e, row.externalId = some e →
      e ∈ plan.rows.filterMap externalId) :
    resolve (indexExisting ((loadExisting t plan).values.map toExistingInvoice)) row
      = (resolve (indexExisting (existingOf t)) row).filter
          (isLoaded (plan.rows.filterMap externalId)) := by
  rw [resolve, resolve, identityKeys]
  cases hext : nonEmpty row.externalId with
  | none =>
    cases nonEmpty row.invoice.memo with
    | none => rfl
    | some m => simp [get_loaded]
  | some e =>
    have hmem := hid e (eq_of_nonEmpty hext)
    cases hget : (indexExisting (existingOf t)).get (.external e) with
    | none =>
      cases nonEmpty row.invoice.memo with
      | none => simp [get_loaded, hget]
      | some m => simp [get_loaded, hget]
    | some found =>
      -- an invoice with an external id of the file is always loaded
      have hkey := ((distinct_existingOf t).keyed.get_indexExisting (.external e) found).mp hget
      have hfound := eq_of_nonEmpty (external_mem_recordKeys.mp hkey.2)
      have hloaded : isLoaded (plan.rows.filterMap externalId) found = true := by
        rw [isLoaded, hfound, any_some, contains_iff_mem.mpr hmem, Bool.true_or]
      simp [get_loaded, hget, hloaded]

end Resolve

/-! ## The decisions of two plans -/

/-- What a plan decides about a row. -/
def PlannedRow.decision (row : PlannedRow) : ImportAction × Option String :=
  (row.action, row.existingId)

/-- Two plans decide the same about every row. -/
def SameDecisions (rows rows' : List PlannedRow) : Prop :=
  rows.map decision = rows'.map decision

/-- The keys that are taken after a row: its own if it is kept. -/
def usedAfter (byKey : InsertionMap IdentityKey ExistingInvoice)
    (used : List IdentityKey) (row : ValidatedRow) (now : Int) :
    List IdentityKey :=
  if (∀ k ∈ identityKeys row, k ∉ used) ∧ admissible byKey row now = true then
    identityKeys row ++ used
  else used

section Agreement

variable {p : Platform} {byKey byKey' : InsertionMap IdentityKey
    ExistingInvoice} {clock : Nat → Int} {claimed : Claimed}
  {used : List IdentityKey} {row : ValidatedRow} {line n : Nat} {now : Int}

theorem get_planValid (hused : ∀ k, claimed.get k = none ↔ k ∉ used) (k : IdentityKey) :
    (planValid byKey claimed row line now).2.get k = none ↔ k ∉ usedAfter byKey used row now := by
  rw [usedAfter]
  by_cases hfree : ∀ k ∈ identityKeys row, k ∉ used
  · have hclaimed : ∀ k ∈ identityKeys row, claimed.get k = none :=
      fun k hk => (hused k).mpr (hfree k hk)
    rw [planValid_fresh hclaimed]
    by_cases hok : admissible byKey row now = true
    · have hne := (freshRow_accepted byKey row line now).mpr hok
      rw [if_neg hne, if_pos ⟨hfree, hok⟩, get_claim, hused k, mem_append, not_or]
    have herr : (freshRow byKey row line now).action = .error := by
      by_contra hne
      exact hok ((freshRow_accepted byKey row line now).mp hne)
    rw [if_pos herr, if_neg (fun hand => hok hand.2), hused k]
  · have hclaimed : ¬ ∀ k ∈ identityKeys row, claimed.get k = none :=
      fun hall => hfree (fun k hk => (hused k).mp (hall k hk))
    obtain ⟨seen, hturn⟩ : ∃ seen, planValid byKey claimed row line now
        = (duplicateRow row line seen, claimed) :=
      planValid_duplicate hclaimed
    rw [hturn, if_neg (fun hand => hfree hand.1), hused k]

variable {rest : List RawImportRow} {row' : ValidatedRow} {m : Nat} {raw : RawImportRow}

theorem keptRows_cons_valid (hv : validateRow p raw = .ok (.ok row)) (l : List IdentityKey) :
    (∀ kept ∈ keptRows p byKey clock n used (raw :: rest),
        ∀ k ∈ identityKeys kept.row, k ∉ l) ∧ (∀ k ∈ l, k ∉ used) ↔
      (∀ kept ∈ keptRows p byKey clock (n + 1) (usedAfter byKey used row (clock n)) rest,
        ∀ k ∈ identityKeys kept.row, k ∉ l) ∧ ∀ k ∈ l, k ∉ usedAfter byKey used row (clock n) := by
  rw [keptRows, hv, usedAfter]
  simp only
  by_cases hkeep : (∀ k ∈ identityKeys row, k ∉ used) ∧ admissible byKey row (clock n) = true
  · rw [if_pos hkeep, if_pos hkeep]
    constructor
    · rintro ⟨hkept, hl⟩
      refine ⟨fun kept hmem => hkept kept (.tail _ hmem), ?_⟩
      intro k hk hin
      rcases mem_append.mp hin with hin | hin
      · exact hkept _ (.head _) k hin hk
      · exact hl k hk hin
    · rintro ⟨hkept, hl⟩
      refine ⟨?_, fun k hk hin => hl k hk (mem_append_right _ hin)⟩
      intro kept hmem k hk hin
      rcases mem_cons.mp hmem with rfl | hmem
      · exact hl k hin (mem_append_left _ hk)
      · exact hkept kept hmem k hk hin
  · rw [if_neg hkeep, if_neg hkeep]

/-- Where both indexes find the same invoice the turn is the same. -/
theorem planValid_congr (h : (∀ k ∈ identityKeys row, claimed.get k = none) →
      resolve byKey row = resolve byKey' row) :
    planValid byKey claimed row line now = planValid byKey' claimed row line now := by
  by_cases hfree : ∀ k ∈ identityKeys row, claimed.get k = none
  · rw [planValid_fresh hfree, planValid_fresh hfree, freshRow, freshRow, h hfree]
  rw [planValid, planValid]
  cases hseen : (identityKeys row).findSome? claimed.get with
  | none => exact absurd ((findSome?_eq_none_iff _ _).mp hseen) hfree
  | some seen => rfl

theorem matchedRow_existingId (row : ValidatedRow) (found : ExistingInvoice)
    (line : Nat) (now : Int) : (matchedRow row found line now).existingId = some found.id := by
  simp only [matchedRow]
  split
  · rfl
  · split <;> rfl

/-- The rows of a file that reach the match, shifted past its first row. -/
def Reaches (p : Platform) (byKey : InsertionMap IdentityKey ExistingInvoice)
    (clock : Nat → Int) (n : Nat) (used : List IdentityKey)
    (rows : List RawImportRow) (m : Nat) (row : ValidatedRow) : Prop :=
  (∃ raw, rows[m]? = some raw ∧ validateRow p raw = .ok (.ok row)) ∧
  (∀ kept ∈ keptRows p byKey clock n used (rows.take m),
    ∀ k ∈ identityKeys kept.row, k ∉ identityKeys row) ∧
  ∀ k ∈ identityKeys row, k ∉ used

theorem reaches_zero (hv : validateRow p raw = .ok (.ok row)) :
    Reaches p byKey clock n used (raw :: rest) 0 row' ↔
      row' = row ∧ ∀ k ∈ identityKeys row, k ∉ used := by
  constructor
  · rintro ⟨⟨raw', hraw, hv'⟩, -, hfree⟩
    rw [getElem?_cons_zero] at hraw
    rw [← some.inj hraw, hv] at hv'
    obtain rfl := Except.ok.inj (Except.ok.inj hv')
    exact ⟨rfl, hfree⟩
  rintro ⟨rfl, hfree⟩
  refine ⟨⟨raw, rfl, hv⟩, ?_, hfree⟩
  intro kept hmem
  cases hmem

theorem reaches_succ (hv : validateRow p raw = .ok (.ok row)) :
    Reaches p byKey clock n used (raw :: rest) (m + 1) row' ↔
      Reaches p byKey clock (n + 1) (usedAfter byKey used row (clock n)) rest m row' := by
  rw [Reaches, Reaches, getElem?_cons_succ, take_succ_cons, keptRows_cons_valid hv]

theorem reaches_invalid {errors : List ImportError} (hv : validateRow p raw = .ok (.error errors)) :
    Reaches p byKey clock n used (raw :: rest) m row' ↔
      ∃ m', m = m' + 1 ∧ Reaches p byKey clock (n + 1) used rest m' row' := by
  cases m with
  | zero =>
    constructor
    · rintro ⟨⟨raw', hraw, hv'⟩, -⟩
      rw [getElem?_cons_zero] at hraw
      rw [← some.inj hraw, hv] at hv'
      cases hv'
    rintro ⟨m', hm, -⟩
    cases hm
  | succ m =>
    rw [Reaches, getElem?_cons_succ, take_succ_cons, keptRows, hv]
    constructor
    · intro h
      exact ⟨m, rfl, h⟩
    rintro ⟨m', hm, h⟩
    obtain rfl := Nat.succ.inj hm
    exact h

/-- **AGREEMENT**: a planner that finds only the loaded invoices decides as one
    that finds all, exactly if every row that reaches the match names a loaded
    invoice or none. -/
theorem planRows_agree_iff {loaded : ExistingInvoice → Bool}
    {rows : List RawImportRow} {out out' : List PlannedRow}
    (hres : ∀ raw ∈ rows, ∀ row, validateRow p raw = .ok (.ok row) →
      resolve byKey' row = (resolve byKey row).filter loaded)
    (h : planRows p byKey clock n claimed rows = .ok out)
    (h' : planRows p byKey' clock n claimed rows = .ok out')
    (hused : ∀ k, claimed.get k = none ↔ k ∉ used) :
    SameDecisions out' out ↔ ∀ m row found, Reaches p byKey clock n used rows m row →
        resolve byKey row = some found → loaded found = true := by
  induction rows generalizing n claimed used out out' with
  | nil =>
    rw [planRows] at h h'
    rw [← Except.ok.inj h, ← Except.ok.inj h']
    constructor
    · rintro - m row found ⟨⟨raw, hraw, -⟩, -⟩
      cases hraw
    intro _
    rfl
  | cons raw rest ih =>
    have hrestres : ∀ raw' ∈ rest, ∀ row, validateRow p raw' = .ok (.ok row) →
        resolve byKey' row = (resolve byKey row).filter loaded :=
      fun raw' hmem => hres raw' (.tail _ hmem)
    rcases planRows_cons h with ⟨errors, planned, hv, hrest, rfl⟩
      | ⟨row, planned, hv, hrest, rfl⟩
    · rcases planRows_cons h' with ⟨errors', planned', hv', hrest', rfl⟩
        | ⟨row', planned', hv', hrest', rfl⟩
      · rw [SameDecisions, map_cons, map_cons, cons.injEq,
          show planned'.map decision = planned.map decision ↔ _
            from ih hrestres hrest hrest' hused]
        constructor
        · rintro ⟨-, hall⟩ m row found hreach hfound
          obtain ⟨m', rfl, hreach'⟩ := (reaches_invalid hv).mp hreach
          exact hall m' row found hreach' hfound
        intro hall
        refine ⟨rfl, ?_⟩
        intro m row found hreach
        exact hall (m + 1) row found ((reaches_invalid hv).mpr ⟨m, rfl, hreach⟩)
      · rw [hv] at hv'
        cases hv'
    · rcases planRows_cons h' with ⟨errors', planned', hv', hrest', rfl⟩
        | ⟨row', planned', hv', hrest', rfl⟩
      · rw [hv] at hv'
        cases hv'
      obtain rfl : row = row' := by
        rw [hv] at hv'
        exact Except.ok.inj (Except.ok.inj hv')
      have hrow := hres raw (.head _) row hv
      by_cases hhead : (∀ k ∈ identityKeys row, k ∉ used) →
          ∀ found, resolve byKey row = some found → loaded found = true
      · -- the first row is decided alike, and claims alike
        have hturn : planValid byKey' claimed row raw.line (clock n)
            = planValid byKey claimed row raw.line (clock n) := by
          refine planValid_congr ?_
          intro hfree
          have hall := hhead (fun k hk => (hused k).mp (hfree k hk))
          rw [hrow]
          cases hfound : resolve byKey row with
          | none => rfl
          | some found => rw [filter_some, if_pos (hall found hfound)]
        rw [hturn] at hrest' ⊢
        rw [SameDecisions, map_cons, map_cons, cons.injEq,
          show planned'.map decision = planned.map decision ↔ _
            from ih hrestres hrest hrest' (get_planValid hused)]
        constructor
        · rintro ⟨-, hall⟩ m row' found hreach hfound
          cases m with
          | zero =>
            obtain ⟨rfl, hfree⟩ := (reaches_zero hv).mp hreach
            exact hhead hfree found hfound
          | succ m => exact hall m row' found ((reaches_succ hv).mp hreach) hfound
        · intro hall
          refine ⟨rfl, ?_⟩
          intro m row' found hreach
          exact hall (m + 1) row' found ((reaches_succ hv).mpr hreach)
      · -- the first row is created here and matched there
        push Not at hhead
        obtain ⟨hfree, found, hfound, hnot⟩ := hhead
        have hclaimed : ∀ k ∈ identityKeys row, claimed.get k = none :=
          fun k hk => (hused k).mpr (hfree k hk)
        constructor
        · intro hsame
          rw [SameDecisions, map_cons, map_cons, cons.injEq, planValid_fresh hclaimed,
            planValid_fresh hclaimed] at hsame
          have hid := congrArg Prod.snd hsame.1
          simp only [decision, freshRow, hfound,
            matchedRow_existingId, hrow, filter_some,
            if_neg hnot] at hid
          cases hid
        · intro hall
          exact absurd (hall 0 row found ((reaches_zero hv).mpr ⟨rfl, hfree⟩) hfound) hnot

end Agreement

/-! ## The plan of the command -/

/-- A row that is not a duplicate within the file names by memo a stored
    invoice of which no row of the file gives the external id, nor the memo as
    an external id. -/
def Overlooked (p : Platform) (t : InvoiceTable) (clock : Nat → Int)
    (rows : List RawImportRow) : Prop :=
  ∃ m row, Reaches p (indexExisting (existingOf t)) clock 0 [] rows m row ∧
    ∃ found ∈ existingOf t, NamesByMemo (existingOf t) row found ∧
      isLoaded (givenIds p rows) found = false

section Command

variable {p : Platform} {existing : List ExistingInvoice} {onError : OnError}
  {clock : Nat → Int} {rows : List RawImportRow}

theorem planRows_total (byKey : InsertionMap IdentityKey ExistingInvoice) (clock : Nat → Int)
    (hrows : ∀ raw ∈ rows, ∃ verdict, validateRow p raw = .ok verdict)
    (n : Nat) (claimed : Claimed) : ∃ out, planRows p byKey clock n claimed rows = .ok out := by
  induction rows generalizing n claimed with
  | nil => exact ⟨[], rfl⟩
  | cons raw rest ih =>
    obtain ⟨verdict, hv⟩ := hrows raw (.head _)
    have hrest := ih (fun raw' hmem => hrows raw' (.tail _ hmem))
    cases verdict with
    | error errors =>
      obtain ⟨out, hout⟩ := hrest (n + 1) claimed
      simp only [planRows, hv, hout]
      exact ⟨_, rfl⟩
    | ok row =>
      obtain ⟨out, hout⟩ := hrest (n + 1) (planValid byKey claimed row raw.line (clock n)).2
      simp only [planRows, hv, hout]
      exact ⟨_, rfl⟩

theorem planImport_total (hrows : ∀ raw ∈ rows, ∃ verdict, validateRow p raw = .ok verdict) :
    ∃ plan, planImport p existing onError clock rows = .ok plan := by
  obtain ⟨out, hout⟩ := planRows_total (indexExisting existing) clock hrows 0 empty
  rw [planImport, hout]
  exact ⟨_, rfl⟩

theorem isLoaded_of_namesByExternalId {raw : RawImportRow}
    {row : ValidatedRow} {found : ExistingInvoice} (hmem : raw ∈ rows)
    (hv : validateRow p raw = .ok (.ok row)) (h : NamesByExternalId row found) :
    isLoaded (givenIds p rows) found = true := by
  obtain ⟨e, he⟩ := ne_none_iff_exists'.mp h.1
  have hgiven : e ∈ givenIds p rows := by
    refine mem_filterMap.mpr ⟨raw, hmem, ?_⟩
    rw [hv]
    exact he
  rw [isLoaded, ← h.2, he, any_some, contains_iff_mem.mpr hgiven, Bool.true_or]

theorem all_loaded_iff (p : Platform) (t : InvoiceTable) (clock : Nat → Int)
    (rows : List RawImportRow) :
    (∀ m row found, Reaches p (indexExisting (existingOf t)) clock 0 [] rows m row →
      resolve (indexExisting (existingOf t)) row = some found →
      isLoaded (givenIds p rows) found = true) ↔ ¬ Overlooked p t clock rows := by
  have hd := distinct_existingOf t
  constructor
  · rintro hall ⟨m, row, hreach, found, hmem, hmemo, hnot⟩
    obtain ⟨raw, hraw, hv⟩ := hreach.1
    have hres := (resolve_iff_names hd hv).mpr ⟨hmem, .inr hmemo⟩
    rw [hall m row found hreach hres] at hnot
    cases hnot
  intro hno m row found hreach hres
  obtain ⟨raw, hraw, hv⟩ := hreach.1
  obtain ⟨hmem, hext | hmemo⟩ := (resolve_iff_names hd hv).mp hres
  · exact isLoaded_of_namesByExternalId (mem_of_getElem? hraw) hv hext
  by_contra hnot
  exact hno ⟨m, row, hreach, found, hmem, hmemo, Bool.eq_false_iff.mpr hnot⟩

end Command

/-- **THE LOOKUP IS COMPLETE UNLESS A ROW IS OVERLOOKED**: the command's plan
    decides about every row as the plan against the whole table does, exactly
    if no row names by memo only an invoice that is not loaded. -/
theorem lookup_complete_iff (p : Platform) (inv : Invocation)
    (hfile : inv.file.errors = []) (hload : inv.loadRefused = none)
    (hrows : ∀ raw ∈ inv.file.rows, ∃ row, validateRow p raw = .ok (.ok row)) :
    ∃ plan whole, inv.plan p = .ok plan
      ∧ planImport p (existingOf inv.seen.invoices) inv.onError inv.clock inv.file.rows = .ok whole
      ∧ (SameDecisions plan.rows whole.rows
        ↔ ¬ Overlooked p inv.seen.invoices inv.clock inv.file.rows) := by
  have hverdicts : ∀ raw ∈ inv.file.rows, ∃ verdict, validateRow p raw = .ok verdict := by
    intro raw hmem
    obtain ⟨row, hrow⟩ := hrows raw hmem
    exact ⟨.ok row, hrow⟩
  obtain ⟨probe, hprobe⟩ : ∃ plan, planImport p [] inv.onError
      inv.probeClock inv.file.rows = .ok plan := planImport_total hverdicts
  obtain ⟨plan, hplan⟩ : ∃ plan, planImport p
      ((loadExisting inv.seen.invoices probe).values.map toExistingInvoice)
      inv.onError inv.clock inv.file.rows = .ok plan :=
    planImport_total hverdicts
  obtain ⟨whole, hwhole⟩ : ∃ plan, planImport p
      (existingOf inv.seen.invoices) inv.onError inv.clock inv.file.rows
      = .ok plan := planImport_total hverdicts
  refine ⟨plan, whole, ?_, hwhole, ?_⟩
  · rw [Invocation.plan, hfile, hprobe, hload]
    simp only [hplan, isEmpty_nil, Bool.true_eq_false, if_false]
  -- the preliminary plan carries the external ids the rows give
  have hids : probe.rows.filterMap externalId = givenIds p inv.file.rows :=
    externalIds_planRows (planImport_rows hprobe)
  rw [← all_loaded_iff, ← hids]
  refine planRows_agree_iff ?_ (planImport_rows hwhole) (planImport_rows hplan) ?_
  · intro raw hmem row hv
    refine resolve_loaded ?_
    intro e he
    rw [hids]
    refine mem_filterMap.mpr ⟨raw, hmem, ?_⟩
    rw [hv]
    exact he
  · intro k
    exact iff_of_true rfl not_mem_nil

/-- A call with one row, against a table with one invoice. -/
def memoCall (externalId memo : String) : Invocation where
  file := { rows := [sampleRow 2 externalId memo] }
  onError := .abort
  seen := sampleDb
  probeClock := fun _ => 0
  clock := fun _ => 0
  session := sampleSession

theorem memoCall_valid (externalId memo : String)
    (h : (validateRow plainPlatform (sampleRow 2 externalId memo)).toOption.any
      (fun verdict => verdict.toOption.isSome) = true) :
    ∀ raw ∈ (memoCall externalId memo).file.rows, ∃ row,
      validateRow plainPlatform raw = .ok (.ok row) := by
  intro raw hmem
  obtain rfl := mem_singleton.mp hmem
  cases hv : validateRow plainPlatform (sampleRow 2 externalId memo) with
  | error thrown => rw [hv] at h; cases h
  | ok verdict =>
    cases verdict with
    | error errors => rw [hv] at h; cases h
    | ok row => exact ⟨row, rfl⟩

/-- A row that gives the external id too is matched. -/
theorem lookup_complete_by_id : ∃ plan whole, (memoCall "E" "INV-A-B").plan plainPlatform = .ok plan
    ∧ planImport plainPlatform (existingOf sampleTable) .abort (fun _ => 0)
        [sampleRow 2 "E" "INV-A-B"] = .ok whole
    ∧ SameDecisions plan.rows whole.rows := by
  obtain ⟨plan, whole, hplan, hwhole, hsame⟩ := lookup_complete_iff
    plainPlatform (memoCall "E" "INV-A-B") rfl rfl
    (memoCall_valid "E" "INV-A-B" (by decide +kernel))
  refine ⟨plan, whole, hplan, hwhole, hsame.mpr ?_⟩
  rintro ⟨m, row, -, found, hmem, -, hnot⟩
  have hall : ∀ found ∈ existingOf sampleTable,
      isLoaded (givenIds plainPlatform [sampleRow 2 "E" "INV-A-B"]) found
        = true := by decide +kernel
  cases (hall found hmem).symm.trans hnot

/-- A row with the memo only is planned as a creation of the invoice that is
    stored under that memo. -/
theorem lookup_overlooks_memo : (∀ raw ∈ (memoCall "" "INV-A-B").file.rows, ∃ row,
      validateRow plainPlatform raw = .ok (.ok row))
    ∧ ∃ plan whole, (memoCall "" "INV-A-B").plan plainPlatform = .ok plan
      ∧ planImport plainPlatform (existingOf sampleTable) .abort (fun _ => 0)
          [sampleRow 2 "" "INV-A-B"] = .ok whole
      ∧ plan.rows.map decision = [(.create, none)]
      ∧ whole.rows.map decision = [(.skip, some "x")]
      ∧ ¬ SameDecisions plan.rows whole.rows := by
  have hvalid := memoCall_valid "" "INV-A-B" (by decide +kernel)
  have hwhole : (planImport plainPlatform (existingOf sampleTable) .abort
      (fun _ => 0) [sampleRow 2 "" "INV-A-B"]).toOption.map
      (fun plan => plan.rows.map decision)
      = some [(.skip, some "x")] := by decide +kernel
  have hlooked : ((memoCall "" "INV-A-B").plan plainPlatform).toOption.map
      (fun plan => plan.rows.map decision)
      = some [(.create, none)] := by decide +kernel
  obtain ⟨whole, hwhole, hmatched⟩ := planImport_returns hwhole
  obtain ⟨plan, hplan, hcreated⟩ := map_eq_some_iff.mp hlooked
  refine ⟨hvalid, plan, whole, ?_, hwhole, hcreated, hmatched, ?_⟩
  · cases hout : (memoCall "" "INV-A-B").plan plainPlatform with
    | error exit => rw [hout] at hplan; cases hplan
    | ok plan' => rw [hout] at hplan; rw [some.inj hplan]
  rw [SameDecisions, hcreated, hmatched]
  decide

end Imports

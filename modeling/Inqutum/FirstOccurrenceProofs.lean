import Inqutum.ImportPlanProofs
import Mathlib.Data.List.Forall2

/-!
# One row for each invoice of a file

The planner means the first occurrence of an invoice in a file to win.  It
remembers the identity keys that earlier rows used, so two rows that share
a key are never both kept; but a stored invoice has two keys, its external
id and its memo, and one row may use the first and another the second.

`first_occurrence_wins_iff` says that this aliasing is the only way in
which two kept rows can stand for one stored invoice.
-/

namespace Imports

open Invoices List Option JsText

/-! ## The rows that are kept -/

/-- A valid row and the clock it was planned at. -/
structure KeptRow where
  row : ValidatedRow
  now : Int

/-- The valid rows that agree with the stored invoice they name and share no
    key with an earlier kept row. -/
def keptRows (p : Platform) (byKey : InsertionMap IdentityKey ExistingInvoice) (clock : Nat → Int) :
    Nat → List IdentityKey → List RawImportRow → List KeptRow
  | _, _, [] => []
  | n, used, raw :: rest =>
    match validateRow p raw with
    | .ok (.ok row) =>
      if (∀ k ∈ identityKeys row, k ∉ used) ∧ admissible byKey row (clock n) = true then
        ⟨row, clock n⟩ :: keptRows p byKey clock (n + 1) (identityKeys row ++ used) rest
      else keptRows p byKey clock (n + 1) used rest
    | _ => keptRows p byKey clock (n + 1) used rest

/-- A planned row is the decision about a kept row. -/
structure Carries (byKey : InsertionMap IdentityKey ExistingInvoice)
    (planned : PlannedRow) (kept : KeptRow) : Prop where
  decision : planned = freshRow byKey kept.row planned.line kept.now
  accepted : planned.action ≠ .error

theorem Carries.data {byKey : InsertionMap IdentityKey ExistingInvoice}
    {planned : PlannedRow} {kept : KeptRow} (h : Carries byKey planned kept) :
    planned.externalId = kept.row.externalId ∧ planned.invoice = some kept.row.invoice
    ∧ planned.existingId = (resolve byKey kept.row).map ExistingInvoice.id
    ∧ (planned.action = .create ↔ resolve byKey kept.row = none) := by
  have hacc := h.accepted
  rw [h.decision] at hacc ⊢
  exact freshRow_data hacc

/-- The rows that are not reported. -/
def acceptedRows (rows : List PlannedRow) : List PlannedRow :=
  rows.filter (fun row => decide (row.action ≠ .error))

section Kept

variable {p : Platform} {byKey : InsertionMap IdentityKey ExistingInvoice}
  {clock : Nat → Int}

theorem acceptedRows_cons (hd : PlannedRow) (rest : List PlannedRow) : acceptedRows (hd :: rest)
      = if hd.action ≠ .error then hd :: acceptedRows rest else acceptedRows rest := by
  rw [acceptedRows, filter_cons]
  simp only [decide_eq_true_eq, acceptedRows]

variable {rows : List RawImportRow} {used : List IdentityKey} {n : Nat}

/-- **ACCEPTED IS KEPT**: the rows the planner does not report are the kept
    rows, in order. -/
theorem acceptedRows_carry {claimed : Claimed} {out : List PlannedRow}
    (h : planRows p byKey clock n claimed rows = .ok out)
    (hused : ∀ k, claimed.get k = none ↔ k ∉ used) :
    Forall₂ (Carries byKey) (acceptedRows out) (keptRows p byKey clock n used rows) := by
  induction rows generalizing n claimed used out with
  | nil =>
    rw [planRows] at h
    cases h
    exact Forall₂.nil
  | cons raw rest ih =>
    rw [keptRows]
    rcases planRows_cons h with ⟨errors, planned, hv, hrest, rfl⟩
      | ⟨row, planned, hv, hrest, rfl⟩
    · rw [hv, acceptedRows_cons, if_neg (fun hne => hne rfl)]
      exact ih hrest hused
    rw [hv]
    simp only
    by_cases hfree : ∀ k ∈ identityKeys row, k ∉ used
    · have hclaimed : ∀ k ∈ identityKeys row, claimed.get k = none :=
        fun k hk => (hused k).mpr (hfree k hk)
      rw [planValid_fresh hclaimed] at hrest ⊢
      dsimp only at hrest ⊢
      rw [acceptedRows_cons]
      by_cases hok : admissible byKey row (clock n) = true
      · have hne := (freshRow_accepted byKey row raw.line (clock n)).mpr hok
        rw [if_pos hne, if_pos ⟨hfree, hok⟩]
        rw [if_neg hne] at hrest
        refine Forall₂.cons ⟨?_, hne⟩ (ih hrest ?_)
        · rw [freshRow_line]
        intro k
        rw [get_claim, hused k, mem_append, not_or]
      · have herr : (freshRow byKey row raw.line (clock n)).action = .error := by
          by_contra hne
          exact hok ((freshRow_accepted byKey row raw.line (clock n)).mp hne)
        rw [if_neg (fun hne => hne herr), if_neg (fun hand => hok hand.2)]
        rw [if_pos herr] at hrest
        exact ih hrest hused
    · have hclaimed : ¬ ∀ k ∈ identityKeys row, claimed.get k = none :=
        fun hall => hfree (fun k hk => (hused k).mp (hall k hk))
      obtain ⟨seen, hturn⟩ : ∃ seen, planValid byKey claimed row raw.line (clock n)
            = (duplicateRow row raw.line seen, claimed) :=
        planValid_duplicate hclaimed
      rw [hturn] at hrest ⊢
      dsimp only at hrest ⊢
      rw [acceptedRows_cons, if_neg (fun hne => hne rfl), if_neg (fun hand => hfree hand.1)]
      exact ih hrest hused

theorem keptRows_disjoint (n : Nat) (used : List IdentityKey) (rows : List RawImportRow) :
    (∀ kept ∈ keptRows p byKey clock n used rows, ∀ k ∈ identityKeys kept.row, k ∉ used) ∧
    (keptRows p byKey clock n used rows).Pairwise
      (fun a b => ∀ k ∈ identityKeys a.row, k ∉ identityKeys b.row) := by
  induction rows generalizing n used with
  | nil => exact ⟨(fun _ hr => nomatch hr), Pairwise.nil⟩
  | cons raw rest ih =>
    rw [keptRows]
    split
    · rename_i row _
      split
      · rename_i hkeep
        obtain ⟨hfresh, hpw⟩ := ih (n + 1) (identityKeys row ++ used)
        constructor
        · intro r hr
          rcases mem_cons.mp hr with rfl | hr
          · exact hkeep.1
          intro k hk hin
          exact hfresh r hr k hk (mem_append_right _ hin)
        refine pairwise_cons.mpr ⟨?_, hpw⟩
        intro r hr k hk hin
        exact hfresh r hr k hin (mem_append_left _ hk)
      · exact ih (n + 1) used
    · exact ih (n + 1) used

theorem valid_of_keptRows {kept : KeptRow} (h : kept ∈ keptRows p byKey clock n used rows) :
    ∃ raw ∈ rows, validateRow p raw = .ok (.ok kept.row) := by
  induction rows generalizing n used with
  | nil => cases h
  | cons raw rest ih =>
    have hrest : ∀ used', kept ∈ keptRows p byKey clock (n + 1) used' rest →
        ∃ raw' ∈ raw :: rest, validateRow p raw' = .ok (.ok kept.row) := by
      intro used' hmem
      obtain ⟨raw', hraw', hv⟩ := ih hmem
      exact ⟨raw', .tail _ hraw', hv⟩
    rw [keptRows] at h
    split at h
    · rename_i row' hv
      split at h
      · rcases mem_cons.mp h with rfl | h
        · exact ⟨raw, (.head _), hv⟩
        · exact hrest _ h
      · exact hrest _ h
    · exact hrest _ h

end Kept

/-! ## Naming a stored invoice -/

/-- The row gives the external id of the invoice. -/
def NamesByExternalId (row : ValidatedRow) (inv : ExistingInvoice) : Prop :=
  row.externalId ≠ none ∧ row.externalId = inv.externalId

/-- The row gives the memo of the invoice, and no external id that a stored
    invoice has. -/
def NamesByMemo (existing : List ExistingInvoice) (row : ValidatedRow)
    (inv : ExistingInvoice) : Prop :=
  row.invoice.memo = some inv.memo ∧ ∀ other ∈ existing, ¬ NamesByExternalId row other

instance (row : ValidatedRow) (inv : ExistingInvoice) :
    Decidable (NamesByExternalId row inv) :=
  inferInstanceAs (Decidable (_ ∧ _))

instance (existing : List ExistingInvoice) (row : ValidatedRow)
    (inv : ExistingInvoice) : Decidable (NamesByMemo existing row inv) :=
  inferInstanceAs (Decidable (_ ∧ _))

section Naming

variable {p : Platform} {existing : List ExistingInvoice}
  {raw : RawImportRow} {row : ValidatedRow} {inv : ExistingInvoice}

theorem nonEmpty_externalId (hv : validateRow p raw = .ok (.ok row)) :
    nonEmpty row.externalId = row.externalId := by
  rw [(validateRow_ok hv).1, raw.nonEmpty_given]

theorem nonEmpty_memo (hv : validateRow p raw = .ok (.ok row)) :
    nonEmpty row.invoice.memo = row.invoice.memo := by
  rw [(validateRow_ok hv).2.1, raw.nonEmpty_given]

theorem external_mem_recordKeys {e : String} : IdentityKey.external e ∈ recordKeys inv
      ↔ nonEmpty inv.externalId = some e := by
  simp [recordKeys]

theorem memo_mem_recordKeys {m : String} : IdentityKey.memo m ∈ recordKeys inv ↔ m = inv.memo := by
  simp [recordKeys]

theorem namesByExternalId_iff (hd : Distinct existing) (hv : validateRow p raw = .ok (.ok row)) :
    (inv ∈ existing ∧ NamesByExternalId row inv) ↔ ∃ e, nonEmpty row.externalId = some e
        ∧ (indexExisting existing).get (.external e) = some inv := by
  simp only [hd.get_indexExisting, external_mem_recordKeys]
  constructor
  · rintro ⟨hmem, hne, heq⟩
    obtain ⟨e, he⟩ := ne_none_iff_exists'.mp hne
    have hnon : nonEmpty row.externalId = some e := by rw [nonEmpty_externalId hv, he]
    exact ⟨e, hnon, hmem, by rw [← heq]; exact hnon⟩
  rintro ⟨e, hnon, hmem, hinv⟩
  have hrow := eq_of_nonEmpty hnon
  have hinv := eq_of_nonEmpty hinv
  refine ⟨hmem, ?_, by rw [hrow, hinv]⟩
  rw [hrow]
  exact some_ne_none e

/-- **RESOLUTION**: a valid row stands for the stored invoice it names by
    external id or, failing that, by memo. -/
theorem resolve_iff_names (hd : Distinct existing) (hv : validateRow p raw = .ok (.ok row)) :
    resolve (indexExisting existing) row = some inv ↔ inv ∈ existing ∧
        (NamesByExternalId row inv ∨ NamesByMemo existing row inv) := by
  have hnone : (∀ e, nonEmpty row.externalId = some e →
        (indexExisting existing).get (.external e) = none)
      ↔ ∀ other ∈ existing, ¬ NamesByExternalId row other := by
    constructor
    · intro h other hmem hnames
      obtain ⟨e, he, hget⟩ := (namesByExternalId_iff hd hv).mp ⟨hmem, hnames⟩
      rw [h e he] at hget
      cases hget
    intro h e he
    cases hget : (indexExisting existing).get (.external e) with
    | none => rfl
    | some other =>
      obtain ⟨hmem, hnames⟩ := (namesByExternalId_iff hd hv).mpr ⟨e, he, hget⟩
      exact absurd hnames (h other hmem)
  rw [resolve_eq_some, ← namesByExternalId_iff hd hv, hnone]
  simp only [hd.get_indexExisting, memo_mem_recordKeys, nonEmpty_memo hv]
  constructor
  · rintro (⟨hmem, hnames⟩ | ⟨hno, m, hm, hmem, rfl⟩)
    · exact ⟨hmem, .inl hnames⟩
    · exact ⟨hmem, .inr ⟨hm, hno⟩⟩
  rintro ⟨hmem, hnames | ⟨hm, hno⟩⟩
  · exact .inl ⟨hmem, hnames⟩
  · exact .inr ⟨hno, inv.memo, hm, hmem, rfl⟩

variable (existing) in
theorem shared_key_of_names {raw' : RawImportRow} {row' : ValidatedRow}
    (hv : validateRow p raw = .ok (.ok row)) (hv' : validateRow p raw' = .ok (.ok row'))
    (h : NamesByExternalId row inv ∧ NamesByExternalId row' inv
      ∨ NamesByMemo existing row inv ∧ NamesByMemo existing row' inv) :
    ∃ k ∈ identityKeys row, k ∈ identityKeys row' := by
  rcases h with ⟨⟨hne, heq⟩, ⟨-, heq'⟩⟩ | ⟨⟨hm, -⟩, ⟨hm', -⟩⟩
  · obtain ⟨e, he⟩ := ne_none_iff_exists'.mp hne
    refine ⟨.external e, ?_, ?_⟩
    · rw [mem_identityKeys_external, nonEmpty_externalId hv, he]
    · rw [mem_identityKeys_external, nonEmpty_externalId hv', heq', ← heq, he]
  refine ⟨.memo inv.memo, ?_, ?_⟩
  · rw [mem_identityKeys_memo, nonEmpty_memo hv, hm]
  · rw [mem_identityKeys_memo, nonEmpty_memo hv', hm']

end Naming

/-! ## The plan of a file -/

/-- The memo a planned row carries. -/
def PlannedRow.suppliedMemo (row : PlannedRow) : Option String :=
  row.invoice.bind ImportInvoice.memo

/-- The accepted rows of a kind that aim at an invoice. -/
def targeting (plan : ImportPlan) (kind : PlannedRow → Bool) (id : String) :
    List PlannedRow :=
  (acceptedRows plan.rows).filter (fun row => kind row && decide (row.existingId = some id))

/-- Each stored invoice is the target of at most one accepted row, and no two
    creations share an external id or a supplied memo. -/
structure FirstOccurrenceWins (existing : List ExistingInvoice) (plan : ImportPlan) : Prop where
  targets : ∀ inv ∈ existing, (targeting plan (fun _ => true) inv.id).length ≤ 1
  creates : (plan.rows.filter (fun row => decide (row.action = .create)) ).Pairwise (fun a b =>
      (a.externalId ≠ none → a.externalId ≠ b.externalId)
      ∧ (a.suppliedMemo ≠ none → a.suppliedMemo ≠ b.suppliedMemo))

/-- A stored invoice is named by its external id in one kept row and by its
    memo in another. -/
def Aliased (p : Platform) (existing : List ExistingInvoice)
    (clock : Nat → Int) (rows : List RawImportRow) : Prop :=
  ∃ inv ∈ existing, (∃ a ∈ keptRows p (indexExisting existing) clock 0 [] rows,
      NamesByExternalId a.row inv) ∧
    (∃ b ∈ keptRows p (indexExisting existing) clock 0 [] rows, NamesByMemo existing b.row inv)

instance (p : Platform) (existing : List ExistingInvoice)
    (clock : Nat → Int) (rows : List RawImportRow) :
    Decidable (Aliased p existing clock rows) :=
  inferInstanceAs (Decidable (∃ inv ∈ existing, _ ∧ _))

section Plan

variable {p : Platform} {existing : List ExistingInvoice} {onError : OnError}
  {clock : Nat → Int} {rows : List RawImportRow} {plan : ImportPlan}

theorem planImport_carries (h : planImport p existing onError clock rows = .ok plan) :
    Forall₂ (Carries (indexExisting existing)) (acceptedRows plan.rows)
      (keptRows p (indexExisting existing) clock 0 [] rows) := by
  refine acceptedRows_carry (planImport_rows h) ?_
  intro k
  exact ⟨nofun, fun _ => rfl⟩

variable {planned : List PlannedRow} {kept : List KeptRow} {α β : Type} {R : α → β → Prop}

theorem forall₂_right {planned : List α} {kept : List β} {a : α} (h : Forall₂ R planned kept)
    (ha : a ∈ planned) : ∃ k ∈ kept, R a k := by
  induction h with
  | nil => cases ha
  | @cons a' k planned kept hcarry _ ih =>
    rcases mem_cons.mp ha with rfl | ha
    · exact ⟨k, (.head _), hcarry⟩
    obtain ⟨k', hk', hcarry'⟩ := ih ha
    exact ⟨k', .tail _ hk', hcarry'⟩

theorem forall₂_left {planned : List α} {kept : List β} {k : β}
    (h : Forall₂ R planned kept) (hk : k ∈ kept) : ∃ a ∈ planned, R a k := by
  induction h with
  | nil => cases hk
  | @cons a k' planned kept hcarry _ ih =>
    rcases mem_cons.mp hk with rfl | hk
    · exact ⟨a, (.head _), hcarry⟩
    obtain ⟨a', ha', hcarry'⟩ := ih hk
    exact ⟨a', .tail _ ha', hcarry'⟩

variable {byKey : InsertionMap IdentityKey ExistingInvoice}

theorem forall₂_mem_right (h : Forall₂ (Carries byKey) planned kept) :
    Forall₂ (fun a k => Carries byKey a k ∧ k ∈ kept) planned kept := by
  induction h with
  | nil => exact Forall₂.nil
  | @cons a k planned kept hcarry _ ih =>
    refine Forall₂.cons ⟨hcarry, (.head _)⟩ (ih.imp ?_)
    exact fun a k hak => ⟨hak.1, .tail _ hak.2⟩

theorem pairwise_of_carries {R : KeptRow → KeptRow → Prop} {S : PlannedRow → PlannedRow → Prop}
    (h : Forall₂ (Carries byKey) planned kept) (hpw : kept.Pairwise R)
    (hRS : ∀ a r b s, r ∈ kept → s ∈ kept → Carries byKey a r →
      Carries byKey b s → R r s → S a b) : planned.Pairwise S := by
  induction h with
  | nil => exact Pairwise.nil
  | @cons a r planned kept hcarry hrest ih =>
    obtain ⟨hhd, htl⟩ := pairwise_cons.mp hpw
    refine pairwise_cons.mpr ⟨?_, ih htl ?_⟩
    · intro b hb
      obtain ⟨s, hs, hbs⟩ := forall₂_right hrest hb
      exact hRS a r b s (.head _) (.tail _ hs) hcarry hbs (hhd s hs)
    intro a' r' b s hr hs
    exact hRS a' r' b s (.tail _ hr) (.tail _ hs)

theorem creates_distinct (h : planImport p existing onError clock rows = .ok plan) :
    (plan.rows.filter (fun row => decide (row.action = .create))).Pairwise
      (fun a b => (a.externalId ≠ none → a.externalId ≠ b.externalId)
        ∧ (a.suppliedMemo ≠ none → a.suppliedMemo ≠ b.suppliedMemo)) := by
  have haccepted : (acceptedRows plan.rows).Pairwise (fun a b =>
      (a.externalId ≠ none → a.externalId ≠ b.externalId)
        ∧ (a.suppliedMemo ≠ none → a.suppliedMemo ≠ b.suppliedMemo)) := by
    refine pairwise_of_carries (planImport_carries h) (keptRows_disjoint 0 [] rows).2 ?_
    intro a r b s hr hs ha hb hdisjoint
    obtain ⟨rawr, -, hvr⟩ := valid_of_keptRows hr
    obtain ⟨raws, -, hvs⟩ := valid_of_keptRows hs
    constructor
    · rw [ha.data.1, hb.data.1]
      intro hne heq
      obtain ⟨e, he⟩ := ne_none_iff_exists'.mp hne
      refine hdisjoint (.external e) ?_ ?_
      · rw [mem_identityKeys_external, nonEmpty_externalId hvr, he]
      · rw [mem_identityKeys_external, nonEmpty_externalId hvs, ← heq, he]
    · have hma : a.suppliedMemo = r.row.invoice.memo := by
        rw [PlannedRow.suppliedMemo, ha.data.2.1]
        rfl
      have hmb : b.suppliedMemo = s.row.invoice.memo := by
        rw [PlannedRow.suppliedMemo, hb.data.2.1]
        rfl
      rw [hma, hmb]
      intro hne heq
      obtain ⟨m, hm⟩ := ne_none_iff_exists'.mp hne
      refine hdisjoint (.memo m) ?_ ?_
      · rw [mem_identityKeys_memo, nonEmpty_memo hvr, hm]
      · rw [mem_identityKeys_memo, nonEmpty_memo hvs, ← heq, hm]
  have hsub : (plan.rows.filter (fun row => decide (row.action = .create))
      ).Sublist (acceptedRows plan.rows) := by
    refine monotone_filter_right plan.rows ?_
    intro row hrow
    have haction := of_decide_eq_true hrow
    refine decide_eq_true ?_
    rw [haction]
    exact fun heq => nomatch heq
  exact haccepted.sublist hsub

theorem Carries.target_iff {planned : PlannedRow} {kept : KeptRow}
    {inv : ExistingInvoice} (hd : Distinct existing)
    (hcarry : Carries (indexExisting existing) planned kept)
    {raw : RawImportRow} (hv : validateRow p raw = .ok (.ok kept.row)) (hinv : inv ∈ existing) :
    planned.existingId = some inv.id ↔ resolve (indexExisting existing) kept.row = some inv := by
  rw [hcarry.data.2.2.1]
  constructor
  · intro h
    obtain ⟨found, hres, hid⟩ := map_eq_some_iff.mp h
    have hfound := ((resolve_iff_names hd hv).mp hres).1
    have hinj := inj_on_of_nodup_map hd.ids hfound hinv hid
    rw [hres, hinj]
  intro h
  rw [h]
  rfl

section Targets

variable {kind : PlannedRow → Bool} {ofKind : KeptRow → Prop}
  {inv : ExistingInvoice}
  (hd : Distinct existing) (h : planImport p existing onError clock rows = .ok plan)
  (hinv : inv ∈ existing)
  (hkind : ∀ planned kept, Carries (indexExisting existing) planned kept →
    resolve (indexExisting existing) kept.row = some inv → (kind planned = true ↔ ofKind kept))

include hd h hinv hkind

/-- Rows that name an invoice the same way are never both kept, so a kind of
    row without aliasing aims at it at most once. -/
theorem targets_of_not_aliased (hno : ¬ ((∃ a ∈ keptRows p (indexExisting existing) clock 0 [] rows,
        NamesByExternalId a.row inv ∧ ofKind a) ∧
      (∃ b ∈ keptRows p (indexExisting existing) clock 0 [] rows,
        NamesByMemo existing b.row inv ∧ ofKind b))) : (targeting plan kind inv.id).length ≤ 1 := by
  have hpw : (acceptedRows plan.rows).Pairwise (fun a b =>
      kind a = true ∧ a.existingId = some inv.id →
      ¬ (kind b = true ∧ b.existingId = some inv.id)) := by
    refine pairwise_of_carries (planImport_carries h) (keptRows_disjoint 0 [] rows).2 ?_
    rintro a r b s hr hs ha hb hdisjoint ⟨hka, htarget⟩ ⟨hkb, htarget'⟩
    obtain ⟨rawr, -, hvr⟩ := valid_of_keptRows hr
    obtain ⟨raws, -, hvs⟩ := valid_of_keptRows hs
    rw [ha.target_iff hd hvr hinv] at htarget
    rw [hb.target_iff hd hvs hinv] at htarget'
    have hra := (hkind a r ha htarget).mp hka
    have hsb := (hkind b s hb htarget').mp hkb
    have hshared : ¬ ∃ k ∈ identityKeys r.row, k ∈ identityKeys s.row := by
      rintro ⟨k, hk, hk'⟩
      exact hdisjoint k hk hk'
    rcases ((resolve_iff_names hd hvr).mp htarget).2 with hext | hmemo
    · rcases ((resolve_iff_names hd hvs).mp htarget').2 with hext' | hmemo'
      · exact hshared (shared_key_of_names existing hvr hvs (Or.inl ⟨hext, hext'⟩))
      · exact hno ⟨⟨r, hr, hext, hra⟩, ⟨s, hs, hmemo', hsb⟩⟩
    rcases ((resolve_iff_names hd hvs).mp htarget').2 with hext' | hmemo'
    · exact hno ⟨⟨s, hs, hext', hsb⟩, ⟨r, hr, hmemo, hra⟩⟩
    · exact hshared (shared_key_of_names existing hvr hvs (Or.inr ⟨hmemo, hmemo'⟩))
  have hpair := hpw.filter (fun row => kind row && decide (row.existingId = some inv.id))
  have hall : ∀ row ∈ targeting plan kind inv.id,
      kind row = true ∧ row.existingId = some inv.id := by
    intro row hrow
    have hrow := (mem_filter.mp hrow).2
    rw [Bool.and_eq_true, decide_eq_true_eq] at hrow
    exact hrow
  rw [targeting] at hall ⊢
  match hl : (acceptedRows plan.rows).filter
      (fun row => kind row && decide (row.existingId = some inv.id)) with
  | [] => exact Nat.zero_le 1
  | [_] => exact Nat.le_refl 1
  | a :: b :: rest =>
    rw [hl] at hpair hall
    have ha := hall a mem_cons_self
    have hb := hall b (mem_cons_of_mem _ mem_cons_self)
    exact absurd hb ((pairwise_cons.mp hpair).1 b mem_cons_self ha)

theorem not_aliased_of_targets (hle : (targeting plan kind inv.id).length ≤ 1) :
    ¬ ((∃ a ∈ keptRows p (indexExisting existing) clock 0 [] rows,
        NamesByExternalId a.row inv ∧ ofKind a) ∧
      (∃ b ∈ keptRows p (indexExisting existing) clock 0 [] rows,
        NamesByMemo existing b.row inv ∧ ofKind b)) := by
  rintro ⟨⟨r, hr, hext, hra⟩, ⟨s, hs, hmemo, hsb⟩⟩
  obtain ⟨rawr, -, hvr⟩ := valid_of_keptRows hr
  obtain ⟨raws, -, hvs⟩ := valid_of_keptRows hs
  have hresr := (resolve_iff_names hd hvr).mpr ⟨hinv, .inl hext⟩
  have hress := (resolve_iff_names hd hvs).mpr ⟨hinv, .inr hmemo⟩
  classical
  have hrel := rel_filter (p := fun row : PlannedRow =>
      kind row && decide (row.existingId = some inv.id))
    (q := fun kept : KeptRow => decide (ofKind kept
      ∧ resolve (indexExisting existing) kept.row = some inv))
    (R := fun planned kept => Carries (indexExisting existing) planned kept
      ∧ kept ∈ keptRows p (indexExisting existing) clock 0 [] rows)
    (fun a b (hab : Carries (indexExisting existing) a b ∧ _) => by
      obtain ⟨raw, -, hv⟩ := valid_of_keptRows hab.2
      dsimp only
      rw [Bool.and_eq_true, decide_eq_true_eq, decide_eq_true_eq, hab.1.target_iff hd hv hinv]
      exact ⟨fun ⟨hk, hres⟩ => ⟨(hkind a b hab.1 hres).mp hk, hres⟩,
        fun ⟨hk, hres⟩ => ⟨(hkind a b hab.1 hres).mpr hk, hres⟩⟩)
    (forall₂_mem_right (planImport_carries h))
  have hlen := hrel.length_eq
  have hmem : ∀ kept ∈ keptRows p (indexExisting existing) clock 0 [] rows,
      ofKind kept → resolve (indexExisting existing) kept.row = some inv →
      kept ∈ (keptRows p (indexExisting existing) clock 0 [] rows).filter
        (fun kept => decide (ofKind kept ∧ resolve (indexExisting existing) kept.row = some inv)) :=
    fun kept hkept hk hres => mem_filter.mpr ⟨hkept, decide_eq_true ⟨hk, hres⟩⟩
  have hrm := hmem r hr hra hresr
  have hsm := hmem s hs hsb hress
  -- both rows are in a list of at most one, yet only one names the id
  match hl : (keptRows p (indexExisting existing) clock 0 [] rows).filter
      (fun kept => decide (ofKind kept ∧ resolve (indexExisting existing) kept.row = some inv)) with
  | [] => rw [hl] at hrm; cases hrm
  | [x] =>
    rw [hl] at hrm hsm
    rw [mem_singleton.mp hrm, ← mem_singleton.mp hsm] at hext
    exact hmemo.2 inv hinv hext
  | _ :: _ :: _ =>
    rw [targeting, hlen, hl] at hle
    simp at hle

end Targets

/-- **THE FIRST OCCURRENCE WINS** exactly when no stored invoice is named by
    its external id in one kept row and by its memo in another. -/
theorem first_occurrence_wins_iff (hd : Distinct existing)
    (h : planImport p existing onError clock rows = .ok plan) :
    FirstOccurrenceWins existing plan ↔ ¬ Aliased p existing clock rows := by
  have hany : ∀ inv ∈ existing, ∀ planned kept, Carries (indexExisting existing) planned kept →
      resolve (indexExisting existing) kept.row = some inv →
      ((fun _ : PlannedRow => true) planned = true ↔ (fun _ : KeptRow => True) kept) :=
    fun _ _ _ _ _ _ => ⟨fun _ => trivial, fun _ => rfl⟩
  constructor
  · rintro hwins ⟨inv, hinv, ⟨a, ha, hext⟩, ⟨b, hb, hmemo⟩⟩
    exact not_aliased_of_targets hd h hinv (hany inv hinv) (hwins.targets inv hinv)
      ⟨⟨a, ha, hext, trivial⟩, ⟨b, hb, hmemo, trivial⟩⟩
  intro hno
  refine ⟨?_, creates_distinct h⟩
  intro inv hinv
  refine targets_of_not_aliased hd h hinv (hany inv hinv) ?_
  rintro ⟨⟨a, ha, hext, -⟩, ⟨b, hb, hmemo, -⟩⟩
  exact hno ⟨inv, hinv, ⟨a, ha, hext⟩, ⟨b, hb, hmemo⟩⟩

end Plan

/-! ## A file that names one invoice twice -/

/-- A platform for files without dates and metadata. -/
def plainPlatform : Platform where
  dateParse := fun _ => none
  jsonParse := fun _ => .error "Unexpected end of JSON input"
  isEmail := fun _ => true
  normalize := id

def sampleSeller : String :=
  "GAAAAAAAAAAAAAAAAAAAAAAAAAAAAAAAAAAAAAAAAAAAAAAAAAAAAAAA"

/-- A row for five lumens with the given keys. -/
def sampleRow (line : Nat) (externalId memo : String) : RawImportRow where
  line := line
  values
    | .externalId => some externalId
    | .memo => some memo
    | .sellerPublicKey => some sampleSeller
    | .amount => some "5"
    | _ => none

def sampleExisting : ExistingInvoice where
  id := "x"
  externalId := some "E"
  memo := "INV-A-B"
  amount := 5
  assetCode := "XLM"
  sellerPublicKey := sampleSeller
  expiresAt := 0

theorem distinct_sample : Distinct [sampleExisting] :=
  ⟨nodup_singleton _, nodup_singleton _, pairwise_singleton _ _⟩

theorem first_occurrence_wins_single : ∃ plan,
    planImport plainPlatform [sampleExisting] .abort (fun _ => 0)
      [sampleRow 2 "E" "INV-A-B", sampleRow 3 "" "INV-A-B"] = .ok plan
    ∧ FirstOccurrenceWins [sampleExisting] plan := by
  have hrun : (planImport plainPlatform [sampleExisting] .abort (fun _ => 0)
      [sampleRow 2 "E" "INV-A-B", sampleRow 3 "" "INV-A-B"]
      ).toOption.map ImportPlan.total = some 2 := by decide +kernel
  obtain ⟨plan, hplan, -⟩ := planImport_returns hrun
  exact ⟨plan, hplan, (first_occurrence_wins_iff distinct_sample hplan).mpr (by decide +kernel)⟩

/-- One row names the invoice by external id, the other by memo; both are
    kept. -/
theorem both_keys_of_one_invoice : Distinct [sampleExisting] ∧ ∃ plan,
    planImport plainPlatform [sampleExisting] .abort (fun _ => 0)
      [sampleRow 2 "E" "", sampleRow 3 "" "INV-A-B"] = .ok plan
    ∧ ¬ FirstOccurrenceWins [sampleExisting] plan := by
  have hrun : (planImport plainPlatform [sampleExisting] .abort (fun _ => 0)
      [sampleRow 2 "E" "", sampleRow 3 "" "INV-A-B"]).toOption.map
      (fun plan => (targeting plan (fun _ => true) "x").length)
      = some 2 := by decide +kernel
  obtain ⟨plan, hplan, hcount⟩ := planImport_returns hrun
  refine ⟨distinct_sample, plan, hplan, ?_⟩
  intro hwins
  have hle := hwins.targets sampleExisting (.head _)
  rw [show sampleExisting.id = "x" from rfl, hcount] at hle
  omega

end Imports

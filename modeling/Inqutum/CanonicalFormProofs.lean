import Inqutum.CanonicalUnicodeProofs
import Inqutum.JsonReaderProofs
import Inqutum.JsonStringifyProofs

/-!
# The canonical form of any JSON value

What `canonicalize` writes of a value is its sorted tree in NFC
(`canonicalForm_eq`), whatever its strings are.  So values that are equal
up to member order have one canonical text (`canonicalForm_of_same`), and
values of one canonical text are equal up to member order and NFC
(`same_of_canonicalForm`).
-/

namespace Canonical

open JsonText
open Utf8 (isHigh isLow isSurrogate wellFormed)
open Stringify (CleanPart wellFormed_append wellFormed_cons wellFormed_of_plain)
open List Stringify

section Form

variable {e : Engine}

theorem canonicalForm_eq (t : Tree) : canonicalForm e t = normalizeTree e (sortKeys t) := by
  induction t using tree_induct with
  | hnull => rfl
  | hbool b => rfl
  | hnum x => cases x <;> rfl
  | hstr s => rfl
  | harr items ih =>
    rw [canonicalForm, sortKeys, normalizeTree, canonicalItems_eq,
      sortItems_eq, normalizeItems_eq, map_map]
    exact congrArg Tree.arr (map_congr_left ih)
  | hobj members ih =>
    have hvalues : canonicalValues e members
        = members.map (fun m => (m.1, normalizeTree e (sortKeys m.2))) := by
      rw [canonicalValues_eq]
      refine map_congr_left fun m hm => ?_
      rw [ih m hm]
    have hsort := sortMembers_map (normalizeTree e) (sortValues members)
    rw [sortValues_eq, map_map] at hsort
    rw [canonicalForm, sortKeys, normalizeTree, normalizeMembers_eq, hvalues, sortValues_eq]
    refine congrArg Tree.obj ?_
    refine (congrArg (map _) hsort).trans ?_
    rw [map_map]
    rfl

theorem same_normalizeTree {t u : Tree} (h : Same t u) :
    Same (normalizeTree e t) (normalizeTree e u) := by
  induction h with
  | refl t => exact .refl _
  | symm _ ih => exact ih.symm
  | trans _ _ ih ih' => exact ih.trans ih'
  | zero => exact .zero
  | item front rest _ ih =>
    rw [normalizeTree, normalizeTree, normalizeItems_eq, normalizeItems_eq,
      map_append, map_append, map_cons, map_cons]
    exact .item _ _ ih
  | member front rest key _ ih =>
    rw [normalizeTree, normalizeTree, normalizeMembers_eq,
      normalizeMembers_eq, map_append, map_append, map_cons,
      map_cons]
    exact .member _ _ _ ih
  | order hperm =>
    rw [normalizeTree, normalizeTree, normalizeMembers_eq, normalizeMembers_eq]
    exact .order (hperm.map _)

/-- **ONE TEXT** for values that are equal up to member order. -/
theorem canonicalForm_of_same {t u : Tree} (h : Same t u) (hd : Distinct t) :
    canonicalForm e t = canonicalForm e u := by
  rw [canonicalForm_eq, canonicalForm_eq, (sortKeys_eq_of_same h).2 hd]

theorem same_canonicalForm (t : Tree) : Same (canonicalForm e t) (normalizeTree e t) := by
  rw [canonicalForm_eq]
  exact same_normalizeTree (same_sortKeys t).symm

/-- **ONE VALUE** up to member order and NFC for values of one text. -/
theorem same_of_canonicalForm {t u : Tree} (h : canonicalForm e t = canonicalForm e u) :
    Same (normalizeTree e t) (normalizeTree e u) := by
  have ht := (same_canonicalForm (e := e) t).symm
  rw [h] at ht
  exact ht.trans (same_canonicalForm u)

variable {t : Tree} {numbers : ℚ → Prop} {c : CodeUnit} {s : Text}

theorem normalizeTree_of_normalized (h : Every (Normalized e) t) : normalizeTree e t = t := by
  induction t using tree_induct with
  | hnull => rfl
  | hbool b => rfl
  | hnum x => rfl
  | hstr s => rw [normalizeTree, h.self.1 s rfl]
  | harr items ih =>
    have hitems := (every_arr.mp h).2
    rw [normalizeTree, normalizeItems_eq, map_congr_left
      (fun x hx => ih x hx (hitems x hx)), map_id']
  | hobj members ih =>
    obtain ⟨⟨-, hkeys⟩, hmembers⟩ := every_obj.mp h
    rw [normalizeTree, normalizeMembers_eq]
    refine congrArg Tree.obj ?_
    refine (map_congr_left fun m hm => ?_).trans (map_id _)
    rw [hkeys m.1 (mem_map_of_mem hm), ih m hm (hmembers m hm)]
    rfl

theorem normalizeTree_idem (hidem : ∀ text, e.normalize (e.normalize text) = e.normalize text)
    (t : Tree) : normalizeTree e (normalizeTree e t) = normalizeTree e t := by
  induction t using tree_induct with
  | hnull => rfl
  | hbool b => rfl
  | hnum x => rfl
  | hstr s => exact congrArg Tree.str (hidem s)
  | harr items ih =>
    rw [normalizeTree, normalizeTree, normalizeItems_eq, normalizeItems_eq, map_map]
    exact congrArg Tree.arr (map_congr_left ih)
  | hobj members ih =>
    rw [normalizeTree, normalizeTree, normalizeMembers_eq, normalizeMembers_eq, map_map]
    refine congrArg Tree.obj (map_congr_left fun m hm => ?_)
    exact Prod.ext (hidem m.1) (ih m hm)

theorem every_canonicalForm {P Q : Tree → Prop} (hnull : Q .null)
    (hbool : ∀ b, Q (.bool b)) (hnum : ∀ x, P (.num x) → Q (canonicalForm e (.num x)))
    (hstr : ∀ s, P (.str s) → Q (.str (e.normalize s))) (harr : ∀ items, Q (.arr items))
    (hobj : ∀ members members', P (.obj members) →
      (∀ key ∈ JsonText.keys members', ∃ k ∈ JsonText.keys members, e.normalize k = key) →
      Q (.obj members')) (h : Every P t) : Every Q (canonicalForm e t) := by
  induction t using tree_induct with
  | hnull => exact hnull
  | hbool b => exact hbool b
  | hnum x => cases x <;> exact hnum _ h
  | hstr s => exact hstr s h
  | harr items ih =>
    have hitems := (every_arr.mp h).2
    rw [canonicalForm, canonicalItems_eq]
    refine every_arr.mpr ⟨harr _, forall_mem_map.mpr fun x hx => ?_⟩
    exact ih x hx (hitems x hx)
  | hobj members ih =>
    obtain ⟨hself, hmembers⟩ := every_obj.mp h
    have hkeys := keys_canonicalForm (e := e) members
    rw [canonicalForm] at hkeys ⊢
    refine every_obj.mpr ⟨hobj members _ hself ?_, ?_⟩
    · intro key hkey
      rw [show JsonText.keys _ = _ from hkeys] at hkey
      obtain ⟨k, hk, rfl⟩ := mem_map.mp hkey
      exact ⟨k, (keys_sortMembers_perm members).mem_iff.mp hk, rfl⟩
    rw [forall_mem_map]
    simp only [(sortMembers_perm _).mem_iff, canonicalValues_eq, forall_mem_map]
    exact fun m hm => ih m hm (hmembers m hm)

theorem numbersOk_canonicalForm (hzero : numbers 0) (h : Every (NumberIn numbers) t) :
    NumbersOk (Unsigned numbers) (canonicalForm e t) := by
  refine every_canonicalForm nofun nofun ?_ nofun nofun nofun h
  intro x hnum y hy
  cases x with
  | negZero =>
    obtain rfl := Tree.num.inj hy
    exact ⟨0, rfl, hzero⟩
  | finite q =>
    obtain rfl := Tree.num.inj hy
    exact ⟨q, rfl, hnum q rfl⟩

/-! ## Lone surrogates -/

/-- The strings and the names of this part hold no lone surrogate. -/
def CleanText (t : Tree) : Prop :=
  (∀ s, t = .str s → wellFormed s = true)
  ∧ ∀ key ∈ keysOf t, wellFormed key = true

theorem escapeUnit_surrogate (h : isSurrogate c = true) : escapeUnit c = [c] := by
  have hlow := (isSurrogate_bounds h).1
  have hne : ∀ d : CodeUnit, d.val < 0xD800 → c ≠ d := by
    rintro d hd rfl
    omega
  have hcontrol : ¬ c < 32 := by
    intro hlt
    exact absurd (show c.val < 32 from hlt) (by omega)
  rw [escapeUnit, if_neg (hne _ (by decide)), if_neg (hne _ (by decide)),
    if_neg (hne _ (by decide)), if_neg (hne _ (by decide)),
    if_neg (hne _ (by decide)), if_neg (hne _ (by decide)),
    if_neg (hne _ (by decide)), if_neg hcontrol]

theorem wellFormed_flatMap_escapeUnit (h : wellFormed s = true) :
    wellFormed (s.flatMap escapeUnit) = true := by
  have hplain : ∀ c : CodeUnit, isSurrogate c = false → wellFormed (escapeUnit c) = true :=
    fun c hc => wellFormed_of_plain (plain_escapeUnit hc)
  fun_induction wellFormed s with
  | case1 => rfl
  | case2 c =>
    have hc : isSurrogate c = false := by simpa using h
    rw [flatMap_singleton]
    exact hplain c hc
  | case3 c d rest hpair ih =>
    obtain ⟨hc, hd⟩ := Bool.and_eq_true_iff.mp hpair
    rw [flatMap_cons, flatMap_cons, escapeUnit_surrogate, escapeUnit_surrogate]
    · show wellFormed (c :: d :: rest.flatMap escapeUnit) = true
      rw [wellFormed, if_pos hpair]
      exact ih h
    · rw [isSurrogate, hd, Bool.or_true]
    · rw [isSurrogate, hc, Bool.true_or]
  | case4 c d rest hpair ih =>
    rw [Bool.and_eq_true, Bool.not_eq_true'] at h
    rw [flatMap_cons]
    exact wellFormed_append (hplain c h.1) (ih h.2)

theorem wellFormed_escapeString (h : wellFormed s = true) : wellFormed (escapeString s) = true :=
  wellFormed_cons rfl (wellFormed_append (wellFormed_flatMap_escapeUnit h) rfl)

theorem isSurrogate_of_isNumberUnit (h : isNumberUnit c = true) : isSurrogate c = false := by
  simp only [isNumberUnit, isDigit, Bool.or_eq_true, Bool.and_eq_true,
    decide_eq_true_eq, beq_iff_eq] at h
  rcases h with ((((⟨-, hle⟩ | rfl) | rfl) | rfl) | rfl) | rfl
  · refine isSurrogate_of_lt ?_
    exact lt_of_le_of_lt (show c.val ≤ 57 from hle) (by decide)
  · decide
  · decide
  · decide
  · decide
  · decide

theorem wellFormed_canonicalText {read : Text → Option Number} (he : e.Standard read numbers)
    (hkeep : ∀ text, wellFormed text = true → wellFormed (e.normalize text) = true)
    (hnum : Every (NumberIn numbers) t) (hclean : Every CleanText t) :
    wellFormed (writeTree (writer e) (canonicalForm e t)) = true := by
  have hnumber : ∀ q, numbers q → wellFormed (e.numberText q) = true := by
    intro q hq
    refine wellFormed_of_plain fun c hc => isSurrogate_of_isNumberUnit ?_
    exact (isJsonNumber_units (he.isNumber q hq)).2 c hc
  refine wellFormed_writeTree (every_canonicalForm (P := fun u => NumberIn numbers u ∧ CleanText u)
    ⟨nofun, nofun, nofun⟩
    (fun b => ⟨nofun, nofun, nofun⟩) ?_ ?_
    (fun items => ⟨nofun, nofun,
      fun x h => (nomatch h)⟩) ?_ (every_and hnum hclean))
  · intro x hx
    cases x with
    | negZero =>
      refine ⟨nofun, nofun, fun y hy => ?_⟩
      obtain rfl := Tree.num.inj hy
      exact hnumber 0 he.zero
    | finite q =>
      refine ⟨nofun, nofun, fun y hy => ?_⟩
      obtain rfl := Tree.num.inj hy
      exact hnumber q (hx.1 q rfl)
  · intro s hs
    refine ⟨fun s' h => ?_, nofun, nofun⟩
    obtain rfl := Tree.str.inj h
    exact wellFormed_escapeString (hkeep s (hs.2.1 s rfl))
  intro members members' hm hkeys
  refine ⟨nofun, fun key hkey => ?_, nofun⟩
  obtain ⟨k, hk, rfl⟩ := hkeys key hkey
  exact wellFormed_escapeString (hkeep k (hm.2.2 k hk))

end Form

end Canonical

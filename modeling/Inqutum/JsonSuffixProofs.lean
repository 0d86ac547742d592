import Inqutum.JsonReaderProofs

/-!
# JSON texts at the end of JSON texts

A text that follows a point in the text of a tree is seldom the text of a
tree itself.  Read one code unit at a time, the two texts are inside
strings at the same places, or at opposite ones.  They cannot be opposite
to their end, where neither is inside a string; and a point outside of
strings belongs to a number.

So the only such texts are those of numbers (`numbers_of_suffix`): `5` at
the end of `1.5`.
-/

namespace JsonText

open List Option

/-! ## Where the strings are -/

inductive Mode where
  | plain
  | quoted
  | escaped

/-- What follows a point starts with a digit. -/
def DigitNext (text : Text) : Prop := ∃ d ∈ text.head?, isDigit d = true

/-- Read from this mode on, the text has its strings closed; outside of them
    it has no backslash, and a digit behind each point. -/
def Scans : Mode → Text → Prop
  | mode, [] => mode = .plain
  | .plain, c :: rest =>
    c ≠ unit '\\' ∧ (c = unit '.' → DigitNext rest)
      ∧ Scans (if c = unit '"' then .quoted else .plain) rest
  | .quoted, c :: rest =>
    Scans (if c = unit '"' then .plain
      else if c = unit '\\' then .escaped else .quoted) rest
  | .escaped, _ :: rest => Scans .quoted rest

section Scans

variable {a b : Text} {c : CodeUnit}

theorem DigitNext.append (h : DigitNext a) (b : Text) : DigitNext (a ++ b) := by
  obtain ⟨d, hd, hdigit⟩ := h
  exact ⟨d, by rw [head?_append, mem_def.mp hd]; rfl, hdigit⟩

theorem Scans.append {mode : Mode} (ha : Scans mode a)
    (hb : Scans .plain b) : Scans mode (a ++ b) := by
  induction a generalizing mode with
  | nil =>
    obtain rfl : mode = .plain := by rwa [Scans] at ha
    exact hb
  | cons c a ih =>
    cases mode with
    | plain =>
      obtain ⟨hslash, hpoint, hrest⟩ := ha
      exact ⟨hslash, fun hc => (hpoint hc).append b, ih hrest⟩
    | quoted => exact @ih (if _ then _ else _) ha
    | escaped => exact @ih .quoted ha

/-- A code unit that is no quote, no backslash and no point. -/
theorem scans_cons (hquote : c ≠ unit '"') (hslash : c ≠ unit '\\')
    (hpoint : c ≠ unit '.') (h : Scans .plain a) : Scans .plain (c :: a) := by
  refine ⟨hslash, fun hc => absurd hc hpoint, ?_⟩
  rw [if_neg hquote]
  exact h

theorem Scans.afterPoint {mode : Mode} (h : Scans mode (a ++ unit '.' :: b)) :
    Scans .quoted b ∨ Scans .plain b ∧ DigitNext b := by
  induction a generalizing mode with
  | nil =>
    cases mode with
    | plain => exact .inr ⟨h.2.2, h.2.1 rfl⟩
    | quoted => exact .inl h
    | escaped => exact .inl h
  | cons c a ih =>
    cases mode with
    | plain => exact ih h.2.2
    | quoted => exact @ih (if _ then _ else _) h
    | escaped => exact @ih .quoted h

/-- **NO TEXT READS BOTH WAYS**: from outside and from inside of a string. -/
theorem not_scans_both (h : Scans .plain a) (h' : Scans .quoted a) : False := by
  induction a with
  | nil => cases h'
  | cons c a ih =>
    obtain ⟨hslash, -, hrest⟩ := h
    rw [Scans, if_neg hslash] at h'
    by_cases hc : c = unit '"'
    · rw [if_pos hc] at hrest h'
      exact ih h' hrest
    rw [if_neg hc] at hrest h'
    exact ih hrest h'

end Scans

/-! ## Strings -/

variable {c : CodeUnit} {text s : Text}

theorem ne_of_hexValue {v : Nat} (h : hexValue c = some v) : c ≠ unit '"' ∧ c ≠ unit '\\' := by
  constructor
  · rintro rfl
    cases h
  rintro rfl
  cases h

theorem hexUnit_values {h₁ h₂ h₃ h₄ u : CodeUnit} (h : hexUnit h₁ h₂ h₃ h₄ = some u) :
    ∀ c ∈ [h₁, h₂, h₃, h₄], c ≠ unit '"' ∧ c ≠ unit '\\' := by
  rw [hexUnit] at h
  split at h
  · rename_i v₁ v₂ v₃ v₄ e₁ e₂ e₃ e₄
    intro c hc
    simp only [mem_cons, not_mem_nil, or_false] at hc
    rcases hc with rfl | rfl | rfl | rfl
    · exact ne_of_hexValue e₁
    · exact ne_of_hexValue e₂
    · exact ne_of_hexValue e₃
    · exact ne_of_hexValue e₄
  · cases h

theorem scans_quoted_cons {text : Text} (hquote : c ≠ unit '"')
    (hslash : c ≠ unit '\\') (h : Scans .quoted text) : Scans .quoted (c :: text) := by
  rw [Scans, if_neg hquote, if_neg hslash]
  exact h

theorem map_readString {u : CodeUnit} (h : (readString text).map (fun out => (u :: out.1, out.2))
      = some (s, [])) : ∃ s', readString text = some (s', []) := by
  obtain ⟨out, hout, heq⟩ := map_eq_some_iff.mp h
  obtain ⟨-, hend⟩ := Prod.mk.inj heq
  exact ⟨out.1, by rw [hout, ← hend]⟩

theorem getLast?_cons_of {c d : CodeUnit} {text : Text}
    (h : text.getLast? = some d) : (c :: text).getLast? = some d := by
  rw [getLast?_cons, h]
  rfl

theorem scans_of_readString (h : readString text = some (s, [])) :
    Scans .quoted text ∧ text.getLast? = some (unit '"') := by
  have hslash : unit '\\' ≠ unit '"' := by decide
  induction text using readString.induct generalizing s with
  | case1 => cases h
  | case2 rest =>
    rw [readString_close] at h
    obtain rfl := (Prod.mk.inj (some.inj h)).2
    exact ⟨rfl, rfl⟩
  | case3 => cases h
  | case4 h₁ h₂ h₃ h₄ rest _ ih =>
    rw [readString.eq_def] at h
    simp only [if_neg hslash, if_true] at h
    obtain ⟨u, hu, hrest⟩ := bind_eq_some_iff.mp h
    obtain ⟨s', hs'⟩ := map_readString hrest
    have hvalues := hexUnit_values hu
    simp only [forall_mem_cons] at hvalues
    obtain ⟨⟨hq₁, hs₁⟩, ⟨hq₂, hs₂⟩, ⟨hq₃, hs₃⟩, ⟨hq₄, hs₄⟩, -⟩ := hvalues
    obtain ⟨hscans, hlast⟩ := ih hs'
    have hdigits : Scans .quoted (h₁ :: h₂ :: h₃ :: h₄ :: rest) :=
      scans_quoted_cons hq₁ hs₁ (scans_quoted_cons hq₂ hs₂
        (scans_quoted_cons hq₃ hs₃ (scans_quoted_cons hq₄ hs₄ hscans)))
    refine ⟨hdigits, ?_⟩
    iterate 6 refine getLast?_cons_of ?_
    exact hlast
  | case5 rest _ _ =>
    rw [readString.eq_def] at h
    simp only [if_neg hslash, if_true] at h
    cases h
  | case6 e rest he _ ih =>
    rw [readString.eq_def] at h
    simp only [if_neg hslash, if_true, if_neg he] at h
    obtain ⟨u, -, hrest⟩ := bind_eq_some_iff.mp h
    obtain ⟨s', hs'⟩ := map_readString hrest
    obtain ⟨hscans, hlast⟩ := ih hs'
    exact ⟨hscans, getLast?_cons_of (getLast?_cons_of hlast)⟩
  | case7 c rest hquote hback hcontrol =>
    rw [readString.eq_def] at h
    simp only [if_neg hquote, if_neg hback, if_pos hcontrol] at h
    cases h
  | case8 c rest hquote hback hcontrol ih =>
    rw [readString_plain hquote hback hcontrol] at h
    obtain ⟨s', hs'⟩ := map_readString h
    obtain ⟨hscans, hlast⟩ := ih hs'
    exact ⟨scans_quoted_cons hquote hback hscans, getLast?_cons_of hlast⟩

/-! ## Numbers -/

theorem ne_of_isNumberUnit (h : isNumberUnit c = true) : c ≠ unit '"' ∧ c ≠ unit '\\' := by
  constructor
  · rintro rfl
    cases h
  rintro rfl
  cases h

theorem ne_point_of_isDigit (h : isDigit c = true) : c ≠ unit '.' := by
  rintro rfl
  cases h

section Numbers

variable {text rest : Text}

theorem scans_digit {c : CodeUnit} (hc : isDigit c = true)
    (h : Scans .plain rest) : Scans .plain (c :: rest) := by
  obtain ⟨hquote, hslash⟩ := ne_of_isNumberUnit (isNumberUnit_of_isDigit hc)
  exact scans_cons hquote hslash (ne_point_of_isDigit hc) h

theorem scans_dropWhile (h : Scans .plain (text.dropWhile isDigit)) : Scans .plain text := by
  induction text with
  | nil => exact h
  | cons c tail ih =>
    by_cases hc : isDigit c = true
    · rw [dropWhile_cons_of_pos hc] at h
      exact scans_digit hc (ih h)
    · rwa [dropWhile_cons_of_neg hc] at h

theorem scans_afterDigits (h : afterDigits text = some rest)
    (hrest : Scans .plain rest) : Scans .plain text ∧ DigitNext text := by
  cases text with
  | nil => cases h
  | cons c tail =>
    rw [afterDigits] at h
    split at h
    · rename_i hc
      cases h
      exact ⟨scans_digit hc (scans_dropWhile hrest), c, rfl, hc⟩
    · cases h

theorem scans_afterSign {signs : List CodeUnit} (hsigns : ∀ c ∈ signs, c = unit '+' ∨ c = unit '-')
    (h : Scans .plain (afterSign signs text)) : Scans .plain text := by
  cases text with
  | nil => exact h
  | cons c tail =>
    rw [afterSign] at h
    split at h
    · rename_i hc
      rcases hsigns c hc with rfl | rfl
      · exact scans_cons (by decide) (by decide) (by decide) h
      · exact scans_cons (by decide) (by decide) (by decide) h
    · exact h

theorem scans_afterInteger (h : afterInteger text = some rest)
    (hrest : Scans .plain rest) : Scans .plain text := by
  cases text with
  | nil => cases h
  | cons c tail =>
    rw [afterInteger] at h
    split at h
    · rename_i hc
      cases h
      rw [hc]
      exact scans_digit (by decide) hrest
    · exact (scans_afterDigits h hrest).1

theorem scans_afterFraction (h : afterFraction text = some rest)
    (hrest : Scans .plain rest) : Scans .plain text := by
  cases text with
  | nil =>
    cases h
    exact hrest
  | cons c tail =>
    rw [afterFraction] at h
    split at h
    · rename_i hc
      obtain ⟨htail, hdigit⟩ := scans_afterDigits h hrest
      rw [hc]
      exact ⟨by decide, fun _ => hdigit, htail⟩
    cases h
    exact hrest

theorem scans_afterExponent (h : afterExponent text = some rest)
    (hrest : Scans .plain rest) : Scans .plain text := by
  cases text with
  | nil =>
    cases h
    exact hrest
  | cons c tail =>
    rw [afterExponent] at h
    split at h
    · rename_i hc
      have htail := scans_afterSign (by simp) (scans_afterDigits h hrest).1
      rcases hc with rfl | rfl
      · exact scans_cons (by decide) (by decide) (by decide) htail
      · exact scans_cons (by decide) (by decide) (by decide) htail
    cases h
    exact hrest

theorem scans_number (h : isJsonNumber text = true) : Scans .plain text := by
  obtain ⟨middle, hmiddle, hexponent⟩ := bind_eq_some_iff.mp (eq_of_beq h)
  obtain ⟨first, hinteger, hfraction⟩ := bind_eq_some_iff.mp hmiddle
  exact scans_afterSign (by simp) (scans_afterInteger hinteger
    (scans_afterFraction hfraction (scans_afterExponent hexponent rfl)))

end Numbers

/-! ## Trees -/

section Trees

variable {w : Writer} {read : Text → Option Number} {ok : Number → Prop}

theorem scans_quote (hw : w.ReadBy read ok) (s : Text) : Scans .plain (w.quote s) := by
  obtain ⟨body, hbody, hread⟩ := hw.quoted s
  have hclosed := hread []
  rw [append_nil] at hclosed
  rw [hbody]
  exact ⟨by decide, fun h => absurd h (by decide), (scans_of_readString hclosed).1⟩

theorem scans_join {texts : List Text}
    (h : ∀ text ∈ texts, Scans .plain text) : Scans .plain (join texts) := by
  induction texts with
  | nil => rfl
  | cons text rest ih =>
    have htext := h text (.head _)
    have hrest := ih (fun t ht => h t (.tail _ ht))
    by_cases hne : rest = []
    · rw [hne]
      exact htext
    rw [join_cons _ hne]
    exact htext.append (scans_cons (by decide) (by decide) (by decide) hrest)

theorem scans_inert {text : Text} (h : text.all (fun c =>
    decide (c ≠ unit '"' ∧ c ≠ unit '\\' ∧ c ≠ unit '.')) = true) : Scans .plain text := by
  induction text with
  | nil => rfl
  | cons c rest ih =>
    rw [all_cons, Bool.and_eq_true, decide_eq_true_eq] at h
    obtain ⟨⟨hquote, hslash, hpoint⟩, hrest⟩ := h
    exact scans_cons hquote hslash hpoint (ih hrest)

theorem scans_writeTree (hw : w.ReadBy read ok) {t : Tree}
    (h : NumbersOk ok t) : Scans .plain (writeTree w t) := by
  induction t using tree_induct with
  | hnull =>
    show Scans .plain (ascii "null")
    exact scans_inert (by decide)
  | hbool b =>
    show Scans .plain (ascii (if b then "true" else "false"))
    cases b
    · exact scans_inert (by decide)
    · exact scans_inert (by decide)
  | hnum x => exact scans_number (hw.isNumber x (h.self x rfl))
  | hstr s => exact scans_quote hw s
  | harr items ih =>
    have hitems := (every_arr.mp h).2
    have hjoin : Scans .plain (join (writeItems w items)) := by
      rw [writeItems_eq]
      refine scans_join (forall_mem_map.mpr fun x hx => ?_)
      exact ih x hx (hitems x hx)
    have hclose : Scans .plain [unit ']'] := scans_inert (by decide)
    exact scans_cons (by decide) (by decide) (by decide) (hjoin.append hclose)
  | hobj members ih =>
    have hmembers := (every_obj.mp h).2
    have hjoin : Scans .plain (join (writeMembers w members)) := by
      rw [writeMembers_eq]
      refine scans_join (forall_mem_map.mpr fun m hm => ?_)
      exact (scans_quote hw m.1).append (scans_cons (by decide) (by decide)
        (by decide) (ih m hm (hmembers m hm)))
    have hclose : Scans .plain [unit '\x7d'] := scans_inert (by decide)
    exact scans_cons (by decide) (by decide) (by decide) (hjoin.append hclose)

theorem num_of_digitNext (hw : w.ReadBy read ok) {t : Tree}
    (h : DigitNext (writeTree w t)) : ∃ a, t = .num a := by
  obtain ⟨d, hd, hdigit⟩ := h
  have hne : ∀ {c : CodeUnit} {rest : Text}, writeTree w t = c :: rest →
      isDigit c = false → False := by
    intro c rest htext hc
    rw [htext, head?_cons, mem_some_iff] at hd
    rw [← hd, hc] at hdigit
    cases hdigit
  cases t with
  | null => exact (hne rfl (by decide)).elim
  | bool b =>
    cases b with
    | false => exact (hne rfl (by decide)).elim
    | true => exact (hne rfl (by decide)).elim
  | num a => exact ⟨a, rfl⟩
  | str s =>
    obtain ⟨body, hbody, -⟩ := hw.quoted s
    exact (hne hbody (by decide)).elim
  | arr items => exact (hne rfl (by decide)).elim
  | obj members => exact (hne rfl (by decide)).elim

theorem num_of_getLast? (hw : w.ReadBy read ok) {t : Tree} {c : CodeUnit}
    (hlast : (writeTree w t).getLast? = some c) (hc : isNumberUnit c = true)
    (hpoint : unit '.' ∈ writeTree w t) : ∃ a, t = .num a := by
  have hne : ∀ {d : CodeUnit}, (writeTree w t).getLast? = some d →
      isNumberUnit d = false → False := by
    intro d htext hd
    obtain rfl := some.inj (hlast.symm.trans htext)
    rw [hd] at hc
    cases hc
  cases t with
  | null =>
    have hnone : unit '.' ∉ ascii "null" := by decide
    exact absurd hpoint hnone
  | bool b =>
    have hnone : ∀ b : Bool, unit '.' ∉ ascii (if b then "true" else "false") := by decide
    exact absurd hpoint (hnone b)
  | num a => exact ⟨a, rfl⟩
  | str s =>
    obtain ⟨body, hbody, hread⟩ := hw.quoted s
    have hclosed := hread []
    rw [append_nil] at hclosed
    have htext : (w.quote s).getLast? = some (unit '"') := by
      rw [hbody]
      exact getLast?_cons_of (scans_of_readString hclosed).2
    exact (hne htext (by decide)).elim
  | arr items => exact (hne (getLast?_cons_of getLast?_concat) (by decide)).elim
  | obj members => exact (hne (getLast?_cons_of getLast?_concat) (by decide)).elim

/-- **ONLY NUMBERS** have the text of a tree behind a point. -/
theorem numbers_of_suffix (hw : w.ReadBy read ok) {t u : Tree}
    (ht : NumbersOk ok t) (hu : NumbersOk ok u) {front : Text}
    (h : writeTree w u = front ++ unit '.' :: writeTree w t) : ∃ a b, t = .num a ∧ u = .num b := by
  have hscans := scans_writeTree hw hu
  rw [h] at hscans
  rcases hscans.afterPoint with hinside | ⟨-, hdigit⟩
  · exact (not_scans_both (scans_writeTree hw ht) hinside).elim
  obtain ⟨a, rfl⟩ := num_of_digitNext hw hdigit
  obtain ⟨hne, hunits⟩ := isJsonNumber_units (hw.isNumber a (ht.self a rfl))
  have hlast := getLast?_eq_some_getLast hne
  have hend := getLast?_cons_of (c := unit '.') hlast
  obtain ⟨b, rfl⟩ := num_of_getLast? hw (by
      rw [h, getLast?_append]
      exact congrArg (·.or front.getLast?) hend)
    (hunits _ (getLast_mem hne)) (by
      rw [h]
      exact mem_append_right _ (.head _))
  exact ⟨a, b, rfl, rfl⟩

end Trees

end JsonText

import Inqutum.StableWalkProofs

/-!
# Page links and the rows they name

The text of a cursor is four fields, and its bytes lose what UTF-8 loses
of the id and nothing else.  So a cursor that reads back names a position
that can be `Carried` (`decode_encode_iff`), and the links of a page work
if and only if the row at which the page turns has such a position
(`links_work_iff`).
-/

namespace Utf8

open JsonText (CodeUnit Text)
open List Stringify JsNumber

theorem decode_eq (text : Text) : decode (encode text) = (codePoints text).flatMap pointUnits := by
  rw [decode, encode, decodePoints_flatMap (scalar_codePoints text)]

/-- A lone surrogate does not come out of UTF-8. -/
theorem wellFormed_decode (text : Text) : wellFormed (decode (encode text)) = true := by
  rw [decode_eq]
  have hscalar := scalar_codePoints text
  generalize codePoints text = points at hscalar ⊢
  induction points with
  | nil => rfl
  | cons p rest ih =>
    have hp := hscalar p (.head _)
    refine wellFormed_append ?_ (ih fun q hq => hscalar q (.tail _ hq))
    rw [pointUnits]
    simp only [Scalar] at hp
    split
    · show (!isSurrogate _) = true
      simp only [isSurrogate, isHigh, isLow, Fin.val_ofNat, Bool.not_eq_true', Bool.or_eq_false_iff,
        decide_eq_false_iff_not]
      omega
    rw [wellFormed, if_pos]
    · rfl
    simp only [isHigh, isLow, Fin.val_ofNat, Bool.and_eq_true, decide_eq_true_eq]
    omega

theorem decode_append {c : CodeUnit} (h : c.val < 0x80) (text rest : Text) :
    decode (encode (text ++ c :: rest)) = decode (encode text) ++ c :: decode (encode rest) := by
  have hpoint : encodePoint c.val = [c.val] := by rw [encodePoint, if_pos h]
  have hbytes : encode (text ++ c :: rest)
      = (codePoints text ++ c.val :: codePoints rest).flatMap encodePoint := by
    rw [encode_append h, flatMap_append, flatMap_cons, hpoint]
    rfl
  rw [hbytes, decode, decodePoints_flatMap, decode_eq, decode_eq, flatMap_append, flatMap_cons]
  · rw [pointUnits, if_pos c.isLt, Fin.ofNat_val_eq_self]
    rfl
  refine forall_mem_append.mpr ⟨scalar_codePoints text, forall_mem_cons.mpr
    ⟨.inl (by omega), scalar_codePoints rest⟩⟩

end Utf8

namespace StableCursor

open JsonText (Text ascii unit)

/-! ## The fields of a cursor -/

theorem splitOn_singleton {a p : Text} (h : a.splitOn bar = [p]) : a = p ∧ bar ∉ a := by
  constructor
  · rw [← @List.intercalate_splitOn _ a _ _ bar, h, List.intercalate_singleton]
  intro hmem
  obtain ⟨s, t, rfl⟩ := List.append_of_mem hmem
  rw [List.splitOn_append_cons_self] at h
  have hs := List.length_pos_of_ne_nil (List.splitOn_ne_nil bar s)
  have ht := List.length_pos_of_ne_nil (List.splitOn_ne_nil bar t)
  have hlen := congrArg List.length h
  rw [List.length_append, List.length_singleton] at hlen
  omega

/-- Four fields of which the last two hold no bar are read as four fields
    only if they are the ones that were written. -/
theorem eq_of_splitOn {a b c d w x y z : Text} (hc : bar ∉ c) (hd : bar ∉ d)
    (h : (fourFields a b c d).splitOn bar = [w, x, y, z]) :
    (a = w ∧ bar ∉ a) ∧ (b = x ∧ bar ∉ b) ∧ c = y ∧ d = z := by
  rw [fourFields, List.splitOn_append_cons_self, List.splitOn_append_cons_self,
    List.splitOn_append_cons_self_of_not_mem hc, List.splitOn_eq_singleton hd] at h
  have ha := List.splitOn_ne_nil bar a
  have hb := List.splitOn_ne_nil bar b
  rcases hsa : a.splitOn bar with _ | ⟨a', _ | ⟨a'', as⟩⟩
  · exact absurd hsa ha
  · rcases hsb : b.splitOn bar with _ | ⟨b', _ | ⟨b'', bs⟩⟩
    · exact absurd hsb hb
    · rw [hsa, hsb] at h
      simp only [List.cons_append, List.nil_append, List.cons.injEq, and_true] at h
      obtain ⟨rfl, rfl, rfl, rfl⟩ := h
      exact ⟨splitOn_singleton hsa, splitOn_singleton hsb, rfl, rfl⟩
    rw [hsa, hsb] at h
    have hlen := congrArg List.length h
    simp only [List.length_append, List.length_cons, List.length_nil] at hlen
    omega
  · have hlen := congrArg List.length h
    have hpos := List.length_pos_of_ne_nil hb
    simp only [hsa, List.length_append, List.length_cons, List.length_nil] at hlen
    omega

section Cursor

variable {host : Host} {scope scope' secret : Text} {p q : Position}

/-- What an accepted cursor says of the position and the scope it was made
    of. -/
structure Names (host : Host) (scope scope' : Text) (p q : Position) : Prop where
  time : readMs (Utf8.decode (Utf8.encode (Stringify.numberText p.ms))) = some q.ms
  id : Utf8.decode (Utf8.encode p.id) = q.id
  no_bar : bar ∉ q.id
  named : q.id ≠ []
  scope : scopeHash host scope = scopeHash host scope'
  short : (Utf8.encode (Stringify.numberText p.ms)).length + (Utf8.encode p.id).length ≤ 327

theorem names_of_decode (h : decodeStableCursor host scope' secret
    (encodeStableCursor host scope secret p) = .ok q) : Names host scope scope' p q := by
  obtain ⟨hscope, hscopeLen⟩ := coded_scopeHash host scope
  obtain ⟨hsig, hsigLen⟩ := coded_sign host secret
    (bodyText (Stringify.numberText p.ms) p.id (scopeHash host scope))
  have hbar : bar.val < 0x80 := by decide
  generalize hs : sign host secret _ = sig at hsig hsigLen
  have htext : encodeStableCursor host scope secret p
      = (Cursors.toBase64 (Utf8.encode (fourFields (Stringify.numberText p.ms) p.id
        (scopeHash host scope) sig))).map unit := by
    simp [encodeStableCursor, fourFields, ← hs, bodyText]
  have hlen : (Utf8.encode (fourFields (Stringify.numberText p.ms) p.id
      (scopeHash host scope) sig)).length = (Utf8.encode (Stringify.numberText p.ms)).length
        + (Utf8.encode p.id).length + 57 := by
    rw [fourFields, Utf8.encode_append hbar, Utf8.encode_append hbar, Utf8.encode_append hbar]
    simp only [List.length_append, List.length_cons, Utf8.length_encode_ascii hscope.lt,
      Utf8.length_encode_ascii hsig.lt, hscopeLen, hsigLen]
    omega
  have hbytes := Utf8.encode_lt (fourFields (Stringify.numberText p.ms) p.id
    (scopeHash host scope) sig)
  rw [htext, decodeStableCursor] at h
  split at h
  · cases h
  rename_i hok
  have hshort := (not_or.mp (not_or.mp hok).2).1
  rw [List.length_map, Cursors.length_toBase64, hlen] at hshort
  rw [Stringify.map_char_unit (fun ch hch => Capability.ascii_alphabet ch
    (Cursors.mem_alphabet_of_toBase64 _ hbytes ch hch)), Cursors.fromBase64_toBase64 _ hbytes,
    fourFields, Utf8.decode_append hbar, Utf8.decode_append hbar, Utf8.decode_append hbar,
    Utf8.decode_encode (wellFormed_ascii hscope.lt),
    Utf8.decode_encode (wellFormed_ascii hsig.lt)] at h
  rw [readFields.eq_def] at h
  split at h
  · rename_i msRaw id scopePart sig' hfields
    obtain ⟨⟨rfl, -⟩, ⟨rfl, hid⟩, rfl, rfl⟩ := eq_of_splitOn hscope.no_bar hsig.no_bar hfields
    split at h
    · cases h
    rename_i ms hms
    split at h
    · cases h
    rename_i hnamed
    split at h
    · cases h
    split at h
    · cases h
    rename_i hscopes
    cases h
    exact ⟨hms, rfl, hid, hnamed, not_not.mp hscopes, by omega⟩
  · cases h

theorem readMs_bounds {text : Text} {ms : Int}
    (h : readMs text = some ms) : ms.natAbs < 2 ^ 53 := by
  rw [readMs] at h
  split at h
  · split at h
    · split at h
      · rename_i hsafe
        obtain ⟨n, hn, hbound⟩ := JsNumber.isSafeInteger_iff.mp hsafe
        cases h
        rw [JsNumber.finite.inj hn, Rat.num_intCast]
        rw [Int.abs_eq_natAbs, JsNumber.maxSafeInteger] at hbound
        omega
      · cases h
    · cases h
  · cases h

/-- **WHAT READS BACK** is what a cursor can carry. -/
theorem decode_encode_iff : decodeStableCursor host scope secret
    (encodeStableCursor host scope secret p) = .ok p ↔ Carried p := by
  refine ⟨fun h => ?_, decode_encode host scope secret⟩
  have hnames := names_of_decode h
  have hbound := readMs_bounds hnames.time
  have hascii : ∀ c ∈ (Stringify.wholeDigits p.ms).map unit, c.val < 0x80 := by
    intro c hc
    obtain ⟨ch, hch, rfl⟩ := List.mem_map.mp hc
    have hlt := Stringify.ascii_wholeDigits p.ms ch hch
    rw [unit_val hlt]
    exact hlt
  have htime := hnames.time
  rw [Stringify.numberText_int hbound, Utf8.decode_encode (wellFormed_ascii hascii)] at htime
  have hnonneg : 0 ≤ p.ms := by
    by_contra hneg
    -- the sign is no digit
    rw [Stringify.wholeDigits, if_pos (by omega), readMs, if_neg] at htime
    · cases htime
    rintro ⟨-, -, hall⟩
    exact absurd (List.all_eq_true.mp hall (unit '-') (.head _)) (by decide)
  have hshort := hnames.short
  rw [Stringify.numberText_int hbound, Utf8.length_encode_ascii hascii, List.length_map] at hshort
  exact ⟨hnonneg, by omega, hnames.named, hnames.no_bar,
    hnames.id ▸ Utf8.wellFormed_decode p.id, hshort⟩

end Cursor

/-! ## The links of a page -/

section Links

variable {ρ : Type} {host : Host} {view : Pageable ρ} {rows : List ρ} {κ : Type} [LinearOrder κ]
  {key : ρ → κ} {x : ρ}

theorem countP_ascending {front rest : List ρ}
    (h : (front ++ x :: rest).Pairwise (fun a b => key a < key b)) :
    (front ++ x :: rest).countP (fun a => decide (key a ≤ key x)) = front.length + 1 := by
  obtain ⟨-, hrest, hcross⟩ := List.pairwise_append.mp h
  have hfront : front.countP (fun a => decide (key a ≤ key x)) = front.length :=
    List.countP_eq_length.mpr fun a ha => decide_eq_true (hcross a ha x (.head _)).le
  have hafter : rest.countP (fun a => decide (key a ≤ key x)) = 0 :=
    List.countP_eq_zero.mpr fun a ha hle =>
      absurd (of_decide_eq_true hle) (List.rel_of_pairwise_cons hrest ha).not_ge
  rw [List.countP_append, List.countP_cons, hfront, hafter, if_pos (decide_eq_true le_rfl)]

theorem getLast?_take_iff (n : Nat)
    (h : rows.Pairwise (fun a b => key a < key b)) : (rows.take n).getLast? = some x ↔
      x ∈ rows ∧ rows.countP (fun a => decide (key a ≤ key x)) = min n rows.length := by
  constructor
  · intro hlast
    obtain ⟨front, hfront⟩ := List.getLast?_eq_some_iff.mp hlast
    have hrows := List.take_append_drop n rows
    rw [hfront, List.append_assoc, List.singleton_append] at hrows
    have hlen := congrArg List.length hfront
    rw [List.length_take, List.length_append, List.length_singleton] at hlen
    rw [hlen, ← hrows]
    rw [← hrows] at h
    exact ⟨List.mem_append_right _ (.head _), countP_ascending h⟩
  · rintro ⟨hmem, hplace⟩
    obtain ⟨front, rest, rfl⟩ := List.append_of_mem hmem
    rw [countP_ascending h] at hplace
    rw [List.take_eq_take_min, ← hplace, List.take_length_add_append]
    exact List.getLast?_append_cons front x []

variable (host view) in
/-- The row at which a page turns: a visible row behind the cursor, up to
    which there are as many of them as the page holds, if there are more than
    the limit. -/
def TurnsAt (rows : List ρ) (options : StableCursorOptions ρ) (after : Option Position)
    (row : ρ) : Prop :=
  let behind := (visibleRows options.canView rows).filter
    (fun other => isAfter after (position host view other))
  let limit := pageLimit options.limit options.maxLimit
  row ∈ behind ∧ JsNumber.lt limit (.ofNat behind.length) = true
  ∧ behind.countP (fun other => decide (compareStable (position host view other)
      (position host view row) ≤ 0)) = min (JsNumber.sliceEnd limit behind.length) behind.length

theorem turnsAt_iff {options : StableCursorOptions ρ} {after : Option Position}
    (hnd : (rows.map view.id).Nodup) (row : ρ) : TurnsAt host view rows options after row
      ↔ (pageAfter host view options after (visibleRows options.canView rows)).hasMore = true
        ∧ (pageAfter host view options after
          (visibleRows options.canView rows)).items.getLast? = some row := by
  have hperm := List.perm_insertionSort (fun a b => compareStable (position host view a)
    (position host view b) ≤ 0) ((visibleRows options.canView rows).filter
      (fun other => isAfter after (position host view other)))
  have hids : ((rowsBehind host view after (visibleRows options.canView rows)).map view.id).Nodup :=
    (hperm.map view.id).nodup_iff.mpr
      (hnd.sublist ((List.filter_sublist.trans List.filter_sublist).map view.id))
  have hstrict : (rowsBehind host view after (visibleRows options.canView rows)).Pairwise
      (fun a b => rowKey host view a < rowKey host view b) := by
    refine List.Pairwise.imp₂ ?_ (sorted_rows _) (List.pairwise_map.mp hids)
    intro a b hle hne
    exact lt_of_le_of_ne hle (fun heq => hne (congrArg Position.id (key_inj heq)))
  have hlast := getLast?_take_iff (x := row) (JsNumber.sliceEnd (pageLimit options.limit
    options.maxLimit) (rowsBehind host view after
    (visibleRows options.canView rows)).length) hstrict
  rw [rowsBehind, hperm.mem_iff, hperm.countP_eq, hperm.length_eq] at hlast
  simp only [pageAfter, dropRepeats_eq hids (fun _ _ => List.not_mem_nil), TurnsAt]
  rw [rowsBehind, hperm.length_eq, hlast]
  simp only [compareStable_le]
  exact and_left_comm

/-- **A PAGE LINK WORKS** if and only if the row at which its page turns has
    a position that a cursor can carry. -/
theorem links_work_iff (host : Host) (view : Pageable ρ) (rows : List ρ)
    (options : StableCursorOptions ρ) (hnd : (rows.map view.id).Nodup) :
    (∀ page cursor, paginateStable host view rows options = .ok page →
      page.nextCursor = some cursor → ∃ last, page.items.getLast? = some last ∧
        decodeStableCursor host options.scope options.secret cursor = .ok (position host view last))
    ↔ ∀ after row, readCursor host options = .ok after →
      TurnsAt host view rows options after row → Carried (position host view row) := by
  simp only [turnsAt_iff hnd, paginateStable]
  constructor
  · rintro h after row hread ⟨hmore, hlast⟩
    rw [hread] at h
    obtain ⟨last, hlast', hdecode⟩ := h _ _ rfl ((if_pos hmore).trans
      (congrArg (Option.map _) hlast))
    obtain rfl := Option.some.inj (hlast.symm.trans hlast')
    exact decode_encode_iff.mp hdecode
  · intro h page cursor hpage hcursor
    cases hread : readCursor host options with
    | error reason =>
      rw [hread] at hpage
      cases hpage
    | ok after =>
      rw [hread] at hpage
      cases hpage
      change (if _ = true then _ else none) = some cursor at hcursor
      split at hcursor
      · rename_i hmore
        obtain ⟨last, hlast, rfl⟩ := Option.map_eq_some_iff.mp hcursor
        exact ⟨last, hlast, decode_encode_iff.mpr (h after last hread ⟨hmore, hlast⟩)⟩
      · cases hcursor

end Links

/-- Rows of an id and a date. -/
def datedNotes : Pageable (Text × Int) :=
  ⟨Prod.fst, fun row => .date (some row.2)⟩

/-- Notes by ones. -/
def byOnes : StableCursorOptions (Text × Int) :=
  ⟨none, some (.ofNat 1), none, fun _ => some true, ascii "\x7b\x7d", ascii "s"⟩

theorem links_work_sample : ∃ page cursor,
    paginateStable blankHost datedNotes [(ascii "a", 2), (ascii "b", 1)] byOnes = .ok page
      ∧ page.nextCursor = some cursor ∧ ∃ last, page.items.getLast? = some last ∧
        decodeStableCursor blankHost byOnes.scope byOnes.secret cursor
          = .ok (position blankHost datedNotes last) := by
  refine ⟨_, _, rfl, rfl, (links_work_iff blankHost datedNotes [(ascii "a", 2), (ascii "b", 1)]
    byOnes (by decide)).mpr ?_ _ _ rfl rfl⟩
  rintro after row - ⟨hrow, -⟩
  simp only [visibleRows, List.mem_filter, List.mem_cons, List.not_mem_nil, or_false] at hrow
  rcases hrow.1.1 with rfl | rfl
  · constructor <;> decide +kernel
  · constructor <;> decide +kernel

/-- The link behind a row from before 1970 is refused. -/
theorem early_link_fails : ∃ page cursor,
    paginateStable blankHost datedNotes [(ascii "a", -1), (ascii "b", -2)] byOnes = .ok page
    ∧ page.nextCursor = some cursor
    ∧ decodeStableCursor blankHost byOnes.scope byOnes.secret cursor = .error .malformed :=
  ⟨_, _, rfl, rfl, by decide +kernel⟩

end StableCursor

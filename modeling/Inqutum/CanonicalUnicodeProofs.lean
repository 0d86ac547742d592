import Inqutum.CanonicalSerializationProofs

/-!
# Canonical serialization and Unicode equivalence

`canonicalize` sorts the members of an object by their keys as given and
normalizes the keys afterwards.  Two values that differ only in how their
keys are composed can therefore have different texts, and the keys that
are written need not be in order.

`unicode_canonical_iff` says when this does not happen: normalizing must
keep the order of any two keys of one object.
-/

namespace Canonical

open JsonText List Pairwise

mutual

/-- Replace every string and every key by its NFC form. -/
def normalizeTree (e : Engine) : Tree → Tree
  | .null => .null
  | .bool b => .bool b
  | .num x => .num x
  | .str s => .str (e.normalize s)
  | .arr items => .arr (normalizeItems e items)
  | .obj members => .obj (normalizeMembers e members)

def normalizeItems (e : Engine) : List Tree → List Tree
  | [] => []
  | x :: rest => normalizeTree e x :: normalizeItems e rest

def normalizeMembers (e : Engine) : List (Text × Tree) → List (Text × Tree)
  | [] => []
  | (key, x) :: rest => (e.normalize key, normalizeTree e x) :: normalizeMembers e rest

end

/-- The keys of this part are in strictly increasing order. -/
def Ascending (t : Tree) : Prop := (keysOf t).Pairwise (· < ·)

/-- Normalizing keeps the order of the keys of this part. -/
def OrderKept (e : Engine) (t : Tree) : Prop :=
  ∀ k ∈ keysOf t, ∀ k' ∈ keysOf t, k < k' → e.normalize k < e.normalize k'

section Normalize

variable {e : Engine}

theorem normalizeItems_eq (items : List Tree) :
    normalizeItems e items = items.map (normalizeTree e) := by
  induction items with
  | nil => rfl
  | cons x rest ih => rw [normalizeItems, ih, map_cons]

theorem normalizeMembers_eq (members : List (Text × Tree)) : normalizeMembers e members
      = members.map (fun m => (e.normalize m.1, normalizeTree e m.2)) := by
  induction members with
  | nil => rfl
  | cons m rest ih =>
    obtain ⟨key, x⟩ := m
    rw [normalizeMembers, ih, map_cons]

theorem keys_normalizeMembers (members : List (Text × Tree)) : keys (normalizeMembers e members)
      = (keys members).map e.normalize := by
  rw [normalizeMembers_eq, JsonText.keys, JsonText.keys, map_map, map_map]
  rfl

variable {members : List (Text × Tree)} {t : Tree}

theorem nodup_keys_of_normalized
    (h : (keys (normalizeMembers e members)).Nodup) : (keys members).Nodup := by
  rw [keys_normalizeMembers] at h
  exact Nodup.of_map _ h

theorem keys_canonicalForm (members : List (Text × Tree)) :
    keysOf (canonicalForm e (.obj members)) = (keys (sortMembers members)).map e.normalize := by
  rw [canonicalForm, canonicalValues_eq, sortMembers_map, keysOf, JsonText.keys, JsonText.keys,
    map_map, map_map, map_map]
  rfl

theorem ascending_map_iff {ks : List Text} (hks : ks.Pairwise (· < ·)) :
    (ks.map e.normalize).Pairwise (· < ·) ↔
      ∀ k ∈ ks, ∀ k' ∈ ks, k < k' → e.normalize k < e.normalize k' := by
  rw [pairwise_map]
  constructor
  · intro h
    induction ks with
    | nil => exact nofun
    | cons a rest ih =>
      obtain ⟨ha, hrest⟩ := pairwise_cons.mp h
      obtain ⟨hlt, hsorted⟩ := pairwise_cons.mp hks
      intro k hk k' hk' hkk'
      rcases mem_cons.mp hk with rfl | hin
      · rcases mem_cons.mp hk' with rfl | hin'
        · exact absurd hkk' (lt_irrefl _)
        · exact ha k' hin'
      rcases mem_cons.mp hk' with rfl | hin'
      · exact absurd hkk' (lt_asymm (hlt k hin))
      · exact ih hsorted hrest k hin k' hin' hkk'
  · intro h
    refine hks.imp_of_mem ?_
    intro k k' hk hk' hlt
    exact h k hk k' hk' hlt

theorem ascending_canonicalForm_obj (h : (keys members).Nodup) :
    Ascending (canonicalForm e (.obj members)) ↔ OrderKept e (.obj members) := by
  have hks : (keys (sortMembers members)).Pairwise (· < ·) :=
    pairwise_map.mpr (sortMembers_ascending h)
  have hmem : ∀ k, k ∈ keys (sortMembers members) ↔ k ∈ keys members :=
    fun k => (keys_sortMembers_perm members).mem_iff
  rw [Ascending, keys_canonicalForm, ascending_map_iff hks]
  simp only [hmem]
  rfl

/-- **THE WRITTEN KEYS ASCEND** exactly when normalizing keeps their order. -/
theorem ascending_canonicalForm (h : Distinct (normalizeTree e t)) :
    Every Ascending (canonicalForm e t) ↔ Every (OrderKept e) t := by
  induction t using tree_induct with
  | hnull => exact iff_of_true nil (by rintro _ ⟨⟩)
  | hbool b => exact iff_of_true nil (by rintro _ ⟨⟩)
  | hnum x =>
    cases x with
    | negZero => exact iff_of_true nil (by rintro _ ⟨⟩)
    | finite q => exact iff_of_true nil (by rintro _ ⟨⟩)
  | hstr s => exact iff_of_true nil (by rintro _ ⟨⟩)
  | harr items ih =>
    rw [normalizeTree, normalizeItems_eq] at h
    have hitems := (every_arr.mp h).2
    rw [canonicalForm, canonicalItems_eq, every_arr, every_arr]
    refine and_congr (iff_of_true nil (by rintro _ ⟨⟩)) ?_
    rw [forall_mem_map]
    refine forall₂_congr (fun x hx => ih x hx ?_)
    exact hitems _ (mem_map_of_mem hx)
  | hobj members ih =>
    rw [normalizeTree] at h
    obtain ⟨hkeys, hmembers⟩ := every_obj.mp h
    have hobject := ascending_canonicalForm_obj (e := e) (nodup_keys_of_normalized hkeys)
    rw [canonicalForm] at hobject ⊢
    rw [every_obj, every_obj]
    refine and_congr hobject ?_
    rw [forall_mem_map]
    have hvalues : (∀ m ∈ sortMembers (canonicalValues e members), Every Ascending m.2)
        ↔ ∀ m ∈ members, Every Ascending (canonicalForm e m.2) := by
      simp only [(sortMembers_perm _).mem_iff, canonicalValues_eq, forall_mem_map]
    refine hvalues.trans (forall₂_congr (fun m hm => ih m hm ?_))
    rw [normalizeMembers_eq] at hmembers
    exact hmembers _ (mem_map_of_mem hm)

theorem canonicalForm_of_orderKept (hd : Distinct (normalizeTree e t)) (h : Every (OrderKept e) t) :
    canonicalForm e t = sortKeys (normalizeTree e t) := by
  induction t using tree_induct with
  | hnull => rfl
  | hbool b => rfl
  | hnum x =>
    cases x with
    | negZero => rfl
    | finite q => rfl
  | hstr s => rfl
  | harr items ih =>
    rw [normalizeTree, normalizeItems_eq] at hd ⊢
    have hitems := (every_arr.mp hd).2
    have hkept := (every_arr.mp h).2
    rw [canonicalForm, sortKeys, canonicalItems_eq, sortItems_eq, map_map]
    refine congrArg Tree.arr (map_congr_left ?_)
    intro x hx
    exact ih x hx (hitems _ (mem_map_of_mem hx)) (hkept x hx)
  | hobj members ih =>
    have hkept := every_obj.mp h
    rw [normalizeTree] at hd ⊢
    obtain ⟨hkeys, hmembers⟩ := every_obj.mp hd
    have hkeys' : (keys (sortValues (normalizeMembers e members))).Nodup := by
      rw [keys_sortValues]
      exact hkeys
    have hascending := (ascending_canonicalForm_obj (nodup_keys_of_normalized hkeys)).mpr hkept.1
    rw [canonicalForm] at hascending ⊢
    rw [sortKeys]
    refine congrArg Tree.obj (eq_of_ascending
      (pairwise_map.mp hascending) (sortMembers_ascending hkeys') ?_)
    -- both sides list the same normalized members
    refine ((sortMembers_perm _).map _).trans (Perm.trans ?_ (sortMembers_perm _).symm)
    rw [canonicalValues_eq, sortValues_eq, normalizeMembers_eq, map_map, map_map]
    refine Perm.of_eq (map_congr_left ?_)
    intro m hm
    rw [normalizeMembers_eq] at hmembers
    have hm' := ih m hm (hmembers _ (mem_map_of_mem hm)) (hkept.2 m hm)
    show (e.normalize m.1, canonicalForm e m.2) = (e.normalize m.1, sortKeys (normalizeTree e m.2))
    rw [hm']

theorem readable_canonicalForm {numbers : ℚ → Prop} (hzero : numbers 0)
    (hd : Distinct (normalizeTree e t)) (hnum : Every (NumberIn numbers) t) :
    Every (Readable (Unsigned numbers)) (canonicalForm e t) := by
  induction t using tree_induct with
  | hnull => exact ⟨nodup_nil, by rintro _ ⟨⟩⟩
  | hbool b => exact ⟨nodup_nil, by rintro _ ⟨⟩⟩
  | hnum x =>
    cases x with
    | negZero => exact readable_finite hzero
    | finite q => exact readable_finite (hnum.self q rfl)
  | hstr s => exact ⟨nodup_nil, by rintro _ ⟨⟩⟩
  | harr items ih =>
    rw [normalizeTree, normalizeItems_eq] at hd
    have hitems := (every_arr.mp hd).2
    have hnums := (every_arr.mp hnum).2
    rw [canonicalForm, canonicalItems_eq]
    refine every_arr.mpr ⟨⟨nodup_nil, by rintro _ ⟨⟩⟩, ?_⟩
    rw [forall_mem_map]
    intro x hx
    exact ih x hx (hitems _ (mem_map_of_mem hx)) (hnums x hx)
  | hobj members ih =>
    rw [normalizeTree] at hd
    obtain ⟨hkeys, hmembers⟩ := every_obj.mp hd
    have hnums := (every_obj.mp hnum).2
    have hwritten : (keysOf (canonicalForm e (.obj members))).Nodup := by
      rw [keys_canonicalForm]
      refine ((keys_sortMembers_perm members).map _).nodup_iff.mpr ?_
      rw [← keys_normalizeMembers]
      exact hkeys
    rw [canonicalForm] at hwritten ⊢
    refine every_obj.mpr ⟨⟨hwritten, by rintro _ ⟨⟩⟩, ?_⟩
    rw [forall_mem_map]
    simp only [(sortMembers_perm _).mem_iff, canonicalValues_eq, forall_mem_map]
    intro m hm
    rw [normalizeMembers_eq] at hmembers
    exact ih m hm (hmembers _ (mem_map_of_mem hm)) (hnums m hm)

end Normalize

/-- One text for both values, whose members are in increasing order of their
    keys wherever an object is written. -/
def OneCanonicalText (e : Engine) (read : Text → Option Number) (a b : Tree) : Prop :=
  ∃ text, canonicalize e (toValue a) = .ok text ∧ canonicalize e (toValue b) = .ok text
    ∧ ∃ v, parse read text = some v ∧ Every Ascending v

/-- **UNICODE EQUIVALENCE**: values that are equal in NFC, up to member order,
    have one canonical text with ascending keys exactly when normalizing keeps
    the order of the keys of every object in them. -/
theorem unicode_canonical_iff {e : Engine} {read : Text → Option Number}
    {numbers : ℚ → Prop} (he : e.Standard read numbers) {a b : Tree}
    (ha : Distinct (normalizeTree e a)) (hb : Distinct (normalizeTree e b))
    (hna : Every (NumberIn numbers) a) (hnb : Every (NumberIn numbers) b)
    (hab : Same (normalizeTree e a) (normalizeTree e b)) :
    OneCanonicalText e read a b ↔ Every (OrderKept e) a ∧ Every (OrderKept e) b := by
  have hreads : ∀ {t}, Distinct (normalizeTree e t) → Every (NumberIn numbers) t →
      parse read (writeTree (writer e) (canonicalForm e t)) = some (canonicalForm e t) :=
    fun hd hn => parse_writeTree (writer_readBy he) (readable_canonicalForm he.zero hd hn)
  constructor
  · rintro ⟨text, hta, htb, v, hv, hascending⟩
    rw [canonicalize_eq he.zeroText] at hta htb
    have hva : canonicalForm e a = v := by
      rw [← Except.ok.inj hta, hreads ha hna] at hv
      exact Option.some.inj hv
    have hvb : canonicalForm e b = v := by
      rw [← Except.ok.inj htb, hreads hb hnb] at hv
      exact Option.some.inj hv
    constructor
    · rw [← ascending_canonicalForm ha, hva]
      exact hascending
    rw [← ascending_canonicalForm hb, hvb]
    exact hascending
  · rintro ⟨hka, hkb⟩
    have hform : canonicalForm e b = canonicalForm e a := by
      rw [canonicalForm_of_orderKept hb hkb, canonicalForm_of_orderKept ha hka,
        (sortKeys_eq_of_same hab).2 ha]
    refine ⟨writeTree (writer e) (canonicalForm e a), canonicalize_eq he.zeroText a,
      ?_, canonicalForm e a, hreads ha hna, (ascending_canonicalForm ha).mpr hka⟩
    rw [canonicalize_eq he.zeroText, hform]

/-! ## An accented key beside a plain one -/

/-- NFC on texts whose only composition is `e` with an acute accent. -/
def composeAcute : Text → Text
  | 0x65 :: 0x301 :: rest => 0xe9 :: composeAcute rest
  | c :: rest => c :: composeAcute rest
  | [] => []

def acuteEngine : Engine := { sampleEngine with normalize := composeAcute }

theorem standard_acuteEngine : acuteEngine.Standard sampleRead sampleNumbers :=
  ⟨standard_sampleEngine.zero, standard_sampleEngine.zeroText,
    standard_sampleEngine.isNumber, standard_sampleEngine.reads⟩

/-- `{key: 1, other: 2}`. -/
def twoKeys (key other : Text) : Tree :=
  .obj [(key, .num (.finite 1)), (other, .num (.finite 2))]

theorem numbers_twoKeys (key other : Text) :
    Every (NumberIn sampleNumbers) (twoKeys key other) := by
  simp [twoKeys, Every, EveryMember, NumberIn, sampleNumbers]

theorem distinct_twoKeys {key other : Text} (h : composeAcute key ≠ composeAcute other) :
    Distinct (normalizeTree acuteEngine (twoKeys key other)) := by
  have hpair : [composeAcute key, composeAcute other].Nodup :=
    nodup_cons.mpr ⟨fun hmem => h (mem_singleton.mp hmem), nodup_singleton _⟩
  exact ⟨hpair, nodup_nil, nodup_nil, trivial⟩

/-- Decomposed and composed, next to a key that sorts before both. -/
theorem unicode_canonical_before : OneCanonicalText acuteEngine sampleRead
      (twoKeys [0x65, 0x301] (ascii "a")) (twoKeys [0xe9] (ascii "a")) :=
  (unicode_canonical_iff standard_acuteEngine
    (distinct_twoKeys (by decide)) (distinct_twoKeys (by decide))
    (numbers_twoKeys _ _) (numbers_twoKeys _ _) (.refl _)).mpr (by
      simp only [twoKeys, Every, EveryMember, OrderKept, keysOf]
      decide)

/-- Next to `f` the decomposed key sorts before and is written as a key that
    sorts after: the two spellings have different texts. -/
theorem unicode_spellings_differ :
    Distinct (normalizeTree acuteEngine (twoKeys [0x65, 0x301] (ascii "f")))
    ∧ Distinct (normalizeTree acuteEngine (twoKeys [0xe9] (ascii "f")))
    ∧ Same (normalizeTree acuteEngine (twoKeys [0x65, 0x301] (ascii "f")))
        (normalizeTree acuteEngine (twoKeys [0xe9] (ascii "f")))
    ∧ canonicalize acuteEngine (toValue (twoKeys [0x65, 0x301] (ascii "f")))
        = .ok (ascii "\x7b\"" ++ [0xe9] ++ ascii "\":1,\"f\":2\x7d")
    ∧ canonicalize acuteEngine (toValue (twoKeys [0xe9] (ascii "f")))
        = .ok (ascii "\x7b\"f\":2,\"" ++ [0xe9] ++ ascii "\":1\x7d")
    ∧ canonicalize acuteEngine (toValue (twoKeys [0x65, 0x301] (ascii "f")))
        ≠ canonicalize acuteEngine (toValue (twoKeys [0xe9] (ascii "f"))) :=
  ⟨distinct_twoKeys (by decide), distinct_twoKeys (by decide), .refl _,
    by decide, by decide, by decide⟩

end Canonical

import Inqutum.JsonTextProofs

/-!
# What a JSON text says

`parse_parts`: in a tree that was read, no object has two members of one
name, and every number is what the reader makes of a number token.

`writeTree_inj`: trees of one text are the same tree, also if some of their
objects have members of one name; a text cannot be read as such a tree.
-/

namespace JsonText

open List Option Prod

/-- A member that is set is the new one or an old one. -/
theorem mem_setMember {key : Text} {value : Tree} {m : Text × Tree}
    {members : List (Text × Tree)} (h : m ∈ setMember key value members) :
    m = (key, value) ∨ m ∈ members := by
  induction members with
  | nil => exact .inl (mem_singleton.mp h)
  | cons m₀ rest ih =>
    rw [setMember] at h
    split at h
    · rcases mem_cons.mp h with rfl | h
      · exact .inl rfl
      · exact .inr (.tail _ h)
    rcases mem_cons.mp h with rfl | h
    · exact .inr (.head _)
    · exact (ih h).imp_right (mem_cons_of_mem _)

/-- Setting a member repeats no key. -/
theorem nodup_setMember {key : Text} {value : Tree}
    {members : List (Text × Tree)} (h : (keys members).Nodup) :
    (keys (setMember key value members)).Nodup := by
  induction members with
  | nil => exact nodup_singleton _
  | cons m rest ih =>
    obtain ⟨hnew, hrest⟩ := nodup_cons.mp h
    rw [setMember]
    split
    · rename_i hkey
      rw [hkey] at hnew
      exact nodup_cons.mpr ⟨hnew, hrest⟩
    rename_i hkey
    refine nodup_cons.mpr ⟨?_, ih hrest⟩
    intro hmem
    obtain ⟨m', hm', heq⟩ := mem_map.mp hmem
    rcases mem_setMember hm' with rfl | hin
    · exact hkey heq.symm
    rw [← heq] at hnew
    exact hnew (mem_map_of_mem hin)

/-- The members that stay are given ones, one for each key. -/
theorem defineMembers_spec (members : List (Text × Tree)) : (keys (defineMembers members)).Nodup
      ∧ ∀ m ∈ defineMembers members, m ∈ members := by
  have hgo : ∀ (rest defined : List (Text × Tree)), (keys defined).Nodup →
      (keys (rest.foldl (fun defined m => setMember m.1 m.2 defined) defined)).Nodup
      ∧ ∀ m ∈ rest.foldl (fun defined m => setMember m.1 m.2 defined) defined,
        m ∈ defined ∨ m ∈ rest := by
    intro rest
    induction rest with
    | nil => exact fun defined h => ⟨h, fun m hm => .inl hm⟩
    | cons m rest ih =>
      intro defined h
      obtain ⟨hnodup, hmem⟩ := ih _ (@nodup_setMember m.1 m.2 _ h)
      refine ⟨hnodup, fun m' hm' => ?_⟩
      rcases hmem m' hm' with hin | hin
      · rcases mem_setMember hin with rfl | hin
        · exact .inr (.head _)
        · exact .inl hin
      · exact .inr (.tail _ hin)
  obtain ⟨hnodup, hmem⟩ := hgo members [] nodup_nil
  exact ⟨hnodup, fun m hm => (hmem m hm).resolve_left nofun⟩

/-! ## What is read -/

/-- The number is what the reader makes of a number token. -/
def Denoted (read : Text → Option Number) (x : Number) : Prop :=
  ∃ token, isJsonNumber token = true ∧ read token = some x

structure ReadPart (read : Text → Option Number) (t : Tree) : Prop where
  distinct : (keysOf t).Nodup
  number : ∀ x, t = .num x → Denoted read x

section Parts

variable {read : Text → Option Number} {t : Tree} {text rest : Text}

theorem readNumber_denoted {x : Number}
    (h : readNumber read text = some (x, rest)) : Denoted read x := by
  rw [readNumber] at h
  split at h
  · rename_i htoken
    obtain ⟨y, hread, heq⟩ := map_eq_some_iff.mp h
    obtain ⟨rfl, -⟩ := mk.inj heq
    exact ⟨_, htoken, hread⟩
  · cases h

theorem readPart_plain (hkeys : keysOf t = []) (hnumber : ∀ x, t ≠ .num x) : ReadPart read t :=
  ⟨hkeys ▸ nodup_nil, fun x h => absurd h (hnumber x)⟩

/-- What the four readers give with so much fuel. -/
structure ReadParts (read : Text → Option Number) (fuel : Nat) : Prop where
  value : ∀ {text t rest}, parseValue read fuel text = some (t, rest) → Every (ReadPart read) t
  items : ∀ {text items rest}, parseItems read fuel text = some (items, rest) →
    ∀ x ∈ items, Every (ReadPart read) x
  members : ∀ {text members rest}, parseMembers read fuel text = some (members, rest) →
    ∀ m ∈ members, Every (ReadPart read) m.2
  member : ∀ {text m rest}, parseMember read fuel text = some (m, rest) → Every (ReadPart read) m.2

theorem ReadParts.value_succ {fuel : Nat} (h : ReadParts read fuel)
    (hparse : parseValue read (fuel + 1) text = some (t, rest)) : Every (ReadPart read) t := by
  rw [parseValue] at hparse
  split at hparse
  · cases hparse
  split_ifs at hparse
  · obtain ⟨out, -, heq⟩ := map_eq_some_iff.mp hparse
    obtain ⟨rfl, -⟩ := mk.inj heq
    exact readPart_plain rfl (by rintro _ ⟨⟩)
  · split at hparse
    · cases hparse
    split_ifs at hparse
    · obtain ⟨rfl, -⟩ := mk.inj (some.inj hparse)
      exact every_arr.mpr ⟨readPart_plain rfl (by rintro _ ⟨⟩), by rintro _ ⟨⟩⟩
    obtain ⟨out, hout, heq⟩ := map_eq_some_iff.mp hparse
    obtain ⟨rfl, -⟩ := mk.inj heq
    exact every_arr.mpr ⟨readPart_plain rfl (by rintro _ ⟨⟩), h.items hout⟩
  · split at hparse
    · cases hparse
    split_ifs at hparse
    · obtain ⟨rfl, -⟩ := mk.inj (some.inj hparse)
      exact every_obj.mpr ⟨readPart_plain rfl (by rintro _ ⟨⟩), by rintro _ ⟨⟩⟩
    obtain ⟨out, hout, heq⟩ := map_eq_some_iff.mp hparse
    obtain ⟨rfl, -⟩ := mk.inj heq
    obtain ⟨hnodup, hmem⟩ := defineMembers_spec out.1
    exact every_obj.mpr ⟨⟨hnodup, by rintro _ ⟨⟩⟩, fun m hm => h.members hout m (hmem m hm)⟩
  · obtain ⟨out, -, heq⟩ := map_eq_some_iff.mp hparse
    obtain ⟨rfl, -⟩ := mk.inj heq
    exact readPart_plain rfl (by rintro _ ⟨⟩)
  · obtain ⟨out, -, heq⟩ := map_eq_some_iff.mp hparse
    obtain ⟨rfl, -⟩ := mk.inj heq
    exact readPart_plain rfl (by rintro _ ⟨⟩)
  · obtain ⟨out, -, heq⟩ := map_eq_some_iff.mp hparse
    obtain ⟨rfl, -⟩ := mk.inj heq
    exact readPart_plain rfl (by rintro _ ⟨⟩)
  obtain ⟨out, hout, heq⟩ := map_eq_some_iff.mp hparse
  obtain ⟨rfl, -⟩ := mk.inj heq
  refine ⟨nodup_nil, fun x hx => ?_⟩
  obtain rfl := Tree.num.inj hx
  exact readNumber_denoted hout

theorem readParts (read : Text → Option Number) (fuel : Nat) : ReadParts read fuel := by
  induction fuel with
  | zero =>
    exact ⟨nofun, nofun, nofun, nofun⟩
  | succ fuel ih =>
    refine ⟨ih.value_succ, ?_, ?_, ?_⟩
    · intro text items rest h
      rw [parseItems] at h
      split at h
      · cases h
      rename_i x after hx
      split at h
      · cases h
      split_ifs at h
      · obtain ⟨rfl, -⟩ := mk.inj (some.inj h)
        exact forall_mem_singleton.mpr (ih.value hx)
      obtain ⟨out, hout, heq⟩ := map_eq_some_iff.mp h
      obtain ⟨rfl, -⟩ := mk.inj heq
      exact forall_mem_cons.mpr ⟨ih.value hx, ih.items hout⟩
    · intro text members rest h
      rw [parseMembers] at h
      split at h
      · cases h
      rename_i m after hm
      split at h
      · cases h
      split_ifs at h
      · obtain ⟨rfl, -⟩ := mk.inj (some.inj h)
        exact forall_mem_singleton.mpr (ih.member hm)
      obtain ⟨out, hout, heq⟩ := map_eq_some_iff.mp h
      obtain ⟨rfl, -⟩ := mk.inj heq
      exact forall_mem_cons.mpr ⟨ih.member hm, ih.members hout⟩
    · intro text m rest h
      rw [parseMember] at h
      split at h
      · cases h
      split_ifs at h
      split at h
      · cases h
      split at h
      · cases h
      split_ifs at h
      obtain ⟨out, hout, heq⟩ := map_eq_some_iff.mp h
      obtain ⟨rfl, -⟩ := mk.inj heq
      exact ih.value hout

/-- **WHAT IS READ** has distinct names, and numbers of number tokens. -/
theorem parse_parts {text : Text} (h : parse read text = some t) : Every (ReadPart read) t := by
  rw [parse] at h
  split at h
  · cases h
  rename_i t' rest hvalue
  split_ifs at h
  cases h
  exact (readParts read _).value hvalue

end Parts

/-! ## Lists of texts -/

section Joined

variable {α : Type} {f : α → Text} {close : CodeUnit}

/-- What follows an element: a comma, or the closing bracket. -/
def Follows (close : CodeUnit) (rest : Text) : Prop :=
  ∃ tail, rest = unit ',' :: tail ∨ rest = close :: tail

theorem join_map_cons (x : α) (xs : List α) (r : Text) : ∃ rest, Follows close rest
      ∧ join ((x :: xs).map f) ++ close :: r = f x ++ rest ∧ (xs = [] → rest = close :: r)
      ∧ (xs ≠ [] → rest = unit ',' :: (join (xs.map f) ++ close :: r)) := by
  cases xs with
  | nil => exact ⟨close :: r, ⟨r, .inr rfl⟩, rfl, fun _ => rfl, fun h => absurd rfl h⟩
  | cons y ys =>
    refine ⟨unit ',' :: (join ((y :: ys).map f) ++ close :: r),
      ⟨_, .inl rfl⟩, ?_, nofun, fun _ => rfl⟩
    have hne : (y :: ys).map f ≠ [] := cons_ne_nil _ _
    rw [map_cons, join_cons _ hne, append_assoc]
    rfl

theorem join_append_inj (hclose : close ≠ unit ',') {xs ys : List α}
    (hstart : ∀ x, x ∈ xs ∨ x ∈ ys → ∃ c tail, f x = c :: tail ∧ c ≠ close)
    (hinj : ∀ x ∈ xs, ∀ y ∈ ys, ∀ r r', Follows close r → Follows close r' →
      f x ++ r = f y ++ r' → x = y ∧ r = r') {r r' : Text}
    (h : join (xs.map f) ++ close :: r = join (ys.map f) ++ close :: r') : xs = ys ∧ r = r' := by
  induction xs generalizing ys with
  | nil =>
    cases ys with
    | nil => exact ⟨rfl, (cons.inj h).2⟩
    | cons y ys =>
      obtain ⟨rest, -, hrest, -, -⟩ := @join_map_cons α f close y ys r'
      obtain ⟨c, tail, htext, hc⟩ := hstart y (.inr (.head _))
      rw [hrest, htext] at h
      exact absurd (cons.inj h).1.symm hc
  | cons x xs ih =>
    obtain ⟨rest, hfollows, hrest, hend, hmore⟩ := @join_map_cons α f close x xs r
    cases ys with
    | nil =>
      obtain ⟨c, tail, htext, hc⟩ := hstart x (.inl (.head _))
      rw [hrest, htext] at h
      exact absurd (cons.inj h).1 hc
    | cons y ys =>
      obtain ⟨rest', hfollows', hrest', hend', hmore'⟩ := @join_map_cons α f close y ys r'
      rw [hrest, hrest'] at h
      obtain ⟨rfl, hsame⟩ := hinj x (.head _) y (.head _) rest rest' hfollows hfollows' h
      have htails : xs = ys ∧ r = r' := by
        by_cases hxs : xs = []
        · by_cases hys : ys = []
          · rw [hend hxs, hend' hys] at hsame
            exact ⟨hxs.trans hys.symm, (cons.inj hsame).2⟩
          rw [hend hxs, hmore' hys] at hsame
          exact absurd (cons.inj hsame).1 hclose
        by_cases hys : ys = []
        · rw [hmore hxs, hend' hys] at hsame
          exact absurd (cons.inj hsame).1.symm hclose
        rw [hmore hxs, hmore' hys] at hsame
        refine ih (fun z hz => hstart z (hz.imp (mem_cons_of_mem _) (mem_cons_of_mem _)))
          (fun z hz z' hz' => hinj z (.tail _ hz) z'
            (.tail _ hz')) (cons.inj hsame).2
      exact ⟨congrArg (x :: ·) htails.1, htails.2⟩

end Joined

/-! ## One text, one tree -/

/-- Every number of the tree is one the writer writes. -/
abbrev NumbersOk (ok : Number → Prop) (t : Tree) : Prop :=
  Every (fun u => ∀ x, u = .num x → ok x) t

section Written

variable {w : Writer} {read : Text → Option Number} {ok : Number → Prop}

theorem writeItems_eq (items : List Tree) : writeItems w items = items.map (writeTree w) := by
  induction items with
  | nil => rfl
  | cons x rest ih => rw [writeItems, ih, map_cons]

theorem writeMembers_eq (members : List (Text × Tree)) : writeMembers w members
      = members.map (fun m => w.quote m.1 ++ unit ':' :: writeTree w m.2) := by
  induction members with
  | nil => rfl
  | cons m rest ih =>
    obtain ⟨key, x⟩ := m
    rw [writeMembers, ih, map_cons]

theorem ends_of_follows {close : CodeUnit} (hclose : isNumberUnit close = false)
    {rest : Text} (h : Follows close rest) : Ends rest := by
  obtain ⟨tail, rfl | rfl⟩ := h
  · exact ends_cons (by decide) tail
  · exact ends_cons hclose tail

/-- A string is told by its text, up to where it ends. -/
theorem quote_append_inj (hw : w.ReadBy read ok) {s s' r r' : Text}
    (h : w.quote s ++ r = w.quote s' ++ r') : s = s' ∧ r = r' := by
  obtain ⟨body, hbody, hread⟩ := hw.quoted s
  obtain ⟨body', hbody', hread'⟩ := hw.quoted s'
  rw [hbody, hbody'] at h
  have hboth := hread r
  rw [show body ++ r = body' ++ r' from (cons.inj h).2, hread' r'] at hboth
  obtain ⟨hs, hr⟩ := mk.inj (some.inj hboth)
  exact ⟨hs.symm, hr.symm⟩

variable {t : Tree} {r tail : Text}

/-- Only an array opens with a bracket, and only an object with a brace. -/
theorem container_of_head (hw : w.ReadBy read ok) (ht : ∀ x, t = .num x → ok x) {c : CodeUnit}
    (hc : c = unit '[' ∨ c = unit '{') (h : writeTree w t ++ r = c :: tail) :
    (c = unit '[' ∧ ∃ items, t = .arr items) ∨ (c = unit '{' ∧ ∃ members, t = .obj members) := by
  cases t with
  | null => exact absurd ((cons.inj h).1 ▸ hc) (by decide)
  | bool b =>
    cases b with
    | false => exact absurd ((cons.inj h).1 ▸ hc) (by decide)
    | true => exact absurd ((cons.inj h).1 ▸ hc) (by decide)
  | num x =>
    obtain ⟨hne, hunits⟩ := isJsonNumber_units (hw.isNumber x (ht x rfl))
    obtain ⟨d, text, htext⟩ := exists_cons_of_ne_nil hne
    rw [writeTree, htext] at h
    have hd := starts_number (hunits d (by rw [htext]; exact (.head _)))
    rw [(cons.inj h).1] at hd
    exact (hc.elim hd.2.2.2.2.1 hd.2.2.2.2.2.1).elim
  | str s =>
    obtain ⟨body, hbody, -⟩ := hw.quoted s
    rw [writeTree, hbody] at h
    exact absurd ((cons.inj h).1 ▸ hc) (by decide)
  | arr items => exact .inl ⟨(cons.inj h).1.symm, items, rfl⟩
  | obj members => exact .inr ⟨(cons.inj h).1.symm, members, rfl⟩

theorem arr_of_head (hw : w.ReadBy read ok) (ht : ∀ x, t = .num x → ok x)
    (h : writeTree w t ++ r = unit '[' :: tail) : ∃ items, t = .arr items :=
  (container_of_head hw ht (.inl rfl) h).elim And.right fun h => absurd h.1 (by decide)

theorem obj_of_head (hw : w.ReadBy read ok) (ht : ∀ x, t = .num x → ok x)
    (h : writeTree w t ++ r = unit '{' :: tail) : ∃ members, t = .obj members :=
  (container_of_head hw ht (.inr rfl) h).elim (fun h => absurd h.1 (by decide)) And.right

/-- The text of `t` tells `t`, and where it ends. -/
def Tells (w : Writer) (ok : Number → Prop) (t : Tree) : Prop :=
  ∀ u, NumbersOk ok u → ∀ r r', Ends r → Ends r' →
    writeTree w t ++ r = writeTree w u ++ r' → t = u ∧ r = r'

theorem tells_of_readsBack (hw : w.ReadBy read ok)
    (ht : ReadsBack w read t) (harr : ∀ items, t ≠ .arr items)
    (hobj : ∀ members, t ≠ .obj members) (hok : ∀ x, t = .num x → ok x) : Tells w ok t := by
  intro u hu r r' hr hr' h
  have hback : ReadsBack w read u := by
    cases u with
    | null => exact readsBack_null
    | bool b => exact readsBack_bool b
    | num x => exact readsBack_num hw (hu.self x rfl)
    | str s => exact readsBack_str hw s
    | arr items =>
      obtain ⟨items', rfl⟩ := arr_of_head hw hok h
      exact absurd rfl (harr items')
    | obj members =>
      obtain ⟨members', rfl⟩ := obj_of_head hw hok h
      exact absurd rfl (hobj members')
  have hread := ht ((writeTree w t).length + (writeTree w u).length) r (Nat.le_add_right _ _) hr
  rw [h, hback _ r' (Nat.le_add_left _ _) hr'] at hread
  obtain ⟨htree, hrest⟩ := mk.inj (some.inj hread)
  exact ⟨htree.symm, hrest.symm⟩

theorem tells_arr (hw : w.ReadBy read ok) {items : List Tree}
    (hok : ∀ x ∈ items, NumbersOk ok x) (h : ∀ x ∈ items, Tells w ok x) :
    Tells w ok (.arr items) := by
  intro u hu r r' hr hr' heq
  obtain ⟨items', rfl⟩ := arr_of_head hw hu.self heq.symm
  have hok' := (every_arr.mp hu).2
  rw [writeTree, writeTree, writeItems_eq, writeItems_eq, bracketed, bracketed,
    cons_append, cons_append, append_assoc,
    append_assoc] at heq
  obtain ⟨rfl, hrest⟩ := join_append_inj (by decide) (fun x hx => by
      have hxok : NumbersOk ok x := hx.elim (hok x) (hok' x)
      obtain ⟨c, tail, htext, -, hc, -⟩ := writeTree_starts hw hxok.self
      exact ⟨c, tail, htext, hc⟩)
    (fun x hx y hy s s' hs hs' => h x hx y (hok' y hy) s s'
      (ends_of_follows (by decide) hs) (ends_of_follows (by decide) hs'))
    (cons.inj heq).2
  exact ⟨rfl, hrest⟩

theorem tells_obj (hw : w.ReadBy read ok) {members : List (Text × Tree)}
    (h : ∀ m ∈ members, Tells w ok m.2) : Tells w ok (.obj members) := by
  intro u hu r r' hr hr' heq
  obtain ⟨members', rfl⟩ := obj_of_head hw hu.self heq.symm
  have hok' := (every_obj.mp hu).2
  rw [writeTree, writeTree, writeMembers_eq, writeMembers_eq, braced, braced,
    cons_append, cons_append, append_assoc,
    append_assoc] at heq
  obtain ⟨rfl, hrest⟩ := join_append_inj (by decide) (fun m _ => by
      obtain ⟨body, hbody, -⟩ := hw.quoted m.1
      exact ⟨unit '"', _, by rw [hbody]; rfl, by decide⟩)
    (fun m hm m' hm' s s' hs hs' hboth => by
      rw [append_assoc, append_assoc] at hboth
      obtain ⟨hkey, hvalue⟩ := quote_append_inj hw hboth
      obtain ⟨hx, hsame⟩ := h m hm m'.2 (hok' m' hm') s s'
        (ends_of_follows (by decide) hs) (ends_of_follows (by decide) hs')
        (cons.inj hvalue).2
      exact ⟨Prod.ext hkey hx, hsame⟩)
    (cons.inj heq).2
  exact ⟨rfl, hrest⟩

theorem tells_of_numbersOk (hw : w.ReadBy read ok) (h : NumbersOk ok t) : Tells w ok t := by
  induction t using tree_induct with
  | hnull =>
    exact tells_of_readsBack hw readsBack_null nofun nofun h.self
  | hbool b =>
    exact tells_of_readsBack hw (readsBack_bool b) nofun nofun h.self
  | hnum x =>
    exact tells_of_readsBack hw (readsBack_num hw (h.self x rfl)) nofun nofun h.self
  | hstr s =>
    exact tells_of_readsBack hw (readsBack_str hw s) nofun nofun h.self
  | harr items ih =>
    have hitems := (every_arr.mp h).2
    exact tells_arr hw hitems (fun x hx => ih x hx (hitems x hx))
  | hobj members ih =>
    have hmembers := (every_obj.mp h).2
    exact tells_obj hw (fun m hm => ih m hm (hmembers m hm))

/-- **ONE TEXT, ONE TREE**, whatever the names of the members are. -/
theorem writeTree_inj (hw : w.ReadBy read ok) {t u : Tree}
    (ht : NumbersOk ok t) (hu : NumbersOk ok u) (h : writeTree w t = writeTree w u) : t = u :=
  (tells_of_numbersOk hw ht u hu [] [] ends_nil ends_nil (congrArg (· ++ []) h)).1

end Written

end JsonText

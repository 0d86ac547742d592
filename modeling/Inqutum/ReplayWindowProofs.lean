import Mathlib.Order.Basic
import Mathlib.Data.List.Nodup

/-!
# A bounded window of keys

A store remembers keys with the times they came.  Every visit first forgets
what has expired by then; a visit that brings a new key forgets again, makes
room by forgetting the oldest key, and remembers the new one.

`window` is what is remembered after a log of visits, the newest first.
`mem_window_iff` says it without the store: a key is remembered exactly if
some visit brought it, no visit since has found it expired, and fewer keys
than the store has room for have come since.
-/

namespace ReplayWindow

open List

variable {κ τ : Type}

/-- A key that is remembered, and the two times of the visit that brings it. -/
structure Added (κ τ : Type) where
  key : κ
  cleanedAt : τ
  receivedAt : τ

structure Visit (κ τ : Type) where
  lookedAt : τ
  added : Option (Added κ τ)

section Window

variable (expired : τ → τ → Bool) (cap : Nat)

/-- The visit finds a key of that time not expired. -/
def Visit.keeps (v : Visit κ τ) (time : τ) : Bool :=
  !expired v.lookedAt time && v.added.all (fun a => !expired a.cleanedAt time)

/-- What is remembered after a log, both with the newest first. -/
def window : List (Visit κ τ) → List (κ × τ)
  | [] => []
  | v :: log =>
    match v.added with
    | none => (window log).filter (fun entry => v.keeps expired entry.2)
    | some a => (a.key, a.receivedAt) :: ((window log).filter
          (fun entry => v.keeps expired entry.2)).take (cap - 1)

/-- Some visit brought the key; since then it has not expired, and there is
    still room for it. -/
def Remembered (log : List (Visit κ τ)) (key : κ) : Prop :=
  ∃ later v earlier a, log = later ++ v :: earlier ∧ v.added = some a
    ∧ a.key = key ∧ (∀ w ∈ later, w.keeps expired a.receivedAt = true)
    ∧ later.countP (fun w => w.added.isSome) < cap

/-- A visit brings a key that is not remembered, at the latest time yet. -/
def Fresh [LE τ] : List (Visit κ τ) → Prop
  | [] => True
  | v :: log => Fresh log ∧ ∀ a ∈ v.added, a.key ∉ ((window expired cap log).filter
        (fun entry => v.keeps expired entry.2)).map Prod.fst
      ∧ ∀ entry ∈ window expired cap log, entry.2 ≤ a.receivedAt

end Window

section Remember

variable [Preorder τ] {expired : τ → τ → Bool} {cap : Nat}
  (hmono : ∀ u t t', t ≤ t' → expired u t' = true → expired u t = true)
  {log : List (Visit κ τ)}

/-- The newest come first. -/
theorem window_sorted (h : Fresh expired cap log) :
    (window expired cap log).Pairwise (fun x y => y.2 ≤ x.2) := by
  induction log with
  | nil => exact Pairwise.nil
  | cons v log ih =>
    obtain ⟨hlog, hadded⟩ := h
    have hkept := (ih hlog).filter (fun entry => v.keeps expired entry.2)
    rw [window]
    split
    · exact hkept
    rename_i a ha
    refine pairwise_cons.mpr ⟨?_, hkept.sublist (take_sublist _ _)⟩
    intro entry hentry
    exact (hadded a ha).2 entry (mem_filter.mp (mem_of_mem_take hentry)).1

theorem window_nodup (h : Fresh expired cap log) :
    ((window expired cap log).map Prod.fst).Nodup := by
  induction log with
  | nil => exact nodup_nil
  | cons v log ih =>
    obtain ⟨hlog, hadded⟩ := h
    have hkept : (((window expired cap log).filter
        (fun entry => v.keeps expired entry.2)).map Prod.fst).Nodup :=
      (ih hlog).sublist (filter_sublist.map Prod.fst)
    rw [window]
    split
    · exact hkept
    rename_i a ha
    have htake := (take_sublist (cap - 1) ((window expired cap
      log).filter (fun entry => v.keeps expired entry.2))).map Prod.fst
    refine nodup_cons.mpr ⟨fun hmem => (hadded a ha).1 ?_, hkept.sublist htake⟩
    exact htake.subset hmem

variable {v : Visit κ τ} {entry : κ × τ}

omit [Preorder τ] in
theorem mem_window_cons (h : entry ∈ window expired cap (v :: log)) :
    entry ∈ window expired cap log ∨ ∃ a ∈ v.added, entry = (a.key, a.receivedAt) := by
  rw [window] at h
  split at h
  · exact .inl (mem_filter.mp h).1
  rename_i a ha
  rcases mem_cons.mp h with hentry | h
  · exact .inr ⟨a, ha, hentry⟩
  · exact .inl (mem_filter.mp (mem_of_mem_take h)).1

omit [Preorder τ] in
/-- There is never more than there is room for. -/
theorem length_window (hcap : 1 ≤ cap) (log : List (Visit κ τ)) :
    (window expired cap log).length ≤ cap := by
  induction log with
  | nil => exact Nat.zero_le cap
  | cons v log ih =>
    rw [window]
    split
    · exact Nat.le_trans (length_filter_le _ _) ih
    rw [length_cons]
    have htake := length_take_le (cap - 1) ((window expired cap
      log).filter (fun entry => v.keeps expired entry.2))
    omega

include hmono

/-- What is newer than a kept entry is kept. -/
theorem keeps_mono {t t' : τ} (hle : t ≤ t')
    (h : v.keeps expired t = true) : v.keeps expired t' = true := by
  have hnot : ∀ u, (!expired u t) = true → (!expired u t') = true := by
    intro u hu
    rw [Bool.not_eq_true'] at hu ⊢
    by_contra hlate
    rw [Bool.not_eq_false] at hlate
    rw [hmono u t t' hle hlate] at hu
    cases hu
  rw [Visit.keeps, Bool.and_eq_true] at h ⊢
  refine ⟨hnot _ h.1, ?_⟩
  cases ha : v.added with
  | none => rfl
  | some a =>
    rw [ha] at h
    exact hnot _ h.2

theorem filter_split {front back : List (κ × τ)}
    (hsorted : (front ++ entry :: back).Pairwise (fun x y => y.2 ≤ x.2))
    (hkeeps : v.keeps expired entry.2 = true) :
    (front ++ entry :: back).filter (fun e => v.keeps expired e.2)
      = front ++ entry :: back.filter (fun e => v.keeps expired e.2) := by
  have hback : (entry :: back).filter (fun e => v.keeps expired e.2)
      = entry :: back.filter (fun e => v.keeps expired e.2) :=
    filter_cons_of_pos hkeeps
  have hfront : front.filter (fun e => v.keeps expired e.2) = front := by
    refine filter_eq_self.mpr ?_
    intro e he
    have hle := (pairwise_append.mp hsorted).2.2 e he entry (.head _)
    exact keeps_mono hmono hle hkeeps
  rw [filter_append, hback, hfront]

theorem dropWhile_reverse {entries : List (κ × τ)} (now : τ)
    (hsorted : entries.Pairwise (fun x y => y.2 ≤ x.2)) :
    entries.reverse.dropWhile (fun entry => expired now entry.2)
      = (entries.filter (fun entry => !expired now entry.2)).reverse := by
  rw [← filter_reverse]
  have holdest := pairwise_reverse.mpr hsorted
  generalize entries.reverse = oldest at holdest ⊢
  induction oldest with
  | nil => rfl
  | cons entry rest ih =>
    obtain ⟨hle, hrest⟩ := pairwise_cons.mp holdest
    by_cases hentry : expired now entry.2 = true
    · have hfirst : (!expired now entry.2) ≠ true := by simp [hentry]
      rw [dropWhile_cons, if_pos hentry, ih hrest, filter_cons, if_neg hfirst]
    -- the first that is kept is the oldest of those left
    rw [dropWhile_cons, if_neg hentry]
    refine (filter_eq_self.mpr ?_).symm
    intro e he
    rw [Bool.not_eq_true', Bool.eq_false_iff]
    rcases mem_cons.mp he with rfl | he
    · exact hentry
    · exact fun hexp => hentry (hmono now _ _ (hle e he) hexp)

/-- **THE POSITION** of a remembered key: behind the keys that came since. -/
theorem window_split (h : Fresh expired cap log) {later earlier : List (Visit κ τ)} {a : Added κ τ}
    (hlog : log = later ++ v :: earlier) (ha : v.added = some a)
    (hkeeps : ∀ w ∈ later, w.keeps expired a.receivedAt = true)
    (hroom : later.countP (fun w => w.added.isSome) < cap) :
    ∃ front back, window expired cap log = front ++ (a.key, a.receivedAt) :: back
      ∧ front.length = later.countP (fun w => w.added.isSome) := by
  -- by induction on the visits since; each new key moves it one down
  induction later generalizing log with
  | nil =>
    obtain rfl := hlog
    refine ⟨[], ((window expired cap earlier).filter
      (fun entry => v.keeps expired entry.2)).take (cap - 1), ?_, rfl⟩
    rw [nil_append, window, ha]
    rfl
  | cons w later ih =>
    obtain rfl := hlog
    rw [cons_append] at h ⊢
    obtain ⟨hfresh, -⟩ := h
    have hcount := countP_cons (p := fun w : Visit κ τ => w.added.isSome) (a := w) (l := later)
    obtain ⟨front, back, hwindow, hlength⟩ := ih hfresh rfl
      (fun x hx => hkeeps x (.tail _ hx)) (by omega)
    have hfilter := filter_split (v := w) hmono
      (hwindow ▸ window_sorted hfresh) (hkeeps w (.head _))
    rw [window, hwindow, hfilter]
    cases hw : w.added with
    | none =>
      refine ⟨front, _, rfl, ?_⟩
      rw [hcount, hw, hlength]
      rfl
    | some b =>
      rw [hw] at hcount
      simp only [Option.isSome_some, if_true] at hcount
      refine ⟨(b.key, b.receivedAt) :: front, (back.filter
        (fun e => w.keeps expired e.2)).take (cap - 1 - front.length - 1),
        ?_, ?_⟩
      · show (b.key, b.receivedAt) :: (front ++ _ :: _).take (cap - 1) = _
        rw [take_append, take_of_length_le (by omega)]
        obtain ⟨m, hm⟩ : ∃ m, cap - 1 - front.length = m + 1 :=
          ⟨cap - 1 - front.length - 1, by omega⟩
        rw [hm, take_succ_cons]
        rfl
      · rw [length_cons, hlength, hcount]

theorem remembered_of_mem (hcap : 1 ≤ cap) (h : Fresh expired cap log)
    (hmem : entry ∈ window expired cap log) :
    ∃ later v earlier a, log = later ++ v :: earlier ∧ v.added = some a
      ∧ entry = (a.key, a.receivedAt) ∧ (∀ w ∈ later, w.keeps expired a.receivedAt = true)
      ∧ later.countP (fun w => w.added.isSome) < cap := by
  induction log with
  | nil => cases hmem
  | cons w log ih =>
    have hfresh := h.1
    rw [window] at hmem
    cases hw : w.added with
    -- nothing was brought: what is left was kept by this visit
    | none =>
      rw [hw] at hmem
      obtain ⟨hold, hkept⟩ := mem_filter.mp hmem
      obtain ⟨later, v, earlier, a, rfl, ha, rfl, hkeeps, hroom⟩ := ih hfresh hold
      refine ⟨w :: later, v, earlier, a, rfl, ha, rfl, ?_, ?_⟩
      · intro x hx
        rcases mem_cons.mp hx with rfl | hx
        · exact hkept
        · exact hkeeps x hx
      rw [countP_cons, hw]
      exact hroom
    | some b =>
      rw [hw] at hmem
      -- the key of this very visit, or an older one that still has room
      rcases mem_cons.mp hmem with rfl | hmem
      · exact ⟨[], w, log, b, rfl, hw, rfl, fun _ hx => (nomatch hx), hcap⟩
      obtain ⟨hold, hkept⟩ := mem_filter.mp (mem_of_mem_take hmem)
      obtain ⟨later, v, earlier, a, hlog, ha, rfl, hkeeps, hroom⟩ := ih hfresh hold
      obtain ⟨front, back, hwindow, hlength⟩ := window_split hmono hfresh hlog ha hkeeps hroom
      have hfilter := filter_split (v := w) hmono (hwindow ▸ window_sorted hfresh) hkept
      rw [hwindow, hfilter] at hmem
      -- the key stands at its position only, so there was room for it
      have hposition : front.length < cap - 1 := by
        by_contra hfull
        rw [take_append_of_le_length (by omega)] at hmem
        have hnodup := window_nodup hfresh
        rw [hwindow, map_append, map_cons] at hnodup
        have hfirst : a.key ∈ front.map Prod.fst :=
          mem_map.mpr ⟨_, mem_of_mem_take hmem, rfl⟩
        exact (nodup_append.mp hnodup).2.2 a.key hfirst a.key (.head _) rfl
      subst hlog
      refine ⟨w :: later, v, earlier, a, rfl, ha, rfl, ?_, ?_⟩
      · intro x hx
        rcases mem_cons.mp hx with rfl | hx
        · exact hkept
        · exact hkeeps x hx
      rw [countP_cons, hw, ← hlength]
      simp only [Option.isSome_some, if_true]
      omega

/-- **WHAT IS REMEMBERED** is known from the log. -/
theorem mem_window_iff (hcap : 1 ≤ cap) (h : Fresh expired cap log)
    {key : κ} : key ∈ (window expired cap log).map Prod.fst ↔ Remembered expired cap log key := by
  constructor
  · intro hmem
    obtain ⟨entry, hentry, rfl⟩ := mem_map.mp hmem
    obtain ⟨later, v, earlier, a, hlog, ha, rfl, hkeeps, hroom⟩ :=
      remembered_of_mem hmono hcap h hentry
    exact ⟨later, v, earlier, a, hlog, ha, rfl, hkeeps, hroom⟩
  rintro ⟨later, v, earlier, a, hlog, ha, rfl, hkeeps, hroom⟩
  obtain ⟨front, back, hwindow, -⟩ := window_split hmono h hlog ha hkeeps hroom
  rw [hwindow]
  exact mem_map.mpr ⟨_, mem_append_right _ (.head _), rfl⟩

end Remember

end ReplayWindow

import Mathlib.Data.List.Infix

/-!
# Hash chains

Entries in a row, each of which carries the digest of the one before it
(`prev`); the first carries none.  `Chained before l` says so of a list
that follows an entry of digest `before`, and `tip before l` is what the
next entry has to carry.

Two results are used.  What is left of a chain once a prefix is dropped is
a chain from the start only if nothing was dropped or nothing is left
(`chained_rest_iff`).  And where a digest determines what its entry
carries, the tip commits to the whole history: every chain made of a
chain's own entries is a prefix of it (`prefix_of_chained`).
-/

namespace HashChain

open List

variable {α H : Type} (prev : α → Option H) (digest : α → H)

/-- Each entry carries the digest of the one before it. -/
def Chained : Option H → List α → Prop
  | _, [] => True
  | before, a :: rest => prev a = before ∧ Chained (some (digest a)) rest

/-- What the entry after the list has to carry. -/
def tip : Option H → List α → Option H
  | before, [] => before
  | _, a :: rest => tip (some (digest a)) rest

/-- A digest determines what its entry carries. -/
def Commits (entries : List α) : Prop :=
  ∀ a ∈ entries, ∀ b ∈ entries, digest a = digest b → prev a = prev b

variable {prev digest}

theorem tip_append (before : Option H) (p q : List α) :
    tip digest before (p ++ q) = tip digest (tip digest before p) q := by
  induction p generalizing before with
  | nil => rfl
  | cons a rest ih => exact ih (some (digest a))

@[simp] theorem tip_concat (before : Option H) (p : List α) (a : α) :
    tip digest before (p ++ [a]) = some (digest a) :=
  tip_append before p [a]

theorem tip_eq_getLast (l : List α) : tip digest none l = l.getLast?.map digest := by
  rcases eq_nil_or_concat l with rfl | ⟨p, a, rfl⟩
  · rfl
  · simp

theorem tip_none_iff (l : List α) : tip digest none l = none ↔ l = [] := by
  rcases eq_nil_or_concat l with rfl | ⟨p, a, rfl⟩
  · exact ⟨fun _ => rfl, fun _ => rfl⟩
  · simp

variable {before : Option H} {p q : List α}

theorem chained_append : Chained prev digest before (p ++ q)
      ↔ Chained prev digest before p ∧ Chained prev digest (tip digest before p) q := by
  induction p generalizing before with
  | nil => exact ⟨fun h => ⟨trivial, h⟩, fun h => h.2⟩
  | cons a rest ih =>
    show prev a = before ∧ Chained prev digest _ (rest ++ q) ↔ _
    rw [ih, ← and_assoc]
    rfl

/-- One more entry. -/
theorem chained_concat {p : List α} {a : α} : Chained prev digest before (p ++ [a])
      ↔ Chained prev digest before p ∧ prev a = tip digest before p := by
  rw [chained_append]
  exact and_congr_right fun _ => ⟨fun h => h.1, fun h => ⟨h, trivial⟩⟩

/-- **A DROPPED PREFIX SHOWS**: the rest of a chain starts afresh only if
    nothing was dropped or nothing is left. -/
theorem chained_rest_iff (h : Chained prev digest none (p ++ q)) :
    Chained prev digest none q ↔ p = [] ∨ q = [] := by
  obtain ⟨-, hrest⟩ := chained_append.mp h
  cases q with
  | nil => exact ⟨fun _ => .inr rfl, fun _ => trivial⟩
  | cons a rest =>
    obtain ⟨hprev, hlinks⟩ := hrest
    have hstart : Chained prev digest none (a :: rest) ↔ p = [] := by
      have hnone : tip digest none p = none ↔ p = [] := tip_none_iff p
      rw [← hnone, ← hprev]
      exact ⟨fun h => h.1, fun h => ⟨h, hlinks⟩⟩
    simpa using hstart

section Commitment

variable {entries : List α}

/-- Two chains with one tip are equally long. -/
theorem length_of_tip (hcommits : Commits prev digest entries)
    {p q : List α} (hp : Chained prev digest none p)
    (hq : Chained prev digest none q) (hpin : ∀ a ∈ p, a ∈ entries) (hqin : ∀ a ∈ q, a ∈ entries)
    (htip : tip digest none p = tip digest none q) : p.length = q.length := by
  induction p using reverseRecOn generalizing q with
  | nil => rw [(tip_none_iff q).mp htip.symm]
  | append_singleton p a ih =>
    rcases eq_nil_or_concat q with rfl | ⟨q, b, rfl⟩
    · simp [tip] at htip
    rw [concat_eq_append] at *
    obtain ⟨hp, hpa⟩ := chained_concat.mp hp
    obtain ⟨hq, hqb⟩ := chained_concat.mp hq
    have hdigest : digest a = digest b := by simpa using htip
    have hprev : prev a = prev b := hcommits a (hpin a (by simp)) b (hqin b (by simp)) hdigest
    have hlength : p.length = q.length := by
      refine ih hp hq (fun x hx => hpin x (by simp [hx])) (fun x hx => hqin x (by simp [hx])) ?_
      rw [← hpa, ← hqb, hprev]
    simp [hlength]

/-- **A CHAIN OF A CHAIN'S ENTRIES IS A PREFIX OF IT**: an entry left out,
    repeated or moved breaks a link. -/
theorem prefix_of_chained (hentries : Chained prev digest none entries)
    (hcommits : Commits prev digest entries) {l : List α}
    (hl : Chained prev digest none l) (hlin : ∀ a ∈ l, a ∈ entries) : l <+: entries := by
  induction l using reverseRecOn with
  | nil => exact nil_prefix
  | append_singleton l a ih =>
    obtain ⟨hl, hla⟩ := chained_concat.mp hl
    have hlin' : ∀ x ∈ l, x ∈ entries := fun x hx => hlin x (by simp [hx])
    obtain ⟨rest, hrest⟩ := ih hl hlin'
    obtain ⟨p, q, hsplit⟩ := append_of_mem (hlin a (by simp))
    -- The entry stands after `p` in the chain; `p` has the tip of `l`.
    have hsplit' : entries = p ++ [a] ++ q := by rw [hsplit]; simp
    obtain ⟨hp, hpa⟩ := chained_concat.mp (chained_append.mp (hsplit' ▸ hentries)).1
    have hlength : l.length = p.length :=
      length_of_tip hcommits hl hp hlin'
        (fun x hx => by rw [hsplit]; simp [hx]) (hla.symm.trans hpa)
    have hlp : l = p := (append_inj (hrest.trans hsplit) hlength).1
    exact ⟨q, by rw [hlp, hsplit']⟩

end Commitment

end HashChain

import Mathlib.Logic.Basic
import Mathlib.Tactic.TypeStar

/-!
# Three-way merges, seen along paths

A tree is what can be observed along paths: a view sends a path to the
label found there, or to nothing.  Two trees are the same if their views
are equal, so sameness is an equivalence and carries over to every
subtree for free.

`Merged` says what a merge owes to one place: a change of one side only is
taken over, a change both sides made is kept, and two different changes
collide unless both sides have inner nodes there.  The rules below give it
for the ways in which a merge can decide.
-/

namespace ThreeWay

variable {κ K : Type}

/-- What is found along a path. -/
abbrev View (κ K : Type) := List κ → Option K

/-- The view of the subtree at a path. -/
def below (x : View κ K) (p : List κ) : View κ K := fun q => x (p ++ q)

theorem below_cons (x : View κ K) (k : κ) (p : List κ) :
    below x (k :: p) = below (below x [k]) p := rfl

/-- What is done about a collision. -/
inductive Policy where
  | serverWins
  | clientWins
  | refuse
  | free

/-- Both sides changed the place differently, and it is not an inner node of
    both. -/
structure Collides (node : K) (b s c : View κ K) : Prop where
  server : s ≠ b
  client : c ≠ b
  differ : s ≠ c
  leaf : ¬ (s [] = some node ∧ c [] = some node)

/-- What a merge `m` of `s` and `c` over `b` owes to one place. -/
structure Merged (policy : Policy) (node : K) (b s c m : View κ K) : Prop where
  clientOnly : c ≠ b → s = b → m = c
  serverOnly : s ≠ b → c = b → m = s
  convergent : s ≠ b → s = c → m = c
  serverWins : policy = .serverWins → Collides node b s c → m = s
  clientWins : policy = .clientWins → Collides node b s c → m = c
  refused : policy = .refuse → ¬ Collides node b s c

section Rules

variable {policy : Policy} {node : K} {b s c m : View κ K}

/-- The client changed nothing: the server's tree is right. -/
theorem merged_of_client_unchanged (h : b = c) : Merged policy node b s c s := by
  subst h
  refine ⟨?_, ?_, ?_, ?_, ?_, ?_⟩
  · intro hne _
    exact absurd rfl hne
  · intro _ _
    rfl
  · intro _ hsame
    exact hsame
  · intro _ _
    rfl
  · intro _ hcollides
    exact absurd rfl hcollides.client
  intro _ hcollides
  exact absurd rfl hcollides.client

/-- The server changed nothing: the client's tree is right. -/
theorem merged_of_server_unchanged (h : b = s) : Merged policy node b s c c := by
  subst h
  refine ⟨?_, ?_, ?_, ?_, ?_, ?_⟩
  · intro _ _
    rfl
  · intro hne _
    exact absurd rfl hne
  · intro hne _
    exact absurd rfl hne
  · intro _ hcollides
    exact absurd rfl hcollides.server
  · intro _ _
    rfl
  intro _ hcollides
  exact absurd rfl hcollides.server

/-- Both made the same change: either tree is right. -/
theorem merged_of_convergent (h : s = c) : Merged policy node b s c c := by
  subst h
  refine ⟨?_, ?_, ?_, ?_, ?_, ?_⟩
  · intro _ _
    rfl
  · intro _ _
    rfl
  · intro _ _
    rfl
  · intro _ hcollides
    exact absurd rfl hcollides.differ
  · intro _ hcollides
    exact absurd rfl hcollides.differ
  intro _ hcollides
  exact absurd rfl hcollides.differ

/-- Two inner nodes owe nothing by themselves. -/
theorem merged_of_nodes (hserver : s ≠ b) (hclient : c ≠ b) (hdiffer : s ≠ c)
    (hs : s [] = some node) (hc : c [] = some node) : Merged policy node b s c m := by
  have hinner : ¬ Collides node b s c := fun h => h.leaf ⟨hs, hc⟩
  refine ⟨?_, ?_, ?_, ?_, ?_, ?_⟩
  · intro _ hsame
    exact absurd hsame hserver
  · intro _ hsame
    exact absurd hsame hclient
  · intro _ hsame
    exact absurd hsame hdiffer
  · intro _ hcollides
    exact absurd hcollides hinner
  · intro _ hcollides
    exact absurd hcollides hinner
  intro _
  exact hinner

theorem merged_of_collision (hserver : s ≠ b) (hclient : c ≠ b)
    (hdiffer : s ≠ c) (hs : policy = .serverWins → m = s)
    (hc : policy = .clientWins → m = c) (hrefuse : policy ≠ .refuse) :
    Merged policy node b s c m := by
  refine ⟨?_, ?_, ?_, ?_, ?_, ?_⟩
  · intro _ hsame
    exact absurd hsame hserver
  · intro _ hsame
    exact absurd hsame hclient
  · intro _ hsame
    exact absurd hsame hdiffer
  · intro hpolicy _
    exact hs hpolicy
  · intro hpolicy _
    exact hc hpolicy
  intro hpolicy _
  exact absurd hpolicy hrefuse

end Rules

end ThreeWay

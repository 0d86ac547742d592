import Mathlib.Data.List.Basic

/-!
# A heap of shared objects

Objects live in cells addressed by allocation order.  Several owners may
hold the address of one cell, so an in-place update through one of them is
seen by all: that is the whole point of modelling it.  Allocation never
touches existing cells.
-/

/-- Cells, oldest first; an address is a position. -/
structure Heap (α : Type) where
  cells : List α

namespace Heap

open List

variable {α : Type}

def empty : Heap α := ⟨[]⟩

/-- The content of a cell. -/
def read (h : Heap α) (r : Nat) : Option α := h.cells[r]?

/-- The address the next allocation returns. -/
def next (h : Heap α) : Nat := h.cells.length

def alloc (h : Heap α) (a : α) : Heap α := ⟨h.cells ++ [a]⟩

/-- Mutate one cell in place. -/
def update (h : Heap α) (r : Nat) (f : α → α) : Heap α := ⟨h.cells.modify r f⟩

variable {r : Nat} {h : Heap α}

theorem read_lt {a : α} (hr : h.read r = some a) : r < h.next := by
  obtain ⟨hlt, -⟩ := List.getElem?_eq_some_iff.mp hr
  exact hlt

theorem read_of_lt (hr : r < h.next) : ∃ a, h.read r = some a :=
  ⟨h.cells[r], getElem?_eq_getElem hr⟩

@[simp] theorem read_alloc_self (h : Heap α) (a : α) : (h.alloc a).read h.next = some a := by
  show (h.cells ++ [a])[h.cells.length]? = some a
  rw [getElem?_append_right (Nat.le_refl _), Nat.sub_self]
  rfl

theorem read_alloc_of_lt (h : Heap α) (a : α) (hr : r < h.next) : (h.alloc a).read r = h.read r :=
  getElem?_append_left hr

theorem read_alloc_of_read (a : α) {b : α}
    (hr : h.read r = some b) : (h.alloc a).read r = some b := by
  rw [read_alloc_of_lt h a (read_lt hr)]
  exact hr

@[simp] theorem next_alloc (h : Heap α) (a : α) : (h.alloc a).next = h.next + 1 := by
  show (h.cells ++ [a]).length = h.cells.length + 1
  rw [length_append]
  rfl

@[simp] theorem next_update (h : Heap α) (r : Nat) (f : α → α) :
    (h.update r f).next = h.next := length_modify ..

theorem read_update (h : Heap α) (r₀ : Nat) (f : α → α) (r : Nat) : (h.update r₀ f).read r
      = if r₀ = r then (h.read r).map f else h.read r := by
  show (h.cells.modify r₀ f)[r]? = _
  rw [getElem?_modify]
  by_cases hr : r₀ = r
  · rw [if_pos hr]
    show (fun a => if r₀ = r then f a else a) <$> h.cells[r]? = _
    simp only [if_pos hr]
    rfl
  rw [if_neg hr]
  show (fun a => if r₀ = r then f a else a) <$> h.cells[r]? = _
  simp only [if_neg hr, id_map']
  rfl

end Heap

import Mathlib.Algebra.GroupWithZero.Nat
import Mathlib.Data.List.DropRight

/-!
# Script text: white space, trimming, slices

Strings as lists of characters, with the white space and the slice rules
of the scripting language.  `trim` removes leading and trailing white
space, and nothing else: it is idempotent and leaves no white space at
either end.
-/

namespace JsText

open List

/-- White space and line terminators. -/
def isSpace (c : Char) : Bool :=
  let n := c.toNat
  decide (9 ≤ n ∧ n ≤ 13) || n == 32 || n == 160 || n == 0x1680
    || decide (0x2000 ≤ n ∧ n ≤ 0x200A) || n == 0x2028 || n == 0x2029
    || n == 0x202F || n == 0x205F || n == 0x3000 || n == 0xFEFF

def trimEnd (cs : List Char) : List Char :=
  (cs.reverse.dropWhile isSpace).reverse

def trimChars (cs : List Char) : List Char :=
  trimEnd (cs.dropWhile isSpace)

/-- `text.trim()`. -/
def trim (text : String) : String := String.ofList (trimChars text.toList)

variable {value : Option String} {c : Char} {text : String}

theorem not_isSpace_of_dropWhile {cs rest : List Char}
    (h : cs.dropWhile isSpace = c :: rest) : isSpace c = false := by
  have hnot := head?_dropWhile_not isSpace cs
  rw [h] at hnot
  exact hnot

theorem dropWhile_cons_self (hc : isSpace c = false)
    (cs : List Char) : (c :: cs).dropWhile isSpace = c :: cs :=
  dropWhile_cons_of_neg (by rw [hc]; exact Bool.false_ne_true)

theorem trimEnd_cons (hc : isSpace c = false) (cs : List Char) :
    ∃ rest, trimEnd (c :: cs) = c :: rest := by
  rw [trimEnd, reverse_cons, dropWhile_append]
  split
  · rw [dropWhile_cons_self hc]
    exact ⟨[], rfl⟩
  rw [reverse_append]
  exact ⟨_, rfl⟩

theorem trimChars_trimChars (cs : List Char) : trimChars (trimChars cs) = trimChars cs := by
  have hend : ∀ l, trimEnd (trimEnd l) = trimEnd l := by
    intro l
    rw [trimEnd, trimEnd, reverse_reverse, dropWhile_idempotent]
  have hstart : (trimChars cs).dropWhile isSpace = trimChars cs := by
    rw [trimChars]
    cases h : cs.dropWhile isSpace with
    | nil => rfl
    | cons c rest =>
      have hc := not_isSpace_of_dropWhile h
      obtain ⟨tail, htail⟩ := trimEnd_cons hc rest
      rw [htail, dropWhile_cons_self hc]
  show trimEnd ((trimChars cs).dropWhile isSpace) = trimChars cs
  rw [hstart]
  exact hend _

theorem trim_trim (text : String) : trim (trim text) = trim text := by
  rw [trim, trim, String.toList_ofList, trimChars_trimChars]

theorem trimChars_of_no_space {cs : List Char}
    (h : ∀ c ∈ cs, isSpace c = false) : trimChars cs = cs := by
  have hkeep : ∀ {l : List Char}, (∀ c ∈ l, isSpace c = false) → l.dropWhile isSpace = l := by
    intro l hl
    cases l with
    | nil => rfl
    | cons c rest => exact dropWhile_cons_self (hl c (.head _)) rest
  rw [trimChars, hkeep h, trimEnd, hkeep, reverse_reverse]
  intro c hc
  exact h c (mem_reverse.mp hc)

/-- `text.startsWith(c)` for one character. -/
def startsWith (text : String) (c : Char) : Bool :=
  decide (text.toList.head? = some c)

/-- `value || fallback` on an optional string: the empty string counts as
    absent. -/
def orElse (value : Option String) (fallback : String) : String :=
  match value with
  | some text => if text = "" then fallback else text
  | none => fallback

/-- `value || undefined` on an optional string. -/
def nonEmpty (value : Option String) : Option String :=
  value.bind (fun text => if text = "" then none else some text)

theorem nonEmpty_eq_some : nonEmpty value = some text ↔ value = some text ∧ text ≠ "" := by
  cases value with
  | none => simp [nonEmpty]
  | some t =>
    show (if t = "" then none else some t) = some text ↔ _
    by_cases h : t = ""
    · rw [if_pos h]
      refine ⟨nofun, ?_⟩
      rintro ⟨heq, hne⟩
      exact absurd (Option.some.inj heq ▸ h) hne
    rw [if_neg h]
    refine ⟨fun heq => ⟨heq, Option.some.inj heq ▸ h⟩, And.left⟩

theorem eq_of_nonEmpty (h : nonEmpty value = some text) : value = some text :=
  (nonEmpty_eq_some.mp h).1

/-- `text.length`: characters outside the basic plane count twice. -/
def utf16Length (text : String) : Nat :=
  (text.toList.map (fun c => if c.toNat < 0x10000 then 1 else 2)).sum

/-- A slice bound: negative positions count from the end. -/
def clampIndex (length : Nat) (i : Int) : Nat :=
  if i < 0 then ((length : Int) + i).toNat else min i.toNat length

/-- `items.slice(from, to)`. -/
def slice {α : Type} (items : List α) (start stop : Int) : List α :=
  let a := clampIndex items.length start
  let b := clampIndex items.length stop
  (items.drop a).take (b - a)

end JsText

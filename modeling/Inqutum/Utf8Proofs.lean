import Inqutum.JsonTextProofs

/-!
# UTF-8 of script text

A script text is a list of UTF-16 code units.  `encode` is
`Buffer.from(text, 'utf8')`: a surrogate pair is one code point, a
surrogate that stands alone is written as U+FFFD.  `decode` is
`buffer.toString('utf8')`: it takes bytes one at a time and never fails,
a byte that cannot follow what came before starts afresh behind a U+FFFD.

`decode_encode`: a text without lone surrogates comes back.
-/

namespace Utf8

open JsonText (CodeUnit Text)
open List

def isHigh (c : CodeUnit) : Bool := decide (0xD800 ≤ c.val ∧ c.val ≤ 0xDBFF)

def isLow (c : CodeUnit) : Bool := decide (0xDC00 ≤ c.val ∧ c.val ≤ 0xDFFF)

def isSurrogate (c : CodeUnit) : Bool := isHigh c || isLow c

/-- The code point of a surrogate pair. -/
def pairPoint (high low : CodeUnit) : Nat :=
  (high.val - 0xD800) * 0x400 + (low.val - 0xDC00) + 0x10000

/-- The code point of a code unit outside any pair. -/
def lonePoint (c : CodeUnit) : Nat := if isSurrogate c then 0xFFFD else c.val

def codePoints : Text → List Nat
  | [] => []
  | [c] => [lonePoint c]
  | c :: d :: rest =>
    if isHigh c && isLow d then pairPoint c d :: codePoints rest
    else lonePoint c :: codePoints (d :: rest)

def encodePoint (p : Nat) : List Nat :=
  if p < 0x80 then [p]
  else if p < 0x800 then [0xC0 + p / 64, 0x80 + p % 64]
  else if p < 0x10000 then
    [0xE0 + p / 4096, 0x80 + p / 64 % 64, 0x80 + p % 64]
  else
    [0xF0 + p / 262144, 0x80 + p / 4096 % 64, 0x80 + p / 64 % 64, 0x80 + p % 64]

/-- `Buffer.from(text, 'utf8')`. -/
def encode (text : Text) : List Nat := (codePoints text).flatMap encodePoint

/-- A code point of which `needed` bytes are still to come, the next of them
    between `lower` and `upper`. -/
structure Pending where
  needed : Nat
  point : Nat
  lower : Nat
  upper : Nat

/-- The first byte of a code point. -/
def start (b : Nat) : List Nat × Option Pending :=
  if b < 0x80 then ([b], none)
  else if b < 0xC2 then ([0xFFFD], none)
  else if b < 0xE0 then ([], some ⟨1, b - 0xC0, 0x80, 0xBF⟩)
  else if b < 0xF0 then
    ([], some ⟨2, b - 0xE0, if b = 0xE0 then 0xA0 else 0x80,
      if b = 0xED then 0x9F else 0xBF⟩)
  else if b < 0xF5 then
    ([], some ⟨3, b - 0xF0, if b = 0xF0 then 0x90 else 0x80,
      if b = 0xF4 then 0x8F else 0xBF⟩)
  else ([0xFFFD], none)

/-- One byte: the code points it completes, and what is still to come. -/
def feed : Option Pending → Nat → List Nat × Option Pending
  | none, b => start b
  | some p, b =>
    if p.lower ≤ b ∧ b ≤ p.upper then
      let point := p.point * 64 + (b - 0x80)
      if p.needed = 1 then ([point], none)
      else ([], some ⟨p.needed - 1, point, 0x80, 0xBF⟩)
    else (0xFFFD :: (start b).1, (start b).2)

def decodePoints : Option Pending → List Nat → List Nat
  | none, [] => []
  | some _, [] => [0xFFFD]
  | pending, b :: rest => (feed pending b).1 ++ decodePoints (feed pending b).2 rest

/-- The code units of a code point. -/
def pointUnits (p : Nat) : Text :=
  if p < 0x10000 then [Fin.ofNat 65536 p]
  else
    [Fin.ofNat 65536 (0xD800 + (p - 0x10000) / 0x400),
      Fin.ofNat 65536 (0xDC00 + (p - 0x10000) % 0x400)]

/-- `buffer.toString('utf8')`. -/
def decode (bytes : List Nat) : Text :=
  (decodePoints none bytes).flatMap pointUnits

/-- Every surrogate of the text is half of a pair. -/
def wellFormed : Text → Bool
  | [] => true
  | [c] => !isSurrogate c
  | c :: d :: rest =>
    if isHigh c && isLow d then wellFormed rest
    else !isSurrogate c && wellFormed (d :: rest)

/-! ## Code points -/

/-- A code point that is no surrogate. -/
def Scalar (p : Nat) : Prop := p < 0xD800 ∨ 0xE000 ≤ p ∧ p < 0x110000

theorem decodePoints_cons (pending : Option Pending) (b : Nat)
    (rest : List Nat) : decodePoints pending (b :: rest)
      = (feed pending b).1 ++ decodePoints (feed pending b).2 rest := by
  cases pending <;> rfl

variable {c : CodeUnit} {text : Text} {lower upper : Nat}

theorem decodePoints_last {p b : Nat} (hlow : lower ≤ b) (hup : b ≤ upper) (rest : List Nat) :
    decodePoints (some ⟨1, p, lower, upper⟩) (b :: rest)
      = (p * 64 + (b - 0x80)) :: decodePoints none rest := by
  rw [decodePoints_cons, feed, if_pos ⟨hlow, hup⟩]
  rfl

theorem decodePoints_next {n p b : Nat} (hn : n ≠ 0)
    (hlow : lower ≤ b) (hup : b ≤ upper) (rest : List Nat) :
    decodePoints (some ⟨n + 1, p, lower, upper⟩) (b :: rest)
      = decodePoints (some ⟨n, p * 64 + (b - 0x80), 0x80, 0xBF⟩) rest := by
  rw [decodePoints_cons, feed, if_pos ⟨hlow, hup⟩]
  simp only [Nat.add_eq_right, hn, if_false, Nat.add_sub_cancel, nil_append]

/-- **A CODE POINT IS READ BACK** from its bytes. -/
theorem decodePoints_encodePoint {p : Nat} (h : Scalar p) (rest : List Nat) :
    decodePoints none (encodePoint p ++ rest) = p :: decodePoints none rest := by
  rw [encodePoint]
  split
  · rename_i h1
    rw [singleton_append, decodePoints_cons, feed, start, if_pos h1]
    rfl
  split
  · rename_i h1 h2
    rw [cons_append, decodePoints_cons, feed, start, if_neg (by omega),
      if_neg (by omega), if_pos (by omega), nil_append,
      singleton_append, decodePoints_last (by omega) (by omega),
      cons.injEq]
    exact ⟨by omega, rfl⟩
  split
  · rename_i h1 h2 h3
    have hlow : (if 0xE0 + p / 4096 = 0xE0 then 0xA0 else 0x80) ≤ 0x80 + p / 64 % 64 := by
      split <;> omega
    have hup : 0x80 + p / 64 % 64 ≤ (if 0xE0 + p / 4096 = 0xED then 0x9F else 0xBF) := by
      rcases h with h | h <;> split <;> omega
    rw [cons_append, decodePoints_cons, feed, start, if_neg (by omega),
      if_neg (by omega), if_neg (by omega), if_pos (by omega),
      nil_append, cons_append,
      decodePoints_next (by decide) hlow hup, singleton_append,
      decodePoints_last (by omega) (by omega), cons.injEq]
    exact ⟨by omega, rfl⟩
  · rename_i h1 h2 h3
    have hbound : p < 0x110000 := by
      rcases h with h | h <;> omega
    have hlow : (if 0xF0 + p / 262144 = 0xF0 then 0x90 else 0x80) ≤ 0x80 + p / 4096 % 64 := by
      split <;> omega
    have hup : 0x80 + p / 4096 % 64 ≤ (if 0xF0 + p / 262144 = 0xF4 then 0x8F else 0xBF) := by
      split <;> omega
    rw [cons_append, decodePoints_cons, feed, start, if_neg (by omega),
      if_neg (by omega), if_neg (by omega), if_neg (by omega),
      if_pos (by omega), nil_append, cons_append,
      decodePoints_next (by decide) hlow hup, cons_append,
      decodePoints_next (by decide) (by omega) (by omega),
      singleton_append, decodePoints_last (by omega) (by omega),
      cons.injEq]
    exact ⟨by omega, rfl⟩

theorem decodePoints_flatMap {ps : List Nat} (h : ∀ p ∈ ps, Scalar p) :
    decodePoints none (ps.flatMap encodePoint) = ps := by
  induction ps with
  | nil => rfl
  | cons p rest ih =>
    rw [flatMap_cons, decodePoints_encodePoint (h p (.head _)), ih (fun q hq => h q (.tail _ hq))]

/-! ## Texts -/

theorem scalar_lonePoint (c : CodeUnit) : Scalar (lonePoint c) := by
  have hc := c.isLt
  rw [lonePoint]
  split
  · exact .inr (by omega)
  rename_i hnot
  simp only [isSurrogate, isHigh, isLow, Bool.or_eq_true, decide_eq_true_eq, not_or] at hnot
  simp only [Scalar]
  omega

theorem scalar_pairPoint {c d : CodeUnit} (hc : isHigh c = true)
    (hd : isLow d = true) : Scalar (pairPoint c d) := by
  simp only [isHigh, isLow, decide_eq_true_eq] at hc hd
  simp only [Scalar, pairPoint]
  omega

theorem scalar_codePoints (text : Text) : ∀ p ∈ codePoints text, Scalar p := by
  fun_induction codePoints text with
  | case1 => exact nofun
  | case2 c =>
    intro p hp
    rw [mem_singleton.mp hp]
    exact scalar_lonePoint c
  | case3 c d rest hpair ih =>
    obtain ⟨hc, hd⟩ := Bool.and_eq_true_iff.mp hpair
    intro p hp
    rcases mem_cons.mp hp with rfl | hp
    · exact scalar_pairPoint hc hd
    · exact ih p hp
  | case4 c d rest hpair ih =>
    intro p hp
    rcases mem_cons.mp hp with rfl | hp
    · exact scalar_lonePoint c
    · exact ih p hp

theorem pointUnits_lonePoint (h : isSurrogate c = false) : pointUnits (lonePoint c) = [c] := by
  rw [lonePoint, h, if_neg Bool.false_ne_true, pointUnits, if_pos c.isLt, Fin.ofNat_val_eq_self]

theorem pointUnits_pairPoint {c d : CodeUnit} (hc : isHigh c = true)
    (hd : isLow d = true) : pointUnits (pairPoint c d) = [c, d] := by
  have hc' : 0xD800 ≤ c.val ∧ c.val ≤ 0xDBFF := of_decide_eq_true hc
  have hd' : 0xDC00 ≤ d.val ∧ d.val ≤ 0xDFFF := of_decide_eq_true hd
  have hhigh : 0xD800 + (pairPoint c d - 0x10000) / 0x400 = c.val := by
    rw [pairPoint]
    omega
  have hlow : 0xDC00 + (pairPoint c d - 0x10000) % 0x400 = d.val := by
    rw [pairPoint]
    omega
  rw [pointUnits, if_neg (by rw [pairPoint]; omega), hhigh, hlow,
    Fin.ofNat_val_eq_self, Fin.ofNat_val_eq_self]

theorem flatMap_codePoints (h : wellFormed text = true) :
    (codePoints text).flatMap pointUnits = text := by
  fun_induction codePoints text with
  | case1 => rfl
  | case2 c =>
    have hc : isSurrogate c = false := by simpa [wellFormed] using h
    rw [flatMap_singleton, pointUnits_lonePoint hc]
  | case3 c d rest hpair ih =>
    obtain ⟨hc, hd⟩ := Bool.and_eq_true_iff.mp hpair
    rw [wellFormed, if_pos hpair] at h
    rw [flatMap_cons, ih h, pointUnits_pairPoint hc hd]
    rfl
  | case4 c d rest hpair ih =>
    rw [wellFormed, if_neg hpair, Bool.and_eq_true, Bool.not_eq_true'] at h
    rw [flatMap_cons, ih h.2, pointUnits_lonePoint h.1]
    rfl

/-- **UTF-8 LOSES NOTHING** of a text without lone surrogates. -/
theorem decode_encode (h : wellFormed text = true) : decode (encode text) = text := by
  rw [decode, encode, decodePoints_flatMap (scalar_codePoints text), flatMap_codePoints h]

/-! ## Bytes and ASCII -/

theorem encode_lt (text : Text) : ∀ b ∈ encode text, b < 256 := by
  intro b hb
  obtain ⟨p, hp, hb⟩ := mem_flatMap.mp hb
  have hscalar := scalar_codePoints text p hp
  have hp : p < 0x110000 := by
    rcases hscalar with h | h <;> omega
  rw [encodePoint] at hb
  split at hb
  · rw [mem_singleton.mp hb]
    omega
  split at hb
  · simp only [mem_cons, not_mem_nil, or_false] at hb
    omega
  split at hb
  · simp only [mem_cons, not_mem_nil, or_false] at hb
    omega
  simp only [mem_cons, not_mem_nil, or_false] at hb
  omega

theorem isLow_of_lt (h : c.val < 0xD800) : isLow c = false := by
  refine decide_eq_false ?_
  omega

theorem isHigh_of_lt (h : c.val < 0xD800) : isHigh c = false := by
  refine decide_eq_false ?_
  omega

/-- An ASCII unit is its own byte. -/
theorem encode_cons (h : c.val < 0x80) (text : Text) :
    encode (c :: text) = c.val :: encode text := by
  have hlone : lonePoint c = c.val := by
    have hsur : isSurrogate c = false := by
      rw [isSurrogate, isHigh_of_lt (by omega), isLow_of_lt (by omega)]
      rfl
    rw [lonePoint, hsur, if_neg Bool.false_ne_true]
  have hpoints : codePoints (c :: text) = c.val :: codePoints text := by
    cases text with
    | nil => exact congrArg ([·]) hlone
    | cons d rest =>
      rw [codePoints, isHigh_of_lt (by omega), Bool.false_and, if_neg Bool.false_ne_true, hlone]
  rw [encode, hpoints, flatMap_cons, encodePoint, if_pos h]
  rfl

/-- An ASCII unit cannot complete a pair, so a text is cut before it. -/
theorem encode_append (h : c.val < 0x80) (text rest : Text) :
    encode (text ++ c :: rest) = encode text ++ c.val :: encode rest := by
  have hpoints : codePoints (text ++ c :: rest) = codePoints text ++ codePoints (c :: rest) := by
    -- by the cases of the reader: one unit left, a pair, a lone unit
    fun_induction codePoints text with
    | case1 => rfl
    | case2 d =>
      show codePoints (d :: c :: rest) = _
      rw [codePoints, isLow_of_lt (by omega), Bool.and_false, if_neg Bool.false_ne_true]
      rfl
    | case3 d e tail hpair ih =>
      show codePoints (d :: e :: (tail ++ c :: rest)) = _
      rw [codePoints, if_pos hpair, ih]
      rfl
    | case4 d e tail hpair ih =>
      show codePoints (d :: e :: (tail ++ c :: rest)) = _
      rw [codePoints, if_neg hpair]
      exact congrArg (_ :: ·) ih
  rw [encode, hpoints, flatMap_append]
  exact congrArg (encode text ++ ·) (encode_cons h rest)

theorem length_encode_ascii (h : ∀ c ∈ text, c.val < 0x80) :
    (encode text).length = text.length := by
  induction text with
  | nil => rfl
  | cons c rest ih =>
    rw [encode_cons (h c (.head _)), length_cons, length_cons, ih (fun d hd => h d (.tail _ hd))]

end Utf8

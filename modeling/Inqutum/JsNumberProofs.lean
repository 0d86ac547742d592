import Mathlib.Data.Rat.Floor
import Mathlib.Algebra.Order.Field.Rat
import Mathlib.Tactic.Linarith
import Mathlib.Tactic.NormNum
import Inqutum.JsTextProofs

/-!
# Binary64 numbers, by value

A JavaScript number as its mathematical value: a finite number is the
rational it denotes (the two zeros are one), next to the two infinities
and NaN.  `binary64` rounds an exact rational to the nearest double, ties
to even, with gradual underflow and overflow to infinity, so an arithmetic
operator is the exact operation followed by `binary64`.

`toText` is `Number::toString` in radix ten: the shortest digit string
that rounds back to the number.  `ofText` is `Number(text)`: the double
nearest to what the whole text denotes, NaN if it denotes nothing.
-/

inductive JsNumber where
  | finite (value : ℚ)
  | posInf
  | negInf
  | nan
  deriving DecidableEq

namespace JsNumber

open Nat Int

instance (n : Nat) : OfNat JsNumber n := ⟨finite n⟩

def ofNat (n : Nat) : JsNumber := finite n

/-! ## Rounding -/

/-- The exponent of the leading bit of a positive rational. -/
def leadingBit (q : ℚ) : Int :=
  let guess : Int := (Nat.log2 q.num.natAbs : Int) - (Nat.log2 q.den : Int)
  if (2 : ℚ) ^ guess ≤ q then guess else guess - 1

/-- The nearest integer, ties to even. -/
def roundHalfEven (q : ℚ) : Int :=
  let below := ⌊q⌋
  let rest := q - below
  if rest < 1 / 2 then below
  else if 1 / 2 < rest then below + 1
  else if below % 2 = 0 then below
  else below + 1

/-- The double nearest to an exact value. -/
def binary64 (q : ℚ) : JsNumber :=
  if q = 0 then finite 0
  else
    let ulp : ℚ := 2 ^ (max (leadingBit |q|) (-1022) - 52)
    let rounded : ℚ := roundHalfEven (q / ulp) * ulp
    if rounded < 2 ^ (1024 : Nat) then
      if -(2 ^ (1024 : Nat)) < rounded then finite rounded else negInf
    else posInf

def isFinite : JsNumber → Bool
  | finite _ => true
  | _ => false

def isInteger : JsNumber → Bool
  | finite q => decide (q.den = 1)
  | _ => false

/-- `Number.MAX_SAFE_INTEGER`. -/
def maxSafeInteger : Int := 2 ^ 53 - 1

def isSafeInteger : JsNumber → Bool
  | finite q => decide (q.den = 1) && decide (|q| ≤ maxSafeInteger)
  | _ => false

/-- `x < 0`, false for NaN. -/
def isNegative : JsNumber → Bool
  | finite q => decide (q < 0)
  | negInf => true
  | _ => false

def add : JsNumber → JsNumber → JsNumber
  | finite a, finite b => binary64 (a + b)
  | nan, _ => nan
  | _, nan => nan
  | posInf, negInf => nan
  | negInf, posInf => nan
  | posInf, _ => posInf
  | _, posInf => posInf
  | negInf, _ => negInf
  | _, negInf => negInf

/-- `Math.round`: the nearest integer, ties towards plus infinity. -/
def round : JsNumber → JsNumber
  | finite q => finite ⌊q + 1 / 2⌋
  | x => x

/-! ## Text -/

/-- The least `n` with `q < 10 ^ n`, for a positive rational below
    `10 ^ bound`. -/
def decimalPoint (q : ℚ) : Nat → Int
  | 0 => 0
  | fuel + 1 =>
    if q < 1 then
      if 1 / 10 ≤ q then 0 else decimalPoint (q * 10) fuel - 1
    else decimalPoint (q / 10) fuel + 1

/-- `s · 10 ^ (n - k)` rounds to `q`, with at most `k` digits (or the next
    power of ten). -/
def readsBack (q : ℚ) (n : Int) (k : Nat) (s : Int) : Bool :=
  decide (0 < s) && decide (s ≤ 10 ^ k) && decide (binary64 ((s : ℚ) * 10 ^ (n - k)) = finite q)

/-- The integer next to `q / 10 ^ (n - k)` that reads back as `q`, the closer
    one if both do. -/
def digitCandidate (q : ℚ) (n : Int) (k : Nat) : Option Nat :=
  let scaled : ℚ := q / 10 ^ (n - k)
  let below := ⌊scaled⌋
  let near := if scaled - below ≤ 1 / 2 then [below, below + 1]
    else [below + 1, below]
  (near.find? (readsBack q n k)).map Int.toNat

/-- The shortest digits that read back as `q`, at most seventeen. -/
def shortestDigits (q : ℚ) (n : Int) (k : Nat) : Nat → Nat × Nat
  | 0 => (0, k)
  | fuel + 1 =>
    match digitCandidate q n k with
    | some s => (s, k)
    | none => shortestDigits q n (k + 1) fuel

/-- Decimal layout of the digits `s` (there are `k`) with the point after
    position `n`. -/
def layout (digits : List Char) (k : Nat) (n : Int) : List Char :=
  if (k : Int) ≤ n ∧ n ≤ 21 then
    digits ++ List.replicate (n.toNat - k) '0'
  else if 0 < n ∧ n ≤ 21 then
    digits.take n.toNat ++ '.' :: digits.drop n.toNat
  else if -6 < n ∧ n ≤ 0 then
    '0' :: '.' :: (List.replicate (-n).toNat '0' ++ digits)
  else
    let e := n - 1
    let exponent := (if e < 0 then '-' else '+') :: (Nat.repr e.natAbs).toList
    match digits with
    | [d] => d :: 'e' :: exponent
    | d :: rest => d :: '.' :: (rest ++ 'e' :: exponent)
    | [] => []

/-- The text of a positive finite number. -/
def positiveText (q : ℚ) : List Char :=
  let n := decimalPoint q 400
  let found := shortestDigits q n 1 17
  -- a candidate that rounded up to a power of ten carries into the exponent
  let carried := found.1 = 10 ^ found.2
  let s := if carried then found.1 / 10 else found.1
  let n' := if carried then n + 1 else n
  layout (Nat.repr s).toList found.2 n'

/-- The exact value of the text of a finite number: what a decimal reader
    makes of it. -/
def textValue (q : ℚ) : ℚ :=
  if q = 0 then 0
  else
    let n := decimalPoint |q| 400
    let found := shortestDigits |q| n 1 17
    let magnitude : ℚ := (found.1 : ℚ) * 10 ^ (n - found.2)
    if q < 0 then -magnitude else magnitude

def toText : JsNumber → String
  | finite q =>
    if q = 0 then "0"
    else if q < 0 then String.ofList ('-' :: positiveText (-q))
    else String.ofList (positiveText q)
  | posInf => "Infinity"
  | negInf => "-Infinity"
  | nan => "NaN"

/-! ## Reading text -/

def digitValue (c : Char) : Nat :=
  if c.isDigit then c.toNat - 48
  else if 'a' ≤ c ∧ c ≤ 'f' then c.toNat - 87
  else if 'A' ≤ c ∧ c ≤ 'F' then c.toNat - 55
  else 36

/-- The value of a digit string, most significant first. -/
def digitsValue (radix : Nat) (cs : List Char) : Nat :=
  cs.foldl (fun acc c => acc * radix + digitValue c) 0

/-- A non-empty text of digits of one radix. -/
def readDigits (radix : Nat) (cs : List Char) : Option Nat :=
  if !cs.isEmpty && cs.all (fun c => decide (digitValue c < radix)) then
    some (digitsValue radix cs)
  else none

/-- What follows the mantissa: nothing, or `e` and a signed integer. -/
def readExponent : List Char → Option Int
  | [] => some 0
  | c :: rest =>
    if c = 'e' ∨ c = 'E' then
      match rest with
      | '-' :: ds => (readDigits 10 ds).map (fun n => -(n : Int))
      | '+' :: ds => (readDigits 10 ds).map (fun n => (n : Int))
      | ds => (readDigits 10 ds).map (fun n => (n : Int))
    else none

/-- The exact value of an unsigned decimal literal. -/
def readDecimal (cs : List Char) : Option ℚ :=
  let whole := cs.takeWhile Char.isDigit
  let rest := cs.dropWhile Char.isDigit
  let fraction := match rest with
    | '.' :: ds => ds.takeWhile Char.isDigit
    | _ => []
  let tail := match rest with
    | '.' :: ds => ds.dropWhile Char.isDigit
    | _ => rest
  if whole.isEmpty && fraction.isEmpty then none
  else
    (readExponent tail).map (fun (e : Int) =>
      ((digitsValue 10 (whole ++ fraction) : Nat) : ℚ) * (10 : ℚ) ^ (e - (fraction.length : Int)))

def readUnsigned (cs : List Char) : JsNumber :=
  if cs = "Infinity".toList then posInf
  else
    match readDecimal cs with
    | some q => binary64 q
    | none => nan

def negate : JsNumber → JsNumber
  | finite q => finite (-q)
  | posInf => negInf
  | negInf => posInf
  | nan => nan

def readInRadix (radix : Nat) (cs : List Char) : JsNumber :=
  match readDigits radix cs with
  | some n => binary64 (n : ℚ)
  | none => nan

/-- `Number(text)`. -/
def ofText (text : String) : JsNumber :=
  match JsText.trimChars text.toList with
  | [] => finite 0
  | '+' :: cs => readUnsigned cs
  | '-' :: cs => negate (readUnsigned cs)
  | '0' :: 'x' :: cs => readInRadix 16 cs
  | '0' :: 'X' :: cs => readInRadix 16 cs
  | '0' :: 'o' :: cs => readInRadix 8 cs
  | '0' :: 'O' :: cs => readInRadix 8 cs
  | '0' :: 'b' :: cs => readInRadix 2 cs
  | '0' :: 'B' :: cs => readInRadix 2 cs
  | cs => readUnsigned cs

/-! ## Products, differences, comparisons -/

/-- The infinity of a sign. -/
def infinity (negative : Bool) : JsNumber :=
  if negative then negInf else posInf

def mul : JsNumber → JsNumber → JsNumber
  | finite a, finite b => binary64 (a * b)
  | nan, _ => nan
  | _, nan => nan
  | x, finite b => if b = 0 then nan
      else infinity (x.isNegative != decide (b < 0))
  | finite a, y => if a = 0 then nan
      else infinity (decide (a < 0) != y.isNegative)
  | x, y => infinity (x.isNegative != y.isNegative)

def sub (x y : JsNumber) : JsNumber := add x (negate y)

/-- `Math.abs`. -/
def abs : JsNumber → JsNumber
  | finite q => finite |q|
  | negInf => posInf
  | x => x

/-- `x <= y`, false for NaN. -/
def le : JsNumber → JsNumber → Bool
  | finite a, finite b => decide (a ≤ b)
  | nan, _ => false
  | _, nan => false
  | negInf, _ => true
  | _, posInf => true
  | _, _ => false

/-- `x < y`, false for NaN. -/
def lt (x y : JsNumber) : Bool := le x y && !le y x

/-- `Math.floor`. -/
def floor : JsNumber → JsNumber
  | finite q => finite ⌊q⌋
  | x => x

/-- `Math.trunc` of a finite number. -/
def trunc (q : ℚ) : Int := if q < 0 then ⌈q⌉ else ⌊q⌋

/-- The end of `items.slice(0, x)` in a list. -/
def sliceEnd (x : JsNumber) (length : Nat) : Nat :=
  match x with
  | finite q =>
    if trunc q < 0 then (length + trunc q).toNat else (trunc q).toNat
  | posInf => length
  | _ => 0

/-- `Math.min` of two numbers. -/
def mathMin (x y : JsNumber) : JsNumber :=
  if x = nan ∨ y = nan then nan else if le x y then x else y

/-- `Math.max` of two numbers. -/
def mathMax (x y : JsNumber) : JsNumber :=
  if x = nan ∨ y = nan then nan else if le x y then y else x

/-- `x / y`; a zero divisor counts as positive. -/
def div : JsNumber → JsNumber → JsNumber
  | finite a, finite b =>
    if b = 0 then if a = 0 then nan else infinity (decide (a < 0))
    else binary64 (a / b)
  | nan, _ => nan
  | _, nan => nan
  | x, finite b => infinity (x.isNegative != decide (b < 0))
  | finite _, _ => 0
  | _, _ => nan

/-- `x % y`: the remainder has the sign of the dividend. -/
def rem : JsNumber → JsNumber → JsNumber
  | finite a, finite b =>
    if b = 0 then nan
    else finite (a - b * (if a / b < 0 then ⌈a / b⌉ else ⌊a / b⌋ : Int))
  | finite a, posInf => finite a
  | finite a, negInf => finite a
  | _, _ => nan

/-- `≤` of numbers is transitive, -/
theorem le_trans {x y z : JsNumber} (hxy : le x y = true)
    (hyz : le y z = true) : le x z = true := by
  cases x <;> cases y <;> cases z <;> simp_all only [le, reduceCtorEq]
  rw [decide_eq_true_eq] at hxy hyz ⊢
  exact hxy.trans hyz

/-- and so is `<`. -/
theorem lt_trans {x y z : JsNumber} (hxy : lt x y = true)
    (hyz : lt y z = true) : lt x z = true := by
  rw [lt, Bool.and_eq_true, Bool.not_eq_true'] at hxy hyz ⊢
  refine ⟨le_trans hxy.1 hyz.1, Bool.eq_false_iff.mpr fun hzx => ?_⟩
  cases hxy.2.symm.trans (le_trans hyz.1 hzx)

/-- What lies between two numbers is a number. -/
theorem finite_of_between {x : JsNumber} {a b : ℚ}
    (hlow : lt (finite a) x = true) (hhigh : le x (finite b) = true) :
    ∃ q, x = finite q ∧ a < q ∧ q ≤ b := by
  rw [lt, Bool.and_eq_true, Bool.not_eq_true'] at hlow
  cases x with
  | finite q => exact ⟨q, rfl, lt_of_not_ge (of_decide_eq_false hlow.2), of_decide_eq_true hhigh⟩
  | posInf => cases hhigh
  | negInf => cases hlow.1
  | nan => cases hhigh

/-! ## Integers -/

theorem roundHalfEven_int (n : Int) : roundHalfEven (n : ℚ) = n := by
  rw [roundHalfEven]
  simp only [floor_intCast, sub_self]
  rw [if_pos (by norm_num)]

theorem roundHalfEven_near (q : ℚ) : |(roundHalfEven q : ℚ) - q| ≤ 1 / 2 := by
  have hbelow := Int.floor_le q
  have habove := Int.lt_floor_add_one q
  rw [abs_le, roundHalfEven]
  split
  · constructor <;> linarith
  split
  · push_cast
    constructor <;> linarith
  split
  · constructor <;> linarith
  push_cast
  constructor <;> linarith

theorem leadingBit_natCast {m : Nat} (hm : m ≠ 0) : leadingBit (m : ℚ) = Nat.log2 m := by
  have hguess : (2 : ℚ) ^ (Nat.log2 m : Int) ≤ m := by
    rw [zpow_natCast]
    exact_mod_cast log2_self_le hm
  have hone : Nat.log2 1 = 0 := by decide
  rw [leadingBit]
  simp only [Rat.num_natCast, natAbs_natCast, Rat.den_natCast, hone, ofNat_zero, sub_zero]
  rw [if_pos hguess]

theorem abs_intCast (n : Int) : |(n : ℚ)| = (n.natAbs : ℚ) := by
  rw [cast_natAbs, cast_abs]


variable {n : Int} {q : ℚ}

/-- What is at most `2 ^ 60` does not overflow. -/
theorem in_range (h : |q| ≤ 2 ^ (60 : Nat)) : q < 2 ^ (1024 : Nat) ∧ -(2 ^ (1024 : Nat)) < q := by
  have hpow : (2 : ℚ) ^ (60 : Nat) < 2 ^ (1024 : Nat) :=
    pow_lt_pow_right₀ (by norm_num) (by norm_num)
  obtain ⟨hlow, hhigh⟩ := abs_le.mp h
  exact ⟨hhigh.trans_lt hpow, (neg_lt_neg hpow).trans_le hlow⟩

theorem max_leadingBit (hn : n ≠ 0) : max (leadingBit |(n : ℚ)|) (-1022) = Nat.log2 n.natAbs := by
  rw [abs_intCast, leadingBit_natCast (natAbs_ne_zero.mpr hn)]
  omega

/-- **SAFE INTEGERS ARE EXACT**. -/
theorem binary64_safe (h : n.natAbs < 2 ^ 53) : binary64 n = finite n := by
  by_cases hn : n = 0
  · rw [hn]
    rfl
  have hbit : Nat.log2 n.natAbs ≤ 52 := by
    have := (Nat.log2_lt (Int.natAbs_ne_zero.mpr hn)).mpr h
    omega
  obtain ⟨k, hk⟩ := Nat.exists_eq_add_of_le hbit
  have hulp : ((Nat.log2 n.natAbs : Int) - 52) = -(k : Int) := by omega
  have hexact : (n : ℚ) / 2 ^ (-(k : Int)) = ((n * 2 ^ k : Int) : ℚ) := by
    rw [zpow_neg, div_inv_eq_mul, zpow_natCast]
    push_cast
    rfl
  have hround : (roundHalfEven ((n : ℚ) / 2 ^ (-(k : Int))) : ℚ) * 2 ^ (-(k : Int)) = n := by
    rw [hexact, roundHalfEven_int, ← hexact, div_mul_cancel₀ _ (zpow_ne_zero _ two_ne_zero)]
  have hrange : |(n : ℚ)| ≤ 2 ^ (60 : Nat) := by
    rw [abs_intCast]
    exact_mod_cast (h.trans (by norm_num)).le
  obtain ⟨hlt, hgt⟩ := in_range hrange
  have hne : ¬ (n : ℚ) = 0 := fun hzero => hn (by exact_mod_cast hzero)
  rw [binary64, if_neg hne, max_leadingBit hn, hulp]
  dsimp only
  rw [hround, if_pos hlt, if_pos hgt]

/-- From `2 ^ 53` on the doubles are two apart. -/
theorem binary64_wide (hlow : 2 ^ 53 ≤ n.natAbs) (hhigh : n.natAbs < 2 ^ 54) :
    ∃ r : ℚ, binary64 n = finite r ∧ 2 ^ (53 : Nat) ≤ |r| := by
  have hn : n ≠ 0 := by
    rintro rfl
    exact absurd hlow (by norm_num)
  have hbit : Nat.log2 n.natAbs = 53 := by
    have hlt := (log2_lt (natAbs_ne_zero.mpr hn)).mpr hhigh
    have hle := (le_log2 (natAbs_ne_zero.mpr hn)).mpr hlow
    omega
  have hulp : (2 : ℚ) ^ ((Nat.log2 n.natAbs : Int) - 52) = 2 := by
    rw [hbit]
    norm_num
  have hnear := roundHalfEven_near ((n : ℚ) / 2)
  have hbig : (2 : ℚ) ^ (53 : Nat) ≤ |(n : ℚ)| := by
    rw [abs_intCast]
    exact_mod_cast hlow
  have hsmall : |(n : ℚ)| < 2 ^ (54 : Nat) := by
    rw [abs_intCast]
    exact_mod_cast hhigh
  have hdiff : |(roundHalfEven ((n : ℚ) / 2) : ℚ) * 2 - n| ≤ 1 := by
    rw [abs_le] at hnear ⊢
    constructor <;> linarith [hnear.1, hnear.2]
  have hclose := abs_sub_abs_le_abs_sub (n : ℚ) ((roundHalfEven ((n : ℚ) / 2) : ℚ) * 2)
  have hfar := abs_sub_abs_le_abs_sub ((roundHalfEven ((n : ℚ) / 2) : ℚ) * 2) (n : ℚ)
  rw [abs_sub_comm] at hclose
  have hpow : (2 : ℚ) ^ (54 : Nat) + 1 ≤ 2 ^ (60 : Nat) := by norm_num
  obtain ⟨hlt, hgt⟩ := in_range (q := (roundHalfEven ((n : ℚ) / 2) : ℚ) * 2) (by linarith)
  -- an even integer above `2 ^ 53 - 1` is at least `2 ^ 53`
  have heven : (2 : ℚ) ^ (53 : Nat) ≤ |(roundHalfEven ((n : ℚ) / 2) : ℚ) * 2| := by
    have hodd : (2 : ℚ) ^ (53 : Nat) - 1 ≤ |(roundHalfEven ((n : ℚ) / 2) : ℚ) * 2| := by linarith
    generalize roundHalfEven ((n : ℚ) / 2) = k at hodd
    have hint : (2 : Int) ^ (53 : Nat) - 1 ≤ |k * 2| := by exact_mod_cast hodd
    have habs : (2 : Int) ^ (53 : Nat) ≤ |k * 2| := by
      rcases abs_cases (k * 2) with ⟨heq, -⟩ | ⟨heq, -⟩ <;> omega
    exact_mod_cast habs
  refine ⟨(roundHalfEven ((n : ℚ) / 2) : ℚ) * 2, ?_, heven⟩
  have hne : ¬ (n : ℚ) = 0 := fun hzero => hn (by exact_mod_cast hzero)
  rw [binary64, if_neg hne, max_leadingBit hn, hulp]
  dsimp only
  rw [if_pos hlt, if_pos hgt]

theorem two_zpow_leadingBit_le (hq : 0 < q) : (2 : ℚ) ^ leadingBit q ≤ q := by
  have hnum : q.num.natAbs ≠ 0 := natAbs_ne_zero.mpr (Rat.num_pos.mpr hq).ne'
  have hlow : (2 : ℚ) ^ (Nat.log2 q.num.natAbs : Int) ≤ q.num := by
    have hcast : ((q.num.natAbs : Nat) : ℚ) = q.num := by
      rw [← abs_intCast, abs_of_pos (by exact_mod_cast Rat.num_pos.mpr hq)]
    rw [zpow_natCast, ← hcast]
    exact_mod_cast log2_self_le hnum
  have hden : ((q.den : Nat) : ℚ) < 2 ^ ((Nat.log2 q.den : Int) + 1) := by
    have := (log2_lt q.den_nz).mp (lt_succ_self _)
    exact_mod_cast this
  have hpos : (0 : ℚ) < q.den := by exact_mod_cast q.den_pos
  rw [leadingBit]
  split
  · rename_i hfits
    exact hfits
  have hexp : ((Nat.log2 q.num.natAbs : Int) - Nat.log2 q.den - 1)
      = (Nat.log2 q.num.natAbs : Int) - ((Nat.log2 q.den : Int) + 1) := by
    omega
  rw [hexp, zpow_sub₀ two_ne_zero]
  calc (2 : ℚ) ^ (Nat.log2 q.num.natAbs : Int) / 2 ^ ((Nat.log2 q.den : Int) + 1)
      ≤ q.num / q.den := by gcongr
    _ = q := Rat.num_div_den q

theorem roundHalfEven_le_intCast (h : q ≤ n) : roundHalfEven q ≤ n := by
  have hfloor : ⌊q⌋ ≤ n := by exact_mod_cast (floor_le q).trans h
  by_cases heq : ⌊q⌋ = n
  · -- the floor is at the bound, so the number is the bound
    have hge : (n : ℚ) ≤ q := by
      rw [← heq]
      exact floor_le q
    rw [le_antisymm h hge, roundHalfEven_int]
  rw [roundHalfEven]
  split_ifs <;> omega

/-- Below `2 ^ 53` rounding does not cross an integer. -/
theorem binary64_le_intCast {q r : ℚ} (hsafe : |q| < 2 ^ (53 : Nat))
    (h : q ≤ n) (hr : binary64 q = finite r) : r ≤ n := by
  rw [binary64] at hr
  by_cases hzero : q = 0
  · rw [if_pos hzero, finite.injEq] at hr
    rw [← hr, ← hzero]
    exact h
  rw [if_neg hzero] at hr
  have hpos : 0 < |q| := abs_pos.mpr hzero
  have hbit : leadingBit |q| < 53 := by
    have hlt := (two_zpow_leadingBit_le hpos).trans_lt hsafe
    rw [← zpow_natCast, zpow_lt_zpow_iff_right₀ (by norm_num)] at hlt
    exact_mod_cast hlt
  obtain ⟨k, hk⟩ : ∃ k : Nat, max (leadingBit |q|) (-1022) - 52 = -(k : Int) :=
    ⟨(52 - max (leadingBit |q|) (-1022)).toNat, by omega⟩
  have hunit : (0 : ℚ) < 2 ^ (-(k : Int)) := zpow_pos two_pos _
  have hexact : (n : ℚ) / 2 ^ (-(k : Int)) = ((n * 2 ^ k : Int) : ℚ) := by
    rw [zpow_neg, div_inv_eq_mul, zpow_natCast]
    push_cast
    rfl
  have hround : roundHalfEven (q / 2 ^ (-(k : Int))) ≤ n * 2 ^ k := by
    refine roundHalfEven_le_intCast ?_
    rw [← hexact]
    exact div_le_div_of_nonneg_right h hunit.le
  have hle : (roundHalfEven (q / 2 ^ (-(k : Int))) : ℚ) * 2 ^ (-(k : Int)) ≤ n := by
    rw [← le_div_iff₀ hunit, hexact]
    exact_mod_cast hround
  rw [hk] at hr
  dsimp only at hr
  split_ifs at hr
  rw [← finite.inj hr]
  exact hle

theorem isSafeInteger_iff {x : JsNumber} : x.isSafeInteger = true
      ↔ ∃ n : Int, x = finite n ∧ |n| ≤ maxSafeInteger := by
  cases x with
  | finite q =>
    rw [isSafeInteger, Bool.and_eq_true, decide_eq_true_eq, decide_eq_true_eq]
    constructor
    · rintro ⟨hden, habs⟩
      have hint : (q.num : ℚ) = q := Rat.coe_int_num_of_den_eq_one hden
      rw [← hint] at habs
      exact ⟨q.num, by rw [hint], by exact_mod_cast habs⟩
    rintro ⟨n, heq, habs⟩
    rw [finite.inj heq]
    exact ⟨Rat.den_intCast n, by exact_mod_cast habs⟩
  | _ => exact iff_of_false nofun (fun ⟨_, h, _⟩ => nomatch h)

theorem le_abs_sub {m n : Int} (hm : |m| ≤ maxSafeInteger)
    (hn : |n| ≤ maxSafeInteger) {t : Nat} (ht : t < 2 ^ 53) :
    le (abs (sub (finite m) (finite n))) (ofNat t) = true ↔ |m - n| ≤ t := by
  have hm' : m.natAbs < 2 ^ 53 := by
    rw [maxSafeInteger, abs_eq_natAbs] at hm
    omega
  have hn' : n.natAbs < 2 ^ 53 := by
    rw [maxSafeInteger, abs_eq_natAbs] at hn
    omega
  have hsub : sub (finite m) (finite n) = binary64 ((m - n : Int) : ℚ) := by
    show binary64 ((m : ℚ) + -(n : ℚ)) = _
    push_cast
    rw [← sub_eq_add_neg]
  rw [hsub]
  by_cases hsafe : (m - n).natAbs < 2 ^ 53
  · rw [binary64_safe hsafe]
    show decide (|((m - n : Int) : ℚ)| ≤ ((t : Nat) : ℚ)) = true ↔ _
    rw [decide_eq_true_eq]
    exact_mod_cast Iff.rfl
  obtain ⟨r, hr, hbig⟩ := binary64_wide (n := m - n) (by omega) (by omega)
  rw [hr]
  show decide (|r| ≤ ((t : Nat) : ℚ)) = true ↔ _
  rw [decide_eq_true_eq]
  have hcast : ((t : Nat) : ℚ) < 2 ^ (53 : Nat) := by exact_mod_cast ht
  refine iff_of_false ?_ ?_
  · intro hle
    linarith
  rw [abs_eq_natAbs]
  omega

/-- A whole number, or infinity. -/
def IsWhole (b : JsNumber) : Prop := b.isInteger = true ∨ b = posInf

theorem succ_le_of_whole {b : JsNumber} (hb : b.IsWhole) {n : Nat}
    (h : le b (ofNat n) = false) : le (ofNat (n + 1)) b = true := by
  rcases hb with hb | rfl
  · cases b with
    | finite q =>
      have hint : (q.num : ℚ) = q := Rat.coe_int_num_of_den_eq_one (of_decide_eq_true hb)
      have hlt : ((n : Nat) : ℚ) < q := lt_of_not_ge (of_decide_eq_false h)
      have hle : ((n + 1 : Nat) : ℚ) ≤ q := by
        rw [← hint] at hlt ⊢
        have hnum : (n : Int) < q.num := by exact_mod_cast hlt
        exact_mod_cast hnum
      exact decide_eq_true hle
    | _ => cases hb
  · rfl

end JsNumber

/-- A `string | number`. -/
inductive JsScalar where
  | text (value : String)
  | number (value : JsNumber)
  deriving DecidableEq

/-- `String(value)`. -/
def JsScalar.toText : JsScalar → String
  | text value => value
  | number value => value.toText

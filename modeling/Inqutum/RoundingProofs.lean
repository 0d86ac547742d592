import Inqutum.JsNumberProofs
import Mathlib.Algebra.Order.Field.Power
import Mathlib.Tactic.Positivity
import Mathlib.Tactic.Ring

/-!
# How far rounding moves a number

`binary64` looks for the leading bit of a rational, scales by the unit in
the last place and rounds to an integer.  Below `2 ^ e` it moves a number
by at most `2 ^ (e - 54)` (`binary64_near`); from `2 ^ e` on its results
are multiples of `2 ^ (e - 52)` and none falls below `2 ^ e`
(`binary64_grid`).  What it gives is a double, which it leaves alone
(`binary64_idem`); a double adds to zero without a change.
-/

namespace JsNumber

open Nat Int

variable {q : ℚ} {e : Int} {r : ℚ} {n : Int}

/-- A positive number lies between its leading bit and the next. -/
theorem leadingBit_spec (hq : 0 < q) : (2 : ℚ) ^ leadingBit q ≤ q ∧ q < 2 ^ (leadingBit q + 1) := by
  have hnum : 0 < q.num := Rat.num_pos.mpr hq
  have habs : ((q.num.natAbs : Nat) : ℚ) = (q.num : ℚ) := by rw [cast_natAbs, abs_of_pos hnum]
  have hne : q.num.natAbs ≠ 0 := natAbs_ne_zero.mpr hnum.ne'
  have hden : (0 : ℚ) < q.den := by exact_mod_cast q.den_pos
  have hvalue : q * q.den = q.num := Rat.mul_den_eq_num q
  have hnumLow : (2 : ℚ) ^ (Nat.log2 q.num.natAbs : Int) ≤ q.num := by
    rw [← habs, zpow_natCast]
    exact_mod_cast log2_self_le hne
  have hnumHigh : (q.num : ℚ) < 2 ^ ((Nat.log2 q.num.natAbs : Int) + 1) := by
    rw [← habs, ← cast_succ, zpow_natCast]
    exact_mod_cast lt_log2_self
  have hdenLow : (2 : ℚ) ^ (Nat.log2 q.den : Int) ≤ q.den := by
    rw [zpow_natCast]
    exact_mod_cast log2_self_le q.den_nz
  have hdenHigh : (q.den : ℚ) < 2 ^ ((Nat.log2 q.den : Int) + 1) := by
    rw [← cast_succ, zpow_natCast]
    exact_mod_cast lt_log2_self
  have hhigh : q < 2 ^ ((Nat.log2 q.num.natAbs : Int) - Nat.log2 q.den + 1) := by
    by_contra hle
    rw [not_lt] at hle
    have hprod := mul_le_mul hle hdenLow (by positivity) hq.le
    rw [← zpow_add₀ two_ne_zero, hvalue] at hprod
    have hexp : (Nat.log2 q.num.natAbs : Int) - Nat.log2 q.den + 1
        + Nat.log2 q.den = Nat.log2 q.num.natAbs + 1 := by ring
    rw [hexp] at hprod
    exact absurd hnumHigh (not_lt.mpr hprod)
  have hlow : (2 : ℚ) ^ ((Nat.log2 q.num.natAbs : Int) - Nat.log2 q.den - 1) ≤ q := by
    by_contra hlt
    rw [not_le] at hlt
    have hprod := mul_lt_mul hlt hdenHigh.le hden (by positivity)
    rw [← zpow_add₀ two_ne_zero, hvalue] at hprod
    have hexp : (Nat.log2 q.num.natAbs : Int) - Nat.log2 q.den - 1
        + (Nat.log2 q.den + 1) = Nat.log2 q.num.natAbs := by ring
    rw [hexp] at hprod
    exact absurd hnumLow (not_le.mpr hprod)
  rw [leadingBit]
  split
  · rename_i hguess
    exact ⟨hguess, hhigh⟩
  rename_i hguess
  refine ⟨hlow, ?_⟩
  rw [sub_add_cancel]
  exact not_le.mp hguess

theorem leadingBit_lt (hq : 0 < q) (h : q < 2 ^ e) : leadingBit q < e :=
  (zpow_lt_zpow_iff_right₀ one_lt_two).mp ((leadingBit_spec hq).1.trans_lt h)

theorem le_leadingBit (hq : 0 < q) (h : (2 : ℚ) ^ e ≤ q) : e ≤ leadingBit q := by
  have hlt := (zpow_lt_zpow_iff_right₀ (one_lt_two (α := ℚ))).mp (h.trans_lt (leadingBit_spec hq).2)
  omega

/-- No integer below a number is above its rounding, -/
theorem le_roundHalfEven (h : (n : ℚ) ≤ q) : n ≤ roundHalfEven q := by
  have hfloor : n ≤ ⌊q⌋ := le_floor.mpr h
  rw [roundHalfEven]
  split
  · exact hfloor
  split
  · omega
  split
  · exact hfloor
  · omega

/-- and none above it below. -/
theorem roundHalfEven_le (h : q ≤ n) : roundHalfEven q ≤ n := by
  have hround := roundHalfEven_near q
  rw [abs_le] at hround
  have hlt : (roundHalfEven q : ℚ) < n + 1 := by linarith [hround.2]
  have hint : roundHalfEven q < n + 1 := by exact_mod_cast hlt
  omega

/-! ## Rounding to a double -/

/-- **NEAR**: below `2 ^ e` a number moves by at most `2 ^ (e - 54)`. -/
theorem binary64_near (hq : q ≠ 0) (hlow : -1021 ≤ e) (hhigh : e ≤ 59) (h : |q| < 2 ^ e) :
    ∃ d : ℚ, binary64 q = finite d ∧ |d - q| ≤ 2 ^ (e - 54) := by
  have hbit := leadingBit_lt (abs_pos.mpr hq) h
  generalize hL : max (leadingBit |q|) (-1022) = L
  have hLe : L ≤ e - 1 := by omega
  have hulp : (0 : ℚ) < 2 ^ (L - 52) := by positivity
  have hnear := roundHalfEven_near (q / 2 ^ (L - 52))
  have herror : |(roundHalfEven (q / 2 ^ (L - 52)) : ℚ) * 2 ^ (L - 52) - q| ≤ 2 ^ (e - 54) := by
    have hfactor : (roundHalfEven (q / 2 ^ (L - 52)) : ℚ) * 2 ^ (L - 52) - q
        = (roundHalfEven (q / 2 ^ (L - 52)) - q / 2 ^ (L - 52)) * 2 ^ (L - 52) := by
      rw [sub_mul, div_mul_cancel₀ _ hulp.ne']
    calc |(roundHalfEven (q / 2 ^ (L - 52)) : ℚ) * 2 ^ (L - 52) - q|
        = |(roundHalfEven (q / 2 ^ (L - 52)) : ℚ) - q / 2 ^ (L - 52)|
            * 2 ^ (L - 52) := by rw [hfactor, abs_mul, abs_of_pos hulp]
      _ ≤ 1 / 2 * 2 ^ (L - 52) := mul_le_mul_of_nonneg_right hnear hulp.le
      _ = 2 ^ (L - 53) := by
          rw [show L - 52 = L - 53 + 1 by ring, zpow_add_one₀ two_ne_zero]
          ring
      _ ≤ 2 ^ (e - 54) := zpow_le_zpow_right₀ one_le_two (by omega)
  have hsmall : (2 : ℚ) ^ e ≤ 2 ^ (59 : Int) := zpow_le_zpow_right₀ one_le_two hhigh
  have hstep : (2 : ℚ) ^ (e - 54) ≤ 2 ^ (5 : Int) := zpow_le_zpow_right₀ one_le_two (by omega)
  obtain ⟨hlt, hgt⟩ := in_range (q := (roundHalfEven (q / 2 ^ (L - 52)) : ℚ) * 2 ^ (L - 52)) (by
      have hpow : (2 : ℚ) ^ (59 : Int) + 2 ^ (5 : Int) ≤ 2 ^ (60 : Nat) := by norm_num
      obtain ⟨h₁, h₂⟩ := abs_lt.mp h
      rw [abs_le] at herror ⊢
      constructor <;> linarith [herror.1, herror.2])
  refine ⟨_, ?_, herror⟩
  rw [binary64, if_neg hq, hL]
  dsimp only
  rw [if_pos hlt, if_pos hgt]

/-- What a positive number is rounded to, before the range is checked. -/
theorem binary64_pos (hq : 0 < q) : ∃ L : Int, L = max (leadingBit q) (-1022) ∧
      binary64 q = if (roundHalfEven (q / 2 ^ (L - 52)) : ℚ) * 2 ^ (L - 52) < 2 ^ (1024 : Nat) then
          finite (roundHalfEven (q / 2 ^ (L - 52)) * 2 ^ (L - 52)) else posInf := by
  refine ⟨_, rfl, ?_⟩
  have hnonneg : (0 : ℚ) ≤ roundHalfEven (q / 2 ^ (max (leadingBit q) (-1022) - 52))
      * 2 ^ (max (leadingBit q) (-1022) - 52) := by
    have hround : 0 ≤ roundHalfEven (q / 2 ^ (max (leadingBit q) (-1022) - 52)) :=
      le_roundHalfEven (by rw [Int.cast_zero]; positivity)
    have hcast : (0 : ℚ) ≤ roundHalfEven
        (q / 2 ^ (max (leadingBit q) (-1022) - 52)) := by exact_mod_cast hround
    positivity
  have hgt : -(2 ^ (1024 : Nat) : ℚ) < roundHalfEven (q / 2 ^ (max (leadingBit q) (-1022) - 52))
      * 2 ^ (max (leadingBit q) (-1022) - 52) :=
    (neg_lt_zero.mpr (by positivity)).trans_le hnonneg
  rw [binary64, if_neg hq.ne', abs_of_pos hq]
  dsimp only
  rw [if_pos hgt]

/-- **GRID**: from `2 ^ e` on the results are multiples of `2 ^ (e - 52)`, and
    none falls below `2 ^ e`. -/
theorem binary64_grid (hlow : -1022 ≤ e) (h : (2 : ℚ) ^ e ≤ q) :
    binary64 q = posInf ∨ ∃ m : Int, binary64 q = finite (m * 2 ^ (e - 52))
      ∧ (2 : ℚ) ^ e ≤ m * 2 ^ (e - 52) := by
  have hq : 0 < q := (by positivity : (0 : ℚ) < 2 ^ e).trans_le h
  obtain ⟨L, hL, hround⟩ := binary64_pos hq
  have hbit := le_leadingBit hq h
  obtain ⟨k, hk⟩ : ∃ k : Nat, L = e + k := ⟨(L - e).toNat, by omega⟩
  have hscale : (2 : ℚ) ^ (L - 52) = 2 ^ k * 2 ^ (e - 52) := by
    rw [hk, ← zpow_natCast, ← zpow_add₀ two_ne_zero]
    congr 1
    ring
  rw [hround]
  split
  · right
    refine ⟨roundHalfEven (q / 2 ^ (L - 52)) * 2 ^ k, ?_, ?_⟩
    · rw [hscale]
      push_cast
      rw [mul_assoc]
    have hleading : (2 : ℚ) ^ L ≤ q := by
      rcases max_choice (leadingBit q) (-1022) with hmax | hmax
      · rw [hL, hmax]
        exact (leadingBit_spec hq).1
      have heq : L = e := by omega
      rw [heq]
      exact h
    have hpower : ((2 ^ (52 : Nat) : Int) : ℚ) * 2 ^ (L - 52) = 2 ^ L := by
      have hcast : ((2 ^ (52 : Nat) : Int) : ℚ) = 2 ^ (52 : Int) := by norm_num
      rw [hcast, ← zpow_add₀ two_ne_zero, add_sub_cancel]
    have hmantissa : ((2 ^ (52 : Nat) : Int) : ℚ) ≤ q / 2 ^ (L - 52) := by
      rw [le_div_iff₀ (by positivity), hpower]
      exact hleading
    have hint : ((2 ^ (52 : Nat) : Int) : ℚ) ≤ roundHalfEven (q / 2 ^ (L - 52)) := by
      exact_mod_cast le_roundHalfEven hmantissa
    calc (2 : ℚ) ^ e ≤ 2 ^ L := zpow_le_zpow_right₀ one_le_two (by omega)
      _ = ((2 ^ (52 : Nat) : Int) : ℚ) * 2 ^ (L - 52) := hpower.symm
      _ ≤ roundHalfEven (q / 2 ^ (L - 52)) * 2 ^ (L - 52) :=
          mul_le_mul_of_nonneg_right hint (by positivity)
      _ = _ := by
          rw [hscale]
          push_cast
          rw [mul_assoc]
  · exact .inl rfl

/-! ## Doubles -/

/-- The value is a multiple of the unit in the last place of binade `L`. -/
def OnGrid (L : Int) (r : ℚ) : Prop := ∃ m : Int, r = m * 2 ^ (L - 52)

theorem OnGrid.weaken {L L' : Int} (h : OnGrid L r) (hle : L' ≤ L) : OnGrid L' r := by
  obtain ⟨m, rfl⟩ := h
  refine ⟨m * 2 ^ (L - L').toNat, ?_⟩
  push_cast
  rw [mul_assoc, ← zpow_natCast, ← zpow_add₀ two_ne_zero]
  congr 2
  omega

theorem leadingBit_mono {q r : ℚ} (hq : 0 < q) (h : q ≤ r) : leadingBit q ≤ leadingBit r := by
  have hr : 0 < r := hq.trans_le h
  have := leadingBit_lt hq (h.trans_lt (leadingBit_spec hr).2)
  omega

theorem onGrid_of_double (hr : 0 < r) (h : binary64 r = finite r) :
    OnGrid (max (leadingBit r) (-1022)) r ∧ r < 2 ^ (1024 : Nat) := by
  obtain ⟨L, rfl, hround⟩ := binary64_pos hr
  rw [hround] at h
  split at h
  · rename_i hlt
    have hval := JsNumber.finite.inj h
    rw [hval] at hlt
    exact ⟨⟨_, hval.symm⟩, hlt⟩
  · cases h

/-- **ROUNDING STAYS BELOW A DOUBLE**. -/
theorem binary64_le {q r : ℚ} (hq : 0 < q) (hr : binary64 r = finite r)
    (h : q ≤ r) : ∃ d, binary64 q = finite d ∧ d ≤ r := by
  obtain ⟨hgrid, hsmall⟩ := onGrid_of_double (hq.trans_le h) hr
  obtain ⟨L, rfl, hround⟩ := binary64_pos hq
  have hmono := leadingBit_mono hq h
  obtain ⟨n, hn⟩ := hgrid.weaken
    (show max (leadingBit q) (-1022) ≤ max (leadingBit r) (-1022) by omega)
  have hulp : (0 : ℚ) < 2 ^ (max (leadingBit q) (-1022) - 52) := by positivity
  have hle : q / 2 ^ (max (leadingBit q) (-1022) - 52) ≤ n := by
    rw [div_le_iff₀ hulp, ← hn]
    exact h
  have hint : (roundHalfEven (q / 2 ^ (max (leadingBit q) (-1022) - 52)) : ℚ)
      ≤ n := by exact_mod_cast roundHalfEven_le hle
  have hbound := mul_le_mul_of_nonneg_right hint hulp.le
  rw [← hn] at hbound
  rw [hround, if_pos (hbound.trans_lt hsmall)]
  exact ⟨_, rfl, hbound⟩

/-- **ROUNDING STAYS ABOVE A DOUBLE**. -/
theorem le_binary64 {k q : ℚ} (hk : 0 < k) (hdouble : binary64 k = finite k)
    (h : k ≤ q) : JsNumber.le (finite k) (binary64 q) = true := by
  have hq : 0 < q := hk.trans_le h
  obtain ⟨hgrid, -⟩ := onGrid_of_double hk hdouble
  have hmono := leadingBit_mono hk h
  have hle : ∀ {d : ℚ}, k ≤ d → JsNumber.le (finite k) (finite d) = true := by
    intro d hd
    rw [JsNumber.le, decide_eq_true_eq]
    exact hd
  by_cases hsame : max (leadingBit q) (-1022) ≤ max (leadingBit k) (-1022)
  · -- both lie on one grid
    obtain ⟨L, rfl, hround⟩ := binary64_pos hq
    obtain ⟨n, hn⟩ := hgrid.weaken hsame
    have hulp : (0 : ℚ) < 2 ^ (max (leadingBit q) (-1022) - 52) := by positivity
    have hdiv : (n : ℚ) ≤ q / 2 ^ (max (leadingBit q) (-1022) - 52) := by
      rw [le_div_iff₀ hulp, ← hn]
      exact h
    have hint : (n : ℚ) ≤ roundHalfEven (q / 2 ^ (max (leadingBit q) (-1022) - 52)) := by
      exact_mod_cast le_roundHalfEven hdiv
    have hbound := mul_le_mul_of_nonneg_right hint hulp.le
    rw [← hn] at hbound
    rw [hround]
    split
    · exact hle hbound
    · rfl
  · -- a power of two lies between
    have hbelow : k < 2 ^ leadingBit q :=
      (leadingBit_spec hk).2.trans_le (zpow_le_zpow_right₀ one_le_two (by omega))
    rcases binary64_grid (show -1022 ≤ leadingBit q by omega)
        (leadingBit_spec hq).1 with hinf | ⟨m, hm, hge⟩
    · rw [hinf]
      rfl
    rw [hm]
    exact hle (hbelow.le.trans hge)

theorem double_of_onGrid (hr : r ≠ 0) (hgrid : OnGrid (max (leadingBit |r|) (-1022)) r)
    (hlt : r < 2 ^ (1024 : Nat)) (hgt : -(2 ^ (1024 : Nat)) < r) : binary64 r = finite r := by
  obtain ⟨m, hm⟩ := hgrid
  have hulp : (0 : ℚ) < 2 ^ (max (leadingBit |r|) (-1022) - 52) := by positivity
  have hdiv : r / 2 ^ (max (leadingBit |r|) (-1022) - 52) = m := by rw [div_eq_iff hulp.ne', ← hm]
  rw [binary64, if_neg hr]
  simp only [hdiv, roundHalfEven_int, ← hm]
  rw [if_pos hlt, if_pos hgt]

theorem mantissa_le (hq : q ≠ 0) {L : Int} (hL : max (leadingBit |q|) (-1022) = L) :
    |roundHalfEven (q / 2 ^ (L - 52))| ≤ 2 ^ 53 := by
  have hulp : (0 : ℚ) < 2 ^ (L - 52) := by positivity
  have hsize : |q / 2 ^ (L - 52)| < 2 ^ 53 := by
    rw [abs_div, abs_of_pos hulp, div_lt_iff₀ hulp]
    have hspec := (leadingBit_spec (abs_pos.mpr hq)).2
    have hpow : (2 : ℚ) ^ (leadingBit |q| + 1) ≤ 2 ^ (L + 1) :=
      zpow_le_zpow_right₀ one_le_two (by omega)
    have hscale : (2 : ℚ) ^ 53 * 2 ^ (L - 52) = 2 ^ (L + 1) := by
      rw [← zpow_natCast, ← zpow_add₀ two_ne_zero]
      congr 1
      push_cast
      ring
    rw [hscale]
    exact hspec.trans_le hpow
  have hnear := roundHalfEven_near (q / 2 ^ (L - 52))
  have hlt : |(roundHalfEven (q / 2 ^ (L - 52)) : ℚ)| < 2 ^ 53 + 1 := by
    rw [abs_le] at hnear
    rw [abs_lt] at hsize ⊢
    constructor <;> linarith [hnear.1, hnear.2, hsize.1, hsize.2]
  have hint : |roundHalfEven (q / 2 ^ (L - 52))| < 2 ^ 53 + 1 := by exact_mod_cast hlt
  omega

theorem onGrid_rounded {m L : Int} (hr : r ≠ 0) (hlow : -1022 ≤ L)
    (hbits : |m| ≤ 2 ^ 53) (hval : r = m * 2 ^ (L - 52)) :
    OnGrid (max (leadingBit |r|) (-1022)) r := by
  have hulp : (0 : ℚ) < 2 ^ (L - 52) := by positivity
  have habs : |r| = (|m| : Int) * 2 ^ (L - 52) := by
    rw [hval, abs_mul, abs_of_pos hulp, cast_abs]
  have hscale : ((2 ^ 53 : Int) : ℚ) * 2 ^ (L - 52) = 2 ^ (L + 1) := by
    have hcast : ((2 ^ 53 : Int) : ℚ) = 2 ^ (53 : Int) := by norm_num
    rw [hcast, ← zpow_add₀ two_ne_zero]
    congr 1
    ring
  rcases hbits.lt_or_eq with hlt | heq
  · have hsmall : |r| < 2 ^ (L + 1) := by
      rw [habs, ← hscale]
      exact mul_lt_mul_of_pos_right (by exact_mod_cast hlt) hulp
    have hbit := leadingBit_lt (abs_pos.mpr hr) hsmall
    exact OnGrid.weaken ⟨m, hval⟩ (by omega)
  -- the value is a power of two, the first of the next binade
  have hpower : |r| < 2 ^ (L + 2) := by
    rw [habs, heq, hscale]
    exact zpow_lt_zpow_right₀ one_lt_two (by omega)
  have hbit := leadingBit_lt (abs_pos.mpr hr) hpower
  have hnext : OnGrid (L + 1) r := by
    obtain ⟨n, hn⟩ : ∃ n : Int, m = 2 * n := by
      rcases abs_choice m with h | h
      · exact ⟨2 ^ 52, by omega⟩
      · exact ⟨-2 ^ 52, by omega⟩
    refine ⟨n, ?_⟩
    rw [hval, hn, show L + 1 - 52 = L - 52 + 1 by ring, zpow_add_one₀ two_ne_zero]
    push_cast
    ring
  exact hnext.weaken (by omega)

/-- **ROUNDING IS IDEMPOTENT**. -/
theorem binary64_idem {q r : ℚ} (h : binary64 q = finite r) : binary64 r = finite r := by
  by_cases hq : q = 0
  · rw [hq] at h
    rw [← JsNumber.finite.inj h]
    rfl
  rw [binary64, if_neg hq] at h
  dsimp only at h
  split at h
  · split at h
    · rename_i hlt hgt
      generalize hL : max (leadingBit |q|) (-1022) = L at h hlt hgt
      have hbits := mantissa_le hq hL
      generalize roundHalfEven (q / 2 ^ (L - 52)) = m at h hlt hgt hbits
      have hval := JsNumber.finite.inj h
      rw [hval] at hlt hgt
      by_cases hr : r = 0
      · rw [hr]
        rfl
      refine double_of_onGrid hr ?_ hlt hgt
      exact onGrid_rounded hr (by omega) hbits hval.symm
    · cases h
  · cases h

/-! ## Doubles -/

/-- A number of the language: a finite one is a rational that rounding leaves
    alone. -/
def isDouble : JsNumber → Bool
  | finite q => decide (binary64 q = finite q)
  | _ => true

theorem isDouble_binary64 (q : ℚ) : (binary64 q).isDouble = true := by
  cases h : binary64 q with
  | finite r => exact decide_eq_true (binary64_idem h)
  | _ => rfl

theorem isDouble_add (x y : JsNumber) : (add x y).isDouble = true := by
  cases x <;> cases y <;> first | exact isDouble_binary64 _ | rfl

theorem isDouble_div (x y : JsNumber) : (div x y).isDouble = true := by
  have hinfinity : ∀ b, (infinity b).isDouble = true := by
    intro b
    cases b <;> rfl
  cases x with
  | finite a =>
    cases y with
    | finite b =>
      rw [div]
      split
      · split
        · rfl
        · exact hinfinity _
      · exact isDouble_binary64 _
    | nan => rfl
    | _ =>
      show isDouble 0 = true
      decide +kernel
  | nan => rfl
  | _ =>
    cases y with
    | finite b => exact hinfinity _
    | _ => rfl

variable {x : JsNumber}

theorem add_zero (h : x.isDouble = true) : add x 0 = x := by
  cases x with
  | finite q =>
    show binary64 (q + ((0 : Nat) : ℚ)) = finite q
    rw [Nat.cast_zero, Rat.add_zero]
    exact of_decide_eq_true h
  | _ => rfl

theorem zero_add (h : x.isDouble = true) : add 0 x = x := by
  cases x with
  | finite q =>
    show binary64 (((0 : Nat) : ℚ) + q) = finite q
    rw [Nat.cast_zero, Rat.zero_add]
    exact of_decide_eq_true h
  | _ => rfl

/-- **FLOORS ARE DOUBLES**: from `2 ^ 52` on a double is an integer. -/
theorem isDouble_floor (h : x.isDouble = true)
    (hnonneg : le 0 x = true) : (floor x).isDouble = true := by
  cases x with
  | finite q =>
    have hdouble : binary64 q = finite q := of_decide_eq_true h
    have hq : 0 ≤ q := by
      have := of_decide_eq_true hnonneg
      rwa [Nat.cast_zero] at this
    by_cases hsmall : q < 2 ^ (53 : Nat)
    · have hlow : 0 ≤ ⌊q⌋ := Int.floor_nonneg.mpr hq
      have hhigh : ⌊q⌋ < 2 ^ 53 := by
        rw [Int.floor_lt]
        exact_mod_cast hsmall
      exact decide_eq_true (binary64_safe (by omega))
    have hlarge : (2 : ℚ) ^ (53 : Int) ≤ q := by
      rw [show (53 : Int) = ((53 : Nat) : Int) from rfl, zpow_natCast]
      exact not_lt.mp hsmall
    have hpos : 0 < q := lt_of_lt_of_le (by positivity) hlarge
    have hbit := le_leadingBit hpos hlarge
    -- the unit in the last place is at least one
    obtain ⟨m, hm⟩ := (onGrid_of_double hpos hdouble).1.weaken
      (show (52 : Int) ≤ max (leadingBit q) (-1022) by omega)
    have hint : q = (m : ℚ) := by rw [hm, sub_self, zpow_zero, mul_one]
    show (floor (finite q)).isDouble = true
    rw [floor, hint, floor_intCast, ← hint]
    exact h
  | _ => exact h

/-- One more is no less, and at least one. -/
theorem le_add_one (h : x.isDouble = true) (hnonneg : le 0 x = true) :
    le x (add x 1) = true ∧ le 1 (add x 1) = true := by
  cases x with
  | finite q =>
    have hdouble : binary64 q = finite q := of_decide_eq_true h
    have hq : 0 ≤ q := by
      have := of_decide_eq_true hnonneg
      rwa [Nat.cast_zero] at this
    have hone : le 1 (add (finite q) 1) = true := by
      show le (finite ((1 : Nat) : ℚ)) (binary64 (q + ((1 : Nat) : ℚ))) = true
      refine le_binary64 (by norm_num) (by decide +kernel) ?_
      rw [Nat.cast_one]
      linarith
    refine ⟨?_, hone⟩
    rcases hq.eq_or_lt with rfl | hpos
    · exact le_trans (show le (finite 0) 1 = true by decide +kernel) hone
    show le (finite q) (binary64 (q + ((1 : Nat) : ℚ))) = true
    refine le_binary64 hpos hdouble ?_
    rw [Nat.cast_one]
    linarith
  | posInf => exact ⟨rfl, rfl⟩
  | negInf => cases hnonneg
  | nan => cases hnonneg

theorem mathMin_cases (x y : JsNumber) : mathMin x y = nan ∨ mathMin x y = x ∨ mathMin x y = y := by
  rw [mathMin]
  split
  · exact .inl rfl
  split
  · exact .inr (.inl rfl)
  · exact .inr (.inr rfl)

theorem le_self (h : x ≠ nan) : le x x = true := by
  cases x with
  | finite q => exact decide_eq_true (le_refl q)
  | nan => exact absurd rfl h
  | _ => rfl

/-- A minimum that is a number is below its second argument. -/
theorem mathMin_le_right {x y : JsNumber} (h : mathMin x y ≠ nan) : le (mathMin x y) y = true := by
  rw [mathMin] at h ⊢
  split at h
  · exact absurd rfl h
  rename_i hnan
  rw [if_neg hnan]
  split
  · assumption
  · exact le_self (fun hy => hnan (.inr hy))

theorem le_mathMin {k x y : JsNumber} (hx : le k x = true)
    (hy : le k y = true) : le k (mathMin x y) = true := by
  have hnan : ∀ {z : JsNumber}, le k z = true → z ≠ nan := by
    rintro z hz rfl
    cases k <;> cases hz
  rw [mathMin, if_neg (fun h => h.elim (hnan hx) (hnan hy))]
  split
  · exact hx
  · exact hy

/-- A JavaScript number, with the proof that it is one. -/
structure Double where
  value : JsNumber
  isDouble : value.isDouble = true

/-- The double nearest to a rational. -/
def Double.near (q : ℚ) : Double := ⟨binary64 q, isDouble_binary64 q⟩

instance (n : Nat) : OfNat Double n := ⟨Double.near n⟩

/-- **RELATIVE ERROR**: a double is above its number by no more than the
    number's own share of `2 ^ -53`. -/
theorem binary64_le_rel (hlow : 2 ^ (-100 : Int) ≤ q) (hhigh : q < 2 ^ (58 : Int)) :
    ∃ d : ℚ, binary64 q = finite d ∧ d ≤ q * (1 + 2 ^ (-53 : Int)) := by
  have hq : 0 < q := (show (0 : ℚ) < 2 ^ (-100 : Int) by norm_num).trans_le hlow
  obtain ⟨hbelow, habove⟩ := leadingBit_spec hq
  have hleast : -100 < leadingBit q + 1 :=
    (zpow_lt_zpow_iff_right₀ (by norm_num)).mp (hlow.trans_lt habove)
  have hmost : leadingBit q < 58 :=
    (zpow_lt_zpow_iff_right₀ (by norm_num)).mp (hbelow.trans_lt hhigh)
  obtain ⟨d, hd, hnear⟩ := binary64_near hq.ne' (e := leadingBit q + 1) (by omega) (by omega)
    (by rwa [abs_of_pos hq])
  refine ⟨d, hd, ?_⟩
  have hstep : (2 : ℚ) ^ (leadingBit q + 1 - 54) ≤ q * 2 ^ (-53 : Int) := by
    rw [show leadingBit q + 1 - 54 = leadingBit q + -53 by ring, zpow_add₀ (by norm_num)]
    exact mul_le_mul_of_nonneg_right hbelow (by positivity)
  linarith [(abs_le.mp hnear).2]

end JsNumber

import Inqutum.RoundingProofs

/-!
# Rounding keeps the order

A larger number is never rounded to a smaller double (`binary64_mono`).
In one binade this is the order of the mantissas; between two binades
stands a power of two, which is a double.  Negative numbers follow by
symmetry.

What is rounded or compared keeps the order with it: a sum with a fixed
addend, a quotient by a positive number, the floor and the minimum with a
fixed bound.
-/

namespace JsNumber

open Int

variable {x y : JsNumber} {q r : ℚ}

/-- Rounding keeps the order, -/
theorem roundHalfEven_mono (h : q ≤ r) : roundHalfEven q ≤ roundHalfEven r := by
  rcases (floor_mono h).lt_or_eq with hlt | heq
  · -- an integer stands between them
    have hcast : (⌊q⌋ + 1 : Int) ≤ ⌊r⌋ := hlt
    have hlow : q ≤ ((⌊q⌋ + 1 : Int) : ℚ) := by
      push_cast
      exact (lt_floor_add_one q).le
    have hhigh : ((⌊q⌋ + 1 : Int) : ℚ) ≤ r :=
      (show ((⌊q⌋ + 1 : Int) : ℚ) ≤ ⌊r⌋ by exact_mod_cast hcast).trans (floor_le r)
    exact (roundHalfEven_le hlow).trans (le_roundHalfEven hhigh)
  · -- the larger one has the larger rest
    have hrest : q - ⌊q⌋ ≤ r - ⌊q⌋ := by linarith
    simp only [roundHalfEven, ← heq]
    split_ifs <;> first | omega | linarith

/-- and the sign. -/
theorem roundHalfEven_neg (q : ℚ) : roundHalfEven (-q) = -roundHalfEven q := by
  by_cases hint : q = ⌊q⌋
  · rw [hint, ← cast_neg, roundHalfEven_int, roundHalfEven_int]
  have hpos : (⌊q⌋ : ℚ) < q := lt_of_le_of_ne (floor_le q) (Ne.symm hint)
  have hfloor : ⌊-q⌋ = -⌊q⌋ - 1 := by
    rw [floor_eq_iff]
    push_cast
    constructor
    · linarith [lt_floor_add_one q]
    · linarith
  simp only [roundHalfEven, hfloor]
  push_cast
  split_ifs <;> first | omega | linarith

/-! ## Doubles -/

theorem binary64_ne_nan (q : ℚ) : binary64 q ≠ nan := by
  rw [binary64]
  dsimp only
  split_ifs <;> exact JsNumber.noConfusion

theorem binary64_neg (q : ℚ) : binary64 (-q) = negate (binary64 q) := by
  by_cases hq : q = 0
  · rw [hq, neg_zero]
    decide +kernel
  have hpow : (0 : ℚ) < 2 ^ (1024 : Nat) := by positivity
  rw [binary64, binary64, if_neg hq, if_neg (neg_ne_zero.mpr hq), abs_neg]
  dsimp only
  rw [neg_div, roundHalfEven_neg, cast_neg, neg_mul]
  generalize (roundHalfEven (q / 2 ^ (max (leadingBit |q|) (-1022) - 52)) : ℚ)
    * 2 ^ (max (leadingBit |q|) (-1022) - 52) = d
  generalize (2 : ℚ) ^ (1024 : Nat) = bound at hpow ⊢
  by_cases hhigh : d < bound
  · by_cases hlow : -bound < d
    · rw [if_pos (by linarith), if_pos (by linarith), if_pos hhigh, if_pos hlow]
      rfl
    rw [if_neg (by linarith), if_pos hhigh, if_neg hlow]
    rfl
  rw [if_pos (by linarith), if_neg (by linarith), if_neg hhigh]
  rfl

theorem le_negate (h : le x y = true) : le (negate y) (negate x) = true := by
  cases x with
  | finite a =>
    cases y with
    | finite b => exact decide_eq_true (neg_le_neg (of_decide_eq_true h))
    | posInf => rfl
    | _ => cases h
  | negInf =>
    cases y with
    | nan => cases h
    | _ => rfl
  | posInf =>
    cases y with
    | posInf => rfl
    | _ => cases h
  | nan => cases y <;> cases h

/-- The order between positive numbers. -/
theorem binary64_mono_of_pos (hq : 0 < q) (h : q ≤ r) : le (binary64 q) (binary64 r) = true := by
  have hr : 0 < r := hq.trans_le h
  have hbits := leadingBit_mono hq h
  obtain ⟨L, hL, hround⟩ := binary64_pos hq
  obtain ⟨M, hM, hround'⟩ := binary64_pos hr
  have hulp : (0 : ℚ) < 2 ^ (L - 52) := by positivity
  rcases (show L ≤ M by omega).lt_or_eq with hlt | rfl
  · -- the power of two that starts the binade of the larger one
    have hMr : M = leadingBit r := by omega
    have hsmall : q ≤ 2 ^ M := by
      refine (leadingBit_spec hq).2.le.trans ?_
      exact zpow_le_zpow_right₀ one_le_two (by omega)
    rcases binary64_grid (e := M) (by omega) (hMr ▸ (leadingBit_spec hr).1) with hinf | ⟨m, hm, hge⟩
    · rw [hinf]
      cases hd : binary64 q with
      | nan => exact absurd hd (binary64_ne_nan q)
      | _ => rfl
    have hdouble : binary64 ((m : ℚ) * 2 ^ (M - 52)) = finite (m * 2 ^ (M - 52)) := binary64_idem hm
    obtain ⟨d, hd, hle⟩ := binary64_le hq hdouble (hsmall.trans hge)
    rw [hd, hm]
    exact decide_eq_true hle
  · have hdiv : q / 2 ^ (L - 52) ≤ r / 2 ^ (L - 52) := div_le_div_of_nonneg_right h hulp.le
    have hint : (roundHalfEven (q / 2 ^ (L - 52)) : ℚ) ≤ roundHalfEven (r / 2 ^ (L - 52)) := by
      exact_mod_cast roundHalfEven_mono hdiv
    have hbound := mul_le_mul_of_nonneg_right hint hulp.le
    rw [hround, hround']
    split_ifs with h₁ h₂
    · exact decide_eq_true hbound
    · rfl
    · exact absurd (hbound.trans_lt ‹_›) h₁
    · rfl

/-- **ROUNDING KEEPS THE ORDER**. -/
theorem binary64_mono (h : q ≤ r) : le (binary64 q) (binary64 r) = true := by
  have hzero : ∀ {p : ℚ}, 0 ≤ p → le 0 (binary64 p) = true := by
    intro p hp
    rcases hp.eq_or_lt with rfl | hpos
    · decide +kernel
    obtain ⟨L, -, hround⟩ := binary64_pos hpos
    rw [hround]
    split
    · refine decide_eq_true ?_
      have hround : 0 ≤ roundHalfEven (p / 2 ^ (L - 52)) :=
        le_roundHalfEven (by rw [cast_zero]; positivity)
      have hcast : (0 : ℚ) ≤ roundHalfEven (p / 2 ^ (L - 52)) := by exact_mod_cast hround
      rw [Nat.cast_zero]
      positivity
    · rfl
  have hnegate : ∀ {p : ℚ}, p ≤ 0 → le (binary64 p) 0 = true := by
    intro p hp
    have hle := le_negate (hzero (neg_nonneg.mpr hp))
    rw [← binary64_neg, neg_neg] at hle
    exact hle
  rcases lt_or_ge 0 q with hpos | hneg
  · exact binary64_mono_of_pos hpos h
  rcases le_or_gt 0 r with hr | hr
  · exact le_trans (hnegate hneg) (hzero hr)
  have hle := le_negate (binary64_mono_of_pos (neg_pos.mpr hr) (neg_le_neg h))
  rw [← binary64_neg, ← binary64_neg, neg_neg, neg_neg] at hle
  exact hle

/-- No whole number below a number is above its double. -/
theorem natCast_le_rounded {n : Nat} {x : ℚ} (hsafe : n < 2 ^ 53) (h : (n : ℚ) ≤ q)
    (hx : binary64 q = finite x) : (n : ℚ) ≤ x := by
  have hle : le (binary64 ((n : Nat) : Int)) (binary64 q) = true :=
    binary64_mono (by exact_mod_cast h)
  rw [hx, binary64_safe (by rwa [natAbs_natCast])] at hle
  exact_mod_cast of_decide_eq_true hle

/-- Twice a positive double is a double, or out of range. -/
theorem binary64_mul_two {r : ℚ} (hr : 0 < r) (h : binary64 r = finite r) :
    binary64 (r * 2) = finite (r * 2) ∨ binary64 (r * 2) = posInf := by
  have hpos : 0 < r * 2 := by positivity
  obtain ⟨⟨m, hm⟩, -⟩ := onGrid_of_double hr h
  have hbits : leadingBit (r * 2) < leadingBit r + 2 := by
    refine leadingBit_lt hpos ?_
    have hspec := (leadingBit_spec hr).2
    rw [show leadingBit r + 2 = leadingBit r + 1 + 1 by ring, zpow_add_one₀ two_ne_zero]
    linarith
  have hgrid : OnGrid (max (leadingBit r) (-1022) + 1) (r * 2) := by
    refine ⟨m, ?_⟩
    generalize max (leadingBit r) (-1022) = L at hm
    rw [hm, mul_assoc, ← zpow_add_one₀ two_ne_zero, show L - 52 + 1 = L + 1 - 52 by ring]
  have hown := hgrid.weaken
    (show max (leadingBit |r * 2|) (-1022) ≤ max (leadingBit r) (-1022) + 1 by
      rw [abs_of_pos hpos]
      omega)
  by_cases hsmall : r * 2 < 2 ^ (1024 : Nat)
  · have hlow : -(2 ^ (1024 : Nat)) < r * 2 := (neg_lt_zero.mpr (by positivity)).trans hpos
    exact .inl (double_of_onGrid hpos.ne' hown hsmall hlow)
  -- the mantissa is whole, so rounding does not bring the number back into range
  obtain ⟨n, hn⟩ := hown
  obtain ⟨L, rfl, hround⟩ := binary64_pos hpos
  rw [abs_of_pos hpos] at hn
  have hulp : (0 : ℚ) < 2 ^ (max (leadingBit (r * 2)) (-1022) - 52) := by positivity
  have hdiv : r * 2 / 2 ^ (max (leadingBit (r * 2)) (-1022) - 52) = n := by
    rw [div_eq_iff hulp.ne', ← hn]
  rw [hround, hdiv, roundHalfEven_int, ← hn, if_neg hsmall]
  exact .inr rfl

/-! ## What keeps the order -/

theorem le_posInf {x : JsNumber} (h : x ≠ nan) : le x posInf = true := by
  cases x with
  | nan => exact absurd rfl h
  | _ => rfl

theorem negInf_le {x : JsNumber} (h : x ≠ nan) : le negInf x = true := by
  cases x with
  | nan => exact absurd rfl h
  | _ => rfl

/-- A quotient by a positive number, by the kind of the dividend. -/
theorem div_pos {k : ℚ} (hk : 0 < k) : (∀ a, div (finite a) (finite k) = binary64 (a / k))
      ∧ div posInf (finite k) = posInf ∧ div negInf (finite k) = negInf := by
  have hsign : decide (k < 0) = false := decide_eq_false hk.not_gt
  refine ⟨fun a => ?_, ?_, ?_⟩
  · rw [div, if_neg hk.ne']
  · show infinity (false != decide (k < 0)) = posInf
    rw [hsign]
    rfl
  show infinity (true != decide (k < 0)) = negInf
  rw [hsign]
  rfl

/-- **QUOTIENTS KEEP THE ORDER**, unless infinity is divided by itself. -/
theorem div_mono {x y d : JsNumber} (hd : lt 0 d = true)
    (h : le x y = true) (hfinite : d.isFinite = true ∨ x.isFinite = true ∧ y.isFinite = true) :
    le (div x d) (div y d) = true := by
  cases d with
  | finite k =>
    have hk : 0 < k := by
      rw [lt, Bool.and_eq_true, Bool.not_eq_true'] at hd
      have hlt := not_le.mp (of_decide_eq_false hd.2)
      rwa [Nat.cast_zero] at hlt
    obtain ⟨hdiv, hpos, hneg⟩ := div_pos hk
    cases x with
    | finite a =>
      cases y with
      | finite b =>
        rw [hdiv, hdiv]
        exact binary64_mono (div_le_div_of_nonneg_right (of_decide_eq_true h) hk.le)
      | posInf =>
        rw [hdiv, hpos]
        exact le_posInf (binary64_ne_nan _)
      | _ => cases h
    | posInf =>
      cases y with
      | posInf =>
        rw [hpos]
        rfl
      | _ => cases h
    | negInf =>
      rw [hneg]
      refine negInf_le ?_
      cases y with
      | finite b => rw [hdiv]; exact binary64_ne_nan _
      | posInf => rw [hpos]; exact JsNumber.noConfusion
      | negInf => rw [hneg]; exact JsNumber.noConfusion
      | nan => cases h
    | nan => cases y <;> cases h
  | posInf =>
    obtain ⟨hx, hy⟩ := hfinite.resolve_left (by rintro ⟨⟩)
    cases x with
    | finite a =>
      cases y with
      | finite b =>
        show le (0 : JsNumber) 0 = true
        decide +kernel
      | _ => cases hy
    | _ => cases hx
  | negInf => cases hd
  | nan => cases hd

theorem floor_mono (h : le x y = true) : le (floor x) (floor y) = true := by
  cases x with
  | finite a =>
    cases y with
    | finite b =>
      refine decide_eq_true ?_
      exact_mod_cast floor_mono (of_decide_eq_true h)
    | _ => exact h
  | _ => cases y <;> exact h

/-- Numbers other than NaN are comparable. -/
theorem le_or_le (hx : x ≠ nan) (hy : y ≠ nan) : le x y = true ∨ le y x = true := by
  cases x with
  | finite a =>
    cases y with
    | finite b =>
      rcases le_total a b with h | h
      · exact .inl (decide_eq_true h)
      · exact .inr (decide_eq_true h)
    | posInf => exact .inl rfl
    | negInf => exact .inr rfl
    | nan => exact absurd rfl hy
  | posInf => exact .inr (le_posInf hy)
  | negInf => exact .inl (negInf_le hy)
  | nan => exact absurd rfl hx

theorem mathMin_le_left (h : mathMin x y ≠ nan) : le (mathMin x y) x = true := by
  rw [mathMin] at h ⊢
  split at h
  · exact absurd rfl h
  rename_i hnan
  obtain ⟨hx, hy⟩ := not_or.mp hnan
  rw [if_neg hnan]
  split
  · exact le_self hx
  rename_i hle
  exact (le_or_le hx hy).resolve_left hle

theorem mathMin_mono {x y k : JsNumber} (h : le x y = true) (hmin : mathMin x k ≠ nan) :
    le (mathMin x k) (mathMin y k) = true :=
  le_mathMin (le_trans (mathMin_le_left hmin) h) (mathMin_le_right hmin)

end JsNumber

import Inqutum.RoundingProofs
import Mathlib.Tactic.IntervalCases

/-!
# Numbers that survive their text

A number is written with the fewest digits that read back as it.  For the
double next to a decimal with seven places the digits of the decimal are a
candidate, so some digits are found, and whatever is found reads back:
`Number(String(d))` is `d` (`ofText_toText`).
-/

namespace JsNumber

open List

/-! ## Reading plain decimals -/

variable {cs : List Char} {n : Int} {q : ℚ} {k : Nat} {d : ℚ} {c : Char}

theorem digitValue_of_isDigit (h : c.isDigit = true) : digitValue c = c.toNat - 48 := if_pos h

theorem digitsValue_eq (h : ∀ c ∈ cs, c.isDigit = true) :
    digitsValue 10 cs = Nat.ofDigitChars 10 cs 0 := by
  have hfold : ∀ acc, cs.foldl (fun a c => a * 10 + digitValue c) acc
      = Nat.ofDigitChars 10 cs acc := by
    induction cs with
    | nil => exact fun acc => rfl
    | cons c rest ih =>
      intro acc
      have hrest := ih (fun d hd => h d (.tail _ hd))
      rw [foldl_cons, hrest, Nat.ofDigitChars_cons,
        digitValue_of_isDigit (h c (.head _)), Nat.mul_comm]
      rfl
  exact hfold 0

/-- The characters of a plain decimal. -/
def IsPlain (c : Char) : Prop := c.isDigit = true ∨ c = '.'

theorem IsPlain.not_isSpace (h : IsPlain c) : JsText.isSpace c = false := by
  rcases h with h | rfl
  · rw [Char.isDigit, Bool.and_eq_true, decide_eq_true_eq, decide_eq_true_eq, ge_iff_le] at h
    have hlow : 48 ≤ c.toNat := h.1
    have hhigh : c.toNat ≤ 57 := h.2
    simp [JsText.isSpace]
    omega
  · rfl

theorem ofText_plain (hne : cs ≠ []) (h : ∀ c ∈ cs, IsPlain c) :
    ofText (String.ofList cs) = readUnsigned cs := by
  have hchar : ∀ {c : Char}, c ∈ cs → (c = '+' ∨ c = '-' ∨ c = 'x' ∨ c = 'X'
      ∨ c = 'o' ∨ c = 'O' ∨ c = 'b' ∨ c = 'B') → False := by
    intro c hc hbad
    rcases h c hc with hdigit | rfl
    · rcases hbad with rfl | rfl | rfl | rfl | rfl | rfl | rfl | rfl <;> cases hdigit
    · exact absurd hbad (by decide)
  rw [ofText, String.toList_ofList, JsText.trimChars_of_no_space (fun c hc => (h c hc).not_isSpace)]
  split
  · exact absurd rfl hne
  · exact (hchar (.head _) (by decide)).elim
  · exact (hchar (.head _) (by decide)).elim
  iterate 6 exact (hchar (.tail _ (.head _)) (by decide)).elim
  · rfl

theorem takeWhile_digits {whole rest : List Char} (h : ∀ c ∈ whole, c.isDigit = true)
    (hrest : ∀ c, rest.head? = some c → c.isDigit = false) :
    (whole ++ rest).takeWhile Char.isDigit = whole
      ∧ (whole ++ rest).dropWhile Char.isDigit = rest := by
  induction whole with
  | nil =>
    cases rest with
    | nil => exact ⟨rfl, rfl⟩
    | cons c rest =>
      have hc := hrest c rfl
      exact ⟨takeWhile_cons_of_neg (by rw [hc]; decide),
        dropWhile_cons_of_neg (by rw [hc]; decide)⟩
  | cons c whole ih =>
    obtain ⟨htake, hdrop⟩ := ih (fun d hd => h d (.tail _ hd))
    have hc := h c (.head _)
    rw [cons_append, takeWhile_cons_of_pos hc, dropWhile_cons_of_pos hc, htake, hdrop]
    exact ⟨rfl, rfl⟩

theorem readDecimal_whole {whole : List Char} (hne : whole ≠ [])
    (h : ∀ c ∈ whole, c.isDigit = true) :
    readDecimal whole = some ((Nat.ofDigitChars 10 whole 0 : Nat) : ℚ) := by
  obtain ⟨htake, hdrop⟩ := @takeWhile_digits whole [] h nofun
  rw [append_nil] at htake hdrop
  rw [readDecimal, htake, hdrop]
  have hempty : whole.isEmpty = false := isEmpty_eq_false_iff.mpr hne
  simp [hempty, readExponent, digitsValue_eq h]

theorem readDecimal_point {whole fraction : List Char} (hne : whole ≠ [])
    (hwhole : ∀ c ∈ whole, c.isDigit = true) (hfraction : ∀ c ∈ fraction, c.isDigit = true) :
    readDecimal (whole ++ '.' :: fraction) = some ((Nat.ofDigitChars 10 (whole ++ fraction) 0 : Nat)
          * (10 : ℚ) ^ (-(fraction.length : Int))) := by
  obtain ⟨htake, hdrop⟩ := @takeWhile_digits whole ('.' :: fraction)
    hwhole (fun c hc => Option.some.inj hc ▸ rfl)
  obtain ⟨htake', hdrop'⟩ := @takeWhile_digits fraction [] hfraction nofun
  rw [append_nil] at htake' hdrop'
  have hempty : whole.isEmpty = false := isEmpty_eq_false_iff.mpr hne
  have hall : ∀ c ∈ whole ++ fraction, c.isDigit = true :=
    List.forall_mem_append.mpr ⟨hwhole, hfraction⟩
  rw [readDecimal, htake, hdrop]
  simp [hempty, htake', hdrop', readExponent, digitsValue_eq hall]

theorem readUnsigned_of_decimal {v : ℚ}
    (h : readDecimal cs = some v) : readUnsigned cs = binary64 v := by
  have hne : cs ≠ "Infinity".toList := by
    rintro rfl
    cases h
  rw [readUnsigned, if_neg hne, h]

/-! ## The position of the point -/

theorem decimalPoint_nonneg (fuel : Nat) (h : 1 / 10 ≤ q) : 0 ≤ decimalPoint q fuel := by
  induction fuel generalizing q with
  | zero => exact le_rfl
  | succ fuel ih =>
    rw [decimalPoint]
    split
    · exact le_rfl
    rename_i hone
    have hrest := ih (q := q / 10) (by linarith)
    omega

/-- At least as many places as the power of ten below. -/
theorem lt_decimalPoint {m fuel : Nat} (hfuel : m < fuel) {q : ℚ}
    (h : (10 : ℚ) ^ m ≤ q) : (m : Int) < decimalPoint q fuel := by
  induction fuel generalizing m q with
  | zero => exact absurd hfuel (Nat.not_lt_zero m)
  | succ fuel ih =>
    have hone : (1 : ℚ) ≤ 10 ^ m := one_le_pow₀ (by norm_num)
    rw [decimalPoint, if_neg (by linarith)]
    cases m with
    | zero =>
      have hrest := decimalPoint_nonneg fuel (q := q / 10) (by linarith)
      push_cast
      omega
    | succ m =>
      have hrest := ih (m := m) (q := q / 10) (by omega) (by
        rw [pow_succ] at h
        linarith)
      push_cast
      omega

/-- From one on. -/
theorem decimalPoint_large (fuel : Nat) (hone : 1 ≤ q) (h : q < 10 ^ fuel) :
    (10 : ℚ) ^ (decimalPoint q fuel - 1) ≤ q ∧ q < 10 ^ decimalPoint q fuel := by
  induction fuel generalizing q with
  | zero =>
    rw [pow_zero] at h
    linarith
  | succ fuel ih =>
    rw [decimalPoint, if_neg (not_lt.mpr hone)]
    by_cases hten : q < 10
    · have hzero : decimalPoint (q / 10) fuel = 0 := by
        cases fuel with
        | zero => rfl
        | succ fuel => rw [decimalPoint, if_pos (by linarith), if_pos (by linarith)]
      rw [hzero]
      norm_num
      exact ⟨hone, hten⟩
    · obtain ⟨hlow, hhigh⟩ := ih (q := q / 10) (by linarith) (by
        rw [pow_succ] at h
        linarith)
      rw [add_sub_cancel_right, zpow_add_one₀ (by norm_num)]
      rw [zpow_sub_one₀ (by norm_num)] at hlow
      constructor <;> linarith

/-- Below one. -/
theorem decimalPoint_small (fuel : Nat) (hone : q < 1) (h : (10 : ℚ) ^ (-(fuel : Int)) ≤ q) :
    (10 : ℚ) ^ (decimalPoint q fuel - 1) ≤ q ∧ q < 10 ^ decimalPoint q fuel := by
  induction fuel generalizing q with
  | zero =>
    rw [Nat.cast_zero, neg_zero, zpow_zero] at h
    linarith
  | succ fuel ih =>
    rw [decimalPoint, if_pos hone]
    split
    · rename_i htenth
      norm_num
      constructor <;> linarith
    rename_i htenth
    obtain ⟨hlow, hhigh⟩ := ih (q := q * 10) (by linarith) (by
      rw [Nat.cast_succ, neg_add, ← sub_eq_add_neg, zpow_sub_one₀ (by norm_num)] at h
      linarith)
    rw [zpow_sub_one₀ (by norm_num), zpow_sub_one₀ (by norm_num)]
    rw [zpow_sub_one₀ (by norm_num)] at hlow
    constructor <;> linarith

/-- **THE POINT**: the number has its first digit in front of it. -/
theorem decimalPoint_spec (fuel : Nat)
    (hlow : (10 : ℚ) ^ (-(fuel : Int)) ≤ q) (hhigh : q < 10 ^ fuel) :
    (10 : ℚ) ^ (decimalPoint q fuel - 1) ≤ q ∧ q < 10 ^ decimalPoint q fuel := by
  rcases lt_or_ge q 1 with hone | hone
  · exact decimalPoint_small fuel hone hlow
  · exact decimalPoint_large fuel hone hhigh

/-- A candidate is a neighbour of the number that reads back. -/
theorem digitCandidate_spec {k s : Nat} (h : digitCandidate q n k = some s) :
    ∃ i : Int, (i = ⌊q / 10 ^ (n - k)⌋ ∨ i = ⌊q / 10 ^ (n - k)⌋ + 1)
      ∧ readsBack q n k i = true ∧ s = i.toNat := by
  rw [digitCandidate] at h
  obtain ⟨i, hfind, rfl⟩ := Option.map_eq_some_iff.mp h
  refine ⟨i, ?_, find?_some hfind, rfl⟩
  have hmem := mem_of_find?_eq_some hfind
  split at hmem
  · simpa using hmem
  · simpa [or_comm] using hmem

/-- A neighbour that reads back gives a candidate. -/
theorem digitCandidate_isSome {i : Int} (hi : i = ⌊q / 10 ^ (n - k)⌋ ∨ i = ⌊q / 10 ^ (n - k)⌋ + 1)
    (h : readsBack q n k i = true) : (digitCandidate q n k).isSome = true := by
  rw [digitCandidate, Option.isSome_map, find?_isSome]
  refine ⟨i, ?_, h⟩
  split
  · simpa using hi
  · simpa [or_comm] using hi

/-- The search stops at the first length with a candidate. -/
theorem shortestDigits_spec {q : ℚ} {n : Int} {j : Nat}
    (hj : (digitCandidate q n j).isSome = true) {k fuel : Nat} (hk : k ≤ j) (hfuel : j < k + fuel) :
    ∃ s k', shortestDigits q n k fuel = (s, k') ∧ k ≤ k' ∧ k' ≤ j
      ∧ digitCandidate q n k' = some s := by
  induction fuel generalizing k with
  | zero => omega
  | succ fuel ih =>
    rw [shortestDigits]
    cases hcandidate : digitCandidate q n k with
    | some s => exact ⟨s, k, rfl, le_rfl, hk, hcandidate⟩
    | none =>
      have hne : k ≠ j := by
        rintro rfl
        rw [hcandidate] at hj
        cases hj
      obtain ⟨s, k', hfound, hlow, hhigh, hs⟩ := ih (k := k + 1) (by omega) (by omega)
      exact ⟨s, k', hfound, by omega, hhigh, hs⟩

theorem plain_of_isDigit (h : ∀ c ∈ cs, c.isDigit = true) :
    ∀ c ∈ cs, IsPlain c := fun c hc => .inl (h c hc)

theorem isDigit_zeros (n : Nat) : ∀ c ∈ replicate n '0', c.isDigit = true := by
  intro c hc
  rw [(mem_replicate.mp hc).2]
  rfl

/-- **THE LAYOUT READS BACK**: digits laid out without an exponent are read as
    the digits times the power of ten. -/
theorem readUnsigned_layout {ds : List Char} (hlength : ds.length = k) (hpos : 0 < k)
    (hdigits : ∀ c ∈ ds, c.isDigit = true) (hlow : -6 < n) (hhigh : n ≤ 21) :
    layout ds k n ≠ [] ∧ (∀ c ∈ layout ds k n, IsPlain c) ∧ readUnsigned (layout ds k n)
        = binary64 ((Nat.ofDigitChars 10 ds 0 : Nat) * 10 ^ (n - k)) := by
  have hne : ds ≠ [] := by
    rintro rfl
    exact absurd hlength (by simp; omega)
  rw [layout]
  by_cases hwhole : (k : Int) ≤ n ∧ n ≤ 21
  · rw [if_pos hwhole]
    have hall : ∀ c ∈ ds ++ replicate (n.toNat - k) '0', c.isDigit = true := by
      intro c hc
      rcases mem_append.mp hc with hc | hc
      · exact hdigits c hc
      · exact isDigit_zeros _ c hc
    have hne' : ds ++ replicate (n.toNat - k) '0' ≠ [] :=
      append_ne_nil_of_left_ne_nil hne _
    refine ⟨hne', plain_of_isDigit hall, ?_⟩
    rw [readUnsigned_of_decimal (readDecimal_whole hne' hall),
      Nat.ofDigitChars_append, Nat.ofDigitChars_replicate_zero]
    have hexp : n - (k : Int) = ((n.toNat - k : Nat) : Int) := by omega
    rw [hexp, zpow_natCast]
    push_cast
    rw [mul_comm]
  · rw [if_neg hwhole]
    by_cases hpoint : 0 < n ∧ n ≤ 21
    · rw [if_pos hpoint]
      have hlt : n.toNat < k := by omega
      have htake : ∀ c ∈ ds.take n.toNat, c.isDigit = true :=
        fun c hc => hdigits c (mem_of_mem_take hc)
      have hdrop : ∀ c ∈ ds.drop n.toNat, c.isDigit = true :=
        fun c hc => hdigits c (mem_of_mem_drop hc)
      have hne' : ds.take n.toNat ≠ [] := by
        rw [← length_pos_iff, length_take]
        omega
      refine ⟨append_ne_nil_of_left_ne_nil hne' _, ?_, ?_⟩
      · intro c hc
        rcases mem_append.mp hc with hc | hc
        · exact .inl (htake c hc)
        rcases mem_cons.mp hc with rfl | hc
        · exact .inr rfl
        · exact .inl (hdrop c hc)
      · rw [readUnsigned_of_decimal (readDecimal_point hne' htake hdrop),
          take_append_drop, length_drop]
        have hexp : -((ds.length - n.toNat : Nat) : Int) = n - k := by omega
        rw [hexp]
    · rw [if_neg hpoint, if_pos ⟨hlow, by omega⟩]
      have hzero : ∀ c ∈ ['0'], c.isDigit = true := all_eq_true.mp (by decide)
      have hfraction : ∀ c ∈ replicate (-n).toNat '0' ++ ds, c.isDigit = true := by
        intro c hc
        rcases mem_append.mp hc with hc | hc
        · exact isDigit_zeros _ c hc
        · exact hdigits c hc
      refine ⟨cons_ne_nil _ _, ?_, ?_⟩
      · intro c hc
        rcases mem_cons.mp hc with rfl | hc
        · exact .inl rfl
        rcases mem_cons.mp hc with rfl | hc
        · exact .inr rfl
        · exact .inl (hfraction c hc)
      · have hread := readDecimal_point (cons_ne_nil '0' []) hzero hfraction
        refine (readUnsigned_of_decimal hread).trans ?_
        rw [length_append, length_replicate]
        have hexp : -(((-n).toNat + ds.length : Nat) : Int) = n - k := by omega
        have hvalue : Nat.ofDigitChars 10 (['0'] ++ (replicate (-n).toNat '0' ++ ds)) 0
            = Nat.ofDigitChars 10 ds 0 := by
          rw [Nat.ofDigitChars_append, Nat.ofDigitChars_append, Nat.ofDigitChars_replicate_zero]
          rfl
        rw [hexp, hvalue]

/-! ## The round trip -/

/-- Digits that read back, between two powers of ten: the text reads back. -/
theorem ofText_layout {s k : Nat} (hk : 0 < k)
    (hsize : 10 ^ (k - 1) ≤ s) (hsize' : s < 10 ^ k) (hlow : -6 < n) (hhigh : n ≤ 21)
    (hvalue : binary64 ((s : Nat) * 10 ^ (n - k)) = finite d) :
    ofText (String.ofList (layout (Nat.repr s).toList k n)) = finite d := by
  have hdigits : ∀ c ∈ Nat.toDigits 10 s, c.isDigit = true :=
    fun c hc => Nat.isDigit_of_mem_toDigits (by norm_num) (by norm_num) hc
  have hlength : (Nat.toDigits 10 s).length = k := by
    have hle := (Nat.length_toDigits_le_iff (b := 10) (n := s) (by norm_num) hk).mpr hsize'
    rcases Nat.lt_or_ge 1 k with hone | hone
    · have hgt := (Nat.length_toDigits_le_iff (b := 10) (n := s) (k := k - 1)
        (by norm_num) (by omega)).not.mpr (not_lt.mpr hsize)
      omega
    have hpos := Nat.length_toDigits_pos (b := 10) (n := s)
    omega
  rw [Nat.toList_repr]
  obtain ⟨hne, hplain, hread⟩ := readUnsigned_layout hlength hk hdigits hlow hhigh
  rw [ofText_plain hne hplain, hread, Nat.ofDigitChars_ten_toDigits, hvalue]

theorem ofText_toText_of_candidate (hd : 0 < d)
    (hn : n = decimalPoint d 400) (hlow : -6 < n) (hhigh : n ≤ 20)
    (hpoint : (10 : ℚ) ^ (n - 1) ≤ d) {j : Nat} (hj : 1 ≤ j) (hj' : j ≤ 17)
    (hcandidate : (digitCandidate d n j).isSome = true) :
    ofText (toText (finite d)) = finite d := by
  obtain ⟨s, k, hfound, hk, -, hs⟩ := @shortestDigits_spec d n j hcandidate 1 17 hj (by omega)
  obtain ⟨i, hi, hreads, rfl⟩ := digitCandidate_spec hs
  rw [readsBack, Bool.and_eq_true, Bool.and_eq_true, decide_eq_true_eq,
    decide_eq_true_eq, decide_eq_true_eq] at hreads
  obtain ⟨⟨hpos, hle⟩, hvalue⟩ := hreads
  obtain ⟨s, rfl⟩ := Int.eq_ofNat_of_zero_le hpos.le
  rw [Int.toNat_natCast] at hfound
  -- the scaled number has `k` digits, hence so has its neighbour
  have hfloor : ((10 ^ (k - 1) : Nat) : Int) ≤ ⌊d / 10 ^ (n - k)⌋ := by
    rw [Int.le_floor, le_div_iff₀ (by positivity)]
    push_cast
    rw [← zpow_natCast, ← zpow_add₀ (by norm_num)]
    have hexp : ((k - 1 : Nat) : Int) + (n - k) = n - 1 := by omega
    rw [hexp]
    exact hpoint
  have hsize : 10 ^ (k - 1) ≤ s := by
    have hint : ((10 ^ (k - 1) : Nat) : Int) ≤ (s : Int) := by
      rcases hi with hi | hi <;> omega
    exact_mod_cast hint
  have hsize' : s ≤ 10 ^ k := by exact_mod_cast hle
  have htext : toText (finite d) = String.ofList (positiveText d) := by
    rw [toText, if_neg hd.ne', if_neg (not_lt.mpr hd.le)]
  rw [htext, positiveText, ← hn]
  simp only [hfound]
  by_cases hcarried : s = 10 ^ k
  · rw [if_pos hcarried, if_pos hcarried]
    have hpow : 10 ^ k = 10 * 10 ^ (k - 1) := by rw [← pow_succ', Nat.sub_add_cancel hk]
    have hdiv : s / 10 = 10 ^ (k - 1) := by
      rw [hcarried, hpow, Nat.mul_div_cancel_left _ (by norm_num)]
    rw [hdiv]
    refine ofText_layout hk le_rfl ?_ (by omega) (by omega) ?_
    · rw [hpow]
      have hten : 0 < 10 ^ (k - 1) := by positivity
      omega
    rw [← hvalue, hcarried]
    congr 1
    push_cast
    rw [← zpow_natCast, ← zpow_natCast, ← zpow_add₀ (by norm_num), ← zpow_add₀ (by norm_num)]
    congr 1
    omega
  · rw [if_neg hcarried, if_neg hcarried]
    exact ofText_layout hk hsize (lt_of_le_of_ne hsize' hcarried) hlow
      (by omega) (by exact_mod_cast hvalue)

/-- The tiniest amounts, some of which are written with an exponent. -/
theorem ofText_toText_tiny : ∀ k ∈ range 11, 0 < k →
    ofText (toText (binary64 ((k : ℚ) / 10 ^ 7))) = binary64 ((k : ℚ) / 10 ^ 7) := by
  decide +kernel

/-- **THE ROUND TRIP**: the double next to an amount with seven decimals is
    read back from its own text. -/
theorem ofText_toText (hk : 0 < k) (hsmall : (k : ℚ) / 10 ^ 7 < 2 ^ 30)
    (hd : binary64 ((k : ℚ) / 10 ^ 7) = finite d) : ofText (toText (finite d)) = finite d := by
  rcases Nat.lt_or_ge k 11 with htiny | hlarge
  · rw [← hd]
    exact ofText_toText_tiny k (mem_range.mpr htiny) hk
  have hcast : (11 : ℚ) ≤ k := by exact_mod_cast hlarge
  obtain ⟨d', hd', hnear⟩ := binary64_near (q := (k : ℚ) / 10 ^ 7)
    (by positivity) (e := 30) (by norm_num) (by norm_num)
    (by rw [abs_of_nonneg (by positivity)]; exact_mod_cast hsmall)
  obtain rfl := finite.inj (hd'.symm.trans hd)
  obtain ⟨hbelow, habove⟩ := abs_le.mp hnear
  have hulp : (2 : ℚ) ^ ((30 : Int) - 54) < 6 / 10 ^ 8 := by norm_num
  have hlow : 1 / 10 ^ 6 ≤ d' := by linarith
  have hhigh : d' < 10 ^ 10 := by
    have hpow : (2 : ℚ) ^ 30 + 1 < 10 ^ 10 := by norm_num
    linarith
  obtain ⟨hpoint, hpoint'⟩ := decimalPoint_spec 400 (q := d') (by
      have hpow : (10 : ℚ) ^ (-((400 : Nat) : Int)) ≤ 10 ^ (-6 : Int) :=
        zpow_le_zpow_right₀ (by norm_num) (by norm_num)
      have hsix : (10 : ℚ) ^ (-6 : Int) = 1 / 10 ^ 6 := by norm_num
      exact hpow.trans (hsix.le.trans hlow))
    (hhigh.trans_le (pow_le_pow_right₀ (by norm_num) (by norm_num)))
  generalize hn : decimalPoint d' 400 = n at hpoint hpoint'
  have hn₁ : -6 < n := by
    have hpow : (10 : ℚ) ^ (-6 : Int) < 10 ^ n := by
      refine lt_of_le_of_lt ?_ hpoint'
      norm_num
      linarith
    exact (zpow_lt_zpow_iff_right₀ (by norm_num)).mp hpow
  have hn₂ : n ≤ 10 := by
    have hpow : (10 : ℚ) ^ (n - 1) < 10 ^ (10 : Int) := by
      refine lt_of_le_of_lt hpoint ?_
      exact_mod_cast hhigh
    have hlt := (zpow_lt_zpow_iff_right₀ (by norm_num)).mp hpow
    omega
  -- all the digits of the amount are a candidate
  obtain ⟨j, hj⟩ : ∃ j : Nat, (j : Int) = n + 7 := ⟨(n + 7).toNat, by omega⟩
  have hexp : n - (j : Int) = -7 := by omega
  have hscale : d' / 10 ^ (n - (j : Int)) = d' * 10 ^ 7 := by
    rw [hexp, zpow_neg, div_inv_eq_mul]
    norm_num
  have hclose : |d' * 10 ^ 7 - k| < 1 := by
    rw [abs_lt]
    constructor <;> linarith
  obtain ⟨hclose₁, hclose₂⟩ := abs_lt.mp hclose
  have hcandidate : (digitCandidate d' n j).isSome = true := by
    refine digitCandidate_isSome (i := (k : Int)) ?_ ?_
    · rw [hscale]
      rcases le_or_gt (k : ℚ) (d' * 10 ^ 7) with hle | hlt
      · left
        symm
        rw [Int.floor_eq_iff]
        push_cast
        constructor <;> linarith
      right
      have hfloor : ⌊d' * 10 ^ 7⌋ = (k : Int) - 1 := by
        rw [Int.floor_eq_iff]
        push_cast
        constructor <;> linarith
      rw [hfloor]
      ring
    · have hpower : (10 : ℚ) ^ n * 10 ^ 7 = ((10 ^ j : Nat) : ℚ) := by
        have hsplit : (10 : ℚ) ^ (j : Int) = 10 ^ n * 10 ^ 7 := by
          rw [hj, zpow_add₀ (by norm_num)]
          norm_num
        rw [← hsplit, zpow_natCast]
        push_cast
        rfl
      have hlt : (k : ℚ) < ((10 ^ j : Nat) : ℚ) + 1 := by
        rw [← hpower]
        linarith
      have hle : k ≤ 10 ^ j := by
        have hnat : k < 10 ^ j + 1 := by exact_mod_cast hlt
        omega
      rw [readsBack, hexp, Bool.and_eq_true, Bool.and_eq_true,
        decide_eq_true_eq, decide_eq_true_eq, decide_eq_true_eq]
      refine ⟨⟨by omega, by exact_mod_cast hle⟩, ?_⟩
      rw [← hd, zpow_neg, ← div_eq_mul_inv]
      norm_num
  exact ofText_toText_of_candidate (by linarith) hn.symm hn₁ (by omega)
    hpoint (by omega) (by omega) hcandidate

end JsNumber

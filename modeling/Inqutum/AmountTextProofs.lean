import Inqutum.NumberTextProofs
import Inqutum.StroopAmountProofs

/-!
# Amounts as texts

An amount with seven decimals reaches the comparison in three forms: the
double next to it, the text of that double, and the text `toFixed(7)`
makes of it.  Two amounts with one `toFixed(7)` text are one double
(`eq_of_toFixed`), although neighbouring decimals above `2 ^ 29` share
their double, so whatever is computed from the double agrees.
-/

namespace JsNumber

open List String Nat Int JsText Char

/-! ## Texts of amounts -/

/-- `STELLAR_AMOUNT_PATTERN.test(text)`: a whole number without leading zeros
    and at most seven decimals. -/
def isAmountText (cs : List Char) : Bool :=
  let whole := cs.takeWhile isDigit
  let rest := cs.dropWhile isDigit
  (decide (whole = ['0'])
      || decide (whole ≠ [] ∧ whole.head? ≠ some '0'))
    && match rest with
      | [] => true
      | '.' :: ds => ds.all isDigit && decide (1 ≤ ds.length ∧ ds.length ≤ 7)
      | _ => false

/-- The exponent at the start of a text, if it is complete. -/
def prefixExponent : List Char → Int
  | [] => 0
  | c :: rest =>
    if c = 'e' ∨ c = 'E' then
      match rest with
      | '-' :: ds => -(digitsValue 10 (ds.takeWhile isDigit) : Nat)
      | '+' :: ds => (digitsValue 10 (ds.takeWhile isDigit) : Nat)
      | ds => (digitsValue 10 (ds.takeWhile isDigit) : Nat)
    else 0

/-- The decimals after a point. -/
def fractionOf : List Char → List Char
  | '.' :: ds => ds.takeWhile isDigit
  | _ => []

/-- What comes after the decimals. -/
def tailOf : List Char → List Char
  | '.' :: ds => ds.dropWhile isDigit
  | rest => rest

/-- The longest decimal at the start of a text. -/
def prefixDecimal (cs : List Char) : JsNumber :=
  if ['I', 'n', 'f', 'i', 'n', 'i', 't', 'y'].isPrefixOf cs then posInf
  else
    let whole := cs.takeWhile isDigit
    let fraction := fractionOf (cs.dropWhile isDigit)
    if whole.isEmpty && fraction.isEmpty then nan
    else binary64 ((digitsValue 10 (whole ++ fraction) : Nat)
      * (10 : ℚ) ^ (prefixExponent (tailOf (cs.dropWhile isDigit)) - (fraction.length : Int)))

/-- `parseFloat(text)`. -/
def parseFloat (text : String) : JsNumber :=
  match text.toList.dropWhile isSpace with
  | '+' :: cs => prefixDecimal cs
  | '-' :: cs => negate (prefixDecimal cs)
  | cs => prefixDecimal cs

/-- The digits of `n`, filled up to eight. -/
def eightDigits (n : Nat) : List Char :=
  List.replicate (8 - (Nat.repr n).length) '0' ++ (Nat.repr n).toList

/-- The digits of `n` with a point before the last seven. -/
def fixed7 (n : Nat) : List Char :=
  (eightDigits n).take ((eightDigits n).length - 7)
    ++ '.' :: (eightDigits n).drop ((eightDigits n).length - 7)

/-- `number.toFixed(7)`: the nearest whole number of ten-millionths, ties
    upwards. -/
def toFixed7 (x : JsNumber) : String :=
  match x with
  | finite q =>
    if 10 ^ 21 ≤ |q| then toText x
    else
      let digits := fixed7 ⌊|q| * 10 ^ 7 + 1 / 2⌋.toNat
      String.ofList (if q < 0 then '-' :: digits else digits)
  | _ => toText x

example : toFixed7 (finite (25 / 2)) = "12.5000000"
    ∧ parseFloat " 12.50 XLM" = finite (25 / 2) := by decide +kernel

/-! ## What an amount text stands for -/

/-- What the pattern accepts: digits, or digits with up to seven decimals. -/
theorem isAmountText_spec {cs : List Char} (h : isAmountText cs = true) :
    ∃ whole fraction : List Char, whole ≠ [] ∧ fraction.length ≤ 7
      ∧ (∀ c ∈ whole, c.isDigit = true) ∧ (∀ c ∈ fraction, c.isDigit = true)
      ∧ (cs = whole ∧ fraction = [] ∨ cs = whole ++ '.' :: fraction) := by
  rw [isAmountText, Bool.and_eq_true, Bool.or_eq_true, decide_eq_true_eq, decide_eq_true_eq] at h
  obtain ⟨hwhole, hrest⟩ := h
  have hne : cs.takeWhile isDigit ≠ [] := by
    rcases hwhole with hzero | hnonzero
    · rw [hzero]
      exact cons_ne_nil _ _
    · exact hnonzero.1
  have hdigits : ∀ c ∈ cs.takeWhile isDigit, c.isDigit = true :=
    fun c hc => mem_takeWhile_imp hc
  have happend := takeWhile_append_dropWhile (p := isDigit) (l := cs)
  split at hrest
  · rename_i hnil
    rw [hnil, append_nil] at happend
    exact ⟨_, [], hne, zero_le _, hdigits, nofun, .inl ⟨happend.symm, rfl⟩⟩
  · rename_i ds hds
    rw [Bool.and_eq_true, all_eq_true, decide_eq_true_eq] at hrest
    rw [hds] at happend
    exact ⟨_, ds, hne, hrest.2.2, hdigits, hrest.1, .inr happend.symm⟩
  · cases hrest

theorem exists_tenMillionths (digits : Nat) {places : Nat} (h : places ≤ 7) :
    ∃ k : Nat, (digits : ℚ) * 10 ^ (-(places : Int)) = (k : ℚ) / 10 ^ 7 := by
  refine ⟨digits * 10 ^ (7 - places), ?_⟩
  have hpow : (10 : ℚ) ^ (7 : Nat) = 10 ^ (7 - places) * 10 ^ places := by
    rw [← pow_add, Nat.sub_add_cancel h]
  push_cast
  rw [zpow_neg, zpow_natCast, hpow, mul_comm (10 ^ (7 - places)) (10 ^ places),
    mul_div_mul_right _ _ (by positivity), div_eq_mul_inv]

variable {blank : List Char} {text : String} {n : Int}

theorem prefixExponent_blank (h : ∀ c ∈ blank, isSpace c = true) : prefixExponent blank = 0 := by
  cases blank with
  | nil => rfl
  | cons c rest =>
    have hspace := h c (.head _)
    refine if_neg ?_
    rintro (rfl | rfl) <;> cases hspace

theorem blank_head (h : ∀ c ∈ blank, isSpace c = true) (c : Char)
    (hc : blank.head? = some c) : c.isDigit = false := by
  have hspace := h c (mem_of_head? hc)
  rw [← Bool.not_eq_true]
  intro hdigit
  rw [IsPlain.not_isSpace (.inl hdigit)] at hspace
  cases hspace

theorem fractionOf_blank (h : ∀ c ∈ blank, isSpace c = true) :
    fractionOf blank = [] ∧ tailOf blank = blank := by
  unfold fractionOf tailOf
  split
  · cases h '.' (.head _)
  · exact ⟨rfl, rfl⟩

theorem not_infinity {whole rest : List Char} (hne : whole ≠ [])
    (hwhole : ∀ c ∈ whole, c.isDigit = true) :
    ['I', 'n', 'f', 'i', 'n', 'i', 't', 'y'].isPrefixOf (whole ++ rest) = false := by
  obtain ⟨c, whole, rfl⟩ := exists_cons_of_ne_nil hne
  have hc : ('I' == c) = false := by
    rw [beq_eq_false_iff_ne]
    rintro rfl
    cases hwhole 'I' (.head _)
  rw [List.cons_append, List.isPrefixOf, hc, Bool.false_and]

theorem prefixDecimal_whole {whole blank : List Char} (hne : whole ≠ [])
    (hwhole : ∀ c ∈ whole, c.isDigit = true) (hblank : ∀ c ∈ blank, isSpace c = true) :
    prefixDecimal (whole ++ blank) = binary64 (Nat.ofDigitChars 10 whole 0 : Nat) := by
  obtain ⟨htake, hdrop⟩ := takeWhile_digits hwhole (blank_head hblank)
  obtain ⟨hfraction, htail⟩ := fractionOf_blank hblank
  have hempty : whole.isEmpty = false := isEmpty_eq_false_iff.mpr hne
  rw [prefixDecimal, not_infinity hne hwhole, htake, hdrop, hfraction, htail,
    prefixExponent_blank hblank]
  simp [hempty, digitsValue_eq hwhole]

theorem prefixDecimal_point {whole fraction blank : List Char}
    (hne : whole ≠ []) (hwhole : ∀ c ∈ whole, c.isDigit = true)
    (hfraction : ∀ c ∈ fraction, c.isDigit = true) (hblank : ∀ c ∈ blank, isSpace c = true) :
    prefixDecimal (whole ++ '.' :: (fraction ++ blank))
      = binary64 ((Nat.ofDigitChars 10 (whole ++ fraction) 0 : Nat)
        * 10 ^ (-(fraction.length : Int))) := by
  obtain ⟨htake, hdrop⟩ := @takeWhile_digits whole ('.' :: (fraction ++ blank))
    hwhole (fun c hc => Option.some.inj hc ▸ rfl)
  obtain ⟨htake', hdrop'⟩ := takeWhile_digits hfraction (blank_head hblank)
  have hempty : whole.isEmpty = false := isEmpty_eq_false_iff.mpr hne
  have hall : ∀ c ∈ whole ++ fraction, c.isDigit = true :=
    List.forall_mem_append.mpr ⟨hwhole, hfraction⟩
  have hparts : fractionOf ('.' :: (fraction ++ blank)) = fraction
      ∧ tailOf ('.' :: (fraction ++ blank)) = blank := ⟨htake', hdrop'⟩
  rw [prefixDecimal, not_infinity hne hwhole, htake, hdrop, hparts.1, hparts.2,
    prefixExponent_blank hblank]
  simp [hempty, digitsValue_eq hall]

theorem exists_blanks (cs : List Char) : ∃ blank, cs.dropWhile isSpace = trimChars cs ++ blank
      ∧ ∀ c ∈ blank, isSpace c = true := by
  generalize hl : cs.dropWhile isSpace = l
  refine ⟨(l.reverse.takeWhile isSpace).reverse, ?_, ?_⟩
  · rw [trimChars, hl, trimEnd, ← List.reverse_append,
      List.takeWhile_append_dropWhile, List.reverse_reverse]
  intro c hc
  exact List.mem_takeWhile_imp (List.mem_reverse.mp hc)

/-- **AMOUNT TEXTS**: what the pattern accepts is a whole number of
    ten-millionths, to `Number` and to `parseFloat`. -/
theorem amount_value (h : isAmountText (JsText.trim text).toList = true) :
    ∃ k : Nat, ofText text = binary64 ((k : ℚ) / 10 ^ 7)
      ∧ parseFloat text = binary64 ((k : ℚ) / 10 ^ 7) := by
  rw [JsText.trim, String.toList_ofList] at h
  obtain ⟨whole, fraction, hne, hplaces, hwhole, hfraction, hshape⟩ := isAmountText_spec h
  obtain ⟨blank, hdrop, hblank⟩ := exists_blanks text.toList
  obtain ⟨c, rest, hc⟩ := exists_cons_of_ne_nil hne
  have hdigit := hwhole c (hc ▸ (.head _))
  -- no sign in front, and none of the other radixes
  have hparse : parseFloat text = prefixDecimal (text.toList.dropWhile JsText.isSpace) := by
    rw [parseFloat, hdrop]
    rcases hshape with ⟨hcs, -⟩ | hcs <;>
      · rw [hcs, hc]
        split
        · rename_i heq
          obtain ⟨rfl, -⟩ := cons.inj heq
          cases hdigit
        · rename_i heq
          obtain ⟨rfl, -⟩ := cons.inj heq
          cases hdigit
        · rfl
  have htrimmed : ofText text = ofText (String.ofList (JsText.trimChars text.toList)) := by
    rw [ofText, ofText, String.toList_ofList, JsText.trimChars_trimChars]
  rw [hparse, hdrop, htrimmed]
  rcases hshape with ⟨hcs, -⟩ | hcs
  · rw [hcs, prefixDecimal_whole hne hwhole hblank, ofText_plain hne (plain_of_isDigit hwhole),
      readUnsigned_of_decimal (readDecimal_whole hne hwhole)]
    obtain ⟨k, hk⟩ := exists_tenMillionths (Nat.ofDigitChars 10 whole 0) (Nat.zero_le 7)
    rw [Nat.cast_zero, neg_zero, zpow_zero, mul_one] at hk
    exact ⟨k, by rw [hk], by rw [hk]⟩
  have hplain : ∀ d ∈ whole ++ '.' :: fraction, IsPlain d := by
    intro d hd
    rcases mem_append.mp hd with hd | hd
    · exact .inl (hwhole d hd)
    rcases mem_cons.mp hd with rfl | hd
    · exact .inr rfl
    · exact .inl (hfraction d hd)
  rw [hcs, List.append_assoc, List.cons_append, prefixDecimal_point hne hwhole hfraction hblank,
    ofText_plain (List.append_ne_nil_of_left_ne_nil hne _) hplain,
    readUnsigned_of_decimal (readDecimal_point hne hwhole hfraction)]
  obtain ⟨k, hk⟩ := exists_tenMillionths (Nat.ofDigitChars 10 (whole ++ fraction) 0) hplaces
  exact ⟨k, by rw [hk], by rw [hk]⟩

/-! ## The texts of `toFixed` -/

theorem isDigit_eightDigits (n : Nat) : ∀ c ∈ eightDigits n, c.isDigit = true := by
  intro c hc
  rcases List.mem_append.mp hc with hc | hc
  · exact isDigit_zeros _ c hc
  rw [Nat.toList_repr] at hc
  exact Nat.isDigit_of_mem_toDigits (by norm_num) (by norm_num) hc

theorem plain_fixed7 (n : Nat) : ∀ c ∈ fixed7 n, IsPlain c := by
  intro c hc
  rcases mem_append.mp hc with hc | hc
  · exact .inl (isDigit_eightDigits n c (mem_of_mem_take hc))
  rcases mem_cons.mp hc with rfl | hc
  · exact .inr rfl
  · exact .inl (isDigit_eightDigits n c (mem_of_mem_drop hc))

/-- The digits without the point are those of the number. -/
theorem fixed7_value (n : Nat) : Nat.ofDigitChars 10 ((fixed7 n).filter isDigit) 0 = n := by
  have hfilter : (fixed7 n).filter isDigit = eightDigits n := by
    rw [fixed7, filter_append, filter_cons_of_neg (by decide),
      ← filter_append, take_append_drop]
    exact filter_eq_self.mpr (isDigit_eightDigits n)
  rw [hfilter, eightDigits, ofDigitChars_append, ofDigitChars_replicate_zero, mul_zero, toList_repr,
    ofDigitChars_ten_toDigits]

/-- One text, one number. -/
theorem fixed7_inj {m n : Nat} (h : fixed7 m = fixed7 n) : m = n := by
  rw [← fixed7_value m, ← fixed7_value n, h]

variable {k : Int} {q : ℚ} {a b : ℚ} {d : ℚ}

theorem exponent_mem_toText (h : 10 ^ 21 ≤ q) : 'e' ∈ (toText (finite q)).toList := by
  have hpos : 0 < q := (by positivity : (0 : ℚ) < 10 ^ 21).trans_le h
  have hn := @lt_decimalPoint 21 400 (by norm_num) _ h
  rw [toText, if_neg hpos.ne', if_neg (not_lt.mpr hpos.le), toList_ofList, positiveText]
  generalize shortestDigits q (decimalPoint q 400) 1 17 = found
  generalize hn' : (if found.1 = 10 ^ found.2 then decimalPoint q 400 + 1
    else decimalPoint q 400) = n'
  have hlarge : 21 < n' := by
    rw [← hn']
    split <;> omega
  generalize (if found.1 = 10 ^ found.2 then found.1 / 10 else found.1) = s
  rw [layout, if_neg (by omega), if_neg (by omega), if_neg (by omega)]
  dsimp only
  split
  · exact .tail _ (.head _)
  · exact .tail _ (mem_cons_of_mem _ (mem_append_right _ (.head _)))
  rename_i hnil
  rw [toList_repr] at hnil
  exact absurd hnil toDigits_ne_nil

theorem toFixed7_finite (h₀ : 0 ≤ q) (h : q < 10 ^ 21) : toFixed7 (finite q)
      = String.ofList (fixed7 ⌊q * 10 ^ 7 + 1 / 2⌋.toNat) := by
  rw [toFixed7, abs_of_nonneg h₀, if_neg (not_le.mpr h)]
  dsimp only
  rw [if_neg (not_lt.mpr h₀)]

/-- Below `2 ^ 29` the nearest ten-millionth of the double is the decimal. -/
theorem nearest_small {k : Nat} (hk : 0 < k) (h : (k : ℚ) / 10 ^ 7 < 2 ^ (29 : Int)) :
    ∃ d, binary64 ((k : ℚ) / 10 ^ 7) = finite d ∧ 0 < d
      ∧ ⌊d * 10 ^ 7 + 1 / 2⌋ = (k : Int) ∧ d < 2 ^ (29 : Int) + 1 := by
  have hcast : (1 : ℚ) ≤ k := by exact_mod_cast hk
  obtain ⟨d, hd, hnear⟩ := binary64_near (q := (k : ℚ) / 10 ^ 7)
    (by positivity) (e := 29) (by norm_num) (by norm_num)
    (by rwa [abs_of_nonneg (by positivity)])
  obtain ⟨hbelow, habove⟩ := abs_le.mp hnear
  have hulp : (2 : ℚ) ^ ((29 : Int) - 54) < 3 / 10 ^ 8 := by norm_num
  have hpos : 0 < d := by linarith
  refine ⟨d, hd, hpos, ?_, by linarith⟩
  rw [Int.floor_eq_iff]
  push_cast
  constructor <;> linarith

/-- From `2 ^ 29` on doubles are further apart than ten-millionths. -/
theorem eq_of_nearest {m n : Int} (ha : a = m * 2 ^ ((29 : Int) - 52))
    (hb : b = n * 2 ^ ((29 : Int) - 52))
    (h : ⌊a * 10 ^ 7 + 1 / 2⌋ = ⌊b * 10 ^ 7 + 1 / 2⌋) : a = b := by
  have ha₁ := Int.floor_le (a * 10 ^ 7 + 1 / 2)
  have ha₂ := Int.lt_floor_add_one (a * 10 ^ 7 + 1 / 2)
  have hb₁ := Int.floor_le (b * 10 ^ 7 + 1 / 2)
  have hb₂ := Int.lt_floor_add_one (b * 10 ^ 7 + 1 / 2)
  rw [h] at ha₁ ha₂
  have hgrid : (2 : ℚ) ^ ((29 : Int) - 52) = 1 / 8388608 := by norm_num
  rw [hgrid] at ha hb
  have hclose : |((m - n : Int) : ℚ)| < 1 := by
    rw [abs_lt]
    push_cast
    constructor <;> linarith
  have hzero : m - n = 0 := by
    have hint : |m - n| < 1 := by exact_mod_cast hclose
    exact Int.abs_lt_one_iff.mp hint
  rw [ha, hb, sub_eq_zero.mp hzero]

/-- From `2 ^ 29` on the double lies on the grid, and its nearest
    ten-millionth is not below. -/
theorem nearest_large {q b : ℚ} (h : (2 : ℚ) ^ (29 : Int) ≤ q) (hb : binary64 q = finite b) :
    (∃ m : Int, b = m * 2 ^ ((29 : Int) - 52)) ∧ 2 ^ 29 * 10 ^ 7 ≤ ⌊b * 10 ^ 7 + 1 / 2⌋ := by
  rcases binary64_grid (e := 29) (by norm_num) h with hinf | ⟨m, hm, hle⟩
  · rw [hb] at hinf
    cases hinf
  obtain rfl := finite.inj (hb.symm.trans hm)
  refine ⟨⟨m, rfl⟩, ?_⟩
  generalize (m : ℚ) * 2 ^ ((29 : Int) - 52) = x at hle
  have hpow : (2 : ℚ) ^ (29 : Int) = 2 ^ 29 := by norm_num
  rw [hpow] at hle
  rw [Int.le_floor]
  push_cast
  linarith

/-- **ONE NEAREST TEN-MILLIONTH, ONE DOUBLE**: for the doubles next to
    decimals with seven places. -/
theorem binary64_eq_of_nearest {j k : Nat} (hj : 0 < j) (hk : 0 < k)
    (ha : binary64 ((j : ℚ) / 10 ^ 7) = finite a) (hb : binary64 ((k : ℚ) / 10 ^ 7) = finite b)
    (h : ⌊a * 10 ^ 7 + 1 / 2⌋ = ⌊b * 10 ^ 7 + 1 / 2⌋) : a = b := by
  -- a decimal below `2 ^ 29` is its own nearest ten-millionth
  have hsmall : ∀ {i : Nat} {x : ℚ}, 0 < i → binary64 ((i : ℚ) / 10 ^ 7) = finite x →
      (i : ℚ) / 10 ^ 7 < 2 ^ (29 : Int) →
      ⌊x * 10 ^ 7 + 1 / 2⌋ = (i : Int) ∧ (i : Int) < 2 ^ 29 * 10 ^ 7 := by
    intro i x hi hx hlt
    obtain ⟨d, hd, -, hfloor, -⟩ := nearest_small hi hlt
    obtain rfl := finite.inj (hd.symm.trans hx)
    refine ⟨hfloor, ?_⟩
    rw [div_lt_iff₀ (by positivity)] at hlt
    norm_num at hlt
    omega
  rcases lt_or_ge ((j : ℚ) / 10 ^ 7) (2 ^ (29 : Int)) with hj' | hj' <;>
    rcases lt_or_ge ((k : ℚ) / 10 ^ 7) (2 ^ (29 : Int)) with hk' | hk'
  · rw [(hsmall hj ha hj').1, (hsmall hk hb hk').1] at h
    obtain rfl : j = k := by exact_mod_cast h
    exact finite.inj (ha.symm.trans hb)
  · obtain ⟨hfloor, hlt⟩ := hsmall hj ha hj'
    have hle := (nearest_large hk' hb).2
    omega
  · obtain ⟨hfloor, hlt⟩ := hsmall hk hb hk'
    have hle := (nearest_large hj' ha).2
    omega
  obtain ⟨⟨m, hm⟩, -⟩ := nearest_large hj' ha
  obtain ⟨⟨n, hn⟩, -⟩ := nearest_large hk' hb
  exact eq_of_nearest hm hn h

/-- The double next to a positive decimal: infinite, or positive. -/
theorem binary64_positive {k : Nat} (hk : 0 < k) : binary64 ((k : ℚ) / 10 ^ 7) = posInf
      ∨ ∃ d, binary64 ((k : ℚ) / 10 ^ 7) = finite d ∧ 0 < d ∧ 1 ≤ ⌊d * 10 ^ 7 + 1 / 2⌋ := by
  rcases lt_or_ge ((k : ℚ) / 10 ^ 7) (2 ^ (29 : Int)) with hlt | hge
  · obtain ⟨d, hd, hpos, hfloor, -⟩ := nearest_small hk hlt
    exact .inr ⟨d, hd, hpos, by omega⟩
  rcases binary64_grid (e := 29) (by norm_num) hge with hinf | ⟨m, hm, hle⟩
  · exact .inl hinf
  refine .inr ⟨_, hm, ?_, ?_⟩
  · exact (by positivity : (0 : ℚ) < 2 ^ (29 : Int)).trans_le hle
  have hlarge := (nearest_large hge hm).2
  omega

theorem column_size (hk : |k| < 10 ^ 20) :
    |(k : ℚ) / 10 ^ 7| < 10 ^ 13 := by
  have hcast : |(k : ℚ)| < 10 ^ 20 := by exact_mod_cast hk
  rw [abs_div, abs_of_pos (by positivity : (0 : ℚ) < 10 ^ 7), div_lt_iff₀ (by positivity)]
  linarith

/-- Such an amount is rounded to a number. -/
theorem exists_binary64_column (hk : |k| < 10 ^ 20) :
    ∃ d, binary64 ((k : ℚ) / 10 ^ 7) = finite d := by
  by_cases hzero : (k : ℚ) / 10 ^ 7 = 0
  · exact ⟨0, by rw [binary64, if_pos hzero]⟩
  have hwide : (10 : ℚ) ^ 13 < 2 ^ (44 : Int) := by norm_num
  obtain ⟨d, hd, -⟩ := binary64_near hzero (e := 44) (by norm_num)
    (by norm_num) ((column_size hk).trans hwide)
  exact ⟨d, hd⟩

/-- The double next to it has its sign. -/
theorem binary64_column (hk : |k| < 10 ^ 20) (hd : binary64 ((k : ℚ) / 10 ^ 7) = finite d) :
    |d| < 10 ^ 21 ∧ (k < 0 → d < 0) ∧ (k = 0 → d = 0) := by
  have hsize := column_size hk
  by_cases hzero : k = 0
  · subst hzero
    have heq : d = 0 := by
      rw [binary64, if_pos (by norm_num)] at hd
      exact (finite.inj hd).symm
    rw [heq]
    exact ⟨by norm_num, (fun h => absurd h (lt_irrefl 0)), (fun _ => rfl)⟩
  · have hne : (k : ℚ) / 10 ^ 7 ≠ 0 := by
      have hcast : (k : ℚ) ≠ 0 := by exact_mod_cast hzero
      positivity
    have hwide : (10 : ℚ) ^ 13 < 2 ^ (44 : Int) := by norm_num
    obtain ⟨d', hd', hnear⟩ := binary64_near hne (e := 44) (by norm_num)
      (by norm_num) (hsize.trans hwide)
    obtain rfl := finite.inj (hd'.symm.trans hd)
    have hulp : (2 : ℚ) ^ ((44 : Int) - 54) < 1 := by norm_num
    refine ⟨?_, ?_, fun h => absurd h hzero⟩
    · obtain ⟨h₁, h₂⟩ := abs_lt.mp hsize
      obtain ⟨h₃, h₄⟩ := abs_le.mp hnear
      rw [abs_lt]
      constructor <;> linarith
    intro hneg
    have hcast : (k : ℚ) ≤ -1 := by
      have hint : k ≤ -1 := by omega
      exact_mod_cast hint
    rcases lt_or_ge |(k : ℚ) / 10 ^ 7| (2 ^ (29 : Int)) with hlt | hge
    · obtain ⟨d, hd'', hclose⟩ := binary64_near hne (e := 29) (by norm_num) (by norm_num) hlt
      obtain rfl := finite.inj (hd''.symm.trans hd')
      have hulp' : (2 : ℚ) ^ ((29 : Int) - 54) < 3 / 10 ^ 8 := by norm_num
      linarith [(abs_le.mp hclose).2]
    rw [abs_of_nonpos (by
      rw [div_nonpos_iff]
      exact .inr ⟨by linarith, by positivity⟩)] at hge
    have hpow : (1 : ℚ) < 2 ^ (29 : Int) := by norm_num
    linarith [(abs_le.mp hnear).2]

theorem chars_toFixed7 (h : |q| < 10 ^ 21) :
    (∀ c ∈ (toFixed7 (finite q)).toList, IsPlain c ∨ c = '-')
      ∧ (q < 0 → '-' ∈ (toFixed7 (finite q)).toList) := by
  rw [toFixed7, if_neg (not_le.mpr h), toList_ofList]
  by_cases hneg : q < 0
  · rw [if_pos hneg]
    refine ⟨?_, fun _ => (.head _)⟩
    intro c hc
    rcases mem_cons.mp hc with rfl | hc
    · exact .inr rfl
    · exact .inl (plain_fixed7 _ c hc)
  · rw [if_neg hneg]
    exact ⟨fun c hc => .inl (plain_fixed7 _ c hc), fun h => absurd h hneg⟩

/-- **ONE TEXT, ONE DOUBLE**: an amount of a `DECIMAL(20, 7)` column and a
    positive amount text with one `toFixed(7)` are one double. -/
theorem eq_of_toFixed (hk : |k| < 10 ^ 20) {j : Nat} (hj : 0 < j)
    (hd : binary64 ((k : ℚ) / 10 ^ 7) = finite d)
    (h : toFixed7 (finite d) = toFixed7 (binary64 ((j : ℚ) / 10 ^ 7))) :
    0 < k ∧ binary64 ((j : ℚ) / 10 ^ 7) = finite d := by
  obtain ⟨hrange, hnegative, hzero⟩ := binary64_column hk hd
  obtain ⟨hchars, hsign⟩ := chars_toFixed7 hrange
  rw [h] at hchars hsign
  rcases binary64_positive hj with hinf | ⟨b, hb, hpos, hone⟩
  · rw [hinf] at hchars
    have hletter := hchars 'I' (by decide)
    rcases hletter with (hdigit | hpoint) | hminus
    · cases hdigit
    · exact absurd hpoint (by decide)
    · exact absurd hminus (by decide)
  · rw [hb] at h hchars hsign ⊢
    rcases le_or_gt (10 ^ 21) b with hlarge | hsmall
    · have hletter := hchars 'e' (by
        rw [toFixed7, abs_of_pos hpos, if_pos hlarge]
        exact exponent_mem_toText hlarge)
      rcases hletter with (hdigit | hpoint) | hminus
      · cases hdigit
      · exact absurd hpoint (by decide)
      · exact absurd hminus (by decide)
    · rw [toFixed7_finite hpos.le hsmall, toList_ofList] at hsign
      have hnonneg : 0 ≤ k := by
        by_contra hneg
        rcases plain_fixed7 _ '-' (hsign (hnegative (not_le.mp hneg))) with hdigit | hpoint
        · cases hdigit
        · exact absurd hpoint (by decide)
      obtain ⟨i, rfl⟩ := Int.eq_ofNat_of_zero_le hnonneg
      rcases Nat.eq_zero_or_pos i with rfl | hi
      · have hd₀ : d = 0 := hzero rfl
        subst hd₀
        rw [toFixed7_finite le_rfl (by norm_num), toFixed7_finite hpos.le hsmall] at h
        have hfloor := fixed7_inj (ofList_injective h)
        have hhalf : ⌊(0 : ℚ) * 10 ^ 7 + 1 / 2⌋ = 0 := by norm_num
        omega
      · rcases binary64_positive hi with hinf | ⟨a, ha, hpos', hone'⟩
        · cases hinf.symm.trans hd
        obtain rfl := finite.inj (ha.symm.trans hd)
        rw [toFixed7_finite hpos'.le (lt_of_abs_lt hrange), toFixed7_finite hpos.le hsmall] at h
        have hfloor := fixed7_inj (ofList_injective h)
        refine ⟨by omega, congrArg finite ?_⟩
        exact (binary64_eq_of_nearest hi hj ha hb (by omega)).symm

/-! ## The stroops of a number -/

theorem ofText_of_blank (h : JsText.trim text = "") : ofText text = finite 0 := by
  have hnil : JsText.trimChars text.toList = [] := by
    have hlist := congrArg String.toList h
    rw [JsText.trim, String.toList_ofList] at hlist
    exact hlist
  rw [ofText, hnil]

theorem unsafe_stroops {d : ℚ} (h : (2 : ℚ) ^ (30 : Int) ≤ d)
    (hn : Stroops.scaled (finite d) = finite n) : maxSafeInteger < |n| := by
  have hpow : (2 : ℚ) ^ (53 : Int) ≤ 2 ^ (30 : Int) * 10000000 := by norm_num
  have hlarge : (2 : ℚ) ^ (53 : Int) ≤ d * 10000000 := by linarith
  have hscaled : Stroops.scaled (finite d) = (binary64 (d * ((10000000 : Nat) : ℚ))).round := rfl
  rw [hscaled] at hn
  push_cast at hn
  rcases binary64_grid (e := 53) (by norm_num) hlarge with hinf | ⟨m, hm, hle⟩
  · rw [hinf] at hn
    cases hn
  rw [hm] at hn
  have hfloor := finite.inj hn
  have hint : (2 ^ 53 : Int) ≤ n := by
    have hcast : ⌊(m : ℚ) * 2 ^ ((53 : Int) - 52) + 1 / 2⌋ = n := by exact_mod_cast hfloor
    rw [← hcast, Int.le_floor]
    generalize (m : ℚ) * 2 ^ ((53 : Int) - 52) = v at hle
    have hnat : (2 : ℚ) ^ (53 : Int) = ((2 ^ 53 : Int) : ℚ) := by norm_num
    rw [← hnat]
    linarith
  rw [maxSafeInteger]
  have habs := le_abs_self n
  omega

/-- **THE STROOPS OF A NUMBER**: the double of an amount text stands for as
    many stroops as the text, if these are safe. -/
theorem stroopsOf_toText {k : Nat} (hk : 0 < k) {d : ℚ}
    (hd : binary64 ((k : ℚ) / 10 ^ 7) = finite d) (hpos : 0 < d) (htext : ofText text = finite d)
    (h : Stroops.stroopsOf text = some n) : Stroops.stroopsOf (toText (finite d)) = some n := by
  obtain ⟨-, -, hscaled, hsafe⟩ := Stroops.stroopsOf_eq_some.mp h
  rw [htext] at hscaled
  have hsmall : (k : ℚ) / 10 ^ 7 < 2 ^ (30 : Int) := by
    by_contra hge
    rcases binary64_grid (e := 30) (by norm_num) (not_lt.mp hge) with hinf | ⟨m, hm, hle⟩
    · cases hinf.symm.trans hd
    obtain rfl := finite.inj (hm.symm.trans hd)
    exact absurd hsafe (not_le.mpr (unsafe_stroops hle hscaled))
  have hround := ofText_toText hk (by exact_mod_cast hsmall) hd
  refine Stroops.stroopsOf_eq_some.mpr ⟨?_, ?_, ?_, hsafe⟩
  · intro hblank
    rw [ofText_of_blank hblank] at hround
    exact hpos.ne (finite.inj hround)
  · rw [hround]
    rfl
  rw [hround]
  exact hscaled

end JsNumber

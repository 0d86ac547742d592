import Inqutum.AmountTextProofs
import Inqutum.ImportValidationProofs

/-!
# Amounts as exact numbers

The comparison of two amounts once more, with the rounding of a number as a
parameter.  With `binary64` it is `amountsMatch` itself; with no rounding at
all a number is the rational it denotes, and what is left of the number
format is the code's own test for a safe integer.

That test is the smaller of two bounds: `2 ^ 53 - 1` stroops are less than
a billion units, and a billion is what the policy lets in.
-/

namespace JsNumber

open List JsText

section Rounded

variable (rounded : ℚ → JsNumber)

/-- `Number(text)` of an unsigned decimal. -/
def readUnsignedBy (cs : List Char) : JsNumber :=
  if cs = "Infinity".toList then posInf
  else
    match readDecimal cs with
    | some q => rounded q
    | none => nan

def readInRadixBy (radix : Nat) (cs : List Char) : JsNumber :=
  match readDigits radix cs with
  | some n => rounded (n : ℚ)
  | none => nan

/-- `Number(text)`. -/
def ofTextBy (text : String) : JsNumber :=
  match trimChars text.toList with
  | [] => finite 0
  | '+' :: cs => readUnsignedBy rounded cs
  | '-' :: cs => negate (readUnsignedBy rounded cs)
  | '0' :: 'x' :: cs => readInRadixBy rounded 16 cs
  | '0' :: 'X' :: cs => readInRadixBy rounded 16 cs
  | '0' :: 'o' :: cs => readInRadixBy rounded 8 cs
  | '0' :: 'O' :: cs => readInRadixBy rounded 8 cs
  | '0' :: 'b' :: cs => readInRadixBy rounded 2 cs
  | '0' :: 'B' :: cs => readInRadixBy rounded 2 cs
  | cs => readUnsignedBy rounded cs

def mulBy : JsNumber → JsNumber → JsNumber
  | finite a, finite b => rounded (a * b)
  | x, y => mul x y

def subBy : JsNumber → JsNumber → JsNumber
  | finite a, finite b => rounded (a - b)
  | x, y => sub x y

theorem ofTextBy_plain {text : String} (hne : trimChars text.toList ≠ [])
    (h : ∀ c ∈ trimChars text.toList, IsPlain c) :
    ofTextBy rounded text = readUnsignedBy rounded (trimChars text.toList) := by
  have hplain : ∀ {c : Char}, c ∈ trimChars text.toList → c.isDigit = false → c ≠ '.' → False := by
    intro c hc hdigit hpoint
    rcases h c hc with hyes | hyes
    · rw [hdigit] at hyes
      cases hyes
    · exact hpoint hyes
  rw [ofTextBy]
  split <;> rename_i heq
  · exact absurd heq hne
  · exact (@hplain '+' (by rw [heq]; exact .head _) rfl (by decide)).elim
  · exact (@hplain '-' (by rw [heq]; exact .head _) rfl (by decide)).elim
  · exact (@hplain 'x' (by rw [heq]; exact .tail _ (.head _)) rfl (by decide)).elim
  · exact (@hplain 'X' (by rw [heq]; exact .tail _ (.head _)) rfl (by decide)).elim
  · exact (@hplain 'o' (by rw [heq]; exact .tail _ (.head _)) rfl (by decide)).elim
  · exact (@hplain 'O' (by rw [heq]; exact .tail _ (.head _)) rfl (by decide)).elim
  · exact (@hplain 'b' (by rw [heq]; exact .tail _ (.head _)) rfl (by decide)).elim
  · exact (@hplain 'B' (by rw [heq]; exact .tail _ (.head _)) rfl (by decide)).elim
  · rfl

theorem readUnsignedBy_of_decimal {cs : List Char} {v : ℚ}
    (h : readDecimal cs = some v) : readUnsignedBy rounded cs = rounded v := by
  have hne : cs ≠ "Infinity".toList := by
    rintro rfl
    cases h
  rw [readUnsignedBy, if_neg hne, h]

end Rounded

theorem ofTextBy_binary64 : ofTextBy binary64 = ofText := rfl

theorem mulBy_binary64 (x y : JsNumber) : mulBy binary64 x y = mul x y := by
  unfold mulBy
  split <;> rfl

theorem subBy_binary64 (x y : JsNumber) : subBy binary64 x y = sub x y := by
  unfold subBy
  split
  · rename_i a b
    show _ = binary64 (a + -b)
    rw [sub_eq_add_neg]
  · rfl

/-! ## Decimal texts -/

/-- Digits, or digits with one to seven decimals. -/
def isDecimal (cs : List Char) : Bool :=
  !(cs.takeWhile Char.isDigit).isEmpty && match cs.dropWhile Char.isDigit with
      | [] => true
      | '.' :: ds => ds.all Char.isDigit && decide (1 ≤ ds.length ∧ ds.length ≤ 7)
      | _ => false

theorem isDecimal_value {cs : List Char} (h : isDecimal cs = true) :
    cs ≠ [] ∧ (∀ c ∈ cs, IsPlain c) ∧ ∃ k : Nat, readDecimal cs = some ((k : ℚ) / 10 ^ 7) := by
  rw [isDecimal, Bool.and_eq_true, Bool.not_eq_true', isEmpty_eq_false_iff] at h
  obtain ⟨hne, hrest⟩ := h
  have happend := takeWhile_append_dropWhile (p := Char.isDigit) (l := cs)
  generalize hwhole : cs.takeWhile Char.isDigit = whole at hne happend
  have hdigits : ∀ c ∈ whole, c.isDigit = true := by
    intro c hc
    rw [← hwhole] at hc
    exact mem_takeWhile_imp hc
  split at hrest
  · rename_i hnil
    rw [hnil, append_nil] at happend
    subst happend
    obtain ⟨k, hk⟩ := exists_tenMillionths (Nat.ofDigitChars 10 whole 0) (Nat.zero_le 7)
    rw [Nat.cast_zero, neg_zero, zpow_zero, mul_one] at hk
    exact ⟨hne, fun c hc => .inl (hdigits c hc), k, by rw [readDecimal_whole hne hdigits, hk]⟩
  · rename_i ds hds
    rw [Bool.and_eq_true, all_eq_true, decide_eq_true_eq] at hrest
    obtain ⟨hall, -, hplaces⟩ := hrest
    rw [hds] at happend
    subst happend
    obtain ⟨k, hk⟩ := exists_tenMillionths (Nat.ofDigitChars 10 (whole ++ ds) 0) hplaces
    refine ⟨append_ne_nil_of_left_ne_nil hne _, ?_, k,
      by rw [readDecimal_point hne hdigits hall, hk]⟩
    intro c hc
    rcases mem_append.mp hc with hc | hc
    · exact .inl (hdigits c hc)
    rcases mem_cons.mp hc with rfl | hc
    · exact .inr rfl
    · exact .inl (hall c hc)
  · cases hrest

end JsNumber

namespace Stroops

open JsNumber

/-- `Math.round(value * STROOP_SCALE)`. -/
def scaledBy (rounded : ℚ → JsNumber) (value : JsNumber) : JsNumber :=
  (mulBy rounded value scale).round

/-- `amountsMatch` of `verify-amount-tolerance`, under a rounding. -/
def amountsMatchBy (rounded : ℚ → JsNumber) (expected : JsScalar)
    (actual : Option JsScalar) (toleranceStroops : JsNumber) : Bool :=
  if !toleranceStroops.isInteger || toleranceStroops.isNegative then false
  else
    let expectedStr := expected.toText
    let actualStr := (actual.map JsScalar.toText).getD ""
    if JsText.trim expectedStr = "" ∨ JsText.trim actualStr = "" then false
    else
      let expectedNum := ofTextBy rounded expectedStr
      let actualNum := ofTextBy rounded actualStr
      if !expectedNum.isFinite || !actualNum.isFinite then false
      else
        let expectedStroops := scaledBy rounded expectedNum
        let actualStroops := scaledBy rounded actualNum
        if !expectedStroops.isSafeInteger || !actualStroops.isSafeInteger then
          false
        else
          ((subBy rounded expectedStroops actualStroops).abs).le toleranceStroops

/-- With the rounding of doubles this is the comparison the service makes. -/
theorem amountsMatchBy_binary64 : amountsMatchBy binary64 = amountsMatch := by
  funext expected actual tolerance
  simp only [amountsMatchBy, amountsMatch, scaledBy, scaled, mulBy_binary64,
    subBy_binary64, ofTextBy_binary64]
  rfl

/-- `amountsMatch`, numbers taken as exact rationals. -/
def exactAmountsMatch : JsScalar → Option JsScalar → JsNumber → Bool :=
  amountsMatchBy .finite

/-- A text that is let in as an amount, with the number it denotes. -/
structure AdmittedAmount where
  text : String
  value : ℚ
  decimal : isDecimal (JsText.trimChars text.toList) = true
  denotes : readDecimal (JsText.trimChars text.toList) = some value
  positive : 0 < value
  atMost : value ≤ Imports.maxAmount

namespace AdmittedAmount

theorem exists_stroops (a : AdmittedAmount) : ∃ k : Nat, a.value = (k : ℚ) / 10 ^ 7 := by
  obtain ⟨-, -, k, hk⟩ := isDecimal_value a.decimal
  exact ⟨k, Option.some.inj (a.denotes.symm.trans hk)⟩

theorem not_blank (a : AdmittedAmount) : JsText.trim a.text ≠ "" := by
  intro h
  have hchars := congrArg String.toList h
  rw [JsText.trim, String.toList_ofList] at hchars
  exact (isDecimal_value a.decimal).1 hchars

theorem ofTextBy_exact (a : AdmittedAmount) : ofTextBy .finite a.text = finite a.value := by
  obtain ⟨hne, hplain, -⟩ := isDecimal_value a.decimal
  rw [ofTextBy_plain _ hne hplain, readUnsignedBy_of_decimal _ a.denotes]

end AdmittedAmount

theorem scaledBy_exact (k : Nat) :
    scaledBy .finite (finite ((k : ℚ) / 10 ^ 7)) = finite (k : Int) := by
  have hscale : (k : ℚ) / 10 ^ 7 * (10000000 : Nat) = k := by
    push_cast
    norm_num
  show finite (⌊(k : ℚ) / 10 ^ 7 * (10000000 : Nat) + 1 / 2⌋ : Int) = _
  rw [hscale, Int.floor_natCast_add]
  norm_num

theorem isSafeInteger_stroops (k : Nat) : (finite ((k : Int) : ℚ)).isSafeInteger = true
      ↔ (k : Int) ≤ maxSafeInteger := by
  rw [isSafeInteger_iff]
  constructor
  · rintro ⟨n, hn, hsafe⟩
    have heq : (k : Int) = n := by exact_mod_cast finite.inj hn
    rw [← heq, Nat.abs_cast] at hsafe
    exact hsafe
  intro hsafe
  exact ⟨k, rfl, by rwa [Nat.abs_cast]⟩

variable {e a : AdmittedAmount} {m n : Nat}

theorem exactAmountsMatch_iff (hm : e.value = (m : ℚ) / 10 ^ 7) (hn : a.value = (n : ℚ) / 10 ^ 7)
    (t : Nat) : exactAmountsMatch (.text e.text) (some (.text a.text)) (.ofNat t) = true
      ↔ ((m : Int) ≤ maxSafeInteger ∧ (n : Int) ≤ maxSafeInteger) ∧ |(m : Int) - n| ≤ t := by
  have htol : (!(JsNumber.ofNat t).isInteger
      || (JsNumber.ofNat t).isNegative) = false := by
    simp [JsNumber.ofNat, JsNumber.isInteger, JsNumber.isNegative]
  rw [exactAmountsMatch, amountsMatchBy, htol, if_neg Bool.false_ne_true]
  have hblank : ¬(JsText.trim (JsScalar.text e.text).toText = ""
      ∨ JsText.trim (((some (JsScalar.text a.text)).map JsScalar.toText).getD "") = "") :=
    not_or.mpr ⟨e.not_blank, a.not_blank⟩
  simp only [if_neg hblank]
  have hread : ∀ {b : AdmittedAmount} {k : Nat}, b.value = (k : ℚ) / 10 ^ 7 →
      ofTextBy .finite b.text = finite ((k : ℚ) / 10 ^ 7) :=
    fun {b k} hk => by rw [b.ofTextBy_exact, hk]
  have he : ofTextBy .finite (JsScalar.text e.text).toText = finite ((m : ℚ) / 10 ^ 7) := hread hm
  have ha : ofTextBy .finite (((some (JsScalar.text a.text)).map
    JsScalar.toText).getD "") = finite ((n : ℚ) / 10 ^ 7) := hread hn
  rw [he, ha, scaledBy_exact, scaledBy_exact]
  have hdelta : ((subBy .finite (finite ((m : Int) : ℚ))
      (finite ((n : Int) : ℚ))).abs).le (.ofNat t) = true ↔ |(m : Int) - n| ≤ t := by
    show decide (|((m : Int) : ℚ) - ((n : Int) : ℚ)| ≤ ((t : Nat) : ℚ)) = true ↔ _
    rw [decide_eq_true_eq]
    exact_mod_cast Iff.rfl
  rw [← isSafeInteger_stroops, ← isSafeInteger_stroops, ← hdelta]
  cases (finite ((m : Int) : ℚ)).isSafeInteger <;> cases (finite ((n : Int) : ℚ)).isSafeInteger <;>
    simp [JsNumber.isFinite]

/-- Two amounts differ by at most `t` stroops. -/
def Within (t : Nat) (e a : AdmittedAmount) : Prop :=
  |e.value - a.value| ≤ (t : ℚ) / 10 ^ 7

/-- The largest amount whose stroops are a safe integer. -/
def largestSafe : ℚ := maxSafeInteger / 10 ^ 7

/-- The comparison is right about two amounts at a tolerance: they match
    exactly when they differ by at most that many stroops. -/
def JudgedRight (t : Nat) (e a : AdmittedAmount) : Prop :=
  exactAmountsMatch (.text e.text) (some (.text a.text)) (.ofNat t) = true ↔ Within t e a

theorem within_zero (e a : AdmittedAmount) : Within 0 e a ↔ e.value = a.value := by
  rw [Within, Nat.cast_zero, zero_div, abs_nonpos_iff, sub_eq_zero]

/-- In stroops, both bounds are about whole numbers. -/
theorem within_iff (hm : e.value = (m : ℚ) / 10 ^ 7) (hn : a.value = (n : ℚ) / 10 ^ 7)
    (t : Nat) : Within t e a ↔ |(m : Int) - n| ≤ t := by
  have hunit : |(10 : ℚ) ^ 7| = 10 ^ 7 := abs_of_pos (by norm_num)
  rw [Within, hm, hn, ← sub_div, abs_div, hunit, div_le_div_iff_of_pos_right (by norm_num)]
  exact_mod_cast Iff.rfl

theorem le_largestSafe_iff {a : AdmittedAmount} {n : Nat} (hn : a.value = (n : ℚ) / 10 ^ 7) :
    a.value ≤ largestSafe ↔ (n : Int) ≤ maxSafeInteger := by
  rw [hn, largestSafe, div_le_div_iff_of_pos_right (by norm_num)]
  exact_mod_cast Iff.rfl

/-- **THE SAFE RANGE**: the comparison is right about two admitted amounts
    exactly when both are at most the largest safe one, or they are further
    apart than the tolerance. -/
theorem judgedRight_iff (t : Nat) (e a : AdmittedAmount) : JudgedRight t e a
      ↔ (e.value ≤ largestSafe ∧ a.value ≤ largestSafe) ∨ ¬ Within t e a := by
  obtain ⟨m, hm⟩ := e.exists_stroops
  obtain ⟨n, hn⟩ := a.exists_stroops
  rw [JudgedRight, exactAmountsMatch_iff hm hn, within_iff hm hn,
    le_largestSafe_iff hm, le_largestSafe_iff hn, and_iff_right_iff_imp]
  exact imp_iff_or_not

/-- With and without a tolerance: what the comparison says of two admitted
    amounts is right in the safe range, and only there or further apart. -/
theorem settles_by_value_iff (e a : AdmittedAmount) :
    ((exactAmountsMatch (.text e.text) (some (.text a.text)) 0 = true ↔ e.value = a.value)
      ↔ (e.value ≤ largestSafe ∧ a.value ≤ largestSafe) ∨ e.value ≠ a.value)
    ∧ ∀ t : Nat, ((exactAmountsMatch (.text e.text) (some (.text a.text)) (.ofNat t)
          = true ↔ |e.value - a.value| ≤ (t : ℚ) / 10 ^ 7)
        ↔ (e.value ≤ largestSafe ∧ a.value ≤ largestSafe)
          ∨ (t : ℚ) / 10 ^ 7 < |e.value - a.value|) := by
  constructor
  · have h := judgedRight_iff 0 e a
    rw [JudgedRight, within_zero] at h
    exact h
  intro t
  have h := judgedRight_iff t e a
  rw [JudgedRight, Within, not_le] at h
  exact h

/-- The largest amount the policy lets in. -/
def aBillion : AdmittedAmount where
  text := "1000000000"
  value := 1000000000
  decimal := by decide +kernel
  denotes := by decide +kernel
  positive := by norm_num
  atMost := le_refl _

/-- A billion does not match itself, in exact numbers or in doubles. -/
theorem a_billion_never_settles :
    ¬ (exactAmountsMatch (.text aBillion.text) (some (.text aBillion.text)) 0
        = true ↔ aBillion.value = aBillion.value)
    ∧ amountsMatch (.text aBillion.text) (some (.text aBillion.text)) 0 = false := by
  have hexact : exactAmountsMatch (.text aBillion.text)
      (some (.text aBillion.text)) 0 = false := by decide +kernel
  have hdouble : amountsMatch (.text aBillion.text)
      (some (.text aBillion.text)) 0 = false := by decide +kernel
  rw [hexact]
  exact ⟨fun h => (nomatch h.mpr rfl), hdouble⟩

end Stroops

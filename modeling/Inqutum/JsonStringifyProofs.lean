import Inqutum.NumberTextProofs
import Inqutum.Utf8Proofs
import Inqutum.CanonicalSerializationProofs

/-!
# JSON text that goes through bytes

`stringify` is `JSON.stringify` of a JSON value and `parse` is
`JSON.parse`.  A surrogate that stands alone is escaped by number, so the
text never holds one and its UTF-8 bytes give it back.

`parse_decode_encode`: a value whose numbers are safe whole ones survives
the trip through `Buffer.from(JSON.stringify(value))` and
`JSON.parse(buffer.toString())`.
-/

namespace Stringify

open JsonText
open Canonical (escapeUnit hexText)
open Utf8 (isHigh isLow isSurrogate wellFormed)
open List Nat JsNumber Bool

/-! ## Writing -/

/-- What stands for a code unit outside any pair. -/
def quoteUnit (c : CodeUnit) : Text :=
  if isSurrogate c then unit '\\' :: unit 'u' :: hexText c else escapeUnit c

def quoteUnits : Text → Text
  | [] => []
  | [c] => quoteUnit c
  | c :: d :: rest =>
    if isHigh c && isLow d then c :: d :: quoteUnits rest
    else quoteUnit c ++ quoteUnits (d :: rest)

def quote (s : Text) : Text := unit '"' :: (quoteUnits s ++ [unit '"'])

/-- The decimal digits of a whole number. -/
def wholeDigits (n : Int) : List Char :=
  if n < 0 then '-' :: Nat.toDigits 10 n.natAbs else Nat.toDigits 10 n.natAbs

/-- `String(number)`: a safe integer is written out. -/
def numberText (q : ℚ) : Text :=
  if q.den = 1 ∧ q.num.natAbs < 2 ^ 53 then (wholeDigits q.num).map unit
  else ascii (finite q).toText

def writer : Writer where
  quote := quote
  number
    | .negZero => ascii "0"
    | .finite q => numberText q

/-- `JSON.stringify(value)`. -/
def stringify (value : Tree) : Text := writeTree writer value

/-! ## Reading -/

def char (c : CodeUnit) : Char := Char.ofNat c.val

/-- The number a token denotes.  Past the range of doubles the reader makes an
    infinity; here it is the first number past them. -/
def numberOf (token : Text) : Option Number :=
  match ofText (String.ofList (token.map char)) with
  | .finite q =>
    if q = 0 ∧ token.head? = some (unit '-') then some .negZero
    else some (.finite q)
  | _ => some (.finite (2 ^ 1024))

/-- `JSON.parse(text)`, if it does not throw. -/
def parse (text : Text) : Option Tree := JsonText.parse numberOf text

/-- A whole number every double of its size tells apart. -/
def Safe (x : Number) : Prop := ∃ n : Int, x = .finite n ∧ n.natAbs < 2 ^ 53

/-! ## Escapes -/

theorem hexValue_digitChar {n : Nat} (h : n < 16) : hexValue (unit (Nat.digitChar n)) = some n := by
  have hall : ∀ m : Fin 16, hexValue (unit (Nat.digitChar m)) = some m.val := by decide
  exact hall ⟨n, h⟩

variable {c : CodeUnit}

theorem hexText_wide (h : 0x1000 ≤ c.val) :
    ∃ h₁ h₂ h₃ h₄, hexText c = [h₁, h₂, h₃, h₄] ∧ hexUnit h₁ h₂ h₃ h₄ = some c := by
  have hc := c.isLt
  refine ⟨unit (Nat.digitChar (c.val / 16 / 16 / 16)), unit (Nat.digitChar (c.val / 16 / 16 % 16)),
    unit (Nat.digitChar (c.val / 16 % 16)),
    unit (Nat.digitChar (c.val % 16)), ?_, ?_⟩
  · have hdigits : Nat.toDigits 16 c.val = [Nat.digitChar (c.val / 16 / 16 / 16),
          Nat.digitChar (c.val / 16 / 16 % 16), Nat.digitChar (c.val / 16 % 16),
          Nat.digitChar (c.val % 16)] := by
      rw [toDigits_of_base_le (by omega) (by omega),
        toDigits_of_base_le (by omega) (by omega),
        toDigits_of_base_le (by omega) (by omega),
        toDigits_of_lt_base (by omega)]
      rfl
    rw [hexText, hdigits]
    rfl
  · have hvalue : ((c.val / 16 / 16 / 16 * 16 + c.val / 16 / 16 % 16) * 16
        + c.val / 16 % 16) * 16 + c.val % 16 = c.val := by
      omega
    rw [hexUnit, hexValue_digitChar (by omega), hexValue_digitChar (by omega),
      hexValue_digitChar (by omega), hexValue_digitChar (by omega)]
    show some (Fin.ofNat 65536 (((c.val / 16 / 16 / 16 * 16
      + c.val / 16 / 16 % 16) * 16 + c.val / 16 % 16) * 16 + c.val % 16)) = _
    rw [hvalue, Fin.ofNat_val_eq_self]

theorem isSurrogate_bounds (h : isSurrogate c = true) : 0xD800 ≤ c.val ∧ c.val ≤ 0xDFFF := by
  rcases or_eq_true_iff.mp h with h | h
  · have h' : 0xD800 ≤ c.val ∧ c.val ≤ 0xDBFF := of_decide_eq_true h
    omega
  have h' : 0xDC00 ≤ c.val ∧ c.val ≤ 0xDFFF := of_decide_eq_true h
  omega

theorem readString_quoteUnit (c : CodeUnit) (text : Text) : readString (quoteUnit c ++ text)
      = (readString text).map (fun out => (c :: out.1, out.2)) := by
  rw [quoteUnit]
  split
  · rename_i hc
    have hlow := (isSurrogate_bounds hc).1
    obtain ⟨h₁, h₂, h₃, h₄, htext, hunit⟩ := hexText_wide (show 0x1000 ≤ c.val by omega)
    rw [htext]
    exact readString_hex hunit
  · exact Canonical.readString_escapeUnit c text

/-- A code unit that needs no escape. -/
theorem readString_high (h : isSurrogate c = true) (text : Text) : readString (c :: text)
      = (readString text).map (fun out => (c :: out.1, out.2)) := by
  have hlow := (isSurrogate_bounds h).1
  have hne : ∀ d : CodeUnit, d.val < 0xD800 → c ≠ d := by
    rintro d hd rfl
    omega
  refine readString_plain (hne _ (by decide)) (hne _ (by decide)) ?_
  intro hlt
  have hlt' : c.val < 32 := hlt
  omega

/-- **QUOTING LOSES NOTHING**, not even a surrogate that stands alone. -/
theorem readString_quoteUnits (s rest : Text) :
    readString (quoteUnits s ++ unit '"' :: rest) = some (s, rest) := by
  fun_induction quoteUnits s with
  | case1 => exact readString_close
  | case2 c =>
    rw [readString_quoteUnit, readString_close]
    rfl
  | case3 c d tail hpair ih =>
    obtain ⟨hc, hd⟩ := Bool.and_eq_true_iff.mp hpair
    have hc' : isSurrogate c = true := by rw [isSurrogate, hc, Bool.true_or]
    have hd' : isSurrogate d = true := by rw [isSurrogate, hd, Bool.or_true]
    rw [cons_append, cons_append, readString_high hc', readString_high hd', ih]
    rfl
  | case4 c d tail hpair ih =>
    rw [append_assoc, readString_quoteUnit, ih]
    rfl

/-! ## No lone surrogates -/

theorem wellFormed_append {a b : Text} (ha : wellFormed a = true)
    (hb : wellFormed b = true) : wellFormed (a ++ b) = true := by
  fun_induction wellFormed a with
  | case1 => exact hb
  | case2 c =>
    have hc : isSurrogate c = false := by simpa using ha
    have hhigh : isHigh c = false := (or_eq_false_iff.mp hc).1
    cases b with
    | nil => exact ha
    | cons d rest =>
      show wellFormed (c :: d :: rest) = true
      rw [wellFormed, hhigh, Bool.false_and, if_neg Bool.false_ne_true, hc, hb]
      rfl
  | case3 c d rest hpair ih =>
    show wellFormed (c :: d :: (rest ++ b)) = true
    rw [wellFormed, if_pos hpair]
    exact ih ha
  | case4 c d rest hpair ih =>
    rw [Bool.and_eq_true] at ha
    show wellFormed (c :: d :: (rest ++ b)) = true
    rw [wellFormed, if_neg hpair, ha.1, Bool.true_and]
    exact ih ha.2

variable {c : CodeUnit} {text : Text} {n : Nat}

theorem wellFormed_of_plain (h : ∀ c ∈ text, isSurrogate c = false) : wellFormed text = true := by
  induction text with
  | nil => rfl
  | cons c rest ih =>
    have hc : wellFormed [c] = true := by
      rw [wellFormed, h c (.head _)]
      rfl
    exact wellFormed_append hc (ih (fun d hd => h d (.tail _ hd)))

theorem isSurrogate_of_lt (h : c.val < 0xD800) : isSurrogate c = false := by
  cases hc : isSurrogate c with
  | false => rfl
  | true =>
    have hlow := (isSurrogate_bounds hc).1
    omega

theorem isSurrogate_unit {c : Char} (h : c.toNat < 128) : isSurrogate (unit c) = false := by
  refine isSurrogate_of_lt ?_
  show c.toNat % 65536 < 0xD800
  omega

theorem digitChar_of_mem_toDigits {c : Char}
    (h : c ∈ Nat.toDigits 16 n) : ∃ m < 16, c = Nat.digitChar m := by
  induction n using Nat.strongRecOn with
  | _ n ih =>
    by_cases hn : n < 16
    · rw [toDigits_of_lt_base hn] at h
      exact ⟨n, hn, mem_singleton.mp h⟩
    rw [toDigits_of_base_le (by omega) (by omega)] at h
    rcases mem_append.mp h with h | h
    · exact ih (n / 16) (by omega) h
    · exact ⟨n % 16, by omega, mem_singleton.mp h⟩

theorem mem_toDigits {c : Char} (h : c ∈ Nat.toDigits 16 n) : c.toNat < 128 := by
  have hdigit : ∀ m, m < 16 → (Nat.digitChar m).toNat < 128 := by decide
  obtain ⟨m, hm, rfl⟩ := digitChar_of_mem_toDigits h
  exact hdigit m hm

theorem plain_hexText (c : CodeUnit) : ∀ d ∈ hexText c, isSurrogate d = false := by
  intro d hd
  rcases mem_append.mp hd with hd | hd
  · rw [eq_of_mem_replicate hd]
    exact isSurrogate_unit (by decide)
  obtain ⟨ch, hch, rfl⟩ := mem_map.mp hd
  exact isSurrogate_unit (mem_toDigits hch)

theorem plain_escape {letter : CodeUnit} (h : letter.val < 128) :
    ∀ d ∈ [unit '\\', letter], isSurrogate d = false := by
  intro d hd
  rcases mem_cons.mp hd with rfl | hd
  · rfl
  rw [mem_singleton.mp hd]
  exact isSurrogate_of_lt (by omega)

theorem plain_escapeUnit (hc : isSurrogate c = false) :
    ∀ d ∈ escapeUnit c, isSurrogate d = false := by
  rcases Canonical.escapeUnit_cases c with
    ⟨letter, heq, hletter, -⟩ | ⟨-, heq⟩ | ⟨heq, -⟩
  · rw [heq]
    exact plain_escape hletter
  · rw [heq]
    exact forall_mem_cons.mpr ⟨rfl, forall_mem_cons.mpr ⟨rfl, plain_hexText c⟩⟩
  rw [heq]
  exact forall_mem_singleton.mpr hc

theorem plain_quoteUnit (c : CodeUnit) : ∀ d ∈ quoteUnit c, isSurrogate d = false := by
  rw [quoteUnit]
  split
  · exact forall_mem_cons.mpr ⟨rfl, forall_mem_cons.mpr ⟨rfl, plain_hexText c⟩⟩
  rename_i hc
  exact plain_escapeUnit (not_eq_true _ ▸ hc)

theorem wellFormed_quoteUnits (s : Text) : wellFormed (quoteUnits s) = true := by
  fun_induction quoteUnits s with
  | case1 => rfl
  | case2 c => exact wellFormed_of_plain (plain_quoteUnit c)
  | case3 c d tail hpair ih =>
    rw [wellFormed, if_pos hpair]
    exact ih
  | case4 c d tail hpair ih =>
    exact wellFormed_append (wellFormed_of_plain (plain_quoteUnit c)) ih

theorem wellFormed_cons (hc : isSurrogate c = false) (h : wellFormed text = true) :
    wellFormed (c :: text) = true :=
  wellFormed_append (wellFormed_of_plain (forall_mem_singleton.mpr hc)) h

theorem wellFormed_quote (s : Text) : wellFormed (quote s) = true :=
  wellFormed_cons rfl (wellFormed_append (wellFormed_quoteUnits s) rfl)

theorem wellFormed_join {texts : List Text}
    (h : ∀ x ∈ texts, wellFormed x = true) : wellFormed (join texts) = true := by
  fun_induction join texts with
  | case1 => rfl
  | case2 x => exact h x (.head _)
  | case3 x y rest ih =>
    exact wellFormed_append (h x (.head _))
      (wellFormed_cons rfl (ih (fun z hz => h z (.tail _ hz))))

/-! ## Whole numbers -/

theorem isDigit_toDigits (m : Nat) : ∀ c ∈ Nat.toDigits 10 m, c.isDigit = true :=
  fun _ hc => isDigit_of_mem_toDigits (by norm_num) (by norm_num) hc

variable {c : Char} {n : Int} {m : Nat}

theorem isDigit_bounds (h : c.isDigit = true) : 48 ≤ c.toNat ∧ c.toNat ≤ 57 := by
  rw [Char.isDigit, and_eq_true, decide_eq_true_eq, decide_eq_true_eq] at h
  exact h

theorem isDigit_unit (h : c.isDigit = true) : isDigit (unit c) = true := by
  have hc := isDigit_bounds h
  have hval : (unit c).val = c.toNat := mod_eq_of_lt (by omega)
  rw [isDigit, and_eq_true, decide_eq_true_eq, decide_eq_true_eq]
  exact ⟨show 48 ≤ (unit c).val by omega, show (unit c).val ≤ 57 by omega⟩

/-- The digits of a positive number do not start with a zero. -/
theorem toDigits_head (hm : m ≠ 0) : ∃ c rest, Nat.toDigits 10 m = c :: rest ∧ c ≠ '0' := by
  have hdigit : ∀ d, d < 10 → d ≠ 0 → Nat.digitChar d ≠ '0' := by decide
  induction m using Nat.strongRecOn with
  | _ m ih =>
    by_cases hlt : m < 10
    · rw [toDigits_of_lt_base hlt]
      exact ⟨_, [], rfl, hdigit m hlt hm⟩
    obtain ⟨c, rest, htext, hc⟩ := ih (m / 10) (by omega) (by omega)
    rw [toDigits_of_base_le (by omega) (by omega), htext]
    exact ⟨c, _, rfl, hc⟩

theorem char_unit (h : c.toNat < 128) : char (unit c) = c := by
  have hval : (unit c).val = c.toNat := mod_eq_of_lt (by omega)
  rw [char, hval, Char.ofNat_toNat]

theorem map_char_unit {cs : List Char} (h : ∀ c ∈ cs, c.toNat < 128) :
    (cs.map unit).map char = cs := by
  rw [map_map]
  exact (map_congr_left (fun c hc => char_unit (h c hc))).trans (map_id cs)

theorem unit_ne {c d : Char} (hc : c.toNat < 128) (hd : d.toNat < 128)
    (h : c ≠ d) : unit c ≠ unit d := by
  intro heq
  refine h ?_
  rw [← char_unit hc, ← char_unit hd, heq]

theorem afterInteger_toDigits (m : Nat) :
    afterInteger ((Nat.toDigits 10 m).map unit) = some [] := by
  by_cases hm : m = 0
  · rw [hm]
    rfl
  obtain ⟨c, rest, htext, hc⟩ := toDigits_head hm
  have hall := isDigit_toDigits m
  rw [htext] at hall
  obtain ⟨hdigit, hrest⟩ := forall_mem_cons.mp hall
  have hbound := isDigit_bounds hdigit
  have hne : unit c ≠ unit '0' := unit_ne (by omega) (by decide) hc
  have hdrop : (rest.map unit).dropWhile isDigit = [] := by
    rw [dropWhile_eq_nil_iff]
    intro d hd
    obtain ⟨ch, hch, rfl⟩ := mem_map.mp hd
    exact isDigit_unit (hrest ch hch)
  rw [htext, map_cons, afterInteger, if_neg hne, afterDigits, if_pos (isDigit_unit hdigit), hdrop]

theorem afterSign_digit (h : c.isDigit = true) (rest : Text) :
    afterSign [unit '-'] (unit c :: rest) = unit c :: rest := by
  have hc := isDigit_bounds h
  have hne : unit c ≠ unit '-' := by
    refine unit_ne (by omega) (by decide) ?_
    rintro rfl
    cases h
  rw [afterSign, if_neg (by rwa [mem_singleton])]

theorem isJsonNumber_wholeDigits (n : Int) : isJsonNumber ((wholeDigits n).map unit) = true := by
  have hsign : afterSign [unit '-'] ((wholeDigits n).map unit)
      = (Nat.toDigits 10 n.natAbs).map unit := by
    rw [wholeDigits]
    split
    · rfl
    cases htext : Nat.toDigits 10 n.natAbs with
    | nil => rfl
    | cons c rest =>
      have hall := isDigit_toDigits n.natAbs
      rw [htext] at hall
      exact afterSign_digit (hall c (.head _)) _
  rw [isJsonNumber, hsign, afterInteger_toDigits]
  rfl

theorem ascii_wholeDigits (n : Int) : ∀ c ∈ wholeDigits n, c.toNat < 128 := by
  have hdigits : ∀ c ∈ Nat.toDigits 10 n.natAbs, c.toNat < 128 := by
    intro c hc
    have hbound := isDigit_bounds (isDigit_toDigits _ c hc)
    omega
  rw [wholeDigits]
  split
  · exact forall_mem_cons.mpr ⟨by decide, hdigits⟩
  · exact hdigits

theorem readUnsigned_toDigits (h : m < 2 ^ 53) : readUnsigned (Nat.toDigits 10 m) = .finite m := by
  rw [readUnsigned_of_decimal (readDecimal_whole
    toDigits_ne_nil (isDigit_toDigits m)), ofDigitChars_ten_toDigits]
  exact binary64_safe (n := (m : Int)) h

/-- **A SAFE WHOLE NUMBER READS BACK.** -/
theorem ofText_wholeDigits (h : n.natAbs < 2 ^ 53) :
    ofText (String.ofList (wholeDigits n)) = .finite n := by
  have hread := readUnsigned_toDigits h
  rw [wholeDigits]
  split
  · rename_i hneg
    have hspace : ∀ c ∈ '-' :: Nat.toDigits 10 n.natAbs, JsText.isSpace c = false :=
      forall_mem_cons.mpr ⟨rfl, fun c hc =>
        IsPlain.not_isSpace (.inl (isDigit_toDigits _ c hc))⟩
    rw [ofText, String.toList_ofList, JsText.trimChars_of_no_space hspace]
    show negate (readUnsigned _) = _
    rw [hread, negate]
    rw [← abs_intCast, abs_of_neg (Int.cast_lt_zero.mpr hneg), neg_neg]
  · rename_i hpos
    rw [ofText_plain toDigits_ne_nil (fun c hc => .inl (isDigit_toDigits _ c hc)), hread]
    rw [← abs_intCast, abs_of_nonneg (Int.cast_nonneg (not_lt.mp hpos))]

theorem numberText_int (h : n.natAbs < 2 ^ 53) : numberText (n : ℚ) = (wholeDigits n).map unit := by
  rw [numberText, Rat.den_intCast, Rat.num_intCast, if_pos ⟨rfl, h⟩]

theorem numberOf_numberText (h : n.natAbs < 2 ^ 53) :
    numberOf (numberText (n : ℚ)) = some (.finite n) := by
  rw [numberText_int h, numberOf, map_char_unit (ascii_wholeDigits n), ofText_wholeDigits h]
  show (if (n : ℚ) = 0 ∧ _ then some Number.negZero else _) = _
  refine if_neg ?_
  rintro ⟨hzero, hhead⟩
  rw [Int.cast_eq_zero.mp hzero] at hhead
  exact absurd hhead (by decide)

theorem writer_readBy : writer.ReadBy numberOf Safe where
  quoted s := by
    refine ⟨quoteUnits s ++ [unit '"'], rfl, ?_⟩
    intro rest
    rw [append_assoc]
    exact readString_quoteUnits s rest
  isNumber x hx := by
    obtain ⟨n, rfl, hn⟩ := hx
    show isJsonNumber (numberText n) = true
    rw [numberText_int hn]
    exact isJsonNumber_wholeDigits n
  reads x hx := by
    obtain ⟨n, rfl, hn⟩ := hx
    exact numberOf_numberText hn

/-! ## The trip through bytes -/

theorem wellFormed_ascii {cs : List Char} (h : ∀ c ∈ cs, c.toNat < 128) :
    wellFormed (cs.map unit) = true := by
  refine wellFormed_of_plain ?_
  intro d hd
  obtain ⟨c, hc, rfl⟩ := mem_map.mp hd
  exact isSurrogate_unit (h c hc)

/-- What stands for the strings, the names and the number of this part holds
    no lone surrogate. -/
structure CleanPart (w : Writer) (t : Tree) : Prop where
  string : ∀ s, t = .str s → wellFormed (w.quote s) = true
  name : ∀ key ∈ keysOf t, wellFormed (w.quote key) = true
  number : ∀ x, t = .num x → wellFormed (w.number x) = true

section Clean

variable {w : Writer}

theorem wellFormed_items {items : List Tree} (h : ∀ x ∈ items, wellFormed (writeTree w x) = true) :
    ∀ text ∈ writeItems w items, wellFormed text = true := by
  induction items with
  | nil => exact nofun
  | cons x rest ih =>
    rw [writeItems]
    exact forall_mem_cons.mpr ⟨h x (.head _), ih (fun y hy => h y (.tail _ hy))⟩

theorem wellFormed_members {members : List (Text × Tree)}
    (hnames : ∀ key ∈ keys members, wellFormed (w.quote key) = true)
    (h : ∀ m ∈ members, wellFormed (writeTree w m.2) = true) :
    ∀ text ∈ writeMembers w members, wellFormed text = true := by
  induction members with
  | nil => exact nofun
  | cons m rest ih =>
    obtain ⟨key, x⟩ := m
    obtain ⟨hname, hrest⟩ := forall_mem_cons.mp hnames
    rw [writeMembers]
    refine forall_mem_cons.mpr ⟨?_, ih hrest (fun m' hm' => h m' (.tail _ hm'))⟩
    exact wellFormed_append hname (wellFormed_cons rfl (h (key, x) (.head _)))

theorem wellFormed_writeTree {t : Tree} (h : Every (CleanPart w) t) :
    wellFormed (writeTree w t) = true := by
  induction t using tree_induct with
  | hnull => rfl
  | hbool b => cases b <;> rfl
  | hnum x => exact h.self.number x rfl
  | hstr s => exact h.self.string s rfl
  | harr items ih =>
    have hitems := (every_arr.mp h).2
    exact wellFormed_cons rfl (wellFormed_append (wellFormed_join
      (wellFormed_items (fun x hx => ih x hx (hitems x hx)))) rfl)
  | hobj members ih =>
    obtain ⟨hself, hmembers⟩ := every_obj.mp h
    exact wellFormed_cons rfl (wellFormed_append (wellFormed_join
      (wellFormed_members hself.name (fun m hm => ih m hm (hmembers m hm)))) rfl)

end Clean

/-- No text of a value holds a lone surrogate. -/
theorem wellFormed_stringify {t : Tree} (h : Every (Readable Safe) t) :
    wellFormed (stringify t) = true := by
  refine wellFormed_writeTree (h.imp fun u hu => ?_)
  refine ⟨fun s _ => wellFormed_quote s, fun key _ => wellFormed_quote key, fun x hx => ?_⟩
  obtain ⟨n, rfl, hn⟩ := hu.2 x hx
  show wellFormed (numberText n) = true
  rw [numberText_int hn]
  exact wellFormed_ascii (ascii_wholeDigits n)

/-- **WHAT WAS WRITTEN IS READ BACK**, through the bytes of its text. -/
theorem parse_decode_encode {t : Tree} (h : Every (Readable Safe) t) :
    parse (Utf8.decode (Utf8.encode (stringify t))) = some t := by
  rw [Utf8.decode_encode (wellFormed_stringify h)]
  exact parse_writeTree writer_readBy h

end Stringify

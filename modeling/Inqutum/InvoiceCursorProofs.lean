import Inqutum.InvoiceMemoryServiceProofs
import Mathlib.Data.Bool.AllAny
import Mathlib.Tactic.IntervalCases
import Mathlib.Data.List.GetD

/-!
# The cursor of an invoice list

A cursor is the position of a row in a list: its creation time and its id,
as `<ISO time>|<id>` in base64url.  `decodeInvoiceCursor` accepts what
`encodeInvoiceCursor` wrote (`decode_encode`), as long as the creation time
is in a year of four digits: `toISOString()` writes other years with a
sign and six digits, which the decoder's pattern does not match.

Texts are lists of characters.  A cursor text is ASCII, so its UTF-8 bytes
are its character codes.
-/

namespace Cursors

open Invoices List JsText Char

/-! ## Dates -/

/-- The first day of a year, in days since 1970. -/
def dayFromYear (y : Int) : Int :=
  365 * (y - 1970) + (y - 1969) / 4 - (y - 1901) / 100 + (y - 1601) / 400

/-- The year of a day: three years from a lower estimate suffice. -/
def yearFromDay (day : Int) : Int :=
  let y := 1969 + day * 400 / 146097
  if day < dayFromYear (y + 1) then y
  else if day < dayFromYear (y + 2) then y + 1
  else y + 2

def isLeapYear (y : Int) : Bool :=
  decide (y % 4 = 0) && (decide (y % 100 ≠ 0) || decide (y % 400 = 0))

/-- The first day of a month, counted from the first of January. -/
def monthStart (leap : Bool) (month : Int) : Int :=
  let shift := if leap then 1 else 0
  if month ≤ 1 then 0
  else if month = 2 then 31
  else if month = 3 then 59 + shift
  else if month = 4 then 90 + shift
  else if month = 5 then 120 + shift
  else if month = 6 then 151 + shift
  else if month = 7 then 181 + shift
  else if month = 8 then 212 + shift
  else if month = 9 then 243 + shift
  else if month = 10 then 273 + shift
  else if month = 11 then 304 + shift
  else 334 + shift

/-- The month of a day of the year. -/
def monthFromDay (leap : Bool) (day : Int) : Int :=
  let start := monthStart leap
  if day < start 2 then 1
  else if day < start 3 then 2
  else if day < start 4 then 3
  else if day < start 5 then 4
  else if day < start 6 then 5
  else if day < start 7 then 6
  else if day < start 8 then 7
  else if day < start 9 then 8
  else if day < start 10 then 9
  else if day < start 11 then 10
  else if day < start 12 then 11
  else 12

structure DateFields where
  year : Int
  month : Int
  day : Int
  hour : Int
  minute : Int
  second : Int
  ms : Int

/-- The fields of an instant, in UTC. -/
def fieldsOf (time : Int) : DateFields :=
  let day := time / 86400000
  let rest := time % 86400000
  let year := yearFromDay day
  let dayOfYear := day - dayFromYear year
  let leap := isLeapYear year
  let month := monthFromDay leap dayOfYear
  { year := year
    month := month
    day := dayOfYear - monthStart leap month + 1
    hour := rest / 3600000
    minute := rest / 60000 % 60
    second := rest / 1000 % 60
    ms := rest % 1000 }

/-- The instant of a set of fields. -/
def timeOf (f : DateFields) : Int :=
  let day := dayFromYear f.year + monthStart (isLeapYear f.year) f.month + (f.day - 1)
  day * 86400000 + f.hour * 3600000 + f.minute * 60000 + f.second * 1000 + f.ms

def digitChar (n : Int) : Char := ofNat (48 + (n % 10).toNat)

/-- `n` in decimal, `width` digits. -/
def padded : Nat → Int → List Char
  | 0, _ => []
  | width + 1, n => padded width (n / 10) ++ [digitChar n]

/-- Years of four digits are written as such, others with a sign and six. -/
def yearText (y : Int) : List Char :=
  if 0 ≤ y ∧ y ≤ 9999 then padded 4 y
  else (if y < 0 then '-' else '+') :: padded 6 |y|

/-- `date.toISOString()`. -/
def toISOString (time : Int) : List Char :=
  let f := fieldsOf time
  yearText f.year ++ '-' :: (padded 2 f.month ++ '-' :: (padded 2 f.day
    ++ 'T' :: (padded 2 f.hour ++ ':' :: (padded 2 f.minute
    ++ ':' :: (padded 2 f.second ++ '.' :: (padded 3 f.ms ++ ['Z']))))))

/-- The value of a text of digits. -/
def readDigits (cs : List Char) : Option Int :=
  if cs.all isDigit then
    some (cs.foldl (fun acc c => acc * 10 + ((c.toNat : Int) - 48)) 0)
  else none

/-- The fraction of a second: one to three digits after a point, or
    nothing. -/
def readFraction : List Char → Option Int
  | ['Z'] => some 0
  | ['.', a, 'Z'] => (readDigits [a]).map (· * 100)
  | ['.', a, b, 'Z'] => (readDigits [a, b]).map (· * 10)
  | ['.', a, b, c, 'Z'] => readDigits [a, b, c]
  | _ => none

/-- `ISO_DATE_PATTERN.test(iso)`, with the fields it delimits. -/
def readIso : List Char → Option DateFields
  | y₁ :: y₂ :: y₃ :: y₄ :: '-' :: m₁ :: m₂ :: '-' :: d₁ :: d₂ :: 'T' ::
      h₁ :: h₂ :: ':' :: n₁ :: n₂ :: ':' :: s₁ :: s₂ :: rest => do
      let year ← readDigits [y₁, y₂, y₃, y₄]
      let month ← readDigits [m₁, m₂]
      let day ← readDigits [d₁, d₂]
      let hour ← readDigits [h₁, h₂]
      let minute ← readDigits [n₁, n₂]
      let second ← readDigits [s₁, s₂]
      let ms ← readFraction rest
      some ⟨year, month, day, hour, minute, second, ms⟩
  | _ => none

/-- `new Date(iso)` of a matching text; a field out of range is no date.  A
    day past the end of its month overflows into the next, which the caller
    finds out by writing the date again. -/
def dateFromIso (f : DateFields) : Option Int :=
  if 1 ≤ f.month ∧ f.month ≤ 12 ∧ 1 ≤ f.day ∧ f.day ≤ 31 ∧ f.hour ≤ 24
      ∧ f.minute ≤ 59 ∧ f.second ≤ 59 then some (timeOf f)
  else none

/-! ## Base64 -/

def alphabet : List Char :=
  "ABCDEFGHIJKLMNOPQRSTUVWXYZabcdefghijklmnopqrstuvwxyz0123456789-_".toList

def sextetChar (n : Nat) : Char := alphabet.getD n 'A'

def sextetOf (c : Char) : Nat := alphabet.idxOf c

/-- `buffer.toString('base64url')`. -/
def toBase64 : List Nat → List Char
  | [] => []
  | [a] => [sextetChar (a / 4), sextetChar (a % 4 * 16)]
  | [a, b] => [sextetChar (a / 4), sextetChar (a % 4 * 16 + b / 16), sextetChar (b % 16 * 4)]
  | a :: b :: c :: rest =>
    sextetChar (a / 4) :: sextetChar (a % 4 * 16 + b / 16)
      :: sextetChar (b % 16 * 4 + c / 64) :: sextetChar (c % 64)
      :: toBase64 rest

/-- The bytes of up to four sextets. -/
def sextetBytes : List Nat → List Nat
  | [] => []
  | [_] => []
  | [a, b] => [a * 4 + b / 16]
  | [a, b, c] => [a * 4 + b / 16, b % 16 * 16 + c / 4]
  | a :: b :: c :: d :: rest =>
    (a * 4 + b / 16) :: (b % 16 * 16 + c / 4) :: (c % 4 * 64 + d) :: sextetBytes rest

/-- `Buffer.from(text, 'base64url')` of a text over the alphabet. -/
def fromBase64 (text : List Char) : List Nat := sextetBytes (text.map sextetOf)

/-! ## Cursors -/

def isHex (c : Char) : Bool :=
  c.isDigit || (decide ('a' ≤ c) && decide (c ≤ 'f'))
    || (decide ('A' ≤ c) && decide (c ≤ 'F'))

/-- `UUID.test(id)`. -/
def isUuid (id : List Char) : Bool :=
  decide (id.length = 36) && (range 36).all (fun i =>
    let c := id.getD i ' '
    if i = 8 ∨ i = 13 ∨ i = 18 ∨ i = 23 then c == '-' else isHex c)

def lowerCase (text : List Char) : List Char := text.map toLower

inductive CursorError where
  | invalidId (id : String)
  | invalidDate

/-- `encodeInvoiceCursor`, of a row's creation time and id. -/
def encodeInvoiceCursor (createdAt : Int) (id : String) :
    Except CursorError (List Char) :=
  let rawId := trimChars id.toList
  if isUuid rawId = false then .error (.invalidId id)
  else if 8640000000000000 < |createdAt| then .error .invalidDate
  else
    let raw := toISOString createdAt ++ '|' :: lowerCase rawId
    .ok (toBase64 (raw.map toNat))

/-- `decoded.split('|')`. -/
def splitBar : List Char → List (List Char)
  | [] => [[]]
  | c :: rest =>
    if c = '|' then [] :: splitBar rest
    else match splitBar rest with
      | [] => [[c]]
      | part :: parts => (c :: part) :: parts

/-- `isoNormalized.replace(/\.000Z$/, 'Z')`. -/
def dropZeroFraction (iso : List Char) : List Char :=
  if iso.drop (iso.length - 5) = ".000Z".toList then
    iso.take (iso.length - 5) ++ ['Z']
  else iso

/-- `decodeInvoiceCursor`.  Bytes from 128 on decode to characters neither
    pattern has, so a text with one is no cursor. -/
def decodeInvoiceCursor (value : List Char) : Option InvoiceCursor :=
  let trimmed := trimChars value
  if trimmed.isEmpty || decide (512 < trimmed.length)
      || !trimmed.all (fun c => decide (c ∈ alphabet)) then none
  else
    let bytes := fromBase64 trimmed
    if bytes.any (fun b => decide (128 ≤ b)) then none
    else
      match splitBar (bytes.map ofNat) with
      | [iso, id] =>
        if isUuid id = false then none
        else
          match (readIso iso).bind dateFromIso with
          | none => none
          | some createdAt =>
            let isoNormalized := toISOString createdAt
            if isoNormalized ≠ iso ∧ dropZeroFraction isoNormalized ≠ iso
            then none
            else some ⟨createdAt, String.ofList (lowerCase id)⟩
      | _ => none

/-! ## Dates round trip -/

theorem yearFromDay_spec (day : Int) : dayFromYear (yearFromDay day) ≤ day
    ∧ day < dayFromYear (yearFromDay day + 1) := by
  have hshift : ∀ y : Int, y + 1 + 1 = y + 2 := fun y => by omega
  simp only [yearFromDay]
  split
  · simp only [dayFromYear] at *
    omega
  split
  · rw [hshift]
    simp only [dayFromYear] at *
    omega
  simp only [dayFromYear] at *
  omega

theorem dayFromYear_succ (y : Int) : dayFromYear (y + 1)
      = dayFromYear y + 365 + (if isLeapYear y then 1 else 0) := by
  by_cases hleap : isLeapYear y = true
  · rw [if_pos hleap]
    simp only [isLeapYear, Bool.and_eq_true, Bool.or_eq_true, decide_eq_true_eq] at hleap
    simp only [dayFromYear]
    omega
  rw [if_neg hleap]
  simp only [isLeapYear, Bool.and_eq_true, Bool.or_eq_true, decide_eq_true_eq] at hleap
  simp only [dayFromYear]
  omega

/-- The day is one of the first 31 days of its month. -/
def InMonth (leap : Bool) (day : Int) : Prop :=
  1 ≤ monthFromDay leap day ∧ monthFromDay leap day ≤ 12
  ∧ monthStart leap (monthFromDay leap day) ≤ day
  ∧ day ≤ monthStart leap (monthFromDay leap day) + 30

instance (leap : Bool) (day : Int) : Decidable (InMonth leap day) :=
  inferInstanceAs (Decidable (_ ∧ _ ∧ _ ∧ _))

theorem monthFromDay_spec (leap : Bool) (day : Int) (h₀ : 0 ≤ day)
    (h₁ : day < 365 + (if leap then 1 else 0)) : InMonth leap day := by
  obtain ⟨n, rfl⟩ := Int.eq_ofNat_of_zero_le h₀
  -- the table is finite, so every day can be looked up
  cases leap with
  | false =>
    have hall : ∀ d : Fin 365, InMonth false d := by decide +kernel
    exact hall ⟨n, by simpa using h₁⟩
  | true =>
    have hall : ∀ d : Fin 366, InMonth true d := by decide +kernel
    exact hall ⟨n, by omega⟩

/-- An instant in a year of four digits. -/
def FourDigitYear (time : Int) : Prop :=
  -62167219200000 ≤ time ∧ time ≤ 253402300799999

structure InRange (f : DateFields) : Prop where
  year : 0 ≤ f.year ∧ f.year < 10000
  month : 1 ≤ f.month ∧ f.month ≤ 12
  day : 1 ≤ f.day ∧ f.day ≤ 31
  hour : 0 ≤ f.hour ∧ f.hour < 24
  minute : 0 ≤ f.minute ∧ f.minute < 60
  second : 0 ≤ f.second ∧ f.second < 60
  ms : 0 ≤ f.ms ∧ f.ms < 1000

theorem fieldsOf_bounds (time : Int) : (1 ≤ (fieldsOf time).month ∧ (fieldsOf time).month ≤ 12)
    ∧ (1 ≤ (fieldsOf time).day ∧ (fieldsOf time).day ≤ 31)
    ∧ (0 ≤ (fieldsOf time).hour ∧ (fieldsOf time).hour < 24)
    ∧ (0 ≤ (fieldsOf time).minute ∧ (fieldsOf time).minute < 60)
    ∧ (0 ≤ (fieldsOf time).second ∧ (fieldsOf time).second < 60)
    ∧ 0 ≤ (fieldsOf time).ms ∧ (fieldsOf time).ms < 1000 := by
  obtain ⟨hyear, hnext⟩ := yearFromDay_spec (time / 86400000)
  have hsucc := dayFromYear_succ (yearFromDay (time / 86400000))
  obtain ⟨hm₁, hm₂, hd₁, hd₂⟩ := monthFromDay_spec (isLeapYear (yearFromDay (time / 86400000)))
    (time / 86400000 - dayFromYear (yearFromDay (time / 86400000)))
    (by omega) (by omega)
  refine ⟨⟨hm₁, hm₂⟩, ?_, ?_, ?_, ?_, ?_⟩
  · simp only [fieldsOf]
    omega
  · simp only [fieldsOf]
    omega
  · simp only [fieldsOf]
    omega
  · simp only [fieldsOf]
    omega
  simp only [fieldsOf]
  omega

variable {time : Int} {n : Int}

theorem fieldsOf_inRange (h : FourDigitYear time) : InRange (fieldsOf time) := by
  obtain ⟨hlow, hhigh⟩ := h
  obtain ⟨hyear, hnext⟩ := yearFromDay_spec (time / 86400000)
  obtain ⟨hmonth, hday, hhour, hminute, hsecond, hms⟩ := fieldsOf_bounds time
  refine ⟨?_, hmonth, hday, hhour, hminute, hsecond, hms⟩
  show 0 ≤ yearFromDay (time / 86400000) ∧ yearFromDay (time / 86400000) < 10000
  simp only [dayFromYear] at hyear hnext
  omega

/-- The fields determine the instant, whatever the year and the month are. -/
theorem timeOf_fieldsOf (time : Int) : timeOf (fieldsOf time) = time := by
  simp only [timeOf, fieldsOf]
  omega

theorem dateFromIso_fieldsOf (h : FourDigitYear time) :
    dateFromIso (fieldsOf time) = some time := by
  have hr := fieldsOf_inRange h
  have hcond : 1 ≤ (fieldsOf time).month ∧ (fieldsOf time).month ≤ 12
      ∧ 1 ≤ (fieldsOf time).day ∧ (fieldsOf time).day ≤ 31
      ∧ (fieldsOf time).hour ≤ 24 ∧ (fieldsOf time).minute ≤ 59
      ∧ (fieldsOf time).second ≤ 59 :=
    ⟨hr.month.1, hr.month.2, hr.day.1, hr.day.2, by have := hr.hour; omega,
      by have := hr.minute; omega, by have := hr.second; omega⟩
  rw [dateFromIso, if_pos hcond, timeOf_fieldsOf]

theorem digitChar_spec (n : Int) :
    (digitChar n).isDigit = true ∧ ((digitChar n).toNat : Int) - 48 = n % 10 := by
  have hlow := Int.emod_nonneg n (by decide : (10 : Int) ≠ 0)
  have hhigh := Int.emod_lt_of_pos n (by decide : (0 : Int) < 10)
  rw [digitChar]
  generalize n % 10 = d at *
  interval_cases d
  all_goals exact ⟨by decide, by decide⟩

theorem all_isDigit_padded (width : Nat) (n : Int) : (padded width n).all isDigit = true := by
  induction width generalizing n with
  | zero => rfl
  | succ width ih =>
    rw [padded, all_append, ih, Bool.true_and]
    simp [(digitChar_spec n).1]

theorem foldl_padded (width : Nat) (h₀ : 0 ≤ n) (h₁ : n < 10 ^ width) :
    (padded width n).foldl (fun acc c => acc * 10 + ((c.toNat : Int) - 48)) 0 = n := by
  induction width generalizing n with
  | zero =>
    rw [pow_zero] at h₁
    show (0 : Int) = n
    omega
  | succ width ih =>
    have hdiv : n / 10 < 10 ^ width := by
      rw [pow_succ] at h₁
      omega
    rw [padded, foldl_append, ih (by omega) hdiv, foldl_cons,
      foldl_nil, (digitChar_spec n).2]
    omega

theorem readDigits_padded (width : Nat) (h₀ : 0 ≤ n)
    (h₁ : n < 10 ^ width) : readDigits (padded width n) = some n := by
  rw [readDigits, if_pos (all_isDigit_padded width n), foldl_padded width h₀ h₁]

theorem length_padded (width : Nat) (n : Int) : (padded width n).length = width := by
  induction width generalizing n with
  | zero => rfl
  | succ width ih => rw [padded, length_append, ih]; rfl

theorem readFraction_digits {f : List Char} (hf : f.length = 3) :
    readFraction ('.' :: (f ++ ['Z'])) = readDigits f := by
  match f, hf with
  | [a, b, c], _ =>
    show readFraction ['.', a, b, c, 'Z'] = _
    rw [readFraction]

theorem readIso_parts {y m d h n s rest : List Char} (hy : y.length = 4)
    (hm : m.length = 2) (hd : d.length = 2) (hh : h.length = 2)
    (hn : n.length = 2) (hs : s.length = 2) :
    readIso (y ++ '-' :: (m ++ '-' :: (d ++ 'T' :: (h ++ ':' :: (n ++ ':' :: (s ++ rest))))))
      = (readDigits y).bind (fun year => (readDigits m).bind (fun month =>
        (readDigits d).bind (fun day => (readDigits h).bind (fun hour =>
        (readDigits n).bind (fun minute => (readDigits s).bind (fun second =>
        (readFraction rest).bind (fun ms =>
          some ⟨year, month, day, hour, minute, second, ms⟩))))))) := by
  match y, hy, m, hm, d, hd, h, hh, n, hn, s, hs with
  | [_, _, _, _], _, [_, _], _, [_, _], _, [_, _], _, [_, _], _, [_, _], _ => rfl

/-- **DATES ROUND TRIP** in years of four digits. -/
theorem readIso_toISOString (h : FourDigitYear time) :
    readIso (toISOString time) = some (fieldsOf time) := by
  have hr := fieldsOf_inRange h
  have hyear : yearText (fieldsOf time).year = padded 4 (fieldsOf time).year :=
    if_pos ⟨hr.year.1, by have := hr.year; omega⟩
  have h₁ := readDigits_padded 4 hr.year.1 hr.year.2
  have h₂ := readDigits_padded 2 (n := (fieldsOf time).month)
    (by have := hr.month; omega) (by have := hr.month; omega)
  have h₃ := readDigits_padded 2 (n := (fieldsOf time).day)
    (by have := hr.day; omega) (by have := hr.day; omega)
  have h₄ := readDigits_padded 2 (n := (fieldsOf time).hour) hr.hour.1 (by have := hr.hour; omega)
  have h₅ := readDigits_padded 2 (n := (fieldsOf time).minute) hr.minute.1
    (by have := hr.minute; omega)
  have h₆ := readDigits_padded 2 (n := (fieldsOf time).second) hr.second.1
    (by have := hr.second; omega)
  have h₇ := readDigits_padded 3 hr.ms.1 hr.ms.2
  rw [toISOString, hyear]
  rw [readIso_parts (length_padded _ _) (length_padded _ _)
    (length_padded _ _) (length_padded _ _) (length_padded _ _)
    (length_padded _ _), readFraction_digits (length_padded _ _),
    h₁, h₂, h₃, h₄, h₅, h₆, h₇]
  rfl

/-! ## Base64 round trip -/

theorem sextetOf_sextetChar {n : Nat} (h : n < 64) : sextetOf (sextetChar n) = n := by
  have hall : ∀ m : Fin 64, sextetOf (sextetChar m) = m := by decide +kernel
  exact hall ⟨n, h⟩

theorem sextetChar_mem {n : Nat} (h : n < 64) : sextetChar n ∈ alphabet := by
  have hall : ∀ m : Fin 64, sextetChar m ∈ alphabet := by decide +kernel
  exact hall ⟨n, h⟩

/-- **BASE64 ROUND TRIP.** -/
theorem fromBase64_toBase64 (bytes : List Nat) (h : ∀ b ∈ bytes, b < 256) :
    fromBase64 (toBase64 bytes) = bytes := by
  fun_induction toBase64 bytes with
  | case1 => rfl
  | case2 a =>
    have ha := h a (by simp)
    simp only [fromBase64, map_cons, map_nil]
    rw [sextetOf_sextetChar (by omega), sextetOf_sextetChar (by omega), sextetBytes]
    refine congrArg (· :: []) ?_
    omega
  | case3 a b =>
    have ha := h a (by simp)
    have hb := h b (by simp)
    simp only [fromBase64, map_cons, map_nil]
    rw [sextetOf_sextetChar (by omega), sextetOf_sextetChar (by omega),
      sextetOf_sextetChar (by omega), sextetBytes]
    refine congrArg₂ (fun x y => [x, y]) ?_ ?_
    · omega
    · omega
  | case4 a b c rest ih =>
    have ha := h a (by simp)
    have hb := h b (by simp)
    have hc := h c (by simp)
    have hrest := ih (fun x hx => h x (by simp [hx]))
    rw [fromBase64] at hrest
    simp only [fromBase64, map_cons]
    rw [sextetOf_sextetChar (by omega), sextetOf_sextetChar (by omega),
      sextetOf_sextetChar (by omega), sextetOf_sextetChar (by omega),
      sextetBytes, hrest]
    have h₁ : a / 4 * 4 + (a % 4 * 16 + b / 16) / 16 = a := by omega
    have h₂ : (a % 4 * 16 + b / 16) % 16 * 16 + (b % 16 * 4 + c / 64) / 4 = b := by omega
    have h₃ : (b % 16 * 4 + c / 64) % 4 * 64 + c % 64 = c := by omega
    rw [h₁, h₂, h₃]

theorem mem_alphabet_of_toBase64 (bytes : List Nat)
    (h : ∀ b ∈ bytes, b < 256) : ∀ c ∈ toBase64 bytes, c ∈ alphabet := by
  fun_induction toBase64 bytes with
  | case1 => exact nofun
  | case2 a =>
    have ha := h a (by simp)
    simp only [forall_mem_cons]
    exact ⟨sextetChar_mem (by omega), sextetChar_mem (by omega), nofun⟩
  | case3 a b =>
    have ha := h a (by simp)
    have hb := h b (by simp)
    simp only [forall_mem_cons]
    exact ⟨sextetChar_mem (by omega), sextetChar_mem (by omega),
      sextetChar_mem (by omega), nofun⟩
  | case4 a b c rest ih =>
    have ha := h a (by simp)
    have hb := h b (by simp)
    have hc := h c (by simp)
    simp only [forall_mem_cons]
    exact ⟨sextetChar_mem (by omega), sextetChar_mem (by omega),
      sextetChar_mem (by omega), sextetChar_mem (by omega),
      ih (fun x hx => h x (by simp [hx]))⟩

theorem length_toBase64 (bytes : List Nat) :
    (toBase64 bytes).length = (bytes.length * 4 + 2) / 3 := by
  fun_induction toBase64 bytes with
  | case1 => rfl
  | case2 a => simp only [length_cons, length_nil]
  | case3 a b => simp only [length_cons, length_nil]
  | case4 a b c rest ih =>
    simp only [length_cons, ih]
    omega

/-! ## Cursors round trip -/

variable {c : Char}

theorem not_isSpace_of_mem_alphabet (h : c ∈ alphabet) : isSpace c = false := by
  have hall : alphabet.all (fun c => !isSpace c) = true := by decide
  have hc := all_eq_true.mp hall c h
  rw [Bool.not_eq_true'] at hc
  exact hc

theorem splitBar_of_no_bar {cs : List Char} (h : ∀ c ∈ cs, c ≠ '|') : splitBar cs = [cs] := by
  induction cs with
  | nil => rfl
  | cons c rest ih =>
    rw [splitBar, if_neg (h c (.head _)), ih (fun d hd => h d (.tail _ hd))]

theorem splitBar_pair {iso id : List Char} (hiso : ∀ c ∈ iso, c ≠ '|')
    (hid : ∀ c ∈ id, c ≠ '|') : splitBar (iso ++ '|' :: id) = [iso, id] := by
  induction iso with
  | nil => rw [nil_append, splitBar, if_pos rfl, splitBar_of_no_bar hid]
  | cons c rest ih =>
    rw [cons_append, splitBar, if_neg (hiso c (.head _)), ih (fun d hd => hiso d (.tail _ hd))]

/-- What the characters of a cursor's text have in common. -/
def Plain (c : Char) : Prop :=
  c ≠ '|' ∧ c.toNat < 128 ∧ isSpace c = false

instance (c : Char) : Decidable (Plain c) :=
  inferInstanceAs (Decidable (_ ∧ _ ∧ _))

/-- The hexadecimal digits: the sixteen, and six capitals. -/
theorem mem_hexDigits (h : isHex c = true) : c ∈ "0123456789abcdefABCDEF".toList := by
  have hcode : (48 ≤ c.toNat ∧ c.toNat ≤ 57) ∨ (97 ≤ c.toNat ∧ c.toNat ≤ 102)
      ∨ (65 ≤ c.toNat ∧ c.toNat ≤ 70) := by
    simp only [isHex, Bool.or_eq_true, Bool.and_eq_true, decide_eq_true_eq,
      isDigit, le_def, UInt32.le_iff_toNat_le] at h
    simp only [Char.toNat]
    rcases h with (h | h) | h
    · exact .inl h
    · exact .inr (.inl h)
    · exact .inr (.inr h)
  have hofNat : c = ofNat c.toNat := (ofNat_toNat c).symm
  rw [hofNat]
  generalize c.toNat = n at hcode
  rcases hcode with ⟨h₁, h₂⟩ | ⟨h₁, h₂⟩ | ⟨h₁, h₂⟩
  · interval_cases n
    all_goals decide
  · interval_cases n
    all_goals decide
  interval_cases n
  all_goals decide

theorem plain_of_isHex (h : isHex c = true ∨ c = '-') : Plain c := by
  have hall : ∀ c ∈ "-0123456789abcdefABCDEF".toList, Plain c :=
    all_iff_forall_prop.mp (by decide +kernel)
  rcases h with hhex | rfl
  · exact hall c (.tail _ (mem_hexDigits hhex))
  · exact hall _ (.head _)

theorem plain_of_isDigit (h : c.isDigit = true) : Plain c :=
  plain_of_isHex (.inl (by simp [isHex, h]))

theorem plain_of_mem_padded {width : Nat} {n : Int} (h : c ∈ padded width n) : Plain c :=
  plain_of_isDigit (all_eq_true.mp (all_isDigit_padded width n) c h)

/-- Dates are written in plain characters, in every year. -/
theorem plain_of_mem_toISOString {time : Int} (h : c ∈ toISOString time) : Plain c := by
  have hsign : ∀ c ∈ ['-', '+', 'T', ':', '.', 'Z'], Plain c :=
    all_iff_forall_prop.mp (by decide +kernel)
  have hyear : ∀ {y : Int}, c ∈ yearText y → Plain c := by
    intro y hy
    rw [yearText] at hy
    split at hy
    · exact plain_of_mem_padded hy
    rcases mem_cons.mp hy with hc | hy
    · refine hsign c ?_
      split at hc <;> simp [hc]
    · exact plain_of_mem_padded hy
  simp only [toISOString, mem_append, mem_cons, not_mem_nil, or_false] at h
  rcases h with hy | rfl | hp | rfl | hp | rfl | hp | rfl | hp | rfl | hp | rfl
    | hp | rfl
  · exact hyear hy
  · exact hsign _ (by simp)
  · exact plain_of_mem_padded hp
  · exact hsign _ (by simp)
  · exact plain_of_mem_padded hp
  · exact hsign _ (by simp)
  · exact plain_of_mem_padded hp
  · exact hsign _ (by simp)
  · exact plain_of_mem_padded hp
  · exact hsign _ (by simp)
  · exact plain_of_mem_padded hp
  · exact hsign _ (by simp)
  · exact plain_of_mem_padded hp
  · exact hsign _ (by simp)

theorem length_toISOString_le (time : Int) : (toISOString time).length ≤ 27 := by
  have hyear : (yearText (fieldsOf time).year).length ≤ 7 := by
    rw [yearText]
    split
    · rw [length_padded]
      omega
    · rw [length_cons, length_padded]
  simp only [toISOString, length_append, length_cons, length_nil, length_padded]
  omega

/-! ## Identifiers -/

variable {id : List Char} {c : Char}

theorem isUuid_iff : isUuid id = true ↔
    id.length = 36 ∧ ∀ i < 36, (if i = 8 ∨ i = 13 ∨ i = 18 ∨ i = 23
      then id.getD i ' ' == '-' else isHex (id.getD i ' ')) = true := by
  simp only [isUuid, Bool.and_eq_true, decide_eq_true_eq, all_eq_true, mem_range]

/-- A character of a UUID is a hexadecimal digit or a dash. -/
theorem mem_of_isUuid (h : isUuid id = true) (hc : c ∈ id) : isHex c = true ∨ c = '-' := by
  obtain ⟨hlen, hall⟩ := isUuid_iff.mp h
  obtain ⟨i, hi, hget⟩ := getElem_of_mem hc
  have hat := hall i (by omega)
  rw [getD_eq_getElem _ _ hi, hget] at hat
  split at hat
  · exact .inr (beq_iff_eq.mp hat)
  · exact .inl hat

theorem plain_of_mem_isUuid (h : isUuid id = true) (hc : c ∈ id) : Plain c :=
  plain_of_isHex (mem_of_isUuid h hc)

theorem toLower_facts (h : isHex c = true ∨ c = '-') : (isHex c = true → isHex c.toLower = true)
    ∧ (c = '-' → c.toLower = '-') ∧ c.toLower.toLower = c.toLower := by
  have hall : ∀ c ∈ "-0123456789abcdefABCDEF".toList, (isHex c = true → isHex c.toLower = true)
      ∧ (c = '-' → c.toLower = '-') ∧ c.toLower.toLower = c.toLower :=
    all_iff_forall_prop.mp (by decide +kernel)
  rcases h with hhex | rfl
  · exact hall c (.tail _ (mem_hexDigits hhex))
  · exact hall _ (.head _)

theorem isUuid_lowerCase (h : isUuid id = true) : isUuid (lowerCase id) = true := by
  obtain ⟨hlen, hall⟩ := isUuid_iff.mp h
  refine isUuid_iff.mpr ⟨by rw [lowerCase, length_map, hlen], ?_⟩
  intro i hi
  have hi' : i < id.length := by omega
  have hlower : (lowerCase id).getD i ' ' = (id.getD i ' ').toLower := by
    rw [getD_eq_getElem _ _ hi', getD_eq_getElem _ _ (by rw [lowerCase, length_map]; exact hi')]
    simp [lowerCase]
  have hmem : id.getD i ' ' ∈ id := by
    rw [getD_eq_getElem _ _ hi']
    exact getElem_mem hi'
  obtain ⟨hhex, hdash, -⟩ := toLower_facts (mem_of_isUuid h hmem)
  have hat := hall i hi
  rw [hlower]
  split
  · rename_i hpos
    rw [if_pos hpos] at hat
    exact beq_iff_eq.mpr (hdash (beq_iff_eq.mp hat))
  rename_i hpos
  rw [if_neg hpos] at hat
  exact hhex hat

theorem lowerCase_lowerCase (h : isUuid id = true) : lowerCase (lowerCase id) = lowerCase id := by
  rw [lowerCase, lowerCase, map_map]
  refine map_congr_left ?_
  intro c hc
  exact (toLower_facts (mem_of_isUuid h hc)).2.2

/-! ## The round trip -/

theorem decodeInvoiceCursor_toBase64 {raw iso id : List Char}
    (hplain : ∀ c ∈ raw, c.toNat < 128) (hlen : raw.length ≤ 384)
    (hsplit : splitBar raw = [iso, id]) (hid : isUuid id = true) :
    decodeInvoiceCursor (toBase64 (raw.map toNat)) = match (readIso iso).bind dateFromIso with
        | none => none
        | some createdAt =>
          if toISOString createdAt ≠ iso ∧ dropZeroFraction (toISOString createdAt) ≠ iso then none
          else some ⟨createdAt, String.ofList (lowerCase id)⟩ := by
  have hne : raw.length ≠ 0 := by
    intro hzero
    rw [length_eq_zero_iff.mp hzero] at hsplit
    cases hsplit
  have hbytes : ∀ b ∈ raw.map toNat, b < 256 := by
    intro b hb
    obtain ⟨c, hc, rfl⟩ := mem_map.mp hb
    have := hplain c hc
    omega
  have halphabet := mem_alphabet_of_toBase64 _ hbytes
  -- the text is over the alphabet, not empty and short enough
  have htext := length_toBase64 (raw.map toNat)
  rw [length_map] at htext
  have hguard : ((toBase64 (raw.map toNat)).isEmpty
      || decide (512 < (toBase64 (raw.map toNat)).length)
      || !(toBase64 (raw.map toNat)).all (fun c => decide (c ∈ alphabet))) = false := by
    have hshort : decide (512 < (toBase64 (raw.map toNat)).length) = false := by
      refine decide_eq_false ?_
      omega
    rw [hshort, all_eq_true.mpr (fun c hc => decide_eq_true (halphabet c hc))]
    cases hbase : toBase64 (raw.map toNat) with
    | nil =>
      rw [hbase, length_nil] at htext
      omega
    | cons c rest => rfl
  have hascii : ((raw.map toNat).any (fun b => decide (128 ≤ b))) = false := by
    rw [any_eq_false]
    intro b hb
    obtain ⟨c, hc, rfl⟩ := mem_map.mp hb
    have := hplain c hc
    simp only [decide_eq_true_eq]
    omega
  have hchars : (raw.map toNat).map ofNat = raw := by
    rw [map_map]
    refine (map_congr_left ?_).trans (map_id raw)
    intro c _
    exact ofNat_toNat c
  rw [decodeInvoiceCursor]
  simp only [trimChars_of_no_space
    (fun c hc => not_isSpace_of_mem_alphabet (halphabet c hc)), hguard,
    fromBase64_toBase64 _ hbytes, hascii, hchars, hsplit, hid,
    Bool.false_eq_true, Bool.true_eq_false, if_false]

variable {createdAt : Int} {id : String} {time : Int}

theorem decode_encode_eq (hrange : |createdAt| ≤ 8640000000000000) (hid : isUuid id.toList = true) :
    ∃ text, encodeInvoiceCursor createdAt id = .ok text ∧ text ≠ [] ∧ decodeInvoiceCursor text
        = match (readIso (toISOString createdAt)).bind dateFromIso with
          | none => none
          | some t =>
            if toISOString t ≠ toISOString createdAt
                ∧ dropZeroFraction (toISOString t) ≠ toISOString createdAt
            then none
            else some ⟨t, String.ofList (lowerCase id.toList)⟩ := by
  have htrim : trimChars id.toList = id.toList :=
    trimChars_of_no_space (fun c hc => (plain_of_mem_isUuid hid hc).2.2)
  have hlower := isUuid_lowerCase hid
  refine ⟨toBase64 ((toISOString createdAt
    ++ '|' :: lowerCase id.toList).map toNat), ?_, ?_, ?_⟩
  · rw [encodeInvoiceCursor]
    simp only [htrim, hid, if_neg (not_lt.mpr hrange), Bool.true_eq_false, if_false]
  · rw [← length_pos_iff, length_toBase64, length_map, length_append, length_cons]
    omega
  rw [decodeInvoiceCursor_toBase64 _ _ (splitBar_pair (fun c hc => (plain_of_mem_toISOString hc).1)
    (fun c hc => (plain_of_mem_isUuid hlower hc).1)) hlower,
    lowerCase_lowerCase hid]
  · intro c hc
    rcases mem_append.mp hc with hc | hc
    · exact (plain_of_mem_toISOString hc).2.1
    rcases mem_cons.mp hc with rfl | hc
    · decide
    · exact (plain_of_mem_isUuid hlower hc).2.1
  · have hiso := length_toISOString_le createdAt
    rw [length_append, length_cons, lowerCase, length_map, (isUuid_iff.mp hid).1]
    omega

/-- **CURSORS ROUND TRIP**: the decoder accepts what the encoder wrote, for a
    UUID and a creation time in a year of four digits. -/
theorem decode_encode (hyear : FourDigitYear createdAt) (hid : isUuid id.toList = true) :
    ∃ text, encodeInvoiceCursor createdAt id = .ok text ∧ decodeInvoiceCursor text
        = some ⟨createdAt, String.ofList (lowerCase id.toList)⟩ := by
  have hrange : |createdAt| ≤ 8640000000000000 := by
    obtain ⟨hlow, hhigh⟩ := hyear
    rw [Int.abs_eq_natAbs]
    omega
  obtain ⟨text, hencode, -, hdecode⟩ := decode_encode_eq hrange hid
  refine ⟨text, hencode, ?_⟩
  rw [hdecode, readIso_toISOString hyear, Option.bind_some, dateFromIso_fieldsOf hyear]
  simp

theorem readIso_cons_of_not_isDigit {c : Char} (h : c.isDigit = false)
    (rest : List Char) : readIso (c :: rest) = none := by
  rw [readIso.eq_def]
  split
  · rename_i heq
    obtain ⟨rfl, -⟩ := cons.inj heq
    simp [readDigits, h]
  · rfl

theorem toISOString_wide (h : ¬ FourDigitYear time) :
    ∃ c rest, toISOString time = c :: rest ∧ c.isDigit = false := by
  have hyear : ¬ (0 ≤ (fieldsOf time).year ∧ (fieldsOf time).year ≤ 9999) := by
    obtain ⟨hlow, hhigh⟩ := yearFromDay_spec (time / 86400000)
    rw [FourDigitYear] at h
    simp only [fieldsOf]
    simp only [dayFromYear] at hlow hhigh
    omega
  rw [toISOString, yearText, if_neg hyear, cons_append]
  refine ⟨_, _, rfl, ?_⟩
  split
  · rfl
  · rfl

theorem readIso_toISOString_wide (h : ¬ FourDigitYear time) :
    readIso (toISOString time) = none := by
  obtain ⟨c, rest, htext, hc⟩ := toISOString_wide h
  rw [htext, readIso_cons_of_not_isDigit hc]

/-- **A REFUSED CURSOR**: in any other year the decoder refuses what the
    encoder wrote. -/
theorem decode_encode_wide (hyear : ¬ FourDigitYear createdAt)
    (hrange : |createdAt| ≤ 8640000000000000) (hid : isUuid id.toList = true) :
    ∃ text, encodeInvoiceCursor createdAt id = .ok text
      ∧ text ≠ [] ∧ decodeInvoiceCursor text = none := by
  obtain ⟨text, hencode, hne, hdecode⟩ := decode_encode_eq hrange hid
  rw [readIso_toISOString_wide hyear] at hdecode
  exact ⟨text, hencode, hne, hdecode⟩

end Cursors

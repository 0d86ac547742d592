import Inqutum.CapabilityTokenProofs

/-!
# Signed page cursors

A cursor names the position of a row, its sort time and its id, next to a
hash of the scope and a signature, and travels as base64url.  The position
sits between two rows of the order (time descending, id descending).

The digests are parameters: a digest is 32 bytes, whatever it is.  The
scope is known by its stable text.

`decode_encode`: a cursor reads back as the position it was made of, if
the id is not empty, has no `|` and no lone surrogate, and is short enough
for the text to pass the reader's limit of 512 characters.
-/

namespace StableCursor

open JsonText (CodeUnit Text ascii unit)
open Stringify (char)
open Utf8 (encode_append length_encode_ascii)
open Stringify JsNumber Utf8 Cursors Capability

/-! ## Positions -/

/-- `Date | string | number`. -/
inductive SortKey where
  /-- A date by its time, if it is valid. -/
  | date (time : Option Int)
  | text (value : Text)
  | number (value : JsNumber)

structure Host where
  sha256 : List Nat → Vector (Fin 256) 32
  /-- `createHmac('sha256', secret).update(bytes).digest()`. -/
  hmacSha256 : Text → List Nat → Vector (Fin 256) 32
  /-- `new Date(text).getTime()`, if the text is a date. -/
  dateParse : Text → Option Int

def toMs (host : Host) : SortKey → Int
  | .date time => time.getD 0
  | .text value => (host.dateParse value).getD 0
  | .number (.finite q) => trunc q
  | .number _ => 0

structure Position where
  ms : Int
  id : Text
  deriving DecidableEq

/-- Negative when `a` comes first; ids are compared by code units. -/
def compareStable (a b : Position) : Int :=
  if a.ms ≠ b.ms then b.ms - a.ms
  else if a.id < b.id then 1
  else if b.id < a.id then -1
  else 0

/-! ## The cursor -/

/-- `digest('base64url')`. -/
def digestText (digest : Vector (Fin 256) 32) : Text :=
  (toBase64 (digest.toList.map Fin.val)).map unit

theorem digest_lt (digest : Vector (Fin 256) 32) : ∀ b ∈ digest.toList.map Fin.val, b < 256 := by
  intro b hb
  obtain ⟨d, -, rfl⟩ := List.mem_map.mp hb
  exact d.isLt

theorem length_digestText (digest : Vector (Fin 256) 32) : (digestText digest).length = 43 := by
  rw [digestText, List.length_map, length_toBase64, List.length_map, Vector.length_toList]

open List

/-- The hash of a scope, by its stable text. -/
def scopeHash (host : Host) (scope : Text) : Text :=
  (digestText (host.sha256 (encode scope))).take 22

def sign (host : Host) (secret body : Text) : Text :=
  (digestText (host.hmacSha256 secret (encode body))).take 32

def bar : CodeUnit := unit '|'

/-- What is signed. -/
def bodyText (msRaw id scopePart : Text) : Text :=
  msRaw ++ bar :: (id ++ bar :: scopePart)

def encodeStableCursor (host : Host) (scope secret : Text) (position : Position) : Text :=
  let body := bodyText (numberText position.ms) position.id (scopeHash host scope)
  (toBase64 (encode (body ++ bar :: sign host secret body))).map unit

inductive InvalidStableCursor where
  | malformed
  | signature
  | scope
  deriving DecidableEq

/-- One to sixteen digits that make a safe integer. -/
def readMs (msRaw : Text) : Option Int :=
  if 1 ≤ msRaw.length ∧ msRaw.length ≤ 16 ∧ msRaw.all JsonText.isDigit = true then
    match ofText (String.ofList (msRaw.map char)) with
    | .finite q =>
      if (finite q).isSafeInteger then some q.num else none
    | _ => none
  else none

/-- The fields of a cursor, checked. -/
def readFields (host : Host) (scope secret : Text) : List Text → Except InvalidStableCursor Position
  | [msRaw, id, scopePart, sig] =>
    match readMs msRaw with
    | none => .error .malformed
    | some ms =>
      if id = [] then .error .malformed
      else if encode (sign host secret (bodyText msRaw id scopePart))
          ≠ encode sig then .error .signature
      else if scopePart ≠ scopeHash host scope then .error .scope
      else .ok ⟨ms, id⟩
  | _ => .error .malformed

def decodeStableCursor (host : Host) (scope secret cursor : Text) :
    Except InvalidStableCursor Position :=
  if cursor = [] ∨ 512 < cursor.length
      ∨ isBase64Url cursor = false then .error .malformed
  else
    readFields host scope secret ((decode (fromBase64 (cursor.map char))).splitOn bar)

/-- An ASCII character is its code. -/
theorem unit_val {c : Char} (h : c.toNat < 128) : (unit c).val = c.toNat := by
  show c.toNat % 65536 = c.toNat
  omega

/-! ## Texts over the alphabet -/

/-- Every unit is a letter, a digit, `-` or `_`. -/
def Coded (text : Text) : Prop :=
  ∀ c ∈ text, ∃ ch ∈ alphabet, c = unit ch

theorem coded_toBase64 {bytes : List Nat} (h : ∀ b ∈ bytes, b < 256) :
    Coded ((toBase64 bytes).map unit) := by
  intro c hc
  obtain ⟨ch, hch, rfl⟩ := mem_map.mp hc
  exact ⟨ch, mem_alphabet_of_toBase64 bytes h ch hch, rfl⟩

variable {text : Text}

theorem Coded.take (h : Coded text) (n : Nat) : Coded (text.take n) :=
  fun c hc => h c (mem_of_mem_take hc)

theorem Coded.lt (h : Coded text) : ∀ c ∈ text, c.val < 0x80 := by
  intro c hc
  obtain ⟨ch, hch, rfl⟩ := h c hc
  have hascii := ascii_alphabet ch hch
  rw [unit_val hascii]
  exact hascii

theorem Coded.no_bar (h : Coded text) : bar ∉ text := by
  intro hc
  obtain ⟨ch, hch, heq⟩ := h bar hc
  -- the alphabet is small enough to be looked through
  have hall : alphabet.all (fun ch => bar ≠ unit ch) = true := by decide
  exact of_decide_eq_true (all_eq_true.mp hall ch hch) heq

theorem Coded.isBase64Url (h : Coded text) (hne : text ≠ []) :
    Capability.isBase64Url text = true := by
  have hall : alphabet.all (fun ch => Capability.isBase64Url [unit ch]) = true := by decide
  rw [Capability.isBase64Url, Bool.and_eq_true]
  constructor
  · rw [Bool.not_eq_true', isEmpty_eq_false_iff]
    exact hne
  refine all_eq_true.mpr (fun c hc => ?_)
  obtain ⟨ch, hch, rfl⟩ := h c hc
  have hone := all_eq_true.mp hall ch hch
  rw [Capability.isBase64Url, all_cons, all_nil, Bool.and_true, Bool.and_eq_true] at hone
  exact hone.2

theorem coded_scopeHash (host : Host) (scope : Text) :
    Coded (scopeHash host scope) ∧ (scopeHash host scope).length = 22 := by
  refine ⟨(coded_toBase64 (digest_lt _)).take 22, ?_⟩
  rw [scopeHash, length_take, length_digestText]
  rfl

theorem coded_sign (host : Host) (secret body : Text) :
    Coded (sign host secret body) ∧ (sign host secret body).length = 32 := by
  refine ⟨(coded_toBase64 (digest_lt _)).take 32, ?_⟩
  rw [sign, length_take, length_digestText]
  rfl

/-! ## Four fields -/

/-- Four fields with bars between them. -/
def fourFields (a b c d : Text) : Text :=
  a ++ bar :: (b ++ bar :: (c ++ bar :: d))

section Fields

variable {a b c d : Text}

theorem splitOn_fourFields (ha : bar ∉ a) (hb : bar ∉ b) (hc : bar ∉ c)
    (hd : bar ∉ d) : (fourFields a b c d).splitOn bar = [a, b, c, d] := by
  rw [fourFields, splitOn_append_cons_self_of_not_mem ha, splitOn_append_cons_self_of_not_mem hb,
    splitOn_append_cons_self_of_not_mem hc,
    splitOn_eq_singleton hd]

theorem wellFormed_ascii {text : Text} (h : ∀ c ∈ text, c.val < 0x80) : wellFormed text = true :=
  wellFormed_of_plain (fun c hc =>
    isSurrogate_of_lt ((h c hc).trans (by norm_num)))

theorem wellFormed_fourFields (ha : ∀ x ∈ a, x.val < 0x80)
    (hb : wellFormed b = true) (hc : ∀ x ∈ c, x.val < 0x80) (hd : ∀ x ∈ d, x.val < 0x80) :
    wellFormed (fourFields a b c d) = true := by
  have hbar : wellFormed [bar] = true := by decide
  have hcd : wellFormed (c ++ bar :: d) = true :=
    wellFormed_append (wellFormed_ascii hc)
      (wellFormed_append hbar (wellFormed_ascii hd))
  have hbcd : wellFormed (b ++ bar :: (c ++ bar :: d)) = true :=
    wellFormed_append hb (wellFormed_append hbar hcd)
  exact wellFormed_append (wellFormed_ascii ha) (wellFormed_append hbar hbcd)

theorem length_encode_fourFields (ha : ∀ x ∈ a, x.val < 0x80)
    (hc : ∀ x ∈ c, x.val < 0x80) (hd : ∀ x ∈ d, x.val < 0x80) : (encode (fourFields a b c d)).length
      = a.length + (encode b).length + c.length + d.length + 3 := by
  have hbar : bar.val < 0x80 := by decide
  rw [fourFields, encode_append hbar, encode_append hbar, encode_append hbar]
  simp only [length_append, length_cons, length_encode_ascii ha,
    length_encode_ascii hc, length_encode_ascii hd]
  omega

end Fields

theorem decode_coded (host : Host) (scope secret : Text) {text : Text}
    (hwf : wellFormed text = true) (hpos : 0 < (encode text).length)
    (hlen : (encode text).length ≤ 384) :
    decodeStableCursor host scope secret ((toBase64 (encode text)).map unit)
      = readFields host scope secret (text.splitOn bar) := by
  have hbytes := encode_lt text
  have hbase := length_toBase64 (encode text)
  have hne : (toBase64 (encode text)).map unit ≠ [] := by
    refine ne_nil_of_length_pos ?_
    rw [length_map, hbase]
    omega
  have hcoded := (coded_toBase64 hbytes).isBase64Url hne
  -- four characters carry three bytes, so 384 bytes are 512 characters
  have haccepted : ¬ ((toBase64 (encode text)).map unit = []
      ∨ 512 < ((toBase64 (encode text)).map unit).length
      ∨ isBase64Url ((toBase64 (encode text)).map unit) = false) := by
    rw [hcoded, length_map, hbase]
    simp only [hne, Bool.true_eq_false, or_false, false_or]
    omega
  have hascii := mem_alphabet_of_toBase64 _ hbytes
  rw [decodeStableCursor, if_neg haccepted, map_char_unit (fun ch hch =>
      ascii_alphabet ch (hascii ch hch)),
    fromBase64_toBase64 _ hbytes, decode_encode hwf]

/-! ## The round trip -/

/-- What a cursor can carry: a time that is a natural safe integer, and an id
    that is not empty, has neither `|` nor a lone surrogate, and leaves room
    for the rest in 384 bytes. -/
structure Carried (position : Position) : Prop where
  nonneg : 0 ≤ position.ms
  safe : position.ms < 2 ^ 53
  named : position.id ≠ []
  no_bar : bar ∉ position.id
  wellFormed : wellFormed position.id = true
  short : (wholeDigits position.ms).length + (encode position.id).length ≤ 327

section RoundTrip

variable {position : Position} (h : Carried position)

include h

theorem msText_eq : numberText (position.ms : ℚ)
    = (Nat.toDigits 10 position.ms.natAbs).map unit := by
  have hnonneg := h.nonneg
  have hsafe := h.safe
  rw [numberText_int (by omega), wholeDigits, if_neg (by omega)]

theorem length_msText : 1 ≤ (Nat.toDigits 10 position.ms.natAbs).length
    ∧ (Nat.toDigits 10 position.ms.natAbs).length ≤ 16 := by
  have hnonneg := h.nonneg
  have hsafe := h.safe
  constructor
  · exact length_pos_of_ne_nil Nat.toDigits_ne_nil
  refine (Nat.length_toDigits_le_iff (by norm_num) (by norm_num)).mpr ?_
  have hpow : (2 : Nat) ^ 53 ≤ 10 ^ 16 := by norm_num
  omega

omit h in
theorem msText_digits : ∀ c ∈ (Nat.toDigits 10 position.ms.natAbs).map unit,
    JsonText.isDigit c = true ∧ c.val < 0x80 := by
  intro c hc
  obtain ⟨ch, hch, rfl⟩ := mem_map.mp hc
  have hdigit := isDigit_toDigits _ ch hch
  have hbound := isDigit_bounds hdigit
  refine ⟨isDigit_unit hdigit, ?_⟩
  rw [unit_val (by omega)]
  omega

theorem readMs_msText : readMs ((Nat.toDigits 10 position.ms.natAbs).map unit)
      = some position.ms := by
  have hnonneg := h.nonneg
  have hsafe := h.safe
  have hlen := length_msText h
  have hwhole : Nat.toDigits 10 position.ms.natAbs = wholeDigits position.ms := by
    rw [wholeDigits, if_neg (by omega)]
  have hread := ofText_wholeDigits (n := position.ms) (by omega)
  have hint : (finite (position.ms : ℚ)).isSafeInteger = true := by
    refine isSafeInteger_iff.mpr ⟨position.ms, rfl, ?_⟩
    rw [Int.abs_eq_natAbs, maxSafeInteger]
    omega
  rw [readMs, if_pos ⟨by simpa using hlen.1, by simpa using hlen.2,
    all_eq_true.mpr (fun c hc => (msText_digits c hc).1)⟩, hwhole,
    map_char_unit (ascii_wholeDigits _), hread]
  show (if _ then some (position.ms : ℚ).num else none) = _
  rw [if_pos hint, Rat.num_intCast]

omit h in
theorem msText_no_bar : bar ∉ (Nat.toDigits 10 position.ms.natAbs).map unit := by
  intro hmem
  have hdigit := (msText_digits bar hmem).1
  exact absurd hdigit (by decide)

end RoundTrip

/-- **A CURSOR READS BACK** as the position it was made of. -/
theorem decode_encode (host : Host) (scope secret : Text)
    {position : Position} (h : Carried position) : decodeStableCursor host scope secret
      (encodeStableCursor host scope secret position) = .ok position := by
  obtain ⟨hscope, hscopeLen⟩ := coded_scopeHash host scope
  have hms := msText_eq h
  have hmsLen := length_msText h
  have hmsLt : ∀ c ∈ (Nat.toDigits 10 position.ms.natAbs).map unit,
      c.val < 0x80 := fun c hc => (msText_digits c hc).2
  have hread := readMs_msText h
  have hmsBar : bar ∉ (Nat.toDigits 10 position.ms.natAbs).map unit := msText_no_bar
  have hshort := h.short
  have hnonneg := h.nonneg
  rw [wholeDigits, if_neg (by omega)] at hshort
  generalize hdigits : (Nat.toDigits 10 position.ms.natAbs).map unit = digits
    at hms hmsLt hread hmsBar
  have hdigitsLen : digits.length = (Nat.toDigits 10 position.ms.natAbs).length := by
    rw [← hdigits, length_map]
  obtain ⟨hsig, hsigLen⟩ := coded_sign host secret
    (bodyText digits position.id (scopeHash host scope))
  have htext : bodyText digits position.id (scopeHash host scope) ++ bar :: sign host secret
          (bodyText digits position.id (scopeHash host scope))
      = fourFields digits position.id (scopeHash host scope) (sign host secret
          (bodyText digits position.id (scopeHash host scope))) := by
    simp [bodyText, fourFields]
  have hlen := length_encode_fourFields (b := position.id) hmsLt hscope.lt hsig.lt
  rw [encodeStableCursor, hms]
  show decodeStableCursor host scope secret ((toBase64 (encode
    (bodyText digits position.id (scopeHash host scope) ++ bar :: sign host
      secret (bodyText digits position.id (scopeHash host scope))))).map unit)
    = _
  rw [htext, decode_coded host scope secret
      (wellFormed_fourFields hmsLt h.wellFormed hscope.lt hsig.lt)
      (by omega) (by omega),
    splitOn_fourFields hmsBar h.no_bar hscope.no_bar hsig.no_bar, readFields,
    hread]
  show (if position.id = [] then _ else _) = _
  rw [if_neg h.named, if_neg (not_not.mpr rfl), if_neg (not_not.mpr rfl)]

end StableCursor

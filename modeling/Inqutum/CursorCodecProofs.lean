import Inqutum.InvoiceCursorProofs

/-!
# The cursor as a codec

The encoder writes every valid date, the decoder reads those in years of
four digits.  What the decoder returns it would return again: a date it
accepts is written back as it was read.  And the encoder never gives two
cursors one text, in whatever year they are.
-/

namespace Cursors

open Invoices List String JsText

/-! ## Dates are written apart -/

section Injective

variable {r r' : List Char}

theorem padded_append_inj {width : Nat} {m n : Int}
    (hm : 0 ≤ m ∧ m < 10 ^ width) (hn : 0 ≤ n ∧ n < 10 ^ width)
    (h : padded width m ++ r = padded width n ++ r') : m = n ∧ r = r' := by
  obtain ⟨hdigits, hrest⟩ := append_inj h
    ((length_padded width m).trans (length_padded width n).symm)
  have hread := readDigits_padded width hm.1 hm.2
  rw [hdigits, readDigits_padded width hn.1 hn.2] at hread
  exact ⟨(Option.some.inj hread).symm, hrest⟩

/-- A year of four digits starts with a digit, another one with a sign. -/
theorem yearText_append_ne {y z : Int} (hy : 0 ≤ y ∧ y ≤ 9999)
    (hz : ¬ (0 ≤ z ∧ z ≤ 9999)) : yearText y ++ r ≠ yearText z ++ r' := by
  intro h
  have hsign : ∀ c ∈ padded 4 y, c.isDigit = true := all_eq_true.mp (all_isDigit_padded 4 y)
  rw [yearText, if_pos hy, yearText, if_neg hz] at h
  cases hdigits : padded 4 y with
  | nil =>
    have hlength := length_padded 4 y
    rw [hdigits] at hlength
    cases hlength
  | cons c rest =>
    rw [hdigits] at h hsign
    have hc := hsign c (.head _)
    rw [(cons.inj h).1] at hc
    split at hc <;> cases hc

theorem yearText_append_inj {y z : Int} (hy : |y| < 10 ^ 6)
    (hz : |z| < 10 ^ 6) (h : yearText y ++ r = yearText z ++ r') : y = z ∧ r = r' := by
  by_cases hy₄ : 0 ≤ y ∧ y ≤ 9999
  · by_cases hz₄ : 0 ≤ z ∧ z ≤ 9999
    · rw [yearText, if_pos hy₄, yearText, if_pos hz₄] at h
      exact padded_append_inj (by omega) (by omega) h
    · exact absurd h (yearText_append_ne hy₄ hz₄)
  by_cases hz₄ : 0 ≤ z ∧ z ≤ 9999
  · exact absurd h.symm (yearText_append_ne hz₄ hy₄)
  rw [yearText, if_neg hy₄, yearText, if_neg hz₄] at h
  obtain ⟨hsign, hdigits⟩ := cons.inj h
  obtain ⟨habs, hrest⟩ := padded_append_inj ⟨abs_nonneg y, hy⟩ ⟨abs_nonneg z, hz⟩ hdigits
  refine ⟨?_, hrest⟩
  rcases abs_eq_abs.mp habs with heq | heq
  · exact heq
  -- opposite years have opposite signs
  split at hsign
  · split at hsign
    · omega
    · exact absurd hsign (by decide)
  split at hsign
  · exact absurd hsign (by decide)
  · omega

/-- A valid date has a year of at most six digits. -/
theorem abs_year_lt {time : Int} (h : |time| ≤ 8640000000000000) :
    |(fieldsOf time).year| < 10 ^ 6 := by
  obtain ⟨hyear, hnext⟩ := yearFromDay_spec (time / 86400000)
  show |yearFromDay (time / 86400000)| < 10 ^ 6
  rw [abs_le] at h
  simp only [dayFromYear] at hyear hnext
  rw [abs_lt]
  omega

/-- **DATES ARE WRITTEN APART**, in every year. -/
theorem toISOString_inj {t u : Int} (ht : |t| ≤ 8640000000000000)
    (hu : |u| ≤ 8640000000000000) (h : toISOString t = toISOString u) : t = u := by
  obtain ⟨tm, td, th, tn, ts, tf⟩ := fieldsOf_bounds t
  obtain ⟨um, ud, uh, un, us, uf⟩ := fieldsOf_bounds u
  obtain ⟨hyear, h⟩ := yearText_append_inj (abs_year_lt ht) (abs_year_lt hu) h
  obtain ⟨hmonth, h⟩ := padded_append_inj (by omega) (by omega) (cons.inj h).2
  obtain ⟨hday, h⟩ := padded_append_inj (by omega) (by omega) (cons.inj h).2
  obtain ⟨hhour, h⟩ := padded_append_inj (by omega) (by omega) (cons.inj h).2
  obtain ⟨hminute, h⟩ := padded_append_inj (by omega) (by omega) (cons.inj h).2
  obtain ⟨hsecond, h⟩ := padded_append_inj (by omega) (by omega) (cons.inj h).2
  obtain ⟨hms, -⟩ := padded_append_inj (by omega) (by omega) (cons.inj h).2
  have hfields : fieldsOf t = fieldsOf u := by
    cases hft : fieldsOf t
    cases hfu : fieldsOf u
    rw [hft, hfu] at hyear hmonth hday hhour hminute hsecond hms
    simp only at hyear hmonth hday hhour hminute hsecond hms
    rw [hyear, hmonth, hday, hhour, hminute, hsecond, hms]
  rw [← timeOf_fieldsOf t, hfields, timeOf_fieldsOf]

end Injective

/-! ## What the encoder writes -/

/-- What the encoder takes: a valid date, and a UUID in any letter case with
    white space around it. -/
structure Encodable where
  createdAt : Int
  id : String
  valid : |createdAt| ≤ 8640000000000000
  uuid : isUuid (trimChars id.toList) = true

namespace Encodable

/-- The id as the cursor keeps it. -/
def plainId (x : Encodable) : List Char :=
  lowerCase (trimChars x.id.toList)

def raw (x : Encodable) : List Char :=
  toISOString x.createdAt ++ '|' :: x.plainId

theorem isUuid_plainId (x : Encodable) : isUuid x.plainId = true :=
  isUuid_lowerCase x.uuid

theorem encode_eq (x : Encodable) : encodeInvoiceCursor x.createdAt x.id
      = .ok (toBase64 (x.raw.map Char.toNat)) := by
  rw [encodeInvoiceCursor]
  simp only [x.uuid, if_neg (not_lt.mpr x.valid), Bool.true_eq_false, if_false]
  rfl

theorem encode_plain (x : Encodable) : encodeInvoiceCursor x.createdAt x.id
      = encodeInvoiceCursor x.createdAt (String.ofList (trimChars x.id.toList)) := by
  rw [encodeInvoiceCursor, encodeInvoiceCursor, toList_ofList, trimChars_trimChars]
  simp only [x.uuid, Bool.true_eq_false, if_false]

theorem raw_lt (x : Encodable) : ∀ c ∈ x.raw, c.toNat < 128 := by
  intro c hc
  rcases mem_append.mp hc with hc | hc
  · exact (plain_of_mem_toISOString hc).2.1
  rcases mem_cons.mp hc with rfl | hc
  · decide
  · exact (plain_of_mem_isUuid x.isUuid_plainId hc).2.1

theorem splitBar_raw (x : Encodable) : splitBar x.raw = [toISOString x.createdAt, x.plainId] :=
  splitBar_pair (fun _ hc => (plain_of_mem_toISOString hc).1)
    (fun _ hc => (plain_of_mem_isUuid x.isUuid_plainId hc).1)

end Encodable

theorem toBase64_inj {a b : List Nat} (ha : ∀ n ∈ a, n < 256)
    (hb : ∀ n ∈ b, n < 256) (h : toBase64 a = toBase64 b) : a = b := by
  rw [← fromBase64_toBase64 a ha, h, fromBase64_toBase64 b hb]

theorem encode_inj {x y : Encodable} (h : encodeInvoiceCursor x.createdAt x.id
      = encodeInvoiceCursor y.createdAt y.id) :
    x.createdAt = y.createdAt ∧ x.plainId = y.plainId := by
  have hbytes : ∀ z : Encodable, ∀ n ∈ z.raw.map Char.toNat, n < 256 := by
    intro z n hn
    obtain ⟨c, hc, rfl⟩ := mem_map.mp hn
    have hlow := z.raw_lt c hc
    omega
  rw [x.encode_eq, y.encode_eq] at h
  have hraw : x.raw = y.raw :=
    map_injective_iff.mpr (fun _ _ => Char.toNat_inj.mp)
      (toBase64_inj (hbytes x) (hbytes y) (Except.ok.inj h))
  have hsplit := x.splitBar_raw
  rw [hraw, y.splitBar_raw] at hsplit
  obtain ⟨hiso, hid⟩ := cons.inj hsplit
  exact ⟨toISOString_inj x.valid y.valid hiso.symm, (cons.inj hid).1.symm⟩

/-! ## What the decoder returns -/

theorem dropZeroFraction_wide {c : Char} {rest : List Char} (h : c.isDigit = false) :
    ∃ d tail, dropZeroFraction (c :: rest) = d :: tail ∧ d.isDigit = false := by
  rw [dropZeroFraction]
  split
  · cases hlength : (c :: rest).length - 5 with
    | zero => exact ⟨'Z', [], rfl, rfl⟩
    | succ n => exact ⟨c, _, rfl, h⟩
  · exact ⟨c, rest, rfl, h⟩

variable {c : InvoiceCursor} {v : List Char}

theorem decode_spec (h : decodeInvoiceCursor v = some c) :
    FourDigitYear c.createdAt ∧ ∃ id, isUuid id = true ∧ c.id = String.ofList (lowerCase id) := by
  rw [decodeInvoiceCursor] at h
  simp only at h
  split at h
  · cases h
  split at h
  · cases h
  split at h
  · rename_i iso id _
    split at h
    · cases h
    rename_i huuid
    split at h
    · cases h
    rename_i t hdate
    split at h
    · cases h
    rename_i hnormal
    cases h
    refine ⟨?_, id, by simpa using huuid, rfl⟩
    by_contra hwide
    obtain ⟨f, hread, -⟩ := Option.bind_eq_some_iff.mp hdate
    obtain ⟨d, rest, htext, hd⟩ := toISOString_wide hwide
    rw [htext] at hnormal
    -- the text the date was read from starts with no digit
    have hiso : ∃ d tail, iso = d :: tail ∧ d.isDigit = false := by
      by_cases hfull : d :: rest = iso
      · exact ⟨d, rest, hfull.symm, hd⟩
      by_cases hdropped : dropZeroFraction (d :: rest) = iso
      · rw [← hdropped]
        exact dropZeroFraction_wide hd
      · exact absurd ⟨hfull, hdropped⟩ hnormal
    obtain ⟨e, tail, rfl, he⟩ := hiso
    rw [readIso_cons_of_not_isDigit he] at hread
    cases hread
  · cases h

theorem decode_stable (h : decodeInvoiceCursor v = some c) :
    ∃ text, encodeInvoiceCursor c.createdAt c.id = .ok text
      ∧ decodeInvoiceCursor text = some c := by
  obtain ⟨hyear, id, hid, hc⟩ := decode_spec h
  have huuid : isUuid c.id.toList = true := by
    rw [hc, toList_ofList]
    exact isUuid_lowerCase hid
  obtain ⟨text, hencode, hdecode⟩ := decode_encode hyear huuid
  refine ⟨text, hencode, ?_⟩
  rw [hdecode, hc, toList_ofList, lowerCase_lowerCase hid, ← hc]

theorem decodes_iff (x : Encodable) : (∃ text, encodeInvoiceCursor x.createdAt x.id = .ok text
        ∧ decodeInvoiceCursor text = some ⟨x.createdAt, String.ofList x.plainId⟩)
      ↔ FourDigitYear x.createdAt := by
  have huuid : isUuid (String.ofList (trimChars x.id.toList)).toList = true := by
    rw [toList_ofList]
    exact x.uuid
  rw [x.encode_plain]
  constructor
  · rintro ⟨text, hencode, hdecode⟩
    by_contra hwide
    obtain ⟨text', hencode', -, hrefused⟩ := decode_encode_wide hwide x.valid huuid
    rw [hencode] at hencode'
    rw [← Except.ok.inj hencode', hdecode] at hrefused
    cases hrefused
  · intro hyear
    obtain ⟨text, hencode, hdecode⟩ := decode_encode hyear huuid
    rw [toList_ofList] at hdecode
    exact ⟨text, hencode, hdecode⟩

/-- **THE CODEC**: a cursor is decoded to its instant and its id exactly if the
    instant is in a year of four digits; whatever is decoded is decoded again
    from its own encoding; and encodings differ with the instant or the id. -/
theorem codec_iff (x : Encodable) : ((∃ text, encodeInvoiceCursor x.createdAt x.id = .ok text
        ∧ decodeInvoiceCursor text = some ⟨x.createdAt, String.ofList x.plainId⟩)
      ↔ FourDigitYear x.createdAt)
    ∧ (∀ v c, decodeInvoiceCursor v = some c →
      ∃ text, encodeInvoiceCursor c.createdAt c.id = .ok text ∧ decodeInvoiceCursor text = some c)
    ∧ ∀ y : Encodable, x.createdAt ≠ y.createdAt ∨ x.plainId ≠ y.plainId →
      encodeInvoiceCursor x.createdAt x.id ≠ encodeInvoiceCursor y.createdAt y.id := by
  refine ⟨decodes_iff x, fun v c => decode_stable, ?_⟩
  intro y hdiffer hsame
  obtain ⟨hinstant, hid⟩ := encode_inj hsame
  rcases hdiffer with hne | hne
  · exact hne hinstant
  · exact hne hid

/-- The first instant of the year 10000, with a UUID. -/
def yearTenThousand : Encodable where
  createdAt := 253402300800000
  id := "00000000-0000-4000-8000-000000000001"
  valid := by decide
  uuid := by decide +kernel

/-- It is encoded, and what was encoded is refused. -/
theorem year_ten_thousand_refused :
    ¬ ∃ text, encodeInvoiceCursor yearTenThousand.createdAt yearTenThousand.id = .ok text
      ∧ decodeInvoiceCursor text = some ⟨yearTenThousand.createdAt,
        String.ofList yearTenThousand.plainId⟩ := by
  rintro ⟨text, hencode, hdecode⟩
  have hyear := (decode_spec hdecode).1
  exact absurd hyear.2 (by decide)

end Cursors

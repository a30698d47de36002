import DebugAdapter.Json.Numeric
import DebugAdapter.Json.Printer
import DebugAdapter.Proofs.Text
import Mathlib.Algebra.Group.Int.Defs
import Mathlib.Algebra.Group.Nat.Defs
import Mathlib.Tactic.SplitIfs

namespace DebugAdapter.Json

variable {b e c : UInt8} {d : Char} {rest : Bytes}

def escaped (s : String) : Bytes :=
  (Bytes.ofString s).flatMap escapeByte

theorem printString_eq (s : String) :
    printString s = Byte.quote :: (escaped s ++ [Byte.quote]) := rfl

theorem readStringFrom_quote (done rest : Bytes) :
    readStringFrom done (Byte.quote :: rest) = .ok (done.reverse, rest) := by
  rw [readStringFrom.eq_def]
  simp only [if_true]

theorem readStringFrom_plain (hquote : b ≠ Byte.quote) (hescape : b ≠ Byte.backslash)
    (hcontrol : ¬ b < 0x20) (done rest : Bytes) :
    readStringFrom done (b :: rest) = readStringFrom (b :: done) rest := by
  conv => lhs; rw [readStringFrom.eq_def]
  simp only
  rw [if_neg hquote, if_neg hescape, if_neg hcontrol]

theorem readStringFrom_short (he : escaped? e = some c) (done rest : Bytes) :
    readStringFrom done (Byte.backslash :: e :: rest) = readStringFrom (c :: done) rest := by
  have hmark : e ≠ Byte.unicodeMark := by
    rintro rfl
    cases he
  conv => lhs; rw [readStringFrom.eq_def]
  simp only [if_true]
  rw [if_neg (by decide), if_neg hmark, he]

theorem readStringFrom_unicode {h₁ h₂ h₃ h₄ : UInt8} {unit : Nat}
    (hunit : codeUnit? h₁ h₂ h₃ h₄ = some unit) (hscalar : unit < 0xD800 ∨ 0xDFFF < unit)
    (done rest : Bytes) :
    readStringFrom done (Byte.backslash :: Byte.unicodeMark :: h₁ :: h₂ :: h₃ :: h₄ :: rest) =
      readStringFrom (pushCodePoint unit done) rest := by
  conv => lhs; rw [readStringFrom.eq_def]
  simp only [if_true, hunit]
  rw [if_neg (by decide), if_neg (by omega), if_neg (by omega)]

theorem hexDigit_hexByte : ∀ n < 16, Byte.hexDigit? (hexByte n) = some n := by decide

theorem codeUnit_hexByte (b : UInt8) :
    codeUnit? 0x30 0x30 (hexByte (b.toNat / 16)) (hexByte (b.toNat % 16)) = some b.toNat := by
  have hb : b.toNat < 256 := b.toNat_lt
  have hzero : Byte.hexDigit? 0x30 = some 0 := by decide
  have hhigh := hexDigit_hexByte (b.toNat / 16) (by omega)
  have hlow := hexDigit_hexByte (b.toNat % 16) (by omega)
  simp only [codeUnit?, hzero, hhigh, hlow, Option.bind_eq_bind, Option.bind_some, Option.pure_def,
    Option.some.injEq]
  omega

theorem pushCodePoint_control (hb : b < 0x20) (done : Bytes) :
    pushCodePoint b.toNat done = b :: done := by
  have hbytes : ∀ n < 0x20, (String.utf8EncodeChar (Char.ofNat n)).reverse = [n.toUInt8] := by
    decide
  rw [pushCodePoint, hbytes b.toNat hb, Nat.toUInt8_eq, UInt8.ofNat_toNat]
  rfl

/-- Each way of writing a byte is undone by reading it. -/
theorem readStringFrom_escapeByte (b : UInt8) (done rest : Bytes) :
    readStringFrom done (escapeByte b ++ rest) = readStringFrom (b :: done) rest := by
  unfold escapeByte
  split_ifs with hquote hescape hback hfeed hline hreturn htab hcontrol
  · exact readStringFrom_short (by rw [hquote]; rfl) done rest
  · exact readStringFrom_short (by rw [hescape]; rfl) done rest
  · exact readStringFrom_short (by rw [hback]; rfl) done rest
  · exact readStringFrom_short (by rw [hfeed]; rfl) done rest
  · exact readStringFrom_short (by rw [hline]; rfl) done rest
  · exact readStringFrom_short (by rw [hreturn]; rfl) done rest
  · exact readStringFrom_short (by rw [htab]; rfl) done rest
  · have hlow : b.toNat < 0x20 := hcontrol
    have hread := readStringFrom_unicode (codeUnit_hexByte b) (Or.inl (by omega)) done rest
    rw [pushCodePoint_control hcontrol] at hread
    exact hread
  · exact readStringFrom_plain hquote hescape hcontrol done rest

/-- An escaped text is read back as the text. -/
theorem readStringFrom_escaped (bytes done rest : Bytes) :
    readStringFrom done (bytes.flatMap escapeByte ++ Byte.quote :: rest) =
      .ok (done.reverse ++ bytes, rest) := by
  induction bytes generalizing done with
  | nil => simpa using readStringFrom_quote done rest
  | cons b bytes ih =>
    rw [List.flatMap_cons, List.append_assoc, readStringFrom_escapeByte, ih]
    simp

/-- A string is read as it was written. -/
theorem readString_escaped (s : String) (rest : Bytes) :
    readString (escaped s ++ Byte.quote :: rest) = .ok (s, rest) := by
  rw [readString, escaped, readStringFrom_escaped]
  simp [Bytes.toString?_ofString]

theorem hexByte_legible : ∀ n < 16, 0x20 ≤ hexByte n ∧ hexByte n < 0x80 := by decide

theorem escapeByte_ascii (hb : b < 0x80) : ∀ e ∈ escapeByte b, 0x20 ≤ e ∧ e < 0x80 := by
  unfold escapeByte
  split_ifs with hquote hescape hback hfeed hline hreturn htab hcontrol
  -- the short escapes come first; each is a backslash and a letter
  all_goals try (rw [List.forall_mem_cons, List.forall_mem_singleton]; decide)
  · have hlow : b.toNat < 0x20 := hcontrol
    have hhigh := hexByte_legible (b.toNat / 16) (by omega)
    have hlow := hexByte_legible (b.toNat % 16) (by omega)
    simp only [List.forall_mem_cons, List.not_mem_nil, false_implies, implies_true, and_true]
    exact ⟨by decide, by decide, by decide, by decide, hhigh, hlow⟩
  · rw [List.forall_mem_singleton]
    exact ⟨UInt8.not_lt.mp hcontrol, hb⟩

theorem escapeByte_long (hb : 0x80 ≤ b) : escapeByte b = [b] := by
  have hne : ∀ {c : UInt8}, c < 0x80 → b ≠ c := by
    rintro c hc rfl
    exact absurd hc (UInt8.not_lt.mpr hb)
  have hcontrol : ¬ b < 0x20 := fun h => absurd (UInt8.lt_of_le_of_lt hb h) (by decide)
  simp only [escapeByte, hne (c := 0x22) (by decide), hne (c := 0x5C) (by decide),
    hne (c := 0x08) (by decide), hne (c := 0x0C) (by decide), hne (c := 0x0A) (by decide),
    hne (c := 0x0D) (by decide), hne (c := 0x09) (by decide), hcontrol, if_false]

/-- No escape takes a character apart, and no control character is left as it is. -/
theorem escaped_legible (s : String) : (escaped s).Legible := by
  rw [escaped, Bytes.ofString_eq_flatMap, List.flatMap_assoc]
  induction s.toList with
  | nil => exact Bytes.legible_nil
  | cons d cs ih =>
    rw [List.flatMap_cons]
    refine Bytes.Legible.append ?_ ih
    by_cases hd : d.toNat < 0x80
    · have hb : d.toNat.toUInt8 < 0x80 := by
        rw [UInt8.lt_iff_toNat_lt, Nat.toUInt8_eq, UInt8.toNat_ofNat']
        exact Nat.lt_of_le_of_lt (Nat.mod_le ..) hd
      rw [Bytes.encode_ascii hd, List.flatMap_singleton]
      exact Bytes.legible_ascii (escapeByte_ascii hb)
    · have hlong : ∀ b ∈ String.utf8EncodeChar d, 0x80 ≤ b := fun b hb =>
        Bytes.le_of_mem_encode (Nat.le_of_not_lt hd) hb
      have hsame : (String.utf8EncodeChar d).flatMap escapeByte = String.utf8EncodeChar d := by
        rw [List.flatMap_congr fun b hb => escapeByte_long (hlong b hb), List.flatMap_singleton']
      rw [hsame]
      refine ⟨⟨String.singleton d, ?_⟩, fun b hb => UInt8.le_trans (by decide) (hlong b hb)⟩
      simp [Bytes.ofString_eq_flatMap]

theorem printString_legible (s : String) : (printString s).Legible := by
  have hquote : Bytes.Legible [Byte.quote] := Bytes.legible_of_all rfl
  rw [printString_eq]
  exact hquote.append ((escaped_legible s).append hquote)

def digitByte (d : Char) : UInt8 :=
  d.toNat.toUInt8

theorem digitByte_toNat (hd : d.isDigit) : (digitByte d).toNat = d.toNat := by
  have hrange := Text.isDigit_toNat hd
  rw [digitByte, Nat.toUInt8_eq, UInt8.toNat_ofNat']
  omega

theorem isDigit_digitByte (hd : d.isDigit) : Byte.isDigit (digitByte d) := by
  simp only [Byte.isDigit, Bool.and_eq_true, decide_eq_true_eq, UInt8.le_iff_toNat_le,
    digitByte_toNat hd]
  exact Text.isDigit_toNat hd

theorem digit_digitByte (hd : d.isDigit) : Byte.digit (digitByte d) = d.toNat - '0'.toNat := by
  rw [Byte.digit, digitByte_toNat hd]
  rfl

theorem printNat_eq (n : Nat) : printNat n = (Nat.toDigits 10 n).map digitByte := rfl

theorem printNat_ofString (n : Nat) : printNat n = Bytes.ofString (toString n) := by
  have hascii : ∀ d ∈ Nat.toDigits 10 n, d.toNat < 0x80 := by
    intro d hd
    have hrange := Text.isDigit_toNat (Text.toDigits_isDigit n d hd)
    omega
  rw [Nat.toString_eq_ofList_toDigits, Bytes.ofString_ascii hascii]
  rfl

theorem printNat_head (n : Nat) : ∃ b more, printNat n = b :: more ∧ Byte.isDigit b := by
  obtain ⟨k, cs, hdigits, hk, _⟩ := Text.toDigits_head n
  have hfirst : k.digitChar.isDigit := by simp [hk]
  exact ⟨digitByte k.digitChar, cs.map digitByte, by rw [printNat_eq, hdigits, List.map_cons],
    isDigit_digitByte hfirst⟩

theorem printInt_head (i : Int) :
    ∃ b more, printInt i = b :: more ∧ (b = Byte.minus ∨ Byte.isDigit b) := by
  cases i with
  | ofNat n =>
    obtain ⟨b, more, hprint, hb⟩ := printNat_head n
    exact ⟨b, more, hprint, Or.inr hb⟩
  | negSucc n => exact ⟨Byte.minus, printNat (n + 1), rfl, Or.inl rfl⟩

/-- A number before these bytes ends where they begin. -/
def EndsNumber (rest : Bytes) : Prop :=
  ∀ b ∈ rest.head?, Byte.isDigit b = false ∧ b ≠ Byte.point ∧ Byte.isExponentMark b = false

theorem readWhole_end (hrest : EndsNumber rest) (negative : Bool) (significand : Nat) :
    readWhole negative significand rest = .ok (wholeNumber negative significand, rest) := by
  cases rest with
  | nil => rfl
  | cons b rest =>
    obtain ⟨hdigit, hpoint, hmark⟩ := hrest b rfl
    rw [readWhole]
    simp only [hdigit, hpoint, hmark, Bool.false_eq_true, or_self, if_false]

theorem readWhole_digits {cs : List Char} (hcs : ∀ d ∈ cs, d.isDigit) (hrest : EndsNumber rest)
    (negative : Bool) {value : Nat} (hmax : Nat.ofDigitChars 10 cs value ≤ maxSignificand) :
    readWhole negative value (cs.map digitByte ++ rest) =
      .ok (wholeNumber negative (Nat.ofDigitChars 10 cs value), rest) := by
  induction cs generalizing value with
  | nil => exact readWhole_end hrest negative value
  | cons d cs ih =>
    rw [List.forall_mem_cons] at hcs
    rw [Nat.ofDigitChars_cons] at hmax ⊢
    have hnext := Text.le_ofDigitChars cs (10 * value + (d.toNat - '0'.toNat))
    rw [List.map_cons, List.cons_append, readWhole, if_pos (isDigit_digitByte hcs.1),
      digit_digitByte hcs.1, Nat.mul_comm value 10, if_pos (by omega)]
    exact ih hcs.2 hmax

theorem readUnsigned_zero (hrest : EndsNumber rest) (negative : Bool) :
    readUnsigned negative (Byte.zero :: rest) = .ok (wholeNumber negative 0, rest) := by
  cases rest with
  | nil => rfl
  | cons b rest =>
    have hb := (hrest b rfl).1
    simp only [readUnsigned, if_true, hb, Bool.false_eq_true, if_false]
    exact readWhole_end hrest negative 0

theorem readUnsigned_digit (hzero : b ≠ Byte.zero) (hb : Byte.isDigit b) (negative : Bool)
    (rest : Bytes) :
    readUnsigned negative (b :: rest) = readWhole negative (Byte.digit b) rest := by
  rw [readUnsigned.eq_def]
  simp only [hzero, hb, if_true, if_false]

theorem readUnsigned_printNat {n : Nat} (hn : n ≤ maxSignificand) (hrest : EndsNumber rest)
    (negative : Bool) :
    readUnsigned negative (printNat n ++ rest) = .ok (wholeNumber negative n, rest) := by
  obtain ⟨k, cs, hdigits, hk, hzero⟩ := Text.toDigits_head n
  have hall := Text.toDigits_isDigit n
  rw [hdigits, List.forall_mem_cons] at hall
  obtain ⟨hfirst, hcs⟩ := hall
  have hvalue : Nat.ofDigitChars 10 cs k = n := by
    have h := Nat.ofDigitChars_ten_toDigits (n := n)
    rw [hdigits, Nat.ofDigitChars_cons_digitChar_of_lt_ten hk] at h
    rwa [Nat.mul_zero, Nat.zero_add] at h
  have hdigit : Byte.digit (digitByte k.digitChar) = k := by
    rw [digit_digitByte hfirst]
    exact Nat.toNat_digitChar_sub_48_of_lt_ten hk
  rw [printNat_eq, hdigits, List.map_cons, List.cons_append]
  by_cases h : k = 0
  · obtain ⟨rfl, rfl⟩ := hzero h
    subst h
    exact readUnsigned_zero hrest negative
  · have hne : digitByte k.digitChar ≠ Byte.zero := by
      intro he
      rw [he] at hdigit
      exact h hdigit.symm
    rw [readUnsigned_digit hne (isDigit_digitByte hfirst), hdigit,
      readWhole_digits hcs hrest negative (by omega), hvalue]

theorem wholeNumber_negSucc {n : Nat} (hn : n + 1 ≤ 2 ^ 63) :
    wholeNumber true (n + 1) = .int (.negSucc n) := by
  have hsmall : ¬ (n + 1 = 0 ∨ Nat.pow 2 63 < n + 1) := by
    have hpow : Nat.pow 2 63 = 2 ^ 63 := rfl
    omega
  rw [wholeNumber, if_neg (by decide), if_neg hsmall]
  rfl

/-- A whole number of 64 bits is read as it was written. -/
theorem readNumber_printInt {i : Int} (low : -2 ^ 63 ≤ i) (high : i < 2 ^ 64)
    (hrest : EndsNumber rest) : readNumber (printInt i ++ rest) = .ok (.int i, rest) := by
  have hsize : maxSignificand = 2 ^ 64 - 1 := rfl
  cases i with
  | ofNat n =>
    obtain ⟨b, more, hprint, hb⟩ := printNat_head n
    have hminus : b ≠ Byte.minus := by
      rintro rfl
      cases hb
    have hn : n ≤ maxSignificand := by
      rw [Int.ofNat_eq_natCast] at high
      omega
    have hread := readUnsigned_printNat hn hrest false
    rw [hprint, List.cons_append] at hread
    rw [printInt, hprint, List.cons_append, readNumber, if_neg hminus, hread]
    rfl
  | negSucc n =>
    have hread := readUnsigned_printNat (n := n + 1) (by omega) hrest true
    rw [printInt, List.cons_append, readNumber, if_pos rfl, hread, wholeNumber_negSucc (by omega)]

theorem printNat_legible (n : Nat) : (printNat n).Legible := by
  refine Bytes.legible_ascii fun b hb => ?_
  obtain ⟨d, hd, rfl⟩ := List.mem_map.mp hb
  have hdigit := Text.toDigits_isDigit n d hd
  have hrange := Text.isDigit_toNat hdigit
  have hbyte := digitByte_toNat hdigit
  constructor
  · rw [UInt8.le_iff_toNat_le]
    change 32 ≤ (digitByte d).toNat
    omega
  · rw [UInt8.lt_iff_toNat_lt]
    change (digitByte d).toNat < 128
    omega

theorem printInt_legible (i : Int) : (printInt i).Legible := by
  cases i with
  | ofNat n => exact printNat_legible n
  | negSucc n =>
    have hminus : Bytes.Legible [Byte.minus] := Bytes.legible_of_all rfl
    exact hminus.append (printNat_legible (n + 1))

end DebugAdapter.Json

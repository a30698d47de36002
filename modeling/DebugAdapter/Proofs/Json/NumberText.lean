import DebugAdapter.Proofs.Json.Pieces
import Mathlib.Data.List.TakeWhile

namespace DebugAdapter.Json

def Digits (ds : Bytes) : Prop :=
  ds ≠ [] ∧ ∀ d ∈ ds, Byte.isDigit d

inductive Fraction : Bytes → Prop where
  | none : Fraction []
  | point {ds : Bytes} (digits : Digits ds) : Fraction (Byte.point :: ds)

inductive Exponent : Bytes → Prop where
  | none : Exponent []
  | bare {mark : UInt8} {ds : Bytes} (marked : Byte.isExponentMark mark) (digits : Digits ds) :
    Exponent (mark :: ds)
  | signed {mark sign : UInt8} {ds : Bytes} (marked : Byte.isExponentMark mark)
      (signed : sign = Byte.plus ∨ sign = Byte.minus) (digits : Digits ds) :
    Exponent (mark :: sign :: ds)

/-- A number: perhaps a minus sign, then digits of which the first is a zero only if it stands alone,
and perhaps a fraction and an exponent. -/
inductive NumberText : Bytes → Prop where
  | parts {sign whole fraction exponent : Bytes} (signed : sign = [] ∨ sign = [Byte.minus])
      (digits : Digits whole) (leading : whole.head? = some Byte.zero → whole = [Byte.zero])
      (fractional : Fraction fraction) (exponential : Exponent exponent) :
    NumberText (sign ++ (whole ++ (fraction ++ exponent)))

/-- A reader takes `text` off whatever does not go on with a number, and finds the same each time. -/
def Finds {α : Type} (read : Bytes → Read α) (text : Bytes) (found : Except ReadError α) : Prop :=
  ∀ rest, EndsNumber rest → read (text ++ rest) = found.map (·, rest)

/-- A reader finds the same number each time, or that it is out of range. -/
def FindsNumber {α : Type} (read : Bytes → Read α) (text : Bytes) : Prop :=
  ∃ found, Finds read text found ∧ ∀ e, found = .error e → e = .numberOutOfRange

variable {α β : Type} {read read' : Bytes → Read α} {text text' ds fraction exponent rest : Bytes}
  {negative : Bool} {significand : Nat} {scale : Int}

/-- What one reader finds another finds that goes on with it. -/
theorem FindsNumber.of_eq (h : FindsNumber read text)
    (he : ∀ rest, EndsNumber rest → read' (text' ++ rest) = read (text ++ rest)) :
    FindsNumber read' text' := by
  obtain ⟨found, hfinds, herror⟩ := h
  exact ⟨found, fun rest hrest => (he rest hrest).trans (hfinds rest hrest), herror⟩

theorem FindsNumber.map (h : FindsNumber read text) (f : α → β) :
    FindsNumber (fun bytes => (read bytes).map fun (a, rest) => (f a, rest)) text := by
  obtain ⟨found, hfinds, herror⟩ := h
  refine ⟨found.map f, fun rest hrest => ?_, ?_⟩
  · simp only [hfinds rest hrest]
    cases found <;> rfl
  · intro e he
    cases found with
    | error e =>
      cases he
      exact herror e rfl
    | ok a => cases he

/-- Before the end of a number only its own digits are passed over. -/
theorem dropWhile_digits (hds : ∀ d ∈ ds, Byte.isDigit d)
    (hrest : ∀ b ∈ rest.head?, Byte.isDigit b = false) :
    (ds ++ rest).dropWhile Byte.isDigit = rest := by
  rw [List.dropWhile_append_of_pos hds]
  cases rest with
  | nil => rfl
  | cons b rest => exact List.dropWhile_cons_of_neg (by simp [hrest b rfl])

theorem takeWhile_digits (hds : ∀ d ∈ ds, Byte.isDigit d)
    (hrest : ∀ b ∈ rest.head?, Byte.isDigit b = false) :
    (ds ++ rest).takeWhile Byte.isDigit = ds := by
  rw [List.takeWhile_append_of_pos hds]
  cases rest with
  | nil => simp
  | cons b rest =>
    rw [List.takeWhile_cons_of_neg (by simp [hrest b rfl]), List.append_nil]

/-- A number is refused for nothing but its size. -/
theorem scaled_error {e : ReadError} (h : scaled negative significand scale = .error e) :
    e = .numberOutOfRange := by
  unfold scaled at h
  simp only at h
  split at h
  · split at h
    · split at h
      · cases h
        rfl
      · cases h
    · split at h
      · cases h
      · cases h
        rfl
  · cases h

theorem readExponentDigits_finds (negative : Bool) (significand : Nat) (start : Int) (down : Bool)
    (hds : ∀ d ∈ ds, Byte.isDigit d) (power : Nat) :
    FindsNumber (readExponentDigits negative significand start down power) ds := by
  induction ds generalizing power with
  | nil =>
    refine ⟨scaled negative significand (if down then start - power else start + power), ?_,
      fun e he => scaled_error he⟩
    intro rest hrest
    rw [List.nil_append]
    cases rest with
    | nil => rfl
    | cons b rest =>
      have hb := (hrest b rfl).1
      simp only [readExponentDigits, hb, Bool.false_eq_true, if_false]
  | cons d ds ih =>
    rw [List.forall_mem_cons] at hds
    by_cases hmax : power * 10 + Byte.digit d ≤ maxExponent
    · refine (ih hds.2 (power * 10 + Byte.digit d)).of_eq fun rest _ => ?_
      simp only [List.cons_append, readExponentDigits, hds.1, hmax, if_true]
    · by_cases hover : significand ≠ 0 ∧ !down
      · refine ⟨.error .numberOutOfRange, fun rest _ => ?_, fun e he => ?_⟩
        · simp only [List.cons_append, readExponentDigits, hds.1, hmax, if_true, if_false]
          rw [if_pos hover]
          rfl
        · cases he
          rfl
      · refine ⟨.ok (signed negative 0.0), fun rest hrest => ?_, by simp⟩
        simp only [List.cons_append, readExponentDigits, hds.1, hmax, if_true, if_false]
        rw [if_neg hover, dropWhile_digits hds.2 fun b hb => (hrest b hb).1]
        rfl

theorem Digits.cons (hds : Digits ds) :
    ∃ d more, ds = d :: more ∧ Byte.isDigit d ∧ ∀ b ∈ more, Byte.isDigit b := by
  obtain ⟨hne, hall⟩ := hds
  obtain ⟨d, more, rfl⟩ := List.exists_cons_of_ne_nil hne
  rw [List.forall_mem_cons] at hall
  exact ⟨d, more, rfl, hall⟩

theorem digit_ne {d b : UInt8} (hd : Byte.isDigit d) (hb : Byte.isDigit b = false) : d ≠ b := by
  rintro rfl
  rw [hd] at hb
  cases hb

/-- A number ends behind an exponent, or goes on with one. -/
theorem endFloat_finds (negative : Bool) (significand : Nat) (scale : Int)
    (he : Exponent exponent) :
    FindsNumber (endFloat negative significand scale) exponent := by
  cases he with
  | none =>
    refine ⟨scaled negative significand scale, fun rest hrest => ?_, fun e he => scaled_error he⟩
    rw [List.nil_append]
    cases rest with
    | nil => rfl
    | cons b rest =>
      have hb := (hrest b rfl).2.2
      simp only [endFloat, hb, Bool.false_eq_true, if_false]
  | bare marked digits =>
    obtain ⟨d, more, rfl, hd, hmore⟩ := digits.cons
    have hplus : d ≠ Byte.plus := digit_ne hd (by decide)
    have hminus : d ≠ Byte.minus := digit_ne hd (by decide)
    refine (readExponentDigits_finds negative significand scale false hmore (Byte.digit d)).of_eq
      fun rest _ => ?_
    simp only [List.cons_append, endFloat, marked, readExponent, hplus, hminus, hd, if_true,
      if_false]
  | @signed mark sign ds marked hsign digits =>
    obtain ⟨d, more, rfl, hd, hmore⟩ := digits.cons
    have hminus : Byte.minus ≠ Byte.plus := by decide
    rcases hsign with rfl | rfl
    · refine (readExponentDigits_finds negative significand scale false hmore (Byte.digit d)).of_eq
        fun rest _ => ?_
      simp only [List.cons_append, endFloat, marked, readExponent, hd, if_true]
    · refine (readExponentDigits_finds negative significand scale true hmore (Byte.digit d)).of_eq
        fun rest _ => ?_
      simp only [List.cons_append, endFloat, marked, readExponent, hminus, hd, if_true, if_false]

theorem mark_not_digit {mark : UInt8} (hm : Byte.isExponentMark mark) :
    Byte.isDigit mark = false ∧ mark ≠ Byte.point := by
  rcases (by simpa [Byte.isExponentMark] using hm : mark = 0x65 ∨ mark = 0x45) with rfl | rfl
  · decide
  · decide

/-- What stands behind the digits of a number does not go on with a digit. -/
theorem exponent_head (he : Exponent exponent) (hrest : EndsNumber rest) :
    ∀ b ∈ (exponent ++ rest).head?, Byte.isDigit b = false ∧ b ≠ Byte.point := by
  intro b hb
  cases he with
  | none => exact ⟨(hrest b hb).1, (hrest b hb).2.1⟩
  | bare marked digits =>
    cases hb
    exact mark_not_digit marked
  | signed marked hsign digits =>
    cases hb
    exact mark_not_digit marked

theorem readFraction_finds (negative : Bool) (significand : Nat) (scale : Int) (places : Nat)
    (hds : ∀ d ∈ ds, Byte.isDigit d) (he : Exponent exponent) (hsome : places ≠ 0 ∨ ds ≠ []) :
    FindsNumber (readFraction negative significand scale places) (ds ++ exponent) := by
  induction ds generalizing significand places with
  | nil =>
    have hplaces : places ≠ 0 := hsome.resolve_right (by simp)
    refine (endFloat_finds negative significand (scale - places) he).of_eq fun rest hrest => ?_
    have hhead := exponent_head he hrest
    rw [List.nil_append]
    cases hbytes : exponent ++ rest with
    | nil => rw [readFraction, if_neg hplaces]
    | cons b bytes =>
      rw [hbytes] at hhead
      have hb := (hhead b rfl).1
      simp only [readFraction, hb, hplaces, Bool.false_eq_true, if_false]
  | cons d ds ih =>
    rw [List.forall_mem_cons] at hds
    by_cases hmax : significand * 10 + Byte.digit d ≤ maxSignificand
    · refine (ih (significand * 10 + Byte.digit d) (places + 1) hds.2
        (Or.inl (Nat.succ_ne_zero places))).of_eq fun rest _ => ?_
      simp only [List.cons_append, readFraction, hds.1, hmax, if_true]
    · refine (endFloat_finds negative significand (scale - places) he).of_eq fun rest hrest => ?_
      have hdrop := dropWhile_digits hds.2 fun b hb => (exponent_head he hrest b hb).1
      rw [List.cons_append, List.cons_append, List.append_assoc, readFraction, if_pos hds.1,
        if_neg hmax, hdrop]

theorem endWhole_finds (negative : Bool) (significand skipped : Nat) (hf : Fraction fraction)
    (he : Exponent exponent) :
    FindsNumber (endWhole negative significand skipped) (fraction ++ exponent) := by
  cases hf with
  | none =>
    refine (endFloat_finds negative significand skipped he).of_eq fun rest hrest => ?_
    have hhead := exponent_head he hrest
    rw [List.nil_append]
    cases hbytes : exponent ++ rest with
    | nil => rfl
    | cons b bytes =>
      rw [hbytes] at hhead
      have hb := (hhead b rfl).2
      simp only [endWhole, hb, if_false]
  | point digits =>
    refine (readFraction_finds negative significand skipped 0 digits.2 he (Or.inr digits.1)).of_eq
      fun rest _ => ?_
    simp only [List.cons_append, endWhole, if_true]

theorem fraction_head (hf : Fraction fraction) (he : Exponent exponent) (hrest : EndsNumber rest) :
    ∀ b ∈ (fraction ++ (exponent ++ rest)).head?, Byte.isDigit b = false := by
  intro b hb
  cases hf with
  | none => exact (exponent_head he hrest b hb).1
  | point digits =>
    cases hb
    decide

/-- A fraction or an exponent begins with its own mark. -/
theorem fraction_goes_on (hf : Fraction fraction) (he : Exponent exponent)
    (hne : fraction ++ exponent ≠ []) :
    ∃ b more, fraction ++ exponent = b :: more ∧ Byte.isDigit b = false ∧
      (b = Byte.point ∨ Byte.isExponentMark b) := by
  cases hf with
  | point digits => exact ⟨_, _, rfl, by decide, Or.inl rfl⟩
  | none =>
    cases he with
    | none => exact absurd rfl hne
    | bare marked digits => exact ⟨_, _, rfl, (mark_not_digit marked).1, Or.inr marked⟩
    | signed marked hsign digits => exact ⟨_, _, rfl, (mark_not_digit marked).1, Or.inr marked⟩

theorem readWhole_finds (negative : Bool) (significand : Nat) (hds : ∀ d ∈ ds, Byte.isDigit d)
    (hf : Fraction fraction) (he : Exponent exponent) :
    FindsNumber (readWhole negative significand) (ds ++ (fraction ++ exponent)) := by
  induction ds generalizing significand with
  | nil =>
    by_cases hwhole : fraction ++ exponent = []
    · rw [hwhole, List.append_nil]
      exact ⟨.ok (wholeNumber negative significand),
        fun rest hrest => readWhole_end hrest negative significand, by simp⟩
    · refine ((endWhole_finds negative significand 0 hf he).map Number.float).of_eq fun rest _ => ?_
      obtain ⟨b, bytes, hbytes, hdigit, hgoes⟩ := fraction_goes_on hf he hwhole
      rw [List.nil_append, hbytes, List.cons_append, readWhole]
      simp only [hdigit, hgoes, Bool.false_eq_true, if_true, if_false]
  | cons d ds ih =>
    rw [List.forall_mem_cons] at hds
    by_cases hmax : significand * 10 + Byte.digit d ≤ maxSignificand
    · refine (ih (significand * 10 + Byte.digit d) hds.2).of_eq fun rest _ => ?_
      simp only [List.cons_append, readWhole, hds.1, hmax, if_true]
    · refine ((endWhole_finds negative significand (ds.length + 1) hf he).map Number.float).of_eq
        fun rest hrest => ?_
      have hhead := fraction_head hf he hrest
      rw [List.cons_append, List.cons_append, List.append_assoc, List.append_assoc, readWhole,
        if_pos hds.1, if_neg hmax]
      simp only [takeWhile_digits hds.2 hhead, dropWhile_digits hds.2 hhead]

/-- A number without a sign is read in full. -/
theorem readUnsigned_finds (negative : Bool) {whole : Bytes} (hdigits : Digits whole)
    (hleading : whole.head? = some Byte.zero → whole = [Byte.zero]) (hf : Fraction fraction)
    (he : Exponent exponent) :
    FindsNumber (readUnsigned negative) (whole ++ (fraction ++ exponent)) := by
  obtain ⟨d, more, rfl, hd, hmore⟩ := hdigits.cons
  by_cases hzero : d = Byte.zero
  · subst hzero
    obtain rfl : more = [] := (List.cons.inj (hleading rfl)).2
    refine (readWhole_finds negative 0 hmore hf he).of_eq fun rest hrest => ?_
    have hhead := fraction_head hf he hrest
    rw [List.nil_append, List.cons_append, List.nil_append, List.cons_append, List.append_assoc]
    cases hbytes : fraction ++ (exponent ++ rest) with
    | nil => rfl
    | cons b bytes =>
      rw [hbytes] at hhead
      have hb := hhead b rfl
      simp only [readUnsigned, hb, Bool.false_eq_true, if_true, if_false]
  · refine (readWhole_finds negative (Byte.digit d) hmore hf he).of_eq fun rest _ => ?_
    exact readUnsigned_digit hzero hd negative _

/-- A number is found the same wherever it stands, or is out of range wherever it stands. -/
theorem readNumber_finds (ht : NumberText text) : FindsNumber readNumber text := by
  obtain ⟨hsign, hdigits, hleading, hf, he⟩ := ht
  rcases hsign with rfl | rfl
  · obtain ⟨d, more, rfl, hd, _⟩ := hdigits.cons
    have hminus : d ≠ Byte.minus := digit_ne hd (by decide)
    refine (readUnsigned_finds false hdigits hleading hf he).of_eq fun rest _ => ?_
    simp only [List.nil_append, List.cons_append, readNumber, hminus, if_false]
  · refine (readUnsigned_finds true hdigits hleading hf he).of_eq fun rest _ => ?_
    simp only [List.cons_append, List.nil_append, readNumber, if_true]

theorem numberText_head (ht : NumberText text) :
    ∃ b more, text = b :: more ∧ (b = Byte.minus ∨ Byte.isDigit b) := by
  obtain ⟨hsign, hdigits, _, _, _⟩ := ht
  rcases hsign with rfl | rfl
  · obtain ⟨d, more, rfl, hd, _⟩ := hdigits.cons
    exact ⟨d, _, rfl, Or.inr hd⟩
  · exact ⟨Byte.minus, _, rfl, Or.inl rfl⟩

end DebugAdapter.Json

import DebugAdapter.Proofs.Text
import Mathlib.Algebra.Group.Nat.Defs

namespace DebugAdapter.Text

/-- `text` writes `n` with one or more digits and perhaps a plus sign before them. -/
def Writes (text : List Char) (n : Nat) : Prop :=
  ∃ digits, (text = digits ∨ text = '+' :: digits) ∧ digits ≠ [] ∧ (∀ c ∈ digits, c.isDigit) ∧
    Nat.ofDigitChars 10 digits 0 = n ∧ n ≤ 2 ^ 64 - 1

/-- What stands in a text behind its plus sign, if it begins with one. -/
inductive Unsigned : List Char → List Char → Prop where
  | plus (digits : List Char) : Unsigned ('+' :: digits) digits
  | bare {digits : List Char} (unsigned : digits.head? ≠ some '+') : Unsigned digits digits

/-- What is wrong with a text that writes no number: nothing is there, or the first character that
goes wrong is no digit or makes the number too large. -/
inductive Faulty : List Char → NumeralError → Prop where
  | empty : Faulty [] .empty
  | signAlone : Faulty ['+'] .badDigit
  | badDigit {text good rest : List Char} {c : Char} (unsigned : Unsigned text (good ++ c :: rest))
      (digits : ∀ d ∈ good, d.isDigit) (small : Nat.ofDigitChars 10 good 0 ≤ 2 ^ 64 - 1)
      (bad : c.isDigit = false) : Faulty text .badDigit
  | tooLarge {text good rest : List Char} {c : Char} (unsigned : Unsigned text (good ++ c :: rest))
      (digits : ∀ d ∈ good, d.isDigit) (small : Nat.ofDigitChars 10 good 0 ≤ 2 ^ 64 - 1)
      (digit : c.isDigit) (large : 2 ^ 64 - 1 < Nat.ofDigitChars 10 (good ++ [c]) 0) :
      Faulty text .tooLarge

variable {text digits good rest cs : List Char} {c : Char} {value n : Nat} {e : NumeralError}

theorem maxWord_eq : maxWord = 2 ^ 64 - 1 := rfl

theorem digit_none (hc : c.isDigit = false) : digit? c = none := by
  rw [digit?, if_neg]
  intro hrange
  simp only [Char.le_def, UInt32.le_iff_toNat_le] at hrange
  simp only [Char.isDigit, ge_iff_le, UInt32.le_iff_toNat_le, Bool.and_eq_false_imp,
    decide_eq_true_eq, decide_eq_false_iff_not] at hc
  exact hc hrange.1 hrange.2

/-- Digits are read on, as long as the number does not outgrow 64 bits. -/
theorem readDigits_append (hgood : ∀ d ∈ good, d.isDigit)
    (hsmall : Nat.ofDigitChars 10 good value ≤ maxWord) (rest : List Char) :
    readDigits value (good ++ rest) = readDigits (Nat.ofDigitChars 10 good value) rest := by
  induction good generalizing value with
  | nil => simp
  | cons d good ih =>
    rw [List.forall_mem_cons] at hgood
    rw [Nat.ofDigitChars_cons] at hsmall ⊢
    have hnext := le_ofDigitChars good (10 * value + (d.toNat - '0'.toNat))
    rw [List.cons_append, readDigits, digit_of_isDigit hgood.1]
    simp only [Nat.mul_comm value 10]
    rw [if_pos (by omega)]
    exact ih hgood.2 hsmall

/-- Digits write a number, or one of the characters is the first that goes wrong. -/
theorem digits_cases (cs : List Char) (value : Nat) (hvalue : value ≤ maxWord) :
    ((∀ d ∈ cs, d.isDigit) ∧ Nat.ofDigitChars 10 cs value ≤ maxWord) ∨
    ∃ good c rest, cs = good ++ c :: rest ∧ (∀ d ∈ good, d.isDigit) ∧
      Nat.ofDigitChars 10 good value ≤ maxWord ∧
      (c.isDigit = false ∨ c.isDigit ∧ maxWord < Nat.ofDigitChars 10 (good ++ [c]) value) := by
  induction cs generalizing value with
  | nil => exact Or.inl ⟨by simp, by simpa using hvalue⟩
  | cons c cs ih =>
    cases hc : c.isDigit with
    | false => exact Or.inr ⟨[], c, cs, rfl, by simp, by simpa using hvalue, Or.inl hc⟩
    | true =>
      let next := 10 * value + (c.toNat - '0'.toNat)
      by_cases hnext : next ≤ maxWord
      · rcases ih next hnext with ⟨hdigits, hsmall⟩ | ⟨good, d, rest, rfl, hgood, hsmall, hd⟩
        · left
          rw [List.forall_mem_cons, Nat.ofDigitChars_cons]
          exact ⟨⟨hc, hdigits⟩, hsmall⟩
        · right
          refine ⟨c :: good, d, rest, rfl, ?_, ?_, ?_⟩
          · rw [List.forall_mem_cons]
            exact ⟨hc, hgood⟩
          · rwa [Nat.ofDigitChars_cons]
          · rwa [List.cons_append, Nat.ofDigitChars_cons]
      · right
        refine ⟨[], c, cs, rfl, by simp, by simpa using hvalue, Or.inr ⟨hc, ?_⟩⟩
        rw [List.nil_append, Nat.ofDigitChars_cons, Nat.ofDigitChars_nil]
        exact Nat.lt_of_not_le hnext

theorem readNumeral_unsigned (hu : Unsigned text digits) (hne : digits ≠ []) :
    readNumeral text = readDigits 0 digits := by
  cases hu with
  | plus =>
    obtain ⟨c, cs, rfl⟩ := List.exists_cons_of_ne_nil hne
    rfl
  | bare hplus =>
    unfold readNumeral
    split
    · exact absurd rfl hne
    · simp at hplus
    · simp at hplus
    · rfl

theorem unsigned_total (text : List Char) : ∃ digits, Unsigned text digits := by
  by_cases hplus : text.head? = some '+'
  · obtain ⟨digits, rfl⟩ := List.head?_eq_some_iff.mp hplus
    exact ⟨digits, .plus digits⟩
  · exact ⟨text, .bare hplus⟩

/-- A numeral is read as the number it writes. -/
theorem readNumeral_of_writes (hw : Writes text n) : readNumeral text = .ok n := by
  obtain ⟨digits, htext, hne, hdigits, rfl, hn⟩ := hw
  have hunsigned : Unsigned text digits := by
    rcases htext with rfl | rfl
    · refine .bare fun hplus => ?_
      have hplus := hdigits '+' (List.mem_of_mem_head? hplus)
      cases hplus
    · exact .plus digits
  have hread : readDigits 0 (digits ++ []) = _ := readDigits_append hdigits hn []
  rw [List.append_nil] at hread
  rw [readNumeral_unsigned hunsigned hne, hread]
  rfl

/-- A text that is no numeral is refused for its first fault. -/
theorem readNumeral_of_faulty (hf : Faulty text e) : readNumeral text = .error e := by
  cases hf with
  | empty => rfl
  | signAlone => rfl
  | badDigit unsigned hdigits hsmall hbad =>
    rw [readNumeral_unsigned unsigned (by simp), readDigits_append hdigits hsmall, readDigits,
      digit_none hbad]
  | tooLarge unsigned hdigits hsmall hdigit hlarge =>
    rw [Nat.ofDigitChars_append, Nat.ofDigitChars_cons, Nat.ofDigitChars_nil] at hlarge
    rw [readNumeral_unsigned unsigned (by simp), readDigits_append hdigits hsmall, readDigits,
      digit_of_isDigit hdigit]
    simp only
    rw [if_neg]
    rw [maxWord_eq, Nat.mul_comm]
    exact Nat.not_le.mpr hlarge

/-- A text writes a number, or something is wrong with it. -/
theorem writes_or_faulty (text : List Char) : (∃ n, Writes text n) ∨ ∃ e, Faulty text e := by
  obtain ⟨digits, hu⟩ := unsigned_total text
  by_cases hne : digits = []
  · right
    subst hne
    cases hu with
    | plus => exact ⟨_, .signAlone⟩
    | bare => exact ⟨_, .empty⟩
  · rcases digits_cases digits 0 (Nat.zero_le _) with
      ⟨hdigits, hsmall⟩ | ⟨good, c, rest, rfl, hgood, hsmall, hbad | ⟨hdigit, hlarge⟩⟩
    · left
      refine ⟨_, digits, ?_, hne, hdigits, rfl, hsmall⟩
      cases hu with
      | plus => exact Or.inr rfl
      | bare => exact Or.inl rfl
    · exact Or.inr ⟨_, .badDigit hu hgood hsmall hbad⟩
    · exact Or.inr ⟨_, .tooLarge hu hgood hsmall hdigit hlarge⟩

end DebugAdapter.Text

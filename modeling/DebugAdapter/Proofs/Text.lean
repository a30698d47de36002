import DebugAdapter.Bytes
import DebugAdapter.Text.Blank
import DebugAdapter.Text.Numeral
import Mathlib.Data.List.Infix
import Mathlib.Data.List.TakeWhile

namespace DebugAdapter

namespace Bytes

/-- What is no text's bytes is read as no text. -/
theorem toString?_eq_none {bytes : Bytes} (h : ∀ text, bytes ≠ ofString text) :
    toString? bytes = none := by
  rw [toString?, String.fromUTF8?, dif_neg]
  intro hvalid
  exact h (String.fromUTF8 _ hvalid) rfl

theorem ofString_eq_flatMap (s : String) :
    ofString s = s.toList.flatMap String.utf8EncodeChar := by
  rw [ofString]
  conv => lhs; rw [← String.ofList_toList (s := s), String.toByteArray_ofList]
  simp [List.utf8Encode]

theorem encode_ascii {c : Char} (hc : c.toNat < 0x80) :
    String.utf8EncodeChar c = [c.toNat.toUInt8] := by
  have hsize : c.utf8Size = 1 := by
    rw [Char.utf8Size_eq_one_iff, UInt32.le_iff_toNat_le]
    exact Nat.le_of_lt_succ hc
  rw [String.utf8EncodeChar_eq_singleton hsize]
  rfl

/-- No byte of a longer character could be taken for a character of its own. -/
theorem le_of_mem_encode {c : Char} {b : UInt8} (hc : 0x80 ≤ c.toNat)
    (hb : b ∈ String.utf8EncodeChar c) : 0x80 ≤ b := by
  have hlong : ¬ c.val.toNat ≤ 0x7F := Nat.not_le.mpr hc
  rw [String.utf8EncodeChar] at hb
  simp only [hlong, if_false] at hb
  rw [UInt8.le_iff_toNat_le]
  split at hb
  · simp only [List.mem_cons, List.not_mem_nil, or_false] at hb
    rcases hb with rfl | rfl <;> simp <;> omega
  · split at hb
    · simp only [List.mem_cons, List.not_mem_nil, or_false] at hb
      rcases hb with rfl | rfl | rfl <;> simp <;> omega
    · simp only [List.mem_cons, List.not_mem_nil, or_false] at hb
      rcases hb with rfl | rfl | rfl | rfl <;> simp <;> omega

theorem ofString_ascii {cs : List Char} (hcs : ∀ c ∈ cs, c.toNat < 0x80) :
    ofString (String.ofList cs) = cs.map fun c => c.toNat.toUInt8 := by
  rw [ofString_eq_flatMap, String.toList_ofList]
  induction cs with
  | nil => rfl
  | cons c cs ih =>
    rw [List.forall_mem_cons] at hcs
    rw [List.flatMap_cons, encode_ascii hcs.1, ih hcs.2, List.map_cons, List.singleton_append]

/-- Bytes that spell a text without control characters. -/
def Legible (bytes : Bytes) : Prop :=
  (∃ text, bytes = ofString text) ∧ ∀ b ∈ bytes, 0x20 ≤ b

variable {first second : Bytes}

theorem Legible.append (hfirst : Legible first) (hsecond : Legible second) :
    Legible (first ++ second) := by
  obtain ⟨⟨s, rfl⟩, hs⟩ := hfirst
  obtain ⟨⟨t, rfl⟩, ht⟩ := hsecond
  refine ⟨⟨s ++ t, (ofString_append s t).symm⟩, fun b hb => ?_⟩
  rcases List.mem_append.mp hb with hb | hb
  · exact hs b hb
  · exact ht b hb

theorem legible_nil : Legible [] :=
  ⟨⟨"", rfl⟩, by simp⟩

theorem legible_ascii {bytes : Bytes} (hbytes : ∀ b ∈ bytes, 0x20 ≤ b ∧ b < 0x80) :
    Legible bytes := by
  refine ⟨⟨String.ofList (bytes.map Char.ofUInt8), ?_⟩, fun b hb => (hbytes b hb).1⟩
  have hcs : ∀ c ∈ bytes.map Char.ofUInt8, c.toNat < 0x80 := by
    intro c hc
    obtain ⟨b, hb, rfl⟩ := List.mem_map.mp hc
    exact (hbytes b hb).2
  rw [ofString_ascii hcs, List.map_map]
  conv => lhs; rw [← List.map_id bytes]
  refine List.map_congr_left fun b _ => ?_
  exact (UInt8.ofNat_toNat (x := b)).symm

theorem legible_of_all {bytes : Bytes} (hbytes : bytes.all fun b => 0x20 ≤ b && b < 0x80) :
    Legible bytes := by
  refine legible_ascii fun b hb => ?_
  have hrange := List.all_eq_true.mp hbytes b hb
  rwa [Bool.and_eq_true, decide_eq_true_eq, decide_eq_true_eq] at hrange

theorem Legible.not_mem {bytes : Bytes} {b : UInt8} (hbytes : Legible bytes) (hb : b < 0x20) :
    b ∉ bytes := fun hm => absurd hb (UInt8.not_lt.mpr (hbytes.2 b hm))

end Bytes

namespace Text

theorem le_ofDigitChars (cs : List Char) (value : Nat) : value ≤ Nat.ofDigitChars 10 cs value := by
  induction cs generalizing value with
  | nil => simp
  | cons c cs ih =>
    rw [Nat.ofDigitChars_cons]
    exact Nat.le_trans (by omega) (ih _)

/-- A number begins with a zero only if it is zero. -/
theorem toDigits_head (n : Nat) :
    ∃ d cs, Nat.toDigits 10 n = d.digitChar :: cs ∧ d < 10 ∧ (d = 0 → n = 0 ∧ cs = []) := by
  induction n using Nat.base_induction 10 (by decide) with
  | single n hn => exact ⟨n, [], Nat.toDigits_of_lt_base hn, hn, fun h => ⟨h, rfl⟩⟩
  | digit n k hk hn ih =>
    obtain ⟨d, cs, hdigits, hd, hzero⟩ := ih
    refine ⟨d, cs ++ Nat.toDigits 10 k, ?_, hd, fun h => ?_⟩
    · rw [← Nat.toDigits_append_toDigits (by decide) hn hk, hdigits, List.cons_append]
    · have := (hzero h).1
      omega

theorem toDigits_isDigit (n : Nat) : ∀ c ∈ Nat.toDigits 10 n, c.isDigit := fun _ hc =>
  Nat.isDigit_of_mem_toDigits (by decide) (by decide) hc

theorem isDigit_toNat {c : Char} (hc : c.isDigit) : 48 ≤ c.toNat ∧ c.toNat ≤ 57 := by
  simpa [Char.isDigit, UInt32.le_iff_toNat_le] using hc

theorem isBlank_of_isDigit {c : Char} (hc : c.isDigit) : isBlank c = false := by
  have hrange := isDigit_toNat hc
  simp only [isBlank, Bool.or_eq_false_iff, Bool.and_eq_false_imp, decide_eq_true_eq,
    decide_eq_false_iff_not]
  omega

theorem digit_of_isDigit {c : Char} (hc : c.isDigit) : digit? c = some (c.toNat - '0'.toNat) := by
  rw [digit?, if_pos]
  simpa [Char.le_def, UInt32.le_iff_toNat_le] using isDigit_toNat hc

theorem readDigits_eq {cs : List Char} {value : Nat} (hcs : ∀ c ∈ cs, c.isDigit)
    (hmax : Nat.ofDigitChars 10 cs value ≤ maxWord) :
    readDigits value cs = .ok (Nat.ofDigitChars 10 cs value) := by
  induction cs generalizing value with
  | nil => simp [readDigits]
  | cons c cs ih =>
    rw [List.forall_mem_cons] at hcs
    rw [Nat.ofDigitChars_cons] at hmax ⊢
    have hnext := le_ofDigitChars cs (10 * value + (c.toNat - '0'.toNat))
    rw [readDigits, digit_of_isDigit hcs.1]
    simp only [Nat.mul_comm value 10]
    rw [if_pos (by omega)]
    exact ih hcs.2 hmax

theorem readNumeral_toDigits {n : Nat} (hn : n ≤ maxWord) :
    readNumeral (Nat.toDigits 10 n) = .ok n := by
  have hread : readNumeral (Nat.toDigits 10 n) = readDigits 0 (Nat.toDigits 10 n) := by
    obtain ⟨d, cs, hdigits, hd, _⟩ := toDigits_head n
    have hplus : d.digitChar ≠ '+' := by
      intro h
      have hdigit : d.digitChar.isDigit := by simp [hd]
      rw [h] at hdigit
      cases hdigit
    rw [hdigits]
    unfold readNumeral
    split <;> simp_all
  rw [hread, readDigits_eq (toDigits_isDigit n)]
  · rw [Nat.ofDigitChars_ten_toDigits]
  · rwa [Nat.ofDigitChars_ten_toDigits]

theorem dropWhile_blanks {before cs : List Char} (hbefore : ∀ c ∈ before, isBlank c)
    (hfirst : ∀ c ∈ cs.head?, isBlank c = false) : (before ++ cs).dropWhile isBlank = cs := by
  rw [List.dropWhile_append_of_pos hbefore]
  cases cs with
  | nil => rfl
  | cons c cs =>
    have hc : ¬ isBlank c = true := by simp [hfirst c rfl]
    exact List.dropWhile_cons_of_neg hc

/-- The blanks around a text are taken off, and nothing else. -/
theorem trim_eq {before after cs : List Char} (hbefore : ∀ c ∈ before, isBlank c)
    (hafter : ∀ c ∈ after, isBlank c) (hne : cs ≠ []) (hfirst : ∀ c ∈ cs.head?, isBlank c = false)
    (hlast : ∀ c ∈ cs.getLast?, isBlank c = false) : trim (before ++ (cs ++ after)) = cs := by
  have hstart : (before ++ (cs ++ after)).dropWhile isBlank = cs ++ after := by
    refine dropWhile_blanks hbefore ?_
    cases cs with
    | nil => exact absurd rfl hne
    | cons c cs => exact hfirst
  have hend : (after.reverse ++ cs.reverse).dropWhile isBlank = cs.reverse := by
    refine dropWhile_blanks ?_ ?_
    · intro c hc
      exact hafter c (List.mem_reverse.mp hc)
    · rwa [List.head?_reverse]
  rw [trim, hstart, trimEnd, List.reverse_append, hend, List.reverse_reverse]

/-- `core` is what a text says between the blanks around it. -/
structure Trimmed (text core : List Char) : Prop where
  around : ∃ before after, text = before ++ (core ++ after) ∧ (∀ c ∈ before, isBlank c) ∧
    ∀ c ∈ after, isBlank c
  first : ∀ c ∈ core.head?, isBlank c = false
  last : ∀ c ∈ core.getLast?, isBlank c = false

variable {text core : List Char}

theorem dropWhile_blank_first (cs : List Char) :
    ∀ c ∈ (cs.dropWhile isBlank).head?, isBlank c = false := by
  intro c hc
  have hfirst := List.head?_dropWhile_not isBlank cs
  rwa [Option.mem_def.mp hc] at hfirst

theorem trimmed_trim (text : List Char) : Trimmed text (trim text) := by
  let inner := text.dropWhile isBlank
  let after := (inner.reverse.takeWhile isBlank).reverse
  have hinner : inner = trim text ++ after := by
    have hsplit := congrArg List.reverse
      (List.takeWhile_append_dropWhile (p := isBlank) (l := inner.reverse))
    rw [List.reverse_append, List.reverse_reverse] at hsplit
    exact hsplit.symm
  have htext : text = text.takeWhile isBlank ++ inner := List.takeWhile_append_dropWhile.symm
  refine ⟨⟨text.takeWhile isBlank, after, ?_, ?_, ?_⟩, ?_, ?_⟩
  · rw [← hinner]
    exact htext
  · exact fun c hc => List.mem_takeWhile_imp hc
  · exact fun c hc => List.mem_takeWhile_imp (List.mem_reverse.mp hc)
  · intro c hc
    refine dropWhile_blank_first text c ?_
    have hhead : inner.head? = some c := by
      rw [hinner, List.head?_append, Option.mem_def.mp hc]
      rfl
    exact hhead
  · intro c hc
    refine dropWhile_blank_first inner.reverse c ?_
    have hreverse : c ∈ (inner.reverse.dropWhile isBlank).reverse.getLast? := hc
    rwa [List.getLast?_reverse] at hreverse

/-- To trim is to find the core that has no blanks around it. -/
theorem trim_eq_iff : trim text = core ↔ Trimmed text core := by
  constructor
  · rintro rfl
    exact trimmed_trim text
  · rintro ⟨⟨before, after, rfl, hbefore, hafter⟩, hfirst, hlast⟩
    by_cases hne : core = []
    · subst hne
      have hblank : ∀ c ∈ before ++ ([] ++ after), isBlank c := by
        intro c hc
        rw [List.nil_append, List.mem_append] at hc
        exact hc.elim (hbefore c) (hafter c)
      rw [trim, List.dropWhile_eq_nil_iff.mpr hblank]
      rfl
    · exact trim_eq hbefore hafter hne hfirst hlast

end Text
end DebugAdapter

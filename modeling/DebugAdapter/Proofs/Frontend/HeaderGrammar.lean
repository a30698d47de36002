import DebugAdapter.Proofs.Frontend.Header
import DebugAdapter.Proofs.Numerals

namespace DebugAdapter.Frontend.Header

open Text

def lineBreak : List Char := ['\r', '\n']

/-- `parts` are the lines of a text: what stands between its line breaks. -/
structure CutInto (text : List Char) (parts : List (List Char)) : Prop where
  whole : lineBreak.intercalate parts = text
  nonempty : parts ≠ []
  unbroken : ∀ line ∈ parts, ¬ lineBreak <:+: line

/-- A line gives a text for the length: before its first colon it names the length, in letters of
any case, and the text stands behind. The blanks around either count for nothing. -/
inductive Gives : List Char → List Char → Prop where
  | named {name core rest value : List Char} (first : ':' ∉ name) (trimmed : Trimmed name core)
      (called : core.map Char.toLower = "content-length".toList) (given : Trimmed rest value) :
      Gives (name ++ ':' :: rest) value

def Sound (line : List Char) : Prop :=
  ∀ value, Gives line value → ∃ n, Writes value n

/-- All lines are sound, and `n` is the number that the last of them gives that gives one. -/
def LastGives (parts : List (List Char)) (n : Nat) : Prop :=
  (∀ line ∈ parts, Sound line) ∧ ∃ earlier line later value, parts = earlier ++ line :: later ∧
    Gives line value ∧ Writes value n ∧ ∀ l ∈ later, ∀ other, ¬ Gives l other

/-- What a block announces, or the first thing that is wrong with it: it is no text, a line gives no
number, none gives the length, or the length is too large. -/
inductive Announces (block : Bytes) : Except FrameError Nat → Prop where
  | notText (illegible : ∀ text, block ≠ .ofString text) : Announces block (.error .headerNotText)
  | badLength {text : String} {earlier later : List (List Char)} {line value : List Char}
      {reason : NumeralError} (legible : block = .ofString text)
      (cut : CutInto text.toList (earlier ++ line :: later)) (sound : ∀ l ∈ earlier, Sound l)
      (gives : Gives line value) (fault : Faulty value reason) :
      Announces block (.error (.badLength (String.ofList value) reason))
  | missingLength {text : String} {parts : List (List Char)} (legible : block = .ofString text)
      (cut : CutInto text.toList parts) (silent : ∀ line ∈ parts, ∀ value, ¬ Gives line value) :
      Announces block (.error .missingLength)
  | tooLarge {text : String} {parts : List (List Char)} {n : Nat} (legible : block = .ofString text)
      (cut : CutInto text.toList parts) (last : LastGives parts n) (large : 16777216 < n) :
      Announces block (.error (.lengthTooLarge n))
  | length {text : String} {parts : List (List Char)} {n : Nat} (legible : block = .ofString text)
      (cut : CutInto text.toList parts) (last : LastGives parts n) (small : n ≤ 16777216) :
      Announces block (.ok n)

section Lines

variable {text line : List Char} {parts : List (List Char)}

theorem intercalate_append (first line : List Char) (parts : List (List Char)) :
    lineBreak.intercalate ((first ++ line) :: parts) =
      first ++ lineBreak.intercalate (line :: parts) := by
  cases parts <;> simp

/-- A line break within a line is at its beginning or further on. -/
theorem break_cons {c : Char} (h : lineBreak <:+: c :: line) :
    (c = '\r' ∧ ∃ rest, line = '\n' :: rest) ∨ lineBreak <:+: line := by
  rcases List.infix_cons_iff.mp h with ⟨rest, hrest⟩ | hlater
  · left
    obtain ⟨rfl, hline⟩ := List.cons.inj hrest
    exact ⟨rfl, rest, hline.symm⟩
  · exact Or.inr hlater

/-- Every text has lines. -/
theorem exists_cutInto (text : List Char) : ∃ parts, CutInto text parts := by
  induction text with
  | nil => exact ⟨[[]], rfl, by simp, by simp [lineBreak]⟩
  | cons c text ih =>
    obtain ⟨parts, hwhole, hne, hunbroken⟩ := ih
    obtain ⟨line, parts, rfl⟩ := List.exists_cons_of_ne_nil hne
    rw [List.forall_mem_cons] at hunbroken
    by_cases hbreak : c = '\r' ∧ ∃ rest, line = '\n' :: rest
    · obtain ⟨rfl, rest, rfl⟩ := hbreak
      have hrest : ¬ lineBreak <:+: rest := fun h =>
        hunbroken.1 (h.trans (List.suffix_cons _ _).isInfix)
      refine ⟨[] :: rest :: parts, ?_, by simp, ?_⟩
      · rw [List.intercalate_cons_cons, ← hwhole]
        exact (intercalate_append ['\r', '\n'] rest parts).symm.trans
          (intercalate_append ['\r'] ('\n' :: rest) parts)
      · rw [List.forall_mem_cons, List.forall_mem_cons]
        exact ⟨by simp [lineBreak], hrest, hunbroken.2⟩
    · refine ⟨(c :: line) :: parts, ?_, by simp, ?_⟩
      · rw [← hwhole]
        exact intercalate_append [c] line parts
      · rw [List.forall_mem_cons]
        exact ⟨fun h => (break_cons h).elim hbreak hunbroken.1, hunbroken.2⟩

/-- Up to the first line break all belongs to one line. -/
theorem linesFrom_break (hl : ¬ lineBreak <:+: line) (before rest : List Char) :
    linesFrom before (line ++ '\r' :: '\n' :: rest) =
      (before.reverse ++ line) :: linesFrom [] rest := by
  induction line generalizing before with
  | nil => simp [linesFrom]
  | cons c line ih =>
    have hlater : ¬ lineBreak <:+: line := fun h => hl (h.trans (List.suffix_cons _ _).isInfix)
    rw [List.cons_append, linesFrom, ih hlater]
    · simp
    · rintro more rfl hmore
      cases line with
      | nil => cases hmore
      | cons d line =>
        obtain ⟨rfl, _⟩ := List.cons.inj hmore
        exact hl ⟨[], line, rfl⟩

theorem linesFrom_last (hl : ¬ lineBreak <:+: line) (before : List Char) :
    linesFrom before line = [before.reverse ++ line] := by
  induction line generalizing before with
  | nil => simp [linesFrom]
  | cons c line ih =>
    have hlater : ¬ lineBreak <:+: line := fun h => hl (h.trans (List.suffix_cons _ _).isInfix)
    rw [linesFrom, ih hlater]
    · simp
    · rintro more rfl rfl
      exact hl ⟨[], more, rfl⟩

/-- The lines of a block are its only cut at every line break. -/
theorem lines_of_cutInto (hc : CutInto text parts) : lines text = parts := by
  obtain ⟨rfl, hne, hunbroken⟩ := hc
  induction parts with
  | nil => exact absurd rfl hne
  | cons line parts ih =>
    rw [List.forall_mem_cons] at hunbroken
    cases parts with
    | nil =>
      rw [List.intercalate_singleton]
      exact linesFrom_last hunbroken.1 []
    | cons next parts =>
      have hfirst := linesFrom_break hunbroken.1 [] (lineBreak.intercalate (next :: parts))
      rw [List.intercalate_cons_cons, List.append_assoc]
      exact hfirst.trans (congrArg (line :: ·) (ih (by simp) hunbroken.2))

end Lines

section Values

variable {line value : List Char}

theorem lower_eq (c : Char) : lower c = c.toLower := by
  unfold lower Char.toLower
  by_cases hc : 'A' ≤ c ∧ c ≤ 'Z'
  · have hrange : c.val ≥ 'A'.val ∧ c.val ≤ 'Z'.val := hc
    have hleast : 65 ≤ c.toNat := UInt32.le_iff_toNat_le.mp hrange.1
    have hmost : c.toNat ≤ 90 := UInt32.le_iff_toNat_le.mp hrange.2
    rw [if_pos hc, dif_pos hrange, Char.ofNat, dif_pos (Or.inl (by omega)), ← Char.toNat_inj]
    change c.toNat + 32 = (c.toNat + 32) % 2 ^ 32
    omega
  · have hrange : ¬ (c.val ≥ 'A'.val ∧ c.val ≤ 'Z'.val) := hc
    rw [if_neg hc, dif_neg hrange]

theorem not_colon (hn : ':' ∉ line) : ∀ c ∈ line, decide (c ≠ ':') = true := by
  intro c hc
  rw [decide_eq_true_eq]
  rintro rfl
  exact hn hc

theorem span_colon {name : List Char} (hname : ':' ∉ name) (rest : List Char) :
    (name ++ ':' :: rest).span (· ≠ ':') = (name, ':' :: rest) := by
  rw [List.span_eq_takeWhile_dropWhile, List.takeWhile_append_of_pos (not_colon hname),
    List.dropWhile_append_of_pos (not_colon hname)]
  simp

theorem span_no_colon (hn : ':' ∉ line) : line.span (· ≠ ':') = (line, []) := by
  rw [List.span_eq_takeWhile_dropWhile, List.takeWhile_eq_self_iff.mpr (not_colon hn),
    List.dropWhile_eq_nil_iff.mpr (not_colon hn)]

/-- A line that gives a length is read as the grammar has it. -/
theorem lengthValue_of_gives (hg : Gives line value) : lengthValue? line = some value := by
  obtain ⟨hfirst, htrimmed, hcalled, hgiven⟩ := hg
  rw [lengthValue?, span_colon hfirst]
  simp only
  rw [trim_eq_iff.mpr htrimmed, funext lower_eq, if_pos hcalled, trim_eq_iff.mpr hgiven]

/-- No other line is read as giving a length. -/
theorem gives_of_lengthValue (hv : lengthValue? line = some value) : Gives line value := by
  by_cases hcolon : ':' ∈ line
  · obtain ⟨name, rest, rfl, hfirst⟩ := List.eq_append_cons_of_mem hcolon
    rw [lengthValue?, span_colon hfirst] at hv
    simp only at hv
    split at hv
    · rename_i hcalled
      cases hv
      rw [funext lower_eq] at hcalled
      exact .named hfirst (trimmed_trim name) hcalled (trimmed_trim rest)
    · cases hv
  · rw [lengthValue?, span_no_colon hcolon] at hv
    cases hv

theorem lengthValue_none (hg : ∀ value, ¬ Gives line value) : lengthValue? line = none := by
  cases hv : lengthValue? line with
  | none => rfl
  | some value => exact absurd (gives_of_lengthValue hv) (hg value)

end Values

section Lengths

variable {line value : List Char} {earlier later parts : List (List Char)} {n : Nat}

/-- A line that gives nothing is passed over. -/
theorem lengthOf_silent (hs : ∀ value, ¬ Gives line value) (length : Option Nat)
    (rest : List (List Char)) : lengthOf length (line :: rest) = lengthOf length rest := by
  rw [lengthOf, lengthValue_none hs]

theorem lengthOf_all_silent (hs : ∀ l ∈ parts, ∀ value, ¬ Gives l value) (length : Option Nat) :
    lengthOf length parts = .ok length := by
  induction parts with
  | nil => rfl
  | cons line parts ih =>
    rw [List.forall_mem_cons] at hs
    rw [lengthOf_silent hs.1, ih hs.2]

theorem lengthOf_writes (hg : Gives line value) (hw : Writes value n) (length : Option Nat)
    (rest : List (List Char)) : lengthOf length (line :: rest) = lengthOf (some n) rest := by
  rw [lengthOf, lengthValue_of_gives hg]
  simp only
  rw [readNumeral_of_writes hw]

theorem lengthOf_faulty {reason : NumeralError} (hg : Gives line value) (hf : Faulty value reason)
    (length : Option Nat) (rest : List (List Char)) :
    lengthOf length (line :: rest) = .error (.badLength (String.ofList value) reason) := by
  rw [lengthOf, lengthValue_of_gives hg]
  simp only
  rw [readNumeral_of_faulty hf]

/-- Sound lines settle nothing but which length is the last so far. -/
theorem lengthOf_sound (hs : ∀ l ∈ earlier, Sound l) (length : Option Nat)
    (rest : List (List Char)) :
    ∃ length', lengthOf length (earlier ++ rest) = lengthOf length' rest := by
  induction earlier generalizing length with
  | nil => exact ⟨length, rfl⟩
  | cons line earlier ih =>
    rw [List.forall_mem_cons] at hs
    rw [List.cons_append]
    by_cases hg : ∃ value, Gives line value
    · obtain ⟨value, hg⟩ := hg
      obtain ⟨n, hw⟩ := hs.1 value hg
      rw [lengthOf_writes hg hw]
      exact ih hs.2 (some n)
    · rw [lengthOf_silent (not_exists.mp hg)]
      exact ih hs.2 length

/-- Of several lengths the last one counts. -/
theorem lengthOf_last (hl : LastGives parts n) (length : Option Nat) :
    lengthOf length parts = .ok (some n) := by
  obtain ⟨hsound, earlier, line, later, value, rfl, hgives, hwrites, hlater⟩ := hl
  obtain ⟨length', hpassed⟩ := lengthOf_sound
    (fun l hl => hsound l (List.mem_append_left _ hl)) length (line :: later)
  rw [hpassed, lengthOf_writes hgives hwrites, lengthOf_all_silent hlater]

/-- A line that gives nothing matters nowhere in a block. -/
theorem lengthOf_without (hs : ∀ value, ¬ Gives line value) (earlier later : List (List Char))
    (length : Option Nat) :
    lengthOf length (earlier ++ line :: later) = lengthOf length (earlier ++ later) := by
  induction earlier generalizing length with
  | nil => exact lengthOf_silent hs length later
  | cons first earlier ih =>
    simp only [List.cons_append, lengthOf, ih]

end Lengths

section Blocks

variable {block : Bytes} {text : String} {parts : List (List Char)} {r : Except FrameError Nat}

theorem bodyLength_of_cut (cut : CutInto text.toList parts) :
    bodyLength (.ofString text) = match lengthOf none parts with
      | .error e => .error e
      | .ok none => .error .missingLength
      | .ok (some n) => if 16777216 < n then .error (.lengthTooLarge n) else .ok n := by
  rw [bodyLength, Bytes.toString?_ofString, ← lines_of_cutInto cut]
  rfl

/-- A block comes to what it announces. -/
theorem bodyLength_of_announces (ha : Announces block r) : bodyLength block = r := by
  cases ha with
  | notText illegible =>
    rw [bodyLength, Bytes.toString?_eq_none illegible]
  | badLength legible cut sound gives fault =>
    obtain ⟨length, hpassed⟩ := lengthOf_sound sound none (_ :: _)
    rw [legible, bodyLength_of_cut cut, hpassed, lengthOf_faulty gives fault]
  | missingLength legible cut silent =>
    rw [legible, bodyLength_of_cut cut, lengthOf_all_silent silent]
  | tooLarge legible cut last large =>
    rw [legible, bodyLength_of_cut cut, lengthOf_last last]
    exact if_pos large
  | length legible cut last small =>
    rw [legible, bodyLength_of_cut cut, lengthOf_last last]
    exact if_neg (Nat.not_lt.mpr small)

theorem exists_first {p : List Char → Prop} (h : ∃ x ∈ parts, p x) :
    ∃ before x after, parts = before ++ x :: after ∧ p x ∧ ∀ y ∈ before, ¬ p y := by
  classical
  have hfound : (parts.find? fun x => decide (p x)).isSome := by
    rw [List.find?_isSome]
    simpa using h
  obtain ⟨x, hx⟩ := Option.isSome_iff_exists.mp hfound
  obtain ⟨hp, before, after, hparts, hbefore⟩ := List.find?_eq_some_iff_append.mp hx
  exact ⟨before, x, after, hparts, by simpa using hp, by simpa using hbefore⟩

theorem exists_last {p : List Char → Prop} (h : ∃ x ∈ parts, p x) :
    ∃ before x after, parts = before ++ x :: after ∧ p x ∧ ∀ y ∈ after, ¬ p y := by
  have hreversed : ∃ x ∈ parts.reverse, p x := by simpa using h
  obtain ⟨after, x, before, hparts, hp, hafter⟩ := exists_first hreversed
  refine ⟨before.reverse, x, after.reverse, ?_, hp, fun y hy => hafter y (List.mem_reverse.mp hy)⟩
  rw [← List.reverse_reverse parts, hparts]
  simp

/-- Every block announces a length, or something is wrong with it. -/
theorem exists_announces (block : Bytes) : ∃ r, Announces block r := by
  by_cases hlegible : ∃ text, block = .ofString text
  · obtain ⟨text, legible⟩ := hlegible
    obtain ⟨parts, cut⟩ := exists_cutInto text.toList
    by_cases hsound : ∀ line ∈ parts, Sound line
    · by_cases hgiven : ∃ line ∈ parts, ∃ value, Gives line value
      · obtain ⟨earlier, line, later, rfl, ⟨value, hgives⟩, hlater⟩ := exists_last hgiven
        obtain ⟨n, hwrites⟩ := hsound line (by simp) value hgives
        have last : LastGives (earlier ++ line :: later) n :=
          ⟨hsound, earlier, line, later, value, rfl, hgives, hwrites,
            fun l hl other hother => hlater l hl ⟨other, hother⟩⟩
        by_cases hn : n ≤ 16777216
        · exact ⟨_, .length legible cut last hn⟩
        · exact ⟨_, .tooLarge legible cut last (Nat.not_le.mp hn)⟩
      · exact ⟨_, .missingLength legible cut fun line hline value hgives =>
          hgiven ⟨line, hline, value, hgives⟩⟩
    · obtain ⟨earlier, line, later, rfl, hline, hearlier⟩ := exists_first (p := fun l => ¬ Sound l)
        (by simpa using hsound)
      obtain ⟨value, hgives, hno⟩ : ∃ value, Gives line value ∧ ¬ ∃ n, Writes value n := by
        simpa [Sound] using hline
      obtain ⟨reason, hfault⟩ := (writes_or_faulty value).resolve_left hno
      exact ⟨_, .badLength legible cut (fun l hl => not_not.mp (hearlier l hl)) hgives hfault⟩
  · exact ⟨_, .notText (not_exists.mp hlegible)⟩

/-- What a header block announces, and the first thing wrong with any other, is what its grammar
says; a line that gives no length makes no difference wherever it stands. -/
theorem announced_by_grammar :
    (∀ block r, bodyLength block = r ↔ Announces block r) ∧
    ∀ (text without : String) (earlier later : List (List Char)) (line : List Char),
      CutInto text.toList (earlier ++ line :: later) → CutInto without.toList (earlier ++ later) →
      (∀ value, ¬ Gives line value) →
      bodyLength (.ofString text) = bodyLength (.ofString without) := by
  constructor
  · intro block r
    refine ⟨?_, bodyLength_of_announces⟩
    rintro rfl
    obtain ⟨r, ha⟩ := exists_announces block
    rwa [bodyLength_of_announces ha]
  · intro text without earlier later line cut cutWithout silent
    rw [bodyLength_of_cut cut, bodyLength_of_cut cutWithout, lengthOf_without silent]

/-- The last of two lengths counts, with a sign and blanks and letters of any case, and a line
without a colon between them does not. -/
theorem last_length_announced :
    Announces (.ofString "Content-Length: 5\r\nX-Trace\r\n content-LENGTH :\t+7 ") (.ok 7) ∧
    bodyLength (.ofString "Content-Length: 5\r\nX-Trace\r\n content-LENGTH :\t+7 ") =
      bodyLength (.ofString "Content-Length: 5\r\n content-LENGTH :\t+7 ") := by
  have cut : CutInto "Content-Length: 5\r\nX-Trace\r\n content-LENGTH :\t+7 ".toList
      (["Content-Length: 5".toList] ++ "X-Trace".toList :: [" content-LENGTH :\t+7 ".toList]) :=
    ⟨by decide, by simp, by decide⟩
  have cutWithout : CutInto "Content-Length: 5\r\n content-LENGTH :\t+7 ".toList
      (["Content-Length: 5".toList] ++ [" content-LENGTH :\t+7 ".toList]) :=
    ⟨by decide, by simp, by decide⟩
  have silent : ∀ value, ¬ Gives "X-Trace".toList value := fun value hg => by
    have hnone : lengthValue? "X-Trace".toList = none := by decide
    rw [lengthValue_of_gives hg] at hnone
    cases hnone
  refine ⟨(announced_by_grammar.1 _ _).mp ?_, announced_by_grammar.2 _ _ _ _ _ cut cutWithout silent⟩
  rw [bodyLength_of_cut cut]
  rfl

end Blocks

end DebugAdapter.Frontend.Header

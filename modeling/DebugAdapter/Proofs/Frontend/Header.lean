import DebugAdapter.Frontend.Frame
import DebugAdapter.Proofs.Text

namespace DebugAdapter.Frontend.Header

variable {block : Bytes} {e : FrameError}

theorem linesFrom_unbroken {cs : List Char} (hr : '\r' ∉ cs) (line : List Char) :
    linesFrom line cs = [line.reverse ++ cs] := by
  induction cs generalizing line with
  | nil => simp [linesFrom]
  | cons c cs ih =>
    rw [List.mem_cons, not_or] at hr
    rw [linesFrom, ih hr.2]
    · simp
    · rintro rest rfl
      exact absurd rfl hr.1

/-- Without a carriage return there is only one line. -/
theorem lines_unbroken {cs : List Char} (hr : '\r' ∉ cs) : lines cs = [cs] := by
  rw [lines, linesFrom_unbroken hr]
  rfl

/-- Blanks behind a length are no part of it. -/
theorem lengthValue_line {value blanks : List Char} (hne : value ≠ [])
    (hvalue : ∀ c ∈ value, Text.isBlank c = false) (hblanks : ∀ c ∈ blanks, Text.isBlank c) :
    lengthValue? ("Content-Length: ".toList ++ (value ++ blanks)) = some value := by
  have hspan : ("Content-Length: ".toList ++ (value ++ blanks)).span (· ≠ ':') =
      ("Content-Length".toList, ':' :: ' ' :: (value ++ blanks)) := rfl
  have hname : (Text.trim "Content-Length".toList).map lower = "content-length".toList := by decide
  have hspace : ∀ c ∈ [' '], Text.isBlank c := List.forall_mem_singleton.mpr rfl
  have htrim : Text.trim ([' '] ++ (value ++ blanks)) = value :=
    Text.trim_eq hspace hblanks hne (fun c hc => hvalue c (List.mem_of_mem_head? hc))
      fun c hc => hvalue c (List.mem_of_mem_getLast? hc)
  rw [lengthValue?, hspan]
  simp only
  rw [if_pos hname]
  exact congrArg some htrim

/-- A block of one line announces the length that the line gives. -/
theorem bodyLength_line {text : String} {value : List Char} {n : Nat} (hr : '\r' ∉ text.toList)
    (hvalue : lengthValue? text.toList = some value) (hread : Text.readNumeral value = .ok n)
    (hn : n ≤ maxBodyBytes) : bodyLength (.ofString text) = .ok n := by
  have hlength : lengthOf none [text.toList] = .ok (some n) := by
    rw [lengthOf, hvalue]
    simp only
    rw [hread]
    rfl
  rw [bodyLength, Bytes.toString?_ofString]
  simp only [lines_unbroken hr, hlength]
  rw [if_neg (Nat.not_lt.mpr hn)]

theorem lengthOf_error {length : Option Nat} {lines : List (List Char)}
    (hl : lengthOf length lines = .error e) : ∃ value reason, e = .badLength value reason := by
  induction lines generalizing length with
  | nil => cases hl
  | cons line lines ih =>
    rw [lengthOf] at hl
    split at hl
    · exact ih hl
    · split at hl
      · cases hl
        exact ⟨_, _, rfl⟩
      · exact ih hl

/-- A block is refused for what it says, never for its size or for where the stream ends. -/
theorem bodyLength_error (hb : bodyLength block = .error e) :
    e ≠ .headerTooLong ∧ e ≠ .unfinishedFrame := by
  unfold bodyLength at hb
  split at hb
  · cases hb
    simp
  · split at hb
    · rename_i hl
      obtain ⟨value, reason, rfl⟩ := lengthOf_error hl
      cases hb
      simp
    · cases hb
      simp
    · split at hb
      · cases hb
        simp
      · cases hb

end DebugAdapter.Frontend.Header

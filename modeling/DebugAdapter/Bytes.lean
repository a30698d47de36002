namespace DebugAdapter

abbrev Bytes := List UInt8

namespace Bytes

def ofString (s : String) : Bytes :=
  s.toByteArray.data.toList

def toString? (bytes : Bytes) : Option String :=
  String.fromUTF8? ⟨bytes.toArray⟩

theorem toString?_ofString (s : String) : toString? (ofString s) = some s := by
  simp [toString?, ofString, String.fromUTF8?, String.fromUTF8, s.isValidUTF8]

theorem ofString_append (s t : String) : ofString (s ++ t) = ofString s ++ ofString t := by
  simp [ofString]

/-- Cuts at the first `mark`, which belongs to neither part. -/
def cutAt (mark : UInt8) (bytes : Bytes) : Option (Bytes × Bytes) :=
  match bytes.span (· != mark) with
  | (_, []) => none
  | (before, _ :: rest) => some (before, rest)

/-- What follows `pattern` in a stream that begins with it. -/
def strip? : Bytes → Bytes → Option Bytes
  | [], bytes => some bytes
  | _ :: _, [] => none
  | p :: pattern, b :: bytes => if p = b then strip? pattern bytes else none

/-- Cuts at the first place where `pattern` stands; `before` holds what was passed, last byte first.
-/
def cutBeforeFrom (pattern : Bytes) (before : Bytes) : Bytes → Option (Bytes × Bytes)
  | [] => (strip? pattern []).map fun rest => (before.reverse, rest)
  | b :: bytes =>
    match strip? pattern (b :: bytes) with
    | some rest => some (before.reverse, rest)
    | none => cutBeforeFrom pattern (b :: before) bytes

/-- The bytes before the first `pattern` and those after it. -/
def cutBefore (pattern bytes : Bytes) : Option (Bytes × Bytes) :=
  cutBeforeFrom pattern [] bytes

def splitExact? (n : Nat) (bytes : Bytes) : Option (Bytes × Bytes) :=
  if bytes.length < n then none else some (bytes.splitAt n)

end Bytes
end DebugAdapter

import DebugAdapter.Logging.Pattern.Mode

namespace DebugAdapter.Pattern

inductive Atom where
  /-- A character; `isByte` holds if it is written as the number of a byte. -/
  | char (char : Char) (isByte : Bool)
  /-- The characters of a kind, or all others. -/
  | kind (isNegated : Bool)
  /-- An end of the text. -/
  | textEnd
  /-- An end of a word. -/
  | wordEnd
deriving DecidableEq, Repr

def hexDigit? (c : Char) : Option Nat :=
  if '0' ≤ c ∧ c ≤ '9' then some (c.toNat - '0'.toNat)
  else if 'a' ≤ c.toLower ∧ c.toLower ≤ 'f' then some (c.toLower.toNat - 'a'.toNat + 10)
  else none

def readHex? (m : Mode) : Nat → Nat → List Char → Option (Nat × List Char)
  | 0, value, cs => some (value, cs)
  | count + 1, value, cs =>
    match m.skip cs with
    | [] => none
    | c :: cs => do readHex? m count (value * 16 + (← hexDigit? c)) cs

namespace Atom

def ofNumber? (m : Mode) (digits : Nat) (cs : List Char) : Option (Atom × List Char) := do
  let (n, cs) ← readHex? m digits 0 cs
  if h : n.isValidChar then some (.char (Char.ofNatAux n h) (digits = 2), cs) else none

/-- What a letter or sign behind a backslash stands for by itself. -/
def escaped? (c : Char) : Option Atom :=
  match c with
  | 'A' | 'z' => some .textEnd
  | 'b' | 'B' | '<' | '>' => some .wordEnd
  | 'd' | 's' | 'w' => some (.kind false)
  | 'D' | 'S' | 'W' => some (.kind true)
  | 'a' => some (.char '\x07' false)
  | 'f' => some (.char '\x0c' false)
  | 'n' => some (.char '\n' false)
  | 'r' => some (.char '\r' false)
  | 't' => some (.char '\t' false)
  | 'v' => some (.char '\x0b' false)
  | c => if c.toNat < 0x80 ∧ !c.isAlphanum then some (.char c false) else none

def read? (m : Mode) (c : Char) (cs : List Char) : Option (Atom × List Char) :=
  if c ≠ '\\' then some (.char c false, cs)
  else
    match cs with
    | 'x' :: cs => ofNumber? m 2 cs
    | 'u' :: cs => ofNumber? m 4 cs
    | 'U' :: cs => ofNumber? m 8 cs
    | c :: cs => (escaped? c).map (·, cs)
    | [] => none

/-- True if an atom can stand by itself. -/
def isAllowed (m : Mode) : Atom → Bool
  | .char c isByte => if m.unicode then !m.ignoresCase else !isByte || c.toNat < 0x80
  | .kind isNegated => !m.unicode && !isNegated
  | .textEnd | .wordEnd => true

def isMember (m : Mode) : Atom → Bool
  | .char c _ => if m.unicode then !m.ignoresCase else c.toNat < 0x80
  | .kind isNegated => !m.unicode && !isNegated
  | .textEnd | .wordEnd => false

/-- True if two atoms are the ends of a range that can be a member of a class. -/
def isRange (m : Mode) : Atom → Atom → Bool
  | .char a x, .char b y => isMember m (.char a x) && isMember m (.char b y) && a ≤ b
  | _, _ => false

end Atom
end DebugAdapter.Pattern

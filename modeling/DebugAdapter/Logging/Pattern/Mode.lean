import DebugAdapter.Text.Blank

namespace DebugAdapter.Pattern

/-- How the rest of a pattern is read. `unicode` holds if it matches characters and not bytes;
`spaced` holds if blanks and comments do not count. -/
structure Mode where
  ignoresCase : Bool := false
  unicode : Bool := true
  spaced : Bool := false
deriving DecidableEq, Repr

/-- Drops blanks and comments. A comment goes from a number sign to the end of the line; `inComment`
holds inside of one. -/
def dropSpacing (inComment : Bool) : List Char → List Char
  | [] => []
  | c :: cs =>
    if inComment then dropSpacing (c ≠ '\n') cs
    else if c = '#' then dropSpacing true cs
    else if Text.isBlank c then dropSpacing false cs
    else c :: cs

namespace Mode

def skip (m : Mode) (cs : List Char) : List Char :=
  if m.spaced then dropSpacing false cs else cs

/-- The sign that decides whether the dash before it makes a range. The end of a comment is not
looked for: the first sign in it decides. -/
def ahead? (m : Mode) (cs : List Char) : Option Char :=
  if !m.spaced then cs.head?
  else
    match cs.dropWhile Text.isBlank with
    | [] => cs.head?
    | '#' :: comment => (comment.dropWhile Text.isBlank).head? <|> cs.head?
    | c :: _ => some c

/-- Turns a flag on or off. The other flags bear on what a pattern matches, not on its form. -/
def set (on : Bool) (m : Mode) : Char → Mode
  | 'i' => { m with ignoresCase := on }
  | 'u' => { m with unicode := on }
  | 'x' => { m with spaced := on }
  | _ => m

/-- The mode after a list of flags. Those behind a dash are turned off; no flag stands there
twice. -/
def withFlags? (m : Mode) (flags : List Char) : Option Mode :=
  if flags.all (· ∈ "imsuxRU-".toList) ∧ flags.Nodup ∧ flags.getLast? ≠ some '-' then
    let (on, off) := flags.span (· ≠ '-')
    some (off.foldl (set false) (on.foldl (set true) m))
  else none

end Mode
end DebugAdapter.Pattern

import DebugAdapter.Logging.Pattern.Atom
import DebugAdapter.Text.Alphanumeric

namespace DebugAdapter.Pattern

/-- How deeply several parts are nested that stand side by side. -/
def sideBySide : List Nat → Nat
  | [] => 0
  | [depth] => depth
  | depths => depths.foldl max 0 + 1

structure Part where
  depth : Nat := 0
  repeatable : Bool := true
deriving DecidableEq, Repr

/-- A group that is open: its finished branches, and the parts of the last one, in reverse. `mode`
comes back at its end. -/
structure Group where
  mode : Mode := {}
  branches : List Nat := []
  parts : List Part := []
deriving DecidableEq, Repr

namespace Group

def add (g : Group) (part : Part) : Group :=
  { g with parts := part :: g.parts }

def branch (g : Group) : Group :=
  { g with branches := sideBySide (g.parts.map (·.depth)) :: g.branches, parts := [] }

def depth (g : Group) : Nat :=
  sideBySide g.branch.branches

def repeat? (g : Group) : Option Group :=
  match g.parts with
  | part :: parts =>
    if part.repeatable then some { g with parts := { depth := part.depth + 1 } :: parts } else none
  | [] => none

end Group

/-- A class that is open: the set before the last operator, and the members behind it. A dash or a
closing bracket `atStart` stands for itself. -/
structure ClassSet where
  left : Option Nat := none
  members : List Nat := []
  atStart : Bool := true
deriving DecidableEq, Repr

namespace ClassSet

def add (s : ClassSet) (depth : Nat) : ClassSet :=
  { s with members := depth :: s.members }

def depth (s : ClassSet) : Nat :=
  match s.left with
  | none => sideBySide s.members
  | some left => max left (sideBySide s.members) + 1

def operate (s : ClassSet) : ClassSet :=
  { left := some s.depth, atStart := false }

end ClassSet

/-- How far a pattern was read: the names of its groups so far, and the groups and classes that are
open, the innermost first. `seeksWords` holds if an end of a word was met for which the table of
Unicode is needed. -/
structure Reading where
  mode : Mode := {}
  seeksWords : Bool := false
  names : List (List Char) := []
  group : Group := {}
  outer : List Group := []
  classes : List ClassSet := []
deriving DecidableEq, Repr

def isName : List Char → Bool
  | [] => false
  | c :: cs =>
    (c = '_' || Text.isAlphabetic c) &&
      cs.all fun c => c ∈ ['_', '.', '[', ']'] || Text.isAlphanumeric c

def kinds : List String :=
  ["alnum", "alpha", "ascii", "blank", "cntrl", "digit", "graph", "lower", "print", "punct",
    "space", "upper", "word", "xdigit"]

def readKind? : List Char → Option (Bool × List Char)
  | ':' :: cs =>
    let (isNegated, cs) := match cs with
      | '^' :: cs => (true, cs)
      | cs => (false, cs)
    match cs.span (· ≠ ':') with
    | (name, ':' :: ']' :: rest) =>
      if String.ofList name ∈ kinds then some (isNegated, rest) else none
    | _ => none
  | _ => none

namespace Reading

def add (r : Reading) (part : Part) : Reading :=
  { r with group := r.group.add part }

def openGroup (r : Reading) (mode : Mode) : Reading :=
  { r with mode, group := { mode := r.mode }, outer := r.group :: r.outer }

def closeGroup? (r : Reading) : Option Reading :=
  match r.outer with
  | [] => none
  | group :: outer =>
    some { r with mode := r.group.mode, group := group.add { depth := r.group.depth + 1 }, outer }

def openNamed? (r : Reading) (cs : List Char) : Option (Reading × List Char) :=
  match cs.span (· ≠ '>') with
  | (name, _ :: cs) =>
    if isName name ∧ name ∉ r.names then
      some ({ r with names := name :: r.names }.openGroup r.mode, cs)
    else none
  | _ => none

/-- Takes flags. They hold for the group behind a colon, or else up to the end of the open group. -/
def takeFlags? (r : Reading) (cs : List Char) : Option (Reading × List Char) := do
  let (flags, rest) := cs.span fun c => c ≠ ':' ∧ c ≠ ')'
  let mode ← r.mode.withFlags? flags
  match rest with
  | ':' :: cs => some (r.openGroup mode, cs)
  | _ :: cs =>
    if flags = [] then none else some ({ r with mode }.add { repeatable := false }, cs)
  | [] => none

def takeGroup? (r : Reading) (cs : List Char) : Option (Reading × List Char) :=
  match cs with
  | '?' :: 'P' :: '<' :: cs => r.openNamed? cs
  | '?' :: '<' :: cs => r.openNamed? cs
  | '?' :: cs => r.takeFlags? cs
  | cs => some (r.openGroup r.mode, cs)

/-- Begins a class. What is not in a class of bytes may be no character. -/
def openClass? (r : Reading) (cs : List Char) : Option (Reading × List Char) :=
  let inside := { r with classes := {} :: r.classes }
  match r.mode.skip cs with
  | '^' :: cs => if r.mode.unicode then some (inside, cs) else none
  | cs => some (inside, cs)

def closeClass (r : Reading) (s : ClassSet) (outer : List ClassSet) : Reading :=
  match outer with
  | [] => { r with classes := [] }.add { depth := s.depth + 1 }
  | parent :: outer => { r with classes := parent.add (s.depth + 1) :: outer }

/-- Takes a member of a class that begins with `c`: an atom, or a range with a dash in it. -/
def takeMember? (r : Reading) (s : ClassSet) (outer : List ClassSet) (c : Char) (cs : List Char) :
    Option (Reading × List Char) := do
  let r := { r with classes := s.add 0 :: outer }
  let (first, cs) ← Atom.read? r.mode c cs
  let single := if first.isMember r.mode then some (r, cs) else none
  match r.mode.skip cs with
  | '-' :: cs =>
    if r.mode.ahead? cs = some ']' ∨ r.mode.ahead? cs = some '-' then single
    else
      match r.mode.skip cs with
      | [] => none
      | c :: cs =>
        let (last, cs) ← Atom.read? r.mode c cs
        if first.isRange r.mode last then some (r, cs) else none
  | _ => single

def takeInside? (r : Reading) (s : ClassSet) (outer : List ClassSet) (c : Char) (cs : List Char) :
    Option (Reading × List Char) :=
  let member (isAllowed : Bool) (s : ClassSet) (cs : List Char) :=
    if isAllowed then some ({ r with classes := s.add 0 :: outer }, cs) else none
  let later := { s with atStart := false }
  if s.atStart ∧ c = '-' then member (Atom.isMember r.mode (.char c false)) s cs
  else if s.atStart ∧ s.members = [] ∧ c = ']' then
    member (Atom.isMember r.mode (.char c false)) later cs
  else
    match c, cs with
    | '[', cs =>
      match readKind? cs with
      | some (isNegated, cs) =>
        member (if r.mode.unicode then !r.mode.ignoresCase else !isNegated) later cs
      | none => { r with classes := later :: outer }.openClass? cs
    | ']', cs => some (r.closeClass s outer, cs)
    | '&', '&' :: cs | '-', '-' :: cs | '~', '~' :: cs =>
      some ({ r with classes := s.operate :: outer }, cs)
    | c, cs => r.takeMember? later outer c cs

def takeOutside? (r : Reading) (c : Char) (cs : List Char) : Option (Reading × List Char) := do
  match c with
  | '(' => r.takeGroup? (r.mode.skip cs)
  | ')' => return (← r.closeGroup?, cs)
  | '|' => return ({ r with group := r.group.branch }, cs)
  | '[' => r.openClass? cs
  | '{' => none
  | '?' | '*' | '+' =>
    let r := { r with group := ← r.group.repeat? }
    match cs with
    | '?' :: cs => return (r, cs)
    | cs => return (r, cs)
  | '.' => if r.mode.unicode then return (r.add {}, cs) else none
  | '^' | '$' => return (r.add {}, cs)
  | c =>
    let (atom, cs) ← Atom.read? r.mode c cs
    if !atom.isAllowed r.mode then none
    else
      let seeksWords := r.seeksWords || (atom = .wordEnd && r.mode.unicode)
      return ({ r with seeksWords }.add {}, cs)

/-- Takes a sign, with what belongs to it of the signs behind. -/
def take? (r : Reading) (c : Char) (cs : List Char) : Option (Reading × List Char) :=
  match r.classes with
  | [] => r.takeOutside? c cs
  | s :: outer => r.takeInside? s outer c cs

def takeAll? : Nat → Reading → List Char → Option Reading
  | 0, _, _ => none
  | limit + 1, r, cs =>
    match r.mode.skip cs with
    | [] => some r
    | c :: cs => do
      let (r, cs) ← r.take? c cs
      takeAll? limit r cs

def depthLimit : Nat := 250

def isComplete (r : Reading) : Bool :=
  r.classes.isEmpty && r.outer.isEmpty && r.group.depth ≤ depthLimit

end Reading

inductive Verdict where
  | accepted
  | refused
  /-- It has the form of a pattern, but looks for the ends of words in Unicode. -/
  | unsupported
deriving DecidableEq, Repr

def judge (s : String) : Verdict :=
  match Reading.takeAll? (s.length + 1) {} s.toList with
  | none => .refused
  | some r => if !r.isComplete then .refused else if r.seeksWords then .unsupported else .accepted

end DebugAdapter.Pattern

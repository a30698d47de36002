namespace DebugAdapter.Text

/-- Where in a control sequence a text stands. -/
inductive Sequence where
  /-- No sequence is open. -/
  | outside
  /-- The escape was met. -/
  | escape
  /-- An escape with more than one character behind it. -/
  | longEscape
  /-- A sequence with parameters, which a letter ends. -/
  | control
  /-- A command to the system, which a bell ends. -/
  | command
  /-- The parameters of a text for the device. -/
  | device
  /-- A text that is not for the reader. -/
  | hidden
deriving DecidableEq, Repr

def isSpacing (c : Char) : Bool :=
  c = '\t' || c = '\n' || c = '\x0c' || c = '\r'

def isShown (c : Char) : Bool :=
  isSpacing c || (' ' ≤ c && c ≠ '\x7f')

/-- True for the characters of which one byte is the mark that ends a hidden text. -/
def endsHidden (c : Char) : Bool :=
  c.toString.toUTF8.data.contains 0x9c

namespace Sequence

def afterEscape (c : Char) : Sequence :=
  if c = '[' then control
  else if c = ']' then command
  else if c = 'P' then device
  else if c = 'X' || c = '^' || c = '_' then hidden
  else if ' ' ≤ c && c ≤ '/' then longEscape
  else if '0' ≤ c && c ≤ '~' then outside
  else escape

def next (s : Sequence) (c : Char) : Sequence :=
  if c = '\x18' || c = '\x1a' then outside
  else if c = '\x1b' then escape
  else
    match s with
    | outside => outside
    | escape => afterEscape c
    | longEscape => if '0' ≤ c && c ≤ '~' then outside else longEscape
    | control => if '@' ≤ c && c ≤ '~' then outside else control
    | command => if c = '\x07' then outside else command
    | device => if '@' ≤ c && c ≤ '~' then hidden else device
    | hidden => if endsHidden c then outside else hidden

def shows (s : Sequence) (c : Char) : Bool :=
  match s with
  | outside => isShown c
  | escape | longEscape | control => isSpacing c
  | command | device | hidden => false

end Sequence

/-- Reads on. After a character that shows, a sequence stays open and yet hides nothing, up to a
character that does not show. -/
def plainFrom (showing : Bool) (s : Sequence) : List Char → List Char
  | [] => []
  | c :: cs =>
    if showing && isShown c then
      c :: plainFrom true (if c.toNat < 0x80 then s else .outside) cs
    else if s.shows c then c :: plainFrom true (s.next c) cs
    else plainFrom false (s.next c) cs

def plain (s : String) : String :=
  String.ofList (plainFrom false .outside s.toList)

inductive Style where
  | bold
  | underlined
  | red
  | yellow
deriving DecidableEq, Repr

def Style.parameter : Style → String
  | bold => "1"
  | underlined => "4"
  | red => "31"
  | yellow => "33"

/-- Sets a text off by styles, which end behind it. -/
def styled (styles : List Style) (s : String) : String :=
  String.join (styles.map fun style => "\x1b[" ++ style.parameter ++ "m") ++ s ++ "\x1b[0m"

end DebugAdapter.Text

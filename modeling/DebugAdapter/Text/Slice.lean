import DebugAdapter.Text.Quoted

namespace DebugAdapter.Text

def width : List Char → Nat
  | [] => 0
  | c :: cs => c.utf8Size + width cs

def dropBytes : Nat → List Char → List Char
  | 0, cs => cs
  | _, [] => []
  | n + 1, c :: cs => dropBytes (n + 1 - c.utf8Size) cs

def takeBytes : Nat → List Char → List Char
  | 0, _ => []
  | _, [] => []
  | n + 1, c :: cs => c :: takeBytes (n + 1 - c.utf8Size) cs

/-- A cut inside of the character that begins at byte `offset`. -/
structure MisplacedCut where
  isStart : Bool
  index : Nat
  char : Char
  offset : Nat
deriving DecidableEq, Repr

def MisplacedCut.message (c : MisplacedCut) : String :=
  (if c.isStart then "start" else "end") ++ " byte index " ++ toString c.index ++
    " is not a char boundary; it is inside '" ++ quoteChar c.char ++ "' (bytes " ++
    toString c.offset ++ ".." ++ toString (c.offset + c.char.utf8Size) ++ " of string)"

/-- The character that a byte is inside of, and the byte that the character begins at. -/
def around? (index offset : Nat) : List Char → Option (Char × Nat)
  | [] => none
  | c :: cs =>
    if index ≤ offset then none
    else if index < offset + c.utf8Size then some (c, offset)
    else around? index (offset + c.utf8Size) cs

def checkCut (s : String) (isStart : Bool) (index : Nat) : Except MisplacedCut Unit :=
  match around? index 0 s.toList with
  | none => .ok ()
  | some (char, offset) => .error { isStart, index, char, offset }

def slice (s : String) (start stop : Nat) : Except MisplacedCut String := do
  checkCut s true start
  checkCut s false stop
  return String.ofList (takeBytes (stop - start) (dropBytes start s.toList))

end DebugAdapter.Text

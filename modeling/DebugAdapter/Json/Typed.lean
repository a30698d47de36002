import DebugAdapter.Json.Reader
import DebugAdapter.Json.Skip

namespace DebugAdapter.Json

namespace Found

/-- How a value is named where another type was expected. -/
def ofJson : Json → Found
  | .null => null
  | .bool b => boolean b
  | .number (.int i) => integer i
  | .number (.float x) => float x
  | .string s => string s
  | .array _ => sequence
  | .record _ => map

end Found

inductive Shape where
  | word
  | text
  | flag
  | label

namespace Shape

def name : Shape → String
  | word => "u64"
  | text => "a string"
  | flag => "a boolean"
  | label => "variant identifier"

end Shape

/-- The error for the value that begins here. A list or an object is not looked into; any other
value is read, and its own faults come first. -/
def mismatchAt (expected : String) (bytes : Bytes) : ReadError :=
  match bytes with
  | [] => .endOfValue
  | b :: _ =>
    if b = Byte.leftBracket then .mismatch .sequence expected
    else if b = Byte.leftBrace then .mismatch .map expected
    else
      match readScalar bytes with
      | .error e => e
      | .ok (value, _) => .mismatch (.ofJson value) expected

def wordOf (n : Number) : Except ReadError Nat :=
  match n with
  | .float x => .error (.mismatch (.float x) Shape.word.name)
  | .int i => if i < 0 then .error (.negative i) else .ok i.toNat

def readTypedWord (bytes : Bytes) : Read Nat :=
  match skipBlanks bytes with
  | [] => .error .endOfValue
  | b :: rest =>
    if b = Byte.minus ∨ Byte.isDigit b then
      match readNumber (b :: rest) with
      | .error e => .error e
      | .ok (n, rest) => (wordOf n).map (·, rest)
    else .error (mismatchAt Shape.word.name (b :: rest))

def readTypedString (shape : Shape) (bytes : Bytes) : Read String :=
  match skipBlanks bytes with
  | [] => .error .endOfValue
  | b :: rest =>
    if b = Byte.quote then readString rest
    else .error (mismatchAt shape.name (b :: rest))

namespace Value

def toWord : Json → Except ReadError Nat
  | .number n => wordOf n
  | value => .error (.mismatch (.ofJson value) Shape.word.name)

def toText : Json → Except ReadError String
  | .string s => .ok s
  | value => .error (.mismatch (.ofJson value) Shape.text.name)

def toFlag : Json → Except ReadError Bool
  | .bool b => .ok b
  | value => .error (.mismatch (.ofJson value) Shape.flag.name)

/-- An absent value may be written as null. -/
def toOptional {α : Type} (read : Json → Except ReadError α) : Json → Except ReadError (Option α)
  | .null => .ok none
  | value => (read value).map some

end Value

def required {α : Type} (name : String) : Option α → Except ReadError α
  | some value => .ok value
  | none => .error (.missingField name)

def setOnce {α : Type} (name : String) (old : Option α) : Except ReadError Unit :=
  if old.isSome then .error (.duplicateField name) else .ok ()

/-- A value whose outermost list or object was read without merging fields of one name. -/
inductive Outline where
  | scalar (value : Json)
  | list (items : List Json)
  | object (fields : Fields)

def readOutline (bytes : Bytes) : Read Outline :=
  let limit := itemLimit bytes
  match skipBlanks bytes with
  | [] => .error .endOfValue
  | b :: rest =>
    if b = Byte.leftBracket then
      (readItems (readValue limit (maxDepth - 1)) limit true [] rest).map
        fun (items, rest) => (.list items, rest)
    else if b = Byte.leftBrace then
      (readFields (readValue limit (maxDepth - 1)) limit true [] rest).map
        fun (fields, rest) => (.object fields, rest)
    else (readScalar (b :: rest)).map fun (value, rest) => (.scalar value, rest)

end DebugAdapter.Json

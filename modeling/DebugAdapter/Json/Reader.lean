import DebugAdapter.Json.Numeric

namespace DebugAdapter.Json

/-- How many levels of lists and objects a value may have. -/
def maxDepth : Nat := 127

/-- Reads the items of a list up to its closing bracket; `done` holds those so far, last one first.
`limit` bounds their number. -/
def readItems (item : Bytes → Read Json) : Nat → Bool → List Json → Bytes → Read (List Json)
  | 0, _, _, _ => .error .endOfList
  | limit + 1, first, done, bytes =>
    match nextItem first bytes with
    | .error e => .error e
    | .ok (.closed rest) => .ok (done.reverse, rest)
    | .ok (.more rest) =>
      match item rest with
      | .error e => .error e
      | .ok (value, rest) => readItems item limit false (value :: done) rest

def readName (bytes : Bytes) : Read String :=
  match readString bytes with
  | .error e => .error e
  | .ok (name, rest) => (skipColon rest).map (name, ·)

def readFields (item : Bytes → Read Json) : Nat → Bool → Fields → Bytes → Read Fields
  | 0, _, _, _ => .error .endOfObject
  | limit + 1, first, done, bytes =>
    match nextField first bytes with
    | .error e => .error e
    | .ok (.closed rest) => .ok (done.reverse, rest)
    | .ok (.more rest) =>
      match readName rest with
      | .error e => .error e
      | .ok (name, rest) =>
        match item rest with
        | .error e => .error e
        | .ok (value, rest) => readFields item limit false ((name, value) :: done) rest

def readScalar : Bytes → Read Json
  | [] => .error .endOfValue
  | b :: rest =>
    if b = Byte.quote then (readString rest).map fun (s, rest) => (.string s, rest)
    else if b = Byte.minus ∨ Byte.isDigit b then
      (readNumber (b :: rest)).map fun (n, rest) => (.number n, rest)
    else if Word.null.head? = some b then (readWord Word.null.tail rest).map (.null, ·)
    else if Word.yes.head? = some b then (readWord Word.yes.tail rest).map (.bool true, ·)
    else if Word.no.head? = some b then (readWord Word.no.tail rest).map (.bool false, ·)
    else .error .expectedValue

/-- Reads a value that may have `depth` levels. `limit` bounds the length of its lists and objects.
-/
def readValue (limit : Nat) : Nat → Bytes → Read Json
  | depth, bytes =>
    match skipBlanks bytes with
    | [] => .error .endOfValue
    | b :: rest =>
      if b = Byte.leftBracket then
        match depth with
        | 0 => .error .tooDeep
        | depth + 1 =>
          (readItems (readValue limit depth) limit true [] rest).map
            fun (items, rest) => (.array items, rest)
      else if b = Byte.leftBrace then
        match depth with
        | 0 => .error .tooDeep
        | depth + 1 =>
          (readFields (readValue limit depth) limit true [] rest).map
            fun (fields, rest) => (object fields, rest)
      else readScalar (b :: rest)

/-- More items than any text of these bytes has. -/
def itemLimit (bytes : Bytes) : Nat :=
  bytes.length + 1

def readDeep (depth : Nat) (bytes : Bytes) : Except ReadError Json := do
  let (value, rest) ← readValue (itemLimit bytes) depth bytes
  expectEnd rest
  return value

def read (bytes : Bytes) : Except ReadError Json :=
  readDeep maxDepth bytes

end DebugAdapter.Json

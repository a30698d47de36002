import DebugAdapter.Json.Printer
import DebugAdapter.Json.Typed

namespace DebugAdapter.Frontend

open Json

/-- What the front end asks for. `kind` is the value of its field `type`. -/
structure Request where
  seq : Nat
  kind : String := "request"
  command : String
  arguments : Json := .null

namespace Request

def toFields (r : Request) : Fields :=
  [("seq", .nat r.seq), ("type", .string r.kind), ("command", .string r.command),
    ("arguments", r.arguments)]

def print (r : Request) : Bytes :=
  printRecord r.toFields

structure Draft where
  seq : Option Nat := none
  kind : Option String := none
  command : Option String := none
  arguments : Option Json := none

/-- The request, if no field is missing; `arguments` may be. -/
def Draft.finish (d : Draft) : Except ReadError Request := do
  let seq ← required "seq" d.seq
  let kind ← required "type" d.kind
  let command ← required "command" d.command
  return { seq, kind, command, arguments := d.arguments.getD .null }

/-- Reads the value of the field `name`. A second one of a known name is refused before its value is
looked at; a field of any other name is passed over. -/
def readField (limit : Nat) (name : String) (d : Draft) (bytes : Bytes) :
    Except ReadError (Draft × Bytes) := do
  if name = "seq" then
    setOnce name d.seq
    let (value, rest) ← readTypedWord (← skipColon bytes)
    return ({ d with seq := some value }, rest)
  else if name = "type" then
    setOnce name d.kind
    let (value, rest) ← readTypedString .text (← skipColon bytes)
    return ({ d with kind := some value }, rest)
  else if name = "command" then
    setOnce name d.command
    let (value, rest) ← readTypedString .text (← skipColon bytes)
    return ({ d with command := some value }, rest)
  else if name = "arguments" then
    setOnce name d.arguments
    let (value, rest) ← readValue limit (maxDepth - 1) (← skipColon bytes)
    return ({ d with arguments := some value }, rest)
  else
    let rest ← skipValue limit (← skipColon bytes)
    return (d, rest)

/-- Reads fields up to the closing brace; `limit` bounds their number. -/
def readDraft (limit : Nat) : Nat → Bool → Draft → Bytes → Read Draft
  | 0, _, _, _ => .error .endOfObject
  | fields + 1, first, d, bytes =>
    match nextField first bytes with
    | .error e => .error e
    | .ok (.closed rest) => .ok (d, rest)
    | .ok (.more rest) =>
      match readString rest with
      | .error e => .error e
      | .ok (name, rest) =>
        match readField limit name d rest with
        | .error e => .error e
        | .ok (d, rest) => readDraft limit fields false d rest

def readElement {α : Type} (count : Nat) (read : Bytes → Read α) (bytes : Bytes) : Read α :=
  match nextItem (count = 0) bytes with
  | .error e => .error e
  | .ok (.closed _) => .error (.wrongLength count "struct Request with 4 elements")
  | .ok (.more rest) => read rest

def closeElements (bytes : Bytes) : Except ReadError Bytes :=
  match skipBlanks bytes with
  | [] => .error .endOfList
  | b :: rest =>
    if b = Byte.rightBracket then .ok rest
    else if b = Byte.comma then
      match skipBlanks rest with
      | [] => .error .trailingCharacters
      | c :: _ =>
        if c = Byte.rightBracket then .error .trailingComma else .error .trailingCharacters
    else .error .trailingCharacters

/-- Reads the list form after its bracket. The arguments may be missing. -/
def readElements (limit : Nat) (bytes : Bytes) : Except ReadError (Request × Bytes) := do
  let (seq, bytes) ← readElement 0 readTypedWord bytes
  let (kind, bytes) ← readElement 1 (readTypedString .text) bytes
  let (command, bytes) ← readElement 2 (readTypedString .text) bytes
  match ← nextItem false bytes with
  | .closed rest => return ({ seq, kind, command }, rest)
  | .more bytes =>
    let (arguments, bytes) ← readValue limit (maxDepth - 1) bytes
    let rest ← closeElements bytes
    return ({ seq, kind, command, arguments }, rest)

def ofBytes? (bytes : Bytes) : Except ReadError Request := do
  let limit := itemLimit bytes
  match skipBlanks bytes with
  | [] => .error .endOfValue
  | b :: rest =>
    let (request, rest) ←
      if b = Byte.leftBracket then readElements limit rest
      else if b = Byte.leftBrace then
        match readDraft limit limit true {} rest with
        | .error e => .error e
        | .ok (draft, rest) => draft.finish.map (·, rest)
      else .error (mismatchAt "struct Request" (b :: rest))
    expectEnd rest
    return request

end Request
end DebugAdapter.Frontend

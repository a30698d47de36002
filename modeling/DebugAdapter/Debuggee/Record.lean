import DebugAdapter.Json.Printer
import DebugAdapter.Json.Typed

namespace DebugAdapter.Debuggee

open Json

structure Command where
  seq : Nat
  command : String
  arguments : Json

namespace Command

/-- Arguments that are null are sent as an object without fields. -/
def make (seq : Nat) (command : String) (arguments : Json) : Command :=
  { seq
    command
    arguments := match arguments with
      | .null => .record []
      | arguments => arguments }

def toFields (c : Command) : Fields :=
  [("seq", .nat c.seq), ("type", .string "request"), ("command", .string c.command),
    ("arguments", c.arguments)]

def toLine (c : Command) : Bytes :=
  printRecord c.toFields ++ [0x0A]

end Command

/-- An answer of the debuggee. `requestSeq` is there if it names the command that it answers. -/
structure Reply where
  command : String
  body : Json := .null
  success : Bool := true
  requestSeq : Option Nat := none
  message : Option String := none

inductive Record where
  | event (name : String) (body : Json)
  | reply (reply : Reply)

namespace Record

def kind : Record → String
  | event .. => "event"
  | reply _ => "response"

def name : Record → String
  | event name _ => name
  | reply r => r.command

def toFields : Record → Fields
  | event name body => [("type", .string "event"), ("event", .string name), ("body", body)]
  | reply r =>
    [("type", .string "response"), ("command", .string r.command), ("body", r.body),
      ("success", .bool r.success)] ++
    (r.requestSeq.toList.map fun seq => ("request_seq", .nat seq)) ++
    (r.message.toList.map fun message => ("message", .string message))

def print (r : Record) : Bytes :=
  printRecord r.toFields

inductive Kind where
  | event
  | reply

def Kind.ofName (name : String) : Except ReadError Kind :=
  if name = "event" then .ok .event
  else if name = "response" then .ok .reply
  else .error (.unknownVariant name ["event", "response"])

def readKind (bytes : Bytes) : Read Kind :=
  match readTypedString .label bytes with
  | .error e => .error e
  | .ok (name, rest) => (Kind.ofName name).map (·, rest)

structure EventDraft where
  event : Option String := none
  body : Option Json := none

namespace EventDraft

/-- Takes one more field; one of an unknown name is left aside. -/
def set (d : EventDraft) (name : String) (value : Json) : Except ReadError EventDraft := do
  if name = "event" then
    setOnce name d.event
    return { d with event := some (← Value.toText value) }
  else if name = "body" then
    setOnce name d.body
    return { d with body := some value }
  else return d

def finish (d : EventDraft) : Except ReadError Record := do
  let event ← required "event" d.event
  return .event event (d.body.getD .null)

end EventDraft

structure ReplyDraft where
  command : Option String := none
  body : Option Json := none
  success : Option Bool := none
  requestSeq : Option (Option Nat) := none
  message : Option (Option String) := none

namespace ReplyDraft

def set (d : ReplyDraft) (name : String) (value : Json) : Except ReadError ReplyDraft := do
  if name = "command" then
    setOnce name d.command
    return { d with command := some (← Value.toText value) }
  else if name = "body" then
    setOnce name d.body
    return { d with body := some value }
  else if name = "success" then
    setOnce name d.success
    return { d with success := some (← Value.toFlag value) }
  else if name = "request_seq" then
    setOnce name d.requestSeq
    return { d with requestSeq := some (← Value.toOptional Value.toWord value) }
  else if name = "message" then
    setOnce name d.message
    return { d with message := some (← Value.toOptional Value.toText value) }
  else return d

def finish (d : ReplyDraft) : Except ReadError Record := do
  let command ← required "command" d.command
  return .reply
    { command
      body := d.body.getD .null
      success := d.success.getD true
      requestSeq := d.requestSeq.join
      message := d.message.join }

end ReplyDraft

/-- The record of a kind from its fields, in the order in which they stood. -/
def ofFields (kind : Kind) (fields : Fields) : Except ReadError Record :=
  match kind with
  | .event => do
    let draft ← fields.foldlM (fun d field => EventDraft.set d field.1 field.2) {}
    draft.finish
  | .reply => do
    let draft ← fields.foldlM (fun d field => ReplyDraft.set d field.1 field.2) {}
    draft.finish

def Kind.fieldNames : Kind → List String
  | .event => ["event", "body"]
  | .reply => ["command", "body", "success", "request_seq", "message"]

/-- How a kind is named where its first value is missing. -/
def Kind.shape : Kind → String
  | .event => "struct variant IncomingMessage::Event with 2 elements"
  | .reply => "struct variant IncomingMessage::Response with 5 elements"

/-- The record of a kind from its values in order; those after the first may be missing. -/
def ofValues (kind : Kind) (values : List Json) : Except ReadError Record := do
  let names := kind.fieldNames
  if values.isEmpty then throw (.wrongLength 0 kind.shape)
  let found ← ofFields kind (names.zip values)
  if names.length < values.length then
    throw (.wrongLength values.length (toString names.length ++ " elements in sequence"))
  return found

/-- Reads fields up to the closing brace, and the kind among them. The kind may stand anywhere, but
only once. -/
def readFields (item : Bytes → Read Json) :
    Nat → Bool → Option Kind → Fields → Bytes → Read (Option Kind × Fields)
  | 0, _, _, _, _ => .error .endOfObject
  | limit + 1, first, kind, done, bytes =>
    match nextField first bytes with
    | .error e => .error e
    | .ok (.closed rest) => .ok ((kind, done.reverse), rest)
    | .ok (.more rest) =>
      match readString rest with
      | .error e => .error e
      | .ok (name, rest) =>
        if name = "type" then
          match setOnce name kind with
          | .error e => .error e
          | .ok () =>
            match skipColon rest with
            | .error e => .error e
            | .ok rest =>
              match readKind rest with
              | .error e => .error e
              | .ok (kind, rest) => readFields item limit false (some kind) done rest
        else
          match skipColon rest with
          | .error e => .error e
          | .ok rest =>
            match item rest with
            | .error e => .error e
            | .ok (value, rest) =>
              readFields item limit false kind ((name, value) :: done) rest

def readObject (limit : Nat) (bytes : Bytes) : Read Record :=
  match readFields (readValue limit (maxDepth - 1)) limit true none [] bytes with
  | .error e => .error e
  | .ok ((none, _), _) => .error (.missingField "type")
  | .ok ((some kind, fields), rest) => (ofFields kind fields).map (·, rest)

/-- Reads the list form after its bracket: the kind, then the values of its fields. -/
def readList (limit : Nat) (bytes : Bytes) : Read Record :=
  match nextItem true bytes with
  | .error e => .error e
  | .ok (.closed _) => .error (.missingField "type")
  | .ok (.more rest) =>
    match readKind rest with
    | .error e => .error e
    | .ok (kind, rest) =>
      match readItems (readValue limit (maxDepth - 1)) limit false [] rest with
      | .error e => .error e
      | .ok (values, rest) => (ofValues kind values).map (·, rest)

def ofBytes? (bytes : Bytes) : Except ReadError Record := do
  let limit := itemLimit bytes
  match skipBlanks bytes with
  | [] => .error .endOfValue
  | b :: rest =>
    let (found, rest) ←
      if b = Byte.leftBracket then readList limit rest
      else if b = Byte.leftBrace then readObject limit rest
      else .error (mismatchAt "internally tagged enum IncomingMessage" (b :: rest))
    expectEnd rest
    return found

end Record
end DebugAdapter.Debuggee

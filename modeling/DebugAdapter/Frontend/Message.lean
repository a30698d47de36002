import DebugAdapter.Frontend.Request

namespace DebugAdapter.Frontend

open Json

structure Response where
  seq : Nat := 0
  kind : String := "response"
  requestSeq : Nat
  success : Bool := true
  command : String
  message : Option String := none
  body : Option Json := none

structure Event where
  seq : Nat := 0
  kind : String := "event"
  event : String
  body : Option Json := none

inductive Message where
  | response (response : Response)
  | event (event : Event)

/-- A field that is written only where it has a value. -/
def optionalField (name : String) (value : Option Json) : Fields :=
  value.toList.map (name, ·)

namespace Response

def forRequest (requestSeq : Nat) (command : String) (body : Option Json) : Response :=
  { requestSeq, command, body }

def ok (request : Request) (body : Option Json) : Response :=
  forRequest request.seq request.command body

def error (request : Request) (id : Nat) (message : String) : Response :=
  { requestSeq := request.seq
    success := false
    command := request.command
    message := some message
    body := some (object [("error", object
      [("id", .nat id), ("format", .string message), ("showUser", .bool true)])]) }

def toFields (r : Response) : Fields :=
  [("seq", .nat r.seq), ("type", .string r.kind), ("request_seq", .nat r.requestSeq),
    ("success", .bool r.success), ("command", .string r.command)] ++
  optionalField "message" (r.message.map .string) ++ optionalField "body" r.body

end Response

namespace Event

def initialized : Event :=
  { event := "initialized" }

def terminated : Event :=
  { event := "terminated" }

def exited (code : Int) : Event :=
  { event := "exited", body := some (object [("exitCode", .int code)]) }

def stopped (reason : String) (thread : Int) : Event :=
  { event := "stopped"
    body := some (object [("reason", .string reason), ("threadId", .int thread)]) }

def output (text category : String) : Event :=
  { event := "output"
    body := some (object [("category", .string category), ("output", .string text)]) }

def toFields (e : Event) : Fields :=
  [("seq", .nat e.seq), ("type", .string e.kind), ("event", .string e.event)] ++
  optionalField "body" e.body

end Event

namespace Message

def withSeq (seq : Nat) : Message → Message
  | response r => response { r with seq }
  | event e => event { e with seq }

def toFields : Message → Fields
  | response r => r.toFields
  | event e => e.toFields

def print (m : Message) : Bytes :=
  printRecord m.toFields

/-- Takes the value called `name`, which must occur once. -/
def take? (fields : Fields) (name : String) : Option (Option Json) :=
  match fields.filter (·.1 = name) with
  | [] => some none
  | [(_, value)] => some (some value)
  | _ => none

/-- The values of the fields called `names`, in this order, or nothing if one occurs twice. -/
def select? (names : List String) (fields : Fields) : Option (List (Option Json)) :=
  names.mapM (take? fields)

/-- The values of a list as those of its first fields, or nothing if it has more. -/
def spread? (count : Nat) (items : List Json) : Option (List (Option Json)) :=
  if count < items.length then none
  else some (items.map some ++ List.replicate (count - items.length) none)

def some? {α : Type} (read : Json → Except ReadError α) (value : Option Json) : Option α := do
  (read (← value)).toOption

/-- A value that may be absent or null. -/
def optional? {α : Type} (read : Json → Except ReadError α) : Option Json → Option (Option α)
  | none => some none
  | some value => (Value.toOptional read value).toOption

def response? : List (Option Json) → Option Response
  | [seq, kind, requestSeq, success, command, message, body] => do
    let seq ← some? Value.toWord seq
    let kind ← some? Value.toText kind
    let requestSeq ← some? Value.toWord requestSeq
    let success ← some? Value.toFlag success
    let command ← some? Value.toText command
    let message ← optional? Value.toText message
    let body ← optional? pure body
    return { seq, kind, requestSeq, success, command, message, body }
  | _ => none

def event? : List (Option Json) → Option Event
  | [seq, kind, name, body] => do
    let seq ← some? Value.toWord seq
    let kind ← some? Value.toText kind
    let name ← some? Value.toText name
    let body ← optional? pure body
    return { seq, kind, event := name, body }
  | _ => none

def responseNames : List String :=
  ["seq", "type", "request_seq", "success", "command", "message", "body"]

def eventNames : List String :=
  ["seq", "type", "event", "body"]

/-- The message that a value stands for: a response if it reads as one, else an event. -/
def ofOutline? (outline : Outline) : Option Message :=
  let values (names : List String) : Option (List (Option Json)) :=
    match outline with
    | .scalar _ => none
    | .list items => spread? names.length items
    | .object fields => select? names fields
  ((values responseNames).bind response?).map response <|>
    ((values eventNames).bind event?).map event

def ofBytes? (bytes : Bytes) : Except ReadError Message := do
  let (outline, rest) ← readOutline bytes
  match ofOutline? outline with
  | none => .error (.noVariant "OutgoingMessage")
  | some message =>
    expectEnd rest
    return message

end Message
end DebugAdapter.Frontend

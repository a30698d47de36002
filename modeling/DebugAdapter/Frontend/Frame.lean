import DebugAdapter.Frontend.Message
import DebugAdapter.Text.Blank
import DebugAdapter.Text.Numeral
import DebugAdapter.Text.Utf8

namespace DebugAdapter.Frontend

open Json

def maxBodyBytes : Nat := 16777216

/-- The longest unfinished header block that is waited for. -/
def maxHeaderBytes : Nat := 8192

def lineEnd : Bytes := [0x0D, 0x0A]

def headerEnd : Bytes := lineEnd ++ lineEnd

inductive FrameError where
  | headerTooLong
  | headerNotText
  | badLength (value : String) (reason : Text.NumeralError)
  | missingLength
  | lengthTooLarge (length : Nat)
  | unfinishedFrame
deriving DecidableEq, Repr

namespace FrameError

def message : FrameError → String
  | headerTooLong =>
    "DAP header exceeds maximum size (" ++ toString maxHeaderBytes ++ " bytes)"
  | headerNotText => "DAP header is not UTF-8"
  | badLength value reason =>
    "invalid Content-Length " ++ Text.quoted value ++ ": " ++ reason.message
  | missingLength => "DAP message missing Content-Length header"
  | lengthTooLarge length =>
    "DAP message Content-Length " ++ toString length ++ " exceeds maximum allowed size " ++
      toString maxBodyBytes
  | unfinishedFrame => "bytes remaining on stream"

end FrameError

namespace Header

/-- The lines of a block, cut at each carriage return that a line feed follows; `line` holds the
current one, last character first. -/
def linesFrom (line : List Char) : List Char → List (List Char)
  | [] => [line.reverse]
  | '\r' :: '\n' :: cs => line.reverse :: linesFrom [] cs
  | c :: cs => linesFrom (c :: line) cs

def lines (block : List Char) : List (List Char) :=
  linesFrom [] block

def lower (c : Char) : Char :=
  if 'A' ≤ c ∧ c ≤ 'Z' then Char.ofNat (c.toNat + 32) else c

/-- The text after the first colon of a line whose name is `Content-Length`, without blanks around
it. -/
def lengthValue? (line : List Char) : Option (List Char) :=
  match line.span (· ≠ ':') with
  | (_, []) => none
  | (name, _ :: value) =>
    if (Text.trim name).map lower = "content-length".toList then some (Text.trim value) else none

/-- The last length that the lines give; the first that is no number is refused. -/
def lengthOf : Option Nat → List (List Char) → Except FrameError (Option Nat)
  | length, [] => .ok length
  | length, line :: lines =>
    match lengthValue? line with
    | none => lengthOf length lines
    | some value =>
      match Text.readNumeral value with
      | .error reason => .error (.badLength (String.ofList value) reason)
      | .ok n => lengthOf (some n) lines

def bodyLength (block : Bytes) : Except FrameError Nat :=
  match block.toString? with
  | none => .error .headerNotText
  | some text =>
    match lengthOf none (lines text.toList) with
    | .error e => .error e
    | .ok none => .error .missingLength
    | .ok (some n) => if maxBodyBytes < n then .error (.lengthTooLarge n) else .ok n

end Header

inductive Incoming where
  | request (request : Request)
  | malformed (body : String) (reason : ReadError)

def Incoming.ofBody (body : Bytes) : Incoming :=
  match Request.ofBytes? body with
  | .ok r => .request r
  | .error reason => .malformed (Text.lossy body) reason

/-- The bytes that have arrived and were not yet decoded. `awaiting` is the length of a body whose
header was taken off already. -/
structure Decoder where
  awaiting : Option Nat := none
  buffer : Bytes := []

inductive Progress where
  | item (item : Incoming) (rest : Decoder)
  | wait (rest : Decoder)
  | failed (error : FrameError) (rest : Decoder)

namespace Decoder

def feed (d : Decoder) (chunk : Bytes) : Decoder :=
  { d with buffer := d.buffer ++ chunk }

def lacking (d : Decoder) : Nat :=
  match d.awaiting with
  | some length => length - d.buffer.length
  | none => 1

def takeBody (length : Nat) (buffer : Bytes) : Progress :=
  match Bytes.splitExact? length buffer with
  | none => .wait ⟨some length, buffer⟩
  | some (body, rest) => .item (.ofBody body) ⟨none, rest⟩

/-- Takes the next frame. A header that is refused stays in the buffer; one that is accepted leaves
it, also when the body has not arrived. -/
def next (d : Decoder) : Progress :=
  match d.awaiting with
  | some length => takeBody length d.buffer
  | none =>
    match Bytes.cutBefore headerEnd d.buffer with
    | none => if maxHeaderBytes < d.buffer.length then .failed .headerTooLong d else .wait d
    | some (block, rest) =>
      match Header.bodyLength block with
      | .error e => .failed e d
      | .ok length => takeBody length rest

/-- Takes up to `limit` frames, until none is left or one is refused. `done` holds those taken, last
one first. -/
def drainFrom : Nat → List Incoming → Decoder → List Incoming × Option FrameError × Decoder
  | 0, done, d => (done.reverse, none, d)
  | limit + 1, done, d =>
    match d.next with
    | .wait d => (done.reverse, none, d)
    | .failed e d => (done.reverse, some e, d)
    | .item item d => drainFrom limit (item :: done) d

/-- Takes all frames that have arrived. Each leaves fewer bytes, so the limit is never met. -/
def drain (d : Decoder) : List Incoming × Option FrameError × Decoder :=
  drainFrom (d.buffer.length + 1) [] d

/-- Takes all frames at the end of the stream, where no byte may be left over. -/
def finish (d : Decoder) : List Incoming × Option FrameError × Decoder :=
  match d.drain with
  | (items, none, d) =>
    (items, if d.buffer.isEmpty then none else some .unfinishedFrame, d)
  | failed => failed

end Decoder

def frame (body : Bytes) : Bytes :=
  Bytes.ofString ("Content-Length: " ++ toString body.length) ++ headerEnd ++ body

namespace Message

def toFrame (m : Message) : Bytes :=
  frame m.print

end Message
end DebugAdapter.Frontend

import DebugAdapter.Debuggee.Record
import DebugAdapter.Text.Blank

namespace DebugAdapter.Debuggee

open Json

def maxLineBytes : Nat := 8388608

def lineFeed : UInt8 := 0x0A

inductive LineError where
  | tooLong
  | notText
  | notRecord (reason : ReadError)

namespace LineError

def message : LineError → String
  | tooLong => "line exceeds " ++ toString maxLineBytes ++ " bytes"
  | notText => "Unable to decode input as UTF8"
  | notRecord reason => reason.message

end LineError

inductive Output where
  | record (record : Record)
  | malformed (line : String) (reason : LineError)

namespace Output

def tooLong : Output :=
  malformed "" .tooLong

/-- What a line says, unless it is blank. -/
def ofLine? (line : Bytes) : Option Output :=
  match line.toString? with
  | none => some (malformed "" .notText)
  | some text =>
    match Text.trim text.toList with
    | [] => none
    | trimmed =>
      let text := String.ofList trimmed
      match Record.ofBytes? (.ofString text) with
      | .ok r => some (record r)
      | .error reason => some (malformed text (.notRecord reason))

end Output

/-- The output that has arrived and was not yet decoded. While `discarding`, everything through the
next line feed belongs to a line that was too long. -/
structure LineDecoder where
  discarding : Bool := false
  buffer : Bytes := []

/-- The outcome of looking for one line; `line` carries nothing if it was blank. -/
inductive LineProgress where
  | line (output : Option Output) (rest : LineDecoder)
  | wait (rest : LineDecoder)

namespace LineDecoder

def feed (d : LineDecoder) (chunk : Bytes) : LineDecoder :=
  { d with buffer := d.buffer ++ chunk }

def nextKept (buffer : Bytes) : LineProgress :=
  match buffer.cutAt lineFeed with
  | some (line, rest) =>
    if line.length ≤ maxLineBytes then .line (Output.ofLine? line) ⟨false, rest⟩
    else .line (some .tooLong) ⟨true, buffer⟩
  | none =>
    if maxLineBytes < buffer.length then .line (some .tooLong) ⟨true, buffer⟩
    else .wait ⟨false, buffer⟩

def next (d : LineDecoder) : LineProgress :=
  if d.discarding then
    match d.buffer.cutAt lineFeed with
    | some (_, rest) => nextKept rest
    | none => .wait ⟨true, []⟩
  else nextKept d.buffer

/-- Takes up to `limit` lines; `done` holds what they carry, last one first. -/
def drainFrom : Nat → List Output → LineDecoder → List Output × LineDecoder
  | 0, done, d => (done.reverse, d)
  | limit + 1, done, d =>
    match d.next with
    | .wait d => (done.reverse, d)
    | .line output d => drainFrom limit (output.toList ++ done) d

/-- Takes all lines that have arrived. Of two steps one at least takes bytes, so the limit is never
met. -/
def drain (d : LineDecoder) : List Output × LineDecoder :=
  drainFrom (2 * d.buffer.length + 2) [] d

/-- Takes all lines at the end of the output, and what is left as a line of its own. A carriage
return that is left alone is no line. -/
def finish (d : LineDecoder) : List Output × LineDecoder :=
  let (outputs, d) := d.drain
  if d.buffer.isEmpty ∨ d.buffer = [0x0D] then (outputs, d)
  else (outputs ++ (Output.ofLine? d.buffer).toList, { d with buffer := [] })

end LineDecoder
end DebugAdapter.Debuggee

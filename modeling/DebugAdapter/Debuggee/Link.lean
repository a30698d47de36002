import DebugAdapter.Debuggee.Record

namespace DebugAdapter.Debuggee

/-- How many bytes may be queued before a further command is refused. -/
def queueBytes : Nat := 8192

/-- How much a sink takes of what it is given: all, or so many bytes before it fails. -/
inductive Intake where
  | all
  | upTo (bytes : Nat)
deriving DecidableEq, Repr

def Intake.ofBool : Bool → Intake
  | true => all
  | false => upTo 0

/-- The commands that a sink has not taken to the end, and how many bytes of the first it has. -/
structure Queue where
  commands : List Command := []
  begun : Nat := 0

namespace Queue

def size (q : Queue) : Nat :=
  (q.commands.flatMap Command.toLine).length - q.begun

def push (q : Queue) (command : Command) : Queue :=
  { q with commands := q.commands ++ [command] }

/-- Takes bytes from the front of a queue: the commands that end there, and what stays queued. -/
def takeFrom : Nat → List Command → Nat → List Command × Queue
  | begun, [], _ => ([], ⟨[], begun⟩)
  | begun, c :: commands, bytes =>
    if bytes = 0 ∨ begun + bytes < c.toLine.length then ([], ⟨c :: commands, begun + bytes⟩)
    else
      let (taken, rest) := takeFrom 0 commands (begun + bytes - c.toLine.length)
      (c :: taken, rest)

def flush (q : Queue) : Intake → List Command × Queue
  | .all => (q.commands, {})
  | .upTo bytes => takeFrom q.begun q.commands bytes

end Queue

/-- `sink` holds what an attached sink has not taken yet. -/
structure Link where
  nextSeq : Nat := 1
  sink : Option Queue := none

inductive SendError where
  | notAttached
  | brokenPipe
deriving DecidableEq, Repr

def SendError.message : SendError → String
  | notAttached => "debuggee not started"
  | brokenPipe => "failed to write to debuggee: broken pipe"

/-- What became of a command: its number or the reason why it was not written, the commands that
reached the sink, and the link afterwards. -/
structure Sending where
  result : Except SendError Nat
  written : List Command
  link : Link

namespace Link

def isAttached (l : Link) : Bool :=
  l.sink.isSome

def attach (l : Link) : Link :=
  { l with sink := some {} }

def detach (l : Link) : Link :=
  { l with sink := none }

/-- Numbers a command and writes it behind those still queued. What the sink does not take stays
queued. A queue that is full is written out first, and where the sink fails at that (`relief` is
what it takes then) the command is dropped. Its number is used up in any case. Without a sink
nothing is numbered. -/
def transmit (l : Link) (relief intake : Intake) (command : String) (arguments : Json) : Sending :=
  match l.sink with
  | none => ⟨.error .notAttached, [], l⟩
  | some queue =>
    let isFull := queueBytes ≤ queue.size
    let (relieved, queue) := if isFull then queue.flush relief else ([], queue)
    if isFull ∧ relief ≠ .all then
      ⟨.error .brokenPipe, relieved, ⟨l.nextSeq + 1, some queue⟩⟩
    else
      let (written, queue) := (queue.push (.make l.nextSeq command arguments)).flush intake
      ⟨if intake = .all then .ok l.nextSeq else .error .brokenPipe, relieved ++ written,
        ⟨l.nextSeq + 1, some queue⟩⟩

def send (l : Link) (accepts : Bool) (command : String) (arguments : Json) : Sending :=
  l.transmit (.ofBool accepts) (.ofBool accepts) command arguments

end Link
end DebugAdapter.Debuggee

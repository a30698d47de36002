import DebugAdapter.Frontend.Frame

namespace DebugAdapter.Frontend

/-- The number of the next message. Once a write was refused the outbox is broken, and nothing more
is written. -/
structure Outbox where
  nextSeq : Nat := 1
  isBroken : Bool := false

namespace Outbox

/-- Writes one message. A front end that stops reading takes only the first `room` bytes. -/
def put (o : Outbox) (room : Option Nat) (m : Message) : Outbox × Bytes :=
  if o.isBroken then (o, [])
  else
    let bytes := (m.withSeq o.nextSeq).toFrame
    match room with
    | none => ({ o with nextSeq := o.nextSeq + 1 }, bytes)
    | some n => ({ nextSeq := o.nextSeq + 1, isBroken := true }, bytes.take n)

def putAll (o : Outbox) (room : Option Nat) : List Message → Outbox × Bytes
  | [] => (o, [])
  | m :: messages =>
    let (o, bytes) := o.put room m
    let (o, more) := o.putAll room messages
    (o, bytes ++ more)

end Outbox
end DebugAdapter.Frontend

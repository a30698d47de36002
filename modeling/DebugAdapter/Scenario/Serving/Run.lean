import DebugAdapter.Scenario.Serving.Turn

namespace DebugAdapter.Scenario

open Debuggee

namespace Serving

/-- What happens when nobody is awake: the pipe is looked at, and the alarms ring. -/
def rouse (s : Serving) : Serving :=
  let held := s.unwritten.isSome && !s.pipe.ready
  let s := if s.world.debuggee.isSome then { s with pipe := s.pipe.announce } else s
  let s := if held && s.pipe.ready then s.wakeHolder else s
  { s with turns := s.turns.ring s.world.now }

/-- Lets up to `limit` turns be taken. A full pipe is emptied when nothing else can happen. -/
def run : Nat → Serving → Serving
  | 0, s => s
  | limit + 1, s =>
    match s.turns.next? with
    | some (p, turns) => run limit ({ s with turns }.takeTurn p)
    | none =>
      let s := s.rouse
      if !s.turns.queue.isEmpty then run limit s
      else if s.unwritten.isSome then run limit { s with pipe := s.pipe.drain }
      else { s with pipe := s.pipe.drain }

def settle (s : Serving) : Serving :=
  let waiting := s.server.session.pending.size + s.server.session.released.length
  s.run (16 * (s.work + waiting + s.turns.queue.length) + 256)

inductive Step where
  | send (bytes : Bytes)
  | endInput
  | stopReading
  | act (act : Act)
  | setSpawn (mode : SpawnMode)
  | advance (time : Nat)

def start (config : Config) (roots : List String) (spawn : SpawnMode) (ignoresTerm : Bool) :
    Serving :=
  { server := { session := { config, roots } }
    world := { grace := config.terminateGrace, ignoresTerm, spawn := spawn.failure? } }

/-- How much output a debuggee writes at once. -/
def outputSize : Nat := 65536

def writePieces : Nat → Serving → Bytes → Serving
  | 0, s, _ => s
  | pieces + 1, s, bytes =>
    if bytes.isEmpty then s
    else writePieces pieces (s.act (.write (bytes.take outputSize))).settle (bytes.drop outputSize)

def advance : Nat → Serving → Serving
  | 0, s => s
  | time + 1, s => advance time { s with world := s.world.tick }.settle

/-- Makes one step. What the debuggee does in it is handled before the next, what the front end does
only in the course of time. -/
def step (s : Serving) : Step → Serving
  | .send bytes => { s with incoming := s.incoming ++ bytes }.wake .session
  | .endInput => { s with inputEnded := true }.wake .session
  | .stopReading => { s with reading := false }
  | .act (.write bytes) => writePieces (bytes.length / outputSize + 1) s bytes
  | .act a => (s.act a).settle
  | .setSpawn mode => { s with world.spawn := mode.failure? }
  | .advance time => advance time s

/-- Takes the effects so far, with what the messages among them bring to the front end. -/
def deliver (s : Serving) : Serving × List Effect × Bytes :=
  let room := if s.reading then none else some 0
  let effects := s.trace.reverse
  let (outbox, bytes) := s.server.outbox.putAll room (Effect.messages effects)
  ({ s with server.outbox := outbox, trace := [] }, effects, bytes)

def steps (s : Serving) : List Step → Serving × List Effect × Bytes
  | [] => s.settle.deliver
  | step :: rest =>
    let (s, effects, bytes) := (s.step step).deliver
    let (s, more, moreBytes) := s.steps rest
    (s, effects ++ more, bytes ++ moreBytes)

/-- How the server has returned, if it has: well, or with a front end that took no more. -/
def result? (s : Serving) : Option Bool :=
  if s.server.isDone then some (!s.server.outbox.isBroken) else none

end Serving
end DebugAdapter.Scenario

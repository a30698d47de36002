import DebugAdapter.Scenario.Pipe
import DebugAdapter.Scenario.Turns
import DebugAdapter.Scenario.World
import DebugAdapter.Server

namespace DebugAdapter.Scenario

open Debuggee

/-- `incoming` is what the front end has sent and the server not read, `reports` what was reported
and not handled. `job` is what the session has begun to handle, and `unwritten` how many bytes the
holder of the lock has still to write. `trace` holds the effects so far, last first. While
`reading`, the front end takes what is written to it. -/
structure Serving where
  server : Server
  world : World
  incoming : Bytes := []
  inputEnded : Bool := false
  reading : Bool := true
  reports : List Report := []
  turns : Turns := {}
  job : Option Server.Input := none
  lock : Lock := {}
  unwritten : Option Nat := none
  pipe : Pipe := {}
  trace : List Effect := []

namespace Serving

def wake (s : Serving) (p : Party) : Serving :=
  { s with turns := s.turns.wake p }

def wokenByEffect : Effect → List Party
  | .spawn _ true | .stop => [.supervisor]
  | _ => []

/-- Who is woken when the state of a session changes: the handshake by its beginning or end and by
what it waits for, the timers and the answers of new stack traces, and the answers of released
ones. -/
def wokenByChange (before after : Session) : List Party :=
  let changed := before.handshake.isSome != after.handshake.isSome ||
    before.heard != after.heard || before.acknowledged != after.acknowledged
  let added := after.pending.entries.filter fun e => before.pending.nextGeneration ≤ e.generation
  let released := after.released.drop before.released.length
  (if changed then [.handshake] else []) ++
    added.flatMap (fun e => [.timer e.key e.generation, .answer e.key]) ++
    released.map fun c => .answer c.key

def perform (s : Serving) (outcome : Server.Outcome) : Serving :=
  let (server, effects) := outcome
  { s with
    server
    world := s.world.applyAll effects
    trace := effects.reverse ++ s.trace
    turns := s.turns.wakeAll
      (effects.flatMap wokenByEffect ++ wokenByChange s.server.session server.session) }

def handle (s : Serving) (handling : Environment → Session → Session.Outcome) : Serving :=
  let (session, effects) := handling s.world.environment s.server.session
  s.perform ({ s.server with session }, effects)

def post (s : Serving) (reports : List Report) : Serving :=
  if reports.isEmpty then s else { s with reports := s.reports ++ reports }.wake .session

def act (s : Serving) (a : Act) : Serving :=
  let (world, reports) := s.world.act a
  ({ s with world }.post reports).wake .supervisor

def takeLock (s : Serving) (p : Party) : Bool × Serving :=
  let lock := s.lock.ask p
  (lock.holder = some p, { s with lock })

def wakeHolder (s : Serving) : Serving :=
  { s with turns := s.turns.wakeAll s.lock.holder.toList }

def leaveLock (s : Serving) (p : Party) : Serving :=
  if s.lock.holder = some p then
    { s with lock := s.lock.leave p, unwritten := none }.wakeHolder
  else { s with lock := s.lock.leave p }

def writtenBy (effects : List Effect) : Nat :=
  ((Effect.commands effects).flatMap Debuggee.Command.toLine).length

/-- Writes what is still to be written, as far as it can be; true if that is all. A debuggee that
takes nothing any more holds nobody up. -/
def writeOn (s : Serving) (count : Nat) : Bool × Serving :=
  if !s.world.environment.accepts then (true, { s with unwritten := some 0 })
  else
    let (taken, pipe) := s.pipe.put count
    (taken = count, { s with pipe, unwritten := some (count - taken) })

end Serving
end DebugAdapter.Scenario

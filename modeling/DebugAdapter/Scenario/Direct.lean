import DebugAdapter.Scenario.World
import DebugAdapter.Session.Step

namespace DebugAdapter.Scenario

open Debuggee

namespace Direct

inductive Step where
  | request (request : Frontend.Request)
  | output (bytes : Bytes)
  | exited (info : ExitInfo)
  | dropFrontend
  | act (act : Act)
  | setSpawn (mode : SpawnMode)
  | advance (time : Nat)

/-- While `listening`, someone takes the messages to the front end. -/
structure State where
  session : Session
  world : World
  listening : Bool := true

namespace State

def start (config : Config) (roots : List String) (spawn : SpawnMode) (ignoresTerm : Bool) :
    State :=
  { session := { config, roots }
    world := { grace := config.terminateGrace, ignoresTerm, spawn := spawn.failure? } }

def handle (s : State) (handling : Environment → Session → Session.Outcome) :
    State × List Effect :=
  let (session, effects) := handling s.world.environment s.session
  ({ s with session, world := s.world.applyAll effects }, effects)

def sortReleased (s : Session) : Session :=
  { s with released := s.released.mergeSort fun a b => a.sink ≤ b.sink }

/-- Lets everything happen that can happen at the present time. Released stack traces are answered
last, in the order of the requests. -/
def settle (s : State) : State × List Effect :=
  let (s, first) := s.handle fun env session => session.stepHandshake env
  let (s, second) := s.handle fun env session => session.stepHandshake env
  let (s, third) := s.handle fun env session => session.stepHandshake env
  let (world, _) := s.world.settle
  let (s, answers) := { s with world }.handle fun env session =>
    (sortReleased (session.expireDue env.now)).answerAll
  (s, first ++ second ++ third ++ answers)

def advance : Nat → List Effect → State → State × List Effect
  | 0, done, s => (s, done)
  | time + 1, done, s =>
    let (s, effects) := { s with world := s.world.tick }.settle
    advance time (done ++ effects) s

/-- What the lines of a piece of output report, the last one unended. -/
def reportsOf (bytes : Bytes) : List Report :=
  ((LineDecoder.feed {} bytes).finish).1.map .ofOutput

/-- Makes one step. The debuggee settles in it, the session only in the course of time. -/
def step (s : State) : Step → State × List Effect
  | .request r => s.handle fun env session => session.handleRequest env r
  | .output bytes => s.handle fun _ session => session.handleReports (reportsOf bytes)
  | .exited info => s.handle fun _ session => session.handleReport (.exited info)
  | .dropFrontend => ({ s with listening := false }, [])
  | .act a =>
    let (world, _) := s.world.act a
    { s with world }.settle
  | .setSpawn mode => ({ s with world.spawn := mode.failure? }, [])
  | .advance time => advance time [] s

def steps (s : State) : List Step → State × List Effect
  | [] => s.settle
  | step :: rest =>
    let (s, effects) := s.step step
    let (s, more) := s.steps rest
    (s, effects ++ more)

def heard (s : State) (effects : List Effect) : List Frontend.Message :=
  if s.listening then Effect.messages effects else []

end State
end Direct
end DebugAdapter.Scenario

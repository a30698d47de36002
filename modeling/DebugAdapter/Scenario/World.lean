import DebugAdapter.Scenario.Debuggee
import DebugAdapter.Session.Basic

namespace DebugAdapter.Scenario

open Debuggee

/-- `spawn` says why a program cannot be started, `grace` and `ignoresTerm` what is fixed of a
debuggee before it is. -/
structure World where
  grace : Nat
  ignoresTerm : Bool
  spawn : LaunchSpec → Option SpawnFailure
  now : Nat := 0
  debuggee : Option Played := none

namespace World

def environment (w : World) : Environment where
  now := w.now
  spawn := w.spawn
  accepts := w.debuggee.any (·.inputOpen)
  hasExited := w.debuggee.any (·.supervisor.hasExited)

def apply (w : World) : Effect → World
  | .spawn _ true => { w with debuggee := some (.start w.grace w.ignoresTerm) }
  | .stop => { w with debuggee := w.debuggee.map (·.requestStop) }
  | _ => w

def applyAll (w : World) (effects : List Effect) : World :=
  effects.foldl apply w

def act (w : World) (a : Act) : World × List Report :=
  match w.debuggee with
  | none => (w, [])
  | some p =>
    let (p, reports) := p.act a
    ({ w with debuggee := some p }, reports)

def settle (w : World) : World × List Report :=
  match w.debuggee with
  | none => (w, [])
  | some p =>
    let (p, reports) := p.settle w.now
    ({ w with debuggee := some p }, reports)

def tick (w : World) : World :=
  { w with now := w.now + 1 }

end World
end DebugAdapter.Scenario

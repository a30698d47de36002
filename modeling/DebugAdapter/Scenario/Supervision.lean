import DebugAdapter.Scenario.Debuggee

namespace DebugAdapter.Scenario

open Debuggee

namespace Supervision

/-- What happens: the debuggee acts, something is written to it, its input is closed from outside,
it is asked to stop, its reports are not listened to any more, or time passes. -/
inductive Step where
  | act (act : Act)
  | write (bytes : Bytes)
  | dropInput
  | stop
  | dropReports
  | advance (time : Nat)

structure State where
  played : Played
  now : Nat := 0
  inputHeld : Bool := true

structure Observed where
  reports : List Report := []
  received : Bytes := []

namespace State

def start? (mode : SpawnMode) (spec : LaunchSpec) (grace : Nat) (ignoresTerm : Bool) :
    Except LaunchError State :=
  match mode.failure? spec with
  | some failure => .error (.ofFailure spec.executable failure)
  | none => .ok { played := .start grace ignoresTerm }

def settle (s : State) (seen : Observed) : State × Observed :=
  let (played, reports) := s.played.settle s.now
  ({ s with played }, { seen with reports := seen.reports ++ reports })

def advance : Nat → State → Observed → State × Observed
  | 0, s, seen => (s, seen)
  | time + 1, s, seen =>
    let (s, seen) := { s with now := s.now + 1 }.settle seen
    advance time s seen

/-- Makes one step. The debuggee settles in it, the supervisor only in the course of time. -/
def step (s : State) (seen : Observed) : Step → State × Observed
  | .act a =>
    let (played, reports) := s.played.act a
    { s with played }.settle { seen with reports := seen.reports ++ reports }
  | .write bytes =>
    if s.inputHeld && s.played.inputOpen then
      (s, { seen with received := seen.received ++ bytes })
    else (s, seen)
  | .dropInput => ({ s with inputHeld := false }, seen)
  | .stop => ({ s with played := s.played.requestStop }, seen)
  | .dropReports =>
    ({ s with played.supervisor := s.played.supervisor.stopListening }, seen)
  | .advance time => advance time s seen

def steps (s : State) (steps : List Step) : State × Observed :=
  let (s, seen) := steps.foldl (fun (s, seen) step => s.step seen step) (s, {})
  s.settle seen

end State
end Supervision
end DebugAdapter.Scenario

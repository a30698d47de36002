import DebugAdapter.Debuggee.Supervisor

namespace DebugAdapter.Scenario

open Debuggee

inductive Status where
  | running
  | exited (code : Int)
  | killed (signal : Int)
deriving DecidableEq, Repr

def Status.info? : Status → Option ExitInfo
  | running => none
  | exited code => some { code := some code }
  | killed signal => some { signal := some signal }

inductive Stream where
  | input
  | output
  | errors

inductive Act where
  | write (bytes : Bytes)
  | complain (bytes : Bytes)
  | exit (code : Int)
  | die (signal : Int)
  | close (stream : Stream)
  | hold (on : Bool)

/-- A played debuggee. While `held`, a process that it left behind keeps its output streams open
after its end. -/
structure Played where
  supervisor : Supervisor
  ignoresTerm : Bool
  status : Status := .running
  held : Bool := false
  inputOpen : Bool := true
  outputOpen : Bool := true
  errorsOpen : Bool := true

namespace Played

def start (grace : Nat) (ignoresTerm : Bool) : Played :=
  { supervisor := { grace }, ignoresTerm }

def closeOutput (p : Played) : Played × List Report :=
  if p.outputOpen then
    let (supervisor, reports) := p.supervisor.endOutput
    ({ p with outputOpen := false, supervisor }, reports)
  else (p, [])

def closeErrors (p : Played) : Played :=
  { p with errorsOpen := false, supervisor := p.supervisor.endErrors }

def closeOutputs (p : Played) : Played × List Report :=
  p.closeErrors.closeOutput

def finish (p : Played) (status : Status) : Played × List Report :=
  if p.status = .running then
    let p := { p with status, inputOpen := false }
    if p.held then (p, []) else p.closeOutputs
  else (p, [])

/-- Does one thing. What makes no sense any more has no effect. -/
def act (p : Played) : Act → Played × List Report
  | .write bytes =>
    if p.outputOpen then
      let (supervisor, reports) := p.supervisor.read bytes
      ({ p with supervisor }, reports)
    else (p, [])
  | .complain _ => (p, [])
  | .exit code => p.finish (.exited code)
  | .die signal => p.finish (.killed signal)
  | .close .input => ({ p with inputOpen := false }, [])
  | .close .output => p.closeOutput
  | .close .errors => (p.closeErrors, [])
  | .hold on =>
    let p := { p with held := on }
    if on ∨ p.status = .running then (p, []) else p.closeOutputs

/-- The debuggee gets a signal. It may ignore the polite one. -/
def receive (p : Played) : Signal → Played × List Report
  | .terminate => if p.ignoresTerm then (p, []) else p.finish (.killed 15)
  | .kill => p.finish (.killed 9)

def receiveAll (p : Played) : List Signal → Played × List Report
  | [] => (p, [])
  | signal :: signals =>
    let (p, reports) := p.receive signal
    let (p, more) := p.receiveAll signals
    (p, reports ++ more)

/-- Lets the supervisor make up to `moves` moves. It is never in the middle of reading then, so a
reader that it asks to end has ended. -/
def settleFrom : Nat → Nat → Played → Played × List Report
  | 0, _, p => (p, [])
  | moves + 1, now, p =>
    match p.supervisor.poll now p.status.info? with
    | none => (p, [])
    | some (supervisor, signals, reports) =>
      let (p, answers) := { p with supervisor := supervisor.cancel }.receiveAll signals
      let (p, more) := settleFrom moves now p
      (p, reports ++ answers ++ more)

/-- Lets the supervisor go on until it has to wait. It passes through six stages at most. -/
def settle (p : Played) (now : Nat) : Played × List Report :=
  settleFrom 6 now p

def requestStop (p : Played) : Played :=
  { p with supervisor := p.supervisor.requestStop }

end Played

inductive SpawnMode where
  | works
  | fails (failure : SpawnFailure)

/-- The failure that follows from a text with the character that ends texts for the system. -/
def nulFailure? (texts : List String) : Option SpawnFailure :=
  if texts.any (·.contains '\x00') then some (.other "nul byte found in provided data") else none

/-- What an attempt to start a program leads to. The arguments are looked at in any case, the name
of the program only where it is used. -/
def SpawnMode.failure? (mode : SpawnMode) (spec : LaunchSpec) : Option SpawnFailure :=
  nulFailure? spec.args <|> match mode with
    | fails failure => some failure
    | works => nulFailure? [spec.executable]

end DebugAdapter.Scenario

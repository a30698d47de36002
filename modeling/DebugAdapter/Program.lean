import DebugAdapter.Frontend.Reservoir
import DebugAdapter.Logging.Filter
import DebugAdapter.Options
import DebugAdapter.Server

namespace DebugAdapter

open Frontend

namespace Program

inductive Ending where
  | printed (text : String)
  | failed (code : Nat) (complaint : String)

inductive Log where
  | screen
  | file
deriving DecidableEq, Repr

structure Prepared where
  server : Server
  logFile : Option String

/-- A program that serves a session. Its log goes to the screen unless another place is named. -/
structure Running where
  server : Server
  filter : LogFilter
  log : Log := .screen

structure Written where
  output : Bytes := []
  entries : List LogEntry := []

namespace Written

def append (a b : Written) : Written :=
  ⟨a.output ++ b.output, a.entries ++ b.entries⟩

end Written

def prepare (env : String → Option String) (arguments : List String) (currentDirectory : String) :
    Except Ending Prepared :=
  match CommandLine.read env arguments with
  | .error e => .error (.failed 2 (e.message env))
  | .ok (.help isLong) => .error (.printed (Help.text env isLong))
  | .ok .version => .error (.printed Help.version)
  | .ok (.serve options) => .ok
    { server := { session :=
        { config := options.config, roots := options.roots currentDirectory } }
      logFile := options.logFile }

def Prepared.openLog (p : Prepared) (log? : String → Option Log) : Except Ending Log :=
  match p.logFile with
  | none => .ok .screen
  | some path =>
    match log? path with
    | none => .error (.failed 1 ("Error: cannot open log file " ++ path))
    | some log => .ok log

/-- Starts the program: opens the log, and then reads what is to be kept in it. -/
def Prepared.start (p : Prepared) (env : String → Option String) (log? : String → Option Log) :
    Except Ending Running := do
  let log ← p.openLog log?
  match LogFilter.ofEnvironment env with
  | .error failure => .error (.failed 101 failure.message)
  | .ok filter => .ok { server := p.server, filter, log }

def logged (effects : List Effect) : List LogEntry :=
  effects.filterMap fun
    | .log entry => some entry
    | .spawn .. => some ⟨"etch_bridge::process", .info, ["executable", "args", "cwd"]⟩
    | _ => none

def opening : List LogEntry :=
  [⟨"etch_dap", .info, ["roots", "version"]⟩, ⟨"etch_bridge::server", .info, []⟩]

def closing : List LogEntry :=
  [⟨"etch_bridge::server", .info, []⟩, ⟨"etch_dap", .info, []⟩]

namespace Running

def keep (r : Running) (entries : List LogEntry) : Written :=
  { entries := entries.filter r.filter.keeps }

def write (r : Running) (outcome : Server.Outcome) : Running × Written :=
  let (server, effects) := outcome
  let (outbox, output) := server.outbox.putAll none (Effect.messages effects)
  ({ r with server := { server with outbox } },
    { r.keep (logged effects) with output })

def handleFrames (env : Environment) : Nat → Running → Running × Written
  | 0, r => (r, {})
  | limit + 1, r =>
    match r.server.handleFrame env with
    | none => (r, {})
    | some outcome =>
      let (r, written) := r.write outcome
      let (r, more) := handleFrames env limit r
      (r, written.append more)

def take (env : Environment) (r : Running) (piece : Bytes) : Running × Written :=
  let server := r.server.arrive piece
  let (r, written) := handleFrames env (server.decoder.buffer.length + 1) { r with server }
  ({ r with server := r.server.makeRoom }, written)

def finish (env : Environment) (r : Running) : Written :=
  let (r, written) := r.write (r.server.endInput env)
  written.append (r.keep closing)

/-- Takes input and its end, at once so much as is drawn from a reservoir. -/
def takeAll (env : Environment) : Nat → Reservoir → Running → Bytes → Written
  | 0, _, r, _ => r.finish env
  | pieces + 1, reservoir, r, input =>
    if input.isEmpty || !r.server.isServing then r.finish env
    else
      let (drawn, reservoir) :=
        reservoir.draw r.server.space.room (input.length - reservoir.stored)
      let (r, written) := r.take env (input.take drawn)
      written.append (takeAll env pieces reservoir r (input.drop drawn))

def run (env : Environment) (r : Running) (input : Bytes) : Written :=
  (r.keep opening).append (takeAll env (input.length + 1) {} r input)

def notices (r : Running) : List String :=
  r.filter.refused.map Refused.notice

/-- True if anything of the log is written to the screen. A directive of the filter that was not
understood is named there even if the log goes to a file. -/
def shows (r : Running) (entries : List LogEntry) : Bool :=
  !r.notices.isEmpty || (r.log = .screen && !entries.isEmpty)

end Running

/-- What a session learns of a system that starts no program; `failure` says why. -/
def closedSystem (failure : Debuggee.LaunchSpec → Debuggee.SpawnFailure) : Environment where
  now := 0
  spawn spec := some (failure spec)
  accepts := false
  hasExited := false

end Program
end DebugAdapter

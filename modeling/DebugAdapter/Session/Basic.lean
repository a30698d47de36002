import DebugAdapter.Config
import DebugAdapter.Correlation
import DebugAdapter.Debuggee.Link
import DebugAdapter.Debuggee.Report
import DebugAdapter.Frontend.Message
import DebugAdapter.Logging.Entry
import DebugAdapter.Session.Error

namespace DebugAdapter

open Frontend

/-- Where a session stands between its first request and its end. -/
inductive Phase where
  | idle
  | initializing
  | launching
  | running
  | terminating
  | terminated
deriving DecidableEq, Repr

def Phase.name : Phase → String
  | idle => "idle"
  | initializing => "initializing"
  | launching => "launching"
  | running => "running"
  | terminating => "terminating"
  | terminated => "terminated"

/-- What the handshake with a fresh debuggee waits for, and until when. -/
inductive Handshake where
  | starting (program : String)
  | settling (program : String) (deadline : Nat)
  | acknowledging (program : String) (deadline : Nat)
deriving DecidableEq, Repr

/-- What a session does to the world: it sends a message to the front end, writes a command to the
debuggee, tries to start it with or without success, asks it to stop, or notes something in the log.
-/
inductive Effect where
  | send (message : Message)
  | write (command : Debuggee.Command)
  | spawn (spec : Debuggee.LaunchSpec) (started : Bool)
  | stop
  | log (entry : LogEntry)

namespace Effect

def messages (effects : List Effect) : List Message :=
  effects.filterMap fun
    | .send m => some m
    | _ => none

def commands (effects : List Effect) : List Debuggee.Command :=
  effects.filterMap fun
    | .write c => some c
    | _ => none

def launches (effects : List Effect) : List Debuggee.LaunchSpec :=
  effects.filterMap fun
    | .spawn spec _ => some spec
    | _ => none

end Effect

/-- What a session learns from the world while it handles one thing: the time, whether a program
would start, whether the debuggee takes what is written to it, and whether it has exited. -/
structure Environment where
  now : Nat
  spawn : Debuggee.LaunchSpec → Option Debuggee.SpawnFailure
  accepts : Bool
  hasExited : Bool

/-- A session. A pending stack trace is known by the number of the request that asked for it; in
`released` are those that were completed and not yet answered. -/
structure Session where
  config : Config
  roots : List String
  phase : Phase := .idle
  link : Debuggee.Link := {}
  pending : Correlation.Table Nat := {}
  released : List (Correlation.Completion Nat) := []
  hasProcess : Bool := false
  handshake : Option Handshake := none
  /-- The debuggee has said something. -/
  heard : Bool := false
  /-- The debuggee has answered `initialize`. -/
  acknowledged : Bool := false
  /-- The end was announced to the front end. -/
  endAnnounced : Bool := false

namespace Session

abbrev Outcome := Session × List Effect

/-- Notes something in the log; `fields` are the names of what is told. -/
def note (severity : Severity) (fields : List String := []) : Effect :=
  .log { target := "etch_bridge::session", severity, fields }

def moved : Effect :=
  note .debug ["from", "to"]

def enter (s : Session) (phase : Phase) : Outcome :=
  ({ s with phase }, if s.phase = phase then [] else [moved])

def respond (r : Response) : Effect :=
  .send (.response r)

def emit (e : Event) : Effect :=
  .send (.event e)

def threadId : Int := 1

def threadName : String := "Main Thread"

def capabilities : Json :=
  .object [
    ("supportsConfigurationDoneRequest", .bool true),
    ("supportsBreakpointLocationsRequest", .bool false),
    ("supportsStepBack", .bool false),
    ("supportsRestartFrame", .bool false),
    ("supportsTerminateRequest", .bool true)]

/-- The stack trace without frames, which stands in for one that is not known. -/
def emptyStackTrace : Json :=
  .object [("stackFrames", .array []), ("totalFrames", .nat 0)]

def announceEnd (s : Session) : Outcome :=
  if s.endAnnounced then (s, []) else ({ s with endAnnounced := true }, [emit .terminated])

def releaseAll (s : Session) : Session :=
  let (completions, pending) := s.pending.drain
  { s with pending, released := s.released ++ completions }

/-- Gives the debuggee up: no handshake, no link, and nothing that waits for an answer. -/
def cutOff (s : Session) : Session :=
  { s with handshake := none, link := s.link.detach }.releaseAll

def send (env : Environment) (s : Session) (command : String) (arguments : Json) :
    Except Debuggee.SendError Nat × Outcome :=
  let sending := s.link.send env.accepts command arguments
  (sending.result, { s with link := sending.link }, sending.written.map .write)

/-- Writes a command whose loss is only noted. -/
def forward (env : Environment) (s : Session) (command : String) (arguments : Json) : Outcome :=
  let (result, s, effects) := s.send env command arguments
  (s, effects ++ match result with
    | .ok _ => []
    | .error _ => [note .warning ["command", "error"]])

end Session
end DebugAdapter

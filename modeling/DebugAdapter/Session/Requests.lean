import DebugAdapter.Session.Basic
import DebugAdapter.Workspace

namespace DebugAdapter.Session

open Frontend

def greet (s : Session) (r : Request) : Outcome :=
  let (s, noted) :=
    if s.phase = .idle then s.enter .initializing else (s, [note .warning ["state"]])
  (s, respond (.ok r (some capabilities)) :: noted ++ [emit .initialized, note .debug])

def program? (r : Request) : Option String :=
  ((r.arguments.field? "program").bind Json.string?).filter (· ≠ "")

def launchSpec (s : Session) (r : Request) : Except SessionError (String × Debuggee.LaunchSpec) :=
  match s.phase with
  | .launching | .running => .error .alreadyLaunched
  | .terminating | .terminated => .error .terminated
  | .idle | .initializing =>
    match program? r with
    | none => .error .missingProgram
    | some program =>
      match Workspace.resolve s.roots program with
      | none => .error .noWorkspace
      | some root => .ok (program,
          { executable := Path.join root s.config.executable
            args := [s.config.debugServerFlag, program]
            cwd := root })

def refuse (r : Request) (e : SessionError) : List Effect :=
  [note .error ["error", "code"], respond (.error r e.code e.message)]

def launch (env : Environment) (s : Session) (r : Request) : Outcome :=
  match s.launchSpec r with
  | .error e => (s, refuse r e)
  | .ok (program, spec) =>
    let previous := s.phase
    let (s, entered) := s.enter .launching
    match env.spawn spec with
    | some failure =>
      let (s, returned) := s.enter previous
      (s, entered ++ .spawn spec false :: returned ++
        refuse r (.launch (.ofFailure spec.executable failure)))
    | none =>
      let (s, running) := { s with link := s.link.attach, hasProcess := true }.enter .running
      ({ s with handshake := some (.starting program) },
        entered ++ .spawn spec true :: respond (.ok r none) :: running)

def disconnect (s : Session) (r : Request) : Outcome :=
  let (s, ending) := if s.phase = .terminated then (s, []) else s.enter .terminating
  let stop := if s.hasProcess then [Effect.stop] else []
  let (s, entered) := s.cutOff.enter .terminated
  let (s, announced) := s.announceEnd
  (s, ending ++ stop ++ respond (.ok r none) :: entered ++ announced)

def requestedBreakpoints (r : Request) : List Json :=
  ((r.arguments.field? "breakpoints").bind Json.array?).getD []

def sourcePath (r : Request) : Json :=
  ((r.arguments.field? "source").bind (Json.field? "path")).getD .null

def breakpointLine (breakpoint : Json) : Json :=
  (breakpoint.field? "line").getD .null

def verifiedBreakpoint (breakpoint : Json) : Json :=
  match breakpoint.field? "line" with
  | some line => .object [("verified", .bool true), ("line", line)]
  | none => .object [("verified", .bool true)]

def setBreakpoints (env : Environment) (s : Session) (r : Request) : Outcome :=
  let requested := requestedBreakpoints r
  let (s, effects) := s.forward env "setBreakpoints"
    (.object [("path", sourcePath r), ("lines", .array (requested.map breakpointLine))])
  (s, note .debug ["path", "lines"] :: effects ++ [respond (.ok r (some
    (.object [("breakpoints", .array (requested.map verifiedBreakpoint))])))])

/-- How many frames are asked for where the front end does not say. -/
def defaultLevels : Nat := 20

def stackTraceArguments (r : Request) : Json :=
  let number (name : String) : Option Nat := (r.arguments.field? name).bind Json.word?
  .object [
    ("threadId", (r.arguments.field? "threadId").getD (.int threadId)),
    ("startFrame", .nat ((number "startFrame").getD 0)),
    ("levels", .nat (((number "levels").filter (0 < ·)).getD defaultLevels))]

/-- Asks the debuggee for a stack trace and waits for it; if it cannot be asked, answers without
frames. -/
def stackTrace (env : Environment) (s : Session) (r : Request) : Outcome :=
  match s.send env "stackTrace" (stackTraceArguments r) with
  | (.error _, s, effects) =>
    (s, effects ++ [note .warning ["error"], respond (.ok r (some emptyStackTrace))])
  | (.ok seq, s, effects) =>
    let (replaced, pending) := s.pending.register seq "stackTrace" r.seq emptyStackTrace
      (env.now + s.config.stackTraceTimeout)
    ({ s with pending, released := s.released ++ replaced.toList }, effects)

def threads (r : Request) : Effect :=
  respond (.ok r (some (.object [("threads", .array
    [.object [("id", .int threadId), ("name", .string threadName)]])])))

/-- The commands that are passed on without arguments and acknowledged. -/
def plainCommands : List String :=
  ["continue", "next", "stepIn", "stepOut", "pause", "configurationDone"]

def unsupportedCode : Nat := 1014

def unsupported (r : Request) : List Effect :=
  [note .warning ["command"],
    respond (.error r unsupportedCode ("unsupported request '" ++ r.command ++ "'"))]

def obey (env : Environment) (s : Session) (r : Request) : Outcome :=
  if r.command = "initialize" then s.greet r
  else if r.command = "launch" then s.launch env r
  else if r.command = "disconnect" ∨ r.command = "terminate" then s.disconnect r
  else if r.command = "setBreakpoints" then s.setBreakpoints env r
  else if r.command ∈ plainCommands then
    let (s, effects) := s.forward env r.command (.record [])
    (s, effects ++ [respond (.ok r none)])
  else if r.command = "stackTrace" then s.stackTrace env r
  else if r.command = "threads" then (s, [threads r])
  else (s, unsupported r)

def handleRequest (env : Environment) (s : Session) (r : Request) : Outcome :=
  let (s, effects) := s.obey env r
  (s, note .info ["seq", "command"] :: effects)

end DebugAdapter.Session

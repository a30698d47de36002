import DebugAdapter.Session.Basic

namespace DebugAdapter.Session

open Frontend Debuggee

/-- The front end's view of a stop. An empty reason or a thread of zero counts as absent. -/
def stoppedEvent (body : Json) : Event :=
  let reason := ((body.field? "reason").bind Json.string?).filter (· ≠ "")
  let thread := ((body.field? "threadId").bind Json.signedWord?).filter (· ≠ 0)
  .stopped (reason.getD "pause") (thread.getD threadId)

def outputEvent (body : Json) : Event :=
  let output := (body.field? "output").bind Json.string?
  let category := (body.field? "category").bind Json.string?
  .output (output.getD "") (category.getD "console")

def handleEvent (s : Session) (name : String) (body : Json) : Outcome :=
  if name = "stopped" then (s, [emit (stoppedEvent body)])
  else if name = "terminated" then
    let (s, entered) := s.enter .terminated
    let (s, announced) := s.announceEnd
    (s, entered ++ announced)
  else if name = "output" then (s, [emit (outputEvent body)])
  else (s, [])

/-- What a reply completes: the request whose number it names if one waits under it, else the oldest
that waits for its command. -/
def matchReply (s : Session) (r : Reply) :
    Option (Correlation.Completion Nat) × Correlation.Table Nat :=
  match r.requestSeq.map fun seq => s.pending.resolve seq r.body with
  | some (some completion, pending) => (some completion, pending)
  | _ => s.pending.resolveCommand r.command r.body

def handleReply (s : Session) (r : Reply) : Session :=
  let (completion, pending) := s.matchReply r
  { s with
    acknowledged := s.acknowledged || r.command = "initialize"
    pending
    released := s.released ++ completion.toList }

/-- Ends the session with the debuggee. A known exit code is reported before the end is announced.
-/
def handleExit (s : Session) (info : ExitInfo) : Outcome :=
  let exited :=
    match s.endAnnounced, info.code with
    | false, some code => [emit (.exited code)]
    | _, _ => []
  let (s, entered) := s.cutOff.enter .terminated
  let (s, announced) := s.announceEnd
  (s, exited ++ entered ++ announced)

def handleReport (s : Session) : Report → Outcome
  | .record (.event name body) => { s with heard := true }.handleEvent name body
  | .record (.reply r) => ({ s with heard := true }.handleReply r, [])
  | .malformed .. => (s, [])
  | .exited info => s.handleExit info

def handleReports (s : Session) (reports : List Report) : Outcome :=
  reports.foldl (fun (s, done) r =>
    let (s, effects) := s.handleReport r
    (s, done ++ effects)) (s, [])

/-- Goes on with the handshake if its wait is over: `initialize` is written once the debuggee has
said something or was given time to settle, and `launch` once that was answered or had time to be.
The time to settle begins with the handshake. -/
def stepHandshake (env : Environment) (s : Session) : Outcome :=
  match s.handshake with
  | none => (s, [])
  | some (.starting program) =>
    ({ s with handshake := some (.settling program (env.now + s.config.settleDelay)) }, [])
  | some (.settling program deadline) =>
    if s.heard ∨ deadline ≤ env.now then
      match s.send env "initialize" (.record []) with
      | (.error _, s, effects) =>
        ({ s with handshake := none }, effects ++ [note .warning ["error"]])
      | (.ok _, s, effects) =>
        ({ s with handshake := some (.acknowledging program (env.now + s.config.launchDelay)) },
          effects)
    else (s, [])
  | some (.acknowledging program deadline) =>
    if s.acknowledged ∨ deadline ≤ env.now then
      let (s, effects) := s.forward env "launch" (.object [("program", .string program)])
      ({ s with handshake := none }, effects)
    else (s, [])

def fireTimer (s : Session) (key generation : Nat) : Session :=
  let (completion, pending) := s.pending.fire key generation
  { s with pending, released := s.released ++ completion.toList }

def expireDue (s : Session) (now : Nat) : Session :=
  let (completions, pending) := s.pending.expireDue now
  { s with pending, released := s.released ++ completions }

/-- The answer to a stack trace. A payload that is no object counts as no frames. -/
def stackTraceResponse (c : Correlation.Completion Nat) : Response :=
  .forRequest c.sink "stackTrace"
    (some (if c.payload.isObject then c.payload else emptyStackTrace))

def answerReleased (s : Session) (index : Nat) : Outcome :=
  match s.released[index]? with
  | none => (s, [])
  | some c =>
    ({ s with released := s.released.eraseIdx index }, [respond (stackTraceResponse c)])

def answerAll (s : Session) : Outcome :=
  ({ s with released := [] }, s.released.map fun c => respond (stackTraceResponse c))

/-- Gives the debuggee up at the end of the front end's stream, and asks it to stop if it runs. -/
def shutDown (env : Environment) (s : Session) : Outcome :=
  (s.cutOff, if s.hasProcess ∧ !env.hasExited then [.stop] else [])

end DebugAdapter.Session

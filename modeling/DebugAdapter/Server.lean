import DebugAdapter.Frontend.Outbox
import DebugAdapter.Frontend.ReadSpace
import DebugAdapter.Session.Step

namespace DebugAdapter

open Frontend

/-- Whether requests are served, the debuggee's exit is awaited, or all is over. -/
inductive Server.Stage where
  | serving
  | closing (deadline : Nat)
  | closed

inductive Server.Input where
  | request (request : Request)
  /-- A frame without a request in it. -/
  | malformed
  /-- A frame that cannot be read. -/
  | broken
  /-- The end of the front end's stream; `clean` holds between two frames. -/
  | ended (clean : Bool)
  | report (report : Debuggee.Report)

structure Server where
  session : Session
  decoder : Decoder := {}
  space : ReadSpace := {}
  outbox : Outbox := {}
  stage : Server.Stage := .serving

namespace Server

abbrev Outcome := Server × List Effect

/-- Shuts the session down. There is nothing to wait for without a running debuggee. -/
def shutDown (env : Environment) (s : Server) : Outcome :=
  let (session, effects) := s.session.shutDown env
  let stage :=
    if s.session.hasProcess ∧ !env.hasExited then
      .closing (env.now + s.session.config.shutdownGrace)
    else .closed
  ({ s with session, stage }, effects)

def isServing (s : Server) : Bool :=
  match s.stage with
  | .serving => true
  | _ => false

def arrive (s : Server) (chunk : Bytes) : Server :=
  match s.stage with
  | .serving => { s with decoder := s.decoder.feed chunk, space := s.space.fill chunk.length }
  | _ => s

/-- Makes room for what the next frame lacks, once none has arrived. -/
def makeRoom (s : Server) : Server :=
  match s.decoder.next with
  | .wait decoder =>
    { s with decoder, space := s.space.reserve decoder.buffer.length decoder.lacking }
  | _ => s

def nextInput? (s : Server) : Option (Input × Server) :=
  match s.stage with
  | .serving =>
    match s.decoder.next with
    | .wait _ => none
    | .item (.request r) decoder => some (.request r, { s with decoder })
    | .item (.malformed _ _) decoder => some (.malformed, { s with decoder })
    | .failed _ decoder => some (.broken, { s with decoder })
  | _ => none

def lastInput (s : Server) : Input :=
  .ended (match s.decoder.finish with
    | (_, error, _) => error.isNone)

/-- Handles what a server has got. While the exit is awaited nothing else counts. -/
def handle (env : Environment) (s : Server) (input : Input) : Outcome :=
  match s.stage, input with
  | .serving, .request r =>
    let (session, effects) := s.session.handleRequest env r
    ({ s with session }, effects)
  | .serving, .malformed => (s, [.log ⟨"etch_bridge::server", .warning, ["body", "error"]⟩])
  | .serving, .broken =>
    let (s, effects) := s.shutDown env
    (s, Session.note .error ["error"] :: effects)
  | .serving, .ended clean =>
    let (s, effects) := s.shutDown env
    (s, (if clean then Session.note .info else Session.note .error ["error"]) :: effects)
  | .serving, .report r =>
    let (session, effects) := s.session.handleReport r
    ({ s with session }, effects)
  | .closing _, .report (.exited _) => ({ s with stage := .closed }, [])
  | _, _ => (s, [])

def handleFrame (env : Environment) (s : Server) : Option Outcome :=
  s.nextInput?.map fun (input, s) => s.handle env input

def endInput (env : Environment) (s : Server) : Outcome :=
  s.handle env s.lastInput

def expire (s : Server) (now : Nat) : Server :=
  match s.stage with
  | .closing deadline => if deadline ≤ now then { s with stage := .closed } else s
  | _ => s

def isDone (s : Server) : Bool :=
  match s.stage with
  | .closed => true
  | _ => false

end Server
end DebugAdapter

import DebugAdapter.Session.Reports
import DebugAdapter.Session.Requests

namespace DebugAdapter.Session

inductive Move where
  | request (request : Frontend.Request)
  | report (report : Debuggee.Report)
  | timer (key generation : Nat)
  | handshake
  | answer (index : Nat)
  | shutDown

def step (env : Environment) (s : Session) : Move → Outcome
  | .request r => s.handleRequest env r
  | .report r => s.handleReport r
  | .timer key generation => (s.fireTimer key generation, [])
  | .handshake => s.stepHandshake env
  | .answer index => s.answerReleased index
  | .shutDown => s.shutDown env

def run (s : Session) : List (Environment × Move) → Outcome
  | [] => (s, [])
  | (env, move) :: moves =>
    let (s, effects) := s.step env move
    let (s, more) := s.run moves
    (s, effects ++ more)

end DebugAdapter.Session

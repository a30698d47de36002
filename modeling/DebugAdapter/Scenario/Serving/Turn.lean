import DebugAdapter.Scenario.Serving.Basic

namespace DebugAdapter.Scenario

open Debuggee

namespace Serving

/-- How many parts a turn of the session has. It takes one to read, to take a report, to take the
lock or to write; what is read already is handled for nothing. -/
def turn : Nat := 128

/-- True for what can only be handled by one who has the lock. A launch that is refused needs no
lock. -/
def needsLock (s : Serving) : Server.Input → Bool
  | .request r =>
    r.command = "launch" && (s.server.handle s.world.environment (.request r)).2.any (fun
      | .spawn _ started => started
      | _ => false) ||
    r.command ∈ "disconnect" :: "terminate" :: "setBreakpoints" :: "stackTrace" ::
      Session.plainCommands
  | .report (.exited _) | .broken | .ended _ => true
  | .report _ | .malformed => false

def endsLink : Server.Input → Bool
  | .request r => r.command = "disconnect" || r.command = "terminate"
  | .report (.exited _) | .broken | .ended _ => true
  | .report _ | .malformed => false

def inputBytes (s : Serving) (input : Server.Input) : Nat :=
  writtenBy (s.server.handle { s.world.environment with accepts := true } input).2

/-- Begins to handle an input. What ends the link first ends the handshake. -/
def begin (s : Serving) (input : Server.Input) : Serving :=
  if !s.needsLock input then s.perform (s.server.handle s.world.environment input)
  else
    let s := if endsLink input then
        s.handle fun _ session => ({ session with handshake := none }, [])
      else s
    { s with job := some input }

def finishJob (s : Serving) (input : Server.Input) : Serving :=
  let s := { s with job := none }.leaveLock .session
  s.perform (s.server.handle s.world.environment input)

/-- Goes on with what was begun: takes the lock, writes, and at last handles the input. Taking the
lock and each writing use up a part of the turn, of which `left` parts are left. The session stops
when it has to wait. -/
def workOn (s : Serving) (left : Nat) (input : Server.Input) : Option Nat × Serving :=
  match left with
  | 0 => (none, { s with turns := s.turns.rest .session })
  | left + 1 =>
    match s.lock.holder, s.unwritten with
    | some .session, some count =>
      if !s.pipe.ready then (none, s)
      else
        match s.writeOn count with
        | (true, s) => (some left, s.finishJob input)
        | (false, s) => (some left, s)
    | _, _ =>
      match s.takeLock .session with
      | (false, s) => (none, s)
      | (true, s) =>
        match s.inputBytes input with
        | 0 => (some left, s.finishJob input)
        | count => (some left, { s with unwritten := some count })

/-- Looks for the next input from the front end, and reads where there is none. Each reading uses up
a part of the turn. -/
def fetch : Nat → Nat → Serving → Option Server.Input × Nat × Serving
  | 0, left, s => (none, left, s)
  | limit + 1, left, s =>
    match s.server.nextInput? with
    | some (.malformed, server) =>
      fetch limit left (s.perform (server.handle s.world.environment .malformed))
    | some (input, server) => (some input, left, { s with server })
    | none =>
      let server := s.server.makeRoom
      match left with
      | 0 => (none, 0, { s with server })
      | left + 1 =>
        if s.incoming.isEmpty then
          if s.inputEnded then (some server.lastInput, left, { s with server })
          else (none, left + 1, { s with server })
        else
          let room := server.space.room
          fetch limit left { s with
            server := server.arrive (s.incoming.take room)
            incoming := s.incoming.drop room }

def work (s : Serving) : Nat :=
  s.incoming.length + s.server.decoder.buffer.length + s.reports.length

/-- Serves the front end and handles reports, the front end first, until nothing is left of the
turn. -/
def serve : Nat → Nat → Serving → Serving
  | 0, _, s => { s with turns := s.turns.rest .session }
  | limit + 1, left, s =>
    match s.job, s.server.isServing with
    | some input, _ =>
      match s.workOn left input with
      | (none, s) => s
      | (some left, s) => serve limit left s
    | none, false => s
    | none, true =>
      if left = 0 then { s with turns := s.turns.rest .session }
      else
        match fetch limit left s with
        | (some input, left, s) => serve limit left (s.begin input)
        | (none, 0, s) => { s with turns := s.turns.rest .session }
        | (none, left + 1, s) =>
          match s.reports with
          | [] => s
          | r :: reports => serve limit left ({ s with reports }.begin (.report r))

def awaitExit (s : Serving) : Serving :=
  match s.server.stage with
  | .closing deadline =>
    let env := s.world.environment
    let server := s.reports.foldl (fun server r => (server.handle env (.report r)).1) s.server
    { s with
      server := server.expire s.turns.rung
      reports := []
      turns := s.turns.setAlarm .session deadline }
  | _ => s

def takeSessionTurn (s : Serving) : Serving :=
  (serve (4 * (s.work + turn)) turn s).awaitExit

def handshakeAlarm? (s : Serving) : Option Nat :=
  let session := s.server.session
  match session.handshake with
  | some (.settling _ deadline) =>
    if session.heard || deadline ≤ s.turns.rung then none else some deadline
  | some (.acknowledging _ deadline) =>
    if session.acknowledged || deadline ≤ s.turns.rung then none else some deadline
  | _ => none

def shakeHands : Nat → Serving → Serving
  | 0, s => s
  | moves + 1, s =>
    let step (s : Serving) := s.handle fun env session => session.stepHandshake env
    match s.server.session.handshake, s.handshakeAlarm? with
    | none, _ => s.leaveLock .handshake
    | some (.starting _), _ => shakeHands moves (step s)
    | some _, some deadline => { s with turns := s.turns.setAlarm .handshake deadline }
    | some _, none =>
      match s.takeLock .handshake with
      | (false, s) => s
      | (true, s) =>
        let env := { s.world.environment with accepts := true }
        let count := s.unwritten.getD (writtenBy (s.server.session.stepHandshake env).2)
        if !s.pipe.ready then { s with unwritten := some count }
        else
          match s.writeOn count with
          | (true, s) => shakeHands moves (step (s.leaveLock .handshake))
          | (false, s) => s

def supervise (s : Serving) : Serving :=
  let (world, reports) := s.world.settle
  let s := { s with world }.post reports
  match world.debuggee.bind fun p => p.supervisor.deadline? with
  | some deadline => { s with turns := s.turns.setAlarm .supervisor deadline }
  | none => s

def watch (s : Serving) (key generation : Nat) : Serving :=
  match s.server.session.pending.find? key with
  | none => s
  | some entry =>
    if entry.deadline ≤ s.turns.rung then
      s.handle fun _ session => (session.fireTimer key generation, [])
    else { s with turns := s.turns.setAlarm (.timer key generation) entry.deadline }

def answer (s : Serving) (key : Nat) : Serving :=
  match s.server.session.released.findIdx? (·.key = key) with
  | none => s
  | some index => s.handle fun _ session => session.answerReleased index

def takeTurn (s : Serving) : Party → Serving
  | .session => s.takeSessionTurn
  | .handshake => s.shakeHands 4
  | .supervisor => s.supervise
  | .timer key generation => s.watch key generation
  | .answer key => s.answer key

end Serving
end DebugAdapter.Scenario

import DebugAdapter.Debuggee.Report

namespace DebugAdapter.Debuggee

/-- How long each output stream is waited for after the exit, in milliseconds. -/
def drainTimeout : Nat := 1000

inductive Signal where
  | terminate
  | kill
deriving DecidableEq, Repr

inductive Stage where
  | watching
  | stopping (deadline : Nat)
  | killing
  | drainingOutput (info : ExitInfo) (deadline : Nat)
  | drainingErrors (info : ExitInfo) (deadline : Nat)
  | finished
deriving DecidableEq, Repr

/-- `grace` is the time between the two signals. While `outputOpen`, the reader of the output runs;
if it is `abandoned`, it was asked to end. While `listening`, someone takes the reports. -/
structure Supervisor where
  grace : Nat
  decoder : LineDecoder := {}
  outputOpen : Bool := true
  abandoned : Bool := false
  errorsOpen : Bool := true
  stage : Stage := .watching
  stopRequested : Bool := false
  hasExited : Bool := false
  listening : Bool := true

namespace Supervisor

/-- Posts reports. A reader that finds nobody listening reads no more. -/
def post (s : Supervisor) (outputs : List Output) : Supervisor × List Report :=
  if s.listening then (s, outputs.map .ofOutput)
  else ({ s with outputOpen := s.outputOpen && outputs.isEmpty }, [])

def read (s : Supervisor) (chunk : Bytes) : Supervisor × List Report :=
  if s.outputOpen then
    let (outputs, decoder) := (s.decoder.feed chunk).drain
    { s with decoder }.post outputs
  else (s, [])

def endOutput (s : Supervisor) : Supervisor × List Report :=
  if s.outputOpen then
    let (outputs, decoder) := s.decoder.finish
    let (s, reports) := { s with decoder }.post outputs
    ({ s with outputOpen := false }, reports)
  else (s, [])

def endErrors (s : Supervisor) : Supervisor :=
  { s with errorsOpen := false }

/-- Asks for the debuggee to be stopped. Asking again changes nothing. -/
def requestStop (s : Supervisor) : Supervisor :=
  { s with stopRequested := true }

def stopListening (s : Supervisor) : Supervisor :=
  { s with listening := false }

def drain (s : Supervisor) (now : Nat) (info : ExitInfo) : Supervisor :=
  { s with stage := .drainingOutput info (now + drainTimeout) }

def finish (s : Supervisor) (info : ExitInfo) : Supervisor × List Report :=
  ({ s with stage := .finished, hasExited := true },
    if s.listening then [.exited info] else [])

/-- Ends a reader that was asked to end, which it does not do in the middle of what it reads. -/
def cancel (s : Supervisor) : Supervisor :=
  { s with outputOpen := s.outputOpen && !s.abandoned }

/-- Makes one move, if one can be made at time `now`. `status` is how the debuggee has ended, if it
has. An exit that was seen comes before a deadline that has passed. A reader that takes too long is
asked to end, and not waited for. -/
def poll (s : Supervisor) (now : Nat) (status : Option ExitInfo) :
    Option (Supervisor × List Signal × List Report) :=
  match s.stage, status with
  | .watching, some info => some (s.drain now info, [], [])
  | .watching, none =>
    if s.stopRequested then
      some ({ s with stage := .stopping (now + s.grace) }, [.terminate], [])
    else none
  | .stopping _, some info => some (s.drain now info, [], [])
  | .stopping deadline, none =>
    if deadline ≤ now then some ({ s with stage := .killing }, [.kill], []) else none
  | .killing, some info => some (s.drain now info, [], [])
  | .killing, none => none
  | .drainingOutput info deadline, _ =>
    if !s.outputOpen ∨ deadline ≤ now then
      some ({ s with
        abandoned := s.outputOpen, stage := .drainingErrors info (now + drainTimeout) }, [], [])
    else none
  | .drainingErrors info deadline, _ =>
    if !s.errorsOpen ∨ deadline ≤ now then
      let (s, reports) := s.finish info
      some (s, [], reports)
    else none
  | .finished, _ => none

def deadline? (s : Supervisor) : Option Nat :=
  match s.stage with
  | .stopping deadline | .drainingOutput _ deadline | .drainingErrors _ deadline => some deadline
  | .watching | .killing | .finished => none

end Supervisor
end DebugAdapter.Debuggee

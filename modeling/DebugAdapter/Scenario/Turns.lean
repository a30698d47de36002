namespace DebugAdapter.Scenario

/-- Those who take turns: the session and the handshake that it began, the supervisor of the
debuggee, the timer of a pending stack trace, and the answer to one. -/
inductive Party where
  | session
  | handshake
  | supervisor
  | timer (key generation : Nat)
  | answer (key : Nat)
deriving DecidableEq, Repr

structure Alarm where
  party : Party
  deadline : Nat
deriving DecidableEq, Repr

/-- The parties that were woken, those that have used up a turn, and the alarms in the order in
which they were set. All alarms up to `rung` have been looked at. -/
structure Turns where
  queue : List Party := []
  rested : List Party := []
  alarms : List Alarm := []
  rung : Nat := 0
deriving DecidableEq, Repr

namespace Turns

def wake (t : Turns) (p : Party) : Turns :=
  if p ∈ t.queue then t else { t with queue := t.queue ++ [p] }

def wakeAll (t : Turns) (parties : List Party) : Turns :=
  parties.foldl wake t

def rest (t : Turns) (p : Party) : Turns :=
  { t with rested := p :: t.rested }

/-- Sets the alarm of a party in place of any other that it has. -/
def setAlarm (t : Turns) (p : Party) (deadline : Nat) : Turns :=
  if Alarm.mk p deadline ∈ t.alarms then t
  else { t with alarms := (t.alarms.filter fun a => a.party ≠ p) ++ [⟨p, deadline⟩] }

/-- Rings the alarms whose time has come, and then wakes those who have used up a turn. -/
def ring (t : Turns) (now : Nat) : Turns :=
  let (due, alarms) := t.alarms.partition fun a => a.deadline ≤ now
  { t with alarms, rested := [], rung := now }.wakeAll (due.map Alarm.party ++ t.rested.reverse)

def next? (t : Turns) : Option (Party × Turns) :=
  match t.queue with
  | [] => none
  | p :: queue => some (p, { t with queue })

end Turns

/-- The right to use the link to the debuggee. It goes to those who wait for it in the order in
which they came. -/
structure Lock where
  holder : Option Party := none
  waiting : List Party := []
deriving DecidableEq, Repr

namespace Lock

def ask (l : Lock) (p : Party) : Lock :=
  if l.holder = none then { l with holder := some p }
  else if l.holder = some p ∨ p ∈ l.waiting then l
  else { l with waiting := l.waiting ++ [p] }

def release (l : Lock) : Lock :=
  ⟨l.waiting.head?, l.waiting.tail⟩

def leave (l : Lock) (p : Party) : Lock :=
  if l.holder = some p then l.release else { l with waiting := l.waiting.erase p }

end Lock
end DebugAdapter.Scenario

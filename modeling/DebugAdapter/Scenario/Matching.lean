import DebugAdapter.Correlation

namespace DebugAdapter.Scenario

open Correlation

namespace Matching

inductive Step where
  | register (key : Nat) (command : String) (fallback : Json) (timeout : Nat)
  | resolve (key : Nat) (payload : Json)
  | resolveCommand (command : String) (payload : Json)
  | expire (key : Nat)
  | drain
  | contains (key : Nat)
  | dropSink (sink : Nat)
  | advance (time : Nat)

inductive Result where
  | nothing
  | flag (value : Bool)
  | count (value : Nat)

/-- Sinks are numbered in the order of their registration. Nothing is reported for a sink in
`dropped`; only a sink that is there can be dropped. -/
structure State where
  table : Table Nat := {}
  now : Nat := 0
  nextSink : Nat := 0
  dropped : List Nat := []

/-- What a step shows: its result and the sinks that it completed, in ascending order. -/
structure Report where
  result : Result
  completed : List (Completion Nat)
  size : Nat

namespace State

def perform (s : State) : Step → Result × List (Completion Nat) × State
  | .register key command fallback timeout =>
    let (replaced, table) :=
      s.table.register key command s.nextSink fallback (s.now + timeout)
    (.count s.nextSink, replaced.toList, { s with table, nextSink := s.nextSink + 1 })
  | .resolve key payload =>
    let (done, table) := s.table.resolve key payload
    (.flag done.isSome, done.toList, { s with table })
  | .resolveCommand command payload =>
    let (done, table) := s.table.resolveCommand command payload
    (.flag done.isSome, done.toList, { s with table })
  | .expire key =>
    let (done, table) := s.table.expire key
    (.flag done.isSome, done.toList, { s with table })
  | .drain =>
    let (done, table) := s.table.drain
    (.count done.length, done, { s with table })
  | .contains key => (.flag (s.table.contains key), [], s)
  | .dropSink sink =>
    let dropped := if sink < s.nextSink then sink :: s.dropped else s.dropped
    (.nothing, [], { s with dropped })
  | .advance time => (.nothing, [], { s with now := s.now + time })

def step (s : State) (step : Step) : Report × State :=
  let (result, done, s) := s.perform step
  let (expired, table) := s.table.expireDue s.now
  let s := { s with table }
  let completed := ((done ++ expired).filter fun c => !s.dropped.contains c.sink).mergeSort
    fun a b => a.sink ≤ b.sink
  (⟨result, completed, s.table.size⟩, s)

end State
end Matching
end DebugAdapter.Scenario

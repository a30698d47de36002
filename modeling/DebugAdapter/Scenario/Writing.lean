import DebugAdapter.Debuggee.Link

namespace DebugAdapter.Scenario

open Debuggee

namespace Writing

inductive Step where
  | attach (refusals : Nat)
  | detach
  | send (command : String) (arguments : Json)

/-- `refusals` is how many more writes the attached sink refuses. -/
structure State where
  link : Link := {}
  refusals : Nat := 0

structure Report where
  written : List Command
  result : Option (Except SendError Nat)
  attached : Bool

namespace State

def step (s : State) : Step → Report × State
  | .attach refusals => (⟨[], none, true⟩, ⟨s.link.attach, refusals⟩)
  | .detach => (⟨[], none, false⟩, ⟨s.link.detach, 0⟩)
  | .send command arguments =>
    let sending := s.link.send (s.refusals = 0) command arguments
    let s' : State :=
      ⟨sending.link, if s.link.isAttached then s.refusals - 1 else s.refusals⟩
    (⟨sending.written, some sending.result, s'.link.isAttached⟩, s')

end State
end Writing
end DebugAdapter.Scenario

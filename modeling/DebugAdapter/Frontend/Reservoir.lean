namespace DebugAdapter.Frontend

/-- How many bytes are stored. -/
structure Reservoir where
  stored : Nat := 0
deriving DecidableEq, Repr

namespace Reservoir

def capacity : Nat := 8192

def refill (r : Reservoir) (offered : Nat) : Reservoir :=
  if r.stored = 0 then ⟨min capacity offered⟩ else r

/-- How many bytes a reader draws who has `room`, while the source offers as many as `offered`
behind those stored. -/
def draw (r : Reservoir) (room offered : Nat) : Nat × Reservoir :=
  if r.stored = 0 ∧ capacity ≤ room then (min room offered, r)
  else
    let r := r.refill offered
    (min room r.stored, ⟨r.stored - room⟩)

end Reservoir
end DebugAdapter.Frontend

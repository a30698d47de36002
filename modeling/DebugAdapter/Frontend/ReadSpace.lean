namespace DebugAdapter.Frontend

/-- Of the `filled` bytes the last ones are held, and those before them are done with. -/
structure ReadSpace where
  size : Nat := 8192
  filled : Nat := 0
deriving DecidableEq, Repr

namespace ReadSpace

def room (s : ReadSpace) : Nat :=
  s.size - s.filled

def fill (s : ReadSpace) (count : Nat) : ReadSpace :=
  { s with filled := s.filled + count }

/-- Makes room for `wanted` bytes behind those held. These move to the front if that is enough and
no fewer are done with; else the space grows, at least to twice its size. -/
def reserve (s : ReadSpace) (held wanted : Nat) : ReadSpace :=
  if wanted ≤ s.room then s
  else if 2 * held ≤ s.filled ∧ held + wanted ≤ s.size then { s with filled := held }
  else { s with size := max (2 * s.size) (s.filled + wanted) }

theorem le_room_reserve (s : ReadSpace) (held wanted : Nat) :
    wanted ≤ (s.reserve held wanted).room := by
  unfold reserve
  split
  · assumption
  · split <;> simp only [room] <;> omega

end ReadSpace
end DebugAdapter.Frontend

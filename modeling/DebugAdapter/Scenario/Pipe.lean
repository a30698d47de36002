namespace DebugAdapter.Scenario

/-- A pipe whose last page holds `last` bytes. While `ready`, its writer takes it to have room. -/
structure Pipe where
  pages : Nat := 0
  last : Nat := 0
  ready : Bool := false
deriving DecidableEq, Repr

namespace Pipe

def pageSize : Nat := 4096

def capacity : Nat := 16

/-- How many of `count` bytes are put on the last page: those beyond whole pages, if they fit. -/
def joined (p : Pipe) (count : Nat) : Nat :=
  let beyond := count % pageSize
  if 0 < p.pages ∧ p.last + beyond ≤ pageSize then beyond else 0

/-- Puts in as many of `count` bytes as there is room for, and tells how many that are. -/
def put (p : Pipe) (count : Nat) : Nat × Pipe :=
  let joined := p.joined count
  let paged := min (count - joined) ((capacity - p.pages) * pageSize)
  (joined + paged,
    { pages := p.pages + (paged + pageSize - 1) / pageSize
      last := if paged = 0 then p.last + joined else (paged - 1) % pageSize + 1
      ready := joined + paged = count })

def drain (p : Pipe) : Pipe :=
  { p with pages := 0, last := 0 }

def announce (p : Pipe) : Pipe :=
  { p with ready := p.ready || p.pages < capacity }

end Pipe
end DebugAdapter.Scenario

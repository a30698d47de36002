import DebugAdapter.Json.Basic

namespace DebugAdapter.Correlation

/-- A request that waits. `sink` is where its completion goes; `generation` tells it from every
other entry that was ever registered under the same key. -/
structure Entry (σ : Type) where
  key : Nat
  generation : Nat
  command : String
  sink : σ
  fallback : Json
  deadline : Nat

/-- What a sink receives, and the key under which it waited. -/
structure Completion (σ : Type) where
  key : Nat
  sink : σ
  payload : Json

namespace Entry

variable {σ : Type}

def complete (e : Entry σ) (payload : Json) : Completion σ :=
  ⟨e.key, e.sink, payload⟩

def completeWithFallback (e : Entry σ) : Completion σ :=
  e.complete e.fallback

end Entry

/-- The waiting requests in the order of their registration, one a key. -/
structure Table (σ : Type) where
  entries : List (Entry σ) := []
  nextGeneration : Nat := 0

namespace Table

variable {σ : Type}

def find? (t : Table σ) (key : Nat) : Option (Entry σ) :=
  t.entries.find? (·.key = key)

def erase (t : Table σ) (key : Nat) : Table σ :=
  { t with entries := t.entries.filter (·.key ≠ key) }

def size (t : Table σ) : Nat :=
  t.entries.length

def isEmpty (t : Table σ) : Bool :=
  t.entries.isEmpty

def contains (t : Table σ) (key : Nat) : Bool :=
  (t.find? key).isSome

/-- Adds an entry. One that waits under the same key is completed with its fallback. -/
def register (t : Table σ) (key : Nat) (command : String) (sink : σ) (fallback : Json)
    (deadline : Nat) : Option (Completion σ) × Table σ :=
  let entry : Entry σ := ⟨key, t.nextGeneration, command, sink, fallback, deadline⟩
  ((t.find? key).map Entry.completeWithFallback,
    ⟨(t.erase key).entries ++ [entry], t.nextGeneration + 1⟩)

def resolve (t : Table σ) (key : Nat) (payload : Json) : Option (Completion σ) × Table σ :=
  match t.find? key with
  | none => (none, t)
  | some e => (some (e.complete payload), t.erase key)

/-- The smallest key under which `command` waits. -/
def oldest? (t : Table σ) (command : String) : Option Nat :=
  ((t.entries.filter (·.command = command)).map (·.key)).min?

/-- Completes the oldest entry for `command` with `payload`. -/
def resolveCommand (t : Table σ) (command : String) (payload : Json) :
    Option (Completion σ) × Table σ :=
  match t.oldest? command with
  | none => (none, t)
  | some key => t.resolve key payload

def expire (t : Table σ) (key : Nat) : Option (Completion σ) × Table σ :=
  match t.find? key with
  | none => (none, t)
  | some e => (some e.completeWithFallback, t.erase key)

/-- The timer of one registration fires: its entry expires, and no other does. -/
def fire (t : Table σ) (key generation : Nat) : Option (Completion σ) × Table σ :=
  match t.find? key with
  | none => (none, t)
  | some e => if e.generation = generation then t.expire key else (none, t)

def drain (t : Table σ) : List (Completion σ) × Table σ :=
  (t.entries.map Entry.completeWithFallback, { t with entries := [] })

def due (t : Table σ) (now : Nat) : List (Entry σ) :=
  t.entries.filter (·.deadline ≤ now)

def expireDue (t : Table σ) (now : Nat) : List (Completion σ) × Table σ :=
  (t.due now).foldl (fun (done, t) e =>
    let (completion, t) := t.fire e.key e.generation
    (done ++ completion.toList, t)) ([], t)

end Table
end DebugAdapter.Correlation

namespace DebugAdapter

inductive Severity where
  | error
  | warning
  | info
  | debug
  | trace
deriving DecidableEq, Repr

/-- The number of severities as grave as this one or graver. -/
def Severity.rank : Severity → Nat
  | error => 1
  | warning => 2
  | info => 3
  | debug => 4
  | trace => 5

/-- An entry of the part of the program that `target` names. `fields` are the names of what it tells
besides its message. -/
structure LogEntry where
  target : String
  severity : Severity
  fields : List String := []
deriving DecidableEq, Repr

/-- True if an entry has a field of this name. Every entry has a message. -/
def LogEntry.hasField (e : LogEntry) (name : String) : Bool :=
  name = "message" || e.fields.contains name

end DebugAdapter

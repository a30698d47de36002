import DebugAdapter.Logging.Directive

namespace DebugAdapter

structure Refused where
  text : String
  reason : Directive.Refusal
deriving DecidableEq, Repr

def Refused.notice (r : Refused) : String :=
  "ignoring `" ++ r.text ++ "`: " ++ r.reason.message

/-- Which entries are kept. `refused` holds what was not understood. -/
structure LogFilter where
  directives : List Directive
  refused : List Refused := []

namespace LogFilter

def upTo (rank : Nat) : LogFilter :=
  ⟨[{ rank }], []⟩

/-- Why there is no filter: a cut inside of a character, after so much was not understood. -/
structure Failure where
  refused : List Refused
  cut : Text.MisplacedCut
deriving DecidableEq, Repr

def Failure.message (f : Failure) : String :=
  "\n".intercalate (f.refused.map Refused.notice ++ [f.cut.message])

def readAll (refused : List Refused) : List String → Except Failure LogFilter
  | [] => .ok ⟨[], refused⟩
  | text :: texts =>
    match Directive.read text with
    | .ok d => (readAll refused texts).map fun f => { f with directives := d :: f.directives }
    | .error (.refused reason) => readAll (refused ++ [⟨text, reason⟩]) texts
    | .error (.misplacedCut cut) => .error ⟨refused, cut⟩

/-- The filter that a list of directives with commas between them describes. Without any, errors are
kept. -/
def read (s : String) : Except Failure LogFilter := do
  let f ← readAll [] ((s.splitOn ",").filter (· ≠ ""))
  if f.directives.isEmpty then return { upTo Severity.error.rank with refused := f.refused }
  return f

/-- The directive that decides on an entry: of those that say equally much, the last. -/
def deciding? (f : LogFilter) (e : LogEntry) : Option Directive :=
  (f.directives.filter (·.decides e)).foldl (fun best d =>
    match best with
    | none => some d
    | some b => if b.saysMore d then some b else some d) none

def keeps (f : LogFilter) (e : LogEntry) : Bool :=
  (f.deciding? e).any fun d => e.severity.rank ≤ d.rank

/-- The filter that the environment asks for: a list of directives, or a severity by name. -/
def ofEnvironment (env : String → Option String) : Except Failure LogFilter :=
  match env "RUST_LOG" with
  | some directives => read directives
  | none =>
    let rank := match env "ETCH_DAP_LOG" with
      | some "trace" => Severity.trace.rank
      | some "debug" => Severity.debug.rank
      | some "warn" | some "warning" => Severity.warning.rank
      | some "error" => Severity.error.rank
      | _ => Severity.info.rank
    .ok ⟨[{ target := some "etch_dap", rank }, { target := some "etch_bridge", rank }], []⟩

end LogFilter
end DebugAdapter

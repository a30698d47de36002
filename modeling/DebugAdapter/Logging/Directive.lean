import DebugAdapter.Logging.Entry
import DebugAdapter.Logging.Pattern.Reading
import DebugAdapter.Text.Alphanumeric
import DebugAdapter.Text.Blank
import DebugAdapter.Text.Numeral
import DebugAdapter.Text.Slice

namespace DebugAdapter

/-- A field that an entry has to have; `valued` holds if its value matters too. -/
structure FieldMatch where
  name : String
  valued : Bool := false
deriving DecidableEq, Repr

/-- Keeps entries of targets that begin with `target`, if their rank is at most `rank`. -/
structure Directive where
  target : Option String := none
  span : Option String := none
  field : Option FieldMatch := none
  rank : Nat := Severity.trace.rank
deriving DecidableEq, Repr

namespace Directive

inductive Refusal where
  /-- It does not have the form of one. -/
  | malformed
  /-- Its level is none. -/
  | level
  /-- The value of its field is no pattern. -/
  | value
  /-- The value of its field is a pattern that looks for the ends of words. -/
  | words
deriving DecidableEq, Repr

def Refusal.message : Refusal → String
  | malformed => "invalid filter directive"
  | level =>
    "error parsing level filter: expected one of \"off\", \"error\", \"warn\", " ++
      "\"info\", \"debug\", \"trace\", or a number 0-5"
  | value => "invalid field filter: error building NFA"
  | words =>
    "invalid field filter: unsupported regex feature for DFAs: cannot build DFAs for regexes " ++
      "with Unicode word boundaries; switch to ASCII word boundaries, or heuristically enable " ++
      "Unicode word boundaries or use a different regex engine"

/-- Why no directive was read. The parts of a directive cannot always be cut out of the text. -/
inductive Fault where
  | refused (reason : Refusal)
  | misplacedCut (cut : Text.MisplacedCut)
deriving DecidableEq, Repr

def part (s : String) (start stop : Nat) : Except Fault String :=
  (Text.slice s start stop).mapError .misplacedCut

end Directive

namespace FieldMatch

def isMantissa (cs : List Char) : Bool :=
  cs.any Char.isDigit && (cs.erase '.').all Char.isDigit

/-- True for the texts behind a plus sign that make a number with it. -/
def isMagnitude (cs : List Char) : Bool :=
  let word := String.ofList (cs.map Char.toLower)
  word = "inf" || word = "infinity" || word = "nan" ||
    match word.toList.span (· ≠ 'e') with
    | (mantissa, []) => isMantissa mantissa
    | (mantissa, _ :: '+' :: digits) | (mantissa, _ :: '-' :: digits)
    | (mantissa, _ :: digits) =>
      isMantissa mantissa && !digits.isEmpty && digits.all Char.isDigit

def isPositive (s : String) : Bool :=
  match s.toList with
  | '+' :: cs => isMagnitude cs
  | _ => false

def checkValue (value : String) : Except Directive.Fault Unit :=
  if isPositive value then .ok ()
  else
    match Pattern.judge value with
    | .accepted => .ok ()
    | .refused => .error (.refused .value)
    | .unsupported => .error (.refused .words)

/-- A field is a name, or a name and a value with an equals sign between. What stands behind a
second equals sign does not count. -/
def read (s : String) : Except Directive.Fault FieldMatch :=
  match s.splitOn "=" with
  | [] | [""] => .error (.refused .malformed)
  | [name] => .ok { name }
  | name :: value :: _ => do
    checkValue value
    return { name, valued := true }

end FieldMatch

namespace Directive

/-- The rank that a word stands for: a number up to five, or a name in any case. -/
def rank? (word : String) : Option Nat :=
  match Text.readNumeral word.toList with
  | .ok n => if n ≤ Severity.trace.rank then some n else none
  | .error _ =>
    match word.map Char.toLower with
    | "off" => some 0
    | "" | "error" => some Severity.error.rank
    | "warn" => some Severity.warning.rank
    | "info" => some Severity.info.rank
    | "debug" => some Severity.debug.rank
    | "trace" => some Severity.trace.rank
    | _ => none

def isTargetStart (c : Char) : Bool :=
  Text.isAlphanumeric c || c = '-' || c = ':' || c = '_'

/-- The directive with the level that a text holds from a byte on. No level keeps all entries. -/
def withLevel (d : Directive) (s : String) (start : Nat) : Except Fault Directive := do
  let word ← part s start s.utf8ByteSize
  if word.isEmpty then return d
  match rank? word with
  | some rank => return { d with rank }
  | none => throw (.refused .level)

def afterSpan (d : Directive) (s : String) (start : Nat) : List Char → Except Fault Directive
  | [] => .ok d
  | '=' :: _ => d.withLevel s (start + 1)
  | _ => .error (.refused .malformed)

def inField (d : Directive) (s : String) (start : Nat) (cs : List Char) :
    Except Fault Directive := do
  let (field, rest) := cs.span (· ≠ '\x7d')
  let stop := start + Text.width field
  match rest with
  | [] => throw (.refused .malformed)
  | _ :: rest =>
    let field ← FieldMatch.read (← part s start stop)
    match rest with
    | ']' :: rest => afterSpan { d with field := some field } s (stop + 2) rest
    | _ => throw (.refused .malformed)

def inSpan (d : Directive) (s : String) (start : Nat) (cs : List Char) :
    Except Fault Directive := do
  let (name, rest) := cs.span fun c => c ≠ ']' ∧ c ≠ '\x7b'
  let stop := start + Text.width name
  match rest with
  | [] => throw (.refused .malformed)
  | mark :: rest =>
    let span ← part s start stop
    if mark = ']' then afterSpan { d with span := some span } s (stop + 1) rest
    else
      let span := if span.isEmpty then none else some span
      inField { d with span } s (stop + 1) rest

/-- Reads a directive. The marks are looked for without the blanks at either end; the parts are then
taken from the text as it stands, between the same bytes. -/
def read (s : String) : Except Fault Directive :=
  match (Text.trim s.toList).span fun c => c ≠ '=' ∧ c ≠ '[' with
  | ([], '[' :: rest) => ({} : Directive).inSpan s 1 rest
  | ([], _) => .error (.refused .malformed)
  | (first :: more, rest) =>
    if !isTargetStart first then .error (.refused .malformed)
    else
      let stop := Text.width (first :: more)
      match rest with
      | [] =>
        match rank? s with
        | some rank => .ok { rank }
        | none => .ok { target := some s }
      | mark :: rest => do
        let d : Directive := { target := some (← part s 0 stop) }
        if mark = '=' then d.withLevel s (stop + 1) else d.inSpan s (stop + 1) rest

/-- True if a directive decides on an entry. One that names a span, or the value of a field, waits
for a span; no entry has one. -/
def decides (d : Directive) (e : LogEntry) : Bool :=
  d.span.isNone && d.target.all (fun t => e.target.startsWith t) &&
    d.field.all fun f => !f.valued && e.hasField f.name

/-- How long the target of a directive is; no target is shorter than any. -/
def reach (d : Directive) : Nat :=
  (d.target.map (·.utf8ByteSize + 1)).getD 0

/-- True if a directive says more than another: its target is longer, or it names a field, or one
that comes later in the alphabet. -/
def saysMore (d other : Directive) : Bool :=
  let names (d : Directive) := d.field.toList.map FieldMatch.name
  other.reach < d.reach || (other.reach = d.reach && decide (names other < names d))

end Directive
end DebugAdapter

import DebugAdapter.Config
import DebugAdapter.Text.Numeral
import DebugAdapter.Text.Plain

namespace DebugAdapter

/-- What can be set, in the order in which it is described. -/
inductive Setting where
  | workspaceRoot
  | executable
  | debugServerFlag
  | settleDelay
  | launchDelay
  | stackTraceTimeout
  | terminateGrace
  | shutdownGrace
  | logFile
deriving DecidableEq, Repr

namespace Setting

def all : List Setting :=
  [workspaceRoot, executable, debugServerFlag, settleDelay, launchDelay, stackTraceTimeout,
    terminateGrace, shutdownGrace, logFile]

def name : Setting → String
  | workspaceRoot => "workspace-root"
  | executable => "executable"
  | debugServerFlag => "debug-server-flag"
  | settleDelay => "settle-delay-ms"
  | launchDelay => "launch-delay-ms"
  | stackTraceTimeout => "stack-trace-timeout-ms"
  | terminateGrace => "terminate-grace-ms"
  | shutdownGrace => "shutdown-grace-ms"
  | logFile => "log-file"

def valueName : Setting → String
  | workspaceRoot => "DIR"
  | logFile => "PATH"
  | s => s.name.map fun c => if c = '-' then '_' else c.toUpper

/-- The variable of the environment that sets it. -/
def envName : Setting → String
  | workspaceRoot => "ETCH_DAP_WORKSPACE_ROOTS"
  | logFile => "ETCH_DAP_LOG_FILE"
  | s => "ETCH_DAP_" ++ s.valueName

def usage (s : Setting) : String :=
  "--" ++ s.name ++ " <" ++ s.valueName ++ ">"

def default? : Setting → Option String
  | workspaceRoot | logFile => none
  | executable => some ({} : Config).executable
  | debugServerFlag => some ({} : Config).debugServerFlag
  | settleDelay => some (toString ({} : Config).settleDelay)
  | launchDelay => some (toString ({} : Config).launchDelay)
  | stackTraceTimeout => some (toString ({} : Config).stackTraceTimeout)
  | terminateGrace => some (toString ({} : Config).terminateGrace)
  | shutdownGrace => some (toString ({} : Config).shutdownGrace)

def help : Setting → String
  | workspaceRoot =>
    "Workspace root holding the `etch` executable. May be repeated; " ++
      "the deepest root containing the program wins. Defaults to the current directory"
  | executable => "Debuggee executable name, relative to the workspace root"
  | debugServerFlag => "Flag that starts the debuggee in debug-server mode"
  | settleDelay => "Time to wait for the debuggee before the handshake, in milliseconds"
  | launchDelay => "Time to wait between `initialize` and `launch`, in milliseconds"
  | stackTraceTimeout => "How long a `stackTrace` waits for the debuggee, in milliseconds"
  | terminateGrace => "Grace period between SIGTERM and SIGKILL, in milliseconds"
  | shutdownGrace =>
    "How long to wait for the debuggee to exit when the front end closes, in milliseconds"
  | logFile => "Append logs to this file instead of stderr"

end Setting

/-- Switches take no value; each ends the reading of the command line. -/
inductive Switch where
  | help
  | version
deriving DecidableEq, Repr

namespace Switch

def name : Switch → String
  | help => "help"
  | version => "version"

def letter : Switch → Char
  | help => 'h'
  | version => 'V'

def all : List Switch := [help, version]

end Switch

inductive UsageError where
  | unexpectedArgument (argument : String)
  | valueRequired (setting : Setting)
  | usedTwice (setting : Setting)
  | badNumeral (setting : Setting) (value : String) (reason : Text.NumeralError)
  | unexpectedValue (switch : Switch) (value : String)

/-- True if the environment wants styles kept also where nothing is written to a screen. -/
def keepsStyles (env : String → Option String) : Bool :=
  ((env "NO_COLOR").getD "").isEmpty && !((env "CLICOLOR_FORCE").getD "").isEmpty

def written (env : String → Option String) (s : String) : String :=
  if keepsStyles env then s else Text.plain s

namespace UsageError

def fault (s : String) : String :=
  Text.styled [.yellow] s

def description : UsageError → String
  | unexpectedArgument argument => "unexpected argument '" ++ fault argument ++ "' found"
  | valueRequired s => "a value is required for '" ++ fault s.usage ++ "' but none was supplied"
  | usedTwice s => "the argument '" ++ fault s.usage ++ "' cannot be used multiple times"
  | badNumeral s value reason =>
    "invalid value '" ++ fault value ++ "' for '" ++ Text.styled [.bold] s.usage ++ "': " ++
      reason.message
  | unexpectedValue switch value =>
    "unexpected value '" ++ fault value ++ "' for '" ++ Text.styled [.bold] ("--" ++ switch.name) ++
      "' found; no more were expected"

def message (env : String → Option String) (e : UsageError) : String :=
  written env (Text.styled [.bold, .red] "error:" ++ " " ++ e.description)

end UsageError

structure Options where
  workspaceRoots : List String := []
  executable : Option String := none
  debugServerFlag : Option String := none
  settleDelay : Option Nat := none
  launchDelay : Option Nat := none
  stackTraceTimeout : Option Nat := none
  terminateGrace : Option Nat := none
  shutdownGrace : Option Nat := none
  logFile : Option String := none

namespace Options

def has (o : Options) : Setting → Bool
  | .workspaceRoot => !o.workspaceRoots.isEmpty
  | .executable => o.executable.isSome
  | .debugServerFlag => o.debugServerFlag.isSome
  | .settleDelay => o.settleDelay.isSome
  | .launchDelay => o.launchDelay.isSome
  | .stackTraceTimeout => o.stackTraceTimeout.isSome
  | .terminateGrace => o.terminateGrace.isSome
  | .shutdownGrace => o.shutdownGrace.isSome
  | .logFile => o.logFile.isSome

def milliseconds (s : Setting) (value : String) : Except UsageError Nat :=
  match Text.readNumeral value.toList with
  | .ok n => .ok n
  | .error reason => .error (.badNumeral s value reason)

/-- Only the roots may be set more than once. -/
def checkFresh (o : Options) (s : Setting) : Except UsageError Unit :=
  if s ≠ .workspaceRoot ∧ o.has s then .error (.usedTwice s) else .ok ()

/-- Makes a setting. Roots stand with commas between them, and no path is empty. -/
def set (o : Options) (s : Setting) (value : String) : Except UsageError Options := do
  o.checkFresh s
  match s with
  | .workspaceRoot =>
    let roots := value.splitOn ","
    if roots.any (·.isEmpty) then throw (.valueRequired s)
    return { o with workspaceRoots := o.workspaceRoots ++ roots }
  | .executable => return { o with executable := some value }
  | .debugServerFlag => return { o with debugServerFlag := some value }
  | .settleDelay => return { o with settleDelay := some (← milliseconds s value) }
  | .launchDelay => return { o with launchDelay := some (← milliseconds s value) }
  | .stackTraceTimeout => return { o with stackTraceTimeout := some (← milliseconds s value) }
  | .terminateGrace => return { o with terminateGrace := some (← milliseconds s value) }
  | .shutdownGrace => return { o with shutdownGrace := some (← milliseconds s value) }
  | .logFile =>
    if value.isEmpty then throw (.valueRequired s)
    return { o with logFile := some value }

def setFrom (env : String → Option String) (o : Options) : Except UsageError Options :=
  Setting.all.foldlM (fun o s =>
    match o.has s, env s.envName with
    | false, some value => o.set s value
    | _, _ => .ok o) o

def config (o : Options) : Config :=
  let c : Config := {}
  { executable := o.executable.getD c.executable
    debugServerFlag := o.debugServerFlag.getD c.debugServerFlag
    settleDelay := o.settleDelay.getD c.settleDelay
    launchDelay := o.launchDelay.getD c.launchDelay
    stackTraceTimeout := o.stackTraceTimeout.getD c.stackTraceTimeout
    terminateGrace := o.terminateGrace.getD c.terminateGrace
    shutdownGrace := o.shutdownGrace.getD c.shutdownGrace }

/-- The workspace roots, or the directory that stands in for them. -/
def roots (o : Options) (currentDirectory : String) : List String :=
  if o.workspaceRoots.isEmpty then [currentDirectory] else o.workspaceRoots

end Options

namespace CommandLine

inductive Invocation where
  | serve (options : Options)
  | help (long : Bool)
  | version

/-- An option that was named and not yet set; its value may still be missing. -/
structure Pending where
  setting : Setting
  value : Option String := none

/-- How far the arguments were read. `literal` holds after two hyphens that stand alone. -/
structure Reading where
  options : Options := {}
  pending : Option Pending := none
  literal : Bool := false

inductive Stop where
  | usage (error : UsageError)
  | asked (invocation : Invocation)

namespace Reading

def lift {α : Type} : Except UsageError α → Except Stop α
  | .ok a => .ok a
  | .error e => .error (.usage e)

def resolve (r : Reading) : Except UsageError Reading :=
  match r.pending with
  | none => .ok r
  | some ⟨s, none⟩ => .error (.valueRequired s)
  | some ⟨s, some value⟩ => (r.options.set s value).map fun options =>
      { r with options, pending := none }

def awaiting? (r : Reading) : Option Setting :=
  match r.pending with
  | some ⟨s, none⟩ => some s
  | _ => none

def takeValue (r : Reading) (value : String) : Except Stop Reading :=
  match r.awaiting? with
  | some s => .ok { r with pending := some ⟨s, some value⟩ }
  | none => .error (.usage (.unexpectedArgument value))

/-- A switch is obeyed once what stands before it was found good. -/
def obey (r : Reading) (switch : Switch) (long : Bool) : Except Stop Reading := do
  let _ ← lift r.resolve
  throw (.asked (match switch with
    | .help => .help long
    | .version => .version))

def takeLong (r : Reading) (argument : List Char) : Except Stop Reading := do
  let (chars, attached) := argument.span (· ≠ '=')
  let name := String.ofList chars
  let value? := match attached with
    | [] => none
    | _ :: value => some (String.ofList value)
  match Setting.all.find? (·.name = name), Switch.all.find? (·.name = name), value? with
  | some s, _, some value =>
    let r ← lift r.resolve
    let options ← lift (r.options.set s value)
    return { r with options }
  | some s, _, none =>
    let r ← lift r.resolve
    return { r with pending := some ⟨s, none⟩ }
  | none, some switch, some value => throw (.usage (.unexpectedValue switch value))
  | none, some switch, none => r.obey switch true
  | none, none, _ => throw (.usage (.unexpectedArgument ("--" ++ name)))

/-- Takes an argument that begins with one hyphen; its first letter decides. -/
def takeShort (r : Reading) (letter : Char) : Except Stop Reading :=
  match Switch.all.find? (·.letter = letter) with
  | some switch => r.obey switch false
  | none => .error (.usage (.unexpectedArgument ("-" ++ letter.toString)))

/-- Takes one argument. The flag for the debuggee may be anything, also what looks like an option.
-/
def take (r : Reading) (argument : String) : Except Stop Reading :=
  if r.literal then .error (.usage (.unexpectedArgument argument))
  else if r.awaiting? = some .debugServerFlag then r.takeValue argument
  else
    match argument.toList with
    | ['-', '-'] => .ok { r with literal := true }
    | '-' :: '-' :: name => r.takeLong name
    | '-' :: letter :: _ => r.takeShort letter
    | _ => r.takeValue argument

end Reading

def read (env : String → Option String) (arguments : List String) :
    Except UsageError Invocation :=
  match arguments.foldlM Reading.take {} with
  | .error (.usage e) => .error e
  | .error (.asked invocation) => .ok invocation
  | .ok r => do
    let r ← r.resolve
    return .serve (← r.options.setFrom env)

end CommandLine

namespace Help

def margin : String := "          "

def environment (env : String → Option String) (s : Setting) : String :=
  "[env: " ++ s.envName ++ "=" ++ (env s.envName).getD "" ++ "]"

def default? (s : Setting) : Option String :=
  s.default?.map fun value => "[default: " ++ value ++ "]"

def indented (description : String) : String :=
  margin ++ ("\n" ++ margin).intercalate (description.splitOn "\n")

def heading (s : Setting) : String :=
  "      " ++ Text.styled [.bold] ("--" ++ s.name) ++ " <" ++ s.valueName ++ ">\n"

def short (env : String → Option String) (s : Setting) : String :=
  heading s ++
    indented (" ".intercalate (s.help :: environment env s :: (default? s).toList)) ++ "\n"

/-- An option with a description in two paragraphs, the second of one line for each remark. -/
def long (env : String → Option String) (s : Setting) : String :=
  heading s ++
    indented (s.help ++ "\n\n" ++
      "\n".intercalate (environment env s :: (default? s).toList)) ++ "\n\n"

def switch (s : Switch) (description : String) : String :=
  "  " ++ Text.styled [.bold] ("-" ++ s.letter.toString) ++ ", " ++
    Text.styled [.bold] ("--" ++ s.name) ++ "\n" ++ indented description ++ "\n"

def title (s : String) : String :=
  Text.styled [.bold, .underlined] s

def usage : String :=
  title "Usage:" ++ " " ++ Text.styled [.bold] "etch-dap" ++ " [OPTIONS]\n\n" ++
    title "Options:" ++ "\n"

/-- The help text with styles. The long one sets the options apart. -/
def styled (env : String → Option String) (isLong : Bool) : String :=
  if isLong then
    "Debug adapter bridging DAP clients to `etch --debug-server`.\n\n" ++
      "The adapter reads DAP requests on stdin and writes responses and events on stdout. " ++
      "Logs never go to stdout.\n\n" ++ usage ++ String.join (Setting.all.map (long env)) ++
      switch .help "Print help (see a summary with '-h')" ++ "\n" ++
      switch .version "Print version"
  else
    "Debug adapter executable for the Etch language\n\n" ++ usage ++
      String.join (Setting.all.map (short env)) ++
      switch .help "Print help (see more with '--help')" ++ switch .version "Print version"

/-- The help text. What the environment holds may hide some of it. -/
def text (env : String → Option String) (isLong : Bool) : String :=
  written env (styled env isLong)

def version : String :=
  "etch-dap 0.1.0\n"

end Help
end DebugAdapter

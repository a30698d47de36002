import DebugAdapter.Program

open DebugAdapter

namespace Executable

def lookedUp : List String :=
  Setting.all.map Setting.envName ++ ["RUST_LOG", "ETCH_DAP_LOG", "NO_COLOR", "CLICOLOR_FORCE"]

def environment : IO (List (String × String)) :=
  lookedUp.filterMapM fun name => return (← IO.getEnv name).map (name, ·)

def openLog (logFile : Option String) : IO (Option IO.FS.Stream) := do
  match logFile with
  | none => return some (← IO.getStderr)
  | some path =>
    try return some (.ofHandle (← IO.FS.Handle.mk path .append))
    catch _ => return none

def severityName : Severity → String
  | .error => "ERROR"
  | .warning => "WARN"
  | .info => "INFO"
  | .debug => "DEBUG"
  | .trace => "TRACE"

def emit (log : IO.FS.Stream) (written : Program.Written) : IO Unit := do
  let stdout ← IO.getStdout
  stdout.write ⟨written.output.toArray⟩
  stdout.flush
  for entry in written.entries do
    log.putStr (severityName entry.severity ++ " " ++ entry.target ++ "\n")
  log.flush

/-- Serves the input up to its end, or up to a frame that cannot be read. No more is waited for than
the next frame lacks. -/
partial def serve (env : Environment) (log stdin : IO.FS.Stream) (r : Program.Running) :
    IO Unit := do
  let piece ← if r.server.isServing then stdin.read (USize.ofNat r.server.decoder.lacking)
    else pure ByteArray.empty
  if piece.isEmpty then emit log (r.finish env)
  else
    let (r, written) := r.take env piece.data.toList
    emit log written
    serve env log stdin r

def finish : Program.Ending → IO UInt32
  | .printed text => do
    IO.print text
    return 0
  | .failed code complaint => do
    IO.eprintln complaint
    return code.toUInt32

end Executable

open Executable in
def main (arguments : List String) : IO UInt32 := do
  let values ← environment
  let env (name : String) := (values.find? (·.1 = name)).map (·.2)
  match Program.prepare env arguments (← IO.currentDir).toString with
  | .error ending => finish ending
  | .ok prepared =>
    let log ← openLog prepared.logFile
    match prepared.start env fun _ => log.map fun _ => .file, log with
    | .ok running, some log =>
      running.notices.forM (IO.eprintln ·)
      emit log (running.keep Program.opening)
      serve (Program.closedSystem fun _ => .notFound) log (← IO.getStdin) running
      return 0
    | .error ending, _ => finish ending
    | .ok _, none => return 1

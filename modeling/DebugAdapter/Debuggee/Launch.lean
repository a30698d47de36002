namespace DebugAdapter.Debuggee

structure LaunchSpec where
  executable : String
  args : List String
  cwd : String
deriving DecidableEq, Repr

inductive SpawnFailure where
  | notFound
  | permissionDenied
  | other (reason : String)
deriving DecidableEq, Repr

inductive LaunchError where
  | notFound (path : String)
  | permissionDenied (path : String)
  | spawn (path reason : String)
  | pipe (name : String)
deriving DecidableEq, Repr

namespace LaunchError

/-- What a failure means for the executable at `path`. -/
def ofFailure (path : String) : SpawnFailure → LaunchError
  | .notFound => notFound path
  | .permissionDenied => permissionDenied path
  | .other reason => spawn path reason

def message : LaunchError → String
  | notFound path => "executable not found: " ++ path
  | permissionDenied path => "permission denied: " ++ path
  | spawn path reason => "failed to spawn " ++ path ++ ": " ++ reason
  | pipe name => name ++ " not captured"

end LaunchError

structure ExitInfo where
  code : Option Int := none
  signal : Option Int := none
deriving DecidableEq, Repr

end DebugAdapter.Debuggee

import DebugAdapter.Debuggee.Launch

namespace DebugAdapter

inductive SessionError where
  | noWorkspace
  | missingProgram
  | launch (error : Debuggee.LaunchError)
  | alreadyLaunched
  | terminated
deriving DecidableEq, Repr

namespace SessionError

def code : SessionError → Nat
  | noWorkspace => 2001
  | missingProgram => 2001
  | launch (.notFound _) => 2002
  | launch (.permissionDenied _) => 2002
  | launch _ => 2003
  | alreadyLaunched => 2004
  | terminated => 2004

def message : SessionError → String
  | noWorkspace => "No workspace folder found"
  | missingProgram => "launch requires a 'program' path"
  | launch e => "Failed to launch Etch: " ++ e.message
  | alreadyLaunched => "Etch is already running in this session"
  | terminated => "Debug session has terminated"

end SessionError
end DebugAdapter

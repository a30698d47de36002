import DebugAdapter.Debuggee.Launch
import DebugAdapter.Debuggee.Line

namespace DebugAdapter.Debuggee

/-- A record it wrote, a line that holds none, or its exit. -/
inductive Report where
  | record (record : Record)
  | malformed (line : String) (reason : LineError)
  | exited (info : ExitInfo)

def Report.ofOutput : Output → Report
  | .record r => record r
  | .malformed line reason => malformed line reason

end DebugAdapter.Debuggee

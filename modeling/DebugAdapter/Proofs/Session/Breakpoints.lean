import DebugAdapter.Proofs.Session.LateStops
import DebugAdapter.Proofs.Session.Relaying

namespace DebugAdapter

open Frontend Effect Debuggee

namespace Debuggee.Link

variable {l : Link} {queue : Queue}

end Debuggee.Link

namespace Session

/-- What the front end is told of a breakpoint that it asked for: the breakpoint is verified, and the
line is given back if there was one, of whatever form. -/
inductive Acknowledges : Json → Json → Prop
  | lined (fields : Fields) (line : Json) : fields.get? "line" = some line →
      Acknowledges (.record fields) (.record [("line", line), ("verified", .bool true)])
  | unlined (breakpoint : Json) : breakpoint.field? "line" = none →
      Acknowledges breakpoint (.record [("verified", .bool true)])

end Session
end DebugAdapter

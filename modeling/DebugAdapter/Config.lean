namespace DebugAdapter

structure Config where
  /-- The debuggee's executable, seen from the workspace root. -/
  executable : String := "etch"
  /-- The argument that makes the debuggee listen for commands. -/
  debugServerFlag : String := "--debug-server"
  /-- The longest wait for a first record before the debuggee is initialized. -/
  settleDelay : Nat := 500
  /-- The longest wait for the debuggee's answer before its program is launched. -/
  launchDelay : Nat := 100
  /-- How long a stack trace is waited for. -/
  stackTraceTimeout : Nat := 1000
  /-- The time between a request to stop and a kill. -/
  terminateGrace : Nat := 2000
  /-- How long the exit of the debuggee is waited for at the end. -/
  shutdownGrace : Nat := 3000
deriving DecidableEq, Repr

end DebugAdapter

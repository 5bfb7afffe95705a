import OnionPool.Port.Basic
import OnionPool.System.OsError

/-!
# Failures

What can go wrong, each cause with the facts that belong to it; its message, the status with which
the interface reports it, and the record that the command leaves on the terminal.
-/

namespace OnionPool

/-- Why an operation failed. -/
inductive Failure where
  /-- A program did not start, or ended before it had settled. -/
  | launch (service : String) (port : Port) (reason : String)
  | stream (service : String) (error : IoError)
  | termination (service : String) (pid : Nat) (reason : String)
  /-- The proxy's configuration could not be put in place. -/
  | render (reason : String)
  /-- The replacement of the proxy did not take over. -/
  | handoff (reason : String)
  | portsExhausted (floor ceiling : Port)
  | missingProgram (name : String)
  | invalidConfig (reason : String)
  | shuttingDown
  | io (error : IoError)
  | internal (reason : String)
  deriving DecidableEq

namespace Failure

open Text.Quoted (quote)

def message : Failure → String
  | launch service port reason =>
    "Failed to launch " ++ service ++ " on port " ++ port.text ++ ": " ++ reason
  | stream service error => "Failed to read output of " ++ service ++ ": " ++ error.text
  | termination service pid reason =>
    "Failed to terminate " ++ service ++ " (pid " ++ Text.decimal pid ++ "): " ++ reason
  | render reason => "Failed to render proxy configuration: " ++ reason
  | handoff reason => "Failed to hand off to a new proxy instance: " ++ reason
  | portsExhausted floor ceiling =>
    "All ports in " ++ floor.text ++ "-" ++ ceiling.text ++ " are leased"
  | missingProgram name => "Missing required program: " ++ name
  | invalidConfig reason => "Invalid configuration: " ++ reason
  | shuttingDown => "Application is shutting down"
  | io error => "IO error: " ++ error.text
  | internal reason => "Internal error: " ++ reason

/-- The status with which the interface answers. -/
def status : Failure → Nat
  | invalidConfig _ => 400
  | portsExhausted _ _ | shuttingDown => 503
  | launch _ _ _ | handoff _ => 502
  | stream _ _ | termination _ _ _ | render _ | missingProgram _ | io _ | internal _ => 500

/-- The failure with all its parts. -/
def record : Failure → String
  | launch service port reason =>
    Text.Quoted.record "Launch" [
      ("service", quote service), ("port", port.text), ("reason", quote reason)]
  | stream service error =>
    Text.Quoted.record "Stream" [("service", quote service), ("source", error.record)]
  | termination service pid reason =>
    Text.Quoted.record "Termination" [
      ("service", quote service), ("pid", Text.decimal pid), ("reason", quote reason)]
  | render reason => "Render(" ++ quote reason ++ ")"
  | handoff reason => "Handoff(" ++ quote reason ++ ")"
  | portsExhausted floor ceiling =>
    Text.Quoted.record "PortsExhausted" [("floor", floor.text), ("ceiling", ceiling.text)]
  | missingProgram name => "MissingDependency(" ++ quote name ++ ")"
  | invalidConfig reason => "InvalidConfig(" ++ quote reason ++ ")"
  | shuttingDown => "ShuttingDown"
  | io error => "Io(" ++ error.record ++ ")"
  | internal reason => "Internal(" ++ quote reason ++ ")"

end Failure

end OnionPool

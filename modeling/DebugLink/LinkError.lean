import DebugLink.Token
import DebugLink.Text.Literal

/-! What can go wrong between a session and its debugger, apart from lines that cannot be read. -/

namespace DebugLink

inductive LinkError where
  /-- A result for a command that nobody waits for. -/
  | unknownToken (token : Option Token)
  /-- A stop at a breakpoint that has no handler. -/
  | unhandledBreakpoint (number : UInt32)
  /-- The debugger can no longer be reached. -/
  | closed
  /-- News of a thread group that was never added. -/
  | unknownThreadGroup (id : String)
  /-- A record without a field that it needs. -/
  | missingField (what field : String)
  /-- A field whose text makes no sense. -/
  | invalidField (field value : String)
  /-- A session can be started once. -/
  | alreadyStarted
  /-- A wait that was told to stop. -/
  | waitStopped (token : Option Token)
deriving DecidableEq, Repr

def LinkError.message : LinkError → String
  | .unknownToken token => "result for unknown token " ++ Token.describe token
  | .unhandledBreakpoint number =>
    "breakpoint " ++ Decimal.text number.toNat ++ " hit but no handler is registered"
  | .closed => "transport closed"
  | .unknownThreadGroup id => "unknown thread group " ++ Text.literal id
  | .missingField what field => "'" ++ what ++ "' record is missing field '" ++ field ++ "'"
  | .invalidField field value =>
    "invalid value " ++ Text.literal value ++ " for field '" ++ field ++ "'"
  | .alreadyStarted => "session already started"
  | .waitStopped token =>
    "wait for " ++ Token.describe token ++ " was stopped before a matching record arrived"

end DebugLink

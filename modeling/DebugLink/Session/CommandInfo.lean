import DebugLink.Token

/-! What anybody can ask of a command in view. -/

namespace DebugLink

/-- What the last result of a command said of it. -/
inductive CommandState where
  | pending
  | done
  | running
  | connected
  | error
  | exit
deriving DecidableEq, Repr, Inhabited

namespace CommandState

/-- The states that a result can bring about; the word is the class of the result. -/
def ofResult? : String → Option CommandState
  | "done" => some .done
  | "running" => some .running
  | "connected" => some .connected
  | "error" => some .error
  | "exit" => some .exit
  | _ => none

def name : CommandState → String
  | .pending => "pending"
  | .done => "done"
  | .running => "running"
  | .connected => "connected"
  | .error => "error"
  | .exit => "exit"

end CommandState

/-- What is told of a command in view. -/
structure CommandInfo where
  token : Token
  text : String
  state : CommandState
deriving DecidableEq, Repr

end DebugLink

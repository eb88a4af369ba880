import DebugLink.Breakpoint
import DebugLink.Record.Line
import DebugLink.Session.CommandInfo
import DebugLink.ThreadGroup

/-! What can be seen of a session from outside: handlers and subscribers being called, and
diagnostics. A session keeps its events in a journal, in the order in which they happen. -/

namespace DebugLink

/-- How much a diagnostic matters. -/
inductive Level where
  | debug
  | warning
deriving DecidableEq, Repr

/-- Something worth telling whoever watches over the session. None of it stops the session. -/
inductive Notice where
  | malformed (flaw : Malformed)
  /-- Text of a stream that nobody is there for, or the progress of a long command. -/
  | unattended (kind : Kind) (what : String)
  | ignored (message : Message)
  | failed (message : Message) (error : LinkError)
  /-- A breakpoint was inserted, but the result does not say under which number. -/
  | unnumbered (token : Token) (record : Record)
  | consoleUnhandled (token : Token) (what : String)
  | consoleUnclaimed (what : String)
  | resumeFailed (breakpoint : String) (error : LinkError)
  | sendFailed (token : Token) (text reason : String)
  | waitFailed (reason : String)
  | readFailed (reason : String)
  | waitStopped (target : Option Token)
deriving DecidableEq

namespace Notice

def level : Notice → Level
  | .unattended .. | .ignored .. | .consoleUnhandled .. | .consoleUnclaimed .. | .waitStopped .. =>
    .debug
  | _ => .warning

def message : Notice → String
  | .malformed flaw => flaw.message
  | .unattended kind what => kind.name ++ ": " ++ Text.literal what
  | .ignored m => "IGN: " ++ Token.describe m.token ++ " " ++ m.record.line
  | .failed m error =>
    "dispatch error for " ++ Token.describe m.token ++ " " ++ m.record.line ++ ": " ++ error.message
  | .unnumbered token record =>
    "breakpoint insert [" ++ token.text ++ "] finished without a number: " ++ record.line
  | .consoleUnhandled token what =>
    "CONSOLE[" ++ token.text ++ "] (no handler): " ++ Text.literal what
  | .consoleUnclaimed what => "CONSOLE (no command): " ++ Text.literal what
  | .resumeFailed breakpoint error =>
    "Failed to resume after breakpoint " ++ breakpoint ++ ": " ++ error.message
  | .sendFailed token text reason =>
    "Failed to send [" ++ token.text ++ "] " ++ text ++ ": " ++ reason
  | .waitFailed reason => "Failed to wait for debugger output: " ++ reason
  | .readFailed reason => "Failed to read debugger output: " ++ reason
  | .waitStopped target => "wait for " ++ Token.describe target ++ " stopped"

end Notice

/-- One step of a handler, with how it came out. -/
inductive Deed where
  | sent (outcome : Except LinkError Token)
  | forgot (wasTracked : Bool)
  | askedToStop
  /-- It has looked at the connection and at the commands in view, which it found to be so. -/
  | looked (closed : Bool) (commands : List CommandInfo)

/-- An entry of the tables, as it is after a change to it. -/
inductive Change where
  | breakpoint (b : Breakpoint)
  | threadGroup (g : ThreadGroup)
deriving DecidableEq

inductive Event where
  /-- A line was accepted as a record, whose effects follow. -/
  | received (message : Message)
  | noticed (notice : Notice)
  /-- A result was handed to the handler of its command. -/
  | result (token : Token) (record : Record)
  /-- Console text was handed to the handler of the latest command. -/
  | console (token : Token) (record : Record)
  /-- Console text was collected for the latest command. -/
  | collected (token : Token) (text : String)
  /-- A stop was handed to the handler of its breakpoint. -/
  | stop (handler : Option String) (number : UInt32) (args : Fields)
  /-- The handler called last has done something. -/
  | did (deed : Deed)
  /-- A change to the tables was told to a subscriber. -/
  | changed (subscriber : Nat) (change : Change)
  /-- A record was shown to a subscriber of its class. -/
  | shown (subscriber : Nat) (message : Message)

/-- Whether an event is one that handlers go through themselves: one of them is called, or does
something. The others are for whoever watches over the session. -/
def Event.isLived : Event → Bool
  | .received _ | .noticed _ | .collected _ _ => false
  | .result _ _ | .console _ _ | .stop _ _ _ | .did _ | .changed _ _ | .shown _ _ => true

end DebugLink

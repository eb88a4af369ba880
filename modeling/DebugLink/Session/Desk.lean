import DebugLink.Request
import DebugLink.Session.Reaction
import DebugLink.Sink

/-! The sending side of a session, which its caller and its handlers share: the tokens given out,
the commands in view, the sink, and the request to stop waiting. Nothing else is within a
handler's reach. -/

namespace DebugLink

/-- A command that was sent and not yet forgotten. -/
structure Command where
  text : String
  state : CommandState := .pending
  onResult : OnResult Reaction := .nothing
  onConsole : Option (OnConsole Reaction) := none

def Command.info (token : Token) (c : Command) : CommandInfo := ⟨token, c.text, c.state⟩

structure Desk where
  /-- How many tokens have been given out. Their numbers count them, as far as 64 bits go. -/
  issued : Nat := 0
  commands : Dict Token Command := ∅
  sink : Sink := {}
  /-- The debugger can no longer be reached. -/
  closed : Bool := false
  stopRequested : Bool := false
  journal : Array Event := #[]
  /-- What handlers have gone through, from the latest on: the part of the journal that they can go
  by. -/
  memory : List Event := []

namespace Desk

def log (d : Desk) (e : Event) : Desk :=
  { d with
    journal := d.journal.push e
    memory := if e.isLived then e :: d.memory else d.memory }

def notice (d : Desk) (n : Notice) : Desk := d.log (.noticed n)

/-- The token of the next command. -/
def nextToken (d : Desk) : Token := .ofNumber (d.issued + 1)

def view (d : Desk) : View where
  closed := d.closed
  commands := d.commands.entries.map fun (token, c) => c.info token
  past := d.memory

/-- The line that carries a command. -/
def commandLine (token : Token) (text : String) : String := token.text ++ text ++ "\n"

/-- Sends a command under the next token. The command comes into view before it is written, since a
result must not come too early for it. The token is spent even if the write fails; a failure takes
the command out of view again and is the end of the connection. -/
def send (d : Desk) (text : String) (onResult : OnResult Reaction)
    (onConsole : Option (OnConsole Reaction)) : Except LinkError Token × Desk :=
  if d.closed then (.error .closed, d)
  else
    let token := d.nextToken
    let commands := d.commands.insert token ⟨text, .pending, onResult, onConsole⟩
    match d.sink.write (Utf8.encode (commandLine token text)) with
    | (none, sink) => (.ok token, { d with issued := d.issued + 1, sink, commands })
    | (some failure, sink) =>
      (.error .closed, { d with
        issued := d.issued + 1
        sink
        commands := commands.erase token
        closed := true }.notice (.sendFailed token text failure.message))

/-- Takes a command out of view, and says whether it was in view. -/
def forget (d : Desk) (token : Token) : Bool × Desk :=
  (d.commands.contains token, { d with commands := d.commands.erase token })

def requestStop (d : Desk) : Desk := { d with stopRequested := true }

/-- Does what a handler does, step by step. -/
def perform : Reaction → Desk → Desk
  | .done, d => d
  | .send text onResult onConsole next, d =>
    let (outcome, d) := d.send text onResult onConsole
    perform (next outcome) (d.log (.did (.sent outcome)))
  | .forget token next, d =>
    let (tracked, d) := d.forget token
    perform (next tracked) (d.log (.did (.forgot tracked)))
  | .stop next, d => perform next (d.requestStop.log (.did .askedToStop))
  | .look next, d => perform (next d.view) (d.log (.did (.looked d.view.closed d.view.commands)))

def setState (d : Desk) (token : Token) (state : CommandState) : Desk :=
  { d with commands := d.commands.modify token fun c => { c with state } }

/-- Nothing more is to happen when the command has a result. -/
def clearOnResult (d : Desk) (token : Token) : Desk :=
  { d with commands := d.commands.modify token fun c => { c with onResult := .nothing } }

/-- Gives a command back what was to happen when it has a result, if it is still in view and nothing
else is to happen by now. -/
def restoreOnResult (d : Desk) (token : Token) (onResult : OnResult Reaction) : Desk :=
  { d with commands := d.commands.modify token fun c =>
      match c.onResult with
      | .nothing => { c with onResult }
      | _ => c }

/-- Console text no longer concerns the command. -/
def clearOnConsole (d : Desk) (token : Token) : Desk :=
  { d with commands := d.commands.modify token fun c => { c with onConsole := none } }

/-- Console text concerns a command again, if the command is still in view. -/
def restoreOnConsole (d : Desk) (token : Token) (onConsole : OnConsole Reaction) : Desk :=
  { d with commands := d.commands.modify token fun c =>
      { c with onConsole := c.onConsole.or (some onConsole) } }

/-- Sends a command that only needs its result handled, if even that. -/
def sendPlain (d : Desk) (text : String) (onResult : OnResult Reaction := .nothing) :
    Except LinkError Token × Desk := d.send text onResult none

/-- Inserts a breakpoint whose stops are to belong to a handler. -/
def addBreakpoint (d : Desk) (location : String) (handler : Option (StopHandler Reaction)) :
    Except LinkError Token × Desk := d.sendPlain ("-break-insert " ++ location) (.install handler)

def insertBreakpoint (d : Desk) (location : String) (onResult : OnResult Reaction := .nothing) :
    Except LinkError Token × Desk := d.sendPlain ("-break-insert " ++ location) onResult

def resume (d : Desk) (onResult : OnResult Reaction := .nothing) : Except LinkError Token × Desk :=
  d.sendPlain "-exec-continue" onResult

def run (d : Desk) (onResult : OnResult Reaction := .nothing) : Except LinkError Token × Desk :=
  d.sendPlain "-exec-run" onResult

/-- Returns from the current function, with a value if one is given. -/
def finish (d : Desk) (value : Option String) (onResult : OnResult Reaction := .nothing) :
    Except LinkError Token × Desk :=
  d.sendPlain (match value with
    | some v => "-exec-return " ++ v
    | none => "-exec-return") onResult

def interrupt (d : Desk) (onResult : OnResult Reaction := .nothing) :
    Except LinkError Token × Desk := d.sendPlain "-exec-interrupt" onResult

def request (d : Desk) (r : Request) (onResult : OnResult Reaction := .nothing) :
    Except LinkError Token × Desk := d.sendPlain r.text onResult

end Desk

end DebugLink

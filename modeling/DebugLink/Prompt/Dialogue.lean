import DebugLink.Prompt.Instruction
import DebugLink.Prompt.Screen
import DebugLink.Prompt.World

/-! A dialogue between a person at the prompt and a session, as a function of what the line editor
answers and of what happens meanwhile. What happens in the session is shown as soon as the session
has been asked for anything. -/

namespace DebugLink.Prompt

/-- How a dialogue goes on. -/
inductive Course where
  | goesOn
  /-- The program is over, with this exit code. -/
  | ended (code : Nat)
  /-- The program still waits for an answer. -/
  | stuck
deriving DecidableEq, Repr

structure Dialogue where
  session : Session
  screen : Screen := {}
  /-- How much of what has happened in the session has been shown. -/
  shown : Nat := 0
  /-- How many moments are over. -/
  moment : Nat := 0
  /-- The debugger was started by the program and not just connected to. -/
  started : Bool := false

namespace Dialogue

def print (d : Dialogue) (lines : List String) : Dialogue :=
  { d with screen := d.screen.printLines lines }

def complain (d : Dialogue) (reason : String) : Dialogue :=
  { d with screen := d.screen.complain reason }

/-- Puts a later state of the session in place and shows what has happened up to it. -/
def follow (d : Dialogue) (s : Session) : Dialogue :=
  { d with
    session := s
    screen := s.desk.journal.foldl Screen.showEvent d.screen d.shown
    shown := s.desk.journal.size
    moment := d.moment + 1 }

variable (world : World)

/-- What comes of asking for something now. -/
def now (d : Dialogue) : Moment := world d.moment

/-- Reads what is there, and says how many records it was. -/
def pump (d : Dialogue) : Nat × Dialogue :=
  let (got, s) := (d.now world).read d.session
  (got.length, d.follow s)

/-- Waits for the result of a command, and shows what has come along with it. -/
def awaitResult (d : Dialogue) (token : Token) : Bool × Dialogue :=
  match (d.now world).await token d.session with
  | (.found, s) => (true, ((d.follow s).pump world).2)
  | (_, s) =>
    (false, (d.follow s).print
      ["No result for [" ++ token.text ++ "] yet; use 'pump' to read more"])

/-- Sends a command; if that succeeds, goes on with its token. -/
def sending (d : Dialogue) (send : Desk → Except LinkError Token × Desk)
    (next : Dialogue → Token → Dialogue) : Dialogue :=
  match d.session.atDesk send with
  | (.ok token, s) => next (d.follow s) token
  | (.error e, s) => (d.follow s).complain e.message

/-- Sends a command and waits for its result. -/
def exchange (d : Dialogue) (send : Desk → Except LinkError Token × Desk) : Dialogue :=
  d.sending send fun d token => (d.awaitResult world token).2

/-- Stops at a breakpoint set here are shown; nothing else comes of them. -/
def reportStop : StopHandler Reaction := ⟨none, fun _ _ => .done⟩

def setBreakpoint (d : Dialogue) (location : String) : Dialogue :=
  d.sending (·.addBreakpoint location (some reportStop)) fun d token =>
    match d.awaitResult world token with
    | (false, d) => d
    | (true, d) =>
      if ((d.session.desk.commands.find? token).map Command.state) = some .done then
        d.print ["Breakpoint set at '" ++ location ++ "'"]
      else d.print ["Breakpoint not set at '" ++ location ++ "'"]

/-- Interrupts the target. A debugger that was started here gets a signal instead of a command,
since it may not listen while the target runs. -/
def interrupt (d : Dialogue) : Dialogue :=
  if d.started then
    match (d.now world).signal d.session with
    | .error reason => d.complain reason
    | .ok (source, sink) =>
      let s := { d.session with source }.withDesk { d.session.desk with sink }
      (({ d with session := s } : Dialogue).pump world).2
  else d.exchange world (·.interrupt)

def ask (d : Dialogue) (query : String) : Course × Dialogue :=
  match (d.now world).ask query d.session with
  | (.text text, s) =>
    (.goesOn, if text.isEmpty then (d.follow s).print ["(no console output)"] else d.follow s)
  | (.failed e, s) => (.goesOn, (d.follow s).complain e.message)
  | (.blocked, s) => (.stuck, d.follow s)

/-- Opens a terminal for the target. -/
def redirect (d : Dialogue) : Dialogue :=
  match (d.now world).terminal with
  | .error reason => d.complain reason
  | .ok terminal =>
    d.sending (·.sendPlain ("-inferior-tty-set " ++ terminal.path)) fun d token =>
      ((d.print ["Inferior I/O redirected to " ++ terminal.path]).awaitResult world token).2

def forget (d : Dialogue) (token : Token) : Dialogue :=
  let (tracked, s) := d.session.atDesk (·.forget token)
  (d.follow s).print
    [(if tracked then "Forgot command [" else "No command [") ++ token.text ++ "]"]

/-- Does what an instruction asks for. -/
def obey (d : Dialogue) : Instruction → Course × Dialogue
  | .raw text => (.goesOn, d.exchange world (·.sendPlain text))
  | .breakAt location => (.goesOn, d.setBreakpoint world location)
  | .resume => (.goesOn, d.exchange world (·.resume))
  | .run => (.goesOn, d.exchange world (·.run))
  | .finish value => (.goesOn, d.exchange world (·.finish value))
  | .interrupt => (.goesOn, d.interrupt world)
  | .console query => d.ask world query
  | .terminal => (.goesOn, d.redirect world)
  | .breakpoints =>
    (.goesOn, { d with screen := d.screen.showBreakpoints d.session.tracker.breakpoints.listing })
  | .threadGroups =>
    (.goesOn, { d with screen := d.screen.showThreadGroups d.session.tracker.threadGroups.listing })
  | .state => (.goesOn, { d with screen := d.screen.showState d.session })
  | .pump =>
    let (count, d) := d.pump world
    (.goesOn, d.print [Decimal.text count ++ " record(s) read"])
  | .forget token => (.goesOn, d.forget token)
  | .help => (.goesOn, d.print Screen.help)
  | .quit => (.ended 0, d.print ["Goodbye!"])

/-- Does what a line asks for, if it can be told. -/
def heed (d : Dialogue) (line : String) : Course × Dialogue :=
  match Instruction.ofLine line with
  | some instruction => d.obey world instruction
  | none =>
    (.goesOn,
      d.print ["Unknown command: " ++ line, "Type 'help' for available commands."])

/-- Has the far end as it is now. -/
def catchUp (d : Dialogue) : Dialogue :=
  d.follow { d.session with source := (d.now world).farEnd d.session }

/-- Does what a line asks for, and ends with the debugger. -/
def obeyLine (d : Dialogue) (line : String) : Course × Dialogue :=
  match d.heed world line with
  | (.goesOn, d) =>
    let d := d.catchUp world
    if d.session.isRunning then (.goesOn, d) else (.ended 0, d.print ["Debugger exited"])
  | (course, d) => (course, d)

/-- Asks for a line. -/
def prompt (d : Dialogue) : Dialogue := { d with screen := d.screen.print "(gdbmi) " }

/-- Asks for one line after the other until the dialogue is over. Blank lines ask for nothing. When
the answers are used up, the next one is still asked for. -/
def converse (d : Dialogue) : List Entry → Course × Dialogue
  | [] => (.goesOn, d.prompt)
  | .line typed unkept :: entries =>
    let line := Text.trim typed
    if line.isEmpty then converse d.prompt entries
    else
      match unkept with
      | some reason => (.ended 1, d.prompt.complain reason)
      | none =>
        match d.prompt.obeyLine world line with
        | (.goesOn, d) => converse d entries
        | (course, d) => (course, d)
  | .interrupted :: _ => (.ended 0, d.prompt.print ["CTRL-C"])
  | .ended :: _ => (.ended 0, d.prompt.print ["CTRL-D"])
  | .failed reason :: _ => (.ended 0, d.prompt.complain reason)

/-- Shows every record from now on. -/
def watch (d : Dialogue) : Dialogue :=
  { d with
    session := { d.session with
      tracker := Kind.all.foldl (fun t kind => (t.onRecord kind fun _ => .done).2)
        d.session.tracker } }

/-- What is done before there is a line editor. -/
def greet (d : Dialogue) : Dialogue :=
  (d.print [""]).watch.print ["Type 'help' for available commands, 'quit' to exit.", ""]

/-- What is done before the first line is asked for. -/
def opening (d : Dialogue) : Dialogue := (d.greet.pump world).2

/-- A dialogue from the moment at which the debugger is there, with what the line editor answers, or
with the reason that there is none. -/
def hold (d : Dialogue) : Except String (List Entry) → Course × Dialogue
  | .error reason => (.ended 1, d.greet.complain reason)
  | .ok entries => (d.opening world).converse world entries

end Dialogue

end DebugLink.Prompt

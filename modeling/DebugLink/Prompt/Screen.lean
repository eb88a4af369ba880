import DebugLink.Session.Basic

/-! What a person at the prompt sees: ordinary output and, apart from it, the debugger's own
messages and errors. Records appear as they arrive, streams as bare text. -/

namespace DebugLink.Prompt

structure Screen where
  out : String := ""
  err : String := ""
deriving DecidableEq, Repr, Inhabited

namespace Screen

def print (s : Screen) (text : String) : Screen := { s with out := s.out ++ text }

def printLine (s : Screen) (text : String) : Screen := s.print (text ++ "\n")

def printLines (s : Screen) (lines : List String) : Screen := lines.foldl printLine s

def printError (s : Screen) (text : String) : Screen := { s with err := s.err ++ text }

def complain (s : Screen) (reason : String) : Screen := s.printError ("Error: " ++ reason ++ "\n")

/-- A record as it arrives. The end of an answer shows nothing. -/
def showMessage (s : Screen) (m : Message) : Screen :=
  match m.record.kind with
  | .consoleStream | .targetStream => s.print m.record.what
  | .logStream => s.printError m.record.what
  | .terminator => s
  | _ => s.printLine m.line

/-- The function in which the target stopped. -/
def stopFunction (args : Fields) : String :=
  (((Entries.find? "frame" args).bind (·.get? "func")).bind Value.text?).getD "??"

def showStop (s : Screen) (number : UInt32) (args : Fields) : Screen :=
  s.printLines ["",
    "Breakpoint " ++ Decimal.text number.toNat ++ " hit in " ++ stopFunction args]

/-- Of what happens in a session, records and stops are shown. -/
def showEvent (s : Screen) : Event → Screen
  | .shown _ m => s.showMessage m
  | .stop _ number args => s.showStop number args
  | _ => s

/-- The place of a breakpoint, as well as it is known. -/
def place (b : Breakpoint) : String :=
  ((b.field? "original-location").or ((b.field? "func").or (b.field? "addr"))).getD "??"

def breakpointLine (b : Breakpoint) : String :=
  "  " ++ b.number ++ ". " ++ place b ++ " (" ++ (if b.isEnabled then "enabled" else "disabled") ++
    ", hits: " ++ Decimal.text (b.hits?.getD 0).toNat ++ ")"

def showBreakpoints (s : Screen) : List Breakpoint → Screen
  | [] => s.printLine "No breakpoints"
  | bs => s.printLines
    (("Breakpoints (" ++ Decimal.text bs.length ++ " found):") :: bs.map breakpointLine)

def threadGroupLine (g : ThreadGroup) : String :=
  "  " ++ g.id ++ " (" ++
    (match g.pid with
      | some pid => "pid " ++ Decimal.text pid.toNat
      | none => "not started") ++
    ", threads: " ++ Decimal.text g.threads.size ++
    ", libraries: " ++ Decimal.text g.libraries.size ++ ")"

def showThreadGroups (s : Screen) : List ThreadGroup → Screen
  | [] => s.printLine "No thread groups"
  | gs => s.printLines
    (("Thread groups (" ++ Decimal.text gs.length ++ " found):") :: gs.map threadGroupLine)

def commandLine (entry : Token × Command) : String :=
  "  [" ++ entry.1.text ++ "] " ++ entry.2.text ++ " (" ++ entry.2.state.name ++ ")"

def yesNo (b : Bool) : String := if b then "true" else "false"

def showState (screen : Screen) (s : Session) : Screen :=
  let commands := s.desk.commands.entries
  screen.printLines
    (["Execution state: " ++ (s.tracker.execState.map ExecState.text).getD "unknown",
      "Started: " ++ yesNo s.attached,
      "Debugger running: " ++ yesNo s.isRunning,
      "Tracked commands (" ++ Decimal.text commands.length ++ "):"] ++ commands.map commandLine)

def title : List String := ["gdbmi - GDB/MI session driver", "Version 0.1.0", ""]

def help : List String :=
  ["Available commands:",
    "",
    "  help           - Show this help message",
    "  quit/exit/q    - Exit",
    "",
    "Execution commands:",
    "  run (r)        - Run the program",
    "  continue (c)   - Continue execution",
    "  return [value] - Return from the current function",
    "  interrupt      - Interrupt the running target",
    "  break <loc>    - Set breakpoint and report hits",
    "",
    "Session commands:",
    "  -<mi command>  - Send an MI command verbatim",
    "  console <cmd>  - Run a CLI command and show its output",
    "  tty            - Redirect program I/O to a new pseudo-terminal",
    "  breakpoints    - List breakpoints",
    "  groups         - List thread groups",
    "  state          - Show execution state and tracked commands",
    "  pump (p)       - Read pending debugger output",
    "  forget <token> - Stop tracking a command",
    "",
    "Examples:",
    "  break main",
    "  -data-evaluate-expression argc",
    "  console info registers"]

end Screen

end DebugLink.Prompt

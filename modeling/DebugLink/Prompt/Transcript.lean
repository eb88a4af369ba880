import DebugLink.Launch
import DebugLink.Prompt.Address
import DebugLink.Prompt.Dialogue

/-! One run of the program, from what it was called with to its end, and what is left of it: how it
ended, what was shown, and what the debugger got to hear. -/

namespace DebugLink.Prompt

/-- What a session is to be held with. -/
inductive Target where
  | run (program debugger interpreter : String) (args : List String)
  | connect (address : String)
deriving DecidableEq, Repr

/-- What the program is called with. -/
structure Invocation where
  stopAtBreakpoints : Bool := false
  target : Target
deriving DecidableEq, Repr

/-- What leads from a debugger and to it. -/
structure Connection where
  source : Source
  sink : Sink := {}
deriving DecidableEq, Repr

/-- What the program finds around it. -/
structure Surroundings where
  /-- The debugger that can be reached, if one can. -/
  debugger : Option Connection := none
  /-- The process number that a debugger gets when it is started. -/
  pid : Nat := 1
  files : FileTree := {}
  world : World
  /-- What the line editor answers, or why there is none. -/
  editor : Except String (List Entry)

/-- What is left of a run of the program. -/
structure Transcript where
  course : Course
  screen : Screen
  /-- What the debugger was started with, if it was started. -/
  launch : Option Launch := none
  /-- The lines that the debugger received, if there was one. -/
  received : Option (List String) := none

namespace Transcript

def ofDialogue (launch : Option Launch) : Course × Dialogue → Transcript
  | (course, d) => ⟨course, d.screen, launch, some d.session.desk.sink.lines⟩

/-- A program that ends before there is a debugger. -/
def failed (screen : Screen) (reason : String) : Transcript :=
  { course := .ended 1, screen := screen.complain reason }

end Transcript

/-- Hands the arguments of the program on to the debugger. -/
def handOver (world : World) (d : Dialogue) (args : List String) : Except LinkError Dialogue :=
  if args.isEmpty then .ok d
  else
    match d.session.atDesk (·.sendPlain ("-exec-arguments " ++ " ".intercalate args)) with
    | (.error e, _) => .error e
    | (.ok token, s) =>
      let d := d.follow s
      .ok (d.follow ((d.now world).await token d.session).2)

def Connection.session (c : Connection) (settings : Settings) : Session :=
  .connect c.source c.sink settings

/-- Holds a session with a debugger that is started for the purpose. -/
def runWith (around : Surroundings) (settings : Settings) (launch : Launch) (program : String)
    (args : List String) : Transcript :=
  let screen := ({} : Screen).printLines (Screen.title ++ ["Loading program: " ++ program])
  match around.debugger with
  | none => .failed screen
      ("Failed to spawn '" ++ launch.debugger ++ "': " ++
        (around.files.refusalToStart launch.debugger).message)
  | some connection =>
    let d : Dialogue := {
      session := connection.session settings
      screen := screen.printLine ("Debugger started (pid " ++ Decimal.text around.pid ++ ")")
      started := true }
    match handOver around.world d args with
    | .error e => { Transcript.failed d.screen e.message with launch := some launch }
    | .ok d => .ofDialogue (some launch) (d.hold around.world around.editor)

/-- A dialogue with a debugger that listens at an address, as it begins. -/
def Connection.dialogue (c : Connection) (settings : Settings) (address : String) : Dialogue where
  session := c.session settings
  screen := (({} : Screen).printLines Screen.title).printLine ("Connected to " ++ address)

/-- Holds a session with a debugger that listens at an address. -/
def connectTo (around : Surroundings) (settings : Settings) (address : String) : Transcript :=
  let screen := ({} : Screen).printLines Screen.title
  match Address.ofText address, around.debugger with
  | .error flaw, _ => .failed screen flaw.message
  | .ok place, none => .failed screen (place.flaw around.files).message
  | .ok _, some connection =>
    .ofDialogue none ((connection.dialogue settings address).hold around.world around.editor)

/-- One run of the program. -/
def run (around : Surroundings) (invocation : Invocation) : Transcript :=
  let settings : Settings := { resumes := !invocation.stopAtBreakpoints }
  match invocation.target with
  | .run program debugger interpreter args =>
    runWith around settings { debugger, interpreter, program := some program } program args
  | .connect address => connectTo around settings address

end DebugLink.Prompt

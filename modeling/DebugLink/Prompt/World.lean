import DebugLink.Decimal
import DebugLink.Session.Basic

/-! What a dialogue depends on and does not do itself. It asks a line editor for lines, and it goes by
what the debugger and the operating system do meanwhile. The lines are listed in the order in which
they are asked for. Everything else is told moment by moment, and a moment is over whenever something
has been done with the session: so what comes of reading, or of opening a terminal, can be another
thing each time, though nothing else may have changed. -/

namespace DebugLink.Prompt

/-- What a line editor answers when it is asked for a line. -/
inductive Entry where
  /-- A line, and why it could not be kept for later if it could not. -/
  | line (typed : String) (unkept : Option String := none)
  | interrupted
  /-- There are no more lines. -/
  | ended
  | failed (reason : String)
deriving DecidableEq, Repr

/-- A terminal, by the process that has opened it and the number it has there. -/
structure Terminal where
  process : Nat
  descriptor : Nat
deriving DecidableEq, Repr

/-- The path at which others find it, while it is open. -/
def Terminal.path (t : Terminal) : String :=
  "/proc/" ++ Decimal.text t.process ++ "/fd/" ++ Decimal.text t.descriptor

/-- How long the result of an instruction is waited for, in milliseconds. -/
def resultTime : Nat := 5000

/-- What would come of each thing that can be asked for at this moment. Where nothing interferes, a
session goes about it by itself. -/
structure Moment where
  /-- Everything is read that can be. -/
  read : Session → List Message × Session := Session.read
  /-- The result of a command is waited for. -/
  await : Token → Session → WaitEnd × Session :=
    fun token s => s.waitForAtMost (some token) resultTime
  /-- Console text is asked for. -/
  ask : String → Session → Session.Answer × Session := fun query s => s.ask query
  /-- What is at the far end by now. -/
  farEnd : Session → Source := Session.source
  /-- A debugger that was started here gets a signal. This is what leads from it and to it then, or
  why it does not get one. -/
  signal : Session → Except String (Source × Sink) := fun s => .ok (s.source, s.desk.sink)
  /-- A terminal is opened. -/
  terminal : Except String Terminal

/-- All moments, in order. -/
abbrev World := Nat → Moment

end DebugLink.Prompt

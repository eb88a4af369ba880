/-! How a debugger is started. -/

namespace DebugLink

structure Launch where
  debugger : String := "gdb"
  interpreter : String := "mi2"
  program : Option String := none
  extra : List String := []
deriving DecidableEq, Repr

namespace Launch

/-- What every debugger is told: to pass on its program's result, to start without a greeting and
without its start-up files, and to open no window. -/
def fixedArguments : List String := ["--return-child-result", "--quiet", "--nx", "--nw"]

/-- The arguments that the debugger is started with. -/
def arguments (l : Launch) : List String :=
  fixedArguments ++ ["--interpreter=" ++ l.interpreter] ++ l.extra ++ l.program.toList

end Launch

end DebugLink

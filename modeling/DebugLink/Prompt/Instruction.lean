import DebugLink.Token
import DebugLink.Text.Blank

/-! What a person at the prompt can ask for. A line that begins with a dash goes to the debugger
as it is; any other is a word, possibly short, and what follows it. -/

namespace DebugLink.Prompt

inductive Instruction where
  | raw (text : String)
  | breakAt (location : String)
  | resume
  | run
  | finish (value : Option String)
  | interrupt
  | console (query : String)
  | terminal
  | breakpoints
  | threadGroups
  | state
  | pump
  | forget (token : Token)
  | help
  | quit
deriving DecidableEq, Repr

namespace Instruction

/-- An instruction that needs something after its word. -/
def needing (f : String → Instruction) : List String → Option Instruction
  | [] => none
  | rest => some (f (" ".intercalate rest))

/-- The token named by the first word. -/
def forgetting : List String → Option Instruction
  | [] => none
  | t :: _ => (Token.ofText t).toOption.map .forget

def ofWords : List String → Option Instruction
  | [] => none
  | word :: rest =>
    match word with
    | "break" | "b" => needing .breakAt rest
    | "continue" | "c" => some .resume
    | "run" | "r" => some .run
    | "return" => some (.finish (if rest.isEmpty then none else some (" ".intercalate rest)))
    | "interrupt" | "int" => some .interrupt
    | "console" | "cli" => needing .console rest
    | "tty" => some .terminal
    | "breakpoints" | "bps" => some .breakpoints
    | "groups" => some .threadGroups
    | "state" => some .state
    | "pump" | "p" => some .pump
    | "forget" => forgetting rest
    | "help" | "h" | "?" => some .help
    | "quit" | "q" | "exit" => some .quit
    | _ => none

/-- The instruction that a line gives, if it gives one. -/
def ofLine (line : String) : Option Instruction :=
  match Text.trimChars line.toList with
  | '-' :: cs => some (.raw (String.ofList ('-' :: cs)))
  | cs => ofWords (Text.wordsFrom [] cs)

end Instruction

end DebugLink.Prompt

import DebugLink.LinkError
import DebugLink.Session.Event

/-! What handlers do. A handler is called with what happened and answers with a reaction: a
program of sends, forgets, requests to stop and looks around, each step of which may depend on how
the one before it came out.

A handler may keep things between its calls, and share them with other handlers. What it keeps is
made of what handlers have gone through, so it is not kept apart: a look around shows all of that.
The call that is going on has its place there, so no two calls see the same, and a handler can do
something else at each of its calls, be they equal otherwise.

A reaction can carry handlers for the commands that it sends, so the kinds of handlers are stated
over an arbitrary type of reactions first. -/

namespace DebugLink

/-- What a handler can go by, apart from what it is called with. -/
structure View where
  closed : Bool
  /-- The commands in view, in the order of their tokens. -/
  commands : List CommandInfo
  /-- What handlers have gone through, from the latest on. -/
  past : List Event

/-- A handler for stops at a breakpoint, called with the number and the arguments of the record
that reported the stop. -/
structure StopHandler (ρ : Type) where
  /-- What events call it, if it has a name. -/
  name : Option String
  react : UInt32 → Fields → ρ

/-- What is to happen when a command has a result. -/
inductive OnResult (ρ : Type) where
  | nothing
  /-- Every result is handed on. -/
  | call (react : Token → Record → ρ)
  /-- The first result tells the number of a breakpoint, whose stops then belong to the handler, or
  to no handler if there is none. -/
  | install (handler : Option (StopHandler ρ))

/-- What is to happen with console text while a command is the latest. -/
inductive OnConsole (ρ : Type) where
  | call (react : Token → Record → ρ)
  /-- The text is collected for a caller who waits for it. -/
  | collect

/-- What a handler does. -/
inductive Reaction where
  | done
  | send (text : String) (onResult : OnResult Reaction) (onConsole : Option (OnConsole Reaction))
      (next : Except LinkError Token → Reaction)
  | forget (token : Token) (next : Bool → Reaction)
  /-- The wait that is going on, or else the next one, is to end. -/
  | stop (next : Reaction)
  | look (next : View → Reaction)

instance : Inhabited Reaction := ⟨.done⟩

instance : Inhabited (OnResult Reaction) := ⟨.nothing⟩

end DebugLink

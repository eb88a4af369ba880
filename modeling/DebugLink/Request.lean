/-! Machine-interface commands put together from parts: a name, options, and parameters behind a
separator that is written only when there are parameters. -/

namespace DebugLink

structure Request where
  name : String
  options : List String := []
  parameters : List String := []
deriving DecidableEq, Repr

namespace Request

def withOption (r : Request) (option : String) : Request :=
  { r with options := r.options ++ [option] }

def withParameter (r : Request) (parameter : String) : Request :=
  { r with parameters := r.parameters ++ [parameter] }

/-- The words of a command as they are written. -/
def words (r : Request) : List String :=
  ("-" ++ r.name) :: r.options ++
    match r.parameters with
    | [] => []
    | ps => "--" :: ps

/-- The text of a command, its words separated by single spaces. -/
def text (r : Request) : String := " ".intercalate r.words

end Request

end DebugLink

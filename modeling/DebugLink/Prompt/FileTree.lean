import DebugLink.Text.Utf8

/-! What paths lead to, as far as the program asks. It looks for nothing but debuggers, so of the
file system only those directories and files are known that are none. -/

namespace DebugLink.Prompt

/-- Why the operating system refuses what it is asked for. -/
inductive Refusal where
  | absent
  | denied
  | notDirectory
  | invalid
  | longName
  /-- Nobody listens there. -/
  | unheard
deriving DecidableEq, Repr

def Refusal.message : Refusal → String
  | .absent => "No such file or directory (os error 2)"
  | .denied => "Permission denied (os error 13)"
  | .notDirectory => "Not a directory (os error 20)"
  | .invalid => "Invalid argument (os error 22)"
  | .longName => "File name too long (os error 36)"
  | .unheard => "Connection refused (os error 111)"

/-- What a path leads to. -/
inductive Place where
  /-- A directory, by the names that lead to it from the root. -/
  | directory (names : List String)
  | file
  | nowhere (refusal : Refusal)
deriving DecidableEq, Repr

/-- The part of a file system that is known: each directory and each file by the names that lead to
it from the root, and two directories that paths can begin in. -/
structure FileTree where
  directories : List (List String) :=
    [["bin"], ["boot"], ["dev"], ["etc"], ["home"], ["lib"], ["lib64"], ["media"], ["mnt"], ["opt"],
      ["proc"], ["root"], ["run"], ["sbin"], ["srv"], ["sys"], ["tmp"], ["usr"], ["usr", "bin"],
      ["usr", "include"], ["usr", "lib"], ["usr", "local"], ["usr", "local", "bin"],
      ["usr", "local", "lib"], ["usr", "sbin"], ["usr", "share"], ["usr", "src"], ["var"],
      ["var", "cache"], ["var", "lib"], ["var", "log"], ["var", "tmp"]]
  files : List (List String) :=
    [["dev", "null"], ["dev", "zero"], ["dev", "full"], ["dev", "random"], ["dev", "urandom"],
      ["dev", "tty"], ["etc", "passwd"], ["etc", "group"], ["etc", "hosts"], ["etc", "hostname"],
      ["etc", "resolv.conf"]]
  /-- Where programs are looked for that are named without a path. -/
  programs : List String := ["usr", "bin"]
  /-- Where a path begins that does not begin at the root. -/
  here : List String := ["tmp"]
deriving DecidableEq, Repr, Inhabited

/-- The names in the characters of a path, the first one begun with `name`. -/
def namesFrom (name : List Char) : List Char → List String
  | [] => [String.ofList name]
  | c :: cs => if c = '/' then String.ofList name :: namesFrom [] cs else namesFrom (name ++ [c]) cs

namespace FileTree

/-- The octets that a name in a path may have. -/
def nameLimit : Nat := 255

/-- The octets that a path must stay below. -/
def pathLimit : Nat := 4096

/-- Goes from a place to a name in it. -/
def enter (t : FileTree) (place : Place) (name : String) : Place :=
  match place with
  | .nowhere refusal => .nowhere refusal
  | .file => .nowhere .notDirectory
  | .directory names =>
    if name = "" ∨ name = "." then .directory names
    else if name = ".." then .directory names.dropLast
    else if nameLimit < Utf8.size name.toList then .nowhere .longName
    else if t.directories.contains (names ++ [name]) then .directory (names ++ [name])
    else if t.files.contains (names ++ [name]) then .file
    else .nowhere .absent

/-- What a path leads to that begins in `start` unless it begins at the root. -/
def find (t : FileTree) (start : List String) (path : String) : Place :=
  if path.isEmpty then .nowhere .absent
  else if pathLimit ≤ Utf8.size path.toList then .nowhere .longName
  else
    (namesFrom [] path.toList).foldl t.enter
      (.directory (if path.toList.head? = some '/' then [] else start))

/-- Why no program can be started from a path. A name without a path is looked for among the
programs. -/
def refusalToStart (t : FileTree) (path : String) : Refusal :=
  match t.find (if path.toList.contains '/' then t.here else t.programs) path with
  | .nowhere refusal => refusal
  | .directory _ | .file => .denied

/-- Why nobody can be reached at a path. -/
def refusalToConnect (t : FileTree) (path : String) : Refusal :=
  match t.find t.here path with
  | .nowhere refusal => refusal
  | .directory _ | .file => .unheard

end FileTree

end DebugLink.Prompt

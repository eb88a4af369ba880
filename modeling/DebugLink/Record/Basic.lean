import DebugLink.Token
import DebugLink.Value.Basic

/-! Records are what the debugger says: the result of a command, a notice of its own accord, text
for one of three streams, or the mark that it has finished answering. -/

namespace DebugLink

/-- The classes of records. -/
inductive Kind where
  | result
  | execAsync
  | statusAsync
  | notifyAsync
  | consoleStream
  | targetStream
  | logStream
  | terminator
deriving DecidableEq, Repr, Inhabited

namespace Kind

def all : List Kind :=
  [.result, .execAsync, .statusAsync, .notifyAsync, .consoleStream, .targetStream, .logStream,
    .terminator]

/-- The character in front of a record of this class. The terminator is a line of its own. -/
def marker? : Kind → Option Char
  | .result => some '^'
  | .execAsync => some '*'
  | .statusAsync => some '+'
  | .notifyAsync => some '='
  | .consoleStream => some '~'
  | .targetStream => some '@'
  | .logStream => some '&'
  | .terminator => none

def ofMarker? : Char → Option Kind
  | '^' => some .result
  | '*' => some .execAsync
  | '+' => some .statusAsync
  | '=' => some .notifyAsync
  | '~' => some .consoleStream
  | '@' => some .targetStream
  | '&' => some .logStream
  | _ => none

theorem ofMarker?_eq_some_iff {c : Char} {k : Kind} :
    ofMarker? c = some k ↔ k.marker? = some c := by
  constructor
  · intro h
    unfold ofMarker? at h
    split at h <;> simp_all <;> subst h <;> rfl
  · intro h
    cases k <;> simp [marker?] at h <;> subst h <;> rfl

/-- The records that carry one text and nothing else. -/
def isStream : Kind → Bool
  | .consoleStream | .targetStream | .logStream => true
  | _ => false

def name : Kind → String
  | .result => "result"
  | .execAsync => "exec-async"
  | .statusAsync => "status-async"
  | .notifyAsync => "notify-async"
  | .consoleStream => "console-stream"
  | .targetStream => "target-stream"
  | .logStream => "log-stream"
  | .terminator => "terminator"

end Kind

/-- One record: its class, what it says, and named arguments. A stream record says its whole text
and has no arguments. -/
structure Record where
  kind : Kind
  what : String
  args : Fields
deriving DecidableEq, Inhabited

namespace Record

def terminator : Record := ⟨.terminator, "", []⟩

def get? (r : Record) (key : String) : Option Value := Entries.find? key r.args

def text? (r : Record) (key : String) : Option String := r.args.text? key

end Record

/-- A record with the token of the command that it answers, if it carries one. -/
structure Message where
  token : Option Token
  record : Record
deriving DecidableEq, Inhabited

end DebugLink

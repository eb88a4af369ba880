import DebugLink.Text.Utf8

/-! Where a session writes. A sink keeps everything that went out. It may be good for a limited
number of writes only; later ones fail, and whether their octets still go out depends on where
the failure lies. -/

namespace DebugLink

/-- How a sink fails that is past its last write. -/
inductive SinkFailure where
  /-- The octets go out, but it is not known that they did. -/
  | unflushed
  /-- The other end has hung up: nothing goes out. -/
  | hungUp
deriving DecidableEq, Repr

def SinkFailure.message : SinkFailure → String
  | .unflushed => "sink failed"
  | .hungUp => "Broken pipe (os error 32)"

structure Sink where
  written : Octets := []
  /-- How many more writes succeed; no limit if there is none. -/
  remaining : Option Nat := none
  failure : SinkFailure := .unflushed
deriving DecidableEq, Repr, Inhabited

namespace Sink

def append (s : Sink) (octets : Octets) : Sink := { s with written := s.written ++ octets }

/-- Writes octets, and says what failed if something did. -/
def write (s : Sink) (octets : Octets) : Option SinkFailure × Sink :=
  match s.remaining, s.failure with
  | none, _ => (none, s.append octets)
  | some (n + 1), _ => (none, { s.append octets with remaining := some n })
  | some 0, .unflushed => (some .unflushed, s.append octets)
  | some 0, .hungUp => (some .hungUp, s)

/-- The other end hangs up. -/
def hangUp (s : Sink) : Sink := { s with remaining := some 0, failure := .hungUp }

/-- All that went out, as text. -/
def contents (s : Sink) : String := Utf8.decode s.written

/-- The lines of some characters; a line feed at the very end does not begin another. -/
def linesFrom (line : List Char) : List Char → List String
  | [] => if line.isEmpty then [] else [String.ofList line]
  | '\n' :: cs =>
    String.ofList (if line.getLast? = some '\r' then line.dropLast else line) :: linesFrom [] cs
  | c :: cs => linesFrom (line ++ [c]) cs

/-- All that went out, line by line. -/
def lines (s : Sink) : List String := linesFrom [] s.contents.toList

end Sink

end DebugLink

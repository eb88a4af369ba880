import DebugLink.Decimal
import DebugLink.Prompt.FileTree

/-! Addresses of debuggers that listen: a path behind `unix:`, or a host and, behind its last
colon, the number of one of its sockets. -/

namespace DebugLink.Prompt

inductive Address where
  | path (path : String)
  | socket (host : String) (number : Nat)
deriving DecidableEq, Repr

namespace Address

/-- Why an address cannot be connected to. -/
inductive Flaw where
  | noNumber
  | badNumber
  | nullInPath
  | longPath
  | unknownHost
  | refused (refusal : Refusal)
deriving DecidableEq, Repr

def Flaw.message : Flaw → String
  | .noNumber => "invalid socket address"
  | .badNumber => "invalid port value"
  | .nullInPath => "paths must not contain interior null bytes"
  | .longPath => "path must be shorter than SUN_LEN"
  | .unknownHost =>
    "failed to lookup address information: Temporary failure in name resolution"
  | .refused refusal => refusal.message

/-- The octets that a path must stay below. -/
def pathLimit : Nat := 108

def ofPath (path : String) : Except Flaw Address :=
  if path.isEmpty then .error (.refused .invalid)
  else if path.toList.contains '\x00' then .error .nullInPath
  else if pathLimit ≤ Utf8.size path.toList then .error .longPath
  else .ok (.path path)

/-- The characters before the last colon and those after it. -/
def splitLastColon (cs : List Char) : Option (List Char × List Char) :=
  match cs.reverse.dropWhile (· != ':') with
  | [] => none
  | _ :: host => some (host.reverse, (cs.reverse.takeWhile (· != ':')).reverse)

def ofHostAndNumber (cs : List Char) : Except Flaw Address :=
  match splitLastColon cs with
  | none => .error .noNumber
  | some (host, digits) =>
    match Decimal.readChars UInt16.size digits with
    | .ok n => .ok (.socket (String.ofList host) n)
    | .error _ => .error .badNumber

def ofText (s : String) : Except Flaw Address :=
  let mark := "unix:".toList
  if mark.isPrefixOf s.toList then ofPath (String.ofList (s.toList.drop mark.length))
  else ofHostAndNumber s.toList

/-- A host that is known without asking for it: the own one, and those given by number. -/
def isKnownHost (host : String) : Bool :=
  let cs := host.toList
  host == "localhost" || cs.contains ':' ||
    (cs.any Char.isDigit && cs.all fun c => c.isDigit || c = '.')

/-- The failure to find anyone at an address. -/
def flaw (files : FileTree) : Address → Flaw
  | .path place => .refused (files.refusalToConnect place)
  | .socket host _ => if isKnownHost host then .refused .unheard else .unknownHost

end Address

end DebugLink.Prompt

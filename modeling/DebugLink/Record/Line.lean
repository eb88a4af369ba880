import DebugLink.Record.Basic
import DebugLink.Text.Blank
import DebugLink.Text.Literal
import DebugLink.Value.Printer
import DebugLink.Value.Reader

/-! Records as lines. A line is a token, a marker for the class and the body: quoted text for a
stream record, otherwise what it says followed by `,key=value` for each argument. The terminator
is a fixed line that may end in blanks. A line that is none of this is malformed at the first
place where no continuation could mend it. -/

namespace DebugLink

/-- The line that ends an answer. -/
def terminatorText : String := "(gdb)"

/-- Why a line is no record. -/
inductive LineOffence where
  | tokenOutOfRange
  | markerUnknown
  | textAfterQuotes
  | value (offence : Value.Offence)
deriving DecidableEq, Repr

def LineOffence.message : LineOffence → String
  | .tokenOutOfRange => "token out of range"
  | .markerUnknown => "unknown record class marker"
  | .textAfterQuotes => "trailing data after stream text"
  | .value offence => offence.message

/-- A text that could not be read, with the octet at which it goes wrong. -/
structure Malformed where
  line : String
  position : Nat
  offence : LineOffence
deriving DecidableEq, Repr

def Malformed.message (m : Malformed) : String :=
  "malformed record at byte " ++ Decimal.text m.position ++ ": " ++ m.offence.message ++
    " (line: " ++ Text.literal m.line ++ ")"

/-- The failure to read a text of which `rest` was left when the offence showed. -/
def Malformed.at (line : String) (offence : LineOffence) (rest : List Char) : Malformed :=
  ⟨line, Utf8.size line.toList - Utf8.size rest, offence⟩

namespace Value

/-- Reads the beginning of a text and gives back what follows. -/
def readPrefix (reader : List Char → Except Reader.Failure (Value × List Char)) (s : String) :
    Except Malformed (Value × String) :=
  match reader s.toList with
  | .ok (v, rest) => .ok (v, String.ofList rest)
  | .error f => .error (.at s (.value f.offence) f.rest)

def ofText (s : String) : Except Malformed (Value × String) := readPrefix Reader.value s

def listOfText (s : String) : Except Malformed (Value × String) := readPrefix Reader.list s

def tupleOfText (s : String) : Except Malformed (Value × String) := readPrefix Reader.tuple s

end Value

namespace Record

/-- The arguments of a record as they follow what it says. -/
def argsChars : Fields → List Char
  | [] => []
  | args => ',' :: Value.fieldsChars args

/-- A record without its token. -/
def chars (r : Record) : List Char :=
  match r.kind.marker? with
  | none => terminatorText.toList
  | some marker =>
    if r.kind.isStream then marker :: Text.Quoted.chars r.what
    else marker :: (r.what.toList ++ argsChars r.args)

/-- The line of a record that carries no token. -/
def line (r : Record) : String := String.ofList r.chars

/-- Why a body is none, with the characters from the offending one on. -/
structure BodyFailure where
  offence : LineOffence
  rest : List Char

/-- The text of a stream record: one text in quotes and nothing after it. -/
def streamBody (kind : Kind) (body : List Char) : Except BodyFailure Record :=
  match Value.Reader.quoted body with
  | .error f => .error ⟨.value f.offence, f.rest⟩
  | .ok (v, []) => .ok ⟨kind, v.text?.getD "", []⟩
  | .ok (_, rest) => .error ⟨.textAfterQuotes, rest⟩

/-- What a record says, up to the first comma, and its arguments. -/
def plainBody (kind : Kind) (body : List Char) : Except BodyFailure Record :=
  match Value.Reader.arguments (body.dropWhile (· != ',')) with
  | .error f => .error ⟨.value f.offence, f.rest⟩
  | .ok (v, _) => .ok ⟨kind, String.ofList (body.takeWhile (· != ',')), v.fields?.getD []⟩

/-- What follows the marker. -/
def body (kind : Kind) (body : List Char) : Except BodyFailure Record :=
  if kind.isStream then streamBody kind body else plainBody kind body

end Record

namespace Message

/-- The token in front of a record. The terminator is written without. -/
def tokenChars (m : Message) : List Char :=
  match m.record.kind, m.token with
  | .terminator, _ => []
  | _, none => []
  | _, some t => t.chars

def chars (m : Message) : List Char := m.tokenChars ++ m.record.chars

/-- The line of a record, token included. -/
def line (m : Message) : String := String.ofList m.chars

/-- The token that leading digits stand for. -/
def readToken : List Char → Except Decimal.Flaw (Option Token)
  | [] => .ok none
  | digits => (Token.ofText (String.ofList digits)).map some

/-- Reads a line that is not the terminator. -/
def ofRecordLine (line : String) : Except Malformed Message :=
  let cs := line.toList
  let rest := cs.dropWhile Decimal.isDigit
  match readToken (cs.takeWhile Decimal.isDigit) with
  | .error _ => .error (.at line .tokenOutOfRange cs)
  | .ok token =>
    match rest with
    | [] => .error (.at line .markerUnknown [])
    | c :: body =>
      match Kind.ofMarker? c with
      | none => .error (.at line .markerUnknown rest)
      | some kind =>
        match Record.body kind body with
        | .error f => .error (.at line f.offence f.rest)
        | .ok record => .ok ⟨token, record⟩

/-- Reads a line. -/
def ofLine (line : String) : Except Malformed Message :=
  if Text.trimEnd line = terminatorText then .ok ⟨none, .terminator⟩ else ofRecordLine line

end Message

end DebugLink

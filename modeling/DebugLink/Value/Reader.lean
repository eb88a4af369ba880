import DebugLink.Value.Basic
import DebugLink.Text.Utf8

/-! Reading values one character at a time. The reader is in a mode and holds a stack of places
where the values still open belong; each character changes both, ends the value, or is the first
offence. Reading is therefore structural in the text: nothing is looked at twice, brackets may
nest to any depth, and what makes a text fail is known at the character where it fails. -/

namespace DebugLink.Value

/-- Why a text is no value. -/
inductive Offence where
  | valueMissing
  | valueExpected
  | quoteExpected
  | quoteOpen
  | escapeOpen
  | equalsExpected
  | keyEmpty
  | braceExpected
  | braceOpen
  | fieldEndExpected
  | bracketExpected
  | bracketOpen
  | itemEndExpected
  | commaExpected
deriving DecidableEq, Repr

def Offence.message : Offence → String
  | .valueMissing => "expected value, found end of input"
  | .valueExpected => "expected '\"', '[' or '\x7b'"
  | .quoteExpected => "expected '\"'"
  | .quoteOpen => "unterminated string"
  | .escapeOpen => "unterminated escape sequence"
  | .equalsExpected => "expected '=' after key"
  | .keyEmpty => "empty key"
  | .braceExpected => "expected '\x7b'"
  | .braceOpen => "unbalanced '\x7b'"
  | .fieldEndExpected => "expected ',' or '\x7d'"
  | .bracketExpected => "expected '['"
  | .bracketOpen => "unbalanced '['"
  | .itemEndExpected => "expected ',' or ']'"
  | .commaExpected => "expected ','"

namespace Reader

/-- A group of entries that is open, with what has been read of it. -/
inductive Group where
  /-- Between square brackets. -/
  | list (items : Array Value)
  /-- Between braces. -/
  | tuple (fields : Fields)
  /-- The arguments of a record: a tuple without braces, which the end of the text closes. -/
  | arguments (fields : Fields)

/-- Where the value being read belongs. -/
inductive Place where
  /-- It is the next element of a list. -/
  | item (items : Array Value)
  /-- It stands under a key in a group. -/
  | keyed (group : Group) (key : String)

/-- What the reader is in the middle of. -/
inductive Mode where
  /-- A value must begin. -/
  | value
  /-- Inside quotes, after some octets of the text. -/
  | quoted (octets : Array UInt8)
  /-- After a backslash. -/
  | escape (octets : Array UInt8)
  /-- Inside an octal escape with this value so far, which may have `more` further digits. -/
  | octal (octets : Array UInt8) (code more : Nat)
  /-- After an opening bracket: it may be closed at once. -/
  | opened (group : Group)
  /-- After a comma: an entry must begin. -/
  | entry (group : Group)
  /-- Inside the key of an entry. -/
  | key (group : Group) (chars : Array Char)
  /-- After an entry. -/
  | after (group : Group)

/-- What one character comes to. -/
inductive Move where
  | go (mode : Mode) (stack : List Place)
  | done (value : Value)
  | fail (offence : Offence)

/-- A group with one more named value. In a list, a named value is a tuple of its own. -/
def Group.put (key : String) (v : Value) : Group → Group
  | .list items => .list (items.push (.tuple [(key, v)]))
  | .tuple fields => .tuple (Entries.insert key v fields)
  | .arguments fields => .arguments (Entries.insert key v fields)

/-- The character that closes a group. -/
def Group.close? : Group → Option Char
  | .list _ => some ']'
  | .tuple _ => some '\x7d'
  | .arguments _ => none

def Group.toValue : Group → Value
  | .list items => .list items.toList
  | .tuple fields => .tuple fields
  | .arguments fields => .tuple fields

/-- A character after an entry that neither closes the group nor announces another entry. -/
def Group.entryEnd : Group → Offence
  | .list _ => .itemEndExpected
  | .tuple _ => .fieldEndExpected
  | .arguments _ => .commaExpected

/-- Hands a complete value to the place where it belongs. -/
def complete (v : Value) : List Place → Move
  | [] => .done v
  | .item items :: stack => .go (.after (.list (items.push v))) stack
  | .keyed group key :: stack => .go (.after (group.put key v)) stack

/-- The first character of a value. -/
def beginValue (stack : List Place) (c : Char) : Move :=
  match c with
  | '"' => .go (.quoted #[]) stack
  | '[' => .go (.opened (.list #[])) stack
  | '\x7b' => .go (.opened (.tuple [])) stack
  | _ => .fail .valueExpected

/-- Characters that no key contains, apart from the equals sign that ends it. -/
def isReserved (c : Char) : Bool :=
  c == ',' || c == '\x7b' || c == '\x7d' || c == '[' || c == ']' || c == '"'

/-- A character of a key. -/
def inKey (group : Group) (chars : Array Char) (stack : List Place) (c : Char) : Move :=
  if c = '=' then
    if chars.isEmpty then .fail .keyEmpty
    else .go .value (.keyed group (String.ofList chars.toList) :: stack)
  else if isReserved c then .fail .equalsExpected
  else .go (.key group (chars.push c)) stack

/-- Characters that begin a value. -/
def beginsValue (c : Char) : Bool := c == '"' || c == '[' || c == '\x7b'

/-- The first character of an entry. Only a list has entries without a key. -/
def beginEntry (group : Group) (stack : List Place) (c : Char) : Move :=
  match group with
  | .list items =>
    if beginsValue c then beginValue (.item items :: stack) c else inKey group #[] stack c
  | _ => inKey group #[] stack c

/-- The value of an octal digit. -/
def octal? (c : Char) : Option Nat :=
  if '0' ≤ c ∧ c ≤ '7' then some (c.toNat - 48) else none

/-- The octets with those of one more character. -/
def pushChar (octets : Array UInt8) (c : Char) : Array UInt8 :=
  octets ++ String.utf8EncodeChar c

/-- A character inside quotes. -/
def inQuotes (octets : Array UInt8) (stack : List Place) (c : Char) : Move :=
  match c with
  | '"' => complete (.const (Utf8.decode octets.toList)) stack
  | '\\' => .go (.escape octets) stack
  | c => .go (.quoted (pushChar octets c)) stack

/-- The octet that a letter after a backslash stands for. -/
def escapeOctet? : Char → Option UInt8
  | 'n' => some 0x0A
  | 't' => some 0x09
  | 'r' => some 0x0D
  | 'a' => some 0x07
  | 'b' => some 0x08
  | 'f' => some 0x0C
  | 'v' => some 0x0B
  | 'e' => some 0x1B
  | _ => none

/-- The character after a backslash. One that has no meaning of its own stands for itself. -/
def inEscape (octets : Array UInt8) (stack : List Place) (c : Char) : Move :=
  match octal? c with
  | some d => .go (.octal octets d 2) stack
  | none =>
    match escapeOctet? c with
    | some b => .go (.quoted (octets.push b)) stack
    | none => .go (.quoted (pushChar octets c)) stack

/-- A character after the first digit of an octal escape. The escape ends with the third digit or
before the first character that is no digit; only its lowest eight bits count. -/
def inOctal (octets : Array UInt8) (code more : Nat) (stack : List Place) (c : Char) : Move :=
  match more, octal? c with
  | more + 1, some d => .go (.octal octets (code * 8 + d) more) stack
  | _, _ => inQuotes (octets.push (UInt8.ofNat code)) stack c

def step (mode : Mode) (stack : List Place) (c : Char) : Move :=
  match mode with
  | .value => beginValue stack c
  | .quoted octets => inQuotes octets stack c
  | .escape octets => inEscape octets stack c
  | .octal octets code more => inOctal octets code more stack c
  | .opened group =>
    if group.close? = some c then complete group.toValue stack else beginEntry group stack c
  | .entry group => beginEntry group stack c
  | .key group chars => inKey group chars stack c
  | .after group =>
    if group.close? = some c then complete group.toValue stack
    else if c = ',' then .go (.entry group) stack
    else .fail group.entryEnd

/-- The end of the text: it completes the arguments of a record and offends everything else. -/
def finish : Mode → Except Offence Value
  | .value => .error .valueMissing
  | .quoted _ => .error .quoteOpen
  | .escape _ => .error .escapeOpen
  | .octal .. => .error .quoteOpen
  | .opened _ => .error .equalsExpected
  | .entry _ => .error .equalsExpected
  | .key .. => .error .equalsExpected
  | .after (.list _) => .error .bracketOpen
  | .after (.tuple _) => .error .braceOpen
  | .after (.arguments fields) => .ok (.tuple fields)

/-- An offence with the characters from the offending one on. -/
structure Failure where
  offence : Offence
  rest : List Char

/-- Reads until the outermost value is complete; what follows it is left over. -/
def run (mode : Mode) (stack : List Place) : List Char → Except Failure (Value × List Char)
  | [] =>
    match finish mode with
    | .ok v => .ok (v, [])
    | .error offence => .error ⟨offence, []⟩
  | c :: cs =>
    match step mode stack c with
    | .go mode stack => run mode stack cs
    | .done v => .ok (v, cs)
    | .fail offence => .error ⟨offence, c :: cs⟩

/-- A value at the beginning of the characters. -/
def value (cs : List Char) : Except Failure (Value × List Char) := run .value [] cs

/-- A text in double quotes at the beginning of the characters. -/
def quoted : List Char → Except Failure (Value × List Char)
  | '"' :: cs => run (.quoted #[]) [] cs
  | cs => .error ⟨.quoteExpected, cs⟩

/-- A list at the beginning of the characters. -/
def list : List Char → Except Failure (Value × List Char)
  | '[' :: cs => run (.opened (.list #[])) [] cs
  | cs => .error ⟨.bracketExpected, cs⟩

/-- A tuple at the beginning of the characters. -/
def tuple : List Char → Except Failure (Value × List Char)
  | '\x7b' :: cs => run (.opened (.tuple [])) [] cs
  | cs => .error ⟨.braceExpected, cs⟩

/-- The arguments of a record, each after a comma, up to the end of the characters. -/
def arguments (cs : List Char) : Except Failure (Value × List Char) :=
  run (.after (.arguments [])) [] cs

end Reader

end DebugLink.Value

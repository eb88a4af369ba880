import DebugLink.Value.Basic
import DebugLink.Text.Utf8

/-! Values in written form. A constant stands in double quotes, with quotes, backslashes and ASCII
controls escaped; lists stand in square brackets and tuples in braces, their parts separated by
commas without blanks. -/

namespace DebugLink

namespace Text.Quoted

/-- The digit of a number below eight. -/
def octalDigit (n : Nat) : Char := Char.ofNat (48 + n % 8)

/-- One character inside quotes. Controls without a letter of their own are three octal digits. -/
def char (c : Char) : List Char :=
  match c with
  | '"' => ['\\', '"']
  | '\\' => ['\\', '\\']
  | '\n' => ['\\', 'n']
  | '\t' => ['\\', 't']
  | '\r' => ['\\', 'r']
  | c =>
    let n := c.toNat
    if n < 0x20 || n == 0x7F then
      ['\\', octalDigit (n / 64), octalDigit (n / 8), octalDigit n]
    else [c]

/-- A text in double quotes. -/
def chars (s : String) : List Char := '"' :: s.toList.flatMap char ++ ['"']

end Text.Quoted

namespace Value

mutual

def chars : Value → List Char
  | .const s => Text.Quoted.chars s
  | .list items => '[' :: itemsChars items ++ [']']
  | .tuple fields => '{' :: fieldsChars fields ++ ['}']

def itemsChars : List Value → List Char
  | [] => []
  | [v] => v.chars
  | v :: w :: vs => v.chars ++ ',' :: itemsChars (w :: vs)

def fieldsChars : List (String × Value) → List Char
  | [] => []
  | [(k, v)] => k.toList ++ '=' :: v.chars
  | (k, v) :: w :: vs => k.toList ++ '=' :: (v.chars ++ ',' :: fieldsChars (w :: vs))

end

/-- The written form of a value. -/
def toText (v : Value) : String := String.ofList v.chars

end Value

end DebugLink

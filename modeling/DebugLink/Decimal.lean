/-! Decimal numbers of bounded size. Reading takes ASCII digits after at most one plus sign and
says which of three things is wrong otherwise; writing can pad with zeros to a width. -/

namespace DebugLink.Decimal

/-- Why a text is no number of the size asked for. -/
inductive Flaw where
  | empty
  | invalidDigit
  | tooLarge
deriving DecidableEq, Repr

def Flaw.message : Flaw → String
  | .empty => "cannot parse integer from empty string"
  | .invalidDigit => "invalid digit found in string"
  | .tooLarge => "number too large to fit in target type"

/-- The value of an ASCII digit. -/
def digit? (c : Char) : Option Nat :=
  if '0' ≤ c ∧ c ≤ '9' then some (c.toNat - 48) else none

def isDigit (c : Char) : Bool := (digit? c).isSome

/-- Reads on from the number formed so far. The first character that is no digit, or that takes
the number to `bound`, decides the flaw. -/
def readOn (bound : Nat) : Nat → List Char → Except Flaw Nat
  | n, [] => .ok n
  | n, c :: cs =>
    match digit? c with
    | none => .error .invalidDigit
    | some d => if n * 10 + d < bound then readOn bound (n * 10 + d) cs else .error .tooLarge

/-- A number below `bound`. A sign by itself is an invalid digit. -/
def readChars (bound : Nat) : List Char → Except Flaw Nat
  | [] => .error .empty
  | ['+'] => .error .invalidDigit
  | '+' :: c :: cs => readOn bound 0 (c :: cs)
  | cs => readOn bound 0 cs

def readUInt32 (s : String) : Except Flaw UInt32 :=
  (readChars UInt32.size s.toList).map UInt32.ofNat

def readUInt64 (s : String) : Except Flaw UInt64 :=
  (readChars UInt64.size s.toList).map UInt64.ofNat

/-- The digits of a number. -/
def chars (n : Nat) : List Char := Nat.toDigits 10 n

/-- The digits of a number, with zeros in front up to `width` characters. -/
def padded (width n : Nat) : List Char :=
  List.replicate (width - (chars n).length) '0' ++ chars n

def text (n : Nat) : String := String.ofList (chars n)

end DebugLink.Decimal

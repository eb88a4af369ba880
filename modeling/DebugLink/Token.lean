import DebugLink.Decimal
import DebugLink.Dict

/-! Tokens tie a result to the command it answers. A token counts commands in 64 bits, so it begins
again once they are used up. It travels in decimal, with zeros in front up to four digits, and
padding does not count when it is read. -/

namespace DebugLink

structure Token where
  value : UInt64
deriving DecidableEq, Repr, Inhabited

namespace Token

/-- Tokens are ordered by number. -/
instance : Ord Token := ⟨compareOn Token.value⟩

instance : Std.TransOrd Token := inferInstanceAs (Std.TransCmp (compareOn Token.value))

instance : Std.LawfulEqOrd Token where
  eq_of_compare {a b} h := by
    have h : compare a.value b.value = .eq := h
    cases a; cases b; simpa using h

/-- The number of the token. -/
def number (t : Token) : Nat := t.value.toNat

/-- The token with a number, of which only the last 64 bits count. -/
def ofNumber (n : Nat) : Token := ⟨.ofNat n⟩

theorem number_lt (t : Token) : t.number < UInt64.size := t.value.toNat_lt

theorem number_ofNumber {n : Nat} (h : n < UInt64.size) : (ofNumber n).number = n :=
  UInt64.toNat_ofNat_of_lt' h

theorem ofNumber_number (t : Token) : ofNumber t.number = t :=
  congrArg mk t.value.ofNat_toNat

/-- The token as it is written in front of a command or record. -/
def chars (t : Token) : List Char := Decimal.padded 4 t.number

def text (t : Token) : String := String.ofList t.chars

/-- Reads a token of 64 bits. -/
def ofText (s : String) : Except Decimal.Flaw Token :=
  (Decimal.readChars UInt64.size s.toList).map ofNumber

/-- A token that may be missing, as diagnostics show it. -/
def describe : Option Token → String
  | none => "None"
  | some t => "Some(Token(" ++ Decimal.text t.number ++ "))"

end Token

end DebugLink

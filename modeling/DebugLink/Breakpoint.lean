import DebugLink.LinkError
import DebugLink.Value.Basic

/-! Breakpoints as they have been reported. Every report adds to what is known of a breakpoint or
replaces it field by field; nothing is ever forgotten. The number of a breakpoint is a text, since
the locations of one breakpoint are numbered `2.1`, `2.2` and so on. -/

namespace DebugLink

structure Breakpoint where
  number : String
  fields : Fields
deriving DecidableEq, Inhabited

namespace Breakpoint

def field? (b : Breakpoint) (key : String) : Option String := b.fields.text? key

def isEnabled (b : Breakpoint) : Bool := b.field? "enabled" = some "y"

/-- How often the breakpoint was hit, if it says so in 64 bits. -/
def hits? (b : Breakpoint) : Option UInt64 :=
  (b.field? "times").bind fun s => (Decimal.readUInt64 s).toOption

/-- A number text up to its first point, and from there to the second if there is one. -/
def splitNumber (number : String) : String × Option String :=
  let cs := number.toList
  (String.ofList (cs.takeWhile (· != '.')),
    match cs.dropWhile (· != '.') with
    | [] => none
    | _ :: cs => some (String.ofList (cs.takeWhile (· != '.'))))

/-- The breakpoint that a number belongs to: a location counts as its parent. -/
def parentNumber (number : String) : Except LinkError UInt32 :=
  match Decimal.readUInt32 (splitNumber number).1 with
  | .ok n => .ok n
  | .error _ => .error (.invalidField "number" number)

/-- The place of a part of a number in a listing. Parts that are no numbers come last. -/
def rank (part : String) : Nat :=
  match Decimal.readUInt32 part with
  | .ok n => n.toNat
  | .error _ => UInt32.size - 1

/-- Whether one number may stand before another in a listing: by the first part, then by the
second, where having none comes first. -/
def listedBefore (a b : String) : Bool :=
  let (a₁, a₂) := splitNumber a
  let (b₁, b₂) := splitNumber b
  if rank a₁ = rank b₁ then
    match a₂, b₂ with
    | none, _ => true
    | some _, none => false
    | some a, some b => rank a ≤ rank b
  else rank a₁ ≤ rank b₁

end Breakpoint

/-- The breakpoints by number. -/
structure BreakpointTable where
  byNumber : Dict String Breakpoint := ∅
deriving DecidableEq, Inhabited

namespace BreakpointTable

def get? (t : BreakpointTable) (number : String) : Option Breakpoint := t.byNumber.find? number

def size (t : BreakpointTable) : Nat := t.byNumber.size

/-- Puts reported fields over what is known of the breakpoint they number. -/
def merge (t : BreakpointTable) (info : Fields) : Except LinkError (Breakpoint × BreakpointTable) :=
  match info.text? "number" with
  | none => .error (.missingField "bkpt" "number")
  | some number =>
    let known := (t.get? number).getD ⟨number, []⟩
    let b := { known with fields := Entries.merge known.fields info }
    .ok (b, ⟨t.byNumber.insert number b⟩)

/-- The breakpoints by ascending number; numbers of equal rank by their text. -/
def listing (t : BreakpointTable) : List Breakpoint :=
  t.byNumber.values.mergeSort fun a b => Breakpoint.listedBefore a.number b.number

end BreakpointTable

end DebugLink

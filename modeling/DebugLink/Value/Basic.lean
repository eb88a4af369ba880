import DebugLink.Dict

/-! Values as the debugger reports them: texts, lists of values, and tuples of named values,
nested to any depth. The fields of a tuple are entries in the order of their keys. -/

namespace DebugLink

inductive Value where
  /-- A text, with nothing left to unescape. -/
  | const (text : String)
  | list (items : List Value)
  /-- Named values; well formed when the keys ascend strictly. -/
  | tuple (fields : List (String × Value))
deriving Inhabited

/-- Named values in the order of their names: the fields of a tuple, the arguments of a record. -/
abbrev Fields := List (String × Value)

namespace Value

mutual

def decEq : (a b : Value) → Decidable (a = b)
  | .const s, .const t =>
    if h : s = t then .isTrue (h ▸ rfl) else .isFalse fun e => h (Value.const.inj e)
  | .list xs, .list ys =>
    match decEqItems xs ys with
    | .isTrue h => .isTrue (h ▸ rfl)
    | .isFalse h => .isFalse fun e => h (Value.list.inj e)
  | .tuple xs, .tuple ys =>
    match decEqFields xs ys with
    | .isTrue h => .isTrue (h ▸ rfl)
    | .isFalse h => .isFalse fun e => h (Value.tuple.inj e)
  | .const _, .list _ => .isFalse nofun
  | .const _, .tuple _ => .isFalse nofun
  | .list _, .const _ => .isFalse nofun
  | .list _, .tuple _ => .isFalse nofun
  | .tuple _, .const _ => .isFalse nofun
  | .tuple _, .list _ => .isFalse nofun

def decEqItems : (xs ys : List Value) → Decidable (xs = ys)
  | [], [] => .isTrue rfl
  | x :: xs, y :: ys =>
    match decEq x y, decEqItems xs ys with
    | .isTrue h, .isTrue hs => .isTrue (h ▸ hs ▸ rfl)
    | .isFalse h, _ => .isFalse fun e => h (List.cons.inj e).1
    | _, .isFalse h => .isFalse fun e => h (List.cons.inj e).2
  | [], _ :: _ => .isFalse nofun
  | _ :: _, [] => .isFalse nofun

def decEqFields : (xs ys : List (String × Value)) → Decidable (xs = ys)
  | [], [] => .isTrue rfl
  | (j, x) :: xs, (k, y) :: ys =>
    if hk : j = k then
      match decEq x y, decEqFields xs ys with
      | .isTrue h, .isTrue hs => .isTrue (hk ▸ h ▸ hs ▸ rfl)
      | .isFalse h, _ => .isFalse fun e => h (Prod.mk.inj (List.cons.inj e).1).2
      | _, .isFalse h => .isFalse fun e => h (List.cons.inj e).2
    else .isFalse fun e => hk (Prod.mk.inj (List.cons.inj e).1).1
  | [], _ :: _ => .isFalse nofun
  | _ :: _, [] => .isFalse nofun

end

instance : DecidableEq Value := decEq

/-- The text of a constant. -/
def text? : Value → Option String
  | .const s => some s
  | _ => none

/-- The elements of a list. -/
def items? : Value → Option (List Value)
  | .list items => some items
  | _ => none

/-- The fields of a tuple. -/
def fields? : Value → Option Fields
  | .tuple fields => some fields
  | _ => none

/-- What a tuple holds under a key. -/
def get? (v : Value) (key : String) : Option Value := v.fields?.bind (Entries.find? key)

mutual

/-- How many brackets are open at the innermost place. -/
def depth : Value → Nat
  | .const _ => 0
  | .list items => itemsDepth items + 1
  | .tuple fields => fieldsDepth fields + 1

def itemsDepth : List Value → Nat
  | [] => 0
  | v :: vs => max v.depth (itemsDepth vs)

def fieldsDepth : List (String × Value) → Nat
  | [] => 0
  | (_, v) :: vs => max v.depth (fieldsDepth vs)

end

end Value

/-- The text that stands under a key, if a constant does. -/
def Fields.text? (fields : Fields) (key : String) : Option String :=
  (Entries.find? key fields).bind Value.text?

end DebugLink

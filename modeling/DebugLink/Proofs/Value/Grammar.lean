import DebugLink.Value.Basic
import DebugLink.Text.Utf8

/-! What counts as the written form of a value, said without reference to any way of reading it. A
constant is a text in double quotes, whose escapes stand for octets; only all of its octets
together are decoded. A list is written in square brackets and a tuple in braces, their entries
separated by commas. An entry of a list may be named; it then stands for a tuple of its own. -/

namespace DebugLink.Grammar

/-- The characters that mean something between keys and values, and so stand in no key. -/
def reserved : List Char := ['=', ',', '{', '}', '[', ']', '"']

def IsKey (key : String) : Prop := key ≠ "" ∧ ∀ c ∈ key.toList, c ∉ reserved

-- Left to search, the second instance can be one that goes through all characters there are.
instance (key : String) : Decidable (IsKey key) :=
  @instDecidableAnd _ _ inferInstance (List.decidableBAll (· ∉ reserved) key.toList)

/-- The letters that stand for an octet behind a backslash. -/
def escapes : List (Char × UInt8) :=
  [('n', 0x0A), ('t', 0x09), ('r', 0x0D), ('a', 0x07), ('b', 0x08), ('f', 0x0C), ('v', 0x0B),
    ('e', 0x1B)]

def IsOctal (c : Char) : Prop := '0' ≤ c ∧ c ≤ '7'

instance (c : Char) : Decidable (IsOctal c) := inferInstanceAs (Decidable (_ ∧ _))

/-- An octal escape has one to three digits, and as many as it can have: after fewer than three of
them no further one follows. -/
structure IsOctalRun (digits following : List Char) : Prop where
  nonempty : digits ≠ []
  short : digits.length ≤ 3
  octal : ∀ d ∈ digits, IsOctal d
  maximal : digits.length = 3 ∨ ∀ c ∈ following.head?, ¬ IsOctal c

/-- What stands between the quotes of a constant, and the octets it stands for. Of the number of an
octal escape only the lowest eight bits count. -/
inductive Spells : List Char → Octets → Prop
  | nil : Spells [] []
  | plain {c : Char} {cs : List Char} {bs : Octets} :
      c ≠ '"' → c ≠ '\\' → Spells cs bs → Spells (c :: cs) (String.utf8EncodeChar c ++ bs)
  | letter {c : Char} {b : UInt8} {cs : List Char} {bs : Octets} :
      (c, b) ∈ escapes → Spells cs bs → Spells ('\\' :: c :: cs) (b :: bs)
  | octal {ds cs : List Char} {bs : Octets} :
      IsOctalRun ds cs → Spells cs bs →
      Spells ('\\' :: (ds ++ cs)) (UInt8.ofNat (Nat.ofDigitChars 8 ds 0) :: bs)
  | other {c : Char} {cs : List Char} {bs : Octets} :
      ¬ IsOctal c → (∀ b, (c, b) ∉ escapes) → Spells cs bs →
      Spells ('\\' :: c :: cs) (String.utf8EncodeChar c ++ bs)

/-- A key with a value, and how the value is written. -/
structure Field where
  key : String
  text : List Char
  value : Value

namespace Field

def chars (f : Field) : List Char := f.key.toList ++ '=' :: f.text

def entry (f : Field) : String × Value := (f.key, f.value)

end Field

/-- An element of a list: a value as it is written, or a named one. -/
inductive Item where
  | bare (text : List Char) (value : Value)
  | named (field : Field)

namespace Item

/-- How the value of the element is written, without its key. -/
def text : Item → List Char
  | bare text _ => text
  | named f => f.text

def value : Item → Value
  | bare _ v => v
  | named f => f.value

def chars : Item → List Char
  | bare text _ => text
  | named f => f.chars

/-- The element that is meant. -/
def element : Item → Value
  | bare _ v => v
  | named f => .tuple [f.entry]

def KeyOk : Item → Prop
  | bare .. => True
  | named f => IsKey f.key

theorem map_chars_named (fields : List Field) :
    (fields.map named).map chars = fields.map Field.chars := List.map_map

end Item

/-- Texts with commas between them, and none at the end. -/
def separated (texts : List (List Char)) : List Char := [','].intercalate texts

/-- A text is a written form of a value. Of fields with one key the last counts. -/
inductive Derives : List Char → Value → Prop
  | const {cs : List Char} {bs : Octets} :
      Spells cs bs → Derives ('"' :: (cs ++ ['"'])) (.const (Utf8.decode bs))
  | list (items : List Item) :
      (∀ i ∈ items, i.KeyOk) → (∀ i ∈ items, Derives i.text i.value) →
      Derives ('[' :: (separated (items.map Item.chars) ++ [']'])) (.list (items.map Item.element))
  | tuple (fields : List Field) :
      (∀ f ∈ fields, IsKey f.key) → (∀ f ∈ fields, Derives f.text f.value) →
      Derives ('{' :: (separated (fields.map Field.chars) ++ ['}']))
        (.tuple (Entries.ofList (fields.map Field.entry)))

/-! ### Texts with commas between them -/

@[simp] theorem separated_nil : separated [] = [] := rfl

theorem separated_cons (text : List Char) (texts : List (List Char)) :
    separated (text :: texts) = text ++ texts.flatMap (',' :: ·) := by
  induction texts generalizing text with
  | nil => simp [separated]
  | cons t ts ih =>
    have tail := ih t
    simp only [separated, List.intercalate_cons_cons, List.flatMap_cons] at tail ⊢
    simp [tail]

/-! ### How written forms begin -/

theorem IsKey.toList_ne_nil {key : String} (h : IsKey key) : key.toList ≠ [] := by
  intro none
  exact h.1 (String.toList_eq_nil_iff.mp none)

/-- The character that all written forms of a value begin with. -/
def opening : Value → Char
  | .const _ => '"'
  | .list _ => '['
  | .tuple _ => '{'

theorem Derives.begins {cs : List Char} {v : Value} (h : Derives cs v) :
    ∃ tail, cs = opening v :: tail := by
  cases h with
  | const | list | tuple => exact ⟨_, rfl⟩

theorem opening_eq_quote_iff {v : Value} : opening v = '"' ↔ ∃ text, v = .const text := by
  cases v <;> simp [opening]

theorem opening_eq_bracket_iff {v : Value} : opening v = '[' ↔ ∃ items, v = .list items := by
  cases v <;> simp [opening]

theorem opening_eq_brace_iff {v : Value} : opening v = '{' ↔ ∃ fields, v = .tuple fields := by
  cases v <;> simp [opening]

end DebugLink.Grammar

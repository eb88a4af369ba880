/-! UTF-8 with a decoder that never fails. It takes one octet at a time. An octet that cannot
continue the character begun closes it: the octets read of it become one replacement character
and the octet is looked at afresh, so each longest ill-formed beginning counts once. Main
statement: the octets of a text give the text back. -/

namespace DebugLink

/-- Octets as they travel on a wire, first one first. -/
abbrev Octets := List UInt8

namespace Utf8

/-- Stands for octets that form no character. -/
def replacement : Char := '\uFFFD'

/-- What the decoder waits for. -/
inductive State where
  /-- A character may begin. -/
  | start
  /-- The next octet lies between `low` and `high` and `owed` more follow it; `bits` is the
  number formed by the octets of this character read so far. -/
  | within (owed : Nat) (low high : Nat) (bits : Nat)
deriving DecidableEq, Repr

/-- An octet where a character may begin. The narrower ranges after `E0`, `ED`, `F0` and `F4`
exclude overlong forms, surrogates and numbers above `10FFFF`. -/
def lead (b : Nat) : List Char × State :=
  if b < 0x80 then ([Char.ofNat b], .start)
  else if b < 0xC2 then ([replacement], .start)
  else if b < 0xE0 then ([], .within 0 0x80 0xBF (b - 0xC0))
  else if b = 0xE0 then ([], .within 1 0xA0 0xBF 0)
  else if b = 0xED then ([], .within 1 0x80 0x9F 0xD)
  else if b < 0xF0 then ([], .within 1 0x80 0xBF (b - 0xE0))
  else if b = 0xF0 then ([], .within 2 0x90 0xBF 0)
  else if b < 0xF4 then ([], .within 2 0x80 0xBF (b - 0xF0))
  else if b = 0xF4 then ([], .within 2 0x80 0x8F 4)
  else ([replacement], .start)

/-- The characters that an octet settles, and what is waited for after it. -/
def step : State → Nat → List Char × State
  | .start, b => lead b
  | .within owed low high bits, b =>
    if low ≤ b ∧ b ≤ high then
      let bits := bits * 64 + (b - 0x80)
      match owed with
      | 0 => ([Char.ofNat bits], .start)
      | owed + 1 => ([], .within owed 0x80 0xBF bits)
    else (replacement :: (lead b).1, (lead b).2)

/-- The characters of octets read from a given state on. Octets that end inside a character
leave one replacement character. -/
def decodeFrom : State → Octets → List Char
  | .start, [] => []
  | .within .., [] => [replacement]
  | s, b :: bs => (step s b.toNat).1 ++ decodeFrom (step s b.toNat).2 bs

/-- The text of any octets. -/
def decode (bs : Octets) : String := String.ofList (decodeFrom .start bs)

/-- The octets of some characters. -/
def encodeChars (cs : List Char) : Octets := cs.flatMap String.utf8EncodeChar

/-- The octets of a text. -/
def encode (s : String) : Octets := encodeChars s.toList

/-- How many octets some characters take. -/
def size (cs : List Char) : Nat := (encodeChars cs).length

theorem encodeChars_append (cs ds : List Char) :
    encodeChars (cs ++ ds) = encodeChars cs ++ encodeChars ds := by
  simp [encodeChars]

theorem encode_append (s t : String) : encode (s ++ t) = encode s ++ encode t := by
  simp [encode, encodeChars_append]

theorem decodeFrom_cons (s : State) (b : UInt8) (bs : Octets) :
    decodeFrom s (b :: bs) = (step s b.toNat).1 ++ decodeFrom (step s b.toNat).2 bs := by
  cases s <;> rfl

/-- The last octet of a character. -/
theorem decodeFrom_last {low high bits n : Nat} (rest : Octets) (h : low ≤ n ∧ n ≤ high)
    (lt : n < 256) :
    decodeFrom (.within 0 low high bits) (UInt8.ofNat n :: rest) =
      Char.ofNat (bits * 64 + (n - 0x80)) :: decodeFrom .start rest := by
  rw [decodeFrom_cons, UInt8.toNat_ofNat_of_lt' lt, step, if_pos h]
  rfl

/-- An octet of a character that is not its last. -/
theorem decodeFrom_next {owed low high bits n : Nat} (rest : Octets) (h : low ≤ n ∧ n ≤ high)
    (lt : n < 256) :
    decodeFrom (.within (owed + 1) low high bits) (UInt8.ofNat n :: rest) =
      decodeFrom (.within owed 0x80 0xBF (bits * 64 + (n - 0x80))) rest := by
  rw [decodeFrom_cons, UInt8.toNat_ofNat_of_lt' lt, step, if_pos h]
  rfl

/-- The first octet of a character of more than one. -/
theorem decodeFrom_lead {s : State} {n : Nat} (rest : Octets) (h : lead n = ([], s))
    (lt : n < 256) : decodeFrom .start (UInt8.ofNat n :: rest) = decodeFrom s rest := by
  rw [decodeFrom_cons, UInt8.toNat_ofNat_of_lt' lt, step, h]
  rfl

theorem decodeFrom_encodeChar (c : Char) (rest : Octets) :
    decodeFrom .start (String.utf8EncodeChar c ++ rest) = c :: decodeFrom .start rest := by
  have valid : c.val.toNat < 0xD800 ∨ 0xDFFF < c.val.toNat ∧ c.val.toNat < 0x110000 := c.valid
  have back : Char.ofNat c.val.toNat = c := Char.ofNat_toNat c
  simp only [String.utf8EncodeChar]
  generalize c.val.toNat = v at *
  split
  · have lt : v < 256 := by omega
    rw [List.cons_append, List.nil_append, decodeFrom_cons, UInt8.toNat_ofNat_of_lt' lt]
    simp only [step, lead, if_pos (show v < 0x80 by omega), back]
    rfl
  split
  · have first : lead (v / 64 % 32 + 192) = ([], .within 0 0x80 0xBF (v / 64)) := by
      grind [lead]
    rw [List.cons_append, decodeFrom_lead _ first (by omega), List.cons_append,
      decodeFrom_last _ (by omega) (by omega)]
    rw [show v / 64 * 64 + (v % 64 + 128 - 0x80) = v by omega, back]
    rfl
  split
  · have first : ∃ low high, lead (v / 4096 % 16 + 224) = ([], .within 1 low high (v / 4096)) ∧
        low ≤ v / 64 % 64 + 128 ∧ v / 64 % 64 + 128 ≤ high := by
      obtain h | h | h : v / 4096 = 0 ∨ v / 4096 = 13 ∨ v / 4096 ≠ 0 ∧ v / 4096 ≠ 13 := by omega
      · exact ⟨0xA0, 0xBF, by simp [h, lead], by omega⟩
      · exact ⟨0x80, 0x9F, by simp [h, lead], by omega⟩
      · refine ⟨0x80, 0xBF, ?_, by omega⟩
        have bits : v / 4096 % 16 + 224 - 0xE0 = v / 4096 := by omega
        rw [lead, if_neg (by omega), if_neg (by omega), if_neg (by omega), if_neg (by omega),
          if_neg (by omega), if_pos (by omega), bits]
    obtain ⟨low, high, first, second⟩ := first
    rw [List.cons_append, decodeFrom_lead _ first (by omega), List.cons_append,
      decodeFrom_next _ second (by omega), List.cons_append,
      decodeFrom_last _ (by omega) (by omega)]
    rw [show (v / 4096 * 64 + (v / 64 % 64 + 128 - 0x80)) * 64 + (v % 64 + 128 - 0x80) = v by omega,
      back]
    rfl
  · have first : ∃ low high, lead (v / 262144 % 8 + 240) = ([], .within 2 low high (v / 262144)) ∧
        low ≤ v / 4096 % 64 + 128 ∧ v / 4096 % 64 + 128 ≤ high := by
      obtain h | h | h : v / 262144 = 0 ∨ v / 262144 = 4 ∨ v / 262144 ≠ 0 ∧ v / 262144 < 4 := by
        omega
      · exact ⟨0x90, 0xBF, by simp [h, lead], by omega⟩
      · exact ⟨0x80, 0x8F, by simp [h, lead], by omega⟩
      · refine ⟨0x80, 0xBF, ?_, by omega⟩
        have bits : v / 262144 % 8 + 240 - 0xF0 = v / 262144 := by omega
        rw [lead, if_neg (by omega), if_neg (by omega), if_neg (by omega), if_neg (by omega),
          if_neg (by omega), if_neg (by omega), if_neg (by omega), if_pos (by omega), bits]
    obtain ⟨low, high, first, second⟩ := first
    rw [List.cons_append, decodeFrom_lead _ first (by omega), List.cons_append,
      decodeFrom_next _ second (by omega), List.cons_append,
      decodeFrom_next _ (by omega) (by omega), List.cons_append,
      decodeFrom_last _ (by omega) (by omega)]
    rw [show ((v / 262144 * 64 + (v / 4096 % 64 + 128 - 0x80)) * 64 +
      (v / 64 % 64 + 128 - 0x80)) * 64 + (v % 64 + 128 - 0x80) = v by omega, back]
    rfl

theorem decodeFrom_encodeChars (cs : List Char) (rest : Octets) :
    decodeFrom .start (encodeChars cs ++ rest) = cs ++ decodeFrom .start rest := by
  induction cs with
  | nil => rfl
  | cons c cs ih =>
    rw [encodeChars, List.flatMap_cons, List.append_assoc, decodeFrom_encodeChar]
    exact congrArg (c :: ·) ih

/-- The octets of a text give the text back. -/
theorem decode_encode (s : String) : decode (encode s) = s := by
  have := decodeFrom_encodeChars s.toList []
  simp only [List.append_nil] at this
  rw [decode, encode, this]
  simp [decodeFrom]

end Utf8

end DebugLink

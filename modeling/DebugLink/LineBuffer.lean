import DebugLink.Text.Utf8

/-! Lines out of octets that arrive in pieces. A line ends with a line feed; a carriage return
right before it does not belong to the line. Octets after the last line feed wait for more. Those
that were searched in vain for a line feed are not searched again, and a buffer carries the proof
that they need not be. -/

namespace DebugLink

namespace LineBuffer

def lineFeed : UInt8 := 0x0A

def carriageReturn : UInt8 := 0x0D

/-! Nothing of a new buffer has been searched, be it empty or not. -/

theorem zero_le_length (octets : Octets) : 0 ≤ octets.length := Nat.zero_le _

theorem not_mem_take_zero (octets : Octets) : lineFeed ∉ octets.take 0 := by simp

theorem zero_le_length_nil : 0 ≤ ([] : Octets).length := zero_le_length []

theorem not_mem_take_zero_nil : lineFeed ∉ ([] : Octets).take 0 := not_mem_take_zero []

end LineBuffer

structure LineBuffer where
  octets : Octets := []
  /-- How many octets at the front have been searched in vain for a line feed. -/
  searched : Nat := 0
  searched_le : searched ≤ octets.length := by
    first
    | exact LineBuffer.zero_le_length_nil
    | exact LineBuffer.zero_le_length _
  vain : LineBuffer.lineFeed ∉ octets.take searched := by
    first
    | exact LineBuffer.not_mem_take_zero_nil
    | exact LineBuffer.not_mem_take_zero _
deriving DecidableEq

namespace LineBuffer

instance : Inhabited LineBuffer := ⟨{}⟩

def push (b : LineBuffer) (octets : Octets) : LineBuffer where
  octets := b.octets ++ octets
  searched := b.searched
  searched_le := by
    rw [List.length_append]
    exact Nat.le_add_right_of_le b.searched_le
  vain := by
    rw [List.take_append_of_le_length b.searched_le]
    exact b.vain

/-- The octets of a line without a carriage return at their end. -/
def dropReturn (octets : Octets) : Octets :=
  if octets.getLast? = some carriageReturn then octets.dropLast else octets

/-- Where the first line feed is, looked for behind what was searched. -/
def lineEnd? (b : LineBuffer) : Option Nat :=
  ((b.octets.drop b.searched).findIdx? (· == lineFeed)).map (· + b.searched)

/-- The first complete line, and what is left without it. -/
def next? (b : LineBuffer) : Option (String × LineBuffer) :=
  b.lineEnd?.map fun n =>
    (Utf8.decode (dropReturn (b.octets.take n)), { octets := b.octets.drop (n + 1) })

def hasLine (b : LineBuffer) : Bool := (b.octets.drop b.searched).contains lineFeed

theorem findIdx?_lineFeed_eq_none_iff {octets : Octets} :
    octets.findIdx? (· == lineFeed) = none ↔ lineFeed ∉ octets := by
  rw [List.findIdx?_eq_none_iff]
  simp only [beq_eq_false_iff_ne]
  exact ⟨fun h hm => h _ hm rfl, fun h o ho he => h (he ▸ ho)⟩

/-- Looking behind what was searched misses no line feed. -/
theorem lineEnd?_eq (b : LineBuffer) : b.lineEnd? = b.octets.findIdx? (· == lineFeed) := by
  have front := findIdx?_lineFeed_eq_none_iff.mpr b.vain
  have length := List.length_take_of_le b.searched_le
  rw [← List.take_append_drop b.searched b.octets, List.findIdx?_append, front, Option.none_or,
    length]
  rfl

theorem next?_eq_none_iff {b : LineBuffer} : b.next? = none ↔ lineFeed ∉ b.octets := by
  rw [next?, Option.map_eq_none_iff, lineEnd?_eq, findIdx?_lineFeed_eq_none_iff]

theorem next?_of_octets {b : LineBuffer} {segment rest : Octets} (h : lineFeed ∉ segment)
    (hb : b.octets = segment ++ lineFeed :: rest) :
    b.next? = some (Utf8.decode (dropReturn segment), { octets := rest }) := by
  have place : b.lineEnd? = some segment.length := by
    rw [lineEnd?_eq, hb, List.findIdx?_append, findIdx?_lineFeed_eq_none_iff.mpr h,
      List.findIdx?_cons]
    simp
  rw [next?, place, Option.map_some]
  simp [hb]

theorem next?_length {b c : LineBuffer} {line : String} (h : b.next? = some (line, c)) :
    c.octets.length < b.octets.length := by
  have found : lineFeed ∈ b.octets := by
    refine Decidable.not_not.mp fun hm => ?_
    rw [next?_eq_none_iff.mpr hm] at h
    cases h
  obtain ⟨segment, rest, hb, hs⟩ := List.eq_append_cons_of_mem found
  rw [next?_of_octets hs hb] at h
  cases h
  rw [hb, List.length_append, List.length_cons]
  exact Nat.lt_add_left _ (Nat.lt_succ_self _)

/-- A buffer without a complete line, all of which has been searched. -/
def searchedOut (b : LineBuffer) (none : b.next? = none) : LineBuffer where
  octets := b.octets
  searched := b.octets.length
  searched_le := Nat.le_refl _
  vain := by
    rw [List.take_length]
    exact next?_eq_none_iff.mp none

/-- Takes the first line, if one is complete. -/
def next (b : LineBuffer) : Option String × LineBuffer :=
  match h : b.next? with
  | some (line, rest) => (some line, rest)
  | none => (none, b.searchedOut h)

theorem next_of_some {b c : LineBuffer} {line : String} (h : b.next? = some (line, c)) :
    b.next = (some line, c) := by
  unfold next
  split
  · rename_i taken
    rw [h] at taken
    cases taken
    rfl
  · rename_i none
    rw [h] at none
    cases none

theorem next_of_none {b : LineBuffer} (h : b.next? = none) :
    b.next = (none, b.searchedOut h) := by
  unfold next
  split
  · rename_i taken
    rw [h] at taken
    cases taken
  · rfl

theorem next?_of_next_some {b c : LineBuffer} {line : String} (h : b.next = (some line, c)) :
    b.next? = some (line, c) := by
  cases hn : b.next? with
  | none =>
    rw [next_of_none hn] at h
    cases h
  | some taken =>
    rw [next_of_some hn] at h
    cases h
    rfl

theorem next?_of_next_none {b c : LineBuffer} (h : b.next = (none, c)) :
    b.next? = none ∧ c.octets = b.octets := by
  cases hn : b.next? with
  | none =>
    rw [next_of_none hn] at h
    cases h
    exact ⟨rfl, rfl⟩
  | some taken =>
    rw [next_of_some hn] at h
    cases h

/-- What was searched in vain holds no line. -/
theorem next?_eq_none_of_next_none {b c : LineBuffer} (h : b.next = (none, c)) :
    c.next? = none := by
  obtain ⟨none, same⟩ := next?_of_next_none h
  rw [next?_eq_none_iff] at none ⊢
  rw [same]
  exact none

/-- The first complete lines, at most so many of them, and what is left without them. -/
def take : Nat → LineBuffer → List String × LineBuffer
  | 0, b => ([], b)
  | n + 1, b =>
    match b.next with
    | (none, rest) => ([], rest)
    | (some line, rest) => (line :: (take n rest).1, (take n rest).2)

/-- All complete lines. There are no more of them than octets. -/
def takeAll (b : LineBuffer) : List String × LineBuffer := b.take b.octets.length

end LineBuffer

end DebugLink

import DebugLink.LineBuffer

/-! The lines of some octets, said without a buffer: what stands before each line feed. Octets
after the last line feed belong to no line yet, so more octets can add lines but change none, and
taking the first line off a buffer takes the first line off whatever it will hold. -/

namespace DebugLink.LineBuffer

/-- The octets before each line feed. -/
def segments (octets : Octets) : List Octets := (octets.splitOn lineFeed).dropLast

/-- The lines that octets complete. -/
def completeLines (octets : Octets) : List String :=
  (segments octets).map fun segment => Utf8.decode (dropReturn segment)

theorem segments_of_not_mem {octets : Octets} (h : lineFeed ∉ octets) : segments octets = [] := by
  rw [segments, List.splitOn_eq_singleton h]
  rfl

theorem segments_append_cons {segment : Octets} (h : lineFeed ∉ segment) (rest : Octets) :
    segments (segment ++ lineFeed :: rest) = segment :: segments rest := by
  rw [segments, List.splitOn_append_cons_self_of_not_mem h]
  exact List.dropLast_cons_of_ne_nil (List.splitOn_ne_nil _ _)

theorem exists_segment_of_next?_some {b c : LineBuffer} {line : String}
    (h : b.next? = some (line, c)) : ∃ segment, lineFeed ∉ segment ∧
      b.octets = segment ++ lineFeed :: c.octets ∧ line = Utf8.decode (dropReturn segment) := by
  by_cases hm : lineFeed ∈ b.octets
  · obtain ⟨segment, rest, hb, hs⟩ := List.eq_append_cons_of_mem hm
    rw [next?_of_octets hs hb] at h
    cases h
    exact ⟨segment, hs, hb, rfl⟩
  · rw [next?_eq_none_iff.mpr hm] at h
    cases h

theorem completeLines_of_not_mem {octets : Octets} (h : lineFeed ∉ octets) :
    completeLines octets = [] := by
  rw [completeLines, segments_of_not_mem h]
  rfl

theorem completeLines_of_next?_none {b : LineBuffer} (h : b.next? = none) :
    completeLines b.octets = [] := completeLines_of_not_mem (next?_eq_none_iff.mp h)

/-- Whatever is still to come, the first line is the one that is taken first. -/
theorem completeLines_of_next?_some {b c : LineBuffer} {line : String}
    (h : b.next? = some (line, c)) (more : Octets) :
    completeLines (b.octets ++ more) = line :: completeLines (c.octets ++ more) := by
  obtain ⟨segment, hs, hb, rfl⟩ := exists_segment_of_next?_some h
  rw [completeLines, hb, List.append_assoc, List.cons_append, segments_append_cons hs]
  rfl

/-- A carriage return belongs to the line feed after it. -/
example : completeLines [0x61, 0x0D, 0x0A, 0x62, 0x0A, 0x63] = ["a", "b"] := by decide

end DebugLink.LineBuffer

import DebugLink.Proofs.Lines

/-! A line buffer in use. Octets are pushed in pieces, and lines are taken one by one or several at
once, in any order. What has been taken and what is left are at every moment the two halves of all
that was pushed: the first lines of it, as many as were taken, and the octets behind them. Each use
keeps to this (`Splits`), so a run of uses does, and how the octets were cut does not show. -/

namespace DebugLink.LineBuffer

/-- What can be done with a buffer. -/
inductive Use where
  | push (octets : Octets)
  | next
  /-- Lines are taken until there are so many, or until there is no more if there is no limit. -/
  | lines (limit : Option Nat)
  /-- Somebody looks at what is left, or for a line in it. -/
  | look

/-- The octets that a use adds. -/
def Use.octets : Use → Octets
  | .push octets => octets
  | _ => []

/-- The lines that a use takes, and what is left behind it. -/
def use (b : LineBuffer) : Use → List String × LineBuffer
  | .push octets => ([], b.push octets)
  | .next => (b.next.1.toList, b.next.2)
  | .lines (some limit) => b.take limit
  | .lines none => b.takeAll
  | .look => ([], b)

/-- All lines that are taken by one use after the other, and what is left in the end. -/
def run (b : LineBuffer) : List Use → List String × LineBuffer
  | [] => ([], b)
  | u :: uses => ((b.use u).1 ++ ((b.use u).2.run uses).1, ((b.use u).2.run uses).2)

/-! ### Octets that are split into lines and a rest -/

/-- The octets of segments with a line feed behind each of them. -/
def joined (segments : List Octets) : Octets := segments.flatMap (· ++ [lineFeed])

/-- These are the first lines of the octets, and the rest is what stands behind them. -/
def Splits (octets : Octets) (lines : List String) (rest : Octets) : Prop :=
  ∃ front : List Octets, (∀ segment ∈ front, lineFeed ∉ segment) ∧ octets = joined front ++ rest ∧
    lines = front.map fun segment => Utf8.decode (dropReturn segment)

theorem joined_cons_append (segment : Octets) (segments : List Octets) (rest : Octets) :
    joined (segment :: segments) ++ rest = segment ++ lineFeed :: (joined segments ++ rest) := by
  simp [joined]

theorem segments_joined_append {front : List Octets} (h : ∀ segment ∈ front, lineFeed ∉ segment)
    (rest : Octets) : segments (joined front ++ rest) = front ++ segments rest := by
  induction front with
  | nil => rfl
  | cons segment front ih =>
    have whole : lineFeed ∉ segment := h segment List.mem_cons_self
    have behind := ih fun s hs => h s (List.mem_cons_of_mem _ hs)
    rw [joined_cons_append, segments_append_cons whole, behind, List.cons_append]

namespace Splits

variable {octets rest last : Octets} {lines more : List String}

theorem refl (octets : Octets) : Splits octets [] octets := ⟨[], nofun, rfl, rfl⟩

theorem trans (first : Splits octets lines rest) (second : Splits rest more last) :
    Splits octets (lines ++ more) last := by
  obtain ⟨front, whole, rfl, rfl⟩ := first
  obtain ⟨next, whole', rfl, rfl⟩ := second
  refine ⟨front ++ next, ?_, ?_, ?_⟩
  · intro segment hs
    rcases List.mem_append.mp hs with hs | hs
    · exact whole segment hs
    · exact whole' segment hs
  · rw [joined, joined, joined, List.flatMap_append, List.append_assoc]
  · rw [List.map_append]

/-- Octets that come later do not change the lines that were taken before. -/
theorem append (h : Splits octets lines rest) (later : Octets) :
    Splits (octets ++ later) lines (rest ++ later) := by
  obtain ⟨front, whole, rfl, rfl⟩ := h
  exact ⟨front, whole, List.append_assoc .., rfl⟩

theorem completeLines_eq (h : Splits octets lines rest) :
    completeLines octets = lines ++ completeLines rest := by
  obtain ⟨front, whole, rfl, rfl⟩ := h
  rw [completeLines, segments_joined_append whole, List.map_append]
  rfl

theorem front_eq (h : Splits octets lines rest) :
    octets = joined ((segments octets).take lines.length) ++ rest := by
  obtain ⟨front, whole, rfl, rfl⟩ := h
  rw [segments_joined_append whole, List.length_map, List.take_left]

end Splits

/-! ### Each use splits what is there -/

theorem splits_next (b : LineBuffer) : Splits b.octets b.next.1.toList b.next.2.octets := by
  cases hn : b.next with
  | mk line rest =>
    cases line with
    | none =>
      rw [(next?_of_next_none hn).2]
      exact .refl _
    | some line =>
      obtain ⟨segment, whole, hb, rfl⟩ := exists_segment_of_next?_some (next?_of_next_some hn)
      refine ⟨[segment], by simpa using whole, ?_, rfl⟩
      rw [hb]
      simp [joined]

theorem splits_take (limit : Nat) (b : LineBuffer) :
    Splits b.octets (b.take limit).1 (b.take limit).2.octets := by
  induction limit generalizing b with
  | zero => exact .refl _
  | succ limit ih =>
    have first := b.splits_next
    rw [take]
    split
    · rename_i hn
      rw [hn] at first
      exact first
    · rename_i line rest hn
      rw [hn] at first
      exact first.trans (ih rest)

theorem splits_use (b : LineBuffer) (u : Use) :
    Splits (b.octets ++ u.octets) (b.use u).1 (b.use u).2.octets := by
  have idle : ∀ {lines rest}, Splits b.octets lines rest → Splits (b.octets ++ []) lines rest := by
    intro lines rest h
    rw [List.append_nil]
    exact h
  cases u with
  | push octets => exact .refl _
  | next => exact idle b.splits_next
  | lines limit =>
    cases limit with
    | none => exact idle (b.splits_take b.octets.length)
    | some limit => exact idle (b.splits_take limit)
  | look => exact idle (.refl _)

theorem splits_run (b : LineBuffer) (uses : List Use) :
    Splits (b.octets ++ uses.flatMap Use.octets) (b.run uses).1 (b.run uses).2.octets := by
  induction uses generalizing b with
  | nil =>
    rw [List.flatMap_nil, List.append_nil]
    exact .refl _
  | cons u uses ih =>
    have first := (b.splits_use u).append (uses.flatMap Use.octets)
    rw [List.flatMap_cons, ← List.append_assoc]
    exact first.trans (ih (b.use u).2)

/-! ### What is taken next -/

theorem hasLine_iff {b : LineBuffer} : b.hasLine = true ↔ lineFeed ∈ b.octets := by
  have split : lineFeed ∈ b.octets ↔
      lineFeed ∈ b.octets.take b.searched ∨ lineFeed ∈ b.octets.drop b.searched := by
    rw [← List.mem_append, List.take_append_drop]
  rw [hasLine, List.contains_iff_mem, split, or_iff_right b.vain]

theorem next_fst_eq (b : LineBuffer) : b.next.1 = (completeLines b.octets).head? := by
  cases hn : b.next? with
  | none =>
    rw [next_of_none hn, completeLines_of_next?_none hn]
    rfl
  | some taken =>
    obtain ⟨line, rest⟩ := taken
    have lines := completeLines_of_next?_some hn []
    rw [List.append_nil] at lines
    rw [next_of_some hn, lines]
    rfl

theorem take_fst_eq (limit : Nat) (b : LineBuffer) :
    (b.take limit).1 = (completeLines b.octets).take limit := by
  induction limit generalizing b with
  | zero => rfl
  | succ limit ih =>
    rw [take]
    split
    · rename_i hn
      rw [completeLines_of_next?_none (next?_of_next_none hn).1]
      rfl
    · rename_i line rest hn
      have lines := completeLines_of_next?_some (next?_of_next_some hn) []
      rw [List.append_nil, List.append_nil] at lines
      rw [lines, ih, List.take_succ_cons]

theorem next?_take_of_length_le {b : LineBuffer} {limit : Nat} (h : b.octets.length ≤ limit) :
    (b.take limit).2.next? = none := by
  induction limit generalizing b with
  | zero =>
    have empty : b.octets = [] := List.length_eq_zero_iff.mp (Nat.le_zero.mp h)
    exact next?_eq_none_iff.mpr (by simp [take, empty])
  | succ limit ih =>
    rw [take]
    split
    · rename_i hn
      exact next?_eq_none_of_next_none hn
    · rename_i line rest hn
      have shorter := next?_length (next?_of_next_some hn)
      exact ih (by omega)

theorem takeAll_fst_eq (b : LineBuffer) : b.takeAll.1 = completeLines b.octets := by
  have nothing := completeLines_of_next?_none (next?_take_of_length_le (Nat.le_refl b.octets.length))
  have taken := (b.splits_take b.octets.length).completeLines_eq
  rw [nothing, List.append_nil] at taken
  exact taken.symm

/-- Nothing is left to be taken after all lines were. -/
theorem next?_run_concat (b : LineBuffer) (uses : List Use) :
    (b.run (uses ++ [.lines none])).2.next? = none := by
  induction uses generalizing b with
  | nil => exact next?_take_of_length_le (Nat.le_refl b.octets.length)
  | cons u uses ih => exact ih (b.use u).2

/-- However octets are cut into pieces and whenever lines are taken in between, the lines taken are
the first ones of all octets pushed, without their line ends, and what is left is all that stands
behind these. What is taken next, be it one line, some or all, are the lines that follow in all
octets pushed, and there is one exactly if a line feed is left. -/
theorem lines_are_those_of_all_octets (uses : List Use) :
    let all := uses.flatMap Use.octets
    let lines := (run {} uses).1
    let b := (run {} uses).2
    lines = ((segments all).take lines.length).map
        (fun segment => Utf8.decode (dropReturn segment)) ∧
      all = ((segments all).take lines.length).flatMap (· ++ [lineFeed]) ++ b.octets ∧
      (b.next.1 = none ↔ lineFeed ∉ b.octets) ∧
      (b.hasLine = true ↔ lineFeed ∈ b.octets) ∧
      b.next.1 = (completeLines all)[lines.length]? ∧
      (∀ limit, (b.take limit).1 = ((completeLines all).drop lines.length).take limit) ∧
      b.takeAll.1 = (completeLines all).drop lines.length := by
  intro all lines b
  have splits : Splits all lines b.octets := splits_run {} uses
  have complete : completeLines all = lines ++ completeLines b.octets := splits.completeLines_eq
  have behind : (completeLines all).drop lines.length = completeLines b.octets := by
    rw [complete, List.drop_left]
  refine ⟨?_, splits.front_eq, ?_, hasLine_iff, ?_, ?_, ?_⟩
  · rw [List.map_take]
    change lines = (completeLines all).take lines.length
    rw [complete, List.take_left]
  · rw [← next?_eq_none_iff]
    constructor
    · intro none
      exact (next?_of_next_none (Prod.ext none rfl)).1
    · intro none
      rw [next_of_none none]
  · rw [next_fst_eq, ← behind, List.head?_drop]
  · intro limit
    rw [take_fst_eq, behind]
  · rw [takeAll_fst_eq, behind]

end DebugLink.LineBuffer

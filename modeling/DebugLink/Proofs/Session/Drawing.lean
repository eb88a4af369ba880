import DebugLink.Proofs.Framing
import DebugLink.Proofs.Session.Stopping

/-! Sessions that draw on a channel. Octets pass from the channel through the line buffer and leave
it as lines, and none is lost on the way: at any time all that was fed is the lines taken so far and
then what the buffer and the channel hold (`Draws`). Where no write fails, the session is closed by
the end of the stream alone. It finds this end when it has looked for a line in vain and the channel
is empty, so nothing but an unfinished line can be left then. -/

namespace DebugLink.Session

open LineBuffer (Splits completeLines lineFeed)

/-- Of the octets fed, the session has taken these lines, and holds or has in its channel whatever
stands behind them. -/
structure Draws (octets : Octets) (taken : List String) (c : Channel) (s : Session) : Prop where
  source : s.ReadsFrom c
  honest : c.Honest
  splits : Splits octets taken (s.lines.octets ++ c.pending)
  unlimited : s.desk.sink.remaining = none
  ended : s.isClosed = true → c.feeders = 0 ∧ c.pending = [] ∧ lineFeed ∉ s.lines.octets

/-- To begin with, all that a session can read is what its buffer and its channel hold. -/
theorem draws_of_steady {s : Session} {c : Channel} (source : s.ReadsFrom c) (honest : c.Honest)
    (steady : s.desk.Steady) : Draws (s.lines.octets ++ c.pending) [] c s := by
  refine ⟨source, honest, .refl _, steady.unlimited, fun closed => ?_⟩
  rw [isClosed, steady.opened] at closed
  cases closed

namespace Draws

variable {octets : Octets} {taken : List String} {c : Channel} {s : Session}

/-- Whatever else happens to the tracker, nothing is drawn by it. -/
theorem atTracker (h : Draws octets taken c s) {tracker : Tracker}
    (unlimited : tracker.desk.sink.remaining = none)
    (closed : tracker.desk.closed = s.desk.closed) :
    Draws octets taken c { s with tracker } where
  source := h.source
  honest := h.honest
  splits := h.splits
  unlimited := unlimited
  ended hc := h.ended (closed.symm.trans hc)

theorem afterLine (h : Draws octets taken c s) {line : String} {rest : LineBuffer}
    (hl : s.lines.next = (some line, rest)) :
    Draws octets (taken ++ [line]) c (s.afterLine line rest) := by
  have first : Splits s.lines.octets [line] rest.octets := by
    have split := s.lines.splits_next
    rw [hl] at split
    exact split
  obtain ⟨unlimited, closed⟩ := Tracker.unlimited_takeLine h.unlimited line
  refine ⟨h.source, h.honest, h.splits.trans (first.append c.pending), unlimited, fun hc => ?_⟩
  -- A session that is closed has no line left, so this one is taken while it is open.
  have finished := (h.ended (closed.symm.trans hc)).2.2
  rw [← LineBuffer.next?_eq_none_iff, LineBuffer.next?_of_next_some hl] at finished
  cases finished

theorem vain (h : Draws octets taken c s) {rest : LineBuffer}
    (hn : s.lines.next = (none, rest)) : Draws octets taken c { s with lines := rest } := by
  have same : rest.octets = s.lines.octets := (LineBuffer.next?_of_next_none hn).2
  refine ⟨h.source, h.honest, ?_, h.unlimited, fun hc => ?_⟩
  · show Splits octets taken (rest.octets ++ c.pending)
    rw [same]
    exact h.splits
  · show c.feeders = 0 ∧ c.pending = [] ∧ lineFeed ∉ rest.octets
    rw [same]
    exact h.ended hc

/-- Filling takes no line. If it finds nothing, the channel is empty, and the session is closed just
if nobody feeds the channel any more. -/
theorem fill (h : Draws octets taken c s) (searched : s.lines.next? = none) :
    ∃ d, d.feeders = c.feeders ∧ Draws octets taken d s.fill.2 ∧
      (s.fill.1 = false → d.pending = [] ∧ s.fill.2.lines = s.lines ∧
        (s.fill.2.isClosed = true ↔ c.feeders = 0)) := by
  by_cases hc : s.isClosed = true
  · obtain ⟨feeders, empty, unfinished⟩ := h.ended hc
    rw [fill_of_closed hc]
    exact ⟨c, rfl, h, fun _ => ⟨empty, rfl, iff_of_true hc feeders⟩⟩
  · obtain ⟨d, outcome, feeders, honest⟩ := fill_of_channel h.source hc
    have honest : d.Honest := honest h.honest
    have splits : Splits octets taken (s.fill.2.lines.octets ++ d.pending) := by
      rw [outcome.moved]
      exact h.splits
    have filled : Draws octets taken d s.fill.2 := by
      generalize s.fill = filled at outcome splits
      obtain ⟨more, u⟩ := filled
      cases outcome with
      | data | nothing => exact ⟨rfl, honest, splits, h.unlimited, fun hc' => absurd hc' hc⟩
      | ended _ empty noticed =>
        have unfinished : lineFeed ∉ s.lines.octets := LineBuffer.next?_eq_none_iff.mp searched
        exact ⟨rfl, honest, splits, h.unlimited, fun _ => ⟨honest noticed, empty, unfinished⟩⟩
    refine ⟨d, feeders, filled, fun hf => ?_⟩
    rw [hf] at outcome
    obtain ⟨empty, same⟩ := outcome.lines
    refine ⟨empty, same, ?_, fun deserted => isClosed_of_deserted h.source hc deserted hf⟩
    intro closed
    exact feeders.symm.trans (filled.ended closed).1

/-- All that filling can do to a tracker is to close it. -/
theorem tracker_fill (h : Draws octets taken c s) :
    s.fill.2.tracker = s.tracker ∨
      s.fill.2.tracker = { s.tracker with desk := { s.tracker.desk with closed := true } } := by
  by_cases hc : s.isClosed = true
  · rw [fill_of_closed hc]
    exact .inl rfl
  · obtain ⟨d, outcome, -⟩ := fill_of_channel h.source hc
    generalize s.fill = filled at outcome
    obtain ⟨more, u⟩ := filled
    cases outcome with
    | data | nothing => exact .inl rfl
    | ended => exact .inr rfl

theorem takeStop (h : Draws octets taken c s) (target : Option Token) :
    Draws octets taken c (s.takeStop target) := h.atTracker h.unlimited rfl

theorem withDesk (h : Draws octets taken c s) {d : Desk} (moves : s.desk.Moves d) :
    Draws octets taken c (s.withDesk d) := by
  obtain ⟨unlimited, closed⟩ := moves.unlimited h.unlimited
  exact h.atTracker unlimited closed

/-- What is fed comes to stand behind all else. Nobody has noticed the end of a channel that is still
fed. -/
theorem feeding (h : Draws octets taken c s) {d : Channel} {piece : Octets} (fed : c.feeders ≠ 0)
    (noticed : d.noticed = c.noticed) (pending : d.pending = c.pending ++ piece) :
    Draws (octets ++ piece) taken d { s with source := ⟨.channel d, {}⟩ } := by
  refine ⟨rfl, ?_, ?_, h.unlimited, fun closed => absurd (h.ended closed).1 fed⟩
  · intro late
    exact absurd (h.honest (noticed ▸ late)) fed
  · rw [pending, ← List.append_assoc]
    exact h.splits.append piece

end Draws

/-! ### Drawing lines one after the other -/

variable {octets : Octets} {taken lines : List String} {c : Channel} {s t : Session}

theorem Takes.draws (takes : s.Takes lines t) (h : Draws octets taken c s) :
    ∃ d, d.feeders = c.feeders ∧ Draws octets (taken ++ lines) d t := by
  induction takes generalizing taken c with
  | none s =>
    rw [List.append_nil]
    exact ⟨c, rfl, h⟩
  | @line s t line rest lines hl _ ih =>
    obtain ⟨d, feeders, drawn⟩ := ih (h.afterLine hl)
    rw [List.append_assoc] at drawn
    exact ⟨d, feeders, drawn⟩
  | @filled s t u rest lines hn hf _ ih =>
    obtain ⟨d, feeders, filled, -⟩ := (h.vain hn).fill (LineBuffer.next?_eq_none_of_next_none hn)
    rw [hf] at filled
    obtain ⟨d', feeders', drawn⟩ := ih filled
    exact ⟨d', feeders'.trans feeders, drawn⟩

/-- Reading to the end leaves an unfinished line at most, and closes the session just if nobody
feeds its channel any more. -/
theorem Reads.draws (reads : s.Reads lines t) (h : Draws octets taken c s) :
    ∃ d, d.feeders = c.feeders ∧ Draws octets (taken ++ lines) d t ∧ d.pending = [] ∧
      lineFeed ∉ t.lines.octets ∧ (t.isClosed = true ↔ c.feeders = 0) := by
  obtain ⟨u, rest, takes, hn, hf⟩ := reads.takes
  obtain ⟨d, feeders, drawn⟩ := takes.draws h
  have searched := LineBuffer.next?_eq_none_of_next_none hn
  obtain ⟨d', feeders', last, found⟩ := (drawn.vain hn).fill searched
  rw [hf] at last found
  obtain ⟨empty, same, closed⟩ := found rfl
  refine ⟨d', feeders'.trans feeders, last, empty, ?_, closed.trans (by rw [feeders])⟩
  rw [same]
  exact LineBuffer.next?_eq_none_iff.mp searched

theorem Reads.opened_eq (reads : s.Reads lines t) (h : Draws octets taken c s) :
    t.tracker.opened = (s.tracker.takeLines lines).opened := by
  obtain ⟨u, rest, takes, hn, hf⟩ := reads.takes
  obtain ⟨d, -, drawn⟩ := takes.draws h
  have last := (drawn.vain hn).tracker_fill
  rw [hf] at last
  rw [← takes.tracker_eq]
  rcases last with same | closed
  · have opened := congrArg Tracker.opened same
    exact opened
  · have opened := congrArg Tracker.opened closed
    exact opened

/-- What is read to the end are the lines of all octets in the buffer and the channel. -/
theorem Draws.reads (h : Draws octets taken c s) :
    ∃ t, s.Reads (completeLines (s.lines.octets ++ c.pending)) t := by
  obtain ⟨lines, t, reads⟩ := exists_reads [] s
  have ahead : Draws (s.lines.octets ++ c.pending) [] c s := { h with splits := .refl _ }
  obtain ⟨d, -, drawn, empty, unfinished, -⟩ := reads.draws ahead
  have all := drawn.splits.completeLines_eq
  rw [empty, List.append_nil, LineBuffer.completeLines_of_not_mem unfinished, List.append_nil,
    List.nil_append] at all
  rw [all]
  exact ⟨t, reads⟩

end DebugLink.Session

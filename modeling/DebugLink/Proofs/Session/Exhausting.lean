import DebugLink.Proofs.Framing
import DebugLink.Proofs.Session.Reading
import DebugLink.Proofs.Session.Remembering

/-! Reading to the end, told by the lines that are taken on the way. The records got are those of
the lines, and what the tracker shows of its handlers is what it shows after taking the lines one by
one: filling the buffer in between leaves it alone, and what the last attempt does to it, if it finds
the stream at its end, concerns no handler. -/

namespace DebugLink

namespace Tracker

theorem takeLine_fst (t : Tracker) (line : String) : (t.takeLine line).1 = accepted? line := by
  unfold takeLine accepted?
  split
  · rfl
  · split
    · rename_i hm
      rw [hm]
      rfl
    · rename_i hm
      rw [hm]
      rfl

end Tracker

namespace Session

/-! ### Lines that are read -/

/-- Reading to the end takes these lines one after the other, and leads there. -/
inductive Reads : Session → List String → Session → Prop
  | line {s t : Session} {line : String} {rest : LineBuffer} {lines : List String} :
      s.lines.next = (some line, rest) → Reads (s.afterLine line rest) lines t →
      Reads s (line :: lines) t
  | filled {s t u : Session} {rest : LineBuffer} {lines : List String} :
      s.lines.next = (none, rest) → fill { s with lines := rest } = (true, u) → Reads u lines t →
      Reads s lines t
  | unfilled {s t : Session} {rest : LineBuffer} :
      s.lines.next = (none, rest) → fill { s with lines := rest } = (false, t) → Reads s [] t

theorem exists_reads (got : List Message) (s : Session) : ∃ lines t, s.Reads lines t := by
  induction got, s using readWhile.induct fun _ => false with
  | case1 got s he => cases he
  | case2 got s he line rest hl _ m tracker htaken ih =>
    obtain ⟨lines, t, reads⟩ := ih
    have next : s.afterLine line rest = { s with tracker, lines := rest } := by
      rw [afterLine, htaken]
    exact ⟨line :: lines, t, .line hl (next ▸ reads)⟩
  | case3 got s he rest hn u hf _ ih =>
    obtain ⟨lines, t, reads⟩ := ih
    exact ⟨lines, t, .filled hn hf reads⟩
  | case4 got s he rest hn t hf => exact ⟨[], t, .unfilled hn hf⟩

theorem Reads.readWhile_eq {s t : Session} {lines : List String} (h : s.Reads lines t)
    (got : List Message) :
    s.readWhile (fun _ => false) got = (got ++ lines.filterMap accepted?, t) := by
  induction h generalizing got with
  | @line s t line rest lines hl _ ih =>
    rw [readWhile_of_line Bool.false_ne_true hl, ih, s.tracker.takeLine_fst]
    cases h : accepted? line <;> simp [h]
  | filled hn hf _ ih => rw [readWhile_of_filled Bool.false_ne_true hn hf, ih]
  | unfilled hn hf =>
    rw [readWhile_of_unfilled Bool.false_ne_true hn hf, List.filterMap_nil, List.append_nil]

theorem Reads.read_eq {s t : Session} {lines : List String} (h : s.Reads lines t) :
    s.read = (lines.filterMap accepted?, t) := h.readWhile_eq []

/-- Filling leaves the tracker alone, unless it finds that the stream is over or broken. -/
theorem tracker_of_filled {s t : Session} (h : s.fill = (true, t)) : t.tracker = s.tracker := by
  unfold fill at h
  split at h
  · cases h
  · split at h
    · cases h
    · cases h
    · split at h
      · cases h
      · cases h
      · cases h
      · cases h
        rfl

theorem effects_of_unfilled {s t : Session} (h : s.fill = (false, t)) :
    t.tracker.effects = s.tracker.effects := by
  have failed : ∀ (n : Notice) (source : Source),
      ({ s with source }.notice n).markClosed.tracker.effects = s.tracker.effects := by
    intro n source
    simp [markClosed, withDesk, desk, notice, Tracker.notice, Tracker.log, Desk.log,
      Tracker.effects, Tracker.observe, Event.isOfHandlers]
  unfold fill at h
  split at h
  · cases h
    rfl
  · split at h
    · cases h
      exact failed _ _
    · cases h
      rfl
    · split at h
      · cases h
        exact failed _ _
      · cases h
        rfl
      · cases h
        rfl
      · cases h

theorem Reads.effects {s t : Session} {lines : List String} (h : s.Reads lines t) :
    t.tracker.effects = (s.tracker.takeLines lines).effects := by
  induction h with
  | line _ _ ih => exact ih
  | filled _ hf _ ih => rw [ih, tracker_of_filled hf]
  | unfilled _ hf =>
    have same := effects_of_unfilled hf
    exact same

/-! ### Reading a channel empty -/

open LineBuffer (completeLines lineFeed)

/-- Every line in the buffer or the channel is read, or still there. -/
theorem Reads.completeLines_eq {s t : Session} {lines : List String} (h : s.Reads lines t)
    {c : Channel} (hs : s.ReadsFrom c) : ∃ c', t.ReadsFrom c' ∧ lineFeed ∉ t.lines.octets ∧
      completeLines (s.lines.octets ++ c.pending) =
        lines ++ completeLines (t.lines.octets ++ c'.pending) := by
  induction h generalizing c with
  | @line s t line rest lines hl _ ih =>
    obtain ⟨c', ht, left, taken⟩ := ih (c := c) hs
    refine ⟨c', ht, left, ?_⟩
    rw [LineBuffer.completeLines_of_next?_some (LineBuffer.next?_of_next_some hl), List.cons_append]
    exact congrArg (line :: ·) taken
  | @filled s t u rest lines hn hf _ ih =>
    obtain ⟨-, same⟩ := LineBuffer.next?_of_next_none hn
    have isOpen : ¬ isClosed { s with lines := rest } = true := by
      intro hc
      rw [fill_of_closed hc] at hf
      cases hf
    obtain ⟨d, outcome, -⟩ := fill_of_channel (s := { s with lines := rest }) (c := c) hs isOpen
    rw [hf] at outcome
    obtain ⟨c', ht, left, taken⟩ := ih outcome.readsFrom
    refine ⟨c', ht, left, ?_⟩
    rw [← same, ← taken]
    exact congrArg completeLines outcome.moved.symm
  | @unfilled s t rest hn hf =>
    obtain ⟨-, same⟩ := LineBuffer.next?_of_next_none hn
    have searched : lineFeed ∉ rest.octets :=
      LineBuffer.next?_eq_none_iff.mp (LineBuffer.next?_eq_none_of_next_none hn)
    by_cases hc : isClosed { s with lines := rest } = true
    · rw [fill_of_closed hc] at hf
      cases hf
      exact ⟨c, hs, searched, by rw [List.nil_append, same]⟩
    · obtain ⟨c', outcome, -⟩ := fill_of_channel (s := { s with lines := rest }) (c := c) hs hc
      rw [hf] at outcome
      refine ⟨c', outcome.readsFrom, ?_, ?_⟩
      · rw [outcome.lines.2]
        exact searched
      · rw [List.nil_append, ← same]
        exact congrArg completeLines outcome.moved.symm

/-- All of these octets, and no others, come out of the buffer and the channel when the session reads
to the end. A session that is closed on the way may leave some behind. -/
def Exhausts (s : Session) (octets : Octets) : Prop :=
  ∃ c c', s.ReadsFrom c ∧ s.lines.octets ++ c.pending = octets ∧
    s.read.2.ReadsFrom c' ∧ c'.pending = []

/-- Reading all octets is taking their lines. -/
theorem Exhausts.reads {s : Session} {octets : Octets} (h : s.Exhausts octets) :
    s.Reads (completeLines octets) s.read.2 := by
  obtain ⟨c, c', hs, rfl, ht, empty⟩ := h
  obtain ⟨lines, t, reads⟩ := exists_reads [] s
  obtain ⟨d, hd, left, taken⟩ := reads.completeLines_eq hs
  rw [reads.read_eq] at ht ⊢
  obtain rfl : d = c' := by
    have source : (⟨.channel d, {}⟩ : Source) = ⟨.channel c', {}⟩ := hd.symm.trans ht
    cases source
    rfl
  rw [empty, List.append_nil, LineBuffer.completeLines_of_not_mem left, List.append_nil] at taken
  rw [taken]
  exact reads

/-- Where no write fails, reading to the end empties the channel. -/
theorem Reads.emptied {s t : Session} {lines : List String} (h : s.Reads lines t) {c : Channel}
    (hs : s.ReadsFrom c) (steady : s.tracker.desk.Steady) :
    ∃ c', t.ReadsFrom c' ∧ c'.pending = [] := by
  have isOpen : ∀ {u : Session}, u.tracker.desk.Steady → ¬ u.isClosed = true := by
    intro u hu hc
    exact Bool.false_ne_true (hu.opened.symm.trans hc)
  induction h generalizing c with
  | @line s t line rest lines _ _ ih => exact ih (c := c) hs (Tracker.steady_takeLine steady line)
  | @filled s t u rest lines _ hf _ ih =>
    obtain ⟨d, outcome, -⟩ :=
      fill_of_channel (s := { s with lines := rest }) (c := c) hs (isOpen steady)
    rw [hf] at outcome
    have same := tracker_of_filled hf
    exact ih outcome.readsFrom (same ▸ steady)
  | @unfilled s t rest _ hf =>
    obtain ⟨c', outcome, -⟩ :=
      fill_of_channel (s := { s with lines := rest }) (c := c) hs (isOpen steady)
    rw [hf] at outcome
    exact ⟨c', outcome.readsFrom, outcome.lines.1⟩

theorem exhausts_of_steady {s : Session} {c : Channel} (hs : s.ReadsFrom c)
    (steady : s.tracker.desk.Steady) : s.Exhausts (s.lines.octets ++ c.pending) := by
  obtain ⟨lines, t, reads⟩ := exists_reads [] s
  obtain ⟨c', ht, empty⟩ := reads.emptied hs steady
  refine ⟨c, c', hs, rfl, ?_, empty⟩
  rw [reads.read_eq]
  exact ht

end Session
end DebugLink

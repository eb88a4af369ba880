import DebugLink.Proofs.Framing
import DebugLink.Proofs.Session.Runs

/-! What passes through a session in a run. Octets come into the buffer and lines are taken off it,
of which the records are received, and events are noted in the journal. Each move has its share in
this, and the shares of a run are appended to each other; nothing gets lost between them. -/

namespace DebugLink

open LineBuffer (Splits)

/-! ### What is noted at the desk -/

namespace Desk

/-- Between two moments these events were noted. -/
def Notes (d e : Desk) (events : List Event) : Prop :=
  e.journal.toList = d.journal.toList ++ events

variable {d e f : Desk} {events more : List Event}

theorem Notes.refl (d : Desk) : d.Notes d [] := (List.append_nil _).symm

theorem Notes.trans (first : d.Notes e events) (second : e.Notes f more) :
    d.Notes f (events ++ more) := by
  rw [Notes, second, first, List.append_assoc]

theorem notes_log (d : Desk) (event : Event) : d.Notes (d.log event) [event] := by
  simp [Notes, log]

theorem notes_send (d : Desk) (text : String) (onResult : OnResult Reaction)
    (onConsole : Option (OnConsole Reaction)) :
    ∃ notices : List Notice,
      d.Notes (d.send text onResult onConsole).2 (notices.map .noticed) := by
  unfold send
  dsimp only
  split
  · exact ⟨[], .refl d⟩
  · split
    · exact ⟨[], .refl d⟩
    · exact ⟨[_], notes_log _ _⟩

/-- Between two moments only such events were noted. -/
def NotesOnly (P : Event → Prop) (d e : Desk) : Prop :=
  ∃ events, d.Notes e events ∧ ∀ x ∈ events, P x

section NotesOnly
variable {P : Event → Prop}

theorem NotesOnly.refl (d : Desk) : NotesOnly P d d := ⟨[], .refl d, List.forall_mem_nil _⟩

theorem NotesOnly.trans (first : NotesOnly P d e) (second : NotesOnly P e f) :
    NotesOnly P d f := by
  obtain ⟨events, noted, all⟩ := first
  obtain ⟨more, continued, others⟩ := second
  exact ⟨_, noted.trans continued, List.forall_mem_append.mpr ⟨all, others⟩⟩

theorem NotesOnly.log (d : Desk) {event : Event} (h : P event) : NotesOnly P d (d.log event) :=
  ⟨_, d.notes_log event, List.forall_mem_singleton.mpr h⟩

theorem NotesOnly.send (d : Desk) (text : String) (onResult : OnResult Reaction)
    (onConsole : Option (OnConsole Reaction)) (h : ∀ notice, P (.noticed notice)) :
    NotesOnly P d (d.send text onResult onConsole).2 := by
  obtain ⟨notices, sent⟩ := d.notes_send text onResult onConsole
  exact ⟨_, sent, List.forall_mem_map.mpr fun notice _ => h notice⟩

end NotesOnly

/-- No record is received in the middle of taking another. -/
theorem Moves.notes (moves : d.Moves e) : NotesOnly (·.isReceipt = false) d e := by
  induction moves with
  | none => exact .refl d
  | log _ _ quiet ih => exact ih.trans (.log _ quiet)
  | send text onResult onConsole _ ih =>
    exact ih.trans (.send _ text onResult onConsole fun _ => rfl)
  | forget _ _ ih | requestStop _ ih | revise _ _ _ ih => exact ih

end Desk

theorem Tracker.notes_takeLine (t : Tracker) (line : String) :
    ∃ events, t.desk.Notes (t.takeLine line).2.desk events := by
  refine takeLine_keeps (Q := fun d => ∃ events, t.desk.Notes d events) ?_ ?_ ⟨[], .refl _⟩ line
  · rintro d e doings ⟨events, noted⟩
    obtain ⟨news, done, -⟩ := doings.moves.notes
    exact ⟨_, noted.trans done⟩
  · rintro d m ⟨events, noted⟩
    exact ⟨_, noted.trans (d.notes_log _)⟩

/-! ### The lines of a run -/

namespace Session

/-- Filling adds octets to the buffer, if it does anything to it. -/
theorem fill_octets (s : Session) :
    s.lines.octets ++ s.fill.2.lines.octets.drop s.lines.octets.length =
      s.fill.2.lines.octets := by
  have unfilled : s.lines.octets ++ s.lines.octets.drop s.lines.octets.length =
      s.lines.octets := by simp
  unfold fill
  split
  · exact unfilled
  · split
    · exact unfilled
    · exact unfilled
    · split
      · exact unfilled
      · exact unfilled
      · exact unfilled
      · simp [LineBuffer.push]

theorem notes_fill (s : Session) :
    ∃ notices : List Notice, s.desk.Notes s.fill.2.desk (notices.map .noticed) := by
  unfold fill
  split
  · exact ⟨[], .refl _⟩
  · split
    · exact ⟨[_], s.desk.notes_log _⟩
    · exact ⟨[], .refl _⟩
    · split
      · exact ⟨[_], s.desk.notes_log _⟩
      · exact ⟨[], .refl _⟩
      · exact ⟨[], .refl _⟩
      · exact ⟨[], .refl _⟩

end Session

namespace Chronicle

/-- The line that a move takes off the buffer. -/
def line? (c : Chronicle) : Move → Option String
  | .takeLine => c.session.lines.next.1
  | _ => none

/-- The octets that a move adds to the buffer. -/
def octets (c : Chronicle) : Move → Octets
  | .fill => c.session.fill.2.lines.octets.drop c.session.lines.octets.length
  | _ => []

/-- The lines that a run takes off the buffer, one after the other. -/
def taken (c : Chronicle) : List Move → List String
  | [] => []
  | move :: moves => (c.line? move).toList ++ (c.step move).taken moves

/-- The octets that come into the buffer in a run. -/
def filled (c : Chronicle) : List Move → Octets
  | [] => []
  | move :: moves => c.octets move ++ (c.step move).filled moves

theorem splits_step (c : Chronicle) (move : Move) :
    Splits (c.session.lines.octets ++ c.octets move) (c.line? move).toList
      (c.step move).session.lines.octets := by
  have idle : Splits (c.session.lines.octets ++ []) [] c.session.lines.octets := by
    rw [List.append_nil]
    exact .refl _
  cases move with
  | takeLine =>
    have next := c.session.lines.splits_next
    have unfilled : c.octets .takeLine = [] := rfl
    rw [unfilled, List.append_nil]
    unfold line? step
    dsimp only
    split
    · rename_i hl
      rw [hl] at next ⊢
      exact next
    · rename_i hn
      rw [hn] at next ⊢
      exact next
  | fill =>
    rw [octets, c.session.fill_octets]
    exact .refl _
  | _ => exact idle

/-- The lines taken are the first ones of what was in the buffer and what came into it. -/
theorem splits_run (c : Chronicle) (moves : List Move) :
    Splits (c.session.lines.octets ++ c.filled moves) (c.taken moves)
      (c.run moves).session.lines.octets := by
  induction moves generalizing c with
  | nil =>
    rw [filled, List.append_nil]
    exact .refl _
  | cons move moves ih =>
    have first := (c.splits_step move).append ((c.step move).filled moves)
    rw [filled, ← List.append_assoc]
    exact first.trans (ih (c.step move))

theorem history_records_step (c : Chronicle) (move : Move) :
    (c.step move).history.records =
      c.history.records ++ (c.line? move).toList.filterMap accepted? := by
  have idle : c.history.records = c.history.records ++ [] := (List.append_nil _).symm
  cases move with
  | takeLine =>
    unfold line? step
    dsimp only
    split
    · rename_i line rest hl
      rw [hl, History.records_takingLine, Option.toList_some, filterMap_cons_toList,
        List.filterMap_nil, List.append_nil]
    · rename_i hn
      rw [hn]
      exact idle
  | send text onResult onConsole =>
    have unsent := History.sending_of_ignoring (f := History.records) (fun _ _ _ _ => rfl)
      (fun _ _ => rfl) c.history c.session.desk text onResult onConsole
    exact unsent.trans idle
  | _ => exact idle

/-- The records received in a run are those of the lines taken. -/
theorem history_records_run (c : Chronicle) (moves : List Move) :
    (c.run moves).history.records =
      c.history.records ++ (c.taken moves).filterMap accepted? := by
  induction moves generalizing c with
  | nil => exact (List.append_nil _).symm
  | cons move moves ih =>
    have rest := ih (c.step move)
    rw [history_records_step, List.append_assoc, ← List.filterMap_append] at rest
    exact rest

/-- A move that takes no line off the buffer leaves no more than notices in the journal. -/
theorem notes_step {c : Chronicle} {move : Move} (idle : c.line? move = none) :
    ∃ notices : List Notice,
      c.session.desk.Notes (c.step move).session.desk (notices.map .noticed) := by
  cases move with
  | takeLine =>
    unfold step
    dsimp only
    split
    · rename_i hl
      rw [line?, hl] at idle
      cases idle
    · exact ⟨[], .refl _⟩
  | fill => exact c.session.notes_fill
  | takeStop target => exact ⟨[_], Desk.notes_log { c.session.desk with stopRequested := false } _⟩
  | send text onResult onConsole => exact c.session.desk.notes_send text onResult onConsole
  | _ => exact ⟨[], .refl _⟩

theorem tracker_step_of_line? {c : Chronicle} {move : Move} {line : String}
    (hl : c.line? move = some line) : (c.step move).tracker = (c.tracker.takeLine line).2 := by
  cases move with
  | takeLine =>
    unfold step
    dsimp only
    split
    · rename_i next
      rw [line?, next] at hl
      cases hl
      rfl
    · rename_i none
      rw [line?, none] at hl
      cases hl
  | _ => cases hl

/-- Nothing that was noted is ever taken back. -/
theorem notes_run (c : Chronicle) (moves : List Move) :
    ∃ events, c.session.desk.Notes (c.run moves).session.desk events := by
  induction moves generalizing c with
  | nil => exact ⟨[], .refl _⟩
  | cons move moves ih =>
    obtain ⟨events, rest⟩ := ih (c.step move)
    cases hl : c.line? move with
    | none =>
      obtain ⟨notices, first⟩ := notes_step hl
      exact ⟨_, first.trans rest⟩
    | some line =>
      obtain ⟨news, first⟩ := c.tracker.notes_takeLine line
      have same : (c.step move).session.desk = (c.tracker.takeLine line).2.desk :=
        congrArg (·.desk) (tracker_step_of_line? hl)
      rw [← same] at first
      exact ⟨_, first.trans rest⟩

end Chronicle

end DebugLink

import DebugLink.Proofs.Session.Operations
import DebugLink.Proofs.Session.Schedule
import DebugLink.Proofs.Session.Waiting

/-! The end of a stream. A session that sends, reads and waits as it likes, while its channel is fed
and at last deserted, draws lines from the channel all along (`Drawing`): each operation is made of
steps that take a line, move octets, or have to do with the desk alone. It is closed only by the end
of the stream, and finds this end only where no complete line is left, so by then it has taken all
lines that were ever fed. -/

namespace DebugLink

open LineBuffer (completeLines lineFeed joined segments)

/-! ### Lines taken amid other things -/

/-- From one tracker to the other these lines were taken, one after the other. Between them things
were done at the desk, subscribers came, and in the end the session may have been closed. -/
inductive Tracker.HasTaken (t : Tracker) : List String → Tracker → Prop
  | nothing : HasTaken t [] t
  | line {u : Tracker} {lines : List String} (line : String) :
      HasTaken t lines u → HasTaken t (lines ++ [line]) (u.takeLine line).2
  | moved {u : Tracker} {lines : List String} {desk : Desk} :
      HasTaken t lines u → u.desk.Moves desk → HasTaken t lines { u with desk }
  | stopTaken {u : Tracker} {lines : List String} (target : Option Token) :
      HasTaken t lines u → HasTaken t lines
        { u with desk := { u.desk with stopRequested := false }.notice (.waitStopped target) }
  | subscribed {u : Tracker} {lines : List String} (changeSubscribers : List ChangeSubscriber)
      (recordSubscribers : List RecordSubscriber) :
      HasTaken t lines u → HasTaken t lines { u with changeSubscribers, recordSubscribers }
  | closed {u : Tracker} {lines : List String} :
      HasTaken t lines u → HasTaken t lines { u with desk := { u.desk with closed := true } }

/-- Of these things only the lines bring records. -/
theorem Tracker.HasTaken.received_eq {t u : Tracker} {lines : List String} (h : t.HasTaken lines u) :
    received u.desk.journal = received t.desk.journal ++ lines.filterMap accepted? := by
  induction h with
  | nothing => exact (List.append_nil _).symm
  | line line _ ih =>
    rw [received_takeLine, ih, List.append_assoc, List.filterMap_append, filterMap_cons_toList,
      List.filterMap_nil, List.append_nil]
  | moved _ moves ih => exact moves.received.trans ih
  | stopTaken target _ ih => exact (received_push_of_quiet _ rfl).trans ih
  | subscribed _ _ _ ih | closed _ ih => exact ih

/-- All complete lines of these octets were taken and no others, the records among them were
received in their turn, and nothing but an unfinished line is left. -/
structure Session.HasTakenAll (t : Tracker) (octets : Octets) (s : Session) : Prop where
  taken : t.HasTaken (completeLines octets) s.tracker
  received : received s.desk.journal =
    received t.desk.journal ++ (completeLines octets).filterMap accepted?
  left : octets = joined (segments octets) ++ s.lines.octets
  unfinished : lineFeed ∉ s.lines.octets
  drained : ∃ c, s.ReadsFrom c ∧ c.pending = []

namespace Schedule

/-! ### Turns -/

/-- A step at either end of the channel, or whatever else can be asked of the session. -/
inductive Turn where
  | step (step : Step)
  | operate (operation : Operation) (own : operation.isOwn = true)

def Turn.step? : Turn → Option Step
  | .step s => some s
  | .operate .. => none

def turn (s : Session) : Turn → Session
  | .step step => act s step
  | .operate operation _ => s.act operation

def play (s : Session) (turns : List Turn) : Session := turns.foldl turn s

/-- What operations keep and what goes along with feeding holds after every play. -/
theorem Feedable.play {P : Nat → Octets → Session → Prop} (feedable : Feedable P)
    (enduring : ∀ n octets, Session.Enduring (P n octets)) (turns : List Turn) {n : Nat}
    {octets : Octets} {s : Session} (hs : P n octets s) :
    ∃ m, P m (octets ++ fed n (turns.filterMap Turn.step?)) (play s turns) := by
  induction turns generalizing n octets s with
  | nil =>
    rw [List.filterMap_nil, fed, List.append_nil]
    exact ⟨n, hs⟩
  | cons turn turns ih =>
    cases turn with
    | step step =>
      rw [List.filterMap_cons_some (f := Turn.step?) rfl, fed, ← List.append_assoc]
      exact ih (feedable.act step hs)
    | operate operation own =>
      rw [List.filterMap_cons_none (f := Turn.step?) rfl]
      exact ih ((enduring n octets).act operation own hs)

/-! ### Keeping up with all that is fed -/

/-- Having been fed some octets by so many feeders, the session has taken the first of their lines,
and draws the others from its channel. -/
def Drawing (t : Tracker) (n : Nat) (octets : Octets) (s : Session) : Prop :=
  ∃ lines c, c.feeders = n ∧ s.Draws octets lines c ∧ t.HasTaken lines s.tracker

variable {t : Tracker} {n : Nat} {octets : Octets} {s : Session}

/-- What is done at the desk has nothing to do with what is drawn. -/
theorem Drawing.withDesk (h : Drawing t n octets s) {d : Desk} (moves : s.desk.Moves d) :
    Drawing t n octets (s.withDesk d) := by
  obtain ⟨lines, c, feeders, drawn, taken⟩ := h
  exact ⟨lines, c, feeders, drawn.withDesk moves, taken.moved moves⟩

theorem Drawing.subscribed (h : Drawing t n octets s) (changeSubscribers : List ChangeSubscriber)
    (recordSubscribers : List RecordSubscriber) : Drawing t n octets
      { s with tracker := { s.tracker with changeSubscribers, recordSubscribers } } := by
  obtain ⟨lines, c, feeders, drawn, taken⟩ := h
  exact ⟨lines, c, feeders, drawn.atTracker drawn.unlimited rfl, taken.subscribed _ _⟩

theorem enduring_drawing (t : Tracker) (n : Nat) (octets : Octets) :
    Session.Enduring (Drawing t n octets) where
  line := by
    intro s line rest h hl
    obtain ⟨lines, c, feeders, drawn, taken⟩ := h
    exact ⟨lines ++ [line], c, feeders, drawn.afterLine hl, taken.line line⟩
  vain := by
    intro s rest h hn
    obtain ⟨lines, c, feeders, drawn, taken⟩ := h
    exact ⟨lines, c, feeders, drawn.vain hn, taken⟩
  fill := by
    intro s h searched
    obtain ⟨lines, c, feeders, drawn, taken⟩ := h
    obtain ⟨d, same, filled, -⟩ := drawn.fill searched
    refine ⟨lines, d, same.trans feeders, filled, ?_⟩
    rcases drawn.tracker_fill with idle | closed
    · rw [idle]
      exact taken
    · rw [closed]
      exact taken.closed
  stop := by
    intro s target h
    obtain ⟨lines, c, feeders, drawn, taken⟩ := h
    exact ⟨lines, c, feeders, drawn.takeStop target, taken.stopTaken target⟩
  attach := by
    intro s h _
    obtain ⟨lines, c, feeders, drawn, taken⟩ := h
    exact ⟨lines, c, feeders, { drawn with }, taken⟩
  send text onResult onConsole h := h.withDesk (.send text onResult onConsole .none)
  forget token h := h.withDesk (.forget token .none)
  clearOnConsole token h := h.withDesk (.revise token _ .none)
  requestStop h := h.withDesk (.requestStop .none)
  onChange _ h := h.subscribed _ _
  onRecord _ _ h := h.subscribed _ _

theorem feedable_drawing (t : Tracker) : Feedable (Drawing t) where
  reading n octets := (enduring_drawing t n octets).toStable
  feeding := by
    intro n octets s h
    obtain ⟨lines, c, rfl, drawn, taken⟩ := h
    exact ⟨c, rfl, drawn.source, fun d piece fed noticed pending =>
      ⟨lines, d, rfl, drawn.feeding fed noticed pending, taken⟩⟩

theorem drawing_listening (steady : t.desk.Steady) (chunkSize : Nat) :
    Drawing (listening t chunkSize).tracker 1 [] (listening t chunkSize) := by
  have steady : (listening t chunkSize).desk.Steady := ⟨steady.opened, steady.unlimited⟩
  have source : (listening t chunkSize).ReadsFrom {} := rfl
  exact ⟨[], {}, rfl, Session.draws_of_steady source nofun steady, .nothing⟩

/-- When the session is closed, the lines taken are all there are. -/
theorem Drawing.hasTakenAll (h : Drawing t n octets s) (closed : s.isClosed = true) :
    s.HasTakenAll t octets := by
  obtain ⟨lines, c, -, drawn, taken⟩ := h
  obtain ⟨-, empty, unfinished⟩ := drawn.ended closed
  have splits := drawn.splits
  rw [empty, List.append_nil] at splits
  have all := splits.completeLines_eq
  rw [LineBuffer.completeLines_of_not_mem unfinished, List.append_nil] at all
  have left := splits.front_eq
  rw [← all, completeLines, List.length_map, List.take_length] at left
  rw [← all] at taken
  exact ⟨taken, taken.received_eq, left, unfinished, c, drawn.source, empty⟩

/-- Whatever is fed, read, sent and waited for at a channel, and in whatever pieces: a session that
is closed has taken every complete line that was ever fed, and nothing but an unfinished line is
left. So has one whose poll finds it closed, or whose wait ends otherwise than with its record or
by a request to stop. -/
theorem end_of_stream_loses_no_line (t : Tracker) (steady : t.desk.Steady) (chunkSize : Nat)
    (turns : List Turn) :
    let first := listening t chunkSize
    let s := play first turns
    let octets := fed 1 (turns.filterMap Turn.step?)
    (s.isClosed = true → s.HasTakenAll first.tracker octets) ∧
      (∀ target, (s.poll target).1 = .closed →
        (s.poll target).2.HasTakenAll first.tracker octets) ∧
      (∀ target, (s.waitFor target).1 ∉ [.found, .stopped, .blocked] →
        (s.waitFor target).2.HasTakenAll first.tracker octets) := by
  intro first s octets
  obtain ⟨n, kept⟩ := (feedable_drawing first.tracker).play (enduring_drawing first.tracker) turns
    (drawing_listening steady chunkSize)
  have kept : Drawing first.tracker n octets s := kept
  have enduring := enduring_drawing first.tracker n octets
  refine ⟨kept.hasTakenAll, fun target ended => ?_, fun target ended => ?_⟩
  · exact (enduring.poll target kept).hasTakenAll (Session.isClosed_of_poll (Prod.ext ended rfl))
  · exact (enduring.waitFor target kept).hasTakenAll (Session.isClosed_of_waitFor ended)

/-- A line comes in two pieces with a send between them, and the feeder leaves in the middle of
another. A wait for a record that has not come takes the one line and is over. -/
theorem a_vain_wait_loses_no_line :
    let turns : List Turn := [.step (.feed (Utf8.encode "*runn")),
      .operate (.send "-exec-next" .nothing none) rfl,
      .step (.feed (Utf8.encode "ing\n7^do")), .step .leave]
    let s := play (listening {} 0) turns
    ({} : Tracker).desk.Steady ∧ ∃ u, s.waitFor (some ⟨7⟩) = (.closed, u) ∧
      received u.desk.journal = [⟨none, ⟨.execAsync, "running", []⟩⟩] ∧
      u.lines.octets = Utf8.encode "7^do" := by
  intro turns s
  have steady : ({} : Tracker).desk.Steady := ⟨rfl, rfl⟩
  obtain ⟨-, -, waited⟩ := end_of_stream_loses_no_line {} steady 0 turns
  let c : Channel := { feeders := 0, queue := [Utf8.encode "*runn", Utf8.encode "ing\n7^do"] }
  have source : s.ReadsFrom c := rfl
  have missed : ∀ line ∈ completeLines (s.lines.octets ++ c.pending),
      isAwaited (some ⟨7⟩) line = false := by decide
  obtain ⟨u, -, -, -, ended⟩ := Session.waitFor_misses source (fun _ => rfl) ⟨rfl, rfl⟩ rfl missed
  have ended : s.waitFor (some ⟨7⟩) = (.closed, u) := ended rfl
  have other : WaitEnd.closed ∉ [.found, .stopped, .blocked] := by decide
  have all := waited (some ⟨7⟩)
  rw [ended] at all
  obtain ⟨-, got, left, -⟩ := all other
  have split : fed 1 (turns.filterMap Turn.step?) =
      joined (segments (fed 1 (turns.filterMap Turn.step?))) ++ Utf8.encode "7^do" := by decide
  exact ⟨steady, u, ended, got.trans (by decide), List.append_cancel_left (left.symm.trans split)⟩

end Schedule
end DebugLink

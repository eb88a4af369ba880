import DebugLink.Proofs.Session.Drawing

/-! Waiting on a channel. The lines that can be read are those of all octets in the buffer and the
channel. A wait takes them up to and with the first whose record is waited for, and no line behind
it; where there is none, it takes them all, and it is over if nobody feeds the channel any more.
What handlers do meanwhile does not matter, not even if they ask for the wait to stop: such a
request is looked at only before lines are taken. -/

namespace DebugLink.Session

open LineBuffer (Splits completeLines)

variable {s t : Session} {c : Channel} {target : Option Token} {lines : List String}

/-- From one session to the other these lines were taken from the buffer and the channel, and
nothing else was; the records among them were received in their turn. -/
structure TookExactly (s : Session) (c : Channel) (lines : List String) (t : Session) : Prop where
  tracker : t.tracker.opened = s.tracker.takeLines lines
  received : received t.desk.journal = received s.desk.journal ++ lines.filterMap accepted?
  left : ∃ d, t.ReadsFrom d ∧ d.feeders = c.feeders ∧
    Splits (s.lines.octets ++ c.pending) lines (t.lines.octets ++ d.pending)

/-- The first record that is waited for is in this line, and the session has stopped there. -/
structure Finds (s : Session) (c : Channel) (target : Option Token) (front : List String)
    (line : String) (behind : List String) (t : Session) : Prop where
  available : completeLines (s.lines.octets ++ c.pending) = front ++ line :: behind
  unrelated : ∀ l ∈ front, isAwaited target l = false
  awaited : isAwaited target line = true
  took : TookExactly s c (front ++ [line]) t
  isOpen : t.isClosed = false
  /-- The lines behind are there to be read, at once or in parts. -/
  later : t.read.1 = behind.filterMap accepted?
  inParts : ∀ limit, (t.readAtMost limit).1 = (behind.filterMap accepted?).take limit ∧
    (t.readAtMost limit).2.read.1 = (behind.filterMap accepted?).drop limit

/-- Taking lines leaves a session open to which every write succeeds. -/
theorem opened_takeLines (steady : s.desk.Steady) (lines : List String) :
    (s.tracker.takeLines lines).opened = s.tracker.takeLines lines := by
  refine Tracker.opened_of_open ?_
  rw [(Tracker.steady_takeLines steady lines).opened]
  exact Bool.false_ne_true

/-- That a session is told to be closed does not show in the records it received. -/
theorem tookExactly_of_draws (tracker : t.tracker.opened = s.tracker.takeLines lines)
    {d : Channel} (feeders : d.feeders = c.feeders)
    (drawn : Draws (s.lines.octets ++ c.pending) lines d t) : TookExactly s c lines t where
  tracker := tracker
  received := by
    rw [desk, desk, ← s.tracker.received_takeLines lines, ← tracker]
    rfl
  left := ⟨d, drawn.source, feeders, drawn.splits⟩

/-- A wait for a record that can be read takes the lines up to it, whatever they are and whatever
the handlers do. -/
theorem waitFor_finds (source : s.ReadsFrom c) (honest : c.Honest) (steady : s.desk.Steady)
    (unasked : s.desk.stopRequested = false)
    (awaited : ∃ line ∈ completeLines (s.lines.octets ++ c.pending),
      isAwaited target line = true) :
    ∃ front line behind t, s.Finds c target front line behind t ∧
      s.waitFor target = (.found, t) ∧ s.poll target = (.found, t) := by
  have start := draws_of_steady source honest steady
  obtain ⟨v, reads⟩ := start.reads
  obtain ⟨front, line, behind, t, available, unrelated, found, polled, takes, rest⟩ :=
    reads.poll_found awaited
  obtain ⟨d, feeders, drawn⟩ := takes.draws start
  have tracker := takes.tracker_eq
  have isOpen : t.isClosed = false := by
    rw [isClosed, desk, tracker]
    exact (Tracker.steady_takeLines steady _).opened
  have took : TookExactly s c (front ++ [line]) t := by
    refine tookExactly_of_draws ?_ feeders drawn
    rw [tracker, opened_takeLines steady]
  obtain ⟨w, -, drained, empty, unfinished, -⟩ := rest.draws drawn
  obtain ⟨x, ended⟩ := drained.reads
  rw [empty, List.append_nil, LineBuffer.completeLines_of_not_mem unfinished] at ended
  refine ⟨front, line, behind, t, ?_, waitFor_of_poll_found unasked polled, polled⟩
  exact ⟨available, unrelated, found, took, isOpen, by rw [rest.read_eq], rest.readAtMost_eq ended⟩

/-- A wait for a record that cannot be read takes all lines, and the session is then closed just if
nobody feeds the channel any more. -/
theorem waitFor_misses (source : s.ReadsFrom c) (honest : c.Honest) (steady : s.desk.Steady)
    (unasked : s.desk.stopRequested = false)
    (missed : ∀ line ∈ completeLines (s.lines.octets ++ c.pending),
      isAwaited target line = false) :
    ∃ t, TookExactly s c (completeLines (s.lines.octets ++ c.pending)) t ∧
      t.isClosed = decide (c.feeders = 0) ∧
      s.poll target = (if c.feeders = 0 then .closed else .pending, t) ∧
      (c.feeders = 0 → s.waitFor target = (.closed, t)) := by
  have start := draws_of_steady source honest steady
  obtain ⟨t, reads⟩ := start.reads
  obtain ⟨d, feeders, drawn, -, -, closed⟩ := reads.draws start
  have isClosed : t.isClosed = decide (c.feeders = 0) := by
    rw [Bool.eq_iff_iff, closed, decide_eq_true_iff]
  have polled : s.poll target = (if c.feeders = 0 then .closed else .pending, t) := by
    rw [reads.poll_missed missed, isClosed]
    simp only [decide_eq_true_eq]
  refine ⟨t, ?_, isClosed, polled, fun deserted => ?_⟩
  · refine tookExactly_of_draws ?_ feeders drawn
    rw [reads.opened_eq start, opened_takeLines steady]
  · rw [if_pos deserted] at polled
    exact waitFor_of_poll_closed unasked polled

/-- A wait on a channel takes the lines up to and with the first whose record is waited for, and
leaves those behind it to be read. Where no line has such a record, it takes all of them; if nobody
feeds the channel any more, the session is closed then and the wait is over. A poll takes the same
lines. -/
theorem waiting_takes_lines_up_to_the_first_match (s : Session) (c : Channel)
    (source : s.ReadsFrom c) (honest : c.Honest) (steady : s.desk.Steady)
    (unasked : s.desk.stopRequested = false) (target : Option Token) :
    let lines := completeLines (s.lines.octets ++ c.pending)
    ((∃ line ∈ lines, isAwaited target line = true) →
      ∃ front line behind t, s.Finds c target front line behind t ∧
        s.waitFor target = (.found, t) ∧ s.poll target = (.found, t)) ∧
    ((∀ line ∈ lines, isAwaited target line = false) →
      ∃ t, TookExactly s c lines t ∧ t.isClosed = decide (c.feeders = 0) ∧
        s.poll target = (if c.feeders = 0 then .closed else .pending, t) ∧
        (c.feeders = 0 → s.waitFor target = (.closed, t))) := by
  intro lines
  constructor
  · intro awaited
    exact waitFor_finds source honest steady unasked awaited
  · intro missed
    exact waitFor_misses source honest steady unasked missed

/-- The record waited for comes in two pieces and behind another, at which a subscriber asks for the
wait to stop. -/
theorem a_request_to_stop_comes_too_late :
    let c : Channel :=
      { queue := [Utf8.encode "*running\n7^do", Utf8.encode "ne\n=thread-exited\n"] }
    let s : Session := {
      tracker := { recordSubscribers := [⟨0, .execAsync, fun _ => .stop .done⟩] }
      source := ⟨.channel c, {}⟩ }
    s.ReadsFrom c ∧ c.Honest ∧ s.desk.Steady ∧ s.desk.stopRequested = false ∧
      ∃ t, s.waitFor (some ⟨7⟩) = (.found, t) ∧
        s.Finds c (some ⟨7⟩) ["*running"] "7^done" ["=thread-exited"] t ∧
        t.desk.stopRequested = true := by
  intro c s
  have source : s.ReadsFrom c := rfl
  have honest : c.Honest := nofun
  have steady : s.desk.Steady := ⟨rfl, rfl⟩
  have available : completeLines (s.lines.octets ++ c.pending) =
      ["*running", "7^done", "=thread-exited"] := by decide
  obtain ⟨found, -⟩ :=
    waiting_takes_lines_up_to_the_first_match s c source honest steady rfl (some ⟨7⟩)
  have awaited : isAwaited (some ⟨7⟩) "7^done" = true := by decide
  obtain ⟨front, line, behind, t, finds, waited, -⟩ :=
    found ⟨"7^done", by simp [available], awaited⟩
  -- Only the second line is waited for, so the lines are split there.
  obtain ⟨rfl, rfl, rfl⟩ :
      front = ["*running"] ∧ line = "7^done" ∧ behind = ["=thread-exited"] := by
    have split := available.symm.trans finds.available
    have first : isAwaited (some ⟨7⟩) "*running" = false := by decide
    rcases front with _ | ⟨a, _ | ⟨b, front⟩⟩
    · obtain ⟨rfl, -⟩ := List.cons.inj split
      have here := finds.awaited
      rw [first] at here
      cases here
    · simpa using split.symm
    · obtain ⟨-, split⟩ := List.cons.inj split
      obtain ⟨rfl, -⟩ := List.cons.inj split
      have before := finds.unrelated "7^done" (by simp)
      rw [awaited] at before
      cases before
  refine ⟨source, honest, steady, rfl, t, waited, finds, ?_⟩
  have asked := congrArg (fun u => u.desk.stopRequested) finds.took.tracker
  exact asked.trans (by decide)

end DebugLink.Session

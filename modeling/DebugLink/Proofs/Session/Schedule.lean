import DebugLink.Proofs.Lines
import DebugLink.Proofs.Session.Reading
import DebugLink.Proofs.Session.Taking

/-! A session that reads from a channel does what its tracker does with the complete lines of all
that was fed, one after the other. It does not matter into which pieces the octets were cut, how
many a read may bring, or when and how far the caller read or waited in between. The invariant,
`Follows`, relates a session at any time to the lines it has taken so far: they are the first ones
of whatever will have been fed in the end, and the rest is what the buffer, the channel and the
future hold. How such an invariant goes from step to step is told for all of them (`Feedable`). -/

namespace DebugLink.Schedule

open LineBuffer (completeLines)

/-- Something done at either end of a channel: pieces are fed, feeders join or leave, and the
session reads or waits. -/
inductive Step where
  | feed (piece : Octets)
  | join
  | leave
  | read
  | readAtMost (limit : Nat)
  | poll (target : Option Token)
  | waitFor (target : Option Token)
  | waitForAtMost (target : Option Token) (milliseconds : Nat)

/-- How many feeders there are after a step. -/
def Step.feeders (n : Nat) : Step → Nat
  | .join => if n = 0 then 0 else n + 1
  | .leave => n - 1
  | _ => n

/-- The octets that a step feeds while there are so many feeders. -/
def Step.octets (n : Nat) : Step → Octets
  | .feed piece => if n = 0 then [] else piece
  | _ => []

/-- All that is fed, beginning with so many feeders. -/
def fed : Nat → List Step → Octets
  | _, [] => []
  | n, step :: steps => step.octets n ++ fed (step.feeders n) steps

/-- Something done at the feeding end, which nobody can do who has left. -/
def atChannel (s : Session) (f : Channel → Channel) : Session :=
  match s.source.wire with
  | .channel c =>
    if c.feeders = 0 then s
    else { s with source := { s.source with wire := .channel (f c) } }
  | .peer _ => s

def act (s : Session) : Step → Session
  | .feed piece => atChannel s (·.feed piece)
  | .join => atChannel s Channel.addFeeder
  | .leave => atChannel s Channel.dropFeeder
  | .read => s.read.2
  | .readAtMost limit => (s.readAtMost limit).2
  | .poll target => (s.poll target).2
  | .waitFor target => (s.waitFor target).2
  | .waitForAtMost target milliseconds => (s.waitForAtMost target milliseconds).2

def run (s : Session) (steps : List Step) : Session := steps.foldl act s

/-- A session at the end of a new channel with one feeder, reading so many octets at a time. -/
def listening (t : Tracker) (chunkSize : Nat) : Session :=
  { tracker := { t with settings := { t.settings with chunkSize } }
    source := ⟨.channel {}, {}⟩ }

/-! ### What feeding leaves as it is -/

section atChannel
variable {s : Session} {c : Channel}

theorem atChannel_of_deserted (source : s.ReadsFrom c) (f : Channel → Channel)
    (deserted : c.feeders = 0) : atChannel s f = s := by
  have source : s.source = ⟨.channel c, {}⟩ := source
  simp [atChannel, source, deserted]

theorem atChannel_of_fed (source : s.ReadsFrom c) (f : Channel → Channel) (fed : c.feeders ≠ 0) :
    atChannel s f = { s with source := ⟨.channel (f c), {}⟩ } := by
  have source : s.source = ⟨.channel c, {}⟩ := source
  simp [atChannel, source, fed]

end atChannel

/-- A property of sessions that depends on how many feed their channel and on what was fed. Reading
and waiting keep it, and it goes along with what is fed. -/
structure Feedable (P : Nat → Octets → Session → Prop) : Prop where
  reading (n : Nat) (octets : Octets) : Session.Stable (P n octets)
  feeding {n : Nat} {octets : Octets} {s : Session} : P n octets s →
    ∃ c, c.feeders = n ∧ s.ReadsFrom c ∧ ∀ (d : Channel) (piece : Octets), n ≠ 0 →
      d.noticed = c.noticed → d.pending = c.pending ++ piece →
      P d.feeders (octets ++ piece) { s with source := ⟨.channel d, {}⟩ }

namespace Feedable

variable {P : Nat → Octets → Session → Prop} {n : Nat} {octets : Octets} {s : Session}

/-- What one step adds to the octets, and how it changes the number of feeders. -/
theorem act (h : Feedable P) (step : Step) (hs : P n octets s) :
    P (step.feeders n) (octets ++ step.octets n) (act s step) := by
  have idle : ∀ {u : Session}, P n octets u → P n (octets ++ []) u := by
    intro u hu
    rw [List.append_nil]
    exact hu
  obtain ⟨c, rfl, source, feeding⟩ := h.feeding hs
  cases step with
  | feed piece =>
    by_cases hf : c.feeders = 0
    · simp only [Schedule.act, atChannel_of_deserted source _ hf, Step.octets, if_pos hf]
      exact idle hs
    · simp only [Schedule.act, atChannel_of_fed source _ hf, Step.octets, if_neg hf]
      exact feeding (c.feed piece) piece hf rfl (c.pending_feed piece)
  | join =>
    by_cases hf : c.feeders = 0
    · simp only [Schedule.act, atChannel_of_deserted source _ hf, Step.feeders, if_pos hf]
      have same := idle hs
      rw [hf] at same
      exact same
    · simp only [Schedule.act, atChannel_of_fed source _ hf, Step.feeders, if_neg hf]
      exact feeding c.addFeeder [] hf rfl (List.append_nil _).symm
  | leave =>
    by_cases hf : c.feeders = 0
    · simp only [Schedule.act, atChannel_of_deserted source _ hf, Step.feeders, hf]
      have same := idle hs
      rw [hf] at same
      exact same
    · simp only [Schedule.act, atChannel_of_fed source _ hf]
      exact feeding c.dropFeeder [] hf rfl (List.append_nil _).symm
  | read => exact idle ((h.reading _ _).read hs)
  | readAtMost limit => exact idle ((h.reading _ _).readAtMost limit hs)
  | poll target => exact idle ((h.reading _ _).poll target hs)
  | waitFor target => exact idle ((h.reading _ _).waitFor target hs)
  | waitForAtMost target milliseconds =>
    exact idle ((h.reading _ _).waitForAtMost target milliseconds hs)

theorem run (h : Feedable P) (steps : List Step) (hs : P n octets s) :
    ∃ m, P m (octets ++ fed n steps) (run s steps) := by
  induction steps generalizing n octets s with
  | nil =>
    rw [fed, List.append_nil]
    exact ⟨n, hs⟩
  | cons step steps ih =>
    rw [fed, ← List.append_assoc]
    exact ih (h.act step hs)

end Feedable

/-! ### Sessions that keep up with their channel -/

/-- Having been fed some octets, the session has taken these lines and no others. What else the
octets hold is in its buffer and its channel, where more may yet complete it. -/
structure Follows (t : Tracker) (octets : Octets) (lines : List String) (c : Channel)
    (s : Session) : Prop where
  source : s.ReadsFrom c
  honest : c.Honest
  taken (more : Octets) : completeLines (octets ++ more) =
    lines ++ completeLines (s.lines.octets ++ (c.pending ++ more))
  agrees : Tracker.Agrees Event.isOfLines s.tracker.opened (t.takeLines lines)
  ended : s.isClosed = true → c.feeders = 0 ∧ c.pending = [] ∧ s.lines.next? = none

namespace Follows

variable {t : Tracker} {octets : Octets} {lines : List String} {c : Channel} {s : Session}

theorem afterLine (steady : t.desk.Steady) (h : Follows t octets lines c s) {line : String}
    {rest : LineBuffer} (hl : s.lines.next? = some (line, rest)) :
    Follows t octets (lines ++ [line]) c (s.afterLine line rest) := by
  -- A session that is closed has no line left, so this one is taken while it is open.
  have isOpen : ¬ s.tracker.desk.closed = true := by
    intro hc
    rw [(h.ended hc).2.2] at hl
    cases hl
  have before := h.agrees
  rw [Tracker.opened_of_open isOpen] at before
  have agrees := before.takeLine line
  rw [← Tracker.takeLines_concat] at agrees
  -- Taking lines does not close a steady desk, and the session agrees with one.
  have still : ¬ (s.tracker.takeLine line).2.desk.closed = true := by
    rw [agrees.closed, (Tracker.steady_takeLines steady _).opened]
    decide
  refine ⟨h.source, h.honest, ?_, ?_, fun hc => absurd hc still⟩
  · intro more
    rw [h.taken, LineBuffer.completeLines_of_next?_some hl, List.append_assoc]
    rfl
  · rw [← Tracker.opened_of_open still] at agrees
    exact agrees

theorem vain (h : Follows t octets lines c s) {rest : LineBuffer}
    (hn : s.lines.next = (none, rest)) : Follows t octets lines c { s with lines := rest } := by
  have same : rest.octets = s.lines.octets := (LineBuffer.next?_of_next_none hn).2
  refine ⟨h.source, h.honest, same ▸ h.taken, h.agrees, fun hc => ?_⟩
  obtain ⟨feeders, pending, -⟩ := h.ended hc
  exact ⟨feeders, pending, LineBuffer.next?_eq_none_of_next_none hn⟩

/-- Filling moves octets along. Where it cannot, the channel has none. -/
theorem fill (h : Follows t octets lines c s) (hn : s.lines.next? = none) :
    ∃ c', Follows t octets lines c' s.fill.2 ∧ c'.feeders = c.feeders ∧
      (s.fill.1 = false → c'.pending = [] ∧ s.fill.2.lines = s.lines) := by
  by_cases hc : s.isClosed = true
  · rw [Session.fill_of_closed hc]
    exact ⟨c, h, rfl, fun _ => ⟨(h.ended hc).2.1, rfl⟩⟩
  · obtain ⟨c', outcome, feeders, honest⟩ := Session.fill_of_channel h.source hc
    have honest := honest h.honest
    have taken : ∀ more, completeLines (octets ++ more) =
        lines ++ completeLines (s.fill.2.lines.octets ++ (c'.pending ++ more)) := by
      intro more
      rw [h.taken, ← List.append_assoc, ← outcome.moved, List.append_assoc]
    refine ⟨c', ?_, feeders, ?_⟩
    · generalize s.fill = filled at outcome taken
      obtain ⟨more, u⟩ := filled
      cases outcome with
      | data => exact ⟨rfl, honest, taken, h.agrees, fun hc' => absurd hc' hc⟩
      | nothing => exact ⟨rfl, honest, taken, h.agrees, fun hc' => absurd hc' hc⟩
      | ended _ rest noticed =>
        exact ⟨rfl, honest, taken, h.agrees, fun _ => ⟨honest noticed, rest, hn⟩⟩
    · intro hf
      rw [hf] at outcome
      exact outcome.lines

theorem takeStop (h : Follows t octets lines c s) (target : Option Token) :
    Follows t octets lines c (s.takeStop target) := by
  refine ⟨h.source, h.honest, h.taken, ⟨h.agrees.fresh, ?_⟩, h.ended⟩
  rw [← h.agrees.events]
  simp [Session.takeStop, Session.withDesk, Tracker.opened, Desk.notice, Desk.log, Session.desk,
    Event.isOfLines]

/-- Nobody has noticed the end of a channel that is still fed. -/
theorem feeding (h : Follows t octets lines c s) {d : Channel} {piece : Octets}
    (hf : c.feeders ≠ 0) (noticed : d.noticed = c.noticed)
    (pending : d.pending = c.pending ++ piece) :
    Follows t (octets ++ piece) lines d { s with source := ⟨.channel d, {}⟩ } := by
  refine ⟨rfl, ?_, ?_, h.agrees, fun hc => absurd (h.ended hc).1 hf⟩
  · intro hn
    exact absurd (h.honest (noticed ▸ hn)) hf
  · intro more
    rw [List.append_assoc, h.taken, pending, List.append_assoc]

end Follows

/-- The session keeps up with a channel that has so many feeders. -/
def KeepsUp (t : Tracker) (feeders : Nat) (octets : Octets) (s : Session) : Prop :=
  ∃ lines c, c.feeders = feeders ∧ Follows t octets lines c s

section KeepsUp
variable {t : Tracker} {n : Nat} {octets : Octets} {s : Session}

theorem stable_keepsUp (steady : t.desk.Steady) : Session.Stable (KeepsUp t n octets) where
  line := by
    intro s line rest h hl
    obtain ⟨lines, c, hn, h⟩ := h
    exact ⟨lines ++ [line], c, hn, h.afterLine steady (LineBuffer.next?_of_next_some hl)⟩
  vain := by
    intro s rest h none
    obtain ⟨lines, c, hn, h⟩ := h
    exact ⟨lines, c, hn, h.vain none⟩
  fill := by
    intro s h none
    obtain ⟨lines, c, hn, h⟩ := h
    obtain ⟨c', filled, feeders, -⟩ := h.fill none
    exact ⟨lines, c', feeders.trans hn, filled⟩
  stop := by
    intro s target h
    obtain ⟨lines, c, hn, h⟩ := h
    exact ⟨lines, c, hn, h.takeStop target⟩

theorem feedable_keepsUp (steady : t.desk.Steady) : Feedable (KeepsUp t) where
  reading _ _ := stable_keepsUp steady
  feeding := by
    intro n octets s h
    obtain ⟨lines, c, rfl, h⟩ := h
    exact ⟨c, rfl, h.source, fun d piece hf noticed pending =>
      ⟨lines, d, rfl, h.feeding hf noticed pending⟩⟩

/-- After reading to the end no complete line is left. -/
theorem agrees_read (steady : t.desk.Steady) (h : KeepsUp t n octets s) :
    Tracker.Agrees Event.isOfLines s.read.2.tracker.opened
      (t.takeLines (completeLines octets)) := by
  obtain ⟨u, ⟨lines, c, -, follows⟩, none, unfilled⟩ :=
    (stable_keepsUp steady).exists_unfilled [] h
  obtain ⟨c', filled, -, drained⟩ := follows.fill none
  rw [unfilled] at filled drained
  obtain ⟨pending, same⟩ := drained rfl
  -- With nothing in the channel and no line in the buffer, the lines taken are all there are.
  have all := filled.taken []
  rw [same, pending, List.append_nil, List.append_nil, List.append_nil,
    LineBuffer.completeLines_of_next?_none none, List.append_nil] at all
  rw [all]
  exact filled.agrees

end KeepsUp

theorem keepsUp_listening {t : Tracker} (steady : t.desk.Steady) (chunkSize : Nat) :
    KeepsUp t 1 [] (listening t chunkSize) := by
  refine ⟨[], {}, rfl, rfl, nofun, fun _ => rfl, ⟨?_, rfl⟩, fun hc => ?_⟩
  · have isOpen : ¬ (listening t chunkSize).tracker.desk.closed = true := by
      simp [listening, steady.opened]
    rw [Tracker.opened_of_open isOpen]
    rfl
  · simp [Session.isClosed, Session.desk, listening, steady.opened] at hc

theorem observe_run {t : Tracker} (steady : t.desk.Steady) (chunkSize : Nat) (steps : List Step) :
    (run (listening t chunkSize) (steps ++ [.read])).tracker.observe =
      (t.takeLines (completeLines (fed 1 steps))).observe := by
  obtain ⟨n, kept⟩ := (feedable_keepsUp steady).run steps (keepsUp_listening steady chunkSize)
  rw [List.nil_append] at kept
  have run : run (listening t chunkSize) (steps ++ [.read]) =
      (run (listening t chunkSize) steps).read.2 := List.foldl_append
  rw [run]
  exact Tracker.observe_of_agrees (agrees_read steady kept)

/-- What a tracker shows at the end depends on the octets alone, not on how they came in. -/
theorem observe_run_eq {t : Tracker} (steady : t.desk.Steady) {chunkSize chunkSize' : Nat}
    {steps steps' : List Step} (same : fed 1 steps = fed 1 steps') :
    (run (listening t chunkSize) (steps ++ [.read])).tracker.observe =
      (run (listening t chunkSize') (steps' ++ [.read])).tracker.observe := by
  rw [observe_run steady, observe_run steady, same]

/-- Reading refines taking the complete lines of all that was fed, one after the other: the tracker
ends up showing the same, and each line that is a record has been received once and in its turn. So
it ends up showing the same however else those octets come in. -/
theorem reading_refines_taking_lines (t : Tracker) (steady : t.desk.Steady) (chunkSize : Nat)
    (steps : List Step) :
    let s := run (listening t chunkSize) (steps ++ [.read])
    let lines := completeLines (fed 1 steps)
    s.tracker.observe = (t.takeLines lines).observe ∧
      received s.tracker.desk.journal =
        received t.desk.journal ++ lines.filterMap accepted? ∧
      ∀ (chunkSize' : Nat) (steps' : List Step), fed 1 steps' = fed 1 steps →
        (run (listening t chunkSize') (steps' ++ [.read])).tracker.observe =
          s.tracker.observe := by
  intro s lines
  have shown : s.tracker.observe = (t.takeLines lines).observe :=
    observe_run steady chunkSize steps
  refine ⟨shown, (received_of_observe shown).trans (t.received_takeLines lines), ?_⟩
  intro chunkSize' steps' same
  exact observe_run_eq steady same

/-- A line in two pieces, with a poll between them that reads the first octet by octet. -/
theorem reading_refines_taking_a_cut_line :
    ({} : Tracker).desk.Steady ∧
      let s := run (listening {} 0)
        ([.feed [0x2A, 0x72, 0x75, 0x6E], .poll none, .feed [0x6E, 0x69, 0x6E, 0x67, 0x0D, 0x0A]] ++
          [.read])
      s.tracker.observe = (({} : Tracker).takeLines ["*running"]).observe ∧
        received s.tracker.desk.journal = [⟨none, ⟨.execAsync, "running", []⟩⟩] := by
  have steady : ({} : Tracker).desk.Steady := ⟨rfl, rfl⟩
  have accepted : ["*running"].filterMap accepted? = [⟨none, ⟨.execAsync, "running", []⟩⟩] := by
    decide
  obtain ⟨shown, got, -⟩ := reading_refines_taking_lines {} steady 0
    [.feed [0x2A, 0x72, 0x75, 0x6E], .poll none, .feed [0x6E, 0x69, 0x6E, 0x67, 0x0D, 0x0A]]
  have lines : completeLines [0x2A, 0x72, 0x75, 0x6E, 0x6E, 0x69, 0x6E, 0x67, 0x0D, 0x0A] =
      ["*running"] := by decide
  exact ⟨steady, lines ▸ shown, accepted ▸ lines ▸ got⟩

end DebugLink.Schedule

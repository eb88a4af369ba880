import DebugLink.Proofs.Channel
import DebugLink.Session.Basic

/-! Reading and waiting as steps. Every way to read or to wait is made of four steps: a line is
taken off the buffer, or the buffer is searched for one in vain and then filled, and a request to
stop is taken note of. A property of sessions that the four keep is kept by all reading and waiting,
however much of it a caller wants. Reading to the end moreover stops only where the source has
nothing to give, which is said last for sources that are channels. -/

namespace DebugLink.Session

/-- A session that has taken the first line off its buffer. -/
def afterLine (s : Session) (line : String) (rest : LineBuffer) : Session :=
  { s with tracker := (s.tracker.takeLine line).2, lines := rest }

/-! ### Reading, step by step -/

section readWhile
variable {enough : List Message → Bool} {got : List Message} {s t : Session} {rest : LineBuffer}

theorem readWhile_of_enough (he : enough got = true) : s.readWhile enough got = (got, s) := by
  rw [readWhile, if_pos he]

theorem readWhile_of_line {line : String} (he : ¬ enough got = true)
    (hl : s.lines.next = (some line, rest)) :
    s.readWhile enough got =
      (s.afterLine line rest).readWhile enough (got ++ (s.tracker.takeLine line).1.toList) := by
  rw [readWhile, if_neg he]
  split
  · rename_i h
    rw [hl] at h
    cases h
    rfl
  · rename_i h
    rw [hl] at h
    cases h

theorem readWhile_of_filled (he : ¬ enough got = true) (hn : s.lines.next = (none, rest))
    (hf : fill { s with lines := rest } = (true, t)) :
    s.readWhile enough got = t.readWhile enough got := by
  rw [readWhile, if_neg he]
  split
  · rename_i h
    rw [hn] at h
    cases h
  · rename_i h
    rw [hn] at h
    cases h
    split
    · rename_i h
      rw [hf] at h
      cases h
      rfl
    · rename_i h
      rw [hf] at h
      cases h

theorem readWhile_of_unfilled (he : ¬ enough got = true) (hn : s.lines.next = (none, rest))
    (hf : fill { s with lines := rest } = (false, t)) :
    s.readWhile enough got = (got, t) := by
  rw [readWhile, if_neg he]
  split
  · rename_i h
    rw [hn] at h
    cases h
  · rename_i h
    rw [hn] at h
    cases h
    split
    · rename_i h
      rw [hf] at h
      cases h
    · rename_i h
      rw [hf] at h
      cases h
      rfl

end readWhile

/-! ### Waiting, round by round -/

section waitRounds
variable {target : Option Token} {timed : Bool} {s t : Session}

theorem waitRounds_of_asked (h : s.desk.stopRequested = true) :
    s.waitRounds target timed = (.stopped, s.takeStop target) := by
  rw [waitRounds, if_pos h]

theorem waitRounds_of_found (h : ¬ s.desk.stopRequested = true)
    (hp : s.poll target = (.found, t)) : s.waitRounds target timed = (.found, t) := by
  rw [waitRounds, if_neg h]
  simp only [hp]

theorem waitRounds_of_closed (h : ¬ s.desk.stopRequested = true)
    (hp : s.poll target = (.closed, t)) : s.waitRounds target timed = (.closed, t) := by
  rw [waitRounds, if_neg h]
  simp only [hp]

/-- A round that does not end the wait is followed by the next, if it has brought anything. -/
theorem waitRounds_of_pending (h : ¬ s.desk.stopRequested = true)
    (hp : s.poll target = (.pending, t)) :
    s.waitRounds target timed = if t.unread < s.unread then t.waitRounds target timed
      else (if timed then .timedOut else .blocked, t) := by
  rw [waitRounds, if_neg h]
  simp only [hp]

end waitRounds

/-! ### What reading and waiting keep -/

/-- No step of reading or waiting changes that the property holds. -/
structure Stable (P : Session → Prop) : Prop where
  line {s : Session} {line : String} {rest : LineBuffer} :
    P s → s.lines.next = (some line, rest) → P (s.afterLine line rest)
  /-- The buffer has been searched in vain. -/
  vain {s : Session} {rest : LineBuffer} :
    P s → s.lines.next = (none, rest) → P { s with lines := rest }
  fill {s : Session} : P s → s.lines.next? = none → P s.fill.2
  stop {s : Session} (target : Option Token) : P s → P (s.takeStop target)

namespace Stable

variable {P : Session → Prop} (h : Stable P)
include h

theorem fill_of_next_none {s : Session} {rest : LineBuffer} (hs : P s)
    (hn : s.lines.next = (none, rest)) :
    P { s with lines := rest } ∧ rest.next? = none ∧
      P (Session.fill { s with lines := rest }).2 := by
  have unfinished := LineBuffer.next?_eq_none_of_next_none hn
  exact ⟨h.vain hs hn, unfinished, h.fill (h.vain hs hn) unfinished⟩

theorem readWhile (enough : List Message → Bool) (got : List Message) {s : Session} (hs : P s) :
    P (s.readWhile enough got).2 := by
  induction got, s using Session.readWhile.induct enough with
  | case1 got s he =>
    rw [readWhile_of_enough he]
    exact hs
  | case2 got s he line rest hl _ m tracker htaken ih =>
    have next := h.line hs hl
    rw [readWhile_of_line he hl]
    rw [afterLine, htaken] at next ⊢
    exact ih next
  | case3 got s he rest hn t hf _ ih =>
    obtain ⟨-, -, next⟩ := h.fill_of_next_none hs hn
    rw [hf] at next
    rw [readWhile_of_filled he hn hf]
    exact ih next
  | case4 got s he rest hn t hf =>
    obtain ⟨-, -, next⟩ := h.fill_of_next_none hs hn
    rw [hf] at next
    rw [readWhile_of_unfilled he hn hf]
    exact next

theorem read {s : Session} (hs : P s) : P s.read.2 := h.readWhile _ _ hs

theorem readAtMost (limit : Nat) {s : Session} (hs : P s) : P (s.readAtMost limit).2 :=
  h.readWhile _ _ hs

theorem poll (target : Option Token) {s : Session} (hs : P s) : P (s.poll target).2 := by
  have after := h.readWhile (fun got => got.getLast?.any (isTarget target)) [] hs
  unfold Session.poll
  dsimp only
  split
  · exact after
  · split
    · exact after
    · exact after

theorem waitRounds (target : Option Token) (timed : Bool) {s : Session} (hs : P s) :
    P (s.waitRounds target timed).2 := by
  have polled : ∀ {s : Session} {outcome : PollOutcome} {t : Session}, P s →
      s.poll target = (outcome, t) → P t := by
    intro s outcome t hs hp
    have after := h.poll target hs
    rw [hp] at after
    exact after
  induction s using Session.waitRounds.induct target with
  | case1 s hstop =>
    rw [waitRounds_of_asked hstop]
    exact h.stop target hs
  | case2 s hstop t hp =>
    rw [waitRounds_of_found hstop hp]
    exact polled hs hp
  | case3 s hstop t hp =>
    rw [waitRounds_of_closed hstop hp]
    exact polled hs hp
  | case4 s hstop t hp less ih =>
    rw [waitRounds_of_pending hstop hp, if_pos less]
    exact ih (polled hs hp)
  | case5 s hstop t hp less =>
    rw [waitRounds_of_pending hstop hp, if_neg less]
    exact polled hs hp

theorem waitFor (target : Option Token) {s : Session} (hs : P s) : P (s.waitFor target).2 :=
  h.waitRounds target false hs

theorem waitForAtMost (target : Option Token) (milliseconds : Nat) {s : Session} (hs : P s) :
    P (s.waitForAtMost target milliseconds).2 := by
  unfold Session.waitForAtMost
  split
  · split
    · exact h.stop target hs
    · exact hs
  · exact h.waitRounds target true hs

/-- Reading to the end stops when the buffer holds no line and cannot be filled. -/
theorem exists_unfilled (got : List Message) {s : Session} (hs : P s) :
    ∃ t, P t ∧ t.lines.next? = none ∧ t.fill = (false, (s.readWhile (fun _ => false) got).2) := by
  induction got, s using Session.readWhile.induct fun _ => false with
  | case1 got s he => cases he
  | case2 got s he line rest hl _ m tracker htaken ih =>
    have next := h.line hs hl
    rw [readWhile_of_line he hl]
    rw [afterLine, htaken] at next ⊢
    exact ih next
  | case3 got s he rest hn t hf _ ih =>
    obtain ⟨-, -, next⟩ := h.fill_of_next_none hs hn
    rw [hf] at next
    rw [readWhile_of_filled he hn hf]
    exact ih next
  | case4 got s he rest hn t hf =>
    obtain ⟨searched, unfinished, -⟩ := h.fill_of_next_none hs hn
    rw [readWhile_of_unfilled he hn hf]
    exact ⟨{ s with lines := rest }, searched, unfinished, hf⟩

end Stable

/-! ### Filling from a channel -/

/-- The session reads from a channel, and no failure is in store. -/
def ReadsFrom (s : Session) (c : Channel) : Prop := s.source = ⟨.channel c, {}⟩

theorem fill_of_closed {s : Session} (h : s.isClosed = true) : s.fill = (false, s) := if_pos h

/-- What filling can come to: octets pass from the channel to the buffer, or the channel has none;
then the session may besides learn that the stream is over. -/
inductive FillOutcome (s : Session) (c : Channel) : Bool → Session → Channel → Prop
  | data {c' : Channel} (octets : Octets) :
      octets ++ c'.pending = c.pending →
      FillOutcome s c true { s with source := ⟨.channel c', {}⟩, lines := s.lines.push octets } c'
  | nothing {c' : Channel} :
      c.pending = [] → c'.pending = [] →
      FillOutcome s c false { s with source := ⟨.channel c', {}⟩ } c'
  | ended {c' : Channel} :
      c.pending = [] → c'.pending = [] → c'.noticed = true →
      FillOutcome s c false { s with source := ⟨.channel c', {}⟩ }.markClosed c'

/-- Between the channel and the buffer nothing is lost. -/
theorem FillOutcome.moved {s u : Session} {c c' : Channel} {more : Bool}
    (h : FillOutcome s c more u c') :
    u.lines.octets ++ c'.pending = s.lines.octets ++ c.pending := by
  cases h with
  | data octets moved =>
    rw [← moved]
    exact List.append_assoc ..
  | nothing before rest => rw [before, rest]
  | ended before rest =>
    rw [before, rest]
    rfl

theorem FillOutcome.readsFrom {s u : Session} {c c' : Channel} {more : Bool}
    (h : FillOutcome s c more u c') : u.ReadsFrom c' := by
  cases h <;> rfl

theorem FillOutcome.lines {s u : Session} {c c' : Channel} (h : FillOutcome s c false u c') :
    c'.pending = [] ∧ u.lines = s.lines := by
  cases h with
  | nothing _ rest | ended _ rest => exact ⟨rest, rfl⟩

/-- Filling an open session from a channel is looking whether there is anything to read, and if there
is, reading it. -/
theorem fill_eq_of_channel {s : Session} {c : Channel} (hs : s.ReadsFrom c)
    (ho : ¬ s.isClosed = true) :
    s.fill =
      let (chunk, d) := c.ready.2.read (max s.tracker.settings.chunkSize 1)
      let t := { s with source := ⟨.channel d, {}⟩ }
      if c.ready.1 then
        match chunk with
        | .data octets => (true, { t with lines := s.lines.push octets })
        | .pending => (false, t)
        | .closed => (false, t.markClosed)
      else (false, { s with source := ⟨.channel c.ready.2, {}⟩ }) := by
  have source : s.source = ⟨.channel c, {}⟩ := hs
  have looked : s.source.ready s.desk.sink.written =
      (.ok c.ready.1, ⟨.channel c.ready.2, {}⟩) := by
    rw [source]
    rfl
  have took : ∀ most, Source.read most ⟨.channel c.ready.2, {}⟩ =
      (.ok (c.ready.2.read most).1, ⟨.channel (c.ready.2.read most).2, {}⟩) := fun _ => rfl
  unfold fill
  rw [if_neg ho, looked]
  cases c.ready.1 with
  | false => rfl
  | true =>
    dsimp only
    rw [took]
    cases (c.ready.2.read (max s.tracker.settings.chunkSize 1)).1 <;> rfl

theorem fill_of_channel {s : Session} {c : Channel} (hs : s.ReadsFrom c)
    (ho : ¬ s.isClosed = true) :
    ∃ c', FillOutcome s c s.fill.1 s.fill.2 c' ∧ c'.feeders = c.feeders ∧
      (c.Honest → c'.Honest) := by
  rw [fill_eq_of_channel hs ho]
  generalize max s.tracker.settings.chunkSize 1 = most
  cases hr : c.ready.1 with
  | false =>
    have none := Channel.pending_of_not_ready hr
    exact ⟨c.ready.2, .nothing none (c.pending_ready.trans none), c.feeders_ready,
      Channel.Honest.ready⟩
  | true =>
    refine ⟨(c.ready.2.read most).2, ?_, ?_, fun h => h.ready.read most⟩
    · simp only [if_true]
      cases hd : (c.ready.2.read most).1 with
      | data octets =>
        exact .data octets ((Channel.pending_of_read_data hd).trans c.pending_ready)
      | pending =>
        have empty : ∀ octets, (c.ready.2.read most).1 ≠ .data octets := by simp [hd]
        obtain ⟨before, rest⟩ := Channel.pending_of_read_empty empty
        exact .nothing (c.pending_ready ▸ before) rest
      | closed =>
        have empty : ∀ octets, (c.ready.2.read most).1 ≠ .data octets := by simp [hd]
        obtain ⟨before, rest⟩ := Channel.pending_of_read_empty empty
        exact .ended (c.pending_ready ▸ before) rest (Channel.noticed_of_read_closed hd)
    · exact (Channel.feeders_read _ most).trans c.feeders_ready

/-- A session that finds a deserted channel empty is closed. -/
theorem isClosed_of_deserted {s : Session} {c : Channel} (hs : s.ReadsFrom c)
    (ho : ¬ s.isClosed = true) (deserted : c.feeders = 0) (hf : s.fill.1 = false) :
    s.fill.2.isClosed = true := by
  rw [fill_eq_of_channel hs ho, Channel.ready_of_deserted deserted] at hf ⊢
  generalize max s.tracker.settings.chunkSize 1 = most at hf ⊢
  simp only [if_true] at hf ⊢
  cases hd : (c.ready.2.read most).1 with
  | data octets =>
    rw [hd] at hf
    cases hf
  | pending =>
    exact absurd hd (Channel.read_of_deserted (c.feeders_ready.trans deserted) most)
  | closed => rfl

end DebugLink.Session

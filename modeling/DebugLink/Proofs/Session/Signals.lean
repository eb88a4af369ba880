import DebugLink.Proofs.Session.Passing
import DebugLink.Proofs.Session.Stopping

/-! Requests to stop, and what the journal tells of them. Handlers make them while a record is taken,
which is noted, and so is that a wait has heeded one. Whether a request is pending at the desk can
therefore be told from what was noted since a moment at which it was known. Reading makes requests,
as far as handlers do, and heeds none; it cannot make one without using up octets. -/

namespace DebugLink

/-! ### Signals -/

/-- What there is to tell of requests to stop: that one was made, or that a wait has heeded it. -/
inductive Signal where
  | asked
  | heeded
deriving DecidableEq

namespace Signal

/-- Whether a request is pending after some signals. One that is made while another is pending
changes nothing; heeding takes a request that is pending, and then none is. -/
def after? (pending : Bool) : List Signal → Option Bool
  | [] => some pending
  | .asked :: signals => after? true signals
  | .heeded :: signals => if pending then after? false signals else none

/-- Whether a request is pending, as the last signal tells. -/
def pending (before : Bool) (signals : List Signal) : Bool :=
  signals.foldl (fun _ signal => signal = .asked) before

theorem after?_append (before : Bool) (signals more : List Signal) :
    after? before (signals ++ more) = (after? before signals).bind (after? · more) := by
  induction signals generalizing before with
  | nil => rfl
  | cons signal signals ih =>
    cases signal with
    | asked => exact ih true
    | heeded =>
      cases before with
      | true => exact ih false
      | false => rfl

theorem after?_of_unheeded {signals : List Signal} (h : .heeded ∉ signals) (before : Bool) :
    after? before signals = some (before || decide (.asked ∈ signals)) := by
  induction signals generalizing before with
  | nil => simp [after?]
  | cons signal signals ih =>
    cases signal with
    | asked =>
      rw [after?, ih fun later => h (List.mem_cons_of_mem _ later)]
      simp
    | heeded => exact absurd List.mem_cons_self h

theorem eq_nil_of_not_mem {signals : List Signal} (unasked : .asked ∉ signals)
    (unheeded : .heeded ∉ signals) : signals = [] := by
  refine List.eq_nil_iff_forall_not_mem.mpr fun signal mem => ?_
  cases signal with
  | asked => exact unasked mem
  | heeded => exact unheeded mem

/-- Where a request is pending in the end, and that one was whenever it was heeded. -/
theorem pending_of_after? {before now : Bool} {signals : List Signal}
    (h : after? before signals = some now) :
    now = pending before signals ∧
      ∀ front behind, signals = front ++ .heeded :: behind → pending before front = true := by
  induction signals generalizing before with
  | nil =>
    cases h
    refine ⟨rfl, fun front behind split => ?_⟩
    cases front <;> cases split
  | cons signal signals ih =>
    cases signal with
    | asked =>
      obtain ⟨last, each⟩ := ih h
      refine ⟨last, fun front behind split => ?_⟩
      cases front with
      | nil => cases split
      | cons first front =>
        obtain ⟨rfl, later⟩ := List.cons.inj split
        exact each front behind later
    | heeded =>
      cases before with
      | false => cases h
      | true =>
        obtain ⟨last, each⟩ := ih h
        refine ⟨last, fun front behind split => ?_⟩
        cases front with
        | nil => rfl
        | cons first front =>
          obtain ⟨rfl, later⟩ := List.cons.inj split
          exact each front behind later

end Signal

def Event.signal? : Event → Option Signal
  | .did .askedToStop => some .asked
  | .noticed (.waitStopped _) => some .heeded
  | _ => none

theorem Event.signal?_of_isPlain {event : Event} (plain : event.isPlain = true) :
    event.signal? = none := by
  unfold isPlain at plain
  unfold signal?
  split at plain <;> simp_all

/-! ### Signals at the desk -/

namespace Desk

/-- From one moment to the other these signals were noted, and whether a request is pending is
what they make of it. -/
structure Signals (d e : Desk) (signals : List Signal) : Prop where
  noted : ∃ events, d.Notes e events ∧ events.filterMap Event.signal? = signals
  pending : Signal.after? d.stopRequested signals = some e.stopRequested

/-- The signals that were noted from one moment to the other. -/
def signalsTo (d e : Desk) : List Signal :=
  (e.journal.toList.drop d.journal.size).filterMap Event.signal?

/-- Requests may have been made, but none was heeded. -/
def Asks (d e : Desk) : Prop := ∃ signals, d.Signals e signals ∧ .heeded ∉ signals

section signals
variable {d e f : Desk} {signals more : List Signal}

theorem Signals.signalsTo_eq (h : d.Signals e signals) : d.signalsTo e = signals := by
  obtain ⟨events, noted, rfl⟩ := h.noted
  have size : d.journal.size = d.journal.toList.length := rfl
  rw [signalsTo, noted, size, List.drop_left]

theorem Signals.trans (first : d.Signals e signals) (second : e.Signals f more) :
    d.Signals f (signals ++ more) := by
  obtain ⟨events, noted, rfl⟩ := first.noted
  obtain ⟨news, later, rfl⟩ := second.noted
  refine ⟨⟨_, noted.trans later, List.filterMap_append⟩, ?_⟩
  rw [Signal.after?_append, first.pending]
  exact second.pending

/-- Where nothing is noted, nothing changes about requests. -/
theorem signals_of_unnoted (journal : e.journal = d.journal)
    (same : e.stopRequested = d.stopRequested) : d.Signals e [] :=
  ⟨⟨[], by rw [Notes, journal, List.append_nil], rfl⟩, congrArg some same.symm⟩

theorem signals_log (d : Desk) {event : Event} (plain : event.isPlain = true) :
    d.Signals (d.log event) [] :=
  ⟨⟨[event], d.notes_log event, by simp [Event.signal?_of_isPlain plain]⟩, rfl⟩

theorem signals_ask (d : Desk) : d.Signals (d.requestStop.log (.did .askedToStop)) [.asked] :=
  ⟨⟨[_], d.requestStop.notes_log _, rfl⟩, rfl⟩

theorem signals_send (d : Desk) (text : String) (onResult : OnResult Reaction)
    (onConsole : Option (OnConsole Reaction)) :
    d.Signals (d.send text onResult onConsole).2 [] := by
  unfold send
  dsimp only
  split
  · exact signals_of_unnoted rfl rfl
  · split
    · exact signals_of_unnoted rfl rfl
    · refine (signals_of_unnoted ?_ ?_).trans (signals_log _ ?_)
      all_goals rfl

theorem Asks.refl (d : Desk) : d.Asks d := ⟨[], signals_of_unnoted rfl rfl, List.not_mem_nil⟩

theorem Asks.trans (first : d.Asks e) (second : e.Asks f) : d.Asks f := by
  obtain ⟨signals, given, unheeded⟩ := first
  obtain ⟨more, later, unheeded'⟩ := second
  exact ⟨_, given.trans later, by simp [unheeded, unheeded']⟩

theorem Signals.asks (h : d.Signals e []) : d.Asks e := ⟨[], h, List.not_mem_nil⟩

theorem asks_of_unnoted (journal : e.journal = d.journal)
    (same : e.stopRequested = d.stopRequested) : d.Asks e :=
  (signals_of_unnoted journal same).asks

/-- Whether a request is pending where none was heeded. -/
theorem Asks.stopRequested (h : d.Asks e) :
    .heeded ∉ d.signalsTo e ∧
      e.stopRequested = (d.stopRequested || decide (.asked ∈ d.signalsTo e)) := by
  obtain ⟨signals, given, unheeded⟩ := h
  have now := given.pending
  rw [Signal.after?_of_unheeded unheeded] at now
  rw [given.signalsTo_eq]
  exact ⟨unheeded, (Option.some.inj now).symm⟩

/-- Whoever is called for a record can make requests. -/
theorem Doings.asks (doings : d.Doings e) : d.Asks e := by
  induction doings with
  | none => exact .refl d
  | log event _ plain ih => exact ih.trans (signals_log _ plain).asks
  | send text onResult onConsole _ ih => exact ih.trans (signals_send _ text onResult onConsole).asks
  | forget token _ ih => exact ih.trans (asks_of_unnoted rfl rfl)
  | askToStop _ ih => exact ih.trans ⟨_, signals_ask _, by simp⟩
  | revise token f _ ih => exact ih.trans (asks_of_unnoted rfl rfl)

end signals

end Desk

namespace Tracker

theorem asks_takeLine (t : Tracker) (line : String) : t.desk.Asks (t.takeLine line).2.desk := by
  refine takeLine_keeps (Q := t.desk.Asks) (fun doings asked => asked.trans doings.asks)
    (fun {d} m asked => ?_) (.refl _) line
  have received : d.Signals (d.log (.received m)) [] := ⟨⟨[_], d.notes_log _, rfl⟩, rfl⟩
  exact asked.trans received.asks

theorem asks_takeLines (t : Tracker) (lines : List String) :
    t.desk.Asks (t.takeLines lines).desk := by
  induction lines generalizing t with
  | nil => exact .refl _
  | cons line lines ih => exact (t.asks_takeLine line).trans (ih (t.takeLine line).2)

end Tracker

/-! ### Signals while reading -/

theorem Chunk.length_ofHeld_le (ended : Bool) (most : Nat) (held : Octets) :
    (ofHeld ended most held).2.length ≤ held.length := by
  unfold ofHeld
  split
  · exact Nat.zero_le _
  · simp

theorem Wire.read_unread (most : Nat) (w : Wire) : (w.read most).2.unread ≤ w.unread := by
  cases w with
  | channel c =>
    have kept := Chunk.length_ofHeld_le c.drain.noticed most c.drain.held
    simp only [read, Channel.read, Channel.drain, unread, List.length_append, List.flatten_nil,
      List.length_nil] at kept ⊢
    omega
  | peer p =>
    have kept := Chunk.length_ofHeld_le p.gone most p.held
    simp only [read, Peer.read, unread] at kept ⊢
    omega

theorem Source.read_unread (most : Nat) (s : Source) : (s.read most).2.unread ≤ s.unread := by
  unfold read
  split
  · rename_i stalls _ hs
    simp only [unread, hs]
    omega
  · rename_i message reads _ hr
    simp only [unread, hr, List.length_cons]
    omega
  · have := s.wire.read_unread most
    simp only [unread]
    omega

namespace Session

/-- Filling that brings nothing leaves no more to be read than there was. -/
theorem unread_of_unfilled {s t : Session} (h : s.fill = (false, t)) : t.unread ≤ s.unread := by
  have bound : ∀ {source : Source}, source.unread ≤ s.source.unread →
      2 * source.unread + s.lines.octets.length ≤ s.unread :=
    fun less => Nat.add_le_add_right (Nat.mul_le_mul_left 2 less) _
  have ready := s.source.ready_unread s.desk.sink.written
  unfold fill at h
  split at h
  · cases h
    exact Nat.le_refl _
  · split at h
    · rename_i hr
      cases h
      rw [hr] at ready
      exact bound ready
    · rename_i hr
      cases h
      rw [hr] at ready
      exact bound ready
    · rename_i source hr
      rw [hr] at ready
      have left := Nat.le_trans (source.read_unread (max s.tracker.settings.chunkSize 1)) ready
      split at h
      · rename_i hd
        cases h
        rw [hd] at left
        exact bound left
      · rename_i hd
        cases h
        rw [hd] at left
        exact bound left
      · rename_i hd
        cases h
        rw [hd] at left
        exact bound left
      · cases h

theorem signals_fill (s : Session) : s.desk.Signals s.fill.2.desk [] := by
  unfold fill
  split
  · exact Desk.signals_of_unnoted rfl rfl
  · split
    · exact (s.desk.signals_log rfl).trans (Desk.signals_of_unnoted rfl rfl)
    · exact Desk.signals_of_unnoted rfl rfl
    · split
      · exact (s.desk.signals_log rfl).trans (Desk.signals_of_unnoted rfl rfl)
      all_goals exact Desk.signals_of_unnoted rfl rfl

/-- Every line that is taken uses up octets. -/
theorem Takes.unread {s t : Session} {lines : List String} (h : s.Takes lines t) :
    t.unread + lines.length ≤ s.unread := by
  induction h with
  | none => exact Nat.le_refl _
  | @line s t line rest lines hl _ ih =>
    have less := LineBuffer.next?_length (LineBuffer.next?_of_next_some hl)
    have after : (s.afterLine line rest).unread = 2 * s.source.unread + rest.octets.length := rfl
    have before : s.unread = 2 * s.source.unread + s.lines.octets.length := rfl
    rw [List.length_cons]
    omega
  | filled hn hf _ ih =>
    have less := fill_unread hf
    rw [unread_of_next_none hn] at less
    omega

/-- All reading takes some lines, and may fail to fill the buffer after that. -/
theorem exists_takes_readWhile (enough : List Message → Bool) (got : List Message) (s : Session) :
    ∃ lines u, s.Takes lines u ∧ ((s.readWhile enough got).2 = u ∨
      ∃ rest, u.lines.next = (none, rest) ∧
        fill { u with lines := rest } = (false, (s.readWhile enough got).2)) := by
  obtain ⟨lines, t, reads⟩ := exists_reads [] s
  have stops := reads.stops enough got
  generalize s.readWhile enough got = r at stops ⊢
  cases stops with
  | @early front behind u _ _ _ takes _ => exact ⟨front, u, takes, .inl rfl⟩
  | late =>
    obtain ⟨u, rest, takes, hn, hf⟩ := reads.takes
    exact ⟨lines, u, takes, .inr ⟨rest, hn, hf⟩⟩

/-- Reading heeds no request, and makes none without leaving less to be read. -/
theorem asks_readWhile (enough : List Message → Bool) (got : List Message) (s : Session) :
    s.desk.Asks (s.readWhile enough got).2.desk ∧
      ((s.readWhile enough got).2.unread < s.unread ∨
        s.desk.Signals (s.readWhile enough got).2.desk []) := by
  obtain ⟨lines, u, takes, last⟩ := exists_takes_readWhile enough got s
  generalize (s.readWhile enough got).2 = t at last ⊢
  have asked : s.desk.Asks u.desk := by
    rw [desk, desk, takes.tracker_eq]
    exact s.tracker.asks_takeLines lines
  have ended : u.desk.Signals t.desk [] ∧ t.unread ≤ u.unread := by
    rcases last with rfl | ⟨rest, hn, hf⟩
    · exact ⟨Desk.signals_of_unnoted rfl rfl, Nat.le_refl _⟩
    · have filled := signals_fill { u with lines := rest }
      have less := unread_of_unfilled hf
      rw [hf] at filled
      rw [unread_of_next_none hn] at less
      exact ⟨filled, less⟩
  obtain ⟨quiet, less⟩ := ended
  refine ⟨asked.trans quiet.asks, ?_⟩
  have taken := takes.unread
  cases lines with
  | nil =>
    have same : u.desk = s.desk := congrArg (·.desk) takes.tracker_eq
    exact .inr (same ▸ quiet)
  | cons line lines =>
    rw [List.length_cons] at taken
    exact .inl (by omega)

end Session

end DebugLink

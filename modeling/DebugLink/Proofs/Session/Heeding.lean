import DebugLink.Proofs.Session.Operations
import DebugLink.Proofs.Session.Signals

/-! Waits that are asked to stop. A wait looks for a request before each of its rounds, and before it
looks at the time. So one that is pending already ends it at once, and one that a handler makes ends
it before the next round, if there is a next round. Nothing else heeds a request, so what no wait has
heeded is there for the next one. -/

namespace DebugLink

/-- The operation waits, or has to wait for an answer. -/
def Operation.waits : Operation → Bool
  | .waitFor _ | .waitForAtMost .. | .ask _ => true
  | _ => false

namespace Session

variable {s t : Session} {target : Option Token} {timed : Bool}

/-! ### One round -/

theorem asks_of_poll {outcome : PollOutcome} (h : s.poll target = (outcome, t)) :
    s.desk.Asks t.desk ∧ (t.unread < s.unread ∨ s.desk.Signals t.desk []) := by
  have asked := asks_readWhile (fun got => got.getLast?.any (isTarget target)) [] s
  rw [poll_eq] at h
  obtain ⟨-, rfl⟩ := Prod.mk.inj h
  exact asked

theorem signals_takeStop (h : s.desk.stopRequested = true) (target : Option Token) :
    s.desk.Signals (s.takeStop target).desk [.heeded] := by
  refine ⟨⟨[.noticed (.waitStopped target)], ?_, rfl⟩, ?_⟩
  · exact Desk.notes_log { s.desk with stopRequested := false } _
  · rw [h]
    rfl

/-- A request that is made in a round is heeded before the next one. There is a next one, since
making a request used up octets. -/
theorem waitRounds_of_asked_meanwhile (h : ¬ s.desk.stopRequested = true)
    (polled : s.poll target = (.pending, t)) (asked : t.desk.stopRequested = true) :
    s.waitRounds target timed = (.stopped, t.takeStop target) := by
  have less : t.unread < s.unread := by
    rcases (asks_of_poll polled).2 with less | quiet
    · exact less
    · have same := quiet.pending
      rw [Bool.eq_false_iff.mpr h, asked] at same
      cases same
  rw [waitRounds_of_pending h polled, if_pos less, waitRounds_of_asked asked]

/-! ### Waits with all that can happen meanwhile -/

/-- A wait, round by round. Between its rounds somebody else may ask for it to stop, and something
may happen at the far end; of the signals those of others are told too. How long a round takes is
left open. -/
inductive Waits (target : Option Token) (timed : Bool) :
    Session → List Signal → WaitEnd → Session → Prop
  | stopped {s : Session} :
      s.desk.stopRequested = true → Waits target timed s [.heeded] .stopped (s.takeStop target)
  | timedOut {s : Session} :
      s.desk.stopRequested = false → timed = true → Waits target timed s [] .timedOut s
  /-- It goes on, and has not been asked to stop so far. -/
  | blocked {s : Session} :
      s.desk.stopRequested = false → timed = false → Waits target timed s [] .blocked s
  | found {s t : Session} :
      s.desk.stopRequested = false → s.poll target = (.found, t) →
      Waits target timed s (s.desk.signalsTo t.desk) .found t
  | closed {s t : Session} :
      s.desk.stopRequested = false → s.poll target = (.closed, t) →
      Waits target timed s (s.desk.signalsTo t.desk) .closed t
  | pending {s t u : Session} {signals : List Signal} {ended : WaitEnd} :
      s.desk.stopRequested = false → s.poll target = (.pending, t) →
      Waits target timed t signals ended u →
      Waits target timed s (s.desk.signalsTo t.desk ++ signals) ended u
  | asked {s t : Session} {signals : List Signal} {ended : WaitEnd} :
      Waits target timed (s.withDesk s.desk.requestStop) signals ended t →
      Waits target timed s (.asked :: signals) ended t
  | farEnd {s t : Session} {signals : List Signal} {ended : WaitEnd} (source : Source) :
      Waits target timed { s with source } signals ended t → Waits target timed s signals ended t

/-- What a wait has to do with requests to stop, by how it ended. -/
inductive Heeds (s : Session) : List Signal → WaitEnd → Session → Prop
  /-- There was one, before the wait or since, and it is gone with all that were made so far. -/
  | stopped {t : Session} {front : List Signal} :
      .heeded ∉ front → (s.desk.stopRequested || decide (.asked ∈ front)) = true →
      t.desk.stopRequested = false → Heeds s (front ++ [.heeded]) .stopped t
  /-- What was asked in the last round is still pending. -/
  | finished {t : Session} {signals : List Signal} {ended : WaitEnd} :
      ended = .found ∨ ended = .closed → s.desk.stopRequested = false → .heeded ∉ signals →
      t.desk.stopRequested = decide (.asked ∈ signals) → Heeds s signals ended t
  /-- There was none. -/
  | vain {t : Session} {ended : WaitEnd} :
      ended = .timedOut ∨ ended = .blocked → s.desk.stopRequested = false →
      t.desk.stopRequested = false → Heeds s [] ended t

/-- A round in which no wait was told to stop, before those that follow it. -/
theorem Heeds.after_round {u : Session} {signals : List Signal} {ended : WaitEnd}
    (h : t.Heeds signals ended u) (unasked : s.desk.stopRequested = false)
    (polled : s.desk.Asks t.desk) : s.Heeds (s.desk.signalsTo t.desk ++ signals) ended u := by
  obtain ⟨unheeded, pending⟩ := polled.stopRequested
  rw [unasked, Bool.false_or] at pending
  cases h with
  | @stopped _ front clean asked gone =>
    rw [← List.append_assoc]
    refine .stopped (by simp [unheeded, clean]) ?_ gone
    rw [pending] at asked
    simpa [unasked] using asked
  | finished ends before clean after =>
    refine .finished ends unasked (by simp [unheeded, clean]) ?_
    rw [pending] at before
    simp_all
  | vain ends before after =>
    have nothing : s.desk.signalsTo t.desk = [] := by
      rw [pending] at before
      exact Signal.eq_nil_of_not_mem (of_decide_eq_false before) unheeded
    rw [nothing]
    exact .vain ends unasked after

theorem Waits.heeds {signals : List Signal} {ended : WaitEnd}
    (h : s.Waits target timed signals ended t) : s.Heeds signals ended t := by
  induction h with
  | stopped asked => exact @Heeds.stopped _ _ [] List.not_mem_nil (by simp [asked]) rfl
  | timedOut unasked _ => exact .vain (.inl rfl) unasked unasked
  | blocked unasked _ => exact .vain (.inr rfl) unasked unasked
  | found unasked polled =>
    obtain ⟨unheeded, pending⟩ := (asks_of_poll polled).1.stopRequested
    rw [unasked, Bool.false_or] at pending
    exact .finished (.inl rfl) unasked unheeded pending
  | closed unasked polled =>
    obtain ⟨unheeded, pending⟩ := (asks_of_poll polled).1.stopRequested
    rw [unasked, Bool.false_or] at pending
    exact .finished (.inr rfl) unasked unheeded pending
  | pending unasked polled _ ih => exact ih.after_round unasked (asks_of_poll polled).1
  | @asked s t signals ended _ ih =>
    -- whatever else would need that nobody has asked yet
    cases ih with
    | @stopped _ front clean _ gone =>
      exact @Heeds.stopped _ _ (.asked :: front) (by simp [clean]) (by simp) gone
    | finished _ before => cases before
    | vain _ before => cases before
  | farEnd source _ ih =>
    cases ih with
    | stopped clean asked gone => exact .stopped clean asked gone
    | finished ends before clean after => exact .finished ends before clean after
    | vain ends before after => exact .vain ends before after

theorem Heeds.after? {signals : List Signal} {ended : WaitEnd} (h : s.Heeds signals ended t) :
    Signal.after? s.desk.stopRequested signals = some t.desk.stopRequested := by
  cases h with
  | @stopped _ front clean asked gone =>
    rw [Signal.after?_append, Signal.after?_of_unheeded clean, asked, gone]
    rfl
  | finished _ before clean after =>
    rw [Signal.after?_of_unheeded clean, before, after, Bool.false_or]
  | vain _ before after => rw [Signal.after?, before, after]

/-! ### Waits as they are made -/

/-- Where nobody interferes, a wait has the signals that it leaves in the journal. -/
theorem waits_waitRounds (target : Option Token) (timed : Bool) (s : Session) :
    ∃ signals, s.desk.Signals (s.waitRounds target timed).2.desk signals ∧
      s.Waits target timed signals (s.waitRounds target timed).1 (s.waitRounds target timed).2 := by
  have polled : ∀ {s t : Session} {outcome : PollOutcome}, s.poll target = (outcome, t) →
      s.desk.Signals t.desk (s.desk.signalsTo t.desk) := by
    intro s t outcome h
    obtain ⟨signals, given, -⟩ := (asks_of_poll h).1
    rw [given.signalsTo_eq]
    exact given
  induction s using waitRounds.induct target with
  | case1 s asked =>
    rw [waitRounds_of_asked asked]
    exact ⟨_, signals_takeStop asked target, .stopped asked⟩
  | case2 s asked t hp =>
    rw [waitRounds_of_found asked hp]
    exact ⟨_, polled hp, .found (Bool.eq_false_iff.mpr asked) hp⟩
  | case3 s asked t hp =>
    rw [waitRounds_of_closed asked hp]
    exact ⟨_, polled hp, .closed (Bool.eq_false_iff.mpr asked) hp⟩
  | case4 s asked t hp less ih =>
    obtain ⟨signals, given, waits⟩ := ih
    rw [waitRounds_of_pending asked hp, if_pos less]
    exact ⟨_, (polled hp).trans given, .pending (Bool.eq_false_iff.mpr asked) hp waits⟩
  | case5 s asked t hp less =>
    have unasked := Bool.eq_false_iff.mpr asked
    have still : t.desk.stopRequested = false := by
      rcases (asks_of_poll hp).2 with progress | quiet
      · exact absurd progress less
      · have same := quiet.pending
        rw [unasked] at same
        exact (Option.some.inj same).symm
    rw [waitRounds_of_pending asked hp, if_neg less]
    refine ⟨_, (polled hp).trans (Desk.signals_of_unnoted rfl rfl), .pending unasked hp ?_⟩
    cases timed with
    | true => exact .timedOut still rfl
    | false => exact .blocked still rfl

theorem waits_waitForAtMost (target : Option Token) (milliseconds : Nat) (s : Session) :
    ∃ signals, s.desk.Signals (s.waitForAtMost target milliseconds).2.desk signals ∧
      s.Waits target true signals (s.waitForAtMost target milliseconds).1
        (s.waitForAtMost target milliseconds).2 := by
  unfold waitForAtMost
  split
  · split
    · rename_i asked
      exact ⟨_, signals_takeStop asked target, .stopped asked⟩
    · rename_i asked
      exact ⟨_, Desk.signals_of_unnoted rfl rfl, .timedOut (Bool.eq_false_iff.mpr asked) rfl⟩
  · exact waits_waitRounds target true s

/-! ### Everything else that is done with a session -/

/-- The signals of an operation. That somebody asks from outside is not noted, so it is told here. -/
def signalsOf (s : Session) : Operation → List Signal
  | .requestStop => [.asked]
  | operation => s.desk.signalsTo (s.act operation).desk

theorem asks_start (s : Session) : s.desk.Asks s.start.2.desk := by
  have sent := s.desk.signals_send ("-break-insert " ++ "main") .nothing none
  unfold start Desk.insertBreakpoint Desk.sendPlain atDesk
  split
  · exact .refl _
  · split
    · rename_i outcome
      obtain ⟨-, rfl⟩ := Prod.mk.inj outcome
      exact sent.asks
    · rename_i outcome
      obtain ⟨-, rfl⟩ := Prod.mk.inj outcome
      exact sent.asks

theorem asks_act_of_not_waits {operation : Operation} (idle : operation.waits = false)
    (inside : operation ≠ .requestStop) (s : Session) : s.desk.Asks (s.act operation).desk := by
  cases operation with
  | send text onResult onConsole => exact (s.desk.signals_send text onResult onConsole).asks
  | addBreakpoint _ _ | insertBreakpoint _ _ | resume _ | run _ | finish _ _ | interrupt _
  | request _ _ | useTerminal _ => exact (s.desk.signals_send _ _ _).asks
  | start => exact s.asks_start
  | forget _ | onChange _ | onRecord _ _ | farEnd _ => exact Desk.asks_of_unnoted rfl rfl
  | requestStop => exact absurd rfl inside
  | read => exact (asks_readWhile _ _ s).1
  | readAtMost limit => exact (asks_readWhile _ _ s).1
  | poll target => exact (asks_of_poll rfl).1
  | ask _ | waitFor _ | waitForAtMost _ _ => cases idle

theorem signals_ask (s : Session) (query : String) :
    ∃ signals, s.desk.Signals (s.ask query).2.desk signals := by
  have sent := s.desk.signals_send query .nothing (some .collect)
  unfold ask atDesk
  split
  · rename_i outcome
    obtain ⟨-, rfl⟩ := Prod.mk.inj outcome
    exact ⟨_, sent⟩
  · rename_i token t outcome
    obtain ⟨-, rfl⟩ := Prod.mk.inj outcome
    let t := s.withDesk (s.desk.send query .nothing (some .collect)).2
    obtain ⟨signals, given, -⟩ := waits_waitRounds (some token) false t
    have waited := sent.trans given
    exact conclude_keeps (P := fun u => ∃ signals, s.desk.Signals u.desk signals) token _ _
      ⟨_, waited⟩ ⟨_, waited.trans (Desk.signals_of_unnoted rfl rfl)⟩

theorem signals_act_of_waits {operation : Operation} (waiting : operation.waits = true)
    (s : Session) : ∃ signals, s.desk.Signals (s.act operation).desk signals := by
  cases operation with
  | waitFor target =>
    obtain ⟨signals, given, -⟩ := waits_waitRounds target false s
    exact ⟨signals, given⟩
  | waitForAtMost target milliseconds =>
    obtain ⟨signals, given, -⟩ := waits_waitForAtMost target milliseconds s
    exact ⟨signals, given⟩
  | ask query => exact s.signals_ask query
  | _ => cases waiting

/-- Whatever is done with a session, whether a request is pending afterwards is what the signals of
it tell. -/
theorem after?_signalsOf (s : Session) (operation : Operation) :
    Signal.after? s.desk.stopRequested (s.signalsOf operation) =
      some (s.act operation).desk.stopRequested := by
  by_cases outside : operation = .requestStop
  · subst outside
    rfl
  · have noted : s.signalsOf operation = s.desk.signalsTo (s.act operation).desk := by
      cases operation with
      | requestStop => exact absurd rfl outside
      | _ => rfl
    have given : ∃ signals, s.desk.Signals (s.act operation).desk signals := by
      cases waiting : operation.waits with
      | true => exact signals_act_of_waits waiting s
      | false =>
        obtain ⟨signals, given, -⟩ := asks_act_of_not_waits waiting outside s
        exact ⟨signals, given⟩
    obtain ⟨signals, given⟩ := given
    rw [noted, given.signalsTo_eq]
    exact given.pending

/-- What is no wait heeds no request. -/
theorem unheeded_signalsOf {operation : Operation} (idle : operation.waits = false) (s : Session) :
    .heeded ∉ s.signalsOf operation := by
  by_cases outside : operation = .requestStop
  · subst outside
    simp [signalsOf]
  · have unheeded := (asks_act_of_not_waits idle outside s).stopRequested.1
    cases operation with
    | requestStop => exact absurd rfl outside
    | _ => exact unheeded

/-- What becomes of a session while it is used, and while somebody waits and others act. -/
inductive Course : Session → List Signal → Session → Prop
  | none (s : Session) : Course s [] s
  | act {s t : Session} {signals : List Signal} (operation : Operation) :
      Course (s.act operation) signals t → Course s (s.signalsOf operation ++ signals) t
  | wait {s t u : Session} {target : Option Token} {timed : Bool} {front behind : List Signal}
      {ended : WaitEnd} :
      s.Waits target timed front ended t → Course t behind u → Course s (front ++ behind) u

theorem Course.after? {signals : List Signal} (h : s.Course signals t) :
    Signal.after? s.desk.stopRequested signals = some t.desk.stopRequested := by
  induction h with
  | none s => rfl
  | act operation _ ih =>
    rw [Signal.after?_append, after?_signalsOf]
    exact ih
  | wait waits _ ih =>
    rw [Signal.after?_append, waits.heeds.after?]
    exact ih

/-! ### Requests are heeded once and never lost -/

/-- A request that is pending ends a wait at once: it is taken, with a note of it, and that is all,
whatever there is to read and be the time over. One that is made in a round ends the wait before the
next round. A wait that ends otherwise, or anything else that is done, heeds none. So over any course
of events a request is pending just if one was made since the last was heeded, and none is heeded
that was not made since then. -/
theorem requests_to_stop_are_heeded_once_and_never_lost :
    (∀ (s : Session) (target : Option Token), s.desk.stopRequested = true →
      let t := s.withDesk { s.desk with
        stopRequested := false
        journal := s.desk.journal.push (.noticed (.waitStopped target)) }
      s.waitFor target = (.stopped, t) ∧
        ∀ milliseconds, s.waitForAtMost target milliseconds = (.stopped, t)) ∧
    (∀ (s t : Session) (target : Option Token) (timed : Bool) (outcome : PollOutcome),
      s.desk.stopRequested = false → s.poll target = (outcome, t) →
      t.desk.stopRequested = decide (.asked ∈ s.desk.signalsTo t.desk) ∧
      (outcome = .found → s.waitRounds target timed = (.found, t)) ∧
      (outcome = .closed → s.waitRounds target timed = (.closed, t)) ∧
      (outcome = .pending →
        s.waitRounds target timed =
          if t.desk.stopRequested then (.stopped, t.takeStop target)
          else if t.unread < s.unread then t.waitRounds target timed
          else (if timed then .timedOut else .blocked, t))) ∧
    (∀ (s : Session) (target : Option Token),
      s.Waits target false (s.desk.signalsTo (s.waitFor target).2.desk) (s.waitFor target).1
        (s.waitFor target).2 ∧
      ∀ milliseconds,
        s.Waits target true (s.desk.signalsTo (s.waitForAtMost target milliseconds).2.desk)
          (s.waitForAtMost target milliseconds).1 (s.waitForAtMost target milliseconds).2) ∧
    (∀ (s t : Session) (target : Option Token) (timed : Bool) (signals : List Signal)
      (ended : WaitEnd), s.Waits target timed signals ended t → s.Heeds signals ended t) ∧
    (∀ (s : Session) (operation : Operation), operation.waits = false →
      .heeded ∉ s.signalsOf operation ∧ (s.act operation).desk.stopRequested =
        (s.desk.stopRequested || decide (.asked ∈ s.signalsOf operation))) ∧
    ∀ (s t : Session) (signals : List Signal), s.Course signals t →
      t.desk.stopRequested = Signal.pending s.desk.stopRequested signals ∧
        ∀ front behind, signals = front ++ .heeded :: behind →
          Signal.pending s.desk.stopRequested front = true := by
  refine ⟨?_, ?_, ?_, fun _ _ _ _ _ _ waits => waits.heeds, ?_,
    fun _ _ _ course => Signal.pending_of_after? course.after?⟩
  · intro s target asked
    refine ⟨waitRounds_of_asked asked, fun milliseconds => ?_⟩
    unfold waitForAtMost
    rw [if_pos asked, waitRounds_of_asked asked]
    exact ite_self _
  · intro s t target timed outcome unasked polled
    obtain ⟨-, pending⟩ := (asks_of_poll polled).1.stopRequested
    rw [unasked, Bool.false_or] at pending
    have free : ¬ s.desk.stopRequested = true := by simp [unasked]
    refine ⟨pending, ?_, ?_, ?_⟩
    · rintro rfl
      exact waitRounds_of_found free polled
    · rintro rfl
      exact waitRounds_of_closed free polled
    · rintro rfl
      split
      · rename_i asked
        exact waitRounds_of_asked_meanwhile free polled asked
      · exact waitRounds_of_pending free polled
  · intro s target
    refine ⟨?_, fun milliseconds => ?_⟩
    · obtain ⟨signals, given, waits⟩ := waits_waitRounds target false s
      rw [← given.signalsTo_eq] at waits
      exact waits
    · obtain ⟨signals, given, waits⟩ := waits_waitForAtMost target milliseconds s
      rw [← given.signalsTo_eq] at waits
      exact waits
  · intro s operation idle
    have unheeded := unheeded_signalsOf idle s
    have now := after?_signalsOf s operation
    rw [Signal.after?_of_unheeded unheeded] at now
    exact ⟨unheeded, (Option.some.inj now).symm⟩

/-- A subscriber asks twice for a wait to stop that finds its record all the same. The next wait is
stopped, though its record is in the buffer, and the one after that finds it. -/
theorem two_requests_stop_the_next_wait_only :
    let c : Channel := { queue := [Utf8.encode "*running\n7^done\n8^done\n"] }
    let s : Session := {
      tracker := { recordSubscribers := [⟨0, .execAsync, fun _ => .stop (.stop .done)⟩] }
      source := ⟨.channel c, {}⟩ }
    let t := (s.waitFor (some ⟨7⟩)).2
    let u := (t.waitFor (some ⟨8⟩)).2
    (s.waitFor (some ⟨7⟩)).1 = .found ∧ t.desk.stopRequested = true ∧
      (t.waitFor (some ⟨8⟩)).1 = .stopped ∧ u.lines = t.lines ∧ u.desk.stopRequested = false ∧
      (u.waitFor (some ⟨8⟩)).1 = .found := by
  intro c s t u
  obtain ⟨stopped, -⟩ := requests_to_stop_are_heeded_once_and_never_lost
  have asked : t.desk.stopRequested = true := by decide +kernel
  obtain ⟨waited, -⟩ := stopped t (some ⟨8⟩) asked
  refine ⟨by decide +kernel, asked, congrArg (·.1) waited, congrArg (·.2.lines) waited,
    congrArg (·.2.desk.stopRequested) waited, by decide +kernel⟩

end Session

end DebugLink

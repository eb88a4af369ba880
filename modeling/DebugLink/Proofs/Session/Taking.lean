import DebugLink.Proofs.LastWord
import DebugLink.Proofs.Session.Past

/-! Lines taken one after the other. Which of them are records depends on the lines alone, and what
they do to a tracker depends on it only apart from its past. Hence two trackers that agree but for
their pasts still agree after the same lines. -/

namespace DebugLink

/-- The record that a line is accepted as. Blank lines and malformed ones are none. -/
def accepted? (line : String) : Option Message :=
  if Text.allBlank line then none else (Message.ofLine line).toOption

namespace Tracker

def takeLines (t : Tracker) (lines : List String) : Tracker :=
  lines.foldl (fun t line => (t.takeLine line).2) t

theorem takeLines_concat (t : Tracker) (lines : List String) (line : String) :
    t.takeLines (lines ++ [line]) = ((t.takeLines lines).takeLine line).2 := by
  simp [takeLines]

/-- What doings at the desk keep, and the note that a record was received, taking a line keeps. -/
theorem takeLine_keeps {Q : Desk → Prop} (done : ∀ {d e : Desk}, d.Doings e → Q d → Q e)
    (noted : ∀ {d : Desk} (m : Message), Q d → Q (d.log (.received m))) {t : Tracker}
    (h : Q t.desk) (line : String) : Q (t.takeLine line).2.desk := by
  unfold takeLine
  split
  · exact h
  · split
    · exact done (t.doings_log rfl) h
    · rename_i m _
      exact done (t.doings_take m) (noted m h)

/-- Where every write succeeds, taking a line closes nothing. -/
theorem unlimited_takeLine {t : Tracker} (h : t.desk.sink.remaining = none) (line : String) :
    (t.takeLine line).2.desk.sink.remaining = none ∧
      (t.takeLine line).2.desk.closed = t.desk.closed := by
  refine takeLine_keeps (Q := fun d => d.sink.remaining = none ∧ d.closed = t.desk.closed)
    ?_ (fun _ kept => kept) ⟨h, rfl⟩ line
  intro d e doings kept
  obtain ⟨unlimited, same⟩ := doings.moves.unlimited kept.1
  exact ⟨unlimited, same.trans kept.2⟩

theorem steady_takeLine {t : Tracker} (h : t.desk.Steady) (line : String) :
    (t.takeLine line).2.desk.Steady := by
  obtain ⟨unlimited, same⟩ := unlimited_takeLine h.unlimited line
  exact ⟨same.trans h.opened, unlimited⟩

theorem steady_takeLines {t : Tracker} (h : t.desk.Steady) (lines : List String) :
    (t.takeLines lines).desk.Steady := by
  induction lines generalizing t with
  | nil => exact h
  | cons line lines ih => exact ih (steady_takeLine h line)

theorem received_takeLine (t : Tracker) (line : String) :
    received (t.takeLine line).2.desk.journal =
      received t.desk.journal ++ (accepted? line).toList := by
  unfold takeLine accepted?
  split
  · exact (List.append_nil _).symm
  · split
    · rename_i flaw hm
      rw [hm]
      exact (received_push_of_quiet _ rfl).trans (List.append_nil _).symm
    · rename_i m hm
      rw [hm]
      have taken := (t.doings_take m).moves.received
      exact taken.trans (received_push _ m)

/-- Each line that is a record is received once, and in its turn. -/
theorem received_takeLines (t : Tracker) (lines : List String) :
    received (t.takeLines lines).desk.journal =
      received t.desk.journal ++ lines.filterMap accepted? := by
  induction lines generalizing t with
  | nil => exact (List.append_nil _).symm
  | cons line lines ih =>
    have rest := ih (t.takeLine line).2
    rw [received_takeLine, List.append_assoc] at rest
    rw [filterMap_cons_toList]
    exact rest

/-! ### Without the past -/

/-- A tracker to which nothing has happened that it could take notice of. -/
def fresh (t : Tracker) : Tracker :=
  { t with
    desk := { t.desk with journal := #[], stopRequested := false }
    settings := { t.settings with chunkSize := 0 } }

/-- A tracker apart from its past and from what handlers have gone through. -/
def bare (t : Tracker) : Tracker :=
  { t.fresh with desk := { t.fresh.desk with memory := [] } }

theorem bare_of_fresh {t u : Tracker} (same : t.fresh = u.fresh) : t.bare = u.bare :=
  congrArg (fun v => { v with desk := { v.desk with memory := [] } }) same

theorem bare_log (t : Tracker) (e : Event) : (t.log e).bare = t.bare := rfl

def past (t : Tracker) : Past := ⟨t.desk.journal, t.desk.stopRequested, t.settings.chunkSize⟩

theorem after_past (t : Tracker) : t.fresh.after t.past = t := by
  simp [fresh, past, after, Desk.after]

/-- Two trackers differ in nothing but their pasts, and there only in events that do not count. -/
structure Agrees (counts : Event → Bool) (t u : Tracker) : Prop where
  fresh : t.fresh = u.fresh
  events : t.desk.journal.toList.filter counts = u.desk.journal.toList.filter counts

section Agrees
variable {counts : Event → Bool} {t u v : Tracker}

theorem Agrees.refl (t : Tracker) : Agrees counts t t := ⟨rfl, rfl⟩

theorem Agrees.of_eq (h : t = u) : Agrees counts t u := h ▸ .refl t

theorem Agrees.symm (h : Agrees counts t u) : Agrees counts u t := ⟨h.fresh.symm, h.events.symm⟩

theorem Agrees.trans (h : Agrees counts t u) (k : Agrees counts u v) : Agrees counts t v :=
  ⟨h.fresh.trans k.fresh, h.events.trans k.events⟩

theorem agrees_log (t : Tracker) {event : Event} (unlived : event.isLived = false)
    (quiet : counts event = false) : Agrees counts (t.log event) t := by
  constructor
  · simp [fresh, log, Desk.log, unlived]
  · simp [log, Desk.log, quiet]

/-- What takes no notice of the past keeps trackers in agreement. -/
theorem Agrees.congr {f : Tracker → Tracker} (commutes : ∀ p t, f (after p t) = (f t).after p)
    (h : Agrees counts t u) : Agrees counts (f t) (f u) := by
  have split : ∀ t, f t = (f t.fresh).after t.past := by
    intro t
    rw [← commutes, after_past]
  have events : ∀ t, (f t).desk.journal.toList.filter counts =
      t.desk.journal.toList.filter counts ++ (f t.fresh).desk.journal.toList.filter counts := by
    intro t
    rw [← List.filter_append, ← Array.toList_append]
    exact congrArg (fun v => v.desk.journal.toList.filter counts) (split t)
  refine ⟨?_, ?_⟩
  · rw [split t, split u, h.fresh]
    rfl
  · rw [events t, events u, h.events, h.fresh]

theorem Agrees.takeLine (h : Agrees counts t u) (line : String) :
    Agrees counts (t.takeLine line).2 (u.takeLine line).2 :=
  h.congr (f := fun t => (t.takeLine line).2) fun p t => congrArg Prod.snd (t.takeLine_after p line)

end Agrees

end Tracker

/-! ### What shows of a tracker -/

/-- The events that lines cause. Waiting and reading have notices of their own. -/
def Event.isOfLines : Event → Bool
  | .noticed (.waitStopped _) | .noticed (.waitFailed _) | .noticed (.readFailed _) => false
  | _ => true

/-- What a tracker shows of the lines it has taken. -/
structure Observation where
  execState : Option ExecState
  commands : Dict Token Command
  breakpoints : BreakpointTable
  threadGroups : ThreadGroupTable
  stopHandlers : Dict UInt32 (StopHandler Reaction)
  sent : Octets
  events : List Event

namespace Tracker

def observe (t : Tracker) : Observation where
  execState := t.execState
  commands := t.desk.commands
  breakpoints := t.breakpoints
  threadGroups := t.threadGroups
  stopHandlers := t.stopHandlers
  sent := t.desk.sink.written
  events := t.desk.journal.toList.filter Event.isOfLines

/-- Trackers that agree show the same, as far as only events that count are looked at. -/
theorem Agrees.observe {counts : Event → Bool} {t u : Tracker} (h : Agrees counts t u) :
    { t.observe with events := t.desk.journal.toList.filter counts } =
      { u.observe with events := u.desk.journal.toList.filter counts } :=
  calc
    { t.observe with events := t.desk.journal.toList.filter counts }
    _ = { t.fresh.observe with events := t.desk.journal.toList.filter counts } := rfl
    _ = { u.fresh.observe with events := u.desk.journal.toList.filter counts } := by
        rw [h.fresh, h.events]
    _ = { u.observe with events := u.desk.journal.toList.filter counts } := rfl

/-- A tracker that has not been told that the stream is over. -/
def opened (t : Tracker) : Tracker := { t with desk := { t.desk with closed := false } }

theorem opened_of_open {t : Tracker} (h : ¬ t.desk.closed = true) : t.opened = t := by
  have opened : t.desk.closed = false := by simpa using h
  rw [Tracker.opened, ← opened]

theorem Agrees.closed {counts : Event → Bool} {t u : Tracker} (h : Agrees counts t u) :
    t.desk.closed = u.desk.closed := congrArg (fun v => v.desk.closed) h.fresh

theorem observe_of_agrees {t u : Tracker} (h : Agrees Event.isOfLines t.opened u) :
    t.observe = u.observe := h.observe

end Tracker

theorem received_eq (journal : Array Event) :
    received journal = (journal.toList.filter Event.isOfLines).filterMap fun
      | .received m => some m
      | _ => none := by
  rw [received, List.filterMap_filter]
  congr
  funext event
  cases event with
  | noticed n => simp
  | _ => rfl

theorem received_of_observe {t u : Tracker} (h : t.observe = u.observe) :
    received t.desk.journal = received u.desk.journal := by
  have events : t.desk.journal.toList.filter Event.isOfLines =
      u.desk.journal.toList.filter Event.isOfLines := congrArg Observation.events h
  rw [received_eq, received_eq, events]

end DebugLink

import DebugLink.Proofs.Session.Remembering

/-! Lines that could as well not have come. Blank and malformed lines are among them, and records
that say nothing of a command, a table or the state of execution. Taking one leaves no trace but
notices and the calls of those who are shown the record. If these only look, and no other handler
goes by it, trackers are alike with the line and without it. -/

namespace DebugLink

/-- The classes of the notices that fill the tables. -/
def handledNotices : List String :=
  ["thread-group-added", "thread-group-started", "thread-created", "library-loaded",
    "breakpoint-created", "breakpoint-modified"]

/-- Nothing is kept of the record, whatever it says. -/
def Message.isInert (m : Message) : Bool :=
  match m.record.kind with
  | .result => (CommandState.ofResult? m.record.what).isNone
  | .notifyAsync => m.record.what ∉ handledNotices
  | .terminator | .statusAsync | .targetStream | .logStream => true
  | .execAsync | .consoleStream => false

/-- One of these records is shown to a subscriber. -/
def Event.shows (omitted : Message → Bool) : Event → Bool
  | .shown _ m => omitted m
  | _ => false

/-- The line is blank or malformed, or one of these records. -/
def Omissible (omitted : Message → Bool) (line : String) : Prop :=
  ∀ m, accepted? line = some m → omitted m = true

namespace Tracker

/-- These records are inert; those who are shown them do nothing then but look, and whatever is done
otherwise does not go by that they were shown. -/
structure Disregards (omitted : Message → Bool) (t : Tracker) : Prop
    extends t.Every (Reaction.Unaware (Event.shows omitted)) where
  inert : ∀ m, omitted m = true → m.isInert = true
  watching : ∀ s ∈ t.recordSubscribers, ∀ m, s.kind = m.record.kind → omitted m = true →
    (s.react m).OnlyLooks
  shown : ∀ s ∈ t.recordSubscribers, ∀ m, s.kind = m.record.kind → omitted m = false →
    (s.react m).Unaware (Event.shows omitted)

/-! ### One inert record -/

theorem agrees_apply_inert (t : Tracker) {m : Message} (h : m.isInert = true) :
    Agrees Event.isOfHandlers (t.apply m).2 t := by
  unfold Message.isInert at h
  unfold apply
  cases hk : m.record.kind with
  | result =>
    rw [hk] at h
    have other : CommandState.ofResult? m.record.what = none := Option.isNone_iff_eq_none.mp h
    dsimp only
    rw [onResult, other]
    exact .refl t
  | notifyAsync =>
    rw [hk] at h
    have other : m.record.what ∉ handledNotices := of_decide_eq_true h
    have none : threadGroupUpdate? t.threadGroups m.record = none := by
      unfold threadGroupUpdate?
      split <;> simp_all [handledNotices]
    dsimp only
    rw [onNotify, none]
    dsimp only
    rw [if_neg (by simp_all [handledNotices])]
    exact .refl t
  | terminator => exact .refl t
  | statusAsync | targetStream | logStream => exact t.agrees_log rfl rfl
  | execAsync | consoleStream =>
    rw [hk] at h
    cases h

theorem agrees_dispatch_inert (t : Tracker) {m : Message} (h : m.isInert = true) :
    Agrees Event.isOfHandlers (t.dispatch m) t := by
  refine .trans ?_ (t.agrees_apply_inert h)
  unfold dispatch
  cases t.apply m with
  | mk verdict t =>
    cases verdict with
    | handled => exact .refl t
    | ignored | failed _ => exact t.agrees_log rfl rfl

section
variable {omitted : Message → Bool}

/-- A subscriber who only looks when shown a record that is left out leaves nothing that is told. -/
theorem alike_shown (t : Tracker) {m : Message} (left : omitted m = true) (id : Nat) {r : Reaction}
    (looks : r.OnlyLooks) :
    Alike (Event.shows omitted) ((t.log (.shown id m)).perform r) t := by
  have shown : remainder (Event.shows omitted) (t.desk.log (.shown id m)).memory =
      ⟨false, (remainder (Event.shows omitted) t.desk.memory).events⟩ :=
    if_pos left
  obtain ⟨same, told, events⟩ :=
    Desk.perform_of_onlyLooks looks (d := t.desk.log (.shown id m)) (congrArg Remainder.counts shown)
  refine ⟨⟨?_, ?_⟩, ?_⟩
  · have fresh := congrArg (fun d : Desk =>
      { t with desk := { d with journal := #[], memory := [] } }.fresh) same
    exact fresh
  · refine events.trans ?_
    simp [Tracker.recalling, Desk.recalling, Desk.log, Event.isOfHandlers]
  · have before := congrArg Remainder.events shown
    exact (congrArg Remainder.events told).trans before

theorem alike_present_omitted (t : Tracker) {m : Message} (left : omitted m = true)
    (watching : ∀ s ∈ t.recordSubscribers, s.kind = m.record.kind → (s.react m).OnlyLooks) :
    Alike (Event.shows omitted) (t.present m) t := by
  unfold present
  generalize t.recordSubscribers = subscribers at watching
  induction subscribers generalizing t with
  | nil => exact .refl t
  | cons s subscribers ih =>
    obtain ⟨first, rest⟩ := List.forall_mem_cons.mp watching
    rw [List.foldl_cons]
    split
    · exact (ih _ rest).trans (t.alike_shown left s.id (first ‹_›))
    · exact ih t rest

namespace Disregards

variable {t u : Tracker}

/-- What handlers are there is the same in alike trackers. -/
theorem of_alike (h : Alike (Event.shows omitted) t u) (disregards : t.Disregards omitted) :
    u.Disregards omitted := by
  have same := h.agrees.fresh
  have commands : t.desk.commands = u.desk.commands := congrArg (·.desk.commands) same
  have stopHandlers : t.stopHandlers = u.stopHandlers := congrArg (·.stopHandlers) same
  have changes : t.changeSubscribers = u.changeSubscribers := congrArg (·.changeSubscribers) same
  have records : t.recordSubscribers = u.recordSubscribers := congrArg (·.recordSubscribers) same
  exact ⟨⟨commands ▸ disregards.commands, stopHandlers ▸ disregards.stopHandlers,
    changes ▸ disregards.changeSubscribers⟩, disregards.inert, records ▸ disregards.watching,
    records ▸ disregards.shown⟩

theorem alike_take_omitted (disregards : t.Disregards omitted) {m : Message}
    (left : omitted m = true) : Alike (Event.shows omitted) (t.take m) t := by
  have received : Agrees Event.isOfHandlers (t.log (.received m)) t := t.agrees_log rfl rfl
  have dispatched :=
    ((t.log (.received m)).agrees_dispatch_inert (disregards.inert m left)).trans received
  have subscribers : ((t.log (.received m)).dispatch m).recordSubscribers =
      t.recordSubscribers := congrArg (·.recordSubscribers) dispatched.fresh
  refine .trans (alike_present_omitted _ left ?_) (.of_agrees dispatched)
  rw [subscribers]
  exact fun s hs kind => disregards.watching s hs m kind left

/-- Whoever is called for any other record is unaware of the calls that are left out. -/
theorem unaware_of_mem_callsOn (disregards : t.Disregards omitted) {m : Message}
    (other : omitted m = false) {c : Call} (hc : c ∈ t.callsOn m) :
    c.Every (Reaction.Unaware (Event.shows omitted)) :=
  disregards.of_mem_callsOn (fun s there kind => disregards.shown s there m kind other) hc

end Disregards

/-- None of the calls for any other record is left out. -/
theorem shows_of_mem_callsOn (t : Tracker) {m : Message} (other : omitted m = false) {c : Call}
    (hc : c ∈ t.callsOn m) {event : Event} (he : c.event? = some event) :
    event.shows omitted = false := by
  rcases List.mem_append.mp hc with hc | hc
  · rcases List.mem_append.mp hc with hc | hc
    · cases handles_of_mem_handlerCalls hc with
      | resume _ => cases he
      | console _ handler _ => cases handler <;> cases he <;> rfl
      | result _ _ _ | stop _ _ _ =>
        cases he
        rfl
    · obtain ⟨subscriber, change, rfl⟩ := exists_of_mem_changeCalls hc
      cases he
      rfl
  · obtain ⟨subscriber, rfl⟩ := exists_of_mem_subscriberCalls hc
    cases he
    exact other

/-! ### One line -/

namespace Disregards

variable {t u : Tracker}

theorem alike_takeLine_omissible (disregards : t.Disregards omitted) {line : String}
    (h : Omissible omitted line) : Alike (Event.shows omitted) (t.takeLine line).2 t := by
  unfold Omissible accepted? at h
  unfold takeLine
  split
  · exact .refl t
  · rename_i hb
    rw [if_neg hb] at h
    split
    · exact .of_agrees (t.agrees_log rfl rfl)
    · rename_i m hm
      rw [hm] at h
      exact disregards.alike_take_omitted (h m rfl)

/-- Any line, be it one that could be left out or not, is taken alike by alike trackers. -/
theorem alike_takeLine (disregards : t.Disregards omitted)
    (h : Alike (Event.shows omitted) t u) (line : String) :
    Alike (Event.shows omitted) (t.takeLine line).2 (u.takeLine line).2 := by
  unfold takeLine
  split
  · exact h
  · split
    · exact h.notice _
    · rename_i m _
      cases left : omitted m with
      | true =>
        have first := disregards.alike_take_omitted left
        have second := (disregards.of_alike h).alike_take_omitted left
        exact (first.trans h).trans second.symm
      | false =>
        exact h.take (fun _ hc => disregards.unaware_of_mem_callsOn left hc)
          fun _ hc _ he => t.shows_of_mem_callsOn left hc he

theorem takeLine (disregards : t.Disregards omitted) (line : String) :
    (t.takeLine line).2.Disregards omitted := by
  unfold Tracker.takeLine
  split
  · exact disregards
  · split
    · exact disregards.of_alike (Alike.of_agrees (t.agrees_log rfl rfl)).symm
    · rename_i m _
      cases left : omitted m with
      | true => exact disregards.of_alike (disregards.alike_take_omitted left).symm
      | false =>
        have taken := disregards.take (Reaction.handedDown_unaware _)
          fun s there kind => disregards.shown s there m kind left
        have subscribers := (t.subscribers_take m).2
        exact ⟨taken, disregards.inert, subscribers ▸ disregards.watching,
          subscribers ▸ disregards.shown⟩

end Disregards

end

end Tracker

end DebugLink

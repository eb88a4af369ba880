import DebugLink.Proofs.Session.Mirror
import DebugLink.Proofs.Session.Passing

/-! What those get to see who subscribe to records. A line that is taken off the buffer is taken
whole: what the record brings about comes first, then the subscribers to its class are shown it, and
only then is there a next line. So it does not matter who has the line taken, and in the journal of
a run nothing stands between the showings of a record but what the subscribers do (`Orderly`). For
the question who is shown what, a tracker is an `Audience`, to which records are presented. -/

namespace DebugLink

open LineBuffer (Splits)

/-! ### Records that are presented -/

/-- What there is to a tracker for those who subscribe to records. -/
@[ext]
structure Audience where
  subscribers : List RecordSubscriber
  /-- How many subscriptions there are, to changes or records. -/
  subscriptions : Nat
  /-- Who was shown what, in the order in which it was shown. -/
  shown : List (Nat × Message)

namespace Audience

/-- A record is shown to those who asked for its class. -/
def present (a : Audience) (m : Message) : Audience :=
  { a with
    shown := a.shown ++
      (a.subscribers.filter (·.kind = m.record.kind)).map fun s => (s.id, m) }

def subscribe (a : Audience) (kind : Kind) (react : Message → Reaction) : Audience :=
  { a with
    subscribers := a.subscribers ++ [⟨a.subscriptions, kind, react⟩]
    subscriptions := a.subscriptions + 1 }

/-- Somebody subscribes to something else. -/
def pass (a : Audience) : Audience := { a with subscriptions := a.subscriptions + 1 }

/-- What one subscriber was shown. -/
def shownTo (a : Audience) (id : Nat) : List Message := (a.shown.filter (·.1 = id)).map (·.2)

/-- Subscribers are numbered in the order of their subscription, and nobody else was shown
anything. -/
structure Ordered (a : Audience) : Prop where
  ordered : (a.subscribers.map (·.id)).Pairwise (· < ·)
  counted : ∀ s ∈ a.subscribers, s.id < a.subscriptions
  known : ∀ e ∈ a.shown, e.1 < a.subscriptions

/-- Neither subscriptions nor records change that a property holds of an audience and the records
that came in. -/
structure Steady (P : Audience → List Message → Prop) : Prop where
  subscribe {a : Audience} {records : List Message} (kind : Kind) (react : Message → Reaction) :
    P a records → P (a.subscribe kind react) records
  pass {a : Audience} {records : List Message} : P a records → P a.pass records
  present {a : Audience} {records : List Message} (m : Message) :
    a.Ordered → P a records → P (a.present m) (records ++ [m])

theorem Ordered.subscribe {a : Audience} (h : a.Ordered) (kind : Kind)
    (react : Message → Reaction) : (a.subscribe kind react).Ordered where
  ordered := by
    rw [Audience.subscribe, List.map_append, List.pairwise_append]
    refine ⟨h.ordered, List.pairwise_singleton _ _, ?_⟩
    intro id hid last hlast
    obtain ⟨s, hs, rfl⟩ := List.mem_map.mp hid
    rw [List.mem_singleton.mp hlast]
    exact h.counted s hs
  counted s hs := by
    rcases List.mem_append.mp hs with hs | hs
    · exact Nat.lt_succ_of_lt (h.counted s hs)
    · rw [List.mem_singleton.mp hs]
      exact Nat.lt_succ_self _
  known e he := Nat.lt_succ_of_lt (h.known e he)

theorem Ordered.pass {a : Audience} (h : a.Ordered) : a.pass.Ordered where
  ordered := h.ordered
  counted s hs := Nat.lt_succ_of_lt (h.counted s hs)
  known e he := Nat.lt_succ_of_lt (h.known e he)

theorem Ordered.present {a : Audience} (h : a.Ordered) (m : Message) : (a.present m).Ordered where
  ordered := h.ordered
  counted := h.counted
  known e he := by
    rcases List.mem_append.mp he with he | he
    · exact h.known e he
    · obtain ⟨s, hs, rfl⟩ := List.mem_map.mp he
      exact h.counted s (List.mem_filter.mp hs).1

/-- A newcomer has not been shown anything. -/
theorem Ordered.shownTo_next {a : Audience} (h : a.Ordered) : a.shownTo a.subscriptions = [] := by
  have nobody : a.shown.filter (·.1 = a.subscriptions) = [] := by
    refine List.filter_eq_nil_iff.mpr fun e he => ?_
    simpa using Nat.ne_of_lt (h.known e he)
  rw [shownTo, nobody, List.map_nil]

/-- A record is shown once to each who asked for its class, and to nobody else. -/
theorem Ordered.shownTo_present {a : Audience} (h : a.Ordered) {s : RecordSubscriber}
    (hs : s ∈ a.subscribers) (m : Message) :
    (a.present m).shownTo s.id = a.shownTo s.id ++ [m].filter (·.record.kind = s.kind) := by
  have once : a.subscribers.filter (·.id = s.id) = [s] := filter_key_eq h.ordered hs
  have mine : (a.subscribers.filter (·.kind = m.record.kind)).filter (·.id = s.id) =
      [s].filter (·.kind = m.record.kind) := by
    rw [List.filter_filter, ← once, List.filter_filter]
    simp only [Bool.and_comm]
  have same : (fun e : Nat × Message => decide (e.1 = s.id)) ∘ (fun s => (s.id, m)) =
      fun r : RecordSubscriber => decide (r.id = s.id) := rfl
  rw [shownTo, Audience.present, List.filter_append, List.map_append, List.filter_map, same,
    mine]
  refine congrArg (shownTo a s.id ++ ·) ?_
  by_cases wanted : s.kind = m.record.kind
  · simp [wanted]
  · simp [wanted, Ne.symm wanted]

/-- A subscriber has been shown, of the records after the first so many, those of his class. -/
structure Attends (s : RecordSubscriber) (n : Nat) (a : Audience) (records : List Message) :
    Prop where
  subscribed : s ∈ a.subscribers
  since : n ≤ records.length
  shown : a.shownTo s.id = (records.drop n).filter (·.record.kind = s.kind)

theorem steady_attends (s : RecordSubscriber) (n : Nat) : Steady (Attends s n) where
  subscribe _ _ attends := { attends with subscribed := List.mem_append_left _ attends.subscribed }
  pass attends := { attends with }
  present {a records} m ordered attends := by
    refine ⟨attends.subscribed, ?_, ?_⟩
    · rw [List.length_append]
      exact Nat.le_add_right_of_le attends.since
    · rw [ordered.shownTo_present attends.subscribed, attends.shown,
        List.drop_append_of_le_length attends.since, List.filter_append]

end Audience

/-! ### The audience of a tracker -/

def Event.shown? : Event → Option (Nat × Message)
  | .shown subscriber m => some (subscriber, m)
  | _ => none

def Call.shown? : Call → Option (Nat × Message)
  | .present subscriber m => some (subscriber.id, m)
  | _ => none

theorem shown?_of_no_call {e : Event} (h : e.isCall = false) : e.shown? = none := by
  cases e with
  | shown _ _ => cases h
  | _ => rfl

theorem shown?_event? (c : Call) : c.event?.bind Event.shown? = c.shown? := by
  cases c with
  | console _ _ handler => cases handler <;> rfl
  | _ => rfl

namespace Tracker

/-- Who was shown which record, in the order in which it was shown. -/
def shown (t : Tracker) : List (Nat × Message) := t.desk.journal.toList.filterMap Event.shown?

def audience (t : Tracker) : Audience where
  subscribers := t.recordSubscribers
  subscriptions := t.subscriptions
  shown := t.shown

theorem shown_eq (t : Tracker) : t.shown = t.callEvents.filterMap Event.shown? :=
  t.filterMap_journal fun _ => shown?_of_no_call

theorem audience_of_agrees {t u : Tracker} (h : Agrees Event.isCall t u) :
    t.audience = u.audience := by
  refine Audience.ext ?_ ?_ ?_
  · exact congrArg (·.recordSubscribers) h.fresh
  · exact congrArg (·.subscriptions) h.fresh
  · show t.shown = u.shown
    rw [shown_eq, shown_eq]
    exact congrArg (List.filterMap Event.shown?) h.events

theorem audience_send (t : Tracker) (text : String) (onResult : OnResult Reaction)
    (onConsole : Option (OnConsole Reaction)) :
    { t with desk := (t.desk.send text onResult onConsole).2 }.audience = t.audience := by
  refine Audience.ext rfl rfl ?_
  show { t with desk := (t.desk.send text onResult onConsole).2 }.shown = t.shown
  rw [shown_eq, shown_eq]
  exact congrArg (List.filterMap Event.shown?) (t.desk.callEvents_send text onResult onConsole)

theorem audience_onChange (t : Tracker) (react : Change → Reaction) :
    (t.onChange react).2.audience = t.audience.pass := by
  refine Audience.ext rfl ?_ rfl
  simp only [audience, onChange, subscriptions, Audience.pass, List.length_append,
    List.length_singleton]
  omega

theorem audience_onRecord (t : Tracker) (kind : Kind) (react : Message → Reaction) :
    (t.onRecord kind react).2.audience = t.audience.subscribe kind react := by
  refine Audience.ext rfl ?_ rfl
  simp only [audience, onRecord, subscriptions, Audience.subscribe, List.length_append,
    List.length_singleton]
  omega

theorem shown?_of_mem_effects {t : Tracker} {m : Message} {c : Call}
    (hc : c ∈ t.handlerCalls m ++ t.changeCalls (t.change? m)) : c.shown? = none := by
  rcases List.mem_append.mp hc with hc | hc
  · cases handles_of_mem_handlerCalls hc <;> rfl
  · obtain ⟨subscriber, change, rfl⟩ := exists_of_mem_changeCalls hc
    rfl

theorem filterMap_shown?_callsOn (t : Tracker) (m : Message) :
    (t.callsOn m).filterMap Call.shown? =
      (t.recordSubscribers.filter (·.kind = m.record.kind)).map fun s => (s.id, m) := by
  have effects : (t.handlerCalls m ++ t.changeCalls (t.change? m)).filterMap Call.shown? = [] :=
    List.filterMap_eq_nil_iff.mpr fun _ => shown?_of_mem_effects
  rw [callsOn, List.filterMap_append, effects, List.nil_append, subscriberCalls,
    List.filterMap_map]
  exact congrFun (List.filterMap_eq_map (f := fun s : RecordSubscriber => (s.id, m))) _

theorem audience_take (t : Tracker) (m : Message) :
    (t.take m).audience = t.audience.present m := by
  obtain ⟨changeSubscribers, recordSubscribers⟩ := t.subscribers_take m
  refine Audience.ext recordSubscribers ?_ ?_
  · show (t.take m).subscriptions = t.subscriptions
    rw [subscriptions, changeSubscribers, recordSubscribers, subscriptions]
  · show (t.take m).shown = t.shown ++
      (t.recordSubscribers.filter (·.kind = m.record.kind)).map fun s => (s.id, m)
    rw [shown_eq, shown_eq, callEvents_take, List.filterMap_append, List.filterMap_filterMap,
      ← filterMap_shown?_callsOn]
    exact congrArg (_ ++ List.filterMap · _) (funext shown?_event?)

end Tracker

/-- The audience is in order, and something holds of it and of the records that came in. -/
structure Addressed (P : Audience → List Message → Prop) (t : Tracker) (h : History) : Prop where
  ordered : t.audience.Ordered
  holds : P t.audience h.records

theorem lasting_addressed {P : Audience → List Message → Prop} (steady : Audience.Steady P) :
    Lasting (Addressed P) where
  quiet {t u _} agrees a := by
    have audience : t.audience = u.audience := Tracker.audience_of_agrees agrees
    exact ⟨audience ▸ a.ordered, audience ▸ a.holds⟩
  close a := ⟨a.ordered, a.holds⟩
  onChange {t _} react a := by
    constructor
    · rw [t.audience_onChange react]
      exact a.ordered.pass
    · rw [t.audience_onChange react]
      exact steady.pass a.holds
  onRecord {t _} kind react a := by
    constructor
    · rw [t.audience_onRecord kind react]
      exact a.ordered.subscribe kind react
    · rw [t.audience_onRecord kind react]
      exact steady.subscribe kind react a.holds
  clearOnConsole _ a := ⟨a.ordered, a.holds⟩
  send {t h} text onResult onConsole a := by
    have records := History.sending_of_ignoring (f := History.records) (fun _ _ _ _ => rfl)
      (fun _ _ => rfl) h t.desk text onResult onConsole
    have audience := t.audience_send text onResult onConsole
    exact ⟨audience ▸ a.ordered, records ▸ audience ▸ a.holds⟩
  forget _ a := ⟨a.ordered, a.holds⟩
  take {t h} m a := by
    have records := History.taking_of_ignoring (f := History.records) (fun _ _ _ _ => rfl)
      (fun _ _ => rfl) (fun _ _ => rfl) t h m
    constructor
    · rw [t.audience_take m]
      exact a.ordered.present m
    · rw [t.audience_take m, records]
      exact steady.present m a.ordered a.holds

/-! ### What a record leaves in the journal -/

/-- What somebody does who is called, or what comes of it. -/
def Event.isDeed : Event → Bool
  | .did _ | .noticed _ => true
  | _ => false

/-- What a record brings about, apart from being shown. -/
def Event.isEffect : Event → Bool
  | .received _ | .shown .. => false
  | _ => true

namespace Desk

/-- Whoever is called leaves nothing in the journal but what he does. -/
theorem notes_perform (r : Reaction) (d : Desk) :
    NotesOnly (·.isDeed = true) d (perform r d) := by
  induction r, d using perform_induction with
  | done d => exact .refl d
  | send text onResult onConsole next d ih =>
    exact .trans (.trans (.send d text onResult onConsole fun _ => rfl) (.log _ rfl)) ih
  | forget token next d ih =>
    have forgot : NotesOnly (·.isDeed = true) d
        ((d.forget token).2.log (.did (.forgot (d.forget token).1))) := .log (d.forget token).2 rfl
    exact forgot.trans ih
  | stop next d ih =>
    have asked : NotesOnly (·.isDeed = true) d (d.requestStop.log (.did .askedToStop)) :=
      .log d.requestStop rfl
    exact asked.trans ih
  | look next d ih => exact .trans (.log d rfl) ih

end Desk

/-- Those with these numbers are shown a record, and each does what he does before the next is shown
it. -/
inductive Showing (m : Message) : List Nat → List Event → Prop
  | nobody : Showing m [] []
  | next {id : Nat} {ids : List Nat} {deeds events : List Event} :
      (∀ e ∈ deeds, e.isDeed = true) → Showing m ids events →
      Showing m (id :: ids) (.shown id m :: (deeds ++ events))

namespace Tracker

theorem notes_present (t : Tracker) (m : Message) (subscribers : List RecordSubscriber) :
    ∃ events, t.desk.Notes (t.callAll (subscribers.map (.present · m))).desk events ∧
      Showing m (subscribers.map (·.id)) events := by
  induction subscribers generalizing t with
  | nil => exact ⟨[], .refl _, .nobody⟩
  | cons s subscribers ih =>
    obtain ⟨deeds, performed, all⟩ :=
      Desk.notes_perform (s.react m) (t.log (.shown s.id m)).desk
    obtain ⟨events, rest, showing⟩ := ih (t.call (.present s m))
    have first : t.desk.Notes (t.call (.present s m)).desk (.shown s.id m :: deeds) :=
      (t.desk.notes_log (.shown s.id m)).trans performed
    exact ⟨_, first.trans rest, .next all showing⟩

/-- What a record brings about shows nobody a record. -/
theorem notes_dispatch (t : Tracker) (m : Message) :
    ∃ effects, t.desk.Notes (t.dispatch m).desk effects ∧ ∀ e ∈ effects, e.isEffect = true := by
  obtain ⟨effects, noted, quiet⟩ := (t.doings_dispatch m).moves.notes
  refine ⟨effects, noted, fun e he => ?_⟩
  have calls : effects.filter Event.isCall =
      (t.handlerCalls m ++ t.changeCalls (t.change? m)).filterMap Call.event? := by
    have called := (t.agrees_dispatch m).events.trans ((t.settle m).callEvents_callAll _)
    rw [noted, List.filter_append, callEvents_settle] at called
    exact List.append_cancel_left called
  cases e with
  | received m => exact absurd (quiet _ he) Bool.noConfusion
  | shown id m =>
    have called : .shown id m ∈ effects.filter Event.isCall := List.mem_filter.mpr ⟨he, rfl⟩
    rw [calls] at called
    obtain ⟨c, hc, event⟩ := List.mem_filterMap.mp called
    have shown := shown?_of_mem_effects hc
    rw [← shown?_event?, event] at shown
    cases shown
  | _ => rfl

/-- How a record is taken. -/
structure InTurn (t : Tracker) (m : Message) (u : Tracker) (effects shows : List Event) : Prop where
  /-- What it brings about comes first: the tables, the calls of handlers, the continue. -/
  settled : Agrees Event.isCall u
    ((t.settle m).callAll (t.handlerCalls m ++ t.changeCalls (t.change? m)))
  noted : t.desk.Notes u.desk (.received m :: effects)
  unshown : ∀ e ∈ effects, e.isEffect = true
  /-- Then those who asked for its class are called, one after the other. -/
  presented : t.take m = u.callAll (t.subscriberCalls m)
  shown : u.desk.Notes (t.take m).desk shows
  showing : Showing m ((t.recordSubscribers.filter (·.kind = m.record.kind)).map (·.id)) shows
  /-- They change nothing but the desk. -/
  desk : ∃ desk, t.take m = { u with desk }

theorem exists_inTurn (t : Tracker) (m : Message) :
    ∃ u effects shows, t.InTurn m u effects shows := by
  have settled := (t.agrees_dispatch_received m).trans (t.agrees_dispatch m)
  obtain ⟨effects, dispatched, unshown⟩ := (t.log (.received m)).notes_dispatch m
  have presented := ((t.log (.received m)).dispatch m).present_eq_callAll m
  generalize hu : (t.log (.received m)).dispatch m = u at settled dispatched presented
  have taken : t.take m = u.present m := by rw [take, hu]
  obtain ⟨desk, called⟩ := u.callAll_eq_desk (u.subscriberCalls m)
  have subscribers : u.recordSubscribers = t.recordSubscribers := by
    rw [← (t.subscribers_take m).2, taken, presented, called]
  obtain ⟨shows, shown, showing⟩ :=
    u.notes_present m (t.recordSubscribers.filter (·.kind = m.record.kind))
  have calls : u.subscriberCalls m = t.subscriberCalls m := by
    rw [subscriberCalls, subscribers, subscriberCalls]
  rw [calls] at presented called
  exact ⟨u, effects, shows, settled, (t.desk.notes_log _).trans dispatched, unshown,
    taken.trans presented, taken ▸ presented ▸ shown, showing, desk,
    taken.trans (presented.trans called)⟩

end Tracker

/-! ### The journal of a run -/

/-- A journal in which every record is followed by what it brings about, and then by its being shown
in the order of subscription. There is nothing else but notices. -/
inductive Orderly : List Event → Prop
  | nothing : Orderly []
  | aside {events : List Event} (n : Notice) : Orderly events → Orderly (events ++ [.noticed n])
  | record {events effects shows : List Event} {ids : List Nat} (m : Message) :
      Orderly events → (∀ e ∈ effects, e.isEffect = true) → ids.Pairwise (· < ·) →
      Showing m ids shows → Orderly (events ++ (.received m :: effects ++ shows))

theorem Orderly.asides {events : List Event} (h : Orderly events) (notices : List Notice) :
    Orderly (events ++ notices.map .noticed) := by
  induction notices generalizing events with
  | nil =>
    rw [List.map_nil, List.append_nil]
    exact h
  | cons n notices ih =>
    rw [List.map_cons, List.append_cons]
    exact ih (h.aside n)

namespace Chronicle

theorem orderly_step {c : Chronicle} (ordered : c.tracker.audience.Ordered)
    (h : Orderly c.session.desk.journal.toList) (move : Move) :
    Orderly (c.step move).session.desk.journal.toList := by
  cases hl : c.line? move with
  | none =>
    obtain ⟨notices, noted⟩ := notes_step hl
    rw [noted]
    exact h.asides notices
  | some line =>
    have same : (c.step move).session.desk = (c.tracker.takeLine line).2.desk :=
      congrArg (·.desk) (tracker_step_of_line? hl)
    rw [same]
    unfold Tracker.takeLine
    split
    · exact h
    · split
      · rename_i flaw _
        have noticed := c.tracker.desk.notes_log (.noticed (.malformed flaw))
        exact noticed ▸ h.aside (.malformed flaw)
      · rename_i m _
        obtain ⟨u, effects, shows, turn⟩ := c.tracker.exists_inTurn m
        have ascending : ((c.tracker.recordSubscribers.filter
            (·.kind = m.record.kind)).map (·.id)).Pairwise (· < ·) :=
          ordered.ordered.sublist (List.filter_sublist.map _)
        rw [turn.noted.trans turn.shown]
        exact h.record m turn.unshown ascending turn.showing

end Chronicle

theorem Chronicle.orderly_run {c : Chronicle} {P : Audience → List Message → Prop}
    (steady : Audience.Steady P) (addressed : Addressed P c.tracker c.history)
    (h : Orderly c.session.desk.journal.toList) (moves : List Move) :
    Orderly (c.run moves).session.desk.journal.toList := by
  induction moves generalizing c with
  | nil => exact h
  | cons move moves ih =>
    have still := (lasting_addressed steady).step addressed move
    exact ih still (orderly_step addressed.ordered h move)

theorem Audience.steady_true : Steady fun _ _ => True :=
  ⟨fun _ _ _ => trivial, fun _ => trivial, fun _ _ _ => trivial⟩

/-- In every run the audience is in order, and so is the journal. -/
theorem ordered_chronicle (source : Source) (sink : Sink) (settings : Settings)
    (moves : List Move) :
    let c := Session.chronicle source sink settings moves
    c.tracker.audience.Ordered ∧ Orderly c.session.desk.journal.toList := by
  have start : Addressed (fun _ _ => True) (Session.connect source sink settings).tracker [] :=
    ⟨⟨.nil, List.forall_mem_nil _, List.forall_mem_nil _⟩, trivial⟩
  have steady := Audience.steady_true
  refine ⟨((lasting_addressed steady).chronicle start moves).ordered, ?_⟩
  exact Chronicle.orderly_run (c := { session := .connect source sink settings }) steady start
    .nothing moves

/-- Whoever subscribes to a class of records, in whatever run, is shown those records of the class
that are received from then on, each once and in the order of their lines. It does not matter what
the lines are taken for, as each operation comes down to moves. All that a record brings about comes
before anybody is shown it. The subscribers to its class follow in the order of their subscription,
and then the next line. -/
theorem record_subscribers_are_shown_each_record_once (source : Source) (sink : Sink)
    (settings : Settings) (before : List Move) (kind : Kind) (react : Message → Reaction) :
    let start := Session.chronicle source sink settings before
    let c := start.step (.onRecord kind react)
    let s : RecordSubscriber := ⟨(start.tracker.onRecord kind react).1, kind, react⟩
    (∀ moves,
      let d := c.run moves
      Splits (c.session.lines.octets ++ c.filled moves) (c.taken moves) d.session.lines.octets ∧
        s ∈ d.tracker.recordSubscribers ∧
        d.tracker.audience.shownTo s.id =
          ((c.taken moves).filterMap accepted?).filter (·.record.kind = kind) ∧
        (d.tracker.recordSubscribers.map (·.id)).Pairwise (· < ·) ∧
        Orderly d.session.desk.journal.toList ∧
        ∀ m, ∃ u effects shows, d.tracker.InTurn m u effects shows) ∧
      ∀ operations : List Operation, ∃ moves,
        (c.run moves).session = operations.foldl Session.act c.session := by
  intro start c s
  refine ⟨fun moves => ?_, fun operations => c.reaches_foldl_act operations⟩
  intro d
  obtain ⟨ordered, orderly⟩ := ordered_chronicle source sink settings before
  have subscribed : c.tracker.audience = start.tracker.audience.subscribe kind react :=
    start.tracker.audience_onRecord kind react
  have attends : Audience.Attends s c.history.records.length c.tracker.audience
      c.history.records := by
    rw [subscribed]
    refine ⟨List.mem_append_right _ (List.mem_singleton.mpr rfl), Nat.le_refl _, ?_⟩
    rw [List.drop_length]
    exact ordered.shownTo_next
  have steady := Audience.steady_attends s c.history.records.length
  have addressed : Addressed _ c.tracker c.history :=
    ⟨subscribed ▸ ordered.subscribe kind react, attends⟩
  have later := (lasting_addressed steady).run addressed moves
  have shown := later.holds.shown
  rw [c.history_records_run, List.drop_left] at shown
  exact ⟨c.splits_run moves, later.holds.subscribed, shown, later.ordered.ordered,
    Chronicle.orderly_run steady addressed orderly moves, d.tracker.exists_inTurn⟩

/-- What came before does not reach who subscribes. -/
example :
    let source : Source := ⟨.channel { queue := [Utf8.encode "*running\n*stopped\n"] }, {}⟩
    let c := Session.chronicle source {} {}
      [.fill, .takeLine, .onRecord .execAsync fun _ => .done, .takeLine]
    c.tracker.audience.shownTo 0 = [⟨none, ⟨.execAsync, "stopped", []⟩⟩] := by
  decide

end DebugLink

import DebugLink.Proofs.Session.Failing
import DebugLink.Proofs.Session.Habits
import DebugLink.Proofs.Session.Passing

/-! Sessions whose handlers do nothing. Whoever is called then leaves the commands in view as they
are and sends nothing, so for a record such a session sends what sets the target going again, and
that is all (`IsIdle.take`). -/

namespace DebugLink

/-- Nothing is done. -/
def Reaction.IsIdle (r : Reaction) : Prop := r = .done

abbrev Command.IsIdle (c : Command) : Prop := c.Every Reaction.IsIdle

theorem Command.IsIdle.withoutConsole {c : Command} (idle : c.IsIdle) :
    Command.IsIdle { c with onConsole := none } := ⟨idle.onResult, nofun⟩

/-- Nothing comes of doing nothing. -/
theorem Reaction.handedDown_isIdle : Reaction.HandedDown Reaction.IsIdle where
  send := nofun
  forget := nofun
  stop := nofun
  look := nofun

theorem Call.Every.reaction {c : Call} (idle : c.Every Reaction.IsIdle) : c.reaction = .done := by
  cases c with
  | resume => rfl
  | stop handler number args => exact idle number args
  | result token record react => exact idle token record
  | announce _ change => exact idle change
  | present _ _ => exact idle
  | console token record handler =>
    cases handler with
    | call react => exact idle token record
    | collect => rfl

/-- Nobody who can be called does anything. -/
structure Tracker.IsIdle (t : Tracker) : Prop extends t.Every Reaction.IsIdle where
  recordSubscribers : ∀ s ∈ t.recordSubscribers, ∀ m, s.react m = .done

/-- From one moment to the other nothing was sent, and the connection did not end. -/
structure Desk.Unsent (d e : Desk) : Prop where
  issued : e.issued = d.issued
  sink : e.sink = d.sink
  closed : e.closed = d.closed

theorem Desk.Unsent.refl (d : Desk) : d.Unsent d := ⟨rfl, rfl, rfl⟩

theorem Desk.Unsent.trans {d e f : Desk} (first : d.Unsent e) (second : e.Unsent f) :
    d.Unsent f :=
  ⟨second.issued.trans first.issued, second.sink.trans first.sink,
    second.closed.trans first.closed⟩

namespace Tracker

/-- Who is called and does nothing leaves no trace but in the journal. -/
theorem unsent_call (t : Tracker) {c : Call} (hc : c.Every Reaction.IsIdle)
    (other : c.isResume = false) : t.desk.Unsent (t.call c).desk := by
  have done : (t.reach c).act c = t.reach c := by
    have nothing := hc.reaction
    cases c with
    | resume => cases other
    | result _ _ _ | stop _ _ _ | console _ _ _ | announce _ _ | present _ _ =>
      exact congrArg (Tracker.perform _) nothing
  rw [Tracker.call, done]
  cases c with
  | console _ _ handler => cases handler <;> exact ⟨rfl, rfl, rfl⟩
  | _ => exact ⟨rfl, rfl, rfl⟩

theorem unsent_callAll (t : Tracker) {cs : List Call} (hcs : ∀ c ∈ cs, c.Every Reaction.IsIdle)
    (others : ∀ c ∈ cs, c.isResume = false) : t.desk.Unsent (t.callAll cs).desk := by
  induction cs generalizing t with
  | nil => exact .refl _
  | cons c cs ih =>
    obtain ⟨first, rest⟩ := List.forall_mem_cons.mp hcs
    obtain ⟨other, others⟩ := List.forall_mem_cons.mp others
    exact (t.unsent_call first other).trans (ih (t.call c) rest others)

namespace IsIdle

variable {t u : Tracker}

theorem withCommands (idle : t.IsIdle) {desk : Desk} (all : desk.commands.All Command.IsIdle) :
    IsIdle { t with desk } :=
  ⟨idle.toEvery.withCommands all, idle.recordSubscribers⟩

theorem send (idle : t.IsIdle) (text : String) {onResult : OnResult Reaction}
    {onConsole : Option (OnConsole Reaction)}
    (command : Command.IsIdle ⟨text, .pending, onResult, onConsole⟩) :
    IsIdle { t with desk := (t.desk.send text onResult onConsole).2 } :=
  idle.withCommands (Desk.every_send idle.commands command)

/-! ### Whom an idle tracker calls -/

theorem of_mem_others (idle : t.IsIdle) {m : Message} {c : Call} (hc : c ∈ t.others m) :
    c.Every Reaction.IsIdle ∧ c.isResume = false := by
  obtain ⟨hc, other⟩ := List.mem_filter.mp hc
  refine ⟨?_, by simpa using other⟩
  rcases List.mem_append.mp hc with hc | hc
  · exact idle.of_mem_handlerCalls hc
  · exact idle.of_mem_changeCalls hc

theorem of_mem_subscriberCalls (idle : t.IsIdle) {m : Message} {c : Call}
    (hc : c ∈ t.subscriberCalls m) : c.Every Reaction.IsIdle ∧ c.isResume = false := by
  obtain ⟨subscriber, there, rfl⟩ := List.mem_map.mp hc
  exact ⟨idle.recordSubscribers subscriber (List.mem_filter.mp there).1 m, rfl⟩

/-- For a record an idle session sends what sets the target going again, if it is to do so, and
nothing else. -/
theorem take (idle : t.IsIdle) (m : Message) :
    (t.take m).IsIdle ∧ ∃ d, t.desk.Unsent d ∧
      Desk.Unsent (if t.settings.resumes && m.halts then (d.send "-exec-continue" .nothing none).2
        else d) (t.take m).desk := by
  have same := (t.agrees_take m).fresh
  have taken := idle.toEvery.take Reaction.handedDown_isIdle
    fun s there _ => idle.recordSubscribers s there m
  refine ⟨⟨taken, (t.subscribers_take m).2 ▸ idle.recordSubscribers⟩, ?_⟩
  -- The handlers are called first, then the target, and then those who are shown the record.
  rw [t.callsOn_eq m, callAll_append, callAll_append] at same
  have settled : t.desk.Unsent (t.settle m).desk := by
    obtain ⟨_, _, _, _, _, settled⟩ := t.settle_eq m
    rw [settled]
    exact ⟨rfl, rfl, rfl⟩
  have others := (t.settle m).unsent_callAll (fun _ hc => (idle.of_mem_others (m := m) hc).1)
    fun _ hc => (idle.of_mem_others (m := m) hc).2
  have resumed : ∀ u : Tracker, Desk.Unsent
      (if t.settings.resumes && m.halts then (u.desk.send "-exec-continue" .nothing none).2
        else u.desk)
      (u.callAll (if t.settings.resumes && m.halts then [.resume] else [])).desk := by
    intro u
    cases t.settings.resumes && m.halts <;> exact ⟨rfl, rfl, rfl⟩
  have shown : ∀ u : Tracker, u.desk.Unsent (u.callAll (t.subscriberCalls m)).desk := fun u =>
    u.unsent_callAll (fun _ hc => (idle.of_mem_subscriberCalls hc).1)
      fun _ hc => (idle.of_mem_subscriberCalls hc).2
  refine ⟨_, settled.trans others, ((resumed _).trans (shown _)).trans ?_⟩
  exact ⟨congrArg (·.desk.issued) same, congrArg (·.desk.sink) same,
    congrArg (·.desk.closed) same⟩

end IsIdle

end Tracker

end DebugLink

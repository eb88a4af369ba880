import DebugLink.Proofs.Session.Settling

/-! Whom a record is handed to. A record is settled, and then those whom it concerns are called one
after the other: a handler, after a stop the target itself, and the subscribers of its class. Who
they are is certain before the first of them does anything. The main statement, `agrees_take`, is
that taking a record comes to this, apart from notices. Everything about what handlers can bring
about is derived from it. -/

namespace DebugLink

/-- Somebody whom a record is handed to. -/
inductive Call where
  /-- The handler for the results of a command. -/
  | result (token : Token) (record : Record) (react : Token → Record → Reaction)
  /-- The handler for the stops at a breakpoint. -/
  | stop (handler : StopHandler Reaction) (number : UInt32) (args : Fields)
  /-- The target, which is set going again. -/
  | resume
  /-- The handler for the console text of a command. -/
  | console (token : Token) (record : Record) (handler : OnConsole Reaction)
  /-- A subscriber to changes. -/
  | announce (subscriber : ChangeSubscriber) (change : Change)
  /-- A subscriber to records. -/
  | present (subscriber : RecordSubscriber) (m : Message)

namespace Call

/-- What is done by who is called. The target is no handler. -/
def reaction : Call → Reaction
  | .result token record react => react token record
  | .stop handler number args => handler.react number args
  | .resume => .done
  | .console token record (.call react) => react token record
  | .console _ _ .collect => .done
  | .announce subscriber change => subscriber.react change
  | .present subscriber m => subscriber.react m

/-- How a call shows in the journal. -/
def event? : Call → Option Event
  | .result token record _ => some (.result token record)
  | .stop handler number args => some (.stop handler.name number args)
  | .resume => none
  | .console token record (.call _) => some (.console token record)
  | .console token record .collect => some (.collected token record.what)
  | .announce subscriber change => some (.changed subscriber.id change)
  | .present subscriber m => some (.shown subscriber.id m)

end Call

namespace Desk

/-- The events in which somebody was called. -/
def callEvents (d : Desk) : List Event := d.journal.toList.filter Event.isCall

theorem callEvents_log (d : Desk) (e : Event) :
    (d.log e).callEvents = d.callEvents ++ [e].filter Event.isCall := by
  simp [callEvents, log, List.filter_append]

theorem callEvents_log_of_quiet (d : Desk) {e : Event} (quiet : e.isCall = false) :
    (d.log e).callEvents = d.callEvents := by
  simp [callEvents_log, quiet]

theorem callEvents_send (d : Desk) (text : String) (onResult : OnResult Reaction)
    (onConsole : Option (OnConsole Reaction)) :
    (d.send text onResult onConsole).2.callEvents = d.callEvents := by
  unfold send
  dsimp only
  split
  · rfl
  · split
    · rfl
    · exact callEvents_log_of_quiet _ rfl

/-- Nobody else is called while somebody does what is to be done. -/
theorem callEvents_perform (r : Reaction) (d : Desk) :
    (perform r d).callEvents = d.callEvents := by
  induction r, d using perform_induction with
  | done d => rfl
  | send text onResult onConsole next d ih =>
    rw [perform_send, ih, callEvents_log_of_quiet _ rfl, callEvents_send]
  | forget token next d ih =>
    rw [perform_forget, ih, callEvents_log_of_quiet _ rfl]
    rfl
  | stop next d ih =>
    rw [perform_stop, ih, callEvents_log_of_quiet _ rfl]
    rfl
  | look next d ih => rw [perform_look, ih, callEvents_log_of_quiet _ rfl]

end Desk

namespace Tracker

/-- The call is noted, and the handler taken out of the table if it has to be. -/
def reach (t : Tracker) (c : Call) : Tracker :=
  match c with
  | .console token _ _ =>
    (c.event?.map { t with desk := t.desk.clearOnConsole token }.log).getD t
  | _ => (c.event?.map t.log).getD t

/-- The handler is given back to its command if it has to be. -/
def release (t : Tracker) : Call → Tracker
  | .result token _ react => { t with desk := t.desk.restoreOnResult token (.call react) }
  | .console token _ handler => { t with desk := t.desk.restoreOnConsole token handler }
  | _ => t

/-- Whoever is called does what is to be done; the target is sent on its way. -/
def act (t : Tracker) : Call → Tracker
  | .resume => { t with desk := t.desk.resume.2 }
  | c => t.perform c.reaction

def call (t : Tracker) (c : Call) : Tracker := ((t.reach c).act c).release c

def callAll (t : Tracker) (cs : List Call) : Tracker := cs.foldl call t

/-! ### Who is called -/

def resultCall? (t : Tracker) (m : Message) : Option Call :=
  match CommandState.ofResult? m.record.what, m.token with
  | some _, some token =>
    match (t.desk.commands.find? token).map (·.onResult) with
    | some (OnResult.call react) => some (.result token m.record react)
    | _ => none
  | _, _ => none

def stopCall? (t : Tracker) (number : String) (args : Fields) : Option Call :=
  (Breakpoint.major? number).bind fun n =>
    (t.stopHandlers.find? n).map fun handler => .stop handler n args

def stopCalls (t : Tracker) (record : Record) : List Call :=
  match record.stoppedAt? with
  | some number =>
    (t.stopCall? number record.args).toList ++ if t.settings.resumes then [.resume] else []
  | none => []

def consoleCall? (t : Tracker) (record : Record) : Option Call :=
  t.desk.commands.last?.bind fun latest =>
    latest.2.onConsole.map fun handler => .console latest.1 record handler

/-- Those who are called for what the record says. -/
def handlerCalls (t : Tracker) (m : Message) : List Call :=
  match m.record.kind with
  | .result => (t.resultCall? m).toList
  | .execAsync => t.stopCalls m.record
  | .consoleStream => (t.consoleCall? m.record).toList
  | _ => []

/-- The change that a record makes to the tables. -/
def change? (t : Tracker) (m : Message) : Option Change :=
  match m.record.kind with
  | .result => do
    let _ ← CommandState.ofResult? m.record.what
    let _ ← t.desk.commands.find? (← m.token)
    t.breakpoints.change? (← m.record.breakpoint?)
  | .notifyAsync =>
    ((GroupNews.ofRecord? m.record).bind t.threadGroups.change?).or
      (m.record.noticed?.bind t.breakpoints.change?)
  | _ => none

/-- All who subscribed to changes are told of a change, if there is one. -/
def changeCalls (t : Tracker) (change : Option Change) : List Call :=
  change.toList.flatMap fun change => t.changeSubscribers.map (.announce · change)

/-- Those who are called because they asked for records of this class. -/
def subscriberCalls (t : Tracker) (m : Message) : List Call :=
  (t.recordSubscribers.filter (·.kind = m.record.kind)).map (.present · m)

/-- All who are called while a record is taken. -/
def callsOn (t : Tracker) (m : Message) : List Call :=
  t.handlerCalls m ++ t.changeCalls (t.change? m) ++ t.subscriberCalls m

/-- Who can be called for what a record says, by the class of the record. -/
inductive Handles (m : Message) : Call → Prop
  | result (token : Token) (react : Token → Record → Reaction) :
      m.record.kind = .result → Handles m (.result token m.record react)
  | stop (handler : StopHandler Reaction) (number : UInt32) :
      m.record.kind = .execAsync → Handles m (.stop handler number m.record.args)
  | resume : m.record.kind = .execAsync → Handles m .resume
  | console (token : Token) (handler : OnConsole Reaction) :
      m.record.kind = .consoleStream → Handles m (.console token m.record handler)

theorem handles_of_mem_handlerCalls {t : Tracker} {m : Message} {c : Call}
    (hc : c ∈ t.handlerCalls m) : Handles m c := by
  unfold handlerCalls at hc
  split at hc
  · have called := Option.mem_toList.mp hc
    unfold resultCall? at called
    split at called
    · split at called
      · cases called
        exact .result _ _ ‹_›
      · cases called
    · cases called
  · unfold stopCalls at hc
    split at hc
    · rcases List.mem_append.mp hc with hc | hc
      · obtain ⟨n, -, hc⟩ := Option.bind_eq_some_iff.mp (Option.mem_toList.mp hc)
        obtain ⟨handler, -, rfl⟩ := Option.map_eq_some_iff.mp hc
        exact .stop handler n ‹_›
      · split at hc
        · rw [List.mem_singleton.mp hc]
          exact .resume ‹_›
        · cases hc
    · cases hc
  · obtain ⟨latest, -, hc⟩ := Option.bind_eq_some_iff.mp (Option.mem_toList.mp hc)
    obtain ⟨handler, -, rfl⟩ := Option.map_eq_some_iff.mp hc
    exact .console latest.1 handler ‹_›
  · cases hc

theorem exists_of_mem_changeCalls {t : Tracker} {change : Option Change} {c : Call}
    (hc : c ∈ t.changeCalls change) : ∃ subscriber change, c = .announce subscriber change := by
  obtain ⟨change, -, hc⟩ := List.mem_flatMap.mp hc
  obtain ⟨subscriber, -, rfl⟩ := List.mem_map.mp hc
  exact ⟨subscriber, change, rfl⟩

theorem exists_of_mem_subscriberCalls {t : Tracker} {m : Message} {c : Call}
    (hc : c ∈ t.subscriberCalls m) : ∃ subscriber, c = .present subscriber m := by
  obtain ⟨subscriber, -, rfl⟩ := List.mem_map.mp hc
  exact ⟨subscriber, rfl⟩

/-- What subscribers have no part in, the handlers decide. -/
theorem filterMap_callsOn {α : Type} {f : Call → Option α}
    (announce : ∀ subscriber change, f (.announce subscriber change) = none)
    (present : ∀ subscriber m, f (.present subscriber m) = none) (t : Tracker) (m : Message) :
    (t.callsOn m).filterMap f = (t.handlerCalls m).filterMap f := by
  have changes : (t.changeCalls (t.change? m)).filterMap f = [] := by
    refine List.filterMap_eq_nil_iff.mpr fun c hc => ?_
    obtain ⟨subscriber, change, rfl⟩ := exists_of_mem_changeCalls hc
    exact announce subscriber change
  have subscribers : (t.subscriberCalls m).filterMap f = [] := by
    refine List.filterMap_eq_nil_iff.mpr fun c hc => ?_
    obtain ⟨subscriber, rfl⟩ := exists_of_mem_subscriberCalls hc
    exact present subscriber m
  rw [callsOn, List.filterMap_append, List.filterMap_append, changes, subscribers,
    List.append_nil, List.append_nil]

/-! ### Calls, one by one -/

theorem callAll_append (t : Tracker) (cs ds : List Call) :
    t.callAll (cs ++ ds) = (t.callAll cs).callAll ds := List.foldl_append

/-- What a call changes of a tracker is its desk. -/
theorem call_eq_desk (t : Tracker) (c : Call) : ∃ desk, t.call c = { t with desk } := by
  cases c with
  | console _ _ handler => cases handler <;> exact ⟨_, rfl⟩
  | _ => exact ⟨_, rfl⟩

theorem callAll_eq_desk (t : Tracker) (cs : List Call) :
    ∃ desk, t.callAll cs = { t with desk } := by
  induction cs generalizing t with
  | nil => exact ⟨t.desk, rfl⟩
  | cons c cs ih =>
    obtain ⟨desk, called⟩ := t.call_eq_desk c
    obtain ⟨last, rest⟩ := ih (t.call c)
    refine ⟨last, rest.trans ?_⟩
    rw [called]

/-- All that is done for a call is done at the desk. -/
theorem moves_reach (t : Tracker) (c : Call) : t.desk.Moves (t.reach c).desk := by
  cases c with
  | resume => exact .none
  | console token record handler =>
    have cleared : t.desk.Moves (t.desk.clearOnConsole token) := Desk.Moves.none.revise token _
    cases handler <;> exact cleared.log _ rfl
  | result _ _ _ | stop _ _ _ | announce _ _ | present _ _ => exact (t.doings_log rfl).moves

theorem moves_call (t : Tracker) (c : Call) : t.desk.Moves (t.call c).desk := by
  have reached := t.moves_reach c
  cases c with
  | resume => exact Desk.Moves.none.send _ _ _
  | result token _ _ => exact (reached.trans (doings_perform _ _).moves).revise token _
  | console token _ _ => exact (reached.trans (doings_perform _ _).moves).revise token _
  | stop _ _ _ | announce _ _ | present _ _ => exact reached.trans (doings_perform _ _).moves

theorem moves_callAll (t : Tracker) (cs : List Call) : t.desk.Moves (t.callAll cs).desk :=
  foldl_desk (R := Desk.Moves) (fun _ => .none) Desk.Moves.trans cs moves_call t

/-- The events in which somebody was called. -/
def callEvents (t : Tracker) : List Event := t.desk.callEvents

theorem callEvents_call (t : Tracker) (c : Call) :
    (t.call c).callEvents = t.callEvents ++ c.event?.toList := by
  have reached : (t.reach c).callEvents = t.callEvents ++ c.event?.toList := by
    cases c with
    | resume => exact (List.append_nil _).symm
    | console _ _ handler => cases handler <;> exact Desk.callEvents_log _ _
    | result _ _ _ | stop _ _ _ | announce _ _ | present _ _ => exact Desk.callEvents_log _ _
  have released : ∀ u : Tracker, (u.release c).callEvents = u.callEvents := by
    intro u
    cases c <;> rfl
  have acted : ((t.reach c).act c).callEvents = (t.reach c).callEvents := by
    cases c with
    | resume => exact Desk.callEvents_send _ _ _ _
    | result _ _ _ | stop _ _ _ | console _ _ _ | announce _ _ | present _ _ =>
      exact Desk.callEvents_perform _ _
  rw [call, released, acted, reached]

/-- Each call shows once in the journal, in its turn. -/
theorem callEvents_callAll (t : Tracker) (cs : List Call) :
    (t.callAll cs).callEvents = t.callEvents ++ cs.filterMap Call.event? := by
  induction cs generalizing t with
  | nil => exact (List.append_nil _).symm
  | cons c cs ih =>
    have rest := ih (t.call c)
    rw [callEvents_call, List.append_assoc] at rest
    rw [filterMap_cons_toList]
    exact rest

theorem settings_callAll (t : Tracker) (cs : List Call) : (t.callAll cs).settings = t.settings := by
  obtain ⟨desk, called⟩ := t.callAll_eq_desk cs
  rw [called]

theorem breakpoints_callAll (t : Tracker) (cs : List Call) :
    (t.callAll cs).breakpoints = t.breakpoints := by
  obtain ⟨desk, called⟩ := t.callAll_eq_desk cs
  rw [called]

theorem changeCalls_callAll (t : Tracker) (cs : List Call) (change : Option Change) :
    (t.callAll cs).changeCalls change = t.changeCalls change := by
  obtain ⟨desk, called⟩ := t.callAll_eq_desk cs
  rw [called]
  rfl

theorem subscriberCalls_callAll (t : Tracker) (cs : List Call) (m : Message) :
    (t.callAll cs).subscriberCalls m = t.subscriberCalls m := by
  obtain ⟨desk, called⟩ := t.callAll_eq_desk cs
  rw [called]
  rfl

theorem agrees_followResult (t : Tracker) (token : Token) (record : Record)
    (onResult : OnResult Reaction) :
    Agrees Event.isCall (t.followResult token record onResult).2
      ((t.install record onResult).callAll (match onResult with
        | .call react => [.result token record react]
        | _ => [])) := by
  cases onResult with
  | nothing => exact .refl t
  | call react => exact .refl _
  | install handler => exact t.agrees_installHandler token record handler

theorem agrees_handStop (t : Tracker) (number : String) (args : Fields) :
    Agrees Event.isCall (t.handStop number args).2
      (t.callAll (t.stopCall? number args).toList) := by
  unfold handStop stopCall?
  rw [← Breakpoint.toOption_parentNumber]
  cases Breakpoint.parentNumber number with
  | error e => exact .refl t
  | ok n =>
    dsimp only [Except.toOption, Option.bind_some]
    cases t.stopHandlers.find? n with
    | none => exact .refl t
    | some handler => exact .refl _

theorem agrees_resumeAfter (t : Tracker) (number : String) :
    Agrees Event.isCall (t.resumeAfter number)
      (t.callAll (if t.settings.resumes then [.resume] else [])) := by
  unfold resumeAfter
  cases t.settings.resumes with
  | false => exact .refl t
  | true =>
    have performed : t.callAll [.resume] = { t with desk := t.desk.resume.2 } := rfl
    rw [if_pos rfl, performed]
    cases hc : t.desk.closed with
    | true =>
      rw [Desk.resume, Desk.sendPlain, Desk.send_of_closed hc]
      exact .refl t
    | false =>
      cases t.desk.resume with
      | mk outcome desk =>
        cases outcome with
        | ok token => exact .refl _
        | error e => exact agrees_notice _ _

theorem agrees_onConsole (t : Tracker) (record : Record) :
    Agrees Event.isCall (t.onConsole record) (t.callAll (t.consoleCall? record).toList) := by
  unfold onConsole consoleCall?
  cases t.desk.commands.last? with
  | none => exact t.agrees_notice _
  | some latest =>
    obtain ⟨token, command⟩ := latest
    dsimp only [Option.bind_some]
    cases command.onConsole with
    | none => exact t.agrees_notice _
    | some handler => cases handler <;> exact .refl _

/-! ### Taking a record -/

/-- Calls do not look at the tables, nor at what is reported meanwhile. -/
theorem report_callAll (t : Tracker) (cs : List Call) (info : Option Fields) :
    (t.callAll cs).report info = (t.report info).callAll cs := by
  induction cs generalizing t with
  | nil => rfl
  | cons c cs ih =>
    have first : (t.report info).call c = (t.call c).report info := by
      cases c with
      | console _ _ handler => cases handler <;> rfl
      | _ => rfl
    have next := ih (t.call c)
    rw [← first] at next
    exact next

theorem announce_eq_callAll (t : Tracker) (change : Change) :
    t.announce change = t.callAll (t.changeCalls (some change)) := by
  unfold announce callAll changeCalls
  rw [Option.toList_some, List.flatMap_singleton, List.foldl_map]
  rfl

/-- Merging a report is taking it over and then telling of the change. -/
theorem mergeBreakpoint_eq (t : Tracker) (info : Fields) :
    (t.mergeBreakpoint info).2 =
      (t.report (some info)).callAll (t.changeCalls (t.breakpoints.change? info)) := by
  unfold mergeBreakpoint report BreakpointTable.absorb BreakpointTable.change?
  cases hm : t.breakpoints.merge info with
  | error e =>
    simp only [Option.map_some, Option.getD_some, hm]
    rfl
  | ok merged =>
    simp only [Option.map_some, Option.getD_some, hm]
    exact announce_eq_callAll _ _

theorem updateThreadGroup_eq (t : Tracker) {news : Option GroupNews}
    {update : Except LinkError (ThreadGroup × ThreadGroupTable)}
    (h : Brings t.threadGroups news update) :
    (t.updateThreadGroup update).2 =
      (t.hearOf news).callAll (t.changeCalls (news.bind t.threadGroups.change?)) := by
  cases news with
  | none =>
    obtain ⟨e, rfl⟩ := h
    rfl
  | some news =>
    have brought : update = t.threadGroups.apply news := h
    unfold hearOf ThreadGroupTable.absorb
    rw [Option.map_some, Option.getD_some, Option.bind_some, ThreadGroupTable.change?, ← brought]
    cases update with
    | error e => rfl
    | ok updated => exact announce_eq_callAll _ _

theorem mergeResult_eq (record : Record) (verdict : Verdict) (t : Tracker) :
    (mergeResult record (verdict, t)).2 = (t.report record.breakpoint?).callAll
      (t.changeCalls (record.breakpoint?.bind t.breakpoints.change?)) := by
  simp only [mergeResult]
  split
  · rename_i info hr
    have merged := t.mergeBreakpoint_eq info
    rw [Record.breakpoint?_of_tuple hr, Option.bind_some]
    split
    · rename_i hm
      rw [hm] at merged
      exact merged
    · rename_i hm
      rw [hm] at merged
      exact merged
  · rename_i other
    rw [Record.breakpoint?_of_not_tuple other]
    rfl

theorem onNotify_eq (t : Tracker) (m : Message) (hk : m.record.kind = .notifyAsync) :
    (t.onNotify m.record).2 =
      ((t.hearOf (GroupNews.ofRecord? m.record)).report m.record.noticed?).callAll
        (t.changeCalls (t.change? m)) := by
  unfold onNotify change?
  rw [hk]
  dsimp only
  obtain ⟨update, hu, brought, other⟩ | ⟨hu, none⟩ :=
    threadGroupUpdate?_brings t.threadGroups m.record
  · rw [hu, other, Option.bind_none, Option.or_none]
    exact t.updateThreadGroup_eq brought
  · rw [hu, none, Option.bind_none, Option.none_or]
    unfold Record.noticed?
    dsimp only
    split
    · split
      · rename_i info hr
        rw [Record.breakpoint?_of_tuple hr]
        exact t.mergeBreakpoint_eq info
      · rename_i other
        rw [Record.breakpoint?_of_not_tuple other]
        rfl
    · rfl

/-- Whatever came of a result before, the breakpoint it describes is merged. -/
theorem agrees_mergeResult (record : Record) {r : Verdict × Tracker} {u : Tracker}
    (h : Agrees Event.isCall r.2 u) :
    Agrees Event.isCall (mergeResult record r).2 ((u.report record.breakpoint?).callAll
      (u.changeCalls (record.breakpoint?.bind u.breakpoints.change?))) := by
  rw [← mergeResult_eq record r.1 u]
  exact h.congr (f := fun t => (mergeResult record (r.1, t)).2) fun p t =>
    congrArg Prod.snd (mergeResult_after p record (r.1, t))

theorem agrees_onResult (t : Tracker) {m : Message} (hk : m.record.kind = .result) :
    Agrees Event.isCall (t.onResult m.token m.record).2
      ((match CommandState.ofResult? m.record.what, m.token with
        | some state, some token => t.settleResult token state m.record
        | _, _ => t).callAll ((t.resultCall? m).toList ++ t.changeCalls (t.change? m))) := by
  unfold onResult resultCall? settleResult change?
  rw [hk]
  cases CommandState.ofResult? m.record.what with
  | none => exact .refl t
  | some state =>
    cases m.token with
    | none => exact .refl t
    | some token =>
      dsimp only [Option.bind_eq_bind, Option.bind_some]
      cases t.desk.commands.find? token with
      | none => exact .refl t
      | some command =>
        have followed := agrees_followResult
          { t with desk := (t.desk.setState token state).clearOnResult token } token m.record
          command.onResult
        have merged := agrees_mergeResult m.record followed
        -- Neither calling a handler nor installing one touches what the merge looks at.
        obtain ⟨_, installed⟩ := install_eq
          { t with desk := (t.desk.setState token state).clearOnResult token } m.record
          command.onResult
        have told := congrArg
          (fun u => u.changeCalls (m.record.breakpoint?.bind u.breakpoints.change?)) installed
        rw [report_callAll, changeCalls_callAll, breakpoints_callAll, told,
          ← callAll_append] at merged
        cases hr : command.onResult with
        | call react =>
          rw [hr] at merged
          simp only [Option.map_some, hr]
          exact merged
        | nothing | install _ =>
          rw [hr] at merged
          simp only [Option.map_some, hr]
          exact merged

theorem agrees_stop (t : Tracker) (number : String) (args : Fields) :
    Agrees Event.isCall ((t.handStop number args).2.resumeAfter number)
      (t.callAll ((t.stopCall? number args).toList ++
        if t.settings.resumes then [.resume] else [])) := by
  have resumed := (t.agrees_handStop number args).congr (f := (resumeAfter · number))
    fun p t => t.resumeAfter_after p number
  have rest := agrees_resumeAfter (t.callAll (t.stopCall? number args).toList) number
  rw [settings_callAll] at rest
  rw [callAll_append]
  exact resumed.trans rest

theorem agrees_onExec (t : Tracker) (record : Record) :
    Agrees Event.isCall (t.onExec record).2
      ({ t with execState := some (ExecState.ofText record.what) }.callAll
        (t.stopCalls record)) := by
  unfold onExec stopCalls Record.stoppedAt?
  dsimp only
  split
  · cases record.text? "bkptno" with
    | none => exact .refl _
    | some number =>
      exact agrees_stop { t with execState := some (ExecState.ofText record.what) } number
        record.args
  · exact .refl _

theorem agrees_apply (t : Tracker) (m : Message) :
    Agrees Event.isCall (t.apply m).2
      ((t.settle m).callAll (t.handlerCalls m ++ t.changeCalls (t.change? m))) := by
  have quiet : m.record.kind ≠ .result → m.record.kind ≠ .notifyAsync →
      t.changeCalls (t.change? m) = [] := by
    intro result notify
    unfold change?
    split
    · exact absurd ‹_› result
    · exact absurd ‹_› notify
    · rfl
  unfold apply settle handlerCalls
  cases hk : m.record.kind with
  | result => exact t.agrees_onResult hk
  | notifyAsync => exact .of_eq (t.onNotify_eq m hk)
  | execAsync =>
    rw [quiet (by simp [hk]) (by simp [hk]), List.append_nil]
    exact t.agrees_onExec m.record
  | consoleStream =>
    rw [quiet (by simp [hk]) (by simp [hk]), List.append_nil]
    exact t.agrees_onConsole m.record
  | terminator =>
    rw [quiet (by simp [hk]) (by simp [hk])]
    exact .refl t
  | statusAsync | targetStream | logStream =>
    rw [quiet (by simp [hk]) (by simp [hk])]
    exact t.agrees_notice _

theorem agrees_dispatch (t : Tracker) (m : Message) :
    Agrees Event.isCall (t.dispatch m)
      ((t.settle m).callAll (t.handlerCalls m ++ t.changeCalls (t.change? m))) := by
  refine .trans ?_ (t.agrees_apply m)
  unfold dispatch
  cases t.apply m with
  | mk verdict t =>
    cases verdict with
    | handled => exact .refl t
    | ignored | failed _ => exact t.agrees_notice _

/-- It makes no difference to what a record brings about that it was noted before. -/
theorem agrees_dispatch_received (t : Tracker) (m : Message) :
    Agrees Event.isCall ((t.log (.received m)).dispatch m) (t.dispatch m) :=
  (t.agrees_log rfl rfl).congr (f := (dispatch · m)) fun p t => t.dispatch_after p m

theorem present_eq_callAll (t : Tracker) (m : Message) :
    t.present m = t.callAll (t.subscriberCalls m) := by
  unfold present callAll subscriberCalls
  rw [List.foldl_map, List.foldl_filter]
  simp only [decide_eq_true_eq]
  rfl

/-- Taking a record is settling it and then calling those whom it concerns. -/
theorem agrees_take (t : Tracker) (m : Message) :
    Agrees Event.isCall (t.take m) ((t.settle m).callAll (t.callsOn m)) := by
  have dispatched := (t.agrees_dispatch_received m).trans (t.agrees_dispatch m)
  have presented := dispatched.congr (f := (present · m)) fun p t => t.present_after p m
  have settled : (t.settle m).subscriberCalls m = t.subscriberCalls m := by
    obtain ⟨_, _, _, _, _, hs⟩ := t.settle_eq m
    rw [hs]
    rfl
  have same := (t.settle m).subscriberCalls_callAll
    (t.handlerCalls m ++ t.changeCalls (t.change? m)) m
  rw [callsOn, callAll_append, ← settled, ← same, ← present_eq_callAll]
  exact presented

/-- Those who are called change nothing but the desk. -/
theorem fresh_take (t : Tracker) (m : Message) :
    ∃ desk, (t.take m).fresh = { t.settle m with desk }.fresh := by
  obtain ⟨desk, called⟩ := (t.settle m).callAll_eq_desk (t.callsOn m)
  exact ⟨desk, called ▸ (t.agrees_take m).fresh⟩

/-- No record makes or ends a subscription. -/
theorem subscribers_take (t : Tracker) (m : Message) :
    (t.take m).changeSubscribers = t.changeSubscribers ∧
      (t.take m).recordSubscribers = t.recordSubscribers := by
  obtain ⟨_, fresh⟩ := t.fresh_take m
  obtain ⟨_, _, _, _, _, settled⟩ := t.settle_eq m
  rw [settled] at fresh
  exact ⟨congrArg (·.changeSubscribers) fresh, congrArg (·.recordSubscribers) fresh⟩

theorem callEvents_settle (t : Tracker) (m : Message) :
    (t.settle m).callEvents = t.callEvents := by
  obtain ⟨_, _, _, _, _, settled⟩ := t.settle_eq m
  rw [settled]
  rfl

/-- Those who are called show in the journal, in their turn. -/
theorem callEvents_take (t : Tracker) (m : Message) :
    (t.take m).callEvents = t.callEvents ++ (t.callsOn m).filterMap Call.event? := by
  have called := (t.settle m).callEvents_callAll (t.callsOn m)
  rw [callEvents_settle] at called
  exact (t.agrees_take m).events.trans called

/-- What only calls show, the events that are calls show. -/
theorem filterMap_journal {α : Type} {f : Event → Option α} (t : Tracker)
    (calls : ∀ e, e.isCall = false → f e = none) :
    t.desk.journal.toList.filterMap f = t.callEvents.filterMap f := by
  rw [callEvents, Desk.callEvents, List.filterMap_filter]
  congr
  funext e
  cases h : e.isCall with
  | true => rfl
  | false => exact calls e h

end Tracker

end DebugLink

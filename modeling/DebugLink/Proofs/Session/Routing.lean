import DebugLink.Proofs.Session.Commands

/-! Whose stops are whose. A command that inserts a breakpoint brings a handler along, and the first
result of the command says under which number the breakpoint was inserted; from then on stops at
this number are the handler's. So the history decides at every moment which handler has which
number, and every stop calls the one that has its number, if there is one. -/

namespace DebugLink

namespace History

/-- The handler that a record gives the stops at a number to. There is one if the record is the
first result of a command that was to insert a breakpoint and is still in view, and has a number. -/
def installs? (h : History) (m : Message) : Option (UInt32 × Option (StopHandler Reaction)) := do
  let token ← m.token
  let _ ← m.outcome? token
  let handler ← (← h.standing? token).awaited
  m.record.inserted?.map (·, handler)

/-- The handlers after the stops at a number were given to one of them, or to none. -/
def rerouted (handlers : Dict UInt32 (StopHandler Reaction)) :
    Option (UInt32 × Option (StopHandler Reaction)) → Dict UInt32 (StopHandler Reaction)
  | some (number, handler) => handlers.assign number handler
  | none => handlers

/-- Which handler has the stops at which number. -/
def routes : History → Dict UInt32 (StopHandler Reaction)
  | [] => ∅
  | .received m :: h => rerouted (routes h) (installs? h m)
  | .sent .. :: h | .failed _ :: h | .forgot _ :: h => routes h

/-- The handler that a record calls for a stop, with what it is called with. -/
def stopAt? (h : History) (m : Message) : Option (StopHandler Reaction × UInt32 × Fields) :=
  if m.record.kind = .execAsync then do
    let number ← Breakpoint.major? (← m.record.stoppedAt?)
    return (← h.routes.find? number, number, m.record.args)
  else none

/-- The calls of handlers for stops, in the order of the records that they come of. -/
def stops : History → List (StopHandler Reaction × UInt32 × Fields)
  | [] => []
  | .received m :: h => stops h ++ (stopAt? h m).toList
  | .sent .. :: h | .failed _ :: h | .forgot _ :: h => stops h

end History

def Event.stop? : Event → Option (Option String × UInt32 × Fields)
  | .stop handler number args => some (handler, number, args)
  | _ => none

def Call.stop? : Call → Option (StopHandler Reaction × UInt32 × Fields)
  | .stop handler number args => some (handler, number, args)
  | _ => none

/-! ### The handlers in their places -/

theorem History.installs?_of_outcome {m : Message} {token : Token} {state : CommandState}
    (h : History) (ht : m.token = some token) (outcome : m.outcome? token = some state) :
    h.installs? m = (h.standing? token).bind fun s =>
      s.awaited.bind fun handler => m.record.inserted?.map (·, handler) := by
  unfold installs?
  rw [ht]
  simp only [Option.bind_eq_bind, Option.bind_some, outcome]

theorem History.installs?_of_no_outcome {m : Message} (h : History)
    (none : ∀ token, m.outcome? token = none) : h.installs? m = .none := by
  unfold installs?
  cases m.token with
  | none => rfl
  | some token => simp only [Option.bind_eq_bind, Option.bind_some, none, Option.bind_none]

theorem Standing.since_awaited_iff {token : Token} {text : String} {onResult : OnResult Reaction}
    {after : History} {handler : Option (StopHandler Reaction)} :
    (Standing.since token text onResult after).awaited = some handler ↔
      after.findSome? (·.outcome? token) = none ∧ onResult = .install handler := by
  unfold since
  cases after.findSome? (·.outcome? token) with
  | some state => simp
  | none => cases onResult <;> simp [OnResult.awaited]

/-- The first result of a command that was sent with a handler and is still in view gives the stops
at its number to that handler. -/
theorem History.installs?_eq_some_iff (h : History) (m : Message) (number : UInt32)
    (handler : Option (StopHandler Reaction)) :
    h.installs? m = some (number, handler) ↔
      ∃ token after text before, m.token = some token ∧ (m.outcome? token).isSome ∧
        h = after ++ .sent token text (.install handler) :: before ∧ .forgot token ∉ after ∧
        token ∉ given after ∧ after.findSome? (·.outcome? token) = none ∧
        m.record.inserted? = some number := by
  constructor
  · intro hi
    simp only [installs?, Option.bind_eq_bind, Option.bind_eq_some_iff, Option.map_eq_some_iff,
      Prod.mk.injEq] at hi
    obtain ⟨token, ht, state, outcome, s, standing, waiting, waits, n, inserted, rfl, rfl⟩ := hi
    obtain ⟨after, text, onResult, before, split, kept, once, rfl⟩ :=
      (standing?_eq_some_iff token s).mp standing
    obtain ⟨first, rfl⟩ := Standing.since_awaited_iff.mp waits
    exact ⟨token, after, text, before, ht, by rw [outcome]; rfl, split, kept, once, first, inserted⟩
  · rintro ⟨token, after, text, before, ht, outcome, split, kept, once, first, inserted⟩
    obtain ⟨state, outcome⟩ := Option.isSome_iff_exists.mp outcome
    have standing := (standing?_eq_some_iff token _).mpr
      ⟨after, text, .install handler, before, split, kept, once, rfl⟩
    rw [h.installs?_of_outcome ht outcome, standing, Option.bind_some,
      Standing.since_awaited_iff.mpr ⟨first, rfl⟩, Option.bind_some, inserted, Option.map_some]

theorem stopHandlers_install (t : Tracker) (record : Record) (onResult : OnResult Reaction) :
    (t.install record onResult).stopHandlers = History.rerouted t.stopHandlers
      (onResult.awaited.bind fun handler => record.inserted?.map (·, handler)) := by
  unfold Tracker.install
  cases onResult with
  | nothing | call _ => rfl
  | install handler =>
    dsimp only [OnResult.awaited, Option.bind_some]
    cases record.inserted? <;> rfl

/-- The handlers are where the history puts them. -/
structure Routed (t : Tracker) (h : History) : Prop where
  tabled : Tabled t h
  handlers : t.stopHandlers = h.routes

theorem Routed.settle {t : Tracker} {h : History} (routed : Routed t h) (m : Message) :
    (t.settle m).stopHandlers = History.routes (.received m :: h) := by
  have idle : (∀ token, m.outcome? token = none) →
      t.stopHandlers = History.routes (.received m :: h) := by
    intro none
    rw [History.routes, h.installs?_of_no_outcome none]
    exact routed.handlers
  have settled := t.settles m
  generalize t.settle m = u at settled
  cases settled with
  | result token state _ ht outcome =>
    have standing := routed.tabled.standing token
    unfold Tracker.standing? at standing
    rw [History.routes, h.installs?_of_outcome ht outcome, ← standing, ← routed.handlers]
    unfold Tracker.settleResult
    cases t.desk.commands.find? token with
    | none => rfl
    | some command => exact stopHandlers_install _ m.record command.onResult
  | exec hk => exact idle (Message.outcome?_of_kind (by simp [hk]))
  | notify hk => exact idle (Message.outcome?_of_kind (by simp [hk]))
  | nothing none _ _ => exact idle none

theorem kept_routed : Kept Routed where
  bare {t u _} same routed := by
    have handlers : t.stopHandlers = u.stopHandlers := congrArg (·.stopHandlers) same
    exact ⟨kept_tabled.bare same routed.tabled, handlers ▸ routed.handlers⟩
  close routed := ⟨kept_tabled.close routed.tabled, routed.handlers⟩
  subscribe changes records routed :=
    ⟨kept_tabled.subscribe changes records routed.tabled, routed.handlers⟩
  revise token _ same routed :=
    ⟨kept_tabled.revise token same routed.tabled, routed.handlers⟩
  send {_ h} text onResult onConsole routed := by
    refine ⟨kept_tabled.send text onResult onConsole routed.tabled, ?_⟩
    rw [History.sending_of_ignoring (f := History.routes) (fun _ _ _ _ => rfl) fun _ _ => rfl]
    exact routed.handlers
  forget token routed := ⟨kept_tabled.forget token routed.tabled, routed.handlers⟩
  settle m routed := ⟨kept_tabled.settle m routed.tabled, routed.settle m⟩

/-! ### The calls for stops -/

theorem stop?_event? (c : Call) : c.event?.bind Event.stop? =
    c.stop?.map fun (handler, number, args) => (handler.name, number, args) := by
  cases c with
  | console _ _ handler => cases handler <;> rfl
  | _ => rfl

/-- A record calls the handler that the history has for it, and no other, for a stop. -/
theorem filterMap_stop?_callsOn {t : Tracker} {h : History} (handlers : t.stopHandlers = h.routes)
    (m : Message) : (t.callsOn m).filterMap Call.stop? = (h.stopAt? m).toList := by
  rw [t.filterMap_callsOn (fun _ _ => rfl) (fun _ _ => rfl), History.stopAt?]
  split
  · rename_i hk
    unfold Tracker.handlerCalls Tracker.stopCalls Tracker.stopCall?
    rw [hk, handlers]
    cases m.record.stoppedAt? with
    | none => rfl
    | some number =>
      have target :
          (if t.settings.resumes then [Call.resume] else []).filterMap Call.stop? = [] := by
        cases t.settings.resumes <;> rfl
      dsimp only [Option.bind_eq_bind, Option.bind_some]
      rw [List.filterMap_append, target, List.append_nil]
      cases Breakpoint.major? number with
      | none => rfl
      | some n =>
        dsimp only [Option.bind_some]
        cases h.routes.find? n <;> rfl
  · rename_i hk
    refine List.filterMap_eq_nil_iff.mpr fun c hc => ?_
    cases Tracker.handles_of_mem_handlerCalls hc with
    | stop _ _ stop => exact absurd stop hk
    | result _ _ _ | resume _ | console _ _ _ => rfl

/-- The journal and the history agree about the calls of handlers for stops. -/
structure Heard (t : Tracker) (h : History) : Prop where
  routed : Routed t h
  stops : t.callEvents.filterMap Event.stop? =
    h.stops.map fun (handler, number, args) => (handler.name, number, args)

theorem Heard.take {t : Tracker} {h : History} (heard : Heard t h) (m : Message) :
    Heard (t.take m) (h.taking t m) := by
  refine ⟨kept_routed.lasting.take m heard.routed, ?_⟩
  have called : ((t.callsOn m).filterMap Call.event?).filterMap Event.stop? =
      (h.stopAt? m).toList.map fun (handler, number, args) => (handler.name, number, args) := by
    rw [List.filterMap_filterMap, ← filterMap_stop?_callsOn heard.routed.handlers m,
      List.map_filterMap]
    exact congrArg (List.filterMap · _) (funext stop?_event?)
  rw [History.taking_of_ignoring (f := History.stops) (fun _ _ _ _ => rfl) (fun _ _ => rfl)
    (fun _ _ => rfl),
    t.callEvents_take, List.filterMap_append, called, heard.stops, History.stops, List.map_append]

theorem lasting_heard : Lasting Heard where
  quiet agrees heard := by
    refine ⟨kept_routed.lasting.quiet agrees heard.routed, ?_⟩
    have same := agrees.events
    exact (congrArg (List.filterMap _) same.symm).trans heard.stops
  close heard := ⟨kept_routed.close heard.routed, heard.stops⟩
  onChange _ heard := ⟨kept_routed.subscribe _ _ heard.routed, heard.stops⟩
  onRecord _ _ heard := ⟨kept_routed.subscribe _ _ heard.routed, heard.stops⟩
  clearOnConsole token heard := ⟨kept_routed.clearOnConsole token heard.routed, heard.stops⟩
  send {t _} text onResult onConsole heard := by
    refine ⟨kept_routed.send text onResult onConsole heard.routed, ?_⟩
    rw [History.sending_of_ignoring (f := History.stops) (fun _ _ _ _ => rfl) fun _ _ => rfl,
      ← heard.stops]
    exact congrArg (List.filterMap _) (t.desk.callEvents_send text onResult onConsole)
  forget token heard := ⟨kept_routed.forget token heard.routed, heard.stops⟩
  take m heard := heard.take m

theorem stop?_of_no_call {e : Event} (h : e.isCall = false) : e.stop? = none := by
  cases e with
  | stop _ _ _ => cases h
  | _ => rfl

/-- In every run a stop calls the handler that has the number of the stop, once, with that number
and what the record says, and handlers are not called for stops otherwise. The handler that has a
number is the one that came with the last command whose first result said that number; no other
result of the command counts, and none after it was forgotten, or after its token was given anew,
which does not happen as long as tokens last. -/
theorem stops_go_to_the_handler_of_their_number (source : Source) (sink : Sink)
    (settings : Settings) (moves : List Move) :
    let c := Session.chronicle source sink settings moves
    let t := c.tracker
    let h := c.history
    t.stopHandlers = h.routes ∧
      t.desk.journal.toList.filterMap Event.stop? =
        h.stops.map (fun (handler, number, args) => (handler.name, number, args)) ∧
      (∀ m, Tracker.Agrees Event.isCall (t.take m) ((t.settle m).callAll (t.callsOn m)) ∧
        (t.callsOn m).filterMap Call.stop? = (h.stopAt? m).toList) ∧
      (∀ m number handler, h.installs? m = some (number, handler) ↔
        ∃ token after text before, m.token = some token ∧ (m.outcome? token).isSome ∧
          h = after ++ .sent token text (.install handler) :: before ∧ .forgot token ∉ after ∧
          token ∉ History.given after ∧ after.findSome? (·.outcome? token) = none ∧
          m.record.inserted? = some number) ∧
      (t.desk.issued < UInt64.size → ∀ token text onResult after before,
        h = after ++ .sent token text onResult :: before → token ∉ History.given after) := by
  intro c t h
  have tabled := tabled_connect source sink settings
  have heard : Heard t h := lasting_heard.chronicle ⟨⟨tabled, rfl⟩, rfl⟩ moves
  refine ⟨heard.routed.handlers, ?_, fun m => ⟨t.agrees_take m, ?_⟩,
    History.installs?_eq_some_iff h, ?_⟩
  · rw [t.filterMap_journal fun _ => stop?_of_no_call, heard.stops]
  · exact filterMap_stop?_callsOn heard.routed.handlers m
  · intro few token text onResult after before split
    exact History.not_mem_given_of_nodup (split ▸ heard.routed.tabled.distinct few)

end DebugLink

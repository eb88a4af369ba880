import DebugLink.Proofs.Session.Staff

/-! Whom results are handed to. A result is handed to the handler of its command, once, if the
command is in view when the result is received; who else sends or forgets what, and what else is
received, makes no difference to it. -/

namespace DebugLink

def Call.result? : Call → Option (Token × Record × (Token → Record → Reaction))
  | .result token record react => some (token, record, react)
  | _ => none

def Event.result? : Event → Option (Token × Record)
  | .result token record => some (token, record)
  | _ => none

/-- What a command with a token depends on for the results that it gets. -/
def Entry.concerns (token : Token) : Entry → Bool
  | .received m => (m.outcome? token).isSome
  | .sent _ k _ _ _ | .failed _ k _ | .forgot k => token = k
  | .called _ | .silenced _ | .closed => false

namespace Ledger

/-- The handler that a record is handed to as a result, with what it is called with. -/
def resultFor? (l : Ledger) (m : Message) :
    Option (Token × Record × (Token → Record → Reaction)) := do
  let token ← m.token
  let _ ← m.outcome? token
  let handlers ← l.handlers? token
  return (token, m.record, ← handlers.onResult)

/-- The results of the command with a token that were received while the command was in view. -/
def answers (token : Token) (l : Ledger) : List Record :=
  l.gather fun l m =>
    if (m.outcome? token).isSome && (l.handlers? token).isSome then [m.record] else []

theorem resultFor?_of_outcome {m : Message} {token : Token} {state : CommandState} (l : Ledger)
    (outcome : m.outcome? token = some state) :
    l.resultFor? m =
      ((l.handlers? token).bind (·.onResult)).map fun react => (token, m.record, react) := by
  have ht : m.token = some token := by
    unfold Message.outcome? at outcome
    split at outcome
    · rename_i both
      exact both.2
    · cases outcome
  unfold resultFor?
  rw [ht]
  simp only [Option.bind_eq_bind, Option.bind_some, outcome]
  cases l.handlers? token with
  | none => rfl
  | some handlers =>
    dsimp only [Option.bind_some]
    cases handlers.onResult <;> rfl

theorem resultFor?_of_no_outcome {m : Message} (l : Ledger)
    (none : ∀ token, m.outcome? token = none) :
    l.resultFor? m = .none := by
  unfold resultFor?
  cases m.token with
  | none => rfl
  | some token => simp only [Option.bind_eq_bind, Option.bind_some, none, Option.bind_none]

theorem fst_of_resultFor? {l : Ledger} {m : Message} {token : Token} {record : Record}
    {react : Token → Record → Reaction} (h : l.resultFor? m = some (token, record, react)) :
    (m.outcome? token).isSome = true := by
  simp only [resultFor?, Option.bind_eq_bind, Option.bind_eq_some_iff, Option.pure_def,
    Option.some.injEq, Prod.mk.injEq] at h
  obtain ⟨_, _, state, outcome, _, _, _, _, rfl, _, _⟩ := h
  rw [outcome]
  rfl

end Ledger

/-! ### The calls for one record -/

/-- A record is handed as a result to the handler that the ledger has for it, and to no other. -/
theorem Staffed.filterMap_result?_callsOn {t : Tracker} {l : Ledger} (staffed : Staffed t l)
    (m : Message) : (t.callsOn m).filterMap Call.result? = (l.resultFor? m).toList := by
  rw [t.filterMap_callsOn (fun _ _ => rfl) (fun _ _ => rfl)]
  by_cases hk : m.record.kind = .result
  · unfold Tracker.handlerCalls Tracker.resultCall?
    rw [hk]
    cases hs : CommandState.ofResult? m.record.what with
    | none =>
      rw [l.resultFor?_of_no_outcome fun token => by rw [Message.outcome?, hs, ite_self]]
      rfl
    | some state =>
      cases ht : m.token with
      | none =>
        rw [l.resultFor?_of_no_outcome fun token => if_neg (by simp [ht])]
        rfl
      | some token =>
        have outcome : m.outcome? token = some state := (if_pos ⟨hk, ht⟩).trans hs
        rw [l.resultFor?_of_outcome outcome, ← staffed.handlers, Desk.handlers?]
        dsimp only
        cases t.desk.commands.find? token with
        | none => rfl
        | some command =>
          dsimp only [Option.map_some, Option.bind_some, Command.handlers]
          cases command.onResult <;> rfl
  · rw [l.resultFor?_of_no_outcome (Message.outcome?_of_kind hk)]
    refine List.filterMap_eq_nil_iff.mpr fun c hc => ?_
    cases Tracker.handles_of_mem_handlerCalls hc with
    | result _ _ result => exact absurd result hk
    | stop _ _ _ | resume _ | console _ _ _ => rfl

/-! ### The calls for one command -/

namespace Ledger

variable {token : Token}

/-- A command has the handler for results that it was sent with. -/
theorem onResult_of_sent {sender : Option Call} {text : String} {onResult : OnResult Reaction}
    {onConsole : Option (OnConsole Reaction)} {l before : Ledger} {handlers : Handlers}
    (distinct : l.given.Nodup) (sent : .sent sender token text onResult onConsole ∈ l)
    (part : before <:+ l) (hh : before.handlers? token = some handlers) :
    handlers.onResult = onResult.react? := by
  obtain ⟨after, _, _, _, _, earlier, rfl, -, rfl⟩ := exists_sent_of_handlers? hh
  have there := part.subset (List.mem_append_right after List.mem_cons_self)
  rw [Handlers.since, (sent_eq_of_mem distinct sent there).1]

/-- The handler that a command was sent with is called for its results and no other. -/
theorem filter_resultFor? {sender : Option Call} {text : String}
    {react : Token → Record → Reaction} {onConsole : Option (OnConsole Reaction)} {l : Ledger}
    (distinct : l.given.Nodup) (sent : .sent sender token text (.call react) onConsole ∈ l)
    {before : Ledger} {m : Message} (part : before <:+ l) :
    (before.resultFor? m).toList.filter (·.1 = token) =
      (if (m.outcome? token).isSome && (before.handlers? token).isSome then [m.record] else []).map
        fun record => (token, record, react) := by
  cases outcome : m.outcome? token with
  | none =>
    refine List.filter_eq_nil_iff.mpr fun call hc hk => ?_
    obtain ⟨k, record, other⟩ := call
    obtain rfl : k = token := of_decide_eq_true hk
    have some := fst_of_resultFor? (Option.mem_toList.mp hc)
    rw [outcome] at some
    cases some
  | some state =>
    rw [before.resultFor?_of_outcome outcome]
    cases hh : before.handlers? token with
    | none => rfl
    | some handlers =>
      rw [Option.bind_some, onResult_of_sent distinct sent part hh, OnResult.react?]
      simp

theorem answers_eq {sender : Option Call} {text : String} {react : Token → Record → Reaction}
    {onConsole : Option (OnConsole Reaction)} {l : Ledger} (distinct : l.given.Nodup)
    (sent : .sent sender token text (.call react) onConsole ∈ l) :
    (l.gather fun before m => (before.resultFor? m).toList).filter (·.1 = token) =
      (l.answers token).map fun record => (token, record, react) := by
  rw [answers, filter_gather, map_gather]
  refine gather_congr fun {before m} part => ?_
  exact filter_resultFor? distinct sent ((List.suffix_cons _ before).trans part)

/-- A command that was forgotten gets no more results. -/
theorem answers_append_forgot {after before : Ledger}
    (distinct : (given (after ++ .forgot token :: before)).Nodup) (sent : token ∈ before.tokens) :
    answers token (after ++ .forgot token :: before) = before.answers token := by
  have once : token ∉ given after := by
    rw [given_append, List.nodup_append] at distinct
    exact fun again =>
      distinct.2.2 token (before.tokens_sublist_given.mem sent) token again rfl
  clear distinct
  induction after with
  | nil => rfl
  | cons x after ih =>
    rw [List.cons_append]
    cases x with
    | received m =>
      have absent : handlers? token (after ++ .forgot token :: before) = none :=
        handlers?_append_forgot before once
      rw [answers, gather, absent, Option.isSome_none, Bool.and_false, if_neg (by decide),
        List.append_nil]
      exact ih once
    | sent _ k _ _ _ | failed _ k _ =>
      have others : token ∉ given after ++ [k] := once
      rw [List.mem_append, not_or] at others
      exact ih others.1
    | called _ | forgot _ | silenced _ | closed => exact ih once

theorem isSome_handlers?_filter (l : Ledger) :
    (handlers? token (l.filter (·.concerns token))).isSome = (l.handlers? token).isSome := by
  induction l with
  | nil => rfl
  | cons x l ih =>
    cases x with
    | received m =>
      rw [List.filter_cons]
      split
      · exact ih
      · exact ih
    | sent _ k _ _ _ | failed _ k _ | forgot k =>
      by_cases hk : token = k
      · rw [List.filter_cons_of_pos (by simp [Entry.concerns, hk]), handlers?, handlers?, if_pos hk,
          if_pos hk]
      · rw [List.filter_cons_of_neg (by simp [Entry.concerns, hk]), handlers?, if_neg hk, ih]
    | silenced k =>
      refine ih.trans ?_
      rw [handlers?]
      split
      · rw [Option.isSome_map]
      · rfl
    | called _ | closed => exact ih

/-- Nothing else counts for the results that a command gets. -/
theorem answers_filter (l : Ledger) :
    answers token (l.filter (·.concerns token)) = l.answers token := by
  induction l with
  | nil => rfl
  | cons x l ih =>
    cases x with
    | received m =>
      unfold answers at ih ⊢
      cases outcome : (m.outcome? token).isSome with
      | false =>
        rw [List.filter_cons_of_neg (by simp [Entry.concerns, outcome]), ih, gather, outcome,
          Bool.false_and, if_neg (by decide), List.append_nil]
      | true =>
        rw [List.filter_cons_of_pos (by simp [Entry.concerns, outcome]), gather, gather, ih,
          isSome_handlers?_filter]
    | sent _ _ _ _ _ | failed _ _ _ | forgot _ =>
      rw [List.filter_cons]
      split
      · exact ih
      · exact ih
    | called _ | silenced _ | closed => exact ih

end Ledger

theorem OnResult.eq_call_of_react? {onResult : OnResult Reaction}
    {react : Token → Record → Reaction} (h : onResult.react? = some react) :
    onResult = .call react := by
  cases onResult with
  | call _ => exact congrArg OnResult.call (Option.some.inj h)
  | nothing | install _ => cases h

/-- A command in view has the handler for results that it was sent with. -/
theorem Staffed.onResult_eq {t : Tracker} {l : Ledger} (staffed : Staffed t l)
    (few : t.desk.issued < UInt64.size) {sender : Option Call} {token : Token} {text : String} {react : Token → Record → Reaction}
    {onConsole : Option (OnConsole Reaction)}
    (sent : .sent sender token text (.call react) onConsole ∈ l) {command : Command}
    (there : t.desk.commands.find? token = some command) : command.onResult = .call react := by
  have handlers := staffed.handlers token
  rw [Desk.handlers?, there, Option.map_some] at handlers
  exact OnResult.eq_call_of_react?
    (Ledger.onResult_of_sent (staffed.distinct few) sent List.suffix_rfl handlers.symm)

theorem Call.bind_result?_event? (c : Call) :
    c.event?.bind Event.result? = c.result?.map fun (token, record, _) => (token, record) := by
  cases c with
  | console _ _ handler => cases handler <;> rfl
  | _ => rfl

theorem Event.result?_of_no_call {e : Event} (h : e.isCall = false) : e.result? = none := by
  cases e with
  | result _ _ => cases h
  | _ => rfl

/-- In every run, as long as tokens last, a handler for results is called for each result of its
command once, in the order in which they were received, as long as the command is in view, and the
journal shows these calls and no others. A command is in view from its send until it is forgotten
and never after, and while it is in view it has its handler. Nothing else that is received, sent or
forgotten counts for the calls, and nobody who is called can tell that a handler is out of its place
meanwhile. -/
theorem results_go_to_the_handler_of_their_command (source : Source) (sink : Sink)
    (settings : Settings) (moves : List Move)
    (few : (Session.chronicle source sink settings moves).session.desk.issued < UInt64.size) :
    let c := Session.chronicle source sink settings moves
    let t := c.tracker
    let l := Session.ledger source sink settings moves
    l.history = c.history ∧ l.history.records = received t.desk.journal ∧
      l.calls.filterMap Call.event? = t.callEvents ∧
      (∀ sender token text react onConsole, .sent sender token text (.call react) onConsole ∈ l →
        (l.calls.filterMap Call.result?).filter (·.1 = token) =
          (l.answers token).map (fun record => (token, record, react)) ∧
        (t.desk.journal.toList.filterMap Event.result?).filter (·.1 = token) =
          (l.answers token).map (fun record => (token, record)) ∧
        ∀ command, t.desk.commands.find? token = some command → command.onResult = .call react) ∧
      (∀ m, (t.callsOn m).filterMap Call.result? = (l.resultFor? m).toList ∧
        ((t.take m).desk.issued < UInt64.size → Tracker.Agrees Event.isCall (t.take m)
          ((t.settleInPlace m).visitAll (t.callsOn m)))) ∧
      (∀ token, t.desk.commands.contains token = (l.handlers? token).isSome ∧
        ((l.handlers? token).isSome = true ↔ ∃ after sender text onResult onConsole before,
          l = after ++ .sent sender token text onResult onConsole :: before ∧
            .forgot token ∉ after)) ∧
      (∀ token after (before : Ledger), l = after ++ .forgot token :: before →
        token ∈ before.tokens → l.answers token = before.answers token) ∧
      ∀ token, Ledger.answers token (l.filter (·.concerns token)) = l.answers token := by
  intro c t l
  have announced : Announced Staffed Call.result? (fun l m => (l.resultFor? m).toList) t l :=
    (placed_staffed.announced fun staffed _ => staffed.filterMap_result?_callsOn).chronicle
      (fun _ => ⟨staffed_connect source sink settings, rfl, rfl⟩) moves few
  have staffed := announced.base
  have distinct := staffed.distinct few
  have history : l.history = c.history := Session.history_ledger source sink settings moves
  have records : c.history.records = received t.desk.journal := Chronicle.records_run rfl moves
  refine ⟨history, history ▸ records, announced.events.symm, ?_,
    fun m => ⟨staffed.filterMap_result?_callsOn m, Tracker.agrees_take_in_place staffed.numbered⟩,
    fun token => ⟨staffed.contains_eq token, ?_⟩, ?_, fun token => l.answers_filter⟩
  · intro sender token text react onConsole sent
    have calls := Ledger.answers_eq distinct sent
    rw [← announced.calls] at calls
    refine ⟨calls, ?_, fun command there => staffed.onResult_eq few sent there⟩
    rw [t.filterMap_journal fun _ => Event.result?_of_no_call, announced.events,
      List.filterMap_filterMap]
    have shown : (l.calls.filterMap fun c => c.event?.bind Event.result?) =
        (l.calls.filterMap Call.result?).map fun (token, record, _) => (token, record) := by
      rw [List.map_filterMap]
      exact congrArg (List.filterMap · _) (funext Call.bind_result?_event?)
    have answered := congrArg (List.map fun (token, record, _) => (token, record)) calls
    rw [List.map_map] at answered
    rw [shown, List.filter_map]
    exact answered
  · rw [Option.isSome_iff_exists]
    constructor
    · rintro ⟨h, hh⟩
      obtain ⟨after, sender, text, onResult, onConsole, before, split, kept, -⟩ :=
        Ledger.exists_sent_of_handlers? hh
      exact ⟨after, sender, text, onResult, onConsole, before, split, kept⟩
    · rintro ⟨after, sender, text, onResult, onConsole, before, split, kept⟩
      exact ⟨_, (Ledger.handlers?_eq_some_iff distinct _).mpr
        ⟨after, sender, text, onResult, onConsole, before, split, kept, rfl⟩⟩
  · intro token after before split sent
    rw [split]
    exact Ledger.answers_append_forgot (split ▸ distinct) sent

/-- A handler that counts its calls: at the second of three equal results it forgets its command,
and is not called again. -/
theorem a_command_forgotten_by_its_handler_gets_no_more_results :
    let react : Token → Record → Reaction := fun token _ => .look fun view =>
      if view.past.length = 1 then .done else .forget token fun _ => .done
    let result : Octets := [0x31, 0x5E, 0x64, 0x6F, 0x6E, 0x65, 0x0A]
    let moves := [.send "-exec-run" (.call react) none,
      .farEnd ⟨.channel { queue := [result, result, result] }, {}⟩, .fill, .takeLine, .fill,
      .takeLine, .fill, .takeLine]
    let l := Session.ledger ⟨.channel {}, {}⟩ {} {} moves
    (Session.chronicle ⟨.channel {}, {}⟩ {} {} moves).session.desk.issued < UInt64.size ∧
      .sent none ⟨1⟩ "-exec-run" (.call react) none ∈ l ∧
      (l.calls.filterMap Call.result?).filter (·.1 = ⟨1⟩) =
        [⟨.result, "done", []⟩, ⟨.result, "done", []⟩].map fun record => (⟨1⟩, record, react) := by
  have calls := results_go_to_the_handler_of_their_command ⟨.channel {}, {}⟩ {} {}
  refine ⟨by decide +kernel, List.mem_of_getLast? (by rfl), ?_⟩
  refine ((calls _ (by decide +kernel)).2.2.2.1 none ⟨1⟩ _ _ none
    (List.mem_of_getLast? (by rfl))).1.trans ?_
  refine congrArg (List.map _) ?_
  decide +kernel

end DebugLink

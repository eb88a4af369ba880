import DebugLink.Proofs.Session.Staff

/-! Whom console text is handed to. It carries no token, so it goes to the command that was sent
last among those in view, and to nobody if that one has no handler for it, whatever handlers older
commands have. The table finds that command under its greatest token, which comes to the same since
tokens are given in ascending order. -/

namespace DebugLink

def Call.console? : Call → Option (Token × Record × OnConsole Reaction)
  | .console token record handler => some (token, record, handler)
  | _ => none

def Event.isConsole : Event → Bool
  | .console _ _ | .collected _ _ => true
  | _ => false

/-- How a handler shows in the journal that console text is handed to. -/
def OnConsole.shown (token : Token) (record : Record) : OnConsole Reaction → Event
  | .call _ => .console token record
  | .collect => .collected token record.what

namespace Ledger

/-- The command that was sent last among those that were not forgotten since. -/
def latest? (l : Ledger) : Option Token :=
  (l.tokens.filter fun token => (l.handlers? token).isSome).getLast?

/-- The handler that a record is handed to as console text, with what it is called with. -/
def consoleFor? (l : Ledger) (m : Message) : Option (Token × Record × OnConsole Reaction) :=
  if m.record.kind = .consoleStream then do
    let token ← l.latest?
    let handlers ← l.handlers? token
    return (token, m.record, ← handlers.onConsole)
  else none

end Ledger

/-! ### The latest command -/

theorem Token.compare_eq_lt_iff {a b : Token} : compare a b = .lt ↔ a.number < b.number :=
  compareOfLessAndEq_eq_lt.trans UInt64.lt_iff_toNat_lt

theorem Token.getLast?_of_greatest {tokens : List Token}
    (ascending : tokens.Pairwise (·.number < ·.number)) {latest : Token} (there : latest ∈ tokens)
    (greatest : ∀ token ∈ tokens, token.number ≤ latest.number) : tokens.getLast? = some latest := by
  obtain ⟨before, after, rfl⟩ := List.append_of_mem there
  cases after with
  | nil => exact List.getLast?_concat
  | cons later after =>
    have less := List.rel_of_pairwise_cons (List.pairwise_append.mp ascending).2.1
      (List.mem_cons_self (a := later) (l := after))
    exact absurd (greatest later (by simp)) (Nat.not_le_of_lt less)

/-- The greatest token in the table is that of the command sent last among those in view. -/
theorem Staffed.latest?_eq {t : Tracker} {l : Ledger} (staffed : Staffed t l)
    (few : t.desk.issued < UInt64.size) : l.latest? = t.desk.commands.last?.map (·.1) := by
  unfold Ledger.latest?
  cases hl : t.desk.commands.last? with
  | none =>
    have absent : ∀ token, l.handlers? token = none := by
      intro token
      rw [← staffed.handlers, Desk.handlers?, Dict.last?_eq_none hl, Option.map_none]
    rw [List.filter_eq_nil_iff.mpr fun token _ => by simp [absent token]]
    rfl
  | some latest =>
    obtain ⟨there, greatest⟩ := Dict.last?_eq_some hl
    have inView : t.desk.commands.contains latest.1 = true :=
      Option.isSome_iff_exists.mpr ⟨_, there⟩
    refine Token.getLast?_of_greatest ((staffed.ascending few).sublist List.filter_sublist) ?_ ?_
    · refine List.mem_filter.mpr ⟨staffed.sent_of_contains inView, ?_⟩
      rw [← staffed.contains_eq]
      exact inView
    · intro token ht
      have tracked := (List.mem_filter.mp ht).2
      rw [← staffed.contains_eq] at tracked
      obtain rfl | less := greatest token tracked
      · exact Nat.le_refl _
      · exact Nat.le_of_lt (Token.compare_eq_lt_iff.mp less)

/-! ### The calls for one record -/

/-- A record is handed as console text to the handler that the ledger has for it, and to no
other. -/
theorem Staffed.filterMap_console?_callsOn {t : Tracker} {l : Ledger} (staffed : Staffed t l)
    (few : t.desk.issued < UInt64.size) (m : Message) :
    (t.callsOn m).filterMap Call.console? = (l.consoleFor? m).toList := by
  rw [t.filterMap_callsOn (fun _ _ => rfl) (fun _ _ => rfl), Ledger.consoleFor?]
  split
  · rename_i hk
    unfold Tracker.handlerCalls Tracker.consoleCall?
    rw [hk, staffed.latest?_eq few]
    cases hl : t.desk.commands.last? with
    | none => rfl
    | some latest =>
      have there : l.handlers? latest.1 = some latest.2.handlers := by
        rw [← staffed.handlers, Desk.handlers?, (Dict.last?_eq_some hl).1, Option.map_some]
      simp only [Option.map_some, Option.bind_eq_bind, Option.bind_some, there, Command.handlers]
      cases latest.2.onConsole <;> rfl
  · rename_i hk
    refine List.filterMap_eq_nil_iff.mpr fun c hc => ?_
    cases Tracker.handles_of_mem_handlerCalls hc with
    | console _ _ console => exact absurd console hk
    | result _ _ _ | stop _ _ _ | resume _ => rfl

/-! ### The calls of a run -/

theorem Call.filter_isConsole_event? (cs : List Call) :
    (cs.filterMap Call.event?).filter Event.isConsole =
      (cs.filterMap Call.console?).map fun (token, record, handler) =>
        handler.shown token record := by
  rw [List.filter_filterMap, List.map_filterMap]
  refine congrArg (List.filterMap · _) (funext fun c => ?_)
  cases c with
  | console _ _ handler => cases handler <;> rfl
  | _ => rfl

theorem Event.isCall_of_isConsole {e : Event} (h : e.isConsole = true) : e.isCall = true := by
  cases e with
  | console _ _ | collected _ _ => rfl
  | _ => cases h

/-- In every run, as long as tokens last, console text is handed, each time once, to the command
that was sent last among those in view, with the token of that command, if it has a handler for it,
and to nobody otherwise; other records are handed to nobody as console text. A handler stays for as
long as its command is in view and its caller has not done with it: whatever is done by those who
are called for a record, a command keeps its handlers unless it is forgotten. -/
theorem console_text_goes_to_the_latest_command (source : Source) (sink : Sink)
    (settings : Settings) (moves : List Move)
    (few : (Session.chronicle source sink settings moves).session.desk.issued < UInt64.size) :
    let c := Session.chronicle source sink settings moves
    let t := c.tracker
    let l := Session.ledger source sink settings moves
    let handed := l.gather fun l m => (l.consoleFor? m).toList
    l.history = c.history ∧ l.history.records = received t.desk.journal ∧
      l.calls.filterMap Call.event? = t.callEvents ∧
      l.calls.filterMap Call.console? = handed ∧
      t.desk.journal.toList.filter Event.isConsole =
        handed.map (fun (token, record, handler) => handler.shown token record) ∧
      (∀ m, (t.callsOn m).filterMap Call.console? = (l.consoleFor? m).toList ∧
        ((t.take m).desk.issued < UInt64.size →
          Tracker.Agrees Event.isCall (t.take m) ((t.settleInPlace m).visitAll (t.callsOn m)) ∧
          ∀ token, t.desk.commands.contains token = true →
            ∃ news, l.taking t m = news ++ .received m :: l ∧
              (.forgot token ∉ news ∧ (t.take m).desk.handlers? token = t.desk.handlers? token ∨
                .forgot token ∈ news ∧ (t.take m).desk.handlers? token = none))) ∧
      l.latest? = t.desk.commands.last?.map (·.1) ∧
      (∀ token, t.desk.handlers? token = l.handlers? token) ∧
      ∀ token handler, (l.handlers? token).bind (·.onConsole) = some handler ↔
        ∃ after sender text onResult before,
          l = after ++ .sent sender token text onResult (some handler) :: before ∧
            .forgot token ∉ after ∧ .silenced token ∉ after := by
  intro c t l handed
  have announced : Announced Staffed Call.console? (fun l m => (l.consoleFor? m).toList) t l :=
    (placed_staffed.announced fun staffed => staffed.filterMap_console?_callsOn).chronicle
      (fun _ => ⟨staffed_connect source sink settings, rfl, rfl⟩) moves few
  have staffed := announced.base
  have history : l.history = c.history := Session.history_ledger source sink settings moves
  have records : c.history.records = received t.desk.journal := Chronicle.records_run rfl moves
  refine ⟨history, history ▸ records, announced.events.symm, announced.calls, ?_,
    fun m => ⟨staffed.filterMap_console?_callsOn few m, fun last =>
      ⟨Tracker.agrees_take_in_place staffed.numbered last, fun token there =>
        staffed.handlers_take there last⟩⟩,
    staffed.latest?_eq few, staffed.handlers, fun token handler => ?_⟩
  · have calls : t.desk.journal.toList.filter Event.isConsole =
        t.callEvents.filter Event.isConsole := by
      rw [Tracker.callEvents, Desk.callEvents, List.filter_filter]
      refine List.filter_congr fun e _ => ?_
      cases h : e.isConsole with
      | false => rfl
      | true => rw [Event.isCall_of_isConsole h]; rfl
    rw [calls, announced.events, Call.filter_isConsole_event?, announced.calls]
  · constructor
    · intro h
      obtain ⟨handlers, hh, its⟩ := Option.bind_eq_some_iff.mp h
      obtain ⟨after, sender, text, onResult, onConsole, before, split, kept, rfl⟩ :=
        Ledger.exists_sent_of_handlers? hh
      obtain ⟨rfl, heard⟩ := Handlers.onConsole_since.mp its
      exact ⟨after, sender, text, onResult, before, split, kept, heard⟩
    · rintro ⟨after, sender, text, onResult, before, split, kept, heard⟩
      rw [(Ledger.handlers?_eq_some_iff (staffed.distinct few) _).mpr
        ⟨after, sender, text, onResult, some handler, before, split, kept, rfl⟩, Option.bind_some]
      exact Handlers.onConsole_since.mpr ⟨rfl, heard⟩

/-- An older command hears nothing while a later one is in view, though that one has no handler. -/
theorem an_older_command_hears_nothing_meanwhile :
    let line : Octets := [0x7E, 0x22, 0x61, 0x22, 0x0A]
    let moves := [.send "info line" .nothing (some .collect), .send "-exec-run" .nothing none,
      .farEnd ⟨.channel { queue := [line, line] }, {}⟩, .fill, .takeLine, .forget ⟨2⟩, .fill,
      .takeLine]
    let l := Session.ledger ⟨.channel {}, {}⟩ {} {} moves
    (Session.chronicle ⟨.channel {}, {}⟩ {} {} moves).session.desk.issued < UInt64.size ∧
      l.calls.filterMap Call.console? = [(⟨1⟩, ⟨.consoleStream, "a", []⟩, .collect)] := by
  have calls := console_text_goes_to_the_latest_command ⟨.channel {}, {}⟩ {} {}
  refine ⟨by decide +kernel, ((calls _ (by decide +kernel)).2.2.2.1).trans ?_⟩
  rfl

end DebugLink

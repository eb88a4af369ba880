import DebugLink.Proofs.Session.Calls

/-! What holds of all that handlers do. A property of reactions that is handed down, from a reaction
to what comes of it and to the handlers that it sends commands with, holds of whatever is done in a
session for good if it holds of all that can be done now: settling a record only moves handlers
about, and whoever is called brings in none that lack it. -/

namespace DebugLink

def StopHandler.Every (P : Reaction → Prop) (handler : StopHandler Reaction) : Prop :=
  ∀ number args, P (handler.react number args)

/-- It holds of what is done about a result, be it at once or at the stops it brings about. -/
def OnResult.Every (P : Reaction → Prop) : OnResult Reaction → Prop
  | .nothing | .install none => True
  | .install (some handler) => handler.Every P
  | .call react => ∀ token record, P (react token record)

def OnConsole.Every (P : Reaction → Prop) : OnConsole Reaction → Prop
  | .call react => ∀ token record, P (react token record)
  | .collect => True

structure Command.Every (P : Reaction → Prop) (c : Command) : Prop where
  onResult : c.onResult.Every P
  onConsole : ∀ handler, c.onConsole = some handler → handler.Every P

/-- It holds of whatever is done at such a call; the target, which does nothing of its own, has no
part in this. -/
def Call.Every (P : Reaction → Prop) : Call → Prop
  | .result _ _ react => ∀ token record, P (react token record)
  | .stop handler _ _ => handler.Every P
  | .resume => True
  | .console _ _ handler => handler.Every P
  | .announce subscriber _ => ∀ change, P (subscriber.react change)
  | .present subscriber m => P (subscriber.react m)

/-- What holds of a reaction holds of all that comes of it. -/
structure Reaction.HandedDown (P : Reaction → Prop) : Prop where
  send {text : String} {onResult : OnResult Reaction} {onConsole : Option (OnConsole Reaction)}
    {next : Except LinkError Token → Reaction} : P (.send text onResult onConsole next) →
      Command.Every P ⟨text, .pending, onResult, onConsole⟩ ∧ ∀ outcome, P (next outcome)
  forget {token : Token} {next : Bool → Reaction} : P (.forget token next) → ∀ b, P (next b)
  stop {next : Reaction} : P (.stop next) → P next
  look {next : View → Reaction} : P (.look next) → ∀ view, P (next view)

def Dict.All {κ α : Type} [Ord κ] [Std.TransOrd κ] (P : α → Prop) (d : Dict κ α) : Prop :=
  ∀ key value, d.find? key = some value → P value

namespace Dict.All

variable {κ α : Type} [Ord κ] [Std.TransOrd κ] [Std.LawfulEqOrd κ] [DecidableEq κ]
  {P : α → Prop} {d : Dict κ α}

theorem insert (all : d.All P) (key : κ) {value : α} (h : P value) :
    (d.insert key value).All P := by
  intro k v hv
  rw [Dict.find?_insert] at hv
  split at hv
  · exact Option.some.inj hv ▸ h
  · exact all k v hv

theorem erase (all : d.All P) (key : κ) : (d.erase key).All P := by
  intro k v hv
  rw [Dict.find?_erase] at hv
  split at hv
  · cases hv
  · exact all k v hv

theorem modify (all : d.All P) (key : κ) {f : α → α} (kept : ∀ value, P value → P (f value)) :
    (d.modify key f).All P := by
  intro k v hv
  rw [Dict.find?_modify] at hv
  split at hv
  · obtain ⟨w, hw, rfl⟩ := Option.map_eq_some_iff.mp hv
    exact kept w (all k w hw)
  · exact all k v hv

end Dict.All

/-- It holds of whatever is done by those who have to do with commands, stops and changes. Those who
are shown records are left out: what they do is theirs to say, record by record. -/
structure Tracker.Every (P : Reaction → Prop) (t : Tracker) : Prop where
  commands : t.desk.commands.All (Command.Every P)
  stopHandlers : t.stopHandlers.All (StopHandler.Every P)
  changeSubscribers : ∀ s ∈ t.changeSubscribers, ∀ change, P (s.react change)

namespace Desk

variable {P : Reaction → Prop} {d : Desk}

theorem every_send (all : d.commands.All (Command.Every P)) {text : String}
    {onResult : OnResult Reaction} {onConsole : Option (OnConsole Reaction)}
    (command : Command.Every P ⟨text, .pending, onResult, onConsole⟩) :
    (d.send text onResult onConsole).2.commands.All (Command.Every P) := by
  have inserted := all.insert d.nextToken command
  unfold send
  dsimp only
  split
  · exact all
  · split
    · exact inserted
    · exact inserted.erase _

theorem every_perform (handed : Reaction.HandedDown P) (r : Reaction) (hr : P r)
    (all : d.commands.All (Command.Every P)) :
    (perform r d).commands.All (Command.Every P) := by
  induction r, d using perform_induction with
  | done d => exact all
  | send text onResult onConsole next d ih =>
    obtain ⟨command, rest⟩ := handed.send hr
    exact ih (rest _) (every_send all command)
  | forget token next d ih => exact ih (handed.forget hr _) (all.erase token)
  | stop next d ih => exact ih (handed.stop hr) all
  | look next d ih => exact ih (handed.look hr d.view) all

end Desk

namespace Tracker.Every

variable {P : Reaction → Prop} {t u : Tracker}

theorem of_fresh (same : t.fresh = u.fresh) (every : u.Every P) : t.Every P := by
  have commands : t.desk.commands = u.desk.commands := congrArg (·.desk.commands) same
  have stopHandlers : t.stopHandlers = u.stopHandlers := congrArg (·.stopHandlers) same
  have changes : t.changeSubscribers = u.changeSubscribers := congrArg (·.changeSubscribers) same
  exact ⟨commands ▸ every.commands, stopHandlers ▸ every.stopHandlers,
    changes ▸ every.changeSubscribers⟩

theorem withCommands (every : t.Every P) {desk : Desk}
    (all : desk.commands.All (Command.Every P)) : Tracker.Every P { t with desk } :=
  ⟨all, every.stopHandlers, every.changeSubscribers⟩

theorem install (every : t.Every P) (record : Record) {onResult : OnResult Reaction}
    (h : onResult.Every P) : (t.install record onResult).Every P := by
  unfold Tracker.install
  split
  · rename_i handler
    split
    · rename_i number _
      refine ⟨every.commands, ?_, every.changeSubscribers⟩
      cases handler with
      | none => exact every.stopHandlers.erase number
      | some handler => exact every.stopHandlers.insert number h
    · exact every
  · exact every

theorem settle (every : t.Every P) (m : Message) : (t.settle m).Every P := by
  have settled := t.settles m
  generalize t.settle m = u at settled ⊢
  cases settled with
  | exec _ | notify _ | nothing _ _ _ =>
    exact ⟨every.commands, every.stopHandlers, every.changeSubscribers⟩
  | result token state _ _ _ =>
    unfold settleResult
    split
    · rename_i command found
      have moved : ((t.desk.setState token state).clearOnResult token).commands.All
          (Command.Every P) :=
        (every.commands.modify token (f := fun c => { c with state }) fun _ c =>
          ⟨c.onResult, c.onConsole⟩).modify token (f := fun c => { c with onResult := .nothing })
            fun _ c => ⟨trivial, c.onConsole⟩
      have installed := (every.withCommands moved).install m.record
        (every.commands token command found).onResult
      exact ⟨installed.commands, installed.stopHandlers, installed.changeSubscribers⟩
    · exact every

/-! ### Whom such a tracker calls -/

theorem of_mem_handlerCalls (every : t.Every P) {m : Message} {c : Call}
    (hc : c ∈ t.handlerCalls m) : c.Every P := by
  unfold handlerCalls at hc
  split at hc
  · have called := Option.mem_toList.mp hc
    unfold resultCall? at called
    split at called
    · split at called
      · rename_i token _ _ _ react found
        cases called
        obtain ⟨command, there, same⟩ := Option.map_eq_some_iff.mp found
        have onResult := (every.commands token command there).onResult
        rw [same] at onResult
        exact onResult
      · cases called
    · cases called
  · unfold stopCalls at hc
    split at hc
    · rcases List.mem_append.mp hc with hc | hc
      · obtain ⟨n, -, hc⟩ := Option.bind_eq_some_iff.mp (Option.mem_toList.mp hc)
        obtain ⟨handler, there, rfl⟩ := Option.map_eq_some_iff.mp hc
        exact every.stopHandlers n handler there
      · split at hc
        · rw [List.mem_singleton.mp hc]
          exact trivial
        · cases hc
    · cases hc
  · obtain ⟨latest, last, hc⟩ := Option.bind_eq_some_iff.mp (Option.mem_toList.mp hc)
    obtain ⟨handler, there, rfl⟩ := Option.map_eq_some_iff.mp hc
    exact (every.commands _ _ (Dict.last?_eq_some last).1).onConsole handler there
  · cases hc

theorem of_mem_changeCalls (every : t.Every P) {change : Option Change} {c : Call}
    (hc : c ∈ t.changeCalls change) : c.Every P := by
  obtain ⟨change, -, hc⟩ := List.mem_flatMap.mp hc
  obtain ⟨subscriber, there, rfl⟩ := List.mem_map.mp hc
  exact every.changeSubscribers subscriber there

/-- If it holds of what is done by those who are shown the record, it holds of whatever is done for
the record. -/
theorem of_mem_callsOn (every : t.Every P) {m : Message}
    (shown : ∀ s ∈ t.recordSubscribers, s.kind = m.record.kind → P (s.react m)) {c : Call}
    (hc : c ∈ t.callsOn m) : c.Every P := by
  rcases List.mem_append.mp hc with hc | hc
  · rcases List.mem_append.mp hc with hc | hc
    · exact every.of_mem_handlerCalls hc
    · exact every.of_mem_changeCalls hc
  · obtain ⟨s, there, rfl⟩ := List.mem_map.mp hc
    obtain ⟨there, kind⟩ := List.mem_filter.mp there
    exact shown s there (of_decide_eq_true kind)

/-- Whoever is called, what the handlers do afterwards is still of the kind. -/
theorem call (handed : Reaction.HandedDown P) (every : t.Every P) {c : Call} (hc : c.Every P) :
    (t.call c).Every P := by
  cases c with
  | resume => exact every.withCommands (Desk.every_send every.commands ⟨trivial, nofun⟩)
  | stop handler number args =>
    exact every.withCommands (Desk.every_perform handed _ (hc number args) every.commands)
  | announce _ change =>
    exact every.withCommands (Desk.every_perform handed _ (hc change) every.commands)
  | present _ _ => exact every.withCommands (Desk.every_perform handed _ hc every.commands)
  | result token record react =>
    have acted := Desk.every_perform (d := t.desk.log (.result token record)) handed _
      (hc token record) every.commands
    refine every.withCommands (acted.modify token fun command h => ?_)
    split
    · exact ⟨hc, h.onConsole⟩
    · exact h
  | console token record handler =>
    have cleared : (t.desk.clearOnConsole token).commands.All (Command.Every P) :=
      every.commands.modify token fun _ command => ⟨command.onResult, nofun⟩
    have restored : ∀ d : Desk, d.commands.All (Command.Every P) →
        (d.restoreOnConsole token handler).commands.All (Command.Every P) := by
      intro d all
      refine all.modify token fun command h => ⟨h.onResult, fun other there => ?_⟩
      cases hcons : command.onConsole with
      | none =>
        rw [hcons] at there
        exact Option.some.inj there ▸ hc
      | some before =>
        rw [hcons] at there
        exact h.onConsole other (hcons.trans there)
    cases handler with
    | collect => exact every.withCommands (restored _ cleared)
    | call react =>
      exact every.withCommands (restored _ (Desk.every_perform handed _ (hc token record) cleared))

theorem callAll (handed : Reaction.HandedDown P) {cs : List Call} (every : t.Every P)
    (hcs : ∀ c ∈ cs, c.Every P) : (t.callAll cs).Every P := by
  induction cs generalizing t with
  | nil => exact every
  | cons c cs ih =>
    obtain ⟨first, rest⟩ := List.forall_mem_cons.mp hcs
    exact ih (every.call handed first) rest

theorem take (handed : Reaction.HandedDown P) (every : t.Every P) {m : Message}
    (shown : ∀ s ∈ t.recordSubscribers, s.kind = m.record.kind → P (s.react m)) :
    (t.take m).Every P :=
  ((every.settle m).callAll handed fun _ => every.of_mem_callsOn shown).of_fresh
    (t.agrees_take m).fresh

end Tracker.Every

end DebugLink

import DebugLink.Proofs.Dict
import DebugLink.Proofs.Session.Calls

/-! Handlers stay with their commands. While a handler is called it is out of the table, and it is
given back afterwards to a command that is still in view. Nothing that a handler does looks at the
handlers in the table, and a command that was in view before is touched only to take it out of view,
as long as tokens have not begun again. So it makes no difference when the handler is given back:
taking a record comes to the same as if every handler had stayed in its place. -/

namespace DebugLink

/-- The handler for the results of a command, if that is what is to happen with them. -/
def OnResult.react? : OnResult Reaction → Option (Token → Record → Reaction)
  | .call react => some react
  | _ => none

/-- The handlers of a command. -/
structure Handlers where
  onResult : Option (Token → Record → Reaction)
  onConsole : Option (OnConsole Reaction)

def Command.handlers (c : Command) : Handlers := ⟨c.onResult.react?, c.onConsole⟩

namespace Desk

/-- The handlers of the command with a token, if it is in view. -/
def handlers? (d : Desk) (token : Token) : Option Handlers :=
  (d.commands.find? token).map Command.handlers

/-- Something about a command in view changes, or about what is to happen with it. -/
def revise (d : Desk) (token : Token) (f : Command → Command) : Desk :=
  { d with commands := d.commands.modify token f }

/-- The number of a command in view is no more than were given out. -/
def Numbered (d : Desk) : Prop :=
  ∀ token, d.commands.contains token = true → token.number ≤ d.issued

theorem Numbered.number_le {d : Desk} (numbered : d.Numbered) {token : Token} {command : Command}
    (there : d.commands.find? token = some command) : token.number ≤ d.issued :=
  numbered token (Option.isSome_iff_exists.mpr ⟨command, there⟩)

section revise
variable {d : Desk} {k : Token} (f : Command → Command)

/-- A send spends a token unless the connection has ended. -/
theorem issued_send (d : Desk) (text : String) (onResult : OnResult Reaction)
    (onConsole : Option (OnConsole Reaction)) :
    (d.send text onResult onConsole).2.issued = d.issued + if d.closed then 0 else 1 := by
  unfold send
  dsimp only
  split
  · rfl
  · split
    · rfl
    · rfl

theorem issued_le_send (d : Desk) (text : String) (onResult : OnResult Reaction)
    (onConsole : Option (OnConsole Reaction)) :
    d.issued ≤ (d.send text onResult onConsole).2.issued :=
  d.issued_send text onResult onConsole ▸ Nat.le_add_right _ _

/-- However much is done, no token is taken back. -/
theorem Moves.issued_le {d e : Desk} (moves : d.Moves e) : d.issued ≤ e.issued := by
  induction moves with
  | none => exact Nat.le_refl _
  | send text onResult onConsole _ ih =>
    exact Nat.le_trans ih (issued_le_send _ text onResult onConsole)
  | log _ _ _ ih | forget _ _ ih | requestStop _ ih | revise _ _ _ ih => exact ih

theorem number_nextToken {d : Desk} (few : d.issued + 1 < UInt64.size) :
    d.nextToken.number = d.issued + 1 := Token.number_ofNumber few

/-- A token is new as long as there are tokens that were not given out. -/
theorem nextToken_ne {d : Desk} {k : Token} (old : k.number ≤ d.issued)
    (few : d.issued + 1 < UInt64.size) : d.nextToken ≠ k := by
  rintro rfl
  rw [number_nextToken few] at old
  exact Nat.not_succ_le_self _ old

/-- A send does not look at the commands that were sent before. -/
theorem send_revise (old : k.number ≤ d.issued) {text : String} {onResult : OnResult Reaction}
    {onConsole : Option (OnConsole Reaction)}
    (few : (d.send text onResult onConsole).2.issued < UInt64.size) :
    (d.revise k f).send text onResult onConsole =
      ((d.send text onResult onConsole).1, (d.send text onResult onConsole).2.revise k f) := by
  cases hc : d.closed with
  | true =>
    have closed : (d.revise k f).closed = true := hc
    rw [send_of_closed hc, send_of_closed closed]
  | false =>
    have opened : (d.revise k f).closed = false := hc
    have new : d.nextToken ≠ k := by
      rw [issued_send, hc] at few
      exact nextToken_ne old few
    have next : (d.revise k f).nextToken = d.nextToken := rfl
    cases hw : d.sink.write (Utf8.encode (commandLine d.nextToken text)) with
    | mk failure sink =>
      cases failure with
      | none =>
        rw [send_of_write hc hw, send_of_write opened hw, next]
        simp only [revise, Dict.insert_modify new]
      | some failure =>
        rw [send_of_failure hc hw, send_of_failure opened hw, next]
        simp only [revise, Dict.insert_modify new, Dict.erase_modify, notice, log]

theorem forget_revise (token : Token) :
    (d.revise k f).forget token = ((d.forget token).1, (d.forget token).2.revise k f) := by
  simp only [forget, revise, Dict.contains_modify, Dict.erase_modify]

/-- The handlers of a command cannot be seen. -/
theorem view_revise (unseen : ∀ token c, (f c).info token = c.info token) :
    (d.revise k f).view = d.view := by
  have entry : ∀ e : Token × Command,
      (if compare k e.1 = .eq then (e.1, f e.2) else e).2.info
        (if compare k e.1 = .eq then (e.1, f e.2) else e).1 = e.2.info e.1 := by
    intro e
    split
    · exact unseen e.1 e.2
    · rfl
  unfold view revise Dict.modify
  rw [List.map_map]
  exact congrArg (View.mk d.closed · d.memory) (List.map_congr_left fun e _ => entry e)

/-- Whatever somebody does, it is the same whether the handlers of a command that was sent before
are changed first or afterwards. -/
theorem perform_revise (unseen : ∀ token c, (f c).info token = c.info token) (r : Reaction)
    (old : k.number ≤ d.issued) (few : (perform r d).issued < UInt64.size) :
    perform r (d.revise k f) = (perform r d).revise k f := by
  induction r, d using perform_induction with
  | done d => rfl
  | send text onResult onConsole next d ih =>
    have later := d.issued_le_send text onResult onConsole
    have fewer : (d.send text onResult onConsole).2.issued < UInt64.size :=
      Nat.lt_of_le_of_lt (doings_perform _ (Desk.log _ _)).moves.issued_le few
    rw [perform_send, perform_send, send_revise f old fewer]
    exact ih (Nat.le_trans old later) few
  | forget token next d ih =>
    rw [perform_forget, perform_forget, forget_revise]
    exact ih old few
  | stop next d ih => exact ih old few
  | look next d ih =>
    rw [perform_look, perform_look, view_revise f unseen]
    exact ih old few

theorem handlers?_revise {f : Command → Command}
    (same : ∀ c, d.commands.find? k = some c → (f c).handlers = c.handlers) (token : Token) :
    (d.revise k f).handlers? token = d.handlers? token := by
  unfold handlers? revise
  rw [Dict.find?_modify]
  split
  · rename_i hk
    subst hk
    cases hc : d.commands.find? token with
    | none => rfl
    | some c => exact congrArg some (same c hc)
  · rfl

end revise

end Desk

/-- Giving a handler back cannot be seen. -/
theorem Command.info_restoreOnResult (onResult : OnResult Reaction) (token : Token) (c : Command) :
    (match c.onResult with
      | .nothing => { c with onResult }
      | _ => c).info token = c.info token := by
  cases c.onResult <;> rfl

namespace Call

/-- The call is for a handler that is out of the table meanwhile. -/
def isOfCommand : Call → Bool
  | .result .. | .console .. => true
  | _ => false

end Call

namespace Tracker

/-- The call is noted. -/
def noted (t : Tracker) (c : Call) : Tracker := (c.event?.map t.log).getD t

/-- Somebody is called, and every handler stays in its place. -/
def visit (t : Tracker) (c : Call) : Tracker := (t.noted c).act c

def visitAll (t : Tracker) (cs : List Call) : Tracker := cs.foldl visit t

/-- A record is settled, and the handler that is called for it stays with its command. -/
def settleInPlace (t : Tracker) (m : Message) : Tracker :=
  if m.record.kind = .result then ((t.resultCall? m).map (t.settle m).release).getD (t.settle m)
  else t.settle m

theorem visitAll_append (t : Tracker) (cs ds : List Call) :
    t.visitAll (cs ++ ds) = (t.visitAll cs).visitAll ds := List.foldl_append

/-- Most of those who are called are in no table that they could be taken out of. -/
theorem callAll_eq_visitAll {cs : List Call} (plain : ∀ c ∈ cs, c.isOfCommand = false)
    (t : Tracker) : t.callAll cs = t.visitAll cs := by
  induction cs generalizing t with
  | nil => rfl
  | cons c cs ih =>
    have first : t.call c = t.visit c := by
      cases c with
      | result _ _ _ => cases plain _ List.mem_cons_self
      | console _ _ _ => cases plain _ List.mem_cons_self
      | resume | stop _ _ _ | announce _ _ | present _ _ => rfl
    have rest := ih (fun c hc => plain c (List.mem_cons_of_mem _ hc)) (t.call c)
    rw [first] at rest
    exact (congrArg (callAll · cs) first).trans rest

/-- A handler for results can be given back before it is called. -/
theorem call_result {t : Tracker} {token : Token} (old : token.number ≤ t.desk.issued)
    {record : Record} {react : Token → Record → Reaction}
    (few : (t.call (.result token record react)).desk.issued < UInt64.size) :
    t.call (.result token record react) =
      (t.release (.result token record react)).visit (.result token record react) :=
  congrArg (fun desk => { t with desk })
    (Desk.perform_revise (d := t.desk.log (.result token record)) _
      (Command.info_restoreOnResult _) (react token record) old few).symm

/-- A handler for console text that comes from the table never seems to have left it. -/
theorem call_console {t : Tracker} {token : Token} {command : Command}
    {handler : OnConsole Reaction} (old : token.number ≤ t.desk.issued)
    (there : t.desk.commands.find? token = some command) (its : command.onConsole = some handler)
    {record : Record}
    (few : (t.call (.console token record handler)).desk.issued < UInt64.size) :
    t.call (.console token record handler) = t.visit (.console token record handler) := by
  have table : (t.desk.commands.modify token fun c => { c with onConsole := none }).modify token
      (fun c => { c with onConsole := c.onConsole.or (some handler) }) = t.desk.commands := by
    rw [Dict.modify_modify]
    refine Dict.modify_eq_self fun c hc => ?_
    rw [there] at hc
    cases hc
    simp [← its]
  have back : (t.desk.clearOnConsole token).restoreOnConsole token handler = t.desk :=
    congrArg (fun commands => { t.desk with commands }) table
  have given : ∀ (r : Reaction) (e : Event),
      (Desk.perform r ((t.desk.clearOnConsole token).log e)).issued < UInt64.size →
        (Desk.perform r ((t.desk.clearOnConsole token).log e)).restoreOnConsole token handler =
          Desk.perform r (t.desk.log e) := by
    intro r e few
    have performed := Desk.perform_revise (d := (t.desk.clearOnConsole token).log e)
      (fun c => { c with onConsole := c.onConsole.or (some handler) }) (fun _ _ => rfl) r old few
    refine performed.symm.trans ?_
    exact congrArg (fun d : Desk => Desk.perform r (d.log e)) back
  cases handler with
  | call react => exact congrArg (fun desk => { t with desk }) (given _ _ few)
  | collect => exact congrArg (fun desk => { t with desk }) (given .done _ few)

/-- Nobody who has subscribed to something is a handler of a command. -/
theorem isOfCommand_of_subscribed {t : Tracker} {m : Message} {change : Option Change} {c : Call}
    (hc : c ∈ t.changeCalls change ++ t.subscriberCalls m) : c.isOfCommand = false := by
  rcases List.mem_append.mp hc with hc | hc
  · obtain ⟨_, _, rfl⟩ := exists_of_mem_changeCalls hc
    rfl
  · obtain ⟨_, rfl⟩ := exists_of_mem_subscriberCalls hc
    rfl

theorem isOfCommand_of_mem_handlerCalls {t : Tracker} {m : Message}
    (result : m.record.kind ≠ .result) (console : m.record.kind ≠ .consoleStream) {c : Call}
    (hc : c ∈ t.handlerCalls m) : c.isOfCommand = false := by
  cases handles_of_mem_handlerCalls hc with
  | result _ _ hk => exact absurd hk result
  | console _ _ hk => exact absurd hk console
  | stop _ _ _ | resume _ => rfl

theorem exists_of_resultCall? {t : Tracker} {m : Message} {c : Call}
    (hc : t.resultCall? m = some c) :
    ∃ token react command, c = .result token m.record react ∧
      t.desk.commands.find? token = some command ∧ command.onResult = .call react := by
  unfold resultCall? at hc
  split at hc
  · rename_i token _ _
    split at hc
    · rename_i react found
      obtain ⟨command, there, its⟩ := Option.map_eq_some_iff.mp found
      cases hc
      exact ⟨token, react, command, rfl, there, its⟩
    · cases hc
  · cases hc

/-- The ways in which a record can be handed over, with the tracker in which the handler that is
called for it is in its place. -/
inductive Hands (t : Tracker) (m : Message) : List Call → Tracker → Prop
  | result {token : Token} {command : Command} {react : Token → Record → Reaction} :
      t.desk.commands.find? token = some command → command.onResult = .call react →
      Hands t m [.result token m.record react]
        ((t.settle m).release (.result token m.record react))
  | console {token : Token} {command : Command} {handler : OnConsole Reaction} :
      t.desk.commands.find? token = some command → command.onConsole = some handler →
      t.settle m = t → Hands t m [.console token m.record handler] t
  | others {cs : List Call} :
      (∀ c ∈ cs, c.isOfCommand = false) → Hands t m cs (t.settle m)

theorem hands (t : Tracker) (m : Message) : t.Hands m (t.handlerCalls m) (t.settleInPlace m) := by
  have nobody : ∀ c ∈ ([] : List Call), c.isOfCommand = false :=
    fun _ h => absurd h List.not_mem_nil
  by_cases hr : m.record.kind = .result
  · unfold handlerCalls settleInPlace
    rw [hr, if_pos rfl]
    cases hc : t.resultCall? m with
    | none => exact .others nobody
    | some c =>
      obtain ⟨token, react, command, rfl, there, its⟩ := exists_of_resultCall? hc
      exact .result there its
  · rw [settleInPlace, if_neg hr]
    by_cases hc : m.record.kind = .consoleStream
    · have unmoved : t.settle m = t := by rw [settle, hc]
      unfold handlerCalls consoleCall?
      rw [hc]
      cases hl : t.desk.commands.last? with
      | none => exact .others nobody
      | some latest =>
        dsimp only [Option.bind_some]
        cases its : latest.2.onConsole with
        | none => exact .others nobody
        | some handler =>
          rw [unmoved]
          exact .console (Dict.last?_eq_some hl).1 its unmoved
    · exact .others fun _ => isOfCommand_of_mem_handlerCalls hr hc

theorem Hands.callAll_eq {t u : Tracker} {m : Message} {cs : List Call} (hands : t.Hands m cs u)
    (numbered : t.desk.Numbered)
    (few : ((t.settle m).callAll cs).desk.issued < UInt64.size) :
    (t.settle m).callAll cs = u.visitAll cs := by
  cases hands with
  | @result token command react there its =>
    obtain ⟨_, _, _, _, _, settled⟩ := t.settle_eq m
    refine call_result ?_ few
    rw [settled]
    exact numbered.number_le there
  | console there its unmoved =>
    rw [unmoved] at few ⊢
    exact call_console (numbered.number_le there) there its few
  | others plain => exact callAll_eq_visitAll plain _

/-! ### What settling leaves in place -/

/-- A result moves its command on, and the handler that it has for results stays. -/
theorem desk_settleInPlace_of_result {t : Tracker} {m : Message} {token : Token}
    {state : CommandState} {command : Command} (hk : m.record.kind = .result)
    (ht : m.token = some token) (hs : CommandState.ofResult? m.record.what = some state)
    (there : t.desk.commands.find? token = some command) :
    ∃ onResult, onResult.react? = command.onResult.react? ∧
      (t.settleInPlace m).desk = t.desk.revise token fun c => { c with state, onResult } := by
  obtain ⟨_, installed⟩ := install_eq
    { t with desk := (t.desk.setState token state).clearOnResult token } m.record command.onResult
  unfold settleInPlace settle settleResult resultCall?
  rw [if_pos hk, hk, hs, ht]
  dsimp only
  rw [there]
  dsimp only [Option.map_some]
  rw [installed]
  have moved : (t.desk.setState token state).clearOnResult token =
      t.desk.revise token fun c => { c with state, onResult := .nothing } := by
    unfold Desk.setState Desk.clearOnResult Desk.revise
    rw [Dict.modify_modify]
    rfl
  cases hr : command.onResult with
  | nothing | install _ => exact ⟨.nothing, rfl, moved⟩
  | call react =>
    refine ⟨.call react, rfl, ?_⟩
    have given :
        (t.desk.revise token fun c => { c with state, onResult := .nothing }).restoreOnResult token
          (.call react) =
        t.desk.revise token fun c => { c with state, onResult := .call react } := by
      unfold Desk.restoreOnResult Desk.revise
      rw [Dict.modify_modify]
      rfl
    rw [← given, ← moved]
    rfl

/-- No record takes a handler from a command. -/
theorem handlers?_settleInPlace (t : Tracker) (m : Message) (token : Token) :
    (t.settleInPlace m).desk.handlers? token = t.desk.handlers? token := by
  have unmoved : t.settle m = t → t.resultCall? m = none →
      (t.settleInPlace m).desk.handlers? token = t.desk.handlers? token := by
    intro settled uncalled
    rw [settleInPlace, settled, uncalled, Option.map_none, Option.getD_none, ite_self]
  by_cases hk : m.record.kind = .result
  · cases hs : CommandState.ofResult? m.record.what with
    | none => exact unmoved (by rw [settle, hk, hs]) (by rw [resultCall?, hs])
    | some state =>
      cases ht : m.token with
      | none => exact unmoved (by rw [settle, hk, hs, ht]) (by rw [resultCall?, hs, ht])
      | some k =>
        cases there : t.desk.commands.find? k with
        | none =>
          refine unmoved ?_ ?_
          · simp only [settle, hk, hs, ht, settleResult, there]
          · simp only [resultCall?, hs, ht, there, Option.map_none]
        | some command =>
          obtain ⟨onResult, same, moved⟩ := desk_settleInPlace_of_result hk ht hs there
          rw [moved]
          refine Desk.handlers?_revise (fun c hc => ?_) token
          rw [there] at hc
          cases hc
          exact congrArg (Handlers.mk · _) same
  · rw [settleInPlace, if_neg hk]
    have settled := t.settles m
    generalize t.settle m = u at settled
    cases settled with
    | result _ _ result _ _ => exact absurd result hk
    | exec _ | notify _ | nothing _ _ _ => rfl

/-- Settling changes the commands, the tables and the state of execution, and nothing else. -/
theorem settleInPlace_eq (t : Tracker) (m : Message) :
    ∃ commands execState breakpoints threadGroups stopHandlers, t.settleInPlace m =
      { t with
        desk := { t.desk with commands }
        execState, breakpoints, threadGroups, stopHandlers } := by
  obtain ⟨_, _, _, _, _, settled⟩ := t.settle_eq m
  unfold settleInPlace
  rw [settled]
  split
  · cases hc : t.resultCall? m with
    | none => exact ⟨_, _, _, _, _, rfl⟩
    | some c =>
      obtain ⟨_, _, _, rfl, -, -⟩ := exists_of_resultCall? hc
      exact ⟨_, _, _, _, _, rfl⟩
  · exact ⟨_, _, _, _, _, rfl⟩

/-! ### Taking a record -/

/-- All who are called while a record is taken. -/
theorem callAll_callsOn {t : Tracker} (numbered : t.desk.Numbered) {m : Message}
    (few : ((t.settle m).callAll (t.callsOn m)).desk.issued < UInt64.size) :
    (t.settle m).callAll (t.callsOn m) = (t.settleInPlace m).visitAll (t.callsOn m) := by
  have plain : ∀ c ∈ t.changeCalls (t.change? m) ++ t.subscriberCalls m,
      c.isOfCommand = false := fun _ => isOfCommand_of_subscribed
  rw [callsOn, List.append_assoc, callAll_append] at few ⊢
  have before := Nat.lt_of_le_of_lt (moves_callAll _ _).issued_le few
  rw [visitAll_append, (t.hands m).callAll_eq numbered before, callAll_eq_visitAll plain]

/-- As long as tokens last, taking a record comes to the same as if every handler stayed in its
place. -/
theorem agrees_take_in_place {t : Tracker} (numbered : t.desk.Numbered) {m : Message}
    (few : (t.take m).desk.issued < UInt64.size) :
    Agrees Event.isCall (t.take m) ((t.settleInPlace m).visitAll (t.callsOn m)) := by
  have issued : (t.take m).desk.issued = ((t.settle m).callAll (t.callsOn m)).desk.issued :=
    congrArg (·.desk.issued) (t.agrees_take m).fresh
  exact callAll_callsOn numbered (issued ▸ few) ▸ t.agrees_take m

end Tracker

end DebugLink

import DebugLink.Proofs.Session.Habits

/-! Handlers that do not go by all they could. Some calls are left out of what handlers have gone
through, with what was done at them. Two trackers that tell the same without these calls are alike
to handlers that are unaware of them: such handlers do the same in both, and whatever is taken then,
the two stay alike. -/

namespace DebugLink

/-- The events in which a handler, or a subscriber to changes, is called. -/
def Event.isOfHandlers : Event → Bool
  | .result .. | .console .. | .collected .. | .stop .. | .changed .. => true
  | .received .. | .noticed .. | .did .. | .shown .. => false

/-! ### Leaving calls out -/

/-- What is left of a past when some calls are left out. -/
structure Remainder where
  /-- The call made last is left. -/
  counts : Bool
  events : List Event

variable (omits : Event → Bool)

/-- Takes up an event, unless it is a call that is left out, or something that was done at one. -/
def Remainder.add (r : Remainder) (event : Event) : Remainder :=
  match event with
  | .did _ => if r.counts then { r with events := event :: r.events } else r
  | _ => if omits event then { r with counts := false } else ⟨true, event :: r.events⟩

/-- What is left of a past, latest events first. -/
def remainder (past : List Event) : Remainder :=
  past.foldr (fun event r => r.add omits event) ⟨true, []⟩

/-- Without the calls left out, both pasts tell the same. -/
def Tells (past past' : List Event) : Prop :=
  (remainder omits past).events = (remainder omits past').events

section remainder
variable {omits} {event : Event} {past past' : List Event}

theorem remainder_cons : remainder omits (event :: past) = (remainder omits past).add omits event :=
  rfl

/-- From a call on that is left, all that is told the same is so for good. -/
theorem remainder_cons_of_call (same : Tells omits past past') (called : event.isCall = true)
    (left : omits event = false) :
    remainder omits (event :: past) = remainder omits (event :: past') := by
  rw [remainder_cons, remainder_cons]
  cases event with
  | received _ | noticed _ | did _ => cases called
  | result _ _ | console _ _ | collected _ _ | stop _ _ _ | changed _ _ | shown _ _ =>
    simp only [Remainder.add, left, Bool.false_eq_true, if_false]
    exact congrArg (fun events => Remainder.mk true (_ :: events)) same

theorem remainder_did (same : remainder omits past = remainder omits past') (deed : Deed) :
    remainder omits (.did deed :: past) = remainder omits (.did deed :: past') :=
  congrArg (·.add omits (.did deed)) same

/-- What is done at a call that is left out is left out. -/
theorem remainder_did_of_omitted (omitted : (remainder omits past).counts = false) (deed : Deed) :
    remainder omits (.did deed :: past) = remainder omits past := by
  rw [remainder_cons]
  simp only [Remainder.add, omitted, Bool.false_eq_true, if_false]

end remainder

/-- Both views show the same, but for calls left out. -/
structure View.Like (v w : View) : Prop where
  closed : v.closed = w.closed
  commands : v.commands = w.commands
  past : Tells omits v.past w.past

namespace Reaction

/-- Nothing is done that goes by the calls left out, now or by the handlers of a command that is
sent. -/
inductive Unaware : Reaction → Prop
  | done : Unaware .done
  | send {text : String} {onResult : OnResult Reaction} {onConsole : Option (OnConsole Reaction)}
      {next : Except LinkError Token → Reaction} :
      (∀ react, onResult = .call react → ∀ token record, Unaware (react token record)) →
      (∀ handler, onResult = .install (some handler) →
        ∀ number args, Unaware (handler.react number args)) →
      (∀ react, onConsole = some (.call react) → ∀ token record, Unaware (react token record)) →
      (∀ outcome, Unaware (next outcome)) → Unaware (.send text onResult onConsole next)
  | forget {token : Token} {next : Bool → Reaction} :
      (∀ tracked, Unaware (next tracked)) → Unaware (.forget token next)
  | stop {next : Reaction} : Unaware next → Unaware (.stop next)
  | look {next : View → Reaction} :
      (∀ v w, v.Like omits w → next v = next w) → (∀ view, Unaware (next view)) →
      Unaware (.look next)

/-- The handler may look around, but does nothing. -/
inductive OnlyLooks : Reaction → Prop
  | done : OnlyLooks .done
  | look {next : View → Reaction} : (∀ view, OnlyLooks (next view)) → OnlyLooks (.look next)

theorem handedDown_unaware : HandedDown (Unaware omits) where
  send {_ onResult _ _} unaware := by
    cases unaware with
    | send results installed console rest =>
      refine ⟨⟨?_, ?_⟩, rest⟩
      · cases onResult with
        | nothing => exact trivial
        | call react => exact results react rfl
        | install handler =>
          cases handler with
          | none => exact trivial
          | some handler => exact installed handler rfl
      · intro handler there
        cases handler with
        | call react => exact console react there
        | collect => exact trivial
  forget unaware := by
    cases unaware
    assumption
  stop unaware := by
    cases unaware
    assumption
  look unaware := by
    cases unaware
    assumption

end Reaction

/-! ### The same with another past -/

namespace Desk

/-- The desk, had handlers gone through something else. -/
def recalling (d : Desk) (past : List Event) : Desk := { d with memory := past }

theorem log_recalling (d : Desk) (past : List Event) (e : Event) :
    (d.recalling past).log e =
      (d.log e).recalling (if e.isLived then e :: past else past) := rfl

theorem send_recalling (d : Desk) (past : List Event) (text : String)
    (onResult : OnResult Reaction) (onConsole : Option (OnConsole Reaction)) :
    (d.recalling past).send text onResult onConsole =
      ((d.send text onResult onConsole).1, (d.send text onResult onConsole).2.recalling past) := by
  unfold send
  dsimp only
  split
  · rw [if_pos ‹_›]
  · rw [if_neg ‹_›]
    have next : (d.recalling past).nextToken = d.nextToken := rfl
    have sink : (d.recalling past).sink = d.sink := rfl
    rw [next, sink]
    split
    · rfl
    · rfl

/-- Sends leave alone what handlers have gone through. -/
theorem memory_send (d : Desk) (text : String) (onResult : OnResult Reaction)
    (onConsole : Option (OnConsole Reaction)) :
    (d.send text onResult onConsole).2.memory = d.memory := by
  unfold send
  dsimp only
  split
  · rfl
  · split
    · rfl
    · rfl

variable {omits}

/-- Whoever is unaware of the calls left out does the same without them. -/
theorem perform_recalling {r : Reaction} (unaware : r.Unaware omits) {d : Desk} {past : List Event}
    (same : remainder omits past = remainder omits d.memory) :
    ∃ past', perform r (d.recalling past) = (perform r d).recalling past' ∧
      remainder omits past' = remainder omits (perform r d).memory := by
  induction unaware generalizing d past with
  | done => exact ⟨past, rfl, same⟩
  | @send text onResult onConsole next _ _ _ _ _ _ _ ih =>
    rw [perform_send, perform_send, send_recalling, log_recalling]
    refine ih _ (remainder_did ?_ _)
    rw [memory_send]
    exact same
  | @forget token next _ ih =>
    exact ih _ (d := (d.forget token).2.log (.did (.forgot (d.forget token).1)))
      (remainder_did same _)
  | stop _ ih =>
    exact ih (d := d.requestStop.log (.did .askedToStop)) (remainder_did same _)
  | @look next unmoved _ ih =>
    have view : next (d.recalling past).view = next d.view :=
      unmoved _ _ ⟨rfl, rfl, congrArg Remainder.events same⟩
    rw [perform_look, perform_look, view]
    exact ih _ (d := d.log (.did (.looked d.view.closed d.view.commands))) (remainder_did same _)

/-- Who is called goes by the call, and by what is told the same before it. -/
theorem perform_log_recalling {r : Reaction} (unaware : r.Unaware omits) {d : Desk}
    {past : List Event} {event : Event} (called : event.isCall = true) (lived : event.isLived = true)
    (left : omits event = false) (same : Tells omits past d.memory) :
    ∃ past', perform r ((d.recalling past).log event) = (perform r (d.log event)).recalling past' ∧
      Tells omits past' (perform r (d.log event)).memory := by
  have told := remainder_cons_of_call same called left
  rw [log_recalling, if_pos lived]
  have like : remainder omits (event :: past) = remainder omits (d.log event).memory := by
    simp only [log, if_pos lived, told]
  obtain ⟨past', performed, same⟩ := perform_recalling unaware like
  exact ⟨past', performed, congrArg Remainder.events same⟩

/-- Whoever only looks around at a call that is left out leaves no more behind than that. -/
theorem perform_of_onlyLooks {r : Reaction} (looks : r.OnlyLooks) {d : Desk}
    (omitted : (remainder omits d.memory).counts = false) :
    perform r d = { d with journal := (perform r d).journal, memory := (perform r d).memory } ∧
      remainder omits (perform r d).memory = remainder omits d.memory ∧
      (perform r d).journal.toList.filter Event.isOfHandlers =
        d.journal.toList.filter Event.isOfHandlers := by
  induction looks generalizing d with
  | done => exact ⟨rfl, rfl, rfl⟩
  | @look next _ ih =>
    have left := remainder_did_of_omitted omitted (.looked d.view.closed d.view.commands)
    obtain ⟨same, told, events⟩ :=
      ih d.view (d := d.log (.did (.looked d.view.closed d.view.commands)))
        ((congrArg Remainder.counts left).trans omitted)
    refine ⟨same, told.trans left, events.trans ?_⟩
    simp [log, Event.isOfHandlers]

end Desk

namespace Tracker

/-- The tracker, had handlers gone through something else. -/
def recalling (t : Tracker) (past : List Event) : Tracker :=
  { t with desk := t.desk.recalling past }

theorem settle_recalling (t : Tracker) (past : List Event) (m : Message) :
    (t.recalling past).settle m = (t.settle m).recalling past := by
  unfold settle settleResult
  split
  · split
    · rename_i state token _ _
      have commands : (t.recalling past).desk.commands = t.desk.commands := rfl
      rw [commands]
      split
      · unfold install
        split
        · split
          · rfl
          · rfl
        · rfl
      · rfl
    · rfl
  · rfl
  · rfl
  · rfl

variable {omits}

/-- A call that is not left out comes to the same, if who is called is unaware of those that are. -/
theorem call_recalling (t : Tracker) {c : Call} (unaware : c.Every (Reaction.Unaware omits))
    (left : ∀ event, c.event? = some event → omits event = false) {past : List Event}
    (same : Tells omits past t.desk.memory) :
    ∃ past', (t.recalling past).call c = (t.call c).recalling past' ∧
      Tells omits past' (t.call c).desk.memory := by
  cases c with
  | resume =>
    refine ⟨past, ?_, ?_⟩
    · have sent := congrArg Prod.snd (t.desk.send_recalling past "-exec-continue" .nothing none)
      exact congrArg (fun desk => { t with desk }) sent
    · have sent := t.desk.memory_send "-exec-continue" .nothing none
      exact same.trans (congrArg (fun past => (remainder omits past).events) sent.symm)
  | result token record react =>
    obtain ⟨past', performed, told⟩ :=
      Desk.perform_log_recalling (unaware token record) rfl rfl (left _ rfl) same
    exact ⟨past', congrArg (fun d => { t with desk := d.restoreOnResult token (.call react) })
      performed, told⟩
  | stop handler number args =>
    obtain ⟨past', performed, told⟩ :=
      Desk.perform_log_recalling (unaware number args) rfl rfl (left _ rfl) same
    exact ⟨past', congrArg (fun desk => { t with desk }) performed, told⟩
  | announce subscriber change =>
    obtain ⟨past', performed, told⟩ :=
      Desk.perform_log_recalling (unaware change) rfl rfl (left _ rfl) same
    exact ⟨past', congrArg (fun desk => { t with desk }) performed, told⟩
  | present subscriber m =>
    obtain ⟨past', performed, told⟩ :=
      Desk.perform_log_recalling unaware rfl rfl (left _ rfl) same
    exact ⟨past', congrArg (fun desk => { t with desk }) performed, told⟩
  | console token record handler =>
    cases handler with
    | collect => exact ⟨past, rfl, same⟩
    | call react =>
      obtain ⟨past', performed, told⟩ := Desk.perform_log_recalling (unaware token record)
        (d := t.desk.clearOnConsole token) rfl rfl (left _ rfl) same
      exact ⟨past', congrArg
        (fun d => { t with desk := d.restoreOnConsole token (.call react) }) performed, told⟩

theorem callAll_recalling (t : Tracker) {cs : List Call}
    (unaware : ∀ c ∈ cs, c.Every (Reaction.Unaware omits))
    (left : ∀ c ∈ cs, ∀ event, c.event? = some event → omits event = false) {past : List Event}
    (same : Tells omits past t.desk.memory) :
    ∃ past', (t.recalling past).callAll cs = (t.callAll cs).recalling past' ∧
      Tells omits past' (t.callAll cs).desk.memory := by
  induction cs generalizing t past with
  | nil => exact ⟨past, rfl, same⟩
  | cons c cs ih =>
    obtain ⟨first, unaware⟩ := List.forall_mem_cons.mp unaware
    obtain ⟨told, left⟩ := List.forall_mem_cons.mp left
    obtain ⟨past', called, same⟩ := t.call_recalling first told same
    obtain ⟨past'', rest, same⟩ := ih (t.call c) unaware left same
    refine ⟨past'', ?_, same⟩
    rw [← called] at rest
    exact rest

/-! ### Trackers that are alike -/

section Agrees
variable {counts counts' : Event → Bool} {t u : Tracker}

theorem Agrees.weaken (h : Agrees counts t u) (fewer : ∀ e, counts' e = true → counts e = true) :
    Agrees counts' t u := by
  have events : ∀ es : List Event, es.filter counts' = (es.filter counts).filter counts' := by
    intro es
    rw [List.filter_filter]
    refine List.filter_congr fun e _ => ?_
    cases hc : counts' e with
    | false => rfl
    | true => rw [fewer e hc, Bool.and_self]
  refine ⟨h.fresh, ?_⟩
  rw [events t.desk.journal.toList, events u.desk.journal.toList, h.events]

theorem Agrees.recalling (h : Agrees counts t u) (past : List Event) :
    Agrees counts (t.recalling past) (u.recalling past) :=
  h.congr (f := (Tracker.recalling · past)) fun _ _ => rfl

end Agrees

/-- The trackers differ only in their pasts, and there in nothing that is told of calls. -/
structure Alike (omits : Event → Bool) (t u : Tracker) : Prop where
  agrees : Agrees Event.isOfHandlers (t.recalling []) (u.recalling [])
  past : Tells omits t.desk.memory u.desk.memory

namespace Alike

variable {t u v : Tracker}

theorem refl (t : Tracker) : Alike omits t t := ⟨.refl _, rfl⟩

theorem symm (h : Alike omits t u) : Alike omits u t := ⟨h.agrees.symm, Eq.symm h.past⟩

theorem trans (h : Alike omits t u) (k : Alike omits u v) : Alike omits t v :=
  ⟨h.agrees.trans k.agrees, Eq.trans h.past k.past⟩

theorem of_agrees (h : Agrees Event.isOfHandlers t u) : Alike omits t u := by
  have memory : t.desk.memory = u.desk.memory := congrArg (·.desk.memory) h.fresh
  exact ⟨h.recalling [], congrArg (fun past => (remainder omits past).events) memory⟩

theorem of_calls (h : Agrees Event.isCall t u) : Alike omits t u :=
  .of_agrees (h.weaken fun e => by cases e <;> simp [Event.isOfHandlers, Event.isCall])

theorem recalling {past : List Event} (same : Tells omits past t.desk.memory) :
    Alike omits (t.recalling past) t := ⟨.refl _, same⟩

/-- The one is what the other would be with its past. -/
theorem agrees_recalling (h : Alike omits t u) :
    Agrees Event.isOfHandlers (t.recalling u.desk.memory) u :=
  h.agrees.recalling u.desk.memory

/-- What takes no notice of the past keeps trackers alike, if it leaves alone what handlers have
gone through. -/
theorem congr {f : Tracker → Tracker} (commutes : ∀ p t, f (after p t) = (f t).after p)
    (past : ∀ past t, f (Tracker.recalling t past) = (f t).recalling past)
    (kept : ∀ t, (f t).desk.memory = t.desk.memory) (h : Alike omits t u) :
    Alike omits (f t) (f u) := by
  have agrees := h.agrees.congr commutes
  rw [past, past] at agrees
  refine ⟨agrees, ?_⟩
  rw [kept, kept]
  exact h.past

theorem notice (h : Alike omits t u) (n : Notice) : Alike omits (t.notice n) (u.notice n) :=
  h.congr (f := (Tracker.notice · n)) (fun p t => t.notice_after p n) (fun _ _ => rfl)
    fun _ => rfl

/-- Alike trackers take a record alike, if all who are called for it are unaware of the calls left
out, and none of their calls is left out. -/
theorem take (h : Alike omits t u) {m : Message}
    (unaware : ∀ c ∈ t.callsOn m, c.Every (Reaction.Unaware omits))
    (left : ∀ c ∈ t.callsOn m, ∀ event, c.event? = some event → omits event = false) :
    Alike omits (t.take m) (u.take m) := by
  have told : Tells omits u.desk.memory (t.settle m).desk.memory := by
    obtain ⟨_, _, _, _, _, settled⟩ := t.settle_eq m
    rw [settled]
    exact Eq.symm h.past
  obtain ⟨past, called, same⟩ := (t.settle m).callAll_recalling unaware left told
  have other := (t.recalling u.desk.memory).agrees_take m
  have concerned : (t.recalling u.desk.memory).callsOn m = t.callsOn m := rfl
  rw [settle_recalling, concerned, called] at other
  have first : Alike omits (t.take m) ((t.settle m).callAll (t.callsOn m)) :=
    .of_calls (t.agrees_take m)
  have last : Alike omits ((t.recalling u.desk.memory).take m) (u.take m) :=
    .of_agrees (h.agrees_recalling.congr (f := (Tracker.take · m)) fun p t => t.take_after p m)
  exact ((first.trans (Alike.recalling same).symm).trans (Alike.of_calls other).symm).trans last

end Alike

/-- What a tracker shows of its handlers, of what was sent, and of all that it keeps. -/
def effects (t : Tracker) : Observation :=
  { t.observe with events := t.desk.journal.toList.filter Event.isOfHandlers }

theorem Alike.effects {t u : Tracker} (h : Alike omits t u) : t.effects = u.effects :=
  h.agrees.observe

end Tracker

end DebugLink

import DebugLink.Session.Tracker

/-! What taking a record can do to the desk. Whatever a record brings about, and whatever the
handlers and subscribers it calls do, comes down to a few doings, of which `Desk.Doings` is the
closure. A property of desks that each of them keeps is therefore kept by all of it. That the record
was received is noted before, so it is none of them. Where it does not matter that a request to stop
is noted when it is made, doings are told in looser terms, as moves. -/

namespace DebugLink

def Event.isReceipt : Event → Bool
  | .received _ => true
  | _ => false

/-- The event is neither the receipt of a record nor about a request to stop. -/
def Event.isPlain : Event → Bool
  | .received _ | .did .askedToStop | .noticed (.waitStopped _) => false
  | _ => true

theorem Event.isReceipt_of_isPlain {event : Event} (plain : event.isPlain = true) :
    event.isReceipt = false := by
  cases event with
  | received m => cases plain
  | _ => rfl

theorem Sink.write_of_unlimited {s : Sink} (h : s.remaining = none) (octets : Octets) :
    s.write octets = (none, s.append octets) := by
  simp [write, h]

namespace Desk

/-! ### The three ways a send can go -/

section send
variable {d : Desk} {text : String} {onResult : OnResult Reaction}
  {onConsole : Option (OnConsole Reaction)}

theorem send_of_closed (h : d.closed = true) :
    d.send text onResult onConsole = (.error .closed, d) := if_pos h

theorem send_of_write {sink : Sink} (h : d.closed = false)
    (hw : d.sink.write (Utf8.encode (commandLine d.nextToken text)) = (none, sink)) :
    d.send text onResult onConsole = (.ok d.nextToken, { d with
      issued := d.issued + 1
      sink
      commands := d.commands.insert d.nextToken ⟨text, .pending, onResult, onConsole⟩ }) := by
  rw [send, if_neg (by simp [h])]
  simp only [hw]

theorem send_of_failure {failure : SinkFailure} {sink : Sink} (h : d.closed = false)
    (hw : d.sink.write (Utf8.encode (commandLine d.nextToken text)) = (some failure, sink)) :
    d.send text onResult onConsole = (.error .closed, { d with
      issued := d.issued + 1
      sink
      commands := (d.commands.insert d.nextToken ⟨text, .pending, onResult, onConsole⟩).erase
        d.nextToken
      closed := true }.notice (.sendFailed d.nextToken text failure.message)) := by
  rw [send, if_neg (by simp [h])]
  simp only [hw]

/-- A command that has gone out leaves the connection there. -/
theorem opened_of_sent {token : Token} {e : Desk}
    (h : d.send text onResult onConsole = (.ok token, e)) : e.closed = false := by
  cases hc : d.closed with
  | true =>
    rw [send_of_closed hc] at h
    cases h
  | false =>
    cases hw : d.sink.write (Utf8.encode (commandLine d.nextToken text)) with
    | mk failure sink =>
      cases failure with
      | none =>
        rw [send_of_write hc hw] at h
        cases h
        exact hc
      | some failure =>
        rw [send_of_failure hc hw] at h
        cases h

end send

/-- What is done at a desk for a record, one thing after the other. -/
inductive Doings (d : Desk) : Desk → Prop
  | none : Doings d d
  | log {e : Desk} (event : Event) : Doings d e → event.isPlain = true → Doings d (e.log event)
  | send {e : Desk} (text : String) (onResult : OnResult Reaction)
      (onConsole : Option (OnConsole Reaction)) :
      Doings d e → Doings d (e.send text onResult onConsole).2
  | forget {e : Desk} (token : Token) : Doings d e → Doings d (e.forget token).2
  /-- A request to stop, and the note of it. -/
  | askToStop {e : Desk} : Doings d e → Doings d (e.requestStop.log (.did .askedToStop))
  /-- Something about a command in view changes, or about what is to happen with it. -/
  | revise {e : Desk} (token : Token) (f : Command → Command) :
      Doings d e → Doings d { e with commands := e.commands.modify token f }

theorem Doings.trans {d e f : Desk} (first : d.Doings e) (second : e.Doings f) : d.Doings f := by
  induction second with
  | none => exact first
  | log event _ plain ih => exact ih.log event plain
  | send text onResult onConsole _ ih => exact ih.send text onResult onConsole
  | forget token _ ih => exact ih.forget token
  | askToStop _ ih => exact ih.askToStop
  | revise token f _ ih => exact ih.revise token f

/-- Some moves of a desk, one after the other. -/
inductive Moves (d : Desk) : Desk → Prop
  | none : Moves d d
  | log {e : Desk} (event : Event) :
      Moves d e → event.isReceipt = false → Moves d (e.log event)
  | send {e : Desk} (text : String) (onResult : OnResult Reaction)
      (onConsole : Option (OnConsole Reaction)) :
      Moves d e → Moves d (e.send text onResult onConsole).2
  | forget {e : Desk} (token : Token) : Moves d e → Moves d (e.forget token).2
  | requestStop {e : Desk} : Moves d e → Moves d e.requestStop
  /-- Something about a command in view changes, or about what is to happen with it. -/
  | revise {e : Desk} (token : Token) (f : Command → Command) :
      Moves d e → Moves d { e with commands := e.commands.modify token f }

theorem Moves.trans {d e f : Desk} (first : Moves d e) (second : Moves e f) : Moves d f := by
  induction second with
  | none => exact first
  | log event _ quiet ih => exact ih.log event quiet
  | send text onResult onConsole _ ih => exact ih.send text onResult onConsole
  | forget token _ ih => exact ih.forget token
  | requestStop _ ih => exact ih.requestStop
  | revise token f _ ih => exact ih.revise token f

theorem Doings.moves {d e : Desk} (doings : d.Doings e) : d.Moves e := by
  induction doings with
  | none => exact .none
  | log event _ plain ih => exact ih.log event (Event.isReceipt_of_isPlain plain)
  | send text onResult onConsole _ ih => exact ih.send text onResult onConsole
  | forget token _ ih => exact ih.forget token
  | askToStop _ ih => exact ih.requestStop.log _ rfl
  | revise token f _ ih => exact ih.revise token f

/-! ### Reactions, step by step -/

section steps
variable {text : String} {onResult : OnResult Reaction} {onConsole : Option (OnConsole Reaction)}
  {token : Token} {d : Desk}

theorem perform_send {next : Except LinkError Token → Reaction} :
    perform (.send text onResult onConsole next) d =
      perform (next (d.send text onResult onConsole).1)
        ((d.send text onResult onConsole).2.log
          (.did (.sent (d.send text onResult onConsole).1))) := rfl

theorem perform_forget {next : Bool → Reaction} :
    perform (.forget token next) d =
      perform (next (d.forget token).1)
        ((d.forget token).2.log (.did (.forgot (d.forget token).1))) := rfl

theorem perform_stop {next : Reaction} :
    perform (.stop next) d = perform next (d.requestStop.log (.did .askedToStop)) := rfl

theorem perform_look {next : View → Reaction} :
    perform (.look next) d =
      perform (next d.view) (d.log (.did (.looked d.view.closed d.view.commands))) := rfl

end steps

/-- What holds at the end of a reaction holds at its beginning if each step takes it there, from the
desk that it leaves. -/
theorem perform_induction {motive : Reaction → Desk → Prop} (done : ∀ d, motive .done d)
    (send : ∀ text onResult onConsole next d,
      motive (next (d.send text onResult onConsole).1)
        ((d.send text onResult onConsole).2.log (.did (.sent (d.send text onResult onConsole).1))) →
      motive (.send text onResult onConsole next) d)
    (forget : ∀ token next d,
      motive (next (d.forget token).1)
        ((d.forget token).2.log (.did (.forgot (d.forget token).1))) →
      motive (.forget token next) d)
    (stop : ∀ next d, motive next (d.requestStop.log (.did .askedToStop)) → motive (.stop next) d)
    (look : ∀ next d,
      motive (next d.view) (d.log (.did (.looked d.view.closed d.view.commands))) →
      motive (.look next) d)
    (r : Reaction) (d : Desk) : motive r d := by
  induction r, d using perform.induct with
  | case1 d => exact done d
  | case2 text onResult onConsole next d outcome e hs ih =>
    refine send text onResult onConsole next d ?_
    rw [hs]
    exact ih
  | case3 token next d tracked e hf ih =>
    refine forget token next d ?_
    rw [hf]
    exact ih
  | case4 next d ih => exact stop next d ih
  | case5 next d ih => exact look next d ih

theorem doings_perform (r : Reaction) (d : Desk) : d.Doings (perform r d) := by
  induction r, d using perform_induction with
  | done d => exact .none
  | send text onResult onConsole next d ih =>
    exact ((Doings.none.send text onResult onConsole).log _ rfl).trans ih
  | forget token next d ih => exact ((Doings.none.forget token).log _ rfl).trans ih
  | stop next d ih => exact Doings.none.askToStop.trans ih
  | look next d ih => exact (Doings.none.log _ rfl).trans ih

end Desk

namespace Tracker

theorem doings_log (t : Tracker) {event : Event} (plain : event.isPlain = true) :
    t.desk.Doings (t.log event).desk := Desk.Doings.none.log event plain

theorem doings_perform (t : Tracker) (r : Reaction) : t.desk.Doings (t.perform r).desk :=
  Desk.doings_perform r t.desk

/-- Going through a list comes to what its steps come to, one after the other. -/
theorem foldl_desk {α : Type} {R : Desk → Desk → Prop} (none : ∀ d, R d d)
    (trans : ∀ {d e f : Desk}, R d e → R e f → R d f) {f : Tracker → α → Tracker} (xs : List α)
    (step : ∀ (t : Tracker) (x : α), R t.desk (f t x).desk) (t : Tracker) :
    R t.desk (xs.foldl f t).desk := by
  induction xs generalizing t with
  | nil => exact none t.desk
  | cons x xs ih => exact trans (step t x) (ih (f t x))

theorem doings_foldl {α : Type} {f : Tracker → α → Tracker} (xs : List α)
    (step : ∀ (t : Tracker) (x : α), t.desk.Doings (f t x).desk) (t : Tracker) :
    t.desk.Doings (xs.foldl f t).desk :=
  foldl_desk (R := Desk.Doings) (fun _ => .none) Desk.Doings.trans xs step t

theorem doings_announce (t : Tracker) (change : Change) :
    t.desk.Doings (t.announce change).desk :=
  doings_foldl _ (fun t _ => (t.doings_log rfl).trans (doings_perform _ _)) t

theorem doings_mergeBreakpoint (t : Tracker) (info : Fields) :
    t.desk.Doings (t.mergeBreakpoint info).2.desk := by
  unfold mergeBreakpoint
  split
  · exact .none
  · rename_i b breakpoints _
    exact doings_announce { t with breakpoints } (.breakpoint b)

theorem doings_updateThreadGroup (t : Tracker)
    (update : Except LinkError (ThreadGroup × ThreadGroupTable)) :
    t.desk.Doings (t.updateThreadGroup update).2.desk := by
  unfold updateThreadGroup
  split
  · exact .none
  · rename_i g threadGroups
    exact doings_announce { t with threadGroups } (.threadGroup g)

theorem doings_installHandler (t : Tracker) (token : Token) (record : Record)
    (handler : Option (StopHandler Reaction)) :
    t.desk.Doings (t.installHandler token record handler).2.desk := by
  unfold installHandler
  split
  · exact t.doings_log rfl
  · split
    · exact .none
    · exact .none

theorem doings_handResult (t : Tracker) (token : Token) (record : Record)
    (react : Token → Record → Reaction) :
    t.desk.Doings (t.handResult token record react).desk :=
  ((t.doings_log rfl).trans (doings_perform _ _)).revise token _

theorem doings_followResult (t : Tracker) (token : Token) (record : Record)
    (onResult : OnResult Reaction) :
    t.desk.Doings (t.followResult token record onResult).2.desk := by
  cases onResult with
  | nothing => exact .none
  | call react => exact t.doings_handResult token record react
  | install handler => exact t.doings_installHandler token record handler

theorem doings_mergeResult (record : Record) (verdict : Verdict) (t : Tracker) :
    t.desk.Doings (mergeResult record (verdict, t)).2.desk := by
  simp only [mergeResult]
  split
  · rename_i info _
    have merged := t.doings_mergeBreakpoint info
    split
    · rename_i h
      rw [h] at merged
      exact merged
    · rename_i h
      rw [h] at merged
      exact merged
  · exact .none

theorem doings_onResult (t : Tracker) (token : Option Token) (record : Record) :
    t.desk.Doings (t.onResult token record).2.desk := by
  unfold onResult
  split
  · exact .none
  · rename_i state _
    split
    · exact .none
    · rename_i token
      split
      · exact .none
      · rename_i command _
        have moved : t.desk.Doings ((t.desk.setState token state).clearOnResult token) :=
          (Desk.Doings.none.revise token _).revise token _
        have followed := doings_followResult
          { t with desk := (t.desk.setState token state).clearOnResult token } token record
          command.onResult
        exact (moved.trans followed).trans (doings_mergeResult record _ _)

theorem doings_handStop (t : Tracker) (number : String) (args : Fields) :
    t.desk.Doings (t.handStop number args).2.desk := by
  unfold handStop
  split
  · exact .none
  · split
    · exact .none
    · exact (t.doings_log rfl).trans (doings_perform _ _)

theorem doings_resumeAfter (t : Tracker) (number : String) :
    t.desk.Doings (t.resumeAfter number).desk := by
  have sent := Desk.Doings.none (d := t.desk) |>.send "-exec-continue" .nothing none
  unfold resumeAfter
  split
  · split
    · rename_i h
      rw [Desk.resume, Desk.sendPlain] at h
      rw [h] at sent
      exact sent
    · rename_i h
      rw [Desk.resume, Desk.sendPlain] at h
      rw [h] at sent
      exact sent.log _ rfl
  · exact .none

theorem doings_onExec (t : Tracker) (record : Record) :
    t.desk.Doings (t.onExec record).2.desk := by
  unfold onExec
  dsimp only
  split
  · split
    · exact .none
    · rename_i number _
      have handed := doings_handStop { t with execState := some (ExecState.ofText record.what) }
        number record.args
      exact handed.trans (doings_resumeAfter _ number)
  · exact .none

theorem doings_onNotify (t : Tracker) (record : Record) :
    t.desk.Doings (t.onNotify record).2.desk := by
  unfold onNotify
  split
  · exact t.doings_updateThreadGroup _
  · split
    · split
      · exact t.doings_mergeBreakpoint _
      · exact .none
    · exact .none

theorem doings_handConsole (t : Tracker) (token : Token) (record : Record)
    (handler : OnConsole Reaction) :
    t.desk.Doings (t.handConsole token record handler).desk := by
  have taken : t.desk.Doings (t.desk.clearOnConsole token) := Desk.Doings.none.revise token _
  cases handler with
  | call react =>
    have logged := taken.log (.console token record) rfl
    exact (logged.trans (Desk.doings_perform (react token record) _)).revise token _
  | collect => exact (taken.log (.collected token record.what) rfl).revise token _

theorem doings_onConsole (t : Tracker) (record : Record) :
    t.desk.Doings (t.onConsole record).desk := by
  unfold onConsole
  split
  · exact t.doings_log rfl
  · split
    · exact t.doings_log rfl
    · exact t.doings_handConsole _ _ _

theorem doings_apply (t : Tracker) (m : Message) : t.desk.Doings (t.apply m).2.desk := by
  unfold apply
  split
  · exact t.doings_onResult _ _
  · exact t.doings_onExec _
  · exact t.doings_onNotify _
  · exact t.doings_onConsole _
  · exact .none
  · exact t.doings_log rfl
  · exact t.doings_log rfl
  · exact t.doings_log rfl

theorem doings_dispatch (t : Tracker) (m : Message) : t.desk.Doings (t.dispatch m).desk := by
  have applied := t.doings_apply m
  unfold dispatch
  split
  · rename_i h
    rw [h] at applied
    exact applied
  · rename_i h
    rw [h] at applied
    exact applied.trans (doings_log _ rfl)
  · rename_i h
    rw [h] at applied
    exact applied.trans (doings_log _ rfl)

theorem doings_present (t : Tracker) (m : Message) : t.desk.Doings (t.present m).desk := by
  refine doings_foldl _ (fun t s => ?_) t
  split
  · exact (t.doings_log rfl).trans (doings_perform _ _)
  · exact .none

/-- All that follows from a record once it was received. -/
theorem doings_take (t : Tracker) (m : Message) :
    (t.desk.log (.received m)).Doings (t.take m).desk :=
  (doings_dispatch (t.log (.received m)) m).trans (doings_present _ m)

end Tracker

/-! ### What moves keep -/

namespace Desk

/-- The connection is there, and no write will end it. -/
structure Steady (d : Desk) : Prop where
  opened : d.closed = false
  unlimited : d.sink.remaining = none

/-- A sink without limit stays such, and the connection is not ended by writing to it. -/
theorem Moves.unlimited {d e : Desk} (moves : d.Moves e) (h : d.sink.remaining = .none) :
    e.sink.remaining = .none ∧ e.closed = d.closed := by
  induction moves with
  | none => exact ⟨h, rfl⟩
  | @send e text onResult onConsole _ ih =>
    obtain ⟨unlimited, same⟩ := ih
    cases hc : e.closed with
    | true =>
      rw [send_of_closed hc]
      exact ⟨unlimited, same⟩
    | false =>
      rw [send_of_write hc (Sink.write_of_unlimited unlimited _)]
      exact ⟨unlimited, same⟩
  | log _ _ _ ih | forget _ _ ih | requestStop _ ih | revise _ _ _ ih => exact ih

end Desk

/-- The records among some events that were received. -/
def received (journal : Array Event) : List Message :=
  journal.toList.filterMap fun
    | .received m => some m
    | _ => none

theorem received_push (journal : Array Event) (m : Message) :
    received (journal.push (.received m)) = received journal ++ [m] := by
  simp [received]

theorem received_push_of_quiet (journal : Array Event) {event : Event}
    (quiet : event.isReceipt = false) : received (journal.push event) = received journal := by
  cases event with
  | received m => cases quiet
  | _ => simp [received]

namespace Desk

theorem received_send (d : Desk) (text : String) (onResult : OnResult Reaction)
    (onConsole : Option (OnConsole Reaction)) :
    received (d.send text onResult onConsole).2.journal = received d.journal := by
  cases hc : d.closed with
  | true => rw [send_of_closed hc]
  | false =>
    cases hw : d.sink.write (Utf8.encode (commandLine d.nextToken text)) with
    | mk failure sink =>
      cases failure with
      | none => rw [send_of_write hc hw]
      | some failure =>
        rw [send_of_failure hc hw]
        exact received_push_of_quiet _ rfl

/-- No record is received in the middle of taking another. -/
theorem Moves.received {d e : Desk} (moves : d.Moves e) :
    received e.journal = received d.journal := by
  induction moves with
  | none => rfl
  | log _ _ quiet ih => exact (received_push_of_quiet _ quiet).trans ih
  | send text onResult onConsole _ ih =>
    exact (received_send _ text onResult onConsole).trans ih
  | forget _ _ ih | requestStop _ ih | revise _ _ _ ih => exact ih

end Desk

end DebugLink

import DebugLink.Proofs.Session.Moves

/-! What a tracker takes no notice of. Its journal is written and never read, a request to stop is
for waits to look at, and the size of reads is for reading. With another past in these three, a
tracker therefore does the same: every operation commutes with putting a past before it. What
handlers have gone through is none of this, since they can go by it. The equations go from the
operations of the desk up to whole lines. -/

namespace DebugLink

/-- What may have happened before, as far as no operation depends on it. -/
structure Past where
  journal : Array Event
  stopRequested : Bool
  chunkSize : Nat

variable (p : Past)

namespace Desk

def after (d : Desk) : Desk :=
  { d with journal := p.journal ++ d.journal, stopRequested := p.stopRequested || d.stopRequested }

theorem log_after (d : Desk) (e : Event) : (d.after p).log e = (d.log e).after p := by
  simp [log, after]

theorem send_after (d : Desk) (text : String) (onResult : OnResult Reaction)
    (onConsole : Option (OnConsole Reaction)) :
    (d.after p).send text onResult onConsole =
      ((d.send text onResult onConsole).1, (d.send text onResult onConsole).2.after p) := by
  cases hc : d.closed with
  | true =>
    have closed : (d.after p).closed = true := hc
    rw [send_of_closed hc, send_of_closed closed]
  | false =>
    have opened : (d.after p).closed = false := hc
    cases hw : d.sink.write (Utf8.encode (commandLine d.nextToken text)) with
    | mk failure sink =>
      cases failure with
      | none =>
        rw [send_of_write hc hw, send_of_write opened hw]
        rfl
      | some failure =>
        rw [send_of_failure hc hw, send_of_failure opened hw, notice, notice, ← log_after]
        rfl

theorem requestStop_after (d : Desk) : (d.after p).requestStop = d.requestStop.after p := by
  simp [requestStop, after]

theorem perform_after (r : Reaction) (d : Desk) :
    perform r (d.after p) = (perform r d).after p := by
  induction r, d using perform_induction with
  | done d => rfl
  | send text onResult onConsole next d ih =>
    rw [perform_send, perform_send, send_after, log_after, ih]
  | forget token next d ih =>
    have forgot : (d.after p).forget token = ((d.forget token).1, (d.forget token).2.after p) := rfl
    rw [perform_forget, perform_forget, forgot, log_after, ih]
  | stop next d ih => rw [perform_stop, perform_stop, requestStop_after, log_after, ih]
  | look next d ih =>
    have seen : (d.after p).view = d.view := rfl
    rw [perform_look, perform_look, seen, log_after, ih]

end Desk

namespace Tracker

def after (t : Tracker) : Tracker :=
  { t with desk := t.desk.after p, settings := { t.settings with chunkSize := p.chunkSize } }

/-- Goes on from a tracker with the same past before it. -/
def resultAfter (r : Verdict × Tracker) : Verdict × Tracker := (r.1, r.2.after p)

theorem log_after (t : Tracker) (e : Event) : (t.after p).log e = (t.log e).after p :=
  congrArg (fun desk => { t.after p with desk }) (t.desk.log_after p e)

theorem notice_after (t : Tracker) (n : Notice) : (t.after p).notice n = (t.notice n).after p :=
  t.log_after p _

theorem perform_after (t : Tracker) (r : Reaction) :
    (t.after p).perform r = (t.perform r).after p :=
  congrArg (fun desk => { t.after p with desk }) (Desk.perform_after p r t.desk)

theorem foldl_after {α : Type} {f : Tracker → α → Tracker} (xs : List α)
    (step : ∀ t x, f (after p t) x = (f t x).after p) (t : Tracker) :
    xs.foldl f (t.after p) = (xs.foldl f t).after p := by
  induction xs generalizing t with
  | nil => rfl
  | cons x xs ih => rw [List.foldl_cons, List.foldl_cons, step, ih]

theorem announce_after (t : Tracker) (change : Change) :
    (t.after p).announce change = (t.announce change).after p := by
  refine foldl_after p _ (fun t _ => ?_) t
  rw [log_after, perform_after]

theorem mergeBreakpoint_after (t : Tracker) (info : Fields) :
    (t.after p).mergeBreakpoint info = resultAfter p (t.mergeBreakpoint info) := by
  have table : (t.after p).breakpoints = t.breakpoints := rfl
  unfold mergeBreakpoint
  rw [table]
  split
  · rfl
  · rename_i b breakpoints _
    exact congrArg (Prod.mk _) (announce_after p { t with breakpoints } (.breakpoint b))

theorem updateThreadGroup_after (t : Tracker)
    (update : Except LinkError (ThreadGroup × ThreadGroupTable)) :
    (t.after p).updateThreadGroup update = resultAfter p (t.updateThreadGroup update) := by
  unfold updateThreadGroup
  split
  · rfl
  · rename_i g threadGroups
    exact congrArg (Prod.mk _) (announce_after p { t with threadGroups } (.threadGroup g))

theorem installHandler_after (t : Tracker) (token : Token) (record : Record)
    (handler : Option (StopHandler Reaction)) :
    (t.after p).installHandler token record handler =
      resultAfter p (t.installHandler token record handler) := by
  unfold installHandler
  split
  · exact congrArg (Prod.mk _) (notice_after p t _)
  · split
    · rfl
    · rfl

theorem handResult_after (t : Tracker) (token : Token) (record : Record)
    (react : Token → Record → Reaction) :
    (t.after p).handResult token record react = (t.handResult token record react).after p := by
  simp only [handResult]
  rw [log_after, perform_after]
  rfl

theorem followResult_after (t : Tracker) (token : Token) (record : Record)
    (onResult : OnResult Reaction) :
    (t.after p).followResult token record onResult =
      resultAfter p (t.followResult token record onResult) := by
  cases onResult with
  | nothing => rfl
  | call react => exact congrArg (Prod.mk _) (handResult_after p t token record react)
  | install handler => exact installHandler_after p t token record handler

theorem mergeResult_after (record : Record) (r : Verdict × Tracker) :
    mergeResult record (resultAfter p r) = resultAfter p (mergeResult record r) := by
  obtain ⟨verdict, t⟩ := r
  simp only [mergeResult, resultAfter]
  split
  · rename_i info _
    rw [mergeBreakpoint_after]
    cases t.mergeBreakpoint info with
    | mk merged t => cases merged <;> rfl
  · rfl

theorem onResult_after (t : Tracker) (token : Option Token) (record : Record) :
    (t.after p).onResult token record = resultAfter p (t.onResult token record) := by
  have commands : (t.after p).desk.commands = t.desk.commands := rfl
  unfold onResult
  rw [commands]
  split
  · rfl
  · rename_i state _
    split
    · rfl
    · rename_i token
      split
      · rfl
      · rename_i command _
        have followed := followResult_after p
          { t with desk := (t.desk.setState token state).clearOnResult token } token record
          command.onResult
        rw [← mergeResult_after, ← followed]
        rfl

theorem handStop_after (t : Tracker) (number : String) (args : Fields) :
    (t.after p).handStop number args = resultAfter p (t.handStop number args) := by
  have handlers : (t.after p).stopHandlers = t.stopHandlers := rfl
  unfold handStop
  rw [handlers]
  split
  · rfl
  · split
    · rfl
    · simp only [resultAfter]
      rw [log_after, perform_after]

theorem resumeAfter_after (t : Tracker) (number : String) :
    (t.after p).resumeAfter number = (t.resumeAfter number).after p := by
  have sent : (t.after p).desk.resume = (t.desk.resume.1, t.desk.resume.2.after p) :=
    t.desk.send_after p _ _ _
  have due : ((t.after p).settings.resumes && !(t.after p).desk.closed) =
      (t.settings.resumes && !t.desk.closed) := rfl
  unfold resumeAfter
  rw [due, sent]
  split
  · cases t.desk.resume with
    | mk outcome desk =>
      cases outcome with
      | ok token => rfl
      | error e => exact notice_after p { t with desk } _
  · rfl

theorem onExec_after (t : Tracker) (record : Record) :
    (t.after p).onExec record = resultAfter p (t.onExec record) := by
  unfold onExec
  dsimp only
  split
  · split
    · rfl
    · rename_i number _
      have handed := handStop_after p
        { t with execState := some (ExecState.ofText record.what) } number record.args
      have start : ({ t.after p with execState := some (ExecState.ofText record.what) } : Tracker) =
          after p { t with execState := some (ExecState.ofText record.what) } := rfl
      rw [start, handed]
      exact congrArg (Prod.mk _) (resumeAfter_after p _ number)
  · rfl

theorem onNotify_after (t : Tracker) (record : Record) :
    (t.after p).onNotify record = resultAfter p (t.onNotify record) := by
  have groups : (t.after p).threadGroups = t.threadGroups := rfl
  unfold onNotify
  rw [groups]
  split
  · exact t.updateThreadGroup_after p _
  · split
    · split
      · exact t.mergeBreakpoint_after p _
      · rfl
    · rfl

theorem handConsole_after (t : Tracker) (token : Token) (record : Record)
    (handler : OnConsole Reaction) :
    (t.after p).handConsole token record handler =
      (t.handConsole token record handler).after p := by
  have taken : ({ t.after p with desk := (t.after p).desk.clearOnConsole token } : Tracker) =
      after p { t with desk := t.desk.clearOnConsole token } := rfl
  cases handler with
  | call react =>
    simp only [handConsole]
    rw [taken, log_after, perform_after]
    rfl
  | collect =>
    simp only [handConsole]
    rw [taken, log_after]
    rfl

theorem onConsole_after (t : Tracker) (record : Record) :
    (t.after p).onConsole record = (t.onConsole record).after p := by
  have commands : (t.after p).desk.commands = t.desk.commands := rfl
  unfold onConsole
  rw [commands]
  split
  · exact t.notice_after p _
  · split
    · exact t.notice_after p _
    · exact t.handConsole_after p _ _ _

theorem apply_after (t : Tracker) (m : Message) :
    (t.after p).apply m = resultAfter p (t.apply m) := by
  unfold apply
  split
  · exact t.onResult_after p _ _
  · exact t.onExec_after p _
  · exact t.onNotify_after p _
  · exact congrArg (Prod.mk _) (t.onConsole_after p _)
  · rfl
  · exact congrArg (Prod.mk _) (t.notice_after p _)
  · exact congrArg (Prod.mk _) (t.notice_after p _)
  · exact congrArg (Prod.mk _) (t.notice_after p _)

theorem dispatch_after (t : Tracker) (m : Message) :
    (t.after p).dispatch m = (t.dispatch m).after p := by
  unfold dispatch
  rw [apply_after]
  cases t.apply m with
  | mk verdict t =>
    cases verdict with
    | handled => rfl
    | ignored => exact t.notice_after p _
    | failed e => exact t.notice_after p _

theorem present_after (t : Tracker) (m : Message) :
    (t.after p).present m = (t.present m).after p := by
  refine foldl_after p _ (fun t s => ?_) t
  split
  · rw [log_after, perform_after]
  · rfl

theorem take_after (t : Tracker) (m : Message) : (t.after p).take m = (t.take m).after p := by
  rw [take, log_after, dispatch_after, present_after]
  rfl

theorem takeLine_after (t : Tracker) (line : String) :
    (t.after p).takeLine line = ((t.takeLine line).1, (t.takeLine line).2.after p) := by
  unfold takeLine
  split
  · rfl
  · split
    · exact congrArg (Prod.mk _) (t.notice_after p _)
    · exact congrArg (Prod.mk _) (t.take_after p _)

end Tracker

end DebugLink

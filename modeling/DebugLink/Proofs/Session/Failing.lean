import DebugLink.Proofs.Session.Answers
import DebugLink.Proofs.Session.Closing
import DebugLink.Proofs.Session.Console
import DebugLink.Proofs.Session.Resuming

/-! What a send costs that fails. The command comes into view before it is written and is taken out
of view when that fails. As long as tokens last its token is new, because tokens in view were given
before (`Numbered`), so the table ends up as it was: a token is spent and the connection is over,
and that is all (`Desk.Breaks`). This holds wherever something is sent, since whatever somebody does
who is called passes through desks to which the desk before has moved. -/

namespace DebugLink

open LineBuffer (completeLines)

namespace Desk

variable {d e : Desk} {text : String}

/-! ### A send that fails -/

/-- There is a token for the command, but it cannot be written, which is the end of the connection.
The token is spent, what went out has gone out, and there is a notice; nothing else changes. -/
inductive Breaks (d : Desk) (text : String) : Desk → Prop
  | intro (failure : SinkFailure) (sink : Sink) :
      d.issued + 1 < UInt64.size →
      d.closed = false →
      d.sink.write (Utf8.encode (commandLine d.nextToken text)) = (some failure, sink) →
      Breaks d text ({ d with
        issued := d.issued + 1
        sink
        closed := true }.notice (.sendFailed d.nextToken text failure.message))

theorem Breaks.closed (breaks : d.Breaks text e) : e.closed = true := by
  cases breaks
  rfl

/-- A sink that is good for no more writes lets every command fail. -/
theorem exists_breaks (few : d.issued + 1 < UInt64.size) (opened : d.closed = false)
    (exhausted : d.sink.remaining = some 0) (text : String) : ∃ e, d.Breaks text e := by
  have failing : ∀ octets, ∃ failure sink, d.sink.write octets = (some failure, sink) := by
    intro octets
    unfold Sink.write
    rw [exhausted]
    cases d.sink.failure <;> exact ⟨_, _, rfl⟩
  obtain ⟨failure, sink, failed⟩ := failing (Utf8.encode (commandLine d.nextToken text))
  exact ⟨_, .intro failure sink few opened failed⟩

theorem Numbered.find?_next (numbered : d.Numbered) (few : d.issued + 1 < UInt64.size) :
    d.commands.find? d.nextToken = none := by
  cases hf : d.commands.find? d.nextToken with
  | none => rfl
  | some command => exact absurd rfl (nextToken_ne (numbered.number_le hf) few)

theorem Numbered.send_of_breaks (numbered : d.Numbered) (breaks : d.Breaks text e)
    (onResult : OnResult Reaction) (onConsole : Option (OnConsole Reaction)) :
    d.send text onResult onConsole = (.error .closed, e) := by
  cases breaks with
  | intro failure sink few opened failed =>
    have new := numbered.find?_next few
    rw [send_of_failure opened failed, Dict.erase_insert_of_find?_none new]

/-! ### Where something is sent -/

theorem Numbered.send (numbered : d.Numbered) (text : String) (onResult : OnResult Reaction)
    (onConsole : Option (OnConsole Reaction)) :
    (d.send text onResult onConsole).2.Numbered := by
  have inserted : ∀ token,
      (d.commands.insert d.nextToken ⟨text, .pending, onResult, onConsole⟩).contains token = true →
        token.number ≤ d.issued + 1 := by
    intro token there
    by_cases new : token = d.nextToken
    · exact new ▸ Nat.mod_le _ _
    · rw [Dict.contains, Dict.find?_insert, if_neg new] at there
      exact Nat.le_succ_of_le (numbered token there)
  have sent := Ledger.sends [] none d text onResult onConsole
  generalize d.send text onResult onConsole = outcome,
    Ledger.sending [] none d text onResult onConsole = l at sent ⊢
  cases sent with
  | refused _ => exact numbered
  | went sink _ _ => exact inserted
  | failed failure sink _ _ => exact fun token there => inserted token (Dict.contains_of_erase there)

theorem Moves.numbered (moves : d.Moves e) (numbered : d.Numbered) : e.Numbered := by
  induction moves with
  | none => exact numbered
  | log _ _ _ ih | requestStop _ ih => exact ih
  | send text onResult onConsole _ ih => exact ih.send text onResult onConsole
  | forget _ _ ih => exact fun token there => ih token (Dict.contains_of_erase there)
  | revise k f _ ih =>
    intro token there
    rw [Dict.contains_modify] at there
    exact ih token there

/-- While somebody does what he does, `rest` is still to be done at the desk `e`. -/
inductive Arrives (r : Reaction) (d : Desk) : Reaction → Desk → Prop
  | start : Arrives r d r d
  | send {e : Desk} {text : String} {onResult : OnResult Reaction}
      {onConsole : Option (OnConsole Reaction)} {next : Except LinkError Token → Reaction} :
      Arrives r d (.send text onResult onConsole next) e →
      Arrives r d (next (e.send text onResult onConsole).1)
        ((e.send text onResult onConsole).2.log (.did (.sent (e.send text onResult onConsole).1)))
  | forget {e : Desk} {token : Token} {next : Bool → Reaction} :
      Arrives r d (.forget token next) e →
      Arrives r d (next (e.forget token).1)
        ((e.forget token).2.log (.did (.forgot (e.forget token).1)))
  | stop {e : Desk} {next : Reaction} :
      Arrives r d (.stop next) e → Arrives r d next (e.requestStop.log (.did .askedToStop))
  | look {e : Desk} {next : View → Reaction} :
      Arrives r d (.look next) e →
      Arrives r d (next e.view) (e.log (.did (.looked e.view.closed e.view.commands)))

theorem Arrives.perform_eq {r rest : Reaction} (arrives : d.Arrives r rest e) :
    perform r d = perform rest e := by
  induction arrives with
  | start => rfl
  | send _ ih => exact ih
  | forget _ ih => exact ih
  | stop _ ih => exact ih
  | look _ ih => exact ih

theorem Arrives.moves {r rest : Reaction} (arrives : d.Arrives r rest e) : d.Moves e := by
  induction arrives with
  | start => exact .none
  | send _ ih => exact (ih.send _ _ _).log _ rfl
  | forget _ ih => exact (ih.forget _).log _ rfl
  | stop _ ih => exact ih.requestStop.log _ rfl
  | look _ ih => exact ih.log _ rfl

/-- A send that fails has no other effect, be it the whole of what is done at the desk or some part
of what somebody does who is called. He is told of the failure and goes on from there. -/
structure Atomic (d : Desk) : Prop where
  send {text : String} {e : Desk} (onResult : OnResult Reaction)
    (onConsole : Option (OnConsole Reaction)) :
    d.Breaks text e → d.send text onResult onConsole = (.error .closed, e)
  perform {r : Reaction} {text : String} {onResult : OnResult Reaction}
    {onConsole : Option (OnConsole Reaction)} {next : Except LinkError Token → Reaction}
    {e f : Desk} :
    d.Arrives r (.send text onResult onConsole next) e → e.Breaks text f →
      e.send text onResult onConsole = (.error .closed, f) ∧
        perform r d = perform (next (.error .closed)) (f.log (.did (.sent (.error .closed))))

theorem Numbered.atomic (numbered : d.Numbered) : d.Atomic where
  send onResult onConsole breaks := numbered.send_of_breaks breaks onResult onConsole
  perform {r text onResult onConsole next e f} arrives breaks := by
    have failed := (arrives.moves.numbered numbered).send_of_breaks breaks onResult onConsole
    refine ⟨failed, ?_⟩
    rw [arrives.perform_eq, perform, failed]

end Desk

/-! ### What a session is left with -/

namespace Session

variable {s : Session}

/-- Whatever is tried of what sends a command, if the command cannot be written the caller is told
that the connection is over, and the session is as before but for its desk, where a token is spent.
Nor is it started then. -/
structure Atomic (s : Session) : Prop where
  send {text : String} {d : Desk} (onResult : OnResult Reaction)
    (onConsole : Option (OnConsole Reaction)) :
    s.desk.Breaks text d →
      s.atDesk (·.send text onResult onConsole) = (.error .closed, s.withDesk d)
  addBreakpoint {location : String} {d : Desk} (handler : Option (StopHandler Reaction)) :
    s.desk.Breaks ("-break-insert " ++ location) d →
      s.atDesk (·.addBreakpoint location handler) = (.error .closed, s.withDesk d)
  insertBreakpoint {location : String} {d : Desk} (onResult : OnResult Reaction) :
    s.desk.Breaks ("-break-insert " ++ location) d →
      s.atDesk (·.insertBreakpoint location onResult) = (.error .closed, s.withDesk d)
  resume {d : Desk} (onResult : OnResult Reaction) :
    s.desk.Breaks "-exec-continue" d →
      s.atDesk (·.resume onResult) = (.error .closed, s.withDesk d)
  run {d : Desk} (onResult : OnResult Reaction) :
    s.desk.Breaks "-exec-run" d → s.atDesk (·.run onResult) = (.error .closed, s.withDesk d)
  finish {d : Desk} (value : Option String) (onResult : OnResult Reaction) :
    s.desk.Breaks ((value.map ("-exec-return " ++ ·)).getD "-exec-return") d →
      s.atDesk (·.finish value onResult) = (.error .closed, s.withDesk d)
  interrupt {d : Desk} (onResult : OnResult Reaction) :
    s.desk.Breaks "-exec-interrupt" d →
      s.atDesk (·.interrupt onResult) = (.error .closed, s.withDesk d)
  request {r : Request} {d : Desk} (onResult : OnResult Reaction) :
    s.desk.Breaks r.text d → s.atDesk (·.request r onResult) = (.error .closed, s.withDesk d)
  useTerminal {path : String} {d : Desk} :
    s.desk.Breaks ("-inferior-tty-set " ++ path) d →
      s.useTerminal path = (.error .closed, s.withDesk d)
  start {d : Desk} :
    s.attached = false → s.desk.Breaks "-break-insert main" d →
      s.start = (.error .closed, s.withDesk d) ∧ (s.withDesk d).attached = false
  ask {query : String} {d : Desk} :
    s.desk.Breaks query d → s.ask query = (.failed .closed, s.withDesk d)

theorem atomic_of_numbered (numbered : s.desk.Numbered) : s.Atomic := by
  have send : ∀ {text : String} {d : Desk} (onResult : OnResult Reaction)
      (onConsole : Option (OnConsole Reaction)), s.desk.Breaks text d →
        s.atDesk (·.send text onResult onConsole) = (.error .closed, s.withDesk d) := by
    intro text d onResult onConsole breaks
    rw [atDesk, numbered.send_of_breaks breaks]
  constructor
  case start =>
    intro d unattached breaks
    have refused : s.atDesk (·.insertBreakpoint "main") = (.error .closed, s.withDesk d) :=
      send .nothing none breaks
    refine ⟨?_, unattached⟩
    rw [start, if_neg (by simp [unattached])]
    simp only [refused]
  case ask =>
    intro query d breaks
    rw [ask]
    simp only [send .nothing (some .collect) breaks]
  case finish =>
    intro d value onResult breaks
    cases value <;> exact send onResult none breaks
  all_goals
    intros
    exact send _ _ ‹_›

end Session

/-! ### The token that is spent -/

/-- The command whose handler is called. -/
def Call.command? : Call → Option Token
  | .result token .. | .console token .. => some token
  | _ => none

namespace Ledger

/-- As long as no token comes twice, one that was spent in vain is never given to a command. -/
theorem not_mem_tokens_of_failed {sender : Option Call} {token : Token} {text : String} {l : Ledger}
    (distinct : l.given.Nodup) (failed : .failed sender token text ∈ l) : token ∉ l.tokens := by
  obtain ⟨after, before, rfl⟩ := List.append_of_mem failed
  rw [given_append, given_failed, List.nodup_append, List.nodup_append] at distinct
  obtain ⟨⟨-, -, earlier⟩, -, later⟩ := distinct
  have spent := List.mem_singleton_self token
  intro again
  rw [tokens_append] at again
  rcases List.mem_append.mp again with again | again
  · exact earlier token ((tokens_sublist_given before).mem again) token spent rfl
  · exact later token (List.mem_append_right _ spent) token
      ((tokens_sublist_given after).mem again) rfl

theorem mem_tokens_of_handlers? {token : Token} {handlers : Handlers} {l before : Ledger}
    (part : before <:+ l) (hh : before.handlers? token = some handlers) : token ∈ l.tokens := by
  obtain ⟨news, rfl⟩ := part
  obtain ⟨after, sender, text, onResult, onConsole, earlier, split, -, -⟩ :=
    exists_sent_of_handlers? hh
  have sent : .sent sender token text onResult onConsole ∈ before := by
    rw [split]
    exact List.mem_append_right _ List.mem_cons_self
  rw [tokens_append]
  exact List.mem_append_left _ (mem_tokens_of_sent sent)

theorem exists_handlers?_of_resultFor? {l : Ledger} {m : Message} {token : Token}
    {record : Record} {react : Token → Record → Reaction}
    (h : l.resultFor? m = some (token, record, react)) :
    ∃ handlers, l.handlers? token = some handlers := by
  simp only [resultFor?, Option.bind_eq_bind, Option.bind_eq_some_iff, Option.pure_def,
    Option.some.injEq, Prod.mk.injEq] at h
  obtain ⟨_, _, _, _, handlers, hh, _, _, rfl, _, _⟩ := h
  exact ⟨handlers, hh⟩

theorem exists_handlers?_of_consoleFor? {l : Ledger} {m : Message} {token : Token}
    {record : Record} {handler : OnConsole Reaction}
    (h : l.consoleFor? m = some (token, record, handler)) :
    ∃ handlers, l.handlers? token = some handlers := by
  unfold consoleFor? at h
  split at h
  · simp only [Option.bind_eq_bind, Option.bind_eq_some_iff, Option.pure_def,
      Option.some.injEq, Prod.mk.injEq] at h
    obtain ⟨_, _, handlers, hh, _, _, rfl, _, _⟩ := h
    exact ⟨handlers, hh⟩
  · cases h

end Ledger

/-- Only commands that were sent have handlers that are called. -/
theorem mem_tokens_of_called {source : Source} {sink : Sink} {settings : Settings}
    {moves : List Move}
    (few : (Session.chronicle source sink settings moves).session.desk.issued < UInt64.size) :
    let l := Session.ledger source sink settings moves
    ∀ c ∈ l.calls, ∀ token, c.command? = some token → token ∈ l.tokens := by
  intro l c called token its
  have start := staffed_connect source sink settings
  cases c with
  | result k record react =>
    cases its
    have announced := (placed_staffed.announced fun staffed _ =>
      staffed.filterMap_result?_callsOn).chronicle (fun _ => ⟨start, rfl, rfl⟩) moves few
    obtain ⟨before, m, part, brought⟩ := announced.exists_brings called rfl
    obtain ⟨handlers, hh⟩ := Ledger.exists_handlers?_of_resultFor? (Option.mem_toList.mp brought)
    exact Ledger.mem_tokens_of_handlers? part hh
  | console k record handler =>
    cases its
    have announced := (placed_staffed.announced fun staffed =>
      staffed.filterMap_console?_callsOn).chronicle (fun _ => ⟨start, rfl, rfl⟩) moves few
    obtain ⟨before, m, part, brought⟩ := announced.exists_brings called rfl
    obtain ⟨handlers, hh⟩ := Ledger.exists_handlers?_of_consoleFor? (Option.mem_toList.mp brought)
    exact Ledger.mem_tokens_of_handlers? part hh
  | resume | stop _ _ _ | announce _ _ | present _ _ => cases its

/-! ### The lines behind it -/

namespace Tracker

theorem takeLine_of_accepted {t : Tracker} {line : String} {m : Message}
    (accepted : accepted? line = some m) : t.takeLine line = (some m, t.take m) := by
  unfold accepted? at accepted
  unfold takeLine
  split at accepted
  · cases accepted
  · rename_i blank
    cases read : Message.ofLine line with
    | error flaw =>
      rw [read] at accepted
      cases accepted
    | ok m' =>
      rw [read] at accepted
      cases accepted
      rw [if_neg blank]

theorem numbered_takeLines {t : Tracker} (numbered : t.desk.Numbered) (lines : List String) :
    (t.takeLines lines).desk.Numbered := by
  induction lines generalizing t with
  | nil => exact numbered
  | cons line lines ih =>
    exact ih (takeLine_keeps (fun doings numbered => doings.moves.numbered numbered)
      (fun _ numbered => numbered) numbered line)

/-- Where the target cannot be set going again, the session is closed by the record. -/
theorem closed_take_of_breaks {t : Tracker} {m : Message} {d : Desk} (numbered : t.desk.Numbered)
    (resumes : t.settings.resumes = true) (halts : m.halts = true)
    (breaks : ((t.settle m).callAll (t.others m)).desk.Breaks "-exec-continue" d) :
    Agrees Event.isCall (t.dispatch m) { (t.settle m).callAll (t.others m) with desk := d } ∧
      (t.take m).desk.closed = true := by
  have moved := (t.moves_settle m).trans (moves_callAll (t.settle m) (t.others m))
  have opened : ((t.settle m).callAll (t.others m)).desk.closed = false := by
    cases breaks with
    | intro _ _ _ opened _ => exact opened
  have failed := (moved.numbered numbered).send_of_breaks breaks .nothing none
  have dispatched := t.agrees_dispatch_resuming m
  simp only [resumes, halts, opened, failed, Bool.not_false, Bool.and_true, if_true] at dispatched
  refine ⟨dispatched, ?_⟩
  have closed : ((t.log (.received m)).dispatch m).desk.closed = true :=
    ((t.agrees_dispatch_received m).trans dispatched).closed.trans breaks.closed
  exact ((doings_present _ m).moves.silent closed).closed

end Tracker

namespace Session

variable {s t u : Session} {lines front behind : List String}

/-- The complete lines in the buffer can be taken one after the other. -/
theorem exists_takes (split : completeLines s.lines.octets = front ++ behind) :
    ∃ u, s.Takes front u ∧ completeLines u.lines.octets = behind := by
  induction front generalizing s with
  | nil => exact ⟨s, .none s, split⟩
  | cons line front ih =>
    cases hl : s.lines.next with
    | mk next rest =>
      cases next with
      | none =>
        obtain ⟨unfinished, -⟩ := LineBuffer.next?_of_next_none hl
        rw [LineBuffer.completeLines_of_next?_none unfinished] at split
        cases split
      | some line' =>
        have first := LineBuffer.completeLines_of_next?_some (LineBuffer.next?_of_next_some hl) []
        rw [List.append_nil, List.append_nil, split, List.cons_append] at first
        obtain ⟨rfl, others⟩ := List.cons.inj first
        obtain ⟨u, takes, left⟩ := ih (s := s.afterLine line rest) others.symm
        exact ⟨u, .line hl takes, left⟩

theorem Takes.reads (takes : s.Takes front u) (reads : u.Reads lines t) :
    s.Reads (front ++ lines) t := by
  induction takes with
  | none => exact reads
  | line hl _ ih => exact .line hl (ih reads)
  | filled hn hf _ ih => exact .filled hn hf (ih reads)

theorem Takes.closed (takes : s.Takes lines t) (closed : s.isClosed = true) :
    t.isClosed = true := by
  induction takes with
  | none => exact closed
  | @line s t line rest lines hl _ ih =>
    exact ih ((enduring_attached s.attached).line ⟨closed, rfl⟩ hl).1
  | @filled s t u rest lines _ hf _ _ =>
    rw [fill_of_closed (s := { s with lines := rest }) closed] at hf
    cases hf

/-- What a closed session reads from its buffer is all that happens to its tracker. -/
theorem Reads.tracker_of_closed (reads : s.Reads lines t) (closed : s.isClosed = true) :
    t.tracker = s.tracker.takeLines lines := by
  obtain ⟨u, rest, takes, -, ended⟩ := reads.takes
  have still : isClosed { u with lines := rest } = true := takes.closed closed
  rw [fill_of_closed still] at ended
  cases ended
  exact takes.tracker_eq

/-- A line that closes the session does not keep those behind it from being taken, as long as they
are in the buffer. -/
theorem reads_past_closing {line : String}
    (split : completeLines s.lines.octets = front ++ line :: behind)
    (closing : (s.tracker.takeLines (front ++ [line])).desk.closed = true) :
    (∃ v, s.Takes (front ++ [line]) v ∧ v.isClosed = true ∧
        v.Serves (behind.filterMap accepted?)) ∧
      s.read.1 = (front ++ line :: behind).filterMap accepted? ∧
      s.read.2.tracker = s.tracker.takeLines (front ++ line :: behind) := by
  rw [List.append_cons front line behind] at split ⊢
  obtain ⟨v, takes, left⟩ := exists_takes split
  have closed : v.isClosed = true := (congrArg (·.desk.closed) takes.tracker_eq).trans closing
  have serves := serves_of_closed closed
  rw [buffered, left] at serves
  obtain ⟨lines, w, reads⟩ := exists_reads [] v
  obtain ⟨taken, -⟩ := reads.of_closed closed
  rw [left] at taken
  subst taken
  have rest : w.tracker = s.tracker.takeLines ((front ++ [line]) ++ lines) := by
    rw [reads.tracker_of_closed closed, takes.tracker_eq, Tracker.takeLines, Tracker.takeLines,
      Tracker.takeLines, ← List.foldl_append]
  rw [(takes.reads reads).read_eq]
  exact ⟨⟨v, takes, closed, serves⟩, rfl, rest⟩

end Session

/-- A send that fails, in whatever run, whatever it is that sends and wherever it does, be it the
caller, somebody who is called for a record or the session itself after a stop, is refused, and all
that comes of it is that the next token is spent and the connection is over. As long as tokens last,
that token is never given to a command, so no handler of such a command is ever called. If it was
the session that could not set the target going again, the lines behind that are in the buffer are
still taken. -/
theorem failed_sends_cost_a_token_and_the_connection (source : Source) (sink : Sink)
    (settings : Settings) (moves : List Move) :
    let s := (Session.chronicle source sink settings moves).session
    let t := s.tracker
    let l := Session.ledger source sink settings moves
    s.Atomic ∧
      (∀ d, t.desk.Moves d → d.Atomic) ∧
      (∀ m front c behind, t.callsOn m = front ++ c :: behind →
        (((t.settle m).callAll front).reach c).desk.Atomic) ∧
      (t.desk.issued < UInt64.size → ∀ sender token text, .failed sender token text ∈ l →
        token ∉ l.tokens ∧ ∀ c ∈ l.calls, c.command? ≠ some token) ∧
      ∀ front line behind m d, completeLines s.lines.octets = front ++ line :: behind →
        accepted? line = some m → m.halts = true →
        let before := t.takeLines front
        let u := (before.settle m).callAll (before.others m)
        before.settings.resumes = true → u.desk.Breaks "-exec-continue" d →
          Tracker.Agrees Event.isCall (before.dispatch m) { u with desk := d } ∧
            (∃ v, s.Takes (front ++ [line]) v ∧ v.isClosed = true ∧
              v.Serves (behind.filterMap accepted?)) ∧
            s.read.1 = (front ++ line :: behind).filterMap accepted? ∧
            s.read.2.tracker = t.takeLines (front ++ line :: behind) := by
  intro s t l
  have numbered : t.desk.Numbered := (tabled_chronicle source sink settings moves).numbered
  refine ⟨Session.atomic_of_numbered numbered, fun d moved => (moved.numbered numbered).atomic,
    ?_, ?_, ?_⟩
  · intro m front c behind _
    have moved := ((t.moves_settle m).trans (Tracker.moves_callAll _ front)).trans
      (Tracker.moves_reach _ c)
    exact (moved.numbered numbered).atomic
  · intro few sender token text failed
    have distinct : l.given.Nodup := (staffed_chronicle few).distinct few
    have ungiven := Ledger.not_mem_tokens_of_failed distinct failed
    exact ⟨ungiven, fun c called its => ungiven (mem_tokens_of_called few c called token its)⟩
  · intro front line behind m d split accepted halts before u resumes breaks
    obtain ⟨dispatched, closed⟩ := Tracker.closed_take_of_breaks
      (Tracker.numbered_takeLines numbered front) resumes halts breaks
    refine ⟨dispatched, Session.reads_past_closing split ?_⟩
    rw [Tracker.takeLines_concat, Tracker.takeLine_of_accepted accepted]
    exact closed

/-- The sink is good for one write. The handler of the first command cannot send another one, nor
can the session be started; and after a stop at a breakpoint the next line is read all the same,
though the target cannot be set going again. -/
theorem the_line_behind_a_failed_continue_is_read :
    let react : Token → Record → Reaction :=
      fun _ _ => .send "-exec-next" .nothing none fun _ => .stop .done
    let moves : List Move := [.send "-exec-run" (.call react) none, .fill]
    let octets := Utf8.encode "*stopped,bkptno=\"7\"\n*running\n"
    let s := (Session.chronicle ⟨.channel { queue := [octets] }, {}⟩ { remaining := some 1 } {}
      moves).session
    let stopped : Message := ⟨none, ⟨.execAsync, "stopped", [("bkptno", .const "7")]⟩⟩
    let call : Call := .result ⟨1⟩ ⟨.result, "done", []⟩ react
    let called := ((s.tracker.settle ⟨some ⟨1⟩, ⟨.result, "done", []⟩⟩).reach call).desk
    (∃ d, s.desk.Breaks "-break-insert main" d ∧ s.start.1 = .error .closed ∧
        s.start.2 = s.withDesk d) ∧
      (∃ d, called.Breaks "-exec-next" d ∧
        called.send "-exec-next" .nothing none = (.error .closed, d)) ∧
      s.read.1 = [stopped, ⟨none, ⟨.execAsync, "running", []⟩⟩] := by
  intro react moves octets s stopped call called
  obtain ⟨atomic, -, handlers, -, continuing⟩ := failed_sends_cost_a_token_and_the_connection
    ⟨.channel { queue := [octets] }, {}⟩ { remaining := some 1 } {} moves
  have stuck : ∀ d : Desk,
      d.issued + 1 < UInt64.size ∧ d.closed = false ∧ d.sink.remaining = some 0 →
        ∀ text, ∃ e, d.Breaks text e :=
    fun d h text => Desk.exists_breaks h.1 h.2.1 h.2.2 text
  obtain ⟨d, unstarted⟩ := stuck s.desk (by decide +kernel) "-break-insert main"
  obtain ⟨e, unsent⟩ := stuck called (by decide +kernel) "-exec-next"
  obtain ⟨f, unresumed⟩ := stuck
    ((s.tracker.settle stopped).callAll (s.tracker.others stopped)).desk (by decide +kernel)
    "-exec-continue"
  obtain ⟨started, -⟩ := atomic.start (by decide +kernel) unstarted
  have refused := (handlers ⟨some ⟨1⟩, ⟨.result, "done", []⟩⟩ [] call [] rfl).send .nothing none
    unsent
  obtain ⟨-, -, read, -⟩ := continuing [] "*stopped,bkptno=\"7\"" ["*running"] stopped f
    (by decide +kernel) (by decide +kernel) (by decide +kernel) (by decide +kernel) unresumed
  refine ⟨⟨d, unstarted, ?_, ?_⟩, ⟨e, unsent, refused⟩, read.trans (by decide +kernel)⟩
  · rw [started]
  · rw [started]

end DebugLink

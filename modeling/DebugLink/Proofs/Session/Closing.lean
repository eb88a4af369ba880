import DebugLink.Proofs.Session.Runs
import DebugLink.Proofs.Session.Stopping

/-! What is left of a session that is closed. Where it was closed does not matter: at the end of the
stream, by a failure to wait or to read, or by a send that failed, be it a handler's in the middle of
a line. From then on no send counts and filling does nothing, so only the lines in the buffer are
left to be taken. They still take effect, but whatever they bring about stays inside (`Hushed`). -/

namespace DebugLink

open LineBuffer (completeLines lineFeed)

/-! ### A desk that is closed -/

/-- The desk is closed, and since it was like the other nothing was written and no token given. -/
structure Desk.Silent (d e : Desk) : Prop where
  closed : e.closed = true
  sink : e.sink = d.sink
  issued : e.issued = d.issued

/-- Nothing that is done at a closed desk goes out. -/
theorem Desk.Moves.silent {d e : Desk} (moves : d.Moves e) (closed : d.closed = true) :
    d.Silent e := by
  induction moves with
  | none => exact ⟨closed, rfl, rfl⟩
  | send text onResult onConsole _ ih =>
    rw [send_of_closed ih.closed]
    exact ih
  | log _ _ _ ih | forget _ _ ih | requestStop _ ih | revise _ _ _ ih =>
    exact ⟨ih.closed, ih.sink, ih.issued⟩

/-- Since the desk was like this, it is silent, and no send has come to a token. -/
structure Hushed (d : Desk) (sends : List (Token × String)) (t : Tracker) (h : History) : Prop where
  silent : d.Silent t.desk
  unsent : h.sends = sends

theorem kept_hushed (d : Desk) (sends : List (Token × String)) : Kept (Hushed d sends) where
  bare {t u _} same hushed := by
    have closed : t.desk.closed = u.desk.closed := congrArg (·.desk.closed) same
    have sink : t.desk.sink = u.desk.sink := congrArg (·.desk.sink) same
    have issued : t.desk.issued = u.desk.issued := congrArg (·.desk.issued) same
    obtain ⟨silent, unsent⟩ := hushed
    exact ⟨⟨closed ▸ silent.closed, sink ▸ silent.sink, issued ▸ silent.issued⟩, unsent⟩
  close hushed := ⟨{ hushed.silent with closed := rfl }, hushed.unsent⟩
  subscribe _ _ hushed := ⟨hushed.silent, hushed.unsent⟩
  revise _ _ _ hushed := ⟨{ hushed.silent with }, hushed.unsent⟩
  send text onResult onConsole hushed := by
    have closed := hushed.silent.closed
    rw [History.sending, Desk.send_of_closed closed]
    dsimp only
    rw [if_pos closed]
    exact hushed
  forget _ hushed := ⟨{ hushed.silent with }, hushed.unsent⟩
  settle {t _} m hushed := by
    obtain ⟨_, _, _, _, _, settled⟩ := t.settle_eq m
    rw [settled]
    exact ⟨{ hushed.silent with }, hushed.unsent⟩

namespace Chronicle

theorem hushed_run {c : Chronicle} (closed : c.session.isClosed = true) (moves : List Move) :
    Hushed c.session.desk c.history.sends (c.run moves).tracker (c.run moves).history :=
  (kept_hushed c.session.desk c.history.sends).lasting.run ⟨⟨closed, rfl, rfl⟩, rfl⟩ moves

end Chronicle

/-! ### The source of a closed session -/

/-- The source changes only if the far end changes it. -/
def Move.sourceAfter (source : Source) : Move → Source
  | .farEnd source => source
  | _ => source

namespace Chronicle

theorem source_step {c : Chronicle} (closed : c.session.isClosed = true) (move : Move) :
    (c.step move).session.source = move.sourceAfter c.session.source := by
  cases move with
  | takeLine =>
    unfold step
    dsimp only
    split
    · rfl
    · rfl
  | fill =>
    show c.session.fill.2.source = c.session.source
    rw [Session.fill_of_closed closed]
  | _ => rfl

theorem source_run {c : Chronicle} (closed : c.session.isClosed = true) (moves : List Move) :
    (c.run moves).session.source = moves.foldl Move.sourceAfter c.session.source := by
  induction moves generalizing c with
  | nil => rfl
  | cons move moves ih =>
    have still : (c.step move).session.isClosed = true := (hushed_run closed [move]).silent.closed
    have behind := ih still
    rw [source_step closed move] at behind
    exact behind

end Chronicle

namespace Session

variable {s t : Session} {lines : List String}

/-! ### What a closed session refuses -/

/-- Nothing can be sent, whatever is tried, and trying changes nothing. -/
structure Refuses (s : Session) : Prop where
  send (text : String) (onResult : OnResult Reaction) (onConsole : Option (OnConsole Reaction)) :
    s.atDesk (·.send text onResult onConsole) = (.error .closed, s)
  addBreakpoint (location : String) (handler : Option (StopHandler Reaction)) :
    s.atDesk (·.addBreakpoint location handler) = (.error .closed, s)
  insertBreakpoint (location : String) (onResult : OnResult Reaction) :
    s.atDesk (·.insertBreakpoint location onResult) = (.error .closed, s)
  resume (onResult : OnResult Reaction) : s.atDesk (·.resume onResult) = (.error .closed, s)
  run (onResult : OnResult Reaction) : s.atDesk (·.run onResult) = (.error .closed, s)
  finish (value : Option String) (onResult : OnResult Reaction) :
    s.atDesk (·.finish value onResult) = (.error .closed, s)
  interrupt (onResult : OnResult Reaction) : s.atDesk (·.interrupt onResult) = (.error .closed, s)
  request (r : Request) (onResult : OnResult Reaction) :
    s.atDesk (·.request r onResult) = (.error .closed, s)
  useTerminal (path : String) : s.useTerminal path = (.error .closed, s)
  start : s.start = (.error (if s.attached then .alreadyStarted else .closed), s)
  ask (query : String) : s.ask query = (.failed .closed, s)

theorem refuses_of_closed (closed : s.isClosed = true) : s.Refuses := by
  have send : ∀ text onResult onConsole,
      s.atDesk (·.send text onResult onConsole) = (.error .closed, s) := by
    intro text onResult onConsole
    rw [atDesk, Desk.send_of_closed closed]
    rfl
  constructor
  case start =>
    unfold start
    split
    · rfl
    · have refused := send ("-break-insert " ++ "main") .nothing none
      unfold Desk.insertBreakpoint Desk.sendPlain
      rw [refused]
  case ask =>
    intro query
    unfold ask
    rw [send]
  all_goals
    intros
    exact send _ _ _

/-- Being started takes a send, so a closed session is started no more. -/
theorem enduring_attached (attached : Bool) :
    Enduring fun s => s.isClosed = true ∧ s.attached = attached where
  line {s line rest} hs _ :=
    ⟨Tracker.takeLine_keeps (Q := fun d => d.closed = true)
      (fun doings closed => (doings.moves.silent closed).closed) (fun _ closed => closed) hs.1 line, hs.2⟩
  vain hs _ := hs
  fill hs _ := by
    rw [fill_of_closed hs.1]
    exact hs
  stop _ hs := hs
  attach hs isOpen := by
    rw [hs.1] at isOpen
    cases isOpen
  send text onResult onConsole hs := by
    rw [(refuses_of_closed hs.1).send]
    exact hs
  forget _ hs := hs
  clearOnConsole _ hs := hs
  requestStop hs := hs
  onChange _ hs := hs
  onRecord _ _ hs := hs

theorem attached_foldl_act (closed : s.isClosed = true) (operations : List Operation) :
    (operations.foldl act s).attached = s.attached := by
  have kept : (operations.foldl act s).isClosed = true ∧
      (operations.foldl act s).attached = s.attached := by
    generalize ha : s.attached = attached
    induction operations generalizing s with
    | nil => exact ⟨closed, ha⟩
    | cons operation operations ih =>
      have next : (s.act operation).isClosed = true ∧ (s.act operation).attached = attached := by
        cases operation with
        | farEnd source => exact ⟨closed, ha⟩
        | _ => exact (enduring_attached attached).act _ rfl ⟨closed, ha⟩
      exact ih next.1 next.2
  exact kept.2

/-! ### What a closed session still gives -/

/-- The records whose lines are complete in the buffer. -/
def buffered (s : Session) : List Message := (completeLines s.lines.octets).filterMap accepted?

/-- Reading and waiting bring the records in the buffer, and then nothing. -/
structure Serves (s : Session) (records : List Message) : Prop where
  read : s.read.1 = records ∧ s.read.2.read.1 = []
  readAtMost (limit : Nat) : (s.readAtMost limit).1 = records.take limit ∧
    (s.readAtMost limit).2.read.1 = records.drop limit
  poll (target : Option Token) :
    (s.poll target).1 = if records.any (isTarget target) then .found else .closed
  waitFor (target : Option Token) : s.desk.stopRequested = false →
    (s.waitFor target).1 = if records.any (isTarget target) then .found else .closed

/-- What a closed session reads are the complete lines in its buffer. -/
theorem Reads.of_closed (reads : s.Reads lines t) (closed : s.isClosed = true) :
    lines = completeLines s.lines.octets ∧ t.isClosed = true ∧ lineFeed ∉ t.lines.octets := by
  induction reads with
  | @line s t line rest lines hl _ ih =>
    have still : (s.afterLine line rest).isClosed = true :=
      ((enduring_attached s.attached).line ⟨closed, rfl⟩ hl).1
    obtain ⟨behind, ended⟩ := ih still
    have first := LineBuffer.completeLines_of_next?_some (LineBuffer.next?_of_next_some hl) []
    rw [List.append_nil, List.append_nil] at first
    refine ⟨?_, ended⟩
    rw [first, behind]
    rfl
  | @filled s t u rest lines hn hf _ ih =>
    rw [fill_of_closed (s := { s with lines := rest }) closed] at hf
    cases hf
  | @unfilled s t rest hn hf =>
    obtain ⟨none, -⟩ := LineBuffer.next?_of_next_none hn
    rw [fill_of_closed (s := { s with lines := rest }) closed] at hf
    cases hf
    refine ⟨(LineBuffer.completeLines_of_next?_none none).symm, closed, ?_⟩
    exact LineBuffer.next?_eq_none_iff.mp (LineBuffer.next?_eq_none_of_next_none hn)

theorem any_isTarget (lines : List String) (target : Option Token) :
    (lines.filterMap accepted?).any (isTarget target) = lines.any (isAwaited target) := by
  rw [List.any_filterMap]
  rfl

theorem poll_of_closed (closed : s.isClosed = true) (target : Option Token) :
    ∃ t, s.poll target = (if s.buffered.any (isTarget target) then .found else .closed, t) := by
  obtain ⟨lines, t, reads⟩ := exists_reads [] s
  obtain ⟨rfl, still, -⟩ := reads.of_closed closed
  rw [buffered, any_isTarget]
  by_cases awaited : (completeLines s.lines.octets).any (isAwaited target) = true
  · obtain ⟨_, _, _, u, _, _, _, found, -⟩ := reads.poll_found (List.any_eq_true.mp awaited)
    rw [if_pos awaited]
    exact ⟨u, found⟩
  · have missed : ∀ line ∈ completeLines s.lines.octets, isAwaited target line = false := by
      simpa using awaited
    have after := reads.poll_missed missed
    rw [if_pos still] at after
    rw [if_neg awaited]
    exact ⟨t, after⟩

theorem serves_of_closed (closed : s.isClosed = true) : s.Serves s.buffered := by
  obtain ⟨lines, t, reads⟩ := exists_reads [] s
  obtain ⟨rfl, still, unfinished⟩ := reads.of_closed closed
  obtain ⟨lines, u, ended⟩ := exists_reads [] t
  obtain ⟨rfl, -⟩ := ended.of_closed still
  rw [LineBuffer.completeLines_of_not_mem unfinished] at ended
  refine ⟨?_, reads.readAtMost_eq ended, ?_, ?_⟩
  · rw [reads.read_eq, ended.read_eq]
    exact ⟨rfl, rfl⟩
  · intro target
    obtain ⟨v, polled⟩ := poll_of_closed closed target
    rw [polled]
  · intro target unasked
    obtain ⟨v, polled⟩ := poll_of_closed closed target
    by_cases awaited : s.buffered.any (isTarget target) = true
    · rw [if_pos awaited] at polled ⊢
      rw [waitFor_of_poll_found unasked polled]
    · rw [if_neg awaited] at polled ⊢
      rw [waitFor_of_poll_closed unasked polled]

/-- All that a session comes to that is closed since its desk was like this. -/
structure Over (d : Desk) (s : Session) : Prop where
  silent : d.Silent s.desk
  refuses : s.Refuses
  serves : s.Serves s.buffered

theorem over_of_silent {d : Desk} (silent : d.Silent s.desk) : s.Over d where
  silent := silent
  refuses := refuses_of_closed silent.closed
  serves := serves_of_closed silent.closed

end Session

/-- A session that is closed stays closed, whatever happens: nothing more is written or read from the
source, no send comes to a token, and every attempt to send is refused without a trace. What reading
and waiting bring are the records of the lines in the buffer, and then nothing more; a wait ends.
Nor is anything sent in what is left of a line in whose middle the session was closed. -/
theorem closing_is_final_and_silent (c : Chronicle) (closed : c.session.isClosed = true) :
    (∀ moves, let e := c.run moves
      e.session.Over c.session.desk ∧ e.history.sends = c.history.sends ∧
        e.session.source = moves.foldl Move.sourceAfter c.session.source) ∧
    (∀ operations : List Operation, let s := operations.foldl Session.act c.session
      s.Over c.session.desk ∧ s.attached = c.session.attached) ∧
    (∀ d e : Desk, d.closed = true → d.Moves e → d.Silent e ∧
      ∀ text onResult onConsole, e.send text onResult onConsole = (.error .closed, e)) := by
  refine ⟨fun moves => ?_, fun operations => ?_, ?_⟩
  · obtain ⟨silent, unsent⟩ := Chronicle.hushed_run closed moves
    exact ⟨Session.over_of_silent silent, unsent, Chronicle.source_run closed moves⟩
  · refine ⟨?_, Session.attached_foldl_act closed operations⟩
    obtain ⟨moves, reached⟩ := c.reaches_foldl_act operations
    rw [← reached]
    exact Session.over_of_silent (Chronicle.hushed_run closed moves).silent
  · intro d e hd moves
    have silent := moves.silent hd
    exact ⟨silent, fun _ _ _ => Desk.send_of_closed silent.closed⟩

/-- The session is closed in the middle of a line: its record makes a subscriber send, which fails.
The line behind it is in the buffer by then and can still be waited for. -/
theorem a_failed_send_is_the_last :
    let octets := Utf8.encode "*running\n7^done\n8^do"
    let c := Session.chronicle ⟨.channel { queue := [octets, octets] }, {}⟩ { remaining := some 0 }
      { chunkSize := octets.length }
      [.onRecord .execAsync fun _ => .send "-exec-next" .nothing none fun _ => .done, .fill,
        .takeLine]
    let s := (c.run [.send "-exec-run" .nothing none, .fill]).session
    c.session.isClosed = true ∧ c.session.desk.issued = 1 ∧
      s.isClosed = true ∧ s.desk.issued = 1 ∧ s.desk.sink = c.session.desk.sink ∧
      s.source = c.session.source ∧ s.read.1 = [⟨some ⟨7⟩, ⟨.result, "done", []⟩⟩] ∧
      (s.waitFor (some ⟨7⟩)).1 = .found ∧ (s.waitFor (some ⟨8⟩)).1 = .closed := by
  intro octets c s
  have closed : c.session.isClosed = true := by decide
  have issued : c.session.desk.issued = 1 := by decide
  have unasked : s.desk.stopRequested = false := by decide
  have buffered : s.buffered = [⟨some ⟨7⟩, ⟨.result, "done", []⟩⟩] := by decide
  obtain ⟨since, -, -⟩ := closing_is_final_and_silent c closed
  obtain ⟨⟨silent, -, serves⟩, -, source⟩ := since [.send "-exec-run" .nothing none, .fill]
  have found := serves.waitFor (some ⟨7⟩) unasked
  have missed := serves.waitFor (some ⟨8⟩) unasked
  change s.Serves s.buffered at serves
  rw [buffered] at found missed serves
  exact ⟨closed, issued, silent.closed, silent.issued.trans issued, silent.sink, source,
    serves.read.1, found, missed⟩

end DebugLink

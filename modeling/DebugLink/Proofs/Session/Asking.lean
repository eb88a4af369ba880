import DebugLink.Proofs.Session.Console
import DebugLink.Proofs.Session.Heeding
import DebugLink.Proofs.Session.Passing

/-! Asking for console text. A command is sent with a collector for console text, and its result is
waited for, while more may come from the far end and others may ask for the wait to stop (`Asks`).
All this comes down to moves, which take the lines up to the first with the token of the command, or
else lines without it (`Leads`, `Ends`). While no other command is sent and this one is not
forgotten, it is the latest in view, so all console text among those lines goes to its collector.
Once the wait is over the collector is gone, and no more text is collected. -/

namespace DebugLink

open LineBuffer (Splits)

/-! ### Waiting as moves -/

/-- The move is one of those that a wait is made of, or of what can happen meanwhile. -/
def Move.isOfWaiting : Move → Bool
  | .takeLine | .fill | .takeStop _ | .requestStop | .farEnd _ => true
  | _ => false

theorem Chronicle.taken_append (c : Chronicle) (moves more : List Move) :
    c.taken (moves ++ more) = c.taken moves ++ (c.run moves).taken more := by
  induction moves generalizing c with
  | nil => rfl
  | cons move moves ih =>
    have rest := ih (c.step move)
    rw [List.cons_append, taken, rest, taken, List.append_assoc]
    rfl

namespace Session

variable {s t u : Session} {moves more : List Move} {lines behind : List String}
  {target : Option Token}

/-- These moves are made of waiting. They take these lines and lead from one session to the other,
whatever has happened before. -/
structure Leads (s : Session) (moves : List Move) (lines : List String) (t : Session) : Prop where
  waiting : ∀ move ∈ moves, move.isOfWaiting = true
  session : ∀ h, ((⟨s, h⟩ : Chronicle).run moves).session = t
  taken : ∀ h, (⟨s, h⟩ : Chronicle).taken moves = lines

theorem Leads.refl (s : Session) : s.Leads [] [] s where
  waiting := List.forall_mem_nil _
  session _ := rfl
  taken _ := rfl

theorem Leads.trans (first : s.Leads moves lines t) (second : t.Leads more behind u) :
    s.Leads (moves ++ more) (lines ++ behind) u where
  waiting move hm := by
    rcases List.mem_append.mp hm with hm | hm
    · exact first.waiting move hm
    · exact second.waiting move hm
  session h := by
    have after := second.session ((⟨s, h⟩ : Chronicle).run moves).history
    rw [← first.session h] at after
    rw [Chronicle.run_append]
    exact after
  taken h := by
    have after := second.taken ((⟨s, h⟩ : Chronicle).run moves).history
    rw [← first.session h] at after
    rw [Chronicle.taken_append, first.taken]
    exact congrArg (lines ++ ·) after

theorem leads_line {line : String} {rest : LineBuffer} (hl : s.lines.next = (some line, rest)) :
    s.Leads [.takeLine] [line] (s.afterLine line rest) where
  waiting := by simp [Move.isOfWaiting]
  session h := by simp only [Chronicle.run, List.foldl_cons, List.foldl_nil, Chronicle.step, hl]
  taken h := by
    simp only [Chronicle.taken, Chronicle.line?, hl, Option.toList_some, List.append_nil]

/-- A buffer without a line is searched in vain before it is filled. -/
theorem leads_fill {rest : LineBuffer} (hn : s.lines.next = (none, rest)) :
    s.Leads [.takeLine, .fill] [] (fill { s with lines := rest }).2 where
  waiting := by simp [Move.isOfWaiting]
  session h := by simp only [Chronicle.run, List.foldl_cons, List.foldl_nil, Chronicle.step, hn]
  taken h := by
    simp only [Chronicle.taken, Chronicle.line?, hn, Option.toList_none, List.append_nil]

theorem leads_takeStop (s : Session) (target : Option Token) :
    s.Leads [.takeStop target] [] (s.takeStop target) where
  waiting := by simp [Move.isOfWaiting]
  session _ := rfl
  taken _ := rfl

theorem leads_requestStop (s : Session) :
    s.Leads [.requestStop] [] (s.withDesk s.desk.requestStop) where
  waiting := by simp [Move.isOfWaiting]
  session _ := rfl
  taken _ := rfl

theorem leads_farEnd (s : Session) (source : Source) :
    s.Leads [.farEnd source] [] { s with source } where
  waiting := by simp [Move.isOfWaiting]
  session _ := rfl
  taken _ := rfl

theorem Takes.leads (takes : s.Takes lines t) : ∃ moves, s.Leads moves lines t := by
  induction takes with
  | none s => exact ⟨[], .refl s⟩
  | line hl _ ih =>
    obtain ⟨moves, leads⟩ := ih
    exact ⟨_, (leads_line hl).trans leads⟩
  | @filled s t u rest lines hn hf _ ih =>
    obtain ⟨moves, leads⟩ := ih
    have first := leads_fill hn
    rw [hf] at first
    exact ⟨_, first.trans leads⟩

theorem Reads.leads (reads : s.Reads lines t) : ∃ moves, s.Leads moves lines t := by
  obtain ⟨u, rest, takes, hn, hf⟩ := reads.takes
  obtain ⟨moves, leads⟩ := takes.leads
  have last := leads_fill hn
  rw [hf] at last
  have whole := leads.trans last
  rw [List.append_nil] at whole
  exact ⟨_, whole⟩

/-- How a wait ends, by the lines that it took: with the first line that is awaited, or without
any. -/
inductive Ends (target : Option Token) (lines : List String) : WaitEnd → Prop
  | found {front : List String} {line : String} :
      lines = front ++ [line] → (∀ l ∈ front, isAwaited target l = false) →
      isAwaited target line = true → Ends target lines .found
  | missed {ended : WaitEnd} :
      ended ≠ .found → (∀ line ∈ lines, isAwaited target line = false) → Ends target lines ended

/-- Lines that were missed before make no difference. -/
theorem Ends.after {front : List String} {ended : WaitEnd}
    (missed : ∀ line ∈ front, isAwaited target line = false) (ends : Ends target lines ended) :
    Ends target (front ++ lines) ended := by
  have both : ∀ {more : List String}, (∀ line ∈ more, isAwaited target line = false) →
      ∀ line ∈ front ++ more, isAwaited target line = false := by
    intro more later line hl
    rcases List.mem_append.mp hl with hl | hl
    · exact missed line hl
    · exact later line hl
  cases ends with
  | @found init line split before awaited =>
    exact .found (by rw [split, List.append_assoc]) (both before) awaited
  | missed other later => exact .missed other (both later)

/-- One look for a record takes the lines up to the first that is awaited, or else all there are. -/
theorem poll_leads {outcome : PollOutcome} (polled : s.poll target = (outcome, t)) :
    ∃ moves lines, s.Leads moves lines t ∧
      if outcome = .found then Ends target lines .found
      else ∀ line ∈ lines, isAwaited target line = false := by
  obtain ⟨lines, u, reads⟩ := exists_reads [] s
  by_cases awaited : ∃ line ∈ lines, isAwaited target line = true
  · obtain ⟨front, line, behind, v, -, before, found, same, takes, -⟩ := reads.poll_found awaited
    obtain ⟨moves, leads⟩ := takes.leads
    rw [same] at polled
    cases polled
    exact ⟨moves, _, leads, .found rfl before found⟩
  · have missed : ∀ line ∈ lines, isAwaited target line = false := by
      intro line hl
      exact Bool.eq_false_iff.mpr fun found => awaited ⟨line, hl, found⟩
    obtain ⟨moves, leads⟩ := reads.leads
    rw [reads.poll_missed missed] at polled
    obtain ⟨rfl, rfl⟩ := Prod.mk.inj polled
    refine ⟨moves, lines, leads, ?_⟩
    rw [if_neg (by split <;> decide)]
    exact missed

/-- A wait comes down to moves, whatever happens meanwhile. -/
theorem Waits.leads {timed : Bool} {signals : List Signal} {ended : WaitEnd}
    (waits : s.Waits target timed signals ended t) :
    ∃ moves lines, s.Leads moves lines t ∧ Ends target lines ended := by
  have nothing : ∀ line ∈ ([] : List String), isAwaited target line = false :=
    List.forall_mem_nil _
  induction waits with
  | @stopped s _ => exact ⟨_, [], s.leads_takeStop target, .missed (by simp) nothing⟩
  | timedOut _ _ | blocked _ _ => exact ⟨[], [], .refl _, .missed (by simp) nothing⟩
  | found _ polled =>
    obtain ⟨moves, lines, leads, ends⟩ := poll_leads polled
    exact ⟨moves, lines, leads, ends⟩
  | closed _ polled =>
    obtain ⟨moves, lines, leads, missed⟩ := poll_leads polled
    exact ⟨moves, lines, leads, .missed (by simp) missed⟩
  | pending _ polled _ ih =>
    obtain ⟨moves, lines, leads, missed⟩ := poll_leads polled
    obtain ⟨more, behind, rest, ends⟩ := ih
    exact ⟨_, _, leads.trans rest, ends.after missed⟩
  | @asked s _ _ _ _ ih =>
    obtain ⟨moves, lines, leads, ends⟩ := ih
    exact ⟨_, _, s.leads_requestStop.trans leads, ends⟩
  | @farEnd s _ _ _ source _ ih =>
    obtain ⟨moves, lines, leads, ends⟩ := ih
    exact ⟨_, _, (s.leads_farEnd source).trans leads, ends⟩

end Session

/-! ### What is entered meanwhile -/

theorem Ledger.exists_news_stepping (s : Session) (l : Ledger) (move : Move) :
    ∃ news, l.stepping s move = news ++ l ∧
      (move.isOfWaiting = true → ∀ token, .silenced token ∉ news) := by
  have nothing : ∀ token, Entry.silenced token ∉ ([] : Ledger) := fun _ => List.not_mem_nil
  cases move with
  | takeLine =>
    unfold stepping takingLine
    dsimp only
    split
    · split
      · rename_i m _
        obtain ⟨news, grown, unsilenced⟩ := l.exists_news_taking s.tracker m
        refine ⟨news ++ [.received m], by rw [grown, List.append_assoc]; rfl, fun _ token => ?_⟩
        simpa using unsilenced token
      · exact ⟨[], rfl, fun _ => nothing⟩
    · exact ⟨[], rfl, fun _ => nothing⟩
  | fill =>
    unfold stepping
    dsimp only
    split
    · exact ⟨[.closed], rfl, fun _ token => by simp⟩
    · exact ⟨[], rfl, fun _ => nothing⟩
  | send text onResult onConsole =>
    have sent := l.sends none s.desk text onResult onConsole
    rw [stepping]
    generalize s.desk.send text onResult onConsole = outcome,
      l.sending none s.desk text onResult onConsole = k at sent ⊢
    cases sent with
    | refused _ => exact ⟨[], rfl, fun h => by cases h⟩
    | went _ _ _ | failed _ _ _ _ => exact ⟨[_], rfl, fun h => by cases h⟩
  | forget token => exact ⟨[.forgot token], rfl, fun h => by cases h⟩
  | clearOnConsole token => exact ⟨[.silenced token], rfl, fun h => by cases h⟩
  | takeStop _ | farEnd _ | attach | requestStop | onChange _ | onRecord _ _ =>
    exact ⟨[], rfl, fun _ => nothing⟩

/-- Nothing that was entered is ever taken back, and waiting silences no command. -/
theorem Chronicle.exists_news (c : Chronicle) (l : Ledger) (moves : List Move) :
    ∃ news, c.ledger l moves = news ++ l ∧
      ((∀ move ∈ moves, move.isOfWaiting = true) → ∀ token, .silenced token ∉ news) := by
  induction moves generalizing c l with
  | nil => exact ⟨[], rfl, fun _ _ => List.not_mem_nil⟩
  | cons move moves ih =>
    obtain ⟨first, grown, quiet⟩ := l.exists_news_stepping c.session move
    obtain ⟨news, grown', quiet'⟩ := ih (c.step move) (l.stepping c.session move)
    refine ⟨news ++ first, ?_, fun waiting token => ?_⟩
    · rw [ledger, grown', grown, List.append_assoc]
    · rw [List.mem_append, not_or]
      exact ⟨quiet' (fun m hm => waiting m (List.mem_cons_of_mem _ hm)) token,
        quiet (waiting move List.mem_cons_self) token⟩

/-! ### What is collected for a command -/

/-- The text of a record of console text. -/
def Message.consoleText? (m : Message) : Option String :=
  if m.record.kind = .consoleStream then some m.record.what else none

/-- The text that is collected for a command if this is handed to this handler. -/
def Handlers.collects? (token : Token) : Token × Record × OnConsole Reaction → Option String
  | (k, record, .collect) => if k = token then some record.what else none
  | (_, _, .call _) => none

def Event.collected? (token : Token) : Event → Option String
  | .collected k text => if k = token then some text else none
  | _ => none

/-- The texts that have been collected for a command. -/
def Tracker.collected (t : Tracker) (token : Token) : List String :=
  t.desk.journal.toList.filterMap (Event.collected? token)

namespace Ledger

/-- The texts that the records bring for a command. -/
def collected (token : Token) (l : Ledger) : List String :=
  (l.gather fun before m => (before.consoleFor? m).toList).filterMap (Handlers.collects? token)

variable {token : Token} {l news : Ledger}

theorem collected_received (token : Token) (l : Ledger) (m : Message) :
    collected token (.received m :: l) =
      l.collected token ++ ((l.consoleFor? m).bind (Handlers.collects? token)).toList := by
  rw [collected, gather, List.filterMap_append, collected]
  cases l.consoleFor? m with
  | none => rfl
  | some handed => simp only [Option.toList_some, Option.bind_some, filterMap_cons_toList,
      List.filterMap_nil, List.append_nil]

/-- Console text does not concern the command, if it is in view at all. -/
def Deaf (token : Token) (l : Ledger) : Prop :=
  ∀ handlers, l.handlers? token = some handlers → handlers.onConsole = none

theorem Deaf.collects? (deaf : l.Deaf token) (m : Message) :
    (l.consoleFor? m).bind (Handlers.collects? token) = none := by
  unfold consoleFor?
  split
  · cases hl : l.latest? with
    | none => rfl
    | some k =>
      cases hh : l.handlers? k with
      | none => simp only [Option.bind_eq_bind, Option.bind_some, hh, Option.bind_none]
      | some handlers =>
        cases hc : handlers.onConsole with
        | none => simp only [Option.bind_eq_bind, Option.bind_some, hh, hc, Option.bind_none]
        | some handler =>
          have other : k ≠ token := by
            rintro rfl
            rw [deaf handlers hh] at hc
            cases hc
          simp only [Option.bind_eq_bind, Option.bind_some, hh, hc, Option.pure_def]
          cases handler with
          | call react => rfl
          | collect => exact if_neg other
  · rfl

/-- Nothing that happens later makes console text concern the command again. -/
theorem Deaf.append (deaf : l.Deaf token) (once : token ∉ news.given) :
    (news ++ l).Deaf token ∧ collected token (news ++ l) = l.collected token := by
  induction news with
  | nil => exact ⟨deaf, rfl⟩
  | cons x news ih =>
    cases x with
    | received m =>
      obtain ⟨still, same⟩ := ih once
      refine ⟨still, ?_⟩
      rw [List.cons_append, collected_received, still.collects?, same]
      exact List.append_nil _
    | sent _ k _ _ _ | failed _ k _ =>
      have others : token ∉ given news ++ [k] := once
      rw [List.mem_append, not_or, List.mem_singleton] at others
      obtain ⟨still, same⟩ := ih others.1
      refine ⟨fun handlers hh => still handlers ?_, same⟩
      rwa [List.cons_append, handlers?, if_neg others.2] at hh
    | forgot k =>
      obtain ⟨still, same⟩ := ih once
      refine ⟨fun handlers hh => ?_, same⟩
      rw [List.cons_append, handlers?] at hh
      split at hh
      · cases hh
      · exact still handlers hh
    | silenced k =>
      obtain ⟨still, same⟩ := ih once
      refine ⟨fun handlers hh => ?_, same⟩
      rw [List.cons_append, handlers?] at hh
      split at hh
      · obtain ⟨_, _, rfl⟩ := Option.map_eq_some_iff.mp hh
        rfl
      · exact still handlers hh
    | called _ | closed => exact ih once

theorem deaf_silenced (token : Token) (l : Ledger) : Deaf token (.silenced token :: l) := by
  intro handlers hh
  rw [handlers?, if_pos rfl] at hh
  obtain ⟨_, _, rfl⟩ := Option.map_eq_some_iff.mp hh
  rfl

/-- A command has been sent for its console text. -/
def asking (l : Ledger) (token : Token) (query : String) : Ledger :=
  .sent none token query .nothing (some .collect) :: l

theorem tokens_asking (l : Ledger) (token : Token) (query : String) :
    tokens (l.asking token query) = l.tokens ++ [token] :=
  tokens_sent none token query .nothing (some .collect) l

/-- No other command was sent, and this one was not forgotten. -/
structure Undisturbed (token : Token) (news : Ledger) : Prop where
  unsent : news.tokens = []
  unforgotten : .forgot token ∉ news

/-- Meanwhile the command is the latest in view, and it has its collector. -/
theorem Undisturbed.consoleFor? (undisturbed : news.Undisturbed token)
    (once : token ∉ news.given) (unsilenced : .silenced token ∉ news) (query : String)
    (m : Message) :
    (news ++ l.asking token query).consoleFor? m =
      if m.record.kind = .consoleStream then some (token, m.record, .collect) else none := by
  have its : (news ++ l.asking token query).handlers? token =
      some ⟨none, some .collect⟩ := by
    rw [handlers?_append _ once undisturbed.unforgotten unsilenced, asking, handlers?, if_pos rfl]
    rfl
  have latest : (news ++ l.asking token query).latest? =
      some token := by
    rw [latest?, tokens_append, tokens_asking, undisturbed.unsent, List.append_nil,
      List.filter_append, List.filter_cons_of_pos (by rw [its]; rfl), List.filter_nil,
      List.getLast?_concat]
  unfold Ledger.consoleFor?
  simp only [latest, its, Option.bind_eq_bind, Option.bind_some, Option.pure_def]

/-- So all console text is collected for it. -/
theorem Undisturbed.collected_eq (undisturbed : news.Undisturbed token)
    (once : token ∉ news.given) (unsilenced : .silenced token ∉ news) (query : String) :
    collected token (news ++ l.asking token query) =
      l.collected token ++ news.history.records.filterMap Message.consoleText? := by
  induction news with
  | nil => exact (List.append_nil _).symm
  | cons x news ih =>
    rw [List.mem_cons, not_or] at unsilenced
    have unforgotten := fun h => undisturbed.unforgotten (List.mem_cons_of_mem x h)
    cases x with
    | received m =>
      have before : Undisturbed token news := ⟨undisturbed.unsent, unforgotten⟩
      have records : (Ledger.history (.received m :: news)).records =
          (Ledger.history news).records ++ [m] := rfl
      rw [List.cons_append, collected_received, ih before once unsilenced.2,
        before.consoleFor? once unsilenced.2, records, List.filterMap_append, filterMap_cons_toList,
        List.filterMap_nil, List.append_nil, List.append_assoc]
      unfold Message.consoleText?
      split
      · simp only [Option.bind_some, Handlers.collects?, if_true]
      · rfl
    | sent sender k text onResult onConsole =>
      have none := undisturbed.unsent
      rw [tokens_sent] at none
      simp at none
    | failed _ k _ =>
      have others : token ∉ given news ++ [k] := once
      rw [List.mem_append, not_or] at others
      exact ih ⟨undisturbed.unsent, unforgotten⟩ others.1 unsilenced.2
    | forgot _ | silenced _ | called _ | closed =>
      exact ih ⟨undisturbed.unsent, unforgotten⟩ once unsilenced.2

end Ledger

theorem Call.bind_collected?_event? (token : Token) (c : Call) :
    c.event?.bind (Event.collected? token) = c.console?.bind (Handlers.collects? token) := by
  cases c with
  | console k record handler => cases handler <;> rfl
  | _ => rfl

/-- What was collected in a run is what its records brought. -/
theorem Announced.collected_eq {t : Tracker} {l : Ledger}
    (announced : Announced Staffed Call.console? (fun l m => (l.consoleFor? m).toList) t l)
    (token : Token) : t.collected token = l.collected token := by
  have quiet : ∀ e : Event, e.isCall = false → e.collected? token = none := by
    intro e h
    cases e with
    | collected _ _ => cases h
    | _ => rfl
  rw [Tracker.collected, t.filterMap_journal quiet, announced.events, List.filterMap_filterMap,
    Ledger.collected, ← announced.calls, List.filterMap_filterMap]
  exact congrArg (List.filterMap · _) (funext (Call.bind_collected?_event? token))

/-! ### Asking -/

namespace Session

variable {s t : Session} {query : String} {token : Token}

/-- An exchange as it is carried out, with all that can happen until the result comes: more comes
from the far end, and others ask for the wait to stop. -/
inductive Asks (query : String) (s : Session) : Answer → Session → Prop
  | refused {e : LinkError} {d : Desk} :
      s.desk.send query .nothing (some .collect) = (.error e, d) →
      Asks query s (.failed e) (s.withDesk d)
  | sent {token : Token} {d : Desk} {signals : List Signal} {ended : WaitEnd} {t : Session} :
      s.desk.send query .nothing (some .collect) = (.ok token, d) →
      (s.withDesk d).Waits (some token) false signals ended t →
      Asks query s (t.conclude token d.journal.size ended).1
        (t.conclude token d.journal.size ended).2

/-- Where nobody interferes, this is how it goes. -/
theorem asks_ask (s : Session) (query : String) :
    s.Asks query (s.ask query).1 (s.ask query).2 := by
  rw [ask, atDesk]
  cases hs : s.desk.send query .nothing (some .collect) with
  | mk outcome d =>
    cases outcome with
    | error e => exact .refused hs
    | ok token =>
      obtain ⟨signals, -, waits⟩ := waits_waitRounds (some token) false (s.withDesk d)
      exact .sent hs waits

namespace Answer

/-- The move with which an exchange ends, if it is over. -/
def ending (token : Token) : Answer → List Move
  | .blocked => []
  | .text _ | .failed _ => [.clearOnConsole token]

/-- What is to happen then with console text while the command is the latest. -/
def collector : Answer → Option (OnConsole Reaction)
  | .blocked => some .collect
  | .text _ | .failed _ => none

end Answer

theorem run_ending {c : Chronicle} (hc : c.session = t) (token : Token) (seen : Nat)
    (ended : WaitEnd) :
    (c.run ((t.conclude token seen ended).1.ending token)).session =
      (t.conclude token seen ended).2 := by
  subst hc
  cases ended <;> rfl

/-- The command keeps its collector as long as the exchange goes on. -/
theorem handlers?_conclude (t : Session) (token : Token) (seen : Nat) (ended : WaitEnd) :
    (t.desk.handlers? token = some ⟨none, some .collect⟩ →
      (t.conclude token seen ended).2.desk.handlers? token =
        some ⟨none, (t.conclude token seen ended).1.collector⟩) ∧
    (t.desk.handlers? token = none →
      (t.conclude token seen ended).2.desk.handlers? token = none) := by
  have cleared : (t.desk.clearOnConsole token).handlers? token =
      (t.desk.handlers? token).map ({ · with onConsole := none }) := by
    unfold Desk.handlers? Desk.clearOnConsole
    rw [Dict.find?_modify, if_pos rfl, Option.map_map, Option.map_map]
    rfl
  cases ended with
  | blocked => exact ⟨id, id⟩
  | found | stopped | closed | timedOut =>
    exact ⟨fun h => cleared.trans (congrArg _ h), fun h => cleared.trans (congrArg _ h)⟩

end Session

/-- What asking comes to, by the lines that were taken and by what was entered before the result. -/
inductive Replies (token : Token) (lines : List String) (news : Ledger) (t : Session) :
    Session.Answer → Prop
  /-- The result came, and no line behind it was taken. The text is all console text up to it. -/
  | text {front : List String} {line : String} {text : String} :
      lines = front ++ [line] → (∀ l ∈ front, isAwaited (some token) l = false) →
      isAwaited (some token) line = true →
      (news.Undisturbed token →
        text = String.join ((lines.filterMap accepted?).filterMap Message.consoleText?)) →
      Replies token lines news t (.text text)
  | failed :
      (∀ line ∈ lines, isAwaited (some token) line = false) →
      Replies token lines news t
        (.failed (if t.isClosed then .closed else .waitStopped (some token)))
  /-- It is still waited for the result. -/
  | blocked :
      (∀ line ∈ lines, isAwaited (some token) line = false) → Replies token lines news t .blocked

/-- The answer that is left by a wait, if the text is what was collected in it. -/
theorem replies_of_ends {token : Token} {lines : List String} {news : Ledger} {t : Session}
    {ended : WaitEnd} {seen : Nat} (ends : Session.Ends (some token) lines ended)
    (collected : news.Undisturbed token → (t.desk.journal.toList.drop seen).filterMap
      (Event.collected? token) = (lines.filterMap accepted?).filterMap Message.consoleText?) :
    Replies token lines news (t.conclude token seen ended).2 (t.conclude token seen ended).1 := by
  cases ends with
  | found split before awaited =>
    refine .text split before awaited fun undisturbed => ?_
    have texts := collected undisturbed
    rw [← texts]
    rfl
  | missed other missed =>
    cases ended with
    | found => exact absurd rfl other
    | blocked => exact .blocked missed
    | stopped | closed | timedOut => exact .failed missed

namespace Chronicle

/-- A command has been sent for its console text. -/
def asking (c : Chronicle) (query : String) : Chronicle :=
  c.step (.send query .nothing (some .collect))

/-- Its result has been waited for, with this answer. -/
def asked (c : Chronicle) (query : String) (token : Token) (waiting : List Move)
    (answer : Session.Answer) : Chronicle :=
  (c.asking query).run (waiting ++ answer.ending token)

end Chronicle

/-- What an exchange comes to in which a command was sent for its console text. These are the moves
by which its result was waited for, what was entered meanwhile, and the answer. -/
structure Exchange (c : Chronicle) (l : Ledger) (query : String) (token : Token)
    (waiting : List Move) (news : Ledger) (answer : Session.Answer) (t : Session) : Prop where
  only : ∀ move ∈ waiting, move.isOfWaiting = true
  asked : (c.asked query token waiting answer).session = t
  entered : c.ledger l (.send query .nothing (some .collect) :: waiting) =
    news ++ l.asking token query
  /-- The lines taken are the first ones that were there, and what is left stands behind them. -/
  split : Splits (c.session.lines.octets ++ (c.asking query).filled waiting)
    ((c.asking query).taken waiting) t.lines.octets
  received : received t.desk.journal =
    received c.session.desk.journal ++ ((c.asking query).taken waiting).filterMap accepted?
  replies : Replies token ((c.asking query).taken waiting) news t answer
  /-- Commands that were sent meanwhile have later tokens. -/
  later : ∀ k ∈ news.tokens, token.number < k.number ∧ k.number ≤ t.desk.issued
  tracked : .forgot token ∉ news → t.desk.handlers? token = some ⟨none, answer.collector⟩
  forgotten : .forgot token ∈ news → t.desk.handlers? token = none
  /-- Once there is an answer no more text is collected, whatever happens. -/
  deaf : answer ≠ .blocked → ∀ more,
    ((c.asked query token waiting answer).run more).session.desk.issued < UInt64.size →
      ((c.asked query token waiting answer).run more).tracker.collected token =
        t.tracker.collected token

theorem recorded_consoleFor? : Recorded (WhileTokensLast
    (Announced Staffed Call.console? fun l m => (l.consoleFor? m).toList)) :=
  placed_staffed.announced fun staffed => staffed.filterMap_console?_callsOn

theorem kept_issued (n : Nat) : Kept fun t _ => n ≤ t.desk.issued where
  bare {t u _} same less := by
    have issued : t.desk.issued = u.desk.issued := congrArg (·.desk.issued) same
    exact issued ▸ less
  close less := less
  subscribe _ _ less := less
  revise _ _ _ less := less
  send _ _ _ less := Nat.le_trans less (Desk.issued_le_send _ _ _ _)
  forget _ less := less
  settle {t _} m less := by
    obtain ⟨_, _, _, _, _, settled⟩ := t.settle_eq m
    rw [settled]
    exact less

/-- No token is taken back in a run. -/
theorem Chronicle.issued_le_run (c : Chronicle) (moves : List Move) :
    c.session.desk.issued ≤ (c.run moves).session.desk.issued :=
  (kept_issued c.session.desk.issued).lasting.run (c := c) (Nat.le_refl _) moves

/-- A chronicle and a ledger that tell of the same run. -/
structure Documented (c : Chronicle) (l : Ledger) : Prop where
  history : l.history = c.history
  records : c.history.records = received c.session.desk.journal
  announced : WhileTokensLast
    (Announced Staffed Call.console? fun l m => (l.consoleFor? m).toList) c.tracker l

theorem documented_chronicle (source : Source) (sink : Sink) (settings : Settings)
    (moves : List Move) :
    Documented (Session.chronicle source sink settings moves)
      (Session.ledger source sink settings moves) where
  history := Session.history_ledger source sink settings moves
  records := Chronicle.records_run rfl moves
  announced := recorded_consoleFor?.chronicle
    (fun _ => ⟨staffed_connect source sink settings, rfl, rfl⟩) moves

namespace Documented

variable {c : Chronicle} {l news : Ledger} {query : String} {token : Token} {moves : List Move}
  (documented : Documented c l)
include documented

theorem run (moves : List Move) : Documented (c.run moves) (c.ledger l moves) where
  history := Chronicle.history_ledger documented.history moves
  records := Chronicle.records_run documented.records moves
  announced := recorded_consoleFor?.run documented.announced moves

theorem staffed (few : c.session.desk.issued < UInt64.size) : Staffed c.tracker l :=
  (documented.announced few).base

theorem collected (few : c.session.desk.issued < UInt64.size) (token : Token) :
    c.tracker.collected token = l.collected token :=
  (documented.announced few).collected_eq token

/-- The records received in a run are those of the lines that it took. -/
theorem received_run (moves : List Move) :
    received (c.run moves).session.desk.journal =
      received c.session.desk.journal ++ (c.taken moves).filterMap accepted? := by
  rw [← (documented.run moves).records, ← documented.records]
  exact c.history_records_run moves

/-- The records that were entered in a run are those of the lines that it took. -/
theorem records_news (grown : c.ledger l moves = news ++ l) :
    (Ledger.history news).records = (c.taken moves).filterMap accepted? := by
  have after := (documented.run moves).history
  have split : (news ++ l : Ledger).history = Ledger.history news ++ l.history :=
    List.filterMap_append
  rw [grown, split] at after
  have records := c.history_records_run moves
  rw [← after, History.records_append, documented.history] at records
  exact List.append_cancel_left records

/-- The texts that were collected in a run are those that were entered in it. -/
theorem collected_run (few : (c.run moves).session.desk.issued < UInt64.size)
    (grown : c.ledger l moves = news ++ l) (token : Token) :
    l.collected token ++ ((c.run moves).session.desk.journal.toList.drop
      c.session.desk.journal.size).filterMap (Event.collected? token) =
        (news ++ l : Ledger).collected token := by
  obtain ⟨events, noted⟩ := c.notes_run moves
  have before := documented.collected (Nat.lt_of_le_of_lt (c.issued_le_run moves) few) token
  have after := (documented.run moves).collected few token
  rw [grown] at after
  rw [← after, ← before, noted, ← Array.length_toList, List.drop_left, Tracker.collected,
    Tracker.collected, ← List.filterMap_append]
  exact congrArg (List.filterMap _) noted.symm

/-- A command is silenced for good. -/
theorem collected_of_deaf (deaf : l.Deaf token) (sent : token ∈ l.tokens) {moves : List Move}
    (few : (c.run moves).session.desk.issued < UInt64.size) :
    (c.run moves).tracker.collected token = c.tracker.collected token := by
  obtain ⟨news, grown, -⟩ := c.exists_news l moves
  have after := documented.run moves
  rw [grown] at after
  have once : token ∉ Ledger.given news := by
    have distinct := (after.staffed few).distinct few
    rw [Ledger.given_append, List.nodup_append] at distinct
    exact fun again => distinct.2.2 token (l.tokens_sublist_given.mem sent) token again rfl
  have before := documented.collected (Nat.lt_of_le_of_lt (c.issued_le_run moves) few) token
  rw [after.collected few, (deaf.append once).2, before]

end Documented

/-- Commands that were sent meanwhile have later tokens. -/
theorem Staffed.later {t : Tracker} {l news : Ledger} {query : String} {token : Token}
    (staffed : Staffed t (news ++ l.asking token query)) (few : t.desk.issued < UInt64.size) :
    ∀ k ∈ news.tokens, token.number < k.number ∧ k.number ≤ t.desk.issued := by
  have ascending := staffed.ascending few
  rw [Ledger.tokens_append, Ledger.tokens_asking, List.pairwise_append] at ascending
  have given : token ∈ l.tokens ++ [token] :=
    List.mem_append_right _ (List.mem_singleton_self _)
  intro k hk
  refine ⟨ascending.2.2 token given k hk, staffed.number_le ?_⟩
  rw [Ledger.given_append]
  exact List.mem_append_right _ ((Ledger.tokens_sublist_given news).mem hk)

/-- While it is waited for its result, a command that was sent for its console text has its
collector, unless it was forgotten. -/
theorem Ledger.handlers?_asking {token : Token} {news : Ledger} (l : Ledger) (query : String)
    (once : token ∉ news.given) (unsilenced : .silenced token ∉ news) :
    (.forgot token ∉ news →
        handlers? token (news ++ l.asking token query) = some ⟨none, some .collect⟩) ∧
      (.forgot token ∈ news → handlers? token (news ++ l.asking token query) = none) := by
  constructor
  · intro unforgotten
    rw [handlers?_append _ once unforgotten unsilenced, asking, handlers?, if_pos rfl]
    rfl
  · intro forgot
    obtain ⟨after, before, rfl⟩ := List.append_of_mem forgot
    rw [given_append, List.mem_append, not_or] at once
    rw [List.append_assoc, List.cons_append, handlers?_append_forgot _ once.2]

section exchange
variable {c : Chronicle} {l : Ledger} {query : String} {token : Token} {d : Desk}

theorem Chronicle.session_asking
    (hs : c.session.desk.send query .nothing (some .collect) = (.ok token, d)) :
    (c.asking query).session = c.session.withDesk d := by
  simp only [asking, step, Session.atDesk, hs]

theorem Documented.asking (documented : Documented c l)
    (hs : c.session.desk.send query .nothing (some .collect) = (.ok token, d)) :
    l.stepping c.session (.send query .nothing (some .collect)) = l.asking token query ∧
      Documented (c.asking query) (l.asking token query) := by
  have entry : l.stepping c.session (.send query .nothing (some .collect)) =
      l.asking token query := by
    rw [Ledger.stepping, Ledger.sending, hs]
    rfl
  have step := documented.run [.send query .nothing (some .collect)]
  rw [Chronicle.ledger, entry] at step
  exact ⟨entry, step⟩

/-- Once an exchange is over, the command is silenced for good. -/
theorem Documented.deaf {waiting more : List Move} {news : Ledger} {answer : Session.Answer}
    (waited : Documented ((c.asking query).run waiting) (news ++ l.asking token query))
    (ended : answer ≠ .blocked)
    (few : ((c.asked query token waiting answer).run more).session.desk.issued < UInt64.size) :
    ((c.asked query token waiting answer).run more).tracker.collected token =
      (c.asked query token waiting answer).tracker.collected token := by
  have ending : answer.ending token = [.clearOnConsole token] := by
    cases answer with
    | blocked => exact absurd rfl ended
    | text _ | failed _ => rfl
  rw [Chronicle.asked, ending, Chronicle.run_append] at few ⊢
  have silenced := waited.run [.clearOnConsole token]
  refine silenced.collected_of_deaf (Ledger.deaf_silenced token _) ?_ few
  have sent : token ∈ Ledger.tokens (news ++ l.asking token query) := by
    rw [Ledger.tokens_append, Ledger.tokens_asking]
    exact List.mem_append_left _ (List.mem_append_right _ (List.mem_singleton_self _))
  exact sent

theorem Documented.exchange (documented : Documented c l)
    (hs : c.session.desk.send query .nothing (some .collect) = (.ok token, d))
    {signals : List Signal} {ended : WaitEnd} {t : Session}
    (waits : (c.session.withDesk d).Waits (some token) false signals ended t)
    (few : t.desk.issued < UInt64.size) :
    ∃ waiting news, Exchange c l query token waiting news
      (t.conclude token d.journal.size ended).1 (t.conclude token d.journal.size ended).2 := by
  obtain ⟨waiting, lines, leads, ends⟩ := waits.leads
  rw [← Chronicle.session_asking hs] at leads
  have waited : ((c.asking query).run waiting).session = t :=
    leads.session (c.asking query).history
  have taken : (c.asking query).taken waiting = lines := leads.taken (c.asking query).history
  obtain ⟨entry, began⟩ := documented.asking hs
  obtain ⟨news, grown, quiet⟩ := (c.asking query).exists_news (l.asking token query) waiting
  have unsilenced := quiet leads.waiting token
  have after := began.run waiting
  rw [grown] at after
  have few : ((c.asking query).run waiting).session.desk.issued < UInt64.size := waited ▸ few
  have staffed := after.staffed few
  have once : token ∉ Ledger.given news := Ledger.not_mem_given_of_nodup (staffed.distinct few)
  have handlers := Ledger.handlers?_asking l query once unsilenced
  rw [← staffed.handlers] at handlers
  have concluded := t.handlers?_conclude token d.journal.size ended
  obtain ⟨journal, issued, left⟩ := t.conclude_unmoved token d.journal.size ended
  have asked : (c.asked query token waiting (t.conclude token d.journal.size ended).1).session =
      (t.conclude token d.journal.size ended).2 := by
    rw [Chronicle.asked, Chronicle.run_append]
    exact Session.run_ending waited token _ ended
  refine ⟨waiting, news, leads.waiting, asked, ?_, ?_, ?_, ?_, ?_, ?_, ?_, ?_⟩
  · rw [Chronicle.ledger, entry]
    exact grown
  · rw [left, ← waited]
    exact (c.asking query).splits_run waiting
  · rw [journal, ← waited]
    exact documented.received_run (.send query .nothing (some .collect) :: waiting)
  · rw [taken]
    refine replies_of_ends ends fun undisturbed => ?_
    have texts := began.collected_run few grown token
    have seen : (c.asking query).session.desk.journal.size = d.journal.size :=
      congrArg (·.desk.journal.size) (Chronicle.session_asking hs)
    rw [undisturbed.collected_eq once unsilenced, began.records_news grown, taken, waited,
      seen] at texts
    exact List.append_cancel_left texts
  · rw [issued, ← waited]
    exact staffed.later few
  · intro unforgotten
    exact concluded.1 ((congrArg (·.desk.handlers? token) waited).symm.trans
      (handlers.1 unforgotten))
  · intro forgot
    exact concluded.2 ((congrArg (·.desk.handlers? token) waited).symm.trans (handlers.2 forgot))
  · intro finished more last
    rw [after.deaf finished last]
    exact congrArg (·.tracker.collected token) asked

end exchange

/-- Whoever asks for console text, in whatever run, is refused if the command cannot be sent.
Otherwise its result is waited for, whatever comes meanwhile from the far end or is asked for by
others. This takes the lines up to the first with the token of the command and no line behind it.
While no other command is sent and this one is not forgotten, the answer is the console text of all
these lines. It is an error just if the wait ends without such a line. Afterwards the command is in
view without a handler, unless it was forgotten, and no more text is collected for it. All this
holds as long as tokens last. -/
theorem asking_brings_the_console_text_up_to_the_result (source : Source) (sink : Sink)
    (settings : Settings) (moves : List Move) (query : String) :
    let c := Session.chronicle source sink settings moves
    let l := Session.ledger source sink settings moves
    c.session.Asks query (c.session.ask query).1 (c.session.ask query).2 ∧
      ∀ answer t, c.session.Asks query answer t → t.desk.issued < UInt64.size →
        match c.session.desk.send query .nothing (some .collect) with
        | (.error e, d) => answer = .failed e ∧ t = c.session.withDesk d
        | (.ok token, _) => ∃ waiting news, Exchange c l query token waiting news answer t := by
  intro c l
  refine ⟨c.session.asks_ask query, fun answer t asks few => ?_⟩
  have documented : Documented c l := documented_chronicle source sink settings moves
  cases asks with
  | refused hs =>
    rw [hs]
    exact ⟨rfl, rfl⟩
  | @sent token d signals ended t hs waits =>
    rw [hs]
    obtain ⟨-, issued, -⟩ := t.conclude_unmoved token d.journal.size ended
    exact documented.exchange hs waits (issued ▸ few)

/-- A part of the text and the result come only while it is waited for them. The text behind the
result stays where it is. -/
theorem a_query_is_answered_with_the_text_before_its_result :
    let early := Utf8.encode "~\"one\"\n(gdb) \n"
    let c := Session.chronicle ⟨.channel { queue := [early] }, {}⟩ {} {}
      [.send "-exec-run" .nothing none]
    ∃ t, c.session.Asks "info line" (.text "one two") t ∧ t.desk.issued < UInt64.size ∧
      t.lines.octets = Utf8.encode "~\"late\"\n" ∧
      t.desk.handlers? ⟨2⟩ = some ⟨none, none⟩ ∧
      ∃ front line, isAwaited (some ⟨2⟩) line = true ∧
        "one two" =
          String.join (((front ++ [line]).filterMap accepted?).filterMap Message.consoleText?) := by
  intro early c
  let later := Utf8.encode "~\" two\"\n2^done\n~\"late\"\n"
  let d := (c.session.desk.send "info line" .nothing (some .collect)).2
  let u := ((c.session.withDesk d).poll (some ⟨2⟩)).2
  let v := (Session.poll { u with source := ⟨.channel { queue := [later] }, {}⟩ } (some ⟨2⟩)).2
  have went : c.session.desk.send "info line" .nothing (some .collect) = (.ok ⟨2⟩, d) := rfl
  have waits : (c.session.withDesk d).Waits (some ⟨2⟩) false _ .found v :=
    .pending (by decide +kernel) (Prod.ext (by decide +kernel) rfl)
      (.farEnd _ (.found (by decide +kernel) (Prod.ext (by decide +kernel) rfl)))
  have asks := Session.Asks.sent went waits
  have answer : (v.conclude ⟨2⟩ d.journal.size .found).1 = .text "one two" := by decide +kernel
  have issued : (v.conclude ⟨2⟩ d.journal.size .found).2.desk.issued = 2 := by decide +kernel
  have left : (v.conclude ⟨2⟩ d.journal.size .found).2.lines.octets =
      Utf8.encode "~\"late\"\n" := by decide +kernel
  have there : ((v.conclude ⟨2⟩ d.journal.size .found).2.desk.handlers? ⟨2⟩).isSome = true := by
    decide +kernel
  have few : (v.conclude ⟨2⟩ d.journal.size .found).2.desk.issued < UInt64.size := by
    rw [issued]
    decide
  generalize (v.conclude ⟨2⟩ d.journal.size .found).2 = t at asks issued left there few
  rw [answer] at asks
  have asked := (asking_brings_the_console_text_up_to_the_result
    ⟨.channel { queue := [early] }, {}⟩ {} {} [.send "-exec-run" .nothing none] "info line").2
      (.text "one two") t asks few
  let l := Session.ledger ⟨.channel { queue := [early] }, {}⟩ {} {} [.send "-exec-run" .nothing none]
  have exchanged : ∃ waiting news, Exchange c l "info line" ⟨2⟩ waiting news (.text "one two") t := by
    split at asked
    · rename_i refused
      cases went.symm.trans refused
    · rename_i sent
      cases went.symm.trans sent
      exact asked
  obtain ⟨waiting, news, exchange⟩ := exchanged
  have unsent : Ledger.tokens news = [] := by
    refine List.eq_nil_iff_forall_not_mem.mpr fun k hk => ?_
    obtain ⟨more, less⟩ := exchange.later k hk
    exact absurd (Nat.lt_of_lt_of_le more (issued ▸ less)) (Nat.lt_irrefl 2)
  have unforgotten : .forgot ⟨2⟩ ∉ news := by
    intro forgot
    rw [exchange.forgotten forgot] at there
    cases there
  refine ⟨t, asks, few, left, exchange.tracked unforgotten, ?_⟩
  cases exchange.replies with
  | @text front line _ split before awaited text =>
    have collected := text ⟨unsent, unforgotten⟩
    rw [split] at collected
    exact ⟨front, line, awaited, collected⟩

end DebugLink

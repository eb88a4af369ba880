import DebugLink.Proofs.Session.Idle
import DebugLink.Proofs.Session.Meanwhile

/-! What an idle session sends in the course of its operations. Its caller's commands go out when
they are given, and for each record that it receives it may set the target going again; nothing else
is sent. The texts that were sent so far (`Tally`) are therefore continued, from one session to a
later one, by those of the commands given and by the answers to what was heard since (`Sends`),
unless a write has failed. -/

namespace DebugLink

/-- What a session sends of itself once it has received a record. -/
def Message.answers (resumes : Bool) (m : Message) : List String :=
  if resumes && m.halts then ["-exec-continue"] else []

/-- A write has failed. -/
def Event.isFailedSend : Event → Bool
  | .noticed (.sendFailed ..) => true
  | _ => false

theorem Sink.written_of_write {s s' : Sink} {octets : Octets} (h : s.write octets = (none, s')) :
    s'.written = s.written ++ octets := by
  unfold write at h
  split at h <;> cases h <;> rfl

/-- Lines as they are written. -/
def octetsOfLines (lines : List String) : Octets :=
  Utf8.encode (String.join (lines.map (· ++ "\n")))

namespace Desk

variable {d e : Desk} {texts : List String} {text : String} {onResult : OnResult Reaction}
  {onConsole : Option (OnConsole Reaction)}

/-! ### The texts that were sent -/

/-- Some commands, each behind its token; the tokens are those from the first one on. -/
def numbered (texts : List String) : List String :=
  texts.mapIdx fun i text => (Token.ofNumber (i + 1)).text ++ text

structure HasSent (d : Desk) (texts : List String) : Prop where
  issued : d.issued = texts.length
  written : d.sink.written = octetsOfLines (numbered texts)

theorem join_numbered_concat (texts : List String) (text : String) :
    String.join ((numbered (texts ++ [text])).map (· ++ "\n")) =
      String.join ((numbered texts).map (· ++ "\n")) ++
        commandLine (.ofNumber (texts.length + 1)) text := by
  simp [numbered, commandLine, List.mapIdx_append]

/-- A send that leaves the connection there has gone out. -/
theorem HasSent.send (sent : d.HasSent texts)
    (opened : (d.send text onResult onConsole).2.closed = false) :
    (d.send text onResult onConsole).2.HasSent (texts ++ [text]) := by
  have sends := Ledger.sends [] none d text onResult onConsole
  generalize d.send text onResult onConsole = outcome,
    Ledger.sending [] none d text onResult onConsole = l at sends opened ⊢
  cases sends with
  | refused hc => exact absurd (hc.symm.trans opened) Bool.noConfusion
  | failed _ _ _ _ => cases opened
  | went sink _ hw =>
    refine ⟨by simp [sent.issued], ?_⟩
    have written := Sink.written_of_write hw
    rw [sent.written, octetsOfLines, nextToken, sent.issued, ← Utf8.encode_append,
      ← join_numbered_concat] at written
    exact written

theorem HasSent.of_same (sent : d.HasSent texts) (issued : e.issued = d.issued)
    (sink : e.sink = d.sink) : e.HasSent texts :=
  ⟨issued.trans sent.issued, sink ▸ sent.written⟩

/-! ### Writes that fail -/

/-- No write has failed. -/
def Unbroken (d : Desk) : Prop := ∀ x ∈ d.journal.toList, x.isFailedSend = false

instance (d : Desk) : Decidable d.Unbroken :=
  inferInstanceAs (Decidable (∀ x ∈ d.journal.toList, x.isFailedSend = false))

theorem Notes.unbroken {events : List Event} (noted : d.Notes e events) (unbroken : e.Unbroken) :
    d.Unbroken := by
  intro x there
  refine unbroken x ?_
  rw [noted]
  exact List.mem_append_left _ there

/-- Where no write fails, the connection is not ended by what is done at the desk. -/
theorem Moves.closed_of_unbroken (moves : d.Moves e) (unbroken : e.Unbroken) :
    e.closed = d.closed := by
  induction moves with
  | none => rfl
  | log event _ _ ih => exact ih ((notes_log _ event).unbroken unbroken)
  | @send e text onResult onConsole _ ih =>
    obtain ⟨_, noted⟩ := e.notes_send text onResult onConsole
    rw [← ih (noted.unbroken unbroken)]
    have sends := Ledger.sends [] .none e text onResult onConsole
    generalize e.send text onResult onConsole = outcome,
      Ledger.sending [] .none e text onResult onConsole = l at sends unbroken ⊢
    cases sends with
    | refused _ | went _ _ _ => rfl
    | failed _ _ _ _ =>
      exact absurd (unbroken _ (Array.mem_toList_iff.mpr Array.mem_push_self)) nofun
  | forget _ _ ih | requestStop _ ih | revise _ _ _ ih => exact ih unbroken

end Desk

/-- Nor is it then by taking a line. -/
theorem Tracker.closed_takeLine_of_unbroken (t : Tracker) (line : String)
    (unbroken : (t.takeLine line).2.desk.Unbroken) :
    (t.takeLine line).2.desk.closed = t.desk.closed := by
  refine takeLine_keeps (Q := fun d => d.Unbroken → d.closed = t.desk.closed) ?_ ?_
    (fun _ => rfl) line unbroken
  · intro d e doings same unbroken
    obtain ⟨_, noted, -⟩ := doings.moves.notes
    exact (doings.moves.closed_of_unbroken unbroken).trans (same (noted.unbroken unbroken))
  · exact fun m same unbroken => same ((Desk.notes_log _ (.received m)).unbroken unbroken)

/-! ### What was sent at some moment -/

/-- The tracker is idle, goes about its work as it was told to, and has sent these texts. -/
structure Tracker.Tally (resumes : Bool) (texts : List String) (t : Tracker) : Prop where
  idle : t.IsIdle
  resumes : t.settings.resumes = resumes
  sent : t.desk.HasSent texts

theorem Tracker.Tally.take {resumes : Bool} {texts : List String} {t : Tracker}
    (tally : t.Tally resumes texts) (opened : t.desk.closed = false) (m : Message)
    (unbroken : (t.take m).desk.Unbroken) :
    (t.take m).Tally resumes (texts ++ m.answers resumes) := by
  obtain ⟨idle, d, before, after⟩ := tally.idle.take m
  obtain ⟨_, same⟩ := t.fresh_take m
  obtain ⟨_, _, _, _, _, settled⟩ := t.settle_eq m
  rw [settled] at same
  have settings : (t.take m).settings.resumes = t.settings.resumes :=
    congrArg (·.settings.resumes) same
  refine ⟨idle, settings.trans tally.resumes, ?_⟩
  have sent := tally.sent.of_same before.issued before.sink
  -- The target is called at a desk that is there afterwards, so its command has gone out.
  have still : (t.take m).desk.closed = false :=
    ((t.doings_take m).moves.closed_of_unbroken unbroken).trans opened
  rw [Message.answers, ← tally.resumes]
  cases due : t.settings.resumes && m.halts with
  | false =>
    rw [due] at after
    rw [if_neg Bool.false_ne_true, List.append_nil]
    exact sent.of_same after.issued after.sink
  | true =>
    rw [due, if_pos rfl] at after
    rw [if_pos rfl]
    exact (sent.send (after.closed.symm.trans still)).of_same after.issued after.sink

namespace Tracker.Tally

variable {resumes : Bool} {texts : List String} {t : Tracker}

theorem withDesk (tally : t.Tally resumes texts) {desk : Desk}
    (commands : desk.commands.All Command.IsIdle) (issued : desk.issued = t.desk.issued)
    (sink : desk.sink = t.desk.sink) : Tally resumes texts { t with desk } :=
  ⟨tally.idle.withCommands commands, tally.resumes, tally.sent.of_same issued sink⟩

theorem notice (tally : t.Tally resumes texts) (n : Notice) : (t.notice n).Tally resumes texts :=
  tally.withDesk tally.idle.commands rfl rfl

theorem takeLine (tally : t.Tally resumes texts) (opened : t.desk.closed = false) (line : String)
    (unbroken : (t.takeLine line).2.desk.Unbroken) :
    (t.takeLine line).2.Tally resumes
      (texts ++ (accepted? line).toList.flatMap (·.answers resumes)) := by
  unfold Tracker.takeLine accepted? at *
  split
  · rw [Option.toList_none, List.flatMap_nil, List.append_nil]
    exact tally
  · rename_i hb
    rw [if_neg hb] at unbroken
    cases hm : Message.ofLine line with
    | error flaw => simpa [Except.toOption] using tally.notice (.malformed flaw)
    | ok m =>
      rw [hm] at unbroken
      simpa [Except.toOption] using tally.take opened m unbroken

end Tracker.Tally

/-! ### From one session to a later one -/

namespace Session

/-- What is true of the tracker; and when the connection has ended, no line is left. -/
structure Tally (resumes : Bool) (texts : List String) (s : Session) : Prop where
  tracker : s.tracker.Tally resumes texts
  spent : s.isClosed = true → s.lines.next? = none

/-- The records that were received from one moment to the other. -/
def heard (s t : Session) : List Message :=
  (received t.desk.journal).drop (received s.desk.journal).length

theorem heard_of_append {s t : Session} {ms : List Message}
    (h : received t.desk.journal = received s.desk.journal ++ ms) : heard s t = ms := by
  rw [heard, h, List.drop_left]

/-- From one session to the other these commands are given, if the connection is there; then come
records, each with its answer. -/
structure Sends (resumes : Bool) (commands : List String) (s t : Session) : Prop where
  unbroken : t.desk.Unbroken → s.desk.Unbroken
  hears : received t.desk.journal = received s.desk.journal ++ heard s t
  tally {texts : List String} : t.desk.Unbroken → (commands ≠ [] → s.isClosed = false) →
    s.Tally resumes texts →
    t.Tally resumes (texts ++ commands ++ (heard s t).flatMap (·.answers resumes))

variable {resumes : Bool} {commands : List String} {s t u : Session}

theorem Sends.of_heard (ms : List Message)
    (heard : received t.desk.journal = received s.desk.journal ++ ms)
    (unbroken : t.desk.Unbroken → s.desk.Unbroken)
    (tally : ∀ {texts}, t.desk.Unbroken → (commands ≠ [] → s.isClosed = false) →
      s.Tally resumes texts →
      t.Tally resumes (texts ++ commands ++ ms.flatMap (·.answers resumes))) :
    Sends resumes commands s t := by
  obtain rfl := heard_of_append heard
  exact ⟨unbroken, heard, tally⟩

/-- Nothing is sent, and nothing is received. -/
theorem Sends.of_silence (same : received t.desk.journal = received s.desk.journal)
    (unbroken : t.desk.Unbroken → s.desk.Unbroken)
    (tally : ∀ {texts}, s.Tally resumes texts → t.Tally resumes texts) : Sends resumes [] s t :=
  .of_heard [] (same.trans (List.append_nil _).symm) unbroken fun {texts} _ _ before => by
    rw [List.flatMap_nil, List.append_nil, List.append_nil]
    exact tally before

theorem Sends.refl (s : Session) : Sends resumes [] s s := .of_silence rfl id id

/-- What comes after a command can be told in two parts. -/
theorem Sends.trans (first : Sends resumes commands s t) (second : Sends resumes [] t u) :
    Sends resumes commands s u := by
  refine .of_heard (heard s t ++ heard t u) ?_ (first.unbroken ∘ second.unbroken) ?_
  · rw [second.hears, first.hears, List.append_assoc]
  · intro texts unbroken opened before
    have after := second.tally unbroken nofun
      (first.tally (second.unbroken unbroken) opened before)
    rw [List.append_nil] at after
    rw [List.flatMap_append, ← List.append_assoc]
    exact after

theorem sends_send (s : Session) (text : String) {onResult : OnResult Reaction}
    {onConsole : Option (OnConsole Reaction)}
    (command : Command.IsIdle ⟨text, .pending, onResult, onConsole⟩) :
    Sends resumes [text] s (s.atDesk (·.send text onResult onConsole)).2 := by
  obtain ⟨_, noted⟩ := s.desk.notes_send text onResult onConsole
  refine .of_heard [] ?_ noted.unbroken fun unbroken opened before => ?_
  · rw [List.append_nil]
    exact s.desk.received_send text onResult onConsole
  · have still : (s.desk.send text onResult onConsole).2.closed = false :=
      ((Desk.Moves.none.send text onResult onConsole).closed_of_unbroken unbroken).trans
        (opened (List.cons_ne_nil _ _))
    rw [List.flatMap_nil, List.append_nil]
    exact ⟨⟨before.tracker.idle.send text command, before.tracker.resumes,
      before.tracker.sent.send still⟩, fun closed => absurd (still.symm.trans closed) nofun⟩

theorem sends_afterLine {line : String} {rest : LineBuffer} (s : Session)
    (hl : s.lines.next = (some line, rest)) : Sends resumes [] s (s.afterLine line rest) := by
  obtain ⟨_, noted⟩ := s.tracker.notes_takeLine line
  refine .of_heard _ (s.tracker.received_takeLine line) noted.unbroken ?_
  intro texts unbroken _ before
  -- There is a line left, so the connection is there when its record is taken.
  have opened : s.desk.closed = false := by
    cases hc : s.desk.closed with
    | false => rfl
    | true => exact absurd ((before.spent hc).symm.trans (LineBuffer.next?_of_next_some hl)) nofun
  have still := (s.tracker.closed_takeLine_of_unbroken line unbroken).trans opened
  rw [List.append_nil]
  exact ⟨before.tracker.takeLine opened line unbroken,
    fun closed => absurd (still.symm.trans closed) nofun⟩

theorem sends_fill (s : Session) (hn : s.lines.next? = none) : Sends resumes [] s s.fill.2 := by
  obtain ⟨_, noted⟩ := s.notes_fill
  refine .of_silence (Chronicle.received_fill s) noted.unbroken fun {texts} tally => ?_
  have ended : ∀ {t : Tracker} {source : Source}, t.Tally resumes texts →
      Tally resumes texts (markClosed { s with tracker := t, source }) := fun same =>
    ⟨same.withDesk same.idle.commands rfl rfl, fun _ => hn⟩
  unfold fill
  split
  · exact tally
  · rename_i opened
    split
    · exact ended (tally.tracker.notice _)
    · exact ⟨tally.tracker, tally.spent⟩
    · split
      · exact ended (tally.tracker.notice _)
      · exact ⟨tally.tracker, tally.spent⟩
      · exact ended tally.tracker
      · exact ⟨tally.tracker, fun closed => absurd closed opened⟩

/-- Nothing is sent when something is done about the commands in view, or noted. -/
theorem sends_withDesk (s : Session) {desk : Desk}
    (same : received desk.journal = received s.desk.journal)
    (unbroken : desk.Unbroken → s.desk.Unbroken)
    (commands : s.desk.commands.All Command.IsIdle → desk.commands.All Command.IsIdle)
    (unsent : s.desk.Unsent desk) : Sends resumes [] s (s.withDesk desk) := by
  refine .of_silence same unbroken fun tally => ?_
  refine ⟨tally.tracker.withDesk (commands tally.tracker.idle.commands) unsent.issued unsent.sink,
    fun closed => tally.spent ?_⟩
  exact unsent.closed.symm.trans closed

/-- Reading and waiting send no more than the answers to what they hear. -/
theorem stable_sends (s : Session) : Stable (Sends resumes commands s) where
  line sends hl := sends.trans (sends_afterLine _ hl)
  vain sends hn := sends.trans <| .of_silence rfl id fun tally =>
    ⟨tally.tracker, fun _ => LineBuffer.next?_eq_none_of_next_none hn⟩
  fill sends hn := sends.trans (sends_fill _ hn)
  stop target sends := sends.trans <|
    sends_withDesk _ (received_push_of_quiet _ rfl)
      (Desk.notes_log _ (.noticed (.waitStopped target))).unbroken id ⟨rfl, rfl, rfl⟩

theorem sends_farEnd (s : Session) (source : Source) : Sends resumes [] s { s with source } :=
  .of_silence rfl id fun tally => ⟨tally.tracker, tally.spent⟩

/-- Nor does anything that can happen meanwhile. -/
theorem robust_sends (s : Session) : Robust (Sends resumes commands s) where
  toStable := stable_sends s
  farEnd source sends := sends.trans (sends_farEnd _ source)
  asked sends := sends.trans (sends_withDesk _ rfl id id ⟨rfl, rfl, rfl⟩)

theorem sends_forget (s : Session) (token : Token) :
    Sends resumes [] s (s.atDesk (·.forget token)).2 :=
  s.sends_withDesk rfl id (·.erase token) ⟨rfl, rfl, rfl⟩

/-- A question is put to the debugger by sending it. -/
theorem sends_of_asks {query : String} {answer : Answer} (asks : s.Asks query answer t) :
    Sends resumes [query] s t := by
  have sent : Sends resumes [query] s
      (s.withDesk (s.desk.send query .nothing (some .collect)).2) :=
    s.sends_send query ⟨trivial, by rintro _ ⟨⟩; trivial⟩
  cases asks with
  | refused hs =>
    rw [hs] at sent
    exact sent
  | @sent token d _ ended u hs waits =>
    rw [hs] at sent
    have waited := (robust_sends s).waits waits sent
    have cleared : Sends resumes [] u (u.withDesk (u.desk.clearOnConsole token)) :=
      sends_withDesk _ rfl id (·.modify token fun _ c => c.withoutConsole) ⟨rfl, rfl, rfl⟩
    exact conclude_keeps token _ ended waited (waited.trans cleared)

end Session

end DebugLink

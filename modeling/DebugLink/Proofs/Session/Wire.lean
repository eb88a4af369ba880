import DebugLink.Proofs.Record.RoundTrip
import DebugLink.Proofs.Session.Commands

/-! What goes out of a session. Whoever sends, at whatever moment, the sends share one count and one
sink. So the tokens are the numbers from one on, in the order of the sends, and what was written is
the lines of the commands in that order. Tokens are all digits, so a line gives its token back to
whoever reads it, unless the command itself begins with a digit. -/

namespace DebugLink

namespace History

/-- What carries the commands that were sent. -/
def wire (h : History) : String :=
  String.join (h.sends.map fun s => Desk.commandLine s.1 s.2)

theorem wire_sent (h : History) (token : Token) (text : String) (onResult : OnResult Reaction) :
    wire (.sent token text onResult :: h) = h.wire ++ Desk.commandLine token text := by
  simp [wire, sends]

end History

/-! ### Counting and writing -/

/-- The session has counted what it sent, and written it to a sink without limit. -/
structure Accounted (t : Tracker) (h : History) : Prop where
  unlimited : t.desk.sink.remaining = none
  tokens : h.tokens = Token.first t.desk.issued
  written : t.desk.sink.written = Utf8.encode h.wire

theorem Accounted.length {t : Tracker} {h : History} (a : Accounted t h) :
    h.sends.length = t.desk.issued := by
  simpa [History.tokens, Token.first] using congrArg List.length a.tokens

theorem Accounted.send {t : Tracker} {h : History} (a : Accounted t h) (text : String)
    (onResult : OnResult Reaction) (onConsole : Option (OnConsole Reaction)) :
    Accounted { t with desk := (t.desk.send text onResult onConsole).2 }
      (h.sending t.desk text onResult onConsole) := by
  unfold History.sending
  cases hc : t.desk.closed with
  | true =>
    rw [Desk.send_of_closed hc]
    exact a
  | false =>
    rw [Desk.send_of_write hc (Sink.write_of_unlimited a.unlimited _)]
    refine ⟨a.unlimited, ?_, ?_⟩
    · rw [History.tokens_sent, a.tokens, Token.first_succ]
      rfl
    · rw [History.wire_sent, Utf8.encode_append, ← a.written]
      rfl

theorem kept_accounted : Kept Accounted where
  bare {t u _} same a := by
    have sink : t.desk.sink = u.desk.sink := congrArg (·.desk.sink) same
    have issued : t.desk.issued = u.desk.issued := congrArg (·.desk.issued) same
    exact ⟨sink ▸ a.unlimited, issued ▸ a.tokens, sink ▸ a.written⟩
  close a := ⟨a.unlimited, a.tokens, a.written⟩
  subscribe _ _ a := ⟨a.unlimited, a.tokens, a.written⟩
  revise _ _ _ a := ⟨a.unlimited, a.tokens, a.written⟩
  send text onResult onConsole a := a.send text onResult onConsole
  forget _ a := ⟨a.unlimited, a.tokens, a.written⟩
  settle {t _} m a := by
    obtain ⟨_, _, _, _, _, settled⟩ := t.settle_eq m
    rw [settled]
    exact ⟨a.unlimited, a.tokens, a.written⟩

theorem accounted_chronicle (source : Source) (settings : Settings) (moves : List Move) :
    Accounted (Session.chronicle source {} settings moves).tracker
      (Session.chronicle source {} settings moves).history :=
  kept_accounted.lasting.chronicle ⟨rfl, rfl, rfl⟩ moves

/-! ### Reading the lines back -/

theorem splitOn_flatMap_lines {α : Type} {line : α → List Char} (xs : List α)
    (whole : ∀ x ∈ xs, '\n' ∉ line x) :
    ((xs.flatMap fun x => line x ++ ['\n']).splitOn '\n').dropLast = xs.map line := by
  induction xs with
  | nil => rfl
  | cons x xs ih =>
    have rest := ih fun y hy => whole y (List.mem_cons_of_mem x hy)
    rw [List.flatMap_cons, List.append_assoc, List.singleton_append,
      List.splitOn_append_cons_self_of_not_mem (whole x List.mem_cons_self),
      List.dropLast_cons_of_ne_nil (List.splitOn_ne_nil _ _), rest, List.map_cons]

/-- A token is read from the digits that it was written with. -/
theorem Token.ofText_text (token : Token) : Token.ofText token.text = .ok token := by
  have digits : ∀ d ∈ token.chars, d.isDigit = true := fun d hd => Grammar.isDigit_of_mem_chars hd
  have nonempty : token.chars ≠ [] := by
    intro none
    exact Nat.toDigits_ne_nil (List.append_eq_nil_iff.mp none).2
  have read := Decimal.readChars_digits (by decide : 0 < UInt64.size) nonempty digits
  rw [Grammar.ofDigitChars_chars, if_pos token.number_lt] at read
  rw [Token.ofText, Token.text, String.toList_ofList, read]
  exact congrArg _ token.ofNumber_number

/-- The digits that a line begins with are its token, if the command begins with none. -/
theorem takeWhile_isDigit_line (token : Token) {text : List Char}
    (h : text.head?.any Char.isDigit = false) :
    (token.chars ++ text).takeWhile Char.isDigit = token.chars := by
  rw [List.takeWhile_append_of_pos fun d hd => Grammar.isDigit_of_mem_chars hd]
  cases text with
  | nil => exact List.append_nil _
  | cons c text =>
    have other : c.isDigit = false := h
    rw [List.takeWhile_cons_of_neg (by simp [other]), List.append_nil]

/-- Such a command keeps to its line and leaves the token alone. -/
def Plain (text : List Char) : Prop := '\n' ∉ text ∧ text.head?.any Char.isDigit = false

instance (text : List Char) : Decidable (Plain text) := inferInstanceAs (Decidable (_ ∧ _))

theorem Accounted.toList_contents {t : Tracker} {h : History} (a : Accounted t h) :
    t.desk.sink.contents.toList =
      h.sends.flatMap fun s => (s.1.chars ++ s.2.toList) ++ ['\n'] := by
  rw [Sink.contents, a.written, Utf8.decode_encode]
  simp [History.wire, Desk.commandLine, Token.text, List.flatMap_map]

/-- The commands that a session sends get the numbers from one on as their tokens, in the order in
which they are sent, so no token is given twice. What it writes is the lines of these commands, in
that order, and from the lines the tokens can be read again. -/
theorem sends_are_numbered_on_the_wire (source : Source) (settings : Settings) (moves : List Move)
    (few : (Session.chronicle source {} settings moves).history.sends.length < UInt64.size - 1) :
    let c := Session.chronicle source {} settings moves
    let desk := c.session.desk
    let sends := c.history.sends
    let lines := (desk.sink.contents.toList.splitOn '\n').dropLast
    sends.map (·.1.number) = (List.range sends.length).map (· + 1) ∧
      (sends.map (·.1)).Nodup ∧
      (∀ text onResult onConsole, ∃ token, token.number = sends.length + 1 ∧
        (desk.send text onResult onConsole).1 = if desk.closed then .error .closed else .ok token) ∧
      desk.sink.written =
        Utf8.encode (String.join (sends.map fun s => s.1.text ++ s.2 ++ "\n")) ∧
      ((∀ s ∈ sends, Plain s.2.toList) →
        lines = sends.map (fun s => s.1.chars ++ s.2.toList) ∧
        lines.map (fun line => Token.ofText (String.ofList (line.takeWhile Char.isDigit))) =
          sends.map fun s => .ok s.1) := by
  intro c desk sends lines
  have a : Accounted c.tracker c.history := accounted_chronicle source settings moves
  have tokens : sends.map (·.1) = Token.first sends.length := by
    rw [a.length]
    exact a.tokens
  have next : sends.length + 1 < UInt64.size := Nat.add_lt_of_lt_sub few
  refine ⟨?_, ?_, ?_, a.written, ?_⟩
  · have numbers := congrArg (List.map Token.number) tokens
    rw [List.map_map, Token.first, List.map_map] at numbers
    refine numbers.trans (List.map_congr_left fun n hn => ?_)
    exact Token.number_ofNumber (Nat.lt_trans (Nat.succ_lt_succ (List.mem_range.mp hn)) next)
  · rw [tokens]
    refine (Token.ascending_first (Nat.lt_of_succ_lt next)).imp fun {_ _} less same => ?_
    exact Nat.ne_of_lt less (congrArg Token.number same)
  · intro text onResult onConsole
    refine ⟨.ofNumber (sends.length + 1), Token.number_ofNumber next, ?_⟩
    cases hc : desk.closed with
    | true => rw [Desk.send_of_closed hc, if_pos rfl]
    | false =>
      rw [Desk.send_of_write hc (Sink.write_of_unlimited a.unlimited _), if_neg (by decide),
        a.length]
      rfl
  · intro plain
    have split : lines = sends.map fun s => s.1.chars ++ s.2.toList := by
      refine (congrArg (fun cs => (cs.splitOn '\n').dropLast) a.toList_contents).trans ?_
      refine splitOn_flatMap_lines sends fun s hs hn => ?_
      rcases List.mem_append.mp hn with hn | hn
      · have digit := Grammar.isDigit_of_mem_chars hn
        simp at digit
      · exact (plain s hs).1 hn
    refine ⟨split, ?_⟩
    rw [split, List.map_map]
    refine List.map_congr_left fun s hs => ?_
    rw [Function.comp_apply, takeWhile_isDigit_line s.1 (plain s hs).2]
    exact Token.ofText_text s.1

/-- The second command is sent by the handler of the first, at the second of two equal results. -/
theorem nested_sends_are_numbered_on_the_wire :
    let next : Reaction := .look fun view =>
      if view.past.length = 1 then .done else .send "-exec-next" .nothing none fun _ => .done
    let result : Octets := [0x31, 0x5E, 0x64, 0x6F, 0x6E, 0x65, 0x0A]
    let moves := [.send "-exec-run" (.call fun _ _ => next) none, .forget ⟨3⟩,
      .farEnd ⟨.channel { queue := [result ++ result] }, {}⟩, .fill, .takeLine, .takeLine]
    let c := Session.chronicle ⟨.channel {}, {}⟩ {} {} moves
    let lines := (c.session.desk.sink.contents.toList.splitOn '\n').dropLast
    c.history.sends.length < UInt64.size - 1 ∧
      c.session.desk.sink.written = Utf8.encode "0001-exec-run\n0002-exec-next\n" ∧
      lines.map (fun line => Token.ofText (String.ofList (line.takeWhile Char.isDigit))) =
        [.ok ⟨1⟩, .ok ⟨2⟩] := by
  intro next result moves c lines
  have sent : c.history.sends = [(⟨1⟩, "-exec-run"), (⟨2⟩, "-exec-next")] := by decide
  have few : c.history.sends.length < UInt64.size - 1 := by
    rw [sent]
    decide
  obtain ⟨-, -, -, written, read⟩ := sends_are_numbered_on_the_wire ⟨.channel {}, {}⟩ {} moves few
  have plain : ∀ s ∈ c.history.sends, Plain s.2.toList := by
    rw [sent]
    decide
  refine ⟨few, ?_, (read plain).2.trans (congrArg _ sent)⟩
  rw [written, sent]
  rfl

end DebugLink

import DebugLink.Proofs.Dict
import DebugLink.Proofs.Session.Runs

/-! Which commands are in view, and in which state. The history decides: a command is in view from
its send until it is forgotten, and its state is that of its last result. A handler that is called
in between changes nothing else, since it is out of the table while it is called and given back only
to a command that is still there. Tokens are counted through; only when they are used up, and begin
again, can a send displace a command that had its token. -/

namespace DebugLink

/-- What a happening says of the state of the command with a token. -/
def Happening.outcome? (token : Token) : Happening → Option CommandState
  | .received m => m.outcome? token
  | _ => none

/-- Results move a command on, and the first of them ends the waiting for the number of its
breakpoint. -/
def Standing.after (s : Standing) : Option CommandState → Standing
  | some state => { s with state, awaited := none }
  | none => s

theorem Standing.map_after_none (s? : Option Standing) : s?.map (·.after none) = s? := by
  cases s? <;> rfl

/-- What has become of the command with a token, if it is in view. -/
def History.standing? (token : Token) : History → Option Standing
  | [] => none
  | .sent k text onResult :: h =>
    if token = k then some ⟨text, .pending, onResult.awaited⟩ else standing? token h
  | .failed k :: h | .forgot k :: h => if token = k then none else standing? token h
  | .received m :: h => (standing? token h).map (·.after (m.outcome? token))

namespace Tracker

/-- What has become of the command with a token, if it is in view. -/
def standing? (t : Tracker) (token : Token) : Option Standing :=
  (t.desk.commands.find? token).map Command.standing

theorem standing?_modify {commands : Dict Token Command} {f : Command → Command}
    (same : ∀ c, (f c).standing = c.standing) (k token : Token) :
    ((commands.modify k f).find? token).map Command.standing =
      (commands.find? token).map Command.standing := by
  rw [Dict.find?_modify]
  split
  · rw [Option.map_map]
    exact congrArg (Option.map · _) (funext same)
  · rfl

/-! ### Settling a record -/

theorem standing?_settleResult (t : Tracker) (k : Token) (state : CommandState) (record : Record)
    (token : Token) :
    (t.settleResult k state record).standing? token =
      (t.standing? token).map (·.after (if k = token then some state else none)) := by
  unfold settleResult standing?
  cases hk : t.desk.commands.find? k with
  | none =>
    by_cases ht : k = token
    · subst ht
      simp [hk]
    · rw [if_neg ht, Standing.map_after_none]
  | some command =>
    obtain ⟨_, installed⟩ := install_eq
      { t with desk := (t.desk.setState k state).clearOnResult k } record command.onResult
    dsimp only
    rw [installed]
    unfold report Desk.setState Desk.clearOnResult
    dsimp only
    rw [Dict.find?_modify, Dict.find?_modify]
    by_cases ht : k = token
    · subst ht
      simp [hk, Command.standing, OnResult.awaited, Standing.after]
    · rw [if_neg (Ne.symm ht), if_neg (Ne.symm ht), if_neg ht, Standing.map_after_none]

/-- A record moves the command on that it is a result of, and no other. -/
theorem standing?_settle (t : Tracker) (m : Message) (token : Token) :
    (t.settle m).standing? token = (t.standing? token).map (·.after (m.outcome? token)) := by
  have idle : m.outcome? token = none →
      t.standing? token = (t.standing? token).map (·.after (m.outcome? token)) := by
    intro none
    rw [none, Standing.map_after_none]
  have settled := t.settles m
  generalize t.settle m = u at settled
  cases settled with
  | result k state hk ht outcome =>
    have same : m.outcome? token = if k = token then some state else none := by
      by_cases he : k = token
      · rw [if_pos he, ← he, outcome]
      · rw [if_neg he, Message.outcome?, if_neg (by simp [ht, he])]
    rw [standing?_settleResult, same]
  | exec hk => exact idle (Message.outcome?_of_kind (by simp [hk]) token)
  | notify hk => exact idle (Message.outcome?_of_kind (by simp [hk]) token)
  | nothing none _ _ => exact idle (none token)

end Tracker

/-! ### The tokens given out -/

/-- So many tokens, from the first one on. -/
def Token.first (n : Nat) : List Token := (List.range n).map fun i => .ofNumber (i + 1)

namespace Token

theorem first_succ (n : Nat) : first (n + 1) = first n ++ [.ofNumber (n + 1)] := by
  rw [first, List.range_succ, List.map_append]
  rfl

theorem number_le_of_mem_first {token : Token} {n : Nat} (h : token ∈ first n) :
    token.number ≤ n := by
  obtain ⟨i, hi, rfl⟩ := List.mem_map.mp h
  exact Nat.le_trans (Nat.mod_le _ _) (List.mem_range.mp hi)

/-- As long as tokens last, each is greater than those before it. -/
theorem ascending_first {n : Nat} (few : n < UInt64.size) :
    (first n).Pairwise (·.number < ·.number) := by
  refine List.pairwise_map.mpr (List.pairwise_lt_range.imp_of_mem fun {i j} _ hj less => ?_)
  have hj : j + 1 < UInt64.size := Nat.lt_of_le_of_lt (List.mem_range.mp hj) few
  rw [number_ofNumber (Nat.lt_trans (Nat.succ_lt_succ less) hj), number_ofNumber hj]
  exact Nat.succ_lt_succ less

end Token

namespace History

/-- The tokens that were given to commands, in the order in which they were. -/
def tokens (h : History) : List Token := h.sends.map (·.1)

theorem tokens_sent (h : History) (token : Token) (text : String) (onResult : OnResult Reaction) :
    tokens (.sent token text onResult :: h) = h.tokens ++ [token] := by
  simp [tokens, sends]

theorem tokens_append (g h : History) : tokens (g ++ h) = h.tokens ++ g.tokens := by
  induction g with
  | nil => exact (List.append_nil _).symm
  | cons x g ih =>
    cases x with
    | sent token text onResult =>
      rw [List.cons_append, tokens_sent, tokens_sent, ih, List.append_assoc]
    | received _ | failed _ | forgot _ => exact ih

/-- The tokens that were given out, be it to commands or in vain. -/
def given : History → List Token
  | [] => []
  | .sent token _ _ :: h | .failed token :: h => given h ++ [token]
  | .received _ :: h | .forgot _ :: h => given h

theorem given_append (g h : History) : given (g ++ h) = h.given ++ g.given := by
  induction g with
  | nil => exact (List.append_nil _).symm
  | cons x g ih =>
    cases x with
    | sent _ _ _ | failed _ => rw [List.cons_append, given, given, ih, List.append_assoc]
    | received _ | forgot _ => exact ih

theorem tokens_sublist_given (h : History) : h.tokens.Sublist h.given := by
  induction h with
  | nil => exact .slnil
  | cons x h ih =>
    cases x with
    | sent token text onResult => exact tokens_sent h token text onResult ▸ ih.append_right [token]
    | failed token => exact ih.trans (List.sublist_append_left _ _)
    | received _ | forgot _ => exact ih

theorem standing?_of_ungiven {h : History} {token : Token} (ungiven : token ∉ h.given) :
    h.standing? token = none := by
  induction h with
  | nil => rfl
  | cons x h ih =>
    cases x with
    | received m => rw [standing?, ih ungiven, Option.map_none]
    | sent k _ _ =>
      rw [given, List.mem_append, not_or, List.mem_singleton] at ungiven
      rw [standing?, if_neg ungiven.2, ih ungiven.1]
    | failed k =>
      rw [given, List.mem_append, not_or] at ungiven
      rw [standing?, ih ungiven.1, ite_self]
    | forgot k => rw [standing?, ih ungiven, ite_self]

end History

/-! ### The commands in view -/

/-- The tokens given out are the first so many, and the commands in view are those that the history
leaves in view. -/
structure Tabled (t : Tracker) (h : History) : Prop where
  given : h.given = Token.first t.desk.issued
  standing : ∀ token, t.standing? token = h.standing? token

section Tabled
variable {t : Tracker} {h : History} (tabled : Tabled t h)
include tabled

/-- As long as tokens last, none is given again. -/
theorem Tabled.distinct (few : t.desk.issued < UInt64.size) : h.given.Nodup :=
  (tabled.given ▸ Token.ascending_first few).imp fun {_ _} less same =>
    Nat.ne_of_lt less (congrArg Token.number same)

theorem contains_eq_isSome (token : Token) :
    t.desk.commands.contains token = (h.standing? token).isSome := by
  rw [← tabled.standing, Tracker.standing?, Option.isSome_map]
  rfl

theorem Tabled.send (text : String) (onResult : OnResult Reaction)
    (onConsole : Option (OnConsole Reaction)) :
    Tabled { t with desk := (t.desk.send text onResult onConsole).2 }
      (h.sending t.desk text onResult onConsole) := by
  unfold History.sending
  cases hc : t.desk.closed with
  | true =>
    rw [Desk.send_of_closed hc]
    exact tabled
  | false =>
    have next : h.given ++ [t.desk.nextToken] = Token.first (t.desk.issued + 1) := by
      rw [tabled.given, Token.first_succ]
      rfl
    cases hw : t.desk.sink.write (Utf8.encode (Desk.commandLine t.desk.nextToken text)) with
    | mk failure sink =>
      cases failure with
      | none =>
        rw [Desk.send_of_write hc hw]
        refine ⟨next, fun token => ?_⟩
        rw [History.standing?, ← tabled.standing]
        unfold Tracker.standing?
        rw [Dict.find?_insert]
        split
        · rfl
        · rfl
      | some failure =>
        rw [Desk.send_of_failure hc hw]
        refine ⟨next, fun token => ?_⟩
        rw [if_neg (by decide), History.standing?, ← tabled.standing]
        unfold Tracker.standing?
        dsimp only [Desk.notice, Desk.log]
        rw [Dict.find?_erase]
        split
        · rfl
        · rename_i other
          rw [Dict.find?_insert, if_neg other]

theorem Tabled.forget (k : Token) :
    Tabled { t with desk := (t.desk.forget k).2 } (.forgot k :: h) := by
  refine ⟨tabled.given, fun token => ?_⟩
  rw [History.standing?, ← tabled.standing]
  unfold Tracker.standing? Desk.forget
  dsimp only
  rw [Dict.find?_erase]
  split
  · rfl
  · rfl

end Tabled

theorem kept_tabled : Kept Tabled where
  bare {t u h} same tabled := by
    have commands : t.desk.commands = u.desk.commands := congrArg (·.desk.commands) same
    have issued : t.desk.issued = u.desk.issued := congrArg (·.desk.issued) same
    refine ⟨issued ▸ tabled.given, fun token => ?_⟩
    rw [← tabled.standing, Tracker.standing?, Tracker.standing?, commands]
  close tabled := ⟨tabled.given, tabled.standing⟩
  subscribe _ _ tabled := ⟨tabled.given, tabled.standing⟩
  revise k _ same tabled := by
    refine ⟨tabled.given, fun token => ?_⟩
    exact (Tracker.standing?_modify same k token).trans (tabled.standing token)
  send text onResult onConsole tabled := tabled.send text onResult onConsole
  forget token tabled := tabled.forget token
  settle {t h} m tabled := by
    refine ⟨?_, fun token => ?_⟩
    · obtain ⟨_, _, _, _, _, settled⟩ := t.settle_eq m
      rw [settled]
      exact tabled.given
    · rw [t.standing?_settle, tabled.standing, History.standing?]

/-! ### Since the send -/

/-- What has become of a command by what has happened since its send. -/
def Standing.since (token : Token) (text : String) (onResult : OnResult Reaction)
    (after : History) : Standing where
  text
  state := (after.findSome? (·.outcome? token)).getD .pending
  awaited := if (after.findSome? (·.outcome? token)).isNone then onResult.awaited else none

theorem Standing.since_received (token : Token) (text : String) (onResult : OnResult Reaction)
    (after : History) (m : Message) :
    Standing.since token text onResult (.received m :: after) =
      (Standing.since token text onResult after).after (m.outcome? token) := by
  unfold since
  rw [List.findSome?_cons, Happening.outcome?]
  cases m.outcome? token with
  | none => rfl
  | some state => rfl

namespace History

variable {token : Token}

theorem exists_sent_of_standing? {h : History} {s : Standing} (hs : h.standing? token = some s) :
    ∃ after text onResult before, h = after ++ .sent token text onResult :: before ∧
      .forgot token ∉ after ∧ token ∉ after.given ∧ s = .since token text onResult after := by
  induction h generalizing s with
  | nil => cases hs
  | cons x h ih =>
    cases x with
    | received m =>
      rw [standing?, Option.map_eq_some_iff] at hs
      obtain ⟨r, hr, rfl⟩ := hs
      obtain ⟨after, text, onResult, before, rfl, kept, once, rfl⟩ := ih hr
      refine ⟨.received m :: after, text, onResult, before, rfl, by simp [kept], once, ?_⟩
      exact (Standing.since_received token text onResult after m).symm
    | sent k text onResult =>
      rw [standing?] at hs
      split at hs
      · rename_i hk
        cases hs
        exact ⟨[], text, onResult, h, by rw [hk]; rfl, List.not_mem_nil, List.not_mem_nil, rfl⟩
      · rename_i hk
        obtain ⟨after, text', onResult', before, rfl, kept, once, rfl⟩ := ih hs
        exact ⟨.sent k text onResult :: after, text', onResult', before, rfl, by simp [kept],
          by simp [given, once, hk], rfl⟩
    | failed k =>
      rw [standing?] at hs
      split at hs
      · cases hs
      · rename_i hk
        obtain ⟨after, text, onResult, before, rfl, kept, once, rfl⟩ := ih hs
        exact ⟨.failed k :: after, text, onResult, before, rfl, by simp [kept],
          by simp [given, once, hk], rfl⟩
    | forgot k =>
      rw [standing?] at hs
      split at hs
      · cases hs
      · rename_i hk
        obtain ⟨after, text, onResult, before, rfl, kept, once, rfl⟩ := ih hs
        exact ⟨.forgot k :: after, text, onResult, before, rfl, by simp [kept, hk], once, rfl⟩

/-- What happens to other commands is nothing to a command in view. -/
theorem standing?_append_sent {after : History} (text : String) (onResult : OnResult Reaction)
    (before : History) (kept : .forgot token ∉ after) (once : token ∉ after.given) :
    standing? token (after ++ .sent token text onResult :: before) =
      some (.since token text onResult after) := by
  induction after with
  | nil => exact if_pos rfl
  | cons x after ih =>
    rw [List.mem_cons, not_or] at kept
    cases x with
    | received m =>
      rw [List.cons_append, standing?, ih kept.2 once, Standing.since_received, Option.map_some]
    | sent k _ _ | failed k =>
      rw [given, List.mem_append, not_or, List.mem_singleton] at once
      rw [List.cons_append, standing?, if_neg once.2]
      exact ih kept.2 once.1
    | forgot k =>
      rw [List.cons_append, standing?, if_neg fun hk => kept.1 (congrArg _ hk)]
      exact ih kept.2 once

/-- A command is in view if it was sent and not forgotten since, and its token not given anew. -/
theorem standing?_eq_some_iff {h : History} (token : Token) (s : Standing) :
    h.standing? token = some s ↔
      ∃ after text onResult before, h = after ++ .sent token text onResult :: before ∧
        .forgot token ∉ after ∧ token ∉ after.given ∧ s = .since token text onResult after := by
  constructor
  · exact exists_sent_of_standing?
  · rintro ⟨after, text, onResult, before, rfl, kept, once, rfl⟩
    exact standing?_append_sent text onResult before kept once

theorem isSome_standing?_append {news : History} (h : History) (unforgotten : .forgot token ∉ news)
    (ungiven : token ∉ news.given) :
    (standing? token (news ++ h)).isSome = (h.standing? token).isSome := by
  induction news with
  | nil => rfl
  | cons x news ih =>
    rw [List.mem_cons, not_or] at unforgotten
    rw [List.cons_append]
    cases x with
    | received m => rw [standing?, Option.isSome_map, ih unforgotten.2 ungiven]
    | sent k _ _ | failed k =>
      rw [given, List.mem_append, not_or, List.mem_singleton] at ungiven
      rw [standing?, if_neg ungiven.2, ih unforgotten.2 ungiven.1]
    | forgot k =>
      rw [standing?, if_neg fun hk => unforgotten.1 (congrArg _ hk), ih unforgotten.2 ungiven]

/-- As long as no token comes twice, that of a command is not given anew. -/
theorem not_mem_given_of_nodup {after before : History} {text : String}
    {onResult : OnResult Reaction}
    (distinct : (given (after ++ .sent token text onResult :: before)).Nodup) :
    token ∉ after.given := by
  rw [given_append, given, List.nodup_append] at distinct
  exact fun again =>
    distinct.2.2 token (List.mem_append_right _ (List.mem_singleton_self _)) token again rfl

end History

theorem tabled_connect (source : Source) (sink : Sink) (settings : Settings) :
    Tabled (Session.connect source sink settings).tracker [] :=
  ⟨rfl, fun _ => rfl⟩

theorem tabled_chronicle (source : Source) (sink : Sink) (settings : Settings)
    (moves : List Move) :
    Tabled (Session.chronicle source sink settings moves).tracker
      (Session.chronicle source sink settings moves).history :=
  kept_tabled.lasting.chronicle (tabled_connect source sink settings) moves

/-- In every run the commands in view are those that were sent and not forgotten since, each with
the text that it was sent with, and in the state of its last result since then. A command could
also be displaced by one that is given its token anew, but not as long as tokens last. Nothing else
brings a command into view or takes it out of view, and no record by itself. -/
theorem commands_are_those_sent_and_not_forgotten (source : Source) (sink : Sink)
    (settings : Settings) (moves : List Move) :
    let c := Session.chronicle source sink settings moves
    (∀ token text state,
      (∃ command, c.session.desk.commands.find? token = some command ∧
        command.text = text ∧ command.state = state) ↔
      ∃ after onResult before, c.history = after ++ .sent token text onResult :: before ∧
        .forgot token ∉ after ∧ token ∉ History.given after ∧
        (after.findSome? (·.outcome? token)).getD .pending = state) ∧
    (c.session.desk.issued < UInt64.size → ∀ token text onResult after before,
      c.history = after ++ .sent token text onResult :: before → token ∉ History.given after) ∧
    ∀ move, ∃ news, (c.step move).history = news ++ c.history ∧
      ∀ token, .forgot token ∉ news → token ∉ History.given news →
        (c.step move).session.desk.commands.contains token =
          c.session.desk.commands.contains token := by
  intro c
  have tabled : Tabled c.tracker c.history := tabled_chronicle source sink settings moves
  refine ⟨fun token text state => ?_, ?_, fun move => ?_⟩
  · have standing : (c.tracker.desk.commands.find? token).map Command.standing =
        c.history.standing? token := tabled.standing token
    have inView := History.standing?_eq_some_iff (h := c.history) token
    constructor
    · rintro ⟨command, hc, rfl, rfl⟩
      have found : c.history.standing? token = some command.standing :=
        standing.symm.trans (congrArg (Option.map _) hc)
      obtain ⟨after, text, onResult, before, split, kept, once, same⟩ := (inView _).mp found
      obtain rfl : command.text = text := congrArg Standing.text same
      exact ⟨after, onResult, before, split, kept, once, (congrArg Standing.state same).symm⟩
    · rintro ⟨after, onResult, before, split, kept, once, rfl⟩
      rw [(inView _).mpr ⟨after, text, onResult, before, split, kept, once, rfl⟩,
        Option.map_eq_some_iff] at standing
      obtain ⟨command, hc, same⟩ := standing
      exact ⟨command, hc, congrArg Standing.text same, congrArg Standing.state same⟩
  · intro few token text onResult after before split
    exact History.not_mem_given_of_nodup (split ▸ tabled.distinct few)
  · obtain ⟨news, grown⟩ := c.suffix_step move
    refine ⟨news, grown.symm, fun token unforgotten ungiven => ?_⟩
    have after : Tabled (c.step move).tracker (c.step move).history :=
      kept_tabled.lasting.step tabled move
    have before := History.isSome_standing?_append c.history unforgotten ungiven
    rw [grown, ← contains_eq_isSome after, ← contains_eq_isSome tabled] at before
    exact before

end DebugLink

import DebugLink.Proofs.Session.Booking

/-! Which handlers a command has. A command has the handlers that it was sent with for as long as it
is in view, except that console text ceases to concern it when its caller has his answer. The ledger
says as much, so it also says which command was sent last among those in view: tokens are given in
ascending order, which is what the table goes by. -/

namespace DebugLink

namespace Ledger

/-- The tokens that were given to commands, in the order in which they were. -/
def tokens (l : Ledger) : List Token := l.history.tokens

/-- The tokens that were given out, be it to commands or in vain. -/
def given (l : Ledger) : List Token := l.history.given

/-- The handlers of the command with a token, if it was sent and not forgotten since. -/
def handlers? (token : Token) : Ledger → Option Handlers
  | [] => none
  | .sent _ k _ onResult onConsole :: l =>
    if token = k then some ⟨onResult.react?, onConsole⟩ else handlers? token l
  | .failed _ k _ :: l | .forgot k :: l => if token = k then none else handlers? token l
  | .silenced k :: l =>
    if token = k then (handlers? token l).map ({ · with onConsole := none }) else handlers? token l
  | .received _ :: l | .called _ :: l | .closed :: l => handlers? token l

variable {token : Token}

theorem tokens_sent (sender : Option Call) (token : Token) (text : String)
    (onResult : OnResult Reaction) (onConsole : Option (OnConsole Reaction)) (l : Ledger) :
    tokens (.sent sender token text onResult onConsole :: l) = l.tokens ++ [token] :=
  History.tokens_sent l.history token text onResult

theorem tokens_append (news l : Ledger) : tokens (news ++ l) = l.tokens ++ news.tokens := by
  unfold tokens history
  rw [List.filterMap_append, History.tokens_append]

theorem given_sent (sender : Option Call) (token : Token) (text : String)
    (onResult : OnResult Reaction) (onConsole : Option (OnConsole Reaction)) (l : Ledger) :
    given (.sent sender token text onResult onConsole :: l) = l.given ++ [token] := rfl

theorem given_failed (sender : Option Call) (token : Token) (text : String) (l : Ledger) :
    given (.failed sender token text :: l) = l.given ++ [token] := rfl

theorem given_append (news l : Ledger) : given (news ++ l) = l.given ++ news.given := by
  unfold given history
  rw [List.filterMap_append, History.given_append]

theorem tokens_sublist_given (l : Ledger) : l.tokens.Sublist l.given :=
  l.history.tokens_sublist_given

/-! ### Since the send -/

theorem mem_tokens_of_sent {sender : Option Call} {text : String} {onResult : OnResult Reaction}
    {onConsole : Option (OnConsole Reaction)} {l : Ledger}
    (sent : .sent sender token text onResult onConsole ∈ l) : token ∈ l.tokens := by
  obtain ⟨after, before, rfl⟩ := List.append_of_mem sent
  rw [tokens_append, tokens_sent]
  exact List.mem_append_left _ (List.mem_append_right _ (List.mem_singleton_self _))

/-- As long as no token comes twice, that of a command is not given anew. -/
theorem not_mem_given_of_nodup {after before : Ledger} {sender : Option Call} {text : String}
    {onResult : OnResult Reaction} {onConsole : Option (OnConsole Reaction)}
    (distinct : (given (after ++ .sent sender token text onResult onConsole :: before)).Nodup) :
    token ∉ after.given := by
  rw [given_append, given_sent, List.nodup_append] at distinct
  exact fun again =>
    distinct.2.2 token (List.mem_append_right _ (List.mem_singleton_self _)) token again rfl

/-- A token is given to one command. -/
theorem sent_eq_of_mem {sender sender' : Option Call} {text text' : String}
    {onResult onResult' : OnResult Reaction} {onConsole onConsole' : Option (OnConsole Reaction)}
    {l : Ledger} (distinct : l.given.Nodup)
    (sent : .sent sender token text onResult onConsole ∈ l)
    (again : .sent sender' token text' onResult' onConsole' ∈ l) :
    onResult = onResult' ∧ onConsole = onConsole' := by
  obtain ⟨after, before, rfl⟩ := List.append_of_mem sent
  have once := not_mem_given_of_nodup distinct
  rcases List.mem_append.mp again with later | same
  · exact absurd ((tokens_sublist_given after).mem (mem_tokens_of_sent later)) once
  · rcases List.mem_cons.mp same with same | earlier
    · cases same
      exact ⟨rfl, rfl⟩
    · obtain ⟨between, first, rfl⟩ := List.append_of_mem earlier
      have twice : token ∈ given (after ++
          .sent sender token text onResult onConsole :: between) := by
        rw [given_append, given_sent]
        exact List.mem_append_left _ (List.mem_append_right _ (List.mem_singleton_self _))
      rw [← List.cons_append, ← List.append_assoc] at distinct
      exact absurd twice (not_mem_given_of_nodup distinct)

/-- What is entered of other commands is nothing to a command. -/
theorem handlers?_append {news : Ledger} (l : Ledger) (ungiven : token ∉ news.given)
    (unforgotten : .forgot token ∉ news) (unsilenced : .silenced token ∉ news) :
    handlers? token (news ++ l) = l.handlers? token := by
  induction news with
  | nil => rfl
  | cons x news ih =>
    rw [List.mem_cons, not_or] at unforgotten unsilenced
    rw [List.cons_append]
    cases x with
    | sent _ k _ _ _ | failed _ k _ =>
      have others : token ∉ given news ++ [k] := ungiven
      rw [List.mem_append, not_or, List.mem_singleton] at others
      rw [handlers?, if_neg others.2]
      exact ih others.1 unforgotten.2 unsilenced.2
    | forgot k =>
      rw [handlers?, if_neg fun hk => unforgotten.1 (congrArg _ hk)]
      exact ih ungiven unforgotten.2 unsilenced.2
    | silenced k =>
      rw [handlers?, if_neg fun hk => unsilenced.1 (congrArg _ hk)]
      exact ih ungiven unforgotten.2 unsilenced.2
    | received _ | called _ | closed => exact ih ungiven unforgotten.2 unsilenced.2

/-- A command that is forgotten has no handlers from then on. -/
theorem handlers?_append_forgot {after : Ledger} (before : Ledger) (once : token ∉ after.given) :
    handlers? token (after ++ .forgot token :: before) = none := by
  induction after with
  | nil => exact if_pos rfl
  | cons x after ih =>
    rw [List.cons_append]
    cases x with
    | sent _ k _ _ _ | failed _ k _ =>
      have others : token ∉ given after ++ [k] := once
      rw [List.mem_append, not_or, List.mem_singleton] at others
      rw [handlers?, if_neg others.2]
      exact ih others.1
    | forgot k => rw [handlers?, ih once, ite_self]
    | silenced k => rw [handlers?, ih once, Option.map_none, ite_self]
    | received _ | called _ | closed => exact ih once

end Ledger

/-- Console text ceases to concern the command with a token. -/
def Entry.silences (token : Token) : Entry → Bool
  | .silenced k => token = k
  | _ => false

theorem Entry.any_silences (token : Token) (l : Ledger) :
    l.any (·.silences token) = true ↔ .silenced token ∈ l := by
  rw [List.any_eq_true]
  constructor
  · rintro ⟨x, hx, silences⟩
    cases x with
    | silenced k => exact of_decide_eq_true silences ▸ hx
    | _ => cases silences
  · exact fun hx => ⟨_, hx, decide_eq_true rfl⟩

/-- The handlers that a command has by what was entered since its send. -/
def Handlers.since (token : Token) (onResult : OnResult Reaction)
    (onConsole : Option (OnConsole Reaction)) (after : Ledger) : Handlers where
  onResult := onResult.react?
  onConsole := if after.any (·.silences token) then none else onConsole

theorem Handlers.onConsole_since {token : Token} {onResult : OnResult Reaction}
    {onConsole : Option (OnConsole Reaction)} {after : Ledger} {handler : OnConsole Reaction} :
    (Handlers.since token onResult onConsole after).onConsole = some handler ↔
      onConsole = some handler ∧ .silenced token ∉ after := by
  rw [← Entry.any_silences, since]
  cases after.any (·.silences token) <;> simp

namespace Ledger

variable {token : Token}

theorem exists_sent_of_handlers? {l : Ledger} {h : Handlers} (hs : l.handlers? token = some h) :
    ∃ after sender text onResult onConsole before,
      l = after ++ .sent sender token text onResult onConsole :: before ∧
        .forgot token ∉ after ∧ h = .since token onResult onConsole after := by
  induction l generalizing h with
  | nil => cases hs
  | cons x l ih =>
    have passed : handlers? token l = some h → x ≠ .forgot token → x.silences token = false →
        ∃ after sender text onResult onConsole before,
          x :: l = after ++ .sent sender token text onResult onConsole :: before ∧
            .forgot token ∉ after ∧ h = .since token onResult onConsole after := by
      intro hl unforgotten unsilenced
      obtain ⟨after, sender, text, onResult, onConsole, before, rfl, kept, rfl⟩ := ih hl
      refine ⟨x :: after, sender, text, onResult, onConsole, before, rfl,
        by simp [kept, unforgotten.symm], ?_⟩
      rw [Handlers.since, Handlers.since, List.any_cons, unsilenced, Bool.false_or]
    cases x with
    | sent sender k text onResult onConsole =>
      rw [handlers?] at hs
      split at hs
      · rename_i hk
        cases hs
        exact ⟨[], sender, text, onResult, onConsole, l, by rw [hk]; rfl, List.not_mem_nil, rfl⟩
      · exact passed hs (fun h => by cases h) rfl
    | failed _ k _ =>
      rw [handlers?] at hs
      split at hs
      · cases hs
      · exact passed hs (fun h => by cases h) rfl
    | forgot k =>
      rw [handlers?] at hs
      split at hs
      · cases hs
      · rename_i hk
        exact passed hs (fun h => hk (by cases h; rfl)) rfl
    | silenced k =>
      rw [handlers?] at hs
      split at hs
      · rename_i hk
        rw [Option.map_eq_some_iff] at hs
        obtain ⟨h, hl, rfl⟩ := hs
        obtain ⟨after, sender, text, onResult, onConsole, before, rfl, kept, rfl⟩ := ih hl
        refine ⟨.silenced k :: after, sender, text, onResult, onConsole, before, rfl,
          by simp [kept], ?_⟩
        simp [Handlers.since, Entry.silences, hk]
      · rename_i hk
        exact passed hs (fun h => by cases h) (decide_eq_false hk)
    | received _ | called _ | closed => exact passed hs (fun h => by cases h) rfl

theorem handlers?_append_sent {after : Ledger} (sender : Option Call) (text : String)
    (onResult : OnResult Reaction) (onConsole : Option (OnConsole Reaction)) (before : Ledger)
    (kept : .forgot token ∉ after) (once : token ∉ after.given) :
    handlers? token (after ++ .sent sender token text onResult onConsole :: before) =
      some (.since token onResult onConsole after) := by
  induction after with
  | nil => exact if_pos rfl
  | cons x after ih =>
    rw [List.mem_cons, not_or] at kept
    rw [List.cons_append]
    cases x with
    | sent _ k _ _ _ | failed _ k _ =>
      have others : token ∉ given after ++ [k] := once
      rw [List.mem_append, not_or, List.mem_singleton] at others
      rw [handlers?, if_neg others.2]
      exact ih kept.2 others.1
    | forgot k =>
      rw [handlers?, if_neg fun hk => kept.1 (congrArg _ hk)]
      exact ih kept.2 once
    | silenced k =>
      rw [handlers?, ih kept.2 once]
      by_cases hk : token = k <;> simp [Handlers.since, Entry.silences, hk]
    | received _ | called _ | closed => exact ih kept.2 once

/-- A command has handlers if it was sent and not forgotten since, and it has those that it was
sent with. -/
theorem handlers?_eq_some_iff {l : Ledger} (distinct : l.given.Nodup) (h : Handlers) :
    l.handlers? token = some h ↔
      ∃ after sender text onResult onConsole before,
        l = after ++ .sent sender token text onResult onConsole :: before ∧
          .forgot token ∉ after ∧ h = .since token onResult onConsole after := by
  constructor
  · exact exists_sent_of_handlers?
  · rintro ⟨after, sender, text, onResult, onConsole, before, rfl, kept, rfl⟩
    exact handlers?_append_sent sender text onResult onConsole before kept
      (not_mem_given_of_nodup distinct)

end Ledger

/-! ### The handlers in the table -/

/-- The tokens given out are the first so many, and the commands in view have the handlers that the
ledger says. -/
structure Staffed (t : Tracker) (l : Ledger) : Prop where
  given : l.given = Token.first t.desk.issued
  handlers : ∀ token, t.desk.handlers? token = l.handlers? token

namespace Staffed

variable {t : Tracker} {l : Ledger} (staffed : Staffed t l)
include staffed

/-- As long as tokens last, they are given in ascending order. -/
theorem ascending (few : t.desk.issued < UInt64.size) : l.tokens.Pairwise (·.number < ·.number) :=
  (staffed.given ▸ Token.ascending_first few).sublist l.tokens_sublist_given

theorem distinct (few : t.desk.issued < UInt64.size) : l.given.Nodup :=
  (staffed.given ▸ Token.ascending_first few).imp fun {_ _} less same =>
    Nat.ne_of_lt less (congrArg Token.number same)

theorem number_le {token : Token} (given : token ∈ l.given) : token.number ≤ t.desk.issued :=
  Token.number_le_of_mem_first (staffed.given ▸ given)

theorem contains_eq (token : Token) :
    t.desk.commands.contains token = (l.handlers? token).isSome := by
  rw [← staffed.handlers, Desk.handlers?, Option.isSome_map]
  rfl

/-- A command in view was sent. -/
theorem sent_of_contains {token : Token} (there : t.desk.commands.contains token = true) :
    token ∈ l.tokens := by
  rw [staffed.contains_eq] at there
  obtain ⟨h, hh⟩ := Option.isSome_iff_exists.mp there
  obtain ⟨after, _, _, _, _, before, rfl, -, -⟩ := Ledger.exists_sent_of_handlers? hh
  exact Ledger.mem_tokens_of_sent (List.mem_append_right _ List.mem_cons_self)

theorem numbered : t.desk.Numbered := fun _ there =>
  staffed.number_le (l.tokens_sublist_given.mem (staffed.sent_of_contains there))

/-- What does not touch the handlers is nothing to them. -/
theorem elsewhere {u : Tracker} {x : Entry} (issued : u.desk.issued = t.desk.issued)
    (same : ∀ token, u.desk.handlers? token = t.desk.handlers? token)
    (happened : Ledger.given (x :: l) = l.given)
    (unchanged : ∀ token, Ledger.handlers? token (x :: l) = l.handlers? token) :
    Staffed u (x :: l) :=
  ⟨by rw [happened, issued, staffed.given],
    fun token => by rw [same, staffed.handlers, unchanged]⟩

theorem send (sender : Option Call) (text : String) (onResult : OnResult Reaction)
    (onConsole : Option (OnConsole Reaction)) :
    Staffed { t with desk := (t.desk.send text onResult onConsole).2 }
      (l.sending sender t.desk text onResult onConsole) := by
  have next : l.given ++ [t.desk.nextToken] = Token.first (t.desk.issued + 1) := by
    rw [staffed.given, Token.first_succ]
    rfl
  have sent := l.sends sender t.desk text onResult onConsole
  generalize t.desk.send text onResult onConsole = outcome,
    l.sending sender t.desk text onResult onConsole = k at sent ⊢
  cases sent with
  | refused _ => exact staffed
  | went sink _ _ =>
    refine ⟨next, fun token => ?_⟩
    rw [Ledger.handlers?, ← staffed.handlers]
    unfold Desk.handlers?
    rw [Dict.find?_insert]
    split
    · rfl
    · rfl
  | failed failure sink _ _ =>
    refine ⟨next, fun token => ?_⟩
    rw [Ledger.handlers?, ← staffed.handlers]
    unfold Desk.handlers?
    dsimp only [Desk.notice, Desk.log]
    rw [Dict.find?_erase]
    split
    · rfl
    · rename_i other
      rw [Dict.find?_insert, if_neg other]

theorem forget (k : Token) :
    Staffed { t with desk := (t.desk.forget k).2 } (.forgot k :: l) := by
  refine ⟨staffed.given, fun token => ?_⟩
  rw [Ledger.handlers?, ← staffed.handlers]
  unfold Desk.handlers? Desk.forget
  dsimp only
  rw [Dict.find?_erase]
  split
  · rfl
  · rfl

theorem silence (k : Token) :
    Staffed { t with desk := t.desk.clearOnConsole k } (.silenced k :: l) := by
  refine ⟨staffed.given, fun token => ?_⟩
  rw [Ledger.handlers?, ← staffed.handlers]
  unfold Desk.handlers? Desk.clearOnConsole
  dsimp only
  rw [Dict.find?_modify]
  split
  · rw [Option.map_map, Option.map_map]
    rfl
  · rfl

end Staffed

theorem placed_staffed : Placed Staffed where
  numbered staffed := staffed.numbered
  bare {t u l} same staffed := by
    have commands : t.desk.commands = u.desk.commands := congrArg (·.desk.commands) same
    have issued : t.desk.issued = u.desk.issued := congrArg (·.desk.issued) same
    refine ⟨issued ▸ staffed.given, fun token => ?_⟩
    rw [← staffed.handlers, Desk.handlers?, Desk.handlers?, commands]
  close staffed := staffed.elsewhere rfl (fun _ => rfl) rfl fun _ => rfl
  subscribe _ _ staffed := ⟨staffed.given, staffed.handlers⟩
  called c staffed := staffed.elsewhere rfl (fun _ => rfl) rfl fun _ => rfl
  silence token staffed := staffed.silence token
  send sender text onResult onConsole staffed := staffed.send sender text onResult onConsole
  forget token staffed := staffed.forget token
  settle {t l} m staffed := by
    refine staffed.elsewhere ?_ (t.handlers?_settleInPlace m) rfl fun _ => rfl
    obtain ⟨_, _, _, _, _, settled⟩ := t.settleInPlace_eq m
    rw [settled]

/-- After a record a command has the handlers that it had before, unless it was forgotten by
somebody who was called. -/
theorem Staffed.handlers_take {t : Tracker} {l : Ledger} (staffed : Staffed t l) {token : Token}
    (there : t.desk.commands.contains token = true) {m : Message}
    (few : (t.take m).desk.issued < UInt64.size) :
    ∃ news, l.taking t m = news ++ .received m :: l ∧
      (.forgot token ∉ news ∧ (t.take m).desk.handlers? token = t.desk.handlers? token ∨
        .forgot token ∈ news ∧ (t.take m).desk.handlers? token = none) := by
  obtain ⟨news, grown, unsilenced⟩ := l.exists_news_taking t m
  have after : Staffed (t.take m) (l.taking t m) := placed_staffed.take m staffed few
  rw [grown] at after
  have once : token ∉ Ledger.given news := by
    have distinct := after.distinct few
    rw [Ledger.given_append, List.nodup_append] at distinct
    have before := l.tokens_sublist_given.mem (staffed.sent_of_contains there)
    exact fun again => distinct.2.2 token before token again rfl
  refine ⟨news, grown, ?_⟩
  rw [after.handlers, staffed.handlers]
  by_cases forgot : .forgot token ∈ news
  · obtain ⟨later, earlier, rfl⟩ := List.append_of_mem forgot
    rw [Ledger.given_append, List.mem_append, not_or] at once
    refine .inr ⟨forgot, ?_⟩
    rw [List.append_assoc, List.cons_append]
    exact Ledger.handlers?_append_forgot _ once.2
  · exact .inl ⟨forgot, Ledger.handlers?_append _ once forgot (unsilenced token)⟩

theorem staffed_connect (source : Source) (sink : Sink) (settings : Settings) :
    Staffed (Session.connect source sink settings).tracker [] :=
  ⟨rfl, fun _ => rfl⟩

/-- As long as tokens last, the commands in view have the handlers that the ledger says. -/
theorem staffed_chronicle {source : Source} {sink : Sink} {settings : Settings}
    {moves : List Move}
    (few : (Session.chronicle source sink settings moves).session.desk.issued < UInt64.size) :
    Staffed (Session.chronicle source sink settings moves).tracker
      (Session.ledger source sink settings moves) :=
  placed_staffed.recorded.chronicle (fun _ => staffed_connect source sink settings) moves few

end DebugLink

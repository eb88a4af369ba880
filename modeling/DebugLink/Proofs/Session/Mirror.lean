import DebugLink.Proofs.Session.Tables

/-! What those get to see who subscribe to changes. A record makes one change to the tables at most,
and whoever subscribed is told of it once, with the entry as it is from then on. So a subscriber who
was there before the first record can keep the tables for himself: what he was told last of a
breakpoint or a thread group is what the tables have of it. For all this a tracker is no more than
a `Board`, on which a change is put up and the subscribers are told. -/

namespace DebugLink

/-! ### Entries of the tables -/

namespace Change

/-- What a change says of the breakpoint with a number. -/
def breakpoint? (number : String) : Change → Option Breakpoint
  | .breakpoint b => if number = b.number then some b else none
  | .threadGroup _ => none

/-- What a change says of the thread group with an id. -/
def threadGroup? (id : String) : Change → Option ThreadGroup
  | .breakpoint _ => none
  | .threadGroup g => if id = g.id then some g else none

theorem number_of_breakpoint? {number : String} {change : Change} {b : Breakpoint}
    (h : change.breakpoint? number = some b) : b.number = number := by
  cases change with
  | breakpoint _ =>
    obtain ⟨same, entry⟩ := Option.ite_none_right_eq_some.mp h
    cases entry
    exact same.symm
  | threadGroup _ => cases h

theorem id_of_threadGroup? {id : String} {change : Change} {g : ThreadGroup}
    (h : change.threadGroup? id = some g) : g.id = id := by
  cases change with
  | breakpoint _ => cases h
  | threadGroup _ =>
    obtain ⟨same, entry⟩ := Option.ite_none_right_eq_some.mp h
    cases entry
    exact same.symm

end Change

namespace BreakpointTable

/-- Every breakpoint stands under its number. -/
def Indexed (t : BreakpointTable) : Prop :=
  ∀ number b, t.get? number = some b → b.number = number

theorem Indexed.get?_merge {t merged : BreakpointTable} {info : Fields} {b : Breakpoint}
    (indexed : t.Indexed) (h : t.merge info = .ok (b, merged)) (number : String) :
    merged.get? number = if number = b.number then some b else t.get? number := by
  unfold merge at h
  split at h
  · cases h
  · rename_i key _
    have known : ((t.get? key).getD ⟨key, []⟩).number = key := by
      cases hk : t.get? key with
      | none => rfl
      | some b => exact indexed key b hk
    cases h
    dsimp only
    rw [known]
    exact Dict.find?_insert t.byNumber number key _

/-- A report leaves what there is to tell of it, and all other entries as they were. -/
theorem Indexed.get?_absorb {t : BreakpointTable} (indexed : t.Indexed) (info : Fields)
    (number : String) : (t.absorb info).get? number =
      ((t.change? info).bind (·.breakpoint? number)).or (t.get? number) := by
  unfold absorb change?
  cases h : t.merge info with
  | error e => rfl
  | ok r =>
    obtain ⟨b, merged⟩ := r
    have entry : ((Except.ok (b, merged) : Except LinkError _).toOption.map
        (Change.breakpoint ·.1)).bind (·.breakpoint? number) =
          if number = b.number then some b else none := rfl
    rw [entry, indexed.get?_merge h]
    split <;> rfl

theorem threadGroup?_change? (t : BreakpointTable) (info : Fields) (id : String) :
    (t.change? info).bind (·.threadGroup? id) = none := by
  unfold change?
  cases t.merge info <;> rfl

end BreakpointTable

namespace ThreadGroupTable

/-- Every thread group stands under its id. -/
def Indexed (t : ThreadGroupTable) : Prop := ∀ id g, t.get? id = some g → g.id = id

section Indexed
variable {t updated : ThreadGroupTable} {g : ThreadGroup}

theorem Indexed.get?_apply {news : GroupNews} (indexed : t.Indexed)
    (h : t.apply news = .ok (g, updated)) (id : String) :
    updated.get? id = if id = g.id then some g else t.get? id := by
  cases t.takes news with
  | refused e _ failed _ =>
    rw [failed] at h
    cases h
  | noted _ _ _ done heard found =>
    rw [done] at h
    cases h
    rw [found, ThreadGroup.id_of_hear (indexed news.group) heard]
    simp only [eq_comm]

/-- News leave what there is to tell of them, and all other entries as they were. -/
theorem Indexed.get?_absorb (indexed : t.Indexed) (news : GroupNews) (id : String) :
    (t.absorb news).get? id = ((t.change? news).bind (·.threadGroup? id)).or (t.get? id) := by
  unfold absorb change?
  cases h : t.apply news with
  | error e => rfl
  | ok r =>
    obtain ⟨g, updated⟩ := r
    have entry : ((Except.ok (g, updated) : Except LinkError _).toOption.map
        (Change.threadGroup ·.1)).bind (·.threadGroup? id) =
          if id = g.id then some g else none := rfl
    rw [entry, indexed.get?_apply h]
    split <;> rfl

end Indexed

theorem breakpoint?_change? (t : ThreadGroupTable) (news : GroupNews) (number : String) :
    (t.change? news).bind (·.breakpoint? number) = none := by
  unfold change?
  cases t.apply news <;> rfl

end ThreadGroupTable

/-! ### Telling subscribers -/

/-- Among elements with ascending keys, one has a given key at most. -/
theorem filter_key_eq {α : Type} {key : α → Nat} {xs : List α}
    (ascending : (xs.map key).Pairwise (· < ·)) {x : α} (hx : x ∈ xs) :
    xs.filter (key · = key x) = [x] := by
  induction xs with
  | nil => cases hx
  | cons y ys ih =>
    obtain ⟨below, rest⟩ := List.pairwise_cons.mp ascending
    have less : ∀ z ∈ ys, key y < key z := fun z hz => below (key z) (List.mem_map_of_mem hz)
    rcases List.mem_cons.mp hx with rfl | later
    · have nobody : ys.filter (key · = key x) = [] := by
        refine List.filter_eq_nil_iff.mpr fun z hz => ?_
        simpa using Nat.ne_of_gt (less z hz)
      rw [List.filter_cons_of_pos (by simp), nobody]
    · rw [List.filter_cons_of_neg (by simpa using Nat.ne_of_lt (less x later)), ih rest later]

/-- What there is to a tracker for those who subscribe to changes. -/
@[ext]
structure Board where
  subscribers : List ChangeSubscriber
  /-- How many subscriptions there are, to changes or records. -/
  subscriptions : Nat
  breakpoint? : String → Option Breakpoint
  threadGroup? : String → Option ThreadGroup
  /-- Who was told what, in the order in which they were told. -/
  told : List (Nat × Change)

namespace Board

/-- A change is put up, and every subscriber told of it. -/
def after (b : Board) (change : Option Change) : Board where
  subscribers := b.subscribers
  subscriptions := b.subscriptions
  breakpoint? number := (change.bind (·.breakpoint? number)).or (b.breakpoint? number)
  threadGroup? id := (change.bind (·.threadGroup? id)).or (b.threadGroup? id)
  told := b.told ++ change.toList.flatMap fun change => b.subscribers.map fun s => (s.id, change)

def subscribe (b : Board) (react : Change → Reaction) : Board :=
  { b with
    subscribers := b.subscribers ++ [⟨b.subscriptions, react⟩]
    subscriptions := b.subscriptions + 1 }

/-- Somebody subscribes to something else. -/
def pass (b : Board) : Board := { b with subscriptions := b.subscriptions + 1 }

/-- Subscribers are numbered in the order of their subscription, and entries stand in their
places. -/
structure Sound (b : Board) : Prop where
  ordered : (b.subscribers.map (·.id)).Pairwise (· < ·)
  counted : ∀ s ∈ b.subscribers, s.id < b.subscriptions
  numbers : ∀ number x, b.breakpoint? number = some x → x.number = number
  ids : ∀ id g, b.threadGroup? id = some g → g.id = id

theorem Sound.after {b : Board} (h : b.Sound) (change : Option Change) :
    (b.after change).Sound where
  ordered := h.ordered
  counted := h.counted
  numbers number x hx := by
    rcases Option.or_eq_some_iff.mp hx with hx | ⟨-, hx⟩
    · obtain ⟨change, -, hx⟩ := Option.bind_eq_some_iff.mp hx
      exact Change.number_of_breakpoint? hx
    · exact h.numbers number x hx
  ids id g hg := by
    rcases Option.or_eq_some_iff.mp hg with hg | ⟨-, hg⟩
    · obtain ⟨change, -, hg⟩ := Option.bind_eq_some_iff.mp hg
      exact Change.id_of_threadGroup? hg
    · exact h.ids id g hg

theorem Sound.subscribe {b : Board} (h : b.Sound) (react : Change → Reaction) :
    (b.subscribe react).Sound where
  ordered := by
    rw [Board.subscribe, List.map_append, List.pairwise_append]
    refine ⟨h.ordered, List.pairwise_singleton _ _, ?_⟩
    intro id hid last hlast
    obtain ⟨s, hs, rfl⟩ := List.mem_map.mp hid
    rw [List.mem_singleton.mp hlast]
    exact h.counted s hs
  counted s hs := by
    rcases List.mem_append.mp hs with hs | hs
    · exact Nat.lt_succ_of_lt (h.counted s hs)
    · rw [List.mem_singleton.mp hs]
      exact Nat.lt_succ_self _
  numbers := h.numbers
  ids := h.ids

theorem Sound.pass {b : Board} (h : b.Sound) : b.pass.Sound :=
  { h with counted := fun s hs => Nat.lt_succ_of_lt (h.counted s hs) }

/-- What one subscriber was told. -/
def toldTo (told : List (Nat × Change)) (id : Nat) : List Change :=
  (told.filter (·.1 = id)).map (·.2)

/-- Of every change a subscriber is told once. -/
theorem Sound.toldTo_after {b : Board} (h : b.Sound) {s : ChangeSubscriber}
    (hs : s ∈ b.subscribers) (change : Option Change) :
    toldTo (b.after change).told s.id = toldTo b.told s.id ++ change.toList := by
  have once : b.subscribers.filter (·.id = s.id) = [s] := filter_key_eq h.ordered hs
  rw [Board.after, toldTo, List.filter_append, List.map_append]
  cases change with
  | none => rfl
  | some change =>
    have same : (fun e : Nat × Change => decide (e.1 = s.id)) ∘ (fun s => (s.id, change)) =
        fun r : ChangeSubscriber => decide (r.id = s.id) := rfl
    rw [Option.toList_some, List.flatMap_singleton, List.filter_map, same, once]
    rfl

/-- What a subscriber was told last of each entry is what the entry is. -/
structure Mirrors (b : Board) (s : ChangeSubscriber) : Prop where
  subscribed : s ∈ b.subscribers
  breakpoints : ∀ number,
    ((toldTo b.told s.id).filterMap (·.breakpoint? number)).getLast? = b.breakpoint? number
  threadGroups : ∀ id,
    ((toldTo b.told s.id).filterMap (·.threadGroup? id)).getLast? = b.threadGroup? id

/-- What is told later counts. -/
theorem Mirrors.after {b : Board} (sound : b.Sound) {s : ChangeSubscriber} (h : b.Mirrors s)
    (change : Option Change) : (b.after change).Mirrors s where
  subscribed := h.subscribed
  breakpoints number := by
    rw [sound.toldTo_after h.subscribed, getLast?_filterMap_append, h.breakpoints]
    rfl
  threadGroups id := by
    rw [sound.toldTo_after h.subscribed, getLast?_filterMap_append, h.threadGroups]
    rfl

/-- Since there were so many records on the board, nobody was told of a change, and nothing was
changed, unless there were more. -/
structure Since (b₀ : Board) (n₀ : Nat) (b : Board) (n : Nat) : Prop where
  grown : n₀ ≤ n
  idle : n = n₀ →
    b.told = b₀.told ∧ b.breakpoint? = b₀.breakpoint? ∧ b.threadGroup? = b₀.threadGroup?

end Board

/-! ### The board of a tracker -/

def Event.told? : Event → Option (Nat × Change)
  | .changed subscriber change => some (subscriber, change)
  | _ => none

def Call.told? : Call → Option (Nat × Change)
  | .announce subscriber change => some (subscriber.id, change)
  | _ => none

theorem told?_of_no_call {e : Event} (h : e.isCall = false) : e.told? = none := by
  cases e with
  | changed _ _ => cases h
  | _ => rfl

theorem told?_event? (c : Call) : c.event?.bind Event.told? = c.told? := by
  cases c with
  | console _ _ handler => cases handler <;> rfl
  | _ => rfl

namespace Tracker

/-- Who was told of which change, in the order in which they were told. -/
def told (t : Tracker) : List (Nat × Change) := t.desk.journal.toList.filterMap Event.told?

def board (t : Tracker) : Board where
  subscribers := t.changeSubscribers
  subscriptions := t.subscriptions
  breakpoint? := t.breakpoints.get?
  threadGroup? := t.threadGroups.get?
  told := t.told

theorem told_eq (t : Tracker) : t.told = t.callEvents.filterMap Event.told? :=
  t.filterMap_journal fun _ => told?_of_no_call

theorem board_of_agrees {t u : Tracker} (h : Agrees Event.isCall t u) : t.board = u.board := by
  have told : t.told = u.told := by
    rw [told_eq, told_eq]
    exact congrArg (List.filterMap Event.told?) h.events
  have rest : { t.fresh.board with told := u.told } = { u.fresh.board with told := u.told } := by
    rw [h.fresh]
  have board : t.board = { t.fresh.board with told := t.told } := rfl
  rw [board, told, rest]
  rfl

theorem board_send (t : Tracker) (text : String) (onResult : OnResult Reaction)
    (onConsole : Option (OnConsole Reaction)) :
    { t with desk := (t.desk.send text onResult onConsole).2 }.board = t.board := by
  have told : { t with desk := (t.desk.send text onResult onConsole).2 }.told = t.told := by
    rw [told_eq, told_eq]
    exact congrArg (List.filterMap Event.told?) (t.desk.callEvents_send text onResult onConsole)
  unfold board
  rw [told]
  rfl

theorem board_onChange (t : Tracker) (react : Change → Reaction) :
    (t.onChange react).2.board = t.board.subscribe react := by
  refine Board.ext rfl ?_ rfl rfl rfl
  simp only [board, onChange, subscriptions, Board.subscribe, List.length_append,
    List.length_singleton]
  omega

theorem board_onRecord (t : Tracker) (kind : Kind) (react : Message → Reaction) :
    (t.onRecord kind react).2.board = t.board.pass := by
  refine Board.ext rfl ?_ rfl rfl rfl
  simp only [board, onRecord, subscriptions, Board.pass, List.length_append,
    List.length_singleton]
  omega

/-! ### A record on the board -/

theorem told?_of_mem_handlerCalls {t : Tracker} {m : Message} {c : Call}
    (hc : c ∈ t.handlerCalls m) : c.told? = none := by
  cases handles_of_mem_handlerCalls hc <;> rfl

theorem filterMap_told?_callsOn (t : Tracker) (m : Message) :
    (t.callsOn m).filterMap Call.told? =
      (t.change? m).toList.flatMap fun change => t.changeSubscribers.map fun s => (s.id, change) := by
  have handlers : (t.handlerCalls m).filterMap Call.told? = [] :=
    List.filterMap_eq_nil_iff.mpr fun _ => told?_of_mem_handlerCalls
  have subscribers : (t.subscriberCalls m).filterMap Call.told? = [] := by
    unfold subscriberCalls
    rw [List.filterMap_map]
    exact List.filterMap_eq_nil_iff.mpr fun _ _ => rfl
  rw [callsOn, List.filterMap_append, List.filterMap_append, handlers, subscribers,
    List.append_nil, List.nil_append, changeCalls]
  cases t.change? m with
  | none => rfl
  | some change =>
    rw [Option.toList_some, List.flatMap_singleton, List.flatMap_singleton, List.filterMap_map]
    exact congrFun (List.filterMap_eq_map (f := fun s : ChangeSubscriber => (s.id, change))) _

theorem told_take (t : Tracker) (m : Message) : (t.take m).told = t.told ++
    (t.change? m).toList.flatMap fun change => t.changeSubscribers.map fun s => (s.id, change) := by
  rw [told_eq, told_eq, callEvents_take, List.filterMap_append, List.filterMap_filterMap,
    ← filterMap_told?_callsOn]
  exact congrArg (_ ++ List.filterMap · _) (funext told?_event?)

end Tracker

/-- News of a thread group are no report of a breakpoint. -/
theorem History.report?_of_news? (h : History) {m : Message} {news : GroupNews}
    (hn : m.news? = some news) : h.report? m = none := by
  obtain ⟨hk, hn⟩ := Option.ite_none_right_eq_some.mp hn
  unfold report?
  rw [hk]
  dsimp only
  obtain ⟨-, -, -, other⟩ | ⟨-, none⟩ := Tracker.threadGroupUpdate?_brings {} m.record
  · exact other
  · rw [none] at hn
    cases hn

/-- The change that a record makes comes of what the record says. -/
theorem change?_eq {t : Tracker} {h : History} (tabled : Tabled t h) (m : Message) :
    t.change? m = (m.news?.bind t.threadGroups.change?).or
      ((h.report? m).bind t.breakpoints.change?) := by
  unfold Tracker.change? Message.news? History.report? Message.outcome?
  cases hk : m.record.kind with
  | result =>
    rw [if_neg (by simp), Option.bind_none, Option.none_or]
    cases m.token with
    | none => cases CommandState.ofResult? m.record.what <;> rfl
    | some token =>
      have standing := tabled.standing token
      unfold Tracker.standing? at standing
      simp only [Option.bind_eq_bind, Option.bind_some, and_self, if_true, ← standing]
      cases CommandState.ofResult? m.record.what with
      | none => rfl
      | some state => cases t.desk.commands.find? token <;> rfl
  | notifyAsync => rfl
  | _ => rfl

namespace Tracker

theorem breakpoints_take {t : Tracker} {h : History} (tabled : Tabled t h) (m : Message) :
    (t.take m).breakpoints =
      (h.report? m).toList.foldl BreakpointTable.absorb t.breakpoints := by
  obtain ⟨_, fresh⟩ := t.fresh_take m
  exact (congrArg (·.breakpoints) fresh).trans (breakpoints_settle tabled m)

theorem threadGroups_take (t : Tracker) (m : Message) :
    (t.take m).threadGroups = m.news?.toList.foldl ThreadGroupTable.absorb t.threadGroups := by
  obtain ⟨_, fresh⟩ := t.fresh_take m
  exact (congrArg (·.threadGroups) fresh).trans (threadGroups_settle t m)

theorem board_take {t : Tracker} {h : History} (tabled : Tabled t h) (sound : t.board.Sound)
    (m : Message) : (t.take m).board = t.board.after (t.change? m) := by
  obtain ⟨changeSubscribers, recordSubscribers⟩ := t.subscribers_take m
  have subscriptions : (t.take m).subscriptions = t.subscriptions := by
    rw [Tracker.subscriptions, changeSubscribers, recordSubscribers, Tracker.subscriptions]
  have indexed : t.breakpoints.Indexed ∧ t.threadGroups.Indexed := ⟨sound.numbers, sound.ids⟩
  refine Board.ext changeSubscribers subscriptions (funext fun number => ?_)
    (funext fun id => ?_) (t.told_take m)
  · show (t.take m).breakpoints.get? number =
      ((t.change? m).bind (·.breakpoint? number)).or (t.breakpoints.get? number)
    rw [breakpoints_take tabled, change?_eq tabled]
    cases hn : m.news? with
    | some news =>
      rw [h.report?_of_news? hn, Option.bind_some, Option.bind_none, Option.or_none,
        ThreadGroupTable.breakpoint?_change?]
      rfl
    | none =>
      cases h.report? m with
      | none => rfl
      | some info => exact indexed.1.get?_absorb info number
  · show (t.take m).threadGroups.get? id =
      ((t.change? m).bind (·.threadGroup? id)).or (t.threadGroups.get? id)
    rw [threadGroups_take, change?_eq tabled]
    cases hn : m.news? with
    | some news =>
      rw [h.report?_of_news? hn, Option.bind_none, Option.or_none]
      exact indexed.2.get?_absorb news id
    | none =>
      cases h.report? m with
      | none => rfl
      | some info =>
        rw [Option.bind_none, Option.none_or, Option.bind_some,
          BreakpointTable.threadGroup?_change?]
        rfl

end Tracker

/-! ### Runs -/

/-- The board is in order, and something holds of it and of the number of records that came in. -/
structure Watched (P : Board → Nat → Prop) (t : Tracker) (h : History) : Prop where
  tabled : Tabled t h
  sound : t.board.Sound
  holds : P t.board h.records.length

/-- Neither subscriptions nor records change that a property holds of boards. -/
structure Board.Steady (P : Board → Nat → Prop) : Prop where
  subscribe {b : Board} {n : Nat} (react : Change → Reaction) :
    b.Sound → P b n → P (b.subscribe react) n
  pass {b : Board} {n : Nat} : P b n → P b.pass n
  after {b : Board} {n : Nat} (change : Option Change) :
    b.Sound → P b n → P (b.after change) (n + 1)

/-- What subscriptions and records keep, everything in a run keeps. -/
theorem lasting_watched {P : Board → Nat → Prop} (steady : Board.Steady P) :
    Lasting (Watched P) where
  quiet {t u _} agrees w := by
    have board : t.board = u.board := Tracker.board_of_agrees agrees
    exact ⟨kept_tabled.lasting.quiet agrees w.tabled, board ▸ w.sound, board ▸ w.holds⟩
  close w := ⟨kept_tabled.close w.tabled, w.sound, w.holds⟩
  onChange {t _} react w := by
    refine ⟨kept_tabled.subscribe _ _ w.tabled, ?_, ?_⟩
    · rw [t.board_onChange react]
      exact w.sound.subscribe react
    · rw [t.board_onChange react]
      exact steady.subscribe react w.sound w.holds
  onRecord {t _} kind react w := by
    refine ⟨kept_tabled.subscribe _ _ w.tabled, ?_, ?_⟩
    · rw [t.board_onRecord kind react]
      exact w.sound.pass
    · rw [t.board_onRecord kind react]
      exact steady.pass w.holds
  clearOnConsole token w := ⟨kept_tabled.clearOnConsole token w.tabled, w.sound, w.holds⟩
  send {t h} text onResult onConsole w := by
    have records := History.sending_of_ignoring (f := History.records) (fun _ _ _ _ => rfl)
      (fun _ _ => rfl) h t.desk text onResult onConsole
    have board := t.board_send text onResult onConsole
    exact ⟨kept_tabled.send text onResult onConsole w.tabled, board ▸ w.sound,
      records ▸ board ▸ w.holds⟩
  forget token w := ⟨kept_tabled.forget token w.tabled, w.sound, w.holds⟩
  take {t h} m w := by
    have records := History.taking_of_ignoring (f := History.records) (fun _ _ _ _ => rfl)
      (fun _ _ => rfl) (fun _ _ => rfl) t h m
    have board := Tracker.board_take w.tabled w.sound m
    refine ⟨kept_tabled.lasting.take m w.tabled, ?_, ?_⟩
    · rw [board]
      exact w.sound.after _
    · rw [board, records, History.records, List.length_append]
      exact steady.after _ w.sound w.holds

theorem Board.steady_mirrors (s : ChangeSubscriber) : Board.Steady fun b _ => b.Mirrors s where
  subscribe _ _ mirrors := { mirrors with subscribed := List.mem_append_left _ mirrors.subscribed }
  pass mirrors := { mirrors with }
  after change sound mirrors := mirrors.after sound change

theorem Board.steady_since (b₀ : Board) (n₀ : Nat) : Board.Steady (Board.Since b₀ n₀) where
  subscribe _ _ since := ⟨since.grown, since.idle⟩
  pass since := ⟨since.grown, since.idle⟩
  after _ _ since :=
    ⟨Nat.le_succ_of_le since.grown,
      fun same => absurd since.grown (Nat.not_le.mpr (same ▸ Nat.lt_succ_self _))⟩

theorem watched_chronicle {P : Board → Nat → Prop} (steady : Board.Steady P) (source : Source)
    (sink : Sink) (settings : Settings)
    (start : P (Session.connect source sink settings).tracker.board 0) (moves : List Move) :
    Watched P (Session.chronicle source sink settings moves).tracker
      (Session.chronicle source sink settings moves).history := by
  have sound : (Session.connect source sink settings).tracker.board.Sound :=
    ⟨List.Pairwise.nil, fun _ hs => absurd hs List.not_mem_nil, nofun, nofun⟩
  exact (lasting_watched steady).chronicle ⟨tabled_connect source sink settings, sound, start⟩ moves

/-- Whoever subscribes before the first record has the tables from then on, by keeping what he was
told last of each entry. -/
theorem mirrors_chronicle (source : Source) (sink : Sink) (settings : Settings)
    (before after : List Move) {s : ChangeSubscriber}
    (early : (Session.chronicle source sink settings before).history.records = [])
    (hs : s ∈ (Session.chronicle source sink settings before).tracker.changeSubscribers) :
    (Session.chronicle source sink settings (before ++ after)).tracker.board.Mirrors s := by
  have start := watched_chronicle (Board.steady_since _ 0) source sink settings
    ⟨Nat.le_refl _, fun _ => ⟨rfl, rfl, rfl⟩⟩ before
  obtain ⟨told, breakpoints, threadGroups⟩ := start.holds.idle (congrArg List.length early)
  have mirrors : (Session.chronicle source sink settings before).tracker.board.Mirrors s := by
    refine ⟨hs, fun number => ?_, fun id => ?_⟩
    · rw [told, breakpoints]
      rfl
    · rw [told, threadGroups]
      rfl
  have whole : Session.chronicle source sink settings (before ++ after) =
      (Session.chronicle source sink settings before).run after := Chronicle.run_append _ _ _
  rw [whole]
  exact ((lasting_watched (Board.steady_mirrors s)).run ⟨start.tabled, start.sound, mirrors⟩
    after).holds

/-! ### What a record does to the tables, and whether it is told -/

section told
variable {t : Tracker} {h : History} {m : Message}

theorem told_report (tabled : Tabled t h) (sound : t.board.Sound) {info : Fields}
    (hr : h.report? m = some info) :
    match t.breakpoints.merge info with
    | .ok (b, merged) => t.change? m = some (.breakpoint b) ∧
        (t.take m).breakpoints = merged ∧ merged.get? b.number = some b
    | .error _ => t.change? m = none ∧ (t.take m).breakpoints = t.breakpoints := by
  have unheard : m.news? = none := by
    cases hn : m.news? with
    | none => rfl
    | some news =>
      rw [h.report?_of_news? hn] at hr
      cases hr
  have change := change?_eq tabled m
  have taken := Tracker.breakpoints_take tabled m
  rw [unheard, hr, Option.bind_none, Option.none_or, Option.bind_some,
    BreakpointTable.change?] at change
  rw [hr, Option.toList_some, List.foldl_cons, List.foldl_nil, BreakpointTable.absorb] at taken
  have indexed : t.breakpoints.Indexed := sound.numbers
  cases hm : t.breakpoints.merge info with
  | error e =>
    rw [hm] at change taken
    exact ⟨change, taken⟩
  | ok r =>
    obtain ⟨b, merged⟩ := r
    rw [hm] at change taken
    exact ⟨change, taken, (indexed.get?_merge hm b.number).trans (if_pos rfl)⟩

theorem told_news (tabled : Tabled t h) (sound : t.board.Sound) {news : GroupNews}
    (hn : m.news? = some news) :
    match t.threadGroups.apply news with
    | .ok (g, updated) => t.change? m = some (.threadGroup g) ∧
        (t.take m).threadGroups = updated ∧ updated.get? g.id = some g
    | .error _ => t.change? m = none ∧ (t.take m).threadGroups = t.threadGroups := by
  have change := change?_eq tabled m
  have taken := t.threadGroups_take m
  rw [hn, h.report?_of_news? hn, Option.bind_none, Option.or_none, Option.bind_some,
    ThreadGroupTable.change?] at change
  rw [hn, Option.toList_some, List.foldl_cons, List.foldl_nil, ThreadGroupTable.absorb] at taken
  have indexed : t.threadGroups.Indexed := sound.ids
  cases hm : t.threadGroups.apply news with
  | error e =>
    rw [hm] at change taken
    exact ⟨change, taken⟩
  | ok r =>
    obtain ⟨g, updated⟩ := r
    rw [hm] at change taken
    exact ⟨change, taken, (indexed.get?_apply hm g.id).trans (if_pos rfl)⟩

theorem change?_of_silence (tabled : Tabled t h) (hr : h.report? m = none) (hn : m.news? = none) :
    t.change? m = none := by
  rw [change?_eq tabled, hr, hn]
  rfl

end told

/-- In every run, whoever subscribed to changes before the first record has the tables by keeping
what he was told last of each breakpoint and each thread group. For he is told as follows. A report
of a breakpoint that can be merged, or news of a thread group that can be true, is told to all
subscribers once, in the order of their subscription, with the entry as it is then; other reports
and news change nothing, and nobody is told of anything else. -/
theorem change_subscribers_mirror_the_tables (source : Source) (sink : Sink) (settings : Settings)
    (before after : List Move)
    (early : (Session.chronicle source sink settings before).history.records = []) :
    let c := Session.chronicle source sink settings (before ++ after)
    let t := c.tracker
    (∀ s ∈ (Session.chronicle source sink settings before).tracker.changeSubscribers,
      t.board.Mirrors s) ∧
      (t.changeSubscribers.map (·.id)).Pairwise (· < ·) ∧
      (∀ m, (t.take m).told = t.told ++
        (t.change? m).toList.flatMap fun change => t.changeSubscribers.map fun s => (s.id, change)) ∧
      (∀ m info, c.history.report? m = some info →
        match t.breakpoints.merge info with
        | .ok (b, merged) => t.change? m = some (.breakpoint b) ∧
            (t.take m).breakpoints = merged ∧ merged.get? b.number = some b
        | .error _ => t.change? m = none ∧ (t.take m).breakpoints = t.breakpoints) ∧
      (∀ m news, m.news? = some news →
        match t.threadGroups.apply news with
        | .ok (g, updated) => t.change? m = some (.threadGroup g) ∧
            (t.take m).threadGroups = updated ∧ updated.get? g.id = some g
        | .error _ => t.change? m = none ∧ (t.take m).threadGroups = t.threadGroups) ∧
      (∀ m, c.history.report? m = none → m.news? = none → t.change? m = none) ∧
      ∀ move, (c.step move).history.records = c.history.records →
        (c.step move).tracker.told = t.told := by
  intro c t
  have steady := Board.steady_since t.board c.history.records.length
  have watched := watched_chronicle (Board.steady_since _ 0) source sink settings
    ⟨Nat.le_refl _, fun _ => ⟨rfl, rfl, rfl⟩⟩ (before ++ after)
  refine ⟨fun s hs => mirrors_chronicle source sink settings before after early hs,
    watched.sound.ordered, t.told_take, fun m info => told_report watched.tabled watched.sound,
    fun m news => told_news watched.tabled watched.sound,
    fun m => change?_of_silence watched.tabled, fun move same => ?_⟩
  have idle : Watched _ (c.step move).tracker (c.step move).history :=
    (lasting_watched steady).step
      ⟨watched.tabled, watched.sound, Nat.le_refl _, fun _ => ⟨rfl, rfl, rfl⟩⟩ move
  exact (idle.holds.idle (congrArg List.length same)).1

/-- A subscriber who asks for the threads of whatever he is told of. The second record is news of a
thread group that was not added. -/
theorem a_change_subscriber_mirrors_a_thread_group :
    let ask : Change → Reaction := fun _ => .send "-thread-info" .nothing none fun _ => .done
    let lines := "=thread-group-added,id=\"i1\"\n=thread-created,id=\"1\",group-id=\"i2\"\n"
    let source : Source := ⟨.channel { queue := [Utf8.encode lines] }, {}⟩
    let before := [.onChange ask]
    let c := Session.chronicle source {} {} (before ++ [.fill, .takeLine, .takeLine])
    (Session.chronicle source {} {} before).history.records = [] ∧
      c.tracker.told = [(0, .threadGroup { id := "i1" })] ∧
      c.tracker.threadGroups.get? "i1" = some { id := "i1" } ∧
      c.history.sends = [(⟨1⟩, "-thread-info")] ∧
      ∀ s ∈ (Session.chronicle source {} {} before).tracker.changeSubscribers,
        c.tracker.board.Mirrors s := by
  intro ask lines source before c
  have early : (Session.chronicle source {} {} before).history.records = [] := rfl
  obtain ⟨mirrors, -⟩ := change_subscribers_mirror_the_tables source {} {} before
    [.fill, .takeLine, .takeLine] early
  exact ⟨early, by decide, by decide, by decide, mirrors⟩

end DebugLink
